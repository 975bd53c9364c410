import TreeScript.Proofs.HostManner

/-!
# How functions are named

A function literal makes a function without a name.  If the literal is the value of a
definition of a plain name, the definition takes the function in hand and names it; nothing
else names functions, unless a function of the host does so on its own (`Host.LeavesNames`).

Of a process this is a property of its tree.  `Process.Names` follows the function that is
in hand: it is received from the goal of the literal, whatever is evaluated meanwhile it
stays in hand, and once it is named it is not in hand anymore.  The goal of the literal has
it in hand from when it makes it until it answers with it.  So every goal of evaluation
names only what it has received (`Evaluation.names_ofGoal`), and the goal of a function
literal answers only with a function that it has made (`Evaluation.delivers_ofGoal`).
-/

namespace TreeScript

open Rule

/-! ## Namings -/

/-- A definition that names a function: its identifier, the function literal that is its value,
and where the literal is evaluated. -/
structure Naming where
  identifier : String
  literal : Node
  scope : Scope
  context : Context

/-- The function that is in hand, with the definition that it is for. -/
abbrev InHand :=
  Option (FunctionId × Naming)

namespace Naming

/-- The name that the function gets: the identifier with the namespaces around it in front. -/
def name (naming : Naming) : String :=
  naming.scope.qualifier ++ naming.identifier

/-- The goal of the function literal. -/
def goal (naming : Naming) : Goal :=
  .evaluate naming.literal naming.scope naming.context

/-- What is in hand once the goal of the literal has been answered. -/
def taken (naming : Naming) : Outcome → InHand
  | .ok (.fn function) => some (function, naming)
  | _ => none

/-- The value of the definition is in fact a function literal. -/
def HasLiteral (naming : Naming) : Prop :=
  ∃ parameters statements, naming.literal.shape = .function parameters statements

/-- The body of a function that the literal makes. -/
def Makes (naming : Naming) (body : Body) : Prop :=
  ∃ parameters fallbacks statements, naming.literal.shape = .function parameters statements ∧
    body = .closure parameters fallbacks statements naming.scope

/-- The definition is written as a node: a plain name with a function literal as its value. -/
def IsWrittenAs (naming : Naming) (node : Node) : Prop :=
  ∃ target isMutable attributes,
    node.shape = .definition target naming.literal isMutable attributes ∧
      target.shape = .identifier naming.identifier ∧ naming.HasLiteral

/-- The definition is a member of one of the namespaces that some nodes declare in a scope, or of
one of those in them. -/
inductive IsMember (mode : Mode) (naming : Naming) : Scope → List Node → Prop where
  | direct {scope : Scope} {nodes members : List Node} {block member : Node} {layer : LayerId}
      {space : String}
      (among : block ∈ nodes)
      (declares : block.shape = .namespaceBlock space members)
      (mem : member ∈ members)
      (written : naming.IsWrittenAs member)
      (inside : naming.scope = .member layer space scope)
      (top : naming.context = .top mode) :
      IsMember mode naming scope nodes
  | nested {scope : Scope} {nodes members : List Node} {block : Node} {layer : LayerId}
      {space : String}
      (among : block ∈ nodes)
      (declares : block.shape = .namespaceBlock space members)
      (isMember : IsMember mode naming (.member layer space scope) members) :
      IsMember mode naming scope nodes

theorem IsMember.mono {mode : Mode} {naming : Naming} {scope : Scope} {nodes more : List Node}
    (isMember : naming.IsMember mode scope nodes) (subset : nodes ⊆ more) :
    naming.IsMember mode scope more := by
  cases isMember with
  | direct among declares mem written inside top =>
      exact .direct (subset among) declares mem written inside top
  | nested among declares isMember => exact .nested (subset among) declares isMember

end Naming

/-- Whether a goal is the evaluation of a definition. -/
def Goal.isDefinition : Goal → Bool
  | .evaluate node _ _ => node.shape.isDefinition
  | _ => false

/-- The goal of a definition may name what its value makes. -/
def Goal.Names : Goal → Naming → Prop
  | .evaluate node scope context, naming =>
      naming.IsWrittenAs node ∧ naming.scope = scope ∧ naming.context = context
  | _, _ => False

/-- An answer with a function is one with the function that is in hand for a definition. -/
def Turn.Delivers (naming : Naming) (inHand : InHand) (turn : Turn) : Prop :=
  ∃ outcome, turn = .answer outcome ∧
    ∀ function, outcome = .ok (.fn function) → inHand = some (function, naming)

/-! ## Processes -/

/-- What a process may do about the names of functions. -/
structure Duty where
  /-- The definitions that it carries out. -/
  names : Naming → Prop
  /-- The definitions whose function literal it evaluates. -/
  makes : Naming → Prop
  /-- Functions of the host may take part. -/
  hosted : Prop

namespace Process

variable {α β : Type} {duty : Duty}

/-- A process that names only what it has in hand, and ends as it may with what is left there.
Without a host it counts on stores without functions of the host. -/
inductive Names (duty : Duty) (ends : InHand → α → Prop) : InHand → Process α → Prop where
  | done {inHand : InHand} {result : α}
      (ended : ends inHand result) :
      Names duty ends inHand (.done result)
  | act {inHand : InHand} {action : Action} {next : action.Reply → Process α}
      (noNaming : action.isNaming = false)
      (rest : ∀ reply, duty.hosted ∨ action.Expected reply → Names duty ends inHand (next reply)) :
      Names duty ends inHand (.act action next)
  | name {function : FunctionId} {naming : Naming} {next : Unit → Process α}
      (names : duty.names naming)
      (rest : Names duty ends none (next ())) :
      Names duty ends (some (function, naming)) (.act (.nameFunction function naming.name) next)
  | make {inHand : InHand} {naming : Naming} {body : Body} {next : FunctionId → Process α}
      (makes : duty.makes naming)
      (made : naming.Makes body)
      (rest : ∀ function, Names duty ends (some (function, naming)) (next function)) :
      Names duty ends inHand (.act (.newFunction none body) next)
  | wait {inHand : InHand} {reason : Wait} {next : Process α}
      (rest : Names duty ends inHand next) :
      Names duty ends inHand (.wait reason next)
  | call {inHand : InHand} {goal : Goal} {next : Outcome → Process α}
      (rest : ∀ outcome, Names duty ends inHand (next outcome)) :
      Names duty ends inHand (.call goal next)
  | literal {inHand : InHand} {naming : Naming} {next : Outcome → Process α}
      (names : duty.names naming)
      (written : naming.HasLiteral)
      (rest : ∀ outcome, Names duty ends (naming.taken outcome) (next outcome)) :
      Names duty ends inHand (.call naming.goal next)
  | drive {inHand : InHand} {goal : Goal} {next : Outcome → Process α}
      (rest : ∀ outcome, Names duty ends inHand (next outcome)) :
      Names duty ends inHand (.drive goal next)

namespace Names

variable {inHand : InHand} {ends : InHand → α → Prop}

theorem bind {process : Process α} (names : process.Names duty ends inHand)
    {continuation : α → Process β} {after : InHand → β → Prop}
    (goesOn : ∀ left result, ends left result → (continuation result).Names duty after left) :
    (process.bind continuation).Names duty after inHand := by
  induction names with
  | done ended => exact goesOn _ _ ended
  | act noNaming _ inductive_step => exact .act noNaming inductive_step
  | name names _ inductive_step => exact .name names inductive_step
  | make makes made _ inductive_step => exact .make makes made inductive_step
  | wait _ inductive_step => exact .wait inductive_step
  | call _ inductive_step => exact .call inductive_step
  | literal names written _ inductive_step => exact .literal names written inductive_step
  | drive _ inductive_step => exact .drive inductive_step

theorem mono {process : Process α} (names : process.Names duty ends inHand)
    {after : InHand → α → Prop} (weaker : ∀ left result, ends left result → after left result) :
    process.Names duty after inHand := by
  have ended := names.bind fun left result given => .done (weaker left result given)
  rwa [process.bind_done] at ended

end Names

end Process

/-! ## Rules -/

/-- The manner of what names no function. -/
def Manner.unnaming : Manner where
  acts action := action.isNaming = false
  replies _ _ := True
  waits _ := True
  calls _ := True
  drives _ := True

/-- A host none of whose functions names a function on its own. -/
def Host.LeavesNames (host : Host) : Prop :=
  host.Minds .unnaming

variable {α β : Type} {duty : Duty} {inHand : InHand}

/-- A rule that names nothing, so that what is in hand stays there. -/
def Rule.LeavesNames (duty : Duty) (rule : Rule α) : Prop :=
  ∀ inHand, rule.run.Names duty (fun left _ => left = inHand) inHand

/-- A rule that names only what it has in hand, and that gives what it may with what is left
there, if it is not interrupted. -/
def Rule.Names (duty : Duty) (gives : InHand → α → Prop) (inHand : InHand) (rule : Rule α) :
    Prop :=
  rule.run.Names duty (fun left result => ∀ given ∈ result.toOption, gives left given) inHand

theorem Process.Uses.names {holds : α → Prop} {process : Process α}
    (uses : process.Uses .unnaming holds) (inHand : InHand) :
    process.Names duty (fun left _ => left = inHand) inHand := by
  induction uses with
  | done => exact .done rfl
  | act noNaming _ inductive_step =>
      exact .act noNaming fun reply _ => inductive_step reply trivial
  | wait _ _ inductive_step => exact .wait inductive_step
  | call _ _ inductive_step => exact .call inductive_step
  | drive _ _ inductive_step => exact .drive inductive_step

namespace Rule

theorem leavesNames_perform {action : Action} (noNaming : action.isNaming = false) :
    (perform action).LeavesNames duty :=
  fun _ => .act noNaming fun _ _ => .done rfl

/-- What a rule sees of the store is what it counts on. -/
theorem leavesNames_look_bind {view : Store → α} {continuation : α → Rule β}
    (goesOn : ∀ store : Store, duty.hosted ∨ store.Hostless →
      (continuation (view store)).LeavesNames duty) :
    (look view >>= continuation).LeavesNames duty :=
  fun inHand => .act rfl fun store counted => goesOn store counted inHand

theorem leavesNames_wait (reason : Wait) : (wait reason).LeavesNames duty :=
  fun _ => .wait (.done rfl)

theorem LeavesNames.outcome_bind {rule : Rule α} (leaves : rule.LeavesNames duty)
    {continuation : Except Interrupt α → Rule β}
    (goesOn : ∀ result, (continuation result).LeavesNames duty) :
    (rule.outcome >>= continuation).LeavesNames duty := by
  intro inHand
  rw [run_outcome_bind]
  refine (leaves inHand).bind fun left result same => ?_
  subst same
  exact goesOn result _

/-- Rules that name nothing may follow each other. -/
theorem sequential_leavesNames (duty : Duty) :
    Sequential fun _ rule => rule.LeavesNames duty where
  pure _ _ := .done rfl
  throw _ _ := .done rfl
  bind first goesOn inHand := by
    refine (first inHand).bind fun left result same => ?_
    subst same
    cases result with
    | error interrupt => exact .done rfl
    | ok result => exact goesOn result _
  outcome first goesOn _ := first.outcome_bind goesOn

/-- Rules are written so that names are given by definitions alone. -/
theorem compositional_leavesNames (duty : Duty) (mode : Mode) :
    Compositional mode fun _ rule => rule.LeavesNames duty where
  toSequential := sequential_leavesNames duty
  perform _ _ alone := leavesNames_perform (Action.standsAlone_iff.mp alone).1
  decorate _ _ _ _ _ _ sameCause := by
    have sequential := sequential_leavesNames duty
    exact sequential.bind
      (sequential.mapError (sequential.attempt (leavesNames_perform rfl)) sameCause)
      fun _ => sequential.attempt (leavesNames_perform rfl)
  call _ _ := .call fun _ => .done rfl
  drive _ _ _ := .drive fun _ => .done rfl

theorem closed_leavesNames (duty : Duty) (mode : Mode) :
    Closed mode fun _ rule => rule.LeavesNames duty :=
  (compositional_leavesNames duty mode).closed fun _ _ _ => leavesNames_perform rfl

theorem LeavesNames.names {rule : Rule α} (leaves : rule.LeavesNames duty) (inHand : InHand) :
    rule.Names duty (fun left _ => left = inHand) inHand :=
  (leaves inHand).mono fun _ _ same _ _ => same

namespace Names

variable {gives : InHand → α → Prop} {givesAfter : InHand → β → Prop}

theorem of_pure {result : α} (given : gives inHand result) :
    (pure result : Rule α).Names duty gives inHand := by
  refine .done fun other same => ?_
  cases same
  exact given

theorem throw (interrupt : Interrupt) : (throw interrupt : Rule α).Names duty gives inHand :=
  .done nofun

theorem bind {rule : Rule α} (names : rule.Names duty gives inHand) {continuation : α → Rule β}
    (goesOn : ∀ left given, gives left given →
      (continuation given).Names duty givesAfter left) :
    (rule >>= continuation).Names duty givesAfter inHand := by
  refine Process.Names.bind names fun left result given => ?_
  rcases result with interrupt | result
  · exact throw interrupt
  · exact goesOn left result (given result rfl)

/-- What follows a rule that names nothing finds in hand what was there before. -/
theorem afterLeaving {rule : Rule α} (leaves : rule.LeavesNames duty)
    {continuation : α → Rule β}
    (goesOn : ∀ given, (continuation given).Names duty givesAfter inHand) :
    (rule >>= continuation).Names duty givesAfter inHand :=
  (leaves.names inHand).bind fun _ given same => same ▸ goesOn given

theorem mono {rule : Rule α} (names : rule.Names duty gives inHand)
    {weaker : InHand → α → Prop} (weakens : ∀ left given, gives left given → weaker left given) :
    rule.Names duty weaker inHand :=
  Process.Names.mono names fun left _ given other same => weakens left other (given other same)

theorem mapError {rule : Rule α} (names : rule.Names duty gives inHand)
    (change : Error → Error) :
    (rule.mapError change).Names duty gives inHand := by
  unfold Rule.Names
  rw [Rule.mapError, run_outcome_bind]
  refine Process.Names.bind names fun left result given => ?_
  rcases result with (signal | error) | result
  · exact throw (.signal signal)
  · exact throw (.error (change error))
  · exact .done given

end Names

end Rule

/-! ## Definitions -/

namespace Evaluation

variable {host : Host} {options : Options} {scope : Scope} {context : Context}

/-- The function literal of a definition is evaluated, and what it gives is in hand. -/
theorem names_evaluate_bind {naming : Naming} (names : duty.names naming)
    (written : naming.HasLiteral) {gives : InHand → β → Prop} {continuation : Value → Rule β}
    (goesOn : ∀ value, (continuation value).Names duty gives (naming.taken (.ok value))) :
    (evaluate naming.literal naming.scope naming.context >>= continuation).Names duty gives
      inHand := by
  refine .literal names written fun outcome => ?_
  cases outcome with
  | error interrupt => exact Names.throw interrupt
  | ok value => exact goesOn value

/-- A member is named in the same way, although no signal may leave its value. -/
theorem names_expecting_bind {naming : Naming} (names : duty.names naming)
    (written : naming.HasLiteral) {gives : InHand → β → Prop} {continuation : Value → Rule β}
    (goesOn : ∀ value, (continuation value).Names duty gives (naming.taken (.ok value))) :
    (expectingValue (evaluate naming.literal naming.scope naming.context) >>=
      continuation).Names duty gives inHand := by
  refine .literal names written fun outcome => ?_
  rcases outcome with (signal | error) | value
  · exact Names.throw _
  · exact Names.throw (.error error)
  · exact goesOn value

/-- The definition of a plain name with a function literal as its value names what is in hand. -/
theorem names_nameLiteral {naming : Naming} (names : duty.names naming) {target : Node}
    (named : target.shape = .identifier naming.identifier) (written : naming.HasLiteral)
    (value : Value) :
    (nameLiteral naming.scope target naming.literal value).Names duty (fun left _ => left = none)
      (naming.taken (.ok value)) := by
  obtain ⟨parameters, statements, shape⟩ := written
  unfold nameLiteral
  rw [shape, named]
  cases value with
  | fn function => exact .name names (.done fun _ _ => rfl)
  | _ => exact .done fun _ _ => rfl

/-- No other definition names anything. -/
theorem leavesNames_nameLiteral {target literal : Node} (value : Value)
    (plain : ¬ ((∃ identifier, target.shape = .identifier identifier) ∧
      ∃ parameters statements, literal.shape = .function parameters statements)) :
    (nameLiteral scope target literal value).LeavesNames duty := by
  unfold nameLiteral
  split
  · rename_i parameters statements identifier function isFunction isIdentifier
    exact (plain ⟨⟨identifier, isIdentifier⟩, parameters, statements, isFunction⟩).elim
  · exact fun _ => .done rfl

/-- A definition names what its value makes, if anything. -/
theorem names_definition (start : Position) {node : Node}
    (isDefinition : node.shape.isDefinition = true)
    (within : ∀ naming, (Goal.evaluate node scope context).Names naming → duty.names naming) :
    (construct scope context start node.shape).Names duty (fun _ _ => True) none := by
  have closed := closed_leavesNames duty context.mode
  cases shape : node.shape with
  | definition target literal isMutable attributes =>
      by_cases names : (∃ identifier, target.shape = .identifier identifier) ∧
          ∃ parameters statements, literal.shape = .function parameters statements
      · obtain ⟨⟨identifier, named⟩, written⟩ := names
        let naming : Naming := ⟨identifier, literal, scope, context⟩
        have names : duty.names naming :=
          within naming ⟨⟨target, isMutable, attributes, shape, named, written⟩, rfl, rfl⟩
        refine names_evaluate_bind names written fun value => ?_
        refine .afterLeaving (closed_evaluateAttributes closed attributes) fun attributes => ?_
        refine (names_nameLiteral names named written value).bind fun left _ _ => ?_
        exact ((closed_defineNamed closed target isMutable value attributes).names left).mono
          fun _ _ _ => trivial
      · refine .afterLeaving (closed_evaluate closed literal) fun value => ?_
        refine .afterLeaving (closed_evaluateAttributes closed attributes) fun attributes => ?_
        refine .afterLeaving (leavesNames_nameLiteral value names) fun _ => ?_
        exact ((closed_defineNamed closed target isMutable value attributes).names none).mono
          fun _ _ _ => trivial
  | _ =>
      rw [shape] at isDefinition
      cases isDefinition

/-- A function literal gives a function that it has made. -/
theorem makes_function {naming : Naming} (makes : duty.makes naming)
    (written : naming.HasLiteral) (start : Position) :
    (construct naming.scope naming.context start naming.literal.shape).Names duty
      (fun left value => ∀ function, value = .fn function → left = some (function, naming))
      none := by
  have closed := closed_leavesNames duty naming.context.mode
  obtain ⟨parameters, statements, shape⟩ := written
  rw [shape]
  refine .afterLeaving (closed_fallbacks closed parameters) fun fallbacks => ?_
  refine .make makes ⟨parameters, fallbacks, statements, shape, rfl⟩ fun function => .done ?_
  rintro _ ⟨⟩ _ ⟨⟩
  rfl

/-! ## Goals -/

theorem leavesNames_gate (irq : Irq) : (gate irq).LeavesNames duty :=
  closed_gate (closed_leavesNames duty .asynchronous) (leavesNames_perform rfl)
    (leavesNames_perform rfl) (leavesNames_perform rfl) leavesNames_wait irq

theorem leavesNames_enter (callee : Value) (arguments : List Value) (mode : Mode) :
    (enter callee arguments mode).LeavesNames duty := by
  have closed := closed_leavesNames duty mode
  refine (closed_applyValue closed callee arguments).outcome_bind fun outcome => ?_
  split
  · exact closed.pure _
  · refine closed.bind (leavesNames_perform rfl) fun answer => ?_
    cases answer with
    | some error => exact closed_fail closed error
    | none => exact closed.pure _

/-- The evaluation of a node does about names what its construct does. -/
theorem names_evaluateNode {gives : InHand → Value → Prop} {node : Node}
    (stopped : gives none .null)
    (constructs : (construct scope context node.start node.shape).Names duty gives none) :
    (evaluateNode options node scope context).Names duty gives none := by
  have closed := closed_leavesNames duty context.mode
  have ticked : (do
      if ← Rule.perform .tick then
        construct scope context node.start node.shape
      else Rule.fail (.of .stepLimit) : Rule Value).Names duty gives none := by
    refine .afterLeaving (leavesNames_perform rfl) fun within => ?_
    cases within with
    | true => exact constructs
    | false => exact .throw _
  refine Rule.Names.mapError ?_ _
  refine .afterLeaving (closed.perform .isStopped trivial rfl) fun isStopped => ?_
  cases isStopped with
  | true => exact .of_pure stopped
  | false =>
      rcases context with ⟨calls, mode⟩
      cases mode with
      | asynchronous => exact .afterLeaving (leavesNames_gate options.irq) fun _ => ticked
      | synchronous => exact ticked

/-- A call names nothing, unless it finds a function of the host that does. -/
theorem leavesNames_apply (options : Options) (guests : duty.hosted → host.LeavesNames)
    (function : FunctionId) (arguments : List Value) (context : Context)
    (site : Option Position) :
    (apply options host function arguments context site).LeavesNames duty := by
  have closed := closed_leavesNames duty context.mode
  refine leavesNames_look_bind fun store replied => ?_
  split
  · exact closed_applyClosure closed options _ _ _ _ _ arguments site
  · rename_i name attributes native present
    refine closed_nativeForms closed native arguments site ?_
    rintro name forms rfl supplied
    rcases replied with hosted | hostless
    · exact ((guests hosted name forms supplied).apply arguments context site).names
    · exact (hostless function _ present).elim
  · exact closed_fail closed _

/-- A goal that is no definition names nothing. -/
theorem leavesNames_turn (options : Options) (guests : duty.hosted → host.LeavesNames)
    {goal : Goal}
    (noDefinition : goal.isDefinition = false) :
    (turn options host goal).LeavesNames duty := by
  have entry {callee : Value} {arguments : List Value} {mode : Mode} :
      (answering (enter callee arguments mode)).LeavesNames duty :=
    (closed_leavesNames duty mode).bind (leavesNames_enter callee arguments mode)
      fun _ _ => .done rfl
  cases goal with
  | enter callee arguments mode => exact entry
  | _ =>
      refine closed_turn (closed_leavesNames duty _) (leavesNames_perform rfl)
        (fun _ => leavesNames_gate options.irq) ?_ ?_ ?_ rfl
      · exact fun function arguments context site _ =>
          leavesNames_apply options guests function arguments context site
      · intro node scope context same isDefinition
        cases (noDefinition.symm.trans (congrArg Goal.isDefinition same)).trans isDefinition
      · exact fun node scope context _ => compositional_signal
          (compositional_leavesNames duty context.mode) (fun _ _ _ => leavesNames_perform rfl) rfl
          scope node.start

/-- Every goal names only what it has received. -/
theorem names_ofGoal (options : Options) (guests : duty.hosted → host.LeavesNames) {goal : Goal}
    (within : ∀ naming, goal.Names naming → duty.names naming) :
    (ofGoal options host goal).Names duty (fun _ _ => True) none := by
  cases isDefinition : goal.isDefinition with
  | false =>
      exact (leavesNames_turn options guests isDefinition none).bind fun _ _ _ => .done trivial
  | true =>
      cases goal with
      | evaluate node scope context =>
          have constructs := names_definition node.start isDefinition within
          rw [ofGoal, turn, process_answering]
          exact Process.Names.bind (names_evaluateNode trivial constructs)
            fun _ _ _ => .done trivial
      | _ => cases isDefinition

/-- The goal of a function literal answers only with a function that it has made. -/
theorem delivers_ofGoal (options : Options) (host : Host) {naming : Naming}
    (makes : duty.makes naming) (written : naming.HasLiteral) :
    (ofGoal options host naming.goal).Names duty (fun left turn => turn.Delivers naming left)
      none := by
  have constructs := makes_function makes written naming.literal.start
  rw [ofGoal, Naming.goal, turn, process_answering]
  refine Process.Names.bind (names_evaluateNode nofun constructs) fun left outcome given => ?_
  refine .done ⟨outcome, rfl, ?_⟩
  rintro function rfl
  exact given _ rfl function rfl

/-! ## Scripts -/

variable {mode : Mode}

theorem names_defineMember (outer : Scope) (position : Position) {node target literal : Node}
    {isMutable : Bool} {attributes : List (String × Node)}
    (shape : node.shape = .definition target literal isMutable attributes)
    (within : ∀ naming : Naming, naming.IsWrittenAs node → naming.scope = scope →
      naming.context = .top mode → duty.names naming) :
    (defineMember outer scope mode position target literal isMutable attributes).Names duty
      (fun left _ => left = none) none := by
  have closed : Closed (Context.top mode).mode fun _ rule => rule.LeavesNames duty :=
    closed_leavesNames duty mode
  have evaluating : (evaluateAttributes outer (.top mode) attributes).LeavesNames duty :=
    closed_evaluateAttributes closed attributes
  have attributing := closed_expectingAttributes (closed_leavesNames duty mode) evaluating
  have decorating (value : Value) (attributes : List Attribute) :=
    closed.decorate scope false target value attributes (fun error => error.positioned position)
      fun _ => rfl
  unfold defineMember
  split
  · rename_i identifier named
    cases isMutable with
    | true => exact .throw _
    | false =>
        by_cases written : ∃ parameters statements, literal.shape = .function parameters statements
        · let naming : Naming := ⟨identifier, literal, scope, .top mode⟩
          have names : duty.names naming :=
            within naming ⟨target, false, attributes, shape, named, written⟩ rfl rfl
          refine names_expecting_bind names written fun value => ?_
          refine .afterLeaving attributing fun attributes => ?_
          refine (names_nameLiteral names named written value).bind fun left _ same => ?_
          exact same ▸ (decorating value attributes).names left
        · refine .afterLeaving (closed_expectingValue (closed_leavesNames duty mode)
            (closed_evaluate closed literal)) fun value => ?_
          refine .afterLeaving attributing fun attributes => ?_
          refine .afterLeaving (leavesNames_nameLiteral value fun both => written both.2)
            fun _ => ?_
          exact (decorating value attributes).names none
  · exact .throw _

theorem names_defineMembers (outer : Scope) {members : List Node}
    (within : ∀ member ∈ members, ∀ naming : Naming, naming.IsWrittenAs member →
      naming.scope = scope → naming.context = .top mode → duty.names naming) :
    (defineMembers outer scope mode members).Names duty (fun left _ => left = none) none := by
  induction members with
  | nil => exact .of_pure rfl
  | cons member rest inductive_step =>
      have first := within member List.mem_cons_self
      have others := inductive_step fun later mem => within later (List.mem_cons_of_mem member mem)
      rw [defineMembers]
      split
      · rename_i shape
        exact (names_defineMember outer member.start shape first).bind fun _ _ same =>
          same ▸ others
      · exact others
      · exact .bind (.throw _ : Rule.Names duty (fun left _ => left = none) none _) fun _ _ same =>
          same ▸ others

mutual

theorem names_collectNode :
    ∀ (scope : Scope) (node : Node),
      (∀ naming : Naming, naming.IsMember mode scope [node] → duty.names naming) →
      (collectNode mode scope node).Names duty (fun left _ => left = none) none
  | scope, .mk shape span, within => by
      cases shape with
      | namespaceBlock space members =>
          refine .afterLeaving (leavesNames_perform rfl) fun layer => ?_
          refine (names_collect (.member layer space scope) members fun naming isMember =>
            within naming (.nested List.mem_cons_self rfl isMember)).bind fun left _ same => ?_
          subst same
          exact names_defineMembers scope fun member mem naming written inside top =>
            within naming (.direct List.mem_cons_self rfl mem written inside top)
      | _ => exact .of_pure rfl

/-- The namespaces among some nodes name what the values of their members make. -/
theorem names_collect :
    ∀ (scope : Scope) (nodes : List Node),
      (∀ naming : Naming, naming.IsMember mode scope nodes → duty.names naming) →
      (collect mode scope nodes).Names duty (fun left _ => left = none) none
  | _, [], _ => .of_pure rfl
  | scope, node :: rest, within =>
      (names_collectNode scope node fun naming isMember =>
        within naming (isMember.mono (List.cons_subset_cons node (List.nil_subset rest)))).bind
        fun _ _ same => same ▸ names_collect scope rest fun naming isMember =>
          within naming (isMember.mono (List.subset_cons_self node rest))

end

/-- A script names what the values of its members make; its statements are goals. -/
theorem names_runScript {root : Scope} {script : List Node}
    (within : ∀ naming : Naming, naming.IsMember mode root script → duty.names naming) :
    (runScript root script mode).Names duty (fun _ _ => True) none :=
  (names_collect root script within).bind fun left _ _ =>
    ((closed_runCollected (closed_leavesNames duty mode) root script).names left).mono
      fun _ _ _ => trivial

end Evaluation

namespace Probe

/-- The probing host names no function. -/
theorem leavesNames_host : Probe.host.LeavesNames :=
  minds_host ⟨fun _ _ _ _ noNaming => noNaming, trivial, fun _ => trivial, fun _ => trivial⟩

end Probe

end TreeScript
