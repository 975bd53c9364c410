import TreeScript.Proofs.Manner

/-!
# Properties of rules that constructs keep

The rules of constructs, loops and namespaces are written with few operations: quiet
actions, further goals in the same mode, sequence, interrupts, and looking at how a part
ends.  A property that is closed under these (`Rule.Closed`) therefore holds of all of
them, whatever it says: what they may do (`Manner.Plain.closed`), for example, or what
they make of an error (`Rule.closed_relays`).

The events that tell the host of a block come in pairs.  A property may hold of a run of
statements only as a whole, and not of the single events; it is then closed as well, but
what it says of the nodes that give a signal, which tell of it once more, has to be known.
In the same way a definition names a function only after it has been made there, so that
what a property says of definitions has to be known, unless it holds of every naming.

Whoever looks at how a part ends may rely on what the rules do then: an error of the part
ends them as well, with the same cause.
-/

namespace TreeScript

/-- The names under which the host is told that a block is left. -/
def blockExits : List String :=
  ["block:leave", "block:return", "block:break", "block:continue"]

/-- Whether an action tells the host what happens to a block. -/
def Action.isBlockLog : Action → Bool
  | .log name _ _ => ("block:enter" :: blockExits).contains name
  | _ => false

/-- Whether a shape is that of a node that gives a signal. -/
def Shape.isSignal : Shape → Bool
  | .returning _ => true
  | .breaking _ _ => true
  | .continuing _ => true
  | _ => false

/-- Whether a shape is that of a definition. -/
def Shape.isDefinition : Shape → Bool
  | .definition _ _ _ _ => true
  | _ => false

/-- Whether an action puts attributes on what has been defined. -/
def Action.isDecoration : Action → Bool
  | .decorate _ _ _ _ => true
  | _ => false

/-- Whether an action names a function of a script.  None of them has a name when it is made. -/
def Action.isNaming : Action → Bool
  | .nameFunction _ _ => true
  | .newFunction (some _) (.closure _ _ _ _) => true
  | _ => false

/-- Whether an action is not one of a pair: blocks are entered and left, what has just been
defined gets attributes, and a function that has just been made gets its name. -/
def Action.standsAlone (action : Action) : Bool :=
  !action.isNaming && (!action.isDecoration && !action.isBlockLog)

/-- An action that stands alone names no function, puts attributes on nothing and tells nothing
of a block. -/
theorem Action.standsAlone_iff {action : Action} :
    action.standsAlone = true ↔
      action.isNaming = false ∧ action.isDecoration = false ∧ action.isBlockLog = false := by
  rw [standsAlone, Bool.and_eq_true, Bool.and_eq_true, Bool.not_eq_true', Bool.not_eq_true',
    Bool.not_eq_true']

/-- A property of rules that is kept when rules follow each other or look at how others end. -/
structure Rule.Sequential (holds : ∀ α : Type, Rule α → Prop) : Prop where
  pure {α : Type} (result : α) : holds α (pure result)
  throw {α : Type} (interrupt : Interrupt) : holds α (throw interrupt)
  bind {α β : Type} {rule : Rule α} {continuation : α → Rule β}
    (first : holds α rule)
    (goesOn : ∀ result, holds β (continuation result)) :
    holds β (rule >>= continuation)
  outcome {α β : Type} {rule : Rule α} {continuation : Except Interrupt α → Rule β}
    (first : holds α rule)
    (goesOn : ∀ result, holds β (continuation result))
    (relays : ∀ error : Error, ∃ later : Error, later.cause = error.cause ∧
      continuation (.error (.error error)) = Rule.fail later) :
    holds β (rule.outcome >>= continuation)

/-- A property of rules that is kept by the operations that rules of a mode are written with. -/
structure Rule.Compositional (mode : Mode) (holds : ∀ α : Type, Rule α → Prop) : Prop
    extends Rule.Sequential holds where
  perform (action : Action) (quiet : action.IsQuiet) (alone : action.standsAlone = true) :
    holds action.Reply (Rule.perform action)
  /-- Attributes are put on what has just been defined. -/
  decorate (scope : Scope) (isMutable : Bool) (target : Node) (value : Value)
    (attributes : List Attribute) (change : Error → Error)
    (sameCause : ∀ error : Error, (change error).cause = error.cause) :
    holds Unit (do
      (Rule.attempt (Rule.perform (.define scope isMutable target value))).mapError change
      Rule.attempt (Rule.perform (.decorate scope target value attributes)))
  call {goal : Goal} (runs : goal.RunsIn mode) : holds Value (Rule.call goal)
  drive {goal : Goal} (atOnce : mode = .synchronous) (runs : goal.RunsIn mode) :
    holds Value (Rule.drive goal)

/-- Such a property that holds of every run of statements. -/
structure Rule.Closed (mode : Mode) (holds : ∀ α : Type, Rule α → Prop) : Prop
    extends Rule.Compositional mode holds where
  runAll (scope : Scope) {context : Context} (sameMode : context.mode = mode)
    (statements : List Node) : holds Value (Evaluation.runAll scope context statements)

namespace Rule

variable {mode : Mode} {holds : ∀ α : Type, Rule α → Prop} {α β : Type}

/-- To leave the errors of a rule as they are is to leave it as it is. -/
theorem mapError_id (rule : Rule α) : rule.mapError id = rule := by
  refine ExceptT.ext ?_
  rw [mapError, run_outcome_bind]
  refine (congrArg rule.run.bind (funext fun result => ?_)).trans (Process.bind_done rule.run)
  rcases result with (signal | error) | result <;> rfl

section Sequences

variable (sequential : Sequential holds)

include sequential

theorem Sequential.ofExcept (result : Except Error α) : holds α (ofExcept result) := by
  cases result with
  | ok value => exact sequential.pure value
  | error error => exact sequential.throw (.error error)

theorem Sequential.attempt {reply : Rule (Except Error α)} (first : holds _ reply) :
    holds α (attempt reply) :=
  sequential.bind first sequential.ofExcept

theorem Sequential.mapError {rule : Rule α} (first : holds α rule) {change : Error → Error}
    (sameCause : ∀ error : Error, (change error).cause = error.cause) :
    holds α (mapError change rule) := by
  refine sequential.outcome first (fun result => ?_) fun error =>
    ⟨change error, sameCause error, rfl⟩
  rcases result with (signal | error) | result
  · exact sequential.throw _
  · exact sequential.throw _
  · exact sequential.pure result

/-- A property that holds of all quiet actions is kept by all operations. -/
theorem Sequential.compositional
    (perform : ∀ action : Action, action.IsQuiet → action.isBlockLog = false →
      holds action.Reply (Rule.perform action))
    (call : ∀ {goal : Goal}, goal.RunsIn mode → holds Value (Rule.call goal))
    (drive : ∀ {goal : Goal}, mode = .synchronous → goal.RunsIn mode →
      holds Value (Rule.drive goal)) :
    Compositional mode holds where
  toSequential := sequential
  perform action quiet alone := perform action quiet (Action.standsAlone_iff.mp alone).2.2
  decorate _ _ _ _ _ _ sameCause :=
    sequential.bind (sequential.mapError
      (sequential.attempt (perform (.define _ _ _ _) trivial rfl)) sameCause) fun _ =>
        sequential.attempt (perform (.decorate _ _ _ _) trivial rfl)
  call := call
  drive := drive

end Sequences

section Operations

variable (closed : Closed mode holds)

include closed

theorem closed_fail (error : Error) : holds α (fail error) :=
  closed.throw (.error error)

theorem closed_ofExcept (result : Except Error α) : holds α (ofExcept result) :=
  closed.ofExcept result

theorem closed_attempt {reply : Rule (Except Error α)} (first : holds _ reply) :
    holds α (attempt reply) :=
  closed.attempt first

theorem closed_look (view : Store → α) : holds α (look view) :=
  closed.bind (closed.perform .store trivial rfl) fun store => closed.pure (view store)

theorem closed_mapError {rule : Rule α} (first : holds α rule) {change : Error → Error}
    (sameCause : ∀ error : Error, (change error).cause = error.cause) :
    holds α (mapError change rule) :=
  closed.mapError first sameCause

theorem closed_traverse {step : α → Rule β} (steps : ∀ element, holds β (step element))
    (elements : List α) :
    holds _ (traverse step elements) := by
  induction elements with
  | nil => exact closed.pure []
  | cons element rest inductive_step =>
      rw [traverse_cons]
      exact closed.bind (steps element) fun _ => closed.bind inductive_step fun _ => closed.pure _

end Operations

end Rule

/-! ## Logs of blocks -/

section Logs

variable {mode : Mode} {holds : ∀ α : Type, Rule α → Prop}
  (compositional : Rule.Compositional mode holds)
  (logs : ∀ name scope value, holds Unit (Rule.perform (.log name scope value)))
  {context : Context}

include compositional logs

theorem Evaluation.compositional_runFrom (sameMode : context.mode = mode) (scope : Scope)
    (last : Value) (statements : List Node) :
    holds _ (runFrom scope context last statements) := by
  induction statements generalizing last with
  | nil => exact compositional.bind (logs _ _ _) fun _ => compositional.pure last
  | cons statement rest inductive_step =>
      have evaluated : holds _ (evaluate statement scope context) := compositional.call sameMode
      refine compositional.outcome evaluated (fun outcome => ?_) fun error => ⟨error, rfl, rfl⟩
      rcases outcome with (signal | error) | value
      · exact compositional.bind (logs _ _ _) fun _ => compositional.throw _
      · exact compositional.throw _
      · exact inductive_step value

/-- A property that holds of every log is closed. -/
theorem Rule.Compositional.closed : Closed mode holds where
  toCompositional := compositional
  runAll scope _ sameMode statements :=
    compositional.bind (logs _ _ _) fun _ =>
      Evaluation.compositional_runFrom compositional logs sameMode scope .null statements

/-- A property that holds of every log holds of the nodes that give a signal. -/
theorem Evaluation.compositional_signal (sameMode : context.mode = mode) (scope : Scope)
    (start : Position) {shape : Shape} (signals : shape.isSignal = true) :
    holds _ (construct scope context start shape) := by
  have evaluated (node : Node) : holds _ (evaluate node scope context) :=
    compositional.call sameMode
  have given (signal : Signal) (name : String) (value : Option Value) :
      holds Value (do
        logBlock name scope value
        throw (.signal signal)) :=
    compositional.bind (logs _ _ _) fun _ => compositional.throw _
  cases shape with
  | returning value => exact compositional.bind (evaluated value) fun _ => given _ _ _
  | breaking label value =>
      cases value with
      | none => exact given _ _ _
      | some node => exact compositional.bind (evaluated node) fun _ => given _ _ _
  | continuing label => exact given _ _ _
  | _ => cases signals

end Logs

namespace Evaluation

open Rule

variable {holds : ∀ α : Type, Rule α → Prop} {context : Context} {scope : Scope}

section Constructs

variable (closed : Closed context.mode holds)

include closed

/-! ## Nodes in sequence -/

theorem closed_evaluate (node : Node) : holds _ (evaluate node scope context) :=
  closed.call rfl

theorem closed_evaluateBool (node : Node) : holds _ (evaluateBool node scope context) :=
  closed.bind (closed_evaluate closed node) fun value => closed_ofExcept closed value.asBool

theorem closed_evaluateNum (node : Node) : holds _ (evaluateNum node scope context) :=
  closed.bind (closed_evaluate closed node) fun value => closed_ofExcept closed value.asNum

theorem closed_evaluateAll (nodes : List Node) : holds _ (evaluateAll scope context nodes) :=
  closed_traverse closed (closed_evaluate closed) nodes

theorem closed_evaluateEntries (entries : List (String × Node)) :
    holds _ (evaluateEntries scope context entries) :=
  closed_traverse closed
    (fun entry => closed.bind (closed_evaluate closed entry.2) fun _ => closed.pure _) entries

theorem closed_evaluateAttributes (attributes : List (String × Node)) :
    holds _ (evaluateAttributes scope context attributes) :=
  closed.bind (closed_evaluateEntries closed attributes) fun _ => closed.pure _

theorem closed_openScope (bindings : Dict Variable) : holds _ (openScope scope bindings) :=
  closed.bind (closed.perform (.newLayer bindings) trivial rfl) fun _ => closed.pure _

theorem closed_runAll (statements : List Node) : holds _ (runAll scope context statements) :=
  closed.runAll scope rfl statements

theorem closed_evaluateClause (node : Node) : holds _ (evaluateClause node scope context) := by
  unfold evaluateClause
  split
  · exact closed.bind (closed_openScope closed .empty) fun _ => closed_evaluate closed node
  · exact closed_evaluate closed node

/-- A rule may end with an outcome. -/
theorem closed_ending (outcome : Outcome) : holds _ (ExceptT.mk (.done outcome)) := by
  cases outcome with
  | ok value => exact closed.pure value
  | error interrupt => exact closed.throw interrupt

theorem closed_takingBreaks {rule : Rule Value} (first : holds _ rule) (label : Option String) :
    holds _ (takingBreaks label rule) :=
  closed.outcome first (fun _ => closed_ending closed _) fun error => ⟨error, rfl, rfl⟩

/-! ## Constructs -/

theorem closed_otherwise (label : Option String) (otherwise : Option Node) :
    holds _ (chooseBranch label otherwise scope context []) := by
  cases otherwise with
  | none => exact closed.pure Value.null
  | some clause => exact closed_takingBreaks closed (closed_evaluateClause closed clause) label

theorem closed_chooseBranch (label : Option String) (otherwise : Option Node)
    (branches : List (Node × Node)) :
    holds _ (chooseBranch label otherwise scope context branches) := by
  induction branches with
  | nil => exact closed_otherwise closed label otherwise
  | cons branch rest inductive_step =>
      refine closed.bind (closed_evaluateBool closed branch.1) fun chosen => ?_
      cases chosen with
      | true => exact closed_takingBreaks closed (closed_evaluateClause closed branch.2) label
      | false => exact inductive_step

theorem closed_chooseCase (label : Option String) (subject : Value) (otherwise : Option Node)
    (candidates : List (Node × Node)) :
    holds _ (chooseCase label subject otherwise scope context candidates) := by
  induction candidates with
  | nil => exact closed_otherwise closed label otherwise
  | cons candidate rest inductive_step =>
      refine closed.bind (closed_evaluate closed candidate.1) fun value => ?_
      refine closed.bind (closed_look closed _) fun chosen => ?_
      cases chosen with
      | true => exact closed_takingBreaks closed (closed_evaluateClause closed candidate.2) label
      | false => exact inductive_step

theorem closed_nameLiteral
    (names : ∀ function name, holds Unit (perform (.nameFunction function name)))
    (target literal : Node) (value : Value) :
    holds _ (nameLiteral scope target literal value) := by
  unfold nameLiteral
  split
  · exact names _ _
  · exact closed.pure ()

theorem closed_defining (isMutable : Bool) (target : Node) (value : Value) :
    holds _ (attempt (perform (.define scope isMutable target value))) :=
  closed_attempt closed (closed.perform (.define scope isMutable target value) trivial rfl)

theorem closed_writing (location : Location) (value : Value) :
    holds _ (attempt (perform (.write location value))) :=
  closed_attempt closed (closed.perform (.write location value) trivial rfl)

/-- What a definition does once its value and its attributes are known. -/
theorem closed_defineNamed (target : Node) (isMutable : Bool) (value : Value)
    (attributes : List Attribute) :
    holds Value (do
      attempt (perform (.define scope isMutable target value))
      attempt (perform (.decorate scope target value attributes))
      return .null) := by
  have decorated := closed.decorate scope isMutable target value attributes id fun _ => rfl
  rw [mapError_id] at decorated
  have returning := closed.bind decorated fun _ => closed.pure Value.null
  rw [bind_assoc] at returning
  exact returning

/-- A property that is closed holds of every definition, if it holds of every naming. -/
theorem closed_definition
    (names : ∀ function name, holds Unit (perform (.nameFunction function name)))
    (start : Position) {shape : Shape} (isDefinition : shape.isDefinition = true) :
    holds _ (construct scope context start shape) := by
  cases shape with
  | definition target literal isMutable attributes =>
      refine closed.bind (closed_evaluate closed literal) fun value => ?_
      refine closed.bind (closed_evaluateAttributes closed attributes) fun attributes => ?_
      refine closed.bind (closed_nameLiteral closed names target literal value) fun _ => ?_
      exact closed_defineNamed closed target isMutable value attributes
  | _ => cases isDefinition

omit closed in
mutual

theorem closed_locate (closed : Closed context.mode holds) :
    ∀ target : Node, holds _ (locate scope context target)
  | .mk shape span => by
      cases shape with
      | identifier name => exact closed.pure _
      | index target place =>
          refine closed.bind (closed_evaluate closed target) fun target => ?_
          refine closed.bind (closed_evaluate closed place) fun place => ?_
          split
          · exact closed.pure _
          · exact closed.pure _
          · exact closed.bind (closed_look closed _) fun _ => closed_fail closed _
      | prop target name =>
          refine closed.bind (closed_evaluate closed target) fun target => ?_
          exact closed.bind (closed_ofExcept closed target.asObj) fun _ => closed.pure _
      | arr targets =>
          exact closed.bind (closed_locateItems closed [] targets) fun _ => closed.pure _
      | obj targets =>
          exact closed.bind (closed_locateEntries closed [] targets) fun _ => closed.pure _
      | _ => exact closed_fail closed _

theorem closed_locateItems (closed : Closed context.mode holds) :
    ∀ (earlier : List Location) (targets : List Node),
      holds _ (locateItems scope context earlier targets)
  | _, [] => closed.pure _
  | _, target :: rest =>
      closed.bind (closed_locate closed target) fun _ => closed_locateItems closed _ rest

theorem closed_locateEntries (closed : Closed context.mode holds) :
    ∀ (earlier : List (String × Location)) (targets : List (String × Node)),
      holds _ (locateEntries scope context earlier targets)
  | _, [] => closed.pure _
  | _, (_, target) :: rest =>
      closed.bind (closed_locate closed target) fun _ => closed_locateEntries closed _ rest

end

theorem closed_assign (target source : Node) : holds _ (assign target source scope context) := by
  refine closed.bind (closed_locate closed target) fun location => ?_
  refine closed.bind (closed_evaluate closed source) fun value => ?_
  exact closed.bind (closed_writing closed location value) fun _ => closed.pure Value.null

theorem closed_compound (operator : CompoundOperator) (target source : Node) :
    holds _ (compound operator target source scope context) := by
  refine closed.bind (closed_locate closed target) fun location => ?_
  refine closed.bind (closed_evaluateNum closed source) fun change => ?_
  have read := closed_attempt closed (closed.perform (.read location) trivial rfl)
  refine closed.bind read fun value => ?_
  refine closed.bind (closed_ofExcept closed value.asNum) fun current => ?_
  exact closed.bind (closed_writing closed location _) fun _ => closed.pure Value.null

theorem closed_fillTemplate (parts : List Part) :
    holds _ (fillTemplate scope context parts) := by
  refine closed.bind (closed_traverse closed (fun part => ?_) parts) fun _ => closed.pure _
  cases part with
  | text content => exact closed.pure content
  | expression node =>
      exact closed.bind (closed_evaluate closed node) fun _ => closed_look closed _

theorem closed_fallbacks (parameters : List Parameter) :
    holds _ (fallbacks scope context parameters) := by
  refine closed_traverse closed (fun parameter => ?_) parameters
  rcases parameter with ⟨target, isOptional, node⟩
  cases node with
  | none => exact closed.pure _
  | some node => exact closed.bind (closed_evaluate closed node) fun _ => closed.pure _

theorem closed_logical (operator : LogicalOperator) (left right : Node) :
    holds _ (logical operator left right scope context) := by
  refine closed.bind (closed_evaluateBool closed left) fun first => ?_
  split
  · exact closed.pure _
  · exact closed.pure _
  · exact closed.bind (closed_evaluateBool closed right) fun _ => closed.pure _

theorem closed_reading (name : String) :
    holds _ (attempt (perform (.readName scope name))) :=
  closed_attempt closed (closed.perform (.readName scope name) trivial rfl)

theorem closed_calling (function : FunctionId) (arguments : List Value)
    (site : Option Position) :
    holds _ (call (.apply function arguments context site)) :=
  closed.call rfl

theorem closed_binary (operator : BinaryOperator) (left right : Node) :
    holds _ (binary operator left right scope context) := by
  refine closed.bind (closed_reading closed _) fun callee => ?_
  refine closed.bind (closed_ofExcept closed callee.asFn) fun function => ?_
  refine closed.bind (closed_evaluate closed left) fun first => ?_
  exact closed.bind (closed_evaluate closed right) fun second =>
    closed_calling closed function [first, second] none

theorem closed_get (target : Value) (name : String) : holds _ (Property.get target name) := by
  unfold Property.get
  split
  · exact closed_look closed _
  · refine closed.bind (closed_look closed _) fun found => ?_
    split
    · exact closed.pure _
    · rename_i property
      have made :=
        closed.perform (.newFunction (some property.name) (.native (.method property))) trivial rfl
      exact closed.bind made fun _ => closed.pure _
    · exact closed_fail closed _

theorem closed_item (target place : Value) : holds _ (Property.item target place) := by
  cases target with
  | arr array =>
      refine closed.bind (closed_ofExcept closed place.asNum) fun index => ?_
      refine closed.bind (closed_look closed _) fun items => ?_
      split
      · exact closed.pure _
      · exact closed_fail closed _
  | obj object =>
      exact closed.bind (closed_ofExcept closed place.asStr) fun _ => closed_look closed _
  | str text =>
      exact closed.bind (closed_ofExcept closed place.asNum) fun _ => closed_ofExcept closed _
  | _ => exact closed.bind (closed_look closed _) fun _ => closed_fail closed _

theorem closed_rangeLoop (label : Option String) (counter : String) (start : Option Node)
    (limit body : Node) :
    holds _ (rangeLoop label counter start limit body scope context) := by
  have rest (first : Value) :
      holds _ (do
        let count ← evaluate limit scope context
        let first ← first.asNum
        let limit := first + (← count.asNum)
        Rule.call (.range label counter first limit body scope context)) := by
    refine closed.bind (closed_evaluate closed limit) fun limit => ?_
    refine closed.bind (closed_ofExcept closed first.asNum) fun first => ?_
    exact closed.bind (closed_ofExcept closed limit.asNum) fun limit => closed.call rfl
  cases start with
  | none => exact rest _
  | some node => exact closed.bind (closed_evaluate closed node) fun first => rest first

/-- A property that is closed holds of every construct, if it holds of definitions and of those
that give a signal. -/
theorem closed_construct (start : Position) (shape : Shape)
    (definitions : shape.isDefinition = true → holds _ (construct scope context start shape))
    (signals : shape.isSignal = true → holds _ (construct scope context start shape)) :
    holds _ (construct scope context start shape) := by
  cases shape with
  | definition _ _ _ _ => exact definitions rfl
  | returning _ | breaking _ _ | continuing _ => exact signals rfl
  | namespaceBlock name members => exact closed.pure Value.null
  | metadata name value => exact closed.pure Value.null
  | each label pattern items body =>
      refine closed.bind (closed_evaluate closed items) fun items => ?_
      exact closed.bind (closed_ofExcept closed items.asArr) fun array => closed.call rfl
  | times label limit body =>
      exact closed.bind (closed_evaluateNum closed limit) fun limit => closed.call rfl
  | range label counter start limit body =>
      exact closed_rangeLoop closed label counter start limit body
  | loop label statements => exact closed.call rfl
  | assign target value => exact closed_assign closed target value
  | compound operator target value => exact closed_compound closed operator target value
  | conditional label condition clause branches otherwise =>
      exact closed_chooseBranch closed label otherwise _
  | function parameters body =>
      refine closed.bind (closed_fallbacks closed parameters) fun fallbacks => ?_
      have made :=
        closed.perform (.newFunction none (.closure parameters fallbacks body scope)) trivial rfl
      exact closed.bind made fun _ => closed.pure _
  | selection label subject candidates otherwise =>
      exact closed.bind (closed_evaluate closed subject) fun subject =>
        closed_chooseCase closed label subject otherwise candidates
  | block label statements =>
      exact closed.bind (closed_openScope closed .empty) fun _ =>
        closed_takingBreaks closed (closed_runAll closed statements) label
  | existence name => exact closed.bind (closed_look closed _) fun _ => closed.pure _
  | template parts => exact closed.bind (closed_fillTemplate closed parts) fun _ => closed.pure _
  | str text => exact closed.pure _
  | num number => exact closed.pure _
  | bool truth => exact closed.pure _
  | null => exact closed.pure _
  | obj entries =>
      refine closed.bind (closed_evaluateEntries closed entries) fun values => ?_
      exact closed.bind (closed.perform (.newObject values) trivial rfl) fun _ => closed.pure _
  | arr items =>
      refine closed.bind (closed_evaluateAll closed items) fun values => ?_
      have made := closed.perform (.newArray values.toArray) trivial rfl
      exact closed.bind made fun _ => closed.pure _
  | unary operator operand =>
      cases operator with
      | not => exact closed.bind (closed_evaluateBool closed operand) fun _ => closed.pure _
      | plus => exact closed.bind (closed_evaluateNum closed operand) fun _ => closed.pure _
      | minus => exact closed.bind (closed_evaluateNum closed operand) fun _ => closed.pure _
  | binary operator left right => exact closed_binary closed operator left right
  | logical operator left right => exact closed_logical closed operator left right
  | identifier name => exact closed_reading closed name
  | call callee arguments =>
      refine closed.bind (closed_evaluate closed callee) fun callee => ?_
      refine closed.bind (closed_ofExcept closed callee.asFn) fun function => ?_
      exact closed.bind (closed_evaluateAll closed arguments) fun arguments =>
        closed_calling closed function arguments (some start)
  | index target place =>
      refine closed.bind (closed_evaluate closed target) fun target => ?_
      exact closed.bind (closed_evaluate closed place) fun place => closed_item closed target place
  | prop target name =>
      exact closed.bind (closed_evaluate closed target) fun target =>
        closed_get closed target name
  | erased type => exact closed_fail closed _

/-! ## Loops -/

theorem closed_turnAfter {body : Rule Value} (first : holds _ body) (label : Option String)
    (rest : Goal) :
    holds _ (turnAfter label rest body) := by
  refine closed.outcome first (fun outcome => ?_) fun error => ⟨error, rfl, rfl⟩
  split
  · exact closed.pure _
  · exact closed.pure _
  · exact closed.throw _

/-- A loop asks whether evaluation is stopped before each turn. -/
theorem closed_unlessStopped {turn : Rule Turn} (goesOn : holds _ turn) :
    holds _ (do
      if ← perform .isStopped then return finished
      turn) := by
  refine closed.bind (closed.perform .isStopped trivial rfl) fun stopped => ?_
  cases stopped with
  | true => exact closed.pure _
  | false => exact goesOn

theorem closed_loopTurn (label : Option String) (statements : List Node) :
    holds _ (loopTurn label statements scope context) := by
  refine closed_unlessStopped closed ?_
  exact closed.bind (closed_openScope closed .empty) fun _ =>
    closed_turnAfter closed (closed_runAll closed statements) label _

theorem closed_timesTurn (label : Option String) (start limit : Float) (body : Node) :
    holds _ (timesTurn label start limit body scope context) := by
  unfold timesTurn
  split
  · exact closed.pure _
  · refine closed_unlessStopped closed ?_
    exact closed_turnAfter closed (closed_evaluateClause closed body) label _

theorem closed_rangeTurn (label : Option String) (counter : String) (start limit : Float)
    (body : Node) :
    holds _ (rangeTurn label counter start limit body scope context) := by
  unfold rangeTurn
  split
  · exact closed.pure _
  · refine closed_unlessStopped closed ?_
    exact closed.bind (closed_openScope closed _) fun _ =>
      closed_turnAfter closed (closed_evaluateClause closed body) label _

theorem closed_eachTurn (label : Option String) (pattern : Node) (array : ArrayId)
    (place : Nat) (body : Node) :
    holds _ (eachTurn label pattern array place body scope context) := by
  refine closed_unlessStopped closed ?_
  refine closed.bind (closed_look closed _) fun item => ?_
  cases item with
  | none => exact closed.pure _
  | some item =>
      refine closed.bind (closed_openScope closed .empty) fun inner => ?_
      refine closed.bind (closed_defining closed false pattern item) fun _ => ?_
      exact closed_turnAfter closed (closed_evaluate closed body) label _

end Constructs

/-! ## Namespaces and scripts -/

section Scripts

variable {mode : Mode} (closed : Closed mode holds)

section Members

include closed

theorem closed_expectingValue {rule : Rule Value} (first : holds _ rule) :
    holds _ (expectingValue rule) :=
  closed.outcome first (fun _ => closed_ofExcept closed _) fun error => ⟨error, rfl, rfl⟩

theorem closed_expectingAttributes {rule : Rule (List Attribute)} (first : holds _ rule) :
    holds _ (expectingAttributes rule) := by
  refine closed.outcome first (fun outcome => ?_) fun error => ⟨error, rfl, rfl⟩
  rcases outcome with (signal | error) | attributes
  · exact closed_fail closed _
  · exact closed_fail closed _
  · exact closed.pure _

variable (names : ∀ function name, holds Unit (perform (.nameFunction function name)))

include names

theorem closed_defineMember (outer inner : Scope) (position : Position) (target literal : Node)
    (isMutable : Bool) (attributes : List (String × Node)) :
    holds _ (defineMember outer inner mode position target literal isMutable attributes) := by
  have top : Closed (Context.top mode).mode holds := closed
  unfold defineMember
  split
  · cases isMutable with
    | true => exact closed_fail closed _
    | false =>
        refine closed.bind (closed_expectingValue closed (closed_evaluate top literal))
          fun value => ?_
        refine closed.bind (closed_expectingAttributes closed
          (closed_evaluateAttributes top attributes)) fun attributes => ?_
        refine closed.bind (closed_nameLiteral top names target literal value) fun _ => ?_
        exact closed.decorate inner false target value attributes _ fun _ => rfl
  · exact closed_fail closed _

theorem closed_defineMembers (outer inner : Scope) (members : List Node) :
    holds _ (defineMembers outer inner mode members) := by
  induction members with
  | nil => exact closed.pure ()
  | cons member rest inductive_step =>
      rw [defineMembers]
      split
      · exact closed.bind (closed_defineMember closed names outer inner member.start _ _ _ _)
          fun _ => inductive_step
      · exact inductive_step
      · exact closed.bind (closed_fail closed _) fun (_ : Unit) => inductive_step

end Members

mutual

theorem closed_collectNode (closed : Closed mode holds)
    (names : ∀ function name, holds Unit (perform (.nameFunction function name)))
    (scope : Scope) :
    ∀ node, holds _ (collectNode mode scope node)
  | .mk shape span => by
      cases shape with
      | namespaceBlock name members =>
          refine closed.bind (closed.perform (.newLayer .empty) trivial rfl) fun layer => ?_
          refine closed.bind (closed_collect closed names (.member layer name scope) members)
            fun _ => ?_
          exact closed_defineMembers closed names scope (.member layer name scope) members
      | _ => exact closed.pure ()

theorem closed_collect (closed : Closed mode holds)
    (names : ∀ function name, holds Unit (perform (.nameFunction function name)))
    (scope : Scope) :
    ∀ nodes, holds _ (collect mode scope nodes)
  | [] => closed.pure ()
  | node :: rest =>
      closed.bind (closed_collectNode closed names scope node) fun _ =>
        closed_collect closed names scope rest

end

include closed

/-- What a script does once its namespaces have been collected. -/
theorem closed_runCollected (root : Scope) (script : List Node) :
    holds Value (do
      let value ← expectingValue (runAll root (.top mode) script)
      Rule.perform (.log "end" none (some value))
      return value) := by
  have top : Closed (Context.top mode).mode holds := closed
  refine closed.bind (closed_expectingValue closed (closed_runAll top script)) fun value => ?_
  exact closed.bind (closed.perform (.log "end" none (some value)) trivial rfl) fun _ =>
    closed.pure value

/-- A property that is closed under the operations of rules holds of every script, if it holds of
every naming. -/
theorem closed_runScript
    (names : ∀ function name, holds Unit (perform (.nameFunction function name)))
    (root : Scope) (script : List Node) :
    holds _ (runScript root script mode) :=
  closed.bind (closed_collect closed names root script) fun _ =>
    closed_runCollected closed root script

end Scripts

end Evaluation

end TreeScript
