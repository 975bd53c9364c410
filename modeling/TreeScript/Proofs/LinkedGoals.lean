import TreeScript.Evaluation.Goal
import TreeScript.Proofs.GoalComparison
import TreeScript.Proofs.LinkedConstructs

/-!
# Linked goals

Linked goals have linked processes, in asynchronous evaluation.  Before a node
is entered each of the two runs may yield when it is due, whether the other one
does or not.  Functions of the host are not linked to anything: what they do
need not depend on what is linked only.
-/

namespace TreeScript

open Rule

variable {names : String → Bool} {link : Link} {arguments arguments' : List Value}

theorem Except.Linked.bind {ε α β γ δ : Type} {errors : ε → ε → Prop} {same : α → β → Prop}
    {sameAfter : γ → δ → Prop} {result : Except ε α} {other : Except ε β}
    (linked : Except.Linked errors same result other) {continuation : α → Except ε γ}
    {continuation' : β → Except ε δ}
    (goesOn : ∀ result result', same result result' →
      Except.Linked errors sameAfter (continuation result) (continuation' result')) :
    Except.Linked errors sameAfter (result >>= continuation) (other >>= continuation') := by
  cases linked with
  | ok results => exact goesOn _ _ results
  | error failures => exact .error failures

/-- The case of linked computations that are the same. -/
theorem linked_of_eq {α : Type} {result other : Except Error α} (same : result = other) :
    Except.Linked Eq Eq result other := by
  cases same
  cases result with
  | ok result => exact .ok rfl
  | error error => exact .error rfl

theorem linked_argument (values : List.Forall₂ (Value.Linked link) arguments arguments')
    (place : Nat) :
    Except.Linked Eq (Value.Linked link) (argument arguments place)
      (argument arguments' place) := by
  have given := optionRel_getElem? values place
  unfold argument
  generalize arguments[place]? = value, arguments'[place]? = value' at given ⊢
  cases given with
  | none => exact .error rfl
  | some given => exact .ok given

/-- Native functions that give linked values for linked arguments. -/
def NativeForms.LinkedTo (names : String → Bool) (link : Link) (forms forms' : NativeForms) :
    Prop :=
  ∀ {arguments arguments' : List Value}, List.Forall₂ (Value.Linked link) arguments arguments' →
    ∀ {context : Context}, context.mode = .asynchronous → ∀ site : Option Position,
      (forms.apply arguments context site).Linked names link (Value.Linked link)
        (forms'.apply arguments' context site)

namespace NativeForms

theorem linkedTo_plain {answer answer' : List Value → Rule Value}
    (linked : ∀ {arguments arguments' : List Value},
      List.Forall₂ (Value.Linked link) arguments arguments' →
        (answer arguments).Linked names link (Value.Linked link) (answer' arguments')) :
    LinkedTo names link (plain fun arguments _ => answer arguments)
      (plain fun arguments _ => answer' arguments) := by
  intro arguments arguments' values context mode site
  rw [plain_apply, plain_apply]
  exact linked values

theorem linkedTo_pure {answer : List Value → Except Error Value}
    (linked : ∀ {arguments arguments' : List Value},
      List.Forall₂ (Value.Linked link) arguments arguments' →
        Except.Linked Eq (Value.Linked link) (answer arguments) (answer arguments')) :
    LinkedTo names link (Library.pure answer) (Library.pure answer) :=
  linkedTo_plain fun values => linked_ofExcept (linked values)

end NativeForms

/-! ## The library -/

namespace Library

theorem linked_operands (values : List.Forall₂ (Value.Linked link) arguments arguments') :
    Except.Linked Eq Eq (operands arguments) (operands arguments') := by
  refine (linked_argument values 0).bind fun _ _ left => ?_
  refine (linked_of_eq left.asNum).bind fun _ _ same => ?_
  refine (linked_argument values 1).bind fun _ _ right => ?_
  exact (linked_of_eq right.asNum).bind fun _ _ same' => .ok (congrArg₂ Prod.mk same same')

theorem linked_arithmetic (values : List.Forall₂ (Value.Linked link) arguments arguments')
    (operation : Float → Float → Float) :
    Except.Linked Eq (Value.Linked link) (arithmetic operation arguments)
      (arithmetic operation arguments') :=
  (linked_operands values).bind fun _ _ same => same ▸ .ok (.num _)

theorem linked_comparison (values : List.Forall₂ (Value.Linked link) arguments arguments')
    (holds : Float → Float → Bool) :
    Except.Linked Eq (Value.Linked link) (comparison holds arguments)
      (comparison holds arguments') :=
  (linked_operands values).bind fun _ _ same => same ▸ .ok (.bool _)

theorem linked_checked (values : List.Forall₂ (Value.Linked link) arguments arguments')
    (name : String) (operation : Float → Float → Float) :
    Except.Linked Eq (Value.Linked link) (checked name operation arguments)
      (checked name operation arguments') := by
  refine (linked_operands values).bind fun _ _ same => ?_
  subst same
  dsimp only
  split
  · exact .error rfl
  · exact .ok (.num _)

/-- Numbers are linked to themselves. -/
theorem linked_rangeItems (link : Link) (first last : Float) :
    List.Forall₂ (Value.Linked link) (rangeItems first last).toList
      (rangeItems first last).toList := by
  refine List.forall₂_same.mpr fun value mem => ?_
  unfold rangeItems at mem
  split at mem
  · obtain ⟨_, rfl⟩ := Array.mem_ofFn.mp (Array.mem_toList_iff.mp mem)
    exact .num _
  · obtain ⟨_, rfl⟩ := Array.mem_ofFn.mp (Array.mem_toList_iff.mp mem)
    exact .num _

theorem linked_range (values : List.Forall₂ (Value.Linked link) arguments arguments') :
    Except.Linked Eq
      (fun items items' => List.Forall₂ (Value.Linked link) items.toList items'.toList)
      (range arguments) (range arguments') := by
  refine (linked_operands values).bind fun _ _ same => ?_
  subst same
  dsimp only
  split
  · exact .error rfl
  · split
    · exact .error rfl
    · exact .ok (linked_rangeItems link _ _)

theorem linked_createError (values : List.Forall₂ (Value.Linked link) arguments arguments') :
    Except.Linked Eq (Value.Linked link) (createError arguments) (createError arguments') := by
  refine (linked_argument values 0).bind fun _ _ given => ?_
  refine (linked_of_eq given.asStr).bind fun name _ same => ?_
  subst same
  have given := optionRel_getElem? values 1
  generalize arguments[1]? = value, arguments'[1]? = value' at given ⊢
  cases given with
  | none => exact .ok (.error name)
  | some information => exact .ok (.errorWith name information)

theorem linked_compare (values : List.Forall₂ (Value.Linked link) arguments arguments') :
    (compare arguments).Linked names link Eq (compare arguments') := by
  refine (linked_ofExcept (linked_argument values 0)).bind fun _ _ left => ?_
  refine (linked_ofExcept (linked_argument values 1)).bind fun _ _ right => ?_
  exact linked_look fun _ _ stores => stores.equal_eq left right

theorem linked_readLine (named : names LibraryFunction.readline.name)
    (values : List.Forall₂ (Value.Linked link) arguments arguments') :
    (readLine arguments).Linked names link (Value.Linked link) (readLine arguments') := by
  refine (linked_ofExcept (linked_argument values 0)).bind fun _ _ given => ?_
  refine (linked_asStr given).andThen fun prompt => ?_
  refine (linked_perform (.ask prompt named)).bind fun line line' same => ?_
  cases (same : line = line')
  cases line with
  | some line => exact linked_pure (.str line)
  | none => exact linked_pure .null

/-- The functions of the library give linked values for linked arguments. -/
theorem linkedTo_forms {function : LibraryFunction} (named : names function.name) :
    NativeForms.LinkedTo names link (forms function) (forms function) := by
  cases function with
  | add | sub | mul => exact NativeForms.linkedTo_pure fun values => linked_arithmetic values _
  | div | pow | mod => exact NativeForms.linkedTo_pure fun values => linked_checked values _ _
  | lt | lteq | gt | gteq =>
      exact NativeForms.linkedTo_pure fun values => linked_comparison values _
  | eq =>
      exact NativeForms.linkedTo_plain fun values =>
        (linked_compare values).andThen fun equal => linked_pure (.bool equal)
  | neq =>
      exact NativeForms.linkedTo_plain fun values =>
        (linked_compare values).andThen fun equal => linked_pure (.bool !equal)
  | type =>
      exact NativeForms.linkedTo_pure fun values =>
        (linked_argument values 0).bind fun _ _ given => given.typeName ▸ .ok (.str _)
  | toStr =>
      refine NativeForms.linkedTo_plain fun values => ?_
      refine (linked_ofExcept (linked_argument values 0)).bind fun _ _ given => ?_
      exact (linked_look fun _ _ stores => stores.display_eq given).andThen
        fun text => linked_pure (.str text)
  | range =>
      refine NativeForms.linkedTo_plain fun values => ?_
      refine (linked_ofExcept (linked_range values)).bind fun _ _ items => ?_
      exact (linked_perform (.newArray items)).bind fun _ _ handles => linked_pure (.arr handles)
  | createError => exact NativeForms.linkedTo_pure linked_createError
  | print =>
      refine NativeForms.linkedTo_plain fun values => ?_
      refine (linked_ofExcept (linked_argument values 0)).bind fun value value' _ => ?_
      exact (linked_perform (.print value value')).bind fun _ _ _ => linked_pure .null
  | readline =>
      intro arguments arguments' values context mode site
      obtain ⟨calls, _⟩ := context
      cases mode
      rw [forms, NativeForms.later_apply_asynchronous, NativeForms.later_apply_asynchronous]
      exact linked_readLine named values

end Library

/-! ## Methods -/

namespace Method

theorem linked_pieces (values : List.Forall₂ (Value.Linked link) arguments arguments')
    (text : String) :
    Except.Linked Eq Eq (pieces text arguments) (pieces text arguments') := by
  have given := optionRel_getElem? values 0
  unfold pieces
  generalize arguments[0]? = value, arguments'[0]? = value' at given ⊢
  cases given with
  | none => exact .ok rfl
  | some given => exact (linked_of_eq given.asStr).bind fun _ _ same => same ▸ .ok rfl

theorem linked_separator (values : List.Forall₂ (Value.Linked link) arguments arguments') :
    Except.Linked Eq Eq (separator arguments) (separator arguments') := by
  have given := optionRel_getElem? values 0
  unfold separator
  generalize arguments[0]? = value, arguments'[0]? = value' at given ⊢
  cases given with
  | none => exact .ok rfl
  | some given => exact linked_of_eq given.asStr

theorem forall₂_zipIdx {items items' : List Value}
    (each : List.Forall₂ (Value.Linked link) items items') (start : Nat) :
    List.Forall₂ (fun entry entry' => entry.1.Linked link entry'.1 ∧ entry.2 = entry'.2)
      (items.zipIdx start) (items'.zipIdx start) := by
  induction each generalizing start with
  | nil => exact .nil
  | cons first _ inductive_step => exact .cons ⟨first, rfl⟩ (inductive_step (start + 1))

/-- The elements of a linked array are called back with in pairs. -/
theorem linked_mapArray {array array' : ArrayId}
    (handles : link .array array.index array'.index)
    (values : List.Forall₂ (Value.Linked link) arguments arguments')
    {context : Context} (mode : context.mode = .asynchronous) :
    (mapArray array arguments fun callee values => callBack callee values context).Linked names
      link (Value.Linked link)
      (mapArray array' arguments' fun callee values => callBack callee values context) := by
  refine (linked_ofExcept (linked_argument values 0)).bind fun callee callee' callees => ?_
  have looked : (look fun store => (store.items array).toList).Linked names link
      (List.Forall₂ (Value.Linked link)) (look fun store => (store.items array').toList) :=
    linked_look fun _ _ stores => stores.items handles
  refine looked.bind fun items items' each => ?_
  refine (linked_traverse ((forall₂_zipIdx each 0).imp fun entry entry' entries => ?_)).bind
    fun _ _ results => (linked_perform (.newArray results)).bind fun _ _ handles =>
      linked_pure (.arr handles)
  obtain ⟨item, place⟩ := entry
  obtain ⟨item', place'⟩ := entry'
  obtain ⟨item, rfl⟩ := entries
  refine (linked_ofExcept callees.asFn).bind fun _ _ functions => ?_
  exact linked_call (.apply functions (.cons item (.cons (.num _) .nil)) mode none)

/-- Methods of linked receivers give linked values for linked arguments. -/
theorem linkedTo_forms {method method' : Method} (methods : method.Linked link method') :
    NativeForms.LinkedTo names link method.forms method'.forms := by
  cases methods with
  | strUpper text => exact NativeForms.linkedTo_plain fun _ => linked_pure (.str _)
  | strLower text => exact NativeForms.linkedTo_plain fun _ => linked_pure (.str _)
  | strToNum text =>
      refine NativeForms.linkedTo_plain fun _ => linked_pure ?_
      unfold textToNum
      split
      · exact .num _
      · exact .null
  | strSplit text =>
      refine NativeForms.linkedTo_plain fun values => ?_
      refine (linked_ofExcept (linked_pieces values text)).andThen fun texts => ?_
      have each : List.Forall₂ (Value.Linked link) (texts.map Value.str).toArray.toList
          (texts.map Value.str).toArray.toList := by
        refine List.forall₂_same.mpr fun value mem => ?_
        obtain ⟨text, _, rfl⟩ := List.mem_map.mp mem
        exact .str text
      exact (linked_perform (.newArray each)).bind fun _ _ handles => linked_pure (.arr handles)
  | numToStr number => exact NativeForms.linkedTo_plain fun _ => linked_pure (.str _)
  | boolToStr truth => exact NativeForms.linkedTo_plain fun _ => linked_pure (.str _)
  | arrPush handles =>
      refine NativeForms.linkedTo_plain fun values => ?_
      refine (linked_ofExcept (linked_argument values 0)).bind fun _ _ given => ?_
      exact (linked_perform (.push handles given)).bind fun _ _ _ => linked_pure (.arr handles)
  | arrPop handles => exact NativeForms.linkedTo_plain fun _ => linked_perform (.pop handles)
  | @arrJoin array array' handles =>
      refine NativeForms.linkedTo_plain fun values => ?_
      refine (linked_ofExcept (linked_separator values)).andThen fun separator => ?_
      have looked : (look fun store => (store.items array).toList.map store.display).Linked names
          link Eq (look fun store => (store.items array').toList.map store.display) :=
        linked_look fun _ _ stores => List.forall₂_eq_eq_eq ▸
          List.rel_map (fun _ _ given => stores.display_eq given) (stores.items handles)
      exact looked.andThen fun texts => linked_pure (.str _)
  | @arrMap array array' handles =>
      intro arguments arguments' values context mode site
      obtain ⟨calls, _⟩ := context
      cases mode
      rw [arrMap_apply_asynchronous, arrMap_apply_asynchronous]
      exact linked_mapArray handles values rfl

end Method

namespace Evaluation

variable {context : Context} {site : Option Position}

/-! ## Calls -/

theorem linked_bindParameters {scope scope' : Scope} (scopes : scope.Linked link scope')
    {parameters : List Parameter} (keep : Parameter.keepTo names parameters)
    {fallbacks fallbacks' : List (Option Value)}
    (defaults : List.Forall₂ (Option.Rel (Value.Linked link)) fallbacks fallbacks')
    (values : List.Forall₂ (Value.Linked link) arguments arguments') :
    (bindParameters scope parameters fallbacks arguments).Linked names link Eq
      (bindParameters scope' parameters fallbacks' arguments') := by
  induction parameters generalizing fallbacks fallbacks' arguments arguments' with
  | nil => exact linked_pure rfl
  | cons parameter rest inductive_step =>
      obtain ⟨target, optional, fallback⟩ := parameter
      obtain ⟨keeps, keep⟩ := Bool.and_eq_true_iff.mp keep
      obtain ⟨keeps, -⟩ := Bool.and_eq_true_iff.mp keeps
      have given : Option.Rel (Value.Linked link) (arguments.head?.or fallbacks.head?.join)
          (arguments'.head?.or fallbacks'.head?.join) := by
        cases values with
        | cons first _ => exact .some first
        | nil =>
            cases defaults with
            | nil => exact .none
            | cons first _ => cases first with
              | none => exact .none
              | some given => exact .some given
      unfold bindParameters
      generalize arguments.head?.or fallbacks.head?.join = value,
        arguments'.head?.or fallbacks'.head?.join = value' at given ⊢
      cases given with
      | none => exact linked_fail _
      | some given =>
          have defined := (linked_perform (.define true scopes keeps given)).attempt
          exact defined.bind fun _ _ _ => inductive_step keep (forall₂_tail defaults)
            (forall₂_tail values)

theorem linked_endOfBody {outcome outcome' : Outcome}
    (outcomes : Outcome.Linked link outcome outcome') :
    Outcome.Linked link (endOfBody outcome) (endOfBody outcome') := by
  cases outcomes with
  | ok values => exact .ok values
  | error interrupts =>
      cases interrupts with
      | error error => exact .error (.error error)
      | signal signals =>
          cases signals with
          | returning values => exact .ok values
          | breaking label values => exact .error (.error _)
          | continuing label => exact .error (.error _)

theorem linked_applyClosure (options : Options) (name : Option String)
    {parameters : List Parameter} (parametersKeep : Parameter.keepTo names parameters)
    {fallbacks fallbacks' : List (Option Value)}
    (defaults : List.Forall₂ (Option.Rel (Value.Linked link)) fallbacks fallbacks')
    {statements : List Node} (statementsKeep : Node.keepTo names statements)
    {scope scope' : Scope} (scopes : scope.Linked link scope')
    (values : List.Forall₂ (Value.Linked link) arguments arguments')
    (mode : context.mode = .asynchronous) :
    (applyClosure options name parameters fallbacks statements scope arguments context
      site).Linked names link (Value.Linked link)
      (applyClosure options name parameters fallbacks' statements scope' arguments' context
        site) := by
  unfold applyClosure
  split
  · exact linked_fail _
  · refine (linked_openScope_empty scopes).bind fun _ _ inner => ?_
    refine (linked_bindParameters inner parametersKeep defaults values).andThen fun _ => ?_
    have inside : (context.enter (name.getD anonymous) site).mode = .asynchronous := mode
    exact (linked_runAll inside inner statementsKeep).outcome_bind fun _ _ outcomes =>
      .done (linked_endOfBody outcomes)

theorem linked_apply (options : Options) (host : Host) {function function' : FunctionId}
    (handles : link .function function.index function'.index)
    (values : List.Forall₂ (Value.Linked link) arguments arguments')
    (mode : context.mode = .asynchronous) :
    (apply options host function arguments context site).Linked names link (Value.Linked link)
      (apply options host function' arguments' context site) := by
  have looked : (look fun store => store.function? function).Linked names link
      (Option.Rel (Function.Linked names link)) (look fun store => store.function? function') :=
    linked_look fun _ _ stores => stores.function? handles
  refine looked.bind fun found found' functions => ?_
  cases functions with
  | none => exact linked_fail _
  | @some known known' functions =>
      obtain ⟨name, attributes, body⟩ := known
      obtain ⟨name', attributes', body'⟩ := known'
      obtain ⟨rfl, bodies, -⟩ := functions
      cases bodies with
      | closure parametersKeep defaults statementsKeep scopes =>
          exact linked_applyClosure options name parametersKeep defaults statementsKeep scopes
            values mode
      | library named => exact Library.linkedTo_forms named values mode site
      | method methods => exact Method.linkedTo_forms methods values mode site

/-! ## Nodes -/

section Gate

variable {α β : Type} {same : α → β → Prop} {first : Rule α} {second : Rule β}

theorem linked_yield_left (sleep : Sleep) (linked : first.Linked names link same second) :
    (yieldNow sleep >>= fun _ => first).Linked names link same second := by
  have waited : (wait .nextPoll >>= fun _ => first).Linked names link same second :=
    .left ⟨_, .nextPoll _⟩ fun _ passed => by cases passed; exact linked
  cases sleep with
  | timed milliseconds => exact waited
  | custom suspends =>
      refine .left ⟨_, .yielded _⟩ fun _ passed => ?_
      cases passed
      cases suspends with
      | true => exact waited
      | false => exact linked

theorem linked_yield_right (sleep : Sleep) (linked : first.Linked names link same second) :
    first.Linked names link same (yieldNow sleep >>= fun _ => second) := by
  have waited : first.Linked names link same (wait .nextPoll >>= fun _ => second) :=
    .right ⟨_, .nextPoll _⟩ fun _ passed => by cases passed; exact linked
  cases sleep with
  | timed milliseconds => exact waited
  | custom suspends =>
      refine .right ⟨_, .yielded _⟩ fun _ passed => ?_
      cases passed
      cases suspends with
      | true => exact waited
      | false => exact linked

/-- Nothing is paused, and either of the two runs may be due to yield. -/
theorem linked_gate (irq : Irq) (linked : first.Linked names link same second) :
    (gate irq >>= fun _ => first).Linked names link same (gate irq >>= fun _ => second) := by
  refine .act .pause fun pause pause' replies => ?_
  obtain ⟨rfl, rfl⟩ := replies
  refine .left ⟨_, .steps _ 0⟩ fun _ passed => ?_
  cases passed with | steps _ steps => ?_
  refine .right ⟨_, .steps _ 0⟩ fun _ passed => ?_
  cases passed with | steps _ steps' => ?_
  have right : first.Linked names link same
      ((if irq.isDue steps' = true then yieldNow irq.sleep else pure ()) >>= fun _ => second) := by
    split
    · exact linked_yield_right irq.sleep linked
    · exact linked
  show ((if irq.isDue steps = true then yieldNow irq.sleep else pure ()) >>= fun _ =>
    first).Linked names link same _
  split
  · exact linked_yield_left irq.sleep right
  · exact right

end Gate

theorem linked_evaluateNode (options : Options) {node : Node} (keeps : node.keepsTo names)
    {scope scope' : Scope} (scopes : scope.Linked link scope')
    (mode : context.mode = .asynchronous) :
    (evaluateNode options node scope context).Linked names link (Value.Linked link)
      (evaluateNode options node scope' context) := by
  refine Rule.Linked.mapError ?_ _
  have ticked : (do
      if ← perform .tick then construct scope context node.start node.shape
      else Rule.fail (.of .stepLimit)).Linked names link (Value.Linked link) (do
      if ← perform .tick then construct scope' context node.start node.shape
      else Rule.fail (.of .stepLimit)) := by
    refine (linked_perform .tick).bind fun _ _ replies => ?_
    obtain ⟨rfl, rfl⟩ := replies
    obtain ⟨shape, span⟩ := node
    exact linked_construct mode scopes _ keeps
  unfold enterNode
  refine (linked_perform .isStopped).bind fun stopped stopped' same => ?_
  cases (same : stopped = stopped')
  cases stopped with
  | true => exact linked_pure .null
  | false =>
      rw [mode]
      exact linked_gate options.irq ticked

theorem linked_answering {rule rule' : Rule Value}
    (linked : rule.Linked names link (Value.Linked link) rule') :
    (answering rule).Linked names link (Turn.Linked names link) (answering rule') :=
  linked.bind fun _ _ values => linked_pure (.answer (.ok values))

theorem linked_process {rule rule' : Rule Turn}
    (linked : rule.Linked names link (Turn.Linked names link) rule') :
    Process.Linked names link (Turn.Linked names link) (process rule) (process rule') := by
  refine Process.Linked.bind linked fun result result' results => .done ?_
  cases results with
  | ok turns => exact turns
  | error interrupts => exact .answer (.error interrupts)

/-- Linked goals have linked processes. -/
theorem linked_ofGoal (options : Options) (host : Host) {goal goal' : Goal}
    (goals : goal.Linked names link goal') :
    Process.Linked names link (Turn.Linked names link) (ofGoal options host goal)
      (ofGoal options host goal') := by
  refine linked_process ?_
  cases goals with
  | evaluate keeps scopes mode =>
      exact linked_answering (linked_evaluateNode options keeps scopes mode)
  | loop label keep scopes mode => exact linked_loopTurn mode scopes label keep
  | times label count limit keeps scopes mode =>
      exact linked_timesTurn mode scopes label count limit keeps
  | range label count limit named keeps scopes mode =>
      exact linked_rangeTurn mode scopes label named count limit keeps
  | each label place patternKeeps handles bodyKeeps scopes mode =>
      exact linked_eachTurn mode scopes label patternKeeps handles place bodyKeeps
  | apply handles values mode site =>
      exact linked_answering (linked_apply options host handles values mode)

end Evaluation

end TreeScript
