import TreeScript.Proofs.Bindings
import TreeScript.Proofs.GoalComparison

/-!
# Where an evaluation may add names

Some places are open for new names: which these are is said by a predicate
`permits` on layers and names, and the layers that are made meanwhile are open
altogether.  A scope lies within these places if all that is defined in it is
registered there.  A process is confined to them if it defines in scopes within
them alone, and asks for nothing but goals that are confined themselves.

Nodes are evaluated in a scope and may add names where the scope registers them.
A block, a clause that is a statement, the body of a loop and the body of a
function have a scope of their own, the innermost layer of which is new, so that
they are confined to whatever places there are.
-/

namespace TreeScript

/-- All that is defined in a scope is registered in some places. -/
def Scope.Within (permits : LayerId → String → Prop) (scope : Scope) : Prop :=
  ∀ layer name, scope.Registers layer name → permits layer name

/-- Whether a node is a block. -/
def Node.IsBlock : Node → Prop
  | .mk (.block _ _) _ => True
  | _ => False

/-- A goal that adds names in some places alone. -/
def Goal.IsConfined (permits : LayerId → String → Prop) : Goal → Prop
  | .evaluate node scope _ => node.IsBlock ∨ scope.Within permits
  | .times _ _ _ body scope _ => body.isStatement ∨ scope.Within permits
  | .enter _ _ _ => False
  | _ => True

namespace Action

/-- An action that defines in scopes within some places alone, and brings in no host. -/
def IsConfined (permits : LayerId → String → Prop) : Action → Prop
  | .define scope _ _ _ => scope.Within permits
  | action => action.Hostless

/-- What an action may reply: a store without functions of the host, or a layer that is open. -/
def Supplies (permits : LayerId → String → Prop) : (action : Action) → action.Reply → Prop
  | .store, seen => Store.Hostless seen
  | .newLayer _, layer => ∀ name, permits layer name
  | _, _ => True

theorem IsConfined.hostless {permits : LayerId → String → Prop} {action : Action}
    (confined : action.IsConfined permits) :
    action.Hostless := by
  cases action with
  | define scope isMutable pattern value => trivial
  | _ => exact confined

theorem IsConfined.adds {permits : LayerId → String → Prop} {action : Action} {layer : LayerId}
    {name : String} {isMutable : Bool}
    (confined : action.IsConfined permits)
    (adds : action.Adds layer name isMutable) :
    permits layer name := by
  cases action with
  | define scope asked pattern value => exact confined layer name adds.2
  | _ => exact adds.elim

end Action

namespace Process

variable {α β : Type} {permits : LayerId → String → Prop}

/-- A process that adds names in some places alone, and ends with results of a kind. -/
inductive Confined (permits : LayerId → String → Prop) (holds : α → Prop) : Process α → Prop where
  | done {result : α}
      (given : holds result) :
      Confined permits holds (.done result)
  | act {action : Action} {next : action.Reply → Process α}
      (confined : action.IsConfined permits)
      (rest : ∀ reply, action.Supplies permits reply → Confined permits holds (next reply)) :
      Confined permits holds (.act action next)
  | wait {reason : Wait} {next : Process α}
      (rest : Confined permits holds next) :
      Confined permits holds (.wait reason next)
  | call {goal : Goal} {next : Outcome → Process α}
      (confined : goal.IsConfined permits)
      (rest : ∀ outcome, Confined permits holds (next outcome)) :
      Confined permits holds (.call goal next)
  | drive {goal : Goal} {next : Outcome → Process α}
      (confined : goal.IsConfined permits)
      (rest : ∀ outcome, Confined permits holds (next outcome)) :
      Confined permits holds (.drive goal next)

theorem Confined.bind {holds : α → Prop} {holdsAfter : β → Prop} {process : Process α}
    (confined : process.Confined permits holds)
    {continuation : α → Process β}
    (goesOn : ∀ result, holds result → (continuation result).Confined permits holdsAfter) :
    (process.bind continuation).Confined permits holdsAfter := by
  induction confined with
  | done given => exact goesOn _ given
  | act confined _ inductive_step => exact .act confined inductive_step
  | wait _ inductive_step => exact .wait inductive_step
  | call confined _ inductive_step => exact .call confined inductive_step
  | drive confined _ inductive_step => exact .drive confined inductive_step

end Process

namespace Rule

variable {α β : Type}

/-- A rule that adds names in some places alone; nothing is asked of interrupts. -/
def Confined (permits : LayerId → String → Prop) (holds : α → Prop) (rule : Rule α) : Prop :=
  Process.Confined permits
    (fun result : Except Interrupt α => ∀ given ∈ result.toOption, holds given) rule.run

/-- A confined rule, whatever it gives. -/
abbrev Stays (permits : LayerId → String → Prop) (rule : Rule α) : Prop :=
  Confined permits (fun _ => True) rule

section Closure

variable {permits : LayerId → String → Prop} {holds : α → Prop} {holdsAfter : β → Prop}

theorem confined_pure {result : α} (given : holds result) :
    Confined permits holds (pure result) := by
  refine .done fun other same => ?_
  cases same
  exact given

theorem confined_throw (interrupt : Interrupt) :
    Confined permits holds (throw interrupt) :=
  .done nofun

theorem confined_fail (error : Error) :
    Confined permits holds (fail error) :=
  .done nofun

/-- A rule may go on with one that relies on what the first gives. -/
theorem Confined.bind {rule : Rule α} (confined : rule.Confined permits holds)
    {continuation : α → Rule β}
    (goesOn : ∀ result, holds result → (continuation result).Confined permits holdsAfter) :
    (rule >>= continuation).Confined permits holdsAfter := by
  refine Process.Confined.bind confined fun result given => ?_
  rcases result with interrupt | result
  · exact .done nofun
  · exact goesOn result (given result rfl)

theorem confined_perform (action : Action) (confined : action.IsConfined permits) :
    Confined permits (action.Supplies permits) (perform action) := by
  refine .act confined fun reply supplied => .done fun other same => ?_
  cases same
  exact supplied

/-- An action of whose reply nothing is asked. -/
theorem stays_perform (action : Action) (confined : action.IsConfined permits) :
    Stays permits (perform action) :=
  .act confined fun _ _ => .done fun _ _ => trivial

theorem stays_ofExcept (result : Except Error α) : Stays permits (ofExcept result) := by
  cases result with
  | ok value => exact confined_pure trivial
  | error error => exact confined_fail error

theorem Confined.attempt {reply : Rule (Except Error α)} {answers : Except Error α → Prop}
    (confined : reply.Confined permits answers) :
    Stays permits (attempt reply) :=
  Confined.bind confined fun result _ => stays_ofExcept result

theorem stays_call {goal : Goal} (confined : goal.IsConfined permits) :
    Stays permits (call goal) :=
  .call confined fun _ => .done fun _ _ => trivial

theorem stays_drive {goal : Goal} (confined : goal.IsConfined permits) :
    Stays permits (drive goal) :=
  .drive confined fun _ => .done fun _ _ => trivial

theorem stays_wait (reason : Wait) : Stays permits (wait reason) :=
  .wait (.done fun _ _ => trivial)

theorem confined_look {view : Store → α}
    (seen : ∀ store : Store, store.Hostless → holds (view store)) :
    Confined permits holds (look view) :=
  (confined_perform .store trivial).bind fun store hostless => confined_pure (seen store hostless)

theorem stays_look (view : Store → α) : Stays permits (look view) :=
  confined_look fun _ _ => trivial

/-- A rule that looks at how another one ends. -/
theorem Confined.outcome_bind {rule : Rule α} (confined : rule.Confined permits holds)
    {continuation : Except Interrupt α → Rule β}
    (goesOn : ∀ result, (continuation result).Confined permits holdsAfter) :
    (outcome rule >>= continuation).Confined permits holdsAfter := by
  unfold Confined
  rw [run_outcome_bind]
  exact Process.Confined.bind confined fun result _ => goesOn result

theorem Confined.mapError {rule : Rule α} (confined : rule.Stays permits)
    (change : Error → Error) :
    (mapError change rule).Stays permits := by
  refine confined.outcome_bind fun result => ?_
  rcases result with (signal | error) | result
  · exact confined_throw _
  · exact confined_fail _
  · exact confined_pure trivial

/-- A step for every element of a list, in order. -/
theorem stays_traverse {step : α → Rule β}
    (stays : ∀ element, (step element).Stays permits) (elements : List α) :
    (traverse step elements).Stays permits := by
  induction elements with
  | nil => exact confined_pure trivial
  | cons element rest inductive_step =>
      rw [traverse_cons]
      exact (stays element).bind fun _ _ => inductive_step.bind fun _ _ => confined_pure trivial

end Closure

end Rule

namespace Scope

variable {permits : LayerId → String → Prop} {layer : LayerId}

/-- What is defined in a plain child goes to its own layer alone. -/
theorem within_child (opened : ∀ name, permits layer name) (outer : Scope) :
    (child layer outer).Within permits := by
  rintro other name ⟨defined, registered, member, rfl⟩
  cases List.mem_singleton.mp member
  exact opened name

end Scope

namespace Evaluation

open Rule

variable {permits : LayerId → String → Prop} {scope : Scope} {context : Context}

/-! ## Nodes in sequence -/

theorem stays_evaluate (within : scope.Within permits) (node : Node) :
    (evaluate node scope context).Stays permits :=
  stays_call (.inr within)

theorem stays_evaluateBool (within : scope.Within permits) (node : Node) :
    (evaluateBool node scope context).Stays permits :=
  (stays_evaluate within node).bind fun value _ => stays_ofExcept value.asBool

theorem stays_evaluateNum (within : scope.Within permits) (node : Node) :
    (evaluateNum node scope context).Stays permits :=
  (stays_evaluate within node).bind fun value _ => stays_ofExcept value.asNum

theorem stays_evaluateAll (within : scope.Within permits) (nodes : List Node) :
    (evaluateAll scope context nodes).Stays permits :=
  stays_traverse (stays_evaluate within) nodes

theorem stays_evaluateEntries (within : scope.Within permits) (entries : List (String × Node)) :
    (evaluateEntries scope context entries).Stays permits :=
  stays_traverse
    (fun entry => (stays_evaluate within entry.2).bind fun _ _ => confined_pure trivial) entries

theorem stays_evaluateAttributes (within : scope.Within permits)
    (attributes : List (String × Node)) :
    (evaluateAttributes scope context attributes).Stays permits :=
  (stays_evaluateEntries within attributes).bind fun _ _ => confined_pure trivial

/-- A new scope lies within whatever places there are, since its layer is new. -/
theorem confined_openScope (outer : Scope) (bindings : Dict Variable) :
    (openScope outer bindings).Confined permits (Scope.Within permits) :=
  (confined_perform (.newLayer bindings) trivial).bind fun _ opened =>
    confined_pure (Scope.within_child opened outer)

theorem stays_logBlock (event : String) (scope : Scope) (value : Option Value) :
    (logBlock event scope value).Stays permits :=
  stays_perform (.log _ _ _) trivial

theorem stays_runFrom (within : scope.Within permits) (last : Value) (statements : List Node) :
    (runFrom scope context last statements).Stays permits := by
  induction statements generalizing last with
  | nil => exact (stays_logBlock "leave" scope (some last)).bind fun _ _ => confined_pure trivial
  | cons statement rest inductive_step =>
      refine (stays_evaluate within statement).outcome_bind fun outcome => ?_
      rcases outcome with (signal | error) | value
      · exact (stays_logBlock signal.name scope signal.carried).bind fun _ _ => confined_throw _
      · exact confined_throw _
      · exact inductive_step value

theorem stays_runAll (within : scope.Within permits) (statements : List Node) :
    (runAll scope context statements).Stays permits :=
  (stays_logBlock "enter" scope none).bind fun _ _ => stays_runFrom within .null statements

/-- A clause that is a statement has a scope of its own. -/
theorem stays_evaluateClause {node : Node}
    (within : node.isStatement ∨ scope.Within permits) :
    (evaluateClause node scope context).Stays permits := by
  unfold evaluateClause
  split
  · exact (confined_openScope scope .empty).bind fun _ inner => stays_evaluate inner node
  · rename_i expression
    exact stays_evaluate (within.resolve_left expression) node

theorem stays_takingBreaks {rule : Rule Value} (stays : rule.Stays permits)
    (label : Option String) :
    (takingBreaks label rule).Stays permits :=
  stays.outcome_bind fun _ => .done fun _ _ => trivial

/-! ## Constructs -/

theorem stays_otherwise (within : scope.Within permits) (label : Option String)
    (otherwise : Option Node) :
    (chooseBranch label otherwise scope context []).Stays permits := by
  cases otherwise with
  | none => exact confined_pure trivial
  | some clause => exact stays_takingBreaks (stays_evaluateClause (.inr within)) label

theorem stays_chooseBranch (within : scope.Within permits) (label : Option String)
    (otherwise : Option Node) (branches : List (Node × Node)) :
    (chooseBranch label otherwise scope context branches).Stays permits := by
  induction branches with
  | nil => exact stays_otherwise within label otherwise
  | cons branch rest inductive_step =>
      refine (stays_evaluateBool within branch.1).bind fun truth _ => ?_
      split
      · exact stays_takingBreaks (stays_evaluateClause (.inr within)) label
      · exact inductive_step

theorem stays_chooseCase (within : scope.Within permits) (label : Option String)
    (subject : Value) (otherwise : Option Node) (cases : List (Node × Node)) :
    (chooseCase label subject otherwise scope context cases).Stays permits := by
  induction cases with
  | nil => exact stays_otherwise within label otherwise
  | cons branch rest inductive_step =>
      refine (stays_evaluate within branch.1).bind fun value _ => ?_
      refine (stays_look _).bind fun same _ => ?_
      split
      · exact stays_takingBreaks (stays_evaluateClause (.inr within)) label
      · exact inductive_step

theorem stays_nameLiteral (scope : Scope) (target literal : Node) (value : Value) :
    (nameLiteral scope target literal value).Stays permits := by
  unfold nameLiteral
  split
  · exact stays_perform (.nameFunction _ _) trivial
  · exact confined_pure trivial

theorem stays_define (within : scope.Within permits) (target literal : Node) (isMutable : Bool)
    (attributes : List (String × Node)) :
    (define target literal isMutable attributes scope context).Stays permits := by
  refine (stays_evaluate within literal).bind fun value _ => ?_
  refine (stays_evaluateAttributes within attributes).bind fun attributes _ => ?_
  refine (stays_nameLiteral scope target literal value).bind fun _ _ => ?_
  refine (stays_perform (.define scope isMutable target value) within).attempt.bind fun _ _ => ?_
  refine (stays_perform (.decorate scope target value attributes) trivial).attempt.bind
    fun _ _ => ?_
  exact confined_pure trivial

mutual

theorem stays_locate (within : scope.Within permits) :
    ∀ target : Node, (locate scope context target).Stays permits
  | .mk shape span => by
      cases shape with
      | identifier name => exact confined_pure trivial
      | index target place =>
          refine (stays_evaluate within target).bind fun target _ => ?_
          refine (stays_evaluate within place).bind fun place _ => ?_
          split
          · exact confined_pure trivial
          · exact confined_pure trivial
          · exact (stays_look _).bind fun _ _ => confined_fail _
      | prop target name =>
          refine (stays_evaluate within target).bind fun target _ => ?_
          exact (stays_ofExcept target.asObj).bind fun _ _ => confined_pure trivial
      | arr targets =>
          exact (stays_locateItems within [] targets).bind fun _ _ => confined_pure trivial
      | obj targets =>
          exact (stays_locateEntries within [] targets).bind fun _ _ => confined_pure trivial
      | _ => exact confined_fail _

theorem stays_locateItems (within : scope.Within permits) :
    ∀ (earlier : List Location) (targets : List Node),
      (locateItems scope context earlier targets).Stays permits
  | _, [] => confined_pure trivial
  | _, target :: rest =>
      (stays_locate within target).bind fun _ _ => stays_locateItems within _ rest

theorem stays_locateEntries (within : scope.Within permits) :
    ∀ (earlier : List (String × Location)) (targets : List (String × Node)),
      (locateEntries scope context earlier targets).Stays permits
  | _, [] => confined_pure trivial
  | _, (_, target) :: rest =>
      (stays_locate within target).bind fun _ _ => stays_locateEntries within _ rest

end

theorem stays_assign (within : scope.Within permits) (target source : Node) :
    (assign target source scope context).Stays permits := by
  refine (stays_locate within target).bind fun location _ => ?_
  refine (stays_evaluate within source).bind fun value _ => ?_
  exact (stays_perform (.write location value) trivial).attempt.bind fun _ _ =>
    confined_pure trivial

theorem stays_compound (within : scope.Within permits) (operator : CompoundOperator)
    (target source : Node) :
    (compound operator target source scope context).Stays permits := by
  refine (stays_locate within target).bind fun location _ => ?_
  refine (stays_evaluateNum within source).bind fun change _ => ?_
  refine (stays_perform (.read location) trivial).attempt.bind fun value _ => ?_
  refine (stays_ofExcept value.asNum).bind fun current _ => ?_
  exact (stays_perform (.write location (.num _)) trivial).attempt.bind fun _ _ =>
    confined_pure trivial

theorem stays_fillTemplate (within : scope.Within permits) (parts : List Part) :
    (fillTemplate scope context parts).Stays permits := by
  refine (stays_traverse (fun part => ?_) parts).bind fun _ _ => confined_pure trivial
  cases part with
  | text content => exact confined_pure trivial
  | expression node => exact (stays_evaluate within node).bind fun _ _ => stays_look _

theorem stays_fallbacks (within : scope.Within permits) (parameters : List Parameter) :
    (fallbacks scope context parameters).Stays permits := by
  refine stays_traverse (fun parameter => ?_) parameters
  rcases parameter with ⟨target, isOptional, node⟩
  cases node with
  | none => exact confined_pure trivial
  | some node => exact (stays_evaluate within node).bind fun _ _ => confined_pure trivial

theorem stays_logical (within : scope.Within permits) (operator : LogicalOperator)
    (left right : Node) :
    (logical operator left right scope context).Stays permits := by
  refine (stays_evaluateBool within left).bind fun first _ => ?_
  split
  · exact confined_pure trivial
  · exact confined_pure trivial
  · exact (stays_evaluateBool within right).bind fun _ _ => confined_pure trivial

theorem stays_binary (within : scope.Within permits) (operator : BinaryOperator)
    (left right : Node) :
    (binary operator left right scope context).Stays permits := by
  refine (stays_perform (.readName scope _) trivial).attempt.bind fun callee _ => ?_
  refine (stays_ofExcept callee.asFn).bind fun function _ => ?_
  refine (stays_evaluate within left).bind fun first _ => ?_
  exact (stays_evaluate within right).bind fun second _ => stays_call trivial

theorem stays_get (target : Value) (name : String) :
    (Property.get target name).Stays permits := by
  unfold Property.get
  split
  · exact stays_look _
  · refine (stays_look _).bind fun found _ => ?_
    split
    · exact confined_pure trivial
    · exact (stays_perform (.newFunction _ (.native (.method _))) trivial).bind fun _ _ =>
        confined_pure trivial
    · exact confined_fail _

theorem stays_item (target place : Value) :
    (Property.item target place).Stays permits := by
  cases target with
  | arr array =>
      refine (stays_ofExcept place.asNum).bind fun index _ => ?_
      refine (stays_look _).bind fun items _ => ?_
      split
      · exact confined_pure trivial
      · exact confined_fail _
  | obj object => exact (stays_ofExcept place.asStr).bind fun _ _ => stays_look _
  | str text => exact (stays_ofExcept place.asNum).bind fun _ _ => stays_ofExcept _
  | _ => exact (stays_look _).bind fun _ _ => confined_fail _

theorem stays_rangeLoop (within : scope.Within permits) (label : Option String)
    (counter : String) (start : Option Node) (limit body : Node) :
    (rangeLoop label counter start limit body scope context).Stays permits := by
  have rest (first : Value) :
      (do
        let count ← evaluate limit scope context
        let first ← first.asNum
        let limit := first + (← count.asNum)
        Rule.call (.range label counter first limit body scope context)).Stays permits := by
    refine (stays_evaluate within limit).bind fun limit _ => ?_
    refine (stays_ofExcept first.asNum).bind fun first _ => ?_
    exact (stays_ofExcept limit.asNum).bind fun limit _ => stays_call trivial
  cases start with
  | none => exact rest _
  | some node => exact (stays_evaluate within node).bind fun first _ => rest first

theorem stays_block (scope : Scope) (label : Option String) (statements : List Node)
    (start : Position) :
    (construct scope context start (.block label statements)).Stays permits :=
  (confined_openScope scope .empty).bind fun _ inner =>
    stays_takingBreaks (stays_runAll inner statements) label

/-- A construct adds names where its scope registers them. -/
theorem stays_construct (within : scope.Within permits) (start : Position) (shape : Shape) :
    (construct scope context start shape).Stays permits := by
  cases shape with
  | namespaceBlock name members => exact confined_pure trivial
  | metadata name value => exact confined_pure trivial
  | definition target value isMutable attributes =>
      exact stays_define within target value isMutable attributes
  | returning value =>
      refine (stays_evaluate within value).bind fun value _ => ?_
      exact (stays_logBlock "return" scope (some value)).bind fun _ _ => confined_throw _
  | each label pattern items body =>
      refine (stays_evaluate within items).bind fun items _ => ?_
      exact (stays_ofExcept items.asArr).bind fun array _ => stays_call trivial
  | times label limit body =>
      exact (stays_evaluateNum within limit).bind fun limit _ => stays_call (.inr within)
  | range label counter start limit body =>
      exact stays_rangeLoop within label counter start limit body
  | loop label statements => exact stays_call trivial
  | breaking label value =>
      cases value with
      | none => exact (stays_logBlock "break" scope none).bind fun _ _ => confined_throw _
      | some node =>
          refine (stays_evaluate within node).bind fun value _ => ?_
          exact (stays_logBlock "break" scope none).bind fun _ _ => confined_throw _
  | continuing label =>
      exact (stays_logBlock "continue" scope none).bind fun _ _ => confined_throw _
  | assign target value => exact stays_assign within target value
  | compound operator target value => exact stays_compound within operator target value
  | conditional label condition clause branches otherwise =>
      exact stays_chooseBranch within label otherwise _
  | function parameters body =>
      refine (stays_fallbacks within parameters).bind fun fallbacks _ => ?_
      exact (stays_perform (.newFunction none (.closure parameters fallbacks body scope))
        trivial).bind fun _ _ => confined_pure trivial
  | selection label subject cases otherwise =>
      exact (stays_evaluate within subject).bind fun subject _ =>
        stays_chooseCase within label subject otherwise cases
  | block label statements => exact stays_block scope label statements start
  | existence name => exact (stays_look _).bind fun _ _ => confined_pure trivial
  | template parts => exact (stays_fillTemplate within parts).bind fun _ _ => confined_pure trivial
  | str text => exact confined_pure trivial
  | num number => exact confined_pure trivial
  | bool truth => exact confined_pure trivial
  | null => exact confined_pure trivial
  | obj entries =>
      refine (stays_evaluateEntries within entries).bind fun values _ => ?_
      exact (stays_perform (.newObject values) trivial).bind fun _ _ => confined_pure trivial
  | arr items =>
      refine (stays_evaluateAll within items).bind fun values _ => ?_
      exact (stays_perform (.newArray values.toArray) trivial).bind fun _ _ =>
        confined_pure trivial
  | unary operator operand =>
      cases operator with
      | not => exact (stays_evaluateBool within operand).bind fun _ _ => confined_pure trivial
      | plus => exact (stays_evaluateNum within operand).bind fun _ _ => confined_pure trivial
      | minus => exact (stays_evaluateNum within operand).bind fun _ _ => confined_pure trivial
  | binary operator left right => exact stays_binary within operator left right
  | logical operator left right => exact stays_logical within operator left right
  | identifier name => exact (stays_perform (.readName scope name) trivial).attempt
  | call callee arguments =>
      refine (stays_evaluate within callee).bind fun callee _ => ?_
      refine (stays_ofExcept callee.asFn).bind fun function _ => ?_
      exact (stays_evaluateAll within arguments).bind fun arguments _ => stays_call trivial
  | index target place =>
      refine (stays_evaluate within target).bind fun target _ => ?_
      exact (stays_evaluate within place).bind fun place _ => stays_item target place
  | prop target name =>
      exact (stays_evaluate within target).bind fun target _ => stays_get target name
  | erased type => exact confined_fail _

end Evaluation

/-! ## Native functions -/

open Rule

namespace NativeForms

/-- A native function that adds no names itself. -/
def Stay (forms : NativeForms) : Prop :=
  ∀ {permits : LayerId → String → Prop} (arguments : List Value) (context : Context)
    (site : Option Position), (forms.apply arguments context site).Stays permits

theorem stay_plain {answer : List Value → Rule Value}
    (stays : ∀ {permits : LayerId → String → Prop} (arguments : List Value),
      (answer arguments).Stays permits) :
    (plain fun arguments _ => answer arguments).Stay := by
  intro permits arguments context site
  rw [plain_apply]
  exact stays arguments

theorem stay_later {answer : List Value → Rule Value}
    (stays : ∀ {permits : LayerId → String → Prop} (arguments : List Value),
      (answer arguments).Stays permits) :
    (later fun arguments _ => answer arguments).Stay := by
  intro permits arguments context site
  rcases context with ⟨calls, mode⟩
  cases mode with
  | asynchronous =>
      rw [later_apply_asynchronous]
      exact stays arguments
  | synchronous =>
      rw [later_apply_synchronous]
      exact confined_fail _

theorem stay_pure (answer : List Value → Except Error Value) : (Library.pure answer).Stay :=
  stay_plain fun arguments => stays_ofExcept (answer arguments)

end NativeForms

namespace Library

theorem stays_compare {permits : LayerId → String → Prop} (arguments : List Value) :
    (compare arguments).Stays permits :=
  (stays_ofExcept (argument arguments 0)).bind fun _ _ =>
    (stays_ofExcept (argument arguments 1)).bind fun _ _ => stays_look _

theorem stays_readLine {permits : LayerId → String → Prop} (arguments : List Value) :
    (readLine arguments).Stays permits := by
  refine (stays_ofExcept (argument arguments 0)).bind fun prompt _ => ?_
  refine (stays_ofExcept prompt.asStr).bind fun prompt _ => ?_
  refine (stays_perform (.ask prompt) trivial).bind fun line _ => ?_
  cases line with
  | none => exact confined_pure trivial
  | some line => exact confined_pure trivial

theorem stay_forms (function : LibraryFunction) : (forms function).Stay := by
  cases function with
  | eq | neq =>
      exact NativeForms.stay_plain fun arguments =>
        (stays_compare arguments).bind fun _ _ => confined_pure trivial
  | toStr =>
      refine NativeForms.stay_plain fun arguments => ?_
      refine (stays_ofExcept (argument arguments 0)).bind fun value _ => ?_
      exact (stays_look _).bind fun _ _ => confined_pure trivial
  | range =>
      refine NativeForms.stay_plain fun arguments => ?_
      refine (stays_ofExcept (range arguments)).bind fun items _ => ?_
      exact (stays_perform (.newArray items) trivial).bind fun _ _ => confined_pure trivial
  | print =>
      refine NativeForms.stay_plain fun arguments => ?_
      refine (stays_ofExcept (argument arguments 0)).bind fun value _ => ?_
      exact (stays_perform (.print value) trivial).bind fun _ _ => confined_pure trivial
  | readline => exact NativeForms.stay_later stays_readLine
  | _ => exact NativeForms.stay_pure _

end Library

namespace Method

theorem stays_mapArray {permits : LayerId → String → Prop} (array : ArrayId)
    (arguments : List Value) {call : Value → List Value → Rule Value}
    (stays : ∀ callee values, (call callee values).Stays permits) :
    (mapArray array arguments call).Stays permits := by
  refine (stays_ofExcept (argument arguments 0)).bind fun callee _ => ?_
  refine (stays_look _).bind fun items _ => ?_
  refine (stays_traverse (fun element => stays callee _) items.zipIdx).bind fun results _ => ?_
  exact (stays_perform (.newArray results.toArray) trivial).bind fun _ _ => confined_pure trivial

theorem stay_arrMap (array : ArrayId) : (arrMap array).forms.Stay := by
  intro permits arguments context site
  rcases context with ⟨calls, mode⟩
  cases mode with
  | asynchronous =>
      rw [arrMap_apply_asynchronous]
      exact stays_mapArray array arguments fun callee values =>
        (stays_ofExcept callee.asFn).bind fun _ _ => stays_call trivial
  | synchronous =>
      rw [arrMap_apply_synchronous]
      exact stays_mapArray array arguments fun callee values =>
        (stays_ofExcept callee.asFn).bind fun _ _ => stays_drive trivial

theorem stay_forms (method : Method) : method.forms.Stay := by
  cases method with
  | strSplit text =>
      refine NativeForms.stay_plain fun arguments => ?_
      refine (stays_ofExcept (pieces text arguments)).bind fun texts _ => ?_
      exact (stays_perform (.newArray _) trivial).bind fun _ _ => confined_pure trivial
  | arrPush array =>
      refine NativeForms.stay_plain fun arguments => ?_
      refine (stays_ofExcept (argument arguments 0)).bind fun value _ => ?_
      exact (stays_perform (.push array value) trivial).bind fun _ _ => confined_pure trivial
  | arrPop array => exact NativeForms.stay_plain fun _ => stays_perform (.pop array) trivial
  | arrJoin array =>
      refine NativeForms.stay_plain fun arguments => ?_
      refine (stays_ofExcept (separator arguments)).bind fun separator _ => ?_
      exact (stays_look _).bind fun _ _ => confined_pure trivial
  | arrMap array => exact stay_arrMap array
  | _ => exact NativeForms.stay_plain fun _ => confined_pure trivial

end Method

namespace Evaluation

variable {permits : LayerId → String → Prop} {scope : Scope} {context : Context}

/-! ## Calls -/

theorem stay_nativeForms (host : Host) {native : Native}
    (hostless : (Body.native native).Hostless) :
    (nativeForms host native).Stay := by
  cases native with
  | library function => exact Library.stay_forms function
  | method property => exact property.stay_forms
  | host name => exact hostless.elim

theorem stays_bindParameters (within : scope.Within permits) (parameters : List Parameter)
    (fallbacks : List (Option Value)) (arguments : List Value) :
    (bindParameters scope parameters fallbacks arguments).Stays permits := by
  induction parameters generalizing fallbacks arguments with
  | nil => exact confined_pure trivial
  | cons parameter rest inductive_step =>
      rw [bindParameters]
      split
      · rename_i value _
        exact (stays_perform (.define scope true parameter.target value) within).attempt.bind
          fun _ _ => inductive_step fallbacks.tail arguments.tail
      · exact confined_fail _

/-- A closure binds its parameters and runs its statements in a scope of its own. -/
theorem stays_applyClosure (options : Options) (name : Option String)
    (parameters : List Parameter) (fallbacks : List (Option Value)) (statements : List Node)
    (scope : Scope) (arguments : List Value) (site : Option Position) :
    (applyClosure options name parameters fallbacks statements scope arguments context site).Stays
      permits := by
  have rest : (do
      let inner ← openScope scope .empty
      bindParameters inner parameters fallbacks arguments
      let outcome ←
        (runAll inner (context.enter (name.getD anonymous) site) statements).outcome
      ExceptT.mk (.done (endOfBody outcome)) : Rule Value).Stays permits := by
    refine (confined_openScope scope .empty).bind fun inner within => ?_
    refine (stays_bindParameters within parameters fallbacks arguments).bind fun _ _ => ?_
    exact (stays_runAll within statements).outcome_bind fun _ => .done fun _ _ => trivial
  unfold applyClosure
  split
  · exact confined_fail _
  · exact rest

theorem stays_apply (options : Options) (host : Host) (function : FunctionId)
    (arguments : List Value) (site : Option Position) :
    (apply options host function arguments context site).Stays permits := by
  have looked : (look fun store => store.function? function).Confined permits
      (fun found => ∀ callee ∈ found, callee.body.Hostless) :=
    confined_look fun store hostless callee present => hostless function callee present
  refine looked.bind fun found hostless => ?_
  split
  · exact stays_applyClosure options _ _ _ _ _ arguments site
  · exact stay_nativeForms host (hostless _ rfl) arguments context site
  · exact confined_fail _

/-! ## Goals -/

theorem stays_yieldNow (sleep : Sleep) : (yieldNow sleep).Stays permits := by
  cases sleep with
  | timed duration => exact stays_wait .nextPoll
  | custom suspends =>
      refine (stays_perform .yielded trivial).bind fun _ _ => ?_
      split
      · exact stays_wait .nextPoll
      · exact confined_pure trivial

theorem stays_gate (irq : Irq) : (gate irq).Stays permits := by
  have rest :
      (do
        if irq.isDue (← Rule.perform .steps) then
          yieldNow irq.sleep : Rule Unit).Stays permits := by
    refine (stays_perform .steps trivial).bind fun steps _ => ?_
    split
    · exact stays_yieldNow irq.sleep
    · exact confined_pure trivial
  refine (stays_perform .pause trivial).bind fun pause _ => ?_
  cases pause with
  | none => exact rest
  | some pause => exact (stays_wait (.resumed pause)).bind fun _ _ => rest

theorem stays_evaluateNode (options : Options) {node : Node}
    (confined : (Goal.evaluate node scope context).IsConfined permits) :
    (evaluateNode options node scope context).Stays permits := by
  have ticked :
      (do
        if ← Rule.perform .tick then
          construct scope context node.start node.shape
        else Rule.fail (.of .stepLimit)).Stays permits := by
    refine (stays_perform .tick trivial).bind fun inLimit _ => ?_
    split
    · rcases confined with block | within
      · obtain ⟨shape, span⟩ := node
        cases shape with
        | block label statements => exact stays_block scope label statements _
        | _ => exact block.elim
      · exact stays_construct within node.start node.shape
    · exact confined_fail _
  have entered : (enterNode options node scope context).Stays permits := by
    refine (stays_perform .isStopped trivial).bind fun stopped _ => ?_
    split
    · exact confined_pure trivial
    · rcases context with ⟨calls, mode⟩
      cases mode with
      | asynchronous => exact (stays_gate options.irq).bind fun _ _ => ticked
      | synchronous => exact ticked
  exact entered.mapError _

end Evaluation

/-- A turn that is over, or goes on with a goal that adds names in some places alone. -/
def Turn.IsConfined (permits : LayerId → String → Prop) : Turn → Prop
  | .answer _ => True
  | .again goal => goal.IsConfined permits

namespace Evaluation

variable {permits : LayerId → String → Prop} {scope : Scope} {context : Context}

theorem confined_turnAfter {body : Rule Value} (stays : body.Stays permits)
    (label : Option String) {rest : Goal} (confined : rest.IsConfined permits) :
    (turnAfter label rest body).Confined permits (Turn.IsConfined permits) := by
  refine stays.outcome_bind fun outcome => ?_
  split
  · exact confined_pure confined
  · exact confined_pure trivial
  · exact confined_throw _

theorem confined_loopTurn (label : Option String) (statements : List Node) (scope : Scope) :
    (loopTurn label statements scope context).Confined permits (Turn.IsConfined permits) := by
  refine (stays_perform .isStopped trivial).bind fun stopped _ => ?_
  split
  · exact confined_pure trivial
  · exact (confined_openScope scope .empty).bind fun _ within =>
      confined_turnAfter (stays_runAll within statements) label trivial

theorem confined_timesTurn {body : Node} (within : body.isStatement ∨ scope.Within permits)
    (label : Option String) (start limit : Float) :
    (timesTurn label start limit body scope context).Confined permits
      (Turn.IsConfined permits) := by
  unfold timesTurn
  split
  · exact confined_pure trivial
  · refine (stays_perform .isStopped trivial).bind fun stopped _ => ?_
    split
    · exact confined_pure trivial
    · exact confined_turnAfter (stays_evaluateClause within) label within

theorem confined_rangeTurn (label : Option String) (counter : String) (start limit : Float)
    (body : Node) (scope : Scope) :
    (rangeTurn label counter start limit body scope context).Confined permits
      (Turn.IsConfined permits) := by
  unfold rangeTurn
  split
  · exact confined_pure trivial
  · refine (stays_perform .isStopped trivial).bind fun stopped _ => ?_
    split
    · exact confined_pure trivial
    · exact (confined_openScope scope _).bind fun _ within =>
        confined_turnAfter (stays_evaluateClause (.inr within)) label trivial

theorem confined_eachTurn (label : Option String) (pattern : Node) (array : ArrayId)
    (place : Nat) (body : Node) (scope : Scope) :
    (eachTurn label pattern array place body scope context).Confined permits
      (Turn.IsConfined permits) := by
  refine (stays_perform .isStopped trivial).bind fun stopped _ => ?_
  split
  · exact confined_pure trivial
  · refine (stays_look _).bind fun item _ => ?_
    cases item with
    | none => exact confined_pure trivial
    | some item =>
        refine (confined_openScope scope .empty).bind fun inner within => ?_
        refine (stays_perform (.define inner false pattern item) within).attempt.bind fun _ _ => ?_
        exact confined_turnAfter (stays_evaluate within body) label trivial

theorem confined_answering {rule : Rule Value} (stays : rule.Stays permits) :
    (answering rule).Confined permits (Turn.IsConfined permits) :=
  Confined.bind stays fun _ _ => confined_pure trivial

theorem confined_process {rule : Rule Turn}
    (confined : rule.Confined permits (Turn.IsConfined permits)) :
    (process rule).Confined permits (Turn.IsConfined permits) := by
  refine Process.Confined.bind confined fun result given => .done ?_
  rcases result with interrupt | turn
  · trivial
  · exact given turn rfl

/-- The process of a confined goal is confined itself. -/
theorem confined_ofGoal (options : Options) (host : Host) {goal : Goal}
    (confined : goal.IsConfined permits) :
    (ofGoal options host goal).Confined permits (Turn.IsConfined permits) := by
  refine confined_process ?_
  cases goal with
  | evaluate node scope context => exact confined_answering (stays_evaluateNode options confined)
  | loop label statements scope context => exact confined_loopTurn label statements scope
  | times label start limit body scope context =>
      exact confined_timesTurn confined label start limit
  | range label counter start limit body scope context =>
      exact confined_rangeTurn label counter start limit body scope
  | each label pattern array place body scope context =>
      exact confined_eachTurn label pattern array place body scope
  | apply function arguments context site =>
      exact confined_answering (stays_apply options host function arguments site)
  | enter callee arguments mode => exact confined.elim

end Evaluation

end TreeScript
