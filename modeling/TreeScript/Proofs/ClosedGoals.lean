import TreeScript.Proofs.ClosedConstructs
import TreeScript.Proofs.GoalComparison

/-!
# Properties of rules that goals keep

A property that is closed under the operations of rules holds of the functions of the
library and of calls, if it holds of the functions of the host.  It holds of every goal
in the mode if it also holds of what stands in front of a node, the gate and the step, and
of definitions and nodes that give a signal.

The exception is the entry point, which looks at an error and goes on.
-/

namespace TreeScript

open Rule

variable {holds : ∀ α : Type, Rule α → Prop}

/-! ## The library -/

namespace NativeForms

theorem closed_plain {answer : List Value → Rule Value} {arguments : List Value}
    (first : holds _ (answer arguments)) (context : Context) (site : Option Position) :
    holds _ ((plain fun arguments _ => answer arguments).apply arguments context site) := by
  rw [plain_apply]
  exact first

theorem closed_later {mode : Mode} (closed : Closed mode holds)
    {answer : List Value → Rule Value} {arguments : List Value}
    (first : holds _ (answer arguments)) (context : Context) (site : Option Position) :
    holds _ ((later fun arguments _ => answer arguments).apply arguments context site) := by
  rcases context with ⟨calls, mode⟩
  cases mode with
  | asynchronous =>
      rw [later_apply_asynchronous]
      exact first
  | synchronous =>
      rw [later_apply_synchronous]
      exact closed_fail closed _

end NativeForms

section Natives

variable {context : Context} (closed : Closed context.mode holds)

include closed

namespace Library

theorem closed_compare (arguments : List Value) : holds _ (compare arguments) :=
  closed.bind (closed_ofExcept closed (argument arguments 0)) fun _ =>
    closed.bind (closed_ofExcept closed (argument arguments 1)) fun _ => closed_look closed _

theorem closed_readLine (arguments : List Value) : holds _ (readLine arguments) := by
  refine closed.bind (closed_ofExcept closed (argument arguments 0)) fun prompt => ?_
  refine closed.bind (closed_ofExcept closed prompt.asStr) fun prompt => ?_
  refine closed.bind (closed.perform (.ask prompt) trivial rfl) fun line => ?_
  cases line with
  | none => exact closed.pure _
  | some line => exact closed.pure _

theorem closed_forms (function : LibraryFunction) (arguments : List Value)
    (site : Option Position) :
    holds _ ((forms function).apply arguments context site) := by
  cases function with
  | eq | neq =>
      refine NativeForms.closed_plain ?_ context site
      exact closed.bind (closed_compare closed arguments) fun _ => closed.pure _
  | toStr =>
      refine NativeForms.closed_plain ?_ context site
      refine closed.bind (closed_ofExcept closed (argument arguments 0)) fun value => ?_
      exact closed.bind (closed_look closed _) fun _ => closed.pure _
  | range =>
      refine NativeForms.closed_plain ?_ context site
      refine closed.bind (closed_ofExcept closed (range arguments)) fun items => ?_
      exact closed.bind (closed.perform (.newArray items) trivial rfl) fun _ => closed.pure _
  | print =>
      refine NativeForms.closed_plain ?_ context site
      refine closed.bind (closed_ofExcept closed (argument arguments 0)) fun value => ?_
      exact closed.bind (closed.perform (.print value) trivial rfl) fun _ => closed.pure _
  | readline =>
      exact NativeForms.closed_later closed (closed_readLine closed arguments) context site
  | _ => exact NativeForms.closed_plain (closed_ofExcept closed _) context site

end Library

namespace Method

theorem closed_mapArray (array : ArrayId) (arguments : List Value)
    {call : Value → List Value → Rule Value}
    (calls : ∀ callee values, holds _ (call callee values)) :
    holds _ (mapArray array arguments call) := by
  refine closed.bind (closed_ofExcept closed (argument arguments 0)) fun callee => ?_
  refine closed.bind (closed_look closed _) fun items => ?_
  refine closed.bind (closed_traverse closed (fun element => calls callee _) items.zipIdx)
    fun results => ?_
  exact closed.bind (closed.perform (.newArray results.toArray) trivial rfl) fun _ => closed.pure _

/-- Mapping calls back in asynchronous evaluation, and drives in synchronous evaluation. -/
theorem closed_arrMap (array : ArrayId) (arguments : List Value) (site : Option Position) :
    holds _ ((arrMap array).forms.apply arguments context site) := by
  rcases context with ⟨calls, mode⟩
  cases mode with
  | asynchronous =>
      rw [arrMap_apply_asynchronous]
      exact closed_mapArray closed array arguments fun callee values =>
        closed.bind (closed_ofExcept closed callee.asFn) fun _ => closed.call rfl
  | synchronous =>
      rw [arrMap_apply_synchronous]
      exact closed_mapArray closed array arguments fun callee values =>
        closed.bind (closed_ofExcept closed callee.asFn) fun _ => closed.drive rfl rfl

theorem closed_forms (method : Method) (arguments : List Value) (site : Option Position) :
    holds _ (method.forms.apply arguments context site) := by
  cases method with
  | strSplit text =>
      refine NativeForms.closed_plain ?_ context site
      refine closed.bind (closed_ofExcept closed (pieces text arguments)) fun texts => ?_
      have made := closed.perform (.newArray (texts.map Value.str).toArray) trivial rfl
      exact closed.bind made fun _ => closed.pure _
  | arrPush array =>
      refine NativeForms.closed_plain ?_ context site
      refine closed.bind (closed_ofExcept closed (argument arguments 0)) fun value => ?_
      exact closed.bind (closed.perform (.push array value) trivial rfl) fun _ => closed.pure _
  | arrPop array =>
      exact NativeForms.closed_plain (closed.perform (.pop array) trivial rfl) context site
  | arrJoin array =>
      refine NativeForms.closed_plain ?_ context site
      refine closed.bind (closed_ofExcept closed (separator arguments)) fun separator => ?_
      exact closed.bind (closed_look closed _) fun _ => closed.pure _
  | arrMap array => exact closed_arrMap closed array arguments site
  | _ => exact NativeForms.closed_plain (closed.pure _) context site

end Method

end Natives

namespace Evaluation

/-! ## Calls -/

section Calls

variable {context : Context} {scope : Scope} (closed : Closed context.mode holds)

include closed

/-- A native function, if those of the host are known. -/
theorem closed_nativeForms {host : Host} (native : Native) (arguments : List Value)
    (site : Option Position)
    (guests : ∀ name forms, native = .host name → host name = some forms →
      holds _ (forms.apply arguments context site)) :
    holds _ ((nativeForms host native).apply arguments context site) := by
  cases native with
  | library function => exact Library.closed_forms closed function arguments site
  | method property => exact Method.closed_forms closed property arguments site
  | host name =>
      rw [nativeForms]
      cases supplied : host name with
      | none => exact NativeForms.closed_plain (closed_fail closed _) context site
      | some forms => exact guests name forms rfl supplied

theorem closed_bindParameters (parameters : List Parameter) (fallbacks : List (Option Value))
    (arguments : List Value) :
    holds _ (bindParameters scope parameters fallbacks arguments) := by
  induction parameters generalizing fallbacks arguments with
  | nil => exact closed.pure ()
  | cons parameter rest inductive_step =>
      rw [bindParameters]
      split
      · exact closed.bind (closed_defining closed true parameter.target _) fun _ =>
          inductive_step fallbacks.tail arguments.tail
      · exact closed_fail closed _

theorem closed_applyClosure (options : Options) (name : Option String)
    (parameters : List Parameter) (fallbacks : List (Option Value)) (statements : List Node)
    (scope : Scope) (arguments : List Value) (site : Option Position) :
    holds _ (applyClosure options name parameters fallbacks statements scope arguments context
      site) := by
  have inside (name : String) : Closed (context.enter name site).mode holds := closed
  have rest : holds Value (do
      let inner ← openScope scope .empty
      bindParameters inner parameters fallbacks arguments
      let outcome ←
        (runAll inner (context.enter (name.getD anonymous) site) statements).outcome
      ExceptT.mk (.done (endOfBody outcome))) := by
    refine closed.bind (closed_openScope closed .empty) fun inner => ?_
    refine closed.bind (closed_bindParameters closed parameters fallbacks arguments) fun _ => ?_
    exact closed.outcome (closed_runAll (inside _) statements)
      (fun _ => closed_ending closed _) fun error => ⟨error, rfl, rfl⟩
  unfold applyClosure
  split
  · exact closed.bind (closed_fail closed _) fun (_ : Unit) => rest
  · exact rest

/-- A call, if the functions of the host are known. -/
theorem closed_apply (options : Options) {host : Host} (function : FunctionId)
    (arguments : List Value) (site : Option Position)
    (guests : ∀ name forms, host name = some forms →
      holds _ (forms.apply arguments context site)) :
    holds _ (apply options host function arguments context site) := by
  refine closed.bind (closed_look closed _) fun found => ?_
  split
  · exact closed_applyClosure closed options _ _ _ _ _ arguments site
  · exact closed_nativeForms closed _ arguments site fun name forms _ => guests name forms
  · exact closed_fail closed _

end Calls

theorem closed_applyValue {mode : Mode} (closed : Closed mode holds) (callee : Value)
    (arguments : List Value) :
    holds _ (applyValue callee arguments mode) :=
  closed.bind (closed_ofExcept closed callee.asFn) fun _ => closed.call rfl

/-! ## Goals -/

/-- The gate looks at the pause and at the steps, tells of a yield, and may wait for either. -/
theorem closed_gate {mode : Mode} (closed : Closed mode holds)
    (looksAtPause : holds _ (perform .pause)) (looksAtSteps : holds _ (perform .steps))
    (yields : holds _ (perform .yielded)) (waits : ∀ reason, holds _ (wait reason)) (irq : Irq) :
    holds _ (gate irq) := by
  have yielding : holds _ (yieldNow irq.sleep) := by
    unfold yieldNow
    split
    · exact waits .nextPoll
    · refine closed.bind yields fun _ => ?_
      split
      · exact waits .nextPoll
      · exact closed.pure ()
  have rest :
      holds Unit (do
        if irq.isDue (← Rule.perform .steps) then
          yieldNow irq.sleep) := by
    refine closed.bind looksAtSteps fun steps => ?_
    split
    · exact yielding
    · exact closed.pure ()
  refine closed.bind looksAtPause fun pause => ?_
  cases pause with
  | none => exact rest
  | some pause => exact closed.bind (waits (.resumed pause)) fun _ => rest

theorem closed_evaluateNode {context : Context} (closed : Closed context.mode holds)
    {options : Options} (ticks : holds _ (perform .tick))
    (gated : context.mode = .asynchronous → holds _ (gate options.irq))
    (node : Node) (scope : Scope)
    (definitions : node.shape.isDefinition = true →
      holds _ (construct scope context node.start node.shape))
    (signals : node.shape.isSignal = true →
      holds _ (construct scope context node.start node.shape)) :
    holds _ (evaluateNode options node scope context) := by
  have ticked :
      holds _ (do
        if ← Rule.perform .tick then
          construct scope context node.start node.shape
        else Rule.fail (.of .stepLimit)) := by
    refine closed.bind ticks fun within => ?_
    cases within with
    | true => exact closed_construct closed node.start node.shape definitions signals
    | false => exact closed_fail closed _
  have entered : holds _ (enterNode options node scope context) := by
    refine closed.bind (closed.perform .isStopped trivial rfl) fun stopped => ?_
    cases stopped with
    | true => exact closed.pure _
    | false =>
        rcases context with ⟨calls, mode⟩
        cases mode with
        | asynchronous => exact closed.bind (gated rfl) fun _ => ticked
        | synchronous => exact ticked
  exact closed_mapError closed entered fun error => error.cause_locate _ _

/-- Every goal of a mode, if the gate, the step, calls, definitions and the nodes with a signal
are known. -/
theorem closed_turn {mode : Mode} (closed : Closed mode holds) {options : Options} {host : Host}
    (ticks : holds _ (perform .tick))
    (gated : mode = .asynchronous → holds _ (gate options.irq))
    {goal : Goal}
    (calls : ∀ function arguments context site, goal = .apply function arguments context site →
      holds _ (apply options host function arguments context site))
    (definitions : ∀ node scope context, goal = .evaluate node scope context →
      node.shape.isDefinition = true → holds _ (construct scope context node.start node.shape))
    (signals : ∀ node scope context, goal = .evaluate node scope context →
      node.shape.isSignal = true → holds _ (construct scope context node.start node.shape))
    (runs : goal.RunsIn mode) :
    holds _ (turn options host goal) := by
  cases goal with
  | evaluate node scope context =>
      cases runs
      have evaluated := closed_evaluateNode closed ticks gated node scope
        (definitions node scope context rfl) (signals node scope context rfl)
      exact closed.bind evaluated fun _ => closed.pure _
  | loop label statements scope context =>
      cases runs
      exact closed_loopTurn closed label statements
  | times label start limit body scope context =>
      cases runs
      exact closed_timesTurn closed label start limit body
  | range label counter start limit body scope context =>
      cases runs
      exact closed_rangeTurn closed label counter start limit body
  | each label pattern array place body scope context =>
      cases runs
      exact closed_eachTurn closed label pattern array place body
  | apply function arguments context site =>
      cases runs
      exact closed.bind (calls function arguments context site rfl) fun _ => closed.pure _
  | enter callee arguments mode => exact runs.elim

end Evaluation

end TreeScript
