import TreeScript.Evaluation.Goal
import TreeScript.Proofs.ConstructComparison

/-!
# Comparing the processes of goals

The process of a goal depends on the context in three places only: the mode
decides what happens before a node is entered and which form of a native
function is taken, the depth is compared with the limit before a closure is
entered, and calls are added to the context when a function runs.
`Comparison.Modes` and `Comparison.Calls` say what two contexts need to have in
common there; then the processes of their goals follow each other.
-/

namespace TreeScript

/-- The error of a synchronous call of a function that only promises its result. -/
def Cause.refusedPromise : Cause :=
  .hostSide "Native function must not return a pending result in sync mode."

/-- The modes of two contexts whose goals can be compared. -/
inductive Comparison.Modes (comparison : Comparison) : Mode → Mode → Prop where
  | together (mode : Mode) (compared : comparison.modes mode mode) :
      Modes comparison mode mode
  | apart (compared : comparison.modes .synchronous .asynchronous)
      (refuses : comparison.givesUp .refusedPromise) :
      Modes comparison .synchronous .asynchronous

/-- Two contexts in which a function that is called at a place can be compared. -/
structure Comparison.Calls (comparison : Comparison) (options : Options)
    (context other : Context) (site : Option Position) : Prop where
  calls : context.calls = other.calls
  modes : comparison.Modes context.mode other.mode
  body : options.depthLimit = 0 ∨ context.depth < options.depthLimit →
    ∀ name, comparison.Evaluates (context.enter name site) (other.enter name site)
  back : ∀ function arguments,
    comparison.goal (.apply function arguments (context.enter "<native>" site) none)
      (.apply function arguments (other.enter "<native>" site) none)

@[simp]
theorem Error.cause_locate (error : Error) (position : Position) (calls : List Call) :
    (error.locate position calls).cause = error.cause := by
  unfold Error.locate
  split <;> rfl

namespace NativeForms

/-- A function that always answers is its answer. -/
theorem plain_apply (answer : List Value → Rule Value) (arguments : List Value)
    (context : Context) (site : Option Position) :
    (plain fun arguments _ => answer arguments).apply arguments context site =
      answer arguments := by
  obtain ⟨calls, _ | _⟩ := context <;>
    simp [apply, plain, applyGeneral]

/-- A promise is refused in synchronous evaluation. -/
theorem later_apply_synchronous (answer : List Value → Context → Rule Value)
    (arguments : List Value) (calls : List Call) (site : Option Position) :
    (later answer).apply arguments ⟨calls, .synchronous⟩ site =
      Rule.fail (.of .refusedPromise) := by
  simp [apply, later, applyGeneral, Cause.refusedPromise]

/-- A promise is kept in asynchronous evaluation. -/
theorem later_apply_asynchronous (answer : List Value → Context → Rule Value)
    (arguments : List Value) (calls : List Call) (site : Option Position) :
    (later answer).apply arguments ⟨calls, .asynchronous⟩ site =
      answer arguments ⟨⟨"<native>", site⟩ :: calls, .asynchronous⟩ := by
  simp [apply, later, applyGeneral, Context.enter]

end NativeForms

namespace Method

/-- Asynchronous evaluation maps with calls that may be suspended. -/
theorem arrMap_apply_asynchronous (array : ArrayId) (arguments : List Value)
    (calls : List Call) (site : Option Position) :
    (arrMap array).forms.apply arguments ⟨calls, .asynchronous⟩ site =
      mapArray array arguments fun callee values =>
        callBack callee values ⟨⟨"<native>", site⟩ :: calls, .asynchronous⟩ :=
  NativeForms.later_apply_asynchronous
    (fun arguments context =>
      mapArray array arguments fun callee values => callBack callee values context)
    arguments calls site

/-- Synchronous evaluation maps with calls that are run to their end. -/
theorem arrMap_apply_synchronous (array : ArrayId) (arguments : List Value)
    (calls : List Call) (site : Option Position) :
    (arrMap array).forms.apply arguments ⟨calls, .synchronous⟩ site =
      mapArray array arguments fun callee values =>
        callBackAtOnce callee values ⟨⟨"<native>", site⟩ :: calls, .synchronous⟩ := rfl

end Method

namespace Evaluation

open Rule

/-- The process of a rule that ends its goal answers with the outcome of the rule. -/
theorem process_answering (rule : Rule Value) :
    process (answering rule) = rule.run.bind fun outcome => .done (.answer outcome) := by
  refine (Process.bind_assoc _ _ _).trans (congrArg _ (funext fun outcome => ?_))
  cases outcome <;> rfl

variable {comparison : Comparison} {context other : Context} {site : Option Position}

/-! ## Native functions -/

theorem follows_plain {answer : List Value → Rule Value} {arguments : List Value}
    (follows : Follows comparison Eq (answer arguments) (answer arguments)) :
    Follows comparison Eq
      ((NativeForms.plain fun arguments _ => answer arguments).apply arguments context site)
      ((NativeForms.plain fun arguments _ => answer arguments).apply arguments other site) := by
  rw [NativeForms.plain_apply, NativeForms.plain_apply]
  exact follows

theorem follows_later {answer : List Value → Rule Value} {arguments : List Value}
    (modes : comparison.Modes context.mode other.mode)
    (follows : Follows comparison Eq (answer arguments) (answer arguments)) :
    Follows comparison Eq
      ((NativeForms.later fun arguments _ => answer arguments).apply arguments context site)
      ((NativeForms.later fun arguments _ => answer arguments).apply arguments other site) := by
  rcases context with ⟨calls, mode⟩
  rcases other with ⟨calls', mode'⟩
  cases modes with
  | together _ _ =>
      cases mode with
      | asynchronous =>
          rw [NativeForms.later_apply_asynchronous, NativeForms.later_apply_asynchronous]
          exact follows
      | synchronous =>
          rw [NativeForms.later_apply_synchronous, NativeForms.later_apply_synchronous]
          exact follows_fail Eq _
  | apart _ refuses =>
      rw [NativeForms.later_apply_synchronous]
      exact .giveUp refuses

theorem follows_argument (arguments : List Value) (place : Nat) :
    Follows comparison Eq (ofExcept (argument arguments place))
      (ofExcept (argument arguments place)) :=
  follows_ofExcept _

theorem follows_compare (arguments : List Value) :
    Follows comparison Eq (Library.compare arguments) (Library.compare arguments) :=
  (follows_argument arguments 0).andThen fun _ =>
    (follows_argument arguments 1).andThen fun _ => follows_look _

theorem follows_readLine (arguments : List Value) :
    Follows comparison Eq (Library.readLine arguments) (Library.readLine arguments) := by
  refine (follows_argument arguments 0).andThen ?_
  intro value
  refine (follows_ofExcept value.asStr).andThen ?_
  intro prompt
  refine (follows_act (.ask prompt) trivial).andThen ?_
  intro line
  cases line with
  | some line => exact follows_pure rfl
  | none => exact follows_pure rfl

/-- Every function of the library follows itself. -/
theorem follows_library (modes : comparison.Modes context.mode other.mode)
    (function : LibraryFunction) (arguments : List Value) :
    Follows comparison Eq ((Library.forms function).apply arguments context site)
      ((Library.forms function).apply arguments other site) := by
  cases function with
  | eq => exact follows_plain ((follows_compare arguments).andThen fun _ => follows_pure rfl)
  | neq => exact follows_plain ((follows_compare arguments).andThen fun _ => follows_pure rfl)
  | toStr =>
      refine follows_plain ((follows_argument arguments 0).andThen fun value => ?_)
      exact (follows_look _).andThen fun _ => follows_pure rfl
  | range =>
      refine follows_plain ((follows_ofExcept (Library.range arguments)).andThen fun items => ?_)
      exact (follows_act (.newArray items) trivial).andThen fun _ => follows_pure rfl
  | print =>
      refine follows_plain ((follows_argument arguments 0).andThen fun value => ?_)
      exact (follows_act (.print value) trivial).andThen fun _ => follows_pure rfl
  | readline => exact follows_later modes (follows_readLine arguments)
  | _ => exact follows_plain (follows_ofExcept _)

theorem follows_mapArray (array : ArrayId) (arguments : List Value)
    {call call' : Value → List Value → Rule Value}
    (follows : ∀ callee values, Follows comparison Eq (call callee values) (call' callee values)) :
    Follows comparison Eq (Method.mapArray array arguments call)
      (Method.mapArray array arguments call') := by
  refine (follows_argument arguments 0).andThen ?_
  intro callee
  refine (follows_look _).andThen ?_
  intro items
  refine (follows_traverse (fun item => follows callee _) _).andThen ?_
  intro results
  exact (follows_act (.newArray results.toArray) trivial).andThen fun _ => follows_pure rfl

/-- Calling back from inside the method of arrays that takes a function. -/
theorem follows_map {options : Options} (calls : comparison.Calls options context other site)
    (array : ArrayId) (arguments : List Value) :
    Follows comparison Eq ((Method.arrMap array).forms.apply arguments context site)
      ((Method.arrMap array).forms.apply arguments other site) := by
  have modes := calls.modes
  have back := calls.back
  rcases context with ⟨outer, mode⟩
  rcases other with ⟨outer', mode'⟩
  cases modes with
  | together _ compared =>
      cases mode with
      | asynchronous =>
          rw [Method.arrMap_apply_asynchronous, Method.arrMap_apply_asynchronous]
          exact follows_mapArray array arguments fun callee values =>
            (follows_ofExcept callee.asFn).andThen fun function =>
              follows_call (back function values)
      | synchronous =>
          rw [Method.arrMap_apply_synchronous, Method.arrMap_apply_synchronous]
          exact follows_mapArray array arguments fun callee values =>
            (follows_ofExcept callee.asFn).andThen fun function =>
              follows_drive compared (back function values)
  | apart compared _ =>
      rw [Method.arrMap_apply_synchronous, Method.arrMap_apply_asynchronous]
      exact follows_mapArray array arguments fun callee values =>
        (follows_ofExcept callee.asFn).andThen fun function =>
          follows_drive_call compared (back function values)

/-- Every method follows itself. -/
theorem follows_method {options : Options} (calls : comparison.Calls options context other site)
    (method : Method) (arguments : List Value) :
    Follows comparison Eq (method.forms.apply arguments context site)
      (method.forms.apply arguments other site) := by
  cases method with
  | strSplit text =>
      refine follows_plain ((follows_ofExcept (Method.pieces text arguments)).andThen fun _ => ?_)
      exact (follows_act (.newArray _) trivial).andThen fun _ => follows_pure rfl
  | arrPush array =>
      refine follows_plain ((follows_argument arguments 0).andThen fun value => ?_)
      exact (follows_act (.push array value) trivial).andThen fun _ => follows_pure rfl
  | arrPop array => exact follows_plain (follows_act (.pop array) trivial)
  | arrJoin array =>
      refine follows_plain ((follows_ofExcept (Method.separator arguments)).andThen fun _ => ?_)
      exact (follows_look _).andThen fun _ => follows_pure rfl
  | arrMap array => exact follows_map calls array arguments
  | _ => exact follows_plain (follows_pure rfl)

/-! ## Calls -/

theorem follows_bindParameters (scope : Scope) (parameters : List Parameter)
    (fallbacks : List (Option Value)) (arguments : List Value) :
    Follows comparison Eq (bindParameters scope parameters fallbacks arguments)
      (bindParameters scope parameters fallbacks arguments) := by
  induction parameters generalizing fallbacks arguments with
  | nil => exact follows_pure rfl
  | cons parameter rest inductive_step =>
      unfold bindParameters
      split
      · exact (follows_act (.define scope true parameter.target _) trivial).attempt.andThen
          fun _ => inductive_step fallbacks.tail arguments.tail
      · exact follows_fail Eq _

/-- A closure is entered in both contexts or in neither. -/
theorem follows_applyClosure (options : Options) (calls : context.calls = other.calls)
    (body : options.depthLimit = 0 ∨ context.depth < options.depthLimit →
      ∀ name, comparison.Evaluates (context.enter name site) (other.enter name site))
    (name : Option String) (parameters : List Parameter) (fallbacks : List (Option Value))
    (statements : List Node) (scope : Scope) (arguments : List Value) :
    Follows comparison Eq
      (applyClosure options name parameters fallbacks statements scope arguments context site)
      (applyClosure options name parameters fallbacks statements scope arguments other site) := by
  have depths : other.depth = context.depth := congrArg List.length calls.symm
  unfold applyClosure
  rw [depths]
  split
  · exact follows_fail Eq _
  · rename_i accepted
    have room : options.depthLimit = 0 ∨ context.depth < options.depthLimit := by
      simp only [bne_iff_ne, Bool.and_eq_true, decide_eq_true_eq] at accepted
      omega
    have evaluates := body room
    refine (follows_openScope scope .empty).andThen ?_
    intro inner
    refine (follows_bindParameters inner parameters fallbacks arguments).andThen ?_
    intro _
    refine (follows_runAll (evaluates _) inner statements).outcome_bind ?_ ?_
    · exact fun _ => .done (same_eq_iff.mpr rfl)
    · exact fun error given => ⟨error, given, rfl⟩

/-- The function that a handle of a store without functions of the host stands for. -/
theorem follows_function (function : FunctionId) :
    Follows comparison
      (fun found found' => found = found' ∧
        ∀ known, found = some known → known.body.Hostless)
      (look fun store => store.function? function)
      (look fun store => store.function? function) := by
  refine (follows_perform .store trivial).bind ?_
  rintro store _ ⟨rfl, hostless⟩
  exact follows_pure ⟨rfl, fun known => hostless function known⟩

/-- Every function that the host did not supply follows itself. -/
theorem follows_apply (options : Options) (host : Host)
    (calls : comparison.Calls options context other site) (function : FunctionId)
    (arguments : List Value) :
    Follows comparison Eq (apply options host function arguments context site)
      (apply options host function arguments other site) := by
  refine (follows_function function).bind ?_
  rintro found _ ⟨rfl, hostless⟩
  split
  · exact follows_applyClosure options calls.calls calls.body _ _ _ _ _ arguments
  · rename_i native
    cases native with
    | library function => exact follows_library calls.modes function arguments
    | method method => exact follows_method calls method arguments
    | host name => exact (hostless _ rfl).elim
  · exact follows_fail Eq _

/-! ## Nodes -/

section Gate

variable {α β : Type} {same : α → β → Prop} {first : Rule α} {second : Rule β}

theorem follows_yield (sleep : Sleep) (follows : Follows comparison same first second) :
    Follows comparison same first (yieldNow sleep >>= fun _ => second) := by
  cases sleep with
  | timed milliseconds => exact .awaitPoll follows
  | custom suspends =>
      cases suspends with
      | true => exact .tellYield (.awaitPoll follows)
      | false => exact .tellYield follows

/-- What is done before a node is entered is not noticed by a rule that does not do it. -/
theorem follows_gate (irq : Irq) (follows : Follows comparison same first second) :
    Follows comparison same first (gate irq >>= fun _ => second) := by
  refine .lookAtPause (.lookAtSteps fun steps => ?_)
  show Follows comparison same first
    ((if irq.isDue steps = true then yieldNow irq.sleep else pure ()) >>= fun _ => second)
  split
  · exact follows_yield irq.sleep follows
  · exact follows

end Gate

theorem follows_wait (modes : comparison.modes .asynchronous .asynchronous) (reason : Wait) :
    Follows comparison Eq (wait reason) (wait reason) :=
  .wait modes (.done rfl)

/-- What is done before a node is entered follows itself where waiting is possible. -/
theorem follows_gate_gate (modes : comparison.modes .asynchronous .asynchronous) (irq : Irq) :
    Follows comparison Eq (gate irq) (gate irq) := by
  have rest :
      Follows comparison Eq
        (do if irq.isDue (← perform .steps) then yieldNow irq.sleep)
        (do if irq.isDue (← perform .steps) then yieldNow irq.sleep) := by
    refine (follows_act .steps trivial).andThen ?_
    intro steps
    split
    · cases irq.sleep with
      | timed milliseconds => exact follows_wait modes .nextPoll
      | custom suspends =>
          refine (follows_act .yielded trivial).andThen ?_
          intro _
          cases suspends with
          | true => exact follows_wait modes .nextPoll
          | false => exact follows_pure rfl
    · exact follows_pure rfl
  refine (follows_act .pause trivial).andThen ?_
  intro pause
  cases pause with
  | some pause => exact (follows_wait modes (.resumed pause)).andThen fun _ => rest
  | none => exact rest

/-- A node is entered in the same way from corresponding contexts. -/
theorem follows_enterNode (options : Options) (contexts : comparison.Contexts context other)
    (modes : comparison.Modes context.mode other.mode) (node : Node) (scope : Scope) :
    Follows comparison Eq (enterNode options node scope context)
      (enterNode options node scope other) := by
  have entered := follows_tick (follows_construct contexts scope node.start node.shape)
  refine (follows_act .isStopped trivial).andThen ?_
  intro stopped
  split
  · exact follows_pure rfl
  · generalize context.mode = mode at modes ⊢
    generalize other.mode = mode' at modes ⊢
    cases modes with
    | together _ compared =>
        cases mode with
        | asynchronous => exact (follows_gate_gate compared options.irq).andThen fun _ => entered
        | synchronous => exact entered
    | apart _ _ => exact follows_gate options.irq entered

theorem follows_evaluateNode (options : Options) (contexts : comparison.Contexts context other)
    (calls : context.calls = other.calls) (modes : comparison.Modes context.mode other.mode)
    (node : Node) (scope : Scope) :
    Follows comparison Eq (evaluateNode options node scope context)
      (evaluateNode options node scope other) := by
  unfold evaluateNode
  rw [calls]
  exact (follows_enterNode options contexts modes node scope).mapError fun error =>
    error.cause_locate node.start other.calls

/-! ## Processes of goals -/

section Goals

variable {again : Goal → Goal → Prop}

theorem follows_answering {rule rule' : Rule Value} (follows : Follows comparison Eq rule rule') :
    Follows comparison (Turn.Same again) (answering rule) (answering rule') :=
  follows.andThen fun _ => follows_pure rfl

theorem follows_process {rule rule' : Rule Turn}
    (follows : Follows comparison (Turn.Same again) rule rule') :
    Process.Follows comparison (Turn.GaveUp comparison) (Turn.Same again)
      (process rule) (process rule') := by
  refine Process.Follows.bind follows ?_ ?_
  · rintro (interrupt | turn) (interrupt' | turn') alike
    · exact .done (congrArg Except.error alike)
    · exact alike.elim
    · exact alike.elim
    · exact .done alike
  · rintro ((signal | error) | turn) gave
    · exact gave.elim
    · exact ⟨.answer (.error (.error error)), gave, rfl⟩
    · exact gave.elim

end Goals

end Evaluation

end TreeScript
