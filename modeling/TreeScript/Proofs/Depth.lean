import TreeScript.Proofs.Callers
import TreeScript.Proofs.Fresh

/-!
# The depth of calls

A closure is entered only below the depth limit, and a native function at any
depth.  So a chain of call frames has at most as many frames as the limit
allows, and on top of them those of native functions that call each other:
`frames_of_reached` says exactly that.  As long as no more than two native
functions are on top of each other, a chain exceeds the limit by two at most;
but nothing keeps them from being more.
-/

namespace TreeScript

namespace Goal

/-- The context that a goal is evaluated in. -/
def context : Goal → Context
  | .evaluate _ _ context => context
  | .loop _ _ _ context => context
  | .times _ _ _ _ _ context => context
  | .range _ _ _ _ _ _ context => context
  | .each _ _ _ _ _ _ context => context
  | .apply _ _ context _ => context
  | .enter _ _ mode => .top mode

end Goal

namespace Store

/-- The number of native functions that call one another directly around a call. -/
def callers (store : Store) : List Goal → Nat
  | goal :: caller :: outer =>
      if goal.isApply && store.isNativeCall caller then callers store (caller :: outer) + 1 else 0
  | _ => 0

/-- The number of native functions on top of each other: those, and the call itself. -/
def natives (store : Store) : List Goal → Nat
  | [] => 0
  | goal :: outer => store.callers (goal :: outer) + (store.isNativeCall goal).toNat

/-- The depth that the outermost of these native functions is called at. -/
def outside (store : Store) : List Goal → Nat
  | goal :: caller :: outer =>
      if goal.isApply && store.isNativeCall caller then outside store (caller :: outer)
      else goal.context.depth
  | [goal] => goal.context.depth
  | [] => 0

/--
The length of the chain of call frames: the calls around the innermost goal,
and the call of a native function that is the goal itself.
-/
def frames (store : Store) : List Goal → Nat
  | [] => 0
  | goal :: _ => goal.context.depth + (store.isNativeCall goal).toNat

theorem callers_of_not_isApply (store : Store) {goal : Goal} (noCall : goal.isApply = false)
    (outer : List Goal) :
    store.callers (goal :: outer) = 0 := by
  cases outer with
  | nil => rfl
  | cons caller rest =>
      rw [callers, noCall]
      rfl

/-- Of two native functions around a call one has called the other. -/
theorem exists_nativeCallers {store : Store} {goals : List Goal} (two : 2 ≤ store.callers goals) :
    ∃ goal caller outer rest, goals = goal :: caller :: outer :: rest ∧ goal.isApply = true ∧
      store.isNativeCall caller = true ∧ store.isNativeCall outer = true := by
  match goals with
  | [] | [_] => simp [callers] at two
  | [goal, caller] =>
      rw [callers] at two
      split at two <;> simp [callers] at two
  | goal :: caller :: outer :: rest =>
      rw [callers] at two
      split at two
      · rename_i first
        rw [callers] at two
        split at two
        · rename_i second
          obtain ⟨isCall, isNative⟩ := Bool.and_eq_true_iff.mp first
          exact ⟨goal, caller, outer, rest, rfl, isCall, isNative,
            (Bool.and_eq_true_iff.mp second).2⟩
        · omega
      · omega

end Store

variable {options : Options} {host : Host} {givesUp : Cause → Prop} {mode : Mode}

/-- A goal is as deep as the one that asked for it, or it is inside one more call. -/
theorem Goal.Asks.depth {outer goal : Goal} (asks : outer.Asks options goal) :
    (outer.isApply = false ∧ goal.context.depth = outer.context.depth) ∨
      (outer.isApply = true ∧ goal.isApply = false ∧
        goal.context.depth = outer.context.depth + 1 ∧
        (options.depthLimit = 0 ∨ outer.context.depth < options.depthLimit)) ∨
      (outer.isApply = true ∧ goal.isApply = true ∧
        goal.context.depth = outer.context.depth + 1) := by
  cases asks with
  | node inside => cases inside <;> exact .inl ⟨rfl, rfl⟩
  | loop node scope => exact .inl ⟨rfl, rfl⟩
  | times node scope => exact .inl ⟨rfl, rfl⟩
  | range node scope => exact .inl ⟨rfl, rfl⟩
  | each node scope => exact .inl ⟨rfl, rfl⟩
  | body room name node scope => exact .inr (.inl ⟨rfl, rfl, rfl, room⟩)
  | back callee values => exact .inr (.inr ⟨rfl, rfl, rfl⟩)

/-- Outside of the native functions on top, a chain is no deeper than the limit. -/
theorem Goal.Chain.depth {store : Store} {stack : List Frame} {goal : Goal} {outer : List Goal}
    (chain : Goal.Chain options givesUp mode (goal :: outer))
    (settleAll : Frame.SettleAll store stack (goal :: outer))
    (limited : 0 < options.depthLimit) :
    store.outside (goal :: outer) ≤ options.depthLimit ∧
      goal.context.depth = store.outside (goal :: outer) + store.callers (goal :: outer) := by
  induction outer generalizing goal stack with
  | nil =>
      cases chain with
      | cons asks _ =>
          rcases asks with ⟨node, scope, rfl⟩
          exact ⟨Nat.zero_le _, rfl⟩
  | cons caller rest inductive_step =>
      cases chain with
      | cons asks chain =>
          cases settleAll with
          | push native _ settleAll =>
              rcases inductive_step chain settleAll with ⟨within, deep⟩
              rw [Store.outside, Store.callers]
              rcases asks.depth with ⟨noCall, same⟩ | ⟨-, noCall, deeper, room⟩ |
                ⟨isCall, called, deeper⟩
              · rw [store.callers_of_not_isApply noCall] at deep
                rw [store.isNativeCall_of_not_isApply noCall, Bool.and_false]
                exact ⟨by rw [if_neg nofun]; omega, rfl⟩
              · rw [noCall, Bool.false_and]
                exact ⟨by rw [if_neg nofun]; omega, rfl⟩
              · rw [called, native called isCall, Bool.and_self, if_pos rfl, if_pos rfl]
                exact ⟨within, by omega⟩

/-- The chain of call frames: what is outside of the native functions on top, and these. -/
theorem Task.Reached.frames_eq {start world : World} {root : Scope} {script : List Node}
    {task : Task} {goals : List Goal}
    (limited : 0 < options.depthLimit)
    (hostless : start.store.Hostless)
    (reached : Task.Reached options host Task.KeepsFunctions start
      (Task.ofScript root script mode) world task goals) :
    world.store.outside goals ≤ options.depthLimit ∧
      world.store.frames goals = world.store.outside goals + world.store.natives goals := by
  cases goals with
  | nil => exact ⟨Nat.zero_le _, rfl⟩
  | cons goal outer =>
      rcases (reached.lawful (fun _ => False) hostless).chain.depth
        (reached.settled hostless).frames limited with ⟨within, deep⟩
      refine ⟨within, ?_⟩
      rw [Store.frames, Store.natives, deep, Nat.add_assoc]

/-- A closure at the limit is not entered. -/
theorem Evaluation.applyClosure_of_deep (options : Options) (name : Option String)
    (parameters : List Parameter) (fallbacks : List (Option Value)) (statements : List Node)
    (scope : Scope) (arguments : List Value) (context : Context) (site : Option Position)
    (limited : 0 < options.depthLimit)
    (deep : options.depthLimit ≤ context.depth) :
    applyClosure options name parameters fallbacks statements scope arguments context site =
      Rule.fail (.of (.callDepth options.depthLimit)) := by
  unfold applyClosure
  rw [if_pos (by simp; omega)]
  rfl

/-- A closure at the limit is refused at once. -/
theorem Task.step_apply_refused {world : World} {function : FunctionId} {arguments : List Value}
    {context : Context} {site : Option Position} {name : Option String}
    {attributes : List Attribute} {parameters : List Parameter}
    {fallbacks : List (Option Value)} {statements : List Node} {scope : Scope}
    (closure : world.store.function? function =
      some ⟨name, attributes, .closure parameters fallbacks statements scope⟩)
    (limited : 0 < options.depthLimit)
    (deep : options.depthLimit ≤ context.depth) (stack : List Frame) :
    Task.step options host world
        ⟨Evaluation.ofGoal options host (.apply function arguments context site), stack⟩ =
      .running world
        ⟨.done (.answer (.error (.error (.of (.callDepth options.depthLimit))))), stack⟩ := by
  have applied : Evaluation.ofGoal options host (.apply function arguments context site) =
      Evaluation.process (Evaluation.answering
        (Evaluation.apply options host function arguments context site)) := rfl
  rw [applied, Evaluation.apply, Task.step_look, closure]
  dsimp only
  rw [Evaluation.applyClosure_of_deep _ _ _ _ _ _ _ _ _ limited deep]
  rfl

/-- The whole task ends with the error of a closure that was refused. -/
theorem Task.Lawful.run_of_refused {world : World} {goals : List Goal} {stack : List Frame}
    {function : FunctionId} {arguments : List Value} {context : Context} {site : Option Position}
    (lawful : Task.Lawful options (fun cause => cause = .callDepth options.depthLimit) mode world
      ⟨Evaluation.ofGoal options host (.apply function arguments context site), stack⟩ goals)
    {name : Option String} {attributes : List Attribute} {parameters : List Parameter}
    {fallbacks : List (Option Value)} {statements : List Node} {scope : Scope}
    (closure : world.store.function? function =
      some ⟨name, attributes, .closure parameters fallbacks statements scope⟩)
    (limited : 0 < options.depthLimit)
    (deep : options.depthLimit ≤ context.depth) :
    ∃ error : Error, error.cause = .callDepth options.depthLimit ∧
      ∃ fuel, Task.run options host fuel world
          ⟨Evaluation.ofGoal options host (.apply function arguments context site), stack⟩ =
        some (.finished world (.error (.error error))) := by
  obtain ⟨error, cause, ran⟩ :=
    lawful.frames.run_of_error host (.of (.callDepth options.depthLimit)) rfl world
  refine ⟨error, cause, 0 + stack.length + 1 + 1, ?_⟩
  rw [Task.run_of_running (Task.step_apply_refused closure limited deep stack)]
  exact ran 0

/-- A native function is never refused, however deep it is called. -/
theorem Task.step_apply_native {world : World} {function : FunctionId} {arguments : List Value}
    {context : Context} {site : Option Position} {name : Option String}
    {attributes : List Attribute} {native : Native}
    (found : world.store.function? function = some ⟨name, attributes, .native native⟩)
    (stack : List Frame) :
    Task.step options host world
        ⟨Evaluation.ofGoal options host (.apply function arguments context site), stack⟩ =
      .running world ⟨Evaluation.process (Evaluation.answering
        ((Evaluation.nativeForms host native).apply arguments context site)), stack⟩ := by
  have applied : Evaluation.ofGoal options host (.apply function arguments context site) =
      Evaluation.process (Evaluation.answering
        (Evaluation.apply options host function arguments context site)) := rfl
  rw [applied, Evaluation.apply, Task.step_look, found]

/--
In every state that a script reaches, the chain of call frames consists of
frames within the depth limit and, on top of them, those of native functions
that call each other.  So it exceeds the limit by more than two only while something
is called by a native function which another native function has called.  A closure
that is called at the limit ends the script with an error that says so, and a
native function runs at any depth.
-/
theorem frames_of_reached (options : Options) (host : Host) (mode : Mode)
    (limited : 0 < options.depthLimit)
    {start world : World} (hostless : start.store.Hostless) {root : Scope} {script : List Node}
    {task : Task} {goals : List Goal}
    (reached : Task.Reached options host Task.KeepsFunctions start
      (Task.ofScript root script mode) world task goals) :
    world.store.outside goals ≤ options.depthLimit ∧
      world.store.frames goals = world.store.outside goals + world.store.natives goals ∧
      (options.depthLimit + 2 < world.store.frames goals →
        ∃ goal caller outer rest, goals = goal :: caller :: outer :: rest ∧
          goal.isApply = true ∧ world.store.isNativeCall caller = true ∧
          world.store.isNativeCall outer = true) ∧
      ∀ function arguments context site name attributes,
        task.process = Evaluation.ofGoal options host (.apply function arguments context site) →
        (∀ parameters fallbacks statements scope,
          world.store.function? function =
            some ⟨name, attributes, .closure parameters fallbacks statements scope⟩ →
          options.depthLimit ≤ context.depth →
          ∃ error : Error, error.cause = .callDepth options.depthLimit ∧
            ∃ fuel, task.run options host fuel world =
              some (.finished world (.error (.error error)))) ∧
        ∀ native,
          world.store.function? function = some ⟨name, attributes, .native native⟩ →
          task.step options host world =
            .running world ⟨Evaluation.process (Evaluation.answering
              ((Evaluation.nativeForms host native).apply arguments context site)),
              task.stack⟩ := by
  have lawful := reached.lawful (fun cause => cause = .callDepth options.depthLimit) hostless
  rcases reached.frames_eq limited hostless with ⟨within, sum⟩
  refine ⟨within, sum, fun exceeds => ?_, ?_⟩
  · apply Store.exists_nativeCallers
    cases goals with
    | nil => simp [Store.frames] at exceeds
    | cons goal outer =>
        have one := Bool.toNat_le (world.store.isNativeCall goal)
        rw [Store.natives] at sum
        omega
  intro function arguments context site name attributes calls
  rcases task with ⟨process, stack⟩
  obtain rfl : process = _ := calls
  constructor
  · intro parameters fallbacks statements scope closure deep
    exact lawful.run_of_refused closure limited deep
  · intro native found
    exact Task.step_apply_native found stack

/-- The script `[null].map(fn() {})`. -/
def mappedClosure : List Node :=
  [.of (.call (.of (.prop (.of (.arr [.of .null])) "map")) [.of (.function [] [])])]

/-- The script `[[null].map].map([true.to_str].map)`. -/
def mappedMaps : List Node :=
  [.of (.call
    (.of (.prop (.of (.arr [.of (.prop (.of (.arr [.of .null])) "map")])) "map"))
    [.of (.prop (.of (.arr [.of (.prop (.of (.bool true)) "to_str")])) "map")])]

/-- An interpreter that allows calls of closures only outside of all other calls. -/
def shallow : Interpreter :=
  Interpreter.create (.silent 0 1) Host.none [] [] []

/-- With a limit of one, a closure that a native function calls is refused. -/
theorem frames_of_reached_mapped :
    let state := Task.stateAfter shallow.options shallow.host
      (Task.ofScript shallow.root mappedClosure .synchronous) 28 shallow.world []
    state.1.store.frames state.2.2 ≤ shallow.options.depthLimit + 2 ∧
      ∃ error : Error, error.cause = .callDepth shallow.options.depthLimit ∧
        ∃ fuel, state.2.1.run shallow.options shallow.host fuel state.1 =
          some (.finished state.1 (.error (.error error))) := by
  intro state
  have hostless : shallow.world.store.Hostless := Interpreter.hostless_create _ _ _ _
  have reached : Task.Reached shallow.options shallow.host Task.KeepsFunctions shallow.world
      (Task.ofScript shallow.root mappedClosure .synchronous) state.1 state.2.1 state.2.2 :=
    Task.Reached.start.stateAfter 28
  rcases frames_of_reached shallow.options shallow.host .synchronous (by decide) hostless
    reached with ⟨-, sum, -, refused⟩
  refine ⟨Nat.le_trans (Nat.le_of_eq sum) (by decide), ?_⟩
  exact (refused ⟨19⟩ [.null, .num (Float.ofNat 0)] ⟨[⟨"<native>", some default⟩], .synchronous⟩
    none none [] rfl).1 [] [] [] (.root ⟨0⟩) rfl (by decide)

/-- With a limit of one, four native functions are on top of each other. -/
theorem exists_frames_gt :
    ∃ world task goals,
      Task.Reached shallow.options shallow.host Task.KeepsFunctions shallow.world
          (Task.ofScript shallow.root mappedMaps .synchronous) world task goals ∧
        shallow.options.depthLimit + 2 < world.store.frames goals :=
  ⟨_, _, _, Task.Reached.start.stateAfter 61, by decide⟩

end TreeScript
