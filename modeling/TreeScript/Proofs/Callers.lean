import TreeScript.Proofs.Reach

/-!
# Functions that call functions

A closure asks for nothing but the evaluation of its statements; only a native
function calls another function itself.  So where calls are directly on top of
each other, with no node between them, all but the innermost are calls of
native functions.

Which functions are native is a matter of the store, and a call looks there
first.  `Process.Settled` says what holds of a call from then on, and it stays
so, since no step and no change from outside takes the body of a function away.
-/

namespace TreeScript

/-- Whether a goal is a call of a function. -/
def Goal.isApply : Goal → Bool
  | .apply _ _ _ _ => true
  | _ => false

/-- Whether a goal is a call of a native function. -/
def Store.isNativeCall (store : Store) : Goal → Bool
  | .apply function _ _ _ =>
      match store.function? function with
      | some ⟨_, _, .native _⟩ => true
      | _ => false
  | _ => false

theorem Store.isNativeCall_of_not_isApply (store : Store) {goal : Goal}
    (noCall : goal.isApply = false) :
    store.isNativeCall goal = false := by
  cases goal with
  | apply function arguments context site => cases noCall
  | _ => rfl

theorem Store.isNativeCall_of_native {store : Store} {function : FunctionId}
    {arguments : List Value} {context : Context} {site : Option Position} {found : Function}
    {native : Native}
    (present : store.function? function = some found)
    (body : found.body = .native native) :
    store.isNativeCall (.apply function arguments context site) = true := by
  rcases found with ⟨name, attributes, _⟩
  cases body
  rw [Store.isNativeCall, present]

/-- A function that is native stays so. -/
theorem Store.Extends.isNativeCall {store before : Store} (grown : store.Extends before)
    {goal : Goal} (native : before.isNativeCall goal = true) :
    store.isNativeCall goal = true := by
  cases goal with
  | apply function arguments context site =>
      rw [Store.isNativeCall] at native
      split at native
      · rename_i name attributes body present
        rcases grown function _ present with ⟨known, knownPresent, sameBody⟩
        exact isNativeCall_of_native knownPresent sameBody
      · cases native
  | _ => cases native

/-- The law of what is left of a closure: it asks for no call. -/
def Law.body : Law where
  asks goal := goal.isApply = false
  givesUp _ := False
  mode := .asynchronous

/--
What is left of a goal after it has looked at the store: the rest of a call
asks for no call itself, unless it is that of a native function.
-/
def Process.Settled (store : Store) (goal : Goal) (process : Process Turn) : Prop :=
  goal.isApply = true → store.isNativeCall goal = false →
    process.Obeys Law.body (Turn.GaveUp Law.body.comparison) Turn.IsAnswer

theorem Process.Settled.mono {store before : Store} {goal : Goal} {process : Process Turn}
    (settled : process.Settled before goal) (grown : store.Extends before) :
    process.Settled store goal := by
  intro called notNative
  refine settled called (Bool.eq_false_iff.mpr ?_)
  intro native
  rw [grown.isNativeCall native] at notNative
  cases notNative

namespace Evaluation

variable {options : Options} {host : Host} {context : Context} {site : Option Position}

/-- A closure asks for no call. -/
theorem obeys_applyClosure (name : Option String) (parameters : List Parameter)
    (fallbacks : List (Option Value)) (statements : List Node) (scope : Scope)
    (arguments : List Value) :
    (process (answering (applyClosure options name parameters fallbacks statements scope
      arguments context site))).Obeys Law.body (Turn.GaveUp Law.body.comparison)
        Turn.IsAnswer := by
  refine obeys_answering (follows_applyClosure options rfl ?_ name parameters fallbacks
    statements scope arguments)
  exact fun _ _ _ _ => ⟨rfl, rfl⟩

end Evaluation

namespace Task

variable {options : Options} {host : Host} {givesUp : Cause → Prop} {mode : Mode}
variable {world next : World} {task after : Task} {goals : List Goal}

/-- What a call reads of the store first, it reads in one step. -/
theorem step_look {α : Type} (world : World) (view : Store → α) (next : α → Rule Value)
    (stack : List Frame) :
    step options host world
        ⟨Evaluation.process (Evaluation.answering (Rule.look view >>= next)), stack⟩ =
      .running world
        ⟨Evaluation.process (Evaluation.answering (next (view world.store))), stack⟩ := rfl

/-- A call is settled after its first step. -/
theorem settled_of_apply {stack : List Frame} {goal : Goal} (called : goal.isApply = true)
    (running : step options host world ⟨Evaluation.ofGoal options host goal, stack⟩ =
      .running next after) :
    after.process.Settled world.store goal := by
  cases goal with
  | apply function arguments context site =>
      have applied : Evaluation.ofGoal options host (.apply function arguments context site) =
          Evaluation.process (Evaluation.answering
            (Evaluation.apply options host function arguments context site)) := rfl
      rw [applied, Evaluation.apply, step_look] at running
      cases running
      intro _ notNative
      split
      · exact Evaluation.obeys_applyClosure _ _ _ _ _ _
      · rename_i present
        rw [Store.isNativeCall_of_native present rfl] at notNative
        cases notNative
      · exact Evaluation.obeys_answering (Rule.follows_fail Eq _)
  | _ => cases called

end Task

/--
Frames below some goals: the call below another call is that of a native
function, and what is left of each goal is settled.
-/
inductive Frame.SettleAll (store : Store) : List Frame → List Goal → Prop where
  | foot {stack : List Frame} : SettleAll store stack []
  | outermost {stack : List Frame} {goal : Goal} : SettleAll store stack [goal]
  | push {frame : Frame} {outer : List Frame} {goal caller : Goal} {goals : List Goal}
      (native : goal.isApply = true → caller.isApply = true → store.isNativeCall caller = true)
      (resumes : ∀ outcome, (frame.resume outcome).Settled store caller)
      (rest : SettleAll store outer (caller :: goals)) :
      SettleAll store (frame :: outer) (goal :: caller :: goals)

theorem Frame.SettleAll.mono {store before : Store} {stack : List Frame} {goals : List Goal}
    (settleAll : Frame.SettleAll before stack goals) (grown : store.Extends before) :
    Frame.SettleAll store stack goals := by
  induction settleAll with
  | foot => exact .foot
  | outermost => exact .outermost
  | push native resumes _ inductive_step =>
      refine .push ?_ (fun outcome => (resumes outcome).mono grown) inductive_step
      exact fun called calls => grown.isNativeCall (native called calls)

/-- Another goal that is no call may take the place of the innermost one. -/
theorem Frame.SettleAll.replace {store : Store} {stack : List Frame} {goal other : Goal}
    {goals : List Goal}
    (settleAll : Frame.SettleAll store stack (goal :: goals))
    (noCall : other.isApply = false) :
    Frame.SettleAll store stack (other :: goals) := by
  cases settleAll with
  | outermost => exact .outermost
  | push _ resumes rest =>
      refine .push (fun called => ?_) resumes rest
      rw [noCall] at called
      cases called

/--
A state in which every call that is under way has not started yet, or calls
functions only if its own is native.
-/
structure Task.Settled (options : Options) (host : Host) (world : World) (task : Task)
    (goals : List Goal) : Prop where
  process : ∀ goal outer, goals = goal :: outer →
    task.process = Evaluation.ofGoal options host goal ∨
      task.process.Settled world.store goal
  frames : Frame.SettleAll world.store task.stack goals

namespace Task

variable {options : Options} {host : Host} {givesUp : Cause → Prop} {mode : Mode}
variable {world next : World} {task after : Task} {goals : List Goal}

/-- The first thing that a call does is to look at the store. -/
theorem ofGoal_of_isApply {goal : Goal} (called : goal.isApply = true) :
    ∃ next, Evaluation.ofGoal options host goal = .act .store next := by
  cases goal with
  | apply function arguments context site => exact ⟨_, rfl⟩
  | _ => cases called

/-- A goal is asked for in a settled state by what may ask for it. -/
theorem Settled.ask {process : Process Turn} {stack : List Frame} {asked : Goal}
    {resume : Outcome → Process Turn}
    (settled : Settled options host world ⟨process, stack⟩ goals)
    (asks : process = .call asked resume ∨ process = .drive asked resume) (isBarrier : Bool) :
    Settled options host world
      ⟨Evaluation.ofGoal options host asked, ⟨resume, isBarrier⟩ :: stack⟩ (asked :: goals) := by
  constructor
  · rintro _ _ ⟨⟩
    exact .inl rfl
  · cases goals with
    | nil => exact .outermost
    | cons goal outer =>
        have rest (called : goal.isApply = true)
            (notNative : world.store.isNativeCall goal = false) :
            asked.isApply = false ∧ ∀ outcome, (resume outcome).Obeys Law.body
              (Turn.GaveUp Law.body.comparison) Turn.IsAnswer := by
          rcases settled.process goal outer rfl with fresh | settled
          · rcases @ofGoal_of_isApply options host goal called with ⟨next, looks⟩
            rw [looks] at fresh
            rcases asks with rfl | rfl <;> cases fresh
          · have obeys := settled called notNative
            rcases asks with rfl | rfl
            · cases obeys with
              | call asks rest _ => exact ⟨asks, rest⟩
            · cases obeys with
              | drive _ asks rest _ => exact ⟨asks, rest⟩
        refine .push ?_ (fun outcome called notNative => (rest called notNative).2 outcome)
          settled.frames
        intro asksCall called
        cases notNative : world.store.isNativeCall goal with
        | true => rfl
        | false =>
            rw [(rest called notNative).1] at asksCall
            cases asksCall

/-- An action leads from a settled state to another. -/
theorem Settled.act {action : Action} {rest : action.Reply → Process Turn} {stack : List Frame}
    (settled : Settled options host world ⟨.act action rest, stack⟩ goals)
    (actionHostless : action.Hostless)
    (hostless : world.store.Hostless) :
    Settled options host (world.perform options action).2
      ⟨rest (world.perform options action).1, stack⟩ goals := by
  have grown : (world.perform options action).2.store.Extends world.store :=
    (World.perform_keeps options action actionHostless).2.2
  refine ⟨?_, settled.frames.mono grown⟩
  rintro goal outer rfl
  refine .inr (Process.Settled.mono ?_ grown)
  intro called notNative
  rcases settled.process goal outer rfl with fresh | settled
  · have running := @step_act options host world action rest stack
    rw [show Process.act action rest = _ from fresh] at running
    exact settled_of_apply called running called notNative
  · cases settled called notNative with
    | act _ rest => exact rest _ (World.expected_perform options action hostless)
    | tick rest _ => exact rest _

/-- A step leads from a settled state to another. -/
theorem Settled.step (settled : Settled options host world task goals)
    (lawful : Lawful options givesUp mode world task goals)
    (running : task.step options host world = .running next after) :
    Settled options host next after (task.goalsAfter goals) := by
  cases lawful.move running with
  | @answer _ outcome frame outer =>
      cases settled.frames with
      | foot => exact ⟨nofun, .foot⟩
      | outermost => exact ⟨nofun, .foot⟩
      | push _ resumes rest =>
          refine ⟨?_, rest⟩
          rintro _ _ ⟨⟩
          exact .inr (resumes outcome)
  | @again current goal outer stack continues =>
      have noCall : goal.isApply = false := by
        cases continues <;> rfl
      refine ⟨?_, settled.frames.replace noCall⟩
      rintro _ _ ⟨⟩
      exact .inl rfl
  | act plain => exact settled.act plain.hostless lawful.hostless
  | tick => exact settled.act trivial lawful.hostless
  | call => exact settled.ask (.inl rfl) false
  | drive => exact settled.ask (.inr rfl) true

/-- A settled state that waits is settled when it goes on. -/
theorem Settled.wait {between : World} {reason : Wait}
    (settled : Settled options host world task goals)
    (waiting : task.step options host world = .waiting between reason after)
    (grown : next.store.Extends between.store) :
    Settled options host next after goals := by
  rcases eq_of_waiting waiting with ⟨rfl, rest, stack, rfl, rfl⟩
  refine ⟨?_, settled.frames.mono grown⟩
  rintro goal outer rfl
  refine .inr (Process.Settled.mono ?_ grown)
  intro called notNative
  rcases settled.process goal outer rfl with fresh | settled
  · rcases @ofGoal_of_isApply options host goal called with ⟨looked, looks⟩
    rw [looks] at fresh
    cases fresh
  · cases settled called notNative with
    | wait _ rest => exact rest

/-- Every state that a script reaches without functions of the host is settled. -/
theorem Reached.settled {start : World} {root : Scope} {script : List Node}
    (hostless : start.store.Hostless)
    (reached : Reached options host KeepsFunctions start (ofScript root script mode)
      world task goals) :
    Settled options host world task goals := by
  induction reached with
  | start => exact ⟨nofun, .foot⟩
  | step reached running inductive_step =>
      exact inductive_step.step (reached.lawful (fun _ => False) hostless) running
  | resume _ waiting changed inductive_step => exact inductive_step.wait waiting changed.2

end Task

end TreeScript
