import TreeScript.Proofs.ActionAgreement
import TreeScript.Proofs.Execution
import TreeScript.Proofs.GoalManner
import TreeScript.Proofs.Reach
import TreeScript.Proofs.SoundEdit

/-!
# The gate in front of a node

Asynchronous evaluation enters a node in three moves: it looks for a pause and
waits for the end of one that it finds, it yields if that is due, and it takes a
step.  Nothing else takes a step, and nothing else waits.

`Stage` says how far a process has come with these moves, and `Process.Gated`
that it makes them in this order, whatever it is replied.  A task whose
processes are gated therefore takes at most one step before it looks for a pause
(`Task.Gated.step`, `Stage.Advances`).
-/

namespace TreeScript

/-- How far a process has come with the entry into the next node. -/
inductive Stage where
  /-- It has to look for a pause before it takes a step. -/
  | before
  /-- It has found a pause, and has to wait for its end. -/
  | facing (pause : Nat)
  /-- It has looked for a pause, and may take a step. -/
  | past
  /-- It has handed an error to the host, and has nothing left to do. -/
  | ended
  deriving DecidableEq

namespace Stage

/-- The stage of a process that has looked for a pause. -/
def afterLook : Option Nat → Stage
  | none => .past
  | some pause => .facing pause

/-- A stage in which a goal may end. -/
def IsSettled (stage : Stage) : Prop :=
  stage = .before ∨ stage = .ended

/-- The number of steps that may be taken before a pause is looked for. -/
def allowance : Stage → Nat
  | .past => 1
  | _ => 0

end Stage

/-- The number of steps that may be taken during a pause by what has waited for a reason. -/
def Wait.allowance (pause : Nat) : Wait → Nat
  | .nextPoll => 1
  | .resumed other => if other = pause then 0 else 1

theorem Wait.allowance_le (pause : Nat) (reason : Wait) : reason.allowance pause ≤ 1 := by
  cases reason with
  | nextPoll => exact Nat.le_refl 1
  | resumed other =>
      rw [allowance]
      split
      · exact Nat.zero_le 1
      · exact Nat.le_refl 1

/-! ## Processes -/

namespace Process

variable {α β : Type} {foot : Prop} {holds : Stage → α → Prop} {holdsAfter : Stage → β → Prop}

/--
A process that enters nodes through gates only.  At the foot of a task it may
hand an error to the host, and then it is over.
-/
inductive Gated (foot : Prop) (holds : Stage → α → Prop) : Stage → Process α → Prop where
  | done {stage : Stage} {result : α}
      (given : holds stage result) :
      Gated foot holds stage (.done result)
  | act {stage : Stage} {action : Action} {next : action.Reply → Process α}
      (plain : action.Plain)
      (noLook : action ≠ .pause)
      (rest : ∀ reply, action.Expected reply → Gated foot holds stage (next reply)) :
      Gated foot holds stage (.act action next)
  | look {next : Option Nat → Process α}
      (rest : ∀ reply, Gated foot holds (.afterLook reply) (next reply)) :
      Gated foot holds .before (.act .pause next)
  | halt {pause : Nat} {next : Process α}
      (rest : Gated foot holds .past next) :
      Gated foot holds (.facing pause) (.wait (.resumed pause) next)
  | sleep {next : Process α}
      (rest : Gated foot holds .past next) :
      Gated foot holds .past (.wait .nextPoll next)
  | tick {next : Bool → Process α}
      (rest : ∀ reply, Gated foot holds .before (next reply)) :
      Gated foot holds .past (.act .tick next)
  | call {goal : Goal} {next : Outcome → Process α}
      (runs : goal.RunsIn .asynchronous)
      (rest : ∀ outcome, Gated foot holds .before (next outcome)) :
      Gated foot holds .before (.call goal next)
  | deliver {error : Error} {next : Option Error → Process α}
      (atFoot : foot)
      (rest : ∀ reply, Gated foot holds .ended (next reply)) :
      Gated foot holds .before (.act (.deliver error) next)

theorem Gated.bind {stage : Stage} {process : Process α}
    (gated : process.Gated foot holds stage)
    {continuation : α → Process β}
    (goesOn : ∀ stage result, holds stage result →
      (continuation result).Gated foot holdsAfter stage) :
    (process.bind continuation).Gated foot holdsAfter stage := by
  induction gated with
  | done given => exact goesOn _ _ given
  | act plain noLook _ inductive_step => exact .act plain noLook inductive_step
  | look _ inductive_step => exact .look inductive_step
  | halt _ inductive_step => exact .halt inductive_step
  | sleep _ inductive_step => exact .sleep inductive_step
  | tick _ inductive_step => exact .tick inductive_step
  | call runs _ inductive_step => exact .call runs inductive_step
  | deliver atFoot _ inductive_step => exact .deliver atFoot inductive_step

theorem Gated.imp {stage : Stage} {process : Process α} (gated : process.Gated foot holds stage)
    {foot' : Prop} (atFoot : foot → foot') {holds' : Stage → α → Prop}
    (weaker : ∀ stage result, holds stage result → holds' stage result) :
    process.Gated foot' holds' stage := by
  induction gated with
  | done given => exact .done (weaker _ _ given)
  | act plain noLook _ inductive_step => exact .act plain noLook inductive_step
  | look _ inductive_step => exact .look inductive_step
  | halt _ inductive_step => exact .halt inductive_step
  | sleep _ inductive_step => exact .sleep inductive_step
  | tick _ inductive_step => exact .tick inductive_step
  | call runs _ inductive_step => exact .call runs inductive_step
  | deliver isFoot _ inductive_step => exact .deliver (atFoot isFoot) inductive_step

end Process

/-- The manner of asynchronous evaluation away from gates, without functions of the host. -/
def Manner.withoutSteps : Manner where
  acts := Action.IsQuiet
  replies := Action.Expected
  waits _ := False
  calls goal := goal.RunsIn .asynchronous
  drives _ := False

namespace Manner

theorem serves_withoutSteps (host : Host) : withoutSteps.Serves host .asynchronous := by
  have plain : withoutSteps.Plain .asynchronous :=
    ⟨fun _ quiet => quiet, fun _ runs => runs, nofun⟩
  exact serves_of_hostless plain (fun _ hostless => hostless) host

end Manner

/-- What takes no step at all is gated. -/
theorem Process.Uses.gated {α : Type} {holds : α → Prop} {process : Process α}
    (uses : process.Uses .withoutSteps holds) (foot : Prop) :
    process.Gated foot (fun stage result => stage = .before ∧ holds result) .before := by
  induction uses with
  | done given => exact .done ⟨rfl, given⟩
  | @act action _ quiet _ inductive_step =>
      refine .act (Action.IsQuiet.plain quiet) ?_ inductive_step
      rintro rfl
      exact quiet
  | wait waits _ _ => exact waits.elim
  | call runs _ inductive_step => exact .call runs inductive_step
  | drive drives _ _ => exact drives.elim

/-! ## Rules -/

namespace Rule

variable {α β : Type} {foot : Prop} {ends endsAfter : Stage → Prop} {stage : Stage}

/-- A rule that is gated, and the stages in which it gives a result. -/
def Gated (foot : Prop) (ends : Stage → Prop) (stage : Stage) (rule : Rule α) : Prop :=
  Process.Gated foot
    (fun stage result =>
      match result with
      | .ok _ => ends stage
      | .error _ => stage.IsSettled) stage rule.run

theorem gated_pure {result : α} (given : ends stage) :
    Gated foot ends stage (pure result) :=
  .done given

theorem gated_fail (settled : stage.IsSettled) (error : Error) :
    Gated foot ends stage (fail error : Rule α) :=
  .done settled

theorem Gated.bind {rule : Rule α} (gated : rule.Gated foot ends stage)
    {continuation : α → Rule β}
    (goesOn : ∀ stage, ends stage → ∀ result,
      (continuation result).Gated foot endsAfter stage) :
    (rule >>= continuation).Gated foot endsAfter stage := by
  refine Process.Gated.bind gated fun stage result given => ?_
  rcases result with interrupt | result
  · exact .done given
  · exact goesOn stage given result

/-- A rule that looks at how another one ends. -/
theorem Gated.outcome_bind {rule : Rule α}
    (gated : Process.Gated foot (fun stage _ => ends stage) stage rule.run)
    {continuation : Except Interrupt α → Rule β}
    (goesOn : ∀ stage, ends stage → ∀ result,
      (continuation result).Gated foot endsAfter stage) :
    (outcome rule >>= continuation).Gated foot endsAfter stage := by
  unfold Gated
  rw [run_outcome_bind]
  exact Process.Gated.bind gated fun stage result given => goesOn stage given result

theorem Gated.mapError {rule : Rule α} (gated : rule.Gated foot Stage.IsSettled stage)
    (change : Error → Error) :
    (mapError change rule).Gated foot Stage.IsSettled stage := by
  have settled : Process.Gated foot (fun stage _ => stage.IsSettled) stage rule.run := by
    refine Process.Gated.imp gated id fun stage result given => ?_
    cases result <;> exact given
  refine Gated.outcome_bind settled fun stage settled result => ?_
  rcases result with (signal | error) | result
  · exact .done settled
  · exact gated_fail settled _
  · exact gated_pure settled

/-- Rules that take no step are gated wherever they stand. -/
theorem Minds.gated {rule : Rule α} (minds : rule.Minds .withoutSteps) (foot : Prop) :
    rule.Gated foot (· = .before) .before := by
  refine Process.Gated.imp (Process.Uses.gated minds foot) id fun stage result given => ?_
  cases result with
  | ok result => exact given.1
  | error interrupt => exact .inl given.1

theorem Gated.settled {rule : Rule α} (gated : rule.Gated foot (· = .before) stage) :
    rule.Gated foot Stage.IsSettled stage := by
  refine Process.Gated.imp gated id fun stage result given => ?_
  cases result with
  | ok result => exact .inl given
  | error interrupt => exact given

end Rule

/-! ## Goals -/

/-- How a goal ends in a stage. -/
def Turn.Settles (stage : Stage) : Turn → Prop
  | .answer _ => stage.IsSettled
  | .again goal => stage = .before ∧ goal.RunsIn .asynchronous

namespace Evaluation

open Rule

variable {foot : Prop}

theorem gated_yieldNow (sleep : Sleep) : (yieldNow sleep).Gated foot (· = .past) .past := by
  have waits : (Rule.wait .nextPoll).Gated foot (· = .past) .past := .sleep (.done rfl)
  cases sleep with
  | timed duration => exact waits
  | custom suspends =>
      have told : (Rule.perform .yielded).Gated foot (· = .past) .past :=
        .act trivial nofun fun _ _ => .done rfl
      refine told.bind fun stage past _ => ?_
      cases past
      cases suspends with
      | true => exact waits
      | false => exact gated_pure rfl

/-- Behind the gate a step may be taken. -/
theorem gated_gate (irq : Irq) : (gate irq).Gated foot (· = .past) .before := by
  have rest :
      (do
        if irq.isDue (← Rule.perform .steps) then
          yieldNow irq.sleep : Rule Unit).Gated foot (· = .past) .past := by
    have looked : (Rule.perform .steps).Gated foot (· = .past) .past :=
      .act trivial nofun fun _ _ => .done rfl
    refine looked.bind fun stage past steps => ?_
    cases past
    split
    · exact gated_yieldNow irq.sleep
    · exact gated_pure rfl
  refine .look fun found => ?_
  cases found with
  | none => exact rest
  | some pause => exact .halt rest

theorem gated_evaluateNode (options : Options) (node : Node) (scope : Scope) {context : Context}
    (asynchronous : context.mode = .asynchronous) :
    (evaluateNode options node scope context).Gated foot Stage.IsSettled .before := by
  have plain : Manner.withoutSteps.Plain context.mode :=
    asynchronous ▸ (Manner.serves_withoutSteps Host.none).toPlain
  have ticked :
      (do
        if ← Rule.perform .tick then
          construct scope context node.start node.shape
        else Rule.fail (.of .stepLimit)).Gated foot (· = Stage.before) .past := by
    have stepped : (Rule.perform .tick).Gated foot (· = Stage.before) .past :=
      .tick fun _ => .done rfl
    refine stepped.bind fun stage before within => ?_
    cases before
    cases within with
    | true => exact (minds_construct plain node.start node.shape).gated foot
    | false => exact gated_fail (.inl rfl) _
  have entered : (enterNode options node scope context).Gated foot (· = .before) .before := by
    have asked : (Rule.perform .isStopped).Gated foot (· = .before) .before :=
      .act trivial nofun fun _ _ => .done rfl
    refine asked.bind fun stage before stopped => ?_
    cases before
    cases stopped with
    | true => exact gated_pure rfl
    | false =>
        rcases context with ⟨calls, mode⟩
        obtain rfl : mode = .asynchronous := asynchronous
        refine (gated_gate options.irq).bind fun stage past _ => ?_
        cases past
        exact ticked
  exact entered.settled.mapError _

/-- An entry point hands its error to the host when all else is over. -/
theorem gated_enter (callee : Value) (arguments : List Value) :
    (enter callee arguments .asynchronous).Gated True Stage.IsSettled .before := by
  have plain := (Manner.serves_withoutSteps Host.none).toPlain
  have applied : Process.Gated True (fun stage _ => stage = .before) .before
      (applyValue callee arguments .asynchronous).run :=
    (Process.Uses.gated (minds_applyValue plain callee arguments) True).imp id
      fun _ _ given => given.1
  refine Rule.Gated.outcome_bind applied fun stage before outcome => ?_
  cases before
  split
  · exact gated_pure (.inl rfl)
  · rename_i error _
    have handed : (Rule.perform (.deliver error)).Gated True (· = .ended) .before :=
      .deliver trivial fun _ => .done rfl
    refine handed.bind fun stage ended answer => ?_
    cases ended
    cases answer with
    | none => exact gated_pure (.inr rfl)
    | some error => exact gated_fail (.inr rfl) _

/-- The process of a rule that gives the answer to a goal. -/
theorem gated_answering {rule : Rule Value} (gated : rule.Gated foot Stage.IsSettled .before) :
    (process (answering rule)).Gated foot Turn.Settles .before := by
  have answered : (answering rule).run.Gated foot
      (fun stage result => Turn.Settles stage (settleTurn result)) .before :=
    Process.Gated.bind gated fun stage result settled => by
      cases result <;> exact .done settled
  exact answered.bind fun _ _ settled => .done settled

/-- The process of an asynchronous goal is gated. -/
theorem gated_ofGoal (options : Options) (host : Host) {goal : Goal}
    (runs : goal.RunsIn .asynchronous) (foot : Prop) :
    (ofGoal options host goal).Gated foot Turn.Settles .before := by
  by_cases isNode : goal.IsNode
  · cases goal with
    | evaluate node scope context =>
        exact gated_answering (gated_evaluateNode options node scope runs)
    | _ => exact isNode.elim
  · have serves := Manner.serves_withoutSteps host
    have uses : (ofGoal options host goal).Uses .withoutSteps _ :=
      uses_ofGoal_of_not_isNode serves runs isNode
    refine Process.Gated.imp (uses.gated foot) id fun stage turn given => ?_
    rcases given with ⟨rfl, minds⟩
    cases turn with
    | answer outcome => exact .inl rfl
    | again goal => exact ⟨rfl, minds⟩

end Evaluation

/-! ## Tasks -/

/-- Frames that are no barriers and resume gated processes; the last one is at the foot. -/
inductive Frame.AllGated : List Frame → Prop where
  | nil : AllGated []
  | cons {frame : Frame} {outer : List Frame}
      (isOpen : frame.isBarrier = false)
      (resumes : ∀ outcome, (frame.resume outcome).Gated (outer = []) Turn.Settles .before)
      (rest : AllGated outer) :
      AllGated (frame :: outer)

theorem Frame.AllGated.barrier_none {stack : List Frame} (gated : AllGated stack) :
    Task.barrier? stack = none := by
  induction gated with
  | nil => rfl
  | cons isOpen _ _ inductive_step =>
      rw [Task.barrier?, isOpen]
      exact inductive_step

/-- What a step of a gated task comes to, for its stage and for the world. -/
inductive Stage.Advances (world next : World) : Stage → Stage → Prop where
  | stays {stage : Stage}
      (steps : next.steps = world.steps)
      (lifecycle : next.lifecycle = world.lifecycle) :
      Advances world next stage stage
  | looks
      (same : next = world) :
      Advances world next .before (.afterLook world.lifecycle.pause)
  | ticks
      (steps : next.steps = world.steps + 1)
      (lifecycle : next.lifecycle = world.lifecycle) :
      Advances world next .past .before
  | delivers
      (steps : next.steps = world.steps) :
      Advances world next .before .ended

/-- A task all of whose processes are gated. -/
structure Task.Gated (stage : Stage) (task : Task) : Prop where
  process : task.process.Gated (task.stack = []) Turn.Settles stage
  frames : Frame.AllGated task.stack
  atFoot : stage = .ended → task.stack = []

theorem World.steps_deliver (world : World) (options : Options) (error : Error) :
    (world.deliver options error).2.steps = world.steps := by
  unfold deliver
  split
  · split
    · split <;> rfl
    · rfl
  · rfl

namespace Task

variable {options : Options} {host : Host} {world next : World} {task after : Task} {stage : Stage}

/-- The task of a gated rule; the rule is at its foot. -/
theorem gated_ofRule {rule : Rule Value} {foot : Prop}
    (gated : rule.Gated foot Stage.IsSettled .before) :
    (ofRule rule).Gated .before :=
  ⟨(Evaluation.gated_answering gated).imp (fun _ => rfl) fun _ _ => id, .nil, fun _ => rfl⟩

/-- A step keeps a task gated. -/
theorem Gated.step (gated : task.Gated stage) (hostless : world.store.Hostless)
    (running : task.step options host world = .running next after) :
    ∃ stage', after.Gated stage' ∧ stage.Advances world next stage' ∧ next.store.Hostless := by
  rcases task with ⟨process, stack⟩
  rcases gated with ⟨process, frames, atFoot⟩
  cases process with
  | @done _ turn given =>
      cases turn with
      | answer outcome =>
          cases frames with
          | nil => cases running
          | cons _ resumes rest =>
              cases running
              rcases given with rfl | rfl
              · exact ⟨_, ⟨resumes outcome, rest, nofun⟩, .stays rfl rfl, hostless⟩
              -- An error is handed over at the foot only, where no frame is left.
              · cases atFoot rfl
      | again goal =>
          cases running
          obtain ⟨rfl, runs⟩ := given
          have process := Evaluation.gated_ofGoal options host runs
          exact ⟨_, ⟨process _, frames, nofun⟩, .stays rfl rfl, hostless⟩
  | @act _ action _ plain _ rest =>
      cases running
      have replied := world.expected_perform options action hostless
      have kept := world.perform_keeps options action plain.hostless
      exact ⟨stage, ⟨rest _ replied, frames, atFoot⟩, .stays (kept.1 plain.ne_tick) kept.2.1,
        world.hostless_perform options action plain.hostless hostless⟩
  | look rest =>
      cases running
      -- The reply is the pause in effect, which is the one that the next stage names.
      refine ⟨_, ⟨rest _, frames, fun ended => ?_⟩, .looks rfl, hostless⟩
      cases found : world.lifecycle.pause <;> rw [found] at ended <;> cases ended
  | halt _ | sleep _ =>
      rw [step_wait frames.barrier_none] at running
      cases running
  | tick rest =>
      cases running
      exact ⟨_, ⟨rest _, frames, nofun⟩, .ticks rfl rfl, hostless⟩
  | call runs rest =>
      cases running
      have process := Evaluation.gated_ofGoal options host runs
      exact ⟨_, ⟨process _, .cons rfl rest frames, nofun⟩, .stays rfl rfl, hostless⟩
  | @deliver error _ isFoot rest =>
      cases running
      have same := World.store_deliver options world error
      exact ⟨_, ⟨rest _, frames, fun _ => isFoot⟩, .delivers (world.steps_deliver options error),
        same.symm ▸ hostless⟩

/-- A gated task that waits has found a pause or is behind the gate, and goes on behind it. -/
theorem Gated.of_waiting {reason : Wait} (gated : task.Gated stage)
    (waiting : task.step options host world = .waiting next reason after) :
    next = world ∧ after.Gated .past ∧
      (stage = .past ∨ ∃ pause, stage = .facing pause ∧ reason = .resumed pause) := by
  obtain ⟨rfl, process, stack, rfl, rfl⟩ := eq_of_waiting waiting
  rcases gated with ⟨process, frames, atFoot⟩
  cases process with
  | halt rest => exact ⟨rfl, ⟨rest, frames, nofun⟩, .inr ⟨_, rfl, rfl⟩⟩
  | sleep rest => exact ⟨rfl, ⟨rest, frames, nofun⟩, .inl rfl⟩

end Task

/-! ## Pauses -/

/-- A pause is in effect as long as a task in a stage goes on, and leaves it steps up to a limit. -/
structure World.Holds (pause limit : Nat) (stage : Stage) (world : World) : Prop where
  steps : world.steps + stage.allowance ≤ limit
  paused : stage ≠ .ended → world.lifecycle.pause = some pause
  faces : ∀ found, stage = .facing found → found = pause

/-- Steps of gated tasks keep what a pause leaves them. -/
theorem Stage.Advances.holds {world next : World} {stage after : Stage}
    (advances : stage.Advances world next after) {pause limit : Nat}
    (holds : world.Holds pause limit stage) :
    next.Holds pause limit after := by
  rcases holds with ⟨steps, paused, faces⟩
  cases advances with
  | stays same lifecycle => exact ⟨same ▸ steps, fun running => lifecycle ▸ paused running, faces⟩
  | looks same =>
      cases same
      rw [paused nofun]
      exact ⟨steps, fun _ => paused nofun, fun found faced => by cases faced; rfl⟩
  | ticks taken lifecycle =>
      refine ⟨?_, fun _ => lifecycle ▸ paused nofun, nofun⟩
      rw [taken]
      exact steps
  | delivers same => exact ⟨same ▸ steps, fun running => (running rfl).elim, nofun⟩

theorem Stage.Advances.steps_le {world next : World} {stage after : Stage}
    (advances : stage.Advances world next after) :
    world.steps ≤ next.steps := by
  cases advances with
  | stays same _ | delivers same => exact Nat.le_of_eq same.symm
  | looks same => exact Nat.le_of_eq (congrArg World.steps same.symm)
  | ticks taken _ => exact taken ▸ Nat.le_succ _

namespace Task

variable {options : Options} {host : Host} {start world next : World} {task after : Task}
  {stage : Stage}

/-- A gated task that has come from a world and a stage by taking steps. -/
def ComesGated (start : World) (stage : Stage) (world : World) (task : Task) : Prop :=
  ∃ reached : Stage, task.Gated reached ∧ world.store.Hostless ∧ start.steps ≤ world.steps ∧
    ∀ pause limit, start.Holds pause limit stage → world.Holds pause limit reached

theorem Gated.comes (gated : task.Gated stage) (hostless : start.store.Hostless) :
    ComesGated start stage start task :=
  ⟨stage, gated, hostless, Nat.le_refl _, fun _ _ => id⟩

theorem ComesGated.step (comes : ComesGated start stage world task)
    (running : task.step options host world = .running next after) :
    ComesGated start stage next after := by
  obtain ⟨between, gated, hostless, more, holds⟩ := comes
  obtain ⟨reached, gated, advances, hostless⟩ := gated.step hostless running
  exact ⟨reached, gated, hostless, Nat.le_trans more advances.steps_le, fun pause limit held =>
    advances.holds (holds pause limit held)⟩

/-- A run of a gated task that ends takes no more steps than a pause leaves. -/
theorem Gated.run_finished {fuel : Nat} {outcome : Outcome}
    (gated : task.Gated stage) (hostless : world.store.Hostless)
    (ran : task.run options host fuel world = some (.finished next outcome)) :
    next.store.Hostless ∧ world.steps ≤ next.steps ∧
      ∀ pause limit, world.Holds pause limit stage → next.steps ≤ limit := by
  obtain ⟨between, last, ⟨reached, -, hostless, more, holds⟩, finished⟩ :=
    exists_last_of_run (ComesGated world stage) ran (gated.comes hostless)
      fun comes running => comes.step running
  obtain ⟨rfl, -⟩ := eq_of_finished finished
  exact ⟨hostless, more, fun pause limit held =>
    Nat.le_trans (Nat.le_add_right _ _) (holds pause limit held).steps⟩

/-- A gated task that is suspended goes on behind the gate, with the steps that a pause leaves. -/
theorem Gated.run_waiting {fuel : Nat} {reason : Wait}
    (gated : task.Gated stage) (hostless : world.store.Hostless)
    (ran : task.run options host fuel world = some (.waiting next reason after)) :
    next.store.Hostless ∧ after.Gated .past ∧ world.steps ≤ next.steps ∧
      ∀ pause limit, world.Holds pause limit stage →
        next.steps + reason.allowance pause ≤ limit := by
  obtain ⟨between, last, ⟨reached, gated, hostless, more, holds⟩, waiting⟩ :=
    exists_last_of_run (ComesGated world stage) ran (gated.comes hostless)
      fun comes running => comes.step running
  obtain ⟨rfl, goesOn, stands⟩ := gated.of_waiting waiting
  refine ⟨hostless, goesOn, more, fun pause limit held => ?_⟩
  have held := holds pause limit held
  refine Nat.le_trans (Nat.add_le_add_left ?_ _) held.steps
  rcases stands with rfl | ⟨found, rfl, rfl⟩
  · exact reason.allowance_le pause
  · obtain rfl := held.faces found rfl
    exact Nat.le_of_eq (if_pos rfl)

/-- Every state that a gated task reaches before it is suspended. -/
theorem Reached.comesGated {current : Task} {goals : List Goal}
    (reached : Reached options host (fun _ _ => False) start task world current goals)
    (comes : ComesGated start stage start task) :
    ComesGated start stage world current := by
  induction reached with
  | start => exact comes
  | step _ running inductive_step => exact inductive_step.step running
  | resume _ _ changed _ => exact changed.elim

end Task

end TreeScript
