import TreeScript.Proofs.Evolution
import TreeScript.Proofs.Gate
import TreeScript.Proofs.Guests

/-!
# The way into a node

Whoever evaluates a node asks first whether evaluation has been stopped, and
comes to the gate only if it has not.  From there on the task is bound to enter
the node: it may be suspended once for a pause and once for a yield, but nothing
that happens meanwhile turns it back.  It takes one step, and then it is inside.

So a task has one step ahead of it if it is on the way into a node, and none
otherwise (`Process.Orderly`).  Where a task waits for the end of a pause, it
stands behind the question for a pause, with the node still to be entered.
-/

namespace TreeScript

open Rule

namespace Evaluation

section Entry

variable (node : Node) (scope : Scope) (context : Context)

/-- What asynchronous evaluation does in front of a node when it has seen to a pause. -/
def yieldWhenDue (irq : Irq) : Rule Unit := do
  if irq.isDue (← Rule.perform .steps) then yieldNow irq.sleep

/-- A process on the way into a node, with a rest of the gate ahead of it. -/
def entering (rest : Rule Unit) : Process Turn :=
  process (answering ((do
    rest
    if ← Rule.perform .tick then
      construct scope context node.start node.shape
    else Rule.fail (.of .stepLimit)).mapError fun error =>
      error.locate node.start context.calls))

/-- What is done inside a node, if the step into it was within the limit. -/
def inside (within : Bool) : Process Turn :=
  process (answering ((
    if within then construct scope context node.start node.shape
    else Rule.fail (.of .stepLimit) : Rule Value).mapError fun error =>
      error.locate node.start context.calls))

/-- The rests of the gate, with the pause that is in effect. -/
inductive Gateway (irq : Irq) (paused : Option Nat) : Rule Unit → Prop where
  | look : Gateway irq paused (gate irq)
  | halt {pause : Nat}
      (inEffect : paused = some pause) :
      Gateway irq paused (do Rule.wait (.resumed pause); yieldWhenDue irq)
  | behindPause : Gateway irq paused (yieldWhenDue irq)
  | yields : Gateway irq paused (yieldNow irq.sleep)
  | sleeps : Gateway irq paused (Rule.wait .nextPoll)
  | passed : Gateway irq paused (pure ())

theorem entering_gate (irq : Irq) :
    entering node scope context (gate irq) =
      .act .pause fun found => entering node scope context (
        match found with
        | some pause => do Rule.wait (.resumed pause); yieldWhenDue irq
        | none => yieldWhenDue irq) := by
  refine congrArg (Process.act .pause) (funext fun found => ?_)
  cases found <;> rfl

theorem entering_yieldWhenDue (irq : Irq) :
    entering node scope context (yieldWhenDue irq) =
      .act .steps fun steps => entering node scope context (
        if irq.isDue steps then yieldNow irq.sleep else pure ()) := rfl

theorem entering_yieldNow_custom (suspends : Bool) :
    entering node scope context (yieldNow (.custom suspends)) =
      .act .yielded fun _ => entering node scope context (
        if suspends then Rule.wait .nextPoll else pure ()) := rfl

theorem entering_pure :
    entering node scope context (pure ()) =
      .act .tick (inside node scope context) := rfl

/-- The evaluation of a node asks whether it has been stopped, before it comes to the gate. -/
theorem ofGoal_evaluate_eq (options : Options) (host : Host) :
    ofGoal options host (.evaluate node scope context) =
      .act .isStopped fun stopped =>
        if stopped then .done (.answer (.ok .null))
        else entering node scope context (
          match context.mode with
          | .asynchronous => gate options.irq
          | .synchronous => pure ()) := by
  refine congrArg (Process.act .isStopped) (funext fun stopped => ?_)
  cases stopped with
  | true => rfl
  | false =>
      rcases context with ⟨calls, mode⟩
      cases mode <;> rfl

/-- Inside a node no further step is taken. -/
theorem stepless_inside {hosted : Prop} (apt : hosted ∨ context.mode = .asynchronous)
    (within : Bool) :
    (inside node scope context within).Uses (.stepless hosted) (Turn.Stepless hosted) := by
  refine stepless_answering (Rule.Uses.mapError ?_ _)
  cases within with
  | true => exact minds_construct (Manner.plain_stepless apt) node.start node.shape
  | false => exact uses_fail _

end Entry

end Evaluation

/-! ## Tasks -/

section Tasks

variable (irq : Irq) (hosted : Prop) (paused : Option Nat)

/-- A process by the number of steps that it has ahead of it, however evaluation is stopped. -/
inductive Process.Orderly : Nat → Process Turn → Prop where
  | outside {process : Process Turn}
      (uses : process.Uses (.stepless hosted) (Turn.Stepless hosted)) :
      Orderly 0 process
  | arriving {process : Process Turn} {options : Options} {host : Host} {node : Node}
      {scope : Scope} {context : Context}
      (stands : process = Evaluation.ofGoal options host (.evaluate node scope context))
      (same : options.irq = irq)
      (apt : hosted ∨ context.mode = .asynchronous) :
      Orderly 0 process
  | entering {process : Process Turn} {node : Node} {scope : Scope} {context : Context}
      {rest : Rule Unit}
      (stands : process = Evaluation.entering node scope context rest)
      (gateway : Evaluation.Gateway irq paused rest)
      (apt : hosted ∨ context.mode = .asynchronous) :
      Orderly 1 process

/-- A task whose frames take no steps when they go on. -/
structure Task.Orderly (ahead : Nat) (task : Task) : Prop where
  process : task.process.Orderly irq hosted paused ahead
  frames : ∀ frame ∈ task.stack, ∀ outcome,
    (frame.resume outcome).Uses (.stepless hosted) (Turn.Stepless hosted)

/-- What is left of the gate for a task that is suspended there. -/
def Wait.gateway : Wait → Rule Unit
  | .nextPoll => pure ()
  | .resumed _ => Evaluation.yieldWhenDue irq

/-- A task that is suspended on the way into a node, for a reason. -/
def Task.IsHeld (reason : Wait) (task : Task) : Prop :=
  ∃ node scope context stack,
    task = ⟨Evaluation.entering node scope context (reason.gateway irq), stack⟩ ∧
      barrier? stack = none

/-- A task between two polls, by what it waits for and the steps that it has ahead of it. -/
inductive Task.Rests : Option Wait → Nat → Task → Prop where
  | outside {reason : Option Wait} {task : Task}
      (orderly : ∀ paused, task.Orderly irq hosted paused 0)
      (free : reason = none ∨ hosted ∧ reason = some .nextPoll) :
      Rests reason 0 task
  | held {reason : Wait} {task : Task}
      (orderly : ∀ paused, task.Orderly irq hosted paused 1)
      (held : task.IsHeld irq reason) :
      Rests (some reason) 1 task

/-- What a step of an orderly task comes to, with the steps ahead of it before and afterwards. -/
structure World.Advances (world next : World) (ahead left : Nat) : Prop where
  lifecycle : world.lifecycle.Evolves next.lifecycle
  steps_le : world.steps ≤ next.steps
  spends : world.lifecycle.isStopped = true → next.steps + left ≤ world.steps + ahead
  stops : next.lifecycle.isStopped = true → world.lifecycle.isStopped = true ∨ left = 0

/-- A step leads to an orderly task, and brings in no function of the host by itself. -/
def Task.StaysOrderly (world : World) (ahead : Nat) (next : World) (after : Task) : Prop :=
  ∃ left, after.Orderly irq hosted next.lifecycle.pause left ∧
    (hosted ∨ next.store.Hostless) ∧ world.Advances next ahead left

end Tasks

theorem World.steps_handler (world : World) (tag : String) (response : Response) :
    (world.handler tag response).2.steps = world.steps := by
  unfold handler
  split <;> rfl

/-- Nothing but a step changes the number of steps. -/
theorem World.steps_perform (options : Options) (world : World) (action : Action)
    (noTick : action ≠ .tick) :
    (world.perform options action).2.steps = world.steps := by
  have hostless (quiet : action.Hostless) : (world.perform options action).2.steps = world.steps :=
    (world.perform_keeps options action quiet).1 noTick
  cases action with
  | newFunction name body => rfl
  | deliver error => exact world.steps_deliver options error
  | transition transition => rfl
  | mention tag => exact world.steps_handler tag .nothing
  | subscribe transition tag => exact world.steps_handler tag .nothing
  | unsubscribe transition tag => exact world.steps_handler tag .nothing
  | _ => exact hostless trivial

/-- What takes no steps brings no function of the host into the store by itself. -/
theorem World.hostless_perform_of_stepless {hosted : Prop} {world : World} {action : Action}
    (options : Options)
    (allowed : (Manner.stepless hosted).acts action)
    (hostless : hosted ∨ world.store.Hostless) :
    hosted ∨ (world.perform options action).2.store.Hostless := by
  rcases hostless with isHosted | hostless
  · exact .inl isHosted
  · rcases allowed.2 with isHosted | quiet | ⟨error, rfl⟩
    · exact .inl isHosted
    · exact .inr (world.hostless_perform options action quiet hostless)
    · exact .inr ((World.store_deliver options world error).symm ▸ hostless)

namespace World.Advances

variable {world between next : World} {ahead left last : Nat}

/-- Away from the way into a node anything may happen but a step. -/
theorem outside (steps : next.steps = world.steps)
    (lifecycle : world.lifecycle.Evolves next.lifecycle) :
    world.Advances next 0 0 where
  lifecycle := lifecycle
  steps_le := Nat.le_of_eq steps.symm
  spends _ := Nat.le_of_eq steps
  stops _ := .inr rfl

theorem stays (steps : next.steps = world.steps) (lifecycle : next.lifecycle = world.lifecycle) :
    world.Advances next ahead ahead where
  lifecycle := .of_eq lifecycle
  steps_le := Nat.le_of_eq steps.symm
  spends _ := Nat.le_of_eq (congrArg (· + ahead) steps)
  stops stopped := .inl (lifecycle ▸ stopped)

theorem turnsBack (world : World) (ahead : Nat) : world.Advances world ahead 0 where
  lifecycle := .refl
  steps_le := Nat.le_refl _
  spends _ := Nat.le_add_right _ _
  stops _ := .inr rfl

theorem trans (first : world.Advances between ahead left)
    (second : between.Advances next left last) :
    world.Advances next ahead last where
  lifecycle := first.lifecycle.trans second.lifecycle
  steps_le := Nat.le_trans first.steps_le second.steps_le
  spends stopped := by
    have stays := first.lifecycle.isStopped stopped
    exact Nat.le_trans (second.spends stays) (first.spends stopped)
  stops stopped := by
    rcases second.stops stopped with earlier | nothing
    · rcases first.stops earlier with before | rfl
      · exact .inl before
      · have spent := second.spends earlier
        have grown := second.steps_le
        exact .inr (by omega)
    · exact .inr nothing

end World.Advances

namespace Task

variable {irq : Irq} {hosted : Prop} {options : Options} {host : Host} {world next : World}
  {task after : Task} {paused : Option Nat} {ahead : Nat}

/-- What is suspended has no barrier below it. -/
theorem barrier?_of_waiting {between : World} {reason : Wait}
    (waiting : task.step options host world = .waiting between reason after) :
    barrier? task.stack = none := by
  obtain ⟨-, rest, stack, rfl, -⟩ := eq_of_waiting waiting
  cases found : barrier? stack with
  | none => rfl
  | some barrier =>
      rw [step_wait_barrier found] at waiting
      cases waiting

theorem orderly_ofGoal (guests : hosted → host.IsStepless) {goal : Goal}
    (allowed : (Manner.stepless hosted).calls goal) :
    (Evaluation.ofGoal options host goal).Orderly options.irq hosted paused 0 := by
  by_cases isNode : goal.IsNode
  · cases goal with
    | evaluate node scope context => exact .arriving rfl rfl allowed
    | _ => exact isNode.elim
  · exact .outside (Evaluation.stepless_ofGoal guests options allowed isNode)

section Steps

variable {stack : List Frame}
variable (frames : ∀ frame ∈ stack, ∀ outcome,
  (frame.resume outcome).Uses (.stepless hosted) (Turn.Stepless hosted))
variable (hostless : hosted ∨ world.store.Hostless)

include frames hostless

/-- What waits below a barrier goes on there, wherever it stood. -/
theorem staysOrderly_of_wait {reason : Wait} {rest : Process Turn}
    (running : step options host world ⟨.wait reason rest, stack⟩ = .running next after) :
    StaysOrderly irq hosted world ahead next after := by
  cases found : barrier? stack with
  | none =>
      rw [step_wait found] at running
      cases running
  | some barrier =>
      rw [step_wait_barrier found] at running
      cases running
      have below := subset_of_barrier? found
      refine ⟨0, ⟨.outside (frames _ (below List.mem_cons_self) _), ?_⟩, hostless,
        .turnsBack world ahead⟩
      exact fun frame mem => frames frame (below (List.mem_cons_of_mem _ mem))

theorem staysOrderly_of_uses {process : Process Turn}
    (uses : process.Uses (.stepless hosted) (Turn.Stepless hosted))
    (guests : hosted → host.IsStepless)
    (running : step options host world ⟨process, stack⟩ = .running next after) :
    StaysOrderly options.irq hosted world 0 next after := by
  have pushed {resume : Outcome → Process Turn} {isBarrier : Bool}
      (resumes : ∀ outcome,
        (resume outcome).Uses (.stepless hosted) (Turn.Stepless hosted)) :
      ∀ frame ∈ ⟨resume, isBarrier⟩ :: stack, ∀ outcome,
        (frame.resume outcome).Uses (.stepless hosted) (Turn.Stepless hosted) :=
    List.forall_mem_cons.mpr ⟨resumes, frames⟩
  cases uses with
  | @done turn given =>
      cases turn with
      | answer outcome =>
          cases stack with
          | nil => cases running
          | cons frame outer =>
              cases running
              obtain ⟨resumes, rest⟩ := List.forall_mem_cons.mp frames
              exact ⟨0, ⟨.outside (resumes outcome), rest⟩, hostless, .outside rfl .refl⟩
      | again goal =>
          cases running
          exact ⟨0, ⟨orderly_ofGoal guests given.1, frames⟩, hostless, .outside rfl .refl⟩
  | @act action _ allowed rest =>
      cases running
      have steps := world.steps_perform options action allowed.1
      have replied : (Manner.stepless hosted).replies action (world.perform options action).1 :=
        hostless.imp_right fun hostless => world.expected_perform options action hostless
      have evolves := world.evolves_perform options action
      exact ⟨0, ⟨.outside (rest _ replied), frames⟩,
        world.hostless_perform_of_stepless options allowed hostless, .outside steps evolves⟩
  | wait _ _ => exact staysOrderly_of_wait frames hostless running
  | call allowed rest =>
      cases running
      exact ⟨0, ⟨orderly_ofGoal guests allowed, pushed rest⟩, hostless, .outside rfl .refl⟩
  | drive isHosted rest =>
      cases running
      exact ⟨0, ⟨orderly_ofGoal guests (.inl isHosted), pushed rest⟩, hostless, .outside rfl .refl⟩

/-- A task comes to the gate only if evaluation has not been stopped. -/
theorem staysOrderly_of_arriving {other : Options} {guest : Host} {node : Node} {scope : Scope}
    {context : Context}
    (apt : hosted ∨ context.mode = .asynchronous)
    (running : step options host world
      ⟨Evaluation.ofGoal other guest (.evaluate node scope context), stack⟩ =
        .running next after) :
    StaysOrderly other.irq hosted world 0 next after := by
  rw [Evaluation.ofGoal_evaluate_eq] at running
  cases running
  cases stopped : world.lifecycle.isStopped with
  | true => exact ⟨0, ⟨.outside (.done ⟨trivial, trivial⟩), frames⟩, hostless, .outside rfl .refl⟩
  | false =>
      refine ⟨1, ⟨.entering rfl ?_ apt, frames⟩, hostless, .refl, Nat.le_refl _, ?_, ?_⟩
      · split
        · exact .look
        · exact .passed
      · exact fun isStopped => nomatch stopped.symm.trans isStopped
      · exact fun isStopped => .inl isStopped

/-- A task on the way into a node stays there until it takes its step. -/
theorem staysOrderly_of_entering {node : Node} {scope : Scope} {context : Context}
    {rest : Rule Unit}
    (gateway : Evaluation.Gateway irq world.lifecycle.pause rest)
    (apt : hosted ∨ context.mode = .asynchronous)
    (running : step options host world ⟨Evaluation.entering node scope context rest, stack⟩ =
      .running next after) :
    StaysOrderly irq hosted world 1 next after := by
  have goesOn {rest : Rule Unit}
      (gateway : Evaluation.Gateway irq world.lifecycle.pause rest) :
      Orderly irq hosted world.lifecycle.pause 1
        ⟨Evaluation.entering node scope context rest, stack⟩ :=
    ⟨.entering rfl gateway apt, frames⟩
  cases gateway with
  | look =>
      rw [Evaluation.entering_gate] at running
      cases running
      refine ⟨1, goesOn ?_, hostless, .stays rfl rfl⟩
      split
      · rename_i found
        exact .halt found
      · exact .behindPause
  | behindPause =>
      rw [Evaluation.entering_yieldWhenDue] at running
      cases running
      refine ⟨1, goesOn ?_, hostless, .stays rfl rfl⟩
      split
      · exact .yields
      · exact .passed
  | yields =>
      cases found : irq.sleep with
      | timed milliseconds =>
          rw [found] at running
          exact staysOrderly_of_wait frames hostless running
      | custom suspends =>
          rw [found, Evaluation.entering_yieldNow_custom] at running
          cases running
          refine ⟨1, goesOn ?_, hostless, .stays rfl rfl⟩
          split
          · exact .sleeps
          · exact .passed
  | halt inEffect => exact staysOrderly_of_wait frames hostless running
  | sleeps => exact staysOrderly_of_wait frames hostless running
  | passed =>
      rw [Evaluation.entering_pure] at running
      cases running
      exact ⟨0, ⟨.outside (Evaluation.stepless_inside node scope context apt _), frames⟩,
        hostless, .refl, Nat.le_succ _, fun _ => Nat.le_refl _, .inl⟩

end Steps

/-- A step keeps a task orderly. -/
theorem Orderly.step (orderly : task.Orderly options.irq hosted world.lifecycle.pause ahead)
    (guests : hosted → host.IsStepless)
    (hostless : hosted ∨ world.store.Hostless)
    (running : task.step options host world = .running next after) :
    StaysOrderly options.irq hosted world ahead next after := by
  rcases task with ⟨process, stack⟩
  rcases orderly with ⟨process, frames⟩
  cases process with
  | outside uses => exact staysOrderly_of_uses frames hostless uses guests running
  | arriving stands same apt =>
      obtain rfl := stands
      exact same ▸ staysOrderly_of_arriving frames hostless apt running
  | entering stands gateway apt =>
      obtain rfl := stands
      exact staysOrderly_of_entering frames hostless gateway apt running

/--
A task that waits is suspended at a gate, or a function of the host waits.  It
waits for the end of a pause only if the pause is in effect.
-/
theorem Orderly.of_waiting {between : World} {reason : Wait}
    (orderly : task.Orderly irq hosted paused ahead)
    (waiting : task.step options host world = .waiting between reason after) :
    between = world ∧ after.Rests irq hosted (some reason) ahead ∧
      ∀ pause, reason = .resumed pause → paused = some pause := by
  have noBarrier := barrier?_of_waiting waiting
  obtain ⟨rfl, rest, stack, rfl, rfl⟩ := eq_of_waiting waiting
  refine ⟨rfl, ?_⟩
  rcases orderly with ⟨process, frames⟩
  cases process with
  | outside uses =>
      cases uses with
      | wait allowed uses =>
          obtain ⟨isHosted, rfl⟩ := allowed
          exact ⟨.outside (fun _ => ⟨.outside uses, frames⟩) (.inr ⟨isHosted, rfl⟩), nofun⟩
  | arriving stands same apt =>
      rw [Evaluation.ofGoal_evaluate_eq] at stands
      cases stands
  | @entering _ node scope context _ stands gateway apt =>
      have suspended (given : Wait) {gateway : Rule Unit}
          (way : ∀ paused, Evaluation.Gateway irq paused (given.gateway irq))
          (same : Evaluation.entering node scope context gateway =
            .wait given (Evaluation.entering node scope context (given.gateway irq)))
          (stands : Process.wait reason rest = Evaluation.entering node scope context gateway) :
          reason = given ∧ Rests irq hosted (some reason) 1 ⟨rest, stack⟩ := by
        cases stands.trans same
        exact ⟨rfl, .held (fun paused => ⟨.entering rfl (way paused) apt, frames⟩)
          ⟨node, scope, context, stack, rfl, noBarrier⟩⟩
      cases gateway with
      | look =>
          rw [Evaluation.entering_gate] at stands
          cases stands
      | halt inEffect =>
          obtain ⟨rfl, rests⟩ := suspended (.resumed _) (fun _ => .behindPause) rfl stands
          exact ⟨rests, fun _ same => by cases same; exact inEffect⟩
      | behindPause => cases stands
      | yields =>
          cases found : irq.sleep with
          | timed milliseconds =>
              rw [found] at stands
              obtain ⟨rfl, rests⟩ := suspended .nextPoll (fun _ => .passed) rfl stands
              exact ⟨rests, nofun⟩
          | custom suspends =>
              rw [found] at stands
              cases stands
      | sleeps =>
          obtain ⟨rfl, rests⟩ := suspended .nextPoll (fun _ => .passed) rfl stands
          exact ⟨rests, nofun⟩
      | passed => cases stands

theorem Orderly.stays (orderly : task.Orderly irq hosted world.lifecycle.pause ahead)
    (hostless : hosted ∨ world.store.Hostless) :
    StaysOrderly irq hosted world ahead world task :=
  ⟨ahead, orderly, hostless, .stays rfl rfl⟩

theorem StaysOrderly.step {start : World}
    (stays : StaysOrderly options.irq hosted start ahead world task)
    (guests : hosted → host.IsStepless)
    (running : task.step options host world = .running next after) :
    StaysOrderly options.irq hosted start ahead next after := by
  rcases stays with ⟨left, orderly, hostless, advances⟩
  rcases orderly.step guests hostless running with ⟨last, orderly, hostless, further⟩
  exact ⟨last, orderly, hostless, advances.trans further⟩

/-- Every state that an orderly task reaches before it is suspended. -/
theorem Reached.staysOrderly {start : World} {current : Task} {goals : List Goal}
    (reached : Reached options host (fun _ _ => False) start task world current goals)
    (guests : hosted → host.IsStepless)
    (orderly : task.Orderly options.irq hosted start.lifecycle.pause ahead)
    (hostless : hosted ∨ start.store.Hostless) :
    StaysOrderly options.irq hosted start ahead world current := by
  induction reached with
  | start => exact orderly.stays hostless
  | step _ running inductive_step => exact inductive_step.step guests running
  | resume _ _ changed _ => exact changed.elim

/-- Running a task comes through every state that it reaches before it is suspended. -/
theorem Reached.exists_moves {start : World} {current : Task} {goals : List Goal}
    (reached : Reached options host (fun _ _ => False) start task world current goals) :
    ∃ moves, goals.length ≤ moves ∧
      ∀ fuel, task.run options host (fuel + moves) start = current.run options host fuel world := by
  induction reached with
  | start => exact ⟨0, Nat.le_refl _, fun _ => rfl⟩
  | @step world next current after goals _ running inductive_step =>
      obtain ⟨moves, few, ran⟩ := inductive_step
      refine ⟨moves + 1, ?_, fun fuel => ?_⟩
      · exact Nat.le_trans (length_goalsAfter_le current goals) (Nat.succ_le_succ few)
      · rw [Nat.add_comm moves, ← Nat.add_assoc, ran, run_of_running running]
  | resume _ _ changed _ => exact changed.elim

/-- A run that comes to an end nests no more goals than it takes moves. -/
theorem Reached.length_le_of_run {start : World} {current : Task} {goals : List Goal}
    {fuel : Nat} {progress : Progress}
    (reached : Reached options host (fun _ _ => False) start task world current goals)
    (ran : task.run options host fuel start = some progress) :
    goals.length ≤ fuel := by
  obtain ⟨moves, few, through⟩ := reached.exists_moves
  refine Nat.le_trans few (Nat.le_of_not_lt fun more => ?_)
  -- With as much fuel as there are moves the run has not ended yet.
  have ended := run_mono (Nat.le_of_lt more) ran
  have underway := through 0
  rw [Nat.zero_add, ended] at underway
  cases underway

/-- A run of an orderly task that ends has nothing ahead of it. -/
theorem Orderly.run_finished {fuel : Nat} {outcome : Outcome}
    (orderly : task.Orderly options.irq hosted world.lifecycle.pause ahead)
    (guests : hosted → host.IsStepless)
    (hostless : hosted ∨ world.store.Hostless)
    (ran : task.run options host fuel world = some (.finished next outcome)) :
    (hosted ∨ next.store.Hostless) ∧ world.Advances next ahead 0 := by
  obtain ⟨between, last, ⟨left, -, hostless, advances⟩, finished⟩ :=
    exists_last_of_run (StaysOrderly options.irq hosted world ahead) ran (orderly.stays hostless)
      fun stays running => stays.step guests running
  obtain ⟨rfl, -⟩ := eq_of_finished finished
  exact ⟨hostless, advances.trans (.turnsBack next left)⟩

/-- A run of an orderly task that is suspended rests until it is polled again. -/
theorem Orderly.run_waiting {fuel : Nat} {reason : Wait}
    (orderly : task.Orderly options.irq hosted world.lifecycle.pause ahead)
    (guests : hosted → host.IsStepless)
    (hostless : hosted ∨ world.store.Hostless)
    (ran : task.run options host fuel world = some (.waiting next reason after)) :
    ∃ left, after.Rests options.irq hosted (some reason) left ∧
      (hosted ∨ next.store.Hostless) ∧ world.Advances next ahead left ∧
      ∀ pause, reason = .resumed pause → next.lifecycle.pause = some pause := by
  obtain ⟨between, last, ⟨left, orderly, hostless, advances⟩, waiting⟩ :=
    exists_last_of_run (StaysOrderly options.irq hosted world ahead) ran (orderly.stays hostless)
      fun stays running => stays.step guests running
  obtain ⟨rfl, rests, paused⟩ := orderly.of_waiting waiting
  exact ⟨left, rests, hostless, advances, paused⟩

theorem Rests.orderly {reason : Option Wait} (rests : task.Rests irq hosted reason ahead)
    (paused : Option Nat) :
    task.Orderly irq hosted paused ahead := by
  cases rests with
  | outside orderly free => exact orderly paused
  | held orderly held => exact orderly paused

/-- A task that rests has a step ahead of it if and only if it is suspended at a gate. -/
theorem Rests.ahead_eq_one_iff {reason : Option Wait}
    (rests : task.Rests irq hosted reason ahead) :
    ahead = 1 ↔ ∃ given ∈ reason, task.IsHeld irq given := by
  cases rests with
  | held orderly held => exact ⟨fun _ => ⟨_, rfl, held⟩, fun _ => rfl⟩
  | outside orderly free =>
      refine ⟨nofun, ?_⟩
      rintro ⟨given, same, node, scope, context, stack, rfl, -⟩
      rcases free with rfl | ⟨-, rfl⟩
      · cases same
      · -- The next thing to do would be the step, which nothing takes outside.
        cases same
        cases (orderly none).process with
        | outside uses =>
            cases uses with
            | act allowed _ => exact (allowed.1 rfl).elim
        | arriving stands same apt =>
            rw [Evaluation.ofGoal_evaluate_eq] at stands
            cases stands

end Task

/-! ## Steps of a task of its own -/

/--
The number of steps that a task takes by itself when it is continued in any way.
While it is suspended the world may change as a relation allows.
-/
inductive Task.Takes (options : Options) (host : Host) (meanwhile : World → World → Prop) :
    World → Task → Nat → Prop where
  | nothing {world : World} {task : Task} :
      Takes options host meanwhile world task 0
  | step {world next : World} {task after : Task} {taken : Nat}
      (running : task.step options host world = .running next after)
      (rest : Takes options host meanwhile next after taken) :
      Takes options host meanwhile world task (next.steps - world.steps + taken)
  | resume {world between next : World} {task after : Task} {reason : Wait} {taken : Nat}
      (waiting : task.step options host world = .waiting between reason after)
      (changed : meanwhile between next)
      (rest : Takes options host meanwhile next after taken) :
      Takes options host meanwhile world task taken

/-- A change of the world after which evaluation is stopped if it was stopped before. -/
def World.StaysStopped (before after : World) : Prop :=
  before.lifecycle.isStopped = true → after.lifecycle.isStopped = true

/-- When evaluation has been stopped, a task takes the steps ahead of it at most. -/
theorem Task.Takes.taken_le {options : Options} {host : Host} {world : World} {task : Task}
    {ahead taken : Nat}
    (takes : Task.Takes options host World.StaysStopped world task taken)
    (guests : host.IsStepless)
    (orderly : task.Orderly options.irq True world.lifecycle.pause ahead)
    (stopped : world.lifecycle.isStopped = true) :
    taken ≤ ahead := by
  induction takes generalizing ahead with
  | nothing => exact Nat.zero_le _
  | step running _ inductive_step =>
      obtain ⟨left, orderly, -, advances⟩ :=
        orderly.step (fun _ => guests) (.inl trivial) running
      have later := inductive_step orderly (advances.lifecycle.isStopped stopped)
      have spent := advances.spends stopped
      have grown := advances.steps_le
      omega
  | resume waiting changed _ inductive_step =>
      obtain ⟨rfl, rests, -⟩ := orderly.of_waiting waiting
      exact inductive_step (rests.orderly _) (changed stopped)

end TreeScript
