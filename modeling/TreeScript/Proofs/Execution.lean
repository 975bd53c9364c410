import TreeScript.Interpreter.Basic

/-!
# Executions and fuel

Fuel and the number of polls bound how far a task is followed; they have no
part in what it does.  `Task.Ends` says without them how a task ends that is
polled again whenever what it waits for is over.  Every such end is reached with
any sufficient fuel and number of polls, and a run is completed in no other way.
-/

namespace TreeScript

variable {options : Options} {host : Host}

namespace Task

/-- What waits below no barrier is suspended. -/
theorem step_wait {stack : List Frame} (noBarrier : barrier? stack = none) (world : World)
    (reason : Wait) (next : Process Turn) :
    step options host world ⟨.wait reason next, stack⟩ =
      .waiting world reason ⟨next, stack⟩ := by
  simp only [step, noBarrier]

/-- What waits below a barrier goes on there with an error. -/
theorem step_wait_barrier {stack outer : List Frame} {frame : Frame}
    (barrier : barrier? stack = some (frame, outer)) (world : World)
    (reason : Wait) (next : Process Turn) :
    step options host world ⟨.wait reason next, stack⟩ =
      .running world ⟨frame.resume cannotWait, outer⟩ := by
  simp only [step, barrier]

theorem isBarrier_of_barrier? {stack outer : List Frame} {frame : Frame}
    (found : barrier? stack = some (frame, outer)) :
    frame.isBarrier = true := by
  induction stack with
  | nil => cases found
  | cons top rest inductive_step =>
      rw [barrier?] at found
      split at found
      · rename_i topBarrier
        cases found
        exact topBarrier
      · exact inductive_step found

theorem step_act (world : World) (action : Action) (next : action.Reply → Process Turn)
    (stack : List Frame) :
    step options host world ⟨.act action next, stack⟩ =
      .running (world.perform options action).2
        ⟨next (world.perform options action).1, stack⟩ := rfl

theorem step_answer (world : World) (outcome : Outcome) (frame : Frame) (outer : List Frame) :
    step options host world ⟨.done (.answer outcome), frame :: outer⟩ =
      .running world ⟨frame.resume outcome, outer⟩ := rfl

theorem step_again (world : World) (goal : Goal) (stack : List Frame) :
    step options host world ⟨.done (.again goal), stack⟩ =
      .running world ⟨Evaluation.ofGoal options host goal, stack⟩ := rfl

theorem step_call (world : World) (goal : Goal) (next : Outcome → Process Turn)
    (stack : List Frame) :
    step options host world ⟨.call goal next, stack⟩ =
      .running world ⟨Evaluation.ofGoal options host goal, ⟨next, false⟩ :: stack⟩ := rfl

/-- Only a task that waits below no barrier is suspended. -/
theorem eq_of_waiting {world between : World} {task after : Task} {reason : Wait}
    (waiting : task.step options host world = .waiting between reason after) :
    between = world ∧ ∃ next stack, task = ⟨.wait reason next, stack⟩ ∧ after = ⟨next, stack⟩ := by
  rcases task with ⟨process, stack⟩
  cases process with
  | done turn =>
      cases turn with
      | answer outcome => cases stack <;> cases waiting
      | again goal => cases waiting
  | wait reason next =>
      cases found : barrier? stack with
      | none =>
          rw [step_wait found] at waiting
          cases waiting
          exact ⟨rfl, next, stack, rfl, rfl⟩
      | some barrier =>
          rw [step_wait_barrier found] at waiting
          cases waiting
  | act | call | drive => cases waiting

/-- Only a task that answers with nothing around it is finished. -/
theorem eq_of_finished {world reached : World} {task : Task} {outcome : Outcome}
    (finished : task.step options host world = .finished reached outcome) :
    reached = world ∧ task = ⟨.done (.answer outcome), []⟩ := by
  rcases task with ⟨process, stack⟩
  cases process with
  | done turn =>
      cases turn with
      | answer outcome =>
          cases stack with
          | nil =>
              cases finished
              exact ⟨rfl, rfl⟩
          | cons frame outer => cases finished
      | again goal => cases finished
  | wait reason next =>
      cases found : barrier? stack with
      | none =>
          rw [step_wait found] at finished
          cases finished
      | some barrier =>
          rw [step_wait_barrier found] at finished
          cases finished
  | act | call | drive => cases finished

theorem run_of_running {world reached : World} {task next : Task}
    (running : task.step options host world = .running reached next) (fuel : Nat) :
    task.run options host (fuel + 1) world = next.run options host fuel reached := by
  rw [run, running]

theorem run_of_finished {world reached : World} {task : Task} {outcome : Outcome}
    (finished : task.step options host world = .finished reached outcome) (fuel : Nat) :
    task.run options host (fuel + 1) world = some (.finished reached outcome) := by
  rw [run, finished]

theorem run_of_waiting {world reached : World} {task next : Task} {reason : Wait}
    (waiting : task.step options host world = .waiting reached reason next) (fuel : Nat) :
    task.run options host (fuel + 1) world = some (.waiting reached reason next) := by
  rw [run, waiting]

/-- More fuel does not change what a run leads to. -/
theorem run_mono {fuel more : Nat} (enough : fuel ≤ more) {world : World} {task : Task}
    {progress : Progress}
    (ran : task.run options host fuel world = some progress) :
    task.run options host more world = some progress := by
  induction fuel generalizing more world task with
  | zero => cases ran
  | succ fuel inductive_step =>
      rcases Nat.exists_eq_add_of_le' (Nat.one_le_of_lt enough) with ⟨more, rfl⟩
      cases step : task.step options host world with
      | running reached next =>
          rw [run_of_running step] at ran ⊢
          exact inductive_step (Nat.le_of_succ_le_succ enough) ran
      | waiting reached reason next =>
          rw [run_of_waiting step] at ran ⊢
          exact ran
      | finished reached outcome =>
          rw [run_of_finished step] at ran ⊢
          exact ran

/-- A run leads to one thing, whatever the fuel. -/
theorem eq_of_run {fuel fuel' : Nat} {world : World} {task : Task} {progress progress' : Progress}
    (ran : task.run options host fuel world = some progress)
    (ran' : task.run options host fuel' world = some progress') :
    progress = progress' :=
  Option.some.inj ((run_mono (Nat.le_max_left fuel fuel') ran).symm.trans
    (run_mono (Nat.le_max_right fuel fuel') ran'))

/-- What every step keeps is true of the last state of a run as well. -/
theorem exists_last_of_run (holds : World → Task → Prop) {fuel : Nat} {world : World}
    {task : Task} {progress : Progress}
    (ran : task.run options host fuel world = some progress)
    (starts : holds world task)
    (keeps : ∀ {world next : World} {task after : Task}, holds world task →
      task.step options host world = .running next after → holds next after) :
    ∃ between last, holds between last ∧ last.step options host between = progress := by
  induction fuel generalizing world task with
  | zero => cases ran
  | succ fuel inductive_step =>
      cases step : task.step options host world with
      | running between next =>
          rw [run_of_running step] at ran
          exact inductive_step ran (keeps starts step)
      | waiting between reason next =>
          rw [run_of_waiting step] at ran
          cases ran
          exact ⟨world, task, starts, step⟩
      | finished between outcome =>
          rw [run_of_finished step] at ran
          cases ran
          exact ⟨world, task, starts, step⟩

/-- A task that goes on as another one in another world, after some steps. -/
def GoesOn (options : Options) (host : Host) (world : World) (task : Task) (next : World)
    (after : Task) : Prop :=
  ∃ steps, ∀ fuel,
    task.run options host (fuel + steps) world = after.run options host fuel next

theorem GoesOn.refl (world : World) (task : Task) :
    GoesOn options host world task world task :=
  ⟨0, fun _ => rfl⟩

theorem GoesOn.step {world next last : World} {task after final : Task}
    (running : task.step options host world = .running next after)
    (goesOn : GoesOn options host next after last final) :
    GoesOn options host world task last final := by
  obtain ⟨steps, same⟩ := goesOn
  exact ⟨steps + 1, fun fuel => (run_of_running running (fuel + steps)).trans (same fuel)⟩

theorem GoesOn.trans {world between next : World} {task middle after : Task}
    (first : GoesOn options host world task between middle)
    (second : GoesOn options host between middle next after) :
    GoesOn options host world task next after := by
  obtain ⟨steps, same⟩ := first
  obtain ⟨more, sameAfter⟩ := second
  refine ⟨more + steps, fun fuel => ?_⟩
  rw [← Nat.add_assoc, same, sameAfter]

/-- A task that goes on until it answers with nothing around it is finished. -/
theorem GoesOn.run_eq {world reached : World} {task : Task} {outcome : Outcome}
    (goesOn : GoesOn options host world task reached ⟨.done (.answer outcome), []⟩) :
    ∃ enough, ∀ fuel,
      task.run options host (fuel + enough) world = some (.finished reached outcome) := by
  obtain ⟨steps, same⟩ := goesOn
  refine ⟨steps + 1, fun fuel => ?_⟩
  rw [Nat.add_comm steps, ← Nat.add_assoc, same]
  exact run_of_finished rfl fuel

/-- How a task ends that goes on as soon as it is polled again. -/
inductive Ends (options : Options) (host : Host) : World → Task → World → Outcome → Prop where
  | finish {world reached : World} {task : Task} {outcome : Outcome}
      (finished : task.step options host world = .finished reached outcome) :
      Ends options host world task reached outcome
  | step {world between reached : World} {task next : Task} {outcome : Outcome}
      (running : task.step options host world = .running between next)
      (rest : Ends options host between next reached outcome) :
      Ends options host world task reached outcome
  | resume {world between reached : World} {task next : Task} {reason : Wait} {outcome : Outcome}
      (waiting : task.step options host world = .waiting between reason next)
      (ended : reason.isOver between.lifecycle = true)
      (rest : Ends options host between next reached outcome) :
      Ends options host world task reached outcome

/-- A task ends like the last state of a run of it. -/
theorem Ends.of_run {fuel : Nat} {world reached : World} {task : Task} {progress : Progress}
    {outcome : Outcome}
    (ran : task.run options host fuel world = some progress)
    (goesOn : ∀ {between : World} {last : Task}, last.step options host between = progress →
      last.Ends options host between reached outcome) :
    task.Ends options host world reached outcome := by
  have comes := exists_last_of_run
    (fun between last => last.Ends options host between reached outcome →
      task.Ends options host world reached outcome)
    ran id fun ends running rest => ends (.step running rest)
  rcases comes with ⟨between, last, ends, step⟩
  exact ends (goesOn step)

end Task

namespace Interpreter

variable {interpreter : Interpreter}

/-- Polling a run that can go on runs its task. -/
theorem poll_of_ready (interpreter : Interpreter) (run : Run) {task : Task}
    (underway : run.task = some task)
    (ready : run.isReady interpreter.world.lifecycle = true) (fuel : Nat) :
    interpreter.poll fuel run =
      match task.run interpreter.options interpreter.host fuel interpreter.world with
      | some (.finished world outcome) =>
          let (verdict, world) := conclude interpreter.options run.delivers outcome world
          some (.ended verdict, { interpreter with world := world })
      | some (.waiting world reason task) =>
          some (.pending ⟨some task, some reason, run.delivers⟩,
            { interpreter with world := world })
      | _ => none := by
  unfold poll
  rw [underway]
  exact if_pos ready

/-- More fuel does not change what polling a run gives. -/
theorem poll_mono {fuel more : Nat} (enough : fuel ≤ more) {run : Run}
    {result : Polled × Interpreter}
    (polled : interpreter.poll fuel run = some result) :
    interpreter.poll more run = some result := by
  cases underway : run.task with
  | none =>
      unfold poll at polled ⊢
      rw [underway] at polled ⊢
      exact polled
  | some task =>
      cases ready : run.isReady interpreter.world.lifecycle with
      | false =>
          unfold poll at polled ⊢
          rw [underway, ready] at polled ⊢
          exact polled
      | true =>
          rw [poll_of_ready _ run underway ready] at polled ⊢
          cases ran : task.run interpreter.options interpreter.host fuel interpreter.world with
          | none =>
              rw [ran] at polled
              cases polled
          | some progress =>
              rw [ran] at polled
              rw [Task.run_mono enough ran]
              exact polled

/-- More fuel and more polls do not change how a run ends. -/
theorem complete_mono {fuel more polls morePolls : Nat}
    (enough : fuel ≤ more) (enoughPolls : polls ≤ morePolls) {run : Run}
    {result : Verdict × Interpreter}
    (completed : complete fuel polls interpreter run = some result) :
    complete more morePolls interpreter run = some result := by
  induction polls generalizing morePolls interpreter run with
  | zero => cases completed
  | succ polls inductive_step =>
      rcases Nat.exists_eq_add_of_le' (Nat.one_le_of_lt enoughPolls) with ⟨morePolls, rfl⟩
      rw [complete] at completed ⊢
      cases polled : interpreter.poll fuel run with
      | none =>
          rw [polled] at completed
          cases completed
      | some reached =>
          rw [polled] at completed
          rw [poll_mono enough polled]
          rcases reached with ⟨run | verdict, interpreter⟩
          · cases ready : run.isReady interpreter.world.lifecycle with
            | false =>
                simp only [ready] at completed
                cases completed
            | true =>
                simp only [ready, if_true] at completed ⊢
                exact inductive_step (Nat.le_of_succ_le_succ enoughPolls) completed
          · exact completed

/-- A step of the task of a run takes one unit of fuel. -/
theorem complete_of_running {world between : World} {task next : Task} {run : Run}
    (underway : run.task = some task)
    (ready : run.isReady world.lifecycle = true)
    (running : task.step interpreter.options interpreter.host world = .running between next)
    {fuel polls : Nat} {result : Verdict × Interpreter}
    (completed : complete fuel polls { interpreter with world := between }
      ⟨some next, none, run.delivers⟩ = some result) :
    complete (fuel + 1) polls { interpreter with world := world } run = some result := by
  cases polls with
  | zero => cases completed
  | succ polls =>
      have polled :
          poll { interpreter with world := world } (fuel + 1) run =
            poll { interpreter with world := between } fuel ⟨some next, none, run.delivers⟩ := by
        rw [poll_of_ready _ run underway ready, Task.run_of_running running]
        exact (poll_of_ready { interpreter with world := between }
          ⟨some next, none, run.delivers⟩ rfl rfl fuel).symm
      rw [complete] at completed ⊢
      rw [polled]
      split at completed
      · exact completed
      · split at completed
        · rename_i ready
          exact (if_pos ready).trans
            (complete_mono (Nat.le_succ fuel) (Nat.le_refl polls) completed)
        · cases completed
      · cases completed

/-- A task that ends is completed with some fuel and some number of polls. -/
theorem complete_of_ends {world reached : World} {task : Task} {outcome : Outcome}
    (ends : Task.Ends interpreter.options interpreter.host world task reached outcome)
    (run : Run)
    (underway : run.task = some task)
    (ready : run.isReady world.lifecycle = true) :
    ∃ fuel polls,
      complete fuel polls { interpreter with world := world } run =
        some ((conclude interpreter.options run.delivers outcome reached).1,
          { interpreter with
            world := (conclude interpreter.options run.delivers outcome reached).2 }) := by
  induction ends generalizing run with
  | finish finished =>
      refine ⟨1, 1, ?_⟩
      rw [complete, poll_of_ready _ run underway ready, Task.run_of_finished finished]
  | step running rest inductive_step =>
      obtain ⟨fuel, polls, completed⟩ :=
        inductive_step ⟨some _, none, run.delivers⟩ rfl rfl
      exact ⟨fuel + 1, polls, complete_of_running underway ready running completed⟩
  | resume waiting ended rest inductive_step =>
      obtain ⟨fuel, polls, completed⟩ :=
        inductive_step ⟨some _, some _, run.delivers⟩ rfl ended
      refine ⟨fuel + 1, polls + 1, ?_⟩
      rw [complete, poll_of_ready _ run underway ready, Task.run_of_waiting waiting]
      exact (if_pos ended).trans (complete_mono (Nat.le_succ fuel) (Nat.le_refl polls) completed)

/-- A run is not completed while it has to wait. -/
theorem complete_of_not_isReady {run : Run} {task : Task}
    (underway : run.task = some task)
    (waits : run.isReady interpreter.world.lifecycle = false) (fuel polls : Nat) :
    complete fuel polls interpreter run = none := by
  cases polls with
  | zero => rfl
  | succ polls =>
      have polled : interpreter.poll fuel run = some (.pending run, interpreter) := by
        rw [poll, underway, waits]
        rfl
      rw [complete, polled]
      exact if_neg (ne_true_of_eq_false waits)

/-- What is completed has a task that ends, and is concluded with its outcome. -/
theorem ends_of_complete {fuel polls : Nat} {run : Run} {task : Task}
    {result : Verdict × Interpreter}
    (completed : complete fuel polls interpreter run = some result)
    (underway : run.task = some task)
    (ready : run.isReady interpreter.world.lifecycle = true) :
    ∃ reached outcome,
      task.Ends interpreter.options interpreter.host interpreter.world reached outcome ∧
        result = ((conclude interpreter.options run.delivers outcome reached).1,
          { interpreter with
            world := (conclude interpreter.options run.delivers outcome reached).2 }) := by
  induction polls generalizing interpreter run task with
  | zero => cases completed
  | succ polls inductive_step =>
      rw [complete, poll_of_ready _ run underway ready] at completed
      cases ran : task.run interpreter.options interpreter.host fuel interpreter.world with
      | none =>
          rw [ran] at completed
          cases completed
      | some progress =>
          rw [ran] at completed
          cases progress with
          | running world next => cases completed
          | finished reached outcome =>
              cases completed
              exact ⟨reached, outcome, .of_run ran .finish, rfl⟩
          | waiting world reason next =>
              dsimp only at completed
              split at completed
              · rename_i ended
                rcases inductive_step completed rfl ended with ⟨reached, outcome, ends, rfl⟩
                exact ⟨reached, outcome, .of_run ran fun waiting => .resume waiting ended ends, rfl⟩
              · cases completed

/-- A run that can go on is completed if and only if its task ends. -/
theorem complete_iff_ends {run : Run} {task : Task}
    (underway : run.task = some task)
    (ready : run.isReady interpreter.world.lifecycle = true) (result : Verdict × Interpreter) :
    (∃ fuel polls, complete fuel polls interpreter run = some result) ↔
      ∃ reached outcome,
        task.Ends interpreter.options interpreter.host interpreter.world reached outcome ∧
          result = ((conclude interpreter.options run.delivers outcome reached).1,
            { interpreter with
              world := (conclude interpreter.options run.delivers outcome reached).2 }) := by
  constructor
  · rintro ⟨fuel, polls, completed⟩
    exact ends_of_complete completed underway ready
  · rintro ⟨reached, outcome, ends, rfl⟩
    exact complete_of_ends ends run underway ready

end Interpreter

end TreeScript
