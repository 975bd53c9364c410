import TreeScript.Proofs.Fresh
import TreeScript.Proofs.Halting
import TreeScript.Proofs.Transitions

/-!
# Winding down

An interpreter that is stopped while a run is suspended lets the run wind down:
the constructs that are under way still come to their ends, and every node and
every loop that is still to be evaluated gives `null` at once.  A function that
is called all the same runs its body in this way.

`Process.WindsDown` says how a process comes to its outcome like this, without
steps, frames and polls.  A stopped run ends if and only if it winds down, and
with the outcome to which it does.  This need not be a value, since a construct
may refuse the `null`, and there need not be any, since functions that call each
other may rely on statements to come to an end.
-/

namespace TreeScript

/-! ## Stopping -/

namespace Lifecycle

/-- Stopped, with no handlers. -/
def stopped : Lifecycle :=
  { initial with isStopped := true }

theorem initial_abort : initial.transition .abort = (stopped, []) := by
  have settled : stopped.settle [] = (stopped, []) := by rw [settle]
  exact settled

end Lifecycle

namespace Interpreter

/-- An interpreter that has been stopped. -/
def abort (interpreter : Interpreter) : Interpreter :=
  { interpreter with world := interpreter.world.transition .abort }

/-- Stopping an interpreter without handlers changes nothing else. -/
theorem abort_of_initial {interpreter : Interpreter}
    (initial : interpreter.world.lifecycle = .initial) :
    interpreter.abort =
      { interpreter with world := { interpreter.world with lifecycle := .stopped } } := by
  rw [abort, World.transition, initial, Lifecycle.initial_abort]
  exact congrArg (fun events => Interpreter.mk _ _ _ { interpreter.world with
    lifecycle := .stopped, events := events }) Array.append_empty

end Interpreter

/-! ## The outcome of winding down -/

/-- A goal that is over at once when evaluation has been stopped. -/
def Goal.EndsWhenStopped (goal : Goal) : Prop :=
  goal.IsEvaluation ∨ goal.IsLoop

section Definitions

variable (options : Options) (host : Host)

/--
How a process comes to its outcome when evaluation has been stopped: a node or a
loop that it asks for gives `null`, and a function that it calls does the same.
-/
inductive Process.WindsDown : World → Process Turn → World → Outcome → Prop where
  | answer {world : World} {outcome : Outcome} :
      WindsDown world (.done (.answer outcome)) world outcome
  | again {world : World} {goal : Goal}
      (ends : goal.EndsWhenStopped) :
      WindsDown world (.done (.again goal)) world (.ok .null)
  | act {world reached : World} {action : Action} {next : action.Reply → Process Turn}
      {outcome : Outcome}
      (rest : WindsDown (world.perform options action).2 (next (world.perform options action).1)
        reached outcome) :
      WindsDown world (.act action next) reached outcome
  | wait {world reached : World} {reason : Wait} {next : Process Turn} {outcome : Outcome}
      (ended : reason.isOver world.lifecycle = true)
      (rest : WindsDown world next reached outcome) :
      WindsDown world (.wait reason next) reached outcome
  | skip {world reached : World} {goal : Goal} {next : Outcome → Process Turn}
      {outcome : Outcome}
      (ends : goal.EndsWhenStopped)
      (rest : WindsDown world (next (.ok .null)) reached outcome) :
      WindsDown world (.call goal next) reached outcome
  | apply {world between reached : World} {function : FunctionId} {arguments : List Value}
      {context : Context} {site : Option Position} {next : Outcome → Process Turn}
      {result outcome : Outcome}
      (called : WindsDown world
        (Evaluation.ofGoal options host (.apply function arguments context site)) between result)
      (rest : WindsDown between (next result) reached outcome) :
      WindsDown world (.call (.apply function arguments context site) next) reached outcome

/-- How frames wind down one after the other, the first of them with a given outcome. -/
inductive Frame.WindDown : World → Outcome → List Frame → World → Outcome → Prop where
  | foot {world : World} {outcome : Outcome} :
      WindDown world outcome [] world outcome
  | frame {world between reached : World} {given result outcome : Outcome} {frame : Frame}
      {outer : List Frame}
      (first : (frame.resume given).WindsDown options host world between result)
      (rest : WindDown between result outer reached outcome) :
      WindDown world given (frame :: outer) reached outcome

/-- How a task winds down: its process first, and then its frames. -/
def Task.WindsDown (world : World) (task : Task) (reached : World) (outcome : Outcome) : Prop :=
  ∃ between result, task.process.WindsDown options host world between result ∧
    Frame.WindDown options host between result task.stack reached outcome

/--
A state of a script that may be suspended, after evaluation has been stopped.
Nothing in it is done at once, and all that it asks for obeys a law.
-/
structure Task.Stopping (world : World) (task : Task) : Prop where
  lawful : ∃ goals, task.Lawful options (fun _ => False) .asynchronous world goals
  stopped : world.lifecycle.isStopped = true

end Definitions

variable {options : Options} {host : Host} {world between next reached : World}
variable {process : Process Turn} {task after : Task} {stack : List Frame}
variable {result outcome : Outcome}

/-- A node or a loop does nothing but see that evaluation has been stopped. -/
theorem Evaluation.ofGoal_of_endsWhenStopped {goal : Goal} (ends : goal.EndsWhenStopped) :
    ofGoal options host goal = .done (.answer (.ok .null)) ∨
      ∃ proceed : Bool → Process Turn, ofGoal options host goal = .act .isStopped proceed ∧
        proceed true = .done (.answer (.ok .null)) := by
  rcases ends with isEvaluation | isLoop
  · cases goal with
    | evaluate node scope context => exact .inr ⟨_, rfl, rfl⟩
    | _ => exact isEvaluation.elim
  · rcases earns_loop options host isLoop with finished | ⟨proceed, looks, stops, -⟩
    · exact .inl finished
    · exact .inr ⟨proceed, looks, stops⟩

theorem Process.WindsDown.of_endsWhenStopped {goal : Goal}
    (winds : (Evaluation.ofGoal options host goal).WindsDown options host world between result)
    (ends : goal.EndsWhenStopped)
    (stopped : world.lifecycle.isStopped = true) :
    between = world ∧ result = .ok .null := by
  rcases Evaluation.ofGoal_of_endsWhenStopped ends with finished | ⟨proceed, looks, stops⟩
  · rw [finished] at winds
    cases winds
    exact ⟨rfl, rfl⟩
  · rw [looks] at winds
    cases winds with
    | act rest =>
        rw [show (world.perform options .isStopped).1 = true from stopped, stops] at rest
        cases rest
        exact ⟨rfl, rfl⟩

namespace Task.Stopping

theorem step (stopping : task.Stopping options world)
    (running : task.step options host world = .running next after) :
    after.Stopping options next := by
  rcases stopping with ⟨⟨goals, lawful⟩, stopped⟩
  exact ⟨⟨_, lawful.step running⟩, (lawful.lifecycle running).symm ▸ stopped⟩

theorem resume {reason : Wait} (stopping : task.Stopping options world)
    (waiting : task.step options host world = .waiting between reason after) :
    after.Stopping options between := by
  rcases stopping with ⟨⟨goals, lawful⟩, stopped⟩
  obtain rfl : between = world := (eq_of_waiting waiting).1
  exact ⟨⟨goals, (lawful.wait waiting).2 between lawful.hostless⟩, stopped⟩

/-- What waits is suspended. -/
theorem step_wait {reason : Wait} (stopping : Stopping options world ⟨.wait reason process, stack⟩)
    (host : Host) :
    Task.step options host world ⟨.wait reason process, stack⟩ =
      .waiting world reason ⟨process, stack⟩ := by
  rcases stopping with ⟨⟨goals, -, -, -, frames⟩, -⟩
  exact Task.step_wait frames.barrier_none world reason process

theorem endsWhenStopped_of_again {goal : Goal}
    (stopping : Stopping options world ⟨.done (.again goal), stack⟩) :
    goal.EndsWhenStopped := by
  rcases stopping with ⟨⟨goals, -, -, obeys, -⟩, -⟩
  cases obeys with
  | done ended =>
      cases goals with
      | nil => exact (ended.elim id id).elim
      | cons current outer =>
          have continues : current.Continues goal := ended.resolve_left id
          cases continues <;> exact .inr trivial

/-- What is asked for is over at once, unless it is a call. -/
theorem endsWhenStopped_or_apply {goal : Goal} {proceed : Outcome → Process Turn}
    (stopping : Stopping options world ⟨.call goal proceed, stack⟩) :
    goal.EndsWhenStopped ∨
      ∃ function arguments context site, goal = .apply function arguments context site := by
  rcases stopping with ⟨⟨goals, -, chain, obeys, -⟩, -⟩
  cases obeys with
  | call asks _ _ =>
      rcases (Goal.Chain.cons asks chain).inside with ⟨context, -, inside⟩
      cases inside with
      | evaluate node scope => exact .inl (.inl trivial)
      | apply function arguments site => exact .inr ⟨function, arguments, context, site, rfl⟩
      | loop | times | range | each => exact .inl (.inr trivial)

end Task.Stopping

/-! ## Stopped tasks wind down -/

namespace Task

/-- If a task winds down after a step, then it does so before it. -/
theorem WindsDown.of_running (stopping : task.Stopping options world)
    (running : task.step options host world = .running next after)
    (winds : after.WindsDown options host next reached outcome) :
    task.WindsDown options host world reached outcome := by
  rcases task with ⟨process, stack⟩
  rcases winds with ⟨between, result, winds, frames⟩
  cases process with
  | done turn =>
      cases turn with
      | answer given =>
          cases stack with
          | nil => cases running
          | cons frame outer =>
              cases running
              exact ⟨_, _, .answer, .frame winds frames⟩
      | again goal =>
          cases running
          have ends := stopping.endsWhenStopped_of_again
          obtain ⟨rfl, rfl⟩ := winds.of_endsWhenStopped ends stopping.stopped
          exact ⟨_, _, .again ends, frames⟩
  | act action proceed =>
      cases running
      exact ⟨_, _, .act winds, frames⟩
  | wait reason proceed =>
      rw [stopping.step_wait host] at running
      cases running
  | call goal proceed =>
      -- The first of the frames is the one that was pushed for the goal.
      cases running
      cases frames with
      | frame first rest =>
          rcases stopping.endsWhenStopped_or_apply with
            ends | ⟨function, arguments, context, site, rfl⟩
          · obtain ⟨rfl, rfl⟩ := winds.of_endsWhenStopped ends stopping.stopped
            exact ⟨_, _, .skip ends first, rest⟩
          · exact ⟨_, _, .apply winds first, rest⟩
  | drive goal proceed =>
      rcases stopping.lawful with ⟨goals, -, -, obeys, -⟩
      cases obeys with
      | drive atOnce _ _ _ => cases (Law.mode_of goals).symm.trans atOnce

/-- If a task winds down after it has waited, then it does so before. -/
theorem WindsDown.of_waiting {reason : Wait}
    (waiting : task.step options host world = .waiting between reason after)
    (ended : reason.isOver between.lifecycle = true)
    (winds : after.WindsDown options host between reached outcome) :
    task.WindsDown options host world reached outcome := by
  rcases eq_of_waiting waiting with ⟨rfl, proceed, stack, rfl, rfl⟩
  rcases winds with ⟨between, result, winds, frames⟩
  exact ⟨between, result, .wait ended winds, frames⟩

/-- A stopped task that ends has wound down. -/
theorem Ends.windsDown (ends : task.Ends options host world reached outcome)
    (stopping : task.Stopping options world) :
    task.WindsDown options host world reached outcome := by
  induction ends with
  | finish finished =>
      rcases eq_of_finished finished with ⟨rfl, rfl⟩
      exact ⟨_, _, .answer, .foot⟩
  | step running _ inductive_step =>
      exact .of_running stopping running (inductive_step (stopping.step running))
  | resume waiting ended _ inductive_step =>
      exact .of_waiting waiting ended (inductive_step (stopping.resume waiting))

/-- A stopped task ends like what it leads to, which is stopped as well. -/
theorem Stopping.ends_of_running (stopping : task.Stopping options world)
    (running : task.step options host world = .running next after)
    (rest : after.Stopping options next → after.Ends options host next reached outcome) :
    task.Ends options host world reached outcome :=
  .step running (rest (stopping.step running))

/-- A goal that is over at once lets the task go on with `null`. -/
theorem Ends.of_endsWhenStopped {goal : Goal} (ends : goal.EndsWhenStopped)
    (stopping : Stopping options world ⟨Evaluation.ofGoal options host goal, stack⟩)
    (rest : Stopping options world ⟨.done (.answer (.ok .null)), stack⟩ →
      Ends options host world ⟨.done (.answer (.ok .null)), stack⟩ reached outcome) :
    Ends options host world ⟨Evaluation.ofGoal options host goal, stack⟩ reached outcome := by
  rcases Evaluation.ofGoal_of_endsWhenStopped ends with finished | ⟨proceed, looks, stops⟩
  · rw [finished] at stopping ⊢
    exact rest stopping
  · rw [looks] at stopping ⊢
    have looked : Task.step options host world ⟨.act .isStopped proceed, stack⟩ =
        .running world ⟨.done (.answer (.ok .null)), stack⟩ := by
      rw [step_act, show (world.perform options .isStopped).1 = true from stopping.stopped, stops]
      rfl
    exact stopping.ends_of_running looked rest

end Task

/-- A process that winds down above some frames comes to its outcome there. -/
theorem Process.WindsDown.ends
    (winds : process.WindsDown options host world between result)
    (stopping : Task.Stopping options world ⟨process, stack⟩)
    (rest : Task.Stopping options between ⟨.done (.answer result), stack⟩ →
      Task.Ends options host between ⟨.done (.answer result), stack⟩ reached outcome) :
    Task.Ends options host world ⟨process, stack⟩ reached outcome := by
  -- The stack stays general, since what is called winds down above one frame more.
  induction winds generalizing stack with
  | answer => exact rest stopping
  | @again world goal ends =>
      refine stopping.ends_of_running (Task.step_again world goal stack) fun stopping => ?_
      exact .of_endsWhenStopped ends stopping rest
  | @act world _ action proceed _ _ inductive_step =>
      refine stopping.ends_of_running (Task.step_act world action proceed stack) fun stopping => ?_
      exact inductive_step stopping rest
  | wait ended _ inductive_step =>
      have waiting := stopping.step_wait host
      exact .resume waiting ended (inductive_step (stopping.resume waiting) rest)
  | @skip world _ goal proceed _ ends _ inductive_step =>
      refine stopping.ends_of_running (Task.step_call world goal proceed stack) fun stopping => ?_
      refine .of_endsWhenStopped ends stopping fun stopping => ?_
      refine stopping.ends_of_running (Task.step_answer world _ _ stack) fun stopping => ?_
      exact inductive_step stopping rest
  | @apply world between _ _ _ _ _ proceed _ _ _ _ first second =>
      refine stopping.ends_of_running (Task.step_call world _ proceed stack) fun stopping => ?_
      refine first stopping fun stopping => ?_
      refine stopping.ends_of_running (Task.step_answer between _ _ stack) fun stopping => ?_
      exact second stopping rest

theorem Frame.WindDown.ends
    (wind : Frame.WindDown options host world result stack reached outcome)
    (stopping : Task.Stopping options world ⟨.done (.answer result), stack⟩) :
    Task.Ends options host world ⟨.done (.answer result), stack⟩ reached outcome := by
  induction wind with
  | foot => exact .finish rfl
  | @frame world _ _ given _ _ frame outer first _ inductive_step =>
      refine stopping.ends_of_running (Task.step_answer world given frame outer) fun stopping => ?_
      exact first.ends stopping inductive_step

/-- A stopped task ends if and only if it winds down, and with the same outcome. -/
theorem Task.Stopping.ends_iff (stopping : task.Stopping options world) :
    task.Ends options host world reached outcome ↔
      task.WindsDown options host world reached outcome := by
  constructor
  · intro ends
    exact ends.windsDown stopping
  · rintro ⟨between, result, winds, frames⟩
    exact winds.ends stopping frames.ends

/-! ## Interpreters that are stopped -/

/-- What a lawful task waits with is lawful as well. -/
theorem Task.Lawful.of_run {givesUp : Cause → Prop} {mode : Mode} {goals : List Goal}
    (lawful : task.Lawful options givesUp mode world goals)
    {fuel : Nat} {reason : Wait}
    (ran : task.run options host fuel world = some (.waiting between reason after)) :
    ∃ goals, after.Lawful options givesUp mode between goals := by
  have comes := exists_last_of_run
    (fun world task => ∃ goals, task.Lawful options givesUp mode world goals)
    ran ⟨goals, lawful⟩ fun ⟨_, lawful⟩ running => ⟨_, lawful.step running⟩
  rcases comes with ⟨world, last, ⟨goals, lawful⟩, waiting⟩
  obtain rfl : between = world := (eq_of_waiting waiting).1
  exact ⟨goals, (lawful.wait waiting).2 between lawful.hostless⟩

namespace Interpreter

/-- The states in which a run is suspended after some polls, when nothing else happens. -/
inductive SuspendsIn (interpreter : Interpreter) (run : Run) : Interpreter → Run → Prop where
  | first {suspended : Interpreter} {rest : Run} {fuel : Nat}
      (polled : interpreter.poll fuel run = some (.pending rest, suspended)) :
      SuspendsIn interpreter run suspended rest
  | later {between suspended : Interpreter} {current rest : Run} {fuel : Nat}
      (earlier : SuspendsIn interpreter run between current)
      (polled : between.poll fuel current = some (.pending rest, suspended)) :
      SuspendsIn interpreter run suspended rest

/-- A run of a script that may be suspended, in a lawful state. -/
structure IsLawful (interpreter : Interpreter) (run : Run) (task : Task) : Prop where
  underway : run.task = some task
  lawful : ∃ goals,
    task.Lawful interpreter.options (fun _ => False) .asynchronous interpreter.world goals

variable {interpreter suspended : Interpreter} {run rest : Run}

theorem IsLawful.poll (isLawful : interpreter.IsLawful run task) {fuel : Nat}
    (polled : interpreter.poll fuel run = some (.pending rest, suspended)) :
    ∃ task, suspended.IsLawful rest task := by
  rcases isLawful with ⟨underway, goals, lawful⟩
  cases ready : run.isReady interpreter.world.lifecycle with
  | false =>
      rw [Interpreter.poll, underway, ready] at polled
      cases polled
      exact ⟨task, underway, goals, lawful⟩
  | true =>
      rw [poll_of_ready _ run underway ready] at polled
      split at polled
      · cases polled
      · rename_i ran
        cases polled
        exact ⟨_, rfl, lawful.of_run ran⟩
      · cases polled

theorem SuspendsIn.isLawful {script : List Node}
    (hostless : interpreter.world.store.Hostless)
    (suspends : interpreter.SuspendsIn (interpreter.start script) suspended rest) :
    ∃ task, suspended.IsLawful rest task := by
  induction suspends with
  | first polled =>
      cases script with
      | nil => cases polled
      | cons statement others =>
          have isLawful : interpreter.IsLawful (interpreter.start (statement :: others)) _ :=
            ⟨rfl, [], Task.lawful_ofScript hostless interpreter.root (statement :: others)⟩
          exact isLawful.poll polled
  | later _ polled inductive_step =>
      rcases inductive_step with ⟨task, isLawful⟩
      exact isLawful.poll polled

/-- Stopping evaluation leaves a run lawful. -/
theorem IsLawful.stopping (isLawful : interpreter.IsLawful run task) :
    task.Stopping interpreter.options interpreter.abort.world := by
  rcases isLawful with ⟨-, goals, hostless, chain, obeys, frames⟩
  exact ⟨⟨goals, hostless, chain, obeys, frames⟩, Lifecycle.isStopped_abort _⟩

/-- A verdict is a value only if the outcome is one. -/
theorem conclude_eq_value_iff {delivers : Bool} {value : Value} :
    (conclude options delivers outcome world).1 = .ok (some value) ↔ outcome = .ok value := by
  constructor
  · intro concluded
    unfold conclude at concluded
    split at concluded
    · cases concluded
      rename_i expected
      rcases outcome with (signal | error) | given
      · cases expected
      · cases expected
      · cases expected
        rfl
    · split at concluded
      · split at concluded <;> cases concluded
      · cases concluded
  · rintro rfl
    rfl

/--
A run that is suspended when evaluation is stopped, and is then polled on,
finishes with a value if and only if what it waits for is over and it winds down
to this value: if the constructs that are under way come to it with `null` for
every node and every loop that they have not evaluated yet.
-/
theorem complete_abort_iff {script : List Node}
    (hostless : interpreter.world.store.Hostless)
    (suspends : interpreter.SuspendsIn (interpreter.start script) suspended run) :
    ∃ task, run.task = some task ∧ ∀ value final,
      (∃ fuel polls, complete fuel polls suspended.abort run = some (.ok (some value), final)) ↔
        run.isReady suspended.abort.world.lifecycle = true ∧
          ∃ world, final = { suspended with world := world } ∧
            task.WindsDown suspended.options suspended.host suspended.abort.world world
              (.ok value) := by
  rcases suspends.isLawful hostless with ⟨task, isLawful⟩
  refine ⟨task, isLawful.underway, fun value final => ?_⟩
  cases ready : run.isReady suspended.abort.world.lifecycle with
  | false =>
      constructor
      · rintro ⟨fuel, polls, completed⟩
        cases (complete_of_not_isReady isLawful.underway ready fuel polls).symm.trans completed
      · rintro ⟨ended, -⟩
        cases ended
  | true =>
      rw [complete_iff_ends isLawful.underway ready]
      constructor
      · rintro ⟨reached, outcome, ends, same⟩
        injection same with verdicts finals
        obtain rfl := conclude_eq_value_iff.mp verdicts.symm
        exact ⟨rfl, reached, finals, isLawful.stopping.ends_iff.mp ends⟩
      · rintro ⟨-, reached, rfl, winds⟩
        exact ⟨reached, .ok value, isLawful.stopping.ends_iff.mpr winds, rfl⟩

/-- An interpreter that may be suspended before every step. -/
def yielding : Interpreter :=
  create { Options.silent 0 0 with irq := ⟨Float.ofNat 1, .custom true⟩ } Host.none [] [] []

/-- The script `let x = true;`. -/
def definition : List Node :=
  [.of (.definition (.of (.identifier "x")) (.of (.bool true)) false [])]

/-- The script `!true;`. -/
def negation : List Node :=
  [.of (.unary .not (.of (.bool true)))]

/-- A definition that is stopped while it is suspended still defines its name. -/
theorem complete_abort_iff_definition :
    ∃ suspended run final,
      yielding.SuspendsIn (yielding.start definition) suspended run ∧
        (∃ fuel polls,
          complete fuel polls suspended.abort run = some (.ok (some .null), final)) ∧
        ∃ task, run.task = some task ∧
          task.WindsDown suspended.options suspended.host suspended.abort.world final.world
            (.ok .null) := by
  have polled : ∃ run suspended,
      yielding.poll 40 (yielding.start definition) = some (.pending run, suspended) ∧
        suspended.world.lifecycle = .initial ∧
        ∃ final, complete 80 1
          { suspended with world := { suspended.world with lifecycle := .stopped } } run =
            some (.ok (some .null), final) :=
    ⟨_, _, rfl, rfl, _, rfl⟩
  obtain ⟨run, suspended, polled, initial, final, completed⟩ := polled
  rw [← abort_of_initial initial] at completed
  have suspends : yielding.SuspendsIn (yielding.start definition) suspended run := .first polled
  obtain ⟨task, underway, completes⟩ := complete_abort_iff (hostless_create _ _ _ _) suspends
  obtain ⟨-, world, rfl, winds⟩ := (completes .null final).mp ⟨80, 1, completed⟩
  exact ⟨suspended, run, _, suspends, ⟨80, 1, completed⟩, task, underway, winds⟩

/-- A negation gives a value, and an error when it is stopped while it is suspended. -/
theorem exists_error_after_abort :
    (∃ fuel polls value final,
      complete fuel polls yielding (yielding.start negation) = some (.ok (some value), final)) ∧
      ∃ suspended run, yielding.SuspendsIn (yielding.start negation) suspended run ∧
        ∃ fuel polls error final,
          complete fuel polls suspended.abort run = some (.error error, final) := by
  refine ⟨⟨80, 4, _, _, rfl⟩, ?_⟩
  have polled : ∃ run suspended,
      yielding.poll 40 (yielding.start negation) = some (.pending run, suspended) ∧
        suspended.world.lifecycle = .initial ∧
        ∃ error final, complete 80 1
          { suspended with world := { suspended.world with lifecycle := .stopped } } run =
            some (.error error, final) :=
    ⟨_, _, rfl, rfl, _, _, rfl⟩
  obtain ⟨run, suspended, polled, initial, error, final, completed⟩ := polled
  rw [← abort_of_initial initial] at completed
  exact ⟨suspended, run, .first polled, 80, 1, error, final, completed⟩

end Interpreter

end TreeScript
