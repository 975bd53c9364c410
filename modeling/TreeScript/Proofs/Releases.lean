import TreeScript.Proofs.StoppedSessions
import TreeScript.Proofs.Wakeups
import TreeScript.Proofs.WindingDown

/-!
# What stopping releases

When evaluation has been stopped, every node and every loop that is still to be
evaluated gives `null` at once, and nothing comes to a gate any more.  So a run
without functions of the host ends when it is polled next, unless it stands at a
gate already and is held there: by a pause that is still in effect, or by the
yield that follows a pause.  At the gate nobody asks again whether evaluation has
been stopped.

Only functions of the library still have others called, and these have further
ones called: a run ends if and only if this goes on up to some bound only.
-/

namespace TreeScript

/-- A world without functions of the host in which evaluation has been stopped. -/
structure World.Halted (world : World) : Prop where
  hostless : world.store.Hostless
  stopped : world.lifecycle.isStopped = true

theorem World.Halted.perform {world : World} (halted : world.Halted) (options : Options)
    {action : Action}
    (allowed : (Manner.stepless False).acts action) :
    (world.perform options action).2.Halted where
  hostless :=
    (world.hostless_perform_of_stepless options allowed (.inr halted.hostless)).resolve_left id
  stopped := (world.evolves_perform options action).isStopped halted.stopped

theorem Goal.RunsIn.endsWhenStopped_or_apply {mode : Mode} {goal : Goal} (runs : goal.RunsIn mode) :
    goal.EndsWhenStopped ∨
      ∃ function arguments context site, goal = .apply function arguments context site := by
  cases goal with
  | evaluate node scope context => exact .inl (.inl trivial)
  | apply function arguments context site => exact .inr ⟨function, arguments, context, site, rfl⟩
  | enter callee arguments mode => exact runs.elim
  | loop | times | range | each => exact .inl (.inr trivial)

/-! ## Tasks that come to their ends -/

namespace Task

variable {options : Options} {host : Host} {start world : World}
variable {task : Task} {stack : List Frame} {goals : List Goal}

/-- The states of a task until it is suspended. -/
abbrev ReachedUnsuspended (options : Options) (host : Host) :
    World → Task → World → Task → List Goal → Prop :=
  Reached options host fun _ _ => False

/-- A task that comes to a node or a loop goes on with `null`. -/
theorem halts_of_endsWhenStopped {other : Options} {guest : Host} {goal : Goal}
    (ends : goal.EndsWhenStopped)
    (stopped : world.lifecycle.isStopped = true)
    (reached : ReachedUnsuspended options host start task world
      ⟨Evaluation.ofGoal other guest goal, stack⟩ goals)
    (rest : ReachedUnsuspended options host start task world ⟨.done (.answer (.ok .null)), stack⟩
        goals →
      Halts options host world ⟨.done (.answer (.ok .null)), stack⟩) :
    Halts options host world ⟨Evaluation.ofGoal other guest goal, stack⟩ := by
  rcases Evaluation.ofGoal_of_endsWhenStopped ends with finished | ⟨proceed, looks, stops⟩
  · rw [finished] at reached ⊢
    exact rest reached
  · rw [looks] at reached ⊢
    have looked : Task.step options host world ⟨.act .isStopped proceed, stack⟩ =
        .running world ⟨.done (.answer (.ok .null)), stack⟩ := by
      rw [step_act, show (world.perform options .isStopped).1 = true from stopped, stops]
      rfl
    exact .of_running looked (rest (reached.step looked))

section Bounded

variable {bound : Nat}
variable (few : ∀ {world current goals},
  ReachedUnsuspended options host start task world current goals → goals.length ≤ bound)

include few

/--
When evaluation has been stopped a process that takes no steps comes to its
answer, if goals nest up to a bound only.
-/
theorem halts_of_uses {process : Process Turn}
    (uses : process.Uses (.stepless False) (Turn.Stepless False))
    (halted : world.Halted)
    (reached : ReachedUnsuspended options host start task world ⟨process, stack⟩ goals)
    (goesOn : ∀ next outcome others, next.Halted → others.tail = goals.tail →
      ReachedUnsuspended options host start task next ⟨.done (.answer outcome), stack⟩ others →
      Halts options host next ⟨.done (.answer outcome), stack⟩) :
    Halts options host world ⟨process, stack⟩ := by
  -- First by the goals that may still nest, for the calls, and then by the process.
  induction remaining : bound - goals.length using Nat.strongRecOn
    generalizing world process stack goals with
  | ind most fewer =>
  induction uses generalizing world with
  | @done turn given =>
      cases turn with
      | answer outcome => exact goesOn world outcome goals halted rfl reached
      | again goal =>
          refine .of_running (step_again world goal stack) ?_
          have again := reached.step (step_again world goal stack)
          refine halts_of_endsWhenStopped (.inr given.2) halted.stopped again ?_
          exact goesOn world (.ok .null) _ halted rfl
  | @act action next allowed _ inductive_step =>
      have replied : (Manner.stepless False).replies action (world.perform options action).1 :=
        .inr (world.expected_perform options action halted.hostless)
      refine .of_running (step_act world action next stack) ?_
      exact inductive_step _ replied (halted.perform options allowed)
        (reached.step (step_act world action next stack))
  | wait allowed _ _ => exact allowed.1.elim
  | drive allowed _ _ => exact allowed.elim
  | @call goal next allowed _ inductive_step =>
      have asked := reached.step (step_call world goal next stack)
      refine .of_running (step_call world goal next stack) ?_
      rcases (allowed.resolve_left id).endsWhenStopped_or_apply with
        ends | ⟨function, arguments, context, site, rfl⟩
      · refine halts_of_endsWhenStopped ends halted.stopped asked fun answered => ?_
        refine .of_running (step_answer world _ ⟨next, false⟩ stack) ?_
        exact inductive_step _ halted (answered.step (step_answer world _ ⟨next, false⟩ stack))
      · have guests : False → host.IsStepless := False.elim
        have called := Evaluation.stepless_ofGoal guests options allowed nofun
        have within : goals.length + 1 ≤ bound := few asked
        refine fewer (bound - (goals.length + 1)) (by omega) called halted asked ?_ rfl
        intro after outcome others halted same answered
        refine .of_running (step_answer after outcome ⟨next, false⟩ stack) ?_
        have resumed := answered.step (step_answer after outcome ⟨next, false⟩ stack)
        have back : others.tail = goals := same
        exact inductive_step outcome halted (back ▸ resumed)

/-- Frames that take no steps come to their ends one after the other. -/
theorem halts_of_frames {outcome : Outcome}
    (frames : ∀ frame ∈ stack, ∀ outcome,
      (frame.resume outcome).Uses (.stepless False) (Turn.Stepless False))
    (halted : world.Halted)
    (reached : ReachedUnsuspended options host start task world ⟨.done (.answer outcome), stack⟩
      goals) :
    Halts options host world ⟨.done (.answer outcome), stack⟩ := by
  induction stack generalizing world outcome goals with
  | nil => exact .of_finished rfl
  | cons frame outer inductive_step =>
      obtain ⟨resumes, rest⟩ := List.forall_mem_cons.mp frames
      refine .of_running (step_answer world outcome frame outer) ?_
      have resumed := reached.step (step_answer world outcome frame outer)
      refine halts_of_uses few (resumes outcome) halted resumed ?_
      exact fun _ _ _ halted _ answered => inductive_step rest halted answered

/-- A task that has no step ahead of it comes to its end. -/
theorem Orderly.halts {irq : Irq} {paused : Option Nat} {current : Task}
    (orderly : current.Orderly irq False paused 0)
    (halted : world.Halted)
    (reached : ReachedUnsuspended options host start task world current goals) :
    Halts options host world current := by
  rcases current with ⟨process, stack⟩
  rcases orderly with ⟨process, frames⟩
  cases process with
  | outside uses =>
      refine halts_of_uses few uses halted reached ?_
      exact fun _ _ _ halted _ answered => halts_of_frames few frames halted answered
  | arriving stands same apt =>
      obtain rfl := stands
      refine halts_of_endsWhenStopped (.inl trivial) halted.stopped reached ?_
      exact halts_of_frames few frames halted

end Bounded

/-- A task without a step ahead of it is not suspended any more. -/
theorem Orderly.run_ne_waiting {fuel : Nat} {next : World} {reason : Wait} {after : Task}
    (orderly : task.Orderly options.irq False world.lifecycle.pause 0)
    (halted : world.Halted) :
    task.run options host fuel world ≠ some (.waiting next reason after) := by
  intro ran
  obtain ⟨left, rests, -, advances, -⟩ := orderly.run_waiting False.elim (.inr halted.hostless) ran
  have spent := advances.spends halted.stopped
  have grown := advances.steps_le
  obtain rfl : left = 0 := by omega
  cases rests with
  | outside _ free => simp at free

/-- A task that is not held at a gate comes to where it has no step ahead of it. -/
theorem Rests.frees {reason : Option Wait} {ahead : Nat}
    (rests : task.Rests options.irq False reason ahead)
    (halted : world.Halted)
    (awake : ∀ pause, reason = some (.resumed pause) →
      options.irq.sleepsAfter world.steps = false) :
    ∃ next after, ReachedUnsuspended options host world task next after [] ∧
      after.Orderly options.irq False next.lifecycle.pause 0 ∧ next.Halted := by
  cases rests with
  | outside orderly free => exact ⟨world, task, .start, orderly _, halted⟩
  | @held given _ orderly held =>
      obtain ⟨node, scope, context, stack, rfl, noBarrier⟩ := held
      -- Whatever it has waited for, the next thing that counts is the step into the node.
      obtain ⟨next, after, reached, stepped⟩ : ∃ next after,
          ReachedUnsuspended options host world
            ⟨Evaluation.entering node scope context (given.gateway options.irq), stack⟩
            next after [] ∧ next.steps = world.steps + 1 := by
        cases given with
        | nextPoll => exact ⟨_, _, Reached.start.step rfl, rfl⟩
        | resumed pause =>
            refine ⟨_, _, reached_behindPause_of_awake (awake pause rfl), ?_⟩
            exact congrArg (· + 1) (world.steps_yielded options.irq)
      obtain ⟨left, orderly, hostless, advances⟩ :=
        reached.staysOrderly False.elim (orderly _) (.inr halted.hostless)
      have spent := advances.spends halted.stopped
      obtain rfl : left = 0 := by omega
      exact ⟨next, after, reached, orderly, hostless.resolve_left id,
        advances.lifecycle.isStopped halted.stopped⟩

end Task

/-! ## Runs -/

/-- A run that is held at a gate: by the pause that it waits for, or by the yield that follows. -/
def Run.StaysHeld (irq : Irq) (world : World) (run : Run) : Prop :=
  ∃ task pause, run.task = some task ∧ run.reason = some (.resumed pause) ∧
    (world.lifecycle.pause = some pause ∨ irq.sleepsAfter world.steps = true)

namespace Interpreter

variable {interpreter : Interpreter} {run : Run}

/-- A run that is not held at a gate is ready to go on, and comes past it. -/
theorem frees_of_not_staysHeld {task : Task}
    (orderly : run.IsOrderly interpreter.options.irq False)
    (halted : interpreter.world.Halted)
    (free : ¬ run.StaysHeld interpreter.options.irq interpreter.world)
    (underway : run.task = some task) :
    run.isReady interpreter.world.lifecycle = true ∧ ∃ next after,
      Task.ReachedUnsuspended interpreter.options interpreter.host interpreter.world task next after
        [] ∧
      after.Orderly interpreter.options.irq False next.lifecycle.pause 0 ∧ next.Halted := by
  have passes (pause : Nat) (waits : run.reason = some (.resumed pause)) :
      interpreter.world.lifecycle.pause ≠ some pause ∧
        interpreter.options.irq.sleepsAfter interpreter.world.steps = false := by
    refine ⟨fun paused => free ⟨task, pause, underway, waits, .inl paused⟩, ?_⟩
    exact eq_false_of_ne_true fun sleeps => free ⟨task, pause, underway, waits, .inr sleeps⟩
  constructor
  · rw [Run.isReady]
    split
    · rfl
    · rename_i reason waits
      cases reason with
      | nextPoll => rfl
      | resumed pause => exact bne_iff_ne.mpr (passes pause waits).1
  · exact (orderly.rests underway).frees halted fun pause waits => (passes pause waits).2

/-- When evaluation has been stopped, polling does not leave a run pending that is not held. -/
theorem poll_ne_pending {fuel : Nat} {rest : Run} {after : Interpreter}
    (orderly : run.IsOrderly interpreter.options.irq False)
    (halted : interpreter.world.Halted)
    (free : ¬ run.StaysHeld interpreter.options.irq interpreter.world) :
    interpreter.poll fuel run ≠ some (.pending rest, after) := by
  intro polled
  cases underway : run.task with
  | none =>
      rw [poll, underway] at polled
      cases polled
  | some task =>
      obtain ⟨ready, next, current, reached, orderly, halted⟩ :=
        frees_of_not_staysHeld orderly halted free underway
      rw [poll_of_ready interpreter run underway ready] at polled
      split at polled
      · cases polled
      · rename_i ran
        obtain ⟨moves, -, through⟩ := reached.exists_moves
        have later := (through fuel).symm.trans (Task.run_mono (Nat.le_add_right fuel moves) ran)
        exact orderly.run_ne_waiting halted later
      · cases polled

/-- Polling leaves a run pending that is held at a gate. -/
theorem exists_poll_pending
    (orderly : run.IsOrderly interpreter.options.irq False)
    (held : run.StaysHeld interpreter.options.irq interpreter.world) :
    ∃ fuel rest after, interpreter.poll fuel run = some (.pending rest, after) := by
  obtain ⟨task, pause, underway, waits, holds⟩ := held
  cases ready : run.isReady interpreter.world.lifecycle with
  | false =>
      refine ⟨0, run, interpreter, ?_⟩
      rw [poll, underway, ready]
      rfl
  | true =>
      have sleeps : interpreter.options.irq.sleepsAfter interpreter.world.steps = true := by
        refine holds.resolve_left fun paused => ?_
        simp [Run.isReady, waits, Wait.isOver, paused] at ready
      obtain ⟨node, scope, context, stack, rfl, noBarrier⟩ :=
        orderly.isHeld_of_resumed underway waits
      have passes := getsPast_of_behindPause underway noBarrier ready
      rw [GetsPast, if_pos sleeps] at passes
      obtain ⟨moves, suspended⟩ := passes
      exact ⟨0 + moves, _, _, suspended 0⟩

/-- When evaluation has been stopped, polling leaves a run pending if and only if it is held. -/
theorem poll_pending_iff
    (orderly : run.IsOrderly interpreter.options.irq False)
    (halted : interpreter.world.Halted) :
    (∃ fuel rest after, interpreter.poll fuel run = some (.pending rest, after)) ↔
      run.StaysHeld interpreter.options.irq interpreter.world := by
  constructor
  · rintro ⟨fuel, rest, after, polled⟩
    exact Classical.byContradiction fun free => poll_ne_pending orderly halted free polled
  · exact exists_poll_pending orderly

/--
When evaluation has been stopped, polling ends a run if and only if it is not held
and goals nest up to some bound only.
-/
theorem poll_ended_iff
    (orderly : run.IsOrderly interpreter.options.irq False)
    (halted : interpreter.world.Halted) :
    (∃ fuel verdict after, interpreter.poll fuel run = some (.ended verdict, after)) ↔
      ¬ run.StaysHeld interpreter.options.irq interpreter.world ∧
        ∃ bound, ∀ task ∈ run.task, ∀ {world current goals},
          Task.ReachedUnsuspended interpreter.options interpreter.host interpreter.world task world
            current goals → goals.length ≤ bound := by
  constructor
  · rintro ⟨fuel, verdict, after, ended⟩
    constructor
    · intro held
      obtain ⟨other, rest, between, pending⟩ := exists_poll_pending orderly held
      have first := poll_mono (Nat.le_max_left fuel other) ended
      have second := poll_mono (Nat.le_max_right fuel other) pending
      cases first.symm.trans second
    · refine ⟨fuel, fun task underway world current goals reached => ?_⟩
      rw [poll, underway] at ended
      dsimp only at ended
      split at ended
      · split at ended
        · rename_i ran
          exact reached.length_le_of_run ran
        · cases ended
        · cases ended
      · cases ended
  · rintro ⟨free, bound, few⟩
    cases underway : run.task with
    | none =>
        refine ⟨0, .ok none, interpreter, ?_⟩
        rw [poll, underway]
    | some task =>
        obtain ⟨ready, next, current, reached, orderly, halted⟩ :=
          frees_of_not_staysHeld orderly halted free underway
        obtain ⟨fuel, final, outcome, ran⟩ := orderly.halts (few task underway) halted reached
        obtain ⟨moves, -, through⟩ := reached.exists_moves
        have polled := poll_of_ready interpreter run underway ready (fuel + moves)
        rw [through, ran] at polled
        exact ⟨_, _, _, polled⟩

end Interpreter

/-! ## Sessions -/

namespace Session

variable {session : Session} {id : String} {run : Run}

theorem answer_poll_pending_iff (found : session.runs.lookup id = some run) (fuel : Nat)
    (save : Option String) :
    (∃ after, session.answer fuel (.poll id save) = some (.pending, after)) ↔
      ∃ rest after, session.interpreter.poll fuel run = some (.pending rest, after) := by
  unfold Session.answer
  dsimp only
  rw [found]
  dsimp only
  constructor
  · rintro ⟨after, answered⟩
    split at answered
    · rename_i polled
      exact ⟨_, _, polled⟩
    · rename_i verdict interpreter polled
      have shown := congrArg Prod.fst (Option.some.inj answered)
      unfold answerVerdict at shown
      split at shown <;> cases shown
    · cases answered
  · rintro ⟨rest, after, polled⟩
    rw [polled]
    exact ⟨_, rfl⟩

theorem answer_poll_verdict_iff (found : session.runs.lookup id = some run) (fuel : Nat)
    (save : Option String) :
    (∃ verdict after, session.answer fuel (.poll id save) = some (.verdict verdict, after)) ↔
      ∃ verdict after, session.interpreter.poll fuel run = some (.ended verdict, after) := by
  unfold Session.answer
  dsimp only
  rw [found]
  dsimp only
  constructor
  · rintro ⟨shown, after, answered⟩
    split at answered
    · cases answered
    · rename_i polled
      exact ⟨_, _, polled⟩
    · cases answered
  · rintro ⟨verdict, after, polled⟩
    rw [polled]
    rcases verdict with error | (_ | value) <;> exact ⟨_, _, rfl⟩

/--
What stopping releases.  In every session without functions of the host in which
evaluation has been stopped, polling a run leaves it pending if and only if it
waits at a gate for the end of a pause, and the pause is still in effect or a
yield is due after it.  Polling ends every other run, as long as goals nest up to
some bound only.
-/
theorem stopping_releases (options : Options) (host : Host)
    (constants : List (String × Datum Value)) (inputs : List String)
    (reached : (start (.create options host [] constants inputs)).Reaches session)
    (stopped : session.world.lifecycle.isStopped = true)
    (found : session.runs.lookup id = some run)
    (save : Option String) :
    ((∃ fuel after, session.answer fuel (.poll id save) = some (.pending, after)) ↔
        run.StaysHeld options.irq session.world) ∧
      ((∃ fuel verdict after,
          session.answer fuel (.poll id save) = some (.verdict verdict, after)) ↔
        ¬ run.StaysHeld options.irq session.world ∧
          ∃ bound, ∀ task ∈ run.task, ∀ {world current goals},
            Task.ReachedUnsuspended options host session.world task world current goals →
              goals.length ≤ bound) := by
  have hostless := Interpreter.hostless_create options host constants inputs
  have orderly : session.IsOrderly False :=
    reached.isOrderly ⟨False.elim, .inr hostless, nofun⟩
  have halted : session.world.Halted := ⟨orderly.hostless.resolve_left False.elim, stopped⟩
  obtain ⟨sameOptions, sameHost⟩ :
      session.interpreter.options = options ∧ session.interpreter.host = host := by
    rw [reached.interpreter]
    exact ⟨rfl, rfl⟩
  simp only [answer_poll_pending_iff found, answer_poll_verdict_iff found, ← sameOptions,
    ← sameHost]
  exact ⟨Interpreter.poll_pending_iff (orderly.of_lookup found) halted,
    Interpreter.poll_ended_iff (orderly.of_lookup found) halted⟩

/-- A session that never yields. -/
def plain : Session :=
  .start (.create (.silent 0 0) Host.none [] [] [])

/-- A session in which evaluation was stopped while a loop waited for the end of a pause. -/
def stoppedDuringPause : Session :=
  ((plain.paused.asked 40 (.start "loop" (some Interpreter.busyLoop))).asked 40
    (.poll "loop" none)).stopped

theorem reaches_stoppedDuringPause : plain.Reaches stoppedDuringPause :=
  (((Reaches.start.answer (answer_pause rfl rfl 40)).asked 40 _).asked 40 _).answer
    (answer_abort rfl rfl 40)

/-- A loop that is stopped while it waits for the end of a pause ends after the pause. -/
theorem stopping_releases_after_pause :
    let session := stoppedDuringPause.resumed
    ∃ run, session.runs.lookup "loop" = some run ∧ run.reason = some (.resumed 0) ∧
      (∃ fuel verdict after,
        session.answer fuel (.poll "loop" none) = some (.verdict verdict, after)) ∧
      ¬ run.StaysHeld plain.interpreter.options.irq session.world ∧
      ∃ bound, ∀ task ∈ run.task, ∀ {world current goals},
        Task.ReachedUnsuspended plain.interpreter.options Host.none session.world task world
          current goals → goals.length ≤ bound := by
  intro session
  obtain ⟨run, found, waits⟩ :
      ∃ run, session.runs.lookup "loop" = some run ∧ run.reason = some (.resumed 0) :=
    ⟨_, rfl, rfl⟩
  have reached : plain.Reaches session :=
    reaches_stoppedDuringPause.answer (answer_unpause rfl rfl 40)
  obtain ⟨-, ends⟩ := stopping_releases _ _ _ _ reached rfl found none
  have ended : ∃ fuel verdict after,
      session.answer fuel (.poll "loop" none) = some (.verdict verdict, after) :=
    ⟨80, _, _, rfl⟩
  exact ⟨run, found, waits, ended, ends.mp ended⟩

/-- While the pause is in effect the loop stays pending, although evaluation has been stopped. -/
theorem exists_pending_after_stopping :
    ∃ session : Session, plain.Reaches session ∧ session.world.lifecycle.isStopped = true ∧
      (session.runs.lookup "loop").isSome ∧
      ∀ fuel save, ∃ after, session.answer fuel (.poll "loop" save) = some (.pending, after) :=
  ⟨stoppedDuringPause, reaches_stoppedDuringPause, rfl, rfl, fun _ _ => ⟨_, rfl⟩⟩

end Session

end TreeScript
