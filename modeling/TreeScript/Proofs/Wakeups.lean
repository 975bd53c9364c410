import TreeScript.Proofs.OrderlySessions

/-!
# No wake-up is lost

A run that waits for the end of a pause waits for this one pause, by its number.
Pauses that begin later have numbers of their own, so they do not hold it: once
the pause has ended, the run gets past it when it is polled next, however often
evaluation has been paused and resumed meanwhile.

`Lifecycle.ended` counts the pauses that have ended.  Every resumption that takes
effect adds one to it, whoever causes it, and nothing else does
(`Lifecycle.ended_enter`).
-/

namespace TreeScript

/-- Whether a yield suspends what yields. -/
def Sleep.suspends : Sleep → Bool
  | .timed _ => true
  | .custom suspends => suspends

/-- Whether asynchronous evaluation is suspended for a yield before the step after `steps`. -/
def Irq.sleepsAfter (irq : Irq) (steps : Nat) : Bool :=
  irq.isDue steps && irq.sleep.suspends

/-- A world after the yield that is due in it, if one is. -/
def World.yielded (irq : Irq) (world : World) : World :=
  if irq.isDue world.steps then
    match irq.sleep with
    | .timed _ => world
    | .custom _ => world.record (.yielded world.steps)
  else world

theorem World.steps_yielded (irq : Irq) (world : World) :
    (world.yielded irq).steps = world.steps := by
  unfold yielded
  split
  · split <;> rfl
  · rfl

/-! ## Behind a pause -/

namespace Task

variable {options : Options} {host : Host} {irq : Irq} {world : World} {node : Node}
  {scope : Scope} {context : Context} {stack : List Frame}

/-- A task that is behind a pause. -/
def behindPause (irq : Irq) (node : Node) (scope : Scope) (context : Context)
    (stack : List Frame) : Task :=
  ⟨Evaluation.entering node scope context (Evaluation.yieldWhenDue irq), stack⟩

/-- A task that is behind a pause looks whether a yield is due. -/
theorem run_behindPause (fuel : Nat) :
    (behindPause irq node scope context stack).run options host (fuel + 1) world =
      run options host fuel world ⟨Evaluation.entering node scope context (
        if irq.isDue world.steps then Evaluation.yieldNow irq.sleep else pure ()), stack⟩ :=
  run_of_running rfl fuel

/-- Behind a pause a task is suspended for a yield, if that is due and suspends. -/
theorem run_behindPause_of_sleeps (noBarrier : barrier? stack = none)
    (sleeps : irq.sleepsAfter world.steps = true) :
    ∃ moves, ∀ fuel,
      (behindPause irq node scope context stack).run options host (fuel + moves) world =
        some (.waiting (world.yielded irq) .nextPoll
          ⟨Evaluation.entering node scope context (pure ()), stack⟩) := by
  obtain ⟨due, suspends⟩ := Bool.and_eq_true_iff.mp sleeps
  rw [World.yielded, if_pos due]
  cases found : irq.sleep with
  | timed milliseconds =>
      refine ⟨2, fun fuel => ?_⟩
      rw [run_behindPause, if_pos due, found]
      exact run_of_waiting (step_wait noBarrier _ _ _) fuel
  | custom waits =>
      obtain rfl : waits = true := by simpa [found, Sleep.suspends] using suspends
      refine ⟨3, fun fuel => ?_⟩
      rw [run_behindPause, if_pos due, found, run_of_running rfl]
      exact run_of_waiting (step_wait noBarrier _ _ _) fuel

/-- Behind a pause a task takes its step, unless it is suspended for a yield. -/
theorem reached_behindPause_of_awake (awake : irq.sleepsAfter world.steps = false) :
    Reached options host (fun _ _ => False) world (behindPause irq node scope context stack)
      ((world.yielded irq).tick options).2
      ⟨Evaluation.inside node scope context ((world.yielded irq).tick options).1, stack⟩ [] := by
  have looked : Reached options host (fun _ _ => False) world
      (behindPause irq node scope context stack) world
      ⟨Evaluation.entering node scope context (
        if irq.isDue world.steps then Evaluation.yieldNow irq.sleep else pure ()), stack⟩ [] :=
    Reached.start.step rfl
  cases due : irq.isDue world.steps with
  | false =>
      rw [due] at looked
      rw [World.yielded, due]
      exact looked.step rfl
  | true =>
      rw [Irq.sleepsAfter, due, Bool.true_and] at awake
      rw [due] at looked
      rw [World.yielded, due]
      cases found : irq.sleep with
      | timed milliseconds =>
          rw [found] at awake
          cases awake
      | custom waits =>
          obtain rfl : waits = false := by simpa [found, Sleep.suspends] using awake
          rw [found] at looked
          have told : Reached options host (fun _ _ => False) world
              (behindPause irq node scope context stack) (world.record (.yielded world.steps))
              ⟨Evaluation.entering node scope context (pure ()), stack⟩ [] := looked.step rfl
          exact told.step rfl

end Task

/-! ## Runs that wait for the end of a pause -/

namespace Interpreter

variable {interpreter after : Interpreter} {hosted : Prop} {fuel pause : Nat} {run rest : Run}

/-- What is suspended is under way. -/
theorem exists_task_of_poll (polled : interpreter.poll fuel run = some (.pending rest, after)) :
    ∃ task, rest.task = some task := by
  unfold poll at polled
  split at polled
  · cases polled
  · rename_i task underway
    split at polled
    · split at polled <;> cases polled
      exact ⟨_, rfl⟩
    · cases polled
      exact ⟨task, underway⟩

/-- A run is suspended for a pause only while the pause is in effect. -/
theorem pause_of_poll
    (guests : hosted → interpreter.host.IsStepless)
    (hostless : hosted ∨ interpreter.world.store.Hostless)
    (orderly : run.IsOrderly interpreter.options.irq hosted)
    (polled : interpreter.poll fuel run = some (.pending rest, after))
    (waits : rest.reason = some (.resumed pause)) :
    after.world.lifecycle.pause = some pause := by
  cases underway : run.task with
  | none =>
      rw [poll, underway] at polled
      cases polled
  | some task =>
      cases ready : run.isReady interpreter.world.lifecycle with
      | false =>
          rw [poll, underway, ready] at polled
          cases polled
          simpa [Run.isReady, waits, Wait.isOver] using ready
      | true =>
          have task := (orderly.rests underway).orderly interpreter.world.lifecycle.pause
          rw [poll_of_ready interpreter run underway ready] at polled
          split at polled
          · cases polled
          · rename_i ran
            obtain ⟨left, -, -, -, paused⟩ := task.run_waiting guests hostless ran
            cases polled
            exact paused pause (Option.some.inj waits)
          · cases polled

/--
Polling a run that is behind a pause gets it past: it is suspended for a yield, if
that is due and suspends, and otherwise takes its step and goes on inside the
node that it stood in front of.
-/
def GetsPast (interpreter : Interpreter) (run : Run) (node : Node) (scope : Scope)
    (context : Context) (stack : List Frame) : Prop :=
  let options := interpreter.options
  let world := interpreter.world.yielded options.irq
  if options.irq.sleepsAfter interpreter.world.steps then
    ∃ moves, ∀ fuel, interpreter.poll (fuel + moves) run =
      some (.pending ⟨some ⟨Evaluation.entering node scope context (pure ()), stack⟩,
        some .nextPoll, run.delivers⟩, { interpreter with world := world })
  else
    ∃ moves, ∀ fuel, interpreter.poll (fuel + moves) run =
      { interpreter with world := (world.tick options).2 }.poll fuel
        (.start ⟨Evaluation.inside node scope context (world.tick options).1, stack⟩ run.delivers)

theorem getsPast_of_behindPause {node : Node} {scope : Scope} {context : Context}
    {stack : List Frame}
    (underway : run.task = some (.behindPause interpreter.options.irq node scope context stack))
    (noBarrier : Task.barrier? stack = none)
    (ready : run.isReady interpreter.world.lifecycle = true) :
    interpreter.GetsPast run node scope context stack := by
  have polled := poll_of_ready interpreter run underway ready
  unfold GetsPast
  dsimp only
  split
  · rename_i sleeps
    obtain ⟨moves, ran⟩ := Task.run_behindPause_of_sleeps noBarrier sleeps
    refine ⟨moves, fun fuel => ?_⟩
    rw [polled, ran]
  · rename_i awake
    obtain ⟨moves, -, ran⟩ :=
      (Task.reached_behindPause_of_awake (eq_false_of_ne_true awake)).exists_moves
    refine ⟨moves, fun fuel => ?_⟩
    rw [polled, ran]
    let stepped := (interpreter.world.yielded interpreter.options.irq).tick interpreter.options
    let inside := Run.start ⟨Evaluation.inside node scope context stepped.1, stack⟩ run.delivers
    exact (poll_of_ready { interpreter with world := stepped.2 } inside rfl rfl fuel).symm

end Interpreter

/-! ## Sessions -/

namespace Session

variable {options : Options} {host : Host} {session begun later : Session} {id : String}
  {pause : Nat} {run : Run}

/--
No wake-up is lost.  In every session, when polling a run leaves it waiting for
the end of a pause, and whatever the session is asked from then on that names
other runs or none: the run can go on if and only if some pause has ended
meanwhile, also if evaluation is paused again.  If it can go on then polling it
next gets it past, into a yield or into the node that it stands in front of.
-/
theorem no_wakeup_is_lost
    (guests : host.IsStepless)
    {hostNames : List String} {constants : List (String × Datum Value)} {inputs : List String}
    (reached : (start (.create options host hostNames constants inputs)).Reaches session)
    {fuel : Nat} {save : Option String}
    (polled : session.answer fuel (.poll id save) = some (.pending, begun))
    (found : begun.runs.lookup id = some run)
    (waits : run.reason = some (.resumed pause))
    (beside : begun.ReachesBeside id later) :
    later.runs.lookup id = some run ∧
      (run.isReady later.world.lifecycle = true ↔
        begun.world.lifecycle.ended < later.world.lifecycle.ended) ∧
      ∃ node scope context stack,
        run.task = some (.behindPause options.irq node scope context stack) ∧
          (begun.world.lifecycle.ended < later.world.lifecycle.ended →
            later.interpreter.GetsPast run node scope context stack) := by
  have orderly : session.IsOrderly True := reached.isOrderly (isOrderly_start guests)
  have reachedBegun := reached.answer polled
  have stillFound : later.runs.lookup id = some run := beside.lookup.trans found
  -- The run was suspended by this poll, so its pause was in effect then.
  obtain ⟨inEffect, task, underway⟩ :
      begun.world.lifecycle.pause = some pause ∧ ∃ task, run.task = some task := by
    cases course_of_answer World.upkeep_any polled with
    | tended noPoll tended => cases noPoll
    | launched noPoll tended launches remembered => cases noPoll
    | completed noPoll tended starts completed world runs => cases noPoll
    | unknown missing => cases missing.symm.trans found
    | @suspended _ _ before rest interpreter known suspended =>
        cases (lookup_remember_self { session with interpreter := interpreter } id rest).symm.trans
          found
        exact ⟨Interpreter.pause_of_poll orderly.guests orderly.hostless (orderly.of_lookup known)
          suspended waits, Interpreter.exists_task_of_poll suspended⟩
    | ended known ended world runs =>
        rw [runs] at found
        cases (lookup_forget_self session id).symm.trans found
  have numbered : begun.world.lifecycle.IsNumbered :=
    (reachedBegun.evolves.ended_le Lifecycle.isNumbered_initial).1
  have ready : run.isReady later.world.lifecycle = true ↔
      begun.world.lifecycle.ended < later.world.lifecycle.ended := by
    rw [Run.isReady, waits]
    exact beside.reaches.evolves.isOver_iff numbered inEffect
  refine ⟨stillFound, ready, ?_⟩
  -- A run that waits for the end of a pause stands at the gate in front of a node.
  obtain ⟨node, scope, context, stack, rfl, noBarrier⟩ :=
    ((orderly.answer polled).of_lookup found).isHeld_of_resumed underway waits
  have sameBegun : begun.interpreter.options = options := by
    rw [reachedBegun.interpreter]
    rfl
  have sameLater : later.interpreter.options = options := by
    rw [beside.reaches.interpreter]
    exact sameBegun
  refine ⟨node, scope, context, stack, ?_, fun resumed => ?_⟩
  · rw [underway, sameBegun]
    rfl
  · refine Interpreter.getsPast_of_behindPause ?_ noBarrier (ready.mpr resumed)
    rw [underway, sameLater, sameBegun]
    rfl

/-- A session after a resumption that no handler waits for. -/
def resumed (session : Session) : Session :=
  session.withWorld
    { session.world with lifecycle := { session.world.lifecycle with pause := none } }

theorem answer_unpause (paused : session.world.lifecycle.pause = some pause)
    (unattended : session.world.lifecycle.onUnpause = []) (fuel : Nat) :
    session.answer fuel (.transition .unpause) = some (.silent, session.resumed) := by
  rcases session with ⟨⟨options, host, root, world⟩, runs, saved⟩
  rcases world with ⟨store, steps, ⟨isStopped, pause, pauses, onAbort, onPause, onUnpause⟩, rest⟩
  cases paused
  cases unattended
  simp [Session.answer, World.transition, Lifecycle.transition, Lifecycle.enter, Lifecycle.settle,
    Lifecycle.isPaused, Lifecycle.take, Lifecycle.waiting, Lifecycle.withWaiting, resumed,
    withWorld, Session.world]

/--
A run that waits for the end of a pause.  Evaluation is resumed and paused again
before it is polled, and it gets past all the same.
-/
theorem no_wakeup_is_lost_paused_again :
    let poll : Request := .poll "negation" none
    let waiting := (yielding.paused.asked 40 (.start "negation" (some negation))).asked 40 poll
    let later := waiting.resumed.paused
    ∃ run, waiting.runs.lookup "negation" = some run ∧ run.reason = some (.resumed 0) ∧
      later.world.lifecycle.pause = some 1 ∧ run.isReady later.world.lifecycle = true ∧
      ∃ node scope context stack, later.interpreter.GetsPast run node scope context stack := by
  intro poll waiting later
  have reached : yielding.Reaches (yielding.paused.asked 40 (.start "negation" (some negation))) :=
    (Reaches.start.answer (answer_pause rfl rfl 40)).asked 40 _
  obtain ⟨run, found, waits⟩ :
      ∃ run, waiting.runs.lookup "negation" = some run ∧ run.reason = some (.resumed 0) :=
    ⟨_, rfl, rfl⟩
  have beside : waiting.ReachesBeside "negation" later :=
    (ReachesBeside.start.answer (by nofun) (answer_unpause rfl rfl 40)).answer (by nofun)
      (answer_pause rfl rfl 40)
  have polled : (yielding.paused.asked 40 (.start "negation" (some negation))).answer 40 poll =
      some (.pending, waiting) := rfl
  obtain ⟨-, ready, node, scope, context, stack, -, getsPast⟩ :=
    no_wakeup_is_lost Host.isStepless_none reached polled found waits beside
  exact ⟨run, found, waits, rfl, ready.mpr (by decide), node, scope, context, stack,
    getsPast (by decide)⟩

end Session

end TreeScript
