import TreeScript.Proofs.ActionAgreement
import TreeScript.Proofs.Execution
import TreeScript.Proofs.Fresh
import TreeScript.Proofs.GoalComparison

/-!
# Synchronous and asynchronous evaluation

A run that must not wait and a run that may be suspended do the same: whenever
the first one ends, the second one ends in the same way, as long as the first
was not refused the promise of a function.  Both take the same steps, tell the
host the same apart from yields, and leave the same store behind.

The processes of a goal in the two modes follow each other, whatever the goal.
`Task.ends_of_follows` carries this over from processes to tasks: a task that
waits for nothing is matched by any task that follows it, step by step.
-/

namespace TreeScript

/-! ## Goals in the two modes -/

namespace Comparison

/--
Comparing synchronous evaluation with asynchronous evaluation.  Only the
refusal of a promise ends the first where the second goes on.
-/
def parity : Comparison where
  goal goal other := ∃ calls, Goal.Alike ⟨calls, .synchronous⟩ ⟨calls, .asynchronous⟩ goal other
  givesUp cause := cause = .refusedPromise
  modes mode other := mode = .synchronous ∧ other = .asynchronous

theorem contexts_parity (calls : List Call) :
    parity.Contexts ⟨calls, .synchronous⟩ ⟨calls, .asynchronous⟩ :=
  fun _ _ alike => ⟨calls, alike⟩

theorem calls_parity (options : Options) (calls : List Call) (site : Option Position) :
    parity.Calls options ⟨calls, .synchronous⟩ ⟨calls, .asynchronous⟩ site where
  calls := rfl
  modes := .apart ⟨rfl, rfl⟩ rfl
  body _ name := (contexts_parity (⟨name, site⟩ :: calls)).evaluates
  back function arguments := ⟨⟨"<native>", site⟩ :: calls, .apply function arguments none⟩

end Comparison

open Comparison (parity)

/-- The processes of a goal in the two modes follow each other. -/
theorem Evaluation.follows_ofGoal (options : Options) (host : Host) {goal other : Goal}
    (goals : parity.goal goal other) :
    Process.Follows parity (Turn.GaveUp parity) (Turn.Same parity.goal)
      (ofGoal options host goal) (ofGoal options host other) := by
  rcases goals with ⟨calls, alike⟩
  have contexts : parity.Contexts ⟨calls, .synchronous⟩ ⟨calls, .asynchronous⟩ :=
    Comparison.contexts_parity calls
  have evaluates := contexts.evaluates
  cases alike with
  | evaluate node scope =>
      exact follows_process (follows_answering
        (follows_evaluateNode options contexts rfl (.apart ⟨rfl, rfl⟩ rfl) node scope))
  | loop label statements scope =>
      exact follows_process (follows_loopTurn evaluates label statements scope
        ⟨calls, .loop label statements scope⟩)
  | times label count limit body scope =>
      exact follows_process (follows_timesTurn evaluates label count limit body scope
        ⟨calls, .times label _ limit body scope⟩)
  | range label counter count limit body scope =>
      exact follows_process (follows_rangeTurn evaluates label counter count limit body scope
        ⟨calls, .range label counter _ limit body scope⟩)
  | each label pattern array place body scope =>
      exact follows_process (follows_eachTurn evaluates label pattern array place body scope
        ⟨calls, .each label pattern array (place + 1) body scope⟩)
  | apply function arguments site =>
      exact follows_process (follows_answering
        (follows_apply options host (Comparison.calls_parity options calls site) function
          arguments))

/-! ## Tasks -/

/-- The second frame follows the first, and is not a barrier. -/
structure Frame.Follows (frame other : Frame) : Prop where
  resumes : ∀ outcome,
    Process.Follows parity (Turn.GaveUp parity) (Turn.Same parity.goal)
      (frame.resume outcome) (other.resume outcome)
  propagates : Process.Propagates parity (Turn.GaveUp parity) frame.resume
  isOpen : other.isBarrier = false

/--
The frames of one stack follow those of another.  A frame that only answers
counts for nothing.
-/
inductive Frame.FollowAll : List Frame → List Frame → Prop where
  | nil : FollowAll [] []
  | answering {isBarrier : Bool} {outer outer' : List Frame}
      (rest : FollowAll outer outer') :
      FollowAll (⟨fun outcome => .done (.answer outcome), isBarrier⟩ :: outer) outer'
  | push {frame other : Frame} {outer outer' : List Frame}
      (frames : frame.Follows other)
      (rest : FollowAll outer outer') :
      FollowAll (frame :: outer) (other :: outer')

theorem Frame.FollowAll.barrier_none {stack other : List Frame}
    (follow : FollowAll stack other) :
    Task.barrier? other = none := by
  induction follow with
  | nil => rfl
  | answering _ inductive_step => exact inductive_step
  | push frames _ inductive_step =>
      rw [Task.barrier?, frames.isOpen]
      exact inductive_step

namespace Task

variable {options : Options} {host : Host}

/-- A task that has given up ends with an error of the same kind. -/
theorem run_of_gaveUp {stack other : List Frame} (follow : Frame.FollowAll stack other)
    {turn : Turn} (gave : turn.GaveUp parity)
    {fuel : Nat} {world : World} {progress : Progress}
    (ran : run options host fuel world ⟨.done turn, stack⟩ = some progress) :
    ∃ outcome, progress = .finished world outcome ∧ Rule.GaveUp parity outcome := by
  induction follow generalizing turn fuel with
  | nil =>
      rcases turn with outcome | goal
      · cases fuel with
        | zero => cases ran
        | succ fuel =>
            cases ran
            exact ⟨outcome, rfl, gave⟩
      · exact gave.elim
  | answering _ inductive_step =>
      rcases turn with outcome | goal
      · cases fuel with
        | zero => cases ran
        | succ fuel => exact inductive_step gave ran
      · exact gave.elim
  | push frames _ inductive_step =>
      rcases turn with ((signal | error) | value) | goal
      · exact gave.elim
      · cases fuel with
        | zero => cases ran
        | succ fuel =>
            rcases frames.propagates error gave with ⟨turn, gaveAfter, ends⟩
            rw [run_of_running (step_answer world _ _ _), ends] at ran
            exact inductive_step gaveAfter ran
      · exact gave.elim
      · exact gave.elim

/-- What holds of a world keeps holding whatever is done without functions of the host. -/
def IsKept (options : Options) (kept : World → Prop) : Prop :=
  ∀ world action, Action.Hostless action → kept world → kept (world.perform options action).2

/-- Worlds in which a run that may be suspended can go on where the other is. -/
structure Together (kept : World → Prop) (world other : World) : Prop where
  alike : world.Alike other
  unpaused : other.lifecycle.pause = none
  keeps : kept other

variable {kept : World → Prop}

theorem Together.perform {world other : World} (together : Together kept world other)
    (isKept : IsKept options kept) (action : Action) (hostless : action.Hostless) :
    (world.perform options action).1 = (other.perform options action).1 ∧
      Together kept (world.perform options action).2 (other.perform options action).2 := by
  have performed := together.alike.perform options action hostless
  refine ⟨performed.1, performed.2, ?_, isKept other action hostless together.keeps⟩
  rw [(World.perform_keeps options action hostless).2.1]
  exact together.unpaused

/-- How a task ends, and how one that follows it does. -/
def EndsAlike (options : Options) (host : Host) (kept : World → Prop) (progress : Progress)
    (world : World) (task : Task) : Prop :=
  ∃ reached outcome, progress = .finished reached outcome ∧
    (Rule.GaveUp parity outcome ∨
      ∃ other, Ends options host world task other outcome ∧ Together kept reached other)

theorem EndsAlike.step {progress : Progress} {world between : World} {task next : Task}
    (running : task.step options host world = .running between next)
    (endsAlike : EndsAlike options host kept progress between next) :
    EndsAlike options host kept progress world task := by
  rcases endsAlike with ⟨reached, outcome, finished, gave | ⟨other, ends, together⟩⟩
  · exact ⟨reached, outcome, finished, .inl gave⟩
  · exact ⟨reached, outcome, finished, .inr ⟨other, .step running ends, together⟩⟩

theorem EndsAlike.resume {progress : Progress} {world : World} {task next : Task}
    (waiting : task.step options host world = .waiting world .nextPoll next)
    (endsAlike : EndsAlike options host kept progress world next) :
    EndsAlike options host kept progress world task := by
  rcases endsAlike with ⟨reached, outcome, finished, gave | ⟨other, ends, together⟩⟩
  · exact ⟨reached, outcome, finished, .inl gave⟩
  · exact ⟨reached, outcome, finished, .inr ⟨other, .resume waiting rfl ends, together⟩⟩

/--
A task that ends is matched by every task that follows it.  The induction is
on the steps of the first task, and inside it on how the processes follow each
other, since the second takes steps of its own while the first stands still.
-/
theorem ends_of_follows (isKept : IsKept options kept) {fuel : Nat} {world other : World}
    {process process' : Process Turn} {stack stack' : List Frame} {progress : Progress}
    (follows : Process.Follows parity (Turn.GaveUp parity) (Turn.Same parity.goal)
      process process')
    (follow : Frame.FollowAll stack stack')
    (together : Together kept world other)
    (ran : run options host fuel world ⟨process, stack⟩ = some progress) :
    EndsAlike options host kept progress other ⟨process', stack'⟩ := by
  induction fuel generalizing world other process process' stack stack' with
  | zero => cases ran
  | succ fuel inductive_step =>
      induction follows generalizing other with
      | @done turn turn' results =>
          rcases turn with outcome | goal <;> rcases turn' with outcome' | goal'
          · obtain rfl : outcome = outcome' := results
            cases follow with
            | nil =>
                cases ran
                exact ⟨world, outcome, rfl, .inr ⟨other, .finish rfl, together⟩⟩
            | answering rest =>
                have answers : Process.Follows parity (Turn.GaveUp parity)
                    (Turn.Same parity.goal) (.done (.answer outcome)) (.done (.answer outcome)) :=
                  .done rfl
                exact inductive_step answers rest together ran
            | push frames rest =>
                exact .step rfl (inductive_step (frames.resumes outcome) rest together ran)
          · exact results.elim
          · exact results.elim
          · exact .step rfl
              (inductive_step (Evaluation.follows_ofGoal options host results) follow together ran)
      | giveUp given =>
          rcases run_of_gaveUp follow given ran with ⟨outcome, finished, gave⟩
          exact ⟨world, outcome, finished, .inl gave⟩
      | @act action _ _ plain rest _ =>
          rcases together.perform isKept action plain.hostless with ⟨replies, worlds⟩
          have followsRest := rest _ (World.expected_perform options action together.alike.hostless)
          rw [run_of_running (step_act world action _ stack)] at ran
          refine .step (step_act other action _ stack') (inductive_step ?_ follow worlds ran)
          rw [← replies]
          exact followsRest
      | tick rest _ _ =>
          rcases together.perform isKept .tick trivial with ⟨replies, worlds⟩
          rw [run_of_running (step_act world .tick _ stack)] at ran
          refine .step (step_act other .tick _ stack') (inductive_step ?_ follow worlds ran)
          rw [← replies]
          exact rest _
      | wait modes _ _ => cases modes.1
      | call goals rest propagates _ =>
          exact .step rfl (inductive_step (Evaluation.follows_ofGoal options host goals)
            (.push ⟨rest, propagates, rfl⟩ follow) together ran)
      | drive modes _ _ _ _ => cases modes.2
      | driveCall _ goals rest propagates _ =>
          exact .step rfl (inductive_step (Evaluation.follows_ofGoal options host goals)
            (.push ⟨rest, propagates, rfl⟩ follow) together ran)
      | lookAtPause _ settled =>
          refine .step (step_act other .pause _ stack') ?_
          rw [show (other.perform options .pause).1 = none from together.unpaused]
          exact settled together ran
      | lookAtSteps _ settled => exact .step rfl (settled other.steps together ran)
      | tellYield _ settled =>
          refine .step rfl (settled ⟨?_, together.unpaused, ?_⟩ ran)
          · exact together.alike.record_yielded other.steps
          · exact isKept other .yielded trivial together.keeps
      | awaitPoll _ settled =>
          exact .resume (step_wait follow.barrier_none other .nextPoll _) (settled together ran)

end Task

/-! ## Runs -/

namespace Interpreter

/--
Two runs of an interpreter are on a par: whenever the first is completed, and
was not refused a promise, the second is completed with any sufficient fuel and
number of polls.  The verdicts are the same, and the worlds differ only in the
yields that were recorded.
-/
def OnPar (interpreter : Interpreter) (atOnce suspended : Run) : Prop :=
  ∀ (fuel polls : Nat) (verdict : Verdict) (reached : Interpreter),
    complete fuel polls interpreter atOnce = some (verdict, reached) →
    (∀ error, verdict = .error error → error.cause ≠ .refusedPromise) →
    reached = { interpreter with world := reached.world } ∧
      ∃ world enough, world.quiet = reached.world.quiet ∧
        ∀ more morePolls, enough ≤ more → enough ≤ morePolls →
          complete more morePolls interpreter suspended =
            some (verdict, { interpreter with world := world })

/-- An error that is not handed to the host is returned, and the world stays as it is. -/
theorem conclude_returning (options : Options) (outcome : Outcome) (world : World) :
    conclude options false outcome world = (outcome.expectValue.map some, world) := by
  unfold conclude
  split <;> rename_i expected <;> rw [expected] <;> rfl

theorem conclude_unreported {options : Options} (unreported : options.reportsErrors = false)
    (outcome : Outcome) (world : World) :
    conclude options true outcome world = conclude options false outcome world := by
  unfold conclude World.deliver
  rw [unreported]
  rfl

/-- A task that does not come to wait is completed by the first poll, or not at all. -/
theorem complete_start_iff (interpreter : Interpreter) {task : Task} {fuel : Nat}
    (waitless : ∀ {between reason after},
      task.run interpreter.options interpreter.host fuel interpreter.world ≠
        some (.waiting between reason after))
    (polls : Nat) (result : Verdict × Interpreter) :
    complete fuel (polls + 1) interpreter (.start task false) = some result ↔
      ∃ world outcome,
        task.run interpreter.options interpreter.host fuel interpreter.world =
            some (.finished world outcome) ∧
          result = (outcome.expectValue.map some, { interpreter with world := world }) := by
  rw [complete, poll_of_ready interpreter (.start task false) rfl rfl]
  cases ran : task.run interpreter.options interpreter.host fuel interpreter.world with
  | none => simp
  | some progress =>
      cases progress with
      | running world after => simp
      | waiting world reason after => exact (waitless ran).elim
      | finished world outcome =>
          simp only [Run.start, conclude_returning]
          constructor
          · intro ended
            exact ⟨world, outcome, rfl, (Option.some.inj ended).symm⟩
          · rintro ⟨world, outcome, finished, rfl⟩
            cases finished
            rfl

variable {interpreter : Interpreter}

/--
When a run that must not wait is completed, a task that follows its task ends in the
same way, unless the run was refused a promise.  What hostless actions keep holds in
the world that the task reaches.
-/
theorem exists_ends_of_follows {kept : World → Prop}
    (isKept : Task.IsKept interpreter.options kept)
    {process process' : Process Turn} {stack stack' : List Frame}
    (follows : Process.Follows parity (Turn.GaveUp parity) (Turn.Same parity.goal)
      process process')
    (follow : Frame.FollowAll stack stack')
    (hostless : interpreter.world.store.Hostless)
    (unpaused : interpreter.world.lifecycle.pause = none)
    (keeps : kept interpreter.world)
    {fuel polls : Nat} {verdict : Verdict} {reached : Interpreter}
    (completed : complete fuel polls interpreter (.start ⟨process, stack⟩ false) =
      some (verdict, reached))
    (notRefused : ∀ error, verdict = .error error → error.cause ≠ .refusedPromise) :
    reached = { interpreter with world := reached.world } ∧
      ∃ outcome other, verdict = outcome.expectValue.map some ∧
        Task.Ends interpreter.options interpreter.host interpreter.world ⟨process', stack'⟩ other
          outcome ∧
        other.quiet = reached.world.quiet ∧ kept other := by
  cases polls with
  | zero => cases completed
  | succ polls =>
      rw [complete, poll_of_ready interpreter (.start ⟨process, stack⟩ false) rfl rfl] at completed
      cases ran : Task.run interpreter.options interpreter.host fuel interpreter.world
          ⟨process, stack⟩ with
      | none =>
          rw [ran] at completed
          cases completed
      | some progress =>
          rw [ran] at completed
          obtain ⟨world, outcome, rfl, ended⟩ :=
            Task.ends_of_follows isKept follows follow ⟨⟨rfl, hostless⟩, unpaused, keeps⟩ ran
          obtain ⟨rfl, rfl⟩ : outcome.expectValue.map some = verdict ∧
              { interpreter with world := world } = reached := by
            simpa [Run.start, conclude_returning] using completed
          rcases ended with gave | ⟨other, ends, together⟩
          · rcases outcome with (signal | error) | value
            · exact gave.elim
            · exact (notRefused error rfl gave).elim
            · exact gave.elim
          · exact ⟨rfl, outcome, other, rfl, ends, together.alike.quiet.symm, together.keeps⟩

/-- A run of a task that ends is completed with any sufficient fuel and number of polls. -/
theorem exists_enough_of_ends {task : Task} {other : World} {outcome : Outcome}
    (ends : Task.Ends interpreter.options interpreter.host interpreter.world task other outcome)
    (delivers : Bool) :
    ∃ enough, ∀ more morePolls, enough ≤ more → enough ≤ morePolls →
      complete more morePolls interpreter (.start task delivers) =
        some ((conclude interpreter.options delivers outcome other).1,
          { interpreter with
            world := (conclude interpreter.options delivers outcome other).2 }) := by
  obtain ⟨fuel, polls, completed⟩ := complete_of_ends ends (.start task delivers) rfl rfl
  refine ⟨max fuel polls, fun more morePolls enough enoughPolls => ?_⟩
  exact complete_mono (Nat.le_trans (Nat.le_max_left fuel polls) enough)
    (Nat.le_trans (Nat.le_max_right fuel polls) enoughPolls) completed

/-- Runs of tasks that follow each other are on a par. -/
theorem onPar_of_follows {process process' : Process Turn} {stack stack' : List Frame}
    (follows : Process.Follows parity (Turn.GaveUp parity) (Turn.Same parity.goal)
      process process')
    (follow : Frame.FollowAll stack stack')
    (hostless : interpreter.world.store.Hostless)
    (unpaused : interpreter.world.lifecycle.pause = none)
    {delivers : Bool}
    (returned : ∀ outcome world,
      conclude interpreter.options delivers outcome world =
        conclude interpreter.options false outcome world) :
    interpreter.OnPar (.start ⟨process, stack⟩ false) (.start ⟨process', stack'⟩ delivers) := by
  intro fuel polls verdict reached completed notRefused
  have isKept : Task.IsKept interpreter.options fun _ => True := fun _ _ _ _ => trivial
  obtain ⟨same, outcome, other, rfl, ends, quiet, -⟩ := exists_ends_of_follows isKept follows follow
    hostless unpaused trivial completed notRefused
  obtain ⟨enough, completes⟩ := exists_enough_of_ends ends delivers
  refine ⟨same, other, enough, quiet, fun more morePolls isEnough isEnoughPolls => ?_⟩
  rw [completes more morePolls isEnough isEnoughPolls, returned, conclude_returning]

/-- An empty script is on a par with itself. -/
theorem onPar_nothing : interpreter.OnPar .nothing .nothing := by
  intro fuel polls verdict reached completed _
  cases polls with
  | zero => cases completed
  | succ polls =>
      cases completed
      refine ⟨rfl, interpreter.world, 1, rfl, ?_⟩
      intro more morePolls _ enough
      exact complete_mono (Nat.zero_le more) enough rfl

/-- The process of a script in the two modes. -/
theorem follows_script (root : Scope) (script : List Node) :
    Process.Follows parity (Turn.GaveUp parity) (Turn.Same parity.goal)
      (Evaluation.process (Evaluation.answering (Evaluation.runScript root script .synchronous)))
      (Evaluation.process
        (Evaluation.answering (Evaluation.runScript root script .asynchronous))) :=
  Evaluation.follows_process (Evaluation.follows_answering
    (Evaluation.follows_runScript (Comparison.contexts_parity []).evaluates root script))

/-- The process of a function that is called from inside a native function, in the two ways. -/
theorem follows_callBack (callee : Value) (arguments : List Value) (calls : List Call)
    (mode : Mode) :
    Process.Follows parity (Turn.GaveUp parity) (Turn.Same parity.goal)
      (Evaluation.process (Evaluation.answering
        (callBackAtOnce callee arguments ⟨calls, mode⟩)))
      (Evaluation.process (Evaluation.answering
        (callBack callee arguments ⟨calls, .asynchronous⟩))) :=
  Evaluation.follows_process (Evaluation.follows_answering
    ((Rule.follows_ofExcept callee.asFn).andThen fun function =>
      Rule.follows_drive_call ⟨rfl, rfl⟩ ⟨calls, .apply function arguments none⟩))

/--
Synchronous and asynchronous evaluation are on a par: for every script and
every interpreter that was just created without functions of the host and hands
no errors to it, and for every function that is called back from any calls, as
long as the interpreter is not paused and its natives are its own.
-/
theorem onPar_of_hostless (options : Options) (host : Host)
    (constants : List (String × Datum Value)) (inputs : List String) (script : List Node)
    (unreported : options.reportsErrors = false) :
    (create options host [] constants inputs).OnPar
        ((create options host [] constants inputs).startAtOnce script)
        ((create options host [] constants inputs).start script) ∧
      ∀ (interpreter : Interpreter) (callee : Value) (arguments : List Value) (calls : List Call)
          (mode : Mode),
        interpreter.world.store.Hostless →
        interpreter.world.lifecycle.pause = none →
        interpreter.OnPar
          (.start (.ofRule (callBackAtOnce callee arguments ⟨calls, mode⟩)) false)
          (.start (.ofRule (callBack callee arguments ⟨calls, .asynchronous⟩)) false) := by
  constructor
  · cases script with
    | nil => exact onPar_nothing
    | cons node rest =>
        exact onPar_of_follows (follows_script _ (node :: rest)) (.answering .nil)
          (hostless_create options host constants inputs) rfl (conclude_unreported unreported)
  · intro interpreter callee arguments calls mode hostless unpaused
    exact onPar_of_follows (follows_callBack callee arguments calls mode) .nil hostless unpaused
      fun _ _ => rfl

/--
A script that calls a function literal, and a function of the library that is
called back, in an interpreter with the usual depth limit.
-/
theorem onPar_of_hostless_literal :
    let interpreter := create (.silent 0 Options.defaultDepthLimit) Host.none [] [] []
    let script : List Node :=
      [.mk (.call (.mk (.function [] [.mk .null default]) default) []) default]
    let called : Run := .start (.ofRule (callBack (.fn ⟨12⟩) [.null] ⟨[], .asynchronous⟩)) false
    ∃ world world' enough, ∀ more morePolls, enough ≤ more → enough ≤ morePolls →
      complete more morePolls interpreter (interpreter.start script) =
          some (.ok (some .null), { interpreter with world := world }) ∧
        complete more morePolls interpreter called =
          some (.ok (some (.str "null")), { interpreter with world := world' }) := by
  intro interpreter script called
  have parity := onPar_of_hostless (.silent 0 Options.defaultDepthLimit) Host.none [] [] script rfl
  have ended : ∃ reached, complete 60 1 interpreter (interpreter.startAtOnce script) =
      some (.ok (some .null), reached) := ⟨_, rfl⟩
  have answered : ∃ reached, complete 20 1 interpreter
      (.start (.ofRule (callBackAtOnce (.fn ⟨12⟩) [.null] ⟨[], .asynchronous⟩)) false) =
        some (.ok (some (.str "null")), reached) := ⟨_, rfl⟩
  rcases ended with ⟨reached, completed⟩
  obtain ⟨-, world, enough, -, completes⟩ :=
    parity.1 60 1 (.ok (some .null)) reached completed (fun _ failed => by cases failed)
  rcases answered with ⟨reached, completed⟩
  obtain ⟨-, world', enough', -, answers⟩ :=
    parity.2 interpreter (.fn ⟨12⟩) [.null] [] .asynchronous (hostless_create _ _ _ _) rfl
      20 1 (.ok (some (.str "null"))) reached completed (fun _ failed => by cases failed)
  refine ⟨world, world', max enough enough', fun more morePolls fuel polls => ⟨?_, ?_⟩⟩
  · exact completes more morePolls (Nat.le_trans (Nat.le_max_left _ _) fuel)
      (Nat.le_trans (Nat.le_max_left _ _) polls)
  · exact answers more morePolls (Nat.le_trans (Nat.le_max_right _ _) fuel)
      (Nat.le_trans (Nat.le_max_right _ _) polls)

end Interpreter

end TreeScript
