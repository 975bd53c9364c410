import TreeScript.Proofs.Relays
import TreeScript.Proofs.Reach

/-!
# Fatal errors

An error that the innermost goal of a script answers with goes outward through the goals
around it, and nothing else is evaluated on the way.  It gets as far as the innermost
entry point that was made from inside the script, if the host wants to hear of errors:
the entry point delivers it and answers with a value, and the script goes on.  Otherwise
it ends the script.  What a cause calls fatal makes no difference to this.

So a fatal error ends the execution if and only if no entry point is around it, or the
host does not hear of errors (`Interpreter.fatal_errors_end_execution`); otherwise the
execution may complete with a value (`Interpreter.exists_value_after_fatal_error`).
-/

namespace TreeScript

open Evaluation

variable {causes : Cause → Prop}

/-! ## What works on a goal -/

/-- How the process of the innermost of some goals may end, or the script around them. -/
def Turn.EndsIn : List Goal → Turn → Prop
  | [], turn => turn.IsAnswer
  | _ :: _, _ => True

/-- A process of an entry point. -/
inductive Process.IsEntry : Process Turn → Prop where
  | call (goal : Goal) : IsEntry (.call goal endEntry)
  | answer (outcome : Outcome) : IsEntry (.done (.answer outcome))
  | deliver (error : Error) :
      IsEntry (.act (.deliver error) fun returned => .done (.answer (afterDelivery returned)))

/-- A process that works on the innermost of some goals, or on the script around them. -/
inductive Process.WorksOn (causes : Cause → Prop) : List Goal → Process Turn → Prop where
  | entry {goal : Goal} {outer : List Goal} {process : Process Turn}
      (atEntry : goal.IsEntry)
      (entry : process.IsEntry) :
      WorksOn causes (goal :: outer) process
  | relay {goals : List Goal} {process : Process Turn}
      (noEntry : ∀ goal ∈ goals.head?, ¬ goal.IsEntry)
      (relays : process.Relays causes Turn.failed (Turn.EndsIn goals)) :
      WorksOn causes goals process

/-- A frame that goes on with the innermost of some goals, or with the script around them. -/
inductive Frame.WorksOn (causes : Cause → Prop) : List Goal → Frame → Prop where
  | entry {goal : Goal} {outer : List Goal}
      (atEntry : goal.IsEntry) :
      WorksOn causes (goal :: outer) ⟨endEntry, false⟩
  | relay {goals : List Goal} {frame : Frame}
      (noEntry : ∀ goal ∈ goals.head?, ¬ goal.IsEntry)
      (rest : ∀ outcome, (frame.resume outcome).Relays causes Turn.failed (Turn.EndsIn goals))
      (passes : Process.PassesOn causes Turn.failed frame.resume) :
      WorksOn causes goals frame

/-- The frames below some goals: that of each goal belongs to the goal around it. -/
inductive Frame.WorkOn (causes : Cause → Prop) : List Frame → List Goal → Prop where
  | foot : WorkOn causes [] []
  | barrier : WorkOn causes [⟨fun outcome => .done (.answer outcome), true⟩] []
  | push {frame : Frame} {outer : List Frame} {goal : Goal} {goals : List Goal}
      (works : frame.WorksOn causes goals)
      (rest : WorkOn causes outer goals) :
      WorkOn causes (frame :: outer) (goal :: goals)

/-- A task that works on some goals, and passes errors on outside of entry points. -/
structure Task.WorksOn (causes : Cause → Prop) (task : Task) (goals : List Goal) : Prop where
  process : task.process.WorksOn causes goals
  frames : Frame.WorkOn causes task.stack goals

theorem Process.isEntry_endEntry (outcome : Outcome) : (endEntry outcome).IsEntry := by
  unfold endEntry
  split
  · exact .answer _
  · exact .deliver _

theorem Frame.WorksOn.resume {frame : Frame} {goals : List Goal}
    (works : frame.WorksOn causes goals) (outcome : Outcome) :
    (frame.resume outcome).WorksOn causes goals := by
  cases works with
  | entry atEntry => exact .entry atEntry (Process.isEntry_endEntry outcome)
  | relay noEntry rest _ => exact .relay noEntry (rest outcome)

/-- The frame at the foot of a synchronous script belongs to the script. -/
theorem Frame.worksOn_barrier :
    Frame.WorksOn causes [] ⟨fun outcome => .done (.answer outcome), true⟩ :=
  .relay nofun (fun _ => .done trivial) fun error _ => ⟨error, rfl, rfl⟩

/-- The process of a goal works on it. -/
theorem Evaluation.worksOn_ofGoal (options : Options) {host : Host}
    (guests : host.Relays causes) (goal : Goal) (outer : List Goal) :
    (ofGoal options host goal).WorksOn causes (goal :: outer) := by
  cases goal with
  | enter callee arguments mode =>
      refine .entry trivial ?_
      rw [ofGoal_enter, entryCall]
      split
      · exact .call _
      · exact Process.isEntry_endEntry _
  | _ =>
      refine .relay ?_ (relays_ofGoal options guests id)
      rintro other ⟨⟩
      exact id

/-- Unwinding to a barrier leaves the frames of the goals that are left. -/
theorem Frame.WorkOn.unwind {stack outer : List Frame} {frame : Frame} {goals : List Goal}
    (work : Frame.WorkOn causes stack goals)
    (found : Task.barrier? stack = some (frame, outer)) :
    outer.length < stack.length ∧
      frame.WorksOn causes (goals.drop (stack.length - outer.length)) ∧
      Frame.WorkOn causes outer (goals.drop (stack.length - outer.length)) := by
  induction work with
  | foot => cases found
  | barrier =>
      cases found
      exact ⟨Nat.zero_lt_one, Frame.worksOn_barrier, .foot⟩
  | @push top rest goal goals works work inductive_step =>
      refine ⟨Task.length_of_barrier? found, ?_⟩
      rcases Task.barrier?_cons goal goals found with ⟨rfl, rfl, left⟩ | ⟨below, left⟩
      · rw [left]
        exact ⟨works, work⟩
      · rw [left]
        exact (inductive_step below).2

/-! ## States -/

namespace Task

variable {options : Options} {host : Host} {world next : World} {task after : Task}
variable {goals : List Goal}

theorem WorksOn.act {action : Action} {continuation : action.Reply → Process Turn}
    {stack : List Frame} (works : WorksOn causes ⟨.act action continuation, stack⟩ goals)
    (reply : action.Reply) :
    WorksOn causes ⟨continuation reply, stack⟩ goals := by
  obtain ⟨works, frames⟩ := works
  refine ⟨?_, frames⟩
  cases works with
  | entry atEntry entry =>
      cases entry
      exact .entry atEntry (.answer _)
  | relay noEntry relays =>
      cases relays with
      | act rest => exact .relay noEntry (rest reply)

theorem WorksOn.ask {goal : Goal} {resume : Outcome → Process Turn} {isBarrier : Bool}
    {stack : List Frame} (guests : host.Relays causes)
    (works : Frame.WorksOn causes goals ⟨resume, isBarrier⟩)
    (frames : Frame.WorkOn causes stack goals) :
    WorksOn causes ⟨ofGoal options host goal, ⟨resume, isBarrier⟩ :: stack⟩ (goal :: goals) :=
  ⟨worksOn_ofGoal options guests goal goals, .push works frames⟩

theorem WorksOn.step (works : task.WorksOn causes goals) (guests : host.Relays causes)
    (running : task.step options host world = .running next after) :
    after.WorksOn causes (task.goalsAfter goals) := by
  rcases task with ⟨process, stack⟩
  have frames := works.frames
  cases process with
  | act action continuation =>
      cases running
      exact works.act _
  | wait reason rest =>
      cases found : barrier? stack with
      | none =>
          rw [step_wait found] at running
          cases running
      | some barrier =>
          rw [step_wait_barrier found] at running
          cases running
          obtain ⟨-, worksThere, workThere⟩ := frames.unwind found
          simp only [goalsAfter, found]
          exact ⟨worksThere.resume _, workThere⟩
  | done turn =>
      cases turn with
      | answer outcome =>
          cases frames with
          | foot => cases running
          | barrier =>
              cases running
              exact ⟨Frame.worksOn_barrier.resume outcome, .foot⟩
          | push worksThere rest =>
              cases running
              exact ⟨worksThere.resume outcome, rest⟩
      | again goal =>
          cases running
          cases frames with
          | foot | barrier =>
              cases works.process with
              | relay _ relays =>
                  cases relays with
                  | done ended => exact ended.elim
          | push worksThere rest =>
              exact ⟨worksOn_ofGoal options guests goal _, .push worksThere rest⟩
  | call goal continuation =>
      cases running
      refine .ask guests ?_ frames
      cases works.process with
      | entry atEntry entry =>
          cases entry
          exact .entry atEntry
      | relay noEntry relays =>
          cases relays with
          | call rest passes => exact .relay noEntry rest passes
  | drive goal continuation =>
      cases running
      refine .ask guests ?_ frames
      cases works.process with
      | entry _ entry => cases entry
      | relay noEntry relays =>
          cases relays with
          | drive rest passes => exact .relay noEntry rest passes

theorem worksOn_ofScript (root : Scope) (script : List Node) (mode : Mode) :
    (ofScript root script mode).WorksOn causes [] := by
  have relays : (Evaluation.process (answering (runScript root script mode))).Relays causes
      Turn.failed Turn.IsAnswer := relays_script root script mode
  cases mode with
  | asynchronous => exact ⟨.relay nofun relays, .foot⟩
  | synchronous => exact ⟨.relay nofun relays, .barrier⟩

/-- Every state that a script reaches works on the goals under way. -/
theorem Reached.worksOn {meanwhile : World → World → Prop} {start : World} {root : Scope}
    {script : List Node} {mode : Mode}
    (reached : Reached options host meanwhile start (ofScript root script mode) world task goals)
    (guests : host.Relays causes) :
    task.WorksOn causes goals := by
  induction reached with
  | start => exact worksOn_ofScript root script mode
  | step _ running inductive_step => exact inductive_step.step guests running
  | resume _ waiting _ inductive_step =>
      obtain ⟨-, rest, stack, rfl, rfl⟩ := eq_of_waiting waiting
      refine ⟨?_, inductive_step.frames⟩
      cases inductive_step.process with
      | entry _ entry => cases entry
      | relay noEntry relays =>
          cases relays with
          | wait rest => exact .relay noEntry rest

/-! ## Errors on their way out -/

/-- A task that answers with an error. -/
def failing (error : Error) (stack : List Frame) : Task :=
  ⟨.done (Turn.failed error), stack⟩

/-- An error gets through the frame of a goal that is no entry point. -/
theorem goesOn_frame {frame : Frame} (works : frame.WorksOn causes goals)
    (noEntry : ∀ goal ∈ goals.head?, ¬ goal.IsEntry) {error : Error} (given : causes error.cause)
    (world : World) (outer : List Frame) :
    ∃ later : Error, later.cause = error.cause ∧
      GoesOn options host world (failing error (frame :: outer)) world (failing later outer) := by
  cases works with
  | entry atEntry => exact (noEntry _ rfl atEntry).elim
  | relay _ _ passes =>
      obtain ⟨later, same, ends⟩ := passes error given
      refine ⟨later, same, .step (step_answer world _ frame outer) ?_⟩
      rw [ends]
      exact .refl _ _

/-- An entry point delivers the error of its call. -/
theorem goesOn_entry (error : Error) (world : World) (outer : List Frame) :
    GoesOn options host world (failing error (⟨endEntry, false⟩ :: outer))
      (world.deliver options error).2
      ⟨.done (.answer (afterDelivery (world.deliver options error).1)), outer⟩ :=
  .step (step_answer world _ _ outer) (.step (step_act world (.deliver error) _ outer) (.refl _ _))

/-- An error ends the script if no entry point around it hands it to the host. -/
theorem goesOn_to_end {stack : List Frame} (frames : Frame.WorkOn causes stack goals)
    (unheard : options.reportsErrors = true → ∀ goal ∈ goals.tail, ¬ goal.IsEntry)
    {error : Error} (given : causes error.cause) (world : World) :
    ∃ final : Error, final.cause = error.cause ∧
      GoesOn options host world (failing error stack) world (failing final []) := by
  induction frames generalizing error with
  | foot => exact ⟨error, rfl, .refl _ _⟩
  | barrier => exact ⟨error, rfl, .step (step_answer world _ _ []) (.refl _ _)⟩
  | @push frame outer goal goals works rest inductive_step =>
      have unheardOutside : options.reportsErrors = true →
          ∀ goal ∈ goals.tail, ¬ goal.IsEntry :=
        fun reports goal mem => unheard reports goal (List.mem_of_mem_tail mem)
      have passed : ∃ later : Error, later.cause = error.cause ∧
          GoesOn options host world (failing error (frame :: outer)) world
            (failing later outer) := by
        cases works with
        | @entry entry around atEntry =>
            have silent : options.reportsErrors = false := by
              rw [← Bool.not_eq_true]
              exact fun reports => unheard reports entry List.mem_cons_self atEntry
            have returned : world.deliver options error = (some error, world) := by
              rw [World.deliver, if_neg (by simp [silent])]
            have goesOn : GoesOn options host world (failing error (⟨endEntry, false⟩ :: outer))
                (world.deliver options error).2
                ⟨.done (.answer (afterDelivery (world.deliver options error).1)), outer⟩ :=
              goesOn_entry error world outer
            rw [returned] at goesOn
            exact ⟨error, rfl, goesOn⟩
        | relay noEntry restOf passes =>
            exact goesOn_frame (.relay noEntry restOf passes) noEntry given world outer
      obtain ⟨later, same, goesOn⟩ := passed
      obtain ⟨final, sameFinal, goesOnToEnd⟩ := inductive_step unheardOutside (same ▸ given)
      exact ⟨final, sameFinal.trans same, goesOn.trans goesOnToEnd⟩

/-- An error gets as far as the innermost entry point around it. -/
theorem goesOn_to_entry {stack : List Frame} {inner outer : List Goal} {first entry : Goal}
    (frames : Frame.WorkOn causes stack (first :: (inner ++ entry :: outer)))
    (noEntry : ∀ goal ∈ inner, ¬ goal.IsEntry) (atEntry : entry.IsEntry)
    {error : Error} (given : causes error.cause) (world : World) :
    ∃ final : Error, final.cause = error.cause ∧
      GoesOn options host world (failing error stack) (world.deliver options final).2
        ⟨.done (.answer (afterDelivery (world.deliver options final).1)),
          stack.drop (inner.length + 1)⟩ := by
  induction inner generalizing first stack error with
  | nil =>
      cases frames with
      | push works rest =>
          cases works with
          | entry => exact ⟨error, rfl, goesOn_entry error world _⟩
          | relay otherwise => exact (otherwise entry rfl atEntry).elim
  | cons goal inner inductive_step =>
      cases frames with
      | push works rest =>
          obtain ⟨outside, noEntryInside⟩ := List.forall_mem_cons.mp noEntry
          have through : ∀ other ∈ (goal :: (inner ++ entry :: outer)).head?, ¬ other.IsEntry := by
            rintro other ⟨⟩
            exact outside
          obtain ⟨later, same, goesOn⟩ := goesOn_frame works through given world _
          obtain ⟨final, sameFinal, delivered⟩ :=
            inductive_step rest noEntryInside (same ▸ given)
          exact ⟨final, sameFinal.trans same, goesOn.trans delivered⟩

/-- What wants to wait where it must not goes on with a fatal error. -/
theorem WorksOn.refused (works : task.WorksOn (fun cause => cause.isFatal = true) goals)
    {frame : Frame} {outer : List Frame} (found : barrier? task.stack = some (frame, outer)) :
    ∃ error : Error, error.cause.isFatal = true ∧
      frame.resume cannotWait = .done (Turn.failed error) := by
  obtain ⟨-, works, -⟩ := works.frames.unwind found
  have isBarrier := isBarrier_of_barrier? found
  generalize goals.drop _ = around at works
  cases works with
  | entry => cases isBarrier
  | relay _ _ passes =>
      obtain ⟨error, same, ends⟩ := passes (.of (.hostSide _)) rfl
      refine ⟨error, ?_, ends⟩
      rw [same]
      rfl

end Task

namespace Interpreter

/-- How an execution that ended with an error is concluded. -/
theorem conclude_error (options : Options) (delivers : Bool) (error : Error) (world : World) :
    conclude options delivers (.error (.error error)) world =
      if delivers && options.reportsErrors then (.ok none, (world.deliver options error).2)
      else (.error error, world) := by
  unfold conclude World.deliver
  cases delivers <;> cases options.reportsErrors <;> cases options.abortOnError <;>
    cases world.lifecycle.isStopped <;> rfl

/-- An execution that has got to its last error ends with it when it is polled on. -/
theorem poll_of_goesOn (interpreter : Interpreter) {task : Task} {final : Error}
    (goesOn : Task.GoesOn interpreter.options interpreter.host interpreter.world task
      interpreter.world (Task.failing final [])) :
    ∃ enough, ∀ fuel delivers, interpreter.poll (fuel + enough) (.start task delivers) =
      some (if delivers && interpreter.options.reportsErrors then
          (.ended (.ok none),
            { interpreter with
              world := (interpreter.world.deliver interpreter.options final).2 })
        else (.ended (.error final), interpreter)) := by
  obtain ⟨enough, ends⟩ := goesOn.run_eq
  refine ⟨enough, fun fuel delivers => ?_⟩
  have concluded := conclude_error interpreter.options delivers final interpreter.world
  simp only [poll, Run.start, Run.isReady, ends, if_true]
  rw [concluded]
  split <;> rfl

/--
A fatal error that a state of a script answers with: without an entry point around it that
hands errors to the host, it ends the execution, and the host or the caller is given it.
Otherwise the innermost such entry point delivers it and answers with a value, with which
the script goes on.  Something that wants to wait where it must not is a fatal error too.
-/
theorem fatal_errors_end_execution {interpreter : Interpreter}
    (guests : interpreter.host.Relays fun cause => cause.isFatal = true)
    {meanwhile : World → World → Prop} {script : List Node} {mode : Mode} {world : World}
    {task : Task} {goals : List Goal}
    (reached : Task.Reached interpreter.options interpreter.host meanwhile interpreter.world
      (Task.ofScript interpreter.root script mode) world task goals) :
    let options := interpreter.options
    let here : Interpreter := { interpreter with world := world }
    (∀ error : Error, error.cause.isFatal = true →
      task.process = .done (.answer (.error (.error error))) →
      ((options.reportsErrors = true → ∀ goal ∈ goals.tail, ¬ goal.IsEntry) →
        ∃ final : Error, final.cause = error.cause ∧ ∃ enough, ∀ fuel delivers,
          here.poll (fuel + enough) (.start task delivers) =
            some (if delivers && options.reportsErrors then
                (.ended (.ok none),
                  { interpreter with world := (world.deliver options final).2 })
              else (.ended (.error final), here))) ∧
      (options.reportsErrors = true →
        ∀ (inner outer : List Goal) (callee : Value) (arguments : List Value) (entryMode : Mode),
          goals.tail = inner ++ .enter callee arguments entryMode :: outer →
          (∀ goal ∈ inner, ¬ goal.IsEntry) →
          ∃ final : Error, final.cause = error.cause ∧ ∃ steps, ∀ fuel,
            task.run options interpreter.host (fuel + steps) world =
              Task.run options interpreter.host fuel (world.deliver options final).2
                ⟨.done (.answer (.ok failedValue)), task.stack.drop (inner.length + 1)⟩)) ∧
    ∀ reason next frame outer, task.process = .wait reason next →
      Task.barrier? task.stack = some (frame, outer) →
      ∃ error : Error, error.cause.isFatal = true ∧
        task.step options interpreter.host world =
          .running world ⟨.done (.answer (.error (.error error))), outer⟩ := by
  intro options here
  have works := reached.worksOn guests
  refine ⟨fun error fatal fails => ⟨fun unheard => ?_, ?_⟩, ?_⟩
  · obtain ⟨process, stack⟩ := task
    obtain rfl : process = _ := fails
    obtain ⟨final, same, goesOn⟩ := Task.goesOn_to_end works.frames unheard fatal world
    exact ⟨final, same, poll_of_goesOn here goesOn⟩
  · intro reports inner outer callee arguments entryMode around noEntry
    obtain ⟨process, stack⟩ := task
    obtain rfl : process = _ := fails
    cases goals with
    | nil => cases inner <;> cases around
    | cons first goals =>
        obtain rfl : goals = _ := around
        have delivered : ∃ final : Error, final.cause = error.cause ∧
            Task.GoesOn options interpreter.host world ⟨_, stack⟩ (world.deliver options final).2
              ⟨.done (.answer (afterDelivery (world.deliver options final).1)),
                stack.drop (inner.length + 1)⟩ :=
          Task.goesOn_to_entry works.frames noEntry trivial fatal world
        obtain ⟨final, same, steps, goesOn⟩ := delivered
        have handed : (world.deliver options final).1 = none := by
          rw [World.deliver, if_pos reports]
          split <;> try split
          all_goals rfl
        rw [handed] at goesOn
        exact ⟨final, same, steps, goesOn⟩
  · intro reason next frame outer waits found
    obtain ⟨error, fatal, ends⟩ := works.refused found
    obtain ⟨process, stack⟩ := task
    obtain rfl : process = _ := waits
    refine ⟨error, fatal, ?_⟩
    rw [Task.step_wait_barrier found, ends]
    rfl

/-- An interpreter of a host that hears of errors, with functions that fail and call back. -/
def hearing : Interpreter :=
  .create { Options.silent 0 0 with reportsErrors := true } Probe.host
    [Probe.qualified "top_sync", Probe.qualified "fatal"] [] []

/-- The script `Host:top_sync(Host:fatal, "x");`. -/
def fatalInside : List Node :=
  [.of (.call (.of (.identifier (Probe.qualified "top_sync")))
    [.of (.identifier (Probe.qualified "fatal")), .of (.str "x")])]

/-- The state of that script in which the function of the host has failed. -/
def fatalState : World × Task × List Goal :=
  (Task.ofScript hearing.root fatalInside .synchronous).stateAfter hearing.options hearing.host 23
    hearing.world []

theorem reached_fatalState :
    Task.Reached hearing.options hearing.host (fun _ _ => True) hearing.world
      (Task.ofScript hearing.root fatalInside .synchronous)
      fatalState.1 fatalState.2.1 fatalState.2.2 :=
  Task.Reached.start.stateAfter 23

/-- The entry point delivers the error and answers with a value; its caller goes on. -/
theorem fatal_errors_end_execution_inside :
    ∃ final : Error, final.cause = .hostSide "x" ∧ ∃ steps, ∀ fuel,
      fatalState.2.1.run hearing.options hearing.host (fuel + steps) fatalState.1 =
        Task.run hearing.options hearing.host fuel (fatalState.1.deliver hearing.options final).2
          ⟨.done (.answer (.ok failedValue)), fatalState.2.1.stack.drop 1⟩ :=
  ((fatal_errors_end_execution Probe.relays_host reached_fatalState).1
    ⟨.hostSide "x", none, []⟩ rfl rfl).2 rfl [] _ _ _ _ rfl nofun

/-- A script may complete with a value although a fatal error was raised in it. -/
theorem exists_value_after_fatal_error :
    ∃ (world : World) (task : Task) (goals : List Goal) (error : Error),
      Task.Reached hearing.options hearing.host (fun _ _ => True) hearing.world
        (Task.ofScript hearing.root fatalInside .synchronous) world task goals ∧
      task.process = .done (.answer (.error (.error error))) ∧
      error.cause.isFatal = true ∧
      (hearing.complete 60 1 (hearing.startAtOnce fatalInside)).map Prod.fst =
        some (.ok (some failedValue)) :=
  ⟨_, _, _, ⟨.hostSide "x", none, []⟩, reached_fatalState, rfl, rfl, rfl⟩

end Interpreter

end TreeScript
