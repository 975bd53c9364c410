import TreeScript.Proofs.EditAgreement
import TreeScript.Proofs.Execution

/-!
# Observation

A host may want to hear of what scripts log and print, or not.  An interpreter
for a host that wants to hear less does the same in every respect: its record is
the one it would have otherwise, without the events that are not wanted.

Leaving these events out commutes with every action, so with every step, every
run of a task and every poll.  `Interpreter.observation_changes_nothing` compares
two new interpreters for hosts that want to hear different things: each of them
leads to the other one, once what only one of the hosts hears is left out.
-/

namespace TreeScript

/-- Whether a host hears of an event, by whether it wants to hear of log entries and of output. -/
def Event.isWanted {α : Type} (log output : Bool) : Event α → Bool
  | .log _ _ _ _ => log
  | .print _ => output
  | _ => true

/-- The options for a host that hears of log entries and of output only if said. -/
def Options.muted (options : Options) (log output : Bool) : Options :=
  { options with
    reportsLog := options.reportsLog && log
    reportsOutput := options.reportsOutput && output }

/-- The options for a host that wants to hear of log entries and of output precisely as said. -/
def Options.reporting (options : Options) (log output : Bool) : Options :=
  { options with
    reportsLog := log
    reportsOutput := output }

variable {options : Options} {host : Host} (log output : Bool)

/-! ## Actions -/

namespace World

/-- A world whose record holds wanted events only. -/
def muted (world : World) : World :=
  { world with events := world.events.filter (Event.isWanted log output) }

theorem muted_record (world : World) (event : Event Snapshot) :
    (world.record event).muted log output =
      if event.isWanted log output then (world.muted log output).record event
      else world.muted log output := by
  cases wanted : event.isWanted log output <;> simp [muted, record, wanted]

theorem muted_log (options : Options) (name : String) (scope bound : Option String)
    (value : Option Value) (world : World) :
    (world.log options name scope bound value).muted log output =
      (world.muted log output).log (options.muted log output) name scope bound value := by
  cases reports : options.reportsLog with
  | false => simp [World.log, Options.muted, reports]
  | true =>
      cases log with
      | false => simp [World.log, Options.muted, reports, muted_record, Event.isWanted]
      | true =>
          simp [World.log, Options.muted, reports, muted_record, Event.isWanted]
          rfl

theorem muted_print (options : Options) (value : Value) (world : World) :
    (world.perform options (.print value)).2.muted log output =
      ((world.muted log output).perform (options.muted log output) (.print value)).2 := by
  cases reports : options.reportsOutput with
  | false => simp [World.perform, Options.muted, reports]
  | true =>
      cases output with
      | false => simp [World.perform, Options.muted, reports, muted_record, Event.isWanted]
      | true =>
          simp [World.perform, Options.muted, reports, muted_record, Event.isWanted]
          rfl

/-- Every host hears of its handlers. -/
theorem muted_transition (transition : Transition) (world : World) :
    (world.transition transition).muted log output =
      (world.muted log output).transition transition := by
  have wanted (tags : List String) :
      (tags.map (Event.handler (α := Snapshot))).filter (Event.isWanted log output) =
        tags.map Event.handler := by
    simp [Event.isWanted]
  simp [muted, World.transition, wanted]

theorem muted_handler (tag : String) (response : Response) (world : World) :
    (world.muted log output).handler tag response =
      Prod.map id (muted log output) (world.handler tag response) := by
  have roster : (world.muted log output).roster = world.roster := rfl
  rw [handler, handler, roster]
  cases world.roster.find? tag <;> rfl

theorem muted_deliver (options : Options) (error : Error) (world : World) :
    (world.muted log output).deliver (options.muted log output) error =
      Prod.map id (muted log output) (world.deliver options error) := by
  have told (world : World) : (world.record (.failure error)).muted log output =
      (world.muted log output).record (.failure error) := muted_record log output world _
  have same : (world.muted log output).deliver (options.muted log output) error =
      (world.muted log output).deliver options error := rfl
  rw [same, deliver, deliver]
  cases options.reportsErrors with
  | false => rfl
  | true =>
      cases options.abortOnError with
      | false => exact congrArg (Prod.mk none) (told world).symm
      | true =>
          have stopped : (world.muted log output).lifecycle.isStopped =
              world.lifecycle.isStopped := rfl
          rw [stopped]
          cases world.lifecycle.isStopped with
          | true => rfl
          | false =>
              refine congrArg (Prod.mk none) ?_
              rw [told, muted_transition]

theorem muted_ask (options : Options) (prompt : String) (world : World) :
    (world.muted log output).ask (options.muted log output) prompt =
      Prod.map id (muted log output) (world.ask options prompt) := by
  have same : (world.muted log output).ask (options.muted log output) prompt =
      (world.muted log output).ask options prompt := rfl
  rw [same, ask, ask]
  cases options.hasInput with
  | false => rfl
  | true =>
      have asked := muted_record log output world (.prompt prompt)
      exact congrArg
        (fun asked : World =>
          (some (world.inputs.headD ""), { asked with inputs := world.inputs.tail })) asked.symm

/-- Edits are the same with less to hear. -/
theorem editRelation_muted (options : Options) :
    EditRelation options (options.muted log output) fun world other =>
      other = world.muted log output where
  store := by
    rintro world _ rfl
    rfl
  change := by
    rintro world _ change keeps rfl
    rfl
  log := by
    rintro world _ name scope bound value - rfl
    exact (muted_log log output options name scope bound value world).symm

/-- Every action gives the same reply and leads to the same world, with less to hear. -/
theorem perform_muted (options : Options) (world : World) (action : Action) :
    (world.muted log output).perform (options.muted log output) action =
      Prod.map id (muted log output) (world.perform options action) := by
  have relation := editRelation_muted log output options
  have edited {α : Type} {edit edit' : Edit α}
      (agree : Edit.Agree (fun world other => other = world.muted log output) edit edit') :
      edit'.run.run (world.muted log output) =
        Prod.map id (muted log output) (edit.run.run world) := by
    obtain ⟨reply, reached⟩ := agree world _ rfl
    exact Prod.ext reply.symm reached
  cases action with
  | readName scope name => exact edited (Edit.agree_readName relation scope name)
  | define scope isMutable pattern value =>
      exact edited (Edit.agree_define relation scope isMutable pattern value)
  | decorate scope target value attributes =>
      exact edited (Edit.agree_decorate relation scope target value attributes)
  | read location => exact edited (Edit.agree_read relation location)
  | write location value => exact edited (Edit.agree_write relation location value)
  | log name scope value =>
      exact congrArg (Prod.mk ()) (muted_log log output options name scope none value world).symm
  | print value => exact congrArg (Prod.mk ()) (muted_print log output options value world).symm
  | note value => exact congrArg (Prod.mk ()) (muted_record log output world (.note _)).symm
  | yielded => exact congrArg (Prod.mk ()) (muted_record log output world (.yielded _)).symm
  | ask prompt => exact muted_ask log output options prompt world
  | deliver error => exact muted_deliver log output options error world
  | transition transition =>
      exact congrArg (Prod.mk ()) (muted_transition log output transition world).symm
  | mention tag =>
      exact congrArg (fun known : Handler × World => ((), known.2))
        (muted_handler log output tag .nothing world)
  | subscribe transition tag =>
      simp only [perform, subscribe, muted_handler]
      rfl
  | unsubscribe transition tag =>
      simp only [perform, unsubscribe, muted_handler]
      rfl
  | _ => rfl

end World

/-! ## Tasks -/

/-- No process depends on what the host wants to hear. -/
theorem Evaluation.ofGoal_muted (options : Options) (host : Host) (goal : Goal) :
    ofGoal (options.muted log output) host goal = ofGoal options host goal := by
  cases goal <;> rfl

/-- What a step leads to, with less to hear. -/
def Progress.muted : Progress → Progress
  | .running world task => .running (world.muted log output) task
  | .waiting world reason task => .waiting (world.muted log output) reason task
  | .finished world outcome => .finished (world.muted log output) outcome

namespace Task

theorem step_muted (world : World) (task : Task) :
    task.step (options.muted log output) host (world.muted log output) =
      (task.step options host world).muted log output := by
  rcases task with ⟨process, stack⟩
  cases process with
  | done turn =>
      cases turn with
      | answer outcome => cases stack <;> rfl
      | again goal =>
          rw [step_again, step_again, Evaluation.ofGoal_muted]
          rfl
  | act action next =>
      rw [step_act, step_act, World.perform_muted]
      rfl
  | wait reason next =>
      cases found : barrier? stack with
      | none =>
          rw [step_wait found, step_wait found]
          rfl
      | some barrier =>
          rw [step_wait_barrier found, step_wait_barrier found]
          rfl
  | call goal next =>
      rw [step_call, step_call, Evaluation.ofGoal_muted]
      rfl
  | drive goal next =>
      show Progress.running (world.muted log output)
        ⟨Evaluation.ofGoal (options.muted log output) host goal, ⟨next, true⟩ :: stack⟩ = _
      rw [Evaluation.ofGoal_muted]
      rfl

theorem run_muted (fuel : Nat) (world : World) (task : Task) :
    task.run (options.muted log output) host fuel (world.muted log output) =
      (task.run options host fuel world).map (Progress.muted log output) := by
  induction fuel generalizing world task with
  | zero => rfl
  | succ fuel inductive_step =>
      have muted : task.step (options.muted log output) host (world.muted log output) =
        (task.step options host world).muted log output := step_muted log output world task
      cases step : task.step options host world with
      | running between next =>
          rw [step] at muted
          rw [run_of_running step, run_of_running muted, inductive_step]
      | waiting between reason next =>
          rw [step] at muted
          rw [run_of_waiting step, run_of_waiting muted]
          rfl
      | finished reached outcome =>
          rw [step] at muted
          rw [run_of_finished step, run_of_finished muted]
          rfl

end Task

/-! ## Interpreters -/

namespace Interpreter

/-- The same interpreter for a host that hears of log entries and of output only if said. -/
def muted (interpreter : Interpreter) : Interpreter :=
  { interpreter with
    options := interpreter.options.muted log output
    world := interpreter.world.muted log output }

theorem conclude_muted (options : Options) (delivers : Bool) (outcome : Outcome) (world : World) :
    conclude (options.muted log output) delivers outcome (world.muted log output) =
      Prod.map id (World.muted log output) (conclude options delivers outcome world) := by
  unfold conclude
  cases outcome.expectValue with
  | ok value => rfl
  | error error =>
      cases delivers with
      | false => rfl
      | true =>
          simp only [if_true, World.muted_deliver]
          generalize world.deliver options error = delivered
          rcases delivered with ⟨returned | returned, told⟩ <;> rfl

/-- Polling a run comes to the same, with less to hear. -/
theorem poll_muted (interpreter : Interpreter) (fuel : Nat) (run : Run) :
    (interpreter.muted log output).poll fuel run =
      (interpreter.poll fuel run).map (Prod.map id (muted log output)) := by
  cases underway : run.task with
  | none =>
      unfold poll
      rw [underway]
      rfl
  | some task =>
      cases ready : run.isReady interpreter.world.lifecycle with
      | false =>
          have readyMuted : run.isReady (interpreter.muted log output).world.lifecycle = false :=
            ready
          unfold poll
          rw [underway, ready, readyMuted]
          rfl
      | true =>
          rw [poll_of_ready interpreter run underway ready,
            poll_of_ready (interpreter.muted log output) run underway ready]
          dsimp only [muted]
          rw [Task.run_muted]
          cases Task.run interpreter.options interpreter.host fuel interpreter.world task with
          | none => rfl
          | some progress =>
              cases progress with
              | running world next => rfl
              | waiting world reason next => rfl
              | finished world outcome =>
                  simp only [Option.map_some, Progress.muted, conclude_muted]
                  rfl

/-- Completing a run comes to the same, with less to hear. -/
theorem complete_muted (interpreter : Interpreter) (fuel polls : Nat) (run : Run) :
    complete fuel polls (interpreter.muted log output) run =
      (complete fuel polls interpreter run).map (Prod.map id (muted log output)) := by
  induction polls generalizing interpreter run with
  | zero => rfl
  | succ polls inductive_step =>
      rw [complete, complete, poll_muted]
      cases interpreter.poll fuel run with
      | none => rfl
      | some reached =>
          rcases reached with ⟨rest | verdict, after⟩
          · have same : (after.muted log output).world.lifecycle = after.world.lifecycle := rfl
            simp only [Option.map_some, Prod.map_apply, id_eq, same]
            split
            · exact inductive_step after rest
            · rfl
          · rfl

/--
Observation changes nothing.  Two new interpreters that differ only in whether
the host wants to hear of log entries and of output are given the same script,
in either mode, or the same call of a function.  With the same fuel and number of
polls both complete it or neither does, with the same verdict and in the same
world: the same store, the same number of steps and the same lifecycle.  Their
records are the same as well, once each of them is left with what the other host
wants to hear.
-/
theorem observation_changes_nothing (options : Options) (host : Host) (hostNames : List String)
    (constants : List (String × Datum Value)) (inputs : List String)
    (log output log' output' : Bool) (fuel polls : Nat) :
    let interpreter := create (options.reporting log output) host hostNames constants inputs
    let other := create (options.reporting log' output') host hostNames constants inputs
    (∀ script : List Node,
      (complete fuel polls interpreter (interpreter.start script)).map
          (Prod.map id (muted log' output')) =
        (complete fuel polls other (other.start script)).map (Prod.map id (muted log output))) ∧
    (∀ script : List Node,
      (complete fuel polls interpreter (interpreter.startAtOnce script)).map
          (Prod.map id (muted log' output')) =
        (complete fuel polls other (other.startAtOnce script)).map
          (Prod.map id (muted log output))) ∧
    ∀ (callee : Value) (arguments : List Value) (style : CallStyle),
      (complete fuel polls interpreter (startCall callee arguments style)).map
          (Prod.map id (muted log' output')) =
        (complete fuel polls other (startCall callee arguments style)).map
          (Prod.map id (muted log output)) := by
  intro interpreter other
  have common : interpreter.muted log' output' = other.muted log output := by
    show Interpreter.mk _ _ _ _ = Interpreter.mk _ _ _ _
    simp only [interpreter, other, create, Options.muted, Options.reporting, Bool.and_comm]
    rfl
  have completed (run : Run) :
      (complete fuel polls interpreter run).map (Prod.map id (muted log' output')) =
        (complete fuel polls other run).map (Prod.map id (muted log output)) := by
    rw [← complete_muted, ← complete_muted, common]
  exact ⟨fun script => completed _, fun script => completed _,
    fun callee arguments style => completed _⟩

end Interpreter

end TreeScript
