import TreeScript.Proofs.Parity
import TreeScript.Proofs.Patience
import TreeScript.Proofs.Transitions

/-!
# Synchronous evaluation

Synchronous evaluation never waits, whatever functions the host supplies.  With
the functions of the library alone it looks at neither the pause nor the way the
interpreter yields, so it does the same whatever these are: every process is
the same, and every action gives the same reply.

The pause matters in one place only, which is outside of evaluation.  When the
error of an entry point aborts the interpreter, a handler that waits for the
abort may pause or resume, and this has an effect or not depending on whether a
pause is in effect already.
-/

namespace TreeScript

open Rule

/-! ## Worlds apart from the pause -/

/-- Whether an event tells of a handler. -/
def Event.isHandler {α : Type} : Event α → Bool
  | .handler _ => true
  | _ => false

/-- What the host was told, apart from handlers. -/
def World.told (world : World) : Array (Event Snapshot) :=
  world.events.filter fun event => !event.isHandler

/-- What a pause has no influence on: all that a script can find out, and what the host was told. -/
structure World.Agrees (world other : World) : Prop where
  store : world.store = other.store
  steps : world.steps = other.steps
  inputs : world.inputs = other.inputs
  told : world.told = other.told

/-- How much two worlds have in common in which synchronous runs are in step. -/
structure World.Alongside (exactly : Prop) (world other : World) : Prop
    extends world.Agrees other where
  isStopped : world.lifecycle.isStopped = other.lifecycle.isStopped
  hostless : world.store.Hostless
  events : exactly → world.events = other.events
  lifecycle : exactly → world.lifecycle.unpaused = other.lifecycle.unpaused

/-- The same options with another way of yielding. -/
def Options.withIrq (options : Options) (irq : Irq) : Options :=
  { options with irq := irq }

namespace World

theorem told_record (world : World) (event : Event Snapshot) :
    (world.record event).told =
      if event.isHandler then world.told else world.told.push event := by
  cases handler : event.isHandler <;> simp [told, record, handler]

theorem told_transition (transition : Transition) (world : World) :
    (world.transition transition).told = world.told := by
  have silent (tags : List String) :
      (tags.map (Event.handler (α := Snapshot))).filter (fun event => !event.isHandler) = [] := by
    simp [Event.isHandler]
  simp [told, World.transition, silent]

namespace Alongside

variable {exactly : Prop} {world other : World}

theorem mapStore (alongside : world.Alongside exactly other) (change : Store → Store)
    (keepsHostless : (change world.store).Hostless) :
    (world.mapStore change).Alongside exactly (other.mapStore change) where
  store := congrArg change alongside.store
  steps := alongside.steps
  inputs := alongside.inputs
  told := alongside.told
  isStopped := alongside.isStopped
  hostless := keepsHostless
  events := alongside.events
  lifecycle := alongside.lifecycle

theorem record (alongside : world.Alongside exactly other) (event : Event Snapshot) :
    (world.record event).Alongside exactly (other.record event) where
  store := alongside.store
  steps := alongside.steps
  inputs := alongside.inputs
  told := by rw [told_record, told_record, alongside.told]
  isStopped := alongside.isStopped
  hostless := alongside.hostless
  events exact := congrArg (·.push event) (alongside.events exact)
  lifecycle := alongside.lifecycle

theorem log (alongside : world.Alongside exactly other) (options : Options) (irq : Irq)
    (name : String) (scope bound : Option String) (value : Option Value) :
    (world.log options name scope bound value).Alongside exactly
      (other.log (options.withIrq irq) name scope bound value) := by
  unfold World.log
  rw [alongside.store]
  show Alongside exactly (if options.reportsLog then _ else world)
    (if options.reportsLog then _ else other)
  split
  · exact alongside.record _
  · exact alongside

/-- Quiet actions and ticks look at neither the pause nor the way of yielding. -/
theorem actionRelation (options : Options) (irq : Irq) (exactly : Prop) :
    ActionRelation options (options.withIrq irq) (Alongside exactly) where
  store alongside := alongside.store
  change keeps alongside :=
    alongside.mapStore _ (alongside.hostless.of_keepsBodies keeps.keepsBodies)
  log name scope bound value _ alongside := alongside.log options irq name scope bound value
  tell name scope value alongside := alongside.log options irq name scope none value
  isStopped alongside := alongside.isStopped
  tick {world other} alongside := by
    have steps : world.steps + 1 = other.steps + 1 := congrArg (· + 1) alongside.steps
    refine ⟨?_, { alongside with steps := steps }⟩
    exact congrArg (fun steps => options.stepLimit == 0 || decide (steps ≤ options.stepLimit)) steps
  newFunction name _ hostless alongside :=
    alongside.mapStore _ (alongside.hostless.newFunction name hostless)
  nameFunction function name alongside :=
    alongside.mapStore _
      (alongside.hostless.of_keepsBodies (Store.keepsBodies_nameFunction function name))
  record _ alongside := alongside.record _
  inputs alongside := alongside.inputs
  withInputs inputs alongside := { alongside with inputs := rfl }
  reportsOutput := rfl
  detail := rfl
  hasInput := rfl

/-- Aborting keeps worlds alongside; exactly so, if it is calm. -/
theorem abort (alongside : world.Alongside exactly other)
    (calmly : exactly → world.lifecycle.AbortsCalmly) :
    (world.transition .abort).Alongside exactly (other.transition .abort) where
  store := alongside.store
  steps := alongside.steps
  inputs := alongside.inputs
  told := by rw [told_transition, told_transition, alongside.told]
  isStopped :=
    world.lifecycle.isStopped_abort.trans other.lifecycle.isStopped_abort.symm
  hostless := alongside.hostless
  events exact := by
    have fired := (Lifecycle.transition_abort (alongside.lifecycle exact) (calmly exact)).2.1
    simp only [World.transition, alongside.events exact, fired]
  lifecycle exact :=
    (Lifecycle.transition_abort (alongside.lifecycle exact) (calmly exact)).1

end Alongside

/-- An error that the host is handed does not abort, or no handler then pauses or resumes. -/
def DeliversCalmly (options : Options) (world : World) : Prop :=
  options.reportsErrors = true → options.abortOnError = true → world.lifecycle.AbortsCalmly

/-- Delivering an error keeps worlds alongside; exactly so, if it is calm. -/
theorem Alongside.deliver {exactly : Prop} {world other : World} {options : Options}
    (alongside : world.Alongside exactly other)
    (calmly : exactly → world.DeliversCalmly options) (irq : Irq) (error : Error) :
    (world.deliver options error).1 = (other.deliver (options.withIrq irq) error).1 ∧
      (world.deliver options error).2.Alongside exactly
        (other.deliver (options.withIrq irq) error).2 := by
  have delivered : other.deliver (options.withIrq irq) error = other.deliver options error := rfl
  rw [delivered, World.deliver, World.deliver]
  cases reports : options.reportsErrors with
  | false => exact ⟨rfl, alongside⟩
  | true =>
      cases aborts : options.abortOnError with
      | false => exact ⟨rfl, alongside.record _⟩
      | true =>
          rw [← alongside.isStopped]
          cases world.lifecycle.isStopped with
          | true => exact ⟨rfl, alongside⟩
          | false =>
              have aborted := alongside.abort fun exact => calmly exact reports aborts
              exact ⟨rfl, aborted.record _⟩

end World

/-! ## Synchronous tasks -/

/-- The manner of synchronous evaluation without functions of the host. -/
def Manner.steady (delivers : Prop) : Manner where
  acts action := action.IsQuiet ∨ action = .tick ∨ (delivers ∧ ∃ error, action = .deliver error)
  replies := Action.Expected
  waits _ := False
  calls goal := goal.RunsIn .synchronous
  drives goal := goal.RunsIn .synchronous

theorem Manner.serves_steady (delivers : Prop) (host : Host) :
    (steady delivers).Serves host .synchronous := by
  have plain : (steady delivers).Plain .synchronous :=
    ⟨fun _ quiet => .inl quiet, fun _ runs => runs, fun _ _ runs => runs⟩
  exact serves_of_hostless plain (fun _ hostless => hostless) host

variable {options : Options} {host : Host} {irq : Irq} {delivers exactly : Prop}

theorem Evaluation.uses_steady (delivers : Prop) {goal : Goal} (runs : goal.RunsIn .synchronous) :
    (ofGoal options host goal).Uses (.steady delivers) (Turn.Minds (.steady delivers)) :=
  uses_ofGoal (Manner.serves_steady delivers host) (.inr (.inl rfl)) nofun runs

/-- The process of a synchronous goal does not depend on the way of yielding. -/
theorem Evaluation.ofGoal_withIrq (options : Options) (host : Host) (irq : Irq) {goal : Goal}
    (runs : goal.RunsIn .synchronous) :
    ofGoal (options.withIrq irq) host goal = ofGoal options host goal := by
  cases goal with
  | evaluate node scope context =>
      rcases context with ⟨calls, mode⟩
      obtain rfl : mode = .synchronous := runs
      rfl
  | _ => rfl

/-- Worlds in which two synchronous runs are in step. -/
structure World.InStep (options : Options) (delivers exactly : Prop) (world other : World) : Prop
    where
  alongside : world.Alongside exactly other
  calmly : delivers → exactly → world.DeliversCalmly options

namespace World.InStep

variable {world other : World}

/-- Delivering an error keeps runs in step. -/
theorem deliver (inStep : world.InStep options delivers exactly other) (delivered : delivers)
    (irq : Irq) (error : Error) :
    (world.deliver options error).1 = (other.deliver (options.withIrq irq) error).1 ∧
      (world.deliver options error).2.InStep options delivers exactly
        (other.deliver (options.withIrq irq) error).2 := by
  have calmly := inStep.calmly delivered
  have alongside := inStep.alongside.deliver calmly irq error
  refine ⟨alongside.1, alongside.2, fun _ exact reports aborts => ?_⟩
  have calm := calmly exact reports aborts
  rw [World.deliver, reports, aborts]
  cases world.lifecycle.isStopped with
  | true => exact calm
  | false => exact (Lifecycle.transition_abort rfl calm).2.2

/-- Every action of synchronous evaluation keeps runs in step. -/
theorem perform (inStep : world.InStep options delivers exactly other) (irq : Irq)
    (action : Action) (acts : (Manner.steady delivers).acts action) :
    (world.perform options action).1 = (other.perform (options.withIrq irq) action).1 ∧
      (world.perform options action).2.InStep options delivers exactly
        (other.perform (options.withIrq irq) action).2 := by
  have relation := Alongside.actionRelation options irq exactly
  have stays (hostless : action.Hostless) :
      delivers → exactly → (world.perform options action).2.DeliversCalmly options := by
    intro delivered exact reports aborts
    rw [(World.perform_keeps options action hostless).2.1]
    exact inStep.calmly delivered exact reports aborts
  rcases acts with quiet | rfl | ⟨delivered, error, rfl⟩
  · have performed := relation.perform inStep.alongside action (.inl quiet)
    exact ⟨performed.1, performed.2, stays quiet.plain.hostless⟩
  · have performed := relation.perform inStep.alongside .tick (.inr rfl)
    exact ⟨performed.1, performed.2, stays trivial⟩
  · exact inStep.deliver delivered irq error

end World.InStep

namespace Task

variable {world other : World} {task : Task}

/-- Steps of a synchronous task in worlds that are in step. -/
theorem Minds.step_inStep (minds : task.Minds (.steady delivers))
    (inStep : world.InStep options delivers exactly other) (host : Host) (irq : Irq) :
    (∃ next next' after, task.step options host world = .running next after ∧
        task.step (options.withIrq irq) host other = .running next' after ∧
        next.InStep options delivers exactly next') ∨
      ∃ outcome, task.step options host world = .finished world outcome ∧
        task.step (options.withIrq irq) host other = .finished other outcome := by
  rcases task with ⟨process, stack⟩
  rcases minds with ⟨uses, -⟩
  -- Apart from actions, the options matter only for the process of a goal that is asked for.
  cases uses with
  | @done turn given =>
      cases turn with
      | answer outcome =>
          cases stack with
          | nil => exact .inr ⟨outcome, rfl, rfl⟩
          | cons frame outer => exact .inl ⟨_, _, _, rfl, rfl, inStep⟩
      | again goal =>
          refine .inl ⟨_, _, _, step_again world goal stack, ?_, inStep⟩
          rw [step_again, Evaluation.ofGoal_withIrq options host irq given]
  | @act action next acts _ =>
      obtain ⟨replies, worlds⟩ := inStep.perform irq action acts
      refine .inl ⟨_, _, _, step_act world action next stack, ?_, worlds⟩
      rw [step_act, replies]
  | wait waits _ => exact waits.elim
  | @call goal next runs _ =>
      refine .inl ⟨_, _, _, step_call world goal next stack, ?_, inStep⟩
      rw [step_call, Evaluation.ofGoal_withIrq options host irq runs]
  | @drive goal next runs _ =>
      refine .inl ⟨_, _, _, rfl, ?_, inStep⟩
      rw [← Evaluation.ofGoal_withIrq options host irq runs]
      rfl

/-- In step, synchronous tasks do not come to wait, and end with the same outcome. -/
theorem Minds.run_inStep {fuel : Nat} {progress : Progress}
    (minds : task.Minds (.steady delivers))
    (inStep : world.InStep options delivers exactly other) (irq : Irq)
    (ran : task.run options host fuel world = some progress) :
    ∃ reached reached' outcome, progress = .finished reached outcome ∧
      task.run (options.withIrq irq) host fuel other = some (.finished reached' outcome) ∧
      reached.InStep options delivers exactly reached' := by
  induction fuel generalizing world other task with
  | zero => cases ran
  | succ fuel inductive_step =>
      rcases minds.step_inStep inStep host irq with
        ⟨next, next', after, running, running', steps⟩ | ⟨outcome, finished, finished'⟩
      · rw [run_of_running running] at ran
        rw [run_of_running running']
        have replied (action : Action) (_ : (Manner.steady delivers).acts action) :
            action.Expected (world.perform options action).1 :=
          World.expected_perform options action inStep.alongside.hostless
        have keeps := minds.step replied (fun _ runs => Evaluation.uses_steady delivers runs)
          (fun _ runs => Evaluation.uses_steady delivers runs) running
        exact inductive_step keeps steps ran
      · rw [run_of_finished finished] at ran
        cases ran
        exact ⟨world, other, outcome, rfl, run_of_finished finished' fuel, inStep⟩

theorem minds_ofRuleAtOnce {rule : Rule Value} {manner : Manner} (minds : rule.Minds manner) :
    (ofRuleAtOnce rule).Minds manner where
  process := Evaluation.uses_process (Evaluation.uses_answering minds)
  frames := List.forall_mem_singleton.mpr fun _ => .done trivial

end Task

/-! ## Runs -/

namespace Interpreter

/-- The same interpreter with another pause, and with another way of yielding. -/
def repaused (interpreter : Interpreter) (irq : Irq) (pause : Option Nat) (pauses : Nat) :
    Interpreter :=
  { interpreter with
    options := interpreter.options.withIrq irq
    world :=
      { interpreter.world with
        lifecycle := { interpreter.world.lifecycle with pause := pause, pauses := pauses } } }

/-- Whenever the first interpreter completes a run, the other one does so with the same verdict. -/
def CompletesLike (same : World → World → Prop) (interpreter other : Interpreter) (run : Run) :
    Prop :=
  ∀ (fuel polls : Nat) (verdict : Verdict) (reached : Interpreter),
    complete fuel polls interpreter run = some (verdict, reached) →
    ∃ world, complete fuel polls other run = some (verdict, { other with world := world }) ∧
      same reached.world world

theorem CompletesLike.imp {same same' : World → World → Prop} {interpreter other : Interpreter}
    {run : Run}
    (like : CompletesLike same interpreter other run)
    (weaker : ∀ {world world'}, same world world' → same' world world') :
    CompletesLike same' interpreter other run := by
  intro fuel polls verdict reached completed
  obtain ⟨world, completed, same⟩ := like fuel polls verdict reached completed
  exact ⟨world, completed, weaker same⟩

variable {interpreter : Interpreter}

theorem inStep_repaused (hostless : interpreter.world.store.Hostless)
    {delivers exactly : Prop}
    (calmly : delivers → exactly → interpreter.world.DeliversCalmly interpreter.options)
    (irq : Irq) (pause : Option Nat) (pauses : Nat) :
    interpreter.world.InStep interpreter.options delivers exactly
      (interpreter.repaused irq pause pauses).world where
  alongside :=
    { store := rfl
      steps := rfl
      inputs := rfl
      told := rfl
      isStopped := rfl
      hostless := hostless
      events := fun _ => rfl
      lifecycle := fun _ => rfl }
  calmly := calmly

/-- Synchronous rules are run to the same end, whatever the pause and the way of yielding. -/
theorem completesLike_ofRuleAtOnce {rule : Rule Value} {delivers : Prop}
    (minds : rule.Minds (.steady delivers))
    (hostless : interpreter.world.store.Hostless) {exactly : Prop}
    (calmly : delivers → exactly → interpreter.world.DeliversCalmly interpreter.options)
    (irq : Irq) (pause : Option Nat) (pauses : Nat) :
    CompletesLike (World.Alongside exactly) interpreter (interpreter.repaused irq pause pauses)
      (.start (.ofRuleAtOnce rule) false) := by
  intro fuel polls verdict reached completed
  have inStep := inStep_repaused hostless calmly irq pause pauses
  have runs {progress : Progress} (ran : Task.run interpreter.options interpreter.host fuel
      interpreter.world (.ofRuleAtOnce rule) = some progress) :=
    (Task.minds_ofRuleAtOnce minds).run_inStep inStep irq ran
  cases polls with
  | zero => cases completed
  | succ polls =>
      have waitless {between reason after} :
          (Task.ofRuleAtOnce rule).run interpreter.options interpreter.host fuel
            interpreter.world ≠ some (.waiting between reason after) := by
        intro ran
        obtain ⟨_, _, _, ended, -⟩ := runs ran
        cases ended
      obtain ⟨world, outcome, finished, ended⟩ :=
        (complete_start_iff interpreter waitless polls (verdict, reached)).mp completed
      obtain ⟨_, other, _, same, finished', reaches⟩ := runs finished
      cases same
      cases ended
      refine ⟨other, ?_, reaches.alongside⟩
      have waitless' {between reason after} :
          Task.run (interpreter.options.withIrq irq) interpreter.host fuel
            (interpreter.repaused irq pause pauses).world (.ofRuleAtOnce rule) ≠
              some (.waiting between reason after) := by
        rw [finished']
        nofun
      exact (complete_start_iff (interpreter.repaused irq pause pauses) waitless' polls _).mpr
        ⟨other, outcome, finished', rfl⟩

/-- A script without suspension ends in the same way, whatever the pause and the yielding. -/
theorem completesLike_startAtOnce (hostless : interpreter.world.store.Hostless)
    (irq : Irq) (pause : Option Nat) (pauses : Nat) (script : List Node) :
    CompletesLike (World.Alongside True) interpreter (interpreter.repaused irq pause pauses)
      (interpreter.startAtOnce script) := by
  cases script with
  | nil =>
      intro fuel polls verdict reached completed
      cases polls with
      | zero => cases completed
      | succ polls =>
          cases completed
          have inStep : interpreter.world.InStep interpreter.options False True _ :=
            inStep_repaused hostless nofun irq pause pauses
          exact ⟨_, rfl, inStep.alongside⟩
  | cons statement rest =>
      have plain := (Manner.serves_steady False interpreter.host).toPlain
      exact completesLike_ofRuleAtOnce (Evaluation.minds_runScript plain interpreter.root _)
        hostless nofun irq pause pauses

/-- So does a function that is called without suspension, apart from what aborting brings about. -/
theorem completesLike_startCall (hostless : interpreter.world.store.Hostless) {exactly : Prop}
    (calmly : exactly → interpreter.world.DeliversCalmly interpreter.options)
    (irq : Irq) (pause : Option Nat) (pauses : Nat) (callee : Value) (arguments : List Value) :
    CompletesLike (World.Alongside exactly) interpreter (interpreter.repaused irq pause pauses)
      (startCall callee arguments .synchronous) := by
  have plain := (Manner.serves_steady True interpreter.host).toPlain
  have minds := Evaluation.minds_enter plain (fun error => .inr (.inr ⟨trivial, error, rfl⟩))
    callee arguments
  exact completesLike_ofRuleAtOnce minds hostless (fun _ => calmly) irq pause pauses

/-- A call of no function hands an error to a host that lets errors abort. -/
theorem complete_startCall_null {interpreter : Interpreter}
    (reports : interpreter.options.reportsErrors = true)
    (aborts : interpreter.options.abortOnError = true)
    (running : interpreter.world.lifecycle.isStopped = false) :
    complete 4 1 interpreter (startCall .null [] .synchronous) =
      some (.ok (some Evaluation.failedValue),
        { interpreter with
          world := (interpreter.world.transition .abort).record
            (.failure (Value.mismatch "fn" .null)) }) := by
  have delivered : interpreter.world.deliver interpreter.options (Value.mismatch "fn" .null) =
      (none, (interpreter.world.transition .abort).record
        (.failure (Value.mismatch "fn" .null))) := by
    rw [World.deliver, reports, aborts, running]
    rfl
  have handed (next : Option Error → Process Turn) (stack : List Frame) :
      Task.step interpreter.options interpreter.host interpreter.world
          ⟨.act (.deliver (Value.mismatch "fn" .null)) next, stack⟩ =
        .running
          ((interpreter.world.transition .abort).record (.failure (Value.mismatch "fn" .null)))
          ⟨next none, stack⟩ := by
    rw [Task.step_act, World.perform, delivered]
  have ran : Task.run interpreter.options interpreter.host 4 interpreter.world
      (.ofRuleAtOnce (Evaluation.enter .null [] .synchronous)) = _ :=
    Task.run_of_running (handed _ _) 3
  rw [complete, poll_of_ready interpreter (startCall .null [] .synchronous) rfl rfl, ran]
  rfl

/-- The record of a call that fails tells how many handlers the abort fires. -/
theorem not_completesLike_startCall_null {interpreter : Interpreter}
    (reports : interpreter.options.reportsErrors = true)
    (aborts : interpreter.options.abortOnError = true)
    (running : interpreter.world.lifecycle.isStopped = false)
    {irq : Irq} {pause : Option Nat} {pauses : Nat}
    (fired : (interpreter.world.lifecycle.transition .abort).2.length ≠
      ((interpreter.repaused irq pause pauses).world.lifecycle.transition .abort).2.length) :
    ¬ CompletesLike (fun world other => world.events = other.events) interpreter
      (interpreter.repaused irq pause pauses) (startCall .null [] .synchronous) := by
  intro like
  obtain ⟨world, completed, same⟩ := like 4 1 _ _ (complete_startCall_null reports aborts running)
  have completed' : complete 4 1 (interpreter.repaused irq pause pauses) _ = _ :=
    complete_startCall_null reports aborts running
  cases completed'.symm.trans completed
  have sizes := congrArg Array.size same
  simp only [World.record, World.transition, Array.size_push, Array.size_append,
    List.size_toArray, List.length_map, repaused] at sizes
  exact fired (Nat.add_left_cancel (Nat.succ.inj sizes))

/--
Synchronous evaluation does not wait.  With a host whose functions are built
from closures, nothing that waits is ever below a barrier, in any run that is
started and whatever happens to the world meanwhile; and polling a synchronous
run once never leaves it pending.

Without functions of the host, the pause and the way of yielding have no
influence on a synchronous run: it ends in the same way, with the same store,
the same number of steps and the same record.  Only the handlers that are fired
when the error of a function call aborts the interpreter may differ, if one of
those that wait for the abort pauses or resumes.
-/
theorem synchronous_runs_do_not_wait :
    (∀ interpreter : Interpreter, interpreter.host.IsBuilt →
      (∀ (run : Run), interpreter.Starts run → ∀ task ∈ run.task,
        ∀ (world : World) (current : Task) (goals : List Goal) (reason : Wait)
          (rest : Process Turn),
          Task.Reached interpreter.options interpreter.host (fun _ _ => True) interpreter.world
            task world current goals →
          current.process = .wait reason rest → Task.barrier? current.stack = none) ∧
      (∀ (fuel : Nat) (script : List Node) (rest : Run) (after : Interpreter),
        interpreter.poll fuel (interpreter.startAtOnce script) ≠
          some (.pending rest, after)) ∧
      ∀ (fuel : Nat) (callee : Value) (arguments : List Value) (rest : Run)
        (after : Interpreter),
        interpreter.poll fuel (startCall callee arguments .synchronous) ≠
          some (.pending rest, after)) ∧
    ∀ (interpreter : Interpreter) (irq : Irq) (pause : Option Nat) (pauses : Nat),
      interpreter.world.store.Hostless →
      (∀ script : List Node,
        CompletesLike (fun world other => world.Agrees other ∧ world.events = other.events)
          interpreter (interpreter.repaused irq pause pauses)
          (interpreter.startAtOnce script)) ∧
      (∀ (callee : Value) (arguments : List Value),
        CompletesLike World.Agrees
          interpreter (interpreter.repaused irq pause pauses)
          (startCall callee arguments .synchronous)) ∧
      (interpreter.world.DeliversCalmly interpreter.options →
        ∀ (callee : Value) (arguments : List Value),
          CompletesLike (fun world other => world.Agrees other ∧ world.events = other.events)
            interpreter (interpreter.repaused irq pause pauses)
            (startCall callee arguments .synchronous)) := by
  refine ⟨fun interpreter built => ⟨?_, ?_, ?_⟩, ?_⟩
  · intro run starts task underway world current goals reason rest reached waits
    obtain ⟨foot, layered⟩ := starts.layered task underway
    exact ((reached.layered built layered).of_wait waits).1
  · intro fuel script rest after
    have started : (interpreter.startAtOnce script).reason = none := by
      cases script <;> rfl
    exact ne_pending_of_layered built started (layered_startAtOnce script)
  · intro fuel callee arguments rest after
    exact ne_pending_of_layered built rfl (layered_startCall callee arguments)
  · intro interpreter irq pause pauses hostless
    refine ⟨fun script => ?_, fun callee arguments => ?_, fun calmly callee arguments => ?_⟩
    · exact (completesLike_startAtOnce hostless irq pause pauses script).imp
        fun alongside => ⟨alongside.toAgrees, alongside.events trivial⟩
    · have like : CompletesLike (World.Alongside False) interpreter _ _ :=
        completesLike_startCall hostless nofun irq pause pauses callee arguments
      exact like.imp fun alongside => alongside.toAgrees
    · exact (completesLike_startCall hostless (fun _ : True => calmly) irq pause pauses callee
        arguments).imp fun alongside => ⟨alongside.toAgrees, alongside.events trivial⟩

/--
A function of the host that waits when it is called as an entry point, a script
and a function of the library; the two last are run during a pause, with an
interpreter that yields at every step.
-/
theorem synchronous_runs_do_not_wait_later :
    let probed := create (.silent 0 Options.defaultDepthLimit) Probe.host ["Host:later"] [] []
    let state := Task.stateAfter probed.options probed.host
      (.ofRule (Evaluation.enter (.fn ⟨0⟩) [] .asynchronous)) 2 probed.world []
    let own := create (.silent 0 Options.defaultDepthLimit) Host.none [] [] []
    let paused := own.repaused ⟨Float.ofNat 1, .custom true⟩ (some 0) 1
    Task.barrier? state.2.1.stack = none ∧
      (∀ rest after, probed.poll 20 (probed.startAtOnce [.of .null]) ≠
        some (.pending rest, after)) ∧
      (∀ rest after, probed.poll 20 (startCall (.fn ⟨0⟩) [] .synchronous) ≠
        some (.pending rest, after)) ∧
      (∃ world, complete 20 1 paused (own.startAtOnce [.of .null]) =
          some (.ok (some .null), { paused with world := world }) ∧ world.steps = 1) ∧
      ∃ world, complete 20 1 paused (startCall (.fn ⟨12⟩) [.null] .synchronous) =
          some (.ok (some (.str "null")), { paused with world := world }) ∧ world.events = #[] := by
  intro probed state own paused
  have built : probed.host.IsBuilt := Probe.isBuilt_host
  have hostless : own.world.store.Hostless := hostless_create _ _ _ _
  obtain ⟨patience, steadiness⟩ := synchronous_runs_do_not_wait
  obtain ⟨waits, scripts, calls⟩ := patience probed built
  obtain ⟨sameScripts, -, sameCalls⟩ :=
    steadiness own ⟨Float.ofNat 1, .custom true⟩ (some 0) 1 hostless
  refine ⟨?_, scripts 20 [.of .null], calls 20 (.fn ⟨0⟩) [], ?_, ?_⟩
  · exact waits _ (.call (.fn ⟨0⟩) [] .asynchronous) _ rfl _ _ _ .nextPoll _
      (Task.Reached.start.stateAfter 2) rfl
  · obtain ⟨world, completed, agrees, -⟩ := sameScripts [.of .null] 20 1 (.ok (some .null)) _ rfl
    exact ⟨world, completed, agrees.steps.symm⟩
  · have calmly : own.world.DeliversCalmly own.options := nofun
    obtain ⟨world, completed, -, events⟩ :=
      sameCalls calmly (.fn ⟨12⟩) [.null] 20 1 (.ok (some (.str "null"))) _ rfl
    exact ⟨world, completed, events.symm⟩

/--
A handler that pauses when it is told of an abort: another one is then told of
the pause, unless there is one already.
-/
theorem exists_unlike_during_pause :
    let options := { Options.silent 0 Options.defaultDepthLimit with
      reportsErrors := true
      abortOnError := true }
    let created := create options Host.none [] [] []
    let attended := (created.world.subscribe .abort "first" (.cause .pause)).subscribe
      .pause "second" .nothing
    let interpreter := { created with world := attended }
    interpreter.world.store.Hostless ∧
      ¬ CompletesLike (fun world other => world.events = other.events) interpreter
        (interpreter.repaused options.irq (some 0) 1) (startCall .null [] .synchronous) := by
  intro options created attended interpreter
  have lifecycle : attended.lifecycle = { Lifecycle.initial with
      onAbort := [⟨"first", .cause .pause⟩]
      onPause := [⟨"second", .nothing⟩] } := rfl
  have fired : (attended.lifecycle.transition .abort).2.length ≠
      (Lifecycle.transition { attended.lifecycle with pause := some 0, pauses := 1 }
        .abort).2.length := by
    simp [lifecycle, Lifecycle.initial, Lifecycle.transition, Lifecycle.settle, Lifecycle.enter,
      Lifecycle.take, Lifecycle.waiting, Lifecycle.withWaiting, Lifecycle.isPaused]
  exact ⟨hostless_create options Host.none [] [],
    not_completesLike_startCall_null rfl rfl rfl fired⟩

end Interpreter

end TreeScript
