import TreeScript.Host.Probe
import TreeScript.Proofs.Execution
import TreeScript.Proofs.GoalManner
import TreeScript.Proofs.Requests

/-!
# Waiting only where it is allowed

Asynchronous evaluation may wait, synchronous evaluation may not, and a native
function that is at work may drive synchronous evaluation only.  A host cannot
do otherwise: its functions are built from closures of a few kinds
(`NativeForms.Built`), and only a promise, which is taken up in asynchronous
evaluation alone, may wait or ask for further asynchronous goals.

So whatever the host does and whatever happens to the world, the frames of a
task are layered: what is on top of a barrier is synchronous down to that
barrier.  A process that wants to wait is asynchronous, and there is no barrier
below it.
-/

namespace TreeScript

open Rule

/-- The manner of evaluation in a mode, with whatever functions a host supplies. -/
def Manner.patient (mode : Mode) : Manner where
  acts _ := True
  replies _ _ := True
  waits _ := mode = .asynchronous
  calls goal := goal.context.mode = mode
  drives goal := goal.context.mode = .synchronous

/-- The manner of a function of the host that gives its result at once. -/
def Manner.prompt : Manner where
  acts _ := True
  replies _ _ := True
  waits _ := False
  calls _ := False
  drives goal := goal.context.mode = .synchronous

theorem Goal.RunsIn.mode_eq {mode : Mode} {goal : Goal} (runs : goal.RunsIn mode) :
    goal.context.mode = mode := by
  cases goal with
  | enter callee arguments mode => exact runs.elim
  | _ => exact runs

theorem Manner.plain_patient (mode : Mode) : (patient mode).Plain mode where
  acts _ _ := trivial
  calls _ runs := runs.mode_eq
  drives atOnce _ runs := runs.mode_eq.trans atOnce

/-- What is done at once may be done in every mode. -/
theorem Process.Uses.patient {α : Type} {holds : α → Prop} {process : Process α}
    (uses : process.Uses .prompt holds) (mode : Mode) :
    process.Uses (.patient mode) holds := by
  induction uses with
  | done given => exact .done given
  | act _ _ inductive_step => exact .act trivial fun reply _ => inductive_step reply trivial
  | wait allowed _ _ => exact allowed.elim
  | call allowed _ _ => exact allowed.elim
  | drive allowed _ inductive_step => exact .drive allowed inductive_step

/-! ## Functions of the host -/

/-- A promise that is kept in asynchronous evaluation. -/
def Promise.Patient : Promise → Prop
  | .ready _ => True
  | .pending later => later.Minds (.patient .asynchronous)

namespace NativeForms

/--
The forms of a native function that a host can build: from a closure that
answers at once, from one that answers later, or from one that decides between
the two; and any of these with an immediate form besides.
-/
inductive Built : NativeForms → Prop where
  | plain {answer : List Value → Context → Rule Value}
      (prompt : ∀ arguments context, (answer arguments context).Minds .prompt) :
      Built (.plain answer)
  | later {answer : List Value → Context → Rule Value}
      (patient : ∀ (arguments : List Value) (context : Context), context.mode = .asynchronous →
        (answer arguments context).Minds (.patient .asynchronous)) :
      Built (.later answer)
  | ofGeneral {answer : List Value → Context → Rule Promise}
      (prompt : ∀ (arguments : List Value) (context : Context), context.mode = .asynchronous →
        (answer arguments context).Uses .prompt Promise.Patient) :
      Built (.ofGeneral answer)
  | orImmediately {forms : NativeForms} {answer : List Value → Context → Rule Value}
      (built : Built forms)
      (prompt : ∀ arguments context, (answer arguments context).Minds .prompt) :
      Built (forms.orImmediately answer)

variable {forms : NativeForms} {arguments : List Value} {context : Context}

theorem Built.uses_general (built : forms.Built) (asynchronous : context.mode = .asynchronous) :
    (forms.general arguments context).Uses .prompt Promise.Patient := by
  induction built with
  | plain prompt => exact (prompt arguments context).bind fun _ _ => uses_pure trivial
  | later patient => exact uses_pure (patient arguments context asynchronous)
  | ofGeneral prompt => exact prompt arguments context asynchronous
  | orImmediately _ _ inductive_step => exact inductive_step

theorem Built.minds_immediate (built : forms.Built)
    {answer : List Value → Context → Rule Value} (immediate : forms.immediate = some answer) :
    (answer arguments context).Minds .prompt := by
  cases built with
  | plain _ | later _ | ofGeneral _ => cases immediate
  | orImmediately _ prompt =>
      cases immediate
      exact prompt arguments context

theorem Built.minds_applyGeneral (built : forms.Built) (mode : Mode) :
    (forms.applyGeneral arguments context mode).Minds (.patient mode) := by
  have general : (forms.general arguments { context with mode := .asynchronous }).Uses .prompt
      Promise.Patient := built.uses_general rfl
  refine Uses.bind (Process.Uses.patient general mode) fun promise kept => ?_
  cases promise with
  | ready value => exact uses_pure trivial
  | pending promised =>
      cases mode with
      | synchronous => exact uses_fail _
      | asynchronous => exact kept

/-- A function that is built waits only in asynchronous evaluation. -/
theorem Built.minds_apply (built : forms.Built) (site : Option Position) :
    (forms.apply arguments context site).Minds (.patient context.mode) := by
  unfold apply
  dsimp only
  split
  · rename_i answer isSynchronous immediate
    exact Process.Uses.patient (built.minds_immediate immediate) _
  · exact built.minds_applyGeneral _

end NativeForms

/-- A host all of whose functions are built from closures. -/
def Host.IsBuilt (host : Host) : Prop :=
  ∀ (name : String) (forms : NativeForms), host name = some forms → forms.Built

variable {options : Options} {host : Host}

/-- Every native function waits only in asynchronous evaluation. -/
theorem Manner.serves_patient (built : host.IsBuilt) (mode : Mode) :
    (patient mode).Serves host mode where
  toPlain := plain_patient mode
  natives := by
    rintro store function found native - - - context arguments site rfl
    exact Evaluation.closed_nativeForms (plain_patient context.mode).closed native arguments site
      fun name forms _ supplied => (built name forms supplied).minds_apply site

/-- The process of a goal waits only if the goal is asynchronous. -/
theorem Evaluation.uses_patient (options : Options) (built : host.IsBuilt) (goal : Goal) :
    (ofGoal options host goal).Uses (.patient goal.context.mode)
      (Turn.Minds (.patient goal.context.mode)) := by
  have serves := Manner.serves_patient built goal.context.mode
  have gated (asynchronous : goal.context.mode = .asynchronous) :
      (gate options.irq).Minds (.patient goal.context.mode) :=
    minds_gate serves.toPlain trivial trivial trivial (fun _ => asynchronous) options.irq
  cases goal with
  | enter callee arguments mode =>
      exact uses_process (uses_answering
        (minds_enter serves.toPlain (fun _ => trivial) callee arguments))
  | _ => exact uses_ofGoal serves trivial gated rfl

/-! ## The probing host -/

namespace Probe

theorem prompt_failWith (cause : String → Cause) (arguments : List Value) (manner : Manner) :
    (failWith cause arguments).Minds manner :=
  (minds_ofExcept (first arguments).asStr).bind fun _ _ => uses_fail _

theorem patient_suspend : suspend.Minds (.patient .asynchronous) :=
  minds_wait rfl

theorem prompt_act (action : Action) : (perform action).Minds .prompt :=
  minds_perform trivial

theorem prompt_look {α : Type} (view : Store → α) : (look view).Minds .prompt :=
  uses_look trivial fun _ _ => trivial

theorem built_causing (transition : Transition) : (causing transition).Built :=
  .plain fun _ _ => (prompt_act (.transition transition)).bind fun _ _ => uses_pure trivial

theorem prompt_subscription (arguments : List Value) : (subscription arguments).Minds .prompt := by
  refine (minds_ofExcept (second arguments).asStr).bind fun tag _ => ?_
  refine (prompt_act (.mention tag)).bind fun _ _ => ?_
  exact (minds_ofExcept (event arguments)).bind fun _ _ => uses_pure trivial

theorem prompt_firstFunction (arguments : List Value) : (firstFunction arguments).Minds .prompt :=
  (minds_ofExcept (first arguments).asFn).bind fun _ _ => prompt_look _

theorem prompt_callBackAtOnce (callee : Value) (arguments : List Value) (context : Context) :
    (callBackAtOnce callee arguments context).Minds .prompt :=
  (minds_ofExcept callee.asFn).bind fun _ _ => minds_drive rfl

theorem patient_callBack {context : Context} (asynchronous : context.mode = .asynchronous)
    (callee : Value) (arguments : List Value) :
    (callBack callee arguments context).Minds (.patient .asynchronous) :=
  (minds_ofExcept callee.asFn).bind fun _ _ => minds_call asynchronous

/-- Every function of the probing host is built from closures. -/
theorem built_forms {name : String} {forms : NativeForms} (supplied : forms? name = some forms) :
    forms.Built := by
  unfold forms? at supplied
  split at supplied <;> cases supplied
  · exact .plain fun _ _ => uses_pure trivial
  · exact .orImmediately (.later fun _ _ _ => uses_pure trivial) fun _ _ => uses_pure trivial
  · exact .later fun _ _ _ => patient_suspend.bind fun _ _ => uses_pure trivial
  · exact .ofGeneral fun _ _ _ => uses_pure trivial
  · refine .ofGeneral fun arguments _ _ => ?_
    refine (minds_ofExcept (first arguments).asBool).bind fun ready _ => ?_
    cases ready with
    | true => exact uses_pure trivial
    | false => exact uses_pure (patient_suspend.bind fun _ _ => uses_pure trivial)
  · exact .plain fun arguments _ => prompt_failWith _ arguments _
  · exact .later fun arguments _ _ => patient_suspend.bind fun _ _ => prompt_failWith _ arguments _
  · exact .plain fun arguments _ => prompt_failWith _ arguments _
  · refine .orImmediately (.later fun arguments _ asynchronous => ?_) fun arguments _ => ?_
    · exact patient_callBack asynchronous _ _
    · exact prompt_callBackAtOnce _ _ _
  · exact .plain fun _ _ => prompt_callBackAtOnce _ _ _
  · exact .orImmediately (.later fun _ _ _ => minds_call rfl) fun _ _ => minds_drive rfl
  · exact .plain fun _ _ => minds_drive rfl
  · refine .plain fun arguments _ => ?_
    refine (prompt_look _).bind fun attributes _ => ?_
    refine (minds_traverse (fun held => ?_) attributes).bind fun pairs _ => ?_
    · exact (prompt_act _).bind fun _ _ => uses_pure trivial
    · exact (prompt_act _).bind fun _ _ => uses_pure trivial
  · refine .plain fun arguments _ => (prompt_firstFunction arguments).bind fun found _ => ?_
    split
    · exact uses_pure trivial
    · exact uses_pure trivial
  · refine .plain fun arguments _ => (prompt_firstFunction arguments).bind fun found _ => ?_
    split
    · exact uses_pure trivial
    · exact uses_pure trivial
  · exact .plain fun _ _ => (prompt_act _).bind fun _ _ => uses_pure trivial
  · exact .plain fun _ _ => (prompt_act .steps).bind fun _ _ => uses_pure trivial
  · exact built_causing .abort
  · exact built_causing .pause
  · exact built_causing .unpause
  · refine .plain fun arguments _ => (prompt_subscription arguments).bind fun named _ => ?_
    exact (prompt_act (.subscribe named.1 named.2)).bind fun _ _ => uses_pure trivial
  · refine .plain fun arguments _ => (prompt_subscription arguments).bind fun named _ => ?_
    exact (prompt_act (.unsubscribe named.1 named.2)).bind fun _ _ => uses_pure trivial

theorem isBuilt_host : Probe.host.IsBuilt := by
  intro name forms supplied
  obtain ⟨known, -, supplied⟩ := Option.bind_eq_some_iff.mp supplied
  exact built_forms supplied
end Probe

/-! ## Tasks -/

/--
The frames below a process of a mode.  A goal that was asked for has the mode
of the process that asked; a goal that is driven is synchronous.
-/
inductive Frame.Layered (foot : Mode) : Mode → List Frame → Prop where
  | foot : Layered foot foot []
  | call {mode : Mode} {frame : Frame} {outer : List Frame}
      (isOpen : frame.isBarrier = false)
      (resumes : ∀ outcome,
        (frame.resume outcome).Uses (.patient mode) (Turn.Minds (.patient mode)))
      (rest : Layered foot mode outer) :
      Layered foot mode (frame :: outer)
  | drive {around : Mode} {frame : Frame} {outer : List Frame}
      (isBarrier : frame.isBarrier = true)
      (resumes : ∀ outcome,
        (frame.resume outcome).Uses (.patient around) (Turn.Minds (.patient around)))
      (rest : Layered foot around outer) :
      Layered foot .synchronous (frame :: outer)

/-- Nothing asynchronous is on top of a barrier, and a synchronous foot carries nothing of it. -/
theorem Frame.Layered.of_asynchronous {foot : Mode} {stack : List Frame}
    (layered : Layered foot .asynchronous stack) :
    Task.barrier? stack = none ∧ foot = .asynchronous := by
  induction stack with
  | nil =>
      cases layered
      exact ⟨rfl, rfl⟩
  | cons frame outer inductive_step =>
      cases layered with
      | call isOpen _ rest =>
          rw [Task.barrier?, isOpen]
          exact inductive_step rest

namespace Task

/-- A task whose processes are layered over a mode, whatever the host does. -/
def Layered (foot : Mode) (task : Task) : Prop :=
  ∃ mode, task.process.Uses (.patient mode) (Turn.Minds (.patient mode)) ∧
    Frame.Layered foot mode task.stack

variable {foot : Mode} {task after : Task} {world next : World}

/-- A layered task that wants to wait is asynchronous, and not below a barrier. -/
theorem Layered.of_wait (layered : task.Layered foot) {reason : Wait} {rest : Process Turn}
    (waits : task.process = .wait reason rest) :
    barrier? task.stack = none ∧ foot = .asynchronous := by
  rcases layered with ⟨mode, uses, frames⟩
  rw [waits] at uses
  cases uses with
  | wait asynchronous _ =>
      obtain rfl : mode = .asynchronous := asynchronous
      exact frames.of_asynchronous

/-- A step keeps a task layered. -/
theorem Layered.step (built : host.IsBuilt) (layered : task.Layered foot)
    (running : task.step options host world = .running next after) :
    after.Layered foot := by
  have waitless {reason : Wait} {rest : Process Turn}
      (waits : task.process = .wait reason rest) : barrier? task.stack = none :=
    (layered.of_wait waits).1
  rcases task with ⟨process, stack⟩
  rcases layered with ⟨mode, uses, frames⟩
  have asked (goal : Goal) := Evaluation.uses_patient options built goal
  cases uses with
  | @done turn given =>
      cases turn with
      | answer outcome =>
          cases frames with
          | foot => cases running
          | call _ resumes rest | drive _ resumes rest =>
              cases running
              exact ⟨_, resumes outcome, rest⟩
      | again goal =>
          cases running
          obtain rfl : goal.context.mode = mode := given
          exact ⟨_, asked goal, frames⟩
  | act _ rest =>
      cases running
      exact ⟨mode, rest _ trivial, frames⟩
  | wait _ _ =>
      rw [step_wait (waitless rfl)] at running
      cases running
  | @call goal _ allowed rest =>
      cases running
      obtain rfl : goal.context.mode = mode := allowed
      exact ⟨_, asked goal, .call rfl rest frames⟩
  | @drive goal _ allowed rest =>
      cases running
      have driven := asked goal
      rw [show goal.context.mode = .synchronous from allowed] at driven
      exact ⟨_, driven, .drive rfl rest frames⟩

/-- A layered task that waits is layered when it goes on. -/
theorem Layered.resume {reason : Wait} (layered : task.Layered foot)
    (waiting : task.step options host world = .waiting next reason after) :
    after.Layered foot ∧ foot = .asynchronous := by
  obtain ⟨-, rest, stack, rfl, rfl⟩ := eq_of_waiting waiting
  have foot := (layered.of_wait rfl).2
  rcases layered with ⟨mode, uses, frames⟩
  cases uses with
  | wait _ uses => exact ⟨⟨mode, uses, frames⟩, foot⟩

/-- Every state that a layered task reaches is layered, whatever happens to the world meanwhile. -/
theorem Reached.layered (built : host.IsBuilt) {meanwhile : World → World → Prop}
    {start : World} {current : Task} {goals : List Goal}
    (reached : Reached options host meanwhile start task world current goals)
    (layered : task.Layered foot) :
    current.Layered foot := by
  induction reached with
  | start => exact layered
  | step _ running inductive_step => exact inductive_step.step built running
  | resume _ waiting _ inductive_step => exact (inductive_step.resume waiting).1

/-- A task with a synchronous foot does not come to wait. -/
theorem Layered.ne_waiting (built : host.IsBuilt) (layered : task.Layered .synchronous)
    {fuel : Nat} {between : World} {reason : Wait} :
    task.run options host fuel world ≠ some (.waiting between reason after) := by
  intro ran
  have comes := exists_last_of_run (fun _ task => task.Layered .synchronous) ran layered
    fun layered running => layered.step built running
  rcases comes with ⟨world, last, layered, waiting⟩
  cases (layered.resume waiting).2

end Task

/-! ## Scripts and entry points -/

namespace Task

theorem layered_ofRule {rule : Rule Value} {mode : Mode} (minds : rule.Minds (.patient mode)) :
    (ofRule rule).Layered mode :=
  ⟨mode, Evaluation.uses_process (Evaluation.uses_answering minds), .foot⟩

theorem layered_ofRuleAtOnce {rule : Rule Value} (minds : rule.Minds (.patient .synchronous)) :
    (ofRuleAtOnce rule).Layered .synchronous := by
  refine ⟨.synchronous, Evaluation.uses_process (Evaluation.uses_answering minds), ?_⟩
  exact .drive rfl (fun _ => .done trivial) .foot

end Task

theorem Evaluation.patient_runScript (root : Scope) (script : List Node) (mode : Mode) :
    (runScript root script mode).Minds (.patient mode) :=
  minds_runScript (Manner.plain_patient mode) root script

theorem Evaluation.patient_enter (callee : Value) (arguments : List Value) (mode : Mode) :
    (enter callee arguments mode).Minds (.patient mode) :=
  minds_enter (Manner.plain_patient mode) (fun _ => trivial) callee arguments

namespace Interpreter

variable {interpreter : Interpreter}

/-- A run without suspension is of a synchronous task, if it is of any. -/
theorem layered_startAtOnce (script : List Node) :
    ∀ task ∈ (interpreter.startAtOnce script).task, task.Layered .synchronous := by
  cases script with
  | nil => nofun
  | cons statement rest =>
      intro task underway
      cases underway
      exact Task.layered_ofRuleAtOnce (Evaluation.patient_runScript _ _ _)

theorem layered_startCall (callee : Value) (arguments : List Value) :
    ∀ task ∈ (startCall callee arguments .synchronous).task, task.Layered .synchronous := by
  intro task underway
  cases underway
  exact Task.layered_ofRuleAtOnce (Evaluation.patient_enter _ _ _)

/-- Every run that is started is of a layered task. -/
theorem Starts.layered {run : Run} (starts : interpreter.Starts run) :
    ∀ task ∈ run.task, ∃ foot, task.Layered foot := by
  cases starts with
  | script script =>
      cases script with
      | nil => nofun
      | cons statement rest =>
          intro task underway
          cases underway
          exact ⟨_, Task.layered_ofRule (Evaluation.patient_runScript _ _ _)⟩
  | scriptAtOnce script => exact fun task mem => ⟨_, layered_startAtOnce script task mem⟩
  | call callee arguments style =>
      cases style with
      | asynchronous =>
          intro task underway
          cases underway
          exact ⟨_, Task.layered_ofRule (Evaluation.patient_enter _ _ _)⟩
      | synchronous => exact fun task mem => ⟨_, layered_startCall callee arguments task mem⟩
      | simple =>
          intro task underway
          cases underway
          exact ⟨_, Task.layered_ofRule (Evaluation.minds_applyValue
            (Manner.plain_patient .asynchronous) callee arguments)⟩

/-- Polling a run of a synchronous task never leaves it pending. -/
theorem ne_pending_of_layered (built : interpreter.host.IsBuilt) {run : Run}
    (started : run.reason = none)
    (layered : ∀ task ∈ run.task, task.Layered .synchronous)
    {fuel : Nat} {rest : Run} {after : Interpreter} :
    interpreter.poll fuel run ≠ some (.pending rest, after) := by
  intro polled
  cases underway : run.task with
  | none =>
      rw [poll, underway] at polled
      cases polled
  | some task =>
      have ready : run.isReady interpreter.world.lifecycle = true := by
        rw [Run.isReady, started]
      rw [poll_of_ready interpreter run underway ready] at polled
      split at polled
      · cases polled
      · rename_i ran
        exact (layered task underway).ne_waiting built ran
      · cases polled

end Interpreter

end TreeScript
