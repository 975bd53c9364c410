import TreeScript.Host.Probe
import TreeScript.Proofs.ClosedGoals
import TreeScript.Proofs.EntryPoints

/-!
# Errors that are passed on

A process passes errors of certain causes on if it ends at once, with an error of the
same cause, whenever a goal that it asked for gives it one.  The rules of evaluation do
so, since whoever looks at how a part ends lets its errors through
(`Evaluation.relays_ofGoal`).  The exception is the entry point, which delivers the error
and may then go on.

The functions of a host are free to catch the errors of the calls they make.  A host
relays errors if none of its functions does.
-/

namespace TreeScript

open Rule

variable {causes : Cause → Prop}

namespace Process

variable {α β : Type}

/-- What follows a goal ends with an error of the same cause when the goal gives one. -/
def PassesOn (causes : Cause → Prop) (failed : Error → α) (next : Outcome → Process α) : Prop :=
  ∀ error : Error, causes error.cause → ∃ later : Error,
    later.cause = error.cause ∧ next (.error (.error error)) = .done (failed later)

/-- A process that passes errors on, and ends with results of a kind. -/
inductive Relays (causes : Cause → Prop) (failed : Error → α) (ends : α → Prop) :
    Process α → Prop where
  | done {result : α}
      (ended : ends result) :
      Relays causes failed ends (.done result)
  | act {action : Action} {next : action.Reply → Process α}
      (rest : ∀ reply, Relays causes failed ends (next reply)) :
      Relays causes failed ends (.act action next)
  | wait {reason : Wait} {next : Process α}
      (rest : Relays causes failed ends next) :
      Relays causes failed ends (.wait reason next)
  | call {goal : Goal} {next : Outcome → Process α}
      (rest : ∀ outcome, Relays causes failed ends (next outcome))
      (passes : PassesOn causes failed next) :
      Relays causes failed ends (.call goal next)
  | drive {goal : Goal} {next : Outcome → Process α}
      (rest : ∀ outcome, Relays causes failed ends (next outcome))
      (passes : PassesOn causes failed next) :
      Relays causes failed ends (.drive goal next)

theorem PassesOn.bind {failed : Error → α} {failedAfter : Error → β}
    {next : Outcome → Process α} (passes : PassesOn causes failed next)
    {continuation : α → Process β}
    (kept : ∀ error : Error, causes error.cause → ∃ later : Error, later.cause = error.cause ∧
      continuation (failed error) = .done (failedAfter later)) :
    PassesOn causes failedAfter fun outcome => (next outcome).bind continuation := by
  intro error given
  obtain ⟨later, same, ends⟩ := passes error given
  obtain ⟨last, sameLast, endsAfter⟩ := kept later (same ▸ given)
  exact ⟨last, sameLast.trans same, (congrArg (·.bind continuation) ends).trans endsAfter⟩

theorem Relays.bind {failed : Error → α} {failedAfter : Error → β} {ends : α → Prop}
    {endsAfter : β → Prop} {process : Process α} (relays : process.Relays causes failed ends)
    {continuation : α → Process β}
    (goesOn : ∀ result, ends result → (continuation result).Relays causes failedAfter endsAfter)
    (kept : ∀ error : Error, causes error.cause → ∃ later : Error, later.cause = error.cause ∧
      continuation (failed error) = .done (failedAfter later)) :
    (process.bind continuation).Relays causes failedAfter endsAfter := by
  induction relays with
  | done ended => exact goesOn _ ended
  | act _ inductive_step => exact .act inductive_step
  | wait _ inductive_step => exact .wait inductive_step
  | call _ passes inductive_step => exact .call inductive_step (passes.bind kept)
  | drive _ passes inductive_step => exact .drive inductive_step (passes.bind kept)

end Process

/-! ## Rules -/

namespace Rule

variable {α β : Type}

/-- A rule that passes errors on. -/
def Relays (causes : Cause → Prop) (rule : Rule α) : Prop :=
  Process.Relays causes (fun error => .error (.error error)) (fun _ => True) rule.run

theorem relays_pure (result : α) : Relays causes (pure result) :=
  .done trivial

theorem relays_fail (error : Error) : Relays causes (fail error : Rule α) :=
  .done trivial

theorem Relays.bind {rule : Rule α} (relays : rule.Relays causes) {continuation : α → Rule β}
    (goesOn : ∀ result, (continuation result).Relays causes) :
    (rule >>= continuation).Relays causes := by
  refine Process.Relays.bind relays (fun result _ => ?_) fun error _ => ⟨error, rfl, rfl⟩
  cases result with
  | error interrupt => exact .done trivial
  | ok result => exact goesOn result

theorem Relays.outcome_bind {rule : Rule α} (relays : rule.Relays causes)
    {continuation : Except Interrupt α → Rule β}
    (goesOn : ∀ result, (continuation result).Relays causes)
    (kept : ∀ error : Error, ∃ later : Error, later.cause = error.cause ∧
      continuation (.error (.error error)) = fail later) :
    (outcome rule >>= continuation).Relays causes := by
  unfold Relays
  rw [run_outcome_bind]
  refine Process.Relays.bind relays (fun result _ => goesOn result) fun error _ => ?_
  obtain ⟨later, same, ends⟩ := kept error
  exact ⟨later, same, congrArg ExceptT.run ends⟩

theorem relays_perform (action : Action) : (perform action).Relays causes :=
  .act fun _ => .done trivial

theorem relays_wait (reason : Wait) : (wait reason).Relays causes :=
  .wait (.done trivial)

theorem relays_call (goal : Goal) : (call goal).Relays causes :=
  .call (fun _ => .done trivial) fun error _ => ⟨error, rfl, rfl⟩

theorem relays_drive (goal : Goal) : (drive goal).Relays causes :=
  .drive (fun _ => .done trivial) fun error _ => ⟨error, rfl, rfl⟩

/-- Rules that pass errors on may follow each other. -/
theorem sequential_relays (causes : Cause → Prop) :
    Sequential fun _ rule => rule.Relays causes where
  pure := relays_pure
  throw _ := .done trivial
  bind first := Relays.bind first
  outcome first := Relays.outcome_bind first

/-- Passing errors on is kept by the operations that rules are written with. -/
theorem compositional_relays (causes : Cause → Prop) (mode : Mode) :
    Compositional mode fun _ rule => rule.Relays causes :=
  (sequential_relays causes).compositional (fun action _ _ => relays_perform action)
    (fun _ => relays_call _) fun _ _ => relays_drive _

theorem closed_relays (causes : Cause → Prop) (mode : Mode) :
    Closed mode fun _ rule => rule.Relays causes :=
  (compositional_relays causes mode).closed fun _ _ _ => relays_perform _

theorem relays_ofExcept (result : Except Error α) : (ofExcept result).Relays causes :=
  closed_ofExcept (closed_relays causes .asynchronous) result

theorem relays_look (view : Store → α) : (look view).Relays causes :=
  closed_look (closed_relays causes .asynchronous) view

end Rule

/-! ## Hosts -/

/-- A promise that is kept without catching errors. -/
def Promise.Relays (causes : Cause → Prop) : Promise → Prop
  | .ready _ => True
  | .pending later => later.Relays causes

namespace NativeForms

/-- A native function that passes errors on, however it is called. -/
def Relays (causes : Cause → Prop) (forms : NativeForms) : Prop :=
  ∀ arguments context site, (forms.apply arguments context site).Relays causes

theorem relays_ofGeneral {answer : List Value → Context → Rule Promise}
    (relays : ∀ arguments context, (answer arguments context).run.Relays causes
      (fun error => .error (.error error)) fun result =>
        ∀ promise ∈ result.toOption, promise.Relays causes) :
    (ofGeneral answer).Relays causes := by
  rintro arguments ⟨calls, mode⟩ site
  have general : (ofGeneral answer).apply arguments ⟨calls, mode⟩ site =
      (ofGeneral answer).applyGeneral arguments
        ((Context.mk calls mode).enter "<native>" site) mode := by
    cases mode <;> rfl
  rw [general]
  refine Process.Relays.bind (relays arguments _) (fun result kept => ?_) fun error _ =>
    ⟨error, rfl, rfl⟩
  rcases result with interrupt | (value | promised)
  · exact .done trivial
  · exact .done trivial
  · cases mode with
    | synchronous => exact .done trivial
    | asynchronous => exact kept (.pending promised) rfl

theorem relays_plain {answer : List Value → Context → Rule Value}
    (relays : ∀ arguments context, (answer arguments context).Relays causes) :
    (plain answer).Relays causes := by
  refine relays_ofGeneral fun arguments context => ?_
  refine Process.Relays.bind (relays arguments context) (fun result _ => ?_) fun error _ =>
    ⟨error, rfl, rfl⟩
  rcases result with interrupt | value
  · exact .done nofun
  · refine .done ?_
    rintro promise ⟨⟩
    trivial

theorem relays_later {answer : List Value → Context → Rule Value}
    (relays : ∀ arguments context, (answer arguments context).Relays causes) :
    (later answer).Relays causes := by
  refine relays_ofGeneral fun arguments context => .done ?_
  rintro promise ⟨⟩
  exact relays arguments context

theorem Relays.orImmediately {forms : NativeForms} (general : forms.Relays causes)
    {answer : List Value → Context → Rule Value}
    (relays : ∀ arguments context, (answer arguments context).Relays causes) :
    (forms.orImmediately answer).Relays causes := by
  rintro arguments ⟨calls, mode⟩ site
  cases mode with
  | asynchronous => exact general arguments ⟨calls, .asynchronous⟩ site
  | synchronous => exact relays arguments _

end NativeForms

/-- A host none of whose functions catches errors of certain causes. -/
def Host.Relays (causes : Cause → Prop) (host : Host) : Prop :=
  ∀ (name : String) (forms : NativeForms), host name = some forms → forms.Relays causes

/-! ## Goals -/

/-- A turn that ends with an error. -/
def Turn.failed (error : Error) : Turn :=
  .answer (.error (.error error))

/-- Whether a goal is an entry point. -/
def Goal.IsEntry : Goal → Prop
  | .enter _ _ _ => True
  | _ => False

namespace Evaluation

theorem relays_gate (irq : Irq) : (gate irq).Relays causes :=
  closed_gate (closed_relays causes .asynchronous) (relays_perform .pause) (relays_perform .steps)
    (relays_perform .yielded) relays_wait irq

theorem relays_process {rule : Rule Turn} (relays : rule.Relays causes) :
    (process rule).Relays causes Turn.failed fun _ => True :=
  Process.Relays.bind relays (fun _ _ => .done trivial) fun error _ => ⟨error, rfl, rfl⟩

/-- Every goal passes errors on but an entry point. -/
theorem relays_ofGoal (options : Options) {host : Host} (guests : host.Relays causes)
    {goal : Goal} (noEntry : ¬ goal.IsEntry) :
    (ofGoal options host goal).Relays causes Turn.failed fun _ => True := by
  have runs : goal.RunsIn goal.context.mode := by
    cases goal with
    | enter callee arguments mode => exact (noEntry trivial).elim
    | _ => rfl
  refine relays_process (closed_turn (closed_relays causes goal.context.mode) ?_ ?_ ?_ ?_ ?_ runs)
  · exact relays_perform .tick
  · exact fun _ => relays_gate options.irq
  · exact fun function arguments context site _ =>
      closed_apply (closed_relays causes context.mode) options function arguments site
        fun name forms supplied => guests name forms supplied arguments context site
  · exact fun node scope context _ => closed_definition (closed_relays causes context.mode)
      (fun _ _ => relays_perform _) node.start
  · exact fun node scope context _ => compositional_signal
      (compositional_relays causes context.mode) (fun _ _ _ => relays_perform _) rfl scope
      node.start

/-- A script passes errors on, and ends with an outcome. -/
theorem relays_script (root : Scope) (script : List Node) (mode : Mode) :
    (process (answering (runScript root script mode))).Relays causes Turn.failed
      Turn.IsAnswer := by
  have relays : (runScript root script mode).Relays causes :=
    closed_runScript (closed_relays causes mode) (fun _ _ => relays_perform _) root script
  rw [process_answering]
  exact Process.Relays.bind relays (fun _ _ => .done trivial) fun error _ => ⟨error, rfl, rfl⟩

end Evaluation

/-! ## The probing host -/

namespace Probe

theorem relays_failWith (cause : String → Cause) (arguments : List Value) :
    (failWith cause arguments).Relays causes :=
  (relays_ofExcept (first arguments).asStr).bind fun _ => relays_fail _

theorem relays_causing (transition : Transition) : (causing transition).Relays causes :=
  NativeForms.relays_plain fun _ _ =>
    (relays_perform (.transition transition)).bind fun _ => relays_pure _

theorem relays_subscription (arguments : List Value) :
    (subscription arguments).Relays causes := by
  refine (relays_ofExcept (second arguments).asStr).bind fun tag => ?_
  refine (relays_perform (.mention tag)).bind fun _ => ?_
  exact (relays_ofExcept (event arguments)).bind fun _ => relays_pure _

theorem relays_firstFunction (arguments : List Value) :
    (firstFunction arguments).Relays causes :=
  (relays_ofExcept (first arguments).asFn).bind fun _ => relays_look _

theorem relays_callBack (callee : Value) (arguments : List Value) (context : Context) :
    (callBack callee arguments context).Relays causes :=
  (relays_ofExcept callee.asFn).bind fun _ => relays_call _

theorem relays_callBackAtOnce (callee : Value) (arguments : List Value) (context : Context) :
    (callBackAtOnce callee arguments context).Relays causes :=
  (relays_ofExcept callee.asFn).bind fun _ => relays_drive _

theorem relays_forms {name : String} {forms : NativeForms} (supplied : forms? name = some forms) :
    forms.Relays causes := by
  unfold forms? at supplied
  split at supplied <;> cases supplied
  · exact NativeForms.relays_plain fun _ _ => relays_pure _
  · refine (NativeForms.relays_later fun _ _ => ?_).orImmediately fun _ _ => relays_pure _
    exact relays_pure _
  · exact NativeForms.relays_later fun _ _ => (relays_wait .nextPoll).bind fun _ => relays_pure _
  · refine NativeForms.relays_ofGeneral fun _ _ => .done ?_
    rintro promise ⟨⟩
    trivial
  · refine NativeForms.relays_ofGeneral fun arguments _ => ?_
    refine Process.Relays.bind (relays_ofExcept (first arguments).asBool) (fun result _ => ?_)
      fun error _ => ⟨error, rfl, rfl⟩
    rcases result with interrupt | (_ | _)
    · exact .done nofun
    · refine .done ?_
      rintro promise ⟨⟩
      exact (relays_wait .nextPoll).bind fun _ => relays_pure _
    · refine .done ?_
      rintro promise ⟨⟩
      trivial
  · exact NativeForms.relays_plain fun arguments _ => relays_failWith _ arguments
  · refine NativeForms.relays_later fun arguments _ => ?_
    exact (relays_wait .nextPoll).bind fun _ => relays_failWith _ arguments
  · exact NativeForms.relays_plain fun arguments _ => relays_failWith _ arguments
  · refine (NativeForms.relays_later fun _ _ => ?_).orImmediately fun _ _ => ?_
    · exact relays_callBack _ _ _
    · exact relays_callBackAtOnce _ _ _
  · exact NativeForms.relays_plain fun _ _ => relays_callBackAtOnce _ _ _
  · refine (NativeForms.relays_later fun _ _ => ?_).orImmediately fun _ _ => relays_drive _
    exact relays_call _
  · exact NativeForms.relays_plain fun _ _ => relays_drive _
  · refine NativeForms.relays_plain fun arguments _ => ?_
    refine (relays_look _).bind fun attributes => ?_
    refine (closed_traverse (closed_relays causes .asynchronous) (fun held => ?_)
      attributes).bind fun pairs => ?_
    · exact (relays_perform (.newArray _)).bind fun _ => relays_pure _
    · exact (relays_perform (.newArray _)).bind fun _ => relays_pure _
  · refine NativeForms.relays_plain fun arguments _ => ?_
    refine (relays_firstFunction arguments).bind fun found => ?_
    split <;> exact relays_pure _
  · refine NativeForms.relays_plain fun arguments _ => ?_
    refine (relays_firstFunction arguments).bind fun found => ?_
    split <;> exact relays_pure _
  · exact NativeForms.relays_plain fun arguments _ =>
      (relays_perform (.note (first arguments))).bind fun _ => relays_pure _
  · exact NativeForms.relays_plain fun _ _ => (relays_perform .steps).bind fun _ => relays_pure _
  · exact relays_causing .abort
  · exact relays_causing .pause
  · exact relays_causing .unpause
  · refine NativeForms.relays_plain fun arguments _ => ?_
    refine (relays_subscription arguments).bind fun named => ?_
    exact (relays_perform (.subscribe _ _)).bind fun _ => relays_pure _
  · refine NativeForms.relays_plain fun arguments _ => ?_
    refine (relays_subscription arguments).bind fun named => ?_
    exact (relays_perform (.unsubscribe _ _)).bind fun _ => relays_pure _

/-- No function of the probing host catches an error. -/
theorem relays_host : Probe.host.Relays causes := by
  intro name forms supplied
  obtain ⟨known, -, supplied⟩ := Option.bind_eq_some_iff.mp supplied
  exact relays_forms supplied

end Probe

end TreeScript
