import TreeScript.Proofs.Halting
import TreeScript.Proofs.HostManner
import TreeScript.Proofs.Patience

/-!
# What takes no steps

A step is taken where a node is entered, and nowhere else.  Constructs, loops,
calls and the functions of the library take none by their rules.  A function of
the host may cause transitions, call back and wait to be polled again, but it
has no way to take a step, to look whether it is time for one, or to wait for
the end of a pause (`Host.IsStepless`).

Besides, only a loop has another goal take its place, which is the rest of it.
-/

namespace TreeScript

open Rule

/--
The manner of evaluation that takes no steps.  In the company of functions of
the host much more may happen than without them.
-/
def Manner.stepless (hosted : Prop) : Manner where
  acts action := action ≠ .tick ∧ (hosted ∨ action.Hostless ∨ ∃ error, action = .deliver error)
  replies action reply := hosted ∨ action.Expected reply
  waits reason := hosted ∧ reason = .nextPoll
  calls goal := hosted ∨ goal.RunsIn .asynchronous
  drives _ := hosted

namespace Manner

variable {hosted : Prop}

theorem plain_stepless {mode : Mode} (apt : hosted ∨ mode = .asynchronous) :
    (stepless hosted).Plain mode where
  acts action quiet := by
    have plain := Action.IsQuiet.plain quiet
    exact ⟨plain.ne_tick, .inr (.inl plain.hostless)⟩
  calls goal runs := by
    rcases apt with isHosted | rfl
    · exact .inl isHosted
    · exact .inr runs
  drives atOnce goal _ := by
    rcases apt with isHosted | asynchronous
    · exact isHosted
    · cases atOnce.symm.trans asynchronous

theorem stepless_delivers (error : Error) : (stepless hosted).acts (.deliver error) :=
  ⟨nofun, .inr (.inr ⟨error, rfl⟩)⟩

end Manner

/-! ## Functions of the host -/

/-- A promise that is kept without steps. -/
def Promise.Stepless : Promise → Prop
  | .ready _ => True
  | .pending later => later.Minds (.stepless True)

namespace NativeForms

/-- A native function none of whose forms takes steps. -/
structure Stepless (forms : NativeForms) : Prop where
  general : ∀ arguments context,
    (forms.general arguments context).Uses (.stepless True) Promise.Stepless
  immediate : ∀ answer ∈ forms.immediate, ∀ arguments context,
    (answer arguments context).Minds (.stepless True)

theorem stepless_iff_minds {forms : NativeForms} :
    forms.Stepless ↔ forms.Minds (.stepless True) :=
  ⟨fun stepless => ⟨stepless.general, stepless.immediate⟩,
    fun mindful => ⟨mindful.general, mindful.immediate⟩⟩

end NativeForms

/-- A host none of whose functions takes steps. -/
def Host.IsStepless (host : Host) : Prop :=
  ∀ (name : String) (forms : NativeForms), host name = some forms → forms.Stepless

theorem Host.isStepless_none : Host.none.IsStepless :=
  nofun

/-- No native function takes steps. -/
theorem Manner.serves_stepless {hosted : Prop} {host : Host} (guests : hosted → host.IsStepless)
    {mode : Mode} (apt : hosted ∨ mode = .asynchronous) :
    (stepless hosted).Serves host mode where
  toPlain := plain_stepless apt
  natives := by
    rintro store function found native replied present isNative context arguments site rfl
    refine Evaluation.closed_nativeForms (plain_stepless apt).closed native arguments site ?_
    rintro name forms rfl supplied
    -- The store is known to hold no function of the host, unless the host has a say.
    rcases replied with isHosted | hostless
    · rw [eq_true isHosted]
      have stepless := guests isHosted name forms supplied
      exact (NativeForms.stepless_iff_minds.mp stepless).apply arguments context site
    · have own := hostless function found present
      rw [isNative] at own
      exact own.elim

/-! ## Loops -/

/-- The manner in which everything is allowed. -/
def Manner.free : Manner :=
  ⟨fun _ => True, fun _ _ => True, fun _ => True, fun _ => True, fun _ => True⟩

namespace Process

variable {α : Type}

theorem uses_free {holds : α → Prop} (given : ∀ result, holds result) (process : Process α) :
    process.Uses .free holds := by
  induction process with
  | done result => exact .done (given result)
  | act action next inductive_step => exact .act trivial fun reply _ => inductive_step reply
  | wait reason next inductive_step => exact .wait trivial inductive_step
  | call goal next inductive_step => exact .call trivial inductive_step
  | drive goal next inductive_step => exact .drive trivial inductive_step

/-- What is known of the results in one way is known besides what is known in another. -/
theorem Uses.and {manner : Manner} {holds also : α → Prop} {process : Process α}
    (uses : process.Uses manner holds) (gives : process.Uses .free also) :
    process.Uses manner fun result => holds result ∧ also result := by
  induction uses with
  | done given =>
      cases gives with
      | done too => exact .done ⟨given, too⟩
  | act allowed _ inductive_step =>
      cases gives with
      | act _ rest => exact .act allowed fun reply replied =>
          inductive_step reply replied (rest reply trivial)
  | wait allowed _ inductive_step =>
      cases gives with
      | wait _ rest => exact .wait allowed (inductive_step rest)
  | call allowed _ inductive_step =>
      cases gives with
      | call _ rest => exact .call allowed fun outcome => inductive_step outcome (rest outcome)
  | drive allowed _ inductive_step =>
      cases gives with
      | drive _ rest => exact .drive allowed fun outcome => inductive_step outcome (rest outcome)

end Process

/-- A turn that is over, or goes on with a loop. -/
def Turn.RepeatsLoop : Turn → Prop
  | .answer _ => True
  | .again goal => goal.IsLoop

namespace Evaluation

variable {hosted : Prop} {options : Options} {host : Host}

theorem minds_free {α : Type} (rule : Rule α) : rule.Minds .free :=
  Process.uses_free (fun _ _ _ => trivial) rule.run

theorem uses_turnAfter_repeatsLoop (label : Option String) {rest : Goal} (isLoop : rest.IsLoop)
    (body : Rule Value) :
    (turnAfter label rest body).Uses .free Turn.RepeatsLoop := by
  refine (minds_free body).outcome_bind fun outcome => ?_
  split
  · exact uses_pure isLoop
  · exact uses_pure trivial
  · exact uses_throw _

theorem uses_unlessStopped_repeatsLoop {turn : Rule Turn}
    (uses : turn.Uses .free Turn.RepeatsLoop) :
    (do
      if ← perform .isStopped then return finished
      turn).Uses .free Turn.RepeatsLoop := by
  refine (minds_free _).bind fun stopped _ => ?_
  cases stopped with
  | true => exact uses_pure trivial
  | false => exact uses

/-- A turn at a goal ends with an answer, or with the rest of the loop that the goal is. -/
theorem uses_turn_repeatsLoop (goal : Goal) :
    (turn options host goal).Uses .free Turn.RepeatsLoop := by
  have answers (rule : Rule Value) : (answering rule).Uses .free Turn.RepeatsLoop :=
    (minds_free rule).bind fun _ _ => uses_pure trivial
  cases goal with
  | loop label statements scope context =>
      refine uses_unlessStopped_repeatsLoop ?_
      exact (minds_free _).bind fun _ _ => uses_turnAfter_repeatsLoop label (by trivial) _
  | times label count limit body scope context =>
      have shape : turn options host (.times label count limit body scope context) =
          timesTurn label count limit body scope context := rfl
      rw [shape, timesTurn]
      split
      · exact uses_pure trivial
      · exact uses_unlessStopped_repeatsLoop (uses_turnAfter_repeatsLoop label (by trivial) _)
  | range label counter count limit body scope context =>
      have shape : turn options host (.range label counter count limit body scope context) =
          rangeTurn label counter count limit body scope context := rfl
      rw [shape, rangeTurn]
      split
      · exact uses_pure trivial
      · refine uses_unlessStopped_repeatsLoop ?_
        exact (minds_free _).bind fun _ _ => uses_turnAfter_repeatsLoop label (by trivial) _
  | each label pattern array place body scope context =>
      refine uses_unlessStopped_repeatsLoop ?_
      refine (minds_free _).bind fun item _ => ?_
      cases item with
      | none => exact uses_pure trivial
      | some item =>
          refine (minds_free _).bind fun _ _ => ?_
          exact (minds_free _).bind fun _ _ => uses_turnAfter_repeatsLoop label (by trivial) _
  | _ => exact answers _

theorem uses_process_repeatsLoop {rule : Rule Turn} (uses : rule.Uses .free Turn.RepeatsLoop) :
    (process rule).Uses .free Turn.RepeatsLoop := by
  refine Process.Uses.bind uses fun result given => .done ?_
  rcases result with interrupt | turn
  · trivial
  · exact given turn rfl

end Evaluation

/-- A turn that is over, or goes on with a loop that may be asked for. -/
def Turn.Stepless (hosted : Prop) (turn : Turn) : Prop :=
  turn.Minds (.stepless hosted) ∧ turn.RepeatsLoop

namespace Evaluation

variable {hosted : Prop} {host : Host}

/-- A rule that takes no steps makes a process of this kind. -/
theorem stepless_answering {rule : Rule Value} (minds : rule.Minds (.stepless hosted)) :
    (process (answering rule)).Uses (.stepless hosted) (Turn.Stepless hosted) :=
  (uses_process (uses_answering minds)).and
    (uses_process_repeatsLoop ((minds_free rule).bind fun _ _ => uses_pure trivial))

/-- No goal but the evaluation of a node takes steps. -/
theorem stepless_ofGoal (guests : hosted → host.IsStepless) (options : Options) {goal : Goal}
    (allowed : (Manner.stepless hosted).calls goal) (noNode : ¬ goal.IsNode) :
    (ofGoal options host goal).Uses (.stepless hosted) (Turn.Stepless hosted) := by
  refine Process.Uses.and ?_ (uses_process_repeatsLoop (uses_turn_repeatsLoop goal))
  cases goal with
  | enter callee arguments mode =>
      have apt : hosted ∨ mode = .asynchronous := allowed.imp_right False.elim
      exact uses_process (uses_answering
        (minds_enter (Manner.plain_stepless apt) Manner.stepless_delivers callee arguments))
  | _ =>
      refine uses_ofGoal_of_not_isNode (Manner.serves_stepless guests ?_) rfl noNode
      exact allowed

end Evaluation

/-! ## The probing host -/

namespace Probe

/-- No function of the probing host takes steps. -/
theorem isStepless_host : Probe.host.IsStepless := by
  have welcomes : (Manner.stepless True).Welcomes :=
    ⟨fun _ noTick _ _ _ => ⟨noTick, .inl trivial⟩, ⟨trivial, rfl⟩, fun _ => .inl trivial,
      fun _ => trivial⟩
  exact fun name forms supplied =>
    NativeForms.stepless_iff_minds.mpr (minds_host welcomes name forms supplied)

end Probe

end TreeScript
