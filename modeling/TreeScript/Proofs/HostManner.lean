import TreeScript.Host.Probe
import TreeScript.Proofs.GoalManner

/-!
# The manner of a host

Functions of a host mind a manner if all their forms do, whatever they are called
with and wherever.  A plain manner that the functions of a host mind is then kept by
every goal of evaluation.

The probing host minds every manner in which a function may do what it likes but take
steps, deliver errors, put attributes on bindings and name functions.
-/

namespace TreeScript

open Rule

/-- A promise that is kept in a manner. -/
def Promise.Minds (manner : Manner) : Promise → Prop
  | .ready _ => True
  | .pending later => later.Minds manner

namespace NativeForms

/-- A native function all of whose forms mind a manner. -/
structure Minds (manner : Manner) (forms : NativeForms) : Prop where
  general : ∀ arguments context,
    (forms.general arguments context).Uses manner (Promise.Minds manner)
  immediate : ∀ answer ∈ forms.immediate, ∀ arguments context,
    (answer arguments context).Minds manner

variable {manner : Manner}

theorem minds_ofGeneral {answer : List Value → Context → Rule Promise}
    (uses : ∀ arguments context, (answer arguments context).Uses manner (Promise.Minds manner)) :
    (ofGeneral answer).Minds manner :=
  ⟨uses, nofun⟩

theorem minds_ofPlain {answer : List Value → Context → Rule Value}
    (minds : ∀ arguments context, (answer arguments context).Minds manner) :
    (plain answer).Minds manner :=
  ⟨fun arguments context => (minds arguments context).bind fun _ _ => uses_pure trivial, nofun⟩

theorem minds_ofLater {answer : List Value → Context → Rule Value}
    (minds : ∀ arguments context, (answer arguments context).Minds manner) :
    (later answer).Minds manner :=
  ⟨fun arguments context => uses_pure (minds arguments context), nofun⟩

theorem Minds.orImmediately {forms : NativeForms} (mindful : forms.Minds manner)
    {answer : List Value → Context → Rule Value}
    (minds : ∀ arguments context, (answer arguments context).Minds manner) :
    (forms.orImmediately answer).Minds manner :=
  ⟨mindful.general, fun _ same => Option.some.inj same ▸ minds⟩

theorem Minds.apply {forms : NativeForms} (mindful : forms.Minds manner)
    (arguments : List Value) (context : Context) (site : Option Position) :
    (forms.apply arguments context site).Minds manner := by
  unfold NativeForms.apply
  dsimp only
  split
  · rename_i answer isSynchronous immediate
    exact mindful.immediate answer immediate arguments _
  · refine (mindful.general arguments _).bind fun promise kept => ?_
    cases promise with
    | ready value => exact uses_pure trivial
    | pending promised =>
        dsimp only
        split
        · exact uses_fail _
        · exact kept

end NativeForms

/-- A host all of whose functions mind a manner. -/
def Host.Minds (manner : Manner) (host : Host) : Prop :=
  ∀ (name : String) (forms : NativeForms), host name = some forms → forms.Minds manner

/-- Every native function minds a plain manner that the functions of the host mind. -/
theorem Manner.serves_of_minds {manner : Manner} {host : Host} {mode : Mode}
    (plain : manner.Plain mode) (guests : host.Minds manner) :
    manner.Serves host mode where
  toPlain := plain
  natives := by
    rintro store function found native - - - context arguments site rfl
    exact Evaluation.closed_nativeForms plain.closed native arguments site
      fun name forms _ supplied => (guests name forms supplied).apply arguments context site

/-! ## The probing host -/

/-- A manner in which everything is allowed but taking steps, delivering errors, putting
attributes on what has been defined and naming functions. -/
structure Manner.Welcomes (manner : Manner) : Prop where
  acts : ∀ action, action ≠ .tick → (∀ error, action ≠ .deliver error) →
    action.isDecoration = false → action.isNaming = false → manner.acts action
  waits : manner.waits .nextPoll
  calls : ∀ goal, manner.calls goal
  drives : ∀ goal, manner.drives goal

namespace Probe

section Guests

variable {manner : Manner} (welcomes : manner.Welcomes)

theorem minds_failWith (cause : String → Cause) (arguments : List Value) :
    (failWith cause arguments).Minds manner :=
  (minds_ofExcept (first arguments).asStr).bind fun _ _ => uses_fail _

include welcomes

theorem minds_suspend : suspend.Minds manner :=
  minds_wait welcomes.waits

theorem minds_act (action : Action) (noTick : action ≠ .tick)
    (noDelivery : ∀ error, action ≠ .deliver error) (noDecoration : action.isDecoration = false)
    (noNaming : action.isNaming = false) :
    (perform action).Minds manner :=
  minds_perform (welcomes.acts action noTick noDelivery noDecoration noNaming)

theorem minds_seeing {α : Type} (view : Store → α) : (look view).Minds manner :=
  uses_look (welcomes.acts .store nofun nofun rfl rfl) fun _ _ => trivial

theorem minds_causing (transition : Transition) : (causing transition).Minds manner :=
  NativeForms.minds_ofPlain fun _ _ =>
    (minds_act welcomes (.transition transition) nofun nofun rfl rfl).bind fun _ _ =>
      uses_pure trivial

theorem minds_subscription (arguments : List Value) : (subscription arguments).Minds manner := by
  refine (minds_ofExcept (second arguments).asStr).bind fun tag _ => ?_
  refine (minds_act welcomes (.mention tag) nofun nofun rfl rfl).bind fun _ _ => ?_
  exact (minds_ofExcept (event arguments)).bind fun _ _ => uses_pure trivial

theorem minds_firstFunction (arguments : List Value) : (firstFunction arguments).Minds manner :=
  (minds_ofExcept (first arguments).asFn).bind fun _ _ => minds_seeing welcomes _

theorem minds_callBack (callee : Value) (arguments : List Value) (context : Context) :
    (callBack callee arguments context).Minds manner :=
  (minds_ofExcept callee.asFn).bind fun _ _ => minds_call (welcomes.calls _)

theorem minds_callBackAtOnce (callee : Value) (arguments : List Value) (context : Context) :
    (callBackAtOnce callee arguments context).Minds manner :=
  (minds_ofExcept callee.asFn).bind fun _ _ => minds_drive (welcomes.drives _)

/-- No function of the probing host takes steps, delivers errors, puts attributes on bindings or
names functions. -/
theorem minds_forms {name : String} {forms : NativeForms} (supplied : forms? name = some forms) :
    forms.Minds manner := by
  unfold forms? at supplied
  split at supplied <;> cases supplied
  · exact NativeForms.minds_ofPlain fun _ _ => uses_pure trivial
  · refine (NativeForms.minds_ofLater fun _ _ => ?_).orImmediately fun _ _ => uses_pure trivial
    exact uses_pure trivial
  · refine NativeForms.minds_ofLater fun _ _ => ?_
    exact (minds_suspend welcomes).bind fun _ _ => uses_pure trivial
  · exact NativeForms.minds_ofGeneral fun _ _ => uses_pure trivial
  · refine NativeForms.minds_ofGeneral fun arguments _ => ?_
    refine (minds_ofExcept (first arguments).asBool).bind fun ready _ => ?_
    cases ready with
    | true => exact uses_pure trivial
    | false => exact uses_pure ((minds_suspend welcomes).bind fun _ _ => uses_pure trivial)
  · exact NativeForms.minds_ofPlain fun arguments _ => minds_failWith _ arguments
  · refine NativeForms.minds_ofLater fun arguments _ => ?_
    exact (minds_suspend welcomes).bind fun _ _ => minds_failWith _ arguments
  · exact NativeForms.minds_ofPlain fun arguments _ => minds_failWith _ arguments
  · refine (NativeForms.minds_ofLater fun _ _ => ?_).orImmediately fun _ _ => ?_
    · exact minds_callBack welcomes _ _ _
    · exact minds_callBackAtOnce welcomes _ _ _
  · exact NativeForms.minds_ofPlain fun _ _ => minds_callBackAtOnce welcomes _ _ _
  · refine (NativeForms.minds_ofLater fun _ _ => ?_).orImmediately fun _ _ => ?_
    · exact minds_call (welcomes.calls _)
    · exact minds_drive (welcomes.drives _)
  · exact NativeForms.minds_ofPlain fun _ _ => minds_drive (welcomes.drives _)
  · refine NativeForms.minds_ofPlain fun arguments _ => ?_
    refine (minds_seeing welcomes _).bind fun attributes _ => ?_
    refine (minds_traverse (fun held => ?_) attributes).bind fun pairs _ => ?_
    · exact (minds_act welcomes (.newArray _) nofun nofun rfl rfl).bind fun _ _ => uses_pure trivial
    · exact (minds_act welcomes (.newArray _) nofun nofun rfl rfl).bind fun _ _ => uses_pure trivial
  · refine NativeForms.minds_ofPlain fun arguments _ => ?_
    refine (minds_firstFunction welcomes arguments).bind fun found _ => ?_
    split <;> exact uses_pure trivial
  · refine NativeForms.minds_ofPlain fun arguments _ => ?_
    refine (minds_firstFunction welcomes arguments).bind fun found _ => ?_
    split <;> exact uses_pure trivial
  · exact NativeForms.minds_ofPlain fun arguments _ =>
      (minds_act welcomes (.note (first arguments)) nofun nofun rfl rfl).bind fun _ _ =>
        uses_pure trivial
  · exact NativeForms.minds_ofPlain fun _ _ =>
      (minds_act welcomes .steps nofun nofun rfl rfl).bind fun _ _ => uses_pure trivial
  · exact minds_causing welcomes .abort
  · exact minds_causing welcomes .pause
  · exact minds_causing welcomes .unpause
  · refine NativeForms.minds_ofPlain fun arguments _ => ?_
    refine (minds_subscription welcomes arguments).bind fun named _ => ?_
    exact (minds_act welcomes (.subscribe _ _) nofun nofun rfl rfl).bind fun _ _ =>
      uses_pure trivial
  · refine NativeForms.minds_ofPlain fun arguments _ => ?_
    refine (minds_subscription welcomes arguments).bind fun named _ => ?_
    exact (minds_act welcomes (.unsubscribe _ _) nofun nofun rfl rfl).bind fun _ _ =>
      uses_pure trivial

theorem minds_host : Probe.host.Minds manner := by
  intro name forms supplied
  obtain ⟨known, -, supplied⟩ := Option.bind_eq_some_iff.mp supplied
  exact minds_forms welcomes supplied

end Guests

end Probe

end TreeScript
