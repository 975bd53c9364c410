import TreeScript.Proofs.Evolution
import TreeScript.Proofs.Record
import TreeScript.Proofs.Requests

/-!
# Reports of errors

The error of an execution that fails is told to the host or returned to the caller.
`Report` names what can happen to an error, and `World.news` reads off the record of a
world what the host was told between two moments, and whether evaluation had been stopped
in the world in which it was recorded.

`Report.course` says what becomes of an error when it is delivered.  It depends on the
options and on whether evaluation has been stopped.  `Report.Courses` are the courses
of many errors, one after the other, while evaluation may be stopped at any time but
never goes on again.
-/

namespace TreeScript

/-- The error that an event tells the host of. -/
def Event.failure? {α : Type} : Event α → Option Error
  | .failure error => some error
  | _ => none

/-- What happens to the error of an execution. -/
inductive Report where
  | failed (error : Error)
  /-- The host is told, in a world in which evaluation has been stopped or has not. -/
  | told (error : Error) (isStopped : Bool)
  /-- The caller of the execution gets the error. -/
  | returned (error : Error)

namespace Report

/-- The error that the host is told. -/
def told? : Report → Option Error
  | .told error _ => some error
  | _ => none

/-- What becomes of an error that is delivered. -/
def course (options : Options) (isStopped : Bool) (error : Error) : List Report :=
  .failed error ::
    if options.reportsErrors then
      if options.abortOnError then if isStopped then [] else [.told error true]
      else [.told error isStopped]
    else [.returned error]

/-- Whether evaluation has been stopped once an error has been delivered. -/
def stopsAfter (options : Options) (isStopped : Bool) : Bool :=
  isStopped || options.reportsErrors && options.abortOnError

/-- What becomes of errors that are delivered one after the other. -/
inductive Courses (options : Options) : Bool → List Report → Bool → Prop where
  | nil (isStopped : Bool) : Courses options isStopped [] isStopped
  | stop {reports : List Report} {after : Bool}
      (rest : Courses options true reports after) :
      Courses options false reports after
  | course (error : Error) {isStopped after : Bool} {reports : List Report}
      (rest : Courses options (stopsAfter options isStopped) reports after) :
      Courses options isStopped (course options isStopped error ++ reports) after

namespace Courses

variable {options : Options} {isStopped between after : Bool} {reports more : List Report}

theorem trans (first : Courses options isStopped reports between)
    (second : Courses options between more after) :
    Courses options isStopped (reports ++ more) after := by
  induction first with
  | nil isStopped => exact second
  | stop _ inductive_step => exact .stop (inductive_step second)
  | course error _ inductive_step =>
      rw [List.append_assoc]
      exact .course error (inductive_step second)

/-- Nothing is reported while evaluation stays stopped or is stopped by something else. -/
theorem quiet (stays : isStopped = true → after = true) : Courses options isStopped [] after := by
  cases isStopped with
  | true =>
      obtain rfl := stays rfl
      exact .nil true
  | false =>
      cases after with
      | true => exact .stop (.nil true)
      | false => exact .nil false

theorem single (error : Error) :
    Courses options isStopped (Report.course options isStopped error)
      (stopsAfter options isStopped) := by
  have one : Courses options isStopped (Report.course options isStopped error ++ [])
      (stopsAfter options isStopped) := .course error (.nil _)
  rwa [List.append_nil] at one

/-! ## Courses by the options -/

/-- Without a host that wants to be told, every error is returned. -/
theorem returned (courses : Courses options isStopped reports after)
    (unwanted : options.reportsErrors = false) :
    ∃ errors : List Error,
      reports = errors.flatMap fun error => [.failed error, .returned error] := by
  induction courses with
  | nil _ => exact ⟨[], rfl⟩
  | stop _ inductive_step => exact inductive_step
  | course error _ inductive_step =>
      obtain ⟨errors, rfl⟩ := inductive_step
      refine ⟨error :: errors, ?_⟩
      rw [Report.course, unwanted]
      rfl

/-- A host that does not want errors to abort is told of each. -/
theorem told (courses : Courses options isStopped reports after)
    (wanted : options.reportsErrors = true)
    (goesOn : options.abortOnError = false) :
    ∃ errors : List (Error × Bool),
      reports = errors.flatMap fun entry => [.failed entry.1, .told entry.1 entry.2] := by
  induction courses with
  | nil _ => exact ⟨[], rfl⟩
  | stop _ inductive_step => exact inductive_step
  | @course error isStopped _ _ _ inductive_step =>
      obtain ⟨errors, rfl⟩ := inductive_step
      refine ⟨(error, isStopped) :: errors, ?_⟩
      rw [Report.course, wanted, goesOn]
      rfl

end Courses

end Report

/-! ## The record of failures -/

namespace World

/-- The errors that the host has been told and that are still on record. -/
def failures (world : World) : List Error :=
  world.events.toList.filterMap Event.failure?

theorem failures_record (world : World) (event : Event Snapshot) :
    (world.record event).failures = world.failures ++ event.failure?.toList := by
  rw [failures, record, Array.toList_push, List.filterMap_append]
  cases told : event.failure? <;> simp [failures, told]

/-- The world without its last event: the one in which it was recorded, if nothing came after. -/
def beforeLast (world : World) : World :=
  { world with events := world.events.pop }

@[simp]
theorem beforeLast_record (world : World) (event : Event Snapshot) :
    (world.record event).beforeLast = world := by
  simp [beforeLast, record]

/--
What the host has been told since an earlier moment: an error that has been recorded last of all,
in a world that had been stopped or had not.
-/
def news (earlier later : World) : List Report :=
  match later.events.back?.bind Event.failure? with
  | some error =>
      if earlier.failures.length < later.failures.length then
        [.told error later.beforeLast.lifecycle.isStopped]
      else []
  | none => []

theorem news_of_eq {earlier later : World} (same : later.failures = earlier.failures) :
    earlier.news later = [] := by
  unfold news
  split
  · rw [same, if_neg (Nat.lt_irrefl _)]
  · rfl

theorem news_record {earlier told : World} (same : told.failures = earlier.failures)
    (error : Error) :
    earlier.news (told.record (.failure error)) = [.told error told.lifecycle.isStopped] := by
  have last : (told.record (.failure error)).events.back?.bind Event.failure? = some error := by
    simp [record, Event.failure?]
  have longer : earlier.failures.length < (told.record (.failure error)).failures.length := by
    simp [failures_record, same, Event.failure?]
  rw [news, last, beforeLast_record]
  exact if_pos longer

/-- What is added to the record besides errors does not count. -/
theorem Adds.failures_eq {kind : Event Snapshot → Prop} {earlier later : World}
    (adds : earlier.Adds kind later)
    (others : ∀ event, kind event → event.failure? = none) :
    later.failures = earlier.failures := by
  obtain ⟨-, told, events, allowed⟩ := adds
  have noError : told.filterMap Event.failure? = [] :=
    List.filterMap_eq_nil_iff.mpr fun event mem => others event (allowed event mem)
  rw [failures, events, List.filterMap_append, noError, List.append_nil]
  rfl

theorem failures_transition (world : World) (transition : Transition) :
    (world.transition transition).failures = world.failures := by
  have handlers : world.Adds (fun event => event.failure? = none) (world.transition transition) :=
    .transition transition world fun _ => rfl
  exact handlers.failures_eq fun _ => id

theorem failures_handler (world : World) (tag : String) (response : Response) :
    (world.handler tag response).2.failures = world.failures := by
  unfold handler
  split <;> rfl

/-- No action tells the host of an error but the delivery of one. -/
theorem failures_perform (options : Options) (world : World) (action : Action)
    (other : ∀ error, action ≠ .deliver error) :
    (world.perform options action).2.failures = world.failures := by
  refine (world.adds_perform options action).failures_eq fun event tells => ?_
  cases event with
  | failure told =>
      obtain ⟨error, delivers⟩ := tells
      exact (other error delivers).elim
  | _ => rfl

/-- Looking after a session tells its host of no error. -/
theorem upkeep_failures :
    World.Upkeep fun before after => after.failures = before.failures where
  refl _ := rfl
  trans first second := second.trans first
  readName options scope name world :=
    world.failures_perform options (.readName scope name) nofun
  assign options scope name value world :=
    world.failures_perform options (.write (.name scope name) value) nofun
  declare options scope name bound world := by
    have relation : EditRelation options options fun reached other =>
        reached = other ∧ world.Adds (fun event => event.failure? = none) reached :=
      Adds.editRelation options world fun _ _ _ _ _ => rfl
    have declared := Edit.agree_register relation bound (scope.registrations name)
    exact (declared world world ⟨rfl, .refl world⟩).2.2.failures_eq fun _ => id
  build _ _ := rfl
  transition world transition := world.failures_transition transition
  subscribe world _ tag response := world.failures_handler tag response
  unsubscribe world _ tag response := world.failures_handler tag response

/-! ## Delivery -/

/-- The report of an error that comes back from its delivery. -/
def handedBack (returned : Option Error) : List Report :=
  returned.toList.map .returned

/-- A delivery reports nothing but what becomes of the error. -/
theorem reports_deliver (options : Options) (error : Error) (world : World) :
    .failed error :: (world.news (world.deliver options error).2 ++
        handedBack (world.deliver options error).1) =
      Report.course options world.lifecycle.isStopped error := by
  rw [Report.course]
  refine congrArg _ ?_
  unfold deliver
  split
  · split
    · split
      · exact congrArg (· ++ _) (news_of_eq rfl)
      · have stopped : (world.transition .abort).lifecycle.isStopped = true :=
          Lifecycle.isStopped_abort world.lifecycle
        rw [news_record (world.failures_transition .abort), stopped]
        rfl
    · rw [news_record rfl]
      rfl
  · exact congrArg (· ++ _) (news_of_eq rfl)

/-- The host is told what the course of an error says. -/
theorem failures_deliver (options : Options) (error : Error) (world : World) :
    (world.deliver options error).2.failures =
      world.failures ++
        (Report.course options world.lifecycle.isStopped error).filterMap Report.told? := by
  rw [Report.course]
  unfold deliver
  split
  · split
    · split
      · exact (List.append_nil _).symm
      · rw [failures_record, failures_transition]
        rfl
    · exact failures_record world _
  · exact (List.append_nil _).symm

theorem isStopped_deliver (options : Options) (error : Error) (world : World) :
    (world.deliver options error).2.lifecycle.isStopped =
      Report.stopsAfter options world.lifecycle.isStopped := by
  unfold deliver Report.stopsAfter
  split
  · rename_i wanted
    split
    · rename_i aborts
      rw [wanted, aborts, Bool.and_self, Bool.or_true]
      split
      · assumption
      · exact Lifecycle.isStopped_abort world.lifecycle
    · rename_i goesOn
      rw [eq_false_of_ne_true goesOn, Bool.and_false, Bool.or_false]
      rfl
  · rename_i unwanted
    rw [eq_false_of_ne_true unwanted, Bool.false_and, Bool.or_false]

end World

end TreeScript
