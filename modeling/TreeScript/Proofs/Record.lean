import TreeScript.Proofs.EditAgreement
import TreeScript.Proofs.Execution

/-!
# The record of what the host was told

The record only grows.  `World.Adds` says that one world comes after another one and has
nothing more on record than some events of a kind.  `World.adds_perform` says it of every
action, with the events that the action may tell the host of, so that nobody has to go
through the actions again who wants to know what is never told.
-/

namespace TreeScript

variable {options : Options} {host : Host}

/--
What an action may tell the host: a log event is under the name that the action gives, or
tells what happens to a variable, and of errors only their delivery tells.
-/
def Action.MayTell (action : Action) : Event Snapshot → Prop
  | .log name _ _ _ =>
      (∃ scope value, action = .log name scope value) ∨ name ∈ variableEvents
  | .failure _ => ∃ error, action = .deliver error
  | _ => True

namespace World

/-- A world that comes later: no step and no event of the earlier one is lost. -/
structure Onward (earlier later : World) : Prop where
  steps : earlier.steps ≤ later.steps
  events : earlier.events.toList <+: later.events.toList

namespace Onward

theorem refl (world : World) : world.Onward world :=
  ⟨Nat.le_refl _, List.prefix_rfl⟩

theorem trans {earlier between later : World} (first : earlier.Onward between)
    (second : between.Onward later) : earlier.Onward later :=
  ⟨Nat.le_trans first.steps second.steps, first.events.trans second.events⟩

end Onward

/-- A world that comes later, with no more events than the earlier one but some of a kind. -/
structure Adds (kind : Event Snapshot → Prop) (earlier later : World) : Prop where
  steps : earlier.steps ≤ later.steps
  events : ∃ told : List (Event Snapshot),
    later.events.toList = earlier.events.toList ++ told ∧ ∀ event ∈ told, kind event

namespace Adds

variable {kind : Event Snapshot → Prop}

theorem onward {earlier later : World} (adds : earlier.Adds kind later) :
    earlier.Onward later := by
  obtain ⟨steps, told, events, -⟩ := adds
  exact ⟨steps, told, events.symm⟩

theorem of_events_eq {earlier later : World} (steps : earlier.steps ≤ later.steps)
    (events : later.events = earlier.events) : earlier.Adds kind later := by
  refine ⟨steps, [], ?_, List.forall_mem_nil _⟩
  rw [events, List.append_nil]

theorem refl (world : World) : world.Adds kind world :=
  of_events_eq (Nat.le_refl _) rfl

theorem trans {earlier between later : World} (first : earlier.Adds kind between)
    (second : between.Adds kind later) : earlier.Adds kind later := by
  obtain ⟨steps, told, events, allowed⟩ := first
  obtain ⟨moreSteps, more, moreEvents, moreAllowed⟩ := second
  refine ⟨Nat.le_trans steps moreSteps, told ++ more, ?_, ?_⟩
  · rw [moreEvents, events, List.append_assoc]
  · exact List.forall_mem_append.mpr ⟨allowed, moreAllowed⟩

theorem record (world : World) {event : Event Snapshot} (allowed : kind event) :
    world.Adds kind (world.record event) := by
  refine ⟨Nat.le_refl _, [event], ?_, List.forall_mem_singleton.mpr allowed⟩
  simp [World.record]

theorem log (options : Options) (name : String) (scope bound : Option String)
    (value : Option Value) (world : World)
    (allowed : ∀ shown, kind (.log name scope bound shown)) :
    world.Adds kind (world.log options name scope bound value) := by
  unfold World.log
  split
  · exact record world (allowed _)
  · exact refl world

theorem transition (transition : Transition) (world : World)
    (allowed : ∀ tag, kind (.handler tag)) :
    world.Adds kind (world.transition transition) := by
  refine ⟨Nat.le_refl _, (world.lifecycle.transition transition).2.map Event.handler, ?_, ?_⟩
  · simp [World.transition]
  · exact List.forall_mem_map.mpr fun tag _ => allowed tag

theorem handler (tag : String) (response : Response) (world : World) :
    world.Adds kind (world.handler tag response).2 := by
  unfold World.handler
  split
  · exact refl world
  · exact of_events_eq (Nat.le_refl _) rfl

theorem deliver (options : Options) (error : Error) (world : World)
    (handlers : ∀ tag, kind (.handler tag)) (failure : kind (.failure error)) :
    world.Adds kind (world.deliver options error).2 := by
  unfold World.deliver
  split
  · split
    · split
      · exact refl world
      · exact (transition .abort world handlers).trans (record _ failure)
    · exact record world failure
  · exact refl world

theorem ask (options : Options) (prompt : String) (world : World)
    (allowed : kind (.prompt prompt)) :
    world.Adds kind (world.ask options prompt).2 := by
  unfold World.ask
  split
  · have asked := record world allowed
    exact ⟨asked.steps, asked.events⟩
  · exact refl world

/-- Edits tell the host of nothing but variables. -/
theorem editRelation (options : Options) (before : World)
    (allowed : ∀ name ∈ variableEvents, ∀ scope bound value, kind (.log name scope bound value)) :
    EditRelation options options fun world other => world = other ∧ before.Adds kind world where
  store related := congrArg World.store related.1
  change := by
    rintro world _ change keeps ⟨rfl, adds⟩
    exact ⟨rfl, adds.steps, adds.events⟩
  log := by
    rintro world _ name scope bound value ofVariable ⟨rfl, adds⟩
    exact ⟨rfl, adds.trans (log options name scope bound value world
      (allowed name ofVariable scope bound))⟩

end Adds

/-- An action adds to the record what it may tell the host, and takes nothing away. -/
theorem adds_perform (options : Options) (world : World) (action : Action) :
    world.Adds action.MayTell (world.perform options action).2 := by
  have relation : EditRelation options options fun reached other =>
      reached = other ∧ world.Adds action.MayTell reached :=
    Adds.editRelation options world fun _ ofVariable _ _ _ => .inr ofVariable
  have edited {α : Type} {edit : Edit α}
      (agree : Edit.Agree
        (fun reached other => reached = other ∧ world.Adds action.MayTell reached) edit edit) :
      world.Adds action.MayTell (edit.run.run world).2 :=
    (agree world world ⟨rfl, .refl world⟩).2.2
  cases action with
  | tick => exact .of_events_eq (Nat.le_succ _) rfl
  | readName scope name => exact edited (Edit.agree_readName relation scope name)
  | define scope isMutable pattern value =>
      exact edited (Edit.agree_define relation scope isMutable pattern value)
  | decorate scope target value attributes =>
      exact edited (Edit.agree_decorate relation scope target value attributes)
  | read location => exact edited (Edit.agree_read relation location)
  | write location value => exact edited (Edit.agree_write relation location value)
  | log name scope value =>
      exact .log options name scope none value world fun _ => .inl ⟨scope, value, rfl⟩
  | print value =>
      dsimp only [World.perform]
      split
      · exact .record world trivial
      · exact .refl world
  | note value => exact .record world trivial
  | yielded => exact .record world trivial
  | ask prompt => exact .ask options prompt world trivial
  | deliver error => exact .deliver options error world (fun _ => trivial) ⟨error, rfl⟩
  | transition transition => exact .transition transition world fun _ => trivial
  | mention tag => exact .handler tag .nothing world
  | subscribe transition tag =>
      obtain ⟨steps, events⟩ := Adds.handler tag .nothing world
      exact ⟨steps, events⟩
  | unsubscribe transition tag =>
      obtain ⟨steps, events⟩ := Adds.handler tag .nothing world
      exact ⟨steps, events⟩
  | _ => exact .of_events_eq (Nat.le_refl _) rfl

/-- Every action leads onward. -/
theorem onward_perform (options : Options) (world : World) (action : Action) :
    world.Onward (world.perform options action).2 :=
  (adds_perform options world action).onward

end World

namespace Task

/-- Every step leads onward. -/
theorem onward_step {world next : World} {task after : Task}
    (running : task.step options host world = .running next after) :
    world.Onward next := by
  rcases task with ⟨process, stack⟩
  cases process with
  | done turn =>
      cases turn with
      | answer outcome =>
          cases stack with
          | nil => cases running
          | cons frame outer =>
              cases running
              exact .refl world
      | again goal =>
          cases running
          exact .refl world
  | act action rest =>
      cases running
      exact World.onward_perform options world action
  | wait reason rest =>
      cases found : barrier? stack with
      | none =>
          rw [step_wait found] at running
          cases running
      | some barrier =>
          rw [step_wait_barrier found] at running
          cases running
          exact .refl world
  | call goal rest | drive goal rest =>
      cases running
      exact .refl world

theorem onward_run {fuel : Nat} {world reached : World} {task : Task} {outcome : Outcome}
    (ran : task.run options host fuel world = some (.finished reached outcome)) :
    world.Onward reached := by
  have comes := exists_last_of_run (fun between _ => world.Onward between) ran (.refl world)
    fun onward running => onward.trans (onward_step running)
  rcases comes with ⟨between, last, onward, finished⟩
  obtain ⟨rfl, -⟩ := eq_of_finished finished
  exact onward

end Task

end TreeScript
