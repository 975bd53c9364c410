import TreeScript.Proofs.ActionAgreement
import TreeScript.Proofs.Endings

/-!
# What the host was told before

The record of what the host was told only grows, and nothing that scripts do looks
at it.  An evaluation in a world where more was told before does the same in every
respect, and adds the same events to the record.

To put events in front of a record commutes with every action
(`World.perform_preceded`).  By `Process.Ends.preceded`, what a process comes to is
known for every past once it is known for one.
-/

namespace TreeScript

variable {options : Options} {host : Host} (past : Array (Event Snapshot))

/-! ## Actions -/

namespace World

/-- The same world, with events that the host was told before all others. -/
def preceded (world : World) : World :=
  { world with events := past ++ world.events }

/-- The same world, with nothing on record. -/
def unrecorded (world : World) : World :=
  { world with events := #[] }

/-- Every world is one with nothing on record, preceded by its events. -/
theorem preceded_unrecorded (world : World) :
    world.unrecorded.preceded world.events = world := by
  simp [preceded, unrecorded]

theorem preceded_record (world : World) (event : Event Snapshot) :
    (world.preceded past).record event = (world.record event).preceded past := by
  simp [preceded, record]

theorem preceded_log (options : Options) (name : String) (scope bound : Option String)
    (value : Option Value) (world : World) :
    (world.preceded past).log options name scope bound value =
      (world.log options name scope bound value).preceded past := by
  unfold World.log
  split
  · exact preceded_record past world _
  · rfl

theorem preceded_transition (transition : Transition) (world : World) :
    (world.preceded past).transition transition =
      (world.transition transition).preceded past := by
  simp [preceded, World.transition, Array.append_assoc]

theorem preceded_handler (tag : String) (response : Response) (world : World) :
    (world.preceded past).handler tag response =
      Prod.map id (preceded past) (world.handler tag response) := by
  have roster : (world.preceded past).roster = world.roster := rfl
  rw [handler, handler, roster]
  cases world.roster.find? tag <;> rfl

theorem preceded_deliver (options : Options) (error : Error) (world : World) :
    (world.preceded past).deliver options error =
      Prod.map id (preceded past) (world.deliver options error) := by
  have stopped : (world.preceded past).lifecycle.isStopped = world.lifecycle.isStopped := rfl
  rw [deliver, deliver, stopped, preceded_transition, preceded_record, preceded_record]
  split
  · split
    · split <;> rfl
    · rfl
  · rfl

/-- Quiet actions and ticks do the same whatever was told before. -/
theorem actionRelation_preceded (options : Options) :
    ActionRelation options options fun world other => other = world.preceded past where
  store := by
    rintro world _ rfl
    rfl
  change := by
    rintro world _ change keeps rfl
    rfl
  log := by
    rintro world _ name scope bound value - rfl
    exact preceded_log past options name scope bound value world
  tell := by
    rintro world _ name scope value rfl
    exact preceded_log past options name scope none value world
  isStopped := by
    rintro world _ rfl
    rfl
  tick := by
    rintro world _ rfl
    exact ⟨rfl, rfl⟩
  newFunction := by
    rintro world _ name body hostless rfl
    rfl
  nameFunction := by
    rintro world _ function name rfl
    rfl
  record := by
    rintro world _ event noYield rfl
    exact preceded_record past world event
  inputs := by
    rintro world _ rfl
    rfl
  withInputs := by
    rintro world _ inputs rfl
    rfl
  reportsOutput := rfl
  detail := rfl
  hasInput := rfl

/-- Every action gives the same reply and adds the same events, whatever was told before. -/
theorem perform_preceded (options : Options) (world : World) (action : Action) :
    (world.preceded past).perform options action =
      Prod.map id (preceded past) (world.perform options action) := by
  have performed {action : Action} (quiet : action.IsQuiet ∨ action = .tick) :
      (world.preceded past).perform options action =
        Prod.map id (preceded past) (world.perform options action) := by
    obtain ⟨reply, reached⟩ := (actionRelation_preceded past options).perform rfl action quiet
    exact Prod.ext reply.symm reached
  cases action with
  | pause | steps | newFunction => rfl
  | tick => exact performed (.inr rfl)
  | yielded => exact congrArg (Prod.mk ()) (preceded_record past world _)
  | deliver error => exact preceded_deliver past options error world
  | transition transition => exact congrArg (Prod.mk ()) (preceded_transition past transition world)
  | mention tag =>
      exact congrArg (fun known : Handler × World => ((), known.2))
        (preceded_handler past tag .nothing world)
  | subscribe transition tag =>
      simp only [perform, subscribe, preceded_handler]
      rfl
  | unsubscribe transition tag =>
      simp only [perform, unsubscribe, preceded_handler]
      rfl
  | _ => exact performed (.inl trivial)

end World

/-! ## Processes -/

variable {past} {α : Type} {free : Bool} {world reached : World}

/--
What a process comes to does not depend on what was told before.  The events of the
world that it would reach with nothing told before are those that the process adds.
-/
theorem Process.Ends.preceded {process : Process α} {result : Option α}
    (ends : process.Ends options host free (world.preceded past) reached result) :
    ∃ after : World, reached = after.preceded past ∧ ∀ other,
      process.Ends options host free (world.preceded other) (after.preceded other) result := by
  generalize begins : world.preceded past = start at ends
  induction ends generalizing world with
  | done => exact ⟨world, begins.symm, fun _ => .done⟩
  | @act _ _ _ _ action next _ _ inductive_step =>
      have performed (other : Array (Event Snapshot)) := world.perform_preceded other options action
      rw [← begins, performed] at inductive_step
      obtain ⟨after, rfl, anyhow⟩ := inductive_step rfl
      refine ⟨after, rfl, fun other => .act ?_⟩
      rw [performed]
      exact anyhow other
  | wait ended _ inductive_step =>
      obtain ⟨after, rfl, anyhow⟩ := inductive_step begins
      rw [← begins] at ended
      exact ⟨after, rfl, fun other => .wait ended (anyhow other)⟩
  | refused => exact ⟨world, begins.symm, fun _ => .refused⟩
  | call _ _ asks inductive_step =>
      obtain ⟨between, rfl, asked⟩ := asks begins
      obtain ⟨after, rfl, anyhow⟩ := inductive_step rfl
      exact ⟨after, rfl, fun other => .call (asked other) (anyhow other)⟩
  | callRefused _ asks =>
      obtain ⟨after, rfl, asked⟩ := asks begins
      exact ⟨after, rfl, fun other => .callRefused (asked other)⟩
  | drive _ _ asks inductive_step =>
      obtain ⟨between, rfl, asked⟩ := asks begins
      obtain ⟨after, rfl, anyhow⟩ := inductive_step rfl
      exact ⟨after, rfl, fun other => .drive (asked other) (anyhow other)⟩
  | driveRefused _ _ asks inductive_step =>
      obtain ⟨between, rfl, asked⟩ := asks begins
      obtain ⟨after, rfl, anyhow⟩ := inductive_step rfl
      exact ⟨after, rfl, fun other => .driveRefused (asked other) (anyhow other)⟩

end TreeScript
