import TreeScript.Proofs.Transitions
import Mathlib.Data.List.Nodup
import Mathlib.Data.List.Perm.Subperm

/-!
# Registrations

A handler can be registered again and again, also for the same transition, so that it
takes numbers to tell one registration from another.  A ledger is a lifecycle together
with the numbered registrations behind its handlers: `Ledger.agrees` says that these are
the handlers that wait.  A transition takes some registrations and leaves the others
(`Ledger.perm_taken_left`), and whatever is registered gets a number that none had
before (`Ledger.Adds.nodup`).
-/

namespace TreeScript

namespace Lifecycle

/-! ## Transitions that have an effect -/

/-- Whether a transition has an effect. -/
def admits (lifecycle : Lifecycle) : Transition → Bool
  | .abort => !lifecycle.isStopped
  | .pause => !lifecycle.isPaused
  | .unpause => lifecycle.isPaused

theorem enter_of_not_admits {lifecycle : Lifecycle} {transition : Transition}
    (idle : lifecycle.admits transition = false) :
    lifecycle.enter transition = (lifecycle, []) := by
  cases transition <;> simp_all [admits, enter]

/-- A transition that has an effect takes what waits for it, in the order of registration. -/
theorem taken_of_admits {lifecycle : Lifecycle} {transition : Transition}
    (admitted : lifecycle.admits transition = true) :
    (lifecycle.enter transition).2 = (lifecycle.waiting transition).reverse := by
  cases transition <;> simp_all [admits, enter, take, waiting]

theorem waiting_of_admits {lifecycle : Lifecycle} {transition : Transition}
    (admitted : lifecycle.admits transition = true) (other : Transition) :
    (lifecycle.enter transition).1.waiting other =
      if other = transition then [] else lifecycle.waiting other := by
  cases transition <;> cases other <;> simp_all [admits, enter, take, withWaiting, waiting]

theorem waiting_register (lifecycle : Lifecycle) (transition other : Transition)
    (handler : Handler) :
    (lifecycle.register transition handler).waiting other =
      if other = transition then handler :: lifecycle.waiting other
      else lifecycle.waiting other := by
  cases transition <;> cases other <;> rfl

theorem waiting_unregister (lifecycle : Lifecycle) (transition other : Transition)
    (tag : String) :
    (lifecycle.unregister transition tag).waiting other =
      if other = transition then
        (lifecycle.waiting other).filter fun handler => handler.tag != tag
      else lifecycle.waiting other := by
  cases transition <;> cases other <;> rfl

/-! ## Settling handler by handler -/

section Settling

variable {lifecycle : Lifecycle} {handler : Handler} {transition : Transition}

theorem settle_of_nothing (response : handler.response = .nothing) (rest : List Handler) :
    lifecycle.settle (handler :: rest) =
      ((lifecycle.settle rest).1, handler.tag :: (lifecycle.settle rest).2) := by
  rw [settle, response]

theorem settle_of_register (response : handler.response = .register transition)
    (rest : List Handler) :
    lifecycle.settle (handler :: rest) =
      (((lifecycle.register transition handler).settle rest).1,
        handler.tag :: ((lifecycle.register transition handler).settle rest).2) := by
  rw [settle, response]

theorem settle_of_cause (response : handler.response = .cause transition)
    (rest : List Handler) :
    lifecycle.settle (handler :: rest) =
      (((lifecycle.enter transition).1.settle ((lifecycle.enter transition).2 ++ rest)).1,
        handler.tag ::
          ((lifecycle.enter transition).1.settle ((lifecycle.enter transition).2 ++ rest)).2) := by
  rw [settle, response]

end Settling

theorem isStopped_register_eq (lifecycle : Lifecycle) (transition : Transition)
    (handler : Handler) :
    (lifecycle.register transition handler).isStopped = lifecycle.isStopped := by
  cases transition <;> rfl

/-- Only the first abort changes whether evaluation is stopped. -/
theorem isStopped_enter_eq {lifecycle : Lifecycle} {transition : Transition}
    (other : transition = .abort → lifecycle.isStopped = true) :
    (lifecycle.enter transition).1.isStopped = lifecycle.isStopped := by
  cases transition with
  | abort => rw [isStopped_enter (other rfl), other rfl]
  | pause | unpause =>
      rw [enter]
      split <;> rfl

theorem isStopped_enter_abort (lifecycle : Lifecycle) :
    (lifecycle.enter .abort).1.isStopped = true := by
  rw [enter]
  split
  · assumption
  · rfl

theorem isStopped_unregister (lifecycle : Lifecycle) (transition : Transition) (tag : String) :
    (lifecycle.unregister transition tag).isStopped = lifecycle.isStopped := by
  cases transition <;> rfl

/-! ## Operations -/

/-- What can be asked of a lifecycle from outside. -/
inductive Operation where
  | register (transition : Transition) (handler : Handler)
  | unregister (transition : Transition) (tag : String)
  | transition (transition : Transition)
  deriving DecidableEq, Repr

/-- Carry out an operation and return the tags of the handlers that fired. -/
def operate (lifecycle : Lifecycle) : Operation → Lifecycle × List String
  | .register transition handler => (lifecycle.register transition handler, [])
  | .unregister transition tag => (lifecycle.unregister transition tag, [])
  | .transition transition => lifecycle.transition transition

/-- Carry out operations one after the other. -/
def operateAll (lifecycle : Lifecycle) : List Operation → Lifecycle × List String
  | [] => (lifecycle, [])
  | operation :: rest =>
      let (between, tags) := lifecycle.operate operation
      let (after, others) := between.operateAll rest
      (after, tags ++ others)

end Lifecycle

/-! ## Numbered registrations -/

/-- A registration of a handler for a transition, with its number. -/
structure Registration where
  number : Nat
  transition : Transition
  handler : Handler
  deriving DecidableEq, Repr

/-- Whether a registration waits for an abort. -/
def Registration.awaitsAbort (registration : Registration) : Bool :=
  registration.transition = .abort

/-- A lifecycle whose registrations are numbered in the order in which they are made. -/
structure Ledger where
  lifecycle : Lifecycle
  /-- The registrations that wait, the latest one first. -/
  waiting : List Registration
  /-- The number of registrations so far. -/
  made : Nat
  /-- The handlers that wait for a transition are those of its registrations. -/
  agrees : ∀ transition,
    (waiting.filter fun registration => registration.transition = transition).map
      Registration.handler = lifecycle.waiting transition
  ordered : waiting.Pairwise fun later earlier => earlier.number < later.number
  numbered : ∀ registration ∈ waiting, registration.number < made

namespace Ledger

/-- Running, with no registrations. -/
def initial : Ledger where
  lifecycle := .initial
  waiting := []
  made := 0
  agrees transition := by cases transition <;> rfl
  ordered := .nil
  numbered := nofun

/-- The registrations that a transition takes, in the order in which they were made. -/
def taken (ledger : Ledger) (transition : Transition) : List Registration :=
  if ledger.lifecycle.admits transition then
    (ledger.waiting.filter fun registration => registration.transition = transition).reverse
  else []

/-- The registrations that a transition leaves waiting. -/
def left (ledger : Ledger) (transition : Transition) : List Registration :=
  if ledger.lifecycle.admits transition then
    ledger.waiting.filter fun registration => registration.transition ≠ transition
  else ledger.waiting

theorem left_sublist (ledger : Ledger) (transition : Transition) :
    (ledger.left transition).Sublist ledger.waiting := by
  unfold left
  split
  · exact List.filter_sublist
  · exact .refl _

/-- The registrations of a transition are taken or left. -/
theorem perm_taken_left (ledger : Ledger) (transition : Transition) :
    (ledger.taken transition ++ ledger.left transition).Perm ledger.waiting := by
  unfold taken left
  split
  · refine ((List.reverse_perm _).append_right _).trans ?_
    simpa using List.filter_append_perm (fun registration : Registration =>
      decide (registration.transition = transition)) ledger.waiting
  · exact .refl _

/-- Make a transition, whose registrations do not wait any more. -/
def enter (ledger : Ledger) (transition : Transition) : Ledger where
  lifecycle := (ledger.lifecycle.enter transition).1
  waiting := ledger.left transition
  made := ledger.made
  agrees other := by
    unfold left
    split
    · rename_i admitted
      rw [Lifecycle.waiting_of_admits admitted, List.filter_filter]
      by_cases same : other = transition
      · simp [same]
      · rw [if_neg same, ← ledger.agrees]
        congr 1
        refine List.filter_congr fun registration _ => ?_
        by_cases own : registration.transition = other
        · simp [own, same]
        · simp [own]
    · rename_i idle
      rw [Lifecycle.enter_of_not_admits (eq_false_of_ne_true idle)]
      exact ledger.agrees other
  ordered := ledger.ordered.sublist (ledger.left_sublist transition)
  numbered registration mem :=
    ledger.numbered registration ((ledger.left_sublist transition).subset mem)

/-- What a transition takes are the handlers that the lifecycle takes. -/
theorem map_handler_taken (ledger : Ledger) (transition : Transition) :
    (ledger.taken transition).map Registration.handler =
      (ledger.lifecycle.enter transition).2 := by
  unfold taken
  split
  · rename_i admitted
    rw [Lifecycle.taken_of_admits admitted, List.map_reverse, ledger.agrees]
  · rename_i idle
    rw [Lifecycle.enter_of_not_admits (eq_false_of_ne_true idle)]
    rfl

/-- Let a handler wait for a transition. -/
def register (ledger : Ledger) (transition : Transition) (handler : Handler) : Ledger where
  lifecycle := ledger.lifecycle.register transition handler
  waiting := ⟨ledger.made, transition, handler⟩ :: ledger.waiting
  made := ledger.made + 1
  agrees other := by
    rw [Lifecycle.waiting_register, ← ledger.agrees]
    by_cases same : transition = other
    · simp [same]
    · simp [same, Ne.symm same]
  ordered := List.pairwise_cons.mpr ⟨ledger.numbered, ledger.ordered⟩
  numbered := List.forall_mem_cons.mpr
    ⟨Nat.lt_succ_self _, fun registration mem => Nat.lt_succ_of_lt (ledger.numbered _ mem)⟩

/-- Remove every registration of a handler for a transition. -/
def unregister (ledger : Ledger) (transition : Transition) (tag : String) : Ledger where
  lifecycle := ledger.lifecycle.unregister transition tag
  waiting := ledger.waiting.filter fun registration =>
    ¬ (registration.transition = transition ∧ registration.handler.tag = tag)
  made := ledger.made
  agrees other := by
    rw [Lifecycle.waiting_unregister, ← ledger.agrees, List.filter_filter]
    by_cases same : other = transition
    · rw [if_pos same, List.filter_map, List.filter_filter]
      congr 1
      refine List.filter_congr fun registration _ => ?_
      by_cases own : registration.handler.tag = tag <;> simp [own, same]
    · rw [if_neg same]
      congr 1
      refine List.filter_congr fun registration _ => ?_
      by_cases own : registration.transition = other <;> simp [own, same]
  ordered := ledger.ordered.sublist List.filter_sublist
  numbered registration mem := ledger.numbered registration (List.mem_of_mem_filter mem)

/-- What waits for an abort is taken by an abort only, and only by the first one. -/
theorem filter_taken {ledger : Ledger} {transition : Transition}
    (other : transition = .abort → ledger.lifecycle.isStopped = true) :
    (ledger.taken transition).filter Registration.awaitsAbort = [] := by
  unfold taken
  split
  · rename_i admitted
    refine List.filter_eq_nil_iff.mpr fun registration mem awaits => ?_
    have own := List.of_mem_filter (List.mem_reverse.mp mem)
    obtain rfl : transition = .abort :=
      (of_decide_eq_true own).symm.trans (of_decide_eq_true awaits)
    simp [Lifecycle.admits, other rfl] at admitted
  · rfl

/-- What a transition takes is in the order in which it was registered. -/
theorem pairwise_taken (ledger : Ledger) (transition : Transition) :
    (ledger.taken transition).Pairwise fun earlier later => earlier.number < later.number := by
  unfold taken
  split
  · exact List.pairwise_reverse.mpr (ledger.ordered.sublist List.filter_sublist)
  · exact .nil

/-- The registrations that are made between two states of a ledger, in this order. -/
structure Adds (ledger after : Ledger) (added : List Registration) : Prop where
  numbers : added.map Registration.number = List.range' ledger.made added.length
  made : after.made = ledger.made + added.length

theorem Adds.nil (ledger : Ledger) : ledger.Adds ledger [] :=
  ⟨rfl, rfl⟩

theorem Adds.trans {ledger between after : Ledger} {first second : List Registration}
    (adds : ledger.Adds between first)
    (more : between.Adds after second) :
    ledger.Adds after (first ++ second) where
  numbers := by
    rw [List.map_append, adds.numbers, more.numbers, adds.made, List.range'_append_1,
      List.length_append]
  made := by rw [more.made, adds.made, List.length_append, Nat.add_assoc]

/-- The registrations that are made have numbers that none has that waits. -/
theorem Adds.nodup {ledger after : Ledger} {added : List Registration}
    (adds : ledger.Adds after added) :
    ((added ++ ledger.waiting).map Registration.number).Nodup := by
  have distinct : (ledger.waiting.map Registration.number).Nodup :=
    List.pairwise_map.mpr (ledger.ordered.imp fun less => Nat.ne_of_gt less)
  rw [List.map_append, adds.numbers]
  refine List.Nodup.append List.nodup_range' distinct fun number new old => ?_
  obtain ⟨registration, waits, rfl⟩ := List.mem_map.mp old
  exact Nat.not_lt.mpr (List.mem_range'_1.mp new).1 (ledger.numbered registration waits)

theorem Adds.made_le {ledger after : Ledger} {added : List Registration}
    (adds : ledger.Adds after added) {registration : Registration} (mem : registration ∈ added) :
    ledger.made ≤ registration.number := by
  have listed : registration.number ∈ added.map Registration.number := List.mem_map_of_mem mem
  rw [adds.numbers] at listed
  exact (List.mem_range'_1.mp listed).1

/-- A registration comes before those that are made after it. -/
theorem Adds.register {ledger after : Ledger} {transition : Transition} {handler : Handler}
    {added : List Registration}
    (adds : (ledger.register transition handler).Adds after added) :
    ledger.Adds after (⟨ledger.made, transition, handler⟩ :: added) :=
  have first : ledger.Adds (ledger.register transition handler)
      [⟨ledger.made, transition, handler⟩] := ⟨rfl, rfl⟩
  first.trans adds

end Ledger

end TreeScript
