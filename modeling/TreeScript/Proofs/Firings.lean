import TreeScript.Proofs.Registrations
import Mathlib.Logic.ExistsUnique

/-!
# The firing of handlers

A handler that fires may cause another transition, whose handlers fire before the
next one, and so on; meanwhile the lists of those that wait change.  `Ledger.Fires`
follows this nesting: each registration that fires is followed by all that it
brings about, as a tree.

Nothing that fires is lost or invented: what has fired and what still waits are the
registrations that waited before and those that were made meanwhile
(`Ledger.Fires.perm`).  All that is said of single registrations comes from that, and
`Ledger.handlers_fire_in_turn` says it of every sequence of operations.
-/

namespace TreeScript

/-! ## Firing -/

/-- A registration that fired, followed by what fired because of it. -/
inductive Firing where
  | mk (registration : Registration) (caused : List Firing)

namespace Firing

/-- The registration that fired. -/
def registration : Firing → Registration
  | mk registration _ => registration

mutual

/-- A registration that fired and all that fired because of it, in the order of time. -/
def inOrder : Firing → List Registration
  | mk registration caused => registration :: allInOrder caused

/-- All registrations that fired, in the order of time. -/
def allInOrder : List Firing → List Registration
  | [] => []
  | first :: rest => first.inOrder ++ allInOrder rest

end

theorem allInOrder_cons (registration : Registration) (caused rest : List Firing) :
    allInOrder (mk registration caused :: rest) =
      registration :: (allInOrder caused ++ allInOrder rest) := by
  rw [allInOrder, inOrder, List.cons_append]

/-- The tags of all handlers that fired, in the order of time. -/
def tags (firings : List Firing) : List String :=
  (allInOrder firings).map fun registration => registration.handler.tag

theorem tags_cons (registration : Registration) (caused rest : List Firing) :
    tags (mk registration caused :: rest) =
      registration.handler.tag :: (tags caused ++ tags rest) := by
  simp only [tags, allInOrder_cons, List.map_cons, List.map_append]

@[simp] theorem allInOrder_append (first second : List Firing) :
    allInOrder (first ++ second) = allInOrder first ++ allInOrder second := by
  induction first with
  | nil => simp [allInOrder]
  | cons firing rest inductive_step =>
      rw [List.cons_append, allInOrder, allInOrder, inductive_step, List.append_assoc]

theorem tags_append (first second : List Firing) :
    tags (first ++ second) = tags first ++ tags second := by
  rw [tags, allInOrder_append, List.map_append]
  rfl

end Firing

namespace Ledger

/--
Registrations fire one after the other, and each is followed by what its response
brings about: the registrations that are taken by the transition that it causes.
-/
inductive Fires : Ledger → List Registration → Ledger → List Firing → Prop where
  | nil (ledger : Ledger) : Fires ledger [] ledger []
  | nothing {ledger after : Ledger} {registration : Registration} {rest : List Registration}
      {firings : List Firing}
      (response : registration.handler.response = .nothing)
      (others : Fires ledger rest after firings) :
      Fires ledger (registration :: rest) after (.mk registration [] :: firings)
  | register {ledger after : Ledger} {registration : Registration} {rest : List Registration}
      {firings : List Firing} {transition : Transition}
      (response : registration.handler.response = .register transition)
      (others : Fires (ledger.register transition registration.handler) rest after firings) :
      Fires ledger (registration :: rest) after (.mk registration [] :: firings)
  | cause {ledger between after : Ledger} {registration : Registration}
      {rest : List Registration} {caused firings : List Firing} {transition : Transition}
      (response : registration.handler.response = .cause transition)
      (taken : Fires (ledger.enter transition) (ledger.taken transition) between caused)
      (others : Fires between rest after firings) :
      Fires ledger (registration :: rest) after (.mk registration caused :: firings)

/-- A transition and the firing of all registrations that it takes. -/
def Enters (ledger : Ledger) (transition : Transition) (after : Ledger)
    (firings : List Firing) : Prop :=
  Fires (ledger.enter transition) (ledger.taken transition) after firings

namespace Fires

variable {ledger after : Ledger} {pending : List Registration} {firings : List Firing}

/-- Handlers settle as their registrations fire. -/
theorem settle_eq (fires : ledger.Fires pending after firings) (rest : List Handler) :
    ledger.lifecycle.settle (pending.map Registration.handler ++ rest) =
      ((after.lifecycle.settle rest).1,
        Firing.tags firings ++ (after.lifecycle.settle rest).2) := by
  induction fires generalizing rest with
  | nil ledger => rfl
  | nothing response _ inductive_step =>
      rw [List.map_cons, List.cons_append, Lifecycle.settle_of_nothing response, inductive_step,
        Firing.tags_cons]
      rfl
  | register response _ inductive_step =>
      have settled := inductive_step rest
      rw [List.map_cons, List.cons_append, Lifecycle.settle_of_register response, Firing.tags_cons]
      rw [Ledger.register] at settled
      rw [settled]
      rfl
  | @cause ledger between _ _ pending caused _ transition response _ _ first others =>
      have settled := first (pending.map Registration.handler ++ rest)
      rw [map_handler_taken, others rest] at settled
      rw [List.map_cons, List.cons_append, Lifecycle.settle_of_cause response, Firing.tags_cons]
      rw [enter] at settled
      rw [settled]
      simp only [List.cons_append, List.append_assoc]

/-- What fires is what was pending, in this order. -/
theorem map_registration (fires : ledger.Fires pending after firings) :
    firings.map Firing.registration = pending := by
  induction fires with
  | nil ledger => rfl
  | nothing _ _ inductive_step => exact congrArg (_ :: ·) inductive_step
  | register _ _ inductive_step => exact congrArg (_ :: ·) inductive_step
  | cause _ _ _ _ inductive_step => exact congrArg (_ :: ·) inductive_step

/--
What has fired and what waits in the end was pending or waited in the beginning, or
was registered meanwhile.
-/
theorem perm (fires : ledger.Fires pending after firings) :
    ∃ added : List Registration, ledger.Adds after added ∧
      (Firing.allInOrder firings ++ after.waiting).Perm (pending ++ (added ++ ledger.waiting)) := by
  induction fires with
  | nil ledger => exact ⟨[], .nil ledger, .refl _⟩
  | nothing _ _ inductive_step =>
      obtain ⟨added, adds, same⟩ := inductive_step
      rw [Firing.allInOrder_cons]
      exact ⟨added, adds, same.cons _⟩
  | @register ledger _ registration _ _ transition _ _ inductive_step =>
      obtain ⟨added, adds, same⟩ := inductive_step
      refine ⟨_ :: added, adds.register, ?_⟩
      rw [Firing.allInOrder_cons]
      refine (same.cons _).trans (.cons _ (.append_left _ ?_))
      exact List.perm_middle
  | @cause ledger between after registration rest caused firings transition _ _ _ first second =>
      obtain ⟨added, adds, same⟩ := first
      obtain ⟨later, addsLater, others⟩ := second
      have both := adds.trans addsLater
      refine ⟨added ++ later, ⟨both.numbers, both.made⟩, ?_⟩
      have taken := ledger.perm_taken_left transition
      rw [List.perm_iff_count] at same others taken ⊢
      intro counted
      have := same counted
      have := others counted
      have := taken counted
      simp only [Firing.allInOrder_cons, List.cons_append, List.count_cons, List.count_append,
        enter] at *
      omega

/-- Evaluation that has been stopped stays so, and nothing more fires that waits for an abort. -/
theorem of_isStopped (fires : ledger.Fires pending after firings)
    (stopped : ledger.lifecycle.isStopped = true) :
    after.lifecycle.isStopped = true ∧
      (Firing.allInOrder firings).filter Registration.awaitsAbort =
        pending.filter Registration.awaitsAbort := by
  induction fires with
  | nil ledger => exact ⟨stopped, rfl⟩
  | nothing _ _ inductive_step =>
      obtain ⟨stays, same⟩ := inductive_step stopped
      refine ⟨stays, ?_⟩
      rw [Firing.allInOrder_cons, List.filter_cons, List.filter_cons, ← same]
      rfl
  | register _ _ inductive_step =>
      obtain ⟨stays, same⟩ := inductive_step (Lifecycle.isStopped_register stopped _ _)
      refine ⟨stays, ?_⟩
      rw [Firing.allInOrder_cons, List.filter_cons, List.filter_cons, ← same]
      rfl
  | @cause ledger _ _ _ _ _ _ transition _ _ _ first second =>
      obtain ⟨stays, none⟩ := first (Lifecycle.isStopped_enter stopped transition)
      obtain ⟨stays, same⟩ := second stays
      refine ⟨stays, ?_⟩
      rw [filter_taken fun _ => stopped] at none
      rw [Firing.allInOrder_cons, List.filter_cons, List.filter_cons, List.filter_append, none,
        ← same, List.nil_append]

/-- No more wait in the end than were pending or waited in the beginning. -/
theorem length_waiting_le (fires : ledger.Fires pending after firings) :
    after.waiting.length ≤ ledger.waiting.length + pending.length := by
  induction fires with
  | nil ledger => exact Nat.le_refl _
  | nothing _ _ inductive_step =>
      simp only [List.length_cons]
      omega
  | register _ _ inductive_step =>
      simp only [Ledger.register, List.length_cons] at inductive_step ⊢
      omega
  | @cause ledger _ _ _ _ _ _ transition _ _ _ first second =>
      have taken := (ledger.perm_taken_left transition).length_eq
      simp only [enter, List.length_append, List.length_cons] at first taken ⊢
      omega

/-- Registrations fire in one way only. -/
theorem unique (fires : ledger.Fires pending after firings) {other : Ledger}
    {otherFirings : List Firing}
    (too : ledger.Fires pending other otherFirings) :
    other = after ∧ otherFirings = firings := by
  induction fires generalizing other otherFirings with
  | nil ledger =>
      cases too
      exact ⟨rfl, rfl⟩
  | nothing response _ inductive_step =>
      cases too with
      | nothing _ others =>
          obtain ⟨rfl, rfl⟩ := inductive_step others
          exact ⟨rfl, rfl⟩
      | register differs _ => cases response.symm.trans differs
      | cause differs _ _ => cases response.symm.trans differs
  | register response _ inductive_step =>
      cases too with
      | nothing differs _ => cases response.symm.trans differs
      | register same others =>
          cases response.symm.trans same
          obtain ⟨rfl, rfl⟩ := inductive_step others
          exact ⟨rfl, rfl⟩
      | cause differs _ _ => cases response.symm.trans differs
  | cause response _ _ first second =>
      cases too with
      | nothing differs _ => cases response.symm.trans differs
      | register differs _ => cases response.symm.trans differs
      | cause same taken others =>
          cases response.symm.trans same
          obtain ⟨rfl, rfl⟩ := first taken
          obtain ⟨rfl, rfl⟩ := second others
          exact ⟨rfl, rfl⟩

end Fires

/--
Firing comes to an end, whatever handlers cause and register: a registration that fires
does not wait any more, and one that comes back leaves one less pending.
-/
theorem exists_fires (ledger : Ledger) (pending : List Registration) :
    ∃ after firings, ledger.Fires pending after firings := by
  match pending with
  | [] => exact ⟨ledger, [], .nil ledger⟩
  | registration :: rest =>
      match response : registration.handler.response with
      | .nothing =>
          obtain ⟨after, firings, others⟩ := exists_fires ledger rest
          exact ⟨after, _, .nothing response others⟩
      | .register transition =>
          obtain ⟨after, firings, others⟩ :=
            exists_fires (ledger.register transition registration.handler) rest
          exact ⟨after, _, .register response others⟩
      | .cause transition =>
          obtain ⟨between, caused, taken⟩ :=
            exists_fires (ledger.enter transition) (ledger.taken transition)
          have kept := taken.length_waiting_le
          have shared := (ledger.perm_taken_left transition).length_eq
          obtain ⟨after, firings, others⟩ := exists_fires between rest
          exact ⟨after, _, .cause response taken others⟩
termination_by (ledger.waiting.length + pending.length, pending.length)
decreasing_by
  · exact Prod.Lex.left _ _ (by simp only [List.length_cons]; omega)
  · rw [show (ledger.register transition registration.handler).waiting.length + rest.length =
      ledger.waiting.length + (registration :: rest).length by
        simp only [register, List.length_cons]; omega]
    exact Prod.Lex.right _ (by simp)
  · have shared := (ledger.perm_taken_left transition).length_eq
    refine Prod.Lex.left _ _ ?_
    simp only [enter, List.length_append, List.length_cons] at shared ⊢
    omega
  · refine Prod.Lex.left _ _ ?_
    simp only [enter, List.length_append, List.length_cons] at shared kept ⊢
    omega

/-! ## Aborting once -/

/--
Whatever waits for an abort fires in one abort, the first one.  Evaluation is stopped from
then on, and without such an abort it is stopped only if it was so before.
-/
inductive AbortsOnce (ledger after : Ledger) (fired : List Registration) : Prop where
  | none
      (unchanged : after.lifecycle.isStopped = ledger.lifecycle.isStopped)
      (silent : fired.filter Registration.awaitsAbort = [])
  | first {amid between : Ledger} {caused : List Firing} (before rest : List Registration)
      (running : ledger.lifecycle.isStopped = false)
      (stopped : after.lifecycle.isStopped = true)
      (unstopped : amid.lifecycle.isStopped = false)
      (enters : amid.Enters .abort between caused)
      (parts : fired = before ++ (Firing.allInOrder caused ++ rest))
      (silentBefore : before.filter Registration.awaitsAbort = [])
      (silentAfter : rest.filter Registration.awaitsAbort = [])

namespace AbortsOnce

variable {ledger between after : Ledger} {fired others : List Registration}

theorem of_isStopped (once : ledger.AbortsOnce after fired)
    (stopped : ledger.lifecycle.isStopped = true) :
    after.lifecycle.isStopped = true ∧ fired.filter Registration.awaitsAbort = [] := by
  cases once with
  | none unchanged silent => exact ⟨unchanged.trans stopped, silent⟩
  | first _ _ running _ _ _ _ _ _ => cases running.symm.trans stopped

theorem trans (once : ledger.AbortsOnce between fired)
    (more : between.AbortsOnce after others) :
    ledger.AbortsOnce after (fired ++ others) := by
  cases once with
  | none unchanged silent =>
      cases more with
      | none same silentToo =>
          exact .none (same.trans unchanged) (by rw [List.filter_append, silent, silentToo]; rfl)
      | first before rest running stopped unstopped enters parts silentBefore silentAfter =>
          refine .first (fired ++ before) rest (unchanged.symm.trans running) stopped unstopped
            enters ?_ ?_ silentAfter
          · rw [parts, List.append_assoc]
          · rw [List.filter_append, silent, silentBefore]
            rfl
  | first before rest running stopped unstopped enters parts silentBefore silentAfter =>
      obtain ⟨stays, silent⟩ := more.of_isStopped stopped
      refine .first before (rest ++ others) running stays unstopped enters ?_ silentBefore ?_
      · rw [parts, List.append_assoc, List.append_assoc]
      · rw [List.filter_append, silentAfter, silent]
        rfl

/-- Only whether evaluation is stopped in the beginning matters. -/
theorem congr {other : Ledger} (once : ledger.AbortsOnce after fired)
    (same : ledger.lifecycle.isStopped = other.lifecycle.isStopped) :
    other.AbortsOnce after fired := by
  cases once with
  | none unchanged silent => exact .none (unchanged.trans same) silent
  | first before rest running stopped unstopped enters parts silentBefore silentAfter =>
      exact .first before rest (same.symm.trans running) stopped unstopped enters parts
        silentBefore silentAfter

/-- A registration that does not wait for an abort fires before all that it causes. -/
theorem cons {registration : Registration} (other : ¬ registration.awaitsAbort)
    (once : ledger.AbortsOnce after fired) :
    ledger.AbortsOnce after (registration :: fired) :=
  have first : ledger.AbortsOnce ledger [registration] :=
    .none rfl (List.filter_cons_of_neg other)
  first.trans once

/--
A transition is the first abort, or it fires nothing that waits for an abort and
whatever is true of its registrations is true of it.
-/
theorem of_enters {transition : Transition} {firings : List Firing}
    (enters : ledger.Enters transition after firings)
    (otherwise : (ledger.taken transition).filter Registration.awaitsAbort = [] →
      (ledger.enter transition).AbortsOnce after (Firing.allInOrder firings)) :
    ledger.AbortsOnce after (Firing.allInOrder firings) := by
  by_cases first : transition = .abort ∧ ledger.lifecycle.isStopped = false
  · obtain ⟨rfl, running⟩ := first
    have stopped : (ledger.enter .abort).lifecycle.isStopped = true :=
      Lifecycle.isStopped_enter_abort ledger.lifecycle
    exact .first [] [] running (enters.of_isStopped stopped).1 running enters
      (List.append_nil _).symm rfl rfl
  · have other : transition = .abort → ledger.lifecycle.isStopped = true := fun abort =>
      eq_true_of_ne_false fun running => first ⟨abort, running⟩
    exact (otherwise (filter_taken other)).congr (Lifecycle.isStopped_enter_eq other)

end AbortsOnce

theorem Fires.abortsOnce {ledger after : Ledger} {pending : List Registration}
    {firings : List Firing} (fires : ledger.Fires pending after firings)
    (silent : pending.filter Registration.awaitsAbort = []) :
    ledger.AbortsOnce after (Firing.allInOrder firings) := by
  induction fires with
  | nil ledger => exact .none rfl rfl
  | nothing _ _ inductive_step =>
      obtain ⟨other, silent⟩ := List.forall_mem_cons.mp (List.filter_eq_nil_iff.mp silent)
      rw [Firing.allInOrder_cons]
      exact .cons other (inductive_step (List.filter_eq_nil_iff.mpr silent))
  | @register ledger _ registration _ _ transition _ _ inductive_step =>
      obtain ⟨other, silent⟩ := List.forall_mem_cons.mp (List.filter_eq_nil_iff.mp silent)
      rw [Firing.allInOrder_cons]
      refine .cons other (AbortsOnce.congr (inductive_step (List.filter_eq_nil_iff.mpr silent)) ?_)
      exact Lifecycle.isStopped_register_eq _ _ _
  | cause _ taken _ first second =>
      obtain ⟨other, silent⟩ := List.forall_mem_cons.mp (List.filter_eq_nil_iff.mp silent)
      rw [Firing.allInOrder_cons]
      exact .cons other
        ((AbortsOnce.of_enters taken first).trans (second (List.filter_eq_nil_iff.mpr silent)))

theorem Enters.abortsOnce {ledger after : Ledger} {transition : Transition}
    {firings : List Firing} (enters : ledger.Enters transition after firings) :
    ledger.AbortsOnce after (Firing.allInOrder firings) :=
  .of_enters enters (Fires.abortsOnce enters)

/-! ## Operations -/

/-- Operations are carried out one after the other, and each transition fires what it takes. -/
inductive Runs : Ledger → List Lifecycle.Operation → Ledger → List Firing → Prop where
  | nil (ledger : Ledger) : Runs ledger [] ledger []
  | register {ledger after : Ledger} {rest : List Lifecycle.Operation} {firings : List Firing}
      {transition : Transition} {handler : Handler}
      (runs : Runs (ledger.register transition handler) rest after firings) :
      Runs ledger (.register transition handler :: rest) after firings
  | unregister {ledger after : Ledger} {rest : List Lifecycle.Operation} {firings : List Firing}
      {transition : Transition} {tag : String}
      (runs : Runs (ledger.unregister transition tag) rest after firings) :
      Runs ledger (.unregister transition tag :: rest) after firings
  | transition {ledger between after : Ledger} {rest : List Lifecycle.Operation}
      {first firings : List Firing} {transition : Transition}
      (enters : ledger.Enters transition between first)
      (runs : Runs between rest after firings) :
      Runs ledger (.transition transition :: rest) after (first ++ firings)

/-- Every operation comes to an end. -/
theorem exists_runs (ledger : Ledger) (operations : List Lifecycle.Operation) :
    ∃ after firings, ledger.Runs operations after firings := by
  induction operations generalizing ledger with
  | nil => exact ⟨ledger, [], .nil ledger⟩
  | cons operation rest inductive_step =>
      cases operation with
      | register transition handler =>
          obtain ⟨after, firings, runs⟩ := inductive_step (ledger.register transition handler)
          exact ⟨after, firings, .register runs⟩
      | unregister transition tag =>
          obtain ⟨after, firings, runs⟩ := inductive_step (ledger.unregister transition tag)
          exact ⟨after, firings, .unregister runs⟩
      | transition transition =>
          obtain ⟨between, first, enters⟩ :=
            exists_fires (ledger.enter transition) (ledger.taken transition)
          obtain ⟨after, firings, runs⟩ := inductive_step between
          exact ⟨after, first ++ firings, .transition enters runs⟩

namespace Runs

variable {ledger after : Ledger} {operations : List Lifecycle.Operation} {firings : List Firing}

/-- There is only one way to carry out operations. -/
theorem unique (runs : ledger.Runs operations after firings) {other : Ledger}
    {otherFirings : List Firing} (too : ledger.Runs operations other otherFirings) :
    other = after ∧ otherFirings = firings := by
  induction runs generalizing other otherFirings with
  | nil ledger =>
      cases too
      exact ⟨rfl, rfl⟩
  | register _ inductive_step =>
      cases too with
      | register runs => exact inductive_step runs
  | unregister _ inductive_step =>
      cases too with
      | unregister runs => exact inductive_step runs
  | transition enters _ inductive_step =>
      cases too with
      | transition same runs =>
          obtain ⟨rfl, rfl⟩ := Fires.unique enters same
          obtain ⟨rfl, rfl⟩ := inductive_step runs
          exact ⟨rfl, rfl⟩

/-- The lifecycle carries out the operations in this way. -/
theorem operateAll_eq (runs : ledger.Runs operations after firings) :
    ledger.lifecycle.operateAll operations = (after.lifecycle, Firing.tags firings) := by
  induction runs with
  | nil ledger => rfl
  | register _ inductive_step => exact inductive_step
  | unregister _ inductive_step => exact inductive_step
  | @transition ledger between _ _ first _ transition enters _ inductive_step =>
      have settled : ledger.lifecycle.transition transition =
          (between.lifecycle, Firing.tags first) := by
        have all := Fires.settle_eq enters []
        rw [List.append_nil, Lifecycle.settle, List.append_nil, map_handler_taken] at all
        exact all
      rw [Lifecycle.operateAll, Lifecycle.operate, settled, Firing.tags_append]
      dsimp only
      rw [inductive_step]

/--
What has fired, what waits in the end and what was removed waited in the beginning or
was registered meanwhile.
-/
theorem perm (runs : ledger.Runs operations after firings) :
    ∃ added removed : List Registration, ledger.Adds after added ∧
      (Firing.allInOrder firings ++ (after.waiting ++ removed)).Perm (added ++ ledger.waiting) := by
  induction runs with
  | nil ledger => exact ⟨[], [], .nil ledger, by simp [Firing.allInOrder]⟩
  | register _ inductive_step =>
      obtain ⟨added, removed, adds, same⟩ := inductive_step
      exact ⟨_ :: added, removed, adds.register, same.trans List.perm_middle⟩
  | @unregister ledger _ _ _ transition tag _ inductive_step =>
      obtain ⟨added, removed, adds, same⟩ := inductive_step
      have parted := List.filter_append_perm (fun registration : Registration =>
        decide (registration.transition = transition ∧ registration.handler.tag = tag))
        ledger.waiting
      refine ⟨added, removed ++ ledger.waiting.filter fun registration =>
        registration.transition = transition ∧ registration.handler.tag = tag,
        ⟨adds.numbers, adds.made⟩, ?_⟩
      rw [List.perm_iff_count] at same parted ⊢
      intro counted
      have := same counted
      have := parted counted
      simp only [List.count_append, Ledger.unregister, decide_not] at *
      omega
  | @transition ledger between after _ first firings transition enters _ inductive_step =>
      obtain ⟨earlier, addsEarlier, sameEarlier⟩ := Fires.perm enters
      obtain ⟨added, removed, adds, same⟩ := inductive_step
      have both := addsEarlier.trans adds
      refine ⟨earlier ++ added, removed, ⟨both.numbers, both.made⟩, ?_⟩
      have taken := ledger.perm_taken_left transition
      rw [List.perm_iff_count] at sameEarlier same taken ⊢
      intro counted
      have := sameEarlier counted
      have := same counted
      have := taken counted
      simp only [Firing.allInOrder_append, List.count_append, enter] at *
      omega

/-- No registration fires twice, and none waits that has fired. -/
theorem nodup (runs : ledger.Runs operations after firings) :
    ((Firing.allInOrder firings ++ after.waiting).map Registration.number).Nodup := by
  obtain ⟨added, removed, adds, same⟩ := runs.perm
  have all := (same.map Registration.number).nodup_iff.mpr adds.nodup
  rw [← List.append_assoc, List.map_append] at all
  exact all.of_append_left

/-- What fires waited in the beginning or was registered meanwhile. -/
theorem mem_or_made_le (runs : ledger.Runs operations after firings)
    {registration : Registration} (fired : registration ∈ Firing.allInOrder firings) :
    registration ∈ ledger.waiting ∨ ledger.made ≤ registration.number := by
  obtain ⟨added, removed, adds, same⟩ := runs.perm
  obtain new | old := List.mem_append.mp (same.subset (List.mem_append_left _ fired))
  · exact .inr (adds.made_le new)
  · exact .inl old

theorem abortsOnce (runs : ledger.Runs operations after firings) :
    ledger.AbortsOnce after (Firing.allInOrder firings) := by
  induction runs with
  | nil ledger => exact .none rfl rfl
  | register _ inductive_step => exact inductive_step.congr (Lifecycle.isStopped_register_eq _ _ _)
  | unregister _ inductive_step => exact inductive_step.congr (Lifecycle.isStopped_unregister _ _ _)
  | transition enters _ inductive_step =>
      rw [Firing.allInOrder_append]
      exact (Enters.abortsOnce enters).trans inductive_step

end Runs

/-! ## What is known of a ledger, whatever happens next -/

/--
The handlers of a ledger behave: operations come to an end in exactly one way, which is
the way of the lifecycle.  A registration fires at most once, and then it does not wait any
more.  A transition that has an effect fires all that waits for it, in the order of
registration, and nothing else unless it is caused.  A handler that was removed does not
fire before it is registered again.  All that waits for an abort fires in the first abort,
and evaluation is stopped from then on.
-/
structure FiresInTurn (ledger : Ledger) : Prop where
  ends (operations : List Lifecycle.Operation) :
    ∃! ended : Ledger × List Firing, ledger.Runs operations ended.1 ended.2
  settles {operations : List Lifecycle.Operation} {after : Ledger} {firings : List Firing}
    (runs : ledger.Runs operations after firings) :
    ledger.lifecycle.operateAll operations = (after.lifecycle, Firing.tags firings)
  once {operations : List Lifecycle.Operation} {after : Ledger} {firings : List Firing}
    (runs : ledger.Runs operations after firings) :
    ((Firing.allInOrder firings ++ after.waiting).map Registration.number).Nodup
  inTurn {transition : Transition} {after : Ledger} {firings : List Firing}
    (enters : ledger.Enters transition after firings) :
    firings.map Firing.registration = ledger.taken transition ∧
      (firings.map fun firing => firing.registration.number).Pairwise (· < ·)
  removed {operations : List Lifecycle.Operation} {after : Ledger} {firings : List Firing}
    {transition : Transition} {tag : String}
    (runs : ledger.Runs (.unregister transition tag :: operations) after firings)
    {registration : Registration} (fired : registration ∈ Firing.allInOrder firings)
    (awaits : registration.transition = transition)
    (tagged : registration.handler.tag = tag) :
    ledger.made ≤ registration.number
  abortsOnce {operations : List Lifecycle.Operation} {after : Ledger} {firings : List Firing}
    (runs : ledger.Runs operations after firings) :
    ledger.AbortsOnce after (Firing.allInOrder firings)
  staysStopped {operations : List Lifecycle.Operation} {after : Ledger} {firings : List Firing}
    (runs : ledger.Runs operations after firings)
    (stopped : ledger.lifecycle.isStopped = true) :
    after.lifecycle.isStopped = true ∧
      (Firing.allInOrder firings).filter Registration.awaitsAbort = []

/-- Handlers fire in turn, whatever they cause and register when they fire. -/
theorem handlers_fire_in_turn (ledger : Ledger) : ledger.FiresInTurn where
  ends operations := by
    obtain ⟨after, firings, runs⟩ := ledger.exists_runs operations
    refine ⟨(after, firings), runs, fun other too => ?_⟩
    obtain ⟨same, sameFirings⟩ := runs.unique too
    exact Prod.ext same sameFirings
  settles runs := runs.operateAll_eq
  once runs := runs.nodup
  inTurn {transition after firings} enters := by
    have same := Fires.map_registration enters
    refine ⟨same, ?_⟩
    have ordered := ledger.pairwise_taken transition
    rw [← same, List.pairwise_map] at ordered
    exact List.pairwise_map.mpr ordered
  removed runs registration fired awaits tagged := by
    cases runs with
    | unregister runs =>
        obtain waits | made := runs.mem_or_made_le fired
        · exact absurd ⟨awaits, tagged⟩ (of_decide_eq_true (List.mem_filter.mp waits).2)
        · exact made
  abortsOnce runs := runs.abortsOnce
  staysStopped runs stopped := runs.abortsOnce.of_isStopped stopped

end Ledger

end TreeScript
