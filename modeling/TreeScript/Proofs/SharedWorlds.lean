import TreeScript.Proofs.LinkedTasks
import TreeScript.Proofs.Permanence
import TreeScript.Proofs.WindingDown

/-!
# Worlds that two scripts share

Two scripts share a world if each of them is mirrored in a world of its own and
the two links are apart.  What one of them does between two waits leaves the
other one mirrored as it was.  Only the end of a run may do more: an error that
is handed to the host may stop evaluation, for both of them.
-/

namespace TreeScript

namespace World

/-- Nothing has happened to evaluation, or an error that was handed to the host has stopped it. -/
def IsQuiet (options : Options) (world : World) : Prop :=
  world.lifecycle = .initial ∨
    world.lifecycle = .stopped ∧ options.reportsErrors = true ∧ options.abortOnError = true

/-- Two scripts in one world, with a world for each of them in which it is alone. -/
structure Shared (options : Options) (names others : String → Bool) (link foreign : Link)
    (solo partner joint : World) : Prop where
  own : Linked options names link solo joint
  other : Linked options others foreign partner joint
  apart : link.Apart names others foreign joint.store

/-- What one script does to a shared world until it waits or ends. -/
structure Stint (options : Options) (names : String → Bool) (link : Link) (solo joint : World)
    (wider : Link) (solo' next : World) : Prop where
  extension : link.Extends solo.store joint.store wider
  linked : Linked options names wider solo' next
  leaves : joint.store.Leaves names link next.store
  inputs : next.inputs = joint.inputs ∨ options.Asks names
  quiet : next.IsQuiet options
  settles : next.lifecycle.isStopped = false → next.lifecycle = joint.lifecycle

variable {options : Options} {names others : String → Bool} {link wider foreign : Link}
  {solo solo' partner joint joint' next next' : World}

theorem IsQuiet.unpaused (quiet : joint.IsQuiet options) : joint.lifecycle.pause = none := by
  rcases quiet with initial | ⟨stopped, -, -⟩
  · rw [initial]
    rfl
  · rw [stopped]
    rfl

theorem IsQuiet.of_lifecycle (quiet : joint.IsQuiet options)
    (same : next.lifecycle = joint.lifecycle) : next.IsQuiet options := by
  unfold IsQuiet
  rw [same]
  exact quiet

/-- Worlds with the stores and the inputs of linked ones. -/
theorem Linked.of_store (linked : Linked options names link solo joint)
    (store : next.store = solo.store) (store' : next'.store = joint.store)
    (inputs : next.inputs = solo.inputs) (inputs' : next'.inputs = joint.inputs)
    (lifecycle : next.lifecycle = next'.lifecycle) (unpaused : next'.lifecycle.pause = none) :
    Linked options names link next next' := by
  refine ⟨?_, ?_, lifecycle, unpaused, fun asks => ?_⟩
  · rw [store, store']
    exact linked.store
  · rw [store, store']
    exact linked.inside
  · rw [inputs, inputs']
    exact linked.inputs asks

theorem Linked.withLifecycle_eq (linked : Linked options names link solo joint) :
    { solo with lifecycle := joint.lifecycle } = solo := by
  rw [← linked.lifecycle]

theorem Shared.symm (shared : Shared options names others link foreign solo partner joint) :
    Shared options others names foreign link partner solo joint :=
  ⟨shared.other, shared.own, shared.apart.symm⟩

/-- A script that does not do anything stays mirrored while the other one does something. -/
theorem Shared.linked_stint (shared : Shared options names others link foreign solo partner joint)
    (exclusive : ¬(options.Asks names ∧ options.Asks others))
    (stint : Stint options names link solo joint wider solo' next) :
    Linked options others foreign { partner with lifecycle := next.lifecycle } next where
  store := shared.apart.linked stint.leaves shared.other.store shared.other.inside
  inside := shared.other.inside.mono (fun _ => Nat.le_refl _) stint.leaves.grows
  lifecycle := rfl
  unpaused := stint.quiet.unpaused
  inputs asks := by
    have unasked := stint.inputs.resolve_right fun asks' => exclusive ⟨asks', asks⟩
    exact (shared.other.inputs asks).trans unasked.symm

theorem Shared.stint (shared : Shared options names others link foreign solo partner joint)
    (exclusive : ¬(options.Asks names ∧ options.Asks others))
    (stint : Stint options names link solo joint wider solo' next) :
    Shared options names others wider foreign solo' { partner with lifecycle := next.lifecycle }
      next where
  own := stint.linked
  other := shared.linked_stint exclusive stint
  apart := shared.apart.leaves (fun _ _ _ pair => (shared.other.inside _ _ _ pair).2)
    stint.extension stint.leaves

/-- What advances a world up to a wait is a stint. -/
theorem Advance.stint (advance : Advance options names link solo joint wider solo' next)
    (quiet : joint.IsQuiet options) :
    Stint options names link solo joint wider solo' next where
  extension := advance.extension
  linked := advance.linked
  leaves := advance.leaves.store
  inputs := advance.leaves.inputs
  quiet := quiet.of_lifecycle advance.leaves.lifecycle
  settles _ := advance.leaves.lifecycle

/-! ## The ends of runs -/

theorem inputs_deliver (options : Options) (world : World) (error : Error) :
    (world.deliver options error).2.inputs = world.inputs := by
  unfold deliver
  split
  · split
    · split <;> rfl
    · rfl
  · rfl

/-- What is delivered depends on the lifecycle only, and so does what it does to it. -/
theorem deliver_eq (options : Options) (error : Error)
    (same : solo.lifecycle = joint.lifecycle) :
    (solo.deliver options error).1 = (joint.deliver options error).1 ∧
      (solo.deliver options error).2.lifecycle = (joint.deliver options error).2.lifecycle := by
  unfold deliver
  rw [same]
  split
  · split
    · split
      · exact ⟨rfl, same⟩
      · exact ⟨rfl, congrArg (fun lifecycle => (lifecycle.transition .abort).1) same⟩
    · exact ⟨rfl, same⟩
  · exact ⟨rfl, same⟩

theorem IsQuiet.deliver (quiet : joint.IsQuiet options) (error : Error) :
    (joint.deliver options error).2.IsQuiet options ∧
      ((joint.deliver options error).2.lifecycle.isStopped = false →
        (joint.deliver options error).2.lifecycle = joint.lifecycle) := by
  unfold World.deliver
  split
  · rename_i reports
    split
    · rename_i aborts
      split
      · exact ⟨quiet, fun _ => rfl⟩
      · rename_i going
        have initial : joint.lifecycle = .initial := by
          refine quiet.resolve_right fun ⟨stopped, _⟩ => going ?_
          rw [stopped]
          rfl
        have stops : ((joint.transition .abort).record (.failure error)).lifecycle = .stopped := by
          show (joint.lifecycle.transition .abort).1 = .stopped
          rw [initial, Lifecycle.initial_abort]
        exact ⟨.inr ⟨stops, reports, aborts⟩, fun going => by rw [stops] at going; cases going⟩
    · exact ⟨quiet, fun _ => rfl⟩
  · exact ⟨quiet, fun _ => rfl⟩

end World

namespace Interpreter

variable {options : Options} {names : String → Bool} {link : Link} {solo joint : World}

theorem inputs_conclude (options : Options) (delivers : Bool) (outcome : Outcome)
    (world : World) :
    (conclude options delivers outcome world).2.inputs = world.inputs :=
  conclude_keeps (world.inputs_deliver options) delivers outcome

/-- The verdicts on linked outcomes are linked, and the worlds stay so. -/
theorem linked_conclude (worlds : World.Linked options names link solo joint)
    (quiet : joint.IsQuiet options) {outcome outcome' : Outcome}
    (outcomes : Outcome.Linked link outcome outcome') (delivers : Bool) :
    Except.Linked Eq (Option.Rel (Value.Linked link))
        (conclude options delivers outcome solo).1 (conclude options delivers outcome' joint).1 ∧
      World.Linked options names link (conclude options delivers outcome solo).2
        (conclude options delivers outcome' joint).2 ∧
      (conclude options delivers outcome' joint).2.IsQuiet options ∧
      ((conclude options delivers outcome' joint).2.lifecycle.isStopped = false →
        (conclude options delivers outcome' joint).2.lifecycle = joint.lifecycle) := by
  have values := Outcome.Linked.expectValue outcomes
  unfold conclude
  generalize outcome.expectValue = result, outcome'.expectValue = result' at values ⊢
  cases values with
  | ok values => exact ⟨.ok (.some values), worlds, quiet, fun _ => rfl⟩
  | @error error error' same =>
      cases (same : error = error')
      cases delivers with
      | false => exact ⟨.error rfl, worlds, quiet, fun _ => rfl⟩
      | true =>
          obtain ⟨answers, lifecycles⟩ := World.deliver_eq options error worlds.lifecycle
          obtain ⟨stillQuiet, settles⟩ := quiet.deliver error
          have linked : World.Linked options names link (solo.deliver options error).2
              (joint.deliver options error).2 :=
            worlds.of_store (World.store_deliver options solo error)
              (World.store_deliver options joint error) (World.inputs_deliver options solo error)
              (World.inputs_deliver options joint error) lifecycles stillQuiet.unpaused
          simp only [if_true]
          generalize solo.deliver options error = ended, joint.deliver options error = ended' at *
          obtain ⟨answer, next⟩ := ended
          obtain ⟨answer', next'⟩ := ended'
          cases (answers : answer = answer')
          cases answer with
          | none => exact ⟨.ok .none, linked, stillQuiet, settles⟩
          | some error => exact ⟨.error rfl, linked, stillQuiet, settles⟩

end Interpreter

end TreeScript
