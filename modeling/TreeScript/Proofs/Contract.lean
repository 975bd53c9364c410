import TreeScript.Proofs.Comparison
import TreeScript.Proofs.SoundEdit

/-!
# Contracts of processes

What a goal may be asked with is `Goal.Fits`, and how it may then end is
`EndsWithin`: with a value that is known, with a proper error, or with a signal that
something around the node takes.  A process meets its contract if it keeps to
the contracts of actions and of other goals; `Process.Meets` may rely on these
for whatever they reply.  Functions may be made at any time, so that everything
is said for a number of functions that can only grow.

As with comparisons, contracts are closed under the operations that rules are
written with.
-/

namespace TreeScript

/-- A signal that carries a known value, if any. -/
def Signal.IsKnown (count : Nat) : Signal → Prop
  | .returning value => value.IsKnown count
  | .breaking _ value => ∀ carried ∈ value, carried.IsKnown count
  | .continuing _ => True

theorem Signal.IsKnown.mono {count more : Nat} {signal : Signal} (known : signal.IsKnown count)
    (grows : count ≤ more) :
    signal.IsKnown more := by
  cases signal with
  | returning value => exact Value.IsKnown.mono known grows
  | breaking label value => exact fun carried mem => (known carried mem).mono grows
  | continuing label => trivial

/-- A signal that has something around it to leave, or a proper error. -/
def Interrupt.Leaves (enclosure : Enclosure) (count : Nat) : Interrupt → Prop
  | .signal left => enclosure.admits left ∧ left.IsKnown count
  | .error failure => failure.IsProper

/-- A result with a property, or an interrupt that leaves what is around it. -/
def EndsWithin {α : Type} (enclosure : Enclosure) (holds : Nat → α → Prop) (count : Nat) :
    Except Interrupt α → Prop
  | .ok result => holds count result
  | .error interrupt => interrupt.Leaves enclosure count

/-- A goal that may be asked for inside some constructs. -/
def Goal.Fits (enclosure : Enclosure) (count : Nat) : Goal → Prop
  | .evaluate node _ _ => node.isWellScoped enclosure
  | .loop label statements _ _ => Node.areWellScoped statements (enclosure.loop label)
  | .times label _ _ body _ _ => body.isWellScoped (enclosure.loop label)
  | .range label _ _ _ body _ _ => body.isWellScoped (enclosure.loop label)
  | .each label _ _ _ body _ _ => body.isWellScoped (enclosure.loop label)
  | .apply function arguments _ _ =>
      (Value.fn function).IsKnown count ∧ ∀ argument ∈ arguments, argument.IsKnown count
  | .enter _ _ _ => False

namespace Process

variable {α β : Type}

/-- A process that keeps to all contracts and ends with results of a kind. -/
inductive Meets (holds : Nat → α → Prop) : Nat → Process α → Prop where
  | done {count : Nat} {result : α}
      (given : holds count result) :
      Meets holds count (.done result)
  | act {count : Nat} {action : Action} {next : action.Reply → Process α}
      (fits : action.Fits count)
      (rest : ∀ more, count ≤ more → ∀ reply, action.Answers more reply →
        Meets holds more (next reply)) :
      Meets holds count (.act action next)
  | wait {count : Nat} {reason : Wait} {next : Process α}
      (rest : ∀ more, count ≤ more → Meets holds more next) :
      Meets holds count (.wait reason next)
  | call {count : Nat} {enclosure : Enclosure} {goal : Goal} {next : Outcome → Process α}
      (fits : goal.Fits enclosure count)
      (rest : ∀ more, count ≤ more → ∀ outcome, EndsWithin enclosure Value.IsKnown more outcome →
        Meets holds more (next outcome)) :
      Meets holds count (.call goal next)
  | drive {count : Nat} {enclosure : Enclosure} {goal : Goal} {next : Outcome → Process α}
      (fits : goal.Fits enclosure count)
      (rest : ∀ more, count ≤ more → ∀ outcome, EndsWithin enclosure Value.IsKnown more outcome →
        Meets holds more (next outcome)) :
      Meets holds count (.drive goal next)

/-- A process may go on with one that relies on what the first ends with. -/
theorem Meets.bind {holds : Nat → α → Prop} {holdsAfter : Nat → β → Prop} {count : Nat}
    {process : Process α}
    (meets : process.Meets holds count)
    {continuation : α → Process β}
    (goesOn : ∀ more, count ≤ more → ∀ result, holds more result →
      (continuation result).Meets holdsAfter more) :
    (process.bind continuation).Meets holdsAfter count := by
  induction meets with
  | done given => exact goesOn _ (Nat.le_refl _) _ given
  | act fits _ inductive_step =>
      refine .act fits ?_
      intro more grows reply answers
      exact inductive_step more grows reply answers fun most grows' =>
        goesOn most (Nat.le_trans grows grows')
  | wait _ inductive_step =>
      refine .wait ?_
      intro more grows
      exact inductive_step more grows fun most grows' => goesOn most (Nat.le_trans grows grows')
  | call fits _ inductive_step =>
      refine .call fits ?_
      intro more grows outcome ends
      exact inductive_step more grows outcome ends fun most grows' =>
        goesOn most (Nat.le_trans grows grows')
  | drive fits _ inductive_step =>
      refine .drive fits ?_
      intro more grows outcome ends
      exact inductive_step more grows outcome ends fun most grows' =>
        goesOn most (Nat.le_trans grows grows')

end Process

namespace Rule

variable {α β : Type}

/-- A rule that keeps to all contracts, inside some constructs. -/
def Meets (enclosure : Enclosure) (holds : Nat → α → Prop) (count : Nat) (rule : Rule α) : Prop :=
  Process.Meets (EndsWithin enclosure holds) count rule.run

section Closure

variable {enclosure inner : Enclosure} {count : Nat}
variable {holds : Nat → α → Prop} {holdsAfter : Nat → β → Prop}

theorem meets_pure {result : α} (given : holds count result) :
    Meets enclosure holds count (pure result) :=
  .done given

theorem meets_throw {interrupt : Interrupt} (leaves : interrupt.Leaves enclosure count) :
    Meets enclosure holds count (throw interrupt) :=
  .done leaves

theorem meets_fail {error : Error} (proper : error.IsProper) :
    Meets enclosure holds count (fail error) :=
  .done proper

/-- A rule may go on with one that relies on what the first gives. -/
theorem Meets.bind {rule : Rule α} (meets : rule.Meets enclosure holds count)
    {continuation : α → Rule β}
    (goesOn : ∀ more, count ≤ more → ∀ result, holds more result →
      (continuation result).Meets enclosure holdsAfter more) :
    (rule >>= continuation).Meets enclosure holdsAfter count := by
  refine Process.Meets.bind meets ?_
  intro more grows result ends
  rcases result with interrupt | result
  · exact .done ends
  · exact goesOn more grows result ends

theorem meets_perform (action : Action) (fits : action.Fits count) :
    Meets enclosure action.Answers count (perform action) :=
  .act fits fun _ _ _ answers => .done answers

theorem meets_reply {result : Except Error α} (replies : Replies (holds count) result) :
    Meets enclosure holds count (ofExcept result) := by
  cases result with
  | ok value => exact meets_pure replies
  | error error => exact meets_fail replies

/-- The case of `meets_reply` in which what is known does not depend on the number of functions. -/
theorem meets_ofExcept {holds : α → Prop} {result : Except Error α}
    (replies : Replies holds result) :
    Meets enclosure (fun _ => holds) count (ofExcept result) :=
  meets_reply replies

/-- An action that may fail. -/
theorem Meets.attempt {holds : Nat → α → Prop} {reply : Rule (Except Error α)}
    (meets : reply.Meets enclosure (fun more => Replies (holds more)) count) :
    (attempt reply).Meets enclosure holds count :=
  Meets.bind meets fun _ _ _ replies => meets_reply replies

theorem meets_call {goal : Goal} (fits : goal.Fits enclosure count) :
    Meets enclosure Value.IsKnown count (call goal) :=
  .call fits fun _ _ _ ends => .done ends

theorem meets_drive {goal : Goal} (fits : goal.Fits enclosure count) :
    Meets enclosure Value.IsKnown count (drive goal) :=
  .drive fits fun _ _ _ ends => .done ends

theorem meets_wait (reason : Wait) :
    Meets enclosure (fun _ _ => True) count (wait reason) :=
  .wait fun _ _ => .done trivial

theorem meets_look {view : Store → α}
    (seen : ∀ more, count ≤ more → ∀ store : Store, store.Sound more → holds more (view store)) :
    Meets enclosure holds count (look view) :=
  (meets_perform .store trivial).bind fun more grows store sound =>
    meets_pure (seen more grows store sound)

/-- Looking at the store for something that nothing is asked of. -/
theorem meets_glance (view : Store → α) :
    Meets enclosure (fun _ _ => True) count (look view) :=
  meets_look fun _ _ _ _ => trivial

/-- A rule that looks at how another one ends, perhaps inside more constructs. -/
theorem Meets.outcome_bind {rule : Rule α} (meets : rule.Meets inner holds count)
    {continuation : Except Interrupt α → Rule β}
    (goesOn : ∀ more, count ≤ more → ∀ result, EndsWithin inner holds more result →
      (continuation result).Meets enclosure holdsAfter more) :
    (outcome rule >>= continuation).Meets enclosure holdsAfter count := by
  unfold Meets
  rw [run_outcome_bind]
  exact Process.Meets.bind meets goesOn

/-- Changing an error must keep its cause. -/
theorem Meets.mapError {rule : Rule α} (meets : rule.Meets enclosure holds count)
    {change : Error → Error}
    (keepsCause : ∀ error, (change error).cause = error.cause) :
    (mapError change rule).Meets enclosure holds count := by
  refine meets.outcome_bind ?_
  intro more _ result ends
  rcases result with (signal | error) | result
  · exact meets_throw ends
  · refine meets_fail ?_
    unfold Error.IsProper
    rw [keepsCause]
    exact ends
  · exact meets_pure ends

/-- A step for every element of a list, in order. -/
theorem meets_traverse {step : α → Rule β} {elements : List α}
    (lasts : ∀ {count more : Nat} {result : β},
      holdsAfter count result → count ≤ more → holdsAfter more result)
    (meets : ∀ element ∈ elements, ∀ more, count ≤ more →
      (step element).Meets enclosure holdsAfter more) :
    (traverse step elements).Meets enclosure
      (fun more results => ∀ result ∈ results, holdsAfter more result) count := by
  induction elements generalizing count with
  | nil => exact meets_pure nofun
  | cons element rest inductive_step =>
      rcases List.forall_mem_cons.mp meets with ⟨first, others⟩
      rw [traverse_cons]
      refine (first count (Nat.le_refl count)).bind ?_
      intro more grows result given
      refine (inductive_step fun other mem most grows' =>
        others other mem most (Nat.le_trans grows grows')).bind fun most grows results rest => ?_
      exact meets_pure (List.forall_mem_cons.mpr ⟨lasts given grows, rest⟩)

end Closure

end Rule

end TreeScript
