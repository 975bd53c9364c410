import TreeScript.Proofs.Comparison
import TreeScript.Proofs.LinkedActions

/-!
# Linked processes

Two processes are linked if they perform linked actions, ask for linked goals,
and end with linked results, whatever linked replies and outcomes they get.
Either of them may in between look at the number of steps, tell the host that
it yields, and wait to be polled again: runs share the steps of an interpreter
with other runs, so that they yield at other times than they do alone.

The link is one that knows the handles of all replies to come.  So the rules of
evaluation can be compared part by part under one link, and nothing has to be
said about how the link grows in between.
-/

namespace TreeScript

namespace Process

variable {α β γ δ : Type}

/-- What a process does that makes no difference to the script. -/
inductive Passes : Process α → Process α → Prop where
  | steps (next : Nat → Process α) (steps : Nat) : Passes (.act .steps next) (next steps)
  | yielded (next : Unit → Process α) : Passes (.act .yielded next) (next ())
  | nextPoll (next : Process α) : Passes (.wait .nextPoll next) next

/-- The second process does what the first one does, up to linked handles. -/
inductive Linked (names : String → Bool) (link : Link) (same : α → β → Prop) :
    Process α → Process β → Prop where
  | done {result : α} {other : β} (results : same result other) :
      Linked names link same (.done result) (.done other)
  | act {action action' : Action} {next : action.Reply → Process α}
      {next' : action'.Reply → Process β}
      (actions : action.Linked names link action')
      (rest : ∀ reply reply', action.RepliesLinked names link action' reply reply' →
        Linked names link same (next reply) (next' reply')) :
      Linked names link same (.act action next) (.act action' next')
  | call {goal goal' : Goal} {next : Outcome → Process α} {next' : Outcome → Process β}
      (goals : goal.Linked names link goal')
      (rest : ∀ outcome outcome', Outcome.Linked link outcome outcome' →
        Linked names link same (next outcome) (next' outcome')) :
      Linked names link same (.call goal next) (.call goal' next')
  | left {first : Process α} {second : Process β}
      (passes : ∃ after, first.Passes after)
      (rest : ∀ after, first.Passes after → Linked names link same after second) :
      Linked names link same first second
  | right {first : Process α} {second : Process β}
      (passes : ∃ after, second.Passes after)
      (rest : ∀ after, second.Passes after → Linked names link same first after) :
      Linked names link same first second

theorem Passes.bind {process after : Process α} (passes : process.Passes after)
    (continuation : α → Process γ) :
    (process.bind continuation).Passes (after.bind continuation) := by
  cases passes with
  | steps next steps => exact .steps _ steps
  | yielded next => exact .yielded _
  | nextPoll next => exact .nextPoll _

/-- What passes of a process that goes on passes of the process itself, if anything does. -/
theorem exists_of_passes_bind {process : Process α} (passes : ∃ after, process.Passes after)
    {continuation : α → Process γ} {reached : Process γ}
    (passed : (process.bind continuation).Passes reached) :
    ∃ after, process.Passes after ∧ reached = after.bind continuation := by
  obtain ⟨_, passes⟩ := passes
  cases passes with
  | steps next =>
      cases passed with
      | steps _ steps => exact ⟨_, .steps _ steps, rfl⟩
  | yielded next =>
      cases passed
      exact ⟨_, .yielded _, rfl⟩
  | nextPoll next =>
      cases passed
      exact ⟨_, .nextPoll _, rfl⟩

/-- Linked processes may go on with linked processes. -/
theorem Linked.bind {names : String → Bool} {link : Link} {same : α → β → Prop}
    {sameAfter : γ → δ → Prop} {first : Process α} {second : Process β}
    (linked : Linked names link same first second)
    {continuation : α → Process γ} {continuation' : β → Process δ}
    (goesOn : ∀ result result', same result result' →
      Linked names link sameAfter (continuation result) (continuation' result')) :
    Linked names link sameAfter (first.bind continuation) (second.bind continuation') := by
  induction linked with
  | done results => exact goesOn _ _ results
  | act actions _ inductive_step => exact .act actions inductive_step
  | call goals _ inductive_step => exact .call goals inductive_step
  | left passes _ inductive_step =>
      obtain ⟨after, passed⟩ := passes
      refine .left ⟨_, passed.bind continuation⟩ fun reached passes => ?_
      obtain ⟨after, passed, rfl⟩ := exists_of_passes_bind ⟨after, passed⟩ passes
      exact inductive_step after passed
  | right passes _ inductive_step =>
      obtain ⟨after, passed⟩ := passes
      refine .right ⟨_, passed.bind continuation'⟩ fun reached passes => ?_
      obtain ⟨after, passed, rfl⟩ := exists_of_passes_bind ⟨after, passed⟩ passes
      exact inductive_step after passed

end Process

namespace Rule

variable {α β γ δ : Type}

/-- The second rule does what the first one does, up to linked handles. -/
def Linked (names : String → Bool) (link : Link) (same : α → β → Prop) (rule : Rule α)
    (other : Rule β) : Prop :=
  Process.Linked names link (Except.Linked (Interrupt.Linked link) same) rule.run other.run

section Closure

variable {names : String → Bool} {link : Link} {same : α → β → Prop} {sameAfter : γ → δ → Prop}

theorem linked_pure {result : α} {other : β} (results : same result other) :
    Linked names link same (pure result) (pure other) :=
  .done (.ok results)

theorem linked_throw {interrupt other : Interrupt} (interrupts : interrupt.Linked link other) :
    Linked names link same (throw interrupt) (throw other) :=
  .done (.error interrupts)

theorem linked_fail (error : Error) : Linked names link same (fail error) (fail error) :=
  linked_throw (.error error)

theorem linked_ofExcept {result : Except Error α} {other : Except Error β}
    (results : Except.Linked Eq same result other) :
    Linked names link same (ofExcept result) (ofExcept other) := by
  cases results with
  | ok results => exact linked_pure results
  | error failures => exact failures ▸ linked_fail _

theorem linked_ofEqual (result : Except Error α) :
    Linked names link Eq (ofExcept result) (ofExcept result) := by
  cases result with
  | ok result => exact linked_pure rfl
  | error error => exact linked_fail error

theorem linked_asBool {value value' : Value} (values : value.Linked link value') :
    Linked names link Eq (ofExcept value.asBool) (ofExcept value'.asBool) :=
  values.asBool ▸ linked_ofEqual value.asBool

theorem linked_asNum {value value' : Value} (values : value.Linked link value') :
    Linked names link Eq (ofExcept value.asNum) (ofExcept value'.asNum) :=
  values.asNum ▸ linked_ofEqual value.asNum

theorem linked_asStr {value value' : Value} (values : value.Linked link value') :
    Linked names link Eq (ofExcept value.asStr) (ofExcept value'.asStr) :=
  values.asStr ▸ linked_ofEqual value.asStr

theorem Linked.bind {rule : Rule α} {other : Rule β} (linked : rule.Linked names link same other)
    {continuation : α → Rule γ} {continuation' : β → Rule δ}
    (goesOn : ∀ result result', same result result' →
      (continuation result).Linked names link sameAfter (continuation' result')) :
    (rule >>= continuation).Linked names link sameAfter (other >>= continuation') := by
  refine Process.Linked.bind linked fun result result' results => ?_
  cases results with
  | ok results => exact goesOn _ _ results
  | error interrupts => exact linked_throw interrupts

/-- The case of `Linked.bind` in which both rules give the same result. -/
theorem Linked.andThen {rule other : Rule α} (linked : rule.Linked names link Eq other)
    {continuation : α → Rule γ} {continuation' : α → Rule δ}
    (goesOn : ∀ result,
      (continuation result).Linked names link sameAfter (continuation' result)) :
    (rule >>= continuation).Linked names link sameAfter (other >>= continuation') :=
  linked.bind fun result _ equal => equal ▸ goesOn result

theorem linked_perform {action action' : Action} (actions : action.Linked names link action') :
    Linked names link (action.RepliesLinked names link action') (perform action)
      (perform action') :=
  .act actions fun _ _ replies => .done (.ok replies)

theorem Linked.attempt {reply : Rule (Except Error α)} {other : Rule (Except Error β)}
    (linked : reply.Linked names link (Except.Linked Eq same) other) :
    (attempt reply).Linked names link same (attempt other) :=
  linked.bind fun _ _ results => linked_ofExcept results

theorem linked_look {view : Store → α} {view' : Store → β}
    (views : ∀ store store' : Store, store.Linked names link store' →
      same (view store) (view' store')) :
    Linked names link same (look view) (look view') :=
  (linked_perform .store).bind fun _ _ stores => linked_pure (views _ _ stores)

theorem linked_call {goal goal' : Goal} (goals : goal.Linked names link goal') :
    Linked names link (Value.Linked link) (call goal) (call goal') :=
  .call goals fun _ _ outcomes => .done outcomes

/-- A rule that looks at how another one ends. -/
theorem Linked.outcome_bind {rule : Rule α} {other : Rule β}
    (linked : rule.Linked names link same other)
    {continuation : Except Interrupt α → Rule γ} {continuation' : Except Interrupt β → Rule δ}
    (goesOn : ∀ outcome outcome', Except.Linked (Interrupt.Linked link) same outcome outcome' →
      (continuation outcome).Linked names link sameAfter (continuation' outcome')) :
    (outcome rule >>= continuation).Linked names link sameAfter
      (outcome other >>= continuation') := by
  unfold Linked
  rw [run_outcome_bind, run_outcome_bind]
  exact Process.Linked.bind linked goesOn

theorem Linked.mapError {rule : Rule α} {other : Rule β}
    (linked : rule.Linked names link same other) (change : Error → Error) :
    (mapError change rule).Linked names link same (mapError change other) := by
  refine linked.outcome_bind fun outcome outcome' outcomes => ?_
  cases outcomes with
  | ok results => exact linked_pure results
  | error interrupts =>
      cases interrupts with
      | signal signals => exact linked_throw (.signal signals)
      | error error => exact linked_fail _

/-- Steps for the elements of two lists that are linked in pairs. -/
theorem linked_traverse {ε ζ : Type} {step : ε → Rule α} {step' : ζ → Rule β}
    {elements : List ε} {others : List ζ}
    (each : List.Forall₂
      (fun element other => (step element).Linked names link same (step' other))
      elements others) :
    (traverse step elements).Linked names link (List.Forall₂ same) (traverse step' others) := by
  induction each with
  | nil => exact linked_pure .nil
  | cons first _ inductive_step =>
      rw [traverse_cons, traverse_cons]
      exact first.bind fun _ _ result => inductive_step.bind fun _ _ results =>
        linked_pure (.cons result results)

end Closure

end Rule

end TreeScript
