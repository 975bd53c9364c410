import TreeScript.Proofs.EntryPoints
import TreeScript.Proofs.Execution

/-!
# Rules in a stopped world

When evaluation has been stopped, every node that is asked for gives `null` at once.  A
rule that asks for nothing but nodes therefore comes to its end without waiting, and what
it does on the way can be read off the rule: `Rule.Comes` says what holds then, and has
one lemma for each operation that such rules are written with.
-/

namespace TreeScript

open Rule

variable {options : Options} {host : Host} {world next : World} {α β : Type}

namespace Rule

/--
A rule that starts in a world comes to a world and a result with a property, and a task
then goes on with whatever it has to do after the rule.
-/
def Comes (options : Options) (host : Host) (world : World) (rule : Rule α)
    (post : World → Except Interrupt α → Prop) : Prop :=
  ∃ next result, post next result ∧
    ∀ (continuation : Except Interrupt α → Process Turn) (stack : List Frame),
      Task.GoesOn options host world ⟨rule.run.bind continuation, stack⟩ next
        ⟨continuation result, stack⟩

/-- A rule that gives a value and leaves the world as it is. -/
abbrev Returns (options : Options) (host : Host) (world : World) (rule : Rule α) (value : α) :
    Prop :=
  rule.Comes options host world fun next result => next = world ∧ result = .ok value

variable {post middle : World → Except Interrupt α → Prop}

theorem Comes.mono {rule : Rule α} (comes : rule.Comes options host world middle)
    (implies : ∀ next result, middle next result → post next result) :
    rule.Comes options host world post := by
  obtain ⟨next, result, holds, goesOn⟩ := comes
  exact ⟨next, result, implies next result holds, goesOn⟩

theorem comes_pure {result : α} (holds : post world (.ok result)) :
    Comes options host world (pure result) post :=
  ⟨world, .ok result, holds, fun _ _ => .refl _ _⟩

theorem comes_throw {interrupt : Interrupt} (holds : post world (.error interrupt)) :
    Comes options host world (throw interrupt) post :=
  ⟨world, .error interrupt, holds, fun _ _ => .refl _ _⟩

theorem comes_fail {error : Error} (holds : post world (.error (.error error))) :
    Comes options host world (fail error) post :=
  comes_throw holds

theorem comes_ofExcept {result : Except Error α}
    (holds : post world (result.mapError .error)) :
    Comes options host world (ofExcept result) post := by
  cases result with
  | ok value => exact comes_pure holds
  | error error => exact comes_fail holds

theorem comes_perform {action : Action} {post : World → Except Interrupt action.Reply → Prop}
    (holds : post (world.perform options action).2 (.ok (world.perform options action).1)) :
    Comes options host world (perform action) post :=
  ⟨_, _, holds, fun _ stack => .step (Task.step_act world action _ stack) (.refl _ _)⟩

/-- A rule that goes on after an action. -/
theorem comes_perform_bind {action : Action} {continuation : action.Reply → Rule α}
    (goesOn : (continuation (world.perform options action).1).Comes options host
      (world.perform options action).2 post) :
    (perform action >>= continuation).Comes options host world post := by
  obtain ⟨next, result, holds, goesOn⟩ := goesOn
  exact ⟨next, result, holds, fun rest stack =>
    .step (Task.step_act world action _ stack) (goesOn rest stack)⟩

/-- A rule that looks at how another one ends comes to what it then goes on to. -/
theorem Comes.outcome_bind {rule : Rule α} {continuation : Except Interrupt α → Rule β}
    {last : World → Except Interrupt β → Prop} (first : rule.Comes options host world middle)
    (goesOn : ∀ next result, middle next result →
      (continuation result).Comes options host next last) :
    (outcome rule >>= continuation).Comes options host world last := by
  obtain ⟨next, result, holds, before⟩ := first
  obtain ⟨reached, ends, holdsThen, after⟩ := goesOn next result holds
  refine ⟨reached, ends, holdsThen, fun rest stack => ?_⟩
  rw [run_outcome_bind, Process.bind_assoc]
  exact (before _ stack).trans (after rest stack)

/-- A rule that goes on after another one, unless that is interrupted. -/
theorem Comes.bind {rule : Rule α} {continuation : α → Rule β}
    {last : World → Except Interrupt β → Prop} (first : rule.Comes options host world middle)
    (goesOn : ∀ next value, middle next (.ok value) →
      (continuation value).Comes options host next last)
    (fails : ∀ next interrupt, middle next (.error interrupt) → last next (.error interrupt)) :
    (rule >>= continuation).Comes options host world last := by
  have split : rule >>= continuation =
      outcome rule >>= fun result => ExceptT.mk (ExceptT.bindCont continuation result) := by
    refine ExceptT.ext ?_
    rw [run_outcome_bind]
    rfl
  rw [split]
  refine first.outcome_bind fun next result holds => ?_
  cases result with
  | ok value => exact goesOn next value holds
  | error interrupt => exact comes_throw (fails next interrupt holds)

theorem Returns.bind {rule : Rule α} {value : α} {continuation : α → Rule β}
    {last : World → Except Interrupt β → Prop} (first : rule.Returns options host world value)
    (goesOn : (continuation value).Comes options host world last) :
    (rule >>= continuation).Comes options host world last := by
  refine Comes.bind first ?_ ?_
  · rintro next given ⟨rfl, same⟩
    cases same
    exact goesOn
  · rintro next interrupt ⟨-, same⟩
    cases same

/-- An action that may fail. -/
theorem comes_attempt {reply : Rule (Except Error α)}
    (first : reply.Comes options host world fun next result =>
      ∃ given, result = .ok given ∧ post next (given.mapError .error)) :
    (attempt reply).Comes options host world post := by
  refine first.bind ?_ ?_
  · rintro next given ⟨_, ⟨⟩, holds⟩
    exact comes_ofExcept holds
  · rintro next interrupt ⟨_, ⟨⟩, -⟩

theorem Comes.mapError {rule : Rule α} (comes : rule.Comes options host world middle)
    {change : Error → Error} (given : ∀ next value, middle next (.ok value) → post next (.ok value))
    (fails : ∀ next error, middle next (.error (.error error)) →
      post next (.error (.error (change error))))
    (signals : ∀ next signal, middle next (.error (.signal signal)) →
      post next (.error (.signal signal))) :
    (mapError change rule).Comes options host world post := by
  refine comes.outcome_bind fun next result holds => ?_
  rcases result with (signal | error) | value
  · exact comes_throw (signals next signal holds)
  · exact comes_fail (fails next error holds)
  · exact comes_pure (given next value holds)

/-- What gives a value for every element gives the values in order. -/
theorem returns_traverse {step : α → Rule β} {value : α → β}
    (returns : ∀ element, (step element).Returns options host world (value element))
    (elements : List α) :
    (traverse step elements).Returns options host world (elements.map value) := by
  induction elements with
  | nil => exact comes_pure ⟨rfl, rfl⟩
  | cons element rest inductive_step =>
      rw [traverse_cons]
      exact (returns element).bind (inductive_step.bind (comes_pure ⟨rfl, rfl⟩))

end Rule

namespace Evaluation

variable {scope : Scope} {context : Context} (stopped : world.lifecycle.isStopped = true)

include stopped

/-- A node gives `null` at once. -/
theorem returns_evaluate (node : Node) :
    (evaluate node scope context).Returns options host world .null := by
  refine ⟨world, .ok .null, ⟨rfl, rfl⟩, fun continuation stack => ?_⟩
  obtain ⟨proceed, looks, stops⟩ : ∃ proceed : Bool → Process Turn,
      ofGoal options host (.evaluate node scope context) = .act .isStopped proceed ∧
        proceed true = .done (.answer (.ok .null)) := ⟨_, rfl, rfl⟩
  refine .step (Task.step_call world _ _ stack) ?_
  rw [looks]
  refine .step (Task.step_act world .isStopped proceed _) ?_
  rw [show (world.perform options .isStopped).1 = true from stopped, stops]
  exact .step (Task.step_answer world _ _ stack) (.refl _ _)

theorem returns_evaluateAttributes (attributes : List (String × Node)) :
    (evaluateAttributes scope context attributes).Returns options host world
      (attributes.map fun entry => ⟨entry.1, .null⟩) := by
  have entry (entry : String × Node) :
      (do return (entry.1, ← evaluate entry.2 scope context) : Rule (String × Value)).Returns
        options host world (entry.1, .null) :=
    (returns_evaluate stopped entry.2).bind (comes_pure ⟨rfl, rfl⟩)
  have entries : (evaluateEntries scope context attributes).Returns options host world
      (attributes.map fun entry => (entry.1, .null)) := returns_traverse entry attributes
  refine entries.bind (comes_pure ⟨rfl, ?_⟩)
  rw [List.map_map]
  rfl

omit stopped in
theorem returns_expectingValue {rule : Rule Value} {value : Value}
    (returns : rule.Returns options host world value) :
    (expectingValue rule).Returns options host world value := by
  refine Comes.outcome_bind returns ?_
  rintro next result ⟨rfl, rfl⟩
  exact comes_pure ⟨rfl, rfl⟩

omit stopped in
theorem returns_expectingAttributes {rule : Rule (List Attribute)} {attributes : List Attribute}
    (returns : rule.Returns options host world attributes) :
    (expectingAttributes rule).Returns options host world attributes := by
  refine Comes.outcome_bind returns ?_
  rintro next result ⟨rfl, rfl⟩
  exact comes_pure ⟨rfl, rfl⟩

end Evaluation

end TreeScript
