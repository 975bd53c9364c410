import TreeScript.Proofs.Comparison
import TreeScript.Proofs.Depth

/-!
# The manner of a process

A manner says what a process may do: which actions it may perform, which
replies it may rely on, what it may wait for, and which goals it may ask for or
drive.  A process that uses a manner does nothing else, whatever it is replied.
This is a property of the tree alone, so it holds however the process is run,
and it is closed under the operations that rules are written with.

A manner is plain for a mode when it allows what the constructs of a script and
the functions of the library do in that mode once a node has been entered:
quiet actions, and further goals in the same mode.  Taking a step, looking at
the pause and yielding belong to the gate in front of a node alone.
-/

namespace TreeScript

/-- What a process may do. -/
structure Manner where
  acts : Action → Prop
  /-- The replies that are relied on. -/
  replies : (action : Action) → action.Reply → Prop
  waits : Wait → Prop
  calls : Goal → Prop
  drives : Goal → Prop

/-- A goal that a script evaluates in a mode, other than an entry point. -/
def Goal.RunsIn (mode : Mode) : Goal → Prop
  | .enter _ _ _ => False
  | goal => goal.context.mode = mode

/-- A manner in which constructs and the functions of the library go on in a mode. -/
structure Manner.Plain (manner : Manner) (mode : Mode) : Prop where
  acts : ∀ action : Action, action.IsQuiet → manner.acts action
  calls : ∀ goal : Goal, goal.RunsIn mode → manner.calls goal
  drives : mode = .synchronous → ∀ goal : Goal, goal.RunsIn mode → manner.drives goal

namespace Process

variable {α β : Type}

/-- A process that does what a manner allows, and ends with results of a kind. -/
inductive Uses (manner : Manner) (holds : α → Prop) : Process α → Prop where
  | done {result : α}
      (given : holds result) :
      Uses manner holds (.done result)
  | act {action : Action} {next : action.Reply → Process α}
      (allowed : manner.acts action)
      (rest : ∀ reply, manner.replies action reply → Uses manner holds (next reply)) :
      Uses manner holds (.act action next)
  | wait {reason : Wait} {next : Process α}
      (allowed : manner.waits reason)
      (rest : Uses manner holds next) :
      Uses manner holds (.wait reason next)
  | call {goal : Goal} {next : Outcome → Process α}
      (allowed : manner.calls goal)
      (rest : ∀ outcome, Uses manner holds (next outcome)) :
      Uses manner holds (.call goal next)
  | drive {goal : Goal} {next : Outcome → Process α}
      (allowed : manner.drives goal)
      (rest : ∀ outcome, Uses manner holds (next outcome)) :
      Uses manner holds (.drive goal next)

variable {manner : Manner}

theorem Uses.bind {holds : α → Prop} {holdsAfter : β → Prop} {process : Process α}
    (uses : process.Uses manner holds)
    {continuation : α → Process β}
    (goesOn : ∀ result, holds result → (continuation result).Uses manner holdsAfter) :
    (process.bind continuation).Uses manner holdsAfter := by
  induction uses with
  | done given => exact goesOn _ given
  | act allowed _ inductive_step => exact .act allowed inductive_step
  | wait allowed _ inductive_step => exact .wait allowed inductive_step
  | call allowed _ inductive_step => exact .call allowed inductive_step
  | drive allowed _ inductive_step => exact .drive allowed inductive_step

end Process

namespace Rule

variable {α β : Type}

/-- A rule that does what a manner allows; nothing is asked of interrupts. -/
def Uses (manner : Manner) (holds : α → Prop) (rule : Rule α) : Prop :=
  Process.Uses manner
    (fun result : Except Interrupt α => ∀ given ∈ result.toOption, holds given) rule.run

/-- A rule that does what a manner allows, whatever it gives. -/
abbrev Minds (manner : Manner) (rule : Rule α) : Prop :=
  Uses manner (fun _ => True) rule

section Closure

variable {manner : Manner} {holds : α → Prop} {holdsAfter : β → Prop}

theorem uses_pure {result : α} (given : holds result) :
    Uses manner holds (pure result) := by
  refine .done fun other same => ?_
  cases same
  exact given

theorem uses_throw (interrupt : Interrupt) :
    Uses manner holds (throw interrupt) :=
  .done nofun

theorem uses_fail (error : Error) :
    Uses manner holds (fail error) :=
  .done nofun

/-- A rule may go on with one that relies on what the first gives. -/
theorem Uses.bind {rule : Rule α} (uses : rule.Uses manner holds)
    {continuation : α → Rule β}
    (goesOn : ∀ result, holds result → (continuation result).Uses manner holdsAfter) :
    (rule >>= continuation).Uses manner holdsAfter := by
  refine Process.Uses.bind uses fun result given => ?_
  rcases result with interrupt | result
  · exact .done nofun
  · exact goesOn result (given result rfl)

theorem uses_perform {action : Action} (allowed : manner.acts action) :
    Uses manner (manner.replies action) (perform action) := by
  refine .act allowed fun reply replied => .done fun other same => ?_
  cases same
  exact replied

/-- An action of whose reply nothing is asked. -/
theorem minds_perform {action : Action} (allowed : manner.acts action) :
    Minds manner (perform action) :=
  .act allowed fun _ _ => .done fun _ _ => trivial

theorem minds_ofExcept (result : Except Error α) : Minds manner (ofExcept result) := by
  cases result with
  | ok value => exact uses_pure trivial
  | error error => exact uses_fail error

theorem minds_call {goal : Goal} (allowed : manner.calls goal) :
    Minds manner (call goal) :=
  .call allowed fun _ => .done fun _ _ => trivial

theorem minds_drive {goal : Goal} (allowed : manner.drives goal) :
    Minds manner (drive goal) :=
  .drive allowed fun _ => .done fun _ _ => trivial

theorem minds_wait {reason : Wait} (allowed : manner.waits reason) :
    Minds manner (wait reason) :=
  .wait allowed (.done fun _ _ => trivial)

theorem uses_look {view : Store → α} (allowed : manner.acts .store)
    (seen : ∀ store : Store, manner.replies .store store → holds (view store)) :
    Uses manner holds (look view) :=
  (uses_perform allowed).bind fun store replied => uses_pure (seen store replied)

/-- A rule that looks at how another one ends. -/
theorem Uses.outcome_bind {rule : Rule α} (uses : rule.Uses manner holds)
    {continuation : Except Interrupt α → Rule β}
    (goesOn : ∀ result, (continuation result).Uses manner holdsAfter) :
    (outcome rule >>= continuation).Uses manner holdsAfter := by
  unfold Uses
  rw [run_outcome_bind]
  exact Process.Uses.bind uses fun result _ => goesOn result

theorem Uses.mapError {rule : Rule α} (uses : rule.Minds manner)
    (change : Error → Error) :
    (mapError change rule).Minds manner := by
  refine uses.outcome_bind fun result => ?_
  rcases result with (signal | error) | result
  · exact uses_throw _
  · exact uses_fail _
  · exact uses_pure trivial

/-- A step for every element of a list, in order. -/
theorem minds_traverse {step : α → Rule β}
    (minds : ∀ element, (step element).Minds manner) (elements : List α) :
    (traverse step elements).Minds manner := by
  induction elements with
  | nil => exact uses_pure trivial
  | cons element rest inductive_step =>
      rw [traverse_cons]
      exact (minds element).bind fun _ _ => inductive_step.bind fun _ _ => uses_pure trivial

end Closure

end Rule

end TreeScript
