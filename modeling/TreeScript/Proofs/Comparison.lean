import TreeScript.Proofs.Hostless

/-!
# Comparing processes

Two processes are compared step by step: the second follows the first when it
performs the same actions, asks for corresponding goals, and ends in the same
way.  There are two liberties.  The first may give up with an error of a kind
that is agreed on, whatever the second goes on to do.  And the second may look
at the pause and at the number of steps, tell the host that it yields, and
wait to be polled again, none of which changes what a script sees.

An error with which the first gives up must not be caught: `Propagates` says
that a process which receives one as the outcome of a goal ends with one.  The
error of a step beyond the limit may be such an error as well; then the process
ends right after that step.

The relation is closed under the operations that rules are written with, so
that the rules of evaluation can be compared part by part.
-/

namespace TreeScript

/-- What may differ between two runs that are compared. -/
structure Comparison where
  /-- The goals that correspond to each other. -/
  goal : Goal → Goal → Prop
  /-- The causes of errors with which the first run may give up. -/
  givesUp : Cause → Prop
  /-- The modes that are compared. -/
  modes : Mode → Mode → Prop

namespace Process

variable {α β γ δ : Type}

/-- An error of an agreed kind, received as the outcome of a goal, ends a process at once. -/
def Propagates (comparison : Comparison) (gaveUp : α → Prop) (next : Outcome → Process α) :
    Prop :=
  ∀ error : Error, comparison.givesUp error.cause →
    ∃ result, gaveUp result ∧ next (.error (.error error)) = .done result

/-- The second process follows the first. -/
inductive Follows (comparison : Comparison) (gaveUp : α → Prop) (same : α → β → Prop) :
    Process α → Process β → Prop where
  | done {first : α} {second : β}
      (results : same first second) :
      Follows comparison gaveUp same (.done first) (.done second)
  | giveUp {result : α} {second : Process β}
      (given : gaveUp result) :
      Follows comparison gaveUp same (.done result) second
  | act {action : Action} {first : action.Reply → Process α} {second : action.Reply → Process β}
      (plain : action.Plain)
      (rest : ∀ reply, action.Expected reply →
        Follows comparison gaveUp same (first reply) (second reply)) :
      Follows comparison gaveUp same (.act action first) (.act action second)
  | tick {first : Bool → Process α} {second : Bool → Process β}
      (rest : ∀ within, Follows comparison gaveUp same (first within) (second within))
      (stops : comparison.givesUp .stepLimit →
        ∃ result, gaveUp result ∧ first false = .done result) :
      Follows comparison gaveUp same (.act .tick first) (.act .tick second)
  | wait {reason : Wait} {first : Process α} {second : Process β}
      (modes : comparison.modes .asynchronous .asynchronous)
      (rest : Follows comparison gaveUp same first second) :
      Follows comparison gaveUp same (.wait reason first) (.wait reason second)
  | call {goal other : Goal} {first : Outcome → Process α} {second : Outcome → Process β}
      (goals : comparison.goal goal other)
      (rest : ∀ outcome, Follows comparison gaveUp same (first outcome) (second outcome))
      (propagates : Propagates comparison gaveUp first) :
      Follows comparison gaveUp same (.call goal first) (.call other second)
  | drive {goal other : Goal} {first : Outcome → Process α} {second : Outcome → Process β}
      (modes : comparison.modes .synchronous .synchronous)
      (goals : comparison.goal goal other)
      (rest : ∀ outcome, Follows comparison gaveUp same (first outcome) (second outcome))
      (propagates : Propagates comparison gaveUp first) :
      Follows comparison gaveUp same (.drive goal first) (.drive other second)
  | driveCall {goal other : Goal} {first : Outcome → Process α} {second : Outcome → Process β}
      (modes : comparison.modes .synchronous .asynchronous)
      (goals : comparison.goal goal other)
      (rest : ∀ outcome, Follows comparison gaveUp same (first outcome) (second outcome))
      (propagates : Propagates comparison gaveUp first) :
      Follows comparison gaveUp same (.drive goal first) (.call other second)
  | lookAtPause {first : Process α} {second : Option Nat → Process β}
      (rest : Follows comparison gaveUp same first (second none)) :
      Follows comparison gaveUp same first (.act .pause second)
  | lookAtSteps {first : Process α} {second : Nat → Process β}
      (rest : ∀ steps, Follows comparison gaveUp same first (second steps)) :
      Follows comparison gaveUp same first (.act .steps second)
  | tellYield {first : Process α} {second : Unit → Process β}
      (rest : Follows comparison gaveUp same first (second ())) :
      Follows comparison gaveUp same first (.act .yielded second)
  | awaitPoll {first : Process α} {second : Process β}
      (rest : Follows comparison gaveUp same first second) :
      Follows comparison gaveUp same first (.wait .nextPoll second)

variable {comparison : Comparison}

theorem Propagates.bind {gaveUp : α → Prop} {gaveUpAfter : γ → Prop}
    {next : Outcome → Process α}
    (propagates : Propagates comparison gaveUp next)
    {continuation : α → Process γ}
    (kept : ∀ result, gaveUp result →
      ∃ after, gaveUpAfter after ∧ continuation result = .done after) :
    Propagates comparison gaveUpAfter fun outcome => (next outcome).bind continuation := by
  intro error given
  rcases propagates error given with ⟨result, gave, ends⟩
  rcases kept result gave with ⟨after, gaveAfter, endsAfter⟩
  exact ⟨after, gaveAfter, (congrArg (·.bind continuation) ends).trans endsAfter⟩

/-- Processes that follow each other may go on with processes that do so. -/
theorem Follows.bind {gaveUp : α → Prop} {gaveUpAfter : γ → Prop}
    {same : α → β → Prop} {sameAfter : γ → δ → Prop}
    {first : Process α} {second : Process β}
    (follows : Follows comparison gaveUp same first second)
    {continuation : α → Process γ} {other : β → Process δ}
    (goesOn : ∀ result result', same result result' →
      Follows comparison gaveUpAfter sameAfter (continuation result) (other result'))
    (kept : ∀ result, gaveUp result →
      ∃ after, gaveUpAfter after ∧ continuation result = .done after) :
    Follows comparison gaveUpAfter sameAfter (first.bind continuation) (second.bind other) := by
  induction follows with
  | done results => exact goesOn _ _ results
  | giveUp given =>
      rcases kept _ given with ⟨after, gaveAfter, ends⟩
      rw [done_bind, ends]
      exact .giveUp gaveAfter
  | act plain _ inductive_step => exact .act plain inductive_step
  | tick _ stops inductive_step =>
      refine .tick inductive_step ?_
      intro given
      rcases stops given with ⟨result, gave, ends⟩
      rcases kept result gave with ⟨after, gaveAfter, endsAfter⟩
      exact ⟨after, gaveAfter, (congrArg (·.bind continuation) ends).trans endsAfter⟩
  | wait modes _ inductive_step => exact .wait modes inductive_step
  | call goals _ propagates inductive_step =>
      exact .call goals inductive_step (propagates.bind kept)
  | drive modes goals _ propagates inductive_step =>
      exact .drive modes goals inductive_step (propagates.bind kept)
  | driveCall modes goals _ propagates inductive_step =>
      exact .driveCall modes goals inductive_step (propagates.bind kept)
  | lookAtPause _ inductive_step => exact .lookAtPause inductive_step
  | lookAtSteps _ inductive_step => exact .lookAtSteps inductive_step
  | tellYield _ inductive_step => exact .tellYield inductive_step
  | awaitPoll _ inductive_step => exact .awaitPoll inductive_step

end Process

namespace Rule

variable {α β γ δ : Type}

/-- A result with which a rule gives up. -/
def GaveUp (comparison : Comparison) : Except Interrupt α → Prop
  | .error (.error error) => comparison.givesUp error.cause
  | _ => False

/-- Results that are alike, and equal interrupts. -/
def Same (same : α → β → Prop) : Except Interrupt α → Except Interrupt β → Prop
  | .ok first, .ok second => same first second
  | .error first, .error second => first = second
  | _, _ => False

/-- The second rule follows the first. -/
def Follows (comparison : Comparison) (same : α → β → Prop)
    (first : Rule α) (second : Rule β) : Prop :=
  Process.Follows comparison (GaveUp comparison) (Same same) first.run second.run

section Closure

variable {comparison : Comparison}

@[simp]
theorem same_eq_iff {result other : Except Interrupt α} :
    Same Eq result other ↔ result = other := by
  cases result <;> cases other <;> simp [Same]

theorem follows_pure {same : α → β → Prop} {first : α} {second : β}
    (results : same first second) :
    Follows comparison same (pure first) (pure second) :=
  .done results

theorem follows_throw (same : α → β → Prop) (interrupt : Interrupt) :
    Follows comparison same (throw interrupt) (throw interrupt) :=
  .done rfl

theorem follows_fail (same : α → β → Prop) (error : Error) :
    Follows comparison same (fail error) (fail error) :=
  .done rfl

theorem follows_ofExcept (result : Except Error α) :
    Follows comparison Eq (ofExcept result) (ofExcept result) := by
  cases result with
  | ok value => exact follows_pure rfl
  | error error => exact follows_fail Eq error

/-- Rules that follow each other may go on with rules that do so. -/
theorem Follows.bind {same : α → β → Prop} {sameAfter : γ → δ → Prop}
    {first : Rule α} {second : Rule β}
    (follows : Follows comparison same first second)
    {continuation : α → Rule γ} {other : β → Rule δ}
    (goesOn : ∀ result result', same result result' →
      Follows comparison sameAfter (continuation result) (other result')) :
    Follows comparison sameAfter (first >>= continuation) (second >>= other) := by
  refine Process.Follows.bind follows ?_ ?_
  · rintro (interrupt | result) (interrupt' | result') alike
    · exact .done alike
    · exact alike.elim
    · exact alike.elim
    · exact goesOn result result' alike
  · rintro ((signal | error) | result) gave
    · exact gave.elim
    · exact ⟨.error (.error error), gave, rfl⟩
    · exact gave.elim

/-- The case of `Follows.bind` in which both rules give the same result. -/
theorem Follows.andThen {sameAfter : γ → δ → Prop}
    {first second : Rule α}
    (follows : Follows comparison Eq first second)
    {continuation : α → Rule γ} {other : α → Rule δ}
    (goesOn : ∀ result, Follows comparison sameAfter (continuation result) (other result)) :
    Follows comparison sameAfter (first >>= continuation) (second >>= other) :=
  follows.bind fun result _ equal => equal ▸ goesOn result

theorem follows_perform (action : Action) (plain : action.Plain) :
    Follows comparison (fun reply reply' => reply = reply' ∧ action.Expected reply)
      (perform action) (perform action) :=
  .act plain fun _ expected => .done ⟨rfl, expected⟩

theorem follows_act (action : Action) (plain : action.Plain) :
    Follows comparison Eq (perform action) (perform action) :=
  .act plain fun _ _ => .done rfl

/-- Taking a step, which must be within the limit, before going on. -/
theorem follows_tick {same : α → β → Prop} {first : Rule α} {second : Rule β}
    (follows : Follows comparison same first second) :
    Follows comparison same
      (perform .tick >>= fun within => if within then first else fail (.of .stepLimit))
      (perform .tick >>= fun within => if within then second else fail (.of .stepLimit)) := by
  refine .tick (fun within => ?_) fun given => ⟨.error (.error (.of .stepLimit)), given, rfl⟩
  cases within with
  | true => exact follows
  | false => exact follows_fail same _

theorem follows_look (view : Store → α) :
    Follows comparison Eq (look view) (look view) :=
  (follows_act .store trivial).andThen fun _ => follows_pure rfl

theorem Follows.attempt {first second : Rule (Except Error α)}
    (follows : Follows comparison Eq first second) :
    Follows comparison Eq (attempt first) (attempt second) :=
  follows.andThen follows_ofExcept

/-- What a rule does with the outcome of a goal keeps an interrupt as it is. -/
theorem propagates_done :
    Process.Propagates comparison (GaveUp comparison) (Process.done (α := Outcome)) :=
  fun error given => ⟨.error (.error error), given, rfl⟩

theorem follows_call {goal other : Goal} (goals : comparison.goal goal other) :
    Follows comparison Eq (call goal) (call other) :=
  .call goals (fun _ => .done (same_eq_iff.mpr rfl)) propagates_done

theorem follows_drive {goal other : Goal}
    (modes : comparison.modes .synchronous .synchronous)
    (goals : comparison.goal goal other) :
    Follows comparison Eq (drive goal) (drive other) :=
  .drive modes goals (fun _ => .done (same_eq_iff.mpr rfl)) propagates_done

theorem follows_drive_call {goal other : Goal}
    (modes : comparison.modes .synchronous .asynchronous)
    (goals : comparison.goal goal other) :
    Follows comparison Eq (drive goal) (call other) :=
  .driveCall modes goals (fun _ => .done (same_eq_iff.mpr rfl)) propagates_done

theorem run_outcome_bind (rule : Rule α) (continuation : Except Interrupt α → Rule γ) :
    (outcome rule >>= continuation).run =
      rule.run.bind fun result => (continuation result).run :=
  Process.bind_assoc rule.run _ _

/-- A rule that looks at how another ends must let the agreed errors through. -/
theorem Follows.outcome_bind {sameAfter : γ → δ → Prop}
    {first second : Rule α}
    (follows : Follows comparison Eq first second)
    {continuation : Except Interrupt α → Rule γ} {other : Except Interrupt α → Rule δ}
    (goesOn : ∀ result, Follows comparison sameAfter (continuation result) (other result))
    (kept : ∀ error : Error, comparison.givesUp error.cause →
      ∃ error' : Error, comparison.givesUp error'.cause ∧
        continuation (.error (.error error)) = fail error') :
    Follows comparison sameAfter (outcome first >>= continuation) (outcome second >>= other) := by
  unfold Follows
  rw [run_outcome_bind, run_outcome_bind]
  refine Process.Follows.bind follows ?_ ?_
  · intro result result' alike
    rcases same_eq_iff.mp alike with rfl
    exact goesOn result
  · rintro ((signal | error) | result) gave
    · exact gave.elim
    · rcases kept error gave with ⟨error', gave', fails⟩
      exact ⟨.error (.error error'), gave', congrArg ExceptT.run fails⟩
    · exact gave.elim

/-- Changing an error must keep its cause. -/
theorem Follows.mapError {first second : Rule α}
    (follows : Follows comparison Eq first second)
    {change : Error → Error}
    (keepsCause : ∀ error, (change error).cause = error.cause) :
    Follows comparison Eq (mapError change first) (mapError change second) := by
  refine follows.outcome_bind ?_ ?_
  · rintro ((signal | error) | result)
    · exact follows_throw Eq _
    · exact follows_fail Eq _
    · exact follows_pure rfl
  · intro error given
    exact ⟨change error, (keepsCause error).symm ▸ given, rfl⟩

theorem follows_traverse {step other : α → Rule β}
    (follows : ∀ element, Follows comparison Eq (step element) (other element))
    (elements : List α) :
    Follows comparison Eq (traverse step elements) (traverse other elements) := by
  induction elements with
  | nil => exact follows_pure rfl
  | cons element rest inductive_step =>
      rw [traverse_cons, traverse_cons]
      exact (follows element).andThen fun _ =>
        inductive_step.andThen fun _ => follows_pure rfl

end Closure

end Rule

/-- Equal outcomes, or corresponding goals to go on with. -/
def Turn.Same (again : Goal → Goal → Prop) : Turn → Turn → Prop
  | .answer first, .answer second => first = second
  | .again first, .again second => again first second
  | _, _ => False

/-- A turn with which a goal gives up. -/
def Turn.GaveUp (comparison : Comparison) : Turn → Prop
  | .answer outcome => Rule.GaveUp comparison outcome
  | .again _ => False

theorem Turn.gaveUp_iff {comparison : Comparison} {turn : Turn} :
    turn.GaveUp comparison ↔
      ∃ error, turn = .answer (.error (.error error)) ∧ comparison.givesUp error.cause := by
  constructor
  · intro gave
    rcases turn with ((signal | error) | value) | goal
    · exact gave.elim
    · exact ⟨error, rfl, gave⟩
    · exact gave.elim
    · exact gave.elim
  · rintro ⟨error, rfl, given⟩
    exact given

end TreeScript
