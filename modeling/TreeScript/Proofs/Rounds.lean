import TreeScript.Proofs.Bindings
import TreeScript.Proofs.GoalComparison
import TreeScript.Proofs.Meanwhile

/-!
# The rounds of a loop

A loop is a sequence of goals, of which each one stands for the rest of the loop.
`Looping` says what becomes of these goals before the body is evaluated; what
becomes of them afterwards is the same for all loops.  So every end of a loop comes
after some rounds that let it go on (`Looping.exists_rounds`), and a loop that has a
last place comes to an end if its body does (`Looping.ensures`).
-/

namespace TreeScript

/-- One run of the body of a loop: the worlds around it, and how the body ends. -/
structure Round where
  start : World
  ended : World
  outcome : Outcome

namespace Round

/-- After the round the loop goes on. -/
def Continues (label : Option String) (round : Round) : Prop :=
  Iteration.ofOutcome label round.outcome = .next

/-- The round breaks the loop. -/
def Breaks (label : Option String) (round : Round) : Prop :=
  Iteration.ofOutcome label round.outcome = .leave

end Round

/-- The rounds of a loop from its first place on, after each of which it goes on. -/
inductive Rounds (label : Option String) (isRound : Nat → Round → Prop) (start : World) :
    List Round → World → Prop where
  | none : Rounds label isRound start [] start
  | more {rounds : List Round} {round : Round}
      (earlier : Rounds label isRound start rounds round.start)
      (isLast : isRound rounds.length round)
      (continues : round.Continues label) :
      Rounds label isRound start (rounds ++ [round]) round.ended

/-- A loop that is to have a number of rounds has had them all, or has been broken in the last. -/
inductive Completes (label : Option String) (isRound : Nat → Round → Prop) (start : World)
    (count : Nat) : World → Prop where
  | all {rounds : List Round} {reached : World}
      (run : Rounds label isRound start rounds reached) (all : rounds.length = count) :
      Completes label isRound start count reached
  | broken {rounds : List Round} {round : Round}
      (earlier : Rounds label isRound start rounds round.start) (fewer : rounds.length < count)
      (isLast : isRound rounds.length round) (breaks : round.Breaks label) :
      Completes label isRound start count round.ended

namespace Rounds

variable {label : Option String} {isRound isRound' : Nat → Round → Prop} {start reached : World}
variable {rounds : List Round}

theorem imp (implies : ∀ place round, isRound place round → isRound' place round)
    (run : Rounds label isRound start rounds reached) :
    Rounds label isRound' start rounds reached := by
  induction run with
  | none => exact .none
  | more _ isLast continues inductive_step =>
      exact .more inductive_step (implies _ _ isLast) continues

/-- What holds of a round when it ends, and is kept by the rounds after it, holds in the end. -/
theorem holds_of_getElem? {holds : Nat → Round → World → Prop}
    (run : Rounds label isRound start rounds reached)
    (arises : ∀ round ∈ rounds, ∀ place, isRound place round → holds place round round.ended)
    (persists : ∀ later ∈ rounds, ∀ place round, holds place round later.start →
      holds place round later.ended)
    {place : Nat} {round : Round} (present : rounds[place]? = some round) :
    holds place round reached := by
  induction run with
  | none => cases present
  | @more rounds latest _ isLast _ inductive_step =>
      rw [List.forall_mem_append, List.forall_mem_singleton] at arises persists
      rcases Nat.lt_trichotomy place rounds.length with isEarlier | rfl | isLater
      · rw [List.getElem?_append_left isEarlier] at present
        exact persists.2 place round (inductive_step arises.1 persists.1 present)
      · rw [List.getElem?_concat_length] at present
        cases present
        exact arises.2 rounds.length isLast
      · have inside := (List.getElem?_eq_some_iff.mp present).1
        rw [List.length_append, List.length_singleton] at inside
        omega

end Rounds

theorem Completes.imp {label : Option String} {isRound isRound' : Nat → Round → Prop}
    {start reached : World} {count : Nat}
    (implies : ∀ place round, isRound place round → isRound' place round)
    (completes : Completes label isRound start count reached) :
    Completes label isRound' start count reached := by
  cases completes with
  | all run all => exact .all (run.imp implies) all
  | broken earlier fewer isLast breaks =>
      exact .broken (earlier.imp implies) fewer (implies _ _ isLast) breaks

/-! ## Bodies -/

/-- A layer has been made, and nothing else has happened. -/
structure World.OpensLayer (world : World) (bindings : Dict Variable) (layer : LayerId)
    (opened : World) : Prop where
  isNew : layer.index = world.store.layers.size
  binds : opened.store.bindings layer = bindings
  onlyStore : opened = { world with store := (world.store.newLayer bindings).1 }

theorem World.opensLayer_perform (options : Options) (world : World) (bindings : Dict Variable) :
    world.OpensLayer bindings (world.perform options (.newLayer bindings)).1
      (world.perform options (.newLayer bindings)).2 where
  isNew := rfl
  binds := world.store.bindings_newLayer_self bindings
  onlyStore := rfl

namespace Rule

variable {options : Options} {host : Host} {meanwhile : Wait → World → World → Prop}
variable {world opened reached : World} {rule : Rule Value} {goal : Goal} {outcome : Outcome}

/-- A rule comes to the evaluation of a goal, the outcome of which is its own. -/
def Enters (options : Options) (host : Host) (world : World) (rule : Rule Value) (opened : World)
    (goal : Goal) : Prop :=
  ∀ continuation, Task.ComesTo options host world ⟨rule.run.bind continuation, []⟩ opened
    ⟨.call goal continuation, []⟩

theorem enters_call (goal : Goal) : Enters options host world (call goal) world goal :=
  fun _ => .refl _ _

theorem Enters.perform {action : Action} {rest : action.Reply → Rule Value}
    (enters : Enters options host (world.perform options action).2
      (rest (world.perform options action).1) opened goal) :
    Enters options host world (Rule.perform action >>= rest) opened goal :=
  fun continuation => .act (enters continuation)

/-- The rule ends as the goal does. -/
theorem Enters.endsAmid_iff (enters : Enters options host world rule opened goal) :
    Task.EndsAmid options host meanwhile world (Task.ofRule rule) reached outcome ↔
      Task.EndsAmid options host meanwhile opened (Task.forGoal options host goal) reached
        outcome := by
  rw [Task.ofRule, Evaluation.process_answering, Task.endsAmid_of_comesTo (enters _),
    Task.endsAmid_call_iff]
  simp [Task.endsAmid_answer_iff]

/-- The rule ensures what the goal does. -/
theorem Enters.ensures_iff {holds : World → Outcome → Prop}
    (enters : Enters options host world rule opened goal) :
    Task.Ensures options host meanwhile holds world (Task.ofRule rule) ↔
      Task.Ensures options host meanwhile holds opened (Task.forGoal options host goal) := by
  rw [Task.ofRule, Evaluation.process_answering, Task.ensures_of_comesTo (enters _),
    Task.ensures_call_iff]
  simp only [Task.ensures_answer_iff]

/-- A rule that has a value after a goal has been evaluated in it. -/
theorem endsAmid_call_bind_ok {rest : Value → Rule Value} {value : Value}
    (ends : Task.EndsAmid options host meanwhile world (Task.ofRule (call goal >>= rest)) reached
      (.ok value)) :
    ∃ between given,
      Task.EndsAmid options host meanwhile world (Task.forGoal options host goal) between
        (.ok given) ∧
      Task.EndsAmid options host meanwhile between (Task.ofRule (rest given)) reached
        (.ok value) := by
  rw [Task.ofRule, Evaluation.process_answering] at ends
  obtain ⟨between, given, ends, goesOn⟩ := Task.endsAmid_call_iff.mp ends
  cases given with
  | error interrupt =>
      obtain ⟨-, isError⟩ := Task.endsAmid_answer_iff.mp goesOn
      cases isError
  | ok given =>
      refine ⟨between, given, ends, ?_⟩
      rw [Task.ofRule, Evaluation.process_answering]
      exact goesOn

/-- A rule that goes on after a goal, unless that is interrupted. -/
theorem ensures_call_bind {holds : World → Outcome → Prop} {rest : Value → Rule Value}
    (ensures : Task.Ensures options host meanwhile
      (fun between given => ∃ value, given = .ok value ∧
        Task.Ensures options host meanwhile holds between (Task.ofRule (rest value)))
      world (Task.forGoal options host goal)) :
    Task.Ensures options host meanwhile holds world (Task.ofRule (call goal >>= rest)) := by
  rw [Task.ofRule, Evaluation.process_answering]
  refine Task.ensures_call_iff.mpr (ensures.strengthen fun between given _ fits => ?_)
  obtain ⟨value, rfl, goesOn⟩ := fits
  rw [Task.ofRule, Evaluation.process_answering] at goesOn
  exact goesOn

end Rule

/-! ## Loops by their goals -/

/-- What a loop does about a place: it is over, it fails, or its body is evaluated. -/
inductive Entry where
  | finished
  | fails (reached : World) (error : Error)
  | body (opened : World) (goal : Goal)

namespace Entry

/-- The turn of a loop after its body has ended; `rest` is what is left of the loop. -/
def turnAfterBody (label : Option String) (rest : Goal) (outcome : Outcome) : Turn :=
  match Iteration.ofOutcome label outcome with
  | .next => .again rest
  | .leave => Evaluation.finished
  | .propagate interrupt => .answer (.error interrupt)

/-- The world in which a loop has come to a place. -/
def world (start : World) : Entry → World
  | .finished => start
  | .fails reached _ => reached
  | .body opened _ => opened

/-- What is left to do about a place. -/
def process (label : Option String) (rest : Goal) : Entry → Process Turn
  | .finished => .done Evaluation.finished
  | .fails _ error => .done (.answer (.error (.error error)))
  | .body _ goal => .call goal fun outcome => .done (turnAfterBody label rest outcome)

end Entry

/-- The rule of a loop goes on after its body as said above. -/
theorem Evaluation.process_turnAfter (label : Option String) (rest : Goal) (body : Rule Value) :
    process (turnAfter label rest body) =
      body.run.bind fun outcome => .done (Entry.turnAfterBody label rest outcome) := by
  rw [process, turnAfter, Rule.run_outcome_bind, Process.bind_assoc]
  refine congrArg _ (funext fun outcome => ?_)
  rw [Entry.turnAfterBody]
  cases Iteration.ofOutcome label outcome <;> rfl

/-- A loop: the goals that stand for what is left of it, and what becomes of them. -/
structure Looping (options : Options) (host : Host) where
  label : Option String
  rest : Nat → Goal
  entry : Nat → World → Entry
  enters : ∀ place start, Task.ComesTo options host start (Task.forGoal options host (rest place))
    ((entry place start).world start)
    ⟨(entry place start).process label (rest (place + 1)), []⟩

namespace Looping

variable {options : Options} {host : Host} (loop : Looping options host)
variable (meanwhile : Wait → World → World → Prop)

/-- In a round the body of the loop is entered at a place, and comes to an end. -/
def IsRound (place : Nat) (round : Round) : Prop :=
  ∃ opened goal, loop.entry place round.start = .body opened goal ∧
    Task.EndsAmid options host meanwhile opened (Task.forGoal options host goal) round.ended
      round.outcome

/-- How the loop ends at a place. -/
inductive Closes (place : Nat) (start : World) : World → Outcome → Prop where
  | finished (isOver : loop.entry place start = .finished) :
      Closes place start start (.ok .null)
  | fails {reached : World} {error : Error}
      (fails : loop.entry place start = .fails reached error) :
      Closes place start reached (.error (.error error))
  | breaks {round : Round} (isRound : loop.IsRound meanwhile place round)
      (starts : round.start = start) (breaks : round.Breaks loop.label) :
      Closes place start round.ended (.ok .null)
  | propagates {round : Round} {interrupt : Interrupt}
      (isRound : loop.IsRound meanwhile place round) (starts : round.start = start)
      (propagates : Iteration.ofOutcome loop.label round.outcome = .propagate interrupt) :
      Closes place start round.ended (.error interrupt)

variable {loop meanwhile} {world start reached : World} {outcome : Outcome}

/-- However the loop ends at a place, it has gone on to a last one and closes there. -/
theorem exists_rounds_of_endsIn {size : Nat} {rounds : List Round}
    (earlier : Rounds loop.label (loop.IsRound meanwhile) world rounds start)
    (ends : Task.EndsIn options host meanwhile size start
      (Task.forGoal options host (loop.rest rounds.length)) reached outcome) :
    ∃ rounds start, Rounds loop.label (loop.IsRound meanwhile) world rounds start ∧
      loop.Closes meanwhile rounds.length start reached outcome := by
  -- What is left of the loop after a round has an end that takes fewer steps.
  induction size using Nat.strongRecOn generalizing rounds start with
  | ind size inductive_step =>
      have comes := loop.enters rounds.length start
      cases entered : loop.entry rounds.length start with
      | finished =>
          rw [entered] at comes
          obtain ⟨rfl, rfl⟩ := Task.endsAmid_answer_iff.mp
            ((Task.endsAmid_of_comesTo comes).mp ⟨size, ends⟩)
          exact ⟨rounds, _, earlier, .finished entered⟩
      | fails failed error =>
          rw [entered] at comes
          obtain ⟨rfl, rfl⟩ := Task.endsAmid_answer_iff.mp
            ((Task.endsAmid_of_comesTo comes).mp ⟨size, ends⟩)
          exact ⟨rounds, _, earlier, .fails entered⟩
      | body opened goal =>
          rw [entered] at comes
          obtain ⟨less, isLess, rest⟩ := ends.of_comesTo comes
          obtain ⟨first, second, between, given, bodyEnds, goesOn, shorter⟩ := rest.of_call
          have isRound : loop.IsRound meanwhile rounds.length ⟨start, between, given⟩ :=
            ⟨opened, goal, entered, first, bodyEnds⟩
          cases does : Iteration.ofOutcome loop.label given with
          | next =>
              rw [Entry.turnAfterBody, does] at goesOn
              obtain ⟨least, rfl, again⟩ := goesOn.of_running (Task.step_again between _ [])
              refine inductive_step least (by omega) (.more earlier isRound does) ?_
              rw [List.length_append]
              exact again
          | leave =>
              rw [Entry.turnAfterBody, does] at goesOn
              obtain ⟨rfl, rfl⟩ := Task.endsAmid_answer_iff.mp ⟨second, goesOn⟩
              exact ⟨rounds, start, earlier, .breaks isRound rfl does⟩
          | propagate interrupt =>
              rw [Entry.turnAfterBody, does] at goesOn
              obtain ⟨rfl, rfl⟩ := Task.endsAmid_answer_iff.mp ⟨second, goesOn⟩
              exact ⟨rounds, start, earlier, .propagates isRound rfl does⟩

/-- However a loop ends, it has gone on to a last place and closes there. -/
theorem exists_rounds
    (ends : Task.EndsAmid options host meanwhile world (Task.forGoal options host (loop.rest 0))
      reached outcome) :
    ∃ rounds start, Rounds loop.label (loop.IsRound meanwhile) world rounds start ∧
      loop.Closes meanwhile rounds.length start reached outcome := by
  obtain ⟨size, ends⟩ := ends
  exact exists_rounds_of_endsIn .none ends

/-- The body of the loop is entered at a place, and ends with going on or with a break. -/
def BodyEnsures (loop : Looping options host) (meanwhile : Wait → World → World → Prop)
    (place : Nat) (start : World) : Prop :=
  ∃ opened goal, loop.entry place start = .body opened goal ∧
    Task.Ensures options host meanwhile
      (fun _ outcome => ∀ interrupt,
        Iteration.ofOutcome loop.label outcome ≠ .propagate interrupt)
      opened (Task.forGoal options host goal)

/-- A loop with a last place comes to an end if its body does at every place before. -/
theorem ensures {last : Nat}
    (isOver : ∀ rounds start, Rounds loop.label (loop.IsRound meanwhile) world rounds start →
      rounds.length = last → loop.entry last start = .finished)
    (goesOn : ∀ rounds start, Rounds loop.label (loop.IsRound meanwhile) world rounds start →
      rounds.length < last → loop.BodyEnsures meanwhile rounds.length start) :
    Task.Ensures options host meanwhile
      (fun reached outcome => outcome = .ok .null ∧
        Completes loop.label (loop.IsRound meanwhile) world last reached)
      world (Task.forGoal options host (loop.rest 0)) := by
  suffices fromHere : ∀ left rounds start,
      Rounds loop.label (loop.IsRound meanwhile) world rounds start →
      rounds.length + left = last →
      Task.Ensures options host meanwhile
        (fun reached outcome => outcome = .ok .null ∧
        Completes loop.label (loop.IsRound meanwhile) world last reached)
        start (Task.forGoal options host (loop.rest rounds.length)) from
    fromHere last [] world .none (Nat.zero_add last)
  intro left
  induction left with
  | zero =>
      intro rounds start earlier isLast
      obtain rfl : rounds.length = last := isLast
      have comes := loop.enters rounds.length start
      rw [isOver rounds start earlier rfl] at comes
      rw [Task.ensures_of_comesTo comes]
      exact Task.ensures_answer_iff.mpr ⟨rfl, .all earlier rfl⟩
  | succ left inductive_step =>
      intro rounds start earlier before
      obtain ⟨opened, goal, entered, bodyEnsures⟩ := goesOn rounds start earlier (by omega)
      have comes := loop.enters rounds.length start
      rw [entered] at comes
      rw [Task.ensures_of_comesTo comes, Entry.process, Task.ensures_call_iff]
      refine bodyEnsures.strengthen fun between given ends uninterrupted => ?_
      have isRound : loop.IsRound meanwhile rounds.length ⟨start, between, given⟩ :=
        ⟨opened, goal, entered, ends⟩
      cases does : Iteration.ofOutcome loop.label given with
      | next =>
          rw [Entry.turnAfterBody, does]
          refine .step (Task.step_again between _ []) ?_
          have later := inductive_step _ _ (.more earlier isRound does)
            (by rw [List.length_append, List.length_singleton]; omega)
          rwa [List.length_append] at later
      | leave =>
          rw [Entry.turnAfterBody, does]
          exact Task.ensures_answer_iff.mpr ⟨rfl, .broken earlier (by omega) isRound does⟩
      | propagate interrupt => exact (uninterrupted interrupt does).elim

end Looping

end TreeScript
