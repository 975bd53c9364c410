import TreeScript.Proofs.Destructuring
import TreeScript.Proofs.Fresh
import TreeScript.Proofs.Rounds

/-!
# Loops over arrays that change meanwhile

A loop over the elements of an array looks at the array anew in every round, so that
whatever the body does to the array shows in the rounds to come.
`EachLoop.visits_elements` says which elements it visits: the round at a place is
for the element that is there when the round starts, and the loop is over at the
first place where there is none.  If elements have only been appended, the elements
visited are all those that the array has in the end.
-/

namespace TreeScript

open Evaluation

/-- A layer binds the names that have been dealt something to their parts, for good. -/
structure Store.HoldsParts (store : Store) (layer : LayerId) (dealt : Dealt String) : Prop where
  fits : dealt.result = .ok ()
  holds : ∀ name part, (name, part) ∈ dealt.parts →
    (store.bindings layer).find? name = some (.constant part)
  others : ∀ name, name ∉ dealt.parts.map Prod.fst → (store.bindings layer).find? name = none

/-- A loop over the elements of an array, where it stands. -/
structure EachLoop where
  label : Option String
  pattern : Node
  body : Node
  scope : Scope
  context : Context

namespace EachLoop

variable (loop : EachLoop) (array : ArrayId)

/-- What is left of the loop from a place on. -/
def rest (place : Nat) : Goal :=
  .each loop.label loop.pattern array place loop.body loop.scope loop.context

section Turns

variable (options : Options) (host : Host)

/-- What the loop does about an element. -/
def visit (item : Value) (start : World) : Entry :=
  let opened := start.perform options (.newLayer .empty)
  let inner := Scope.child opened.1 loop.scope
  let defined := opened.2.perform options (.define inner false loop.pattern item)
  match defined.1 with
  | .error error => .fails defined.2 error
  | .ok () => .body defined.2 (.evaluate loop.body inner loop.context)

/-- What the loop does about a place. -/
def entry (place : Nat) (start : World) : Entry :=
  if start.lifecycle.isStopped then .finished
  else
    match (start.store.items array)[place]? with
    | none => .finished
    | some item => loop.visit options item start

/-- The process of the loop from a place on. -/
theorem ofGoal_rest (place : Nat) :
    ofGoal options host (loop.rest array place) =
      .act .isStopped fun stopped =>
        if stopped then .done finished
        else
          .act .store fun store =>
            match (store.items array)[place]? with
            | none => .done finished
            | some item =>
                .act (.newLayer .empty) fun layer =>
                  .act (.define (.child layer loop.scope) false loop.pattern item) fun defined =>
                    match defined with
                    | .error error => .done (.answer (.error (.error error)))
                    | .ok () =>
                        .call (.evaluate loop.body (.child layer loop.scope) loop.context)
                          fun outcome => .done (Entry.turnAfterBody loop.label
                            (loop.rest array (place + 1)) outcome) := by
  rw [rest, ofGoal, turn, eachTurn]
  refine congrArg (Process.act Action.isStopped) (funext fun stopped => ?_)
  cases stopped with
  | true => rfl
  | false =>
      refine congrArg (Process.act Action.store) (funext fun store => ?_)
      show process
        (match (store.items array)[place]? with
        | none => return finished
        | some item => do
            let inner ← openScope loop.scope .empty
            Rule.attempt (Rule.perform (.define inner false loop.pattern item))
            turnAfter loop.label (loop.rest array (place + 1))
              (evaluate loop.body inner loop.context)) = _
      cases (store.items array)[place]? with
      | none => rfl
      | some item =>
          refine congrArg (Process.act _) (funext fun layer => ?_)
          refine congrArg (Process.act _) (funext fun defined => ?_)
          rcases defined with error | fine
          · rfl
          · exact process_turnAfter _ _ _

theorem comesTo_entry (place : Nat) (start : World) :
    Task.ComesTo options host start (Task.forGoal options host (loop.rest array place))
      ((loop.entry array options place start).world start)
      ⟨(loop.entry array options place start).process loop.label (loop.rest array (place + 1)),
        []⟩ := by
  rw [Task.forGoal, loop.ofGoal_rest array options host place, entry]
  refine .act ?_
  dsimp only [World.perform]
  cases start.lifecycle.isStopped with
  | true => exact .refl _ _
  | false =>
      refine .act ?_
      dsimp only [World.perform]
      cases (start.store.items array)[place]? with
      | none => exact .refl _ _
      | some item =>
          refine .act (.act ?_)
          dsimp only [visit]
          generalize World.perform options _ (.define _ _ _ _) = defined
          rcases defined with ⟨error | fine, reached⟩ <;> exact .refl _ _

/-- The loop from its first place on. -/
def looping : Looping options host where
  label := loop.label
  rest := loop.rest array
  entry := loop.entry array options
  enters := loop.comesTo_entry array options host

end Turns

section Visits

variable (options : Options) (host : Host) (meanwhile : Wait → World → World → Prop)

/--
A round for the element that is at its place when it starts: the parts of the element
are bound for good in a new child of the scope of the loop, and the body is evaluated
there.
-/
structure IsVisit (place : Nat) (item : Value) (round : Round) : Prop where
  running : round.start.lifecycle.isStopped = false
  element : (round.start.store.items array)[place]? = some item
  evaluates : ∃ layer opened defined names,
    round.start.OpensLayer .empty layer opened ∧
    opened.perform options (.define (.child layer loop.scope) false loop.pattern item) =
      (.ok (), defined) ∧
    loop.pattern.pattern? = some names ∧
    defined.store.HoldsParts layer (round.start.store.deal names item) ∧
    Task.EndsAmid options host meanwhile defined
      (Task.forGoal options host (.evaluate loop.body (.child layer loop.scope) loop.context))
      round.ended round.outcome

/-- How a loop over an array is left after some rounds, other than by an interrupt. -/
inductive Leaves (rounds : List Round) (last : World) : World → Prop where
  /-- One more round breaks the loop. -/
  | broken {item : Value} {round : Round}
      (isVisit : loop.IsVisit array options host meanwhile rounds.length item round)
      (starts : round.start = last) (breaks : round.Breaks loop.label) :
      Leaves rounds last round.ended
  /-- Evaluation has been stopped. -/
  | stopped (stopped : last.lifecycle.isStopped = true) :
      Leaves rounds last last
  /-- There is no element at the place after the rounds. -/
  | exhausted (passed : (last.store.items array).size ≤ rounds.length) :
      Leaves rounds last last

variable {options host meanwhile}

/-- What has been bound when a visit begins. -/
theorem exists_defined_of_visit {item : Value} {start opened : World} {goal : Goal}
    (visits : loop.visit options item start = .body opened goal) :
    ∃ layer between names,
      start.OpensLayer .empty layer between ∧
      between.perform options (.define (.child layer loop.scope) false loop.pattern item) =
        (.ok (), opened) ∧
      loop.pattern.pattern? = some names ∧
      opened.store.HoldsParts layer (start.store.deal names item) ∧
      goal = .evaluate loop.body (.child layer loop.scope) loop.context := by
  have opens := start.opensLayer_perform options .empty
  have bindsParts (names : Pattern String) (isPattern : loop.pattern.pattern? = some names) :=
    @World.perform_define_newLayer options start _ _ isPattern loop.scope false item
  have inside : (start.perform options (.newLayer .empty)).1.index <
      (start.perform options (.newLayer .empty)).2.store.layers.size := by
    simp [World.perform, Store.newLayer]
  have sameContainers :
      (start.perform options (.newLayer .empty)).2.store.SharesContainers start.store := ⟨rfl, rfl⟩
  dsimp only [visit] at visits
  generalize start.perform options (.newLayer .empty) = made at *
  rcases defines : made.2.perform options
      (.define (.child made.1 loop.scope) false loop.pattern item) with ⟨error | fine, reached⟩
  · rw [defines] at visits
    cases visits
  · rw [defines] at visits
    cases visits
    obtain ⟨names, isPattern, distinct⟩ :=
      Edit.exists_pattern_of_run_define_child options inside defines
    rw [sameContainers.deal] at distinct
    obtain ⟨fits, holds, others⟩ := bindsParts names isPattern distinct
    rw [defines] at fits holds others
    exact ⟨made.1, made.2, names, opens, defines, isPattern, ⟨fits.symm, holds, others⟩, rfl⟩

theorem exists_isVisit {place : Nat} {round : Round}
    (isRound : (loop.looping array options host).IsRound meanwhile place round) :
    ∃ item, loop.IsVisit array options host meanwhile place item round := by
  obtain ⟨opened, goal, entered, ends⟩ := isRound
  simp only [looping, entry] at entered
  split at entered
  · cases entered
  · rename_i running
    split at entered
    · cases entered
    · rename_i item element
      obtain ⟨layer, between, names, opens, defines, isPattern, holds, rfl⟩ :=
        loop.exists_defined_of_visit entered
      exact ⟨item, eq_false_of_ne_true running, element, layer, between, opened, names, opens,
        defines, isPattern, holds, ends⟩

/-- Elements stay at their places in an array that is only appended to. -/
theorem exists_isVisit_of_appends {entered last : World} {rounds : List Round}
    (run : Rounds loop.label
      (fun place round => ∃ item, loop.IsVisit array options host meanwhile place item round)
      entered rounds last)
    (appends : ∀ round ∈ rounds,
      (round.start.store.items array).toList <+: (round.ended.store.items array).toList)
    {place : Nat} {round : Round} (present : rounds[place]? = some round) :
    ∃ item, (last.store.items array)[place]? = some item ∧
      loop.IsVisit array options host meanwhile place item round := by
  have stays : ∀ later ∈ rounds, ∀ (place : Nat) (item : Value),
      (later.start.store.items array)[place]? = some item →
        (later.ended.store.items array)[place]? = some item := by
    intro later mem place item before
    obtain ⟨appended, grows⟩ := appends later mem
    rw [← Array.getElem?_toList] at before ⊢
    rw [← grows, List.getElem?_append_left (List.getElem?_eq_some_iff.mp before).1]
    exact before
  refine @Rounds.holds_of_getElem? _ _ _ _ _
    (fun place round world => ∃ item, (world.store.items array)[place]? = some item ∧
      loop.IsVisit array options host meanwhile place item round) run ?_ ?_ _ _ present
  · rintro round mem place ⟨item, isVisit⟩
    exact ⟨item, stays round mem place item isVisit.element, isVisit⟩
  · rintro later mem place round ⟨item, before, isVisit⟩
    exact ⟨item, stays later mem place item before, isVisit⟩

/-- A loop over an array that ends with a value has not been interrupted. -/
theorem leaves_of_closes {rounds : List Round} {last reached : World} {value : Value}
    (closes : (loop.looping array options host).Closes meanwhile rounds.length last reached
      (.ok value)) :
    value = .null ∧ loop.Leaves array options host meanwhile rounds last reached := by
  cases closes with
  | finished isOver =>
      refine ⟨rfl, ?_⟩
      simp only [looping, entry] at isOver
      split at isOver
      · rename_i stopped
        exact .stopped stopped
      · split at isOver
        · rename_i absent
          exact .exhausted (Array.getElem?_eq_none_iff.mp absent)
        · rw [visit] at isOver
          split at isOver <;> cases isOver
  | breaks isRound starts breaks =>
      obtain ⟨item, isVisit⟩ := loop.exists_isVisit array isRound
      exact ⟨rfl, .broken isVisit starts breaks⟩

/-- The array that a loop over its elements visits, and the rounds in which it does so. -/
theorem exists_visits {items : Node} {world reached : World} {value : Value} (position : Position)
    (ends : Task.EndsAmid options host meanwhile world
      (Task.ofRule (construct loop.scope loop.context position
        (.each loop.label loop.pattern items loop.body))) reached (.ok value)) :
    value = .null ∧ ∃ array entered rounds last,
      Task.EndsAmid options host meanwhile world
        (Task.forGoal options host (.evaluate items loop.scope loop.context)) entered
        (.ok (.arr array)) ∧
      Rounds loop.label
        (fun place round => ∃ item, loop.IsVisit array options host meanwhile place item round)
        entered rounds last ∧
      loop.Leaves array options host meanwhile rounds last reached := by
  obtain ⟨entered, given, header, goesOn⟩ := Rule.endsAmid_call_bind_ok ends
  cases given with
  | arr array =>
      obtain ⟨rounds, last, run, closes⟩ :=
        @Looping.exists_rounds _ _ (loop.looping array options host) _ _ _ _
          ((Rule.enters_call _).endsAmid_iff.mp goesOn)
      obtain ⟨isNull, leaves⟩ := loop.leaves_of_closes array closes
      exact ⟨isNull, array, entered, rounds, last, header,
        run.imp fun _ _ => loop.exists_isVisit array, leaves⟩
  | _ =>
      obtain ⟨-, isError⟩ := Task.endsAmid_answer_iff.mp goesOn
      cases isError

/--
A loop over an array visits the elements that it finds.  Let a loop over the elements
of an array end with a value, while evaluation is not stopped.  Then the value is
`null`, and after the array has been evaluated the loop has had rounds for the places
from the first one on: each of them for the element that stood at its place when the
round started, whatever has happened to the array in other rounds, and with the
parts of this element bound for good in a new child scope.

Either one more round broke the loop, or there was no element at the place after the
rounds.  In that case, if in every round elements have at most been appended to the
array, there has been one round for each element that it has in the end.
-/
theorem visits_elements {items : Node} {world reached : World} {value : Value}
    (position : Position)
    (ends : Task.EndsAmid options host meanwhile world
      (Task.ofRule (construct loop.scope loop.context position
        (.each loop.label loop.pattern items loop.body))) reached (.ok value))
    (running : reached.lifecycle.isStopped = false) :
    value = .null ∧ ∃ array entered rounds last,
      let isVisit := loop.IsVisit array options host meanwhile
      Task.EndsAmid options host meanwhile world
        (Task.forGoal options host (.evaluate items loop.scope loop.context)) entered
        (.ok (.arr array)) ∧
      Rounds loop.label (fun place round => ∃ item, isVisit place item round) entered rounds
        last ∧
      ((∃ item round, isVisit rounds.length item round ∧ round.start = last ∧
          round.Breaks loop.label ∧ round.ended = reached) ∨
        last = reached ∧ (reached.store.items array).size ≤ rounds.length ∧
          ((∀ round ∈ rounds,
              (round.start.store.items array).toList <+: (round.ended.store.items array).toList) →
            rounds.length = (reached.store.items array).size ∧
            ∀ place round, rounds[place]? = some round → ∃ item,
              (reached.store.items array)[place]? = some item ∧ isVisit place item round)) := by
  obtain ⟨isNull, array, entered, rounds, last, header, run, leaves⟩ :=
    loop.exists_visits position ends
  refine ⟨isNull, array, entered, rounds, last, header, run, ?_⟩
  cases leaves with
  | broken isVisit starts breaks => exact .inl ⟨_, _, isVisit, starts, breaks, rfl⟩
  | stopped stopped => cases running.symm.trans stopped
  | exhausted passed =>
      refine .inr ⟨rfl, passed, fun appends => ?_⟩
      have visits {place : Nat} {round : Round} (present : rounds[place]? = some round) :=
        loop.exists_isVisit_of_appends array run appends present
      refine ⟨Nat.le_antisymm (Nat.le_of_not_lt fun more => ?_) passed, fun _ _ => visits⟩
      obtain ⟨item, present, -⟩ := visits (List.getElem?_eq_getElem more)
      exact Nat.lt_irrefl _ (Array.getElem?_eq_some_iff.mp present).1

end Visits

/-- A loop that appends `false` to the array for each element that is `true`. -/
def pushing : EachLoop where
  label := none
  pattern := .mk (.identifier "item") default
  body := .mk (.conditional none (.mk (.identifier "item") default)
    (.mk (.call (.mk (.prop (.mk (.identifier "list") default) "push") default)
      [.mk (.bool false) default]) default) [] none) default
  scope := .root ⟨0⟩
  context := .top .synchronous

/-- A world with an array of one element that has a name. -/
def named : World :=
  { (default : World) with
    store :=
      { Store.empty with
        arrays := #[⟨#[.bool true], []⟩]
        layers := #[Dict.empty.insert "list" (.constant (.arr ⟨0⟩))] } }

/-- The element that is appended in the first round is visited in the second one. -/
theorem visits_elements_pushing :
    ∃ reached : World, reached.lifecycle.isStopped = false ∧
      (reached.store.items ⟨0⟩).toList = [.bool true, .bool false] ∧
      ∃ array entered rounds last,
        let isVisit := pushing.IsVisit array (.silent 0 0) Host.none (fun _ _ _ => True)
        Task.EndsAmid (.silent 0 0) Host.none (fun _ _ _ => True) named
          (Task.forGoal (.silent 0 0) Host.none
            (.evaluate (.mk (.identifier "list") default) pushing.scope pushing.context)) entered
          (.ok (.arr array)) ∧
        Rounds none (fun place round => ∃ item, isVisit place item round) entered rounds last ∧
        ((∃ item round, isVisit rounds.length item round ∧ round.start = last ∧
            round.Breaks none ∧ round.ended = reached) ∨
          last = reached ∧ (reached.store.items array).size ≤ rounds.length ∧
            ((∀ round ∈ rounds, (round.start.store.items array).toList <+:
                (round.ended.store.items array).toList) →
              rounds.length = (reached.store.items array).size ∧
              ∀ place round, rounds[place]? = some round → ∃ item,
                (reached.store.items array)[place]? = some item ∧
                isVisit place item round)) := by
  have checked : ((Task.run (.silent 0 0) Host.none 100 named
      (Task.ofRule (construct pushing.scope pushing.context default
        (.each pushing.label pushing.pattern (.mk (.identifier "list") default)
          pushing.body)))).bind Progress.end?).any
      (fun last => last.2.toOption == some .null && !last.1.lifecycle.isStopped &&
        (last.1.store.items ⟨0⟩).toList == [.bool true, .bool false]) = true := by
    decide +kernel
  obtain ⟨reached, outcome, ran, fits⟩ := Task.exists_finished_of_check checked
  simp only [Bool.and_eq_true, beq_iff_eq, Bool.not_eq_true'] at fits
  obtain ⟨⟨isNull, running⟩, elements⟩ := fits
  obtain rfl : outcome = .ok .null := by
    cases outcome with
    | error interrupt => cases isNull
    | ok value => exact congrArg Except.ok (Option.some.inj isNull)
  obtain ⟨-, visited⟩ :=
    visits_elements pushing default (Task.endsAmid_of_run 100 ran) running
  exact ⟨reached, running, elements, visited⟩

end EachLoop

end TreeScript
