import TreeScript.Proofs.Depictions
import TreeScript.Proofs.PlainMembers
import TreeScript.Syntax.Metadata

/-!
# Runs of literals

A tree of literals takes one step for each of its nodes, makes the arrays and
objects that it is written with, and does nothing else.  Its value is depicted by
the document that it has as metadata (`Evaluation.spends_literal`), whatever the
script has done before, and it has a value if the steps can be afforded.
-/

namespace TreeScript

open Rule

variable {options : Options} {host : Host} {mode : Mode}
variable {world before between after reached : World}

/-! ## Trees of literals -/

/-- The kinds of literals. -/
def Kind.isLiteral : Kind → Bool
  | .null | .bool | .num | .str | .arr | .obj => true
  | _ => false

namespace Node

mutual

/-- A node and what is inside of its arrays and objects, in the order in which they are written. -/
def parts : Node → List Node
  | .mk (.arr items) span => .mk (.arr items) span :: partsOfItems items
  | .mk (.obj entries) span => .mk (.obj entries) span :: partsOfEntries entries
  | .mk shape span => [.mk shape span]

/-- The parts of the elements of an array. -/
def partsOfItems : List Node → List Node
  | [] => []
  | node :: rest => parts node ++ partsOfItems rest

/-- The parts of the entries of an object. -/
def partsOfEntries : List (String × Node) → List Node
  | [] => []
  | (_, node) :: rest => parts node ++ partsOfEntries rest

end

/-- A tree of literals: arrays and objects down to `null`, truth values, numbers and texts. -/
def IsLiteral (node : Node) : Prop :=
  ∀ part ∈ node.parts, part.kind.isLiteral = true

instance (node : Node) : Decidable node.IsLiteral :=
  inferInstanceAs (Decidable (∀ part ∈ node.parts, part.kind.isLiteral = true))

end Node

/-! ## Rules that only make containers -/

/-- Between two worlds so many steps have been taken, and containers have been added. -/
structure World.Spent (count : Nat) (before after : World) : Prop where
  lifecycle : after.lifecycle = before.lifecycle
  steps : after.steps = before.steps + count
  adds : before.store.AddsContainers after.store

theorem World.Spent.trans {count more : Nat} (first : Spent count before between)
    (second : Spent more between after) : Spent (count + more) before after where
  lifecycle := second.lifecycle.trans first.lifecycle
  steps := by rw [second.steps, first.steps, Nat.add_assoc]
  adds := first.adds.trans second.adds

/-- What can be afforded in all can be afforded after a part of it. -/
theorem World.Spent.affords {count more : Nat} (spent : Spent count before after)
    (affords : before.Affords options mode (count + more)) : after.Affords options mode more := by
  rw [Affords, spent.lifecycle, spent.steps]
  rcases affords with nothing | stopped | ⟨unpaused, limit⟩
  · exact .inl (Nat.eq_zero_of_add_eq_zero_left nothing)
  · exact .inr (.inl stopped)
  · rw [← Nat.add_assoc] at limit
    exact .inr (.inr ⟨unpaused, limit⟩)

/--
A rule that takes so many steps and adds containers, if evaluation is not stopped
and if the steps can be afforded.  Given that something holds of the store, it
has a result of which something holds then.
-/
structure Rule.Spends {α : Type} (options : Options) (host : Host) (mode : Mode) (count : Nat)
    (given : Store → Prop) (rule : Rule α) (gives : Store → α → Prop) : Prop where
  exists_ends : ∀ {world : World}, world.lifecycle.isStopped = false → given world.store →
    world.Affords options mode count →
    ∃ reached result, rule.Ends options host mode.isFree world reached (.ok result)
  of_ends : ∀ {world reached : World} {result : α}, world.lifecycle.isStopped = false →
    given world.store → rule.Ends options host mode.isFree world reached (.ok result) →
    world.Spent count reached ∧ gives reached.store result

namespace Rule.Spends

variable {α β : Type} {count more : Nat} {given frame : Store → Prop} {rule : Rule α}
variable {gives : Store → α → Prop}

/-- A result without a step. -/
theorem pure {result : α} (holds : ∀ store, given store → gives store result) :
    (pure result : Rule α).Spends options host mode 0 given gives where
  exists_ends _ _ _ := ⟨_, _, ends_pure_iff.mpr ⟨rfl, rfl⟩⟩
  of_ends := by
    intro world reached other _ holding ends
    obtain ⟨rfl, same⟩ := ends_pure_iff.mp ends
    cases same
    exact ⟨⟨rfl, rfl, .refl _⟩, holds _ holding⟩

/-- A rule that goes on after another one. -/
theorem bind {continuation : α → Rule β} {givesThen : Store → β → Prop}
    (first : rule.Spends options host mode count given gives)
    (second : ∀ result, (continuation result).Spends options host mode more
      (fun store => gives store result) givesThen) :
    (rule >>= continuation).Spends options host mode (count + more) given givesThen where
  exists_ends := by
    intro world running holding affords
    obtain ⟨between, result, ends⟩ := first.exists_ends running holding affords.of_add
    obtain ⟨spent, held⟩ := first.of_ends running holding ends
    obtain ⟨reached, results, endsThen⟩ := (second result).exists_ends
      (spent.lifecycle ▸ running) held (spent.affords affords)
    exact ⟨reached, results, ends_bind_ok_iff.mpr ⟨between, result, ends, endsThen⟩⟩
  of_ends := by
    intro world reached results running holding ends
    obtain ⟨between, result, ends, endsThen⟩ := ends_bind_ok_iff.mp ends
    obtain ⟨spent, held⟩ := first.of_ends running holding ends
    obtain ⟨spentThen, heldThen⟩ :=
      (second result).of_ends (spent.lifecycle ▸ running) held endsThen
    exact ⟨spent.trans spentThen, heldThen⟩

/-- What containers are added to keeps what does not depend on them. -/
theorem framed (stays : ∀ {before after : Store}, before.AddsContainers after →
      frame before → frame after)
    (spends : rule.Spends options host mode count given gives) :
    rule.Spends options host mode count (fun store => given store ∧ frame store)
      fun store result => gives store result ∧ frame store where
  exists_ends running holding := spends.exists_ends running holding.1
  of_ends running holding ends := by
    obtain ⟨spent, held⟩ := spends.of_ends running holding.1 ends
    exact ⟨spent, held, stays spent.adds holding.2⟩

theorem mono {stronger : Store → Prop} {weaker : Store → α → Prop}
    (spends : rule.Spends options host mode count given gives)
    (first : ∀ store, stronger store → given store)
    (second : ∀ store result, gives store result → weaker store result) :
    rule.Spends options host mode count stronger weaker where
  exists_ends running holding := spends.exists_ends running (first _ holding)
  of_ends running holding ends := by
    obtain ⟨spent, held⟩ := spends.of_ends running (first _ holding) ends
    exact ⟨spent, second _ _ held⟩

/-- A result of a rule that is made from another one, without a step. -/
theorem map {make : α → β} {givesThen : Store → β → Prop}
    (spends : rule.Spends options host mode count given gives)
    (holds : ∀ store result, gives store result → givesThen store (make result)) :
    Rule.Spends options host mode count given (do return make (← rule)) givesThen :=
  spends.bind fun result => .pure fun store => holds store result

/-- Rules with the same results spend the same. -/
theorem of_iff {other : Rule α}
    (same : ∀ {world reached : World} {result : α},
      other.Ends options host mode.isFree world reached (.ok result) ↔
        rule.Ends options host mode.isFree world reached (.ok result))
    (spends : rule.Spends options host mode count given gives) :
    other.Spends options host mode count given gives where
  exists_ends running holding affords := by
    obtain ⟨reached, result, ends⟩ := spends.exists_ends running holding affords
    exact ⟨reached, result, same.mpr ends⟩
  of_ends running holding ends := spends.of_ends running holding (same.mp ends)

/-- Telling the host of something takes no step and adds nothing. -/
theorem log (name : String) (scope : Option String) (value : Option Value) :
    Rule.Spends options host mode 0 given (Rule.perform (.log name scope value))
      fun store _ => given store where
  exists_ends _ _ _ := ⟨_, (), ends_perform_iff.mpr ⟨rfl, rfl⟩⟩
  of_ends := by
    intro world reached result _ holding ends
    obtain ⟨rfl, -⟩ := ends_perform_iff.mp ends
    show world.Spent 0 (world.log options name scope none value) ∧
      given (world.log options name scope none value).store
    unfold World.log
    split <;> exact ⟨⟨rfl, rfl, .refl _⟩, holding⟩

/-- A list of results that is made by one rule after another. -/
theorem cons {related : Store → α → β → Prop} {others : Rule (List α)} {head : β} {tail : List β}
    (stays : ∀ {before after : Store} {result : α}, before.AddsContainers after →
      related before result head → related after result head)
    (first : rule.Spends options host mode count (fun _ => True)
      fun store result => related store result head)
    (further : others.Spends options host mode more (fun _ => True)
      fun store results => List.Forall₂ (related store) results tail) :
    Rule.Spends options host mode (count + more) (fun _ => True)
      (do
        let result ← rule
        return result :: (← others))
      fun store results => List.Forall₂ (related store) results (head :: tail) := by
  refine first.bind fun result => ?_
  have framed := further.framed fun adds (holds : related _ result head) => stays adds holds
  refine (framed.mono (fun _ holds => ⟨trivial, holds⟩) fun _ _ both => both).map ?_
  exact fun store results ⟨others, first⟩ => .cons first others

end Rule.Spends

/-! ## What literals come to -/

namespace Store

/-- A value whose container, if it is one, is of the store. -/
def Owns (store : Store) (value : Value) : Prop :=
  ∀ container : ContainerId, value = container.value → store.IsHeld container

/-- A value made of containers of the store is depicted by a document. -/
def Shows (store : Store) (value : Value) (document : Document) : Prop :=
  store.Depicts store.Owns value document

theorem Shows.adds {before after : Store} (adds : before.AddsContainers after) {value : Value}
    {document : Document} (shows : before.Shows value document) : after.Shows value document :=
  (Depicts.adds adds (fun container owns => owns container rfl) shows).mono
    fun _ owns container stands => adds.isHeld (owns container stands)

theorem owns_newArray (store : Store) (items : Array Value) :
    (store.newArray items).1.Owns (.arr (store.newArray items).2) := by
  intro container stands
  obtain rfl : ContainerId.arr _ = container := ContainerId.value_injective stands
  exact store.isHeld_newArray items

theorem owns_newObject (store : Store) (entries : Dict Value) :
    (store.newObject entries).1.Owns (.obj (store.newObject entries).2) := by
  intro container stands
  obtain rfl : ContainerId.obj _ = container := ContainerId.value_injective stands
  exact store.isHeld_newObject entries

theorem shows_newArray {store : Store} {values : List Value} {documents : List Document}
    (each : List.Forall₂ store.Shows values documents) :
    (store.newArray values.toArray).1.Shows (.arr (store.newArray values.toArray).2)
      (.arr documents) :=
  .newArray (fun container owns => owns container rfl)
    (fun _ owns container stands =>
      (AddsContainers.newArray store _).isHeld (owns container stands))
    (store.owns_newArray _) each

/-- Of entries with one name the last counts, in values as in documents. -/
theorem shows_newObject {store : Store} {values : List (String × Value)}
    {documents : List (String × Document)}
    (each : List.Forall₂ (fun entry member => member.1 = entry.1 ∧ store.Shows entry.2 member.2)
      values documents) :
    (store.newObject (Dict.ofList values)).1.Shows
      (.obj (store.newObject (Dict.ofList values)).2) (.obj (Dict.ofList documents).entries) :=
  .newObject (fun container owns => owns container rfl)
    (fun _ owns container stands =>
      (AddsContainers.newObject store _).isHeld (owns container stands))
    (store.owns_newObject _)
    (forall₂_entries_iff.mpr (Dict.optionRel_ofNamed (fun _ => store.Shows) each))

end Store

namespace Evaluation

variable {α : Type} {count : Nat} {given : Store → Prop} {gives : Store → Value → Prop}

theorem spends_newArray {values : List Value} {documents : List Document} :
    Rule.Spends options host mode 0 (fun store => List.Forall₂ store.Shows values documents)
      (do return .arr (← Rule.perform (.newArray values.toArray)))
      fun store value => store.Shows value (.arr documents) where
  exists_ends _ _ _ := ⟨_, _, ends_perform_bind_iff.mpr (ends_pure_iff.mpr ⟨rfl, rfl⟩)⟩
  of_ends := by
    intro world reached value _ each ends
    have ends := ends_perform_bind_iff.mp ends
    obtain ⟨rfl, same⟩ := ends_pure_iff.mp ends
    cases same
    exact ⟨⟨rfl, rfl, .newArray _ _⟩, Store.shows_newArray each⟩

theorem spends_newObject {values : List (String × Value)} {documents : List (String × Document)} :
    Rule.Spends options host mode 0
      (fun store => List.Forall₂
        (fun entry member => member.1 = entry.1 ∧ store.Shows entry.2 member.2) values documents)
      (do return .obj (← Rule.perform (.newObject values)))
      fun store value => store.Shows value (.obj (Dict.ofList documents).entries) where
  exists_ends _ _ _ := ⟨_, _, ends_perform_bind_iff.mpr (ends_pure_iff.mpr ⟨rfl, rfl⟩)⟩
  of_ends := by
    intro world reached value _ each ends
    have ends := ends_perform_bind_iff.mp ends
    obtain ⟨rfl, same⟩ := ends_pure_iff.mp ends
    cases same
    exact ⟨⟨rfl, rfl, .newObject _ _⟩, Store.shows_newObject each⟩

/-- Entering a node takes one step and changes nothing that counts. -/
theorem spent_tick {entered : World} (arrives : world.Arrives options mode entered) :
    world.Spent 1 (entered.tick options).2 := by
  obtain ⟨store, steps, lifecycle⟩ := same_of_arrives arrives
  refine ⟨lifecycle, congrArg (· + 1) steps, ?_⟩
  show world.store.AddsContainers entered.store
  rw [store]
  exact .refl _

/-- A node takes one step more than the rule of its construct. -/
theorem spends_evaluate {node : Node} {scope : Scope}
    (constructs : (construct scope (.top mode) node.start node.shape).Spends options host mode count
      given gives)
    (stays : ∀ {before after : Store}, before.AddsContainers after → given before → given after) :
    (evaluate node scope (.top mode)).Spends options host mode (1 + count) given gives where
  exists_ends := by
    intro world running holding affords
    obtain ⟨entered, arrives, ticked⟩ := (exists_arrives_iff_affords running).mpr affords.of_add
    have spent := spent_tick arrives
    obtain ⟨reached, value, ends⟩ := constructs.exists_ends (spent.lifecycle ▸ running)
      (stays spent.adds holding) (spent.affords affords)
    refine ⟨reached, value, ends_evaluate_top_iff.mpr (.inr ⟨running, entered, .ok value, arrives,
      ?_, rfl⟩)⟩
    rwa [if_pos ticked]
  of_ends := by
    intro world reached value running holding ends
    rcases ends_evaluate_top_iff.mp ends with
      ⟨stopped, -⟩ | ⟨-, entered, outcome, arrives, ends, same⟩
    · cases running.symm.trans stopped
    · obtain rfl : outcome = .ok value := by
        cases outcome <;> cases same
        rfl
      have spent := spent_tick arrives
      split at ends
      · obtain ⟨more, held⟩ := constructs.of_ends (spent.lifecycle ▸ running)
          (stays spent.adds holding) ends
        exact ⟨spent.trans more, held⟩
      · cases (ends_fail_iff.mp ends).2

/-! ## Literals -/

/-- A literal without parts takes one step. -/
theorem spends_plain {node : Node} {value : Value} {document : Document} {scope : Scope}
    (literal : node.shape.literal? = some value) (parts : node.parts = [node])
    (shows : ∀ store : Store, store.Shows value document) :
    (evaluate node scope (.top mode)).Spends options host mode node.parts.length (fun _ => True)
      fun store value => store.Shows value document := by
  rw [parts]
  refine @spends_evaluate _ _ _ 0 _ _ _ _ ?_ fun _ _ => trivial
  rw [construct_literal literal]
  exact .pure fun store _ => shows store

section Literals

variable {scope : Scope}

mutual

/--
A literal takes one step for each of its parts, and its value is depicted by its
document as metadata.
-/
theorem spends_literal : ∀ {node : Node} {document : Document},
    Metadata.literal node = .ok document →
    (evaluate node scope (.top mode)).Spends options host mode node.parts.length (fun _ => True)
      fun store value => store.Shows value document
  | .mk shape span, document, read => by
      cases shape with
      | null =>
          cases read
          exact spends_plain rfl rfl fun _ => .null nofun
      | bool truth =>
          cases read
          exact spends_plain rfl rfl fun _ => .bool truth nofun
      | num number =>
          cases read
          refine spends_plain rfl rfl fun _ => ?_
          split
          · exact .num ‹_› nofun
          · exact .unnumbered (Bool.eq_false_of_not_eq_true ‹_›) nofun
      | str text =>
          cases read
          exact spends_plain rfl rfl fun _ => .str text nofun
      | arr items =>
          obtain ⟨documents, inside, same⟩ := Except.bind_eq_ok_iff.mp read
          cases same
          rw [Node.parts, List.length_cons, Nat.add_comm]
          refine spends_evaluate ?_ fun _ _ => trivial
          exact (spends_literals inside).bind fun values => spends_newArray
      | obj entries =>
          obtain ⟨documents, inside, same⟩ := Except.bind_eq_ok_iff.mp read
          cases same
          rw [Node.parts, List.length_cons, Nat.add_comm]
          refine spends_evaluate ?_ fun _ _ => trivial
          exact (spends_entryLiterals inside).bind fun values => spends_newObject
      | _ => cases read

theorem spends_literals : ∀ {items : List Node} {documents : List Document},
    Metadata.literals items = .ok documents →
    (evaluateAll scope (.top mode) items).Spends options host mode (Node.partsOfItems items).length
      (fun _ => True) fun store values => List.Forall₂ store.Shows values documents
  | [], documents, read => by
      cases read
      exact .pure fun _ _ => .nil
  | node :: rest, documents, read => by
      obtain ⟨document, first, further⟩ := Except.bind_eq_ok_iff.mp read
      obtain ⟨documents, others, same⟩ := Except.bind_eq_ok_iff.mp further
      cases same
      rw [evaluateAll, traverse_cons, Node.partsOfItems, List.length_append]
      exact .cons (fun adds shows => shows.adds adds) (spends_literal first)
        (spends_literals others)

theorem spends_entryLiterals : ∀ {entries : List (String × Node)}
    {documents : List (String × Document)}, Metadata.entryLiterals entries = .ok documents →
    (evaluateEntries scope (.top mode) entries).Spends options host mode
      (Node.partsOfEntries entries).length (fun _ => True)
      fun store values => List.Forall₂
        (fun entry member => member.1 = entry.1 ∧ store.Shows entry.2 member.2) values documents
  | [], documents, read => by
      cases read
      exact .pure fun _ _ => .nil
  | (name, node) :: rest, documents, read => by
      obtain ⟨document, first, further⟩ := Except.bind_eq_ok_iff.mp read
      obtain ⟨documents, others, same⟩ := Except.bind_eq_ok_iff.mp further
      cases same
      rw [evaluateEntries, traverse_cons, Node.partsOfEntries, List.length_append]
      refine .cons (fun adds both => ⟨both.1, both.2.adds adds⟩) ?_ (spends_entryLiterals others)
      exact (spends_literal first).map fun _ _ shows => ⟨rfl, shows⟩

end

end Literals

/-! ## Scripts -/

/-- Statements run to a value if the first one has a value and the others run to one after it. -/
theorem ends_runFrom_cons_ok_iff {scope : Scope} {context : Context} {last value : Value}
    {statement : Node} {rest : List Node} {free : Bool} :
    (runFrom scope context last (statement :: rest)).Ends options host free world reached
        (.ok value) ↔
      (evaluate statement scope context >>= fun given => runFrom scope context given rest).Ends
        options host free world reached (.ok value) := by
  rw [ends_bind_ok_iff, runFrom]
  refine ends_outcome_bind_iff.trans ?_
  constructor
  · rintro ⟨between, (signal | error) | given, first, second⟩
    · obtain ⟨told, _, logged, thrown⟩ := ends_bind_ok_iff.mp second
      cases (ends_throw_iff.mp thrown).2
    · cases (ends_throw_iff.mp second).2
    · exact ⟨between, given, first, second⟩
  · rintro ⟨between, given, first, second⟩
    exact ⟨between, .ok given, first, second⟩

theorem collect_of_literal {node : Node} {document : Document} {root : Scope}
    (read : Metadata.literal node = .ok document) : collect mode root [node] = pure () := by
  obtain ⟨shape, span⟩ := node
  cases shape with
  | namespaceBlock => cases read
  | _ => rfl

/-- A script that is a literal comes to the value of the literal. -/
theorem spends_runScript {node : Node} {document : Document} {root : Scope}
    (read : Metadata.literal node = .ok document) :
    (runScript root [node] mode).Spends options host mode node.parts.length (fun _ => True)
      fun store value => store.Shows value document := by
  have last (value : Value) : Rule.Spends options host mode 0
      (fun store => store.Shows value document) (runFrom root (.top mode) value [])
      fun store value => store.Shows value document :=
    (Rule.Spends.log _ _ _).map fun _ _ shows => shows
  have statements : (runAll root (.top mode) [node]).Spends options host mode
      (0 + node.parts.length) (fun _ => True) fun store value => store.Shows value document := by
    refine (Rule.Spends.log _ _ _).bind fun _ => .of_iff ends_runFrom_cons_ok_iff ?_
    exact (spends_literal read).bind last
  rw [runScript, collect_of_literal read, pure_bind]
  rw [Nat.zero_add] at statements
  have tells (value : Value) : Rule.Spends options host mode 0
      (fun store => store.Shows value document)
      (do
        Rule.perform (.log "end" none (some value))
        return value)
      fun store value => store.Shows value document :=
    (Rule.Spends.log _ _ _).map fun _ _ shows => shows
  exact (statements.of_iff ends_expectingValue_ok_iff).bind tells

end Evaluation

end TreeScript
