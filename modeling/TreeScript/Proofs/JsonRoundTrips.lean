import Mathlib
import TreeScript.Datum
import TreeScript.Proofs.Depictions
import TreeScript.Proofs.NearestNumbers

/-!
# JSON documents as values and back

A document that has become a value is rendered as the same document with doubles
for numbers, and a value that is made of data and does not contain itself is
equal to what its document becomes: `Store.json_round_trips`.  Containers that
are shared in the value are written out wherever they occur, so the value that
its document becomes is a tree of new containers.
-/

namespace TreeScript

namespace Document

/--
A document as the format has it: its numbers are 64-bit integers or finite
doubles, and the members of an object are a map, listed in the order of the names.
-/
inductive IsJson : Document → Prop where
  | null : IsJson .null
  | bool (truth : Bool) : IsJson (.bool truth)
  | num {numeral : Numeral} (proper : numeral.IsProper) : IsJson (.num numeral)
  | str (text : String) : IsJson (.str text)
  | arr {items : List Document} (each : ∀ item ∈ items, IsJson item) : IsJson (.arr items)
  | obj {members : List (String × Document)} (sorted : SortedEntries members)
      (each : ∀ member ∈ members, IsJson member.2) : IsJson (.obj members)

mutual

/-- A document with every number replaced by the double nearest to it. -/
def rounded : Document → Document
  | .num numeral => .num (.real numeral.toFloat)
  | .arr items => .arr (roundedItems items)
  | .obj members => .obj (roundedMembers members)
  | document => document

/-- Round the items of an array. -/
def roundedItems : List Document → List Document
  | [] => []
  | item :: rest => rounded item :: roundedItems rest

/-- Round the members of an object. -/
def roundedMembers : List (String × Document) → List (String × Document)
  | [] => []
  | (name, document) :: rest => (name, rounded document) :: roundedMembers rest

end

theorem roundedItems_eq_map (items : List Document) : roundedItems items = items.map rounded := by
  induction items with
  | nil => rfl
  | cons item rest inductive_step => rw [roundedItems, inductive_step, List.map_cons]

theorem roundedMembers_eq_map (members : List (String × Document)) :
    roundedMembers members = members.map fun member => (member.1, member.2.rounded) := by
  induction members with
  | nil => rfl
  | cons member rest inductive_step => rw [roundedMembers, inductive_step, List.map_cons]

end Document

namespace Dict

variable {α : Type} {entries : List (String × α)}

/-- What a dictionary of a list binds to a name is in the list with this name. -/
theorem mem_of_find?_ofList_eq_some {name : String} {value : α}
    (bound : (ofList entries).find? name = some value) :
    (name, value) ∈ entries := by
  have each : List.Forall₂
      (fun entry other => other.1 = entry.1 ∧ (entry.1, entry.2) ∈ entries) entries entries :=
    List.forall₂_same.mpr fun entry listed => ⟨rfl, listed⟩
  have found := optionRel_ofNamed (fun name value _ => (name, value) ∈ entries) each name
  rw [bound] at found
  cases found with
  | some listed => exact listed

/-- A list in the order of its names is what its dictionary lists. -/
theorem entries_ofList (sorted : SortedEntries entries) : (ofList entries).entries = entries := by
  have irreflexive : Std.Irrefl fun entry other : String × α => entry.1 < other.1 :=
    ⟨fun entry => lt_irrefl entry.1⟩
  have distinct : (entries.map Prod.fst).Nodup :=
    List.pairwise_map.mpr (sorted.imp fun before => before.ne)
  refine List.Pairwise.eq_of_mem_iff (ofList entries).sorted_entries sorted fun (name, value) => ?_
  rw [mem_entries_iff]
  constructor
  · exact mem_of_find?_ofList_eq_some
  · intro listed
    cases bound : (ofList entries).find? name with
    | none => exact absurd (List.mem_map_of_mem listed) (find?_ofList_eq_none_iff.mp bound)
    | some other =>
        have same :=
          List.inj_on_of_nodup_map distinct (mem_of_find?_ofList_eq_some bound) listed rfl
        rw [(Prod.mk.inj same).2]

end Dict

/-- Entries with the names of entries in order are in order. -/
theorem sortedEntries_of_names {α β : Type} {entries : List (String × α)}
    {others : List (String × β)} (sorted : SortedEntries entries)
    (names : others.map Prod.fst = entries.map Prod.fst) :
    SortedEntries others := by
  have ordered : (others.map Prod.fst).Pairwise (· < ·) := by
    rw [names]
    exact List.pairwise_map.mpr sorted
  exact List.pairwise_map.mp ordered

namespace Store

/-! ## From documents to values -/

/--
A value that may be in what has been built since there was another store: its
numbers are finite and its containers have been added.
-/
structure IsNew (before after : Store) (value : Value) : Prop where
  finite : ∀ number, value = .num number → number.isFinite = true
  added : ∀ container : ContainerId, value = container.value →
    ¬ before.IsHeld container ∧ after.IsHeld container

/-- What has been added since a store has been added since any earlier one. -/
theorem IsNew.widen {earlier before between after : Store} (first : earlier.AddsContainers before)
    (second : between.AddsContainers after) {value : Value} (isNew : before.IsNew between value) :
    earlier.IsNew after value where
  finite := isNew.finite
  added container stands := by
    obtain ⟨missing, held⟩ := isNew.added container stands
    exact ⟨fun present => missing (first.isHeld present), second.isHeld held⟩

theorem isNew_newArray {before between : Store} (adds : before.AddsContainers between)
    (items : Array Value) :
    before.IsNew (between.newArray items).1 (.arr (between.newArray items).2) where
  finite := nofun
  added container stands := by
    obtain rfl : ContainerId.arr _ = container := ContainerId.value_injective stands
    exact ⟨adds.size_arrays.not_gt, between.isHeld_newArray items⟩

theorem isNew_newObject {before between : Store} (adds : before.AddsContainers between)
    (entries : Dict Value) :
    before.IsNew (between.newObject entries).1 (.obj (between.newObject entries).2) where
  finite := nofun
  added container stands := by
    obtain rfl : ContainerId.obj _ = container := ContainerId.value_injective stands
    exact ⟨adds.size_objects.not_gt, between.isHeld_newObject entries⟩

/-- A value that has been built is depicted by a document. -/
structure Builds (before : Store) (document : Document) (built : Value × Store) : Prop where
  adds : before.AddsContainers built.2
  depicts : built.2.Depicts (before.IsNew built.2) built.1 document

section Lists

variable {items : List Document} {members : List (String × Document)}

/-- The values of a list are built one after the other, and later ones leave earlier ones alone. -/
theorem buildItems_ofDocuments
    (each : ∀ item ∈ items, ∀ before : Store, before.Builds item.rounded (before.ofDocument item))
    (before : Store) :
    before.AddsContainers (before.buildItems (Datum.ofDocuments items)).2 ∧
      List.Forall₂ ((before.buildItems (Datum.ofDocuments items)).2.Depicts
          (before.IsNew (before.buildItems (Datum.ofDocuments items)).2))
        (before.buildItems (Datum.ofDocuments items)).1 (items.map Document.rounded) := by
  induction items generalizing before with
  | nil => exact ⟨.refl before, .nil⟩
  | cons item rest inductive_step =>
      obtain ⟨first, depicts⟩ := each item List.mem_cons_self before
      obtain ⟨others, depict⟩ := inductive_step
        (fun other listed => each other (List.mem_cons_of_mem item listed))
        (before.ofDocument item).2
      refine ⟨first.trans others, .cons ?_ ?_⟩
      · exact (depicts.adds others fun container here => (here.added container rfl).2).mono
          fun value => .widen (.refl before) others
      · exact depict.imp fun value document depicts =>
          depicts.mono fun value => .widen first (.refl _)

theorem buildEntries_ofMembers
    (each : ∀ member ∈ members, ∀ before : Store,
      before.Builds member.2.rounded (before.ofDocument member.2))
    (before : Store) :
    before.AddsContainers (before.buildEntries (Datum.ofMembers members)).2 ∧
      List.Forall₂ (fun entry member => entry.1 = member.1 ∧
          (before.buildEntries (Datum.ofMembers members)).2.Depicts
            (before.IsNew (before.buildEntries (Datum.ofMembers members)).2) entry.2 member.2)
        (before.buildEntries (Datum.ofMembers members)).1
        (members.map fun member => (member.1, member.2.rounded)) := by
  induction members generalizing before with
  | nil => exact ⟨.refl before, .nil⟩
  | cons member rest inductive_step =>
      obtain ⟨first, depicts⟩ := each member List.mem_cons_self before
      obtain ⟨others, depict⟩ := inductive_step
        (fun other listed => each other (List.mem_cons_of_mem member listed))
        (before.ofDocument member.2).2
      refine ⟨first.trans others, .cons ⟨rfl, ?_⟩ ?_⟩
      · exact (depicts.adds others fun container here => (here.added container rfl).2).mono
          fun value => .widen (.refl before) others
      · exact depict.imp fun entry member ⟨same, depicts⟩ =>
          ⟨same, depicts.mono fun value => .widen first (.refl _)⟩

end Lists

/-- Building a document adds containers, and gives a value that its rounded form depicts. -/
theorem builds_ofDocument {document : Document} (json : document.IsJson) (before : Store) :
    before.Builds document.rounded (before.ofDocument document) := by
  induction json generalizing before with
  | null => exact ⟨.refl before, .null ⟨nofun, nofun⟩⟩
  | bool truth => exact ⟨.refl before, .bool truth ⟨nofun, nofun⟩⟩
  | str text => exact ⟨.refl before, .str text ⟨nofun, nofun⟩⟩
  | num proper =>
      obtain ⟨target, -, nearest⟩ := Numeral.isNearest_toFloat proper
      exact ⟨.refl before, .num nearest.isFinite
        ⟨fun number same => Value.num.inj same ▸ nearest.isFinite, nofun⟩⟩
  | @arr items each inductive_step =>
      obtain ⟨adds, depict⟩ := buildItems_ofDocuments inductive_step before
      rw [Document.rounded, Document.roundedItems_eq_map]
      refine ⟨adds.trans (.newArray _ _), ?_⟩
      refine .newArray (fun container here => (here.added container rfl).2)
        (fun value => .widen (.refl before) (.newArray _ _)) (isNew_newArray adds _) depict
  | @obj members sorted each inductive_step =>
      obtain ⟨adds, depict⟩ := buildEntries_ofMembers inductive_step before
      rw [Document.rounded, Document.roundedMembers_eq_map]
      refine ⟨adds.trans (.newObject _ _), ?_⟩
      refine .newObject (fun container here => (here.added container rfl).2)
        (fun value => .widen (.refl before) (.newObject _ _)) (isNew_newObject adds _) ?_
      have named := List.forall₂_map_right_iff.mp (depict.imp fun _ _ both => both.1)
      rw [Dict.entries_ofList (sortedEntries_of_names sorted (map_fst_eq_iff.mpr named))]
      exact depict

/-! ## From values to documents -/

/-- What depicts a value with finite numbers is a document as the format has it. -/
theorem Depicts.isJson {store : Store} {holds : Value → Prop} {value : Value} {document : Document}
    (depicts : store.Depicts holds value document) : document.IsJson := by
  induction depicts with
  | null | unnumbered => exact .null
  | bool truth => exact .bool truth
  | num finite => exact .num finite
  | str text => exact .str text
  | arr here length each inductive_step =>
      refine .arr fun item listed => ?_
      obtain ⟨value, place⟩ := exists_mem_zip length listed
      exact inductive_step value item place
  | obj here names each inductive_step =>
      refine .obj (sortedEntries_of_names (Dict.sorted_entries _) names.symm) ?_
      intro member listed
      obtain ⟨entry, place⟩ := exists_mem_zip (length_eq_of_names names) listed
      exact inductive_step entry member place

/-- What depicts a value has doubles for numbers already. -/
theorem Depicts.rounded_eq {store : Store} {holds : Value → Prop} {value : Value}
    {document : Document} (depicts : store.Depicts holds value document) :
    document.rounded = document := by
  induction depicts with
  | null | bool | num | unnumbered | str => rfl
  | arr here length each inductive_step =>
      rw [Document.rounded, Document.roundedItems_eq_map]
      refine congrArg Document.arr
        ((List.map_congr_left fun item listed => ?_).trans (List.map_id _))
      obtain ⟨value, place⟩ := exists_mem_zip length listed
      exact inductive_step value item place
  | obj here names each inductive_step =>
      rw [Document.rounded, Document.roundedMembers_eq_map]
      refine congrArg Document.obj
        ((List.map_congr_left fun member listed => ?_).trans (List.map_id _))
      obtain ⟨entry, place⟩ := exists_mem_zip (length_eq_of_names names) listed
      exact congrArg (member.1, ·) (inductive_step entry member place)

/-! ## Round trips -/

/-- A container is inside of a value. -/
def Reaches (store : Store) (value : Value) (container : ContainerId) : Prop :=
  ∃ places, store.at? .document value places = some container.value

/-- A value is equal to another one, and they have no container in common. -/
structure IsCopy (store : Store) (copy value : Value) : Prop where
  equal : store.equal copy value = true
  apart : ∀ container, store.Reaches copy container → ¬ store.Reaches value container

/--
Every JSON document is rendered, after it has become a value, as the document
with each number replaced by the nearest double.  Every value that is made of
data and does not contain itself is copied by turning it into a document and back.
-/
theorem json_round_trips (store : Store) :
    (∀ document : Document, document.IsJson →
      (store.ofDocument document).2.toDocument (store.ofDocument document).1 = document.rounded) ∧
    (∀ numeral : Numeral, numeral.IsProper →
      ∃ target, numeral.Measures target ∧ Double.IsNearest numeral.toFloat target) ∧
    ∀ value, store.IsTree value →
      (store.ofDocument (store.toDocument value)).2.IsCopy
        (store.ofDocument (store.toDocument value)).1 value := by
  refine ⟨fun document json => ?_, fun numeral => Numeral.isNearest_toFloat, fun value tree => ?_⟩
  · exact (builds_ofDocument json store).depicts.toDocument_eq
  · have depicts := isTree_iff.mp tree
    obtain ⟨adds, copied⟩ := builds_ofDocument depicts.isJson store
    rw [depicts.rounded_eq] at copied
    have kept := depicts.adds adds fun container => IsData.isHeld
    constructor
    · have finite (value : Value) (data : store.IsData value) (number : Float)
          (same : value = .num number) : number.isFinite = true := by
        subst same
        exact data
      exact equal_of_depicts (fun number here => here number rfl)
        (copied.mono fun value here => here.finite) (kept.mono finite)
    · rintro container ⟨places, leads⟩ ⟨places', leads'⟩
      have added := (copied.of_at? leads).added container rfl
      exact added.1 (kept.of_at? leads').isHeld

/-- An array whose two elements are one and the same array. -/
def sharedTwice : Store :=
  ((empty.newArray #[.null]).1.newArray #[.arr ⟨0⟩, .arr ⟨0⟩]).1

theorem depicts_sharedTwice :
    sharedTwice.Depicts sharedTwice.IsData (.arr ⟨1⟩) (.arr [.arr [.null], .arr [.null]]) := by
  have held (index : Nat) (inside : index < 2) : sharedTwice.IsData (.arr ⟨index⟩) := inside
  have element : sharedTwice.Depicts sharedTwice.IsData (.arr ⟨0⟩) (.arr [.null]) := by
    refine .arr (held 0 (by decide)) rfl fun value item place => ?_
    obtain ⟨rfl, rfl⟩ : value = .null ∧ item = .null := by
      simpa [sharedTwice, newArray, empty, items] using place
    exact .null trivial
  refine .arr (held 1 (by decide)) rfl fun value item place => ?_
  obtain ⟨rfl, rfl⟩ : value = .arr ⟨0⟩ ∧ item = .arr [.null] := by
    simpa [sharedTwice, newArray, empty, items] using place
  exact element

theorem json_round_trips_sharedTwice :
    (sharedTwice.ofDocument (.obj [("key", .num (.natural 1))])).2.toDocument
        (sharedTwice.ofDocument (.obj [("key", .num (.natural 1))])).1 =
      Document.rounded (.obj [("key", .num (.natural 1))]) ∧
    (∃ target, (Numeral.natural 1).Measures target ∧
      Double.IsNearest (Numeral.natural 1).toFloat target) ∧
    (sharedTwice.ofDocument (sharedTwice.toDocument (.arr ⟨1⟩))).2.IsCopy
      (sharedTwice.ofDocument (sharedTwice.toDocument (.arr ⟨1⟩))).1 (.arr ⟨1⟩) := by
  obtain ⟨documents, numbers, values⟩ := json_round_trips sharedTwice
  have proper : (Numeral.natural 1).IsProper := show 1 < 2 ^ 64 by decide
  have json : Document.IsJson (.obj [("key", .num (.natural 1))]) := by
    refine .obj (List.pairwise_singleton _ _) fun member listed => ?_
    obtain rfl := List.mem_singleton.mp listed
    exact .num proper
  have tree : sharedTwice.IsTree (.arr ⟨1⟩) := by
    rw [isTree_iff, depicts_sharedTwice.toDocument_eq]
    exact depicts_sharedTwice
  exact ⟨documents _ json, numbers _ proper, values _ tree⟩

end Store

end TreeScript
