import Mathlib
import TreeScript.Proofs.Bisimilarity
import TreeScript.Proofs.Projections
import TreeScript.Proofs.Renderings

/-!
# Values that are trees of data

JSON documents describe trees of data.  A document depicts a value if the two
have the same shape, container by container: `Store.Depicts`.  No budget and no
path is mentioned, because only values that do not contain themselves are
depicted by anything.

What is depicted is rendered as the document that depicts it
(`Store.Depicts.toDocument_eq`), values with finite numbers that are depicted by
one document are equal (`Store.equal_of_depicts`), and every value that is made
of data and does not contain itself is depicted (`Store.depicts_toDocument`).
-/

namespace TreeScript

namespace Store

variable {store : Store} {holds : Value → Prop}

/--
A document shows what a value is, and a property holds of the value and of all
that is inside of it.
-/
inductive Depicts (store : Store) (holds : Value → Prop) : Value → Document → Prop where
  | null (here : holds .null) : Depicts store holds .null .null
  | bool (truth : Bool) (here : holds (.bool truth)) :
      Depicts store holds (.bool truth) (.bool truth)
  | num {number : Float} (finite : number.isFinite = true) (here : holds (.num number)) :
      Depicts store holds (.num number) (.num (.real number))
  | unnumbered {number : Float} (infinite : number.isFinite = false) (here : holds (.num number)) :
      Depicts store holds (.num number) .null
  | str (text : String) (here : holds (.str text)) : Depicts store holds (.str text) (.str text)
  | arr {array : ArrayId} {items : List Document} (here : holds (.arr array))
      (length : (store.items array).toList.length = items.length)
      (each : ∀ value item, (value, item) ∈ (store.items array).toList.zip items →
        Depicts store holds value item) :
      Depicts store holds (.arr array) (.arr items)
  | obj {object : ObjectId} {members : List (String × Document)} (here : holds (.obj object))
      (names : (store.entries object).entries.map Prod.fst = members.map Prod.fst)
      (each : ∀ entry member, (entry, member) ∈ (store.entries object).entries.zip members →
        Depicts store holds entry.2 member.2) :
      Depicts store holds (.obj object) (.obj members)

/-! ## Lists that are related place by place -/

theorem map_eq_of_zip {α β : Type} {image : α → β} {list : List α} {images : List β}
    (length : list.length = images.length)
    (each : ∀ item other, (item, other) ∈ list.zip images → image item = other) :
    list.map image = images := by
  rw [← List.forall₂_eq_eq_eq, List.forall₂_map_left_iff, List.forall₂_iff_zip]
  exact ⟨length, fun place => each _ _ place⟩

/-- Two lists have the same names if they agree place by place. -/
theorem map_fst_eq_iff {α β : Type} {entries : List (String × α)} {others : List (String × β)} :
    entries.map Prod.fst = others.map Prod.fst ↔
      List.Forall₂ (fun entry other => entry.1 = other.1) entries others := by
  rw [← List.forall₂_map_right_iff, ← List.forall₂_map_left_iff, List.forall₂_eq_eq_eq]

theorem map_entries_eq_of_zip {α β : Type} {image : α → β} {entries : List (String × α)}
    {images : List (String × β)} (names : entries.map Prod.fst = images.map Prod.fst)
    (each : ∀ entry other, (entry, other) ∈ entries.zip images → image entry.2 = other.2) :
    entries.map (fun entry => (entry.1, image entry.2)) = images := by
  have named := map_fst_eq_iff.mp names
  refine map_eq_of_zip named.length_eq fun entry other place => ?_
  exact Prod.ext (List.forall₂_zip named place) (each entry other place)

theorem length_eq_of_names {α β : Type} {entries : List (String × α)} {others : List (String × β)}
    (names : entries.map Prod.fst = others.map Prod.fst) :
    entries.length = others.length := by
  simpa using congrArg List.length names

theorem name_eq_of_names {α β : Type} {entries : List (String × α)} {others : List (String × β)}
    (names : entries.map Prod.fst = others.map Prod.fst) {index : Nat}
    (inside : index < entries.length) (inside' : index < others.length) :
    entries[index].1 = others[index].1 := by
  have same := List.getElem_of_eq names (by simpa using inside)
  rwa [List.getElem_map, List.getElem_map] at same

theorem getElem_mem_zip {α β : Type} {list : List α} {other : List β} {index : Nat}
    (inside : index < list.length) (inside' : index < other.length) :
    (list[index], other[index]) ∈ list.zip other := by
  have within : index < (list.zip other).length := by simp [inside, inside']
  have place : (list.zip other)[index] = (list[index], other[index]) := List.getElem_zip
  exact place ▸ List.getElem_mem within

/-- What is in the second of two lists of one length has something beside it. -/
theorem exists_mem_zip {α β : Type} {list : List α} {others : List β} {other : β}
    (length : list.length = others.length) (listed : other ∈ others) :
    ∃ item, (item, other) ∈ list.zip others := by
  obtain ⟨index, inside, rfl⟩ := List.mem_iff_getElem.mp listed
  exact ⟨_, getElem_mem_zip (inside.trans_eq length.symm) inside⟩

theorem eq_of_mem_zip_map {α β : Type} {image : α → β} {list : List α} {item : α} {other : β}
    (place : (item, other) ∈ list.zip (list.map image)) :
    item ∈ list ∧ other = image item := by
  have pairs : list.zip (list.map image) = list.map fun item => (item, image item) := by
    rw [← List.zip_map', List.map_id']
  rw [pairs] at place
  obtain ⟨same, listed, equal⟩ := List.mem_map.mp place
  cases equal
  exact ⟨listed, rfl⟩

theorem AddsContainers.isHeld {before after : Store} (adds : before.AddsContainers after)
    {container : ContainerId} (held : before.IsHeld container) : after.IsHeld container := by
  cases container with
  | arr array => exact Nat.lt_of_lt_of_le held adds.size_arrays
  | obj object => exact Nat.lt_of_lt_of_le held adds.size_objects
  | fn function => exact Nat.lt_of_lt_of_eq held (congrArg Array.size adds.functions).symm

theorem isHeld_newArray (store : Store) (items : Array Value) :
    (store.newArray items).1.IsHeld (.arr (store.newArray items).2) := by
  simp [newArray, IsHeld]

theorem isHeld_newObject (store : Store) (entries : Dict Value) :
    (store.newObject entries).1.IsHeld (.obj (store.newObject entries).2) := by
  simp [newObject, IsHeld]

/-! ## What a depiction says -/

namespace Depicts

variable {value : Value} {document : Document}

theorem here (depicts : store.Depicts holds value document) : holds value := by
  cases depicts <;> assumption

theorem mono {weaker : Value → Prop} (implied : ∀ value, holds value → weaker value)
    (depicts : store.Depicts holds value document) :
    store.Depicts weaker value document := by
  induction depicts with
  | null here => exact .null (implied _ here)
  | bool truth here => exact .bool truth (implied _ here)
  | num finite here => exact .num finite (implied _ here)
  | unnumbered infinite here => exact .unnumbered infinite (implied _ here)
  | str text here => exact .str text (implied _ here)
  | arr here length _ inductive_step => exact .arr (implied _ here) length inductive_step
  | obj here names _ inductive_step => exact .obj (implied _ here) names inductive_step

/-- A value is depicted by one document. -/
theorem unique {other : Document} (depicts : store.Depicts holds value document)
    (depicts' : store.Depicts holds value other) : document = other := by
  induction depicts generalizing other with
  | null | bool | str =>
      cases depicts'
      rfl
  | num finite =>
      cases depicts' with
      | num => rfl
      | unnumbered infinite => simp [finite] at infinite
  | unnumbered infinite =>
      cases depicts' with
      | num finite => simp [finite] at infinite
      | unnumbered => rfl
  | @arr array items here length each inductive_step =>
      cases depicts' with
      | arr here' length' each' =>
          refine congrArg Document.arr (List.ext_getElem (length.symm.trans length') ?_)
          intro index inside inside'
          have present := inside.trans_eq length.symm
          exact inductive_step _ _ (getElem_mem_zip present inside)
            (each' _ _ (getElem_mem_zip present inside'))
  | @obj object members here names each inductive_step =>
      cases depicts' with
      | obj here' names' each' =>
          have length := length_eq_of_names names
          have length' := length_eq_of_names names'
          refine congrArg Document.obj (List.ext_getElem (length.symm.trans length') ?_)
          intro index inside inside'
          have present := inside.trans_eq length.symm
          exact Prod.ext (name_eq_of_names (names.symm.trans names') inside inside')
            (inductive_step _ _ (getElem_mem_zip present inside)
              (each' _ _ (getElem_mem_zip present inside')))

/-- Adding containers to a store changes nothing in those that it has. -/
theorem adds {before after : Store} (adds : before.AddsContainers after)
    (held : ∀ container : ContainerId, holds container.value → before.IsHeld container)
    (depicts : before.Depicts holds value document) :
    after.Depicts holds value document := by
  induction depicts with
  | null here => exact .null here
  | bool truth here => exact .bool truth here
  | num finite here => exact .num finite here
  | unnumbered infinite here => exact .unnumbered infinite here
  | str text here => exact .str text here
  | @arr array items here length each inductive_step =>
      have same := adds.items (held (.arr array) here)
      exact .arr here (same ▸ length) (same ▸ inductive_step)
  | @obj object members here names each inductive_step =>
      have same := adds.entries (held (.obj object) here)
      exact .obj here (same ▸ names) (same ▸ inductive_step)

/-- An array that is made of depicted values is depicted by the documents of its elements. -/
theorem newArray {between : Store} {weaker : Value → Prop}
    (held : ∀ container : ContainerId, holds container.value → between.IsHeld container)
    (implied : ∀ value, holds value → weaker value) {values : List Value} {items : List Document}
    (here : weaker (.arr (between.newArray values.toArray).2))
    (each : List.Forall₂ (between.Depicts holds) values items) :
    (between.newArray values.toArray).1.Depicts weaker
      (.arr (between.newArray values.toArray).2) (.arr items) := by
  refine .arr here ?_ fun value item place => ?_
  · rw [items_newArray]
    exact each.length_eq
  · rw [items_newArray] at place
    exact ((List.forall₂_zip each place).adds (.newArray between _) held).mono implied

/-- An object that is made of depicted values is depicted by the documents of its entries. -/
theorem newObject {between : Store} {weaker : Value → Prop}
    (held : ∀ container : ContainerId, holds container.value → between.IsHeld container)
    (implied : ∀ value, holds value → weaker value) {dict : Dict Value}
    {members : List (String × Document)}
    (here : weaker (.obj (between.newObject dict).2))
    (each : List.Forall₂ (fun entry member => entry.1 = member.1 ∧
      between.Depicts holds entry.2 member.2) dict.entries members) :
    (between.newObject dict).1.Depicts weaker (.obj (between.newObject dict).2)
      (.obj members) := by
  refine .obj here ?_ fun entry member place => ?_
  · rw [entries_newObject]
    exact map_fst_eq_iff.mpr (each.imp fun _ _ both => both.1)
  · rw [entries_newObject] at place
    exact ((List.forall₂_zip each place).2.adds (.newObject between _) held).mono implied

theorem sizeOf_lt_of_mem_zip_items {value : Value} {values : List Value} {item : Document}
    {items : List Document} (place : (value, item) ∈ values.zip items) :
    sizeOf item < sizeOf (Document.arr items) := by
  have smaller := List.sizeOf_lt_of_mem (List.of_mem_zip place).2
  rw [Document.arr.sizeOf_spec]
  omega

theorem sizeOf_lt_of_mem_zip_members {entry : String × Value} {entries : List (String × Value)}
    {member : String × Document} {members : List (String × Document)}
    (place : (entry, member) ∈ entries.zip members) :
    sizeOf member.2 < sizeOf (Document.obj members) := by
  have smaller := List.sizeOf_lt_of_mem (List.of_mem_zip place).2
  have part : sizeOf member = 1 + sizeOf member.1 + sizeOf member.2 := rfl
  rw [Document.obj.sizeOf_spec]
  omega

/-- What is inside of a depicted value is depicted by a part of the document. -/
theorem of_member? {inner : Value} {place : Snapshot.Place}
    (depicts : store.Depicts holds value document)
    (found : store.member? .document value place = some inner) :
    ∃ part, store.Depicts holds inner part ∧ sizeOf part < sizeOf document := by
  cases depicts with
  | @arr array items here length each =>
      cases place with
      | information => cases found
      | member index =>
          obtain ⟨inside, rfl⟩ := Array.getElem?_eq_some_iff.mp found
          have present : index < (store.items array).toList.length := inside
          have place := getElem_mem_zip present (present.trans_eq length)
          exact ⟨_, each _ _ place, sizeOf_lt_of_mem_zip_items place⟩
  | @obj object members here names each =>
      cases place with
      | information => cases found
      | member index =>
          obtain ⟨entry, listed, rfl⟩ := Option.map_eq_some_iff.mp found
          obtain ⟨inside, rfl⟩ := List.getElem?_eq_some_iff.mp listed
          have place := getElem_mem_zip inside (inside.trans_eq (length_eq_of_names names))
          exact ⟨_, each _ _ place, sizeOf_lt_of_mem_zip_members place⟩
  | _ => cases found

/-- What holds of a value and of all that is inside of it holds at every place. -/
theorem of_at? {inner : Value} {places : List Snapshot.Place}
    (depicts : store.Depicts holds value document)
    (leads : store.at? .document value places = some inner) :
    holds inner := by
  induction places generalizing value document with
  | nil =>
      obtain rfl := Option.some.inj leads
      exact depicts.here
  | cons place rest inductive_step =>
      obtain ⟨member, found, leads⟩ := Option.bind_eq_some_iff.mp leads
      obtain ⟨part, depicts, -⟩ := depicts.of_member? found
      exact inductive_step depicts leads

/-! ## Rendering -/

/-- The containers that are open show more than the document of the value. -/
def Encloses (store : Store) (holds : Value → Prop) (path : List ContainerId)
    (document : Document) : Prop :=
  ∀ container ∈ path, ∃ outer, store.Depicts holds container.value outer ∧
    sizeOf document < sizeOf outer

theorem Encloses.enter {path : List ContainerId} {part : Document}
    (encloses : Encloses store holds path document)
    (depicts : store.Depicts holds value document)
    (smaller : sizeOf part < sizeOf document) :
    Encloses store holds (Store.enter path value) part := by
  intro container listed
  rcases mem_enter.mp listed with rfl | listed
  · exact ⟨document, depicts, smaller⟩
  · obtain ⟨outer, shown, larger⟩ := encloses container listed
    exact ⟨outer, shown, smaller.trans larger⟩

/-- A container that is depicted is not inside of itself. -/
theorem Encloses.isClosed {path : List ContainerId} {container : ContainerId}
    (encloses : Encloses store holds path document)
    (depicts : store.Depicts holds container.value document) :
    container ∉ path := by
  intro listed
  obtain ⟨outer, shown, larger⟩ := encloses container listed
  rw [depicts.unique shown] at larger
  exact larger.false

/-- Nothing that is depicted recurs. -/
theorem not_recursAt {path : List ContainerId} {places : List Snapshot.Place}
    (depicts : store.Depicts holds value document) (encloses : Encloses store holds path document) :
    ¬ store.RecursAt .document path value places := by
  induction places generalizing path value document with
  | nil =>
      intro recurs
      obtain ⟨container, rfl, listed⟩ := recursAt_nil_iff.mp recurs
      exact encloses.isClosed depicts listed
  | cons place rest inductive_step =>
      intro recurs
      have ⟨container, leads, _⟩ := recurs
      obtain ⟨inner, found, -⟩ := Option.bind_eq_some_iff.mp leads
      obtain ⟨part, shown, smaller⟩ := depicts.of_member? found
      exact inductive_step shown (encloses.enter depicts smaller)
        ((recursAt_cons_iff found).mp recurs)

theorem toDocument_pictureBelow (depicts : store.Depicts holds value document)
    {path : List ContainerId} (isPath : store.IsPath path)
    (encloses : Encloses store holds path document) :
    (store.pictureBelow .document path value).toDocument = document := by
  induction depicts generalizing path with
  | null | bool | str => rw [pictureBelow_eq isPath]; rfl
  | num finite =>
      rw [pictureBelow_eq isPath, Value.picture, Snapshot.toDocument, if_pos finite]
  | unnumbered infinite =>
      rw [pictureBelow_eq isPath, Value.picture, Snapshot.toDocument,
        if_neg (ne_true_of_eq_false infinite)]
  | @arr array items here length each inductive_step =>
      have depicts : store.Depicts holds (.arr array) (.arr items) := .arr here length each
      have isClosed : ContainerId.arr array ∉ path := encloses.isClosed depicts
      rw [pictureBelow_eq isPath, Value.picture, picturePart_of_isClosed isClosed,
        containerPicture, Snapshot.toDocument, Snapshot.documents_eq_map, List.map_map]
      refine congrArg Document.arr (map_eq_of_zip length fun value item place => ?_)
      have exhibits : store.Exhibits .document (.arr array) value :=
        .element (List.of_mem_zip place).1
      exact inductive_step value item place (isPath.cons isClosed exhibits.isHeld)
        (encloses.enter depicts (sizeOf_lt_of_mem_zip_items place))
  | @obj object members here names each inductive_step =>
      have depicts : store.Depicts holds (.obj object) (.obj members) := .obj here names each
      have isClosed : ContainerId.obj object ∉ path := encloses.isClosed depicts
      rw [pictureBelow_eq isPath, Value.picture, picturePart_of_isClosed isClosed,
        containerPicture, Snapshot.toDocument, Snapshot.entryDocuments_eq_map, List.map_map]
      refine congrArg Document.obj (@map_entries_eq_of_zip _ _ (fun value =>
        (store.pictureBelow .document (.obj object :: path) value).toDocument) _ _ names ?_)
      intro entry member place
      have exhibits : store.Exhibits .document (.obj object) entry.2 :=
        .entry (List.of_mem_zip place).1
      exact inductive_step entry member place (isPath.cons isClosed exhibits.isHeld)
        (encloses.enter depicts (sizeOf_lt_of_mem_zip_members place))

/-- What is depicted is rendered as the document that depicts it. -/
theorem toDocument_eq (depicts : store.Depicts holds value document) :
    store.toDocument value = document :=
  depicts.toDocument_pictureBelow .nil nofun

end Depicts

/-! ## Equality -/

theorem beq_self_of_isFinite {number : Float} (finite : number.isFinite = true) :
    (number == number) = true := by
  have finite : number.toModel.unpack.isFinite = true := finite
  refine (Number.beq_eq_true_iff number number).mpr ?_
  refine (Number.compare_eq_eq_iff _ _).mpr (.inl ⟨rfl, ?_⟩)
  intro nan
  rw [nan] at finite
  cases finite

/-- Values that one document depicts are related to each other. -/
theorem isBisimulation_depicts (finite : ∀ number, holds (.num number) → number.isFinite = true) :
    store.IsBisimulation fun left right =>
      ∃ document, store.Depicts holds left document ∧ store.Depicts holds right document := by
  rintro left right ⟨document, depicts, depicts'⟩
  cases depicts with
  | null here =>
      cases depicts' with
      | null => exact .null
      | unnumbered infinite here => simp [finite _ here] at infinite
  | bool truth =>
      cases depicts'
      exact .bool truth
  | num isFinite =>
      cases depicts'
      exact .num (beq_self_of_isFinite isFinite)
  | unnumbered infinite here => simp [finite _ here] at infinite
  | str text =>
      cases depicts'
      exact .str text
  | arr here length each =>
      cases depicts' with
      | arr here' length' each' =>
          refine .arr (.inr (List.forall₂_iff_get.mpr ⟨length.trans length'.symm, ?_⟩))
          intro index inside inside'
          have present := inside.trans_eq length
          exact ⟨_, each _ _ (getElem_mem_zip inside present),
            each' _ _ (getElem_mem_zip inside' present)⟩
  | obj here names each =>
      cases depicts' with
      | obj here' names' each' =>
          have length := length_eq_of_names names
          have length' := length_eq_of_names names'
          refine .obj (.inr (forall₂_entries_iff.mp (List.forall₂_iff_get.mpr
            ⟨length.trans length'.symm, ?_⟩)))
          intro index inside inside'
          have present := inside.trans_eq length
          refine ⟨name_eq_of_names (names.trans names'.symm) inside inside', _,
            each _ _ (getElem_mem_zip inside present), each' _ _ (getElem_mem_zip inside' present)⟩

/-- Values with finite numbers are equal if one document depicts them. -/
theorem equal_of_depicts (finite : ∀ number, holds (.num number) → number.isFinite = true)
    {left right : Value} {document : Document} (depicts : store.Depicts holds left document)
    (depicts' : store.Depicts holds right document) :
    store.equal left right = true :=
  store.isGreatest_equal.2 (isBisimulation_depicts finite) left right ⟨document, depicts, depicts'⟩

/-! ## Values that are depicted -/

/-- A value that JSON documents know: no function, no error, and no number that is not finite. -/
def IsData (store : Store) : Value → Prop
  | .null | .bool _ | .str _ => True
  | .num number => number.isFinite = true
  | .arr array => store.IsHeld (.arr array)
  | .obj object => store.IsHeld (.obj object)
  | .fn _ | .error _ | .errorWith _ _ => False

/-- A value that is made of data and does not contain itself. -/
structure IsTree (store : Store) (value : Value) : Prop where
  data : ∀ places inner, store.at? .document value places = some inner → store.IsData inner
  acyclic : ∀ places, ¬ store.RecursAt .document [] value places

theorem enter_value (path : List ContainerId) (container : ContainerId) :
    enter path container.value = container :: path := by
  cases container <;> rfl

/-- Below a path a value is made of data, and nothing in it recurs. -/
structure IsTreeBelow (store : Store) (path : List ContainerId) (value : Value) : Prop where
  data : ∀ places inner, store.at? .document value places = some inner → store.IsData inner
  acyclic : ∀ places, ¬ store.RecursAt .document path value places

namespace IsTreeBelow

variable {path : List ContainerId} {value : Value}

theorem enter (tree : store.IsTreeBelow path value) {place : Snapshot.Place} {inner : Value}
    (found : store.member? .document value place = some inner) :
    store.IsTreeBelow (enter path value) inner := by
  constructor
  · intro places innermost leads
    exact tree.data (place :: places) innermost (by rwa [at?, found, Option.bind_some])
  · intro places
    rw [← recursAt_cons_iff found]
    exact tree.acyclic (place :: places)

theorem isClosed {container : ContainerId} (tree : store.IsTreeBelow path container.value) :
    container ∉ path :=
  fun listed => tree.acyclic [] (recursAt_nil_iff.mpr ⟨container, rfl, listed⟩)

end IsTreeBelow

/-- Below every path a value that is made of data is depicted unless something in it recurs. -/
theorem depicts_pictureBelow {path : List ContainerId} (isPath : store.IsPath path) {value : Value}
    (tree : store.IsTreeBelow path value) :
    store.Depicts store.IsData value (store.pictureBelow .document path value).toDocument := by
  induction room : store.containerCount - path.length using Nat.strongRecOn
    generalizing path value with
  | ind room inductive_step =>
      subst room
      have here := tree.data [] value rfl
      -- There is less room below a container, and what is in it does not recur below it.
      have inside (container : ContainerId) (stands : value = container.value)
          {place : Snapshot.Place} {inner : Value}
          (found : store.member? .document value place = some inner) :
          store.Depicts store.IsData inner
            (store.pictureBelow .document (container :: path) inner).toDocument := by
        have isPath := isPath.enter (tree.acyclic []) found
        have tree := tree.enter found
        rw [stands, enter_value] at isPath tree
        exact inductive_step _ isPath.room_lt isPath tree rfl
      rw [pictureBelow_eq isPath]
      cases value with
      | null => exact .null here
      | bool truth => exact .bool truth here
      | num number =>
          have finite : number.isFinite = true := here
          rw [Value.picture, Snapshot.toDocument, if_pos finite]
          exact .num finite here
      | str text => exact .str text here
      | fn | error | errorWith => cases here
      | arr array =>
          have isClosed : ContainerId.arr array ∉ path := tree.isClosed
          rw [Value.picture, picturePart_of_isClosed isClosed, containerPicture,
            Snapshot.toDocument, Snapshot.documents_eq_map, List.map_map]
          refine .arr here (by simp) fun value item place => ?_
          obtain ⟨listed, rfl⟩ := eq_of_mem_zip_map place
          obtain ⟨index, found⟩ := List.mem_iff_getElem?.mp listed
          exact @inside (.arr array) rfl (.member index) value
            (Array.getElem?_toList.symm.trans found)
      | obj object =>
          have isClosed : ContainerId.obj object ∉ path := tree.isClosed
          rw [Value.picture, picturePart_of_isClosed isClosed, containerPicture,
            Snapshot.toDocument, Snapshot.entryDocuments_eq_map, List.map_map]
          refine .obj here (by simp [Function.comp_def]) fun entry member place => ?_
          obtain ⟨listed, rfl⟩ := eq_of_mem_zip_map place
          obtain ⟨index, found⟩ := List.mem_iff_getElem?.mp listed
          exact @inside (.obj object) rfl (.member index) entry.2
            (Option.map_eq_some_iff.mpr ⟨entry, found, rfl⟩)

/-- What is made of data and does not contain itself is depicted, and only by its document. -/
theorem isTree_iff {value : Value} :
    store.IsTree value ↔ store.Depicts store.IsData value (store.toDocument value) := by
  constructor
  · intro tree
    exact depicts_pictureBelow .nil ⟨tree.data, tree.acyclic⟩
  · intro depicts
    exact ⟨fun places inner => depicts.of_at?, fun places => depicts.not_recursAt nofun⟩

theorem IsData.isHeld {container : ContainerId} (data : store.IsData container.value) :
    store.IsHeld container := by
  cases container with
  | arr array => exact data
  | obj object => exact data
  | fn function => cases data

end Store

end TreeScript
