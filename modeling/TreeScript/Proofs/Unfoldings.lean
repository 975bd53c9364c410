import TreeScript.Proofs.LinkedViews

/-!
# Pictures of cyclic stores

A value whose containers contain themselves or each other unfolds to an infinite
tree.  Its picture is the finite part of this tree in which an occurrence of a
container is cut if and only if it lies inside another occurrence of the same
container.

`Store.Unfolds` says so by rules that know no budget: a container that is open is
cut, any other one is opened.  For every store and every value they allow one
picture, and this is the one that `Store.snapshot` draws (`Store.unfolds_iff`).
`Store.IsCutAtCycles` says it place by place: an occurrence is shown, cut or
missing by what lies on the way to it from the root, so what is cut on one branch
does not depend on any other branch.
-/

namespace TreeScript

/-- A container as a value. -/
def ContainerId.value : ContainerId → Value
  | .arr array => .arr array
  | .obj object => .obj object
  | .fn function => .fn function

theorem ContainerId.value_injective {container other : ContainerId}
    (same : container.value = other.value) : container = other := by
  cases container <;> cases other <;> simp_all [value]

namespace Store

variable {store : Store} {detail : Detail}

/-! ## Contents of containers -/

/-- A value in a container, as far as pictures in a detail show it. -/
inductive Exhibits (store : Store) (detail : Detail) : ContainerId → Value → Prop where
  | element {array : ArrayId} {value : Value}
      (listed : value ∈ (store.items array).toList) :
      Exhibits store detail (.arr array) value
  | entry {object : ObjectId} {entry : String × Value}
      (listed : entry ∈ (store.entries object).entries) :
      Exhibits store detail (.obj object) entry.2
  | decoration {container : ContainerId} {held : Attribute}
      (shown : detail.attributes = true)
      (listed : held ∈ store.attributes container.value) :
      Exhibits store detail container held.value

/-- Only what the store has given out contains anything. -/
theorem Exhibits.isHeld {container : ContainerId} {value : Value}
    (exhibits : store.Exhibits detail container value) : store.IsHeld container := by
  cases exhibits with
  | element listed => exact index_lt_of_mem_items listed
  | entry listed =>
      exact index_lt_of_find?_entries (((store.entries _).mem_entries_iff _ _).mp listed)
  | decoration shown listed =>
      cases container with
      | arr array =>
          refine Nat.lt_of_not_le fun beyond => ?_
          simp [ContainerId.value, attributes, Array.getElem?_eq_none beyond] at listed
      | obj object =>
          refine Nat.lt_of_not_le fun beyond => ?_
          simp [ContainerId.value, attributes, Array.getElem?_eq_none beyond] at listed
      | fn function =>
          refine Nat.lt_of_not_le fun beyond => ?_
          simp [ContainerId.value, attributes, function?, Array.getElem?_eq_none beyond] at listed

/-- The picture of a container depends on the pictures of what it holds, and on no others. -/
theorem containerPicture_congr {picture other : Value → Snapshot} {container : ContainerId}
    (same : ∀ value, store.Exhibits detail container value → picture value = other value) :
    store.containerPicture detail picture container =
      store.containerPicture detail other container := by
  have attributes (shown : detail.attributes = true) :
      (store.attributes container.value).map (fun held => (held.name, picture held.value)) =
        (store.attributes container.value).map fun held => (held.name, other held.value) :=
    List.map_congr_left fun held mem => congrArg (held.name, ·) (same _ (.decoration shown mem))
  cases container with
  | arr array =>
      have items := List.map_congr_left fun value mem => same value (.element mem)
      refine congrArg₂ Snapshot.arr items ?_
      split
      · exact attributes ‹_›
      · rfl
  | obj object =>
      have entries : (store.entries object).entries.map (fun entry => (entry.1, picture entry.2)) =
          (store.entries object).entries.map fun entry => (entry.1, other entry.2) :=
        List.map_congr_left fun entry mem => congrArg (entry.1, ·) (same entry.2 (.entry mem))
      refine congrArg₂ Snapshot.obj entries ?_
      split
      · exact attributes ‹_›
      · rfl
  | fn function =>
      simp only [containerPicture]
      split
      · refine congrArg _ ?_
        split
        · exact attributes ‹_›
        · rfl
      · rfl

/-! ## Pictures without a budget -/

/-- A path that a picture may be below: containers of the store, and none of them twice. -/
structure IsPath (store : Store) (path : List ContainerId) : Prop where
  distinct : path.Nodup
  held : ∀ container ∈ path, store.IsHeld container

theorem IsPath.nil : store.IsPath [] :=
  ⟨.nil, nofun⟩

theorem IsPath.cons {path : List ContainerId} (isPath : store.IsPath path)
    {container : ContainerId} (missing : container ∉ path) (held : store.IsHeld container) :
    store.IsPath (container :: path) :=
  ⟨isPath.distinct.cons missing, List.forall_mem_cons.mpr ⟨held, isPath.held⟩⟩

/-- Below one container more there is less room. -/
theorem IsPath.room_lt {path : List ContainerId} {container : ContainerId}
    (isPath : store.IsPath (container :: path)) :
    store.containerCount - (container :: path).length < store.containerCount - path.length := by
  have short := length_le_containerCount isPath.distinct isPath.held
  rw [List.length_cons] at short ⊢
  omega

/-- The picture of a value below a path. -/
def pictureBelow (store : Store) (detail : Detail) (path : List ContainerId) :
    Value → Snapshot :=
  store.snapshotWithin detail (store.containerCount + 1 - path.length) path

/-- The picture of a container below a path: a cut if it is open, and else its contents. -/
def picturePart (store : Store) (detail : Detail) (path : List ContainerId)
    (container : ContainerId) : Snapshot :=
  match path.idxOf? container with
  | some distance => .cycle (path.length - 1 - distance)
  | none => store.containerPicture detail (store.pictureBelow detail (container :: path)) container

/-- The budget of a picture never runs out, so the picture is given by its recursion. -/
theorem pictureBelow_eq {path : List ContainerId} (isPath : store.IsPath path) (value : Value) :
    store.pictureBelow detail path value =
      value.picture detail (store.picturePart detail path) := by
  have short := length_le_containerCount isPath.distinct isPath.held
  have budget : store.containerCount + 1 - path.length = store.containerCount - path.length + 1 :=
    Nat.sub_add_comm short
  have rest (container : ContainerId) : store.containerCount - path.length =
      store.containerCount + 1 - (container :: path).length := by
    rw [List.length_cons, Nat.add_sub_add_right]
  rw [pictureBelow, budget, snapshotWithin]
  congr 1
  funext container
  cases found : path.idxOf? container with
  | some distance => simp only [picturePart, found]
  | none => simp only [picturePart, pictureBelow, found, rest container]

/-! ## Unfoldings -/

/--
The pictures of a value below the containers that are open, the innermost first.
A container that is open is cut, and any other one is shown with pictures of what
it holds, each of them below the container.
-/
inductive Unfolds (store : Store) (detail : Detail) : List ContainerId → Value → Snapshot → Prop
    where
  | null {path : List ContainerId} : Unfolds store detail path .null .null
  | bool {path : List ContainerId} (truth : Bool) :
      Unfolds store detail path (.bool truth) (.bool truth)
  | num {path : List ContainerId} (number : Float) :
      Unfolds store detail path (.num number) (.num number)
  | str {path : List ContainerId} (text : String) :
      Unfolds store detail path (.str text) (.str text)
  | error {path : List ContainerId} (name : String) :
      Unfolds store detail path (.error name) (.error name)
  | uninformed {path : List ContainerId} (name : String) (information : Value)
      (hidden : detail.information = false) :
      Unfolds store detail path (.errorWith name information) (.error name)
  | informed {path : List ContainerId} (name : String) {information : Value} {picture : Snapshot}
      (shown : detail.information = true)
      (unfolds : Unfolds store detail path information picture) :
      Unfolds store detail path (.errorWith name information) (.errorWith name picture)
  | cut {path : List ContainerId} {container : ContainerId} {place : Nat}
      (isOpen : path.reverse[place]? = some container) :
      Unfolds store detail path container.value (.cycle place)
  | opened {path : List ContainerId} {container : ContainerId} {picture : Value → Snapshot}
      (isClosed : container ∉ path)
      (unfold : ∀ value, store.Exhibits detail container value →
        Unfolds store detail (container :: path) value (picture value)) :
      Unfolds store detail path container.value
        (store.containerPicture detail picture container)

theorem picture_value (container : ContainerId) (picture : ContainerId → Snapshot) :
    container.value.picture detail picture = picture container := by
  cases container <;> rfl

/-- The place of a container on a path is counted from the other end than its distance. -/
theorem idxOf?_eq_some_iff_of_nodup {path : List ContainerId} (distinct : path.Nodup)
    {container : ContainerId} {distance : Nat} :
    path.idxOf? container = some distance ↔
      ∃ place, path.reverse[place]? = some container ∧ place + distance + 1 = path.length := by
  rw [List.idxOf?_eq_some_iff]
  constructor
  · rintro ⟨within, found, -⟩
    refine ⟨path.length - 1 - distance, ?_, by omega⟩
    rw [List.getElem?_reverse (by omega), List.getElem?_eq_some_iff]
    refine ⟨by omega, ?_⟩
    have same : path.length - 1 - (path.length - 1 - distance) = distance := by omega
    simp only [same, found]
  · rintro ⟨place, found, counted⟩
    rw [List.getElem?_reverse (by omega), List.getElem?_eq_some_iff] at found
    obtain ⟨within, found⟩ := found
    have same : path.length - 1 - place = distance := by omega
    subst same
    refine ⟨within, found, fun other before again => ?_⟩
    have twice := distinct.getElem_inj_iff.mp (again.trans found.symm)
    omega

/-- A container that is open is cut, with its place on the path. -/
theorem picturePart_of_isOpen {path : List ContainerId} (distinct : path.Nodup)
    {container : ContainerId} {place : Nat} (isOpen : path.reverse[place]? = some container) :
    store.picturePart detail path container = .cycle place := by
  have within : place < path.length := by
    obtain ⟨within, -⟩ := List.getElem?_eq_some_iff.mp isOpen
    rwa [List.length_reverse] at within
  have distance : path.idxOf? container = some (path.length - 1 - place) :=
    (idxOf?_eq_some_iff_of_nodup distinct).mpr ⟨place, isOpen, by omega⟩
  rw [picturePart, distance]
  refine congrArg Snapshot.cycle ?_
  omega

theorem picturePart_of_isClosed {path : List ContainerId} {container : ContainerId}
    (isClosed : container ∉ path) :
    store.picturePart detail path container =
      store.containerPicture detail (store.pictureBelow detail (container :: path)) container := by
  rw [picturePart, List.idxOf?_eq_none_iff.mpr isClosed]

/-- A value unfolds to its picture. -/
theorem unfolds_pictureBelow {path : List ContainerId} (isPath : store.IsPath path)
    (value : Value) :
    store.Unfolds detail path value (store.pictureBelow detail path value) := by
  induction room : store.containerCount - path.length using Nat.strongRecOn
    generalizing path value with
  | ind room inductive_step =>
      subst room
      have part (container : ContainerId) :
          store.Unfolds detail path container.value (store.picturePart detail path container) := by
        cases found : path.idxOf? container with
        | some distance =>
            obtain ⟨place, isOpen, -⟩ := (idxOf?_eq_some_iff_of_nodup isPath.distinct).mp found
            rw [picturePart_of_isOpen isPath.distinct isOpen]
            exact .cut isOpen
        | none =>
            have isClosed := List.idxOf?_eq_none_iff.mp found
            rw [picturePart_of_isClosed isClosed]
            refine .opened isClosed fun value exhibits => ?_
            have isPath := isPath.cons isClosed exhibits.isHeld
            exact inductive_step _ isPath.room_lt isPath value rfl
      rw [pictureBelow_eq isPath]
      clear inductive_step
      induction value with
      | null => exact .null
      | bool truth => exact .bool truth
      | num number => exact .num number
      | str text => exact .str text
      | arr array => exact part (.arr array)
      | obj object => exact part (.obj object)
      | fn function => exact part (.fn function)
      | error name => exact .error name
      | errorWith name information inductive_step =>
          rw [Value.picture]
          split
          · exact .informed name ‹_› inductive_step
          · exact .uninformed name information (Bool.eq_false_of_not_eq_true ‹_›)

/-- A value unfolds to nothing but its picture. -/
theorem Unfolds.eq_pictureBelow {path : List ContainerId} {value : Value} {picture : Snapshot}
    (unfolds : store.Unfolds detail path value picture) (isPath : store.IsPath path) :
    picture = store.pictureBelow detail path value := by
  induction unfolds with
  | null | bool | num | str | error => rw [pictureBelow_eq isPath, Value.picture]
  | uninformed name information hidden =>
      rw [pictureBelow_eq isPath, Value.picture, if_neg (ne_true_of_eq_false hidden)]
  | informed name shown _ inductive_step =>
      rw [pictureBelow_eq isPath, Value.picture, if_pos shown, ← pictureBelow_eq isPath,
        inductive_step isPath]
  | cut isOpen =>
      rw [pictureBelow_eq isPath, picture_value, picturePart_of_isOpen isPath.distinct isOpen]
  | opened isClosed _ inductive_step =>
      rw [pictureBelow_eq isPath, picture_value, picturePart_of_isClosed isClosed]
      exact containerPicture_congr fun value exhibits =>
        inductive_step value exhibits (isPath.cons isClosed exhibits.isHeld)

/-- The rules allow one picture of a value, and this is the one that is drawn. -/
theorem unfolds_iff (value : Value) (picture : Snapshot) :
    store.Unfolds detail [] value picture ↔ picture = store.snapshot detail value := by
  constructor
  · intro unfolds
    exact unfolds.eq_pictureBelow .nil
  · rintro rfl
    exact unfolds_pictureBelow .nil value

end Store

/-! ## Occurrences -/

/-- A step from a value to one that is shown inside of it. -/
inductive Snapshot.Place where
  /-- An element of an array, or an entry of an object in the order of the names. -/
  | member (index : Nat)
  /-- The information of an error. -/
  | information

/-- What is shown of a value by itself, if it is not cut. -/
inductive Snapshot.LooksLike (store : Store) (detail : Detail) : Snapshot → Value → Prop where
  | null : LooksLike store detail .null .null
  | bool (truth : Bool) : LooksLike store detail (.bool truth) (.bool truth)
  | num (number : Float) : LooksLike store detail (.num number) (.num number)
  | str (text : String) : LooksLike store detail (.str text) (.str text)
  | arr {array : ArrayId} {items : List Snapshot}
      (complete : items.length = (store.items array).size) :
      LooksLike store detail (.arr items []) (.arr array)
  | obj {object : ObjectId} {entries : List (String × Snapshot)}
      (complete : entries.map Prod.fst = (store.entries object).entries.map Prod.fst) :
      LooksLike store detail (.obj entries []) (.obj object)
  | fn {function : FunctionId} {found : Function}
      (present : store.function? function = some found) :
      LooksLike store detail (.fn found.name found.body.shown []) (.fn function)
  | missing {function : FunctionId}
      (absent : store.function? function = none) :
      LooksLike store detail (.fn none "" []) (.fn function)
  | error (name : String) : LooksLike store detail (.error name) (.error name)
  | uninformed (name : String) (information : Value)
      (hidden : detail.information = false) :
      LooksLike store detail (.error name) (.errorWith name information)
  | informed (name : String) (information : Value) (picture : Snapshot)
      (shown : detail.information = true) :
      LooksLike store detail (.errorWith name picture) (.errorWith name information)

namespace Snapshot

/-- The picture inside a picture. -/
def member? : Snapshot → Snapshot.Place → Option Snapshot
  | .arr items _, .member index => items[index]?
  | .obj entries _, .member index => entries[index]?.map Prod.snd
  | .errorWith _ information, .information => some information
  | _, _ => none

/-- The picture at the end of a way from the root. -/
def at? : Snapshot → List Snapshot.Place → Option Snapshot
  | picture, [] => some picture
  | picture, place :: rest => (picture.member? place).bind (·.at? rest)

end Snapshot

namespace Store

section Occurrences

variable (store : Store) (detail : Detail)

/-- The value inside a value, as far as pictures in a detail without attributes show it. -/
def member? : Value → Snapshot.Place → Option Value
  | .arr array, .member index => (store.items array)[index]?
  | .obj object, .member index => (store.entries object).entries[index]?.map Prod.snd
  | .errorWith _ information, .information => if detail.information then some information else none
  | _, _ => none

/-- The value at the end of a way from the root. -/
def at? : Value → List Snapshot.Place → Option Value
  | value, [] => some value
  | value, place :: rest => (store.member? detail value place).bind (at? · rest)

variable (path : List ContainerId) (root : Value)

/--
The way leads to a container that is already open there: it is on the path to
the root, or the way comes through it before.
-/
def RecursAt (places : List Snapshot.Place) : Prop :=
  ∃ container : ContainerId, store.at? detail root places = some container.value ∧
    (container ∈ path ∨
      ∃ outer, outer <+: places ∧ outer ≠ places ∧
        store.at? detail root outer = some container.value)

/--
A picture of a value below a path that is cut where a container occurs inside
itself, and nowhere else: all that is not inside of such an occurrence is shown
as what it is, the occurrence is a cut, and there is nothing else in the picture.
-/
structure IsCutAtCycles (picture : Snapshot) : Prop where
  shows : ∀ places value, store.at? detail root places = some value →
    (∀ outer, outer <+: places → ¬ store.RecursAt detail path root outer) →
    ∃ shown, picture.at? places = some shown ∧ shown.LooksLike store detail value
  cuts : ∀ places, store.RecursAt detail path root places →
    (∀ outer, outer <+: places → outer ≠ places → ¬ store.RecursAt detail path root outer) →
    ∃ place, picture.at? places = some (.cycle place)
  nothingElse : ∀ places shown, picture.at? places = some shown →
    (∃ value, store.at? detail root places = some value) ∧
      ∀ outer, outer <+: places → outer ≠ places → ¬ store.RecursAt detail path root outer

end Occurrences

/-- The containers that are open inside of a value. -/
def enter (path : List ContainerId) : Value → List ContainerId
  | .arr array => .arr array :: path
  | .obj object => .obj object :: path
  | .fn function => .fn function :: path
  | _ => path

theorem mem_enter {path : List ContainerId} {root : Value} {container : ContainerId} :
    container ∈ enter path root ↔ root = container.value ∨ container ∈ path := by
  cases root <;> cases container <;> simp [enter, ContainerId.value, eq_comm]

variable {store : Store} {detail : Detail} {path : List ContainerId} {root : Value}

theorem recursAt_nil_iff :
    store.RecursAt detail path root [] ↔
      ∃ container : ContainerId, root = container.value ∧ container ∈ path := by
  constructor
  · rintro ⟨container, found, isOpen | ⟨outer, within, proper, -⟩⟩
    · exact ⟨container, Option.some.inj found, isOpen⟩
    · exact absurd (List.prefix_nil.mp within) proper
  · rintro ⟨container, rfl, isOpen⟩
    exact ⟨container, rfl, .inl isOpen⟩

/-- Beyond the first step of a way the root is open. -/
theorem recursAt_cons_iff {place : Snapshot.Place} {inner : Value} {rest : List Snapshot.Place}
    (found : store.member? detail root place = some inner) :
    store.RecursAt detail path root (place :: rest) ↔
      store.RecursAt detail (enter path root) inner rest := by
  have through (places : List Snapshot.Place) :
      store.at? detail root (place :: places) = store.at? detail inner places := by
    rw [at?, found, Option.bind_some]
  constructor
  · rintro ⟨container, leads, isOpen⟩
    refine ⟨container, (through rest).symm.trans leads, ?_⟩
    rcases isOpen with listed | ⟨outer, within, proper, comes⟩
    · exact .inl (mem_enter.mpr (.inr listed))
    · rcases List.prefix_cons_iff.mp within with rfl | ⟨shorter, rfl, shortened⟩
      · exact .inl (mem_enter.mpr (.inl (Option.some.inj comes)))
      · exact .inr ⟨shorter, shortened, fun same => proper (same ▸ rfl),
          (through shorter).symm.trans comes⟩
  · rintro ⟨container, leads, isOpen⟩
    refine ⟨container, (through rest).trans leads, ?_⟩
    rcases isOpen with listed | ⟨outer, within, proper, comes⟩
    · rcases mem_enter.mp listed with rfl | listed
      · exact .inr ⟨[], List.nil_prefix, List.cons_ne_nil _ _ ∘ Eq.symm, rfl⟩
      · exact .inl listed
    · refine .inr ⟨place :: outer, (List.prefix_cons_inj place).mpr within, ?_,
        (through outer).trans comes⟩
      exact fun same => proper (List.cons.inj same).2

/-- A value that is not open is shown as what it is. -/
theorem looksLike_pictureBelow (isPath : store.IsPath path) (bare : detail.attributes = false)
    (isClosed : ¬ store.RecursAt detail path root []) :
    (store.pictureBelow detail path root).LooksLike store detail root := by
  have missing (container : ContainerId) (stands : root = container.value) : container ∉ path :=
    fun listed => isClosed (recursAt_nil_iff.mpr ⟨container, stands, listed⟩)
  rw [pictureBelow_eq isPath]
  cases root with
  | null => exact .null
  | bool truth => exact .bool truth
  | num number => exact .num number
  | str text => exact .str text
  | arr array =>
      rw [Value.picture, picturePart_of_isClosed (missing (.arr array) rfl)]
      simp only [containerPicture, bare]
      exact .arr (by simp)
  | obj object =>
      rw [Value.picture, picturePart_of_isClosed (missing (.obj object) rfl)]
      simp only [containerPicture, bare]
      exact .obj (by simp)
  | fn function =>
      rw [Value.picture, picturePart_of_isClosed (missing (.fn function) rfl)]
      simp only [containerPicture, bare]
      cases found : store.function? function with
      | some found => exact .fn ‹_›
      | none => exact .missing ‹_›
  | error name => exact .error name
  | errorWith name information =>
      rw [Value.picture]
      split
      · exact .informed name information _ ‹_›
      · exact .uninformed name information (Bool.eq_false_of_not_eq_true ‹_›)

/-- A container that is open is shown as a cut. -/
theorem exists_pictureBelow_eq_cycle (isPath : store.IsPath path)
    (recurs : store.RecursAt detail path root []) :
    ∃ place, store.pictureBelow detail path root = .cycle place := by
  obtain ⟨container, rfl, listed⟩ := recursAt_nil_iff.mp recurs
  obtain ⟨place, isOpen⟩ := List.mem_iff_getElem?.mp (List.mem_reverse.mpr listed)
  refine ⟨place, ?_⟩
  rw [pictureBelow_eq isPath, picture_value, picturePart_of_isOpen isPath.distinct isOpen]

/-- What is inside the picture of a value are pictures of what is inside the value. -/
theorem member?_pictureBelow (isPath : store.IsPath path) (bare : detail.attributes = false)
    (isClosed : ¬ store.RecursAt detail path root []) (place : Snapshot.Place) :
    (store.pictureBelow detail path root).member? place =
      (store.member? detail root place).map (store.pictureBelow detail (enter path root)) := by
  have missing (container : ContainerId) (stands : root = container.value) : container ∉ path :=
    fun listed => isClosed (recursAt_nil_iff.mpr ⟨container, stands, listed⟩)
  rw [pictureBelow_eq isPath]
  cases root with
  | arr array =>
      rw [Value.picture, picturePart_of_isClosed (missing (.arr array) rfl)]
      simp only [containerPicture, bare]
      cases place <;> simp [Snapshot.member?, member?, enter]
  | obj object =>
      rw [Value.picture, picturePart_of_isClosed (missing (.obj object) rfl)]
      simp only [containerPicture, bare]
      cases place <;> simp [Snapshot.member?, member?, enter, Function.comp_def]
  | fn function =>
      rw [Value.picture, picturePart_of_isClosed (missing (.fn function) rfl)]
      simp only [containerPicture]
      cases store.function? function <;> rfl
  | errorWith name information =>
      rw [Value.picture]
      split
      · rename_i shown
        cases place
        · rfl
        · simp [Snapshot.member?, member?, shown, enter, pictureBelow_eq isPath]
      · rename_i hidden
        cases place
        · rfl
        · simp [Snapshot.member?, member?, hidden]
  | _ => rfl

/-- The path is one inside of a value as well. -/
theorem IsPath.enter (isPath : store.IsPath path)
    (isClosed : ¬ store.RecursAt detail path root []) {place : Snapshot.Place} {inner : Value}
    (found : store.member? detail root place = some inner) :
    store.IsPath (Store.enter path root) := by
  have missing (container : ContainerId) (stands : root = container.value) : container ∉ path :=
    fun listed => isClosed (recursAt_nil_iff.mpr ⟨container, stands, listed⟩)
  cases root with
  | arr array =>
      cases place with
      | information => cases found
      | member index =>
          have listed : inner ∈ (store.items array).toList :=
            List.mem_of_getElem? (Array.getElem?_toList.trans found)
          exact isPath.cons (missing (.arr array) rfl) (index_lt_of_mem_items listed)
  | obj object =>
      cases place with
      | information => cases found
      | member index =>
          obtain ⟨entry, present, -⟩ := Option.map_eq_some_iff.mp found
          have exhibits : store.Exhibits detail (.obj object) entry.2 :=
            .entry (List.mem_of_getElem? present)
          exact isPath.cons (missing (.obj object) rfl) exhibits.isHeld
  | fn function => cases found
  | _ => exact isPath

section Occurrences

variable {places : List Snapshot.Place}

/-- What is not inside of an occurrence that recurs is shown as what it is. -/
theorem exists_looksLike_of_at? (isPath : store.IsPath path) (bare : detail.attributes = false)
    {value : Value} (leads : store.at? detail root places = some value)
    (isClosed : ∀ outer, outer <+: places → ¬ store.RecursAt detail path root outer) :
    ∃ shown, (store.pictureBelow detail path root).at? places = some shown ∧
      shown.LooksLike store detail value := by
  have closed := isClosed [] List.nil_prefix
  induction places generalizing path root with
  | nil =>
      obtain rfl := Option.some.inj leads
      exact ⟨_, rfl, looksLike_pictureBelow isPath bare closed⟩
  | cons place rest inductive_step =>
      obtain ⟨inner, found, leads⟩ := Option.bind_eq_some_iff.mp leads
      have isClosed (outer : List Snapshot.Place) (within : outer <+: rest) :
          ¬ store.RecursAt detail (Store.enter path root) inner outer := by
        rw [← recursAt_cons_iff found]
        exact isClosed (place :: outer) ((List.prefix_cons_inj place).mpr within)
      rw [Snapshot.at?, member?_pictureBelow isPath bare closed, found]
      exact inductive_step (isPath.enter closed found) leads isClosed
        (isClosed [] List.nil_prefix)

/-- The first occurrence that recurs is a cut. -/
theorem exists_cycle_of_recursAt (isPath : store.IsPath path) (bare : detail.attributes = false)
    (recurs : store.RecursAt detail path root places)
    (isClosed : ∀ outer, outer <+: places → outer ≠ places →
      ¬ store.RecursAt detail path root outer) :
    ∃ place, (store.pictureBelow detail path root).at? places = some (.cycle place) := by
  induction places generalizing path root with
  | nil =>
      obtain ⟨place, same⟩ := exists_pictureBelow_eq_cycle isPath recurs
      exact ⟨place, congrArg some same⟩
  | cons place rest inductive_step =>
      have closed := isClosed [] List.nil_prefix (List.cons_ne_nil _ _ ∘ Eq.symm)
      obtain ⟨inner, found⟩ : ∃ inner, store.member? detail root place = some inner := by
        obtain ⟨container, leads, -⟩ := recurs
        obtain ⟨inner, found, -⟩ := Option.bind_eq_some_iff.mp leads
        exact ⟨inner, found⟩
      rw [Snapshot.at?, member?_pictureBelow isPath bare closed, found]
      refine inductive_step (isPath.enter closed found) ((recursAt_cons_iff found).mp recurs) ?_
      intro outer within proper
      rw [← recursAt_cons_iff found]
      apply isClosed (place :: outer) ((List.prefix_cons_inj place).mpr within)
      exact fun same => proper (List.cons.inj same).2

/-- A picture shows occurrences only, and none that is inside of one that recurs. -/
theorem exists_at?_of_shown (isPath : store.IsPath path) (bare : detail.attributes = false)
    {shown : Snapshot} (found : (store.pictureBelow detail path root).at? places = some shown) :
    (∃ value, store.at? detail root places = some value) ∧
      ∀ outer, outer <+: places → outer ≠ places → ¬ store.RecursAt detail path root outer := by
  induction places generalizing path root with
  | nil =>
      exact ⟨⟨root, rfl⟩,
        fun outer within proper => absurd (List.prefix_nil.mp within) proper⟩
  | cons place rest inductive_step =>
      obtain ⟨inside, member, found⟩ := Option.bind_eq_some_iff.mp found
      -- A cut has nothing inside of it.
      have closed : ¬ store.RecursAt detail path root [] := by
        intro recurs
        obtain ⟨place, same⟩ := exists_pictureBelow_eq_cycle isPath recurs
        rw [same] at member
        cases member
      rw [member?_pictureBelow isPath bare closed] at member
      obtain ⟨inner, present, rfl⟩ := Option.map_eq_some_iff.mp member
      obtain ⟨leads, isClosed⟩ := inductive_step (isPath.enter closed present) found
      constructor
      · rwa [at?, present, Option.bind_some]
      · intro outer within proper
        rcases List.prefix_cons_iff.mp within with rfl | ⟨shorter, rfl, shortened⟩
        · exact closed
        · rw [recursAt_cons_iff present]
          exact isClosed shorter shortened fun same => proper (same ▸ rfl)

end Occurrences

/-- The picture of a value is cut at cycles. -/
theorem isCutAtCycles_pictureBelow (isPath : store.IsPath path) (bare : detail.attributes = false) :
    store.IsCutAtCycles detail path root (store.pictureBelow detail path root) where
  shows _ _ := exists_looksLike_of_at? isPath bare
  cuts _ := exists_cycle_of_recursAt isPath bare
  nothingElse _ _ := exists_at?_of_shown isPath bare

/--
A picture of a value that is cut where a container occurs inside itself and
nowhere else, and the only one that the rules of unfolding allow.
-/
structure IsUnfolding (store : Store) (detail : Detail) (value : Value) (picture : Snapshot) :
    Prop where
  unique : ∀ other, store.Unfolds detail [] value other ↔ other = picture
  cut : store.IsCutAtCycles detail [] value picture

theorem isUnfolding_snapshot (bare : detail.attributes = false) (value : Value) :
    store.IsUnfolding detail value (store.snapshot detail value) where
  unique := unfolds_iff value
  cut := isCutAtCycles_pictureBelow .nil bare

end Store

end TreeScript
