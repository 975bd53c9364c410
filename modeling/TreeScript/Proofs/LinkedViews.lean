import TreeScript.Proofs.Bisimilarity
import TreeScript.Proofs.LinkedStores

/-!
# What is seen of linked values

Linked values look the same: they have the same pictures, and so the same texts,
and they are equal to each other in the one store if and only if they are in
the other.

Pictures are drawn with a budget that depends on the size of the store.  It
never runs out, since no container is on a path twice; so pictures from stores
of different sizes can be compared.  Equality is the greatest bisimulation, and
a link carries bisimulations over from one store to the other.
-/

namespace TreeScript

/-! ## Pictures -/

/-- Containers with linked handles. -/
inductive ContainerId.Linked (link : Link) : ContainerId → ContainerId → Prop where
  | arr {array other : ArrayId} (handles : link .array array.index other.index) :
      Linked link (.arr array) (.arr other)
  | obj {object other : ObjectId} (handles : link .object object.index other.index) :
      Linked link (.obj object) (.obj other)
  | fn {function other : FunctionId} (handles : link .function function.index other.index) :
      Linked link (.fn function) (.fn other)

theorem Body.Linked.shown {names : String → Bool} {link : Link} {body other : Body}
    (linked : body.Linked names link other) : body.shown = other.shown := by
  cases linked <;> rfl

namespace Store

/-- The place of a container in a list of all containers of a store. -/
def number (store : Store) : ContainerId → Nat
  | .arr array => array.index
  | .obj object => store.arrays.size + object.index
  | .fn function => store.arrays.size + store.objects.size + function.index

/-- Whether a store has given a container out. -/
def IsHeld (store : Store) : ContainerId → Prop
  | .arr array => array.index < store.arrays.size
  | .obj object => object.index < store.objects.size
  | .fn function => function.index < store.functions.size

theorem number_lt {store : Store} {container : ContainerId} (held : store.IsHeld container) :
    store.number container < store.containerCount := by
  cases container <;> simp only [IsHeld, number, containerCount] at * <;> omega

theorem number_injective {store : Store} {container other : ContainerId}
    (held : store.IsHeld container) (held' : store.IsHeld other)
    (same : store.number container = store.number other) :
    container = other := by
  rcases container with ⟨⟨index⟩⟩ | ⟨⟨index⟩⟩ | ⟨⟨index⟩⟩ <;>
    rcases other with ⟨⟨place⟩⟩ | ⟨⟨place⟩⟩ | ⟨⟨place⟩⟩ <;>
      simp only [IsHeld, number, ContainerId.arr.injEq, ContainerId.obj.injEq,
        ContainerId.fn.injEq, ArrayId.mk.injEq, ObjectId.mk.injEq, FunctionId.mk.injEq,
        reduceCtorEq] at * <;> omega

/-- A path on which no container stands twice is no longer than there are containers. -/
theorem length_le_containerCount {store : Store} {path : List ContainerId}
    (distinct : path.Nodup) (held : ∀ container ∈ path, store.IsHeld container) :
    path.length ≤ store.containerCount := by
  have numbers : (path.map store.number).Nodup :=
    (List.nodup_map_iff_inj_on distinct).mpr fun container mem other mem' same =>
      number_injective (held container mem) (held other mem') same
  have within : path.map store.number ⊆ List.range store.containerCount := by
    intro place mem
    obtain ⟨container, listed, rfl⟩ := List.mem_map.mp mem
    exact List.mem_range.mpr (number_lt (held container listed))
  simpa using (numbers.subperm within).length_le

/-- Paths of linked containers, as far as pictures may be drawn below them. -/
structure PathsLinked (link : Link) (store other : Store) (path path' : List ContainerId) :
    Prop where
  each : List.Forall₂ (ContainerId.Linked link) path path'
  distinct : path.Nodup ∧ path'.Nodup
  held : (∀ container ∈ path, store.IsHeld container) ∧
    ∀ container ∈ path', other.IsHeld container

variable {names : String → Bool} {link : Link} {store other : Store}

theorem PathsLinked.cons {path path' : List ContainerId}
    (paths : PathsLinked link store other path path')
    {container container' : ContainerId} (containers : container.Linked link container')
    (missing : container ∉ path) (missing' : container' ∉ path')
    (held : store.IsHeld container) (held' : other.IsHeld container') :
    PathsLinked link store other (container :: path) (container' :: path') where
  each := .cons containers paths.each
  distinct := ⟨paths.distinct.1.cons missing, paths.distinct.2.cons missing'⟩
  held := ⟨List.forall_mem_cons.mpr ⟨held, paths.held.1⟩,
    List.forall_mem_cons.mpr ⟨held', paths.held.2⟩⟩

/-- Linked containers are the same as others if and only if the others are. -/
theorem containers_iff (matching : link.IsMatching) {container container' : ContainerId}
    {place place' : ContainerId} (linked : container.Linked link container')
    (others : place.Linked link place') :
    container = place ↔ container' = place' := by
  constructor
  · rintro rfl
    cases linked with
    | @arr array array' handles =>
        cases others with
        | arr handles' =>
            exact congrArg (ContainerId.arr ⟨·⟩) (matching.functional handles handles')
    | obj handles =>
        cases others with
        | obj handles' =>
            exact congrArg (ContainerId.obj ⟨·⟩) (matching.functional handles handles')
    | fn handles =>
        cases others with
        | fn handles' => exact congrArg (ContainerId.fn ⟨·⟩) (matching.functional handles handles')
  · rintro rfl
    cases linked with
    | arr handles =>
        cases others with
        | arr handles' => exact congrArg (ContainerId.arr ⟨·⟩) (matching.injective handles handles')
    | obj handles =>
        cases others with
        | obj handles' => exact congrArg (ContainerId.obj ⟨·⟩) (matching.injective handles handles')
    | fn handles =>
        cases others with
        | fn handles' => exact congrArg (ContainerId.fn ⟨·⟩) (matching.injective handles handles')

theorem idxOf?_linked (matching : link.IsMatching) {path path' : List ContainerId}
    (each : List.Forall₂ (ContainerId.Linked link) path path')
    {container container' : ContainerId} (linked : container.Linked link container') :
    path.idxOf? container = path'.idxOf? container' := by
  induction each with
  | nil => rfl
  | @cons first first' rest rest' firsts _ inductive_step =>
      have same : (first == container) = (first' == container') := by
        rw [Bool.eq_iff_iff, beq_iff_eq, beq_iff_eq]
        exact containers_iff matching firsts linked
      rw [List.idxOf?_cons, List.idxOf?_cons, same, inductive_step]

/-- Values with the same pictures have the same picture inside of errors. -/
theorem picture_linked {detail : Detail} {container container' : ContainerId → Snapshot}
    (pictures : ∀ place place' : ContainerId, place.Linked link place' →
      container place = container' place')
    {value value' : Value} (values : value.Linked link value') :
    value.picture detail container = value'.picture detail container' := by
  induction values with
  | arr handles => exact pictures _ _ (.arr handles)
  | obj handles => exact pictures _ _ (.obj handles)
  | fn handles => exact pictures _ _ (.fn handles)
  | errorWith name _ inductive_step => rw [Value.picture, Value.picture, inductive_step]
  | _ => rfl

namespace Linked

variable (linked : store.Linked names link other)

include linked

/-- Pictures of linked containers show the same, if values in them have the same pictures. -/
theorem containerPicture_eq {detail : Detail} {picture picture' : Value → Snapshot}
    {container container' : ContainerId} (containers : container.Linked link container')
    (pictures : store.IsHeld container → other.IsHeld container' →
      ∀ value value' : Value, value.Linked link value' → picture value = picture' value') :
    store.containerPicture detail picture container =
      other.containerPicture detail picture' container' := by
  cases containers with
  | @arr array array' handles =>
      have bare := linked.attributes (.arr handles)
      have values := linked.items handles
      have items : (store.items array).toList.map picture =
          (other.items array').toList.map picture' := by
        rw [← List.forall₂_eq_eq_eq, List.forall₂_map_left_iff, List.forall₂_map_right_iff]
        refine List.forall₂_iff_zip.mpr ⟨values.length_eq, fun place => ?_⟩
        obtain ⟨mem, mem'⟩ := List.of_mem_zip place
        exact pictures (index_lt_of_mem_items mem) (index_lt_of_mem_items mem') _ _
          (List.forall₂_zip values place)
      simp only [containerPicture, items, bare.1, bare.2, List.map_nil]
  | @obj object object' handles =>
      have bare := linked.attributes (.obj handles)
      have values := forall₂_entries_iff.mpr (linked.entries handles)
      have entries :
          (store.entries object).entries.map (fun entry => (entry.1, picture entry.2)) =
            (other.entries object').entries.map (fun entry => (entry.1, picture' entry.2)) := by
        rw [← List.forall₂_eq_eq_eq, List.forall₂_map_left_iff, List.forall₂_map_right_iff]
        refine List.forall₂_iff_zip.mpr ⟨values.length_eq, fun {entry entry'} place => ?_⟩
        obtain ⟨mem, mem'⟩ := List.of_mem_zip place
        obtain ⟨same, given⟩ := List.forall₂_zip values place
        have bound := ((store.entries object).mem_entries_iff _ _).mp mem
        have bound' := ((other.entries object').mem_entries_iff _ _).mp mem'
        exact Prod.ext same (pictures (index_lt_of_find?_entries bound)
          (index_lt_of_find?_entries bound') _ _ given)
      simp only [containerPicture, entries, bare.1, bare.2, List.map_nil]
  | @fn function function' handles =>
      have bare := linked.attributes (.fn handles)
      have found := linked.function? handles
      simp only [containerPicture, bare.1, bare.2, List.map_nil]
      generalize store.function? function = cell at found ⊢
      generalize other.function? function' = cell' at found ⊢
      cases found with
      | none => rfl
      | some functions =>
          have shown := functions.body.shown
          simp only [functions.name, shown]

/-- Pictures below linked paths are the same, if both budgets suffice. -/
theorem snapshotWithin_eq (detail : Detail) {budget budget' : Nat} {path path' : List ContainerId}
    (paths : PathsLinked link store other path path')
    (enough : store.containerCount < budget + path.length)
    (enough' : other.containerCount < budget' + path'.length)
    {value value' : Value} (values : value.Linked link value') :
    store.snapshotWithin detail budget path value =
      other.snapshotWithin detail budget' path' value' := by
  induction budget generalizing budget' path path' value value' with
  | zero =>
      have bounded := length_le_containerCount paths.distinct.1 paths.held.1
      omega
  | succ budget inductive_step =>
      cases budget' with
      | zero =>
          have bounded := length_le_containerCount paths.distinct.2 paths.held.2
          omega
      | succ budget' =>
          refine picture_linked (fun place place' containers => ?_) values
          have same := idxOf?_linked linked.matching paths.each containers
          rw [← same, paths.each.length_eq]
          cases missing : path.idxOf? place with
          | some distance => rfl
          | none =>
              refine linked.containerPicture_eq containers fun held held' value value' given => ?_
              refine inductive_step (paths.cons containers ?_ ?_ held held') ?_ ?_ given
              · exact List.idxOf?_eq_none_iff.mp missing
              · exact List.idxOf?_eq_none_iff.mp (same.symm.trans missing)
              · rw [List.length_cons]
                omega
              · rw [List.length_cons]
                omega

/-- Linked values have the same picture. -/
theorem snapshot_eq (detail : Detail) {value value' : Value} (values : value.Linked link value') :
    store.snapshot detail value = other.snapshot detail value' :=
  linked.snapshotWithin_eq detail ⟨.nil, ⟨.nil, .nil⟩, nofun, nofun⟩ (Nat.lt_succ_self _)
    (Nat.lt_succ_self _) values

theorem display_eq {value value' : Value} (values : value.Linked link value') :
    store.display value = other.display value' :=
  congrArg Snapshot.display (linked.snapshot_eq .contents values)

theorem literal_eq {value value' : Value} (values : value.Linked link value') :
    store.literal value = other.literal value' :=
  congrArg Snapshot.literal (linked.snapshot_eq .contents values)

end Linked

/-! ## Equality -/

/-- What two stores say about linked containers, as far as equality sees it. -/
structure SeenAlike (link : Link) (store other : Store) : Prop where
  matching : link.IsMatching
  items {array array' : ArrayId} :
    link .array array.index array'.index →
      List.Forall₂ (Value.Linked link) (store.items array).toList (other.items array').toList
  entries {object object' : ObjectId} :
    link .object object.index object'.index → ∀ name,
      Option.Rel (Value.Linked link) ((store.entries object).find? name)
        ((other.entries object').find? name)

/-- Values that are linked to equal ones. -/
def Carried (link : Link) (store : Store) : Value.Relation :=
  fun left right => ∃ value other,
    value.Linked link left ∧ other.Linked link right ∧ store.equal value other = true

theorem forall₂_carried {values others lefts rights : List Value}
    (equal : List.Forall₂ (fun value other => store.equal value other = true) values others)
    (left : List.Forall₂ (Value.Linked link) values lefts)
    (right : List.Forall₂ (Value.Linked link) others rights) :
    List.Forall₂ (Carried link store) lefts rights := by
  induction equal generalizing lefts rights with
  | nil =>
      cases left
      cases right
      exact .nil
  | cons same _ inductive_step =>
      cases left with
      | cons first rest =>
          cases right with
          | cons first' rest' => exact .cons ⟨_, _, first, first', same⟩ (inductive_step rest rest')

theorem optionRel_carried {value other left right : Option Value}
    (equal : Option.Rel (fun value other => store.equal value other = true) value other)
    (first : Option.Rel (Value.Linked link) value left)
    (second : Option.Rel (Value.Linked link) other right) :
    Option.Rel (Carried link store) left right := by
  cases equal with
  | none =>
      cases first
      cases second
      exact .none
  | some same =>
      cases first with
      | some first =>
          cases second with
          | some second => exact .some ⟨_, _, first, second, same⟩

/-- A link carries the equality of one store over to a bisimulation of the other. -/
theorem SeenAlike.isBisimulation (alike : SeenAlike link store other) :
    other.IsBisimulation (Carried link store) := by
  rintro left right ⟨value, value', first, second, same⟩
  have looks := (isGreatest_equal store).1 value value' same
  cases looks with
  | null =>
      cases first
      cases second
      exact .null
  | bool truth =>
      cases first
      cases second
      exact .bool truth
  | num same =>
      cases first
      cases second
      exact .num same
  | str text =>
      cases first
      cases second
      exact .str text
  | arr contents =>
      cases first with
      | arr handles =>
          cases second with
          | arr handles' =>
              refine .arr (contents.imp (fun same => ?_) fun same =>
                forall₂_carried same (alike.items handles) (alike.items handles'))
              subst same
              exact congrArg ArrayId.mk (alike.matching.functional handles handles')
  | obj contents =>
      cases first with
      | obj handles =>
          cases second with
          | obj handles' =>
              refine .obj (contents.imp (fun same => ?_) fun same name =>
                optionRel_carried (same name) (alike.entries handles name)
                  (alike.entries handles' name))
              subst same
              exact congrArg ObjectId.mk (alike.matching.functional handles handles')
  | fn function =>
      cases first with
      | @fn _ left handles =>
          cases second with
          | @fn _ right handles' =>
              have same : left = right :=
                congrArg FunctionId.mk (alike.matching.functional handles handles')
              exact same ▸ .fn left
  | error name =>
      cases first
      cases second
      exact .error name
  | errorWith name informed =>
      cases first with
      | errorWith _ first =>
          cases second with
          | errorWith _ second => exact .errorWith name ⟨_, _, first, second, informed⟩

theorem SeenAlike.equal_of_equal (alike : SeenAlike link store other)
    {value value' left right : Value} (first : value.Linked link left)
    (second : value'.Linked link right) (same : store.equal value value' = true) :
    other.equal left right = true :=
  (isGreatest_equal other).2 alike.isBisimulation left right ⟨value, value', first, second, same⟩

end Store

theorem Value.Linked.flip {link : Link} {value other : Value} (linked : value.Linked link other) :
    other.Linked (fun kind index place => link kind place index) value := by
  induction linked with
  | null => exact .null
  | bool truth => exact .bool truth
  | num number => exact .num number
  | str text => exact .str text
  | arr handles => exact .arr handles
  | obj handles => exact .obj handles
  | fn handles => exact .fn handles
  | error name => exact .error name
  | errorWith name _ inductive_step => exact .errorWith name inductive_step

namespace Store

variable {names : String → Bool} {link : Link} {store other : Store}

theorem Linked.seenAlike (linked : store.Linked names link other) :
    SeenAlike link store other :=
  ⟨linked.matching, linked.items, linked.entries⟩

theorem SeenAlike.flip (alike : SeenAlike link store other) :
    SeenAlike (fun kind index place => link kind place index) other store where
  matching := ⟨alike.matching.injective, alike.matching.functional⟩
  items handles := (alike.items handles).flip.imp fun _ _ given => given.flip
  entries handles name :=
    optionRel_imp (fun _ _ given => given.flip) (optionRel_flip (alike.entries handles name))

/-- Linked values are equal in the one store if and only if they are in the other. -/
theorem Linked.equal_eq (linked : store.Linked names link other) {value value' left right : Value}
    (first : value.Linked link left) (second : value'.Linked link right) :
    store.equal value value' = other.equal left right := by
  rw [Bool.eq_iff_iff]
  exact ⟨linked.seenAlike.equal_of_equal first second,
    linked.seenAlike.flip.equal_of_equal first.flip second.flip⟩

end Store

end TreeScript
