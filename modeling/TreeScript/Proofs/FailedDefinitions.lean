import TreeScript.Proofs.Lookups

/-!
# Definitions that are refused

A definition binds its name in the scope itself and, under longer and longer
spellings, around each of its namespaces.  It is refused at the first of these
places that is taken, and what it has bound up to there stays bound.  So a
definition that is refused leaves all layers alone if and only if the scope
itself binds the name already (`ScopeTree.refused_keeps_layers_iff`).
-/

namespace TreeScript

/-- The layers in which a definition is registered are layers of the scope, in their order. -/
theorem Scope.sublist_layers_registrations (scope : Scope) (name : String) :
    ((scope.registrations name).map fun place => place.1.layer).Sublist scope.layers := by
  induction scope generalizing name with
  | root layer | child layer outer => exact List.singleton_sublist.mpr (layer_mem_layers _)
  | member layer space outer inductive_step => exact (inductive_step _).cons_cons layer

namespace Edit

/--
A definition that is refused has come to the first of its places that is taken.
It has bound its variable in the places before and changed nothing in any other.
-/
theorem register_error (options : Options) {bound : Variable}
    {registrations : List (Scope × String)} {world after : World} {error : Error}
    (inside : ∀ place ∈ registrations, place.1.layer.index < world.store.layers.size)
    (apart : (registrations.map fun place => place.1.layer).Nodup)
    (refused : (register options bound registrations).run.run world = (.error error, after)) :
    ∃ depth, ∃ within : depth < registrations.length,
      (∀ place ∈ registrations.take depth,
        (world.store.bindings place.1.layer).find? place.2 = none) ∧
      (world.store.bindings registrations[depth].1.layer).contains registrations[depth].2 ∧
      error = .of (.alreadyDefined registrations[depth].2 registrations[depth].1.name) ∧
      (depth = 0 → after.store = world.store) ∧
      ∀ layer sought, (after.store.bindings layer).find? sought =
        if (layer, sought) ∈ (registrations.take depth).map
            fun place => (place.1.layer, place.2) then some bound
        else (world.store.bindings layer).find? sought := by
  induction registrations generalizing world with
  | nil => cases refused
  | cons place rest inductive_step =>
      obtain ⟨insideFirst, insideRest⟩ := List.forall_mem_cons.mp inside
      obtain ⟨distinct, apartRest⟩ := List.nodup_cons.mp apart
      rw [run_register_cons] at refused
      have kept : (world.log options "var:add" (some place.1.name) (some place.2)
          (some bound.value)).store = world.store := World.store_log options _ _ _ _ world
      generalize world.log options "var:add" _ _ _ = logged at kept refused
      rw [kept] at refused
      split at refused
      · rename_i taken
        cases refused
        exact ⟨0, Nat.succ_pos _, fun _ mem => (List.not_mem_nil mem).elim, taken, rfl,
          fun _ => kept, fun layer sought => by rw [kept]; rfl⟩
      · rename_i absent
        have found : ∀ layer sought, ((logged.mapStore fun store =>
            store.modifyLayer place.1.layer fun bindings =>
              bindings.insert place.2 bound).store.bindings layer).find? sought =
            if (layer, sought) = (place.1.layer, place.2) then some bound
            else (world.store.bindings layer).find? sought := by
          intro layer sought
          rw [World.mapStore, Store.find?_bind, kept]
          simp only [insideFirst, and_true, Prod.mk.injEq]
        have elsewhere : ∀ other ∈ rest, ∀ sought,
            (other.1.layer, sought) ≠ (place.1.layer, place.2) := fun other mem sought same =>
          distinct (List.mem_map.mpr ⟨other, mem, congrArg Prod.fst same⟩)
        have sizes : (logged.mapStore fun store => store.modifyLayer place.1.layer
            fun bindings => bindings.insert place.2 bound).store.layers.size =
            world.store.layers.size := by
          rw [World.mapStore, kept]
          exact Array.size_modify
        generalize logged.mapStore _ = between at found sizes refused
        obtain ⟨depth, within, free, taken, named, -, added⟩ :=
          inductive_step (fun other mem => sizes ▸ insideRest other mem) apartRest refused
        refine ⟨depth + 1, Nat.succ_lt_succ within, ?_, ?_, named, nofun, ?_⟩
        · rw [List.take_succ_cons]
          refine List.forall_mem_cons.mpr
            ⟨Option.not_isSome_iff_eq_none.mp absent, fun other mem => ?_⟩
          rw [← free other mem, found, if_neg (elsewhere other (List.mem_of_mem_take mem) _)]
        · rw [Dict.contains, found, if_neg (elsewhere _ (List.getElem_mem within) _)] at taken
          exact taken
        · intro layer sought
          rw [added, found, List.take_succ_cons, List.map_cons]
          simp only [List.mem_cons]
          split <;> rename_i later
          · rw [if_pos (.inr later)]
          · split <;> rename_i first
            · rw [if_pos (.inl first)]
            · rw [if_neg (not_or.mpr ⟨first, later⟩)]

end Edit

namespace ScopeTree

variable {tree start : ScopeTree}

theorem exists_error_of_edit {α : Type} (edit : Edit α) (result : α → ScopeResult)
    {error : Error} {after : ScopeTree}
    (succeeds : ∀ value, result value ≠ .failed error)
    (edited : tree.edit edit result = (.failed error, after)) :
    edit.run.run tree.world = (.error error, after.world) := by
  generalize ran : edit.run.run tree.world = outcome
  rw [ScopeTree.edit, ran] at edited
  rcases outcome with ⟨failed | found, reached⟩
  · cases edited
    rfl
  · exact (succeeds found (congrArg Prod.fst edited)).elim

/-! ## The layers of a scope are different -/

/-- No scope of a tree has a layer twice. -/
def IsLayered (tree : ScopeTree) : Prop :=
  ∀ scope ∈ tree.scopes, scope.layers.Nodup

/-- A new scope has a layer that no scope had before. -/
theorem IsLayered.addScope (layered : tree.IsLayered) (rooted : tree.IsRooted) {scope : Scope}
    (present : scope ∈ tree.scopes) (bindings : Dict Variable) {make : LayerId → Scope}
    (made : ∀ layer, (make layer).layers = layer :: scope.layers) :
    (tree.addScope bindings make).2.IsLayered := by
  intro other otherPresent
  rcases Array.mem_push.mp otherPresent with old | rfl
  · exact layered other old
  · rw [made]
    exact List.nodup_cons.mpr
      ⟨fun mem => Nat.lt_irrefl _ (rooted scope present _ mem), layered scope present⟩

theorem IsLayered.perform (layered : tree.IsLayered) (rooted : tree.IsRooted) {scope : Scope}
    (present : scope ∈ tree.scopes) (operation : ScopeOperation) :
    (tree.perform scope operation).2.IsLayered := by
  cases operation with
  | child bindings => exact layered.addScope rooted present bindings fun _ => rfl
  | member space => exact layered.addScope rooted present .empty fun _ => rfl
  | _ =>
      rw [ScopeTree.perform, edit_snd]
      exact layered

theorem Leads.isLayered (rooted : start.IsRooted) (layered : start.IsLayered)
    (leads : start.Leads tree) : tree.IsLayered := by
  induction leads with
  | refl => exact layered
  | perform earlier present operation inductive_step =>
      exact inductive_step.perform (earlier.isRooted rooted) present operation

theorem isLayered_root (options : Options) (store : Store) (bindings : Dict Variable) :
    (root options store bindings).IsLayered := by
  intro scope present
  obtain rfl : scope = .root ⟨store.layers.size⟩ := List.mem_singleton.mp (Array.mem_def.mp present)
  exact List.nodup_cons.mpr ⟨List.not_mem_nil, .nil⟩

/-! ## Where a definition is refused -/

/--
The first place of a name that is taken: in the scope around so many of the
namespaces the name is bound in its spelling, and nearer to the inside it is not.
-/
structure IsTakenFirst (tree : ScopeTree) (base : Scope) (spaces : List (LayerId × String))
    (name : String) (depth : Nat) : Prop where
  within : depth ≤ spaces.length
  free : ∀ nearer < depth, (tree.world.store.bindings (base.around spaces nearer).layer).find?
    (Scope.spelling spaces name nearer) = none
  taken : (tree.world.store.bindings (base.around spaces depth).layer).contains
    (Scope.spelling spaces name depth) = true

variable {base : Scope} {spaces : List (LayerId × String)} {name : String} {depth : Nat}

/-- There is only one first place. -/
theorem IsTakenFirst.unique {other : Nat} (first : tree.IsTakenFirst base spaces name depth)
    (second : tree.IsTakenFirst base spaces name other) : depth = other := by
  have least : ∀ {near far : Nat}, tree.IsTakenFirst base spaces name near →
      tree.IsTakenFirst base spaces name far → ¬ near < far := by
    intro near far here there less
    have taken := here.taken
    rw [Dict.contains, there.free near less] at taken
    cases taken
  exact Nat.le_antisymm (Nat.le_of_not_lt (least second first))
    (Nat.le_of_not_lt (least first second))

/-- The scope itself is the first place precisely when its own layer binds the name. -/
theorem isTakenFirst_zero_iff :
    tree.IsTakenFirst base spaces name 0 ↔
      (tree.world.store.bindings (base.within spaces).layer).contains name = true :=
  ⟨fun first => first.taken, fun taken => ⟨Nat.zero_le _, nofun, taken⟩⟩

variable {options : Options} {store : Store} {bindings : Dict Variable} {bound : Variable}

/-- What a definition that is refused has found, and what it has done until then. -/
theorem exists_isTakenFirst_of_refused {error : Error} {after : ScopeTree}
    (grown : (root options store bindings).Leads tree)
    (present : base.within spaces ∈ tree.scopes)
    (outermost : base.isNamespace = false)
    (refused : tree.perform (base.within spaces) (.add name bound) = (.failed error, after)) :
    ∃ depth, tree.IsTakenFirst base spaces name depth ∧
      error = .of (.alreadyDefined (Scope.spelling spaces name depth)
        (base.around spaces depth).name) ∧
      (depth = 0 → after.world.store = tree.world.store) ∧
      ∀ layer sought, (after.world.store.bindings layer).find? sought =
        if (layer, sought) ∈ (base.spellings spaces name).take depth then some bound
        else (tree.world.store.bindings layer).find? sought := by
  have rooted := isRooted_root options store bindings
  have inside := grown.isRooted rooted _ present
  have distinct := grown.isLayered rooted (isLayered_root options store bindings) _ present
  have ran := exists_error_of_edit _ _ (fun _ => ScopeResult.noConfusion) refused
  obtain ⟨depth, within, free, taken, named, kept, added⟩ := Edit.register_error tree.options
    (fun place mem => inside _ (Scope.layer_mem_of_registration _ mem))
    (distinct.sublist (Scope.sublist_layers_registrations _ name)) ran
  have places := Scope.registrations_within outermost spaces name
  simp only [places, List.getElem_map, List.getElem_range, List.length_map,
    List.length_range] at within taken named
  rw [List.map_take, Scope.places_within outermost] at added
  rw [places, ← List.map_take, List.take_range, List.forall_mem_map] at free
  have shallow : depth ≤ spaces.length := Nat.le_of_lt_succ within
  refine ⟨depth, ⟨shallow, fun nearer less => ?_, taken⟩, named, kept, added⟩
  exact free nearer (List.mem_range.mpr (Nat.lt_min.mpr ⟨less, Nat.lt_trans less within⟩))

/-- A definition is refused if one of its places is taken. -/
theorem exists_refused_of_isTakenFirst (grown : (root options store bindings).Leads tree)
    (present : base.within spaces ∈ tree.scopes)
    (outermost : base.isNamespace = false)
    (first : tree.IsTakenFirst base spaces name depth) (bound : Variable) :
    ∃ error after,
      tree.perform (base.within spaces) (.add name bound) = (.failed error, after) := by
  have inside := grown.isRooted (isRooted_root options store bindings) _ present
  generalize ran : (Edit.declare tree.options (base.within spaces) name bound).run.run
    tree.world = outcome
  rcases outcome with ⟨error | ⟨⟩, reached⟩
  · refine ⟨error, { tree with world := reached }, ?_⟩
    rw [perform, ScopeTree.edit, ran]
  · obtain ⟨-, free, -⟩ := Edit.register_ok tree.options
      (fun place mem => inside _ (Scope.layer_mem_of_registration _ mem)) ran
    rw [Scope.places_within outermost] at free
    have here := free ((base.around spaces depth).layer, Scope.spelling spaces name depth)
      (List.mem_map.mpr ⟨depth, List.mem_range.mpr (Nat.lt_succ_of_le first.within), rfl⟩)
    have taken := first.taken
    rw [Dict.contains, here] at taken
    cases taken

/-- What is bound before a definition is refused counts as a change of the layers. -/
theorem IsTakenFirst.layers_ne {after : ScopeTree}
    (first : tree.IsTakenFirst base spaces name depth) (around : depth ≠ 0)
    (added : ∀ layer sought, (after.world.store.bindings layer).find? sought =
      if (layer, sought) ∈ (base.spellings spaces name).take depth then some bound
      else (tree.world.store.bindings layer).find? sought) :
    after.world.store.layers ≠ tree.world.store.layers := by
  intro same
  have own : ((base.within spaces).layer, name) ∈ (base.spellings spaces name).take depth := by
    obtain ⟨less, rfl⟩ := Nat.exists_eq_succ_of_ne_zero around
    rw [Scope.spellings, List.range_succ_eq_map, List.map_cons, List.take_succ_cons]
    exact List.mem_cons_self
  have bindsNow := added (base.within spaces).layer name
  rw [if_pos own, Store.bindings, same, ← Store.bindings] at bindsNow
  have boundBefore := first.free 0 (Nat.pos_of_ne_zero around)
  cases bindsNow.symm.trans boundBefore

/--
Definitions that are refused.  In a tree that has grown from a root, a variable is
defined in a scope, with namespaces from the scope outwards to the next scope
that is not the scope of a namespace; every scope consists of such namespaces in such
a scope (`Scope.exists_within`).  This is refused if and only if one of the
places of the name is taken, and then the error names the first of them.  The
variable stays bound in all the places before, and nothing else changes.  So all
layers are as before precisely if the scope binds the name in its own layer, as
it always is the case for a scope that is not the scope of a namespace.
-/
theorem refused_keeps_layers_iff
    (grown : (root options store bindings).Leads tree)
    (present : base.within spaces ∈ tree.scopes)
    (outermost : base.isNamespace = false) :
    (∀ error, (tree.perform (base.within spaces) (.add name bound)).1 = .failed error ↔
      ∃ depth, tree.IsTakenFirst base spaces name depth ∧
        error = .of (.alreadyDefined (Scope.spelling spaces name depth)
          (base.around spaces depth).name)) ∧
    ∀ error after,
      tree.perform (base.within spaces) (.add name bound) = (.failed error, after) →
      (∃ depth, tree.IsTakenFirst base spaces name depth ∧
        ∀ layer sought, (after.world.store.bindings layer).find? sought =
          if (layer, sought) ∈ (base.spellings spaces name).take depth then some bound
          else (tree.world.store.bindings layer).find? sought) ∧
      (after.world.store.layers = tree.world.store.layers ↔
        (tree.world.store.bindings (base.within spaces).layer).contains name = true) ∧
      (spaces = [] → after.world.store.layers = tree.world.store.layers) := by
  refine ⟨fun error => ⟨fun failed => ?_, ?_⟩, fun error after refused => ?_⟩
  · obtain ⟨depth, first, named, -⟩ := exists_isTakenFirst_of_refused grown present outermost
      (Prod.ext failed rfl)
    exact ⟨depth, first, named⟩
  · rintro ⟨depth, first, rfl⟩
    obtain ⟨error, after, refused⟩ :=
      exists_refused_of_isTakenFirst grown present outermost first bound
    obtain ⟨other, firstToo, rfl, -⟩ :=
      exists_isTakenFirst_of_refused grown present outermost refused
    rw [refused, first.unique firstToo]
  · obtain ⟨depth, first, -, kept, added⟩ :=
      exists_isTakenFirst_of_refused grown present outermost refused
    have kept : depth = 0 → after.world.store.layers = tree.world.store.layers := fun own =>
      congrArg Store.layers (kept own)
    refine ⟨⟨depth, first, added⟩, ⟨fun same => ?_, fun taken => kept ?_⟩, ?_⟩
    · refine isTakenFirst_zero_iff.mp ?_
      by_cases own : depth = 0
      · exact own ▸ first
      · exact (first.layers_ne own added same).elim
    · exact first.unique (isTakenFirst_zero_iff.mpr taken)
    · rintro rfl
      exact kept (Nat.le_zero.mp first.within)

/-- A tree of a namespace in a root that binds a name of the namespace already. -/
def occupied : ScopeTree :=
  let empty := root (.silent 0 0) .empty .empty
  let entered := (empty.perform (.root ⟨0⟩) (.member "space")).2
  (entered.perform (.root ⟨0⟩) (.add "space:x" (.constant (.bool true)))).2

theorem leads_occupied : (root (.silent 0 0) .empty .empty).Leads occupied :=
  (Leads.refl.perform (Array.mem_def.mpr (.head _)) (.member "space")).perform
    (Array.mem_def.mpr (.head _)) (.add "space:x" (.constant (.bool true)))

/-- In the namespace the name is free, so that it is bound there, and refused in the root. -/
theorem refused_keeps_layers_iff_occupied :
    (occupied.perform (.member ⟨1⟩ "space" (.root ⟨0⟩)) (.add "x" (.constant .null))).1 =
      .failed (.of (.alreadyDefined "space:x" "<root>")) := by
  have present : Scope.within (.root ⟨0⟩) [(⟨1⟩, "space")] ∈ occupied.scopes :=
    Array.mem_def.mpr (.tail _ (.head _))
  refine ((refused_keeps_layers_iff leads_occupied present rfl).1 _).mpr
    ⟨1, ⟨Nat.le_refl 1, fun nearer less => ?_, ?_⟩, ?_⟩
  · obtain rfl := Nat.lt_one_iff.mp less
    rfl
  · decide +kernel
  · rfl

/-- The definition that the root refuses has changed the layer of the namespace. -/
theorem exists_refused_changes_layers :
    ∃ tree : ScopeTree, (root (.silent 0 0) .empty .empty).Leads tree ∧
      ∃ scope ∈ tree.scopes, ∃ name bound error,
        (tree.perform scope (.add name bound)).1 = .failed error ∧
          (tree.perform scope (.add name bound)).2.world.store.layers ≠
            tree.world.store.layers := by
  refine ⟨occupied, leads_occupied, .member ⟨1⟩ "space" (.root ⟨0⟩),
    Array.mem_def.mpr (.tail _ (.head _)), "x", .constant .null,
    .of (.alreadyDefined "space:x" "<root>"), rfl, ?_⟩
  generalize performed : occupied.perform _ _ = outcome
  intro same
  have bindsNow : (outcome.2.world.store.bindings ⟨1⟩).contains "x" = true := by
    rw [← performed]
    decide +kernel
  rw [Store.bindings, same, ← Store.bindings] at bindsNow
  exact absurd bindsNow (by decide +kernel)

end ScopeTree

end TreeScript
