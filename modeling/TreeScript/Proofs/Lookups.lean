import TreeScript.Proofs.QualifiedNames

/-!
# What the lookups of a scope agree on

A scope can be asked for the value of a name, whether the name is bound and for
the attributes of its binding, and the name can be assigned to.  All four look
through the layers of the scope, but only reading tries once more with the name
qualified by the namespaces of the scope.  `ScopeTree.lookupsAgree_iff` says at
which scopes and names they agree nevertheless, and which answers they give
where they do not.
-/

namespace TreeScript

namespace Store

/--
Whether a name is bound under its qualified form alone: the scope lies in
namespaces and binds the name with theirs in front of it, as another scope of the
same namespaces leaves it, but not the name itself.
-/
def IsBoundAfar (store : Store) (scope : Scope) (name : String) : Prop :=
  store.isBound scope name = false ∧
    scope.qualifier.isEmpty = false ∧ store.isBound scope (scope.qualifier ++ name) = true

/-- Reading finds the binding of the name itself or, failing that, of its qualified form. -/
theorem lookup?_eq_some_iff (store : Store) (scope : Scope) (name : String) (found : Variable) :
    store.lookup? scope name = some found ↔
      store.binding? scope name = some found ∨ store.IsBoundAfar scope name ∧
        store.binding? scope (scope.qualifier ++ name) = some found := by
  rw [lookup?, IsBoundAfar, isBound, isBound]
  cases store.binding? scope name with
  | some near => simp
  | none =>
      cases scope.qualifier.isEmpty with
      | true => simp
      | false => cases store.binding? scope (scope.qualifier ++ name) <;> simp

/-- A name is unbound precisely when no layer of the scope holds it. -/
theorem isBound_eq_false_iff (store : Store) (scope : Scope) (name : String) :
    store.isBound scope name = false ↔ store.findBinding? name scope.layers = none := by
  rw [isBound, binding?, Option.isSome_map, Option.isSome_eq_false_iff, Option.isNone_iff_eq_none]

end Store

/-- What assigning gives, by the innermost binding of the name. -/
theorem Edit.fst_assign (options : Options) (scope : Scope) (name : String) (value : Value)
    (world : World) :
    ((assign options scope name value).run.run world).1 =
      match world.store.findBinding? name scope.layers with
      | some (_, found) =>
          if found.isMutable then .ok () else .error (.of (.assignToImmutable name))
      | none => .error (.of (.unknownIdentifier name scope.name)) := by
  generalize logged : World.log options "var:write" (some scope.name) (some name) (some value)
    world = noted
  have store_noted : noted.store = world.store :=
    logged ▸ World.store_log options "var:write" _ _ _ world
  have ran : (assign options scope name value).run.run world =
      ((match noted.store.findBinding? name scope.layers with
        | some (layer, found) =>
            if found.isMutable then
              modify fun world =>
                world.mapStore fun store =>
                  store.modifyLayer layer fun bindings =>
                    bindings.insert name { found with value := value }
            else throw (Error.of (.assignToImmutable name))
        | none => throw (Error.of (.unknownIdentifier name scope.name)) :
          Edit Unit).run.run noted) :=
    logged ▸ rfl
  rw [ran, store_noted]
  cases world.store.findBinding? name scope.layers with
  | none => rfl
  | some place =>
      dsimp only
      cases place.2.isMutable <;> rfl

namespace ScopeTree

variable (tree : ScopeTree) (scope : Scope) (name : String)

theorem edit_fst {α : Type} (edit : Edit α) (result : α → ScopeResult) :
    (tree.edit edit result).1 =
      match (edit.run.run tree.world).1 with
      | .ok value => result value
      | .error error => .failed error := by
  rw [ScopeTree.edit]
  generalize edit.run.run tree.world = ran
  rcases ran with ⟨error | value, after⟩ <;> rfl

/-- Whether an operation with a name fails since the name is unknown. -/
def FindsNothing (operation : ScopeOperation) : Prop :=
  (tree.perform scope operation).1 = .failed (.of (.unknownIdentifier name scope.name))

theorem fst_perform_get :
    (tree.perform scope (.get name)).1 =
      match tree.world.store.lookup? scope name with
      | some found => .value found.value
      | none => .failed (.of (.unknownIdentifier name scope.name)) := by
  rw [perform, edit_fst, Edit.run_readName]
  cases tree.world.store.lookup? scope name <;> rfl

/-- What reading a name gives: the value bound to it or, failing that, to its qualified form. -/
theorem perform_get_eq_value_iff (value : Value) :
    (tree.perform scope (.get name)).1 = .value value ↔
      ∃ found, found.value = value ∧
        (tree.world.store.binding? scope name = some found ∨
          tree.world.store.IsBoundAfar scope name ∧
            tree.world.store.binding? scope (scope.qualifier ++ name) = some found) := by
  simp only [← Store.lookup?_eq_some_iff]
  rw [fst_perform_get]
  cases tree.world.store.lookup? scope name with
  | none => exact ⟨fun same => ScopeResult.noConfusion same, fun ⟨_, _, same⟩ => nomatch same⟩
  | some found =>
      constructor
      · rintro ⟨⟩
        exact ⟨found, rfl, rfl⟩
      · rintro ⟨_, rfl, ⟨⟩⟩
        rfl

/-- Reading a name succeeds precisely when it is bound, in this form or in the qualified one. -/
theorem exists_perform_get_iff :
    (∃ value, (tree.perform scope (.get name)).1 = .value value) ↔
      tree.world.store.isBound scope name = true ∨ tree.world.store.IsBoundAfar scope name := by
  simp only [perform_get_eq_value_iff]
  constructor
  · rintro ⟨_, found, -, near | ⟨afar, -⟩⟩
    · exact .inl (Option.isSome_iff_exists.mpr ⟨found, near⟩)
    · exact .inr afar
  · rintro (near | afar)
    · obtain ⟨found, bound⟩ := Option.isSome_iff_exists.mp near
      exact ⟨_, found, rfl, .inl bound⟩
    · obtain ⟨found, bound⟩ := Option.isSome_iff_exists.mp afar.2.2
      exact ⟨_, found, rfl, .inr ⟨afar, bound⟩⟩

/-- Reading fails in no other way than for a name that is unknown. -/
theorem findsNothing_get_iff :
    tree.FindsNothing scope name (.get name) ↔
      ¬ ∃ value, (tree.perform scope (.get name)).1 = .value value := by
  rw [FindsNothing, fst_perform_get]
  cases tree.world.store.lookup? scope name with
  | none => exact ⟨fun _ ⟨_, same⟩ => ScopeResult.noConfusion same, fun _ => rfl⟩
  | some found => exact ⟨fun same => ScopeResult.noConfusion same, fun none => (none ⟨_, rfl⟩).elim⟩

/-- An assignment finds nothing precisely where the name itself is unbound. -/
theorem findsNothing_assign_iff (value : Value) :
    tree.FindsNothing scope name (.assign name value) ↔
      tree.world.store.isBound scope name = false := by
  rw [FindsNothing, perform, edit_fst, Edit.fst_assign, Store.isBound_eq_false_iff]
  cases tree.world.store.findBinding? name scope.layers with
  | none => exact ⟨fun _ => rfl, fun _ => rfl⟩
  | some place =>
      constructor
      · intro same
        dsimp only at same
        cases mutable : place.2.isMutable <;> rw [mutable] at same <;> cases same
      · intro unbound
        cases unbound

/-- The lookups of a scope agree on a name: it is there for all of them or for none. -/
structure LookupsAgree : Prop where
  bound : tree.world.store.isBound scope name = true ↔
    ∃ value, (tree.perform scope (.get name)).1 = .value value
  attributes : ((tree.world.store.binding? scope name).map Variable.attributes).isSome = true ↔
    ∃ value, (tree.perform scope (.get name)).1 = .value value
  assigned : ∀ value, tree.FindsNothing scope name (.assign name value) ↔
    tree.FindsNothing scope name (.get name)

/--
The lookups of a scope agree on a name unless it is bound under its qualified
form alone.  Then reading gives the value that is bound there, while the name
counts as unbound, has no attributes and cannot be assigned to.  The three never
disagree with each other.
-/
theorem lookupsAgree_iff :
    (tree.LookupsAgree scope name ↔ ¬ tree.world.store.IsBoundAfar scope name) ∧
    (∀ value, (tree.perform scope (.get name)).1 = .value value ↔
      ∃ found, found.value = value ∧
        (tree.world.store.binding? scope name = some found ∨
          tree.world.store.IsBoundAfar scope name ∧
            tree.world.store.binding? scope (scope.qualifier ++ name) = some found)) ∧
    ((tree.world.store.binding? scope name).map Variable.attributes).isSome =
      tree.world.store.isBound scope name ∧
    ∀ value, tree.FindsNothing scope name (.assign name value) ↔
      tree.world.store.isBound scope name = false := by
  refine ⟨⟨fun agree afar => ?_, fun near => ?_⟩, tree.perform_get_eq_value_iff scope name,
    Option.isSome_map, tree.findsNothing_assign_iff scope name⟩
  · have bound := agree.bound.mpr ((tree.exists_perform_get_iff scope name).mpr (.inr afar))
    rw [afar.1] at bound
    cases bound
  · have read : (∃ value, (tree.perform scope (.get name)).1 = .value value) ↔
        tree.world.store.isBound scope name = true := by
      rw [exists_perform_get_iff, or_iff_left near]
    refine ⟨read.symm, by rw [Option.isSome_map]; exact read.symm, fun value => ?_⟩
    rw [findsNothing_assign_iff, findsNothing_get_iff, read, Bool.not_eq_true]

/-- A tree in which a namespace with a name of its own has been entered a second time. -/
def reentered : ScopeTree :=
  let empty := root (.silent 0 0) .empty .empty
  let entered := (empty.perform (.root ⟨0⟩) (.member "space")).2
  let named := (entered.perform (.member ⟨1⟩ "space" (.root ⟨0⟩))
    (.add "x" (.constant (.bool true)))).2
  (named.perform (.root ⟨0⟩) (.member "space")).2

/-- The second scope of a namespace reads a name of the first one that is unbound for it. -/
theorem exists_not_lookupsAgree :
    ∃ tree : ScopeTree, (root (.silent 0 0) .empty .empty).Leads tree ∧
      ∃ scope ∈ tree.scopes, ¬ tree.LookupsAgree scope "x" := by
  have grown : (root (.silent 0 0) .empty .empty).Leads reentered :=
    ((Leads.refl.perform (Array.mem_def.mpr (.head _)) (.member "space")).perform
      (Array.mem_def.mpr (.tail _ (.head _))) (.add "x" (.constant (.bool true)))).perform
      (Array.mem_def.mpr (.head _)) (.member "space")
  refine ⟨reentered, grown, .member ⟨2⟩ "space" (.root ⟨0⟩),
    Array.mem_def.mpr (.tail _ (.tail _ (.head _))), fun agree => ?_⟩
  have bound : reentered.world.store.isBound (.member ⟨2⟩ "space" (.root ⟨0⟩)) "x" = true :=
    agree.bound.mpr ⟨.bool true, rfl⟩
  exact absurd bound (by decide +kernel)

end ScopeTree

end TreeScript
