import TreeScript.Proofs.Fresh
import TreeScript.Proofs.Permanence
import TreeScript.ScopeTree

/-!
# Bare and qualified names

A name that is defined inside of namespaces is bound once for each of them and
once outside of them all, under a spelling that names the namespaces in
between.  `ScopeTree.spellings_agree` says that these bindings are all that a
definition adds and that they never drift apart, whatever else is done in the
tree.
-/

namespace TreeScript

/-- A scope with namespaces nested in it, the innermost first, each with its layer. -/
def Scope.within (base : Scope) : List (LayerId × String) → Scope
  | [] => base
  | (layer, space) :: outer => .member layer space (base.within outer)

/-- Whether a scope is the scope of a namespace. -/
def Scope.isNamespace : Scope → Bool
  | .member _ _ _ => true
  | _ => false

/-- Every scope consists of namespaces in a scope that is not the scope of a namespace. -/
theorem Scope.exists_within (scope : Scope) :
    ∃ (base : Scope) (spaces : List (LayerId × String)),
      base.isNamespace = false ∧ scope = base.within spaces := by
  induction scope with
  | root layer => exact ⟨.root layer, [], rfl, rfl⟩
  | child layer outer => exact ⟨.child layer outer, [], rfl, rfl⟩
  | member layer space outer inductive_step =>
      obtain ⟨base, spaces, outermost, rfl⟩ := inductive_step
      exact ⟨base, (layer, space) :: spaces, outermost, rfl⟩

/-- A name with the namespaces in front of it that it lies in, the innermost being the last. -/
def qualified (spaces : List String) (name : String) : String :=
  ":".intercalate (spaces.reverse ++ [name])

namespace Scope

/-- The scope that encloses the innermost namespaces, as many of them as said. -/
def around (base : Scope) (spaces : List (LayerId × String)) (depth : Nat) : Scope :=
  base.within (spaces.drop depth)

/-- How a name of the innermost namespace is spelled outside of some of the namespaces. -/
def spelling (spaces : List (LayerId × String)) (name : String) (depth : Nat) : String :=
  qualified ((spaces.take depth).map Prod.snd) name

/-- The layers that a name of the innermost namespace belongs to, with its spelling in each. -/
def spellings (base : Scope) (spaces : List (LayerId × String)) (name : String) :
    List (LayerId × String) :=
  (List.range (spaces.length + 1)).map fun depth =>
    ((base.around spaces depth).layer, spelling spaces name depth)

end Scope

private theorem intercalate_concat (separator last name : String) (texts : List String) :
    separator.intercalate (texts ++ [last ++ separator ++ name]) =
      separator.intercalate (texts ++ [last, name]) := by
  induction texts with
  | nil => rfl
  | cons text rest inductive_step =>
      rw [List.cons_append, List.cons_append, String.intercalate_cons_of_ne_nil (by simp),
        String.intercalate_cons_of_ne_nil (by simp), inductive_step]

/-- Qualifying a name with one namespace after the other, from the inside outwards. -/
theorem qualified_cons (space : String) (outer : List String) (name : String) :
    qualified (space :: outer) name = qualified outer (space ++ ":" ++ name) := by
  rw [qualified, qualified, List.reverse_cons, List.append_assoc, List.singleton_append,
    intercalate_concat]

example : qualified ["inner", "outer"] "x" = "outer:inner:x" := by decide +kernel

/-- A definition is registered in the scope itself and around each of its namespaces. -/
theorem Scope.registrations_within {base : Scope} (outermost : base.isNamespace = false)
    (spaces : List (LayerId × String)) (name : String) :
    (base.within spaces).registrations name =
      (List.range (spaces.length + 1)).map fun depth =>
        (base.around spaces depth, spelling spaces name depth) := by
  induction spaces generalizing name with
  | nil =>
      cases base with
      | member layer space outer => cases outermost
      | _ => rfl
  | cons space outer inductive_step =>
      rw [List.length_cons, List.range_succ_eq_map, List.map_cons, List.map_map]
      refine congrArg ((base.within (space :: outer), name) :: ·) ?_
      refine (inductive_step (space.2 ++ ":" ++ name)).trans (List.map_congr_left ?_)
      intro depth _
      exact congrArg (Prod.mk _) (qualified_cons space.2 _ name).symm

theorem Scope.exists_layers (scope : Scope) : ∃ outer, scope.layers = scope.layer :: outer := by
  cases scope <;> exact ⟨_, rfl⟩

/-- A name is registered in its scope, before any others. -/
theorem Scope.registrations_eq_cons (scope : Scope) (name : String) :
    ∃ rest, scope.registrations name = (scope, name) :: rest := by
  cases scope <;> exact ⟨_, rfl⟩

/-- A definition is registered in layers of the scope. -/
theorem Scope.layer_mem_of_registration (scope : Scope) {name : String}
    {place : Scope × String}
    (mem : place ∈ scope.registrations name) : place.1.layer ∈ scope.layers := by
  induction scope generalizing name with
  | root layer | child layer outer =>
      rw [List.mem_singleton.mp mem]
      exact layer_mem_layers _
  | member layer space outer inductive_step =>
      rcases List.mem_cons.mp mem with rfl | around
      · exact layer_mem_layers _
      · exact List.mem_cons_of_mem layer (inductive_step around)

/-- The places of a definition are the layers with their spellings. -/
theorem Scope.places_within {base : Scope} (outermost : base.isNamespace = false)
    (spaces : List (LayerId × String)) (name : String) :
    ((base.within spaces).registrations name).map (fun place => (place.1.layer, place.2)) =
      base.spellings spaces name := by
  rw [registrations_within outermost, List.map_map]
  rfl

/-! ## What a definition adds -/

namespace Edit

variable (options : Options)

/-- A definition that succeeds has bound its first place, which was free, and then the others. -/
theorem register_cons_ok {bound : Variable} {place : Scope × String}
    {rest : List (Scope × String)} {world after : World}
    (registered : (register options bound (place :: rest)).run.run world = (.ok (), after)) :
    (world.store.bindings place.1.layer).find? place.2 = none ∧
      ∃ between : World,
        between.store = (world.store.modifyLayer place.1.layer fun bindings =>
          bindings.insert place.2 bound) ∧
        (register options bound rest).run.run between = (.ok (), after) := by
  generalize logged : World.log options "var:add" (some place.1.name) (some place.2)
    (some bound.value) world = noted
  have store_noted : noted.store = world.store :=
    logged ▸ World.store_log options "var:add" _ _ _ world
  have ran : (register options bound (place :: rest)).run.run world =
      ((do
        if (noted.store.bindings place.1.layer).contains place.2 then
          throw (Error.of (.alreadyDefined place.2 place.1.name))
        modify fun world =>
          world.mapStore fun store =>
            store.modifyLayer place.1.layer fun bindings => bindings.insert place.2 bound
        register options bound rest : Edit Unit).run.run noted) :=
    logged ▸ rfl
  rw [ran, store_noted] at registered
  split at registered
  · cases registered
  · rename_i absent
    refine ⟨Option.not_isSome_iff_eq_none.mp absent, _, ?_, registered⟩
    exact congrArg
      (fun store : Store => store.modifyLayer place.1.layer fun bindings =>
        bindings.insert place.2 bound) store_noted

/--
A definition that succeeds finds each of its places free, and no place twice;
it binds the variable in all of them and changes nothing in any other place.
-/
theorem register_ok {bound : Variable} {registrations : List (Scope × String)}
    {world after : World}
    (inside : ∀ place ∈ registrations, place.1.layer.index < world.store.layers.size)
    (registered : (register options bound registrations).run.run world = (.ok (), after)) :
    let places := registrations.map fun place => (place.1.layer, place.2)
    places.Nodup ∧
      (∀ place ∈ places, (world.store.bindings place.1).find? place.2 = none) ∧
      ∀ layer sought, (after.store.bindings layer).find? sought =
        if (layer, sought) ∈ places then some bound
        else (world.store.bindings layer).find? sought := by
  induction registrations generalizing world with
  | nil =>
      cases registered
      exact ⟨.nil, fun _ mem => (List.not_mem_nil mem).elim, fun _ _ => rfl⟩
  | cons place rest inductive_step =>
      rcases List.forall_mem_cons.mp inside with ⟨insideFirst, insideRest⟩
      rcases register_cons_ok options registered with ⟨missing, between, changed, goesOn⟩
      have found : ∀ layer sought, (between.store.bindings layer).find? sought =
          if (layer, sought) = (place.1.layer, place.2) then some bound
          else (world.store.bindings layer).find? sought := by
        intro layer sought
        rw [changed, Store.find?_bind]
        simp only [insideFirst, and_true, Prod.mk.injEq]
      have sizes : between.store.layers.size = world.store.layers.size := by
        rw [changed]
        exact Array.size_modify
      obtain ⟨nodup, free, added⟩ :=
        inductive_step (fun other mem => sizes ▸ insideRest other mem) goesOn
      have apart : ∀ other ∈ rest.map fun place => (place.1.layer, place.2),
          other ≠ (place.1.layer, place.2) := by
        rintro other mem rfl
        have here := free _ mem
        rw [found, if_pos rfl] at here
        cases here
      refine ⟨List.nodup_cons.mpr ⟨fun mem => apart _ mem rfl, nodup⟩, ?_, ?_⟩
      · refine List.forall_mem_cons.mpr ⟨missing, fun other mem => ?_⟩
        rw [← free other mem, found, if_neg (apart other mem)]
      · intro layer sought
        rw [added, found, List.map_cons]
        simp only [List.mem_cons]
        split <;> rename_i later
        · rw [if_pos (.inr later)]
        · split <;> rename_i first
          · rw [if_pos (.inl first)]
          · rw [if_neg (not_or.mpr ⟨first, later⟩)]

end Edit

/-! ## Trees that grow -/

namespace ScopeTree

variable {tree start : ScopeTree}

/-- The trees that a tree can become, by operations at its scopes that succeed or fail. -/
inductive Leads (start : ScopeTree) : ScopeTree → Prop
  | refl : Leads start start
  | perform {tree : ScopeTree} (leads : Leads start tree) {scope : Scope}
      (present : scope ∈ tree.scopes) (operation : ScopeOperation) :
      Leads start (tree.perform scope operation).2

section Edits

variable {α : Type} (edit : Edit α) (result : α → ScopeResult)

theorem edit_of_ok {value : α} {after : World}
    (succeeded : edit.run.run tree.world = (.ok value, after)) :
    tree.edit edit result = (result value, { tree with world := after }) := by
  rw [ScopeTree.edit, succeeded]

theorem edit_snd (tree : ScopeTree) :
    (tree.edit edit result).2 = { tree with world := (edit.run.run tree.world).2 } := by
  rw [ScopeTree.edit]
  generalize edit.run.run tree.world = ran
  rcases ran with ⟨error | value, after⟩ <;> rfl

theorem exists_ok_of_edit {value : ScopeResult} {after : ScopeTree}
    (silent : ∀ error, value ≠ .failed error)
    (edited : tree.edit edit result = (value, after)) :
    ∃ found, edit.run.run tree.world = (.ok found, after.world) := by
  generalize ran : edit.run.run tree.world = outcome
  rw [ScopeTree.edit, ran] at edited
  rcases outcome with ⟨error | found, reached⟩
  · cases edited
    exact (silent error rfl).elim
  · cases edited
    exact ⟨found, rfl⟩

end Edits

/-- Whatever is done at a scope, no layer and no binding gets lost. -/
theorem grows_perform (tree : ScopeTree) (scope : Scope) (operation : ScopeOperation) :
    tree.world.store.Grows (fun _ _ _ => True)
      (tree.perform scope operation).2.world.store := by
  cases operation with
  | child bindings => exact tree.world.store.grows_newLayer bindings
  | member space => exact tree.world.store.grows_newLayer .empty
  | add name bound =>
      rw [perform, edit_snd]
      exact Edit.relates_register tree.options (Store.withstands_grows _) (fun _ _ => trivial)
        tree.world
  | assign name value =>
      rw [perform, edit_snd]
      exact Edit.relates_assign tree.options (Store.withstands_grows _) scope name value tree.world
  | get name =>
      rw [perform, edit_snd]
      exact Edit.relates_readName tree.options (Store.withstands_grows _) scope name tree.world

theorem Leads.grows (leads : start.Leads tree) :
    start.world.store.Grows (fun _ _ _ => True) tree.world.store := by
  induction leads with
  | refl => exact .refl start.world.store
  | perform _ _ operation inductive_step =>
      exact inductive_step.trans (grows_perform _ _ operation) fun _ _ _ _ _ => trivial

/-- Every scope of a tree is made of layers that there are. -/
def IsRooted (tree : ScopeTree) : Prop :=
  ∀ scope ∈ tree.scopes, ∀ layer ∈ scope.layers, layer.index < tree.world.store.layers.size

theorem isRooted_root (options : Options) (store : Store) (bindings : Dict Variable) :
    (root options store bindings).IsRooted := by
  intro scope present layer mem
  obtain rfl : scope = .root ⟨store.layers.size⟩ := List.mem_singleton.mp (Array.mem_def.mp present)
  obtain rfl : layer = ⟨store.layers.size⟩ := List.mem_singleton.mp mem
  show store.layers.size < (store.layers.push bindings).size
  rw [Array.size_push]
  exact Nat.lt_succ_self _

/-- A new scope lies on a scope of the tree, with a layer of its own. -/
theorem IsRooted.addScope (rooted : tree.IsRooted) {scope : Scope} (present : scope ∈ tree.scopes)
    (bindings : Dict Variable) {make : LayerId → Scope}
    (made : ∀ layer, (make layer).layers = layer :: scope.layers) :
    (tree.addScope bindings make).2.IsRooted := by
  have sizes : (tree.addScope bindings make).2.world.store.layers.size =
      tree.world.store.layers.size + 1 := Array.size_push ..
  intro other otherPresent layer mem
  rw [sizes]
  rcases Array.mem_push.mp otherPresent with old | rfl
  · exact Nat.lt_succ_of_lt (rooted other old layer mem)
  · rw [made] at mem
    rcases List.mem_cons.mp mem with rfl | outer
    · exact Nat.lt_succ_self _
    · exact Nat.lt_succ_of_lt (rooted scope present layer outer)

theorem IsRooted.perform (rooted : tree.IsRooted) {scope : Scope} (present : scope ∈ tree.scopes)
    (operation : ScopeOperation) : (tree.perform scope operation).2.IsRooted := by
  have grown := (grows_perform tree scope operation).layers
  cases operation with
  | child bindings => exact rooted.addScope present bindings fun _ => rfl
  | member space => exact rooted.addScope present .empty fun _ => rfl
  | _ =>
      rw [ScopeTree.perform, edit_snd] at grown ⊢
      exact fun other mem layer inner => Nat.lt_of_lt_of_le (rooted other mem layer inner) grown

theorem Leads.isRooted (rooted : start.IsRooted) (leads : start.Leads tree) : tree.IsRooted := by
  induction leads with
  | refl => exact rooted
  | perform _ present operation inductive_step => exact inductive_step.perform present operation

/-- A name that the innermost layer of a scope binds is found there. -/
theorem perform_get (tree : ScopeTree) {scope : Scope} {name : String} {bound : Variable}
    (found : (tree.world.store.bindings scope.layer).find? name = some bound) :
    (tree.perform scope (.get name)).1 = .value bound.value := by
  have innermost : tree.world.store.findBinding? name scope.layers = some (scope.layer, bound) := by
    obtain ⟨outer, layers⟩ := scope.exists_layers
    rw [layers, Store.findBinding?, found]
  have lookedUp : tree.world.store.lookup? scope name = some bound := by
    rw [Store.lookup?, Store.binding?, innermost]
    rfl
  have ran := Edit.run_readName tree.options scope name tree.world
  rw [lookedUp] at ran
  rw [perform, edit_of_ok _ _ ran]

/--
Bare and qualified names agree forever.  In a tree that has grown from a root, a
variable that is not mutable is defined in a scope, with namespaces from the
scope outwards to the next scope that is not the scope of a namespace; every scope
consists of such namespaces in such a scope (`Scope.exists_within`).  If this succeeds,
then no place of the name was taken, the definition binds the name in its places and
changes nothing in any other, and whatever happens in the tree afterwards, each of
the scopes gives the value under the spelling used there.
-/
theorem spellings_agree {options : Options} {store : Store} {bindings : Dict Variable}
    {tree after : ScopeTree} {base : Scope} {spaces : List (LayerId × String)} {name : String}
    {bound : Variable}
    (grown : (root options store bindings).Leads tree)
    (present : base.within spaces ∈ tree.scopes)
    (outermost : base.isNamespace = false)
    (constant : bound.isMutable = false)
    (added : tree.perform (base.within spaces) (.add name bound) = (.silent, after)) :
    ((base.spellings spaces name).Nodup ∧
      (∀ place ∈ base.spellings spaces name,
        (tree.world.store.bindings place.1).find? place.2 = none) ∧
      ∀ layer sought, (after.world.store.bindings layer).find? sought =
        if (layer, sought) ∈ base.spellings spaces name then some bound
        else (tree.world.store.bindings layer).find? sought) ∧
    ∀ later, after.Leads later → ∀ depth ≤ spaces.length,
      (later.perform (base.around spaces depth) (.get (Scope.spelling spaces name depth))).1 =
        .value bound.value := by
  obtain ⟨⟨⟩, registered⟩ := exists_ok_of_edit _ _ (fun _ => ScopeResult.noConfusion) added
  have inside := grown.isRooted (isRooted_root options store bindings) _ present
  have places := Scope.places_within outermost spaces name
  have adds := Edit.register_ok tree.options
    (fun place mem => inside _ ((base.within spaces).layer_mem_of_registration mem)) registered
  rw [places] at adds
  refine ⟨adds, fun later leads depth shallow => ?_⟩
  have mem : ((base.around spaces depth).layer, Scope.spelling spaces name depth) ∈
      base.spellings spaces name :=
    List.mem_map.mpr ⟨depth, List.mem_range.mpr (Nat.lt_succ_of_le shallow), rfl⟩
  have foundThen := adds.2.2 (base.around spaces depth).layer (Scope.spelling spaces name depth)
  rw [if_pos mem] at foundThen
  obtain ⟨bound', found, continues⟩ := leads.grows.kept _ _ _ foundThen
  rw [later.perform_get found, continues.value constant]

/-- A tree of two namespaces, one in the other, in the root scope. -/
def nested : ScopeTree :=
  let empty := root (.silent 0 0) .empty .empty
  let outer := (empty.perform (.root ⟨0⟩) (.member "outer")).2
  (outer.perform (.member ⟨1⟩ "outer" (.root ⟨0⟩)) (.member "inner")).2

/-- The namespaces of `nested`, the innermost first. -/
def nestedSpaces : List (LayerId × String) :=
  [(⟨2⟩, "inner"), (⟨1⟩, "outer")]

/-- A name of the inner namespace, an attempt to assign to it, and its spelling in the root. -/
theorem spellings_agree_nested :
    let added := (nested.perform (Scope.within (.root ⟨0⟩) nestedSpaces)
      (.add "x" (.constant (.bool true)))).2
    let later := (added.perform (.root ⟨0⟩) (.assign "outer:inner:x" .null)).2
    (later.perform (.root ⟨0⟩) (.get "outer:inner:x")).1 = .value (.bool true) := by
  have grown : (root (.silent 0 0) .empty .empty).Leads nested :=
    (Leads.refl.perform (Array.mem_def.mpr (.head _)) _).perform
      (Array.mem_def.mpr (.tail _ (.head _))) _
  have present : Scope.within (.root ⟨0⟩) nestedSpaces ∈ nested.scopes :=
    Array.mem_def.mpr (.tail _ (.tail _ (.head _)))
  intro added later
  have succeeds : nested.perform (Scope.within (.root ⟨0⟩) nestedSpaces)
      (.add "x" (.constant (.bool true))) = (.silent, added) := rfl
  have leads : added.Leads later :=
    Leads.refl.perform (Array.mem_def.mpr (.head _)) (.assign "outer:inner:x" .null)
  obtain ⟨-, agree⟩ := spellings_agree grown present rfl rfl succeeds
  exact agree later leads 2 (Nat.le_refl 2)

end ScopeTree

end TreeScript
