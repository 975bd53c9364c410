import TreeScript.Proofs.LinkedStores

/-!
# What belongs to a link

A run that is mirrored in a store shares it with other runs.  `Store.Leaves`
says that a change of the store is confined to what belongs to a link: arrays
and objects that are linked, linked functions that have no name yet, and
assignable bindings of the names of the link in linked layers.

Two links are apart in a store if they have nothing in common but functions
that have got their names, and layers in which every name in common is bound
for good.  Then what is confined to the one link leaves what is linked by the
other as it is.
-/

namespace TreeScript

/-- A change of a store that is confined to what belongs to a link. -/
structure Store.Leaves (names : String → Bool) (link : Link) (before after : Store) : Prop where
  grows (kind : HandleKind) : before.size kind ≤ after.size kind
  arrays {index : Nat} (given : index < before.arrays.size) :
    after.arrays[index]? = before.arrays[index]? ∨ ∃ place, link .array place index
  objects {index : Nat} (given : index < before.objects.size) :
    after.objects[index]? = before.objects[index]? ∨ ∃ place, link .object place index
  functions {index : Nat} (given : index < before.functions.size) :
    after.functions[index]? = before.functions[index]? ∨
      (∃ place, link .function place index) ∧
        ∀ function ∈ before.functions[index]?, function.name = none
  layers {index : Nat} (given : index < before.layers.size) (name : String) :
    (after.bindings ⟨index⟩).find? name = (before.bindings ⟨index⟩).find? name ∨
      (∃ place, link .layer place index) ∧ names name ∧
        ∀ bound ∈ (before.bindings ⟨index⟩).find? name, bound.isMutable = true

/-- Two links that share only what neither of them changes. -/
structure Link.Apart (names others : String → Bool) (link foreign : Link) (store : Store) :
    Prop where
  arrays {index place place' : Nat} :
    link .array place index → foreign .array place' index → False
  objects {index place place' : Nat} :
    link .object place index → foreign .object place' index → False
  functions {index place place' : Nat} :
    link .function place index → foreign .function place' index →
      ∃ function ∈ store.functions[index]?, function.name ≠ none
  layers {index place place' : Nat} {name : String} :
    link .layer place index → foreign .layer place' index → names name → others name →
      ∃ bound ∈ (store.bindings ⟨index⟩).find? name, bound.isMutable = false

namespace Store

variable {names others : String → Bool} {link wider foreign : Link}
  {store other before between after : Store}

/-! ## Changes that are confined to a link -/

theorem leaves_refl (names : String → Bool) (link : Link) (store : Store) :
    store.Leaves names link store where
  grows _ := Nat.le_refl _
  arrays _ := .inl rfl
  objects _ := .inl rfl
  functions _ := .inl rfl
  layers _ _ := .inl rfl

/-- What belongs to a link that has been extended belonged to it, or is new. -/
theorem Leaves.trans (first : before.Leaves names link between)
    (extension : link.Extends store before wider)
    (second : between.Leaves names wider after) :
    before.Leaves names link after := by
  have earlier {kind : HandleKind} {index place : Nat} (given : index < before.size kind)
      (pair : wider kind place index) : link kind place index :=
    (extension.fresh pair).resolve_right fun above => Nat.not_le_of_lt given above.2
  refine ⟨fun kind => Nat.le_trans (first.grows kind) (second.grows kind), fun {index} given => ?_,
    fun {index} given => ?_, fun {index} given => ?_, fun {index} given name => ?_⟩
  · rcases first.arrays given with same | own
    · have kept := Nat.lt_of_lt_of_le given (first.grows .array)
      rcases second.arrays kept with same' | ⟨place, pair⟩
      · exact .inl (same'.trans same)
      · exact .inr ⟨place, earlier given pair⟩
    · exact .inr own
  · rcases first.objects given with same | own
    · rcases second.objects (Nat.lt_of_lt_of_le given (first.grows .object)) with
        same' | ⟨place, pair⟩
      · exact .inl (same'.trans same)
      · exact .inr ⟨place, earlier given pair⟩
    · exact .inr own
  · rcases first.functions given with same | own
    · rcases second.functions (Nat.lt_of_lt_of_le given (first.grows .function)) with
        same' | ⟨⟨place, pair⟩, unnamed⟩
      · exact .inl (same'.trans same)
      · exact .inr ⟨⟨place, earlier given pair⟩, same ▸ unnamed⟩
    · exact .inr own
  · rcases first.layers given name with same | own
    · rcases second.layers (Nat.lt_of_lt_of_le given (first.grows .layer)) name with
        same' | ⟨⟨place, pair⟩, named, assignable⟩
      · exact .inl (same'.trans same)
      · exact .inr ⟨⟨place, earlier given pair⟩, named, same ▸ assignable⟩
    · exact .inr own

theorem leaves_modifyItems {array array' : ArrayId}
    (handles : link .array array.index array'.index) (change : Array Value → Array Value) :
    store.Leaves names link (store.modifyItems array' change) where
  grows kind := Nat.le_of_eq (size_modifyItems store _ _ kind).symm
  arrays {index} _ := by
    rw [modifyItems, Array.getElem?_modify]
    split
    · rename_i here
      exact .inr ⟨array.index, here ▸ handles⟩
    · exact .inl rfl
  objects _ := .inl rfl
  functions _ := .inl rfl
  layers _ _ := .inl rfl

theorem leaves_setEntry {object object' : ObjectId}
    (handles : link .object object.index object'.index) (name : String) (value : Value) :
    store.Leaves names link (store.setEntry object' name value) where
  grows kind := Nat.le_of_eq (size_setEntry store _ _ _ kind).symm
  arrays _ := .inl rfl
  objects {index} _ := by
    rw [setEntry, Array.getElem?_modify]
    split
    · rename_i here
      exact .inr ⟨object.index, here ▸ handles⟩
    · exact .inl rfl
  functions _ := .inl rfl
  layers _ _ := .inl rfl

/-- A function that has no name yet may be named. -/
theorem leaves_nameFunction {function function' : FunctionId}
    (handles : link .function function.index function'.index) (name : String)
    (unnamed : ∀ cell ∈ store.function? function', cell.name = none) :
    store.Leaves names link (store.nameFunction function' name) where
  grows kind := Nat.le_of_eq (size_nameFunction store _ _ kind).symm
  arrays _ := .inl rfl
  objects _ := .inl rfl
  functions {index} _ := by
    rw [nameFunction, Array.getElem?_modify]
    split
    · rename_i here
      subst here
      exact .inr ⟨⟨function.index, handles⟩, unnamed⟩
    · exact .inl rfl
  layers _ _ := .inl rfl

/-- An assignable binding may be replaced, and a name that is not bound may be. -/
theorem leaves_modifyLayer {layer layer' : LayerId}
    (handles : link .layer layer.index layer'.index) {name : String} (named : names name)
    (assignable : ∀ bound ∈ (store.bindings layer').find? name, bound.isMutable = true)
    (bound : Variable) :
    store.Leaves names link
      (store.modifyLayer layer' fun bindings => bindings.insert name bound) where
  grows kind := Nat.le_of_eq (size_modifyLayer store _ _ kind).symm
  arrays _ := .inl rfl
  objects _ := .inl rfl
  functions _ := .inl rfl
  layers {index} given looked := by
    by_cases here : layer'.index = index ∧ looked = name
    · obtain ⟨rfl, rfl⟩ := here
      exact .inr ⟨⟨layer.index, handles⟩, named, assignable⟩
    · refine .inl ?_
      unfold bindings modifyLayer
      rw [Array.getElem?_modify]
      split
      · rename_i there
        cases store.layers[index]? with
        | none => rfl
        | some dict =>
            exact Dict.find?_insert_of_ne dict bound fun same => here ⟨there, same⟩
      · rfl

theorem leaves_newArray (items : Array Value) :
    store.Leaves names link (store.newArray items).1 where
  grows := (gives_newArray store items).grows
  arrays given :=
    .inl (Array.getElem?_push_lt given ▸ (Array.getElem?_eq_getElem given).symm)
  objects _ := .inl rfl
  functions _ := .inl rfl
  layers _ _ := .inl rfl

theorem leaves_newObject (entries : Dict Value) :
    store.Leaves names link (store.newObject entries).1 where
  grows := (gives_newObject store entries).grows
  arrays _ := .inl rfl
  objects given :=
    .inl (Array.getElem?_push_lt given ▸ (Array.getElem?_eq_getElem given).symm)
  functions _ := .inl rfl
  layers _ _ := .inl rfl

theorem leaves_newFunction (name : Option String) (body : Body) :
    store.Leaves names link (store.newFunction name body).1 where
  grows := (gives_newFunction store name body).grows
  arrays _ := .inl rfl
  objects _ := .inl rfl
  functions given :=
    .inl (Array.getElem?_push_lt given ▸ (Array.getElem?_eq_getElem given).symm)
  layers _ _ := .inl rfl

theorem leaves_newLayer (bindings : Dict Variable) :
    store.Leaves names link (store.newLayer bindings).1 where
  grows := (gives_newLayer store bindings).grows
  arrays _ := .inl rfl
  objects _ := .inl rfl
  functions _ := .inl rfl
  layers {index} given name := by
    refine .inl ?_
    unfold Store.bindings newLayer
    rw [Array.getElem?_push, if_neg (Nat.ne_of_lt given)]

end Store

/-! ## Links that are apart -/

namespace Link

variable {names others : String → Bool} {link wider foreign : Link}
  {store other before after : Store}

theorem Apart.symm (apart : link.Apart names others foreign store) :
    foreign.Apart others names link store where
  arrays own own' := apart.arrays own' own
  objects own own' := apart.objects own' own
  functions own own' := apart.functions own' own
  layers own own' named named' := apart.layers own' own named' named

/-- Links stay apart when one of them is extended along with a change that is confined to it. -/
theorem Apart.leaves (apart : link.Apart names others foreign before)
    (inside : ∀ kind place index, foreign kind place index → index < before.size kind)
    (extension : link.Extends store before wider)
    (leaves : before.Leaves names link after) :
    wider.Apart names others foreign after := by
  have earlier {kind : HandleKind} {index place place' : Nat} (pair : wider kind place index)
      (pair' : foreign kind place' index) : link kind place index :=
    (extension.fresh pair).resolve_right fun above =>
      Nat.not_le_of_lt (inside _ _ _ pair') above.2
  refine ⟨fun own own' => apart.arrays (earlier own own') own',
    fun own own' => apart.objects (earlier own own') own', fun own own' => ?_,
    fun own own' named named' => ?_⟩
  · obtain ⟨function, found, given⟩ := apart.functions (earlier own own') own'
    rcases leaves.functions (inside _ _ _ own') with same | ⟨-, unnamed⟩
    · exact ⟨function, same ▸ found, given⟩
    · exact absurd (unnamed function found) given
  · obtain ⟨bound, found, constant⟩ := apart.layers (earlier own own') own' named named'
    rcases leaves.layers (inside _ _ _ own') _ with same | ⟨-, -, assignable⟩
    · exact ⟨bound, same ▸ found, constant⟩
    · exact absurd ((assignable bound found).symm.trans constant) nofun

/-- What is confined to one link leaves what is linked by another one linked. -/
theorem Apart.linked (apart : link.Apart names others foreign before)
    (leaves : before.Leaves names link after)
    (linked : other.Linked others foreign before) (inside : foreign.Inside other before) :
    other.Linked others foreign after where
  matching := linked.matching
  arrays pair := by
    have same := (leaves.arrays (inside _ _ _ pair).2).resolve_right
      fun ⟨_, own⟩ => apart.arrays own pair
    rw [same]
    exact linked.arrays pair
  objects pair := by
    have same := (leaves.objects (inside _ _ _ pair).2).resolve_right
      fun ⟨_, own⟩ => apart.objects own pair
    rw [same]
    exact linked.objects pair
  functions {_ index'} pair := by
    have same : after.functions[index']? = before.functions[index']? := by
      refine (leaves.functions (inside _ _ _ pair).2).resolve_right fun ⟨⟨_, own⟩, unnamed⟩ => ?_
      obtain ⟨function, found, given⟩ := apart.functions own pair
      exact given (unnamed function found)
    rw [same]
    exact linked.functions pair
  layers {index index'} pair := by
    obtain ⟨given, given'⟩ := inside _ _ _ pair
    have given'' : index' < after.layers.size := Nat.lt_of_lt_of_le given' (leaves.grows .layer)
    have bindings := linked.layers pair
    rw [Array.getElem?_eq_getElem given, Array.getElem?_eq_getElem given'] at bindings
    rw [Array.getElem?_eq_getElem given, Array.getElem?_eq_getElem given'']
    refine .some fun name named => ?_
    have same : (after.bindings ⟨index'⟩).find? name = (before.bindings ⟨index'⟩).find? name := by
      refine (leaves.layers given' name).resolve_right fun ⟨⟨_, own⟩, named', assignable⟩ => ?_
      obtain ⟨bound, found, constant⟩ := apart.layers own pair named' named
      exact absurd ((assignable bound found).symm.trans constant) nofun
    have here (store : Store) (held : index' < store.layers.size) :
        store.layers[index'] = store.bindings ⟨index'⟩ := by
      simp [Store.bindings, Array.getElem?_eq_getElem held]
    rw [here after given'', same, ← here before given']
    exact Option.rel_some_some.mp bindings name named

end Link

end TreeScript
