import TreeScript.Proofs.Enclosure
import TreeScript.Proofs.Hostless
import TreeScript.Store.Binding

/-!
# Sound stores

A store is sound if every function that a value in it refers to exists, if the
statements of every closure are well-scoped inside a function, and if no
function is one of the host.  How many functions there are is part of the
statement: a value that is known among some functions stays so when there are
more.
-/

namespace TreeScript

/-- A value whose functions are among the first `count`. -/
def Value.IsKnown (count : Nat) : Value → Prop
  | .fn function => function.index < count
  | .errorWith _ information => information.IsKnown count
  | _ => True

theorem Value.IsKnown.mono {count more : Nat} {value : Value} (known : value.IsKnown count)
    (grows : count ≤ more) :
    value.IsKnown more := by
  induction value with
  | fn function => exact Nat.lt_of_lt_of_le known grows
  | errorWith name information inductive_step => exact inductive_step known
  | _ => trivial

/-- A body that only leaves what is inside of it. -/
def Body.IsSound (count : Nat) : Body → Prop
  | .closure _ fallbacks statements _ =>
      (∀ value, some value ∈ fallbacks → value.IsKnown count) ∧
        Node.areWellScoped statements .function
  | .native function => (Body.native function).Hostless

theorem Body.IsSound.mono {count more : Nat} {body : Body} (sound : body.IsSound count)
    (grows : count ≤ more) :
    body.IsSound more := by
  cases body with
  | closure parameters fallbacks statements scope =>
      exact ⟨fun value mem => (sound.1 value mem).mono grows, sound.2⟩
  | native native => exact sound

namespace Dict

variable {α : Type}

theorem find?_empty_ne_some (name : String) (found : α) :
    (empty : Dict α).find? name ≠ some found := by
  rw [find?_empty]
  nofun

/-- What an extended dictionary binds is the new value, or was bound before. -/
theorem eq_or_find?_of_insert {dict : Dict α} {name other : String} {value found : α}
    (bound : (dict.insert name value).find? other = some found) :
    found = value ∨ dict.find? other = some found := by
  by_cases same : other = name
  · subst same
    rw [find?_insert_self] at bound
    exact .inl (Option.some.inj bound).symm
  · rw [find?_insert_of_ne dict value same] at bound
    exact .inr bound

theorem mem_of_find?_foldl {entries : List (String × α)} {dict : Dict α} {name : String}
    {found : α}
    (bound : (entries.foldl (fun dict entry => dict.insert entry.1 entry.2) dict).find? name =
      some found) :
    (∃ entry ∈ entries, entry.2 = found) ∨ dict.find? name = some found := by
  induction entries generalizing dict with
  | nil => exact .inr bound
  | cons entry rest inductive_step =>
      rcases inductive_step bound with ⟨other, mem, same⟩ | bound
      · exact .inl ⟨other, List.mem_cons_of_mem entry mem, same⟩
      · rcases eq_or_find?_of_insert bound with same | bound
        · exact .inl ⟨entry, List.mem_cons_self, same.symm⟩
        · exact .inr bound

/-- What a dictionary of a list binds is in the list. -/
theorem mem_of_find?_ofList {entries : List (String × α)} {name : String} {found : α}
    (bound : (ofList entries).find? name = some found) :
    ∃ entry ∈ entries, entry.2 = found := by
  rcases mem_of_find?_foldl bound with listed | bound
  · exact listed
  · exact (find?_empty_ne_some name found bound).elim

end Dict

namespace Store

/-- A store with `count` functions that all its values know, and that only leave themselves. -/
structure Sound (count : Nat) (store : Store) : Prop where
  size : store.functions.size = count
  functions : ∀ (function : FunctionId) (found : Function),
    store.function? function = some found → found.body.IsSound count
  items : ∀ (array : ArrayId), ∀ value ∈ store.items array, value.IsKnown count
  entries : ∀ (object : ObjectId) (name : String) (value : Value),
    (store.entries object).find? name = some value → value.IsKnown count
  bindings : ∀ (layer : LayerId) (name : String) (bound : Variable),
    (store.bindings layer).find? name = some bound → bound.value.IsKnown count

theorem sound_empty : empty.Sound 0 where
  size := rfl
  functions := nofun
  items _ value mem := (Array.not_mem_empty value mem).elim
  entries _ name value bound := (Dict.find?_empty_ne_some name value bound).elim
  bindings _ name bound found := (Dict.find?_empty_ne_some name bound found).elim

namespace Sound

variable {count : Nat} {store : Store} (sound : store.Sound count)

include sound

/-- A function that is known exists. -/
theorem exists_function {function : FunctionId} (known : (Value.fn function).IsKnown count) :
    ∃ found, store.function? function = some found ∧ found.body.IsSound count := by
  have present : function.index < store.functions.size := sound.size.symm ▸ known
  have found : store.function? function = some store.functions[function.index] :=
    Array.getElem?_eq_getElem present
  exact ⟨_, found, sound.functions function _ found⟩

theorem entry (object : ObjectId) (name : String) : (store.entry object name).IsKnown count := by
  unfold Store.entry
  cases bound : (store.entries object).find? name with
  | none => trivial
  | some value => exact sound.entries object name value bound

theorem findBinding {name : String} {layers : List LayerId} {layer : LayerId} {bound : Variable}
    (found : store.findBinding? name layers = some (layer, bound)) :
    bound.value.IsKnown count := by
  induction layers with
  | nil => cases found
  | cons first outer inductive_step =>
      rw [findBinding?] at found
      split at found
      · rename_i known present
        cases found
        exact sound.bindings layer name _ present
      · exact inductive_step found

theorem binding {scope : Scope} {name : String} {bound : Variable}
    (found : store.binding? scope name = some bound) :
    bound.value.IsKnown count := by
  rcases Option.map_eq_some_iff.mp found with ⟨⟨layer, known⟩, present, rfl⟩
  exact sound.findBinding present

/-- What reading a name finds is known. -/
theorem lookup {scope : Scope} {name : String} {bound : Variable}
    (found : store.lookup? scope name = some bound) :
    bound.value.IsKnown count := by
  rcases Option.or_eq_some_iff.mp found with present | ⟨-, present⟩
  · exact sound.binding present
  · split at present
    · cases present
    · exact sound.binding present

/-! ## Allocation -/

theorem newArray {items : Array Value} (known : ∀ value ∈ items, value.IsKnown count) :
    (store.newArray items).1.Sound count where
  size := sound.size
  functions := sound.functions
  items array value mem := by
    rw [Store.items, Store.newArray, Array.getElem?_push] at mem
    split at mem
    · exact known value mem
    · exact sound.items array value mem
  entries := sound.entries
  bindings := sound.bindings

theorem newObject {entries : Dict Value}
    (known : ∀ name value, entries.find? name = some value → value.IsKnown count) :
    (store.newObject entries).1.Sound count where
  size := sound.size
  functions := sound.functions
  items := sound.items
  entries object name value bound := by
    rw [Store.entries, Store.newObject, Array.getElem?_push] at bound
    split at bound
    · exact known name value bound
    · exact sound.entries object name value bound
  bindings := sound.bindings

theorem newLayer {bindings : Dict Variable}
    (known : ∀ name bound, bindings.find? name = some bound → bound.value.IsKnown count) :
    (store.newLayer bindings).1.Sound count where
  size := sound.size
  functions := sound.functions
  items := sound.items
  entries := sound.entries
  bindings layer name bound found := by
    rw [Store.bindings, Store.newLayer, Array.getElem?_push] at found
    split at found
    · exact known name bound found
    · exact sound.bindings layer name bound found

/-- A new function is one more that there is. -/
theorem newFunction (name : Option String) {body : Body} (bodySound : body.IsSound count) :
    (store.newFunction name body).1.Sound (count + 1) where
  size := by
    rw [Store.newFunction, Array.size_push, sound.size]
  functions function found present := by
    rw [function?, Store.newFunction, Array.getElem?_push] at present
    split at present
    · cases present
      exact bodySound.mono (Nat.le_succ count)
    · exact (sound.functions function found present).mono (Nat.le_succ count)
  items array value mem := (sound.items array value mem).mono (Nat.le_succ count)
  entries object name value bound :=
    (sound.entries object name value bound).mono (Nat.le_succ count)
  bindings layer name bound found :=
    (sound.bindings layer name bound found).mono (Nat.le_succ count)

/-! ## Change -/

theorem modifyArray (array : ArrayId) {change : ArrayCell → ArrayCell}
    (known : ∀ cell : ArrayCell, (∀ value ∈ cell.items, value.IsKnown count) →
      ∀ value ∈ (change cell).items, value.IsKnown count) :
    Sound count { store with arrays := store.arrays.modify array.index change } where
  size := sound.size
  functions := sound.functions
  items other value mem := by
    have before := sound.items other
    unfold Store.items at before
    rw [Store.items, Array.getElem?_modify] at mem
    split at mem
    · cases cell : store.arrays[other.index]? with
      | none =>
          rw [cell] at mem
          exact (Array.not_mem_empty value mem).elim
      | some found =>
          rw [cell] at mem before
          exact known found before value mem
    · exact before value mem
  entries := sound.entries
  bindings := sound.bindings

theorem modifyItems (array : ArrayId) {change : Array Value → Array Value}
    (known : ∀ items : Array Value, (∀ value ∈ items, value.IsKnown count) →
      ∀ value ∈ change items, value.IsKnown count) :
    (store.modifyItems array change).Sound count :=
  sound.modifyArray array fun cell before => known cell.items before

theorem modifyObject (object : ObjectId) {change : ObjectCell → ObjectCell}
    (known : ∀ cell : ObjectCell,
      (∀ name value, cell.entries.find? name = some value → value.IsKnown count) →
      ∀ name value, (change cell).entries.find? name = some value → value.IsKnown count) :
    Sound count { store with objects := store.objects.modify object.index change } where
  size := sound.size
  functions := sound.functions
  items := sound.items
  entries other name value bound := by
    have before := sound.entries other
    unfold Store.entries at before
    rw [Store.entries, Array.getElem?_modify] at bound
    split at bound
    · cases cell : store.objects[other.index]? with
      | none =>
          rw [cell] at bound before
          exact before name value bound
      | some found =>
          rw [cell] at bound before
          exact known found before name value bound
    · exact before name value bound
  bindings := sound.bindings

theorem setEntry (object : ObjectId) (name : String) {value : Value}
    (known : value.IsKnown count) :
    (store.setEntry object name value).Sound count := by
  refine sound.modifyObject object ?_
  intro cell before other found bound
  rcases Dict.eq_or_find?_of_insert bound with rfl | bound
  · exact known
  · exact before other found bound

theorem modifyLayer (layer : LayerId) {change : Dict Variable → Dict Variable}
    (known : ∀ bindings : Dict Variable,
      (∀ name bound, bindings.find? name = some bound → bound.value.IsKnown count) →
      ∀ name bound, (change bindings).find? name = some bound → bound.value.IsKnown count) :
    (store.modifyLayer layer change).Sound count where
  size := sound.size
  functions := sound.functions
  items := sound.items
  entries := sound.entries
  bindings other name bound found := by
    have before := sound.bindings other
    unfold Store.bindings at before
    rw [Store.bindings, Store.modifyLayer, Array.getElem?_modify] at found
    split at found
    · cases cell : store.layers[other.index]? with
      | none =>
          rw [cell] at found before
          exact before name bound found
      | some bindings =>
          rw [cell] at found before
          exact known bindings before name bound found
    · exact before name bound found

/-- Binding a name in a layer to a value that is known. -/
theorem bind (layer : LayerId) (name : String) {bound : Variable}
    (known : bound.value.IsKnown count) :
    (store.modifyLayer layer fun bindings => bindings.insert name bound).Sound count := by
  refine sound.modifyLayer layer ?_
  intro bindings before other found present
  rcases Dict.eq_or_find?_of_insert present with rfl | present
  · exact known
  · exact before other found present

theorem describe (layer : LayerId) (name : String) (attributes : List Attribute) :
    (store.describe layer name attributes).Sound count := by
  unfold Store.describe
  split
  · rename_i found present
    exact sound.bind layer name (sound.bindings layer name found present)
  · exact sound

/-- Changing functions in everything but their bodies. -/
theorem modifyFunction (function : FunctionId) {change : Function → Function}
    (keeps : ∀ found, (change found).body = found.body) :
    Sound count { store with functions := store.functions.modify function.index change } where
  size := by
    rw [Array.size_modify]
    exact sound.size
  functions other found present := by
    rw [function?, Array.getElem?_modify] at present
    split at present
    · rcases Option.map_eq_some_iff.mp present with ⟨known, before, rfl⟩
      rw [keeps]
      exact sound.functions other known before
    · exact sound.functions other found present
  items := sound.items
  entries := sound.entries
  bindings := sound.bindings

theorem nameFunction (function : FunctionId) (name : String) :
    (store.nameFunction function name).Sound count :=
  sound.modifyFunction function fun _ => rfl

theorem setAttributes (value : Value) (attributes : List Attribute) :
    (store.setAttributes value attributes).Sound count := by
  cases value with
  | arr array => exact sound.modifyArray array fun _ before => before
  | obj object => exact sound.modifyObject object fun _ before => before
  | fn function => exact sound.modifyFunction function fun _ => rfl
  | _ => exact sound

end Sound

end Store

end TreeScript
