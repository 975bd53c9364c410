import Std.Data.ExtTreeMap

/-!
# Dictionaries

A dictionary binds names to values and lists its entries in the order of the
names, so that listing one always gives the order in which objects are printed
and compared.

A dictionary is what looking names up in it says: `Dict.ext_find?` shows that
two dictionaries with the same bindings are the same dictionary.  The look-up
laws of `Dict.insert` are `Dict.find?_insert_self` and
`Dict.find?_insert_of_ne`, and `Dict.mem_entries_iff` with
`Dict.sorted_entries` determine the list of entries.
-/

namespace TreeScript

/-- A finite map from names to values, kept as a balanced search tree. -/
structure Dict (α : Type) where
  tree : Std.ExtTreeMap String α

/-- Entries in strictly increasing order of their names. -/
def SortedEntries {α : Type} (entries : List (String × α)) : Prop :=
  entries.Pairwise fun earlier later => earlier.1 < later.1

namespace Dict

variable {α : Type}

/-- The dictionary without entries. -/
def empty : Dict α :=
  ⟨∅⟩

instance : Inhabited (Dict α) :=
  ⟨empty⟩

/-- The value bound to a name. -/
def find? (dict : Dict α) (name : String) : Option α :=
  dict.tree[name]?

/-- Whether a name is bound. -/
def contains (dict : Dict α) (name : String) : Bool :=
  (dict.find? name).isSome

/-- Bind a name, replacing an earlier binding of it. -/
def insert (dict : Dict α) (name : String) (value : α) : Dict α :=
  ⟨dict.tree.insert name value⟩

/-- Bind the entries of a list one after the other; of two for one name the later counts. -/
def ofList (entries : List (String × α)) : Dict α :=
  entries.foldl (fun dict entry => dict.insert entry.1 entry.2) empty

/-- The bound names with their values, in the order of the names. -/
def entries (dict : Dict α) : List (String × α) :=
  dict.tree.toList

/-- The number of bound names. -/
def size (dict : Dict α) : Nat :=
  dict.tree.size

/-! ## Look-ups -/

/-- Two dictionaries are the same if every name is bound alike. -/
theorem ext_find? {left right : Dict α}
    (alike : ∀ name, left.find? name = right.find? name) :
    left = right := by
  obtain ⟨left⟩ := left
  obtain ⟨right⟩ := right
  exact congrArg Dict.mk (Std.ExtTreeMap.ext_getElem? alike)

@[simp]
theorem find?_empty (name : String) :
    (empty : Dict α).find? name = none :=
  Std.ExtTreeMap.getElem?_empty

@[simp]
theorem find?_insert_self (dict : Dict α) (name : String) (value : α) :
    (dict.insert name value).find? name = some value :=
  Std.ExtTreeMap.getElem?_insert_self

theorem find?_insert_of_ne (dict : Dict α) {name other : String} (value : α)
    (different : other ≠ name) :
    (dict.insert name value).find? other = dict.find? other := by
  unfold find? insert
  rw [Std.ExtTreeMap.getElem?_insert, if_neg]
  intro same
  exact different (Std.LawfulEqCmp.eq_of_compare same).symm

/-! ## Listing -/

/-- The entries are the bindings. -/
theorem mem_entries_iff (dict : Dict α) (name : String) (value : α) :
    (name, value) ∈ dict.entries ↔ dict.find? name = some value :=
  Std.ExtTreeMap.mem_toList_iff_getElem?_eq_some

/-- The entries stand in the order of their names. -/
theorem sorted_entries (dict : Dict α) : SortedEntries dict.entries := by
  have sorted : dict.entries.Pairwise fun earlier later => compare earlier.1 later.1 = .lt :=
    Std.ExtTreeMap.ordered_keys_toList
  exact sorted.imp fun before => compareOfLessAndEq_eq_lt.1 before

@[simp]
theorem length_entries (dict : Dict α) : dict.entries.length = dict.size :=
  Std.ExtTreeMap.length_toList

@[simp]
theorem entries_empty : (empty : Dict α).entries = [] := rfl

end Dict

end TreeScript
