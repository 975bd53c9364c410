import TreeScript.Json.Document
import TreeScript.Store.Basic

/-!
# Data

A datum describes a value from outside of any store.  Building it makes new
arrays and objects.  A datum may refer to values that are found elsewhere; what
a reference is depends on who gives the datum, and references are resolved
before anything is built.
-/

namespace TreeScript

/-- The description of a value, with references of type `ρ`. -/
inductive Datum (ρ : Type) where
  | null
  | bool (truth : Bool)
  | num (number : Float)
  | str (text : String)
  | arr (items : List (Datum ρ))
  | obj (entries : List (String × Datum ρ))
  | error (name : String)
  | errorWith (name : String) (information : Datum ρ)
  | reference (source : ρ)

namespace Datum

variable {ρ : Type}

instance : Inhabited (Datum ρ) := ⟨.null⟩

mutual

/-- The datum that a JSON document describes. -/
def ofDocument : Document → Datum ρ
  | .null => .null
  | .bool truth => .bool truth
  | .num numeral => .num numeral.toFloat
  | .str text => .str text
  | .arr items => .arr (ofDocuments items)
  | .obj members => .obj (ofMembers members)

/-- The data that JSON documents describe. -/
def ofDocuments : List Document → List (Datum ρ)
  | [] => []
  | first :: rest => ofDocument first :: ofDocuments rest

/-- The named data that the members of a JSON object describe. -/
def ofMembers : List (String × Document) → List (String × Datum ρ)
  | [] => []
  | (name, document) :: rest => (name, ofDocument document) :: ofMembers rest

end

section Resolution

variable {m : Type → Type} [Monad m] (find : ρ → m Value)

mutual

/-- Replace references, in the order in which the datum is written, by what they refer to. -/
def resolve : Datum ρ → m (Datum Value)
  | .null => return .null
  | .bool truth => return .bool truth
  | .num number => return .num number
  | .str text => return .str text
  | .arr items => do
      return .arr (← resolveItems items)
  | .obj entries => do
      return .obj (← resolveEntries entries)
  | .error name => return .error name
  | .errorWith name information => do
      return .errorWith name (← resolve information)
  | .reference source => do
      return .reference (← find source)

/-- Resolve the elements of an array in order. -/
def resolveItems : List (Datum ρ) → m (List (Datum Value))
  | [] => return []
  | first :: rest => do
      let datum ← resolve first
      return datum :: (← resolveItems rest)

/-- Resolve the entries of an object in order. -/
def resolveEntries : List (String × Datum ρ) → m (List (String × Datum Value))
  | [] => return []
  | (name, first) :: rest => do
      let datum ← resolve first
      return (name, datum) :: (← resolveEntries rest)

end

end Resolution

end Datum

namespace Store

mutual

/-- Build the value that a datum describes. -/
def build (store : Store) : Datum Value → Value × Store
  | .null => (.null, store)
  | .bool truth => (.bool truth, store)
  | .num number => (.num number, store)
  | .str text => (.str text, store)
  | .arr items =>
      let (values, store) := buildItems store items
      let (store, array) := store.newArray values.toArray
      (.arr array, store)
  | .obj entries =>
      let (values, store) := buildEntries store entries
      let (store, object) := store.newObject (Dict.ofList values)
      (.obj object, store)
  | .error name => (.error name, store)
  | .errorWith name information =>
      let (value, store) := build store information
      (.errorWith name value, store)
  | .reference value => (value, store)

/-- Build the elements of an array. -/
def buildItems (store : Store) : List (Datum Value) → List Value × Store
  | [] => ([], store)
  | first :: rest =>
      let (value, store) := build store first
      let (values, store) := buildItems store rest
      (value :: values, store)

/-- Build the entries of an object. -/
def buildEntries (store : Store) : List (String × Datum Value) → List (String × Value) × Store
  | [] => ([], store)
  | (name, first) :: rest =>
      let (value, store) := build store first
      let (values, store) := buildEntries store rest
      ((name, value) :: values, store)

end

/-- Build the value that a JSON document describes. -/
def ofDocument (store : Store) (document : Document) : Value × Store :=
  store.build (Datum.ofDocument document)

end Store

end TreeScript
