import TreeScript.Machine.World

/-!
# Edits

An edit changes the world in one indivisible step and either gives a result or
fails; what it has changed before it failed stays changed.  Reading and
defining names, destructuring, and reading and writing the targets of
assignments are edits.
-/

namespace TreeScript

/-- A change of the world that may fail. -/
abbrev Edit := ExceptT Error (StateM World)

/-- A place that can be assigned to.  Its parts have been evaluated once and for all. -/
inductive Location where
  | name (scope : Scope) (name : String)
  | element (array : ArrayId) (index : Float)
  | entry (object : ObjectId) (name : String)
  | items (locations : List Location)
  | entries (locations : List (String × Location))

/-- The place in a sequence that a number stands for: a whole number inside the bounds. -/
def slot? (index : Float) (length : Nat) : Option Nat :=
  (Double.natural? index).filter fun place => place < length

/-- The error for a number that is no place in a sequence. -/
def outOfRange (index : Float) (length : Nat) : Error :=
  .of (.indexOutOfRange index (Int.ofNat length - 1))

namespace Edit

/-- Tell the host, if it wants to be told. -/
def log (options : Options) (name : String) (scope : Scope) (bound : String) (value : Value) :
    Edit Unit :=
  modify (World.log options name (some scope.name) (some bound) (some value))

/-- The store as it is now. -/
def store : Edit Store := do
  return (← get).store

/-- A new array. -/
def newArray (items : Array Value) : Edit Value :=
  modifyGet fun world =>
    let (store, array) := world.store.newArray items
    (.arr array, { world with store := store })

/-- A new object; of entries with one name the last counts. -/
def newObject (entries : List (String × Value)) : Edit Value :=
  modifyGet fun world =>
    let (store, object) := world.store.newObject (Dict.ofList entries)
    (.obj object, { world with store := store })

/-- The value of a name. -/
def readName (options : Options) (scope : Scope) (name : String) : Edit Value := do
  match (← store).lookup? scope name with
  | some found =>
      log options "var:read" scope name found.value
      return found.value
  | none => throw (.of (.unknownIdentifier name scope.name))

/-- Bind a name in each of some scopes, until one of them binds it already. -/
def register (options : Options) (bound : Variable) : List (Scope × String) → Edit Unit
  | [] => pure ()
  | (scope, name) :: rest => do
      log options "var:add" scope name bound.value
      if ((← store).bindings scope.layer).contains name then
        throw (.of (.alreadyDefined name scope.name))
      modify fun world =>
        world.mapStore fun store =>
          store.modifyLayer scope.layer fun bindings => bindings.insert name bound
      register options bound rest

/-- Define a name in a scope, and qualified in the scopes around its namespaces. -/
def declare (options : Options) (scope : Scope) (name : String) (bound : Variable) : Edit Unit :=
  register options bound (scope.registrations name)

/-- Give a name another value. -/
def assign (options : Options) (scope : Scope) (name : String) (value : Value) : Edit Unit := do
  log options "var:write" scope name value
  match (← store).findBinding? name scope.layers with
  | some (layer, found) =>
      if found.isMutable then
        modify fun world =>
          world.mapStore fun store =>
            store.modifyLayer layer fun bindings =>
              bindings.insert name { found with value := value }
      else throw (.of (.assignToImmutable name))
  | none => throw (.of (.unknownIdentifier name scope.name))

section Definition

variable (options : Options) (scope : Scope) (isMutable : Bool)

mutual

/--
Bind the names of a pattern to the parts of a value.  Elements and entries that
the value lacks count as `null`.
-/
def define : Node → Value → Edit Unit
  | .mk (.identifier name) _, value =>
      declare options scope name (.plain isMutable value)
  | .mk (.arr patterns) _, value => do
      let array ← value.asArr
      defineItems patterns ((← store).items array).toList
  | .mk (.obj patterns) _, value => do
      let object ← value.asObj
      defineEntries patterns ((← store).entries object)
  | _, _ =>
      throw (.of (.invalidTarget
        "The left-hand side of an definition expression must be a variable."))

/-- Bind patterns to the elements of an array. -/
def defineItems : List Node → List Value → Edit Unit
  | [], _ => pure ()
  | pattern :: rest, values => do
      define pattern (values.headD .null)
      defineItems rest values.tail

/-- Bind patterns to the entries of an object. -/
def defineEntries : List (String × Node) → Dict Value → Edit Unit
  | [], _ => pure ()
  | (name, pattern) :: rest, values => do
      define pattern ((values.find? name).getD .null)
      defineEntries rest values

end

end Definition

/-- Put attributes on a defined value and, for a plain name, on its binding. -/
def decorate (scope : Scope) (target : Node) (value : Value) (attributes : List Attribute) :
    Edit Unit :=
  if attributes.isEmpty then pure ()
  else do
    modify fun world => world.mapStore fun store => store.setAttributes value attributes
    match target.shape with
    | .identifier name =>
        modify fun world =>
          world.mapStore fun store => store.describe scope.layer name attributes
    | _ => pure ()

section Locations

variable (options : Options)

mutual

/-- The value at a location. -/
def read : Location → Edit Value
  | .name scope name => readName options scope name
  | .element array index => do
      let items := (← store).items array
      match (slot? index items.size).bind fun place => items[place]? with
      | some value => return value
      | none => throw (outOfRange index items.size)
  | .entry object name => do
      return (← store).entry object name
  | .items locations => do
      newArray (← readItems locations).toArray
  | .entries locations => do
      newObject (← readEntries locations)

/-- The values at locations in order. -/
def readItems : List Location → Edit (List Value)
  | [] => pure []
  | location :: rest => do
      let value ← read location
      return value :: (← readItems rest)

/-- The values at named locations in order. -/
def readEntries : List (String × Location) → Edit (List (String × Value))
  | [] => pure []
  | (name, location) :: rest => do
      let value ← read location
      return (name, value) :: (← readEntries rest)

end

mutual

/-- Put a value at a location; groups of locations take the value apart. -/
def write : Location → Value → Edit Unit
  | .name scope name, value => assign options scope name value
  | .element array index, value => do
      let length := ((← store).items array).size
      match slot? index length with
      | some place =>
          modify fun world =>
            world.mapStore fun store =>
              store.modifyItems array fun items => items.setIfInBounds place value
      | none => throw (outOfRange index length)
  | .entry object name, value =>
      modify fun world => world.mapStore fun store => store.setEntry object name value
  | .items locations, value => do
      let array ← value.asArr
      writeItems locations ((← store).items array).toList
  | .entries locations, value => do
      let object ← value.asObj
      writeEntries locations ((← store).entries object)

/-- Put the elements of an array at locations; missing ones count as `null`. -/
def writeItems : List Location → List Value → Edit Unit
  | [], _ => pure ()
  | location :: rest, values => do
      write location (values.headD .null)
      writeItems rest values.tail

/-- Put the entries of an object at locations; missing ones count as `null`. -/
def writeEntries : List (String × Location) → Dict Value → Edit Unit
  | [], _ => pure ()
  | (name, location) :: rest, values => do
      write location ((values.find? name).getD .null)
      writeEntries rest values

end

end Locations

end Edit

end TreeScript
