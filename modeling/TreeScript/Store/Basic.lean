import TreeScript.Dict
import TreeScript.Native
import TreeScript.Scope

/-!
# The store

The store holds what scripts share: arrays, objects, functions and the layers
of bindings that scopes are made of.  Handles are never reused, and looking a
handle up that the store did not give out finds an empty container.

Every change of the store is one of the operations below; for each the lemmas
say what it does to the parts it changes.
-/

namespace TreeScript

/-- A bound name: its value, whether it may be assigned to, and its attributes. -/
structure Variable where
  isMutable : Bool
  value : Value
  attributes : List Attribute
  deriving DecidableEq

namespace Variable

/-- A binding without attributes. -/
def plain (isMutable : Bool) (value : Value) : Variable :=
  ⟨isMutable, value, []⟩

/-- A binding that cannot be assigned to. -/
def constant (value : Value) : Variable :=
  plain false value

end Variable

/-- What a function does when it is called. -/
inductive Body where
  /-- Statements with the scope they were written in; one fallback for each parameter. -/
  | closure (parameters : List Parameter) (fallbacks : List (Option Value))
      (statements : List Node) (scope : Scope)
  | native (native : Native)

/-- An array with the attributes of its definition. -/
structure ArrayCell where
  items : Array Value
  attributes : List Attribute
  deriving Inhabited

/-- An object with the attributes of its definition. -/
structure ObjectCell where
  entries : Dict Value
  attributes : List Attribute
  deriving Inhabited

/-- A function with its name, if it has got one, and the attributes of its definition. -/
structure Function where
  name : Option String
  attributes : List Attribute
  body : Body

/-- Arrays, objects, functions and layers by their handles. -/
structure Store where
  arrays : Array ArrayCell
  objects : Array ObjectCell
  functions : Array Function
  layers : Array (Dict Variable)

namespace Store

/-- A store without anything in it. -/
def empty : Store :=
  ⟨#[], #[], #[], #[]⟩

instance : Inhabited Store :=
  ⟨empty⟩

section Reading

/-- The elements of an array. -/
def items (store : Store) (array : ArrayId) : Array Value :=
  (store.arrays[array.index]?.map ArrayCell.items).getD #[]

/-- The entries of an object. -/
def entries (store : Store) (object : ObjectId) : Dict Value :=
  (store.objects[object.index]?.map ObjectCell.entries).getD .empty

/-- A function, if the handle is one of this store. -/
def function? (store : Store) (function : FunctionId) : Option Function :=
  store.functions[function.index]?

/-- The bindings of a layer. -/
def bindings (store : Store) (layer : LayerId) : Dict Variable :=
  store.layers[layer.index]?.getD .empty

/-- The attributes of an array, an object or a function; other values have none. -/
def attributes (store : Store) : Value → List Attribute
  | .arr array => (store.arrays[array.index]?.map ArrayCell.attributes).getD []
  | .obj object => (store.objects[object.index]?.map ObjectCell.attributes).getD []
  | .fn function => ((store.function? function).map Function.attributes).getD []
  | _ => []

/-- The entry of an object; a missing one is `null`. -/
def entry (store : Store) (object : ObjectId) (name : String) : Value :=
  ((store.entries object).find? name).getD .null

end Reading

section Allocation

/-- A new array. -/
def newArray (store : Store) (items : Array Value) : Store × ArrayId :=
  let array : ArrayId := ⟨store.arrays.size⟩
  ({ store with arrays := store.arrays.push ⟨items, []⟩ }, array)

/-- A new object. -/
def newObject (store : Store) (entries : Dict Value) : Store × ObjectId :=
  let object : ObjectId := ⟨store.objects.size⟩
  ({ store with objects := store.objects.push ⟨entries, []⟩ }, object)

/-- A new function. -/
def newFunction (store : Store) (name : Option String) (body : Body) : Store × FunctionId :=
  let function : FunctionId := ⟨store.functions.size⟩
  ({ store with functions := store.functions.push ⟨name, [], body⟩ }, function)

/-- A new layer. -/
def newLayer (store : Store) (bindings : Dict Variable) : Store × LayerId :=
  let layer : LayerId := ⟨store.layers.size⟩
  ({ store with layers := store.layers.push bindings }, layer)

end Allocation

section Change

/-- Change the elements of an array. -/
def modifyItems (store : Store) (array : ArrayId) (change : Array Value → Array Value) : Store :=
  { store with
    arrays := store.arrays.modify array.index fun cell =>
      { cell with items := change cell.items } }

/-- Set an entry of an object. -/
def setEntry (store : Store) (object : ObjectId) (name : String) (value : Value) : Store :=
  { store with
    objects := store.objects.modify object.index fun cell =>
      { cell with entries := cell.entries.insert name value } }

/-- Set the attributes of an array, an object or a function; other values cannot hold any. -/
def setAttributes (store : Store) (value : Value) (attributes : List Attribute) : Store :=
  match value with
  | .arr array =>
      { store with
        arrays := store.arrays.modify array.index fun cell =>
          { cell with attributes := attributes } }
  | .obj object =>
      { store with
        objects := store.objects.modify object.index fun cell =>
          { cell with attributes := attributes } }
  | .fn function =>
      { store with
        functions := store.functions.modify function.index fun cell =>
          { cell with attributes := attributes } }
  | _ => store

/-- Name a function, whatever it was named before. -/
def nameFunction (store : Store) (function : FunctionId) (name : String) : Store :=
  { store with
    functions := store.functions.modify function.index fun cell =>
      { cell with name := some name } }

/-- Change the bindings of a layer. -/
def modifyLayer (store : Store) (layer : LayerId) (change : Dict Variable → Dict Variable) :
    Store :=
  { store with layers := store.layers.modify layer.index change }

end Change

end Store

end TreeScript
