import TreeScript.Error

/-!
# Values

Numbers, texts, truth values and error values are plain data.  Arrays, objects
and functions live in a store, and a value holds a handle to them: copies of a
value share what the handle stands for.
-/

namespace TreeScript

/-- The handle of an array. -/
structure ArrayId where
  index : Nat
  deriving DecidableEq, Repr

/-- The handle of an object. -/
structure ObjectId where
  index : Nat
  deriving DecidableEq, Repr

/-- The handle of a function. -/
structure FunctionId where
  index : Nat
  deriving DecidableEq, Repr

/-- A value of a script.  An error value may carry another value as information. -/
inductive Value where
  | null
  | bool (truth : Bool)
  | num (number : Float)
  | str (text : String)
  | arr (items : ArrayId)
  | obj (entries : ObjectId)
  | fn (function : FunctionId)
  | error (name : String)
  | errorWith (name : String) (information : Value)
  deriving DecidableEq, Inhabited

/-- A named value that decorates a definition. -/
structure Attribute where
  name : String
  value : Value
  deriving DecidableEq

namespace Value

/-- The name of the type of a value. -/
def typeName : Value → String
  | .null => "null"
  | .bool _ => "bool"
  | .num _ => "num"
  | .str _ => "str"
  | .arr _ => "arr"
  | .obj _ => "obj"
  | .fn _ => "fn"
  | .error _ => "error"
  | .errorWith _ _ => "error"

/-- An error value with information that may be missing. -/
def ofError (name : String) : Option Value → Value
  | none => .error name
  | some information => .errorWith name information

/-- The error for a value of the wrong type. -/
def mismatch (expected : String) (actual : Value) : Error :=
  .of (.typeMismatch expected actual.typeName)

/-- The truth value that a value has to be. -/
def asBool : Value → Except Error Bool
  | .bool truth => .ok truth
  | other => .error (mismatch "bool" other)

/-- The number that a value has to be. -/
def asNum : Value → Except Error Float
  | .num number => .ok number
  | other => .error (mismatch "num" other)

/-- The text that a value has to be. -/
def asStr : Value → Except Error String
  | .str text => .ok text
  | other => .error (mismatch "str" other)

/-- The array that a value has to be. -/
def asArr : Value → Except Error ArrayId
  | .arr items => .ok items
  | other => .error (mismatch "arr" other)

/-- The object that a value has to be. -/
def asObj : Value → Except Error ObjectId
  | .obj entries => .ok entries
  | other => .error (mismatch "obj" other)

/-- The function that a value has to be. -/
def asFn : Value → Except Error FunctionId
  | .fn function => .ok function
  | other => .error (mismatch "fn" other)

end Value

end TreeScript
