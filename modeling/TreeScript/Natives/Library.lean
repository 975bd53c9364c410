import TreeScript.Natives.Forms

/-!
# The library

The functions that every interpreter binds in its root scope.  Operators are
evaluated by the function that is bound to their name, so that a script can
define another one.

Division, exponentiation and remainder refuse to give a result that is not a
number; the other operations give whatever the arithmetic of doubles gives.
-/

namespace TreeScript.Library

open TreeScript

/-- The first two arguments, which have to be numbers. -/
def operands (arguments : List Value) : Except Error (Float × Float) := do
  let left ← (← argument arguments 0).asNum
  let right ← (← argument arguments 1).asNum
  return (left, right)

/-- A numeric operation. -/
def arithmetic (operation : Float → Float → Float) (arguments : List Value) :
    Except Error Value := do
  let (left, right) ← operands arguments
  return .num (operation left right)

/-- A numeric operation whose result must be a number. -/
def checked (name : String) (operation : Float → Float → Float) (arguments : List Value) :
    Except Error Value := do
  let (left, right) ← operands arguments
  let result := operation left right
  if result.isNaN then .error (.of (.invalidOperation (name ++ " produced NaN")))
  else .ok (.num result)

/-- A comparison of numbers. -/
def comparison (holds : Float → Float → Bool) (arguments : List Value) :
    Except Error Value := do
  let (left, right) ← operands arguments
  return .bool (holds left right)

/-- A range of at least this length is not built. -/
def rangeLimit : Float :=
  Float.ofNat 16777216

/-- The numbers from `first` in steps of one, upward or downward, as far as `last`. -/
def rangeItems (first last : Float) : Array Value :=
  if first ≤ last then
    Array.ofFn fun index : Fin (Double.wholeMagnitude (last - first) + 1) =>
      .num (first + Float.ofNat index)
  else
    Array.ofFn fun index : Fin (Double.wholeMagnitude (first - last) + 1) =>
      .num (first - Float.ofNat index)

/-- The elements of a range, whose bounds must be finite and not too far apart. -/
def range (arguments : List Value) : Except Error (Array Value) := do
  let (first, last) ← operands arguments
  if !(first.isFinite && last.isFinite) then
    .error (.of (.invalidOperation "Core:range bounds must be finite"))
  else if rangeLimit ≤ (last - first).abs then
    .error (.of (.invalidOperation "Core:range is too large"))
  else .ok (rangeItems first last)

/-- A new error value with a name and perhaps some information. -/
def createError (arguments : List Value) : Except Error Value := do
  let name ← (← argument arguments 0).asStr
  return .ofError name arguments[1]?

/-- Compare the first two arguments. -/
def compare (arguments : List Value) : Rule Bool := do
  let left ← argument arguments 0
  let right ← argument arguments 1
  Rule.look fun store => store.equal left right

/-- Ask the host for a line; without input the answer is `null`. -/
def readLine (arguments : List Value) : Rule Value := do
  let prompt ← (← argument arguments 0).asStr
  match ← Rule.perform (.ask prompt) with
  | some line => return .str line
  | none => return .null

/-- A function that only computes with its arguments. -/
def pure (answer : List Value → Except Error Value) : NativeForms :=
  .plain fun arguments _ => Rule.ofExcept (answer arguments)

/-- What the functions of the library do. -/
def forms : LibraryFunction → NativeForms
  | .add => pure (arithmetic fun left right => left + right)
  | .sub => pure (arithmetic fun left right => left - right)
  | .mul => pure (arithmetic fun left right => left * right)
  | .div => pure (checked "division" fun left right => left / right)
  | .pow => pure (checked "exponentiation" Float.pow)
  | .mod => pure (checked "remainder" Double.remainder)
  | .lt => pure (comparison fun left right => left < right)
  | .lteq => pure (comparison fun left right => left ≤ right)
  | .gt => pure (comparison fun left right => right < left)
  | .gteq => pure (comparison fun left right => right ≤ left)
  | .eq => .plain fun arguments _ => do
      return .bool (← compare arguments)
  | .neq => .plain fun arguments _ => do
      return .bool !(← compare arguments)
  | .type => pure fun arguments => do
      return .str (← argument arguments 0).typeName
  | .toStr => .plain fun arguments _ => do
      let value ← argument arguments 0
      return .str (← Rule.look fun store => store.display value)
  | .range => .plain fun arguments _ => do
      return .arr (← Rule.perform (.newArray (← range arguments)))
  | .createError => pure createError
  | .print => .plain fun arguments _ => do
      Rule.perform (.print (← argument arguments 0))
      return .null
  | .readline => .later fun arguments _ => readLine arguments

end TreeScript.Library
