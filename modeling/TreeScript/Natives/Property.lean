import TreeScript.Natives.Forms
import TreeScript.Number.Reading
import TreeScript.Text.CaseMap
import TreeScript.Text.Characters
import TreeScript.Text.Split

/-!
# Properties

What `value.name` means for values that are not objects.  Most properties are
native functions bound to the value they were taken from.
-/

namespace TreeScript

namespace Method

/-- The number that a text is read as, or `null`. -/
def textToNum (text : String) : Value :=
  match Number.ofText? (Text.trim text).toList with
  | some number => .num number
  | none => .null

/-- The pieces of a text: around a separator, or without one character by character. -/
def pieces (text : String) (arguments : List Value) : Except Error (List String) := do
  match arguments[0]? with
  | none => return Text.characters text
  | some separator =>
      let separator ← separator.asStr
      return if separator.isEmpty then Text.characters text else Text.split separator text

/-- The separator that elements are joined with. -/
def separator (arguments : List Value) : Except Error String :=
  match arguments[0]? with
  | none => .ok ""
  | some separator => separator.asStr

/--
A new array of the results of calling back with the elements that an array has
now, and their places.
-/
def mapArray (array : ArrayId) (arguments : List Value)
    (call : Value → List Value → Rule Value) : Rule Value := do
  let callee ← argument arguments 0
  let items ← Rule.look fun store => (store.items array).toList
  let results ← Rule.traverse (fun (item, place) => call callee [item, .num (Float.ofNat place)])
    items.zipIdx
  return .arr (← Rule.perform (.newArray results.toArray))

/-- What methods do. -/
def forms : Method → NativeForms
  | .strUpper text => .plain fun _ _ => return .str (Text.upper text)
  | .strLower text => .plain fun _ _ => return .str (Text.lower text)
  | .strToNum text => .plain fun _ _ => return textToNum text
  | .strSplit text => .plain fun arguments _ => do
      let texts ← pieces text arguments
      return .arr (← Rule.perform (.newArray (texts.map Value.str).toArray))
  | .numToStr number => .plain fun _ _ => return .str (Number.display number)
  | .boolToStr truth => .plain fun _ _ => return .str (if truth then "true" else "false")
  | .arrPush array => .plain fun arguments _ => do
      Rule.perform (.push array (← argument arguments 0))
      return .arr array
  | .arrPop array => .plain fun _ _ => Rule.perform (.pop array)
  | .arrJoin array => .plain fun arguments _ => do
      let separator ← separator arguments
      let texts ← Rule.look fun store => (store.items array).toList.map store.display
      return .str (String.intercalate separator texts)
  | .arrMap array =>
      (NativeForms.later fun arguments context =>
        mapArray array arguments fun callee values => callBack callee values context)
      |>.orImmediately fun arguments context =>
        mapArray array arguments fun callee values => callBackAtOnce callee values context

end Method

namespace Property

/-- What a property is before its function is created. -/
inductive Found where
  | value (value : Value)
  | method (property : Method)

/-- The properties of a text. -/
def ofText? (text name : String) : Option Found :=
  match name with
  | "len" => some (.value (.num (Float.ofNat text.length)))
  | "upper" => some (.method (.strUpper text))
  | "lower" => some (.method (.strLower text))
  | "to_num" => some (.method (.strToNum text))
  | "split" => some (.method (.strSplit text))
  | _ => none

/-- The properties of an array with some number of elements. -/
def ofArray? (array : ArrayId) (length : Nat) (name : String) : Option Found :=
  match name with
  | "len" => some (.value (.num (Float.ofNat length)))
  | "push" => some (.method (.arrPush array))
  | "pop" => some (.method (.arrPop array))
  | "join" => some (.method (.arrJoin array))
  | "map" => some (.method (.arrMap array))
  | _ => none

/-- The properties of an error value. -/
def ofError? (errorName : String) (information : Value) (name : String) : Option Found :=
  match name with
  | "name" => some (.value (.str errorName))
  | "info" => some (.value information)
  | _ => none

/-- The property of a value that is not an object. -/
def find? (store : Store) (target : Value) (name : String) : Option Found :=
  match target with
  | .str text => ofText? text name
  | .num number => if name = "to_str" then some (.method (.numToStr number)) else none
  | .bool truth => if name = "to_str" then some (.method (.boolToStr truth)) else none
  | .arr array => ofArray? array (store.items array).size name
  | .error errorName => ofError? errorName .null name
  | .errorWith errorName information => ofError? errorName information name
  | _ => none

/-- Take a property of a value; an object gives the entry of that name. -/
def get (target : Value) (name : String) : Rule Value := do
  match target with
  | .obj object => Rule.look fun store => store.entry object name
  | target =>
      match ← Rule.look fun store => find? store target name with
      | some (.value value) => return value
      | some (.method property) =>
          return .fn (← Rule.perform
            (.newFunction (some property.name) (.native (.method property))))
      | none => Rule.fail (.of (.noSuchProp name target.typeName))

/-- The character of a text at a place. -/
def character (text : String) (index : Float) : Except Error Value :=
  match (slot? index text.length).bind fun place => Text.character? text place with
  | some character => .ok (.str (String.ofList [character]))
  | none => .error (outOfRange index text.length)

/-- What stands at a place of an array, an object or a text. -/
def item (target place : Value) : Rule Value := do
  match target with
  | .arr array => do
      let index ← place.asNum
      let items ← Rule.look fun store => store.items array
      match (slot? index items.size).bind fun place => items[place]? with
      | some value => return value
      | none => Rule.fail (outOfRange index items.size)
  | .obj object => do
      let name ← place.asStr
      Rule.look fun store => store.entry object name
  | .str text => do
      let index ← place.asNum
      character text index
  | other => do
      let shown ← Rule.look fun store => store.literal place
      Rule.fail (.of (.cannotReadProp shown other.typeName))

end Property

end TreeScript
