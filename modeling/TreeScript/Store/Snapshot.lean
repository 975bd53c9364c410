import TreeScript.Json.Document
import TreeScript.Store.Basic

/-!
# Snapshots

A snapshot is the picture of a value at one moment: a finite tree in which the
contents of arrays and objects are written out.  A container that contains
itself would unfold for ever; an occurrence inside itself is cut and replaced
by its place on the path that leads to it.  A container that is reached twice
on different paths is written out both times.

Attributes and the information of errors hang beside the contents, and they may
share parts in such a way that drawing them takes far longer than drawing the
contents.  So a snapshot is taken in a chosen detail, and texts and JSON
documents of values are functions of snapshots that show no more than they need.
-/

namespace TreeScript

/-- The picture of a value. -/
inductive Snapshot where
  | null
  | bool (truth : Bool)
  | num (number : Float)
  | str (text : String)
  | arr (items : List Snapshot) (attributes : List (String × Snapshot))
  | obj (entries : List (String × Snapshot)) (attributes : List (String × Snapshot))
  /-- A function with its name, the text it is shown as, and its attributes. -/
  | fn (name : Option String) (shown : String) (attributes : List (String × Snapshot))
  | error (name : String)
  | errorWith (name : String) (information : Snapshot)
  /-- The container at this place of the path, counted from the outermost one. -/
  | cycle (place : Nat)

/-- What a snapshot shows beside the contents of containers. -/
structure Detail where
  /-- Whether arrays, objects and functions are shown with their attributes. -/
  attributes : Bool
  /-- Whether errors are shown with their information. -/
  information : Bool
  deriving DecidableEq, Repr

namespace Detail

/-- Contents alone. -/
def contents : Detail :=
  ⟨false, false⟩

/-- Contents and the information of errors. -/
def document : Detail :=
  ⟨false, true⟩

/-- Everything. -/
def full : Detail :=
  ⟨true, true⟩

end Detail

/-- What takes a place on the path of a snapshot. -/
inductive ContainerId where
  | arr (array : ArrayId)
  | obj (object : ObjectId)
  | fn (function : FunctionId)
  deriving DecidableEq

/-- The picture of a value, given the pictures of containers. -/
def Value.picture (detail : Detail) (container : ContainerId → Snapshot) : Value → Snapshot
  | .null => .null
  | .bool truth => .bool truth
  | .num number => .num number
  | .str text => .str text
  | .arr array => container (.arr array)
  | .obj object => container (.obj object)
  | .fn function => container (.fn function)
  | .error name => .error name
  | .errorWith name information =>
      if detail.information then .errorWith name (information.picture detail container)
      else .error name

/-- The text that a function is shown as. -/
def Body.shown : Body → String
  | .closure parameters _ _ _ =>
      "@( " ++ String.intercalate ", " (parameters.map Parameter.shownName) ++ " ) \x7b ... \x7d"
  | .native _ => "@( ?? ) \x7b native code \x7d"

namespace Store

/-- The picture of a container, given the pictures of the values in it. -/
def containerPicture (store : Store) (detail : Detail) (value : Value → Snapshot)
    (container : ContainerId) : Snapshot :=
  let attributes (holder : Value) : List (String × Snapshot) :=
    if detail.attributes then
      (store.attributes holder).map fun held => (held.name, value held.value)
    else []
  match container with
  | .arr array => .arr ((store.items array).toList.map value) (attributes (.arr array))
  | .obj object =>
      .obj ((store.entries object).entries.map fun entry => (entry.1, value entry.2))
        (attributes (.obj object))
  | .fn function =>
      match store.function? function with
      | some found => .fn found.name found.body.shown (attributes (.fn function))
      | none => .fn none "" []

/--
The picture of a value below the containers of a path, which may open at most
`budget` further containers.  The innermost container of the path comes first.
-/
def snapshotWithin (store : Store) (detail : Detail) :
    Nat → List ContainerId → Value → Snapshot
  | 0, _ => fun _ => .cycle 0
  | budget + 1, path =>
      Value.picture detail fun container =>
        match path.idxOf? container with
        | some distance => .cycle (path.length - 1 - distance)
        | none =>
            store.containerPicture detail
              (store.snapshotWithin detail budget (container :: path)) container

/-- The number of containers in a store, and so the length of the longest path. -/
def containerCount (store : Store) : Nat :=
  store.arrays.size + store.objects.size + store.functions.size

/-- The picture of a value.  No path is longer than there are containers. -/
def snapshot (store : Store) (detail : Detail) (value : Value) : Snapshot :=
  store.snapshotWithin detail (store.containerCount + 1) [] value

end Store

namespace Snapshot

/-- How a character is written in a quoted text. -/
def escape (character : Char) : List Char :=
  if character == '\\' then ['\\', '\\']
  else if character == '"' then ['\\', '"']
  else if character == '\r' then ['\\', 'r']
  else if character == '\n' then ['\\', 'n']
  else [character]

/-- A text in quotes, as it is shown inside containers. -/
def quote (text : String) : String :=
  String.ofList ('"' :: (text.toList.flatMap escape ++ ['"']))

mutual

/-- The text of a picture with strings in quotes; a cut is three dots. -/
def literal : Snapshot → String
  | .null => "null"
  | .bool truth => if truth then "true" else "false"
  | .num number => Number.display number
  | .str text => quote text
  | .arr items _ => "[ " ++ String.intercalate ", " (literals items) ++ " ]"
  | .obj entries _ => "\x7b " ++ String.intercalate ", " (entryLiterals entries) ++ " \x7d"
  | .fn _ shown _ => shown
  | .error name => "Error: " ++ name
  | .errorWith name _ => "Error: " ++ name
  | .cycle _ => "..."

/-- The texts of the elements of an array. -/
def literals : List Snapshot → List String
  | [] => []
  | first :: rest => literal first :: literals rest

/-- The texts of the entries of an object. -/
def entryLiterals : List (String × Snapshot) → List String
  | [] => []
  | (name, value) :: rest => (name ++ ": " ++ literal value) :: entryLiterals rest

end

/-- The text that a value is printed as: a string stands for itself. -/
def display : Snapshot → String
  | .str text => text
  | picture => picture.literal

mutual

/-- The JSON document of a picture.  Functions, cuts and numbers that JSON lacks become null. -/
def toDocument : Snapshot → Document
  | .null => .null
  | .bool truth => .bool truth
  | .num number => if number.isFinite then .num (.real number) else .null
  | .str text => .str text
  | .arr items _ => .arr (documents items)
  | .obj entries _ => .obj (entryDocuments entries)
  | .fn _ _ _ => .null
  | .error name => .obj [("error", .str name)]
  | .errorWith name information =>
      .obj [("error", .str name), ("info", toDocument information)]
  | .cycle _ => .null

/-- The JSON documents of the elements of an array. -/
def documents : List Snapshot → List Document
  | [] => []
  | first :: rest => toDocument first :: documents rest

/-- The JSON documents of the entries of an object. -/
def entryDocuments : List (String × Snapshot) → List (String × Document)
  | [] => []
  | (name, value) :: rest => (name, toDocument value) :: entryDocuments rest

end

end Snapshot

namespace Store

/-- The text that a value is printed as. -/
def display (store : Store) (value : Value) : String :=
  (store.snapshot .contents value).display

/-- The text of a value with strings in quotes. -/
def literal (store : Store) (value : Value) : String :=
  (store.snapshot .contents value).literal

/-- The JSON document of a value. -/
def toDocument (store : Store) (value : Value) : Document :=
  (store.snapshot .document value).toDocument

end Store

end TreeScript
