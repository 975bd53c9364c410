import TreeScript.Syntax.Node
import TreeScript.Json.Read

/-!
# Reading syntax trees

`Node.ofDocument?` reads the JSON form of a node: an object with the tag of its
kind under `type`, the fields of that kind, and the place of the node under
`loc`.  Fields that a kind does not have are ignored, a field it has may be
given only once.

The plain records (places, positions, branches, cases, attributes, parameters
and loop headers) may also be written as arrays of their fields in order.
Nodes may not.

`Node.listOfText?` reads the text of a whole script.  The place of a statement
is read as the text goes by, so what else stands in its objects is skipped;
everything below a statement is kept first and read afterwards.
-/

namespace TreeScript.Reading

open TreeScript

/-- The members of an object by which a record is read. -/
abbrev Members := List (String × Document)

/-- A field that has to be given, once. -/
def required? (members : Members) (name : String) : Option Document :=
  match Document.named name members with
  | [document] => some document
  | _ => none

/-- A field that may be missing, but not be given twice. -/
def optional? (members : Members) (name : String) : Option (Option Document) :=
  match Document.named name members with
  | [] => some none
  | [document] => some (some document)
  | _ => none

/-- Read a string. -/
def text? : Document → Option String
  | .str text => some text
  | _ => none

/-- Read a truth value. -/
def truth? : Document → Option Bool
  | .bool truth => some truth
  | _ => none

/-- Read a number; integers count as well. -/
def number? : Document → Option Float
  | .num numeral => some numeral.toFloat
  | _ => none

/-- Read an array item by item. -/
def list? {α : Type} (read : Document → Option α) : Document → Option (List α)
  | .arr items => items.mapM read
  | _ => none

/-- A field that may be missing or null. -/
def nullable? {α : Type} (read : Document → Option α) (members : Members) (name : String) :
    Option (Option α) := do
  match ← optional? members name with
  | none => return none
  | some .null => return none
  | some document => return some (← read document)

/-- A field that may be missing and then has a fixed value. -/
def defaulted? {α : Type} (read : Document → Option α) (fallback : α) (members : Members)
    (name : String) : Option α := do
  match ← optional? members name with
  | none => return fallback
  | some document => read document

/-- The numbers below this one may count lines and columns. -/
def ordinalLimit : Nat :=
  1 <<< 32

/-- Read a line or column number, which must be written as an integer. -/
def ordinal? : Document → Option Nat
  | .num (.natural ordinal) => if ordinal < ordinalLimit then some ordinal else none
  | _ => none

/-- Read a position. -/
def position? : Document → Option Position
  | .obj members => do
      let line ← (required? members "line").bind ordinal?
      let column ← (required? members "column").bind ordinal?
      return ⟨line, column⟩
  | .arr [line, column] => do
      return ⟨← ordinal? line, ← ordinal? column⟩
  | _ => none

/-- Read the place of a node. -/
def span? : Document → Option Span
  | .obj members => do
      let start ← (required? members "start").bind position?
      let finish ← (required? members "end").bind position?
      return ⟨start, finish⟩
  | .arr [start, finish] => do
      return ⟨← position? start, ← position? finish⟩
  | _ => none

/-- Read the kind of a node: its tag, or its place in the list of kinds. -/
def kind? : Document → Option Kind
  | .str tag => Kind.ofName? tag
  | .num (.natural place) => Kind.all[place]?
  | _ => none

section Parts

variable (node? : Document → Option Node)

/-- Read a pair of nodes under two names. -/
def pair? (first second : String) : Document → Option (Node × Node)
  | .obj members => do
      let left ← (required? members first).bind node?
      let right ← (required? members second).bind node?
      return (left, right)
  | .arr [left, right] => do
      return (← node? left, ← node? right)
  | _ => none

/-- Read an attribute. -/
def attribute? : Document → Option (String × Node)
  | .obj members => do
      let name ← (required? members "name").bind text?
      let value ← (required? members "value").bind node?
      return (name, value)
  | .arr [name, value] => do
      return (← text? name, ← node? value)
  | _ => none

/-- Read an entry of an object literal, which is an array of a name and a node. -/
def namedNode? : Document → Option (String × Node)
  | .arr [name, value] => do
      return (← text? name, ← node? value)
  | _ => none

/-- Read a node or null. -/
def nodeOrNull? : Document → Option (Option Node)
  | .null => some none
  | document => (node? document).map some

/-- Read a parameter; its last fields may be missing. -/
def parameter? : Document → Option Parameter
  | .obj members => do
      let target ← (required? members "dest").bind node?
      let isOptional ← defaulted? truth? false members "optional"
      let fallback ← nullable? node? members "default"
      return .mk target isOptional fallback
  | .arr [target] => do
      return .mk (← node? target) false none
  | .arr [target, isOptional] => do
      return .mk (← node? target) (← truth? isOptional) none
  | .arr [target, isOptional, fallback] => do
      return .mk (← node? target) (← truth? isOptional) (← nodeOrNull? node? fallback)
  | _ => none

/-- Read a piece of a template. -/
def part? : Document → Option Part
  | .str content => some (.text content)
  | document => (node? document).map .expression

/-- Read the header of a counted loop and put its label and body to it. -/
def header? (label : Option String) (body : Node) : Document → Option Shape
  | .obj [("times", .obj members)] => do
      let count ← (required? members "times").bind node?
      return .times label count body
  | .obj [("times", .arr [count])] => do
      return .times label (← node? count) body
  | .obj [("range", .obj members)] => do
      let counter ← (required? members "var").bind text?
      let start ← nullable? node? members "from"
      let count ← (required? members "to").bind node?
      return .range label counter start count body
  | .obj [("range", .arr [counter, start, count])] => do
      return .range label (← text? counter) (← nodeOrNull? node? start) (← node? count) body
  | _ => none

/-- Read the parts of a construct. -/
def shape? (members : Members) : Kind → Option Shape
  | .namespaceBlock => do
      let name ← (required? members "name").bind text?
      let inner ← (required? members "members").bind (list? node?)
      return .namespaceBlock name inner
  | .metadata => do
      let name ← nullable? text? members "name"
      let value ← (required? members "value").bind node?
      return .metadata name value
  | .definition => do
      let target ← (required? members "dest").bind node?
      let value ← (required? members "expr").bind node?
      let isMutable ← (required? members "mut").bind truth?
      let attributes ← defaulted? (list? (attribute? node?)) [] members "attr"
      return .definition target value isMutable attributes
  | .returning => do
      return .returning (← (required? members "expr").bind node?)
  | .each => do
      let label ← nullable? text? members "label"
      let pattern ← (required? members "var").bind node?
      let items ← (required? members "items").bind node?
      let body ← (required? members "for").bind node?
      return .each label pattern items body
  | .counted => do
      let label ← nullable? text? members "label"
      let body ← (required? members "for").bind node?
      (required? members "spec").bind (header? node? label body)
  | .loop => do
      let label ← nullable? text? members "label"
      let statements ← (required? members "statements").bind (list? node?)
      return .loop label statements
  | .breaking => do
      let label ← nullable? text? members "label"
      let value ← nullable? node? members "expr"
      return .breaking label value
  | .continuing => do
      return .continuing (← nullable? text? members "label")
  | .assign => do
      let target ← (required? members "dest").bind node?
      let value ← (required? members "expr").bind node?
      return .assign target value
  | .compound operator => do
      let target ← (required? members "dest").bind node?
      let value ← (required? members "expr").bind node?
      return .compound operator target value
  | .conditional => do
      let label ← nullable? text? members "label"
      let condition ← (required? members "cond").bind node?
      let clause ← (required? members "then").bind node?
      let branches ← defaulted? (list? (pair? node? "cond" "then")) [] members "elseif"
      let otherwise ← nullable? node? members "else"
      return .conditional label condition clause branches otherwise
  | .function => do
      let parameters ← (required? members "params").bind (list? (parameter? node?))
      let body ← (required? members "children").bind (list? node?)
      return .function parameters body
  | .selection => do
      let label ← nullable? text? members "label"
      let subject ← (required? members "about").bind node?
      let cases ← (required? members "qs").bind (list? (pair? node? "q" "a"))
      let otherwise ← nullable? node? members "default"
      return .selection label subject cases otherwise
  | .block => do
      let label ← nullable? text? members "label"
      let statements ← (required? members "statements").bind (list? node?)
      return .block label statements
  | .existence => do
      return .existence (← (required? members "identifier").bind text?)
  | .template => do
      return .template (← (required? members "tmpl").bind (list? (part? node?)))
  | .str => do
      return .str (← (required? members "value").bind text?)
  | .num => do
      return .num (← (required? members "value").bind number?)
  | .bool => do
      return .bool (← (required? members "value").bind truth?)
  | .null => some .null
  | .obj => do
      return .obj (← (required? members "value").bind (list? (namedNode? node?)))
  | .arr => do
      return .arr (← (required? members "value").bind (list? node?))
  | .unary operator => do
      return .unary operator (← (required? members "expr").bind node?)
  | .binary operator => do
      let left ← (required? members "left").bind node?
      let right ← (required? members "right").bind node?
      return .binary operator left right
  | .logical operator => do
      let left ← (required? members "left").bind node?
      let right ← (required? members "right").bind node?
      return .logical operator left right
  | .identifier => do
      return .identifier (← (required? members "name").bind text?)
  | .call => do
      let callee ← (required? members "target").bind node?
      let arguments ← (required? members "args").bind (list? node?)
      return .call callee arguments
  | .index => do
      let target ← (required? members "target").bind node?
      let place ← (required? members "index").bind node?
      return .index target place
  | .prop => do
      let target ← (required? members "target").bind node?
      let name ← (required? members "name").bind text?
      return .prop target name
  | .erased type => some (.erased type)

end Parts

/-- Read a node whose JSON form nests at most `depth` deep. -/
def nodeWithin? : Nat → Document → Option Node
  | depth + 1, .obj members => do
      let span ← defaulted? span? default members "loc"
      let kind ← (required? members "type").bind kind?
      let shape ← shape? (nodeWithin? depth) members kind
      return .mk shape span
  | _, _ => none

/--
Whether a value in the text of a script stands for a field that the place of a
statement, or one of the positions of that place, does not have.
-/
def isUnread : List Json.Container → Bool
  | [.members _ name, .members _ "loc", .items _] => name != "start" && name != "end"
  | [.members _ name, .members _ _, .members _ "loc", .items _] =>
      name != "line" && name != "column"
  | [.members _ name, .items _, .members _ "loc", .items _] =>
      name != "line" && name != "column"
  | _ => false

end TreeScript.Reading

namespace TreeScript

/-- Read the JSON form of a node. -/
def Node.ofDocument? (document : Document) : Option Node :=
  Reading.nodeWithin? document.depth document

/-- Read the JSON form of a script. -/
def Node.listOfDocument? (document : Document) : Option (List Node) :=
  Reading.list? (Reading.nodeWithin? document.depth) document

/-- Read the text of a script. -/
def Node.listOfText? (text : String) : Option (List Node) :=
  (Json.readSkipping? Reading.isUnread (some Json.nestingLimit) text).bind Node.listOfDocument?

end TreeScript
