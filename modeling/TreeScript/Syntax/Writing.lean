import TreeScript.Syntax.Node
import TreeScript.Json.Document

/-!
# Writing syntax trees

`Node.toDocument` writes the JSON form of a node with every field present: a
part that is missing is null, and the place of the node always comes last.
JSON has no numbers that are not finite, so such a number is written as null.
-/

namespace TreeScript.Writing

open TreeScript

/-- A position as an object. -/
def position (position : Position) : Document :=
  .obj [("line", .num (.natural position.line)), ("column", .num (.natural position.column))]

/-- The place of a node as an object. -/
def span (span : Span) : Document :=
  .obj [("start", position span.start), ("end", position span.finish)]

/-- A text that may be missing. -/
def optionalText : Option String → Document
  | none => .null
  | some text => .str text

/-- A number; one that is not finite becomes null. -/
def number (number : Float) : Document :=
  if number.isFinite then .num (.real number) else .null

/-- An object with the tag of a kind as its first member. -/
def tagged (kind : Kind) (fields : List (String × Document)) : List (String × Document) :=
  ("type", .str kind.name) :: fields

mutual

/-- The JSON form of a node. -/
def node : Node → Document
  | .mk construct place => .obj (shape construct ++ [("loc", span place)])

/-- The tag and the fields of a construct. -/
def shape : Shape → List (String × Document)
  | .namespaceBlock name members =>
      tagged .namespaceBlock [("name", .str name), ("members", .arr (nodes members))]
  | .metadata name value =>
      tagged .metadata [("name", optionalText name), ("value", node value)]
  | .definition target value isMutable attributes =>
      tagged .definition
        [("dest", node target), ("expr", node value), ("mut", .bool isMutable),
          ("attr", .arr (attributeList attributes))]
  | .returning value => tagged .returning [("expr", node value)]
  | .each label pattern items body =>
      tagged .each
        [("label", optionalText label), ("var", node pattern), ("items", node items),
          ("for", node body)]
  | .times label count body =>
      tagged .counted
        [("label", optionalText label),
          ("spec", .obj [("times", .obj [("times", node count)])]), ("for", node body)]
  | .range label counter start count body =>
      tagged .counted
        [("label", optionalText label),
          ("spec", .obj [("range",
            .obj [("var", .str counter), ("from", optional start), ("to", node count)])]),
          ("for", node body)]
  | .loop label statements =>
      tagged .loop [("label", optionalText label), ("statements", .arr (nodes statements))]
  | .breaking label value =>
      tagged .breaking [("label", optionalText label), ("expr", optional value)]
  | .continuing label => tagged .continuing [("label", optionalText label)]
  | .assign target value => tagged .assign [("dest", node target), ("expr", node value)]
  | .compound operator target value =>
      tagged (.compound operator) [("dest", node target), ("expr", node value)]
  | .conditional label condition clause branches otherwise =>
      tagged .conditional
        [("label", optionalText label), ("cond", node condition), ("then", node clause),
          ("elseif", .arr (pairs "cond" "then" branches)), ("else", optional otherwise)]
  | .function parameters body =>
      tagged .function
        [("params", .arr (parameterList parameters)), ("children", .arr (nodes body))]
  | .selection label subject cases otherwise =>
      tagged .selection
        [("label", optionalText label), ("about", node subject),
          ("qs", .arr (pairs "q" "a" cases)), ("default", optional otherwise)]
  | .block label statements =>
      tagged .block [("label", optionalText label), ("statements", .arr (nodes statements))]
  | .existence name => tagged .existence [("identifier", .str name)]
  | .template parts => tagged .template [("tmpl", .arr (partList parts))]
  | .str text => tagged .str [("value", .str text)]
  | .num literal => tagged .num [("value", number literal)]
  | .bool truth => tagged .bool [("value", .bool truth)]
  | .null => tagged .null []
  | .obj entries => tagged .obj [("value", .arr (entryList entries))]
  | .arr items => tagged .arr [("value", .arr (nodes items))]
  | .unary operator operand => tagged (.unary operator) [("expr", node operand)]
  | .binary operator left right =>
      tagged (.binary operator) [("left", node left), ("right", node right)]
  | .logical operator left right =>
      tagged (.logical operator) [("left", node left), ("right", node right)]
  | .identifier name => tagged .identifier [("name", .str name)]
  | .call callee arguments =>
      tagged .call [("target", node callee), ("args", .arr (nodes arguments))]
  | .index target place => tagged .index [("target", node target), ("index", node place)]
  | .prop target name => tagged .prop [("target", node target), ("name", .str name)]
  | .erased type => tagged (.erased type) []

/-- The JSON forms of nodes in order. -/
def nodes : List Node → List Document
  | [] => []
  | first :: rest => node first :: nodes rest

/-- A node that may be missing. -/
def optional : Option Node → Document
  | none => .null
  | some present => node present

/-- Attributes as objects. -/
def attributeList : List (String × Node) → List Document
  | [] => []
  | (name, value) :: rest => .obj [("name", .str name), ("value", node value)] :: attributeList rest

/-- Entries of an object literal as arrays. -/
def entryList : List (String × Node) → List Document
  | [] => []
  | (name, value) :: rest => .arr [.str name, node value] :: entryList rest

/-- Pairs of nodes as objects. -/
def pairs (first second : String) : List (Node × Node) → List Document
  | [] => []
  | (left, right) :: rest =>
      .obj [(first, node left), (second, node right)] :: pairs first second rest

/-- Parameters as objects. -/
def parameterList : List Parameter → List Document
  | [] => []
  | .mk target isOptional fallback :: rest =>
      .obj [("dest", node target), ("optional", .bool isOptional), ("default", optional fallback)]
        :: parameterList rest

/-- Pieces of a template, texts as strings. -/
def partList : List Part → List Document
  | [] => []
  | .text content :: rest => .str content :: partList rest
  | .expression present :: rest => node present :: partList rest

end

end TreeScript.Writing

namespace TreeScript

/-- The JSON form of a node. -/
def Node.toDocument (node : Node) : Document :=
  Writing.node node

/-- The JSON form of a script. -/
def Node.listToDocument (script : List Node) : Document :=
  .arr (Writing.nodes script)

end TreeScript
