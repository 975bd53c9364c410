import TreeScript.Syntax.Node
import TreeScript.Number.Text
import TreeScript.Text.Printable

/-!
# Listings of syntax trees

A listing shows a script one node a line, parts below and indented deeper than
the node they belong to.  The line of a node starts with its kind and the
position where it starts; some kinds add a name, a label or a literal.  Titles
such as `Members:` or `else:` stand on lines of their own.
-/

namespace TreeScript.Listing

open TreeScript

/-- A line at some depth of indentation. -/
def line (depth : Nat) (text : String) : String :=
  String.ofList (List.replicate (2 * depth) ' ') ++ text

/-- How a label is shown after the kind of a node. -/
def labelSuffix : Option String → String
  | none => ""
  | some label => " #" ++ label

/-- What the line of a node shows after its kind and position. -/
def suffix : Shape → String
  | .namespaceBlock name _ => " " ++ name
  | .metadata name _ => " " ++ name.getD "(default)"
  | .definition _ _ isMutable _ => if isMutable then " var" else " let"
  | .each label _ _ _ => labelSuffix label
  | .times label _ _ => labelSuffix label ++ " times"
  | .range label counter _ _ _ => labelSuffix label ++ " " ++ counter
  | .loop label _ => labelSuffix label
  | .block label _ => labelSuffix label
  | .breaking label _ => labelSuffix label
  | .continuing label => labelSuffix label
  | .conditional label _ _ _ _ => labelSuffix label
  | .selection label _ _ _ => labelSuffix label
  | .existence name => " " ++ name
  | .str text => " " ++ Text.quoteVisibly text
  | .num number => " " ++ Number.plain number
  | .bool truth => if truth then " true" else " false"
  | .identifier name => " " ++ name
  | .prop _ name => " ." ++ name
  | _ => ""

/-- The line of a node. -/
def header (depth : Nat) (shape : Shape) (start : Position) : String :=
  line depth
    (shape.kind.name ++ " @" ++ toString start.line ++ ":" ++ toString start.column
      ++ suffix shape)

mutual

/-- The lines of a node and its parts. -/
def node (depth : Nat) : Node → List String
  | .mk shape span => header depth shape span.start :: parts depth shape

/-- The lines of the parts of a construct whose own line stands at `depth`. -/
def parts (depth : Nat) : Shape → List String
  | .namespaceBlock _ members => titled (depth + 1) "Members" members
  | .metadata _ value => node (depth + 1) value
  | .definition target value _ attributes =>
      attributeLines depth attributes ++ node (depth + 1) target ++ node (depth + 1) value
  | .returning value => node (depth + 1) value
  | .each _ pattern items body =>
      node (depth + 1) pattern ++ node (depth + 1) items ++ node (depth + 1) body
  | .times _ count body => node (depth + 1) count ++ node (depth + 1) body
  | .range _ _ start count body =>
      optional (depth + 1) start ++ node (depth + 1) count ++ node (depth + 1) body
  | .loop _ statements => titled (depth + 1) "Statements" statements
  | .block _ statements => titled (depth + 1) "Statements" statements
  | .breaking _ value => optional (depth + 1) value
  | .continuing _ => []
  | .assign target value => node (depth + 1) target ++ node (depth + 1) value
  | .compound _ target value => node (depth + 1) target ++ node (depth + 1) value
  | .conditional _ condition clause branches otherwise =>
      node (depth + 1) condition ++ node (depth + 1) clause ++ pairs depth "elif:" branches
        ++ lastClause depth "else:" otherwise
  | .function parameters body =>
      (if parameters.isEmpty then [line (depth + 1) "Params: (none)"]
        else line (depth + 1) "Params:" :: parameterLines depth parameters)
        ++ titled (depth + 1) "Body" body
  | .selection _ subject cases otherwise =>
      node (depth + 1) subject ++ pairs depth "case:" cases
        ++ lastClause depth "default:" otherwise
  | .existence _ => []
  | .template pieces => pieceLines depth pieces
  | .str _ => []
  | .num _ => []
  | .bool _ => []
  | .null => []
  | .obj entries => entryLines depth entries
  | .arr items => nodes (depth + 1) items
  | .unary _ operand => node (depth + 1) operand
  | .binary _ left right => node (depth + 1) left ++ node (depth + 1) right
  | .logical _ left right => node (depth + 1) left ++ node (depth + 1) right
  | .identifier _ => []
  | .call callee arguments => node (depth + 1) callee ++ titled (depth + 1) "Args" arguments
  | .index target place => node (depth + 1) target ++ node (depth + 1) place
  | .prop target _ => node (depth + 1) target
  | .erased _ => []

/-- The lines of nodes in order. -/
def nodes (depth : Nat) : List Node → List String
  | [] => []
  | first :: rest => node depth first ++ nodes depth rest

/-- Nodes under a title, which says so when there are none. -/
def titled (depth : Nat) (title : String) : List Node → List String
  | [] => [line depth (title ++ ": (none)")]
  | first :: rest => line depth (title ++ ":") :: (node (depth + 1) first ++ nodes (depth + 1) rest)

/-- A node that may be missing. -/
def optional (depth : Nat) : Option Node → List String
  | none => []
  | some present => node depth present

/-- A last clause under its title, if there is one. -/
def lastClause (depth : Nat) (title : String) : Option Node → List String
  | none => []
  | some present => line (depth + 1) title :: node (depth + 2) present

/-- Pairs of nodes, each under a title. -/
def pairs (depth : Nat) (title : String) : List (Node × Node) → List String
  | [] => []
  | (left, right) :: rest =>
      line (depth + 1) title :: (node (depth + 2) left ++ node (depth + 2) right)
        ++ pairs depth title rest

/-- Attributes, each under its name. -/
def attributeLines (depth : Nat) : List (String × Node) → List String
  | [] => []
  | (name, value) :: rest =>
      line (depth + 1) ("#[" ++ name ++ "]") :: node (depth + 2) value
        ++ attributeLines depth rest

/-- Entries of an object literal, each under its name. -/
def entryLines (depth : Nat) : List (String × Node) → List String
  | [] => []
  | (name, value) :: rest =>
      line (depth + 1) (name ++ ":") :: node (depth + 2) value ++ entryLines depth rest

/-- Parameters with their fallbacks. -/
def parameterLines (depth : Nat) : List Parameter → List String
  | [] => []
  | .mk target isOptional fallback :: rest =>
      node (depth + 2) target ++ fallbackLines depth isOptional fallback
        ++ parameterLines depth rest

/-- What happens when the argument of a parameter is missing. -/
def fallbackLines (depth : Nat) (isOptional : Bool) : Option Node → List String
  | none => if isOptional then [line (depth + 3) "(optional)"] else []
  | some present => line (depth + 3) "default:" :: node (depth + 4) present

/-- Pieces of a template. -/
def pieceLines (depth : Nat) : List Part → List String
  | [] => []
  | .text content :: rest =>
      line (depth + 1) (Text.quoteVisibly content) :: pieceLines depth rest
  | .expression present :: rest => node (depth + 1) present ++ pieceLines depth rest

end

end TreeScript.Listing

namespace TreeScript

/-- The lines of the listing of a script. -/
def Node.listingLines (script : List Node) : List String :=
  "Script:" :: Listing.nodes 1 script

/-- The listing of a script, each line with a line break at its end. -/
def Node.listing (script : List Node) : String :=
  String.join ((Node.listingLines script).map fun line => line ++ "\n")

end TreeScript
