import TreeScript.Native

/-!
# The names that scripts mention

A script mentions the names that it defines, binds as parameters or loop
variables, assigns to, reads, or asks for; an operator reads the name of its
library function.  A node keeps to some names if it mentions no others and has
neither namespaces nor attributes anywhere in it.  Metadata is not evaluated,
so nothing is asked of it.
-/

namespace TreeScript

mutual

/-- Whether a node keeps to some names. -/
def Node.keepsTo (names : String → Bool) : Node → Bool
  | .mk shape _ => shape.keepsTo names

/-- Whether a construct keeps to some names. -/
def Shape.keepsTo (names : String → Bool) : Shape → Bool
  | .namespaceBlock _ _ => false
  | .definition target value _ attributes =>
      target.keepsTo names && value.keepsTo names && attributes.isEmpty
  | .returning value => value.keepsTo names
  | .each _ pattern items body =>
      pattern.keepsTo names && items.keepsTo names && body.keepsTo names
  | .times _ count body => count.keepsTo names && body.keepsTo names
  | .range _ counter start count body =>
      names counter && Node.keepsToIfAny names start && count.keepsTo names &&
        body.keepsTo names
  | .loop _ statements => Node.keepTo names statements
  | .breaking _ value => Node.keepsToIfAny names value
  | .assign target value => target.keepsTo names && value.keepsTo names
  | .compound _ target value => target.keepsTo names && value.keepsTo names
  | .conditional _ condition clause branches otherwise =>
      condition.keepsTo names && clause.keepsTo names && Node.branchesKeepTo names branches &&
        Node.keepsToIfAny names otherwise
  | .function parameters body => Parameter.keepTo names parameters && Node.keepTo names body
  | .selection _ subject cases otherwise =>
      subject.keepsTo names && Node.branchesKeepTo names cases &&
        Node.keepsToIfAny names otherwise
  | .block _ statements => Node.keepTo names statements
  | .existence name => names name
  | .template parts => Part.keepTo names parts
  | .obj entries => Node.entriesKeepTo names entries
  | .arr items => Node.keepTo names items
  | .unary _ operand => operand.keepsTo names
  | .binary operator left right =>
      names (LibraryFunction.ofOperator operator).name && left.keepsTo names &&
        right.keepsTo names
  | .logical _ left right => left.keepsTo names && right.keepsTo names
  | .identifier name => names name
  | .call callee arguments => callee.keepsTo names && Node.keepTo names arguments
  | .index target place => target.keepsTo names && place.keepsTo names
  | .prop target _ => target.keepsTo names
  | .metadata _ _ | .continuing _ | .str _ | .num _ | .bool _ | .null | .erased _ => true

/-- Whether all of some nodes keep to some names. -/
def Node.keepTo (names : String → Bool) : List Node → Bool
  | [] => true
  | node :: rest => node.keepsTo names && Node.keepTo names rest

/-- Whether the nodes of named entries keep to some names. -/
def Node.entriesKeepTo (names : String → Bool) : List (String × Node) → Bool
  | [] => true
  | (_, node) :: rest => node.keepsTo names && Node.entriesKeepTo names rest

/-- Whether conditions and their clauses keep to some names. -/
def Node.branchesKeepTo (names : String → Bool) : List (Node × Node) → Bool
  | [] => true
  | (condition, clause) :: rest =>
      condition.keepsTo names && clause.keepsTo names && Node.branchesKeepTo names rest

/-- Whether a node that may be missing keeps to some names. -/
def Node.keepsToIfAny (names : String → Bool) : Option Node → Bool
  | none => true
  | some node => node.keepsTo names

/-- Whether parameters keep to some names. -/
def Parameter.keepTo (names : String → Bool) : List Parameter → Bool
  | [] => true
  | .mk target _ fallback :: rest =>
      target.keepsTo names && Node.keepsToIfAny names fallback && Parameter.keepTo names rest

/-- Whether the expressions of a template keep to some names. -/
def Part.keepTo (names : String → Bool) : List Part → Bool
  | [] => true
  | .text _ :: rest => Part.keepTo names rest
  | .expression node :: rest => node.keepsTo names && Part.keepTo names rest

end

end TreeScript
