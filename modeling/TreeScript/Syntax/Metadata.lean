import TreeScript.Dict
import TreeScript.Error
import TreeScript.Json.Document

/-!
# Metadata

Metadata stands in blocks at the top level of a script.  A block must hold
literals only; it is read without evaluating anything.  Of two blocks with one
name the later counts, and of two entries of an object likewise.
-/

namespace TreeScript.Metadata

open TreeScript

/-- The error for a node that is no literal. -/
def unexpected (kind : Kind) (position : Position) : Error :=
  (Error.of (.hostSide ("Unexpected node in metadata: " ++ kind.name))).positioned position

mutual

/-- The document of a literal. -/
def literal : Node → Except Error Document
  | .mk .null _ => .ok .null
  | .mk (.bool truth) _ => .ok (.bool truth)
  | .mk (.num number) _ => .ok (if number.isFinite then .num (.real number) else .null)
  | .mk (.str text) _ => .ok (.str text)
  | .mk (.arr items) _ => do
      return .arr (← literals items)
  | .mk (.obj entries) _ => do
      return .obj (Dict.ofList (← entryLiterals entries)).entries
  | .mk shape span => .error (unexpected shape.kind span.start)

/-- The documents of literals in order. -/
def literals : List Node → Except Error (List Document)
  | [] => .ok []
  | node :: rest => do
      let document ← literal node
      return document :: (← literals rest)

/-- The documents of named literals in order. -/
def entryLiterals : List (String × Node) → Except Error (List (String × Document))
  | [] => .ok []
  | (name, node) :: rest => do
      let document ← literal node
      return (name, document) :: (← entryLiterals rest)

end

/-- A metadata block: its name, if it has one, and its document. -/
abbrev Block := Option String × Document

/-- Whether a block comes before one of another name: the unnamed first, then by name. -/
def before : Option String → Option String → Bool
  | none, some _ => true
  | some name, some other => name < other
  | _, none => false

/-- Put a block at its place, instead of one of the same name. -/
def insert (block : Block) : List Block → List Block
  | [] => [block]
  | first :: rest =>
      if before block.1 first.1 then block :: first :: rest
      else if first.1 == block.1 then block :: rest
      else first :: insert block rest

/-- The blocks of a script, added to those that were read before. -/
def collectFrom (read : List Block) : List Node → Except Error (List Block)
  | [] => .ok read
  | .mk (.metadata name value) _ :: rest => do
      let document ← literal value
      collectFrom (insert (name, document) read) rest
  | _ :: rest => collectFrom read rest

/-- The metadata of a script in the order of the names; an empty script has none at all. -/
def collect (script : List Node) : Except Error (Option (List Block)) :=
  if script.isEmpty then .ok none else (collectFrom [] script).map some

end TreeScript.Metadata
