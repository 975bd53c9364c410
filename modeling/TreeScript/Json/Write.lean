import TreeScript.Json.Document
import TreeScript.Number.Text

/-!
# Writing JSON texts

Two layouts of one document: `Document.compact` on a single line without
blanks, and `Document.pretty` with one item a line and two more blanks for
each level of nesting.  Only quotes, backslashes and control characters are
escaped.
-/

namespace TreeScript.Json

open TreeScript

/-- A hexadecimal digit in lower case. -/
def hexDigit (digit : Nat) : Char :=
  if digit < 10 then Char.ofNat ('0'.toNat + digit) else Char.ofNat ('a'.toNat + (digit - 10))

/-- How a character is written inside a string. -/
def escape (character : Char) : List Char :=
  if character == '"' then ['\\', '"']
  else if character == '\\' then ['\\', '\\']
  else if character == '\n' then ['\\', 'n']
  else if character == '\r' then ['\\', 'r']
  else if character == '\t' then ['\\', 't']
  else if character.toNat = 8 then ['\\', 'b']
  else if character.toNat = 12 then ['\\', 'f']
  else if character.toNat < 32 then
    ['\\', 'u', '0', '0', hexDigit (character.toNat / 16), hexDigit (character.toNat % 16)]
  else [character]

/-- A string in quotes. -/
def quote (text : String) : String :=
  String.ofList ('"' :: (text.toList.flatMap escape ++ ['"']))

/-- The text of a number. -/
def numeralText : Numeral → String
  | .natural magnitude => toString magnitude
  | .negative magnitude => "-" ++ toString magnitude
  | .real number => Number.json number

end TreeScript.Json

namespace TreeScript.Document

open TreeScript.Json

mutual

/-- A document on one line, without blanks. -/
def compact : Document → String
  | .null => "null"
  | .bool truth => if truth then "true" else "false"
  | .num numeral => numeralText numeral
  | .str text => quote text
  | .arr items => "[" ++ String.intercalate "," (compactItems items) ++ "]"
  | .obj members => "\x7b" ++ String.intercalate "," (compactMembers members) ++ "\x7d"

/-- The items of an array. -/
def compactItems : List Document → List String
  | [] => []
  | item :: rest => compact item :: compactItems rest

/-- The members of an object. -/
def compactMembers : List (String × Document) → List String
  | [] => []
  | (name, document) :: rest => (quote name ++ ":" ++ compact document) :: compactMembers rest

end

/-- A new line that is indented by some levels. -/
def newline (level : Nat) : String :=
  String.ofList ('\n' :: List.replicate (2 * level) ' ')

/-- Lines between brackets; without lines the brackets stand alone. -/
def enclosed (opening closing : String) (level : Nat) (lines : List String) : String :=
  if lines.isEmpty then opening ++ closing
  else opening ++ String.intercalate "," lines ++ newline level ++ closing

mutual

/-- A document with one item a line; `level` counts the containers around it. -/
def prettyAt (level : Nat) : Document → String
  | .null => "null"
  | .bool truth => if truth then "true" else "false"
  | .num numeral => numeralText numeral
  | .str text => quote text
  | .arr items => enclosed "[" "]" level (prettyItems (level + 1) items)
  | .obj members => enclosed "\x7b" "\x7d" level (prettyMembers (level + 1) members)

/-- The items of an array, each on a line of its own. -/
def prettyItems (level : Nat) : List Document → List String
  | [] => []
  | item :: rest => (newline level ++ prettyAt level item) :: prettyItems level rest

/-- The members of an object, each on a line of its own. -/
def prettyMembers (level : Nat) : List (String × Document) → List String
  | [] => []
  | (name, document) :: rest =>
      (newline level ++ quote name ++ ": " ++ prettyAt level document)
        :: prettyMembers level rest

end

/-- A document with one item a line. -/
def pretty (document : Document) : String :=
  prettyAt 0 document

end TreeScript.Document
