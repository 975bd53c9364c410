import TreeScript.Json.Token

/-!
# Reading JSON texts

The tokens of a text are fed one by one to a builder that keeps the arrays and
objects that are still open.  The nesting of a text may be limited; a text
without a limit is read however deep it is, since the open containers are data
and not a recursion.

A reader may know of places whose values nobody looks at.  A value at such a
place is skipped: it has to be well formed, but it counts toward no limit, its
numbers may be too large and its strings broken.  In the document a null
stands for it.
-/

namespace TreeScript.Json

open TreeScript

/--
An array or object whose end has not been read; its contents come in reverse
order.  Of one that is skipped only the kind is kept.
-/
inductive Container where
  | items (read : List Document)
  | members (read : List (String × Document)) (name : String)
  | skippedItems
  | skippedMembers

/-- What may come next. -/
inductive Expected where
  | value
  | firstItem
  | firstName
  | name (read : List (String × Document))
  | colon (read : List (String × Document)) (name : String)
  | skippedName
  | skippedColon
  | separator
  | nothing (document : Document)

/-- A partly read document. -/
structure Builder where
  expected : Expected
  containers : List Container

namespace Builder

/-- Nothing has been read. -/
def start : Builder :=
  ⟨.value, []⟩

/-- A value has been read completely: it goes into the innermost container. -/
def finish (document : Document) : List Container → Builder
  | [] => ⟨.nothing document, []⟩
  | .items read :: outer => ⟨.separator, .items (document :: read) :: outer⟩
  | .members read name :: outer => ⟨.separator, .members ((name, document) :: read) name :: outer⟩
  | containers => ⟨.separator, containers⟩

/-- Whether one more container may be opened. -/
def mayOpen (limit : Option Nat) (containers : List Container) : Bool :=
  match limit with
  | none => true
  | some limit => containers.length < limit

/-- Read the first token of a value that is kept. -/
def beginKept (limit : Option Nat) (containers : List Container) : Token → Option Builder
  | .openArray =>
      if mayOpen limit containers then some ⟨.firstItem, .items [] :: containers⟩ else none
  | .openObject =>
      if mayOpen limit containers then some ⟨.firstName, .members [] "" :: containers⟩ else none
  | .null => some (finish .null containers)
  | .bool truth => some (finish (.bool truth) containers)
  | .num (some numeral) => some (finish (.num numeral) containers)
  | .str (some text) => some (finish (.str text) containers)
  | _ => none

/-- Read the first token of a value that is skipped. -/
def beginSkipped (containers : List Container) : Token → Option Builder
  | .openArray => some ⟨.firstItem, .skippedItems :: containers⟩
  | .openObject => some ⟨.firstName, .skippedMembers :: containers⟩
  | .null => some (finish .null containers)
  | .bool _ => some (finish .null containers)
  | .num _ => some (finish .null containers)
  | .str _ => some (finish .null containers)
  | _ => none

/-- Whether a value at this place is skipped: the place is unread, or inside a skipped value. -/
def isSkipped (unread : List Container → Bool) (containers : List Container) : Bool :=
  match containers with
  | .skippedItems :: _ => true
  | .skippedMembers :: _ => true
  | containers => unread containers

/-- Read the first token of a value. -/
def beginValue (limit : Option Nat) (unread : List Container → Bool)
    (containers : List Container) (token : Token) : Option Builder :=
  if isSkipped unread containers then beginSkipped containers token
  else beginKept limit containers token

/-- Take one token. -/
def feed (limit : Option Nat) (unread : List Container → Bool) (builder : Builder)
    (token : Token) : Option Builder :=
  match builder.expected, builder.containers, token with
  | .value, containers, token => beginValue limit unread containers token
  | .firstItem, .items _ :: outer, .closeArray => some (finish (.arr []) outer)
  | .firstItem, .skippedItems :: outer, .closeArray => some (finish .null outer)
  | .firstItem, containers, token => beginValue limit unread containers token
  | .firstName, .members _ _ :: outer, .closeObject => some (finish (.obj []) outer)
  | .firstName, .members _ _ :: outer, .str (some name) => some ⟨.colon [] name, outer⟩
  | .firstName, .skippedMembers :: outer, .closeObject => some (finish .null outer)
  | .firstName, .skippedMembers :: outer, .str _ => some ⟨.skippedColon, .skippedMembers :: outer⟩
  | .name read, outer, .str (some name) => some ⟨.colon read name, outer⟩
  | .skippedName, containers, .str _ => some ⟨.skippedColon, containers⟩
  | .colon read name, outer, .colon => some ⟨.value, .members read name :: outer⟩
  | .skippedColon, containers, .colon => some ⟨.value, containers⟩
  | .separator, .items read :: outer, .comma => some ⟨.value, .items read :: outer⟩
  | .separator, .items read :: outer, .closeArray => some (finish (.arr read.reverse) outer)
  | .separator, .members read _ :: outer, .comma => some ⟨.name read, outer⟩
  | .separator, .members read _ :: outer, .closeObject => some (finish (.obj read.reverse) outer)
  | .separator, .skippedItems :: outer, .comma => some ⟨.value, .skippedItems :: outer⟩
  | .separator, .skippedItems :: outer, .closeArray => some (finish .null outer)
  | .separator, .skippedMembers :: outer, .comma => some ⟨.skippedName, .skippedMembers :: outer⟩
  | .separator, .skippedMembers :: outer, .closeObject => some (finish .null outer)
  | _, _, _ => none

/-- Take all tokens. -/
def feedAll (limit : Option Nat) (unread : List Container → Bool) :
    Builder → List Token → Option Builder
  | builder, [] => some builder
  | builder, token :: rest =>
      (builder.feed limit unread token).bind fun next => feedAll limit unread next rest

end Builder

/--
Read a JSON text whose containers nest at most `limit` deep, skipping the
values at places that `unread` accepts.
-/
def readSkipping? (unread : List Container → Bool) (limit : Option Nat) (text : String) :
    Option Document := do
  let characters := text.toList
  let tokens ← tokens? characters.length characters
  let builder ← Builder.start.feedAll limit unread tokens
  match builder.expected with
  | .nothing document => some document
  | _ => none

/-- Read a JSON text whose containers nest at most `limit` deep. -/
def read? (limit : Option Nat) (text : String) : Option Document :=
  readSkipping? (fun _ => false) limit text

/-- The nesting that files and embedded texts are read with. -/
def nestingLimit : Nat :=
  127

end TreeScript.Json
