import TreeScript.Dict
import TreeScript.Number.Double

/-!
# JSON documents

A document keeps what its text says: members of an object stay in their
written order and may repeat a name, and an integer is not the same as a
number written with a fraction.  Readers that do not care pick what they need:
`Document.last?` takes the last member of a name, `Document.settle` keeps only
that one.
-/

namespace TreeScript

/-- A JSON number: a 64-bit integer if it was written as one that fits, else a double. -/
inductive Numeral where
  | natural (magnitude : Nat)
  | negative (magnitude : Nat)
  | real (number : Float)
  deriving DecidableEq

/-- The double nearest to a JSON number. -/
def Numeral.toFloat : Numeral → Float
  | .natural magnitude => Float.ofNat magnitude
  | .negative magnitude => -(Float.ofNat magnitude)
  | .real number => number

/-- A JSON value, with the members of objects in written order. -/
inductive Document where
  | null
  | bool (truth : Bool)
  | num (numeral : Numeral)
  | str (text : String)
  | arr (items : List Document)
  | obj (members : List (String × Document))

namespace Document

instance : Inhabited Document :=
  ⟨.null⟩

/-- All members of one name. -/
def named {α : Type} (name : String) (members : List (String × α)) : List α :=
  (members.filter fun member => member.1 == name).map Prod.snd

/-- The last member of a name. -/
def last? {α : Type} (name : String) (members : List (String × α)) : Option α :=
  (named name members).getLast?

/-- The last member of a name in an object; other documents have no members. -/
def member? (document : Document) (name : String) : Option Document :=
  match document with
  | .obj members => last? name members
  | _ => none

/-- Of members that share a name keep the last one; `later` are the names of later members. -/
def keepLast {α : Type} (members : List (String × α)) : List (String × α) :=
  (members.foldr
    (fun member (kept, later) =>
      if later.contains member.1 then (kept, later)
      else (member :: kept, later.insert member.1 ()))
    (([] : List (String × α)), (Dict.empty : Dict Unit))).1

mutual

/-- Give every object at most one member of each name, the one that was written last. -/
def settle : Document → Document
  | .arr items => .arr (settleItems items)
  | .obj members => .obj (keepLast (settleMembers members))
  | document => document

/-- Settle every item of an array. -/
def settleItems : List Document → List Document
  | [] => []
  | item :: rest => settle item :: settleItems rest

/-- Settle every member of an object. -/
def settleMembers : List (String × Document) → List (String × Document)
  | [] => []
  | (name, document) :: rest => (name, settle document) :: settleMembers rest

/-- How deep arrays and objects nest. -/
def depth : Document → Nat
  | .arr items => depthItems items + 1
  | .obj members => depthMembers members + 1
  | _ => 0

/-- The deepest nesting in the items of an array. -/
def depthItems : List Document → Nat
  | [] => 0
  | item :: rest => max (depth item) (depthItems rest)

/-- The deepest nesting in the members of an object. -/
def depthMembers : List (String × Document) → Nat
  | [] => 0
  | (_, document) :: rest => max (depth document) (depthMembers rest)

end

end Document

end TreeScript
