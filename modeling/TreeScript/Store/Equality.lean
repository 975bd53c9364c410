import TreeScript.Store.Basic

/-!
# Equality of values

Data is compared by structure, functions by identity, and attributes are not
compared at all.  Containers may contain themselves: while two containers are
being compared they count as equal, so that a pair met again below itself ends
the comparison on that path.
-/

namespace TreeScript

/-- Two containers that are compared with each other. -/
inductive ContainerPair where
  | arrays (left right : ArrayId)
  | objects (left right : ObjectId)
  deriving DecidableEq

/-- Compare two values, given how the contents of different containers compare. -/
def Value.equals (contents : ContainerPair → Bool) : Value → Value → Bool
  | .null, .null => true
  | .bool left, .bool right => left == right
  | .num left, .num right => left == right
  | .str left, .str right => left == right
  | .arr left, .arr right => left == right || contents (.arrays left right)
  | .obj left, .obj right => left == right || contents (.objects left right)
  | .fn left, .fn right => left == right
  | .error left, .error right => left == right
  | .errorWith left information, .errorWith right other =>
      left == right && information.equals contents other
  | _, _ => false

namespace Store

/-- Compare two lists place by place. -/
def equalLists {α : Type} (equal : α → α → Bool) : List α → List α → Bool
  | [], [] => true
  | first :: rest, other :: others => equal first other && equalLists equal rest others
  | _, _ => false

/--
Compare the contents of two containers: equal elements, or equal names with
equal entries.  Containers of different sizes are told apart before anything in
them is compared.
-/
def equalContents (store : Store) (equal : Value → Value → Bool) : ContainerPair → Bool
  | .arrays left right =>
      (store.items left).size == (store.items right).size
        && equalLists equal (store.items left).toList (store.items right).toList
  | .objects left right =>
      (store.entries left).size == (store.entries right).size
        && equalLists (fun entry other => entry.1 == other.1 && equal entry.2 other.2)
          (store.entries left).entries (store.entries right).entries

/-- Compare two values below some pairs, opening at most `budget` further pairs. -/
def equalWithin (store : Store) : Nat → List ContainerPair → Value → Value → Bool
  | 0, _ => fun _ _ => true
  | budget + 1, assumed =>
      Value.equals fun pair =>
        assumed.contains pair
          || store.equalContents (store.equalWithin budget (pair :: assumed)) pair

/-- The number of pairs of containers of one kind. -/
def pairCount (store : Store) : Nat :=
  store.arrays.size * store.arrays.size + store.objects.size * store.objects.size

/-- Whether two values are equal.  No pair is opened twice on one path. -/
def equal (store : Store) (left right : Value) : Bool :=
  store.equalWithin (store.pairCount + 1) [] left right

end Store

end TreeScript
