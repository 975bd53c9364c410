import TreeScript.Number.Double

/-!
# The shortest decimal of a double

Every double is told apart from its neighbours by a few decimal digits.  The
numbers that round to `significand * 2 ^ exponent` form an interval, whose ends
belong to it exactly when the significand is even.  `Shortest.decimal` looks
for a multiple of a power of ten in that interval, on coarse grids before fine
ones, and takes of two multiples on one grid the nearer.  What happens to an
exact tie is the caller's choice.
-/

namespace TreeScript

/-- The number `digits * 10 ^ exponent`. -/
structure Decimal where
  digits : Nat
  exponent : Int
  deriving DecidableEq, Repr

namespace Shortest

/-- Which of two equally near decimals is taken. -/
inductive Tie where
  | up
  | even
  deriving DecidableEq, Repr

/-- A power of ten. -/
def powerOfTen (exponent : Nat) : Nat :=
  Nat.pow 10 exponent

/-- The reals that round to a double, in quarters of a unit in its last place. -/
structure Interval where
  low : Nat
  middle : Nat
  high : Nat
  exponent : Int
  closed : Bool

/-- The interval of a positive finite double; below a power of two the spacing is halved. -/
def Interval.ofDouble (significand : Nat) (exponent : Int) : Interval where
  low := 4 * significand - (if significand = Double.exponentWeight ∧ -1074 < exponent then 1 else 2)
  middle := 4 * significand
  high := 4 * significand + 2
  exponent := exponent - 2
  closed := significand % 2 == 0

/-- The multiple of `10 ^ power` in the interval that is nearest to its middle. -/
def Interval.nearest? (interval : Interval) (tie : Tie) (power : Int) : Option Nat :=
  let unit := powerOfTen power.toNat <<< (-interval.exponent).toNat
  let scale := powerOfTen (-power).toNat <<< interval.exponent.toNat
  let inside (count : Nat) : Bool :=
    if interval.closed then
      interval.low * scale ≤ count * unit && count * unit ≤ interval.high * scale
    else interval.low * scale < count * unit && count * unit < interval.high * scale
  let below := interval.middle * scale / unit
  let above := below + 1
  match inside below, inside above with
  | false, false => none
  | true, false => some below
  | false, true => some above
  | true, true =>
      let before := interval.middle * scale - below * unit
      let after := above * unit - interval.middle * scale
      if before < after then some below
      else if after < before then some above
      else match tie with
        | .up => some above
        | .even => some (if below % 2 = 0 then below else above)

/-- Search the grids from `10 ^ power` on, each ten times finer than the one before. -/
def search (interval : Interval) (tie : Tie) : Nat → Int → Decimal
  | 0, power => ⟨0, power⟩
  | finer + 1, power =>
      match interval.nearest? tie power with
      | some count => ⟨count, power⟩
      | none => search interval tie finer (power - 1)

/-- Drop zeros at the end of the digits. -/
def trim : Nat → Decimal → Decimal
  | 0, decimal => decimal
  | bound + 1, decimal =>
      if decimal.digits ≠ 0 ∧ decimal.digits % 10 = 0 then
        trim bound ⟨decimal.digits / 10, decimal.exponent + 1⟩
      else decimal

/--
The decimal with the fewest digits that reads back as a positive double.  The
first grid lies above the number, and some grid at most twenty times finer has
a multiple in the interval because seventeen digits always suffice.
-/
def decimal (tie : Tie) (significand : Nat) (exponent : Int) : Decimal :=
  let magnitude := exponent + Int.ofNat significand.log2 + 1
  let start := Int.fdiv (magnitude * 30103) 100000 + 1
  trim 20 (search (Interval.ofDouble significand exponent) tie 24 start)

end Shortest

end TreeScript
