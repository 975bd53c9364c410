import TreeScript.Number.Shortest

/-!
# Numbers as text

Three spellings of a double are in use, and all three print the shortest
decimal that reads back.

* `Number.plain` never uses an exponent.  Error messages and tree listings
  print it.
* `Number.display` is what scripts print: whole numbers below `10 ^ 15` as
  integers, the infinities and not-a-number in words.
* `Number.json` is the spelling in JSON texts, with a fraction or an exponent
  always present.
-/

namespace TreeScript.Number

open TreeScript

/-- A text of `count` zeros. -/
def zeros (count : Nat) : String :=
  String.ofList (List.replicate count '0')

/-- Write digits with the decimal point `exponent` places from their right end. -/
def positional (digits : String) (exponent : Int) : String :=
  if 0 ≤ exponent then digits ++ zeros exponent.toNat
  else
    let places := (-exponent).toNat
    if places < digits.length then
      let whole := digits.length - places
      String.ofList (digits.toList.take whole) ++ "." ++ String.ofList (digits.toList.drop whole)
    else "0." ++ zeros (places - digits.length) ++ digits

/-- Put a minus sign in front of a negative number. -/
def signed (negative : Bool) (text : String) : String :=
  if negative then "-" ++ text else text

/-- The shortest decimal without an exponent; of two equally near ones the upper. -/
def plain (number : Float) : String :=
  match Double.ofFloat number with
  | .nan => "NaN"
  | .infinite negative => signed negative "inf"
  | .finite negative significand exponent =>
      if significand = 0 then signed negative "0"
      else
        let decimal := Shortest.decimal .up significand exponent
        signed negative (positional (toString decimal.digits) decimal.exponent)

/-- Whole numbers of at least this magnitude are no longer shown as integers. -/
def displayLimit : Nat :=
  1000000000000000

/-- The text of a number in a script. -/
def display (number : Float) : String :=
  match Double.ofFloat number with
  | .nan => "NaN"
  | .infinite negative => signed negative "Infinity"
  | .finite _ _ _ =>
      match Double.integer? number with
      | some whole => if whole.natAbs < displayLimit then toString whole else plain number
      | none => plain number

/-- An exponent with its sign, also if it is positive. -/
def signedExponent (exponent : Int) : String :=
  (if 0 ≤ exponent then "+" else "-") ++ toString exponent.natAbs

/--
The JSON spelling of a finite number: positional while the point falls among
the first sixteen places or at most five zeros follow it, otherwise one digit
before the point and a signed exponent.  Of two equally near decimals the even
one is taken.
-/
def json (number : Float) : String :=
  match Double.ofFloat number with
  | .nan => "null"
  | .infinite _ => "null"
  | .finite negative significand exponent =>
      if significand = 0 then signed negative "0.0"
      else
        let decimal := Shortest.decimal .even significand exponent
        let digits := toString decimal.digits
        let point := decimal.exponent + Int.ofNat digits.length
        if 0 ≤ decimal.exponent ∧ point ≤ 16 then
          signed negative (positional digits decimal.exponent ++ ".0")
        else if -5 < point ∧ point ≤ 16 then signed negative (positional digits decimal.exponent)
        else
          let fraction := String.ofList (digits.toList.drop 1)
          let head := String.ofList (digits.toList.take 1)
          let mantissa := if fraction.isEmpty then head else head ++ "." ++ fraction
          signed negative (mantissa ++ "e" ++ signedExponent (point - 1))

end TreeScript.Number
