import TreeScript.Number.Double

/-!
# Reading decimal numbers

`Number.ofText?` reads the decimal notation that scripts convert to numbers: an
optional sign, then `inf`, `infinity` or `nan` in letters of either case, or
digits with an optional decimal point and an optional exponent.  At least one
digit is needed before the exponent, on either side of the point.  The result
is the nearest double.

Numbers may have any number of digits.  Two doubles and the point midway between
them have fewer than `significantPlaces` significant digits, so on which side of
such a point a number lies is decided by that many of its digits and by whether
any digit after them counts.  An exponent takes no further digits once it has
reached `exponentBound`.
-/

namespace TreeScript.Number

open TreeScript

/-- The value of a list of decimal digits. -/
def digitsValue (digits : List Char) : Nat :=
  digits.foldl (fun value digit => 10 * value + (digit.toNat - '0'.toNat)) 0

/-- The value of a list of decimal digits; a value that has reached the bound takes no more. -/
def boundedValue (bound : Nat) (digits : List Char) : Nat :=
  digits.foldl
    (fun value digit =>
      if value < bound then 10 * value + (digit.toNat - '0'.toNat) else value) 0

/-- Split a text after its leading decimal digits. -/
def spanDigits (text : List Char) : List Char × List Char :=
  (text.takeWhile Char.isDigit, text.dropWhile Char.isDigit)

/-- Split off a leading sign; without one the number is positive. -/
def spanSign : List Char → Bool × List Char
  | '-' :: rest => (true, rest)
  | '+' :: rest => (false, rest)
  | text => (false, text)

/-- An exponent that has reached this bound takes no further digits. -/
def exponentBound : Nat :=
  65536

/-- Read the exponent that ends a number; a text without one stands for exponent zero. -/
def exponent? : List Char → Option Int
  | [] => some 0
  | mark :: rest =>
      if mark = 'e' ∨ mark = 'E' then
        let (negative, digits) := spanSign rest
        if digits.isEmpty || !digits.all Char.isDigit then none
        else
          let magnitude := Int.ofNat (boundedValue exponentBound digits)
          some (if negative then -magnitude else magnitude)
      else none

/-- The number of leading digits that are kept to round a number. -/
def significantPlaces : Nat :=
  800

/--
A shorter decimal that lies between the same doubles: the leading digits, and a
one in place of the digits after them unless all of these are zeros.
-/
def condense (digits : List Char) (exponent : Int) : List Char × Int :=
  let dropped := digits.drop significantPlaces
  let kept := digits.take significantPlaces
  let exponent := exponent + Int.ofNat dropped.length
  if dropped.all fun digit => digit == '0' then (kept, exponent)
  else (kept ++ ['1'], exponent - 1)

/--
The double nearest to the number that some digits stand for, times
`10 ^ exponent`.  Numbers beyond all doubles and numbers that are too small for
any are settled first, so that no huge power is computed.
-/
def nearest (digits : List Char) (exponent : Int) : Float :=
  let significant := digits.dropWhile fun digit => digit == '0'
  let places := exponent + Int.ofNat significant.length
  if significant.isEmpty then Float.ofBits 0
  else if 400 < places then Double.infinity
  else if places < -400 then Float.ofBits 0
  else
    let (digits, exponent) := condense significant exponent
    Float.ofScientific (digitsValue digits) (decide (exponent < 0)) exponent.natAbs

/-- Read an unsigned decimal number. -/
def unsigned? (text : List Char) : Option Float :=
  let (whole, rest) := spanDigits text
  let (fraction, tail) :=
    match rest with
    | '.' :: rest => spanDigits rest
    | rest => ([], rest)
  if whole.isEmpty && fraction.isEmpty then none
  else (exponent? tail).map fun exponent =>
    nearest (whole ++ fraction) (exponent - Int.ofNat fraction.length)

/-- Read a number in decimal notation. -/
def ofText? (text : List Char) : Option Float :=
  let (negative, rest) := spanSign text
  let word := String.ofList (rest.map Char.toLower)
  let magnitude :=
    if word = "inf" ∨ word = "infinity" then some Double.infinity
    else if word = "nan" then some Double.notANumber
    else unsigned? rest
  magnitude.map fun number => if negative then -number else number

end TreeScript.Number
