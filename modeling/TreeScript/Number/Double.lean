/-!
# What a double stands for

`Float` stores a number; this module says which number it is.  A double is not
a number, infinite, or a significand times a power of two, and everything that
must be exact (whole parts, remainders, decimal digits) is computed on that
view in natural number arithmetic.
-/

namespace TreeScript

/-- A double as a sign, a significand and a binary exponent. -/
inductive Double where
  | nan
  | infinite (negative : Bool)
  | finite (negative : Bool) (significand : Nat) (exponent : Int)
  deriving DecidableEq, Repr

namespace Double

/-- The weight of the sign bit. -/
def signWeight : Nat :=
  1 <<< 63

/-- The weight of the lowest exponent bit, and the least significand of a normal double. -/
def exponentWeight : Nat :=
  1 <<< 52

/-- Read sign, exponent and fraction off the sixty-four bits. -/
def ofFloat (number : Float) : Double :=
  let bits := number.toBits.toNat
  let negative := decide (signWeight ≤ bits)
  let biased := bits / exponentWeight % 2048
  let fraction := bits % exponentWeight
  if biased = 2047 then
    if fraction = 0 then .infinite negative else .nan
  else if biased = 0 then .finite negative fraction (-1074)
  else .finite negative (exponentWeight + fraction) (Int.ofNat biased - 1075)

/-- The bits of a magnitude that a double can hold exactly. -/
def magnitudeBits (significand : Nat) (exponent : Int) : Nat :=
  if significand = 0 then 0
  else
    let width := significand.log2
    let leading := exponent + Int.ofNat width
    if leading < -1022 then
      let shift := exponent + 1074
      if 0 ≤ shift then significand <<< shift.toNat else significand >>> (-shift).toNat
    else
      let fraction :=
        if width ≤ 52 then significand <<< (52 - width) else significand >>> (width - 52)
      (leading + 1023).toNat * exponentWeight + (fraction - exponentWeight)

/-- The double with this view, provided that the view is one of a double. -/
def toFloat : Double → Float
  | .nan => Float.ofBits 0x7ff8000000000000
  | .infinite negative =>
      Float.ofBits (if negative then 0xfff0000000000000 else 0x7ff0000000000000)
  | .finite negative significand exponent =>
      Float.ofBits
        (UInt64.ofNat ((if negative then signWeight else 0) + magnitudeBits significand exponent))

/-- The whole part of `significand * 2 ^ exponent`. -/
def wholePart (significand : Nat) (exponent : Int) : Nat :=
  if 0 ≤ exponent then significand <<< exponent.toNat else significand >>> (-exponent).toNat

/-- Whether `significand * 2 ^ exponent` is a whole number. -/
def isWhole (significand : Nat) (exponent : Int) : Bool :=
  if 0 ≤ exponent then true else significand % (1 <<< (-exponent).toNat) == 0

/-- The integer that a double is equal to, if there is one. -/
def integer? (number : Float) : Option Int :=
  match ofFloat number with
  | .finite negative significand exponent =>
      if isWhole significand exponent then
        let magnitude := Int.ofNat (wholePart significand exponent)
        some (if negative then -magnitude else magnitude)
      else none
  | _ => none

/-- The natural number that a double is equal to, if there is one; negative zero is zero. -/
def natural? (number : Float) : Option Nat :=
  match integer? number with
  | some (.ofNat magnitude) => some magnitude
  | _ => none

/-- The whole part of the magnitude of a finite double. -/
def wholeMagnitude (number : Float) : Nat :=
  match ofFloat number with
  | .finite _ significand exponent => wholePart significand exponent
  | _ => 0

/--
The remainder of a division that rounds toward zero.  It is exact, takes the
sign of the dividend, and is not a number when the dividend is infinite or the
divisor is zero.
-/
def remainder (dividend divisor : Float) : Float :=
  match ofFloat dividend, ofFloat divisor with
  | .finite negative significand exponent, .finite _ unit scale =>
      if unit = 0 then toFloat .nan
      else
        let common := min exponent scale
        let rest :=
          (significand <<< (exponent - common).toNat) % (unit <<< (scale - common).toNat)
        toFloat (.finite negative rest common)
  | .finite _ _ _, .infinite _ => dividend
  | _, _ => toFloat .nan

/-- Positive infinity. -/
def infinity : Float :=
  toFloat (.infinite false)

/-- Not a number. -/
def notANumber : Float :=
  toFloat .nan

end Double

end TreeScript
