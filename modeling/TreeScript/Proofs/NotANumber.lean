import Mathlib
import TreeScript.Number.Double

/-!
# Which arithmetic gives no number

A double is stored in packed form, and every operation packs its result.
Packing keeps whether something is a number (`Double.isNaN_pack`), so the
operations can be read off their unpacked form: a sum is a number if one of the
operands is finite and the other one is a number, and so is a difference.
-/

namespace TreeScript.Double

open Float.Model (UnpackedFloat Format)
open Float.Model.UnpackedFloat (unpackExponent_packComponents unpackMantissa_packComponents)

/-! ## Packing -/

/-- Components of which the exponent is not the greatest are those of a number. -/
theorem isNaN_unpack_packComponents {spec : Format} {sign : UnpackedFloat.Sign}
    {exponent : BitVec spec.exponentBits} {mantissa : BitVec spec.mantissaBitsWithoutImplicit}
    (less : exponent ≠ -BitVec.ofNat spec.exponentBits 1) :
    (UnpackedFloat.unpack spec
      (UnpackedFloat.packComponents spec sign exponent mantissa)).isNaN = false := by
  rw [UnpackedFloat.unpack]
  simp only [unpackExponent_packComponents, unpackMantissa_packComponents]
  rw [if_neg less]
  split
  · split <;> rfl
  · rfl

/-- Packing keeps whether something is a number. -/
theorem isNaN_pack (unpacked : UnpackedFloat) :
    (Float.Model.pack unpacked).isNaN = unpacked.isNaN := by
  show (UnpackedFloat.unpack .binary64 (UnpackedFloat.pack .binary64 unpacked)).isNaN = _
  cases unpacked with
  | notANumber => rfl
  | infinity sign => cases sign <;> rfl
  | zero sign => cases sign <;> rfl
  | finite sign mantissa exponent positive =>
      rw [UnpackedFloat.pack]
      dsimp only
      split
      · cases sign <;> rfl
      · rename_i small
        split
        · refine isNaN_unpack_packComponents fun greatest => small ?_
          have same := congrArg BitVec.toNat greatest
          simp [Format.binary64, Format.exponentBias] at same small ⊢
          omega
        · exact isNaN_unpack_packComponents (by decide)

/-! ## Operations on unpacked numbers -/

section

variable {spec : Format}

theorem isNaN_roundWithAccuracy (sign : UnpackedFloat.Sign) (mantissa : Nat) (exponent : Int)
    (accuracy : UnpackedFloat.Accuracy) :
    (UnpackedFloat.roundWithAccuracy spec sign mantissa exponent accuracy).isNaN = false := by
  rw [UnpackedFloat.roundWithAccuracy]
  dsimp only
  split <;> rfl

theorem isNaN_normalize (mantissa exponent : Int) (sign : UnpackedFloat.Sign) :
    (UnpackedFloat.normalize spec mantissa exponent sign).isNaN = false := by
  rw [UnpackedFloat.normalize]
  split
  · exact isNaN_roundWithAccuracy _ _ _ _
  · rfl
  · exact isNaN_roundWithAccuracy _ _ _ _

/-- A sum is a number if one operand is finite and the other one is a number. -/
theorem isNaN_unpacked_add {left right : UnpackedFloat}
    (finite : left.isFinite = true) (number : right.isNaN = false) :
    (UnpackedFloat.add spec left right).isNaN = false := by
  cases left with
  | notANumber | infinity sign => cases finite
  | zero sign =>
      cases right with
      | notANumber => cases number
      | zero other =>
          rw [UnpackedFloat.add]
          split <;> rfl
      | _ => rfl
  | finite sign mantissa exponent positive =>
      cases right with
      | notANumber => cases number
      | finite other mantissa' exponent' positive' => exact isNaN_normalize _ _ _
      | _ => rfl

/-- A difference is a number if one operand is finite and the other one is a number. -/
theorem isNaN_unpacked_sub {left right : UnpackedFloat}
    (finite : left.isFinite = true) (number : right.isNaN = false) :
    (UnpackedFloat.sub spec left right).isNaN = false := by
  cases left with
  | notANumber | infinity sign => cases finite
  | zero sign =>
      cases right with
      | notANumber => cases number
      | zero other =>
          rw [UnpackedFloat.sub]
          split <;> rfl
      | _ => rfl
  | finite sign mantissa exponent positive =>
      cases right with
      | notANumber => cases number
      | finite other mantissa' exponent' positive' => exact isNaN_normalize _ _ _
      | _ => rfl

/-- A product with a number other than zero and the infinities is a number if the other factor
is. -/
theorem isNaN_unpacked_mul {left : UnpackedFloat} {sign : UnpackedFloat.Sign} {mantissa : Nat}
    {exponent : Int} {positive : 0 < mantissa}
    (number : left.isNaN = false) :
    (UnpackedFloat.mul spec left (.finite sign mantissa exponent positive)).isNaN = false := by
  cases left with
  | notANumber => cases number
  | finite other mantissa' exponent' positive' => exact isNaN_roundWithAccuracy _ _ _ _
  | _ => rfl

/-- A whole number in decimal notation is a number. -/
theorem isNaN_unpacked_ofScientific {mantissa : Nat} {exponent : Int} (whole : 0 ≤ exponent) :
    (UnpackedFloat.ofScientific spec mantissa exponent).isNaN = false := by
  rw [UnpackedFloat.ofScientific]
  split
  · rfl
  · split
    · rfl
    · split
      · rfl
      · exact isNaN_unpacked_mul rfl

end

/-! ## Numbers -/

section

variable {left right : Float}

theorem isNaN_add (finite : left.isFinite = true) (number : right.isNaN = false) :
    (left + right).isNaN = false :=
  (isNaN_pack _).trans (isNaN_unpacked_add finite number)

theorem isNaN_sub (finite : left.isFinite = true) (number : right.isNaN = false) :
    (left - right).isNaN = false :=
  (isNaN_pack _).trans (isNaN_unpacked_sub finite number)

theorem isNaN_neg (number : Float) : (-number).isNaN = number.isNaN := by
  refine (isNaN_pack number.toModel.unpack.neg).trans ?_
  show number.toModel.unpack.neg.isNaN = number.toModel.unpack.isNaN
  cases number.toModel.unpack <;> rfl

/-- What is less than something is a number. -/
theorem isNaN_of_lt (less : left < right) : left.isNaN = false := by
  have compared : left.toModel.unpack.lt right.toModel.unpack = true := of_decide_eq_true less
  show left.toModel.unpack.isNaN = false
  generalize left.toModel.unpack = unpacked at compared ⊢
  cases unpacked with
  | notANumber => cases compared
  | _ => rfl

theorem isNaN_ofUInt64 (number : UInt64) : number.toFloat.isNaN = false :=
  (isNaN_pack _).trans (isNaN_normalize _ _ _)

/-- Every natural number is one as a double. -/
theorem isNaN_ofNat (number : Nat) : (Float.ofNat number).isNaN = false := by
  show (Float.ofScientific number false 0).isNaN = false
  rw [Float.ofScientific]
  split
  · have one : (Float.exactlyRepresentablePowersOfTen[0]).toModel.unpack =
        .finite .positive (2 ^ 52) (-52) (by decide) := by rfl
    refine (isNaN_pack _).trans ?_
    rw [one]
    exact isNaN_unpacked_mul (isNaN_ofUInt64 _)
  · exact (isNaN_pack _).trans (isNaN_unpacked_ofScientific (Int.natCast_nonneg 0))

end

end TreeScript.Double
