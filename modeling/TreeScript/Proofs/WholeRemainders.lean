import Mathlib
import TreeScript.Irq
import TreeScript.Proofs.WholeNumbers

/-!
# Remainders of whole numbers

Natural numbers up to 2 ^ 53 are doubles (`Double.integer?_ofNat`), and such
doubles are subtracted, compared and divided with remainder like integers
(`Double.integer?_sub`, `Double.le_iff`, `Double.integer?_remainder`).

With a whole rate the interpreter therefore yields before the last step of each
window of so many steps, and before no other (`Irq.isDue_iff`).
-/

namespace TreeScript

namespace Double

open Float.Model (UnpackedFloat Format totalExponent)
open Float.Model.UnpackedFloat (Sign ExtendedMantissa Accuracy roundWithAccuracy unpackExponent)

/-! ## Whole numbers are packed without a change -/

/-- The mantissa of a whole number other than zero is normal. -/
theorem normal_of_measures {sign : Sign} {mantissa : Nat} {exponent whole : Int}
    {positive : 0 < mantissa}
    (measures : Measures (.finite sign mantissa exponent positive) (whole * 2 ^ scale)) :
    2 ^ 52 ≤ mantissa := by
  obtain ⟨canonical, measure⟩ := measures
  rcases canonical.normal with normal | least
  · exact normal
  · have magnitude := congrArg Int.natAbs measure
    rw [least, neg_add_cancel, Int.toNat_zero, pow_zero, mul_one, natAbs_apply,
      Int.natAbs_mul, Int.natAbs_pow] at magnitude
    have nonzero : 0 < whole.natAbs := by
      refine Nat.pos_of_ne_zero fun zero => ?_
      rw [zero, zero_mul] at magnitude
      exact positive.ne magnitude
    calc 2 ^ 52 ≤ 2 ^ scale := Nat.pow_le_pow_right (by decide) (by rw [scale_eq]; decide)
      _ ≤ whole.natAbs * 2 ^ scale := Nat.le_mul_of_pos_left _ nonzero
      _ = mantissa := magnitude

/-- Numbers below the normal ones are packed without a change as well. -/
theorem unpack_pack_subnormal {sign : Sign} {mantissa : Nat} (positive : 0 < mantissa)
    (small : mantissa < 2 ^ 52) :
    (Float.Model.pack (.finite sign mantissa (-(scale : Int)) positive)).unpack =
      .finite sign mantissa (-(scale : Int)) positive := by
  have units := scale_eq
  have width : mantissa.log2 + 1 ≠ Format.binary64.mantissaBits := by
    have narrow : mantissa.log2 < 52 := (Nat.log2_lt positive.ne').mpr small
    have bits : Format.binary64.mantissaBits = 53 := rfl
    omega
  have bias : (Format.binary64.exponentBias : Int) = 1023 := rfl
  have fraction : (Format.binary64.mantissaBitsWithoutImplicit : Int) = 52 := rfl
  have isBiased : (-(scale : Int) + Format.binary64.exponentBias +
      Format.binary64.mantissaBitsWithoutImplicit).toNat = 1 := by omega
  have mantissaSame : (BitVec.ofNat 52 mantissa).toNat = mantissa := by
    rw [BitVec.toNat_ofNat, Nat.mod_eq_of_lt small]
  have present : BitVec.ofNat 52 mantissa ≠ 0#52 := by
    intro nothing
    rw [nothing] at mantissaSame
    exact positive.ne mantissaSame
  have notTop : 0#11 ≠ -1#11 := by decide
  show UnpackedFloat.unpack .binary64 (UnpackedFloat.pack .binary64 _) = _
  rw [UnpackedFloat.pack]
  simp only [isBiased]
  rw [if_neg (by decide), if_neg width, UnpackedFloat.unpack]
  simp only [Float.Model.UnpackedFloat.unpackExponent_packComponents,
    Float.Model.UnpackedFloat.unpackMantissa_packComponents,
    Float.Model.UnpackedFloat.unpackSign_packComponents,
    Float.Model.UnpackedFloat.Sign.ofBitVec_toBitVec, notTop, present, if_false, if_true, dif_neg,
    not_false_eq_true]
  simp only [mantissaSame, bias, fraction, units]
  rfl

/-- Packing loses nothing of a finite number in canonical form. -/
theorem unpack_pack_of_measures {number : UnpackedFloat} {multiple : Int}
    (measures : Measures number multiple) :
    (Float.Model.pack number).unpack = number := by
  cases number with
  | notANumber | infinity => cases measures
  | zero sign => exact Float.Model.UnpackedFloat.unpack_packedZero
  | finite sign mantissa exponent positive =>
      obtain ⟨canonical, -⟩ := measures
      rcases Nat.lt_or_ge mantissa (2 ^ 52) with small | normal
      · obtain rfl := canonical.normal.resolve_left (by omega)
        exact unpack_pack_subnormal positive small
      · exact unpack_pack_normal positive canonical normal

/-! ## Differences -/

theorem measures_neg {number : UnpackedFloat} {multiple : Int}
    (measures : Measures number multiple) : Measures number.neg (-multiple) := by
  cases number with
  | notANumber | infinity => cases measures
  | zero sign => exact neg_eq_zero.mpr measures
  | finite sign mantissa exponent positive =>
      obtain ⟨canonical, rfl⟩ := measures
      refine ⟨canonical, ?_⟩
      cases sign
      · exact neg_neg _
      · rfl

/-- Subtracting is adding the negative number. -/
theorem sub_eq_add_neg (left right : UnpackedFloat) :
    UnpackedFloat.sub .binary64 left right = UnpackedFloat.add .binary64 left right.neg := by
  cases left with
  | notANumber => cases right <;> rfl
  | infinity sign => cases right <;> rfl
  | zero sign => cases right <;> rfl
  | finite sign mantissa exponent positive =>
      cases right with
      | notANumber | infinity | zero => rfl
      | finite other mantissa' exponent' positive' =>
          have opposite (magnitude : Int) : (-other).apply magnitude = -other.apply magnitude := by
            cases other
            · exact (neg_neg _).symm
            · rfl
          simp only [UnpackedFloat.sub, UnpackedFloat.neg, UnpackedFloat.add, opposite,
            Int.sub_eq_add_neg]

/-- Whole numbers are subtracted like integers, as long as the result does not exceed 2 ^ 53. -/
theorem integer?_sub {left right : Float} {first second : Int}
    (isFirst : integer? left = some first) (isSecond : integer? right = some second)
    (bounded : (first - second).natAbs ≤ 2 ^ 53) :
    integer? (left - right) = some (first - second) := by
  rw [integer?_eq_some_iff] at isFirst isSecond ⊢
  have opposite : Measures right.toModel.unpack.neg (-second * 2 ^ scale) := by
    simpa only [neg_mul] using measures_neg isSecond
  have difference : first * 2 ^ scale + -second * 2 ^ scale = (first - second) * 2 ^ scale := by
    ring
  show Measures (Float.Model.pack (UnpackedFloat.sub .binary64 _ _)).unpack _
  rw [sub_eq_add_neg]
  exact measures_pack_add (unpack_pack_of_measures isFirst) (unpack_pack_of_measures opposite)
    isFirst opposite difference bounded

/-! ## Natural numbers as doubles -/

theorem integer?_ofUInt64 {number : UInt64} (bounded : number.toNat ≤ 2 ^ 53) :
    integer? number.toFloat = some (number.toNat : Int) := by
  have units := scale_eq
  rw [integer?_eq_some_iff]
  refine @measures_pack_normalize number.toNat number.toNat 0 (by omega) (by omega) ?_
  rw [zero_add, Int.toNat_natCast]

/-- Zeros behind the mantissa are taken off by rounding. -/
theorem roundWithAccuracy_exact {sign : Sign} {mantissa : Nat} {exponent : Int} (shift : Nat)
    (positive : 0 < mantissa)
    (isTarget : Format.binary64.targetExponent (totalExponent mantissa (exponent + shift)) =
      exponent + shift) :
    roundWithAccuracy .binary64 sign (mantissa * 2 ^ shift) exponent .exact =
      .finite sign mantissa (exponent + shift) positive := by
  have same : totalExponent (mantissa * 2 ^ shift) exponent =
      totalExponent mantissa (exponent + shift) := by
    rw [totalExponent, totalExponent, log2_mul_two_pow positive]
    omega
  have first := @shiftToTargetExponent_exact mantissa exponent shift (by rw [same, isTarget])
  have second :=
    @shiftToTargetExponent_exact mantissa (exponent + shift) 0 (by simpa using isTarget)
  rw [pow_zero, mul_one, Int.natCast_zero, add_zero] at second
  have rounded : (ExtendedMantissa.mk mantissa false false).roundedMantissa = mantissa := rfl
  rw [roundWithAccuracy]
  simp only [first, rounded, second]
  rw [dif_neg positive.ne']

/-- Multiplying by one changes no number whose mantissa is normal. -/
theorem mul_one_of_normal {sign : Sign} {mantissa : Nat} {exponent : Int}
    (positive : 0 < mantissa) (canonical : IsCanonical mantissa exponent)
    (normal : 2 ^ 52 ≤ mantissa) :
    UnpackedFloat.mul .binary64 (.finite sign mantissa exponent positive)
        (.finite .positive (2 ^ 52) (-52) (Nat.two_pow_pos 52)) =
      .finite sign mantissa exponent positive := by
  have units := scale_eq
  have width : mantissa.log2 = 52 := (Nat.log2_eq_iff positive.ne').mpr ⟨normal, canonical.width⟩
  have least := canonical.least
  have isTarget : Format.binary64.targetExponent
      (totalExponent mantissa (exponent + -52 + (52 : Nat))) = exponent + -52 + (52 : Nat) := by
    have minimum : Format.binary64.minExponent = -1074 := rfl
    have bits : Format.binary64.mantissaBits = 53 := rfl
    rw [Format.targetExponent, totalExponent, minimum, bits, width]
    omega
  have signs : sign * .positive = sign := by cases sign <;> rfl
  have level : exponent + -52 + (52 : Nat) = exponent := by omega
  rw [UnpackedFloat.mul, roundWithAccuracy_exact 52 positive isTarget, signs]
  simp only [level]

theorem measures_pack_mul_one {number : UnpackedFloat} {whole : Int}
    (measures : Measures number (whole * 2 ^ scale)) :
    Measures (Float.Model.pack (UnpackedFloat.mul .binary64 number
      (.finite .positive (2 ^ 52) (-52) (Nat.two_pow_pos 52)))).unpack (whole * 2 ^ scale) := by
  cases number with
  | notANumber | infinity => cases measures
  | zero sign =>
      have product : Measures (.zero (sign * .positive)) (whole * 2 ^ scale) := measures
      rw [UnpackedFloat.mul, unpack_pack_of_measures product]
      exact product
  | finite sign mantissa exponent positive =>
      rw [mul_one_of_normal positive measures.1 (normal_of_measures measures),
        unpack_pack_of_measures measures]
      exact measures

/-- A natural number below 2 ^ 53 is one as a double as well. -/
theorem integer?_ofNat {number : Nat} (bounded : number < 2 ^ 53) :
    integer? (Float.ofNat number) = some (number : Int) := by
  show integer? (Float.ofScientific number false 0) = some (number : Int)
  have one : (Float.exactlyRepresentablePowersOfTen[0]).toModel.unpack =
      .finite .positive (2 ^ 52) (-52) (Nat.two_pow_pos 52) := by rfl
  have fits : number.toUInt64.toNat = number :=
    UInt64.toNat_ofNat_of_lt' (Nat.lt_trans bounded (by decide))
  have whole := @integer?_ofUInt64 number.toUInt64 (by omega)
  rw [fits, integer?_eq_some_iff] at whole
  rw [Float.ofScientific, dif_pos ⟨bounded, Nat.zero_le 22⟩, integer?_eq_some_iff]
  show Measures (Float.Model.pack (UnpackedFloat.mul .binary64 _
    (Float.exactlyRepresentablePowersOfTen[0]).toModel.unpack)).unpack _
  rw [one]
  exact measures_pack_mul_one whole

/-! ## Comparisons -/

theorem le_iff_of_measures {left right : UnpackedFloat} {first second : Int}
    (isFirst : Measures left first) (isSecond : Measures right second) :
    left.le right = true ↔ first ≤ second := by
  rw [UnpackedFloat.le, compare_of_measures isFirst isSecond, Option.any_some,
    Std.isLE_compare]

/-- Whole numbers are in the same order as integers. -/
theorem le_iff {left right : Float} {first second : Int}
    (isFirst : integer? left = some first) (isSecond : integer? right = some second) :
    left ≤ right ↔ first ≤ second := by
  rw [integer?_eq_some_iff] at isFirst isSecond
  have compared : left ≤ right ↔ left.toModel.unpack.le right.toModel.unpack = true :=
    ⟨of_decide_eq_true, decide_eq_true⟩
  rw [compared, le_iff_of_measures isFirst isSecond]
  exact mul_le_mul_iff_of_pos_right (by positivity)

/-- Whole numbers are equal if they are so as integers. -/
theorem beq_iff {left right : Float} {first second : Int}
    (isFirst : integer? left = some first) (isSecond : integer? right = some second) :
    (left == right) = true ↔ first = second := by
  rw [integer?_eq_some_iff] at isFirst isSecond
  show left.toModel.unpack.beq right.toModel.unpack = true ↔ first = second
  rw [UnpackedFloat.beq, compare_of_measures isFirst isSecond, beq_iff_eq, Option.some_inj,
    compare_eq_iff_eq]
  exact mul_left_inj' (by positivity)

/-! ## Doubles that are put together -/

theorem toBits_ofBits {bits : UInt64} (finite : bits.toNat / 2 ^ 52 % 2 ^ 11 ≠ 2047) :
    (Float.ofBits bits).toBits = bits := by
  have valid : Format.binary64.Valid bits.toBitVec := by
    refine ⟨fun top => absurd (congrArg BitVec.toNat top) ?_⟩
    rw [toNat_unpackExponent]
    exact finite
  exact UInt64.toBitVec_inj.mp (Float.Model.UnpackedFloat.pack_unpack_of_valid valid)

/-- A sign, an exponent and a fraction that stand side by side are read off again. -/
theorem ofFloat_ofBits (negative : Bool) {biased fraction : Nat} (nonzero : 0 < biased)
    (small : biased < 2047) (short : fraction < 2 ^ 52) :
    ofFloat (Float.ofBits (UInt64.ofNat
      ((if negative then signWeight else 0) + (biased * exponentWeight + fraction)))) =
      .finite negative (2 ^ 52 + fraction) (biased - 1075) := by
  have sign : signWeight = 2 ^ 63 := rfl
  have weight : exponentWeight = 2 ^ 52 := rfl
  rw [weight]
  generalize isBits : (if negative then signWeight else 0) + (biased * 2 ^ 52 + fraction) = bits
  have size : (UInt64.ofNat bits).toNat = bits := by
    refine UInt64.toNat_ofNat_of_lt' ?_
    rw [UInt64.size]
    split at isBits <;> omega
  have exponent : bits / 2 ^ 52 % 2 ^ 11 = biased := by
    split at isBits <;> omega
  have rest : bits % 2 ^ 52 = fraction := by
    split at isBits <;> omega
  have signed : decide (signWeight ≤ bits) = negative := by
    cases negative with
    | true =>
        rw [if_pos rfl] at isBits
        exact decide_eq_true (by omega)
    | false =>
        rw [if_neg Bool.false_ne_true] at isBits
        exact decide_eq_false (by omega)
  rw [ofFloat, toBits_ofBits (by rw [size, exponent]; exact small.ne), size, weight, rest, signed]
  simp only [show (2048 : Nat) = 2 ^ 11 from rfl, exponent]
  rw [if_neg small.ne, if_neg nonzero.ne', Int.ofNat_eq_natCast]

/-- The bits of a magnitude that belongs to a normal double. -/
theorem magnitudeBits_of_normal {significand : Nat} {exponent : Int} (positive : 0 < significand)
    (width : significand.log2 ≤ 52) (least : -1022 ≤ exponent + significand.log2) :
    magnitudeBits significand exponent =
      (exponent + significand.log2 + 1023).toNat * exponentWeight +
        (significand * 2 ^ (52 - significand.log2) - exponentWeight) := by
  rw [magnitudeBits, if_neg positive.ne']
  simp only [Int.ofNat_eq_natCast]
  rw [if_neg (Int.not_lt.mpr least), if_pos width, Nat.shiftLeft_eq]

/-- A significand of up to 53 bits is put into the form of normal doubles. -/
theorem ofFloat_toFloat (negative : Bool) {significand : Nat} {exponent : Int}
    (positive : 0 < significand) (width : significand < 2 ^ 53)
    (least : -1022 ≤ exponent + significand.log2) (most : exponent + significand.log2 ≤ 1023) :
    ofFloat (toFloat (.finite negative significand exponent)) =
      .finite negative (significand * 2 ^ (52 - significand.log2))
        (exponent - (52 - significand.log2 : Nat)) := by
  have short : significand.log2 < 53 := (Nat.log2_lt positive.ne').mpr width
  have weight : exponentWeight = 2 ^ 52 := rfl
  have aligned : (significand * 2 ^ (52 - significand.log2)).log2 = 52 := by
    rw [log2_mul_two_pow positive]
    omega
  obtain ⟨normal, bounded⟩ := (Nat.log2_eq_iff (Nat.mul_pos positive (Nat.two_pow_pos _)).ne').mp
    aligned
  have whole : 2 ^ 52 + (significand * 2 ^ (52 - significand.log2) - 2 ^ 52) =
      significand * 2 ^ (52 - significand.log2) := Nat.add_sub_cancel' normal
  have level : ((exponent + significand.log2 + 1023).toNat : Int) - 1075 =
      exponent - (52 - significand.log2 : Nat) := by omega
  rw [toFloat, magnitudeBits_of_normal positive (by omega) least,
    ofFloat_ofBits negative (by omega) (by omega) (by omega), weight, whole, level]

theorem integer?_of_ofFloat {number : Float} {negative : Bool} {significand whole : Nat}
    {exponent : Int} (same : ofFloat number = .finite negative significand exponent)
    (least : -(scale : Int) ≤ exponent)
    (measure : significand * 2 ^ (exponent + scale).toNat = whole * 2 ^ scale) :
    integer? number = some (if negative then -(whole : Int) else whole) := by
  obtain ⟨isWhole, wholePart⟩ := (isWhole_and_wholePart_iff least).mpr measure
  rw [integer?, same]
  simp only [isWhole, wholePart, if_true, Int.ofNat_eq_natCast]

/-- A whole number of up to 53 bits is the same as a double. -/
theorem integer?_toFloat (negative : Bool) {significand whole : Nat} {exponent : Int}
    (width : significand < 2 ^ 53) (bounded : whole < 2 ^ 53)
    (least : -(scale : Int) ≤ exponent)
    (measure : significand * 2 ^ (exponent + scale).toNat = whole * 2 ^ scale) :
    integer? (toFloat (.finite negative significand exponent)) =
      some (if negative then -(whole : Int) else whole) := by
  have units := scale_eq
  rcases Nat.eq_zero_or_pos significand with rfl | positive
  · obtain rfl : whole = 0 := by
      have product : whole * 2 ^ scale = 0 := by rw [← measure, zero_mul]
      exact (Nat.mul_eq_zero.mp product).resolve_right (Nat.two_pow_pos scale).ne'
    have zero : toFloat (.finite negative 0 exponent) = toFloat (.finite negative 0 0) := rfl
    rw [zero]
    cases negative <;> decide +kernel
  · have positive' := pos_of_scaled_eq positive measure.symm
    have widths := log2_of_scaled_eq positive' measure
    have narrow : whole.log2 < 53 := (Nat.log2_lt positive'.ne').mpr bounded
    have short : significand.log2 < 53 := (Nat.log2_lt positive.ne').mpr width
    refine integer?_of_ofFloat
      (ofFloat_toFloat negative positive width (by omega) (by omega)) (by omega) ?_
    rw [← measure, mul_assoc, ← pow_add]
    congr 2
    omega

/-! ## Remainders -/

/-- A whole number by its significand and its exponent. -/
theorem exists_ofFloat_of_integer? {number : Float} {whole : Int}
    (isWhole : integer? number = some whole) :
    ∃ negative significand exponent,
      ofFloat number = .finite negative significand exponent ∧ significand < 2 ^ 53 ∧
      -(scale : Int) ≤ exponent ∧
      significand * 2 ^ (exponent + scale).toNat = whole.natAbs * 2 ^ scale ∧
      (0 < whole → negative = false) := by
  rw [integer?_eq_some_iff] at isWhole
  rw [ofFloat_eq]
  generalize number.toModel.unpack = unpacked at isWhole
  cases unpacked with
  | notANumber | infinity => cases isWhole
  | zero sign =>
      have unit : (2 : Int) ^ scale ≠ 0 := by positivity
      obtain rfl : whole = 0 := (mul_eq_zero_iff_right unit).mp isWhole
      exact ⟨_, _, _, rfl, Nat.two_pow_pos 53, Int.le_refl _, by simp, nofun⟩
  | finite sign mantissa exponent positive =>
      obtain ⟨canonical, measure⟩ := isWhole
      refine ⟨_, _, _, rfl, canonical.width, canonical.least, ?_, ?_⟩
      · have magnitude := congrArg Int.natAbs measure
        rw [natAbs_apply, Int.natAbs_mul, Int.natAbs_pow] at magnitude
        exact magnitude.symm
      · intro above
        cases sign with
        | positive => rfl
        | negative =>
            have unit : (0 : Int) < whole * 2 ^ scale := by positivity
            rw [measure, Sign.apply] at unit
            omega

/-- The remainder of whole numbers is that of natural numbers. -/
theorem integer?_remainder {dividend divisor : Float} {number unit : Nat}
    (isDividend : integer? dividend = some (number : Int))
    (isDivisor : integer? divisor = some (unit : Int))
    (bounded : number < 2 ^ 53) (nonzero : 0 < unit) :
    integer? (remainder dividend divisor) = some ((number % unit : Nat) : Int) := by
  obtain ⟨negative, significand, exponent, isFinite, width, least, measure, sign⟩ :=
    exists_ofFloat_of_integer? isDividend
  obtain ⟨negative', significand', exponent', isFinite', width', least', measure', -⟩ :=
    exists_ofFloat_of_integer? isDivisor
  rw [Int.natAbs_natCast] at measure measure'
  rw [remainder, isFinite, isFinite']
  have positive := pos_of_scaled_eq nonzero measure'
  simp only [if_neg positive.ne', Nat.shiftLeft_eq]
  generalize isLower : min exponent exponent' = lower
  have shifted := @mul_two_pow_of_le significand exponent lower (by omega) (by omega)
  have shifted' := @mul_two_pow_of_le significand' exponent' lower (by omega) (by omega)
  have narrow : significand * 2 ^ (exponent - lower).toNat %
      (significand' * 2 ^ (exponent' - lower).toNat) < 2 ^ 53 := by
    rcases Int.le_total exponent exponent' with less | less
    · rw [← isLower, min_eq_left less, Int.sub_self, Int.toNat_zero, pow_zero, mul_one]
      exact Nat.lt_of_le_of_lt (Nat.mod_le _ _) width
    · rw [← isLower, min_eq_right less, Int.sub_self, Int.toNat_zero, pow_zero, mul_one]
      exact Nat.lt_trans (Nat.mod_lt _ positive) width'
  have rest : significand * 2 ^ (exponent - lower).toNat %
      (significand' * 2 ^ (exponent' - lower).toNat) * 2 ^ (lower + scale).toNat =
        number % unit * 2 ^ scale := by
    rw [← Nat.mul_mod_mul_right, shifted, shifted', measure, measure', Nat.mul_mod_mul_right]
  have less : number % unit < 2 ^ 53 := Nat.lt_of_le_of_lt (Nat.mod_le _ _) bounded
  rw [integer?_toFloat negative narrow less (by omega) rest]
  rcases Nat.eq_zero_or_pos number with rfl | above
  · simp
  · rw [sign (by omega), if_neg Bool.false_ne_true]

end Double

/-- With a whole rate the interpreter yields before the last step of each window. -/
theorem Irq.isDue_iff {irq : Irq} {rate steps : Nat} (isRate : irq.rate = Float.ofNat rate)
    (positive : 0 < rate) (bounded : rate < 2 ^ 53) (few : steps < 2 ^ 53) :
    irq.isDue steps = true ↔ steps % rate = rate - 1 := by
  have whole := Double.integer?_ofNat bounded
  have last : Double.integer? (Float.ofNat rate - Float.ofNat 1) = some ((rate : Int) - 1) :=
    Double.integer?_sub whole Double.integer?_one (by omega)
  have rest := Double.integer?_remainder (Double.integer?_ofNat few) whole few positive
  have nonzero : (Float.ofNat rate != Float.ofNat 0) = true := by
    rw [bne, Bool.not_eq_true', ← Bool.not_eq_true, Double.beq_iff whole Double.integer?_zero]
    omega
  have least := Nat.mod_lt steps positive
  rw [isDue, isRate, nonzero, Bool.true_and, decide_eq_true_iff, Double.le_iff last rest]
  omega

end TreeScript
