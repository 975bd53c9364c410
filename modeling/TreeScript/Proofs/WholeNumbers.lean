import Mathlib
import TreeScript.Number.Double

/-!
# Arithmetic with whole numbers

As long as sums do not exceed 2 ^ 53 in magnitude, doubles that are whole numbers
are added and compared like integers (`Double.integer?_add`, `Double.lt_iff`).

Every finite double is a multiple of the least positive one, 2 ^ -1074.
`Double.Measures` says which multiple, so that nothing but integers is needed: a
double is the whole number `n` if it measures `n * 2 ^ 1074`.
-/

namespace TreeScript.Double

open Float.Model (UnpackedFloat Format totalExponent)
open Float.Model.UnpackedFloat (Sign ExtendedMantissa Accuracy decreaseExponent shiftToExponent
  shiftToTargetExponent roundWithAccuracy unpackExponent unpackMantissa unpackSign)

/-! ## What an unpacked number measures -/

/-- The least positive double is one divided by this power of two. -/
@[irreducible]
def scale : Nat := 1074

theorem scale_eq : scale = 1074 := by
  rw [scale]

/-- The mantissas and exponents that finite doubles have. -/
structure IsCanonical (mantissa : Nat) (exponent : Int) : Prop where
  width : mantissa < 2 ^ 53
  least : -(scale : Int) ≤ exponent
  most : exponent ≤ 971
  normal : 2 ^ 52 ≤ mantissa ∨ exponent = -(scale : Int)

/-- A finite number in canonical form is this multiple of the least positive double. -/
def Measures : UnpackedFloat → Int → Prop
  | .zero _, multiple => multiple = 0
  | .finite sign mantissa exponent _, multiple =>
      IsCanonical mantissa exponent ∧
        multiple = sign.apply (mantissa * 2 ^ (exponent + scale).toNat : Nat)
  | _, _ => False

theorem toNat_unpackExponent (bits : BitVec Format.binary64.numBits) :
    (unpackExponent bits).toNat = bits.toNat / 2 ^ 52 % 2 ^ 11 := by
  simp [unpackExponent, Nat.shiftRight_eq_div_pow]

theorem toNat_unpackMantissa (bits : BitVec Format.binary64.numBits) :
    (unpackMantissa bits).toNat = bits.toNat % 2 ^ 52 := by
  simp [unpackMantissa]

theorem toNat_unpackSign (bits : BitVec Format.binary64.numBits) :
    (unpackSign bits).toNat = bits.toNat / 2 ^ 63 % 2 := by
  simp [unpackSign, Nat.shiftRight_eq_div_pow]

/-- A sign as the truth value that a double has for it. -/
def isNegative : Sign → Bool
  | .negative => true
  | .positive => false

theorem isNegative_ofBitVec (bits : BitVec Format.binary64.numBits) :
    isNegative (.ofBitVec (unpackSign bits)) =
      decide (signWeight ≤ bits.toNat) := by
  have sign := toNat_unpackSign bits
  have bound : bits.toNat < 2 ^ 64 := bits.isLt
  have weight : signWeight = 2 ^ 63 := rfl
  rw [Sign.ofBitVec]
  split
  · rename_i zero
    rw [zero] at sign
    simp [isNegative, weight]
    simp at sign
    omega
  · rename_i one
    simp [isNegative, weight]
    have : (unpackSign bits).toNat ≠ 0 := fun h => one (BitVec.eq_of_toNat_eq h)
    omega

/-- The double that an unpacked number is. -/
def ofUnpacked : UnpackedFloat → Double
  | .notANumber => .nan
  | .infinity sign => .infinite (isNegative sign)
  | .zero sign => .finite (isNegative sign) 0 (-scale)
  | .finite sign mantissa exponent _ => .finite (isNegative sign) mantissa exponent

theorem ofFloat_eq (number : Float) :
    ofFloat number = ofUnpacked number.toModel.unpack := by
  let bits : BitVec Format.binary64.numBits := number.toModel.toBits.toBitVec
  show ofFloat number = ofUnpacked (UnpackedFloat.unpack .binary64 bits)
  have same : number.toBits.toNat = bits.toNat := rfl
  have special : unpackExponent bits = -1#11 ↔
      bits.toNat / 2 ^ 52 % 2048 = 2047 := by
    rw [← BitVec.toNat_inj, toNat_unpackExponent]
    rfl
  have least : unpackExponent bits = 0#11 ↔
      bits.toNat / 2 ^ 52 % 2048 = 0 := by
    rw [← BitVec.toNat_inj, toNat_unpackExponent]
    rfl
  have plain : unpackMantissa bits = 0#52 ↔ bits.toNat % 2 ^ 52 = 0 := by
    rw [← BitVec.toNat_inj, toNat_unpackMantissa]
    rfl
  have implicit : (1#1 ++ unpackMantissa bits).toNat =
      2 ^ 52 + bits.toNat % 2 ^ 52 := by
    rw [BitVec.toNat_append, ← Nat.shiftLeft_add_eq_or_of_lt (unpackMantissa bits).isLt,
      toNat_unpackMantissa]
    simp [Nat.shiftLeft_eq]
  rw [ofFloat, same, UnpackedFloat.unpack, show exponentWeight = 2 ^ 52 from rfl,
    ← isNegative_ofBitVec]
  dsimp only
  by_cases top : unpackExponent bits = -1#11
  · rw [if_pos top, if_pos (special.mp top)]
    by_cases zero : unpackMantissa bits = 0#52
    · rw [if_pos zero, if_pos (plain.mp zero)]
      rfl
    · rw [if_neg zero, if_neg (mt plain.mpr zero)]
      rfl
  · rw [if_neg top, if_neg (mt special.mpr top)]
    by_cases bottom : unpackExponent bits = 0#11
    · rw [if_pos bottom, if_pos (least.mp bottom)]
      by_cases zero : unpackMantissa bits = 0#52
      · rw [dif_pos zero, plain.mp zero, ofUnpacked, scale_eq]
        rfl
      · rw [dif_neg zero, ofUnpacked, toNat_unpackMantissa, bottom]
        rfl
    · rw [if_neg bottom, if_neg (mt least.mpr bottom), ofUnpacked, implicit,
        toNat_unpackExponent]
      congr 1

/-- Doubles are unpacked to their canonical form. -/
theorem isCanonical_unpack {number : Float} {sign : Sign} {mantissa : Nat} {exponent : Int}
    {positive : 0 < mantissa}
    (unpacked : number.toModel.unpack = .finite sign mantissa exponent positive) :
    IsCanonical mantissa exponent := by
  have same := ofFloat_eq number
  rw [unpacked, ofUnpacked, ofFloat, show exponentWeight = 2 ^ 52 from rfl] at same
  have units := scale_eq
  split at same
  · split at same <;> cases same
  · split at same
    · injection same with _ mantissa exponent
      constructor <;> omega
    · injection same with _ mantissa exponent
      rw [Int.ofNat_eq_natCast] at exponent
      constructor <;> omega

/-! ## Whole numbers -/

/-- Whether a number is whole, and which whole number it is, seen in the least units. -/
theorem isWhole_and_wholePart_iff {significand whole : Nat} {exponent : Int}
    (within : -(scale : Int) ≤ exponent) :
    isWhole significand exponent = true ∧ wholePart significand exponent = whole ↔
      significand * 2 ^ (exponent + scale).toNat = whole * 2 ^ scale := by
  rw [isWhole, wholePart]
  rcases Int.lt_or_le exponent 0 with below | above
  · have shift : scale = (-exponent).toNat + (exponent + scale).toNat := by omega
    have unit : 2 ^ scale = 2 ^ (-exponent).toNat * 2 ^ (exponent + scale).toNat := by
      rw [← pow_add, ← shift]
    have positive : 0 < 2 ^ (-exponent).toNat := by positivity
    rw [if_neg (by omega), if_neg (by omega), Nat.shiftLeft_eq, Nat.shiftRight_eq_div_pow, one_mul,
      unit, ← mul_assoc, Nat.mul_left_inj (by positivity), beq_iff_eq]
    generalize 2 ^ (-exponent).toNat = step at positive
    constructor
    · rintro ⟨divides, rfl⟩
      exact (Nat.div_mul_cancel (Nat.dvd_of_mod_eq_zero divides)).symm
    · rintro rfl
      exact ⟨Nat.mul_mod_left whole step, Nat.mul_div_cancel whole positive⟩
  · have shift : (exponent + scale).toNat = exponent.toNat + scale := by omega
    rw [if_pos above, if_pos above, Nat.shiftLeft_eq, shift, pow_add, ← mul_assoc]
    simp

theorem apply_eq_ite (sign : Sign) (number : Int) :
    sign.apply number = if isNegative sign then -number else number := by
  cases sign <;> rfl

theorem apply_mul (sign : Sign) (number factor : Int) :
    sign.apply (number * factor) = sign.apply number * factor := by
  cases sign <;> simp [Sign.apply]

theorem natAbs_apply (sign : Sign) (number : Nat) :
    (sign.apply number).natAbs = number := by
  cases sign <;> simp [Sign.apply]

/-- A number with a sign determines the sign, unless it is zero. -/
theorem eq_apply_of_mul {sign : Sign} {whole : Int} {number unit : Nat} (positive : 0 < unit)
    (same : whole * unit = sign.apply number) :
    whole = sign.apply (whole.natAbs : Nat) := by
  have unitPositive : (0 : Int) < unit := by exact_mod_cast positive
  cases sign with
  | positive =>
      have nonneg : 0 ≤ whole * unit := by
        rw [same]
        exact Int.natCast_nonneg number
      exact (Int.natAbs_of_nonneg (nonneg_of_mul_nonneg_left nonneg unitPositive)).symm
  | negative =>
      have nonpos : whole * unit ≤ 0 := by
        rw [same]
        exact Int.neg_nonpos_of_nonneg (Int.natCast_nonneg number)
      have below : whole ≤ 0 := nonpos_of_mul_nonpos_left nonpos unitPositive
      rw [Sign.apply, Int.ofNat_natAbs_of_nonpos below, neg_neg]

/-- A double is a whole number if it measures as many units as that number has. -/
theorem integer?_eq_some_iff (number : Float) (whole : Int) :
    integer? number = some whole ↔ Measures number.toModel.unpack (whole * 2 ^ scale) := by
  rw [integer?, ofFloat_eq]
  have canonical := @isCanonical_unpack number
  generalize number.toModel.unpack = unpacked at canonical ⊢
  cases unpacked with
  | notANumber => simp [ofUnpacked, Measures]
  | infinity sign => simp [ofUnpacked, Measures]
  | zero sign =>
      obtain ⟨isWhole, wholePart⟩ :=
        (@isWhole_and_wholePart_iff 0 0 (-scale) (Int.le_refl _)).mpr (by simp)
      have unitPositive : (2 : Int) ^ scale ≠ 0 := by positivity
      rw [ofUnpacked, Measures, mul_eq_zero_iff_right unitPositive]
      dsimp only
      have nothing : sign.apply (Int.ofNat 0) = 0 := by cases sign <;> rfl
      rw [if_pos isWhole, wholePart, ← apply_eq_ite, nothing, Option.some_inj, eq_comm]
  | finite sign mantissa exponent positive =>
      have canonical := canonical rfl
      have seen (whole : Nat) := @isWhole_and_wholePart_iff mantissa whole exponent canonical.least
      simp only [ofUnpacked, Measures, canonical, true_and, ← apply_eq_ite]
      constructor
      · intro found
        split at found
        · rename_i isWhole
          obtain rfl := Option.some.inj found
          rw [(seen _).mp ⟨isWhole, rfl⟩]
          rw [← apply_mul]
          push_cast
          rfl
        · cases found
      · intro measured
        have signed : whole = sign.apply (whole.natAbs : Nat) := by
          refine @eq_apply_of_mul sign whole _ _ (Nat.two_pow_pos scale) (Eq.trans ?_ measured)
          rw [Nat.cast_pow, Nat.cast_ofNat]
        have magnitude : mantissa * 2 ^ (exponent + scale).toNat = whole.natAbs * 2 ^ scale := by
          have same := congrArg Int.natAbs measured
          rw [natAbs_apply, Int.natAbs_mul] at same
          rw [← same, Int.natAbs_pow]
          rfl
        obtain ⟨isWhole, wholePart⟩ := (seen _).mpr magnitude
        rw [if_pos isWhole, wholePart, Int.ofNat_eq_natCast, ← signed]

/-! ## Exact rounding -/

/-- Bits that are zero are shifted away without a trace. -/
theorem shiftRight_mul_two_pow (mantissa shift : Nat) :
    ExtendedMantissa.ofMantissaAndAccuracy (mantissa * 2 ^ shift) .exact >>> shift =
      ⟨mantissa, false, false⟩ := by
  show shift.repeat ExtendedMantissa.shiftRightOne _ = _
  induction shift generalizing mantissa with
  | zero => simp [ExtendedMantissa.ofMantissaAndAccuracy, Nat.repeat]
  | succ shift inductive_step =>
      rw [Nat.repeat, pow_succ', ← mul_assoc, inductive_step, ExtendedMantissa.shiftRightOne]
      simp

theorem log2_mul_two_pow {mantissa : Nat} (positive : 0 < mantissa) (shift : Nat) :
    (mantissa * 2 ^ shift).log2 = mantissa.log2 + shift := by
  rw [Nat.log2_eq_iff (by positivity), add_right_comm, pow_add, pow_add _ (_ + 1)]
  constructor
  · exact Nat.mul_le_mul_right _ (Nat.log2_self_le positive.ne')
  · exact Nat.mul_lt_mul_of_pos_right Nat.lt_log2_self (by positivity)

/-- Shifting a number to the exponent that it should have, if only zeros are shifted away. -/
theorem shiftToTargetExponent_exact {mantissa : Nat} {exponent : Int} {shift : Nat}
    (isTarget : Format.binary64.targetExponent
      (totalExponent (mantissa * 2 ^ shift) exponent) = exponent + shift) :
    shiftToTargetExponent .binary64 (mantissa * 2 ^ shift) exponent .exact =
      (⟨mantissa, false, false⟩, exponent + shift) := by
  rw [shiftToTargetExponent, isTarget, shiftToExponent]
  have amount : (exponent + shift - exponent).toNat = shift := by omega
  simp only [amount, shiftRight_mul_two_pow]

/-- A number in some units is positive if it is the same as a positive one in other units. -/
theorem pos_of_scaled_eq {mantissa other shift shift' : Nat} (positive : 0 < other)
    (same : mantissa * 2 ^ shift = other * 2 ^ shift') :
    0 < mantissa := by
  have product : 0 < mantissa * 2 ^ shift := by
    rw [same]
    positivity
  exact Nat.pos_of_mul_pos_right product

/-- Numbers that are the same in different units differ in width by the difference of units. -/
theorem log2_of_scaled_eq {mantissa other shift shift' : Nat} (positive : 0 < other)
    (same : mantissa * 2 ^ shift = other * 2 ^ shift') :
    mantissa.log2 + shift = other.log2 + shift' := by
  rw [← log2_mul_two_pow (pos_of_scaled_eq positive same), same, log2_mul_two_pow positive]

/-- A number of the target format is not changed by rounding. -/
theorem round_exact {sign : Sign} {mantissa rounded : Nat} {exponent target : Int}
    (positive : 0 < rounded)
    (isTarget : Format.binary64.targetExponent (totalExponent mantissa exponent) = target)
    (same : mantissa * 2 ^ (exponent - target).toNat = rounded * 2 ^ (target - exponent).toNat) :
    UnpackedFloat.round .binary64 sign mantissa exponent =
      .finite sign rounded target positive := by
  have width := log2_of_scaled_eq positive same
  have level : exponent - ((exponent - target).toNat : Int) + (target - exponent).toNat =
      target := by omega
  rw [totalExponent] at isTarget
  have first := @shiftToTargetExponent_exact rounded (exponent - (exponent - target).toNat)
    (target - exponent).toNat (by
      rw [totalExponent, log2_mul_two_pow positive, ← width, level, ← isTarget]
      congr 1
      omega)
  have second := @shiftToTargetExponent_exact rounded target 0 (by
    rw [pow_zero, mul_one, totalExponent, Int.natCast_zero, add_zero]
    nth_rewrite 2 [← isTarget]
    congr 1
    omega)
  rw [level] at first
  rw [pow_zero, mul_one, Int.natCast_zero, add_zero] at second
  have mantissa : (ExtendedMantissa.mk rounded false false).roundedMantissa = rounded := rfl
  rw [UnpackedFloat.round]
  simp only [totalExponent, isTarget, decreaseExponent, Nat.shiftLeft_eq, same]
  rw [roundWithAccuracy]
  simp only [first, mantissa, second]
  rw [dif_neg positive.ne']

/-- Two numbers with the same measure are the same at the lower one of their exponents. -/
theorem aligned_of_measure {mantissa other : Nat} {exponent exponent' : Int}
    (least : -(scale : Int) ≤ exponent) (least' : -(scale : Int) ≤ exponent')
    (same : mantissa * 2 ^ (exponent + scale).toNat = other * 2 ^ (exponent' + scale).toNat) :
    mantissa * 2 ^ (exponent - exponent').toNat = other * 2 ^ (exponent' - exponent).toNat := by
  let lower := (min exponent exponent' + scale).toNat
  have above : (exponent + scale).toNat = (exponent - exponent').toNat + lower := by omega
  have above' : (exponent' + scale).toNat = (exponent' - exponent).toNat + lower := by omega
  rw [above, above', pow_add, pow_add, ← mul_assoc, ← mul_assoc] at same
  exact Nat.eq_of_mul_eq_mul_right (by positivity) same

theorem log2_lt_of_le {whole : Nat} (positive : 0 < whole) (bounded : whole ≤ 2 ^ 53) :
    whole.log2 < 54 := by
  rw [Nat.log2_lt positive.ne']
  omega

/-- A whole number up to 2 ^ 53 has a normal mantissa at the exponent that belongs to its width. -/
theorem exists_normal_mantissa {whole : Nat} (positive : 0 < whole) (bounded : whole ≤ 2 ^ 53) :
    ∃ rounded : Nat, 2 ^ 52 ≤ rounded ∧ rounded < 2 ^ 53 ∧
      rounded * 2 ^ ((whole.log2 : Int) - 52 + scale).toNat = whole * 2 ^ scale := by
  have units := scale_eq
  have narrow := log2_lt_of_le positive bounded
  have fits : ∃ rounded, rounded * 2 ^ ((whole.log2 : Int) - 52 + scale).toNat =
      whole * 2 ^ scale := by
    rcases Nat.lt_or_ge 52 whole.log2 with wide | short
    · have longest : whole.log2 = 53 := by omega
      have most : whole = 2 ^ 53 := by
        have least := Nat.log2_self_le positive.ne'
        rw [longest] at least
        omega
      refine ⟨2 ^ 52, ?_⟩
      rw [longest, most, ← pow_add, ← pow_add]
      congr 1
      omega
    · refine ⟨whole * 2 ^ (52 - whole.log2), ?_⟩
      rw [mul_assoc, ← pow_add]
      congr 2
      omega
  obtain ⟨rounded, measure⟩ := fits
  have positive' := pos_of_scaled_eq positive measure
  have width : rounded.log2 = 52 := by
    have width := log2_of_scaled_eq positive measure
    omega
  obtain ⟨normal, short⟩ := (Nat.log2_eq_iff positive'.ne').mp width
  exact ⟨rounded, normal, short, measure⟩

/-- Rounding keeps whole numbers up to 2 ^ 53, and gives them their canonical form. -/
theorem round_whole (sign : Sign) {mantissa whole : Nat} {exponent : Int}
    (least : -(scale : Int) ≤ exponent) (positive : 0 < whole) (bounded : whole ≤ 2 ^ 53)
    (same : mantissa * 2 ^ (exponent + scale).toNat = whole * 2 ^ scale) :
    ∃ rounded target, ∃ positive' : 0 < rounded,
      UnpackedFloat.round .binary64 sign mantissa exponent =
        .finite sign rounded target positive' ∧
      IsCanonical rounded target ∧ 2 ^ 52 ≤ rounded ∧
      rounded * 2 ^ (target + scale).toNat = whole * 2 ^ scale := by
  have units := scale_eq
  have width := log2_of_scaled_eq positive same
  have narrow := log2_lt_of_le positive bounded
  let target : Int := whole.log2 - 52
  have isTarget : Format.binary64.targetExponent (totalExponent mantissa exponent) = target := by
    have minimum : Format.binary64.minExponent = -1074 := rfl
    have bits : Format.binary64.mantissaBits = 53 := rfl
    rw [Format.targetExponent, totalExponent, minimum, bits]
    omega
  obtain ⟨rounded, normal, short, measure⟩ := exists_normal_mantissa positive bounded
  have positive' := pos_of_scaled_eq positive measure
  refine ⟨rounded, target, positive', round_exact positive' isTarget ?_, ?_, normal, measure⟩
  · exact aligned_of_measure least (by omega) (same.trans measure.symm)
  · exact ⟨short, by omega, by omega, .inl normal⟩

/-! ## Packing -/

/-- Numbers in the normal form of doubles are packed without a change. -/
theorem unpack_pack_normal {sign : Sign} {mantissa : Nat} {exponent : Int} (positive : 0 < mantissa)
    (canonical : IsCanonical mantissa exponent) (normal : 2 ^ 52 ≤ mantissa) :
    (Float.Model.pack (.finite sign mantissa exponent positive)).unpack =
      .finite sign mantissa exponent positive := by
  obtain ⟨short, least, most, -⟩ := canonical
  have units := scale_eq
  have width : mantissa.log2 + 1 = Format.binary64.mantissaBits := by
    rw [(Nat.log2_eq_iff positive.ne').mpr ⟨normal, short⟩]
    rfl
  have bias : (Format.binary64.exponentBias : Int) = 1023 := rfl
  have fraction : (Format.binary64.mantissaBitsWithoutImplicit : Int) = 52 := rfl
  have field : ∃ biased : Nat, (exponent + Format.binary64.exponentBias +
      Format.binary64.mantissaBitsWithoutImplicit).toNat = biased ∧
      exponent = biased - 1075 ∧ 0 < biased ∧ biased < 2047 := by
    refine ⟨_, rfl, ?_, ?_, ?_⟩ <;> omega
  obtain ⟨biased, isBiased, rfl, nonzero, small⟩ := field
  have exponentSame : (BitVec.ofNat 11 biased).toNat = biased := by
    rw [BitVec.toNat_ofNat, Nat.mod_eq_of_lt (by omega)]
  have notTop : BitVec.ofNat 11 biased ≠ -1#11 := by
    intro top
    have same := congrArg BitVec.toNat top
    rw [exponentSame] at same
    exact absurd same (by simp; omega)
  have notBottom : BitVec.ofNat 11 biased ≠ 0#11 := by
    intro bottom
    have same := congrArg BitVec.toNat bottom
    rw [exponentSame] at same
    exact absurd same (by simp; omega)
  have mantissaSame : (1#1 ++ BitVec.ofNat 52 mantissa).toNat = mantissa := by
    rw [BitVec.toNat_append, ← Nat.shiftLeft_add_eq_or_of_lt (BitVec.ofNat 52 mantissa).isLt,
      BitVec.toNat_ofNat, Nat.shiftLeft_eq]
    simp only [BitVec.toNat_ofNat, Nat.reducePow, Nat.reduceMod, one_mul]
    omega
  show UnpackedFloat.unpack .binary64 (UnpackedFloat.pack .binary64 _) = _
  rw [UnpackedFloat.pack]
  simp only [isBiased]
  rw [if_neg (by show ¬ 2 ^ 11 ≤ biased + 1; omega), if_pos width, UnpackedFloat.unpack]
  simp only [Float.Model.UnpackedFloat.unpackExponent_packComponents,
    Float.Model.UnpackedFloat.unpackMantissa_packComponents,
    Float.Model.UnpackedFloat.unpackSign_packComponents,
    Float.Model.UnpackedFloat.Sign.ofBitVec_toBitVec, notTop, notBottom, if_false]
  simp only [exponentSame, mantissaSame, bias, fraction]
  norm_num

/-! ## Sums -/

/-- A number other than zero is rounded by its sign and its magnitude. -/
theorem normalize_of_ne_zero {mantissa : Int} (nonzero : mantissa ≠ 0) (exponent : Int)
    (zeroSign : Sign) :
    ∃ sign : Sign, mantissa = sign.apply (mantissa.natAbs : Nat) ∧
      UnpackedFloat.normalize .binary64 mantissa exponent zeroSign =
        UnpackedFloat.round .binary64 sign mantissa.natAbs exponent := by
  rcases lt_or_gt_of_ne nonzero with negative | positive
  · refine ⟨.negative, ?_, ?_⟩
    · rw [Sign.apply, Int.ofNat_natAbs_of_nonpos negative.le, neg_neg]
    · rw [UnpackedFloat.normalize, compare_lt_iff_lt.mpr negative]
      dsimp only
      congr 1
      omega
  · refine ⟨.positive, ?_, ?_⟩
    · rw [Sign.apply, Int.natAbs_of_nonneg positive.le]
    · rw [UnpackedFloat.normalize, compare_gt_iff_gt.mpr positive]
      dsimp only
      congr 1
      omega

/-- A whole number up to 2 ^ 53 is found again when its measure has been packed. -/
theorem measures_pack_normalize {mantissa whole exponent : Int} (least : -(scale : Int) ≤ exponent)
    (bounded : whole.natAbs ≤ 2 ^ 53)
    (same : mantissa * 2 ^ (exponent + scale).toNat = whole * 2 ^ scale) :
    Measures (Float.Model.pack
      (UnpackedFloat.normalize .binary64 mantissa exponent .positive)).unpack
      (whole * 2 ^ scale) := by
  rcases eq_or_ne mantissa 0 with rfl | nonzero
  · rw [← same, zero_mul]
    show Measures (UnpackedFloat.unpack .binary64 (UnpackedFloat.packedZero .binary64 .positive)) 0
    rw [Float.Model.UnpackedFloat.unpack_packedZero]
    rfl
  obtain ⟨sign, signed, normalized⟩ := normalize_of_ne_zero nonzero exponent .positive
  have magnitude : mantissa.natAbs * 2 ^ (exponent + scale).toNat = whole.natAbs * 2 ^ scale := by
    have absolute := congrArg Int.natAbs same
    rwa [Int.natAbs_mul, Int.natAbs_mul, Int.natAbs_pow, Int.natAbs_pow] at absolute
  have positive := pos_of_scaled_eq (Int.natAbs_pos.mpr nonzero) magnitude.symm
  obtain ⟨rounded, target, positive', isRounded, canonical, normal, measure⟩ :=
    round_whole sign least positive bounded magnitude
  rw [normalized, isRounded, unpack_pack_normal positive' canonical normal]
  refine ⟨canonical, ?_⟩
  rw [measure, ← magnitude, Nat.cast_mul, apply_mul, ← signed, ← same]
  push_cast
  rfl

/-- Unpacking loses nothing. -/
theorem pack_unpack (packed : Float.Model) : Float.Model.pack packed.unpack = packed := by
  obtain ⟨bits, valid⟩ := packed
  simp only [Float.Model.pack, Float.Model.unpack,
    Float.Model.UnpackedFloat.pack_unpack_of_valid valid]

/-- A significand that is shifted to a lower exponent comes to as many units as before. -/
theorem mul_two_pow_of_le (significand : Nat) {exponent lower : Int}
    (least : -(scale : Int) ≤ lower) (below : lower ≤ exponent) :
    significand * 2 ^ (exponent - lower).toNat * 2 ^ (lower + scale).toNat =
      significand * 2 ^ (exponent + scale).toNat := by
  have split : (exponent + scale).toNat = (exponent - lower).toNat + (lower + scale).toNat := by
    omega
  rw [split, pow_add, mul_assoc]

/-- The measure of a finite number at an exponent that is not greater. -/
theorem measure_shiftLeft (sign : Sign) (mantissa : Nat) {exponent lower : Int}
    (least : -(scale : Int) ≤ lower) (below : lower ≤ exponent) :
    sign.apply (mantissa <<< (exponent - lower).toNat : Nat) * 2 ^ (lower + scale).toNat =
      sign.apply (mantissa * 2 ^ (exponent + scale).toNat : Nat) := by
  rw [← mul_two_pow_of_le mantissa least below, ← apply_mul, Nat.shiftLeft_eq]
  push_cast
  rfl

/-- Adding adds measures, as long as they come to a whole number up to 2 ^ 53. -/
theorem measures_pack_add {left right : UnpackedFloat} {first second whole : Int}
    (stable : (Float.Model.pack left).unpack = left)
    (stable' : (Float.Model.pack right).unpack = right)
    (isFirst : Measures left first) (isSecond : Measures right second)
    (sum : first + second = whole * 2 ^ scale) (bounded : whole.natAbs ≤ 2 ^ 53) :
    Measures (Float.Model.pack (UnpackedFloat.add .binary64 left right)).unpack
      (whole * 2 ^ scale) := by
  rw [← sum]
  cases left with
  | notANumber | infinity => cases isFirst
  | zero sign =>
      obtain rfl : first = 0 := isFirst
      rw [zero_add]
      cases right with
      | notANumber | infinity => cases isSecond
      | zero other =>
          obtain rfl : second = 0 := isSecond
          rw [UnpackedFloat.add]
          split
          · rw [stable]
            rfl
          · show Measures (UnpackedFloat.unpack .binary64
              (UnpackedFloat.packedZero .binary64 .positive)) 0
            rw [Float.Model.UnpackedFloat.unpack_packedZero]
            rfl
      | finite => exact stable'.symm ▸ isSecond
  | finite sign mantissa exponent positive =>
      cases right with
      | notANumber | infinity => cases isSecond
      | zero other =>
          obtain rfl : second = 0 := isSecond
          rw [add_zero]
          exact stable.symm ▸ isFirst
      | finite other mantissa' exponent' positive' =>
          obtain ⟨canonical, isFirst⟩ := isFirst
          obtain ⟨canonical', isSecond⟩ := isSecond
          have least : -(scale : Int) ≤ min exponent exponent' :=
            le_min canonical.least canonical'.least
          rw [sum]
          refine measures_pack_normalize least bounded ?_
          rw [← sum, add_mul, measure_shiftLeft sign mantissa least (min_le_left _ _),
            measure_shiftLeft other mantissa' least (min_le_right _ _), isFirst, isSecond]

/-- Whole numbers are added like integers, as long as the sum does not exceed 2 ^ 53. -/
theorem integer?_add {left right : Float} {first second : Int}
    (isFirst : integer? left = some first) (isSecond : integer? right = some second)
    (bounded : (first + second).natAbs ≤ 2 ^ 53) :
    integer? (left + right) = some (first + second) := by
  rw [integer?_eq_some_iff] at isFirst isSecond ⊢
  exact measures_pack_add (congrArg _ (pack_unpack left.toModel))
    (congrArg _ (pack_unpack right.toModel)) isFirst isSecond (add_mul _ _ _).symm bounded

/-! ## Comparisons -/

/-- Of two canonical magnitudes the one with the lower exponent is less. -/
theorem magnitude_lt {mantissa mantissa' : Nat} {exponent exponent' : Int}
    (canonical : IsCanonical mantissa exponent) (canonical' : IsCanonical mantissa' exponent')
    (lower : exponent < exponent') :
    mantissa * 2 ^ (exponent + scale).toNat < mantissa' * 2 ^ (exponent' + scale).toNat := by
  have least := canonical.least
  have normal : 2 ^ 52 ≤ mantissa' := canonical'.normal.resolve_right (by omega)
  have wider : (exponent' + scale).toNat =
      (exponent + scale).toNat + (exponent' - exponent - 1).toNat + 1 := by
    omega
  have twice : 2 * 2 ^ (exponent + scale).toNat ≤ 2 ^ (exponent' + scale).toNat := by
    rw [wider, pow_succ', pow_add]
    exact Nat.mul_le_mul_left 2 (Nat.le_mul_of_pos_right _ (by positivity))
  calc mantissa * 2 ^ (exponent + scale).toNat
      < 2 ^ 53 * 2 ^ (exponent + scale).toNat :=
        Nat.mul_lt_mul_of_pos_right canonical.width (by positivity)
    _ = 2 ^ 52 * (2 * 2 ^ (exponent + scale).toNat) := by ring
    _ ≤ mantissa' * 2 ^ (exponent' + scale).toNat := Nat.mul_le_mul normal twice

/-- Canonical magnitudes are compared by their exponents first. -/
theorem compare_canonical {mantissa mantissa' : Nat} {exponent exponent' : Int}
    (canonical : IsCanonical mantissa exponent) (canonical' : IsCanonical mantissa' exponent') :
    (compare exponent exponent').then (compare mantissa mantissa') =
      compare (mantissa * 2 ^ (exponent + scale).toNat)
        (mantissa' * 2 ^ (exponent' + scale).toNat) := by
  rcases lt_trichotomy exponent exponent' with lower | rfl | higher
  · rw [compare_lt_iff_lt.mpr lower,
      compare_lt_iff_lt.mpr (magnitude_lt canonical canonical' lower)]
    rfl
  · have positive : 0 < 2 ^ (exponent + scale).toNat := by positivity
    rw [compare_eq_iff_eq.mpr rfl]
    rcases lt_trichotomy mantissa mantissa' with less | rfl | more
    · rw [compare_lt_iff_lt.mpr less,
        compare_lt_iff_lt.mpr (Nat.mul_lt_mul_of_pos_right less positive)]
      rfl
    · rw [compare_eq_iff_eq.mpr rfl, compare_eq_iff_eq.mpr rfl]
      rfl
    · rw [compare_gt_iff_gt.mpr more,
        compare_gt_iff_gt.mpr (Nat.mul_lt_mul_of_pos_right more positive)]
      rfl
  · rw [compare_gt_iff_gt.mpr higher,
      compare_gt_iff_gt.mpr (magnitude_lt canonical' canonical higher)]
    rfl

/-- Negative numbers are compared the other way round. -/
theorem compare_apply_negative (magnitude magnitude' : Nat) :
    compare (Sign.negative.apply magnitude) (Sign.negative.apply magnitude') =
      (compare magnitude magnitude').swap := by
  simp only [Sign.apply]
  rcases lt_trichotomy magnitude magnitude' with less | rfl | more
  · rw [compare_lt_iff_lt.mpr less, compare_gt_iff_gt.mpr (by omega)]
    rfl
  · rw [compare_eq_iff_eq.mpr rfl, compare_eq_iff_eq.mpr rfl]
    rfl
  · rw [compare_gt_iff_gt.mpr more, compare_lt_iff_lt.mpr (by omega)]
    rfl

theorem compare_apply_positive (magnitude magnitude' : Nat) :
    compare (Sign.positive.apply magnitude) (Sign.positive.apply magnitude') =
      compare magnitude magnitude' := by
  simp only [Sign.apply]
  rcases lt_trichotomy magnitude magnitude' with less | rfl | more
  · rw [compare_lt_iff_lt.mpr less, compare_lt_iff_lt.mpr (by omega)]
  · rw [compare_eq_iff_eq.mpr rfl, compare_eq_iff_eq.mpr rfl]
  · rw [compare_gt_iff_gt.mpr more, compare_gt_iff_gt.mpr (by omega)]

/-- Numbers other than zero are compared by their signs first and by their magnitudes then. -/
theorem compare_finite (sign sign' : Sign) {mantissa mantissa' : Nat} {exponent exponent' : Int}
    (positive : 0 < mantissa) (positive' : 0 < mantissa')
    (canonical : IsCanonical mantissa exponent) (canonical' : IsCanonical mantissa' exponent') :
    (UnpackedFloat.finite sign mantissa exponent positive).compare
        (.finite sign' mantissa' exponent' positive') =
      some (compare (sign.apply (mantissa * 2 ^ (exponent + scale).toNat : Nat))
        (sign'.apply (mantissa' * 2 ^ (exponent' + scale).toNat : Nat))) := by
  have compared := compare_canonical canonical canonical'
  have product : 0 < mantissa * 2 ^ (exponent + scale).toNat := by positivity
  have product' : 0 < mantissa' * 2 ^ (exponent' + scale).toNat := by positivity
  generalize mantissa * 2 ^ (exponent + scale).toNat = magnitude at *
  generalize mantissa' * 2 ^ (exponent' + scale).toNat = magnitude' at *
  cases sign with
  | negative =>
      cases sign' with
      | negative => rw [UnpackedFloat.compare, compared, compare_apply_negative]
      | positive =>
          rw [UnpackedFloat.compare, compare_lt_iff_lt.mpr]
          simp only [Sign.apply]
          omega
  | positive =>
      cases sign' with
      | negative =>
          rw [UnpackedFloat.compare, compare_gt_iff_gt.mpr]
          simp only [Sign.apply]
          omega
      | positive => rw [UnpackedFloat.compare, compared, compare_apply_positive]

/-- Finite numbers are compared by their measures. -/
theorem compare_of_measures {left right : UnpackedFloat} {first second : Int}
    (isFirst : Measures left first) (isSecond : Measures right second) :
    left.compare right = some (compare first second) := by
  cases left with
  | notANumber | infinity => cases isFirst
  | zero sign =>
      obtain rfl : first = 0 := isFirst
      cases right with
      | notANumber | infinity => cases isSecond
      | zero other =>
          obtain rfl : second = 0 := isSecond
          rfl
      | finite other mantissa exponent positive =>
          obtain ⟨canonical, rfl⟩ := isSecond
          have product : 0 < mantissa * 2 ^ (exponent + scale).toNat := by positivity
          cases other with
          | negative => rw [UnpackedFloat.compare, Sign.apply, compare_gt_iff_gt.mpr (by omega)]
          | positive => rw [UnpackedFloat.compare, Sign.apply, compare_lt_iff_lt.mpr (by omega)]
  | finite sign mantissa exponent positive =>
      obtain ⟨canonical, rfl⟩ := isFirst
      cases right with
      | notANumber | infinity => cases isSecond
      | zero other =>
          obtain rfl : second = 0 := isSecond
          have product : 0 < mantissa * 2 ^ (exponent + scale).toNat := by positivity
          cases sign with
          | negative => rw [UnpackedFloat.compare, Sign.apply, compare_lt_iff_lt.mpr (by omega)]
          | positive => rw [UnpackedFloat.compare, Sign.apply, compare_gt_iff_gt.mpr (by omega)]
      | finite other mantissa' exponent' positive' =>
          obtain ⟨canonical', rfl⟩ := isSecond
          exact compare_finite sign other positive positive' canonical canonical'

theorem lt_iff_of_measures {left right : UnpackedFloat} {first second : Int}
    (isFirst : Measures left first) (isSecond : Measures right second) :
    left.lt right = true ↔ first < second := by
  rw [UnpackedFloat.lt, compare_of_measures isFirst isSecond, beq_iff_eq, Option.some_inj,
    compare_lt_iff_lt]

/-- Whole numbers are compared like integers. -/
theorem lt_iff {left right : Float} {first second : Int}
    (isFirst : integer? left = some first) (isSecond : integer? right = some second) :
    left < right ↔ first < second := by
  rw [integer?_eq_some_iff] at isFirst isSecond
  have compared : left < right ↔ left.toModel.unpack.lt right.toModel.unpack = true :=
    ⟨of_decide_eq_true, decide_eq_true⟩
  rw [compared, lt_iff_of_measures isFirst isSecond]
  exact mul_lt_mul_iff_of_pos_right (by positivity)

/-! ## Counting -/

theorem integer?_zero : integer? (Float.ofNat 0) = some 0 := by
  decide +kernel

theorem integer?_one : integer? (Float.ofNat 1) = some 1 := by
  decide +kernel

/-- The number that is reached by counting up from another one. -/
def counted (first : Float) : Nat → Float
  | 0 => first
  | steps + 1 => counted first steps + Float.ofNat 1

/-- Between whole numbers up to 2 ^ 53 in magnitude counting misses none. -/
theorem integer?_counted {first : Float} {start : Int} (isFirst : integer? first = some start)
    (bounded : start.natAbs ≤ 2 ^ 53) {steps : Nat} (within : start + steps ≤ 2 ^ 53) :
    integer? (counted first steps) = some (start + steps) := by
  induction steps with
  | zero => simpa [counted] using isFirst
  | succ steps inductive_step =>
      have before := inductive_step (by omega)
      rw [counted, integer?_add before integer?_one (by omega)]
      push_cast
      rw [add_assoc]

end TreeScript.Double
