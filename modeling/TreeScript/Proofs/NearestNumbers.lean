import Mathlib
import TreeScript.Json.Document
import TreeScript.Proofs.WholeRemainders

/-!
# The doubles nearest to JSON numbers

A JSON number is a 64-bit integer or a double, and where it becomes a value it is
replaced by the nearest double (`Numeral.isNearest_toFloat`).  Integers of more
than 53 bits are rounded: bits are shifted away until 53 of them are left, and
the two bits that are kept beside them say on which side of the middle between
two multiples the rest lies (`Double.Represents`).
-/

namespace TreeScript

namespace Double

open Float.Model (UnpackedFloat Format totalExponent)
open Float.Model.UnpackedFloat (Sign ExtendedMantissa Accuracy shiftToTargetExponent shiftToExponent
  roundWithAccuracy)

/-! ## Nearest doubles -/

/-- Whether the last bit of the significand is zero. -/
def IsEven : UnpackedFloat → Prop
  | .finite _ mantissa _ _ => mantissa % 2 = 0
  | _ => True

/--
A double is nearest to so many of the least positive ones if no other finite
double is nearer.  Of two that are equally near it is the one with the even
significand.
-/
def IsNearest (number : Float) (target : Int) : Prop :=
  ∃ multiple, Measures number.toModel.unpack multiple ∧
    ∀ (other : Float) (multiple' : Int), Measures other.toModel.unpack multiple' →
      |multiple - target| < |multiple' - target| ∨
        |multiple - target| = |multiple' - target| ∧
          (multiple' = multiple ∨ IsEven number.toModel.unpack)

/-- A double that is met exactly is the nearest one. -/
theorem isNearest_of_measures {number : Float} {target : Int}
    (measures : Measures number.toModel.unpack target) : IsNearest number target := by
  refine ⟨target, measures, fun other multiple' _ => ?_⟩
  rw [sub_self, abs_zero]
  by_cases same : multiple' = target
  · exact .inr ⟨by simp [same], .inl same⟩
  · exact .inl (abs_pos.mpr (sub_ne_zero_of_ne same))

theorem IsNearest.isFinite {number : Float} {target : Int} (nearest : IsNearest number target) :
    number.isFinite = true := by
  obtain ⟨multiple, measures, -⟩ := nearest
  show number.toModel.unpack.isFinite = true
  cases unpacked : number.toModel.unpack with
  | notANumber | infinity =>
      rw [unpacked] at measures
      cases measures
  | zero | finite => rfl

/-! ## Shifting bits away -/

/--
A multiple of a unit is half a unit away from a target at most.  Something else
is known if it is not less than that.
-/
structure IsCloseMultiple (count unit target : Int) (even : Prop) : Prop where
  close : 2 * |count * unit - target| ≤ unit
  tie : even ∨ 2 * |count * unit - target| < unit

namespace IsCloseMultiple

variable {count unit target : Int} {even : Prop}

theorem of_lt (below : 2 * (target - count * unit) < unit)
    (above : 2 * (count * unit - target) < unit) : IsCloseMultiple count unit target even := by
  have strict : 2 * |count * unit - target| < unit := by
    rcases abs_cases (count * unit - target) with ⟨distance, -⟩ | ⟨distance, -⟩ <;>
      rw [distance] <;> linarith
  exact ⟨strict.le, .inr strict⟩

theorem of_le (holds : even) (below : 2 * (target - count * unit) ≤ unit)
    (above : 2 * (count * unit - target) ≤ unit) : IsCloseMultiple count unit target even := by
  refine ⟨?_, .inl holds⟩
  rcases abs_cases (count * unit - target) with ⟨distance, -⟩ | ⟨distance, -⟩ <;>
    rw [distance] <;> linarith

end IsCloseMultiple

/-- A mantissa with two further bits says where a number lies between two multiples of a unit. -/
def Represents : ExtendedMantissa → Nat → Nat → Prop
  | ⟨mantissa, false, false⟩, number, unit => number = mantissa * unit
  | ⟨mantissa, false, true⟩, number, unit =>
      mantissa * unit < number ∧ 2 * number < (2 * mantissa + 1) * unit
  | ⟨mantissa, true, false⟩, number, unit => 2 * number = (2 * mantissa + 1) * unit
  | ⟨mantissa, true, true⟩, number, unit =>
      (2 * mantissa + 1) * unit < 2 * number ∧ number < (mantissa + 1) * unit

theorem Represents.shiftRightOne {extended : ExtendedMantissa} {number unit : Nat}
    (positive : 0 < unit) (represents : Represents extended number unit) :
    Represents extended.shiftRightOne number (2 * unit) := by
  obtain ⟨mantissa, roundBit, stickyBit⟩ := extended
  obtain ⟨half, rfl | rfl⟩ := mantissa.even_or_odd'
  · have halved : 2 * half / 2 = half := by omega
    have last : (2 * half % 2 != 0) = false := by simp
    rw [ExtendedMantissa.shiftRightOne]
    simp only [halved, last]
    cases roundBit <;> cases stickyBit <;>
      simp only [Represents, Bool.or_false, Bool.or_true] at represents ⊢
    case false.false => linarith only [represents]
    all_goals constructor <;> nlinarith only [represents, positive]
  · have halved : (2 * half + 1) / 2 = half := by omega
    have last : ((2 * half + 1) % 2 != 0) = true := by simp
    rw [ExtendedMantissa.shiftRightOne]
    simp only [halved, last]
    cases roundBit <;> cases stickyBit <;>
      simp only [Represents, Bool.or_false, Bool.or_true] at represents ⊢
    case false.false => linarith only [represents]
    all_goals constructor <;> nlinarith only [represents, positive]

theorem Represents.shiftRight {extended : ExtendedMantissa} {number unit : Nat}
    (positive : 0 < unit) (represents : Represents extended number unit) (shift : Nat) :
    Represents (extended >>> shift) number (2 ^ shift * unit) := by
  show Represents (shift.repeat ExtendedMantissa.shiftRightOne extended) _ _
  induction shift with
  | zero => simpa [Nat.repeat] using represents
  | succ shift inductive_step =>
      rw [Nat.repeat, pow_succ', mul_assoc]
      exact inductive_step.shiftRightOne (by positivity)

/--
The rounded mantissa gives the nearest multiple of the unit.  If the number lies
in the middle between two multiples, it is the even one.
-/
theorem Represents.isCloseMultiple {extended : ExtendedMantissa} {number unit : Nat}
    (positive : 0 < unit) (represents : Represents extended number unit) :
    IsCloseMultiple extended.roundedMantissa unit number (extended.roundedMantissa % 2 = 0) := by
  obtain ⟨mantissa, roundBit, stickyBit⟩ := extended
  cases roundBit <;> cases stickyBit <;>
    simp only [Represents, ExtendedMantissa.roundedMantissa, ExtendedMantissa.accuracy,
      Accuracy.roundToNearestEven] at represents ⊢
  all_goals zify at represents positive
  · apply IsCloseMultiple.of_lt <;> linarith
  · apply IsCloseMultiple.of_lt <;> linarith
  · have even : (mantissa + mantissa % 2) % 2 = 0 := by omega
    rcases Nat.mod_two_eq_zero_or_one mantissa with last | last
    · rw [last] at even ⊢
      apply IsCloseMultiple.of_le even <;> push_cast <;> linarith
    · rw [last] at even ⊢
      apply IsCloseMultiple.of_le even <;> push_cast <;> linarith
  · apply IsCloseMultiple.of_lt <;> push_cast <;> linarith

/-! ## No double is nearer -/

/-- Doubles are multiples of a unit, or they are less than 2 ^ 52 times the unit. -/
theorem exists_eq_mul_or_lt {number : UnpackedFloat} {multiple : Int}
    (measures : Measures number multiple) (shift : Nat) :
    (∃ count : Int, multiple = count * 2 ^ shift) ∨ |multiple| < 2 ^ 52 * 2 ^ shift := by
  cases number with
  | notANumber | infinity => cases measures
  | zero sign =>
      obtain rfl : multiple = 0 := measures
      exact .inl ⟨0, by simp⟩
  | finite sign mantissa exponent positive =>
      obtain ⟨canonical, rfl⟩ := measures
      generalize (exponent + scale).toNat = low
      rcases Nat.lt_or_ge low shift with below | above
      · right
        have wider : 2 * 2 ^ low ≤ 2 ^ shift := by
          rw [← pow_succ']
          exact Nat.pow_le_pow_right (by decide) below
        have magnitude : mantissa * 2 ^ low < 2 ^ 52 * 2 ^ shift :=
          calc mantissa * 2 ^ low
              < 2 ^ 53 * 2 ^ low := Nat.mul_lt_mul_of_pos_right canonical.width (by positivity)
            _ = 2 ^ 52 * (2 * 2 ^ low) := by ring
            _ ≤ 2 ^ 52 * 2 ^ shift := Nat.mul_le_mul_left _ wider
        rw [Int.abs_eq_natAbs, natAbs_apply]
        exact_mod_cast magnitude
      · left
        refine ⟨sign.apply (mantissa * 2 ^ (low - shift) : Nat), ?_⟩
        have split : 2 ^ low = 2 ^ (low - shift) * 2 ^ shift := by
          rw [← pow_add, Nat.sub_add_cancel above]
        rw [split, ← mul_assoc, Nat.cast_mul _ (2 ^ shift), apply_mul]
        norm_cast

/-- Another multiple of a unit is as far away as this one at least. -/
theorem IsCloseMultiple.lt_or_eq {unit target rounded count : Int} {even : Prop}
    (near : IsCloseMultiple rounded unit target even) (different : count ≠ rounded) :
    |rounded * unit - target| < |count * unit - target| ∨
      |rounded * unit - target| = |count * unit - target| ∧ even := by
  obtain ⟨close, tie⟩ := near
  have positive : 0 ≤ unit := (mul_nonneg (by decide) (abs_nonneg _)).trans close
  have apart : unit ≤ |count * unit - rounded * unit| := by
    rw [← sub_mul, abs_mul, abs_of_nonneg positive]
    exact le_mul_of_one_le_left positive (Int.one_le_abs (sub_ne_zero_of_ne different))
  have triangle := abs_sub_le (count * unit) target (rounded * unit)
  rw [abs_sub_comm target] at triangle
  rcases tie with even | strict
  · rcases lt_or_eq_of_le (show |rounded * unit - target| ≤ |count * unit - target| by linarith)
      with less | same
    · exact .inl less
    · exact .inr ⟨same, even⟩
  · left
    linarith

/-- What is less than all multiples that come into question is further away. -/
theorem IsCloseMultiple.lt_of_lt {unit target rounded multiple least : Int} {even : Prop}
    (near : IsCloseMultiple rounded unit target even) (wide : least * unit ≤ target)
    (normal : least ≤ rounded) (small : multiple < least * unit) :
    |rounded * unit - target| < |multiple - target| := by
  have close := near.close
  have positive : 0 ≤ unit := (mul_nonneg (by decide) (abs_nonneg _)).trans close
  rw [abs_sub_comm multiple, abs_of_nonneg (by linarith : 0 ≤ target - multiple)]
  have smaller := mul_le_mul_of_nonneg_right normal positive
  rcases eq_or_lt_of_le normal with rfl | greater
  · rw [abs_sub_comm, abs_of_nonneg (by linarith)]
    linarith
  · have next : (least + 1) * unit ≤ rounded * unit := mul_le_mul_of_nonneg_right greater positive
    have far := le_abs_self (rounded * unit - target)
    linarith

/-- What is a close multiple of a unit is one of a multiple of the unit. -/
theorem IsCloseMultiple.mul {count unit target factor : Int} {even : Prop}
    (near : IsCloseMultiple count unit target even) (positive : 0 < factor) :
    IsCloseMultiple count (unit * factor) (target * factor) even := by
  have scaled : 2 * |count * (unit * factor) - target * factor| =
      2 * |count * unit - target| * factor := by
    rw [← mul_assoc, ← sub_mul, abs_mul, abs_of_pos positive, mul_assoc]
  constructor
  · rw [scaled]
    exact mul_le_mul_of_nonneg_right near.close positive.le
  · rw [scaled]
    exact near.tie.imp_right fun strict => mul_lt_mul_of_pos_right strict positive

/-- A mantissa whose last bits have been rounded away is nearest to the one that it was before. -/
theorem isNearest_of_isCloseMultiple {number : Float} {mantissa rounded shift low : Nat}
    (measures : Measures number.toModel.unpack (rounded * 2 ^ (shift + low)))
    (wide : 2 ^ 52 * 2 ^ shift ≤ mantissa) (normal : 2 ^ 52 ≤ rounded)
    (near : IsCloseMultiple rounded (2 ^ shift : Nat) mantissa (IsEven number.toModel.unpack)) :
    IsNearest number (mantissa * 2 ^ low) := by
  refine ⟨_, measures, fun other multiple' measures' => ?_⟩
  have unit : (0 : Int) < 2 ^ low := by positivity
  have spacing : ((2 ^ shift : Nat) * 2 ^ low : Int) = 2 ^ (shift + low) := by
    push_cast
    exact (pow_add 2 shift low).symm
  have near := near.mul unit
  rw [spacing] at near
  rcases exists_eq_mul_or_lt measures' (shift + low) with ⟨count, rfl⟩ | small
  · by_cases same : count = rounded
    · exact .inr ⟨by rw [same], .inl (by rw [same])⟩
    · exact (near.lt_or_eq same).imp_right fun ⟨equal, even⟩ => ⟨equal, .inr even⟩
  · left
    have least : (2 ^ 52 : Int) * 2 ^ (shift + low) ≤ mantissa * 2 ^ low := by
      rw [← spacing, ← mul_assoc]
      exact mul_le_mul_of_nonneg_right (by exact_mod_cast wide) unit.le
    exact near.lt_of_lt least (by exact_mod_cast normal) (lt_of_abs_lt small)

/-! ## Rounding -/

theorem represents_exact (mantissa : Nat) :
    Represents (ExtendedMantissa.ofMantissaAndAccuracy mantissa .exact) mantissa 1 :=
  (mul_one mantissa).symm

/-- A mantissa that has been rounded to 53 bits may have got one bit more, which is zero then. -/
theorem exists_canonical_of_le {rounded : Nat} {exponent : Int} (normal : 2 ^ 52 ≤ rounded)
    (bounded : rounded ≤ 2 ^ 53) (least : -(scale : Int) ≤ exponent) (most : exponent < 971) :
    ∃ mantissa shift : Nat, rounded = mantissa * 2 ^ shift ∧ 2 ^ 52 ≤ mantissa ∧
      IsCanonical mantissa (exponent + shift) ∧
      Format.binary64.targetExponent (totalExponent rounded exponent) = exponent + shift ∧
      (rounded % 2 = 0 → mantissa % 2 = 0) := by
  have units := scale_eq
  have minimum : Format.binary64.minExponent = -1074 := rfl
  have bits : Format.binary64.mantissaBits = 53 := rfl
  rw [Format.targetExponent, totalExponent, minimum, bits]
  rcases eq_or_lt_of_le bounded with rfl | narrow
  · have width : (2 ^ 53).log2 = 53 := Nat.log2_two_pow
    refine ⟨2 ^ 52, 1, rfl, Nat.le_refl _,
      ⟨by decide, by omega, by omega, .inl (Nat.le_refl _)⟩, ?_, fun _ => rfl⟩
    rw [width]
    omega
  · have width : rounded.log2 = 52 :=
      (Nat.log2_eq_iff (by omega)).mpr ⟨normal, narrow⟩
    refine ⟨rounded, 0, (mul_one rounded).symm, normal, ⟨narrow, by omega, by omega, .inl normal⟩,
      ?_, id⟩
    rw [width]
    omega

/-- What is near to a number of 53 bits and some more has 53 bits, or it is the next power of 2. -/
theorem bounds_of_isCloseMultiple {mantissa rounded shift : Nat} {even : Prop}
    (lower : 2 ^ (shift + 52) ≤ mantissa) (upper : mantissa < 2 ^ (shift + 52 + 1))
    (near : IsCloseMultiple rounded (2 ^ shift : Nat) mantissa even) :
    2 ^ 52 ≤ rounded ∧ rounded ≤ 2 ^ 53 := by
  have close := near.close
  rw [pow_add] at lower
  have last : 52 + 1 = 53 := rfl
  rw [add_assoc, last, pow_add] at upper
  have positive := Nat.two_pow_pos shift
  generalize 2 ^ shift = unit at *
  have above := le_abs_self (rounded * unit - mantissa : Int)
  have below := neg_abs_le (rounded * unit - mantissa : Int)
  constructor
  · by_contra less
    have next : (rounded + 1) * unit ≤ 2 ^ 52 * unit := Nat.mul_le_mul_right _ (by omega)
    zify at *
    linarith
  · by_contra more
    have next : (2 ^ 53 + 1) * unit ≤ rounded * unit := Nat.mul_le_mul_right _ (by omega)
    zify at *
    linarith

/-- A mantissa of 53 bits or more is rounded to a multiple of the unit that is near to it. -/
theorem exists_roundWithAccuracy (sign : Sign) {mantissa shift : Nat} {exponent : Int}
    (width : mantissa.log2 = shift + 52) (least : -(scale : Int) ≤ exponent)
    (most : exponent + shift < 971) :
    ∃ rounded kept target, ∃ positive : 0 < kept,
      roundWithAccuracy .binary64 sign mantissa exponent .exact =
        .finite sign kept target positive ∧
      IsCanonical kept target ∧ 2 ^ 52 ≤ kept ∧ 2 ^ 52 ≤ rounded ∧
      kept * 2 ^ (target + scale).toNat = rounded * 2 ^ (exponent + shift + scale).toNat ∧
      IsCloseMultiple rounded (2 ^ shift : Nat) mantissa (kept % 2 = 0) := by
  have units := scale_eq
  have minimum : Format.binary64.minExponent = -1074 := rfl
  have bits : Format.binary64.mantissaBits = 53 := rfl
  have positive : mantissa ≠ 0 := by
    rintro rfl
    simp at width
  obtain ⟨lower, upper⟩ := (Nat.log2_eq_iff positive).mp width
  have unit := Nat.two_pow_pos shift
  have represents := (represents_exact mantissa).shiftRight Nat.one_pos shift
  rw [mul_one] at represents
  generalize isExtended : ExtendedMantissa.ofMantissaAndAccuracy mantissa .exact >>> shift =
    extended at represents
  have near := represents.isCloseMultiple unit
  generalize isRounded : extended.roundedMantissa = rounded at near
  have first : shiftToTargetExponent .binary64 mantissa exponent .exact =
      (extended, exponent + shift) := by
    have isTarget : Format.binary64.targetExponent (totalExponent mantissa exponent) =
        exponent + shift := by
      rw [Format.targetExponent, totalExponent, minimum, bits]
      omega
    have amount : (exponent + shift - exponent).toNat = shift := by omega
    rw [shiftToTargetExponent, isTarget, shiftToExponent]
    simp only [amount, isExtended]
  have bounds := bounds_of_isCloseMultiple lower upper near
  obtain ⟨kept, further, rfl, normal, canonical, isTarget, stays⟩ :=
    @exists_canonical_of_le rounded (exponent + shift) bounds.1 bounds.2 (by omega) most
  have second := shiftToTargetExponent_exact isTarget
  have present : 0 < kept := by omega
  refine ⟨_, kept, _, present, ?_, canonical, normal, bounds.1, ?_,
    near.close, near.tie.imp_left stays⟩
  · rw [roundWithAccuracy]
    simp only [first, isRounded, second]
    rw [dif_neg present.ne']
  · have split : (exponent + shift + further + scale).toNat =
        further + (exponent + shift + scale).toNat := by omega
    rw [split, pow_add, mul_assoc]

/-! ## Integers -/

/-- The double of a natural number of 53 bits or more is what its mantissa is rounded to. -/
theorem toModel_ofNat {number : Nat} (wide : 2 ^ 53 ≤ number) :
    (Float.ofNat number).toModel =
      .pack (roundWithAccuracy .binary64 .positive (number * 2 ^ 53) (-53) .exact) := by
  have positive : number ≠ 0 := by omega
  have exponents : Format.binary64.exponentBits = 11 := rfl
  show (Float.ofScientific number false 0).toModel = _
  rw [Float.ofScientific, dif_neg (by omega)]
  show Float.Model.pack (UnpackedFloat.ofScientific .binary64 number 0) = _
  rw [UnpackedFloat.ofScientific, dif_neg positive, exponents, if_neg (by decide),
    if_neg (by omega), if_pos (Int.le_refl 0)]
  show Float.Model.pack (roundWithAccuracy .binary64 .positive
    (number <<< 53 * 10 ^ (0 : Int).toNat) (-53) .exact) = _
  rw [Int.toNat_zero, pow_zero, mul_one, Nat.shiftLeft_eq]

/-- Every natural number up to 64 bits becomes the nearest double. -/
theorem isNearest_ofNat {number : Nat} (bounded : number < 2 ^ 64) :
    IsNearest (Float.ofNat number) (number * 2 ^ scale) := by
  rcases Nat.lt_or_ge number (2 ^ 53) with short | wide
  · exact isNearest_of_measures ((integer?_eq_some_iff _ _).mp (integer?_ofNat short))
  have units := scale_eq
  have positive : 0 < number := by omega
  have width : (number * 2 ^ 53).log2 = (number.log2 + 1) + 52 := by
    rw [log2_mul_two_pow positive]
  have narrow : number.log2 < 64 := (Nat.log2_lt positive.ne').mpr bounded
  obtain ⟨rounded, kept, target, positive', isRounded, canonical, normal, normal', measure, near⟩ :=
    @exists_roundWithAccuracy .positive _ _ (-53) width (by omega) (by omega)
  have unpacked : (Float.ofNat number).toModel.unpack =
      .finite .positive kept target positive' := by
    rw [toModel_ofNat wide, isRounded, unpack_pack_normal positive' canonical normal]
  have level : (-53 + (number.log2 + 1 : Nat) + scale : Int).toNat =
      (number.log2 + 1) + (scale - 53) := by omega
  rw [level] at measure
  have whole : (number * 2 ^ 53 : Nat) * 2 ^ (scale - 53) = (number * 2 ^ scale : Int) := by
    rw [Nat.cast_mul, mul_assoc, Nat.cast_pow, Nat.cast_ofNat, ← pow_add,
      Nat.add_sub_cancel' (by omega)]
  have wide : 2 ^ 52 * 2 ^ (number.log2 + 1) ≤ number * 2 ^ 53 := by
    have least := Nat.log2_self_le positive.ne'
    calc 2 ^ 52 * 2 ^ (number.log2 + 1) = 2 ^ number.log2 * 2 ^ 53 := by ring
      _ ≤ number * 2 ^ 53 := Nat.mul_le_mul_right _ least
  rw [← whole]
  apply isNearest_of_isCloseMultiple ?_ wide normal' (unpacked ▸ near)
  rw [unpacked]
  refine ⟨canonical, ?_⟩
  rw [measure, Sign.apply]
  norm_cast

theorem unpack_neg {number : Float} {multiple : Int}
    (measures : Measures number.toModel.unpack multiple) :
    (-number).toModel.unpack = number.toModel.unpack.neg :=
  unpack_pack_of_measures (measures_neg measures)

theorem isEven_neg (number : UnpackedFloat) : IsEven number.neg ↔ IsEven number := by
  cases number <;> rfl

/-- The double nearest to the negative number is the negative one. -/
theorem IsNearest.neg {number : Float} {target : Int} (nearest : IsNearest number target) :
    IsNearest (-number) (-target) := by
  obtain ⟨multiple, measures, nearest⟩ := nearest
  refine ⟨-multiple, unpack_neg measures ▸ measures_neg measures, ?_⟩
  intro other multiple' measures'
  have opposite := nearest (-other) (-multiple') (unpack_neg measures' ▸ measures_neg measures')
  have distance (count : Int) : |-count - target| = |count - -target| := by
    rw [← abs_neg]
    congr 1
    ring
  rw [unpack_neg measures, isEven_neg, ← distance, ← distance, neg_neg, ← neg_eq_iff_eq_neg]
  exact opposite

/-- Every finite double measures something. -/
theorem exists_measures {number : Float} (finite : number.isFinite = true) :
    ∃ multiple, Measures number.toModel.unpack multiple := by
  have finite : number.toModel.unpack.isFinite = true := finite
  have canonical := @isCanonical_unpack number
  generalize number.toModel.unpack = unpacked at finite canonical
  cases unpacked with
  | notANumber | infinity => cases finite
  | zero sign => exact ⟨0, rfl⟩
  | finite sign mantissa exponent positive => exact ⟨_, canonical rfl, rfl⟩

end Double

/-- The integers of JSON numbers have 64 bits, and their doubles are finite. -/
def Numeral.IsProper : Numeral → Prop
  | .natural magnitude => magnitude < 2 ^ 64
  | .negative magnitude => magnitude ≤ 2 ^ 63
  | .real number => number.isFinite = true

/-- How many of the least positive doubles a JSON number comes to. -/
inductive Numeral.Measures : Numeral → Int → Prop where
  | natural (magnitude : Nat) : Measures (.natural magnitude) (magnitude * 2 ^ Double.scale)
  | negative (magnitude : Nat) : Measures (.negative magnitude) (-(magnitude * 2 ^ Double.scale))
  | real {number : Float} {multiple : Int}
      (measures : Double.Measures number.toModel.unpack multiple) :
      Measures (.real number) multiple

/-- A JSON number becomes the double that is nearest to it. -/
theorem Numeral.isNearest_toFloat {numeral : Numeral} (proper : numeral.IsProper) :
    ∃ target, numeral.Measures target ∧ Double.IsNearest numeral.toFloat target := by
  cases numeral with
  | natural magnitude => exact ⟨_, .natural magnitude, Double.isNearest_ofNat proper⟩
  | negative magnitude =>
      have bounded : magnitude < 2 ^ 64 := Nat.lt_of_le_of_lt proper (by decide)
      exact ⟨_, .negative magnitude, (Double.isNearest_ofNat bounded).neg⟩
  | real number =>
      obtain ⟨multiple, measures⟩ := Double.exists_measures proper
      exact ⟨multiple, .real measures, Double.isNearest_of_measures measures⟩

end TreeScript
