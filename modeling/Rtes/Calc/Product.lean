import Rtes.Calc.Align

/-!
# Products

The product of two fractions has 47 or 48 bits, of which the 23 last are cut off
before the result is normalized.  Together this is rounding toward zero.
-/

namespace Rtes.Calc

open Rtes.Binary32 Rtes.Reservation Rtes.Transition

variable {n1 n2 : U32}

/-! ## The parts of a product -/

private theorem times_sign (n1 n2 : U32) :
    (times (unpack n1) (unpack n2)).sign = bit (negative n1 ^^ negative n2) := by
  rw [times, unpack_sign, unpack_sign, bit_xor]

/-- The product of the fractions of two operands. -/
def fracProduct (n1 n2 : U32) : ℕ :=
  (8388608 + fraction n1) * (8388608 + fraction n2)

theorem fracProduct_bounds (n1 n2 : U32) :
    70368744177664 ≤ fracProduct n1 n2 ∧ fracProduct n1 n2 < 281474976710656 := by
  have bound := fraction_lt n1
  have bound' := fraction_lt n2
  unfold fracProduct
  constructor
  · exact Nat.mul_le_mul (by omega : 8388608 ≤ _) (by omega : 8388608 ≤ _)
  · exact Nat.mul_lt_mul'' (by omega : _ < 16777216) (by omega : _ < 16777216)

theorem toNat_times_frac (n1 n2 : U32) :
    (times (unpack n1) (unpack n2)).frac.toNat = fracProduct n1 n2 / 8388608 := by
  have bounds := fracProduct_bounds n1 n2
  have bound := fraction_lt n1
  have bound' := fraction_lt n2
  unfold fracProduct at bounds ⊢
  rw [times, BitVec.toNat_setWidth, BitVec.toNat_ushiftRight, BitVec.toNat_mul,
    BitVec.toNat_setWidth, BitVec.toNat_setWidth, toNat_unpack_frac, toNat_unpack_frac,
    Nat.shiftRight_eq_div_pow, Nat.mod_eq_of_lt (by omega : 8388608 + fraction n1 < 2 ^ 64),
    Nat.mod_eq_of_lt (by omega : 8388608 + fraction n2 < 2 ^ 64)]
  omega

private theorem hasExponent_times (n1 n2 : U32) :
    HasExponent (times (unpack n1) (unpack n2)) ((biased n1 : ℤ) + biased n2 - 127) := by
  have first := (hasExp_unpack n1).hasExponent
  have second := (hasExp_unpack n2).hasExponent
  unfold HasExponent at *
  rw [times, BitVec.toNat_add]
  omega

/-! ## Rounding -/

/-- The place of the leading one, in the product without its 23 last bits. -/
theorem log2_times (n1 n2 : U32) : 23 ≤ (fracProduct n1 n2 / 8388608).log2 ∧
    (fracProduct n1 n2 / 8388608).log2 ≤ 24 := by
  have bounds := fracProduct_bounds n1 n2
  have nonzero : fracProduct n1 n2 / 8388608 ≠ 0 := by omega
  constructor
  · exact (Nat.le_log2 nonzero).mpr (by omega)
  · exact Nat.le_of_lt_succ ((Nat.log2_lt nonzero).mpr (by omega))

/-- Both shifts together are one. -/
theorem fitted_times (n1 n2 : U32) : fitted (fracProduct n1 n2 / 8388608) =
    fracProduct n1 n2 / 2 ^ (fracProduct n1 n2 / 8388608).log2 := by
  obtain ⟨low, _⟩ := log2_times n1 n2
  generalize isLog : (fracProduct n1 n2 / 8388608).log2 = log at *
  have power : 2 ^ log = 8388608 * 2 ^ (log - 23) := by
    rw [show 8388608 = 2 ^ 23 from rfl, ← Nat.pow_add, Nat.add_sub_cancel' low]
  rw [power, ← Nat.div_div_eq_div_mul]
  rcases Nat.lt_or_eq_of_le low with less | rfl
  · rw [fitted_of_lt (isLog ▸ less), isLog]
  · rw [fitted_of_le (isLog.le), isLog, Nat.sub_self, pow_zero, Nat.mul_one, Nat.div_one]

theorem sysCalc_times (n1 n2 : U32) : sysCalc n1 n2 '*' =
    .ok (outcome (negative n1 ^^ negative n2)
      ((biased n1 : ℤ) + biased n2 - 127 + (fracProduct n1 n2 / 8388608).log2 - 23)
      (fitted (fracProduct n1 n2 / 8388608))) := by
  have bounds := fracProduct_bounds n1 n2
  have most := biased_lt n1
  have most' := biased_lt n2
  have isFrac := toNat_times_frac n1 n2
  have isSign : (times (unpack n1) (unpack n2)).sign.toNat =
      if (negative n1 ^^ negative n2) then 1 else 0 := by
    rw [times_sign, toNat_bit]
  have returns : sysCalc n1 n2 '*' = _ := reconstruct_outcome (by omega)
    (hasExponent_times n1 n2) (by omega) (by omega) isSign
  rw [returns, isFrac]

section Normal

variable (normal : Normal n1) (normal' : Normal n2)

include normal normal'

private theorem abs_product : |value n1 * value n2| =
    fracProduct n1 n2 * 2 ^ ((biased n1 : ℤ) + biased n2 - 300) := by
  have power : (2 : ℚ) ^ ((biased n1 : ℤ) + biased n2 - 300) =
      2 ^ ((biased n1 : ℤ) - 150) * 2 ^ ((biased n2 : ℤ) - 150) := by
    rw [← zpow_add₀ two_ne_zero]
    congr 1
    omega
  rw [abs_mul, normal.abs_value_eq, normal'.abs_value_eq, power, fracProduct]
  push_cast
  ring

theorem product_neg : decide (value n1 * value n2 < 0) = (negative n1 ^^ negative n2) := by
  have first := normal.value_ne_zero
  have second := normal'.value_ne_zero
  rw [Bool.eq_iff_iff, decide_eq_true_iff, mul_neg_iff, normal.value_neg_iff,
    normal'.value_neg_iff, lt_iff_le_and_ne, lt_iff_le_and_ne, ← not_lt, ← not_lt,
    normal.value_neg_iff, normal'.value_neg_iff]
  cases negative n1 with
  | true => simp [second.symm]
  | false => simp [first.symm]

/-- What the parts of the product are normalized to is the product, cut off. -/
theorem product_bounds :
    (fitted (fracProduct n1 n2 / 8388608) : ℚ) *
          2 ^ ((biased n1 : ℤ) + biased n2 - 300 + (fracProduct n1 n2 / 8388608).log2) ≤
        |value n1 * value n2| ∧
      |value n1 * value n2| < ((fitted (fracProduct n1 n2 / 8388608) : ℚ) + 1) *
        2 ^ ((biased n1 : ℤ) + biased n2 - 300 + (fracProduct n1 n2 / 8388608).log2) := by
  have unit : (0 : ℚ) < 2 ^ ((biased n1 : ℤ) + biased n2 - 300) := by positivity
  have cuts := fitted_times n1 n2
  have below := Nat.div_mul_le_self (fracProduct n1 n2) (2 ^ (fracProduct n1 n2 / 8388608).log2)
  have above := Nat.lt_mul_div_succ (fracProduct n1 n2)
    (Nat.two_pow_pos (fracProduct n1 n2 / 8388608).log2)
  rw [← cuts] at below above
  rw [abs_product normal normal']
  generalize (fracProduct n1 n2 / 8388608).log2 = log at *
  generalize fitted (fracProduct n1 n2 / 8388608) = signif at *
  have power : (2 : ℚ) ^ ((biased n1 : ℤ) + biased n2 - 300 + log) =
      2 ^ log * 2 ^ ((biased n1 : ℤ) + biased n2 - 300) := by
    rw [zpow_add₀ two_ne_zero, zpow_natCast, mul_comm]
  have below' : (signif : ℚ) * 2 ^ log ≤ fracProduct n1 n2 := by exact_mod_cast below
  have above' : (fracProduct n1 n2 : ℚ) < (signif + 1) * 2 ^ log := by
    rw [mul_comm]
    exact_mod_cast above
  constructor
  · rw [power, ← mul_assoc]
    exact mul_le_mul_of_nonneg_right below' unit.le
  · rw [power, ← mul_assoc]
    exact mul_lt_mul_of_pos_right above' unit

private theorem towardZero_product : towardZero (value n1 * value n2) =
    signed (negative n1 ^^ negative n2) ((fitted (fracProduct n1 n2 / 8388608) : ℚ) *
      2 ^ ((biased n1 : ℤ) + biased n2 - 300 + (fracProduct n1 n2 / 8388608).log2)) := by
  have bounds := fracProduct_bounds n1 n2
  have nonzero : fracProduct n1 n2 / 8388608 ≠ 0 := by omega
  obtain ⟨low, high⟩ := fitted_bounds nonzero
  obtain ⟨below, above⟩ := product_bounds normal normal'
  rw [towardZero_eq low high below above, product_neg normal normal']

/-- What is returned is the encoding of the product, cut off. -/
theorem exists_product (least : 2 ^ (-126 : ℤ) ≤ |towardZero (value n1 * value n2)|)
    (less : |towardZero (value n1 * value n2)| < 2 ^ (128 : ℤ)) :
    ∃ r, sysCalc n1 n2 '*' = .ok r ∧ Normal r ∧ negative r = (negative n1 ^^ negative n2) ∧
      value r = towardZero (value n1 * value n2) := by
  have bounds := fracProduct_bounds n1 n2
  have nonzero : fracProduct n1 n2 / 8388608 ≠ 0 := by omega
  obtain ⟨low, high⟩ := fitted_bounds nonzero
  have returns := sysCalc_times n1 n2
  rw [towardZero_product normal normal'] at least less ⊢
  generalize (fracProduct n1 n2 / 8388608).log2 = log at *
  generalize fitted (fracProduct n1 n2 / 8388608) = signif at *
  generalize (negative n1 ^^ negative n2) = isNegative at *
  have log2 : signif.log2 = 23 := (Nat.log2_eq_iff (by omega)).mpr ⟨low, high⟩
  rw [abs_signed, abs_of_nonneg (by positivity)] at least less
  have above := lt_log2_add least
  have below := log2_add_lt (by omega) less
  obtain ⟨isNormal, isNeg, isValue⟩ := @outcome_normal isNegative
    ((biased n1 : ℤ) + biased n2 - 127 + log - 23) signif (by omega) (by omega) low high
  have power : (biased n1 : ℤ) + biased n2 - 300 + log =
      (biased n1 : ℤ) + biased n2 - 127 + log - 23 - 150 := by omega
  refine ⟨_, returns, isNormal, isNeg, ?_⟩
  rw [isValue, power, signed_mul]

/-- A product whose rounding toward zero is in the normal range is rounded toward
zero. -/
theorem sysCalc_product_iff (least : 2 ^ (-126 : ℤ) ≤ |towardZero (value n1 * value n2)|)
    (less : |towardZero (value n1 * value n2)| < 2 ^ (128 : ℤ)) (r : U32) :
    sysCalc n1 n2 '*' = .ok r ↔ Normal r ∧ negative r = (negative n1 ^^ negative n2) ∧
      value r = towardZero (value n1 * value n2) := by
  obtain ⟨r', returns, isNormal, isSign, isValue⟩ := exists_product normal normal' least less
  rw [returns, Except.ok.injEq]
  constructor
  · rintro rfl
    exact ⟨isNormal, isSign, isValue⟩
  · rintro ⟨isNormal', _, isValue'⟩
    exact isNormal.value_inj isNormal' (isValue.trans isValue'.symm)

end Normal

private theorem normal_aboveOne : Normal 0x3f800001 :=
  ⟨by decide, by decide⟩

private theorem value_aboveOne : value 0x3f800001 = 8388609 / 8388608 := by
  have fields : biased 0x3f800001 = 127 ∧ fraction 0x3f800001 = 1 ∧
      negative 0x3f800001 = false := by decide
  rw [normal_aboveOne.value_eq, fields.1, fields.2.1, fields.2.2]
  norm_num

/-- The square of the least number above one loses its last bit. -/
theorem sysCalc_product_iff_aboveOne :
    towardZero (value 0x3f800001 * value 0x3f800001) ≠ value 0x3f800001 * value 0x3f800001 ∧
      (sysCalc 0x3f800001 0x3f800001 '*' = .ok 0x3f800002 ↔ Normal 0x3f800002 ∧
        negative 0x3f800002 = (negative 0x3f800001 ^^ negative 0x3f800001) ∧
        value 0x3f800002 = towardZero (value 0x3f800001 * value 0x3f800001)) := by
  have square : towardZero (value 0x3f800001 * value 0x3f800001) = 8388610 / 8388608 := by
    have low : ((8388610 : ℕ) : ℚ) * 2 ^ (-23 : ℤ) ≤ |8388609 / 8388608 * (8388609 / 8388608)| := by
      norm_num
    have high : |(8388609 : ℚ) / 8388608 * (8388609 / 8388608)| <
        ((8388610 : ℕ) + 1) * 2 ^ (-23 : ℤ) := by
      norm_num
    rw [value_aboveOne, towardZero_eq (by decide) (by decide) low high]
    norm_num
  constructor
  · rw [square, value_aboveOne]
    norm_num
  · refine sysCalc_product_iff normal_aboveOne normal_aboveOne ?_ ?_ 0x3f800002
    · rw [square]
      norm_num
    · rw [square]
      norm_num

end Rtes.Calc
