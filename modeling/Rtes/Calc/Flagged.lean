import Rtes.Calc.Product
import Rtes.Calc.Quotient
import Rtes.Calc.Symmetry
import Rtes.Calc.Sum

/-!
# When the error code is returned

The error code is returned for exponents that are out of range, and it is a word like
every result: a positive number below the normal ones has it for its encoding.
-/

namespace Rtes.Calc

open Rtes.Binary32 Rtes.Reservation Rtes.Transition

variable {n1 n2 : U32} {op : Char}

/-! ## Normalized results -/

theorem outcome_eq_einval_iff {isNegative : Bool} {exponent : ℤ} {frac : ℕ}
    (low : 8388608 ≤ frac) (high : frac < 16777216) :
    outcome isNegative exponent frac = einval ↔
      exponent < 0 ∨ (255 < exponent ∨ exponent = 255 ∧ frac ≠ 8388608) ∨
        exponent = 0 ∧ frac = 8388630 ∧ isNegative = false := by
  by_cases rejected : exponent < 0 ∨ 255 < exponent ∨ exponent = 255 ∧ frac ≠ 8388608
  · rw [outcome, if_pos rejected]
    exact iff_of_true rfl (rejected.imp_right .inl)
  · have isError : einval = encode false 0 22 := rfl
    rw [outcome, if_neg rejected, isError, eq_iff_fields, negative_encode (by omega) (by omega),
      negative_encode (by omega) (by omega), biased_encode (by omega) (by omega),
      biased_encode (by omega) (by omega), fraction_encode (by omega) (by omega),
      fraction_encode (by omega) (by omega)]
    constructor
    · rintro ⟨sign, exp, rest⟩
      exact .inr (.inr ⟨by omega, by omega, sign⟩)
    · rintro (below | above | ⟨exp, rest, sign⟩)
      · omega
      · omega
      · exact ⟨sign, by omega, by omega⟩

/-- Exact results for which the error code is returned, if they are cut off to 24
bits. -/
def Flagged (x : ℚ) : Prop :=
  |x| < 2 ^ (-127 : ℤ) ∨ 2 ^ (128 : ℤ) + 2 ^ (105 : ℤ) ≤ |x| ∨
    8388630 * 2 ^ (-150 : ℤ) ≤ x ∧ x < 8388631 * 2 ^ (-150 : ℤ)

section Truncated

variable {x : ℚ} {exponent : ℤ} {frac : ℕ}

private theorem scaled_le_iff {unit : ℚ} (positive : 0 < unit) (least : frac * unit ≤ x)
    (less : x < (frac + 1) * unit) {bound : ℕ} : bound * unit ≤ x ↔ bound ≤ frac := by
  constructor
  · intro le
    have below : (bound : ℚ) < frac + 1 := (mul_lt_mul_iff_left₀ positive).mp (le.trans_lt less)
    exact Nat.lt_succ_iff.mp (by exact_mod_cast below)
  · intro le
    have cast : (bound : ℚ) ≤ frac := by exact_mod_cast le
    exact (mul_le_mul_of_nonneg_right cast positive.le).trans least

variable (low : 8388608 ≤ frac) (high : frac < 16777216)
  (least : frac * 2 ^ (exponent - 150) ≤ |x|) (less : |x| < (frac + 1) * 2 ^ (exponent - 150))

include low high least less

theorem zpow_le_abs_iff {k : ℤ} : (2 : ℚ) ^ k ≤ |x| ↔ k ≤ exponent - 127 := by
  have isLog := log_eq low high least less
  have positive : 0 < |x| := lt_of_lt_of_le (by positivity) least
  have toLog := @Int.zpow_le_iff_le_log ℚ _ _ _ _ 2 one_lt_two k |x| positive
  rw [isLog, Nat.cast_ofNat] at toLog
  rw [toLog]
  omega

private theorem abs_ge_iff : (2 : ℚ) ^ (128 : ℤ) + 2 ^ (105 : ℤ) ≤ |x| ↔
    255 < exponent ∨ exponent = 255 ∧ frac ≠ 8388608 := by
  have toPower := @zpow_le_abs_iff x exponent frac low high least less
  have sum : (2 : ℚ) ^ (128 : ℤ) + 2 ^ (105 : ℤ) = (8388609 : ℕ) * 2 ^ ((255 : ℤ) - 150) := by
    norm_num
  rcases lt_trichotomy exponent 255 with small | rfl | large
  · have notPower : ¬ (2 : ℚ) ^ (128 : ℤ) ≤ |x| := by
      rw [toPower]
      omega
    apply iff_of_false
    · intro reaches
      have positive : (0 : ℚ) < 2 ^ (105 : ℤ) := by positivity
      exact notPower (by linarith)
    · omega
  · rw [sum, scaled_le_iff (by positivity) least less]
    omega
  · have power : (2 : ℚ) ^ (129 : ℤ) ≤ |x| := by
      rw [toPower]
      omega
    apply iff_of_true
    · refine le_trans ?_ power
      norm_num
    · exact .inl large

/-- The numbers that are encoded as the error code. -/
theorem mem_slot_iff : 8388630 * 2 ^ (-150 : ℤ) ≤ x ∧ x < 8388631 * 2 ^ (-150 : ℤ) ↔
    exponent = 0 ∧ frac = 8388630 ∧ decide (x < 0) = false := by
  have toPower := @zpow_le_abs_iff x exponent frac low high least less
  have toFrac : exponent = 0 → ∀ bound : ℕ, bound * (2 : ℚ) ^ (-150 : ℤ) ≤ |x| ↔ bound ≤ frac := by
    rintro rfl bound
    exact scaled_le_iff (by positivity) least less
  rw [decide_eq_false_iff_not, not_lt]
  constructor
  · rintro ⟨atLeast, below⟩
    have nonneg : 0 ≤ x := le_trans (by positivity) atLeast
    rw [abs_of_nonneg nonneg] at toPower toFrac
    have power : (2 : ℚ) ^ (-127 : ℤ) ≤ x := le_trans (by norm_num) atLeast
    have notPower : ¬ (2 : ℚ) ^ (-126 : ℤ) ≤ x := by
      rw [not_le]
      exact lt_trans below (by norm_num)
    rw [toPower] at power notPower
    have zero : exponent = 0 := by omega
    have reaches := (toFrac zero 8388630).mp (by exact_mod_cast atLeast)
    have misses := mt (toFrac zero 8388631).mpr (not_le.mpr (by exact_mod_cast below))
    exact ⟨zero, by omega, nonneg⟩
  · rintro ⟨zero, isFrac, nonneg⟩
    rw [abs_of_nonneg nonneg] at toFrac
    have reaches := (toFrac zero 8388630).mpr (by omega)
    have misses := mt (toFrac zero 8388631).mp (by omega)
    exact ⟨by exact_mod_cast reaches, by exact_mod_cast not_le.mp misses⟩

private theorem outcome_flagged :
    outcome (decide (x < 0)) exponent frac = einval ↔ Flagged x := by
  have below : |x| < 2 ^ (-127 : ℤ) ↔ exponent < 0 := by
    rw [← not_le, zpow_le_abs_iff low high least less]
    omega
  rw [outcome_eq_einval_iff low high, Flagged, below, abs_ge_iff low high least less,
    mem_slot_iff low high least less]

end Truncated

/-- A fraction of 24 bits fits as it is. -/
theorem fitted_of_log2 {frac : ℕ} (isLog : frac.log2 = 23) : fitted frac = frac := by
  rw [fitted_of_le isLog.le, isLog]
  exact Nat.mul_one _

private theorem fitted_of_short {frac : ℕ} (isLog : frac.log2 = 22) : fitted frac = frac * 2 := by
  rw [fitted_of_le (by omega), isLog]
  rfl

/-! ## Products -/

theorem sysCalc_times_flagged (normal : Normal n1) (normal' : Normal n2) :
    sysCalc n1 n2 '*' = .ok einval ↔ Flagged (value n1 * value n2) := by
  have bounds := fracProduct_bounds n1 n2
  have nonzero : fracProduct n1 n2 / 8388608 ≠ 0 := by omega
  obtain ⟨low, high⟩ := fitted_bounds nonzero
  obtain ⟨below, above⟩ := product_bounds normal normal'
  have power : (biased n1 : ℤ) + biased n2 - 300 + (fracProduct n1 n2 / 8388608).log2 =
      (biased n1 : ℤ) + biased n2 - 127 + (fracProduct n1 n2 / 8388608).log2 - 23 - 150 := by
    omega
  rw [power] at below above
  rw [sysCalc_times, Except.ok.injEq, ← product_neg normal normal',
    outcome_flagged low high below above]

/-- A zero is taken for the number below the least normal one. -/
theorem sysCalc_times_zero (isZero : IsZero n1) (finite : Finite n2) :
    sysCalc n1 n2 '*' = .ok einval ↔
      biased n2 < 127 ∨ biased n2 = 127 ∧ fraction n2 = 22 ∧
        (negative n1 ^^ negative n2) = false := by
  have bound := fraction_lt n2
  have most : biased n2 ≤ 254 := finite
  have isFrac : fracProduct n1 n2 / 8388608 = 8388608 + fraction n2 := by
    rw [fracProduct, isZero.2]
    omega
  have isLog : (8388608 + fraction n2).log2 = 23 :=
    (Nat.log2_eq_iff (by omega)).mpr ⟨by omega, by omega⟩
  rw [sysCalc_times, isFrac, fitted_of_log2 isLog, isLog, isZero.1, Except.ok.injEq,
    outcome_eq_einval_iff (by omega) (by omega)]
  constructor
  · rintro (below | above | ⟨exp, rest, sign⟩)
    · omega
    · omega
    · exact .inr ⟨by omega, by omega, sign⟩
  · rintro (below | ⟨exp, rest, sign⟩)
    · omega
    · exact .inr (.inr ⟨by omega, by omega, sign⟩)

/-! ## Quotients -/

/-- A divisor without the last 15 bits of its fraction. -/
def shortened (n2 : U32) : U32 :=
  encode (negative n2) (biased n2) (fraction n2 / 32768 * 32768)

section Shortened

variable (n2 : U32)

theorem shortened_lt : fraction n2 / 32768 * 32768 < 8388608 :=
  (Nat.div_mul_le_self _ _).trans_lt (fraction_lt n2)

private theorem negative_shortened : negative (shortened n2) = negative n2 :=
  negative_encode (biased_lt n2) (shortened_lt n2)

theorem biased_shortened : biased (shortened n2) = biased n2 :=
  biased_encode (biased_lt n2) (shortened_lt n2)

theorem fraction_shortened : 8388608 + fraction (shortened n2) = 32768 * shortDivisor n2 := by
  rw [shortened, fraction_encode (biased_lt n2) (shortened_lt n2), shortDivisor]
  omega

end Shortened

theorem normal_shortened (normal' : Normal n2) : Normal (shortened n2) := by
  constructor
  · rw [biased_shortened]
    exact normal'.least
  · rw [biased_shortened]
    exact normal'.most

theorem fracQuotient_ge (n1 n2 : U32) : 4202512 ≤ fracQuotient n1 n2 := by
  obtain ⟨least, most⟩ := shortDivisor_bounds n2
  rw [fracQuotient, Nat.le_div_iff_mul_le (by omega)]
  omega

/-- The fraction of the quotient by a shortened divisor, cut off to 24 bits. -/
def shortQuotient (n1 n2 : U32) : ℕ :=
  (8388608 + fraction n1) * 2 ^ (31 - (fracQuotient n1 n2).log2) / shortDivisor n2

/-- What is normalized is this fraction, or one unit less. -/
theorem shortQuotient_eq (n1 n2 : U32) :
    (fracQuotient n1 n2).log2 = 23 ∧ shortQuotient n1 n2 = fracQuotient n1 n2 ∨
      (fracQuotient n1 n2).log2 = 22 ∧ 2 * fracQuotient n1 n2 ≤ shortQuotient n1 n2 ∧
        shortQuotient n1 n2 ≤ 2 * fracQuotient n1 n2 + 1 := by
  obtain ⟨least, _⟩ := shortDivisor_bounds n2
  have positive : 0 < shortDivisor n2 := by omega
  obtain ⟨low, up⟩ := log2_fracQuotient n1 n2
  rcases Nat.lt_or_eq_of_le up with less | isLog
  · have isLog : (fracQuotient n1 n2).log2 = 22 := by omega
    have below := Nat.div_mul_le_self ((8388608 + fraction n1) * 256) (shortDivisor n2)
    have above := Nat.lt_mul_div_succ ((8388608 + fraction n1) * 256) positive
    have power : 2 ^ (31 - 22) = 2 * 256 := rfl
    rw [← fracQuotient] at below above
    refine .inr ⟨isLog, ?_, ?_⟩
    · rw [shortQuotient, isLog, power, Nat.le_div_iff_mul_le positive]
      linarith
    · rw [shortQuotient, isLog, power, ← Nat.lt_succ_iff, Nat.div_lt_iff_lt_mul positive]
      linarith
  · refine .inl ⟨isLog, ?_⟩
    rw [shortQuotient, isLog]
    rfl

private theorem shortQuotient_normal (n1 n2 : U32) :
    8388608 ≤ shortQuotient n1 n2 ∧ shortQuotient n1 n2 < 16777216 := by
  have many := fracQuotient_ge n1 n2
  have few := fracQuotient_bounds n1 n2
  rcases shortQuotient_eq n1 n2 with ⟨isLog, isFrac⟩ | ⟨isLog, least, most⟩
  · have reaches := Nat.log2_self_le (by omega : fracQuotient n1 n2 ≠ 0)
    rw [isLog] at reaches
    omega
  · have above := @Nat.lt_log2_self (fracQuotient n1 n2)
    rw [isLog] at above
    omega

private theorem outcome_shortQuotient {isNegative : Bool} {exponent : ℤ} :
    outcome isNegative exponent (fitted (fracQuotient n1 n2)) = einval ↔
      outcome isNegative exponent (shortQuotient n1 n2) = einval := by
  have many := fracQuotient_ge n1 n2
  have nonzero : fracQuotient n1 n2 ≠ 0 := by omega
  obtain ⟨low, high⟩ := fitted_bounds nonzero
  rw [outcome_eq_einval_iff low high]
  rcases shortQuotient_eq n1 n2 with ⟨isLog, isFrac⟩ | ⟨isLog, least, most⟩
  · rw [fitted_of_log2 isLog] at low high ⊢
    rw [isFrac, outcome_eq_einval_iff low high]
  · rw [fitted_of_short isLog] at low high ⊢
    rw [outcome_eq_einval_iff (by omega) (by omega)]
    -- Neither fraction is the least, or that of the error code.
    have distinct : fracQuotient n1 n2 * 2 ≠ 8388608 ∧ fracQuotient n1 n2 * 2 ≠ 8388630 ∧
        shortQuotient n1 n2 ≠ 8388608 ∧ shortQuotient n1 n2 ≠ 8388630 := by omega
    simp [distinct]

section Normal

variable (normal : Normal n1) (normal' : Normal n2)

include normal normal'

private theorem shortQuotient_bounds :
    (shortQuotient n1 n2 : ℚ) *
          2 ^ ((biased n1 : ℤ) - biased n2 + (fracQuotient n1 n2).log2 - 46) ≤
        |value n1 / value (shortened n2)| ∧
      |value n1 / value (shortened n2)| < ((shortQuotient n1 n2 : ℚ) + 1) *
        2 ^ ((biased n1 : ℤ) - biased n2 + (fracQuotient n1 n2).log2 - 46) := by
  obtain ⟨least, _⟩ := shortDivisor_bounds n2
  obtain ⟨_, up⟩ := log2_fracQuotient n1 n2
  have positive : 0 < shortDivisor n2 := by omega
  have unit : (0 : ℚ) < 2 ^ ((biased n1 : ℤ) - biased n2 + (fracQuotient n1 n2).log2 - 46) := by
    positivity
  have below := Nat.div_mul_le_self
    ((8388608 + fraction n1) * 2 ^ (31 - (fracQuotient n1 n2).log2)) (shortDivisor n2)
  have above := Nat.lt_mul_div_succ
    ((8388608 + fraction n1) * 2 ^ (31 - (fracQuotient n1 n2).log2)) positive
  rw [← shortQuotient] at below above
  have power : (2 : ℚ) ^ ((biased n1 : ℤ) - biased n2) =
      32768 * 2 ^ (31 - (fracQuotient n1 n2).log2) *
        2 ^ ((biased n1 : ℤ) - biased n2 + (fracQuotient n1 n2).log2 - 46) := by
    have isPower : (32768 : ℚ) = 2 ^ (15 : ℤ) := by norm_num
    rw [isPower, ← zpow_natCast, ← zpow_add₀ two_ne_zero, ← zpow_add₀ two_ne_zero]
    congr 1
    omega
  have isQuotient : |value n1 / value (shortened n2)| =
      ((8388608 + fraction n1) * 2 ^ (31 - (fracQuotient n1 n2).log2) : ℕ) / shortDivisor n2 *
        2 ^ ((biased n1 : ℤ) - biased n2 + (fracQuotient n1 n2).log2 - 46) := by
    rw [abs_quotient normal (normal_shortened normal'), fraction_shortened, biased_shortened, power]
    push_cast
    field_simp
  have divisor : (0 : ℚ) < shortDivisor n2 := by exact_mod_cast positive
  generalize (8388608 + fraction n1) * 2 ^ (31 - (fracQuotient n1 n2).log2) = dividend at *
  rw [isQuotient]
  constructor
  · refine mul_le_mul_of_nonneg_right ?_ unit.le
    rw [le_div_iff₀ divisor]
    exact_mod_cast below
  · refine mul_lt_mul_of_pos_right ?_ unit
    rw [div_lt_iff₀ divisor, mul_comm]
    exact_mod_cast above

private theorem quotient_neg : decide (value n1 / value n2 < 0) = (negative n1 ^^ negative n2) := by
  rw [← product_neg normal normal', decide_eq_decide, div_neg_iff, mul_neg_iff]

theorem sysCalc_divide_flagged (nonzero : fraction n2 ≠ 0) :
    sysCalc n1 n2 '/' = .ok einval ↔ Flagged (value n1 / value (shortened n2)) := by
  obtain ⟨low, high⟩ := shortQuotient_normal n1 n2
  obtain ⟨least, less⟩ := shortQuotient_bounds normal normal'
  have power : (biased n1 : ℤ) - biased n2 + (fracQuotient n1 n2).log2 - 46 =
      (biased n1 : ℤ) - biased n2 + 127 + (fracQuotient n1 n2).log2 - 23 - 150 := by
    omega
  have isSign := quotient_neg normal (normal_shortened normal')
  rw [negative_shortened] at isSign
  rw [power] at least less
  rw [sysCalc_divide nonzero, Except.ok.injEq, outcome_shortQuotient, ← isSign,
    outcome_flagged low high least less]

end Normal

theorem sysCalc_divide_zero (isZero : IsZero n1) (nonzero : fraction n2 ≠ 0) :
    sysCalc n1 n2 '/' = .ok einval ↔
      127 < biased n2 ∨ biased n2 = 127 ∧ 32768 ≤ fraction n2 := by
  have most := biased_lt n2
  have many := fracQuotient_ge n1 n2
  have isQuotient : fracQuotient n1 n2 = 2147483648 / shortDivisor n2 := by
    rw [fracQuotient, isZero.2]
  have isShort : shortDivisor n2 = 256 + fraction n2 / 32768 := by
    unfold shortDivisor
    omega
  obtain ⟨low, high⟩ := fitted_bounds (by omega : fracQuotient n1 n2 ≠ 0)
  rw [sysCalc_divide nonzero, Except.ok.injEq, outcome_eq_einval_iff low high, isZero.1]
  rcases lt_or_ge (fraction n2) 32768 with few | more
  · have isOne : fracQuotient n1 n2 = 8388608 := by
      rw [isQuotient, isShort, Nat.div_eq_of_lt few]
    have isLog : Nat.log2 8388608 = 23 := by decide
    have isFitted : fitted 8388608 = 8388608 := by decide
    rw [isOne, isLog, isFitted]
    omega
  · have below : fracQuotient n1 n2 < 8388608 := by
      rw [isQuotient, Nat.div_lt_iff_lt_mul (by omega)]
      omega
    have isLog : (fracQuotient n1 n2).log2 = 22 :=
      (Nat.log2_eq_iff (by omega)).mpr ⟨by omega, by omega⟩
    rw [isLog, fitted_of_short isLog]
    omega

end Rtes.Calc
