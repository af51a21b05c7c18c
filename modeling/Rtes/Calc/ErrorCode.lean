import Rtes.Calc.FlaggedSum

/-!
# What the error code tells

The error code should be returned for a division by zero and for results that are out
of the range of the format, and for nothing else.
-/

namespace Rtes.Calc

open Rtes.Binary32 Rtes.Reservation Rtes.Transition

variable {n1 n2 : U32} {op : Char}

/-! ## Results that are errors -/

/-- The greatest finite number. -/
def greatest : ℚ :=
  16777215 * 2 ^ (104 : ℤ)

/-- A magnitude between the least positive and the greatest finite number. -/
def InRange (x : ℚ) : Prop :=
  2 ^ (-149 : ℤ) ≤ |x| ∧ |x| ≤ greatest

/-- The exact result of an operation. -/
def exactResult (n1 n2 : U32) (op : Char) : ℚ :=
  if op = '*' then value n1 * value n2
  else if op = '/' then value n1 / value n2
  else exactSum n1 n2 op

/-- A division by zero, or a result that is not zero and out of range. -/
def IsError (n1 n2 : U32) (op : Char) : Prop :=
  op = '/' ∧ value n2 = 0 ∨ exactResult n1 n2 op ≠ 0 ∧ ¬ InRange (exactResult n1 n2 op)

/-! ## Errors that are not told from results -/

/-- Results that are taken for errors or errors that are taken for results, where
another number than the exact result may be looked at. -/
def Mistaken (exact near : ℚ) : Prop :=
  2 ^ (-149 : ℤ) ≤ |exact| ∧ |near| < 2 ^ (-127 : ℤ) ∨
    greatest < |exact| ∧ |near| < 2 ^ (128 : ℤ) + 2 ^ (105 : ℤ) ∨
    |exact| ≤ greatest ∧ 2 ^ (128 : ℤ) + 2 ^ (105 : ℤ) ≤ |near| ∨
    8388630 * 2 ^ (-150 : ℤ) ≤ near ∧ near < 8388631 * 2 ^ (-150 : ℤ)

/-- A sum that cancels to less than the least exponent, exceeds the greatest number by
little, or has the error code for its encoding. -/
def MistakenSum (n1 n2 : U32) (op : Char) : Prop :=
  |exactSum n1 n2 op| + max (ulp n1) (ulp n2) ≤ 2 ^ (-127 : ℤ) ∨
    greatest < |exactSum n1 n2 op| ∧ |exactSum n1 n2 op| < 2 ^ (128 : ℤ) + 2 ^ (105 : ℤ) ∨
    biased n1 = 1 ∧ biased n2 = 1 ∧ exactSum n1 n2 op = 4194315 * 2 ^ (-149 : ℤ)

/-- A product of a number with zero. -/
def MistakenZeroProduct (x : U32) (isNegative : Bool) : Prop :=
  biased x < 127 ∨ biased x = 127 ∧ fraction x = 22 ∧ isNegative = false

/-- A quotient of zero by a number. -/
def MistakenZeroQuotient (x : U32) : Prop :=
  127 < biased x ∨ biased x = 127 ∧ 32768 ≤ fraction x

/-- The calls of which the error code does not tell whether they are errors. -/
def MistakenCall (n1 n2 : U32) (op : Char) : Prop :=
  if op = '*' then
    Normal n1 ∧ Normal n2 ∧ Mistaken (value n1 * value n2) (value n1 * value n2) ∨
      IsZero n1 ∧ MistakenZeroProduct n2 (negative n1 ^^ negative n2) ∨
      IsZero n2 ∧ MistakenZeroProduct n1 (negative n1 ^^ negative n2)
  else if op = '/' then
    Normal n2 ∧ fraction n2 = 0 ∧ (IsZero n1 ∨ InRange (value n1 / value n2)) ∨
      Normal n2 ∧ fraction n2 ≠ 0 ∧ IsZero n1 ∧ MistakenZeroQuotient n2 ∨
      Normal n2 ∧ fraction n2 ≠ 0 ∧ Normal n1 ∧
        Mistaken (value n1 / value n2) (value n1 / value (shortened n2))
  else
    Normal n1 ∧ Normal n2 ∧ MistakenSum n1 n2 op ∨
      Normal n1 ∧ IsZero n2 ∧ FlaggedZeroSum n1 (negative n1) (addedSign n2 op) ∨
      IsZero n1 ∧ Normal n2 ∧ FlaggedZeroSum n2 (addedSign n2 op) (negative n1)

/-! ## Products and quotients -/

/-- Of two numbers that are close, one is flagged if and only if the other is out of
range, unless they are mistaken. -/
theorem mistaken_iff {exact near : ℚ} (nonzero : exact ≠ 0) (le : |exact| ≤ |near|)
    (close : |near| ≤ 2 * |exact|) :
    (Flagged near ↔ exact ≠ 0 ∧ ¬ InRange exact) ↔ ¬ Mistaken exact near := by
  have small : (2 : ℚ) * 2 ^ (-149 : ℤ) < 2 ^ (-127 : ℤ) := by norm_num
  have large : (2 : ℚ) ^ (-127 : ℤ) < 2 ^ (-126 : ℤ) ∧ (2 : ℚ) ^ (-126 : ℤ) < greatest ∧
      greatest < 2 ^ (128 : ℤ) + 2 ^ (105 : ℤ) := by
    unfold greatest
    norm_num
  have slotBounds : 8388630 * 2 ^ (-150 : ℤ) ≤ near ∧ near < 8388631 * 2 ^ (-150 : ℤ) →
      2 ^ (-127 : ℤ) ≤ |near| ∧ |near| < 2 ^ (-126 : ℤ) := by
    rintro ⟨least, less⟩
    rw [abs_of_nonneg (le_trans (by positivity) least)]
    exact ⟨le_trans (by norm_num) least, lt_trans less (by norm_num)⟩
  constructor
  · rintro agrees (⟨reaches, below⟩ | ⟨exceeds, below⟩ | ⟨fits, above⟩ | slot)
    · apply (agrees.mp (.inl below)).2
      exact ⟨reaches, by linarith⟩
    · obtain tiny | above | slot := agrees.mpr ⟨nonzero, fun fits => fits.2.not_gt exceeds⟩
      · linarith
      · exact above.not_gt below
      · have bounds := slotBounds slot
        linarith
    · apply (agrees.mp (.inr (.inl above))).2
      exact ⟨by linarith, fits⟩
    · have bounds := slotBounds slot
      apply (agrees.mp (.inr (.inr slot))).2
      exact ⟨by linarith, by linarith⟩
  · intro clear
    constructor
    · rintro (below | above | slot)
      · exact ⟨nonzero, fun fits => clear (.inl ⟨fits.1, below⟩)⟩
      · exact ⟨nonzero, fun fits => clear (.inr (.inr (.inl ⟨fits.2, above⟩)))⟩
      · exact absurd (.inr (.inr (.inr slot))) clear
    · rintro ⟨_, out⟩
      by_cases reaches : (2 : ℚ) ^ (-149 : ℤ) ≤ |exact|
      · have exceeds : greatest < |exact| := not_le.mp fun fits => out ⟨reaches, fits⟩
        by_cases below : |near| < 2 ^ (128 : ℤ) + 2 ^ (105 : ℤ)
        · exact absurd (.inr (.inl ⟨exceeds, below⟩)) clear
        · exact .inr (.inl (not_lt.mp below))
      · rw [not_le] at reaches
        exact .inl (by linarith)

theorem finite_of_operand (operand : IsZero n1 ∨ Normal n1) : Finite n1 := by
  rcases operand with isZero | normal
  · exact isZero.1.le.trans (by decide)
  · exact normal.finite

private theorem isError_product : IsError n1 n2 '*' ↔
    value n1 * value n2 ≠ 0 ∧ ¬ InRange (value n1 * value n2) := by
  simp [IsError, exactResult]

private theorem isError_quotient (nonzero : value n2 ≠ 0) : IsError n1 n2 '/' ↔
    value n1 / value n2 ≠ 0 ∧ ¬ InRange (value n1 / value n2) := by
  simp [IsError, exactResult, nonzero]

private theorem sysCalc_product_error (operand : IsZero n1 ∨ Normal n1)
    (operand' : IsZero n2 ∨ Normal n2) :
    (sysCalc n1 n2 '*' = .ok einval ↔ IsError n1 n2 '*') ↔ ¬ MistakenCall n1 n2 '*' := by
  have isMistaken : MistakenCall n1 n2 '*' ↔
      Normal n1 ∧ Normal n2 ∧ Mistaken (value n1 * value n2) (value n1 * value n2) ∨
        IsZero n1 ∧ MistakenZeroProduct n2 (negative n1 ^^ negative n2) ∨
        IsZero n2 ∧ MistakenZeroProduct n1 (negative n1 ^^ negative n2) := Iff.rfl
  rw [isMistaken, isError_product]
  rcases operand with isZero | normal
  · rw [sysCalc_times_zero isZero (finite_of_operand operand'), isZero.value_eq, zero_mul]
    simp only [ne_eq, not_true, false_and, iff_false, isZero.not_normal, false_or, isZero, true_and]
    rw [not_iff_not, MistakenZeroProduct]
    constructor
    · exact .inl
    · rintro (mistaken | ⟨isZero', _⟩)
      · exact mistaken
      · exact .inl (isZero'.1 ▸ (by decide))
  · rcases operand' with isZero' | normal'
    · rw [sysCalc_times_comm, sysCalc_times_zero isZero' normal.finite, isZero'.value_eq, mul_zero,
        Bool.xor_comm]
      simp only [ne_eq, not_true, false_and, iff_false, isZero'.not_normal, and_false, false_or,
        normal.not_isZero, isZero', true_and]
      rfl
    · have nonzero := mul_ne_zero normal.value_ne_zero normal'.value_ne_zero
      have positive := abs_pos.mpr nonzero
      rw [sysCalc_times_flagged normal normal', mistaken_iff nonzero le_rfl (by linarith)]
      simp only [normal, normal', normal.not_isZero, normal'.not_isZero, true_and, false_and,
        or_false]

section Shortened

variable (normal' : Normal n2)

include normal'

private theorem abs_shortened_le : |value (shortened n2)| ≤ |value n2| := by
  have divisor : 32768 * shortDivisor n2 ≤ 8388608 + fraction n2 := Nat.mul_div_le _ _
  rw [normal'.abs_value_eq, (normal_shortened normal').abs_value_eq, biased_shortened,
    fraction_shortened]
  gcongr

private theorem abs_le_shortened : |value n2| ≤ 2 * |value (shortened n2)| := by
  obtain ⟨least, _⟩ := shortDivisor_bounds n2
  have divisor : 8388608 + fraction n2 ≤ 2 * (32768 * shortDivisor n2) := by
    unfold shortDivisor at *
    omega
  rw [normal'.abs_value_eq, (normal_shortened normal').abs_value_eq, biased_shortened,
    fraction_shortened, ← mul_assoc]
  gcongr
  exact_mod_cast divisor

/-- Shortening the divisor makes the quotient larger, but not twice as large. -/
theorem quotient_shortened (n1 : U32) :
    |value n1 / value n2| ≤ |value n1 / value (shortened n2)| ∧
      |value n1 / value (shortened n2)| ≤ 2 * |value n1 / value n2| := by
  have positive := abs_pos.mpr normal'.value_ne_zero
  have positive' := abs_pos.mpr (normal_shortened normal').value_ne_zero
  have nonneg := abs_nonneg (value n1)
  rw [abs_div, abs_div]
  constructor
  · exact div_le_div_of_nonneg_left nonneg positive' (abs_shortened_le normal')
  · rw [mul_div_assoc', div_le_div_iff₀ positive' positive]
    calc |value n1| * |value n2| ≤ |value n1| * (2 * |value (shortened n2)|) :=
          mul_le_mul_of_nonneg_left (abs_le_shortened normal') nonneg
      _ = 2 * |value n1| * |value (shortened n2)| := by ring

end Shortened

private theorem sysCalc_divide_none (zero : fraction n2 = 0) : sysCalc n1 n2 '/' = .ok einval := by
  change (divide (unpack n1) (unpack n2) >>= _) = _
  rw [divide_none zero]
  rfl

private theorem sysCalc_quotient_error (operand : IsZero n1 ∨ Normal n1)
    (operand' : IsZero n2 ∨ Normal n2) :
    (sysCalc n1 n2 '/' = .ok einval ↔ IsError n1 n2 '/') ↔ ¬ MistakenCall n1 n2 '/' := by
  have isMistaken : MistakenCall n1 n2 '/' ↔
      Normal n2 ∧ fraction n2 = 0 ∧ (IsZero n1 ∨ InRange (value n1 / value n2)) ∨
        Normal n2 ∧ fraction n2 ≠ 0 ∧ IsZero n1 ∧ MistakenZeroQuotient n2 ∨
        Normal n2 ∧ fraction n2 ≠ 0 ∧ Normal n1 ∧
          Mistaken (value n1 / value n2) (value n1 / value (shortened n2)) := Iff.rfl
  rw [isMistaken]
  rcases operand' with isZero' | normal'
  · have isError : IsError n1 n2 '/' := .inl ⟨rfl, isZero'.value_eq⟩
    simp only [isError, sysCalc_divide_none isZero'.2, isZero'.not_normal, false_and, or_false,
      not_false_eq_true]
  · rw [isError_quotient normal'.value_ne_zero]
    simp only [normal', true_and]
    by_cases whole : fraction n2 = 0
    · simp only [sysCalc_divide_none whole, whole, true_and, true_iff, not_true, ne_eq, false_and,
        or_false, not_or]
      rcases operand with isZero | normal
      · simp only [isZero, isZero.value_eq, zero_div, not_true, false_and]
      · simp only [normal.not_isZero, not_false_eq_true, true_and, and_iff_right_iff_imp]
        exact fun _ => div_ne_zero normal.value_ne_zero normal'.value_ne_zero
    · simp only [whole, ne_eq, not_false_eq_true, false_and, false_or, true_and]
      rcases operand with isZero | normal
      · rw [sysCalc_divide_zero isZero whole, isZero.value_eq, zero_div]
        simp only [isZero, isZero.not_normal, not_true, false_and, iff_false, true_and, or_false]
        rfl
      · obtain ⟨le, close⟩ := quotient_shortened normal' n1
        have nonzero := div_ne_zero normal.value_ne_zero normal'.value_ne_zero
        simp only [normal, normal.not_isZero, false_and, false_or, true_and]
        rw [sysCalc_divide_flagged normal normal' whole]
        exact mistaken_iff nonzero le close

/-! ## Sums -/

private theorem exactSum_multiple (n1 n2 : U32) (op : Char) : ∃ multiple : ℤ,
    exactSum n1 n2 op = multiple * 2 ^ (-149 : ℤ) := by
  obtain ⟨first, isFirst⟩ := value_multiple n1
  obtain ⟨second, isSecond⟩ := value_multiple n2
  unfold exactSum
  split
  · refine ⟨first - second, ?_⟩
    rw [isFirst, isSecond, ← sub_mul, Int.cast_sub]
  · refine ⟨first + second, ?_⟩
    rw [isFirst, isSecond, ← add_mul, Int.cast_add]

private theorem exactResult_sum (isSum : op = '+' ∨ op = '-') :
    exactResult n1 n2 op = exactSum n1 n2 op := by
  rcases isSum with rfl | rfl
  · rfl
  · rfl

/-- A sum is not too small. -/
theorem isError_sum (isSum : op = '+' ∨ op = '-') :
    IsError n1 n2 op ↔ greatest < |exactSum n1 n2 op| := by
  have notDivision : op ≠ '/' := by
    rcases isSum with rfl | rfl
    · decide
    · decide
  obtain ⟨multiple, isMultiple⟩ := exactSum_multiple n1 n2 op
  have positive : 0 < greatest := by
    unfold greatest
    positivity
  unfold IsError
  rw [exactResult_sum isSum]
  constructor
  · rintro (⟨isDivision, _⟩ | ⟨nonzero, out⟩)
    · exact absurd isDivision notDivision
    · have whole : multiple ≠ 0 := by
        rintro rfl
        exact nonzero (by rw [isMultiple, Int.cast_zero, zero_mul])
      have least : (1 : ℚ) ≤ |(multiple : ℚ)| := by exact_mod_cast Int.one_le_abs whole
      refine not_le.mp fun fits => out ⟨?_, fits⟩
      rw [isMultiple, abs_mul, abs_of_pos (by positivity : (0 : ℚ) < 2 ^ (-149 : ℤ))]
      exact le_mul_of_one_le_left (by positivity) least
  · intro exceeds
    refine .inr ⟨abs_pos.mp (positive.trans exceeds), fun fits => fits.2.not_gt exceeds⟩

private theorem mistakenSum_iff : (FlaggedSum n1 n2 op ↔ greatest < |exactSum n1 n2 op|) ↔
    ¬ MistakenSum n1 n2 op := by
  have unit : 0 < max (ulp n1) (ulp n2) := lt_max_of_lt_left (ulp_pos n1)
  have large : (2 : ℚ) ^ (-127 : ℤ) < greatest ∧ greatest < 2 ^ (128 : ℤ) + 2 ^ (105 : ℤ) ∧
      4194315 * 2 ^ (-149 : ℤ) < greatest := by
    unfold greatest
    norm_num
  have slot : exactSum n1 n2 op = 4194315 * 2 ^ (-149 : ℤ) → |exactSum n1 n2 op| < greatest := by
    intro isSlot
    rw [isSlot, abs_of_nonneg (by positivity)]
    exact large.2.2
  constructor
  · rintro agrees (cancels | ⟨exceeds, below⟩ | ⟨isOne, isOne', isSlot⟩)
    · have exceeds := agrees.mp (.inl cancels)
      linarith
    · obtain cancels | above | ⟨_, _, isSlot⟩ := agrees.mpr exceeds
      · linarith
      · exact above.not_gt below
      · exact (slot isSlot).not_gt exceeds
    · exact (slot isSlot).not_gt (agrees.mp (.inr (.inr ⟨isOne, isOne', isSlot⟩)))
  · intro clear
    constructor
    · rintro (cancels | above | isSlot)
      · exact absurd (.inl cancels) clear
      · linarith
      · exact absurd (.inr (.inr isSlot)) clear
    · intro exceeds
      exact .inr (.inl (not_lt.mp fun below => clear (.inr (.inl ⟨exceeds, below⟩))))

private theorem abs_value_le (finite : Finite n1) : |value n1| ≤ greatest := by
  have bound := fraction_lt n1
  have most : biased n1 ≤ 254 := finite
  have few : significand n1 ≤ 16777215 := by
    unfold significand
    split
    · omega
    · omega
  have unit : ulp n1 ≤ 2 ^ (104 : ℤ) := zpow_le_zpow_right₀ one_le_two (by omega)
  rw [value, abs_mul, abs_signed, Nat.abs_cast, abs_of_pos (ulp_pos n1)]
  exact mul_le_mul (by exact_mod_cast few) unit (ulp_pos n1).le (by norm_num)

/-- A sum with zero is the other number, and not an error. -/
theorem not_isError_zero (isSum : op = '+' ∨ op = '-') (finite : Finite n1) (finite' : Finite n2)
    (isZero : value n1 = 0 ∨ value n2 = 0) : ¬ IsError n1 n2 op := by
  have triangle := @abs_exactSum_le n1 n2 op
  have bound := abs_value_le finite
  have bound' := abs_value_le finite'
  rw [isError_sum isSum, not_lt]
  rcases isZero with isZero | isZero
  · rw [isZero, abs_zero, zero_add] at triangle
    exact triangle.trans bound'
  · rw [isZero, abs_zero, add_zero] at triangle
    exact triangle.trans bound

private theorem sysCalc_sum_error (isSum : op = '+' ∨ op = '-') (operand : IsZero n1 ∨ Normal n1)
    (operand' : IsZero n2 ∨ Normal n2) (ends : ∃ r, sysCalc n1 n2 op = .ok r) :
    (sysCalc n1 n2 op = .ok einval ↔ IsError n1 n2 op) ↔ ¬ MistakenCall n1 n2 op := by
  have isMistaken : MistakenCall n1 n2 op ↔
      Normal n1 ∧ Normal n2 ∧ MistakenSum n1 n2 op ∨
        Normal n1 ∧ IsZero n2 ∧ FlaggedZeroSum n1 (negative n1) (addedSign n2 op) ∨
        IsZero n1 ∧ Normal n2 ∧ FlaggedZeroSum n2 (addedSign n2 op) (negative n1) := by
    rcases isSum with rfl | rfl
    · rfl
    · rfl
  have notError := not_isError_zero isSum (finite_of_operand operand) (finite_of_operand operand')
  rw [isMistaken]
  rcases operand with isZero | normal
  · have noError := notError (.inl isZero.value_eq)
    rcases operand' with isZero' | normal'
    · simp only [sysCalc_zeros isSum isZero isZero' ends, noError, isZero.not_normal,
        isZero'.not_normal, false_and, and_false, or_false, not_false_eq_true]
    · simp only [sysCalc_zero_sum isSum isZero normal', noError, iff_false, isZero.not_normal,
        false_and, false_or, isZero, normal', true_and]
  · rcases operand' with isZero' | normal'
    · have noError := notError (.inr isZero'.value_eq)
      simp only [sysCalc_sum_zero isSum normal isZero', noError, iff_false, isZero'.not_normal,
        normal.not_isZero, false_and, and_false, false_or, or_false, isZero', normal, true_and]
    · rw [sysCalc_sum_flagged normal normal' isSum ends, isError_sum isSum, mistakenSum_iff]
      simp only [normal, normal', normal.not_isZero, normal'.not_isZero, true_and, false_and,
        and_false, or_false]

/-! ## Every call -/

/-- The error code is returned for errors and for nothing else, except by the calls
that are mistaken. -/
theorem sysCalc_einval_iff (operand : IsZero n1 ∨ Normal n1) (operand' : IsZero n2 ∨ Normal n2)
    (isOperation : op = '+' ∨ op = '-' ∨ op = '*' ∨ op = '/')
    (ends : ∃ r, sysCalc n1 n2 op = .ok r) :
    (sysCalc n1 n2 op = .ok einval ↔ IsError n1 n2 op) ↔ ¬ MistakenCall n1 n2 op := by
  rcases isOperation with isPlus | isMinus | rfl | rfl
  · exact sysCalc_sum_error (.inl isPlus) operand operand' ends
  · exact sysCalc_sum_error (.inr isMinus) operand operand' ends
  · exact sysCalc_product_error operand operand'
  · exact sysCalc_quotient_error operand operand'

/-- One and one. -/
theorem sysCalc_einval_iff_ones :
    (sysCalc 0x3f800000 0x3f800000 '+' = .ok einval ↔ IsError 0x3f800000 0x3f800000 '+') ↔
      ¬ MistakenCall 0x3f800000 0x3f800000 '+' :=
  sysCalc_einval_iff (.inr normal_one) (.inr normal_one) (.inl rfl) ⟨0x40000000, by decide +kernel⟩

/-- The error code is returned for one by two, which is a half. -/
theorem sysCalc_einval_half : Normal 0x3f800000 ∧ Normal 0x40000000 ∧
    sysCalc 0x3f800000 0x40000000 '/' = .ok einval ∧ ¬ IsError 0x3f800000 0x40000000 '/' := by
  have half : value 0x3f800000 / value 0x40000000 = 1 / 2 := by
    rw [value_one, value_two]
  have fits : InRange (1 / 2) := by
    rw [InRange, greatest, abs_of_pos (by norm_num)]
    norm_num
  refine ⟨normal_one, normal_two, by decide, ?_⟩
  rw [isError_quotient normal_two.value_ne_zero, half]
  exact fun isError => isError.2 fits

end Rtes.Calc
