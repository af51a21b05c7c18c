import Rtes.Calc.Align

/-!
# Quotients

The divisor loses its last 15 bits before the fractions are divided, which makes
the quotient too large by up to one part in 256; what is cut off from the integer
quotient makes it too small by less than two units in the last place.
-/

namespace Rtes.Calc

open Rtes.Binary32 Rtes.Reservation Rtes.Transition

variable {n1 n2 : U32}

/-! ## The parts of a quotient -/

/-- The fraction of a divisor without its last 15 bits. -/
def shortDivisor (n2 : U32) : ℕ :=
  (8388608 + fraction n2) / 32768

/-- The quotient of the fractions, with eight more bits of the first. -/
def fracQuotient (n1 n2 : U32) : ℕ :=
  (8388608 + fraction n1) * 256 / shortDivisor n2

theorem shortDivisor_bounds (n2 : U32) : 256 ≤ shortDivisor n2 ∧ shortDivisor n2 ≤ 511 := by
  have bound := fraction_lt n2
  unfold shortDivisor
  omega

theorem fracQuotient_bounds (n1 n2 : U32) :
    4194304 < fracQuotient n1 n2 ∧ fracQuotient n1 n2 < 16777216 := by
  have bound := fraction_lt n1
  obtain ⟨least, most⟩ := shortDivisor_bounds n2
  unfold fracQuotient
  constructor
  · rw [Nat.lt_div_iff_mul_lt (by omega)]
    omega
  · rw [Nat.div_lt_iff_lt_mul (by omega)]
    omega

private theorem toNat_shortDivisor (n2 : U32) :
    ((unpack n2).frac >>> 15).toNat = shortDivisor n2 := by
  rw [BitVec.toNat_ushiftRight, toNat_unpack_frac, Nat.shiftRight_eq_div_pow]
  rfl

/-- A divisor whose fraction is not zero is not taken for zero, and is not zero
once it is shortened. -/
theorem divide_eq (nonzero : fraction n2 ≠ 0) : ∃ parts,
    divide (unpack n1) (unpack n2) = .ok (some parts) ∧
      parts.frac.toNat = fracQuotient n1 n2 ∧
      HasExponent parts ((biased n1 : ℤ) - biased n2 + 127) ∧
      parts.sign = bit (negative n1 ^^ negative n2) := by
  have bound := fraction_lt n1
  have isFrac := toNat_unpack_frac n1
  have isShort := toNat_shortDivisor n2
  obtain ⟨least, most⟩ := shortDivisor_bounds n2
  have isOne : (shiftLeft 1 fracDigit).toNat = 8388608 := by decide
  have notOne : (unpack n2).frac ≠ shiftLeft 1 fracDigit := by
    intro same
    have whole := congrArg BitVec.toNat same
    rw [toNat_unpack_frac, isOne] at whole
    omega
  have notZero : (unpack n2).frac >>> 15 ≠ 0 := by
    intro zero
    rw [zero] at isShort
    change 0 = shortDivisor n2 at isShort
    omega
  rw [divide, if_neg notOne, if_neg notZero]
  refine ⟨_, rfl, ?_, ?_, ?_⟩
  · rw [BitVec.toNat_udiv, isShort, BitVec.toNat_shiftLeft, isFrac, Nat.shiftLeft_eq]
    rw [Nat.mod_eq_of_lt (by omega)]
    rfl
  · have first := (hasExp_unpack n1).hasExponent
    have second := (hasExp_unpack n2).hasExponent
    unfold HasExponent at *
    rw [BitVec.toNat_sub]
    omega
  · rw [unpack_sign, unpack_sign, bit_xor]

theorem log2_fracQuotient (n1 n2 : U32) :
    22 ≤ (fracQuotient n1 n2).log2 ∧ (fracQuotient n1 n2).log2 ≤ 23 := by
  obtain ⟨least, most⟩ := fracQuotient_bounds n1 n2
  have nonzero : fracQuotient n1 n2 ≠ 0 := by omega
  constructor
  · exact (Nat.le_log2 nonzero).mpr (by omega)
  · exact Nat.le_of_lt_succ ((Nat.log2_lt nonzero).mpr (by omega))

theorem sysCalc_divide (nonzero : fraction n2 ≠ 0) : sysCalc n1 n2 '/' =
    .ok (outcome (negative n1 ^^ negative n2)
      ((biased n1 : ℤ) - biased n2 + 127 + (fracQuotient n1 n2).log2 - 23)
      (fitted (fracQuotient n1 n2))) := by
  have most := biased_lt n1
  have most' := biased_lt n2
  have bounds := fracQuotient_bounds n1 n2
  obtain ⟨parts, divides, isFrac, hasExponent, isSign⟩ := @divide_eq n1 n2 nonzero
  have calls : sysCalc n1 n2 '/' = reconstruct parts := sysCalc_of_computed divides
  rw [calls, reconstruct_outcome (by omega) hasExponent (by omega) (by omega)
    (isSign ▸ toNat_bit _), isFrac]

/-- A divisor without fraction is taken for zero. -/
theorem divide_none (zero : fraction n2 = 0) : divide (unpack n1) (unpack n2) = .ok none := by
  have isOne : (unpack n2).frac = shiftLeft 1 fracDigit := by
    apply BitVec.eq_of_toNat_eq
    rw [toNat_unpack_frac, zero]
    rfl
  rw [divide, if_pos isOne]

/-! ## The error -/

/-- Shortening the divisor makes the quotient larger by less than one part in
256. -/
theorem fracQuotient_lt (n1 n2 : U32) : fracQuotient n1 n2 * (8388608 + fraction n2) <
    257 * 32768 * (8388608 + fraction n1) := by
  obtain ⟨least, _⟩ := shortDivisor_bounds n2
  have divisor : 8388608 + fraction n2 < 32768 * (shortDivisor n2 + 1) := by
    unfold shortDivisor
    omega
  have below : fracQuotient n1 n2 * shortDivisor n2 ≤ (8388608 + fraction n1) * 256 :=
    Nat.div_mul_le_self _ _
  have few : fracQuotient n1 n2 ≤ 8388608 + fraction n1 :=
    Nat.div_le_of_le_mul (by nlinarith)
  have positive : 0 < fracQuotient n1 n2 := by
    have bounds := fracQuotient_bounds n1 n2
    omega
  calc fracQuotient n1 n2 * (8388608 + fraction n2)
      < fracQuotient n1 n2 * (32768 * (shortDivisor n2 + 1)) :=
        Nat.mul_lt_mul_of_pos_left divisor positive
    _ = 32768 * (fracQuotient n1 n2 * shortDivisor n2 + fracQuotient n1 n2) := by ring
    _ ≤ 32768 * ((8388608 + fraction n1) * 256 + (8388608 + fraction n1)) := by gcongr
    _ = 257 * 32768 * (8388608 + fraction n1) := by ring

/-- What is cut off from the quotient is less than one. -/
theorem lt_fracQuotient (n1 n2 : U32) : 8388608 * (8388608 + fraction n1) <
    (fracQuotient n1 n2 + 1) * (8388608 + fraction n2) := by
  obtain ⟨least, _⟩ := shortDivisor_bounds n2
  have divisor : 32768 * shortDivisor n2 ≤ 8388608 + fraction n2 := Nat.mul_div_le _ _
  have above : (8388608 + fraction n1) * 256 < shortDivisor n2 * (fracQuotient n1 n2 + 1) :=
    Nat.lt_mul_div_succ _ (by omega)
  calc 8388608 * (8388608 + fraction n1)
      = 32768 * ((8388608 + fraction n1) * 256) := by ring
    _ < 32768 * (shortDivisor n2 * (fracQuotient n1 n2 + 1)) :=
        Nat.mul_lt_mul_of_pos_left above (by decide)
    _ = (fracQuotient n1 n2 + 1) * (32768 * shortDivisor n2) := by ring
    _ ≤ (fracQuotient n1 n2 + 1) * (8388608 + fraction n2) := Nat.mul_le_mul_left _ divisor

section Normal

variable (normal : Normal n1) (normal' : Normal n2)

include normal normal'

theorem abs_quotient : |value n1 / value n2| =
    ((8388608 + fraction n1 : ℕ) : ℚ) / ((8388608 + fraction n2 : ℕ) : ℚ) *
      2 ^ ((biased n1 : ℤ) - biased n2) := by
  have power : (2 : ℚ) ^ ((biased n1 : ℤ) - biased n2) =
      2 ^ ((biased n1 : ℤ) - 150) / 2 ^ ((biased n2 : ℤ) - 150) := by
    rw [← zpow_sub₀ two_ne_zero]
    congr 1
    omega
  rw [abs_div, normal.abs_value_eq, normal'.abs_value_eq, power, mul_div_mul_comm]

/-- The quotient of the fractions is close to the exact one. -/
theorem fracQuotient_close :
    |value n1 / value n2| * (1 - 2 ^ (-22 : ℤ)) <
        fracQuotient n1 n2 * 2 ^ ((biased n1 : ℤ) - biased n2 - 23) ∧
      fracQuotient n1 n2 * 2 ^ ((biased n1 : ℤ) - biased n2 - 23) <
        |value n1 / value n2| * (1 + 2 ^ (-8 : ℤ)) := by
  have bound := fraction_lt n2
  have above := fracQuotient_lt n1 n2
  have below := lt_fracQuotient n1 n2
  have unit : (0 : ℚ) < 2 ^ ((biased n1 : ℤ) - biased n2) := by positivity
  have power : (2 : ℚ) ^ ((biased n1 : ℤ) - biased n2 - 23) =
      2 ^ ((biased n1 : ℤ) - biased n2) / 8388608 := by
    rw [zpow_sub₀ two_ne_zero]
    norm_num
  rw [abs_quotient normal normal', power]
  generalize (2 : ℚ) ^ ((biased n1 : ℤ) - biased n2) = u at *
  have double : 8388608 + fraction n2 ≤ 2 * (8388608 + fraction n1) := by omega
  have positive : (0 : ℚ) < ((8388608 + fraction n2 : ℕ) : ℚ) := by positivity
  generalize fracQuotient n1 n2 = q at *
  generalize 8388608 + fraction n1 = f at *
  generalize 8388608 + fraction n2 = d at *
  have above' : (q : ℚ) * d < 257 * 32768 * f := by exact_mod_cast above
  have below' : (8388608 : ℚ) * f < (q + 1) * d := by exact_mod_cast below
  have double' : (d : ℚ) ≤ 2 * f := by exact_mod_cast double
  constructor
  · have short : (f : ℚ) * (1 - 2 ^ (-22 : ℤ)) / d < q / 8388608 := by
      rw [div_lt_div_iff₀ positive (by norm_num)]
      norm_num
      linarith
    calc (f : ℚ) / d * u * (1 - 2 ^ (-22 : ℤ)) = f * (1 - 2 ^ (-22 : ℤ)) / d * u := by ring
      _ < q / 8388608 * u := mul_lt_mul_of_pos_right short unit
      _ = q * (u / 8388608) := by ring
  · have long : (q : ℚ) / 8388608 < f * (1 + 2 ^ (-8 : ℤ)) / d := by
      rw [div_lt_div_iff₀ (by norm_num) positive]
      norm_num
      linarith
    calc (q : ℚ) * (u / 8388608) = q / 8388608 * u := by ring
      _ < f * (1 + 2 ^ (-8 : ℤ)) / d * u := mul_lt_mul_of_pos_right long unit
      _ = f / d * u * (1 + 2 ^ (-8 : ℤ)) := by ring

/-- A quotient by a number whose fraction is not zero is off by less than two units
in the last place below and one part in 256 above. -/
theorem sysCalc_quotient (nonzero : fraction n2 ≠ 0)
    (least : 2 ^ (-125 : ℤ) ≤ |value n1 / value n2|)
    (most : |value n1 / value n2| ≤ 2 ^ (127 : ℤ)) :
    (unpack n2).frac >>> 15 ≠ 0 ∧
      ∃ r, sysCalc n1 n2 '/' = .ok r ∧ Normal r ∧ negative r = (negative n1 ^^ negative n2) ∧
        |value n1 / value n2| * (1 - 2 ^ (-22 : ℤ)) < |value r| ∧
        |value r| < |value n1 / value n2| * (1 + 2 ^ (-8 : ℤ)) := by
  have isShort := toNat_shortDivisor n2
  obtain ⟨some, _⟩ := shortDivisor_bounds n2
  obtain ⟨many, few⟩ := fracQuotient_bounds n1 n2
  obtain ⟨below, above⟩ := fracQuotient_close normal normal'
  obtain ⟨low, up⟩ := log2_fracQuotient n1 n2
  have notZero : (unpack n2).frac >>> 15 ≠ 0 := by
    intro zero
    rw [zero] at isShort
    change 0 = shortDivisor n2 at isShort
    omega
  have least' : (2 : ℚ) ^ (-126 : ℤ) ≤
      fracQuotient n1 n2 * 2 ^ ((biased n1 : ℤ) - biased n2 - 23) := by
    refine le_trans ?_ below.le
    norm_num at least ⊢
    linarith
  have less' : fracQuotient n1 n2 * 2 ^ ((biased n1 : ℤ) - biased n2 - 23) <
      (2 : ℚ) ^ (128 : ℤ) := by
    refine lt_of_lt_of_le above ?_
    norm_num at most ⊢
    linarith
  have isLog := lt_log2_add least'
  have isLog' := log2_add_lt (by omega) less'
  obtain ⟨low, high⟩ := fitted_bounds (by omega : fracQuotient n1 n2 ≠ 0)
  obtain ⟨isNormal, isNegative, isValue⟩ := @outcome_normal (negative n1 ^^ negative n2)
    ((biased n1 : ℤ) - biased n2 + 127 + (fracQuotient n1 n2).log2 - 23) _ (by omega) (by omega)
    low high
  have power : (biased n1 : ℤ) - biased n2 + 127 + (fracQuotient n1 n2).log2 - 23 - 150 =
      (biased n1 : ℤ) - biased n2 - 23 + (fracQuotient n1 n2).log2 - 23 := by omega
  have magnitude : |value (outcome (negative n1 ^^ negative n2)
      ((biased n1 : ℤ) - biased n2 + 127 + (fracQuotient n1 n2).log2 - 23)
      (fitted (fracQuotient n1 n2)))| =
      fracQuotient n1 n2 * 2 ^ ((biased n1 : ℤ) - biased n2 - 23) := by
    rw [isValue, power, abs_mul, abs_signed, Nat.abs_cast, abs_of_pos (by positivity),
      fitted_mul_zpow up]
  refine ⟨notZero, _, sysCalc_divide nonzero, isNormal, isNegative, ?_, ?_⟩
  · rw [magnitude]
    exact below
  · rw [magnitude]
    exact above

end Normal

/-- One by three halves. -/
theorem sysCalc_quotient_twoThirds : (unpack 0x3fc00000).frac >>> 15 ≠ 0 ∧
    ∃ r, sysCalc 0x3f800000 0x3fc00000 '/' = .ok r ∧ Normal r ∧
      negative r = (negative 0x3f800000 ^^ negative 0x3fc00000) ∧
      |value 0x3f800000 / value 0x3fc00000| * (1 - 2 ^ (-22 : ℤ)) < |value r| ∧
      |value r| < |value 0x3f800000 / value 0x3fc00000| * (1 + 2 ^ (-8 : ℤ)) := by
  refine sysCalc_quotient normal_one normal_threeHalves (by decide) ?_ ?_
  · rw [value_one, value_threeHalves]
    norm_num
  · rw [value_one, value_threeHalves]
    norm_num

end Rtes.Calc
