import Rtes.Calc.Flagged

/-!
# Sums for which the error code is returned

A sum is too large for the format, or cancels to less than the least exponent.  The
latter is decided after the smaller operand is shifted, so that a unit in the last
place of the larger is added to what is left.
-/

namespace Rtes.Calc

open Rtes.Binary32 Rtes.Reservation Rtes.Transition

variable {n1 n2 : U32} {op : Char}

/-! ## Signed fractions -/

section Normalized

variable {exponent : ℕ} {frac : ℕ}

private theorem log2_mul_two_pow (nonzero : frac ≠ 0) :
    (frac * 2 ^ exponent).log2 = frac.log2 + exponent := by
  have positive := Nat.two_pow_pos exponent
  have low := Nat.log2_self_le nonzero
  have high := @Nat.lt_log2_self frac
  rw [Nat.log2_eq_iff (Nat.mul_ne_zero nonzero positive.ne')]
  constructor
  · rw [Nat.pow_add]
    exact Nat.mul_le_mul_right _ low
  · rw [Nat.add_right_comm, Nat.pow_add]
    exact Nat.mul_lt_mul_of_pos_right high positive

private theorem log2_add_lt_iff (nonzero : frac ≠ 0) :
    (exponent : ℤ) + frac.log2 - 23 < 0 ↔ frac * 2 ^ exponent < 8388608 := by
  have isLog := @log2_mul_two_pow exponent frac nonzero
  have toLog := @Nat.log2_lt (frac * 2 ^ exponent) 23
    (Nat.mul_ne_zero nonzero (Nat.two_pow_pos exponent).ne')
  omega

private theorem log2_eq_24_iff (few : frac < 33554432) (nonzero : frac ≠ 0) :
    frac.log2 = 24 ↔ 16777216 ≤ frac := by
  rw [Nat.log2_eq_iff nonzero]
  constructor
  · intro bounds
    exact bounds.1
  · intro reaches
    exact ⟨reaches, few⟩

/-- The fraction of the error code. -/
theorem fitted_slot_iff (nonzero : frac ≠ 0) :
    (exponent : ℤ) + frac.log2 - 23 = 0 ∧ fitted frac = 8388630 ↔
      frac * 2 ^ exponent = 8388630 := by
  constructor
  · rintro ⟨zero, isFitted⟩
    have isExponent : exponent = 23 - frac.log2 := by omega
    rw [fitted_of_le (by omega)] at isFitted
    rw [isExponent, isFitted]
  · intro isProduct
    have isLog := @log2_mul_two_pow exponent frac nonzero
    have isLog' : Nat.log2 8388630 = 23 := by decide
    rw [isProduct, isLog'] at isLog
    refine ⟨by omega, ?_⟩
    rw [fitted_of_le (by omega), ← isProduct]
    congr 2
    omega

private theorem succ_mul_two_pow_le (nonzero : frac ≠ 0) (less : frac * 2 ^ exponent < 8388608) :
    (frac + 1) * 2 ^ exponent ≤ 8388608 := by
  have isLog := (@log2_add_lt_iff exponent frac nonzero).mpr less
  have power : 8388608 = 2 ^ (23 - exponent) * 2 ^ exponent := by
    rw [← Nat.pow_add, Nat.sub_add_cancel (by omega)]
  rw [power] at less ⊢
  exact Nat.mul_le_mul_right _ (Nat.lt_of_mul_lt_mul_right less)

end Normalized

private theorem mul_two_pow_slot_iff {total : ℤ} {exponent : ℕ} (least : 1 ≤ exponent) :
    total * 2 ^ exponent = 8388630 ↔ exponent = 1 ∧ total = 4194315 := by
  constructor
  · intro isProduct
    have isOne : exponent = 1 := by
      by_contra more
      obtain ⟨k, isSum⟩ := Nat.exists_eq_add_of_le (by omega : 2 ≤ exponent)
      rw [isSum, pow_add, mul_left_comm] at isProduct
      omega
    rw [isOne] at isProduct
    exact ⟨isOne, by omega⟩
  · rintro ⟨rfl, rfl⟩
    rfl

theorem normalized_einval_iff {exponent : ℕ} {total : ℤ} (nonzero : total ≠ 0)
    (most : exponent ≤ 254) (few : total.natAbs < 33554432) :
    normalized exponent total = .ok einval ↔
      total.natAbs * 2 ^ exponent < 8388608 ∨ exponent = 254 ∧ 16777218 ≤ total.natAbs ∨
        total * 2 ^ exponent = 8388630 := by
  have nonzero' : total.natAbs ≠ 0 := Int.natAbs_ne_zero.mpr nonzero
  obtain ⟨low, high⟩ := fitted_bounds nonzero'
  have bits : total.natAbs.log2 < 25 := (Nat.log2_lt nonzero').mpr few
  have isLog := log2_eq_24_iff few nonzero'
  have large : (255 : ℤ) < exponent + total.natAbs.log2 - 23 ∨
      (exponent : ℤ) + total.natAbs.log2 - 23 = 255 ∧ fitted total.natAbs ≠ 8388608 ↔
      exponent = 254 ∧ 16777218 ≤ total.natAbs := by
    by_cases long : total.natAbs.log2 = 24
    · have isFitted : fitted total.natAbs = total.natAbs / 2 := by
        rw [fitted_of_lt (by omega), long]
        rfl
      rw [isFitted]
      omega
    · omega
  have slot : (exponent : ℤ) + total.natAbs.log2 - 23 = 0 ∧ fitted total.natAbs = 8388630 ∧
      decide (total < 0) = false ↔ total * 2 ^ exponent = 8388630 := by
    have power : (0 : ℤ) < 2 ^ exponent := by positivity
    rw [← and_assoc, fitted_slot_iff nonzero', decide_eq_false_iff_not, not_lt]
    constructor
    · rintro ⟨isProduct, nonneg⟩
      rw [← Int.natAbs_of_nonneg nonneg]
      exact_mod_cast isProduct
    · intro isProduct
      have positive : 0 < total :=
        pos_of_mul_pos_left (by omega : 0 < total * 2 ^ exponent) power.le
      rw [← Int.natAbs_of_nonneg positive.le] at isProduct
      exact ⟨by exact_mod_cast isProduct, positive.le⟩
  rw [normalized, if_neg nonzero, Except.ok.injEq, outcome_eq_einval_iff low high,
    log2_add_lt_iff nonzero', large, slot]

/-! ## Aligned fractions -/

theorem natAbs_signed (isNegative : Bool) (x : ℤ) : (signed isNegative x).natAbs = x.natAbs := by
  cases isNegative with
  | true => exact Int.natAbs_neg x
  | false => rfl

theorem signed_add_signed (a b : Bool) (x y : ℤ) :
    signed a x + signed b y = signed a (if a = b then x + y else x - y) := by
  by_cases same : a = b
  · rw [if_pos same, same, signed_add]
  · have other : b = !a := by
      rw [Bool.eq_not]
      exact Ne.symm same
    rw [if_neg same, other, signed_not, signed_sub, sub_eq_add_neg]

theorem natAbs_signed_add (a b : Bool) {x y : ℕ} (le : y ≤ x) :
    (signed a (x : ℤ) + signed b (y : ℤ)).natAbs = if a = b then x + y else x - y := by
  rw [signed_add_signed, natAbs_signed]
  split
  · omega
  · omega

private theorem natAbs_signed_add_range (a b : Bool) {x y : ℕ} (le : y ≤ x) :
    x - y ≤ (signed a (x : ℤ) + signed b (y : ℤ)).natAbs ∧
      (signed a (x : ℤ) + signed b (y : ℤ)).natAbs ≤ x + y := by
  rw [natAbs_signed_add a b le]
  split
  · omega
  · omega

private theorem signed_add_eq_iff (a b : Bool) {x y : ℕ} (le : y ≤ x) {c : ℤ} (positive : 0 < c) :
    signed a (x : ℤ) + signed b (y : ℤ) = c ↔
      a = false ∧ (if a = b then (x : ℤ) + y else x - y) = c := by
  rw [signed_add_signed]
  cases a with
  | true =>
      rw [signed_true]
      apply iff_of_false
      · split
        · omega
        · omega
      · exact fun both => Bool.noConfusion both.1
  | false =>
      rw [signed_false]
      exact (and_iff_right rfl).symm

section Aligned

variable {a b : Bool} {small large shift exponent : ℕ}

/-- The signed sum of a shifted and another fraction, as it is computed. -/
def alignedSum (a b : Bool) (small large shift : ℕ) : ℤ :=
  signed a ((small / 2 ^ shift : ℕ) : ℤ) + signed b (large : ℤ)

/-- The exact sum, in units of the smaller operand. -/
def unitSum (a b : Bool) (small large shift : ℕ) : ℤ :=
  signed a (small : ℤ) + signed b ((large * 2 ^ shift : ℕ) : ℤ)

private theorem unitSum_eq :
    ((unitSum a b small large shift : ℤ) : ℚ) * 2 ^ ((exponent : ℤ) - 150) =
      signed a (small : ℚ) * 2 ^ ((exponent : ℤ) - 150) +
        signed b (large : ℚ) * 2 ^ (((exponent + shift : ℕ) : ℤ) - 150) := by
  have power : (2 : ℚ) ^ (((exponent + shift : ℕ) : ℤ) - 150) =
      2 ^ shift * 2 ^ ((exponent : ℤ) - 150) := by
    rw [← zpow_natCast, ← zpow_add₀ two_ne_zero]
    congr 1
    push_cast
    ring
  rw [unitSum, Int.cast_add, cast_signed, cast_signed, power]
  push_cast
  rw [signed_mul]
  ring

private theorem natCast_mul_zpow (m k : ℕ) :
    (m : ℚ) * 2 ^ ((k : ℤ) - 150) = ((m * 2 ^ k : ℕ) : ℚ) * 2 ^ (-150 : ℤ) := by
  rw [sub_eq_add_neg, zpow_add₀ two_ne_zero, zpow_natCast]
  push_cast
  ring

private theorem abs_unitSum :
    |((unitSum a b small large shift : ℤ) : ℚ) * 2 ^ ((exponent : ℤ) - 150)| =
      ((unitSum a b small large shift).natAbs * 2 ^ exponent : ℕ) * 2 ^ (-150 : ℤ) := by
  rw [abs_mul, abs_of_pos (by positivity : (0 : ℚ) < 2 ^ (_ : ℤ)), ← natCast_mul_zpow,
    ← Int.cast_abs, Int.abs_eq_natAbs, Int.cast_natCast]

variable (smallLt : small < 16777216) (largeLe : 8388608 ≤ large) (largeLt : large < 16777216)

include smallLt largeLe largeLt

omit largeLt in
/-- What is shifted out is too much in a difference with a greater fraction. -/
theorem natAbs_sub_scaled :
    ((small : ℤ) - (large * 2 ^ shift : ℕ)).natAbs + small % 2 ^ shift =
      (((small / 2 ^ shift : ℕ) : ℤ) - large).natAbs * 2 ^ shift := by
  have splits := Nat.div_add_mod' small (2 ^ shift)
  have restLt := Nat.mod_lt small (Nat.two_pow_pos shift)
  rcases Nat.eq_zero_or_pos shift with rfl | shifted
  · rw [pow_zero, Nat.mod_one, Nat.div_one, Nat.mul_one, Nat.mul_one, Nat.add_zero]
  · have grows : 2 ≤ 2 ^ shift := Nat.le_self_pow shifted.ne' 2
    have halved : small / 2 ^ shift ≤ small / 2 := Nat.div_le_div_left grows (by decide)
    generalize small / 2 ^ shift = quotient at *
    have below : (quotient + 1) * 2 ^ shift ≤ large * 2 ^ shift :=
      Nat.mul_le_mul_right _ (by omega)
    have isDifference : ((quotient : ℤ) - large).natAbs = large - quotient := by omega
    rw [isDifference, Nat.sub_mul]
    rw [Nat.add_mul] at below
    generalize large * 2 ^ shift = unit at *
    omega

/-- What is shifted out is missing from a sum with like signs, and is too much in
one with different signs. -/
theorem unitSum_scaled (exponent : ℕ) : ∃ rest < 2 ^ (exponent + shift),
    8388608 ≤ (alignedSum a b small large shift).natAbs ∧
        (alignedSum a b small large shift).natAbs + 1 < 33554432 ∧
        (unitSum a b small large shift).natAbs * 2 ^ exponent =
          (alignedSum a b small large shift).natAbs * 2 ^ (exponent + shift) + rest ∨
      (alignedSum a b small large shift).natAbs < 16777216 ∧
        (unitSum a b small large shift).natAbs * 2 ^ exponent + rest =
          (alignedSum a b small large shift).natAbs * 2 ^ (exponent + shift) := by
  have splits := Nat.div_add_mod' small (2 ^ shift)
  have restLt := Nat.mod_lt small (Nat.two_pow_pos shift)
  have quotientLe := Nat.div_le_self small (2 ^ shift)
  have isDifference := @natAbs_sub_scaled small large shift smallLt largeLe
  rw [alignedSum, unitSum, signed_add_signed, signed_add_signed, natAbs_signed, natAbs_signed]
  refine ⟨small % 2 ^ shift * 2 ^ exponent, ?_, ?_⟩
  · rw [Nat.pow_add, Nat.mul_comm]
    exact Nat.mul_lt_mul_of_pos_left restLt (Nat.two_pow_pos exponent)
  · generalize small / 2 ^ shift = quotient at *
    generalize small % 2 ^ shift = rest at *
    by_cases same : a = b
    · rw [if_pos same, if_pos same, ← Nat.cast_add, ← Nat.cast_add, Int.natAbs_natCast,
        Int.natAbs_natCast]
      refine .inl ⟨by omega, by omega, ?_⟩
      rw [← splits]
      ring
    · rw [if_neg same, if_neg same]
      refine .inr ⟨by omega, ?_⟩
      rw [← Nat.add_mul, isDifference]
      ring

private theorem unitSum_add_le_iff (nonzero : alignedSum a b small large shift ≠ 0) :
    (unitSum a b small large shift).natAbs * 2 ^ exponent + 2 ^ (exponent + shift) ≤ 8388608 ↔
      (alignedSum a b small large shift).natAbs * 2 ^ (exponent + shift) < 8388608 := by
  have positive := Nat.two_pow_pos (exponent + shift)
  have nonzero' := Int.natAbs_ne_zero.mpr nonzero
  obtain ⟨rest, restLt, ⟨many, _, isSum⟩ | ⟨_, isSum⟩⟩ :=
    @unitSum_scaled a b small large shift smallLt largeLe largeLt exponent
  · have large' : 8388608 * 1 ≤
        (alignedSum a b small large shift).natAbs * 2 ^ (exponent + shift) :=
      Nat.mul_le_mul many positive
    omega
  · constructor
    · intro le
      omega
    · intro less
      have next := succ_mul_two_pow_le nonzero' less
      rw [Nat.add_mul, Nat.one_mul] at next
      omega

private theorem le_unitSum_iff (most : exponent + shift ≤ 254) :
    16777218 * 2 ^ 254 ≤ (unitSum a b small large shift).natAbs * 2 ^ exponent ↔
      exponent + shift = 254 ∧ 16777218 ≤ (alignedSum a b small large shift).natAbs := by
  obtain ⟨rest, restLt, isSum⟩ :=
    @unitSum_scaled a b small large shift smallLt largeLe largeLt exponent
  generalize (alignedSum a b small large shift).natAbs = frac at *
  have between : (unitSum a b small large shift).natAbs * 2 ^ exponent <
      (frac + 1) * 2 ^ (exponent + shift) := by
    rw [Nat.add_mul, Nat.one_mul]
    rcases isSum with ⟨_, _, isSum⟩ | ⟨_, isSum⟩
    · omega
    · omega
  constructor
  · intro reaches
    have most' : exponent + shift = 254 := by
      by_contra less
      have power : 2 ^ (exponent + shift) ≤ 2 ^ 253 :=
        Nat.pow_le_pow_right two_pos (by omega)
      have below : (frac + 1) * 2 ^ (exponent + shift) ≤ 33554432 * 2 ^ 253 :=
        Nat.mul_le_mul (by omega) power
      omega
    rw [most'] at between
    exact ⟨most', Nat.le_of_lt_succ (Nat.lt_of_mul_lt_mul_right (reaches.trans_lt between))⟩
  · rintro ⟨isExponent, reaches⟩
    rcases isSum with ⟨_, _, isSum⟩ | ⟨few, _⟩
    · rw [isSum, isExponent]
      exact le_add_right (Nat.mul_le_mul_right _ reaches)
    · omega

omit smallLt largeLe largeLt in
private theorem alignedSum_slot_iff (least : 1 ≤ exponent) :
    alignedSum a b small large shift * 2 ^ (exponent + shift) = 8388630 ↔
      exponent = 1 ∧ exponent + shift = 1 ∧
        ((unitSum a b small large shift : ℤ) : ℚ) * 2 ^ ((exponent : ℤ) - 150) =
          4194315 * 2 ^ (-149 : ℤ) := by
  have unshifted : unitSum a b small large 0 = alignedSum a b small large 0 := by
    rw [unitSum, alignedSum, pow_zero, Nat.mul_one, Nat.div_one]
  have unit : (2 : ℚ) ^ (-149 : ℤ) ≠ 0 := by positivity
  rw [mul_two_pow_slot_iff (by omega)]
  constructor
  · rintro ⟨isOne, isTotal⟩
    obtain ⟨rfl, rfl⟩ : exponent = 1 ∧ shift = 0 := by omega
    refine ⟨rfl, rfl, ?_⟩
    rw [unshifted, isTotal]
    norm_num
  · rintro ⟨rfl, isOne, isExact⟩
    obtain rfl : shift = 0 := by omega
    have isTotal := mul_right_cancel₀ unit isExact
    rw [← unshifted]
    exact ⟨isOne, by exact_mod_cast isTotal⟩

/-- Aligned operands of which the greater is not shifted. -/
theorem normalized_flagged (nonzero : alignedSum a b small large shift ≠ 0)
    (least : 1 ≤ exponent) (most : exponent + shift ≤ 254) {exact : ℚ}
    (isExact : exact = signed a (small : ℚ) * 2 ^ ((exponent : ℤ) - 150) +
      signed b (large : ℚ) * 2 ^ (((exponent + shift : ℕ) : ℤ) - 150)) :
    normalized (exponent + shift) (alignedSum a b small large shift) = .ok einval ↔
      |exact| + 2 ^ (((exponent + shift : ℕ) : ℤ) - 150) ≤ 2 ^ (-127 : ℤ) ∨
        2 ^ (128 : ℤ) + 2 ^ (105 : ℤ) ≤ |exact| ∨
        exponent = 1 ∧ exponent + shift = 1 ∧ exact = 4194315 * 2 ^ (-149 : ℤ) := by
  have few : (alignedSum a b small large shift).natAbs < 33554432 := by
    obtain ⟨rest, _, ⟨_, few, _⟩ | ⟨few, _⟩⟩ :=
      @unitSum_scaled a b small large shift smallLt largeLe largeLt exponent
    · omega
    · omega
  have unit : (0 : ℚ) < 2 ^ (-150 : ℤ) := by positivity
  have magnitude := @abs_unitSum a b small large shift exponent
  rw [unitSum_eq, ← isExact] at magnitude
  have one := natCast_mul_zpow 1 (exponent + shift)
  rw [Nat.cast_one, one_mul, Nat.one_mul] at one
  have cancels : |exact| + 2 ^ (((exponent + shift : ℕ) : ℤ) - 150) ≤ 2 ^ (-127 : ℤ) ↔
      (unitSum a b small large shift).natAbs * 2 ^ exponent + 2 ^ (exponent + shift) ≤
        8388608 := by
    have power : (2 : ℚ) ^ (-127 : ℤ) = (8388608 : ℕ) * 2 ^ (-150 : ℤ) := by norm_num
    rw [magnitude, one, power, ← add_mul, mul_le_mul_iff_left₀ unit]
    norm_cast
  have reaches : (2 : ℚ) ^ (128 : ℤ) + 2 ^ (105 : ℤ) ≤ |exact| ↔
      16777218 * 2 ^ 254 ≤ (unitSum a b small large shift).natAbs * 2 ^ exponent := by
    have power : (2 : ℚ) ^ (128 : ℤ) + 2 ^ (105 : ℤ) =
        ((16777218 * 2 ^ 254 : ℕ) : ℚ) * 2 ^ (-150 : ℤ) := by norm_num
    rw [magnitude, power, mul_le_mul_iff_left₀ unit, Nat.cast_le]
  rw [normalized_einval_iff nonzero most few, cancels, reaches,
    unitSum_add_le_iff smallLt largeLe largeLt nonzero,
    le_unitSum_iff smallLt largeLe largeLt most, alignedSum_slot_iff least, isExact, unitSum_eq]

end Aligned

/-! ## Sums of normal numbers -/

theorem signedSum_ne_zero (isSum : op = '+' ∨ op = '-') {exponent shift shift' : ℕ}
    (aligns : AlignsTo (unpack n1) (unpack n2) exponent shift shift') (most : exponent < 256)
    (ends : ∃ r, sysCalc n1 n2 op = .ok r) : signedSum n1 n2 op shift shift' ≠ 0 := by
  intro zero
  obtain ⟨r, returns⟩ := ends
  rw [sysCalc_sum isSum aligns most, normalized, if_pos zero] at returns
  cases returns

/-- A fraction that is not shifted outweighs one that is shifted by three at least. -/
theorem natAbs_across {a b : Bool} {kept shifted k : ℕ} (keptLe : 8388608 ≤ kept)
    (keptLt : kept < 16777216) (shiftedLt : shifted < 16777216) (far : 3 ≤ k) :
    6291456 ≤ (signed a (kept : ℤ) + signed b ((shifted / 2 ^ k : ℕ) : ℤ)).natAbs ∧
      (signed a (kept : ℤ) + signed b ((shifted / 2 ^ k : ℕ) : ℤ)).natAbs < 33554432 := by
  have power : 2 ^ 3 ≤ 2 ^ k := Nat.pow_le_pow_right two_pos far
  have less : shifted / 2 ^ k ≤ shifted / 2 ^ 3 := Nat.div_le_div_left power (by decide)
  have few : shifted / 2 ^ k < 2097152 := by omega
  generalize shifted / 2 ^ k = quotient at *
  rw [natAbs_signed_add a b (by omega)]
  split
  · omega
  · omega

private theorem normalized_across {exponent : ℕ} {total : ℤ} (least : 1 ≤ exponent)
    (most : exponent ≤ 126)
    (many : 6291456 ≤ total.natAbs) (few : total.natAbs < 33554432) :
    normalized exponent total ≠ .ok einval := by
  have twice : 6291456 * 2 ≤ total.natAbs * 2 ^ exponent :=
    Nat.mul_le_mul many (Nat.le_self_pow (by omega) 2)
  have magnitude : (total * 2 ^ exponent).natAbs = total.natAbs * 2 ^ exponent := by
    rw [Int.natAbs_mul, Int.natAbs_pow]
    rfl
  rw [Ne, normalized_einval_iff (by omega) (by omega) few]
  rintro (less | ⟨isMost, _⟩ | isSlot)
  · omega
  · omega
  · rw [isSlot] at magnitude
    omega

/-- Sums and differences for which the error code is returned. -/
def FlaggedSum (n1 n2 : U32) (op : Char) : Prop :=
  |exactSum n1 n2 op| + max (ulp n1) (ulp n2) ≤ 2 ^ (-127 : ℤ) ∨
    2 ^ (128 : ℤ) + 2 ^ (105 : ℤ) ≤ |exactSum n1 n2 op| ∨
    biased n1 = 1 ∧ biased n2 = 1 ∧ exactSum n1 n2 op = 4194315 * 2 ^ (-149 : ℤ)

theorem abs_exactSum_le : |exactSum n1 n2 op| ≤ |value n1| + |value n2| := by
  unfold exactSum
  split
  · exact abs_sub _ _
  · exact abs_add_le _ _

section Normal

variable (normal : Normal n1) (normal' : Normal n2) (isSum : op = '+' ∨ op = '-')

include normal normal'

private theorem not_flaggedSum (across : ¬ (127 ≤ biased n1 ↔ 127 ≤ biased n2)) :
    ¬ FlaggedSum n1 n2 op := by
  have most := normal.most
  have most' := normal'.most
  have isUlp := normal.ulp_eq
  have isUlp' := normal'.ulp_eq
  have bound := abs_value_lt n1
  have bound' := abs_value_lt n2
  have apart : 127 ≤ max (biased n1) (biased n2) ∧
      ulp n1 + ulp n2 ≤ 2 ^ (104 : ℤ) + 2 ^ (-24 : ℤ) := by
    rw [isUlp, isUlp']
    rcases lt_or_ge (biased n1) 127 with below | above
    · refine ⟨by omega, ?_⟩
      rw [add_comm]
      exact add_le_add (zpow_le_zpow_right₀ one_le_two (by omega))
        (zpow_le_zpow_right₀ one_le_two (by omega))
    · refine ⟨by omega, ?_⟩
      exact add_le_add (zpow_le_zpow_right₀ one_le_two (by omega))
        (zpow_le_zpow_right₀ one_le_two (by omega))
  obtain ⟨above, less⟩ := apart
  rintro (cancels | exceeds | ⟨isOne, isOne', _⟩)
  · have unit : (2 : ℚ) ^ (-23 : ℤ) ≤ max (ulp n1) (ulp n2) := by
      rw [isUlp, isUlp', le_max_iff]
      rcases le_max_iff.mp above with above | above
      · exact .inl (zpow_le_zpow_right₀ one_le_two (by omega))
      · exact .inr (zpow_le_zpow_right₀ one_le_two (by omega))
    have power : (2 : ℚ) ^ (-127 : ℤ) < 2 ^ (-23 : ℤ) := by norm_num
    have nonneg := abs_nonneg (exactSum n1 n2 op)
    linarith
  · have triangle := @abs_exactSum_le n1 n2 op
    have numbers : (16777216 : ℚ) * (2 ^ (104 : ℤ) + 2 ^ (-24 : ℤ)) <
        2 ^ (128 : ℤ) + 2 ^ (105 : ℤ) := by norm_num
    linarith
  · omega

include isSum

private theorem sysCalc_sum_across (across : ¬ (127 ≤ biased n1 ↔ 127 ≤ biased n2)) :
    sysCalc n1 n2 op ≠ .ok einval := by
  have low := normal.least
  have low' := normal'.least
  have most := normal.most
  have most' := normal'.most
  have bound := fraction_lt n1
  have bound' := fraction_lt n2
  rcases lt_or_ge (biased n1) 127 with below | above
  · obtain ⟨many, few⟩ := @natAbs_across (negative n1) (addedSign n2 op) (8388608 + fraction n1)
      (8388608 + fraction n2) (256 - (biased n2 - biased n1)) (by omega) (by omega) (by omega)
      (by omega)
    rw [sysCalc_sum isSum (alignsTo_across_lt below (by omega)) (by omega), signedSum, pow_zero,
      Nat.div_one]
    exact normalized_across low (by omega) many few
  · obtain ⟨many, few⟩ := @natAbs_across (addedSign n2 op) (negative n1) (8388608 + fraction n2)
      (8388608 + fraction n1) (256 - (biased n1 - biased n2)) (by omega) (by omega) (by omega)
      (by omega)
    rw [sysCalc_sum isSum (alignsTo_across_gt above (by omega)) (by omega), signedSum, pow_zero,
      Nat.div_one, add_comm]
    exact normalized_across low' (by omega) many few

theorem sysCalc_sum_flagged (ends : ∃ r, sysCalc n1 n2 op = .ok r) :
    sysCalc n1 n2 op = .ok einval ↔ FlaggedSum n1 n2 op := by
  have low := normal.least
  have low' := normal'.least
  have most := normal.most
  have most' := normal'.most
  have bound := fraction_lt n1
  have bound' := fraction_lt n2
  have isExact := @exactSum_eq n1 n2 op normal normal'
  by_cases same : 127 ≤ biased n1 ↔ 127 ≤ biased n2
  · rcases le_total (biased n1) (biased n2) with le | le
    · obtain ⟨shift, isBiased⟩ := Nat.exists_eq_add_of_le le
      have aligns := alignsTo_of_le same le
      have nonzero := signedSum_ne_zero isSum aligns (by omega) ends
      have isAligned : signedSum n1 n2 op (biased n2 - biased n1) 0 =
          alignedSum (negative n1) (addedSign n2 op) (8388608 + fraction n1)
            (8388608 + fraction n2) shift := by
        rw [signedSum, alignedSum, isBiased, Nat.add_sub_cancel_left, pow_zero, Nat.div_one]
      rw [isAligned] at nonzero
      rw [isBiased] at isExact
      rw [sysCalc_sum isSum aligns (by omega), isAligned, FlaggedSum, normal.ulp_eq, normal'.ulp_eq,
        max_eq_right (zpow_le_zpow_right₀ one_le_two (by omega)), isBiased]
      exact normalized_flagged (by omega) (by omega) (by omega) nonzero low (by omega) isExact
    · obtain ⟨shift, isBiased⟩ := Nat.exists_eq_add_of_le le
      have aligns := alignsTo_of_ge same le
      have nonzero := signedSum_ne_zero isSum aligns (by omega) ends
      have isAligned : signedSum n1 n2 op 0 (biased n1 - biased n2) =
          alignedSum (addedSign n2 op) (negative n1) (8388608 + fraction n2)
            (8388608 + fraction n1) shift := by
        rw [signedSum, alignedSum, isBiased, Nat.add_sub_cancel_left, pow_zero, Nat.div_one,
          add_comm]
      rw [isAligned] at nonzero
      rw [isBiased, add_comm] at isExact
      rw [sysCalc_sum isSum aligns (by omega), isAligned, FlaggedSum, normal.ulp_eq, normal'.ulp_eq,
        max_eq_left (zpow_le_zpow_right₀ one_le_two (by omega)), isBiased, and_left_comm]
      exact normalized_flagged (by omega) (by omega) (by omega) nonzero low' (by omega) isExact
  · exact iff_of_false (sysCalc_sum_across normal normal' isSum same)
      (not_flaggedSum normal normal' same)

end Normal

/-! ## Sums with zero -/

/-- Sums of a number with zero for which the error code is returned, by the signs with
which both are added. -/
def FlaggedZeroSum (x : U32) (isNegative zeroNegative : Bool) : Prop :=
  isNegative ≠ zeroNegative ∧
      (233 ≤ biased x ∨ biased x = 1 ∧ fraction x = 11 ∧ isNegative = false) ∨
    isNegative = zeroNegative ∧
      biased x = 237 ∧ (8388608 + fraction x) / 524288 = 22 ∧ isNegative = false

section Zero

variable {x : U32} {isNegative zeroNegative : Bool}

/-- Below one, zero is taken for a smaller number. -/
theorem normalized_zero_below (least : 1 ≤ biased x) (below : biased x < 127) :
    normalized (biased x) (signed isNegative ((8388608 + fraction x : ℕ) : ℤ) +
        signed zeroNegative ((8388608 / 2 ^ biased x : ℕ) : ℤ)) = .ok einval ↔
      FlaggedZeroSum x isNegative zeroNegative := by
  have bound := fraction_lt x
  have less : 8388608 / 2 ^ biased x ≤ 8388608 / 2 :=
    Nat.div_le_div_left (Nat.le_self_pow (by omega) 2) (by decide)
  have half : biased x = 1 → 8388608 / 2 ^ biased x = 4194304 := by
    intro isOne
    rw [isOne]
    rfl
  have twice : 4194304 * 2 ≤ 4194304 * 2 ^ biased x :=
    Nat.mul_le_mul_left _ (Nat.le_self_pow (by omega) 2)
  generalize 8388608 / 2 ^ biased x = other at *
  obtain ⟨many, few⟩ := natAbs_signed_add_range isNegative zeroNegative
    (by omega : other ≤ 8388608 + fraction x)
  have isSlot := @signed_add_eq_iff isNegative zeroNegative (8388608 + fraction x) other (by omega)
    4194315 (by decide)
  have notLess := twice.trans
    (Nat.mul_le_mul_right (2 ^ biased x) ((by omega : 4194304 ≤ _).trans many))
  rw [normalized_einval_iff (by omega) (by omega) (by omega), mul_two_pow_slot_iff least, isSlot,
    FlaggedZeroSum]
  by_cases same : isNegative = zeroNegative
  · rw [if_pos same]
    apply iff_of_false
    · rintro (small | large | ⟨_, _, rest⟩)
      · omega
      · omega
      · omega
    · rintro (⟨different, _⟩ | ⟨_, isMost, _⟩)
      · exact different same
      · omega
  · rw [if_neg same]
    simp only [same, not_false_eq_true, ne_eq, true_and, false_and, or_false]
    constructor
    · rintro (small | large | ⟨isOne, sign, rest⟩)
      · omega
      · omega
      · exact .inr ⟨isOne, by have := half isOne; omega, sign⟩
    · rintro (large | ⟨isOne, rest, sign⟩)
      · omega
      · exact .inr (.inr ⟨isOne, sign, by have := half isOne; omega⟩)

private theorem div_two_pow_eq_iff {frac k : ℕ} (low : 8388608 ≤ frac) (high : frac < 16777216) :
    frac / 2 ^ k = 22 ↔ k = 19 ∧ frac / 524288 = 22 := by
  constructor
  · intro isQuotient
    have isShift : k = 19 := by
      rcases lt_trichotomy k 19 with less | rfl | greater
      · have power : 2 ^ k ≤ 2 ^ 18 := Nat.pow_le_pow_right two_pos (by omega)
        have le : frac / 2 ^ 18 ≤ frac / 2 ^ k := Nat.div_le_div_left power (Nat.two_pow_pos k)
        omega
      · rfl
      · have power : 2 ^ 20 ≤ 2 ^ k := Nat.pow_le_pow_right two_pos (by omega)
        have le : frac / 2 ^ k ≤ frac / 2 ^ 20 := Nat.div_le_div_left power (by decide)
        omega
    rw [isShift] at isQuotient
    exact ⟨isShift, isQuotient⟩
  · rintro ⟨rfl, isQuotient⟩
    exact isQuotient

private theorem div_two_pow_ne_zero_iff {frac k : ℕ} (low : 8388608 ≤ frac)
    (high : frac < 16777216) :
    frac / 2 ^ k ≠ 0 ↔ k ≤ 23 := by
  have isLog : frac.log2 = 23 := (Nat.log2_eq_iff (by omega)).mpr ⟨low, high⟩
  rw [Ne, Nat.div_eq_zero_iff_lt (Nat.two_pow_pos k), ← Nat.log2_lt (by omega), isLog]
  omega

/-- From one on, the number is shifted instead of zero. -/
theorem normalized_zero_above (above : 127 ≤ biased x) (most : biased x ≤ 254) :
    normalized 0 (signed zeroNegative ((8388608 : ℕ) : ℤ) +
        signed isNegative (((8388608 + fraction x) / 2 ^ (256 - biased x) : ℕ) : ℤ)) =
          .ok einval ↔
      FlaggedZeroSum x isNegative zeroNegative := by
  have bound := fraction_lt x
  have isQuotient := @div_two_pow_eq_iff (8388608 + fraction x) (256 - biased x) (by omega)
    (by omega)
  have notZero := @div_two_pow_ne_zero_iff (8388608 + fraction x) (256 - biased x) (by omega)
    (by omega)
  have less : (8388608 + fraction x) / 2 ^ (256 - biased x) ≤ (8388608 + fraction x) / 2 ^ 2 :=
    Nat.div_le_div_left (Nat.pow_le_pow_right two_pos (by omega)) (by decide)
  generalize (8388608 + fraction x) / 2 ^ (256 - biased x) = quotient at *
  have isAbs := natAbs_signed_add zeroNegative isNegative (by omega : quotient ≤ 8388608)
  have isSlot := @signed_add_eq_iff zeroNegative isNegative 8388608 quotient (by omega)
    8388630 (by decide)
  obtain ⟨many, few⟩ := natAbs_signed_add_range zeroNegative isNegative
    (by omega : quotient ≤ 8388608)
  rw [normalized_einval_iff (by omega) (by omega) (by omega), isAbs, pow_zero, pow_zero,
    Nat.mul_one, mul_one, isSlot, FlaggedZeroSum]
  by_cases same : zeroNegative = isNegative
  · subst same
    simp only [if_true, ne_eq, not_true, false_and, false_or, true_and]
    constructor
    · rintro (small | large | ⟨sign, rest⟩)
      · omega
      · omega
      · obtain ⟨isShift, isFrac⟩ := isQuotient.mp (by omega)
        exact ⟨by omega, isFrac, sign⟩
    · rintro ⟨isBiased, isFrac, sign⟩
      have isSlot := isQuotient.mpr ⟨by omega, isFrac⟩
      exact .inr (.inr ⟨sign, by omega⟩)
  · have different : isNegative ≠ zeroNegative := Ne.symm same
    rw [if_neg same, if_neg same]
    constructor
    · rintro (small | large | ⟨_, rest⟩)
      · have shifted := notZero.mp (by omega)
        exact .inl ⟨different, .inl (by omega)⟩
      · omega
      · omega
    · rintro (⟨_, large | ⟨isOne, _⟩⟩ | ⟨alike, _⟩)
      · have shifted := notZero.mpr (by omega)
        exact .inl (by omega)
      · omega
      · exact absurd alike different

end Zero

section Operands

variable (isSum : op = '+' ∨ op = '-')

include isSum

theorem sysCalc_zero_sum (isZero : IsZero n1) (normal' : Normal n2) :
    sysCalc n1 n2 op = .ok einval ↔ FlaggedZeroSum n2 (addedSign n2 op) (negative n1) := by
  have isBiased := isZero.1
  have low := normal'.least
  have most := normal'.most
  rcases lt_or_ge (biased n2) 127 with below | above
  · rw [sysCalc_sum isSum (@alignsTo_of_le n1 n2 (by omega) (by omega)) (by omega), signedSum,
      isZero.2, isBiased, pow_zero, Nat.div_one, Nat.add_zero, Nat.sub_zero, add_comm]
    exact normalized_zero_below low below
  · rw [sysCalc_sum isSum (@alignsTo_across_lt n1 n2 (by omega) above) (by omega), signedSum,
      isZero.2, isBiased, pow_zero, Nat.div_one, Nat.add_zero, Nat.sub_zero]
    exact normalized_zero_above above most

theorem sysCalc_sum_zero (normal : Normal n1) (isZero : IsZero n2) :
    sysCalc n1 n2 op = .ok einval ↔ FlaggedZeroSum n1 (negative n1) (addedSign n2 op) := by
  have isBiased := isZero.1
  have low := normal.least
  have most := normal.most
  rcases lt_or_ge (biased n1) 127 with below | above
  · rw [sysCalc_sum isSum (@alignsTo_of_ge n1 n2 (by omega) (by omega)) (by omega), signedSum,
      isZero.2, isBiased, pow_zero, Nat.div_one, Nat.add_zero, Nat.sub_zero]
    exact normalized_zero_below low below
  · rw [sysCalc_sum isSum (@alignsTo_across_gt n1 n2 above (by omega)) (by omega), signedSum,
      isZero.2, isBiased, pow_zero, Nat.div_one, Nat.add_zero, Nat.sub_zero, add_comm]
    exact normalized_zero_above above most

theorem sysCalc_zeros (isZero : IsZero n1) (isZero' : IsZero n2)
    (ends : ∃ r, sysCalc n1 n2 op = .ok r) : sysCalc n1 n2 op ≠ .ok einval := by
  have isBiased := isZero.1
  have isBiased' := isZero'.1
  have aligns := @alignsTo_of_le n1 n2 (by omega) (by omega)
  have nonzero := signedSum_ne_zero isSum aligns (by omega) ends
  rw [sysCalc_sum isSum aligns (by omega)]
  rw [signedSum, isZero.2, isZero'.2, isBiased, isBiased', signed_add_signed] at *
  by_cases same : negative n1 = addedSign n2 op
  · rw [if_pos same]
    cases negative n1 with
    | true => decide
    | false => decide
  · rw [if_neg same] at nonzero
    apply absurd _ nonzero
    cases negative n1 with
    | true => rfl
    | false => rfl

end Operands

end Rtes.Calc
