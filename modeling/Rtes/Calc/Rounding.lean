import Rtes.Calc.Align

/-!
# What normalized sums lose

An aligned sum is off by less than one in units of its exponent, and its
normalization loses at most as much again.  A fraction that was shifted out
instead of its smaller counterpart leaves a result far from the sum.
-/

namespace Rtes.Calc

open Rtes.Binary32 Rtes.Reservation Rtes.Transition

/-! ## Sums that are cut off -/

/-- An aligned sum is off by less than one: it is cut off if it has 24 bits or
more, and otherwise not less than the exact sum. -/
structure Cut (total : ℤ) (exact : ℚ) : Prop where
  near : |(total : ℚ) - exact| < 1
  bounds : (8388608 ≤ |total| ∧ |total| < 33554432 ∧ ((|total| : ℤ) : ℚ) ≤ |exact|) ∨
    (|total| < 16777216 ∧ |exact| ≤ ((|total| : ℤ) : ℚ))

private theorem Cut.neg {total : ℤ} {exact : ℚ} (cut : Cut total exact) :
    Cut (-total) (-exact) := by
  constructor
  · rw [Int.cast_neg, neg_sub_neg, abs_sub_comm]
    exact cut.near
  · rw [abs_neg, abs_neg]
    exact cut.bounds

section CutSum

variable {kept high : ℕ} {part : ℚ} (below : kept ≤ part) (above : part < kept + 1)
  (fits : kept < 16777216) (least : 8388608 ≤ high) (fits' : high < 16777216)

include below above fits least fits'

private theorem cut_add : Cut ((kept : ℤ) + high) (part + high) := by
  have nonneg : (0 : ℚ) ≤ part := (Nat.cast_nonneg kept).trans below
  constructor
  · push_cast
    rw [abs_lt]
    constructor
    · linarith
    · linarith
  · left
    rw [abs_of_nonneg (by positivity), abs_of_nonneg (by positivity)]
    refine ⟨by omega, by omega, ?_⟩
    push_cast
    linarith

private theorem cut_sub (exactly : kept = part ∨ part < 8388608) :
    Cut ((high : ℤ) - kept) (high - part) := by
  have least' : (8388608 : ℚ) ≤ high := by exact_mod_cast least
  constructor
  · push_cast
    rw [abs_lt]
    constructor
    · linarith
    · linarith
  · right
    constructor
    · rw [abs_lt]
      omega
    · push_cast
      rcases exactly with same | less
      · rw [same]
      · rw [abs_of_nonneg (by linarith), abs_of_nonneg (by linarith)]
        linarith

/-- A sum with one of the fractions cut off is cut off. -/
theorem cut_signed (exactly : kept = part ∨ part < 8388608) (a b : Bool) :
    Cut (signed a (kept : ℤ) + signed b (high : ℤ)) (signed a part + signed b (high : ℚ)) := by
  have add := cut_add below above fits least fits'
  have sub := cut_sub below above fits least fits' exactly
  cases a with
  | true =>
      cases b with
      | true =>
          simp only [signed_true, ← neg_add]
          exact add.neg
      | false =>
          simp only [signed_true, signed_false, neg_add_eq_sub]
          exact sub
  | false =>
      cases b with
      | true =>
          simp only [signed_true, signed_false, ← sub_eq_add_neg]
          rw [← neg_sub, ← neg_sub (high : ℚ)]
          exact sub.neg
      | false => exact add

end CutSum

/-- A shifted fraction loses less than one, and nothing if it is not shifted; it
is halved at least if it is. -/
theorem cut_shifted {low high : ℕ} (shift : ℕ) (fits : low < 16777216) (least : 8388608 ≤ high)
    (fits' : high < 16777216) (a b : Bool) :
    Cut (signed a ((low / 2 ^ shift : ℕ) : ℤ) + signed b (high : ℤ))
      (signed a ((low : ℚ) / 2 ^ shift) + signed b (high : ℚ)) := by
  have power : ((2 ^ shift : ℕ) : ℚ) = 2 ^ shift := Nat.cast_pow 2 shift
  have floor : ⌊(low : ℚ) / 2 ^ shift⌋₊ = low / 2 ^ shift := by
    rw [← power, Nat.floor_div_natCast, Nat.floor_natCast]
  have exactly : ((low / 2 ^ shift : ℕ) : ℚ) = low / 2 ^ shift ∨
      (low : ℚ) / 2 ^ shift < 8388608 := by
    cases shift with
    | zero =>
        left
        simp
    | succ shift =>
        right
        have cast : (low : ℚ) < 16777216 := by exact_mod_cast fits
        have grows : (2 : ℚ) ≤ 2 ^ (shift + 1) := le_self_pow₀ one_le_two (Nat.succ_ne_zero _)
        rw [div_lt_iff₀ (by positivity)]
        linarith
  have below : ((low / 2 ^ shift : ℕ) : ℚ) ≤ low / 2 ^ shift := floor ▸ Nat.floor_le (by positivity)
  have above : (low : ℚ) / 2 ^ shift < (low / 2 ^ shift : ℕ) + 1 := floor ▸ Nat.lt_floor_add_one _
  exact cut_signed below above ((Nat.div_le_self _ _).trans_lt fits) least fits' exactly a b

/-! ## Normalized sums -/

section Reconstruct

variable {parts : Parts} {exponent : ℕ} {isNegative : Bool} {total : ℤ}

private theorem value_fitted {frac : ℕ} (nonzero : frac ≠ 0) (least : 24 ≤ exponent + frac.log2)
    (most : exponent + frac.log2 - 23 ≤ 254) :
    value (encode isNegative (exponent + frac.log2 - 23) (fitted frac - 8388608)) =
      signed isNegative (fitted frac : ℚ) * 2 ^ ((exponent : ℤ) + frac.log2 - 173) := by
  have bounds := fitted_bounds nonzero
  have power : ((exponent + frac.log2 - 23 : ℕ) : ℤ) - 150 = exponent + frac.log2 - 173 := by
    omega
  rw [value_encode (by omega) most (by omega), power, Nat.add_sub_cancel' bounds.1]

/-- A fraction of at most 24 bits keeps its value. -/
theorem value_fitted_of_le {frac : ℕ} (nonzero : frac ≠ 0) (le : frac.log2 ≤ 23)
    (least : 24 ≤ exponent + frac.log2) (most : exponent + frac.log2 - 23 ≤ 254) :
    value (encode isNegative (exponent + frac.log2 - 23) (fitted frac - 8388608)) =
      signed isNegative (frac : ℚ) * 2 ^ ((exponent : ℤ) - 150) := by
  have power : (exponent : ℤ) + frac.log2 - 173 = (exponent : ℤ) - 150 + frac.log2 - 23 := by omega
  rw [value_fitted nonzero least most, power, ← signed_mul, fitted_mul_zpow le, signed_mul]

/-- A longer one loses its last bit. -/
theorem value_fitted_of_eq {frac : ℕ} (bits : frac.log2 = 24)
    (most : exponent + frac.log2 - 23 ≤ 254) :
    value (encode isNegative (exponent + frac.log2 - 23) (fitted frac - 8388608)) =
      signed isNegative ((frac / 2 : ℕ) : ℚ) * (2 * 2 ^ ((exponent : ℤ) - 150)) := by
  have nonzero : frac ≠ 0 := by
    rintro rfl
    exact absurd bits (by decide)
  have power : 2 * (2 : ℚ) ^ ((exponent : ℤ) - 150) = 2 ^ ((exponent : ℤ) + frac.log2 - 173) := by
    rw [← zpow_one_add₀ two_ne_zero]
    congr 1
    omega
  have shift : 2 ^ (frac.log2 - 23) = 2 := by
    rw [bits]
    rfl
  rw [value_fitted nonzero (by omega) most, power, fitted_of_lt (by omega), shift]

private theorem ulp_encode {frac : ℕ} (least : 1 ≤ exponent) (most : exponent ≤ 254)
    (fits : frac < 8388608) :
    ulp (encode isNegative exponent frac) = 2 ^ ((exponent : ℤ) - 150) := by
  rw [(normal_encode least most fits).ulp_eq, biased_encode (by omega) fits]

private theorem abs_two_mul_half_sub_le (frac : ℕ) : |2 * ((frac / 2 : ℕ) : ℚ) - frac| ≤ 1 := by
  have halves : 2 * (frac / 2) ≤ frac ∧ frac ≤ 2 * (frac / 2) + 1 := by omega
  have below : 2 * ((frac / 2 : ℕ) : ℚ) ≤ frac := by exact_mod_cast halves.1
  have above : (frac : ℚ) ≤ 2 * ((frac / 2 : ℕ) : ℚ) + 1 := by exact_mod_cast halves.2
  rw [abs_le]
  constructor
  · linarith
  · linarith

/-- Normalization loses less than another unit in the last place. -/
theorem fitted_near {frac : ℕ} {exact : ℚ} (near : |signed isNegative (frac : ℚ) - exact| < 1)
    (nonzero : frac ≠ 0) (bits : frac.log2 ≤ 24) (least : 24 ≤ exponent + frac.log2)
    (most : exponent + frac.log2 - 23 ≤ 254) :
    |value (encode isNegative (exponent + frac.log2 - 23) (fitted frac - 8388608)) -
        exact * 2 ^ ((exponent : ℤ) - 150)| ≤
      max (2 ^ ((exponent : ℤ) - 150))
        (ulp (encode isNegative (exponent + frac.log2 - 23) (fitted frac - 8388608))) := by
  have unit : (0 : ℚ) < 2 ^ ((exponent : ℤ) - 150) := by positivity
  have bounds := fitted_bounds nonzero
  rcases Nat.lt_or_eq_of_le bits with less | full
  · apply le_max_of_le_left
    rw [value_fitted_of_le nonzero (by omega) least most, ← sub_mul, abs_mul, abs_of_pos unit]
    exact mul_le_of_le_one_left unit.le near.le
  · apply le_max_of_le_right
    have last : |signed isNegative (2 * ((frac / 2 : ℕ) : ℚ) - frac)| ≤ 1 := by
      rw [abs_signed]
      exact abs_two_mul_half_sub_le frac
    have lastUnit : ulp (encode isNegative (exponent + frac.log2 - 23) (fitted frac - 8388608)) =
        2 * 2 ^ ((exponent : ℤ) - 150) := by
      rw [ulp_encode (by omega) most (by omega), ← zpow_one_add₀ two_ne_zero]
      congr 1
      omega
    have split : signed isNegative ((frac / 2 : ℕ) : ℚ) * 2 - exact =
        signed isNegative (2 * ((frac / 2 : ℕ) : ℚ) - frac) +
          (signed isNegative (frac : ℚ) - exact) := by
      rw [signed_sub, mul_comm (2 : ℚ), signed_mul]
      ring
    rw [value_fitted_of_eq full most, lastUnit, ← mul_assoc, ← sub_mul, abs_mul, abs_of_pos unit]
    apply mul_le_mul_of_nonneg_right _ unit.le
    calc |signed isNegative ((frac / 2 : ℕ) : ℚ) * 2 - exact|
        ≤ |signed isNegative (2 * ((frac / 2 : ℕ) : ℚ) - frac)| +
            |signed isNegative (frac : ℚ) - exact| := by
          rw [split]
          exact abs_add_le _ _
      _ ≤ 1 + 1 := add_le_add last near.le
      _ = 2 := one_add_one_eq_two

/-- The exponent of a sum in the normal range stays in range. -/
theorem Cut.ranges {frac : ℕ} {exact : ℚ} (cut : Cut total exact) (isFrac : (frac : ℤ) = |total|)
    (least : 1 ≤ exponent) (most : exponent ≤ 254)
    (normal : 2 ^ (-126 : ℤ) ≤ |exact| * 2 ^ ((exponent : ℤ) - 150))
    (less : |exact| * 2 ^ ((exponent : ℤ) - 150) < 2 ^ (128 : ℤ)) :
    frac ≠ 0 ∧ frac.log2 ≤ 24 ∧ 24 ≤ exponent + frac.log2 ∧
      exponent + frac.log2 - 23 ≤ 254 := by
  have unit : (0 : ℚ) < 2 ^ ((exponent : ℤ) - 150) := by positivity
  have cast : ((|total| : ℤ) : ℚ) = frac := by
    rw [← isFrac]
    rfl
  have bounds := cut.bounds
  rw [cast, ← isFrac] at bounds
  rcases bounds with ⟨low, high, below⟩ | ⟨high, above⟩
  · have nonzero : frac ≠ 0 := by omega
    have many : 23 ≤ frac.log2 := (Nat.le_log2 nonzero).mpr (by omega)
    have bits : frac.log2 < 25 := (Nat.log2_lt nonzero).mpr (by omega)
    have small := log2_add_lt nonzero ((mul_le_mul_of_nonneg_right below unit.le).trans_lt less)
    omega
  · have large := lt_log2_add (normal.trans (mul_le_mul_of_nonneg_right above unit.le))
    have nonzero : frac ≠ 0 := by
      rintro rfl
      have none : |exact| = 0 := le_antisymm (by simpa using above) (abs_nonneg _)
      rw [none, zero_mul] at normal
      exact absurd normal (not_le.mpr (by positivity))
    have bits : frac.log2 < 24 := (Nat.log2_lt nonzero).mpr (by omega)
    omega

/-- A sum that is cut off is within a unit in the last place once normalized. -/
theorem reconstruct_near {exact : ℚ} (stands : Stands parts exponent isNegative total)
    (cut : Cut total exact) (least : 1 ≤ exponent) (most : exponent ≤ 254)
    (normal : 2 ^ (-126 : ℤ) ≤ |exact| * 2 ^ ((exponent : ℤ) - 150))
    (less : |exact| * 2 ^ ((exponent : ℤ) - 150) < 2 ^ (128 : ℤ)) :
    ∃ r, reconstruct parts = .ok r ∧ Finite r ∧
      |value r - exact * 2 ^ ((exponent : ℤ) - 150)| ≤
        max (2 ^ ((exponent : ℤ) - 150)) (ulp r) := by
  obtain ⟨nonzero, bits, low, high⟩ := cut.ranges stands.toNat_frac least most normal less
  have bounds := fitted_bounds nonzero
  have near := cut.near
  rw [← stands.cast_frac] at near
  exact ⟨_, reconstruct_eq nonzero stands.exp stands.sign (by omega) high,
    (normal_encode (by omega) high (by omega)).finite, fitted_near near nonzero bits low high⟩

section Operands

variable {low high e e' : ℕ} {a b : Bool} {r : U32}

/-- Operands aligned to the greater exponent are added within a unit in the last
place. -/
theorem reconstruct_near_shifted (le : e ≤ e')
    (stands : Stands parts e' isNegative
      (signed a ((low / 2 ^ (e' - e) : ℕ) : ℤ) + signed b (high : ℤ)))
    (least : 1 ≤ e) (most : e' ≤ 254) (lowLt : low < 16777216)
    (highLe : 8388608 ≤ high) (highLt : high < 16777216)
    (normal : 2 ^ (-126 : ℤ) ≤ |signed a (low : ℚ) * 2 ^ ((e : ℤ) - 150) +
      signed b (high : ℚ) * 2 ^ ((e' : ℤ) - 150)|)
    (less : |signed a (low : ℚ) * 2 ^ ((e : ℤ) - 150) +
      signed b (high : ℚ) * 2 ^ ((e' : ℤ) - 150)| < 2 ^ (128 : ℤ)) :
    ∃ r, reconstruct parts = .ok r ∧ Finite r ∧
      |value r - (signed a (low : ℚ) * 2 ^ ((e : ℤ) - 150) +
        signed b (high : ℚ) * 2 ^ ((e' : ℤ) - 150))| ≤ max (2 ^ ((e' : ℤ) - 150)) (ulp r) := by
  have power : (2 : ℚ) ^ ((e' : ℤ) - 150) = 2 ^ (e' - e) * 2 ^ ((e : ℤ) - 150) := by
    rw [← zpow_natCast, ← zpow_add₀ two_ne_zero]
    congr 1
    omega
  have common : signed a (low : ℚ) * 2 ^ ((e : ℤ) - 150) +
      signed b (high : ℚ) * 2 ^ ((e' : ℤ) - 150) =
      (signed a ((low : ℚ) / 2 ^ (e' - e)) + signed b (high : ℚ)) * 2 ^ ((e' : ℤ) - 150) := by
    rw [add_mul, ← signed_mul a (_ / _), power, ← mul_assoc (_ / _),
      div_mul_cancel₀ _ (by positivity), signed_mul]
  have unit : (0 : ℚ) < 2 ^ ((e' : ℤ) - 150) := by positivity
  rw [common, abs_mul, abs_of_pos unit] at normal less
  rw [common]
  exact reconstruct_near stands (cut_shifted _ lowLt highLe highLt a b) (by omega) most normal less

/-- A fraction in the format is returned as it is. -/
theorem reconstruct_same (stands : Stands parts e isNegative (signed a (low : ℤ)))
    (least : 1 ≤ e) (most : e ≤ 254) (lowLe : 8388608 ≤ low) (lowLt : low < 16777216)
    (returns : reconstruct parts = .ok r) :
    value r = signed a (low : ℚ) * 2 ^ ((e : ℤ) - 150) ∧ ulp r = 2 ^ ((e : ℤ) - 150) := by
  have isFrac : parts.frac.toNat = low := by
    have magnitude := stands.toNat_frac
    rw [abs_signed, Nat.abs_cast] at magnitude
    exact_mod_cast magnitude
  have isLow := stands.cast_frac
  have nonzero : low ≠ 0 := by omega
  have bits : low.log2 = 23 := (Nat.log2_eq_iff nonzero).mpr ⟨lowLe, lowLt⟩
  have bounds := fitted_bounds nonzero
  have fracBits : parts.frac.toNat.log2 = 23 := isFrac ▸ bits
  have returned := reconstruct_eq (isFrac ▸ nonzero) stands.exp stands.sign (by omega) (by omega)
  rw [isFrac, returns] at returned
  rw [isFrac, cast_signed] at isLow
  rw [Except.ok.inj returned]
  constructor
  · rw [value_fitted_of_le nonzero (by omega) (by omega) (by omega), isLow]
    rfl
  · rw [ulp_encode (by omega) (by omega) (by omega), bits, Nat.add_sub_cancel]

/-- A fraction of 23 to 25 bits is returned with at most twice the unit. -/
theorem ulp_reconstruct_le (stands : Stands parts e isNegative total) (least : 1 ≤ e)
    (most : e ≤ 253) (totalLe : 4194304 ≤ |total|) (totalLt : |total| < 33554432)
    (returns : reconstruct parts = .ok r) : ulp r ≤ 2 * 2 ^ ((e : ℤ) - 150) := by
  have isFrac := stands.toNat_frac
  have nonzero : parts.frac.toNat ≠ 0 := by omega
  have many : 22 ≤ parts.frac.toNat.log2 := (Nat.le_log2 nonzero).mpr (by omega)
  have bits : parts.frac.toNat.log2 < 25 := (Nat.log2_lt nonzero).mpr (by omega)
  have bounds := fitted_bounds nonzero
  have returned := reconstruct_eq nonzero stands.exp stands.sign (by omega) (by omega)
  rw [returns] at returned
  rw [Except.ok.inj returned, ulp, biased_encode (by omega) (by omega), ← zpow_one_add₀ two_ne_zero]
  apply zpow_le_zpow_right₀ one_le_two
  omega

theorem abs_operand (isNegative : Bool) (frac : ℕ) (exponent : ℤ) :
    |signed isNegative (frac : ℚ) * 2 ^ exponent| = frac * 2 ^ exponent := by
  have unit : (0 : ℚ) < 2 ^ exponent := by positivity
  rw [abs_mul, abs_signed, Nat.abs_cast, abs_of_pos unit]

private theorem abs_le_of_sum (x y z : ℚ) : |y| ≤ |z - (x + y)| + (|z| + |x|) := by
  have split : y = -(z - (x + y)) + (z + -x) := by ring
  calc |y| = |-(z - (x + y)) + (z + -x)| := by rw [← split]
    _ ≤ |-(z - (x + y))| + |z + -x| := abs_add_le _ _
    _ ≤ |z - (x + y)| + (|z| + |x|) := by
        rw [abs_neg, ← abs_neg x]
        exact add_le_add_right (abs_add_le _ _) _

/-- A sum of a fraction of 24 bits and one that was shifted by three bits at
least has 23 to 25 bits. -/
theorem total_bounds {kept : ℕ} (lowLe : 8388608 ≤ low) (lowLt : low < 16777216)
    (shrinks : kept ≤ 2097152) :
    4194304 ≤ |signed a (low : ℤ) + signed b (kept : ℤ)| ∧
      |signed a (low : ℤ) + signed b (kept : ℤ)| < 33554432 := by
  have large : |signed a (low : ℤ)| = low := by rw [abs_signed, Nat.abs_cast]
  have small : |signed b (kept : ℤ)| = kept := by rw [abs_signed, Nat.abs_cast]
  have below := abs_sub_abs_le_abs_add (signed a (low : ℤ)) (signed b (kept : ℤ))
  have above := abs_add_le (signed a (low : ℤ)) (signed b (kept : ℤ))
  constructor
  · omega
  · omega

section Far

variable (stands : Stands parts e isNegative
    (signed a (low : ℤ) + signed b ((high / 2 ^ (256 - (e' - e)) : ℕ) : ℤ)))
  (least : 1 ≤ e) (below : e < 127) (above : 127 ≤ e') (most : e' ≤ 254)
  (lowLe : 8388608 ≤ low) (lowLt : low < 16777216)
  (highLe : 8388608 ≤ high) (highLt : high < 16777216)
  (returns : reconstruct parts = .ok r)

include stands least below above lowLe lowLt highLe highLt returns

/-- Nothing of the larger operand remains if it was shifted by 24 bits or more. -/
theorem reconstruct_far_of_le (le : e' - e ≤ 232) :
    max (2 ^ ((e' : ℤ) - 150)) (ulp r) <
      |value r - (signed a (low : ℚ) * 2 ^ ((e : ℤ) - 150) +
        signed b (high : ℚ) * 2 ^ ((e' : ℤ) - 150))| := by
  have gone : high / 2 ^ (256 - (e' - e)) = 0 := by
    have grows : 2 ^ 24 ≤ 2 ^ (256 - (e' - e)) := Nat.pow_le_pow_right (by decide) (by omega)
    exact Nat.div_eq_of_lt (by omega)
  have zero : signed b ((0 : ℕ) : ℤ) = 0 := by
    cases b with
    | true => rfl
    | false => rfl
  rw [gone, zero, add_zero] at stands
  obtain ⟨isValue, isUlp⟩ := reconstruct_same stands least (by omega) lowLe lowLt returns
  have smaller : (2 : ℚ) ^ ((e : ℤ) - 150) ≤ 2 ^ ((e' : ℤ) - 150) :=
    zpow_le_zpow_right₀ one_le_two (by omega)
  have unit : (0 : ℚ) < 2 ^ ((e' : ℤ) - 150) := by positivity
  have many : (1 : ℚ) < high := by exact_mod_cast (by omega : 1 < high)
  rw [isValue, isUlp, max_eq_left smaller, sub_add_cancel_left, abs_neg, abs_operand]
  exact lt_mul_of_one_lt_left unit many

include most

/-- The smaller operand and the result are both negligible if it was not. -/
theorem reconstruct_far_of_lt (less : 232 < e' - e) :
    max (2 ^ ((e' : ℤ) - 150)) (ulp r) <
      |value r - (signed a (low : ℚ) * 2 ^ ((e : ℤ) - 150) +
        signed b (high : ℚ) * 2 ^ ((e' : ℤ) - 150))| := by
  have highLe' : (8388608 : ℚ) ≤ high := by exact_mod_cast highLe
  have lowLt' : (low : ℚ) < 16777216 := by exact_mod_cast lowLt
  have unit : (0 : ℚ) < 2 ^ ((e : ℤ) - 150) := by positivity
  have unit' : (0 : ℚ) < 2 ^ ((e' : ℤ) - 150) := by positivity
  have shrinks : high / 2 ^ (256 - (e' - e)) ≤ 2097152 := by
    have grows : 2 ^ 3 ≤ 2 ^ (256 - (e' - e)) := Nat.pow_le_pow_right (by decide) (by omega)
    calc high / 2 ^ (256 - (e' - e)) ≤ high / 2 ^ 3 := Nat.div_le_div_left grows (by decide)
      _ ≤ 2097152 := by omega
  obtain ⟨totalLe, totalLt⟩ := @total_bounds low a b _ lowLe lowLt shrinks
  have isUlp := ulp_reconstruct_le stands least (by omega) totalLe totalLt returns
  have isValue := abs_value_lt r
  have larger : 1024 * (2 : ℚ) ^ ((e : ℤ) - 150) ≤ 2 ^ ((e' : ℤ) - 150) := by
    have power : (1024 : ℚ) = 2 ^ (10 : ℤ) := by norm_num
    rw [power, ← zpow_add₀ two_ne_zero]
    exact zpow_le_zpow_right₀ one_le_two (by omega)
  have small := mul_le_mul_of_nonneg_right lowLt'.le unit.le
  have large := mul_le_mul_of_nonneg_right highLe' unit'.le
  have triangle := abs_le_of_sum (signed a (low : ℚ) * 2 ^ ((e : ℤ) - 150))
    (signed b (high : ℚ) * 2 ^ ((e' : ℤ) - 150)) (value r)
  rw [abs_operand, abs_operand] at triangle
  apply max_lt
  · linarith
  · linarith

/-- An operand that was taken for the smaller is lost. -/
theorem reconstruct_far :
    max (2 ^ ((e' : ℤ) - 150)) (ulp r) <
      |value r - (signed a (low : ℚ) * 2 ^ ((e : ℤ) - 150) +
        signed b (high : ℚ) * 2 ^ ((e' : ℤ) - 150))| := by
  rcases le_or_gt (e' - e) 232 with le | less
  · exact reconstruct_far_of_le stands least below above lowLe lowLt highLe highLt returns le
  · exact reconstruct_far_of_lt stands least below above most lowLe lowLt highLe highLt returns less

end Far

end Operands

end Reconstruct

end Rtes.Calc
