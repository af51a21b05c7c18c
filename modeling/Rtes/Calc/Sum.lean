import Rtes.Calc.Rounding

/-!
# Sums and differences

Addition and subtraction are within a unit in the last place as long as the
exponents are on the same side of zero.  Otherwise the smaller operand is taken
for the larger, and the larger is lost.
-/

namespace Rtes.Calc

open Rtes.Binary32 Rtes.Reservation Rtes.Transition

/-- The exact result of a sum or difference. -/
def exactSum (n1 n2 : U32) (op : Char) : ℚ :=
  if op = '-' then value n1 - value n2 else value n1 + value n2

/-- A result within one unit in the last place of the larger operand, or of the
result if that is larger. -/
def WithinUlp (n1 n2 r : U32) (exact : ℚ) : Prop :=
  |value r - exact| ≤ max (max (ulp n1) (ulp n2)) (ulp r)

section SystemCall

variable {n1 n2 : U32} {op : Char}

theorem exactSum_eq (normal : Normal n1) (normal' : Normal n2) :
    exactSum n1 n2 op =
      signed (negative n1) ((8388608 + fraction n1 : ℕ) : ℚ) * 2 ^ ((biased n1 : ℤ) - 150) +
        signed (addedSign n2 op) ((8388608 + fraction n2 : ℕ) : ℚ) *
          2 ^ ((biased n2 : ℤ) - 150) := by
  unfold exactSum addedSign
  rw [normal.value_eq, normal'.value_eq]
  split
  · rw [signed_not, neg_mul, ← sub_eq_add_neg]
  · rfl

variable (normal : Normal n1) (normal' : Normal n2) (isSum : op = '+' ∨ op = '-')

include normal normal' isSum

private theorem sysCalc_sum_near (same : 127 ≤ biased n1 ↔ 127 ≤ biased n2)
    (least : 2 ^ (-126 : ℤ) ≤ |exactSum n1 n2 op|) (less : |exactSum n1 n2 op| < 2 ^ (128 : ℤ)) :
    ∃ r, sysCalc n1 n2 op = .ok r ∧ Finite r ∧ WithinUlp n1 n2 r (exactSum n1 n2 op) := by
  have low := normal.least
  have low' := normal'.least
  have most := normal.most
  have most' := normal'.most
  have bound := fraction_lt n1
  have bound' := fraction_lt n2
  have isExact := @exactSum_eq n1 n2 op normal normal'
  unfold WithinUlp
  rw [normal.ulp_eq, normal'.ulp_eq]
  rcases le_total (biased n1) (biased n2) with le | le
  · obtain ⟨parts, sign, computes, stands⟩ := computed_stands isSum (alignsTo_of_le same le)
    rw [pow_zero, Nat.div_one] at stands
    rw [isExact] at least less ⊢
    rw [sysCalc_of_computed computes, max_eq_right (zpow_le_zpow_right₀ one_le_two (by omega))]
    exact reconstruct_near_shifted le stands low most' (by omega) (by omega) (by omega) least less
  · obtain ⟨parts, sign, computes, stands⟩ := computed_stands isSum (alignsTo_of_ge same le)
    rw [pow_zero, Nat.div_one, add_comm] at stands
    rw [isExact, add_comm] at least less
    rw [isExact, add_comm (signed (negative n1) _ * _), sysCalc_of_computed computes,
      max_eq_left (zpow_le_zpow_right₀ one_le_two (by omega))]
    exact reconstruct_near_shifted le stands low' most (by omega) (by omega) (by omega) least less

/-- With exponents on different sides of zero, the larger operand is lost. -/
theorem sysCalc_sum_far (across : ¬ (127 ≤ biased n1 ↔ 127 ≤ biased n2)) {r : U32}
    (returns : sysCalc n1 n2 op = .ok r) : ¬ WithinUlp n1 n2 r (exactSum n1 n2 op) := by
  have low := normal.least
  have low' := normal'.least
  have most := normal.most
  have most' := normal'.most
  have bound := fraction_lt n1
  have bound' := fraction_lt n2
  have isExact := @exactSum_eq n1 n2 op normal normal'
  unfold WithinUlp
  rw [normal.ulp_eq, normal'.ulp_eq, isExact, not_le]
  rcases le_total (biased n1) (biased n2) with le | le
  · obtain ⟨parts, sign, computes, stands⟩ :=
      computed_stands isSum (@alignsTo_across_lt n1 n2 (by omega) (by omega))
    rw [pow_zero, Nat.div_one] at stands
    rw [sysCalc_of_computed computes] at returns
    rw [max_eq_right (zpow_le_zpow_right₀ one_le_two (by omega))]
    exact reconstruct_far stands low (by omega) (by omega) most' (by omega) (by omega) (by omega)
      (by omega) returns
  · obtain ⟨parts, sign, computes, stands⟩ :=
      computed_stands isSum (@alignsTo_across_gt n1 n2 (by omega) (by omega))
    rw [pow_zero, Nat.div_one, add_comm] at stands
    rw [sysCalc_of_computed computes] at returns
    rw [max_eq_left (zpow_le_zpow_right₀ one_le_two (by omega)),
      add_comm (signed (negative n1) _ * _)]
    exact reconstruct_far stands low' (by omega) (by omega) most (by omega) (by omega) (by omega)
      (by omega) returns

/-- Sums and differences in the normal range are within a unit in the last place
exactly if both operands are below one in magnitude or neither is. -/
theorem sysCalc_sum_iff (least : 2 ^ (-126 : ℤ) ≤ |exactSum n1 n2 op|)
    (less : |exactSum n1 n2 op| < 2 ^ (128 : ℤ)) :
    (∃ r, sysCalc n1 n2 op = .ok r ∧ Finite r ∧ WithinUlp n1 n2 r (exactSum n1 n2 op)) ↔
      (127 ≤ biased n1 ↔ 127 ≤ biased n2) := by
  constructor
  · rintro ⟨r, returns, _, within⟩
    by_contra across
    exact sysCalc_sum_far normal normal' isSum across returns within
  · intro same
    exact sysCalc_sum_near normal normal' isSum same least less

end SystemCall

/-- One and one. -/
theorem sysCalc_sum_iff_ones :
    (∃ r, sysCalc 0x3f800000 0x3f800000 '+' = .ok r ∧ Finite r ∧
      WithinUlp 0x3f800000 0x3f800000 r (exactSum 0x3f800000 0x3f800000 '+')) ↔
      (127 ≤ biased 0x3f800000 ↔ 127 ≤ biased 0x3f800000) := by
  have two : exactSum 0x3f800000 0x3f800000 '+' = 2 := by
    rw [exactSum, if_neg (by decide), value_one]
    exact one_add_one_eq_two
  refine sysCalc_sum_iff normal_one normal_one (.inl rfl) ?_ ?_
  · rw [two]
    norm_num
  · rw [two]
    norm_num

/-- One half and one give one half. -/
theorem sysCalc_sum_lost : Normal 0x3f000000 ∧ Normal 0x3f800000 ∧
    exactSum 0x3f000000 0x3f800000 '+' = 3 / 2 ∧
    sysCalc 0x3f000000 0x3f800000 '+' = .ok 0x3f000000 ∧ value 0x3f000000 = 1 / 2 ∧
    ¬ WithinUlp 0x3f000000 0x3f800000 0x3f000000 (exactSum 0x3f000000 0x3f800000 '+') := by
  have returns : sysCalc 0x3f000000 0x3f800000 '+' = .ok 0x3f000000 := by decide
  have sum : exactSum 0x3f000000 0x3f800000 '+' = 3 / 2 := by
    rw [exactSum, if_neg (by decide), value_half, value_one]
    norm_num
  exact ⟨normal_half, normal_one, sum, returns, value_half,
    sysCalc_sum_far normal_half normal_one (.inl rfl) (by decide) returns⟩

end Rtes.Calc
