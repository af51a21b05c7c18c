import Rtes.Calc.Product
import Rtes.Calc.Quotient

/-!
# When the search for the leading one ends

The counter of the search is unsigned, so that its bound never fails: the search
ends if and only if there is a one.  Products and quotients have one, and so does
a sum, unless the operands cancel each other out.
-/

namespace Rtes.Calc

open Rtes.Binary32 Rtes.Reservation Rtes.Transition

variable {n1 n2 : U32} {op : Char}

/-! ## The search -/

@[simp]
theorem leadingOne_zero (rounds : ℕ) (pos : U32) :
    leadingOne 0 rounds pos = .error .divergence := by
  induction rounds generalizing pos with
  | zero => rfl
  | succ rounds ih =>
      have clear : ¬ (0 : U32) &&& shiftLeft 1 pos ≠ 0 := by simp
      rw [leadingOne, if_neg clear]
      exact ih (pos - 1)

theorem leadingOne_ends_iff {frac : U32} :
    (∃ rounds pos, leadingOne frac rounds 32 = .ok pos) ↔ frac.toNat ≠ 0 := by
  constructor
  · rintro ⟨rounds, pos, ends⟩ zero
    have isZero : frac = 0 := BitVec.eq_of_toNat_eq zero
    rw [isZero, leadingOne_zero] at ends
    cases ends
  · intro nonzero
    exact ⟨loopRounds, _, leadingOne_loopRounds nonzero⟩

/-- The search of a call ends, if the call gets to it. -/
def SearchEnds (n1 n2 : U32) (op : Char) : Prop :=
  ∀ parts, computed n1 n2 op = .ok (some parts) →
    ∃ rounds pos, leadingOne parts.frac rounds 32 = .ok pos

private theorem searchEnds_iff_of_computed {parts : Parts}
    (computes : computed n1 n2 op = .ok (some parts)) :
    SearchEnds n1 n2 op ↔ parts.frac.toNat ≠ 0 := by
  constructor
  · intro ends
    exact leadingOne_ends_iff.mp (ends parts computes)
  · intro nonzero parts' computes'
    obtain rfl : parts = parts' := Option.some.inj (Except.ok.inj (computes.symm.trans computes'))
    exact leadingOne_ends_iff.mpr nonzero

/-! ## Sums that are zero -/

/-- Aligned fractions cancel each other out only if they were not shifted and are
the same. -/
theorem aligned_eq_zero_iff {low high shift shift' : ℕ} {a b : Bool}
    (lowLe : 8388608 ≤ low) (lowLt : low < 16777216) (highLe : 8388608 ≤ high)
    (highLt : high < 16777216) (one : shift = 0 ∨ shift' = 0) :
    signed a ((low / 2 ^ shift : ℕ) : ℤ) + signed b ((high / 2 ^ shift' : ℕ) : ℤ) = 0 ↔
      a ≠ b ∧ (shift = 0 ∧ shift' = 0) ∧ low = high := by
  have halved : ∀ {frac k : ℕ}, frac < 16777216 → k ≠ 0 → frac / 2 ^ k < 8388608 := by
    intro frac k fits shifted
    have grows : 2 ≤ 2 ^ k := Nat.le_self_pow shifted 2
    have less : frac / 2 ^ k ≤ frac / 2 := Nat.div_le_div_left grows (by decide)
    omega
  have whole : shift = 0 → low / 2 ^ shift = low := by
    rintro rfl
    exact Nat.div_one low
  have whole' : shift' = 0 → high / 2 ^ shift' = high := by
    rintro rfl
    exact Nat.div_one high
  have cut : shift ≠ 0 → low / 2 ^ shift < 8388608 := halved lowLt
  have cut' : shift' ≠ 0 → high / 2 ^ shift' < 8388608 := halved highLt
  generalize low / 2 ^ shift = first at *
  generalize high / 2 ^ shift' = second at *
  cases a with
  | true =>
      cases b with
      | true =>
          simp only [signed_true, ne_eq, not_true, false_and, iff_false]
          omega
      | false =>
          simp only [signed_true, signed_false, ne_eq, Bool.true_eq_false, not_false_iff, true_and]
          omega
  | false =>
      cases b with
      | true =>
          simp only [signed_true, signed_false, ne_eq, Bool.false_eq_true, not_false_iff, true_and]
          omega
      | false =>
          simp only [signed_false, ne_eq, not_true, false_and, iff_false]
          omega

/-- A sum of opposite numbers, or a difference of the same. -/
def Cancels (n1 n2 : U32) (op : Char) : Prop :=
  op = '+' ∧ n2 = n1 ^^^ 0x80000000#32 ∨ op = '-' ∧ n2 = n1

private theorem cancels_iff (isSum : op = '+' ∨ op = '-') : Cancels n1 n2 op ↔
    negative n1 ≠ addedSign n2 op ∧ biased n1 = biased n2 ∧ fraction n1 = fraction n2 := by
  rcases isSum with rfl | rfl
  · have isPlus : Cancels n1 n2 '+' ↔ n2 = n1 ^^^ 0x80000000#32 := by simp [Cancels]
    have isAdded : addedSign n2 '+' = negative n2 := rfl
    rw [isPlus, eq_iff_fields, negative_xor, biased_xor, fraction_xor, isAdded, ne_comm,
      ← Bool.eq_not, eq_comm (a := biased n1), eq_comm (a := fraction n1)]
  · have isMinus : Cancels n1 n2 '-' ↔ n2 = n1 := by simp [Cancels]
    have isAdded : addedSign n2 '-' = !negative n2 := rfl
    rw [isMinus, eq_comm, eq_iff_fields, isAdded, Ne, Bool.eq_not, not_not]

/-! ## Every call -/

private theorem searchEnds_sum (isSum : op = '+' ∨ op = '-') :
    SearchEnds n1 n2 op ↔ ¬ Cancels n1 n2 op := by
  have bound := fraction_lt n1
  have bound' := fraction_lt n2
  obtain ⟨exponent, shift, shift', aligns, _, one, same⟩ := exists_alignsTo n1 n2
  obtain ⟨parts, sign, computes, stands⟩ := computed_stands isSum aligns
  have isZero := @aligned_eq_zero_iff (8388608 + fraction n1) (8388608 + fraction n2) shift shift'
    (negative n1) (addedSign n2 op) (by omega) (by omega) (by omega) (by omega) one
  have isFrac := stands.toNat_frac
  rw [Nat.add_right_inj] at isZero
  rw [searchEnds_iff_of_computed computes, cancels_iff isSum, same, ← isZero, not_iff_not,
    ← abs_eq_zero, ← isFrac, Int.natCast_eq_zero]

private theorem searchEnds_of_not_sum (notPlus : op ≠ '+') (notMinus : op ≠ '-') :
    SearchEnds n1 n2 op := by
  intro parts computes
  rw [leadingOne_ends_iff]
  rw [computed, if_neg notPlus, if_neg notMinus] at computes
  split_ifs at computes
  · have bounds := fracProduct_bounds n1 n2
    cases computes
    rw [toNat_times_frac]
    omega
  · have bounds := fracQuotient_bounds n1 n2
    by_cases zero : fraction n2 = 0
    · rw [divide_none zero] at computes
      cases computes
    · obtain ⟨parts', divides, isFrac, _⟩ := @divide_eq n1 n2 zero
      cases computes.symm.trans divides
      omega
  · cases computes

/-- The search ends, unless operands cancel each other out. -/
theorem searchEnds_iff (n1 n2 : U32) (op : Char) : SearchEnds n1 n2 op ↔ ¬ Cancels n1 n2 op := by
  by_cases isPlus : op = '+'
  · exact searchEnds_sum (.inl isPlus)
  · by_cases isMinus : op = '-'
    · exact searchEnds_sum (.inr isMinus)
    · apply iff_of_true (searchEnds_of_not_sum isPlus isMinus)
      rintro (⟨plus, _⟩ | ⟨minus, _⟩)
      · exact isPlus plus
      · exact isMinus minus

/-- One less one is never done. -/
theorem not_searchEnds_ones : ∃ parts,
    computed 0x3f800000 0x3f800000 '-' = .ok (some parts) ∧
      ∀ rounds, leadingOne parts.frac rounds 32 = .error .divergence :=
  ⟨_, rfl, fun rounds => leadingOne_zero rounds 32⟩

end Rtes.Calc
