import Rtes.Calc.Termination

/-!
# Laws of the operations

Sums and differences are two separate analyses of signs, over operands that are
aligned in an asymmetric way.  Both give the signed sum of the aligned fractions, and
the laws of the operations are those of the signed sum.
-/

namespace Rtes.Calc

open Rtes.Binary32 Rtes.Reservation Rtes.Transition

variable {n1 n2 : U32} {op : Char}

/-! ## Signed sums, normalized -/

/-- What is returned for a signed fraction with an exponent. -/
def normalized (exponent : ℕ) (total : ℤ) : Except Fault U32 :=
  if total = 0 then .error .divergence
  else .ok (outcome (decide (total < 0)) (exponent + total.natAbs.log2 - 23) (fitted total.natAbs))

private theorem Stands.isNegative_eq {parts : Parts} {exponent : ℕ} {isNegative : Bool} {total : ℤ}
    (stands : Stands parts exponent isNegative total) (nonzero : total ≠ 0) :
    isNegative = decide (total < 0) := by
  have isTotal := stands.frac
  cases isNegative with
  | true =>
      rw [signed_true] at isTotal
      exact (decide_eq_true (by omega)).symm
  | false =>
      rw [signed_false] at isTotal
      exact (decide_eq_false (by omega)).symm

private theorem reconstruct_zero {parts : Parts} (zero : parts.frac.toNat = 0) :
    reconstruct parts = .error .divergence := by
  have isZero : parts.frac = 0 := BitVec.eq_of_toNat_eq zero
  rw [reconstruct, isZero, leadingOne_zero]
  rfl

theorem Stands.reconstruct_eq {parts : Parts} {exponent : ℕ} {isNegative : Bool} {total : ℤ}
    (stands : Stands parts exponent isNegative total) (most : exponent < 256) :
    reconstruct parts = normalized exponent total := by
  have isFrac : parts.frac.toNat = total.natAbs :=
    Int.ofNat_inj.mp (stands.toNat_frac.trans (Int.abs_eq_natAbs total))
  by_cases zero : total = 0
  · rw [normalized, if_pos zero, reconstruct_zero (by omega)]
  · rw [normalized, if_neg zero, ← stands.isNegative_eq zero, ← isFrac]
    exact reconstruct_outcome (by omega) stands.exp.hasExponent (by omega) (by omega) stands.sign

/-- The signed sum of the fractions of two operands, each shifted. -/
def signedSum (n1 n2 : U32) (op : Char) (shift shift' : ℕ) : ℤ :=
  signed (negative n1) (((8388608 + fraction n1) / 2 ^ shift : ℕ) : ℤ) +
    signed (addedSign n2 op) (((8388608 + fraction n2) / 2 ^ shift' : ℕ) : ℤ)

/-- A sum or difference is the signed sum, normalized. -/
theorem sysCalc_sum (isSum : op = '+' ∨ op = '-') {exponent shift shift' : ℕ}
    (aligns : AlignsTo (unpack n1) (unpack n2) exponent shift shift') (most : exponent < 256) :
    sysCalc n1 n2 op = normalized exponent (signedSum n1 n2 op shift shift') := by
  obtain ⟨parts, sign, computes, stands⟩ := computed_stands isSum aligns
  rw [sysCalc_of_computed computes, stands.reconstruct_eq most, signedSum]

/-! ## Operands with the other sign -/

private theorem unpack_exp_xor (n : U32) : (unpack (n ^^^ 0x80000000#32)).exp = (unpack n).exp := by
  apply BitVec.eq_of_toNat_eq
  rw [hasExp_unpack, hasExp_unpack, biased_xor]

theorem unpack_frac_xor (n : U32) : (unpack (n ^^^ 0x80000000#32)).frac = (unpack n).frac := by
  apply BitVec.eq_of_toNat_eq
  rw [toNat_unpack_frac, toNat_unpack_frac, fraction_xor]

/-- The alignment does not look at the signs. -/
theorem AlignsTo.xor {exponent shift shift' : ℕ}
    (aligns : AlignsTo (unpack n1) (unpack n2) exponent shift shift') :
    AlignsTo (unpack n1) (unpack (n2 ^^^ 0x80000000#32)) exponent shift shift' := by
  obtain ⟨same, same'⟩ : (align (unpack n1) (unpack (n2 ^^^ 0x80000000#32))).1 =
      (align (unpack n1) (unpack n2)).1 ∧
        (align (unpack n1) (unpack (n2 ^^^ 0x80000000#32))).2.frac =
          (align (unpack n1) (unpack n2)).2.frac := by
    unfold align
    rw [unpack_exp_xor]
    split
    · exact ⟨rfl, congrArg (shiftRight · _) (unpack_frac_xor n2)⟩
    · exact ⟨rfl, unpack_frac_xor n2⟩
  constructor
  · exact same ▸ aligns.exp
  · rw [same]
    exact aligns.frac
  · rw [same', unpack_frac_xor]
    exact aligns.frac'

private theorem sysCalc_minus (n1 n2 : U32) :
    sysCalc n1 n2 '-' = sysCalc n1 (n2 ^^^ 0x80000000#32) '+' := by
  obtain ⟨exponent, shift, shift', aligns, most, _⟩ := exists_alignsTo n1 n2
  have isAdded : addedSign (n2 ^^^ 0x80000000#32) '+' = addedSign n2 '-' := negative_xor n2
  rw [sysCalc_sum (.inr rfl) aligns most, sysCalc_sum (.inl rfl) aligns.xor most, signedSum,
    signedSum, isAdded, fraction_xor]

/-! ## Operands in the other order -/

private theorem sysCalc_plus_comm (n1 n2 : U32) : sysCalc n1 n2 '+' = sysCalc n2 n1 '+' := by
  obtain ⟨exponent, shift, shift', aligns, most, _⟩ := exists_alignsTo n1 n2
  rw [sysCalc_sum (.inl rfl) aligns most, sysCalc_sum (.inl rfl) aligns.swap most, signedSum,
    signedSum, add_comm]
  rfl

private theorem times_comm (first second : Parts) : times first second = times second first := by
  rw [times, times, BitVec.add_comm, BitVec.mul_comm, BitVec.xor_comm]

theorem sysCalc_times_comm (n1 n2 : U32) : sysCalc n1 n2 '*' = sysCalc n2 n1 '*' := by
  change reconstruct (times (unpack n1) (unpack n2)) = reconstruct (times (unpack n2) (unpack n1))
  rw [times_comm]

private theorem signedSum_swap (n1 n2 : U32) (shift shift' : ℕ) :
    signedSum n2 n1 '-' shift' shift = -signedSum n1 n2 '-' shift shift' := by
  have isAdded : addedSign n1 '-' = !negative n1 := rfl
  have isAdded' : addedSign n2 '-' = !negative n2 := rfl
  rw [signedSum, signedSum, isAdded, isAdded', signed_not, signed_not]
  ring

/-- A call gets to the error for results out of range. -/
def RangeError (n1 n2 : U32) (op : Char) : Prop :=
  ∃ parts pos, computed n1 n2 op = .ok (some parts) ∧
    leadingOne parts.frac loopRounds 32 = .ok pos ∧ OutOfRange (fit pos parts)

private theorem rangeError_iff {parts : Parts} {exponent : ℤ}
    (computes : computed n1 n2 op = .ok (some parts)) (nonzero : parts.frac.toNat ≠ 0)
    (hasExponent : HasExponent parts exponent) (least : -1000000 ≤ exponent)
    (most : exponent ≤ 1000000) :
    RangeError n1 n2 op ↔ exponent + parts.frac.toNat.log2 - 23 < 0 ∨
      255 < exponent + parts.frac.toNat.log2 - 23 ∨
      exponent + parts.frac.toNat.log2 - 23 = 255 ∧ fitted parts.frac.toNat ≠ 8388608 := by
  have bits : parts.frac.toNat.log2 < 32 := (Nat.log2_lt nonzero).mpr parts.frac.isLt
  have bounds := fitted_bounds nonzero
  have isFrac := toNat_fit_frac nonzero
  have ranges := outOfRange_iff (hasExponent_fit nonzero hasExponent) (by omega) (by omega)
    (by omega) (by omega)
  rw [isFrac] at ranges
  rw [← ranges]
  constructor
  · rintro ⟨parts', pos, computes', leads, outOfRange⟩
    obtain rfl : parts = parts' := Option.some.inj (Except.ok.inj (computes.symm.trans computes'))
    rw [leadingOne_loopRounds nonzero] at leads
    exact Except.ok.inj leads ▸ outOfRange
  · intro outOfRange
    exact ⟨parts, _, computes, leadingOne_loopRounds nonzero, outOfRange⟩

/-- A result in range with the other sign is the same but for the sign bit. -/
theorem outcome_not {isNegative : Bool} {exponent : ℤ} {frac : ℕ}
    (inRange : ¬ (exponent < 0 ∨ 255 < exponent ∨ exponent = 255 ∧ frac ≠ 8388608))
    (low : 8388608 ≤ frac) (high : frac < 16777216) :
    outcome (!isNegative) exponent frac = outcome isNegative exponent frac ^^^ 0x80000000#32 := by
  rw [outcome, outcome, if_neg inRange, if_neg inRange, encode_xor (by omega) (by omega)]

private theorem sysCalc_minus_swap {r : U32} (returns : sysCalc n1 n2 '-' = .ok r)
    (noError : ¬ RangeError n1 n2 '-') : sysCalc n2 n1 '-' = .ok (r ^^^ 0x80000000#32) := by
  obtain ⟨exponent, shift, shift', aligns, most, _⟩ := exists_alignsTo n1 n2
  obtain ⟨parts, sign, computes, stands⟩ := computed_stands (.inr rfl) aligns
  have isSum := sysCalc_sum (.inr rfl) aligns most
  rw [returns] at isSum
  rw [sysCalc_sum (.inr rfl) aligns.swap most, signedSum_swap]
  have isFrac : parts.frac.toNat = (signedSum n1 n2 '-' shift shift').natAbs :=
    Int.ofNat_inj.mp (stands.toNat_frac.trans (Int.abs_eq_natAbs _))
  generalize signedSum n1 n2 '-' shift shift' = total at *
  by_cases zero : total = 0
  · rw [normalized, if_pos zero] at isSum
    cases isSum
  · have bounds := fitted_bounds (Int.natAbs_ne_zero.mpr zero)
    have isNegative : decide (-total < 0) = !decide (total < 0) := by
      rw [Bool.eq_iff_iff, Bool.not_eq_true', decide_eq_true_iff, decide_eq_false_iff_not]
      omega
    rw [rangeError_iff computes (by omega) stands.exp.hasExponent (by omega) (by omega),
      isFrac] at noError
    rw [normalized, if_neg zero] at isSum
    rw [normalized, if_neg (neg_ne_zero.mpr zero), Int.natAbs_neg, isNegative,
      outcome_not noError bounds.1 bounds.2, Except.ok.inj isSum]

/-! ## The laws -/

/-- The sign cases of sums and differences agree, and operands can be exchanged. -/
theorem sysCalc_signs (n1 n2 : U32) :
    sysCalc n1 n2 '-' = sysCalc n1 (n2 ^^^ 0x80000000#32) '+' ∧
      sysCalc n1 n2 '+' = sysCalc n2 n1 '+' ∧
      sysCalc n1 n2 '*' = sysCalc n2 n1 '*' ∧
      ∀ r, sysCalc n1 n2 '-' = .ok r → ¬ RangeError n1 n2 '-' ∧ ¬ RangeError n2 n1 '-' →
        sysCalc n2 n1 '-' = .ok (r ^^^ 0x80000000#32) := by
  refine ⟨sysCalc_minus n1 n2, sysCalc_plus_comm n1 n2, sysCalc_times_comm n1 n2, ?_⟩
  rintro r returns ⟨noError, _⟩
  exact sysCalc_minus_swap returns noError

private theorem not_rangeError_half {isNegative : Bool}
    (computes : computed n1 n2 op = .ok (some ⟨0, 4194304, bit isNegative⟩)) :
    ¬ RangeError n1 n2 op := by
  have isLog : Nat.log2 4194304 = 22 := by decide
  have isFrac : (4194304 : U32).toNat = 4194304 := rfl
  have nonzero : (4194304 : U32).toNat ≠ 0 := by decide
  rw [@rangeError_iff n1 n2 op _ 127 computes nonzero rfl (by decide) (by decide)]
  simp only [isFrac, isLog]
  norm_num

/-- One and a half less one is a half, and one less one and a half its negation. -/
theorem sysCalc_signs_half : sysCalc 0x3fc00000 0x3f800000 '-' = .ok 0x3f000000 ∧
    sysCalc 0x3f800000 0x3fc00000 '-' = .ok (0x3f000000 ^^^ 0x80000000#32) := by
  have half : sysCalc 0x3fc00000 0x3f800000 '-' = .ok 0x3f000000 := by decide +kernel
  obtain ⟨_, _, _, flips⟩ := sysCalc_signs 0x3fc00000 0x3f800000
  refine ⟨half, flips _ half ⟨?_, ?_⟩⟩
  · exact @not_rangeError_half _ _ _ false rfl
  · exact @not_rangeError_half _ _ _ true rfl

end Rtes.Calc
