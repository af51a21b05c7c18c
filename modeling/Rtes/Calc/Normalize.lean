import Rtes.Calc.Core
import Rtes.Transition.Reach
import Rtes.Word.Binary32

/-!
# Taking numbers apart and putting them together

The parts of an operand are the fields of the format, with a leading one put
before every fraction.  A fraction that is not zero is normalized to the format
with its excess bits cut off, and the result is put together as long as its
exponent fits.
-/

namespace Rtes.Calc

open Rtes.Binary32 Rtes.Reservation Rtes.Transition

/-! ## Operands -/

theorem toNat_unpack_frac (n : U32) : (unpack n).frac.toNat = 8388608 + fraction n := by
  have lead : (shiftLeft 1 fracDigit).toNat = 2 ^ 23 * 1 := by decide
  have field : ((n &&& fracMask) >>> fracShift).toNat = fraction n := toNat_fractionField n
  have bound := fraction_lt n
  simp only [unpack]
  rw [BitVec.toNat_or, field, lead, Nat.or_comm, ← Nat.two_pow_add_eq_or_of_lt (by omega)]

theorem toNat_unpack_sign (n : U32) :
    (unpack n).sign.toNat = if negative n then 1 else 0 :=
  toNat_signField n

/-- The exponent of a part stands for a biased exponent. -/
def HasExp (parts : Parts) (exponent : ℕ) : Prop :=
  parts.exp.toNat = (exponent + 4294967169) % 4294967296

theorem hasExp_unpack (n : U32) : HasExp (unpack n) (biased n) := by
  have field : ((n &&& expMask) >>> expShift).toNat = biased n := toNat_exponentField n
  have bias : expBias.toNat = 127 := rfl
  simp only [HasExp, unpack]
  rw [BitVec.toNat_sub, field, bias]
  congr 1
  omega

/-- The same for a biased exponent that may be out of range. -/
def HasExponent (parts : Parts) (exponent : ℤ) : Prop :=
  (parts.exp.toNat : ℤ) = (exponent - 127) % 4294967296

theorem HasExp.hasExponent {parts : Parts} {exponent : ℕ} (hasExp : HasExp parts exponent) :
    HasExponent parts exponent := by
  unfold HasExp at hasExp
  unfold HasExponent
  omega

/-! ## What is normalized -/

/-- The parts that a call computes before it normalizes them, if it does not
return an error before. -/
def computed (n1 n2 : U32) (op : Char) : Except Fault (Option Parts) :=
  let first := unpack n1
  let second := unpack n2
  if op = '+' then
    let (first, second) := align first second
    .ok (some (plus first second))
  else if op = '-' then
    let (first, second) := align first second
    .ok (some (minus first second))
  else if op = '*' then
    .ok (some (times first second))
  else if op = '/' then
    divide first second
  else
    .ok none

theorem sysCalc_of_computed {n1 n2 : U32} {op : Char} {parts : Parts}
    (computes : computed n1 n2 op = .ok (some parts)) :
    sysCalc n1 n2 op = reconstruct parts := by
  unfold computed at computes
  unfold sysCalc
  dsimp only at computes ⊢
  split_ifs at computes ⊢
  · cases computes
    rfl
  · cases computes
    rfl
  · cases computes
    rfl
  · rw [computes]
    rfl
  · cases computes

/-! ## The leading one -/

section LeadingOne

variable {frac : U32}

private theorem toNat_shiftLeft_one {k : ℕ} (small : k < 256) :
    (shiftLeft 1 (BitVec.ofNat 32 k)).toNat = 2 ^ k % 4294967296 := by
  have amount : (BitVec.ofNat 32 k).toNat % 256 = k := by
    rw [BitVec.toNat_ofNat]
    omega
  rw [shiftLeft, amount, BitVec.toNat_shiftLeft]
  change 1 <<< k % _ = _
  rw [Nat.one_shiftLeft]

/-- The test of the loop looks at one bit. -/
theorem and_shiftLeft_one_ne_zero_iff {k : ℕ} (le : k ≤ 32) :
    frac &&& shiftLeft 1 (BitVec.ofNat 32 k) ≠ 0 ↔ frac.toNat.testBit k = true := by
  have bound := frac.isLt
  have test : frac &&& shiftLeft 1 (BitVec.ofNat 32 k) = 0 ↔
      (frac &&& shiftLeft 1 (BitVec.ofNat 32 k)).toNat = 0 := BitVec.toNat_inj.symm
  rw [Ne, test, BitVec.toNat_and, toNat_shiftLeft_one (by omega)]
  rcases Nat.lt_or_eq_of_le le with less | rfl
  · have power : 2 ^ k % 4294967296 = 2 ^ k :=
      Nat.mod_eq_of_lt (Nat.pow_lt_pow_right (by decide) less)
    rw [power, Nat.and_two_pow]
    cases frac.toNat.testBit k with
    | true => simp
    | false => simp
  · rw [Nat.testBit_lt_two_pow bound]
    simp

/-- The search ends at the leading one. -/
theorem leadingOne_eq (nonzero : frac.toNat ≠ 0) {rounds k : ℕ} (le : k ≤ 32)
    (above : frac.toNat.log2 ≤ k) (enough : k < rounds + frac.toNat.log2) :
    leadingOne frac rounds (BitVec.ofNat 32 k) = .ok (BitVec.ofNat 32 frac.toNat.log2) := by
  induction rounds generalizing k with
  | zero => omega
  | succ rounds ih =>
      rw [leadingOne]
      rcases Nat.lt_or_eq_of_le above with less | rfl
      · have clear : ¬ frac &&& shiftLeft 1 (BitVec.ofNat 32 k) ≠ 0 := by
          rw [and_shiftLeft_one_ne_zero_iff le]
          have high := (Nat.log2_lt nonzero).mp less
          rw [Nat.testBit_lt_two_pow high]
          exact Bool.false_ne_true
        have next : BitVec.ofNat 32 k - 1 = BitVec.ofNat 32 (k - 1) := by
          apply BitVec.eq_of_toNat_eq
          rw [BitVec.toNat_sub, BitVec.toNat_ofNat, BitVec.toNat_ofNat]
          change (4294967296 - 1 + k % 4294967296) % 4294967296 = (k - 1) % 4294967296
          omega
        rw [if_neg clear, next]
        exact ih (by omega) (by omega) (by omega)
      · have set : frac &&& shiftLeft 1 (BitVec.ofNat 32 frac.toNat.log2) ≠ 0 := by
          rw [and_shiftLeft_one_ne_zero_iff le]
          exact Nat.testBit_log2 nonzero
        rw [if_pos set]

theorem leadingOne_loopRounds (nonzero : frac.toNat ≠ 0) :
    leadingOne frac loopRounds 32 = .ok (BitVec.ofNat 32 frac.toNat.log2) := by
  have bits : frac.toNat.log2 < 32 := (Nat.log2_lt nonzero).mpr frac.isLt
  exact leadingOne_eq (k := 32) nonzero le_rfl bits.le (by unfold loopRounds; omega)

end LeadingOne

/-! ## Results -/

section Reconstruct

variable {parts : Parts} {isNegative : Bool} {exponent : ℕ}

/-- A fraction shifted to 24 bits. -/
def fitted (frac : ℕ) : ℕ :=
  frac * 8388608 / 2 ^ frac.log2

theorem fitted_bounds {frac : ℕ} (nonzero : frac ≠ 0) :
    8388608 ≤ fitted frac ∧ fitted frac < 16777216 := by
  have low := Nat.log2_self_le nonzero
  have high := @Nat.lt_log2_self frac
  have positive : 0 < 2 ^ frac.log2 := by positivity
  rw [Nat.pow_succ] at high
  constructor
  · rw [fitted, Nat.le_div_iff_mul_le positive]
    nlinarith
  · rw [fitted, Nat.div_lt_iff_lt_mul positive]
    nlinarith

theorem fitted_of_le {frac : ℕ} (le : frac.log2 ≤ 23) :
    fitted frac = frac * 2 ^ (23 - frac.log2) := by
  have split : 8388608 = 2 ^ (23 - frac.log2) * 2 ^ frac.log2 := by
    rw [← Nat.pow_add, Nat.sub_add_cancel le]
  rw [fitted, split, ← Nat.mul_assoc, Nat.mul_div_cancel _ (by positivity)]

theorem fitted_of_lt {frac : ℕ} (less : 23 < frac.log2) :
    fitted frac = frac / 2 ^ (frac.log2 - 23) := by
  have split : 2 ^ frac.log2 = 2 ^ (frac.log2 - 23) * 8388608 := by
    rw [show 8388608 = 2 ^ 23 from rfl, ← Nat.pow_add, Nat.sub_add_cancel less.le]
  rw [fitted, split, Nat.mul_div_mul_right _ _ (by decide)]

/-- A fraction of at most 24 bits keeps its value. -/
theorem fitted_mul_zpow {frac : ℕ} (le : frac.log2 ≤ 23) (exponent : ℤ) :
    (fitted frac : ℚ) * 2 ^ (exponent + frac.log2 - 23) = frac * 2 ^ exponent := by
  have power : (2 : ℚ) ^ exponent =
      2 ^ (23 - frac.log2) * 2 ^ (exponent + frac.log2 - 23) := by
    rw [← zpow_natCast, ← zpow_add₀ two_ne_zero]
    congr 1
    omega
  rw [fitted_of_le le, power, ← mul_assoc]
  push_cast
  rfl

section Fit

variable {exponent : ℤ}

theorem toNat_leadingBit (nonzero : parts.frac.toNat ≠ 0) :
    (BitVec.ofNat 32 parts.frac.toNat.log2).toNat = parts.frac.toNat.log2 := by
  have bits : parts.frac.toNat.log2 < 32 := (Nat.log2_lt nonzero).mpr parts.frac.isLt
  rw [BitVec.toNat_ofNat]
  omega

theorem fracDigit_lt_iff (nonzero : parts.frac.toNat ≠ 0) :
    fracDigit < BitVec.ofNat 32 parts.frac.toNat.log2 ↔ 23 < parts.frac.toNat.log2 := by
  rw [BitVec.lt_def, toNat_leadingBit nonzero]
  rfl

/-- The leading one is at bit 23 afterwards. -/
theorem toNat_fit_frac (nonzero : parts.frac.toNat ≠ 0) :
    (fit (BitVec.ofNat 32 parts.frac.toNat.log2) parts).frac.toNat = fitted parts.frac.toNat := by
  have bits : parts.frac.toNat.log2 < 32 := (Nat.log2_lt nonzero).mpr parts.frac.isLt
  have fits := fitted_bounds nonzero
  have isBit := toNat_leadingBit nonzero
  have digit : fracDigit.toNat = 23 := rfl
  by_cases less : 23 < parts.frac.toNat.log2
  · have amount : (BitVec.ofNat 32 parts.frac.toNat.log2 - fracDigit).toNat =
        parts.frac.toNat.log2 - 23 := by
      rw [BitVec.toNat_sub, isBit, digit]
      omega
    rw [fit, if_pos ((fracDigit_lt_iff nonzero).mpr less), fitted_of_lt less, shiftRight, amount,
      Nat.mod_eq_of_lt (by omega), BitVec.toNat_ushiftRight, Nat.shiftRight_eq_div_pow]
  · have amount : (fracDigit - BitVec.ofNat 32 parts.frac.toNat.log2).toNat =
        23 - parts.frac.toNat.log2 := by
      rw [BitVec.toNat_sub, isBit, digit]
      omega
    rw [fit, if_neg (mt (fracDigit_lt_iff nonzero).mp less)]
    rw [fitted_of_le (not_lt.mp less)] at fits ⊢
    rw [shiftLeft, amount, Nat.mod_eq_of_lt (by omega), BitVec.toNat_shiftLeft, Nat.shiftLeft_eq]
    exact Nat.mod_eq_of_lt (by omega)

/-- The exponent has changed by as much as the fraction was shifted. -/
theorem hasExponent_fit (nonzero : parts.frac.toNat ≠ 0)
    (hasExponent : HasExponent parts exponent) :
    HasExponent (fit (BitVec.ofNat 32 parts.frac.toNat.log2) parts)
      (exponent + parts.frac.toNat.log2 - 23) := by
  have bits : parts.frac.toNat.log2 < 32 := (Nat.log2_lt nonzero).mpr parts.frac.isLt
  have isBit := toNat_leadingBit nonzero
  have digit : fracDigit.toNat = 23 := rfl
  have bound := parts.exp.isLt
  unfold HasExponent at hasExponent ⊢
  by_cases less : 23 < parts.frac.toNat.log2
  · rw [fit, if_pos ((fracDigit_lt_iff nonzero).mpr less), BitVec.toNat_add, BitVec.toNat_sub,
      isBit, digit]
    omega
  · rw [fit, if_neg (mt (fracDigit_lt_iff nonzero).mp less), BitVec.toNat_sub, BitVec.toNat_sub,
      isBit, digit]
    omega

end Fit

private theorem toNat_removeLead {frac : U32} (low : 8388608 ≤ frac.toNat)
    (high : frac.toNat < 16777216) :
    (frac &&& ~~~(shiftLeft 1 fracDigit)).toNat = frac.toNat - 8388608 := by
  obtain ⟨rest, isFrac⟩ := Nat.exists_eq_add_of_le low
  have mask : (~~~(shiftLeft 1 fracDigit)).toNat = 4286578687 := by decide
  have small : rest < 2 ^ 23 := by omega
  have split : 8388608 + rest = 2 ^ 23 * 1 ||| rest := Nat.two_pow_add_eq_or_of_lt small 1
  have lead : 2 ^ 23 * 1 &&& 4286578687 = 0 := by decide
  have masks : (2 ^ 23 - 1) &&& 4286578687 = 2 ^ 23 - 1 := by decide
  have bits : rest &&& (2 ^ 23 - 1) = rest := by
    rw [Nat.and_two_pow_sub_one_eq_mod]
    omega
  have kept : rest &&& 4286578687 = rest := by
    rw [← bits, Nat.and_assoc, masks]
  rw [BitVec.toNat_and, mask, isFrac, split, Nat.and_or_distrib_right, lead, Nat.zero_or, kept,
    ← split, Nat.add_sub_cancel_left]

/-- What is returned for a result with a biased exponent and a fraction of 24
bits: the number with these parts, or an error if the exponent is out of range or
that of the numbers that are none. -/
def outcome (isNegative : Bool) (exponent : ℤ) (frac : ℕ) : U32 :=
  if exponent < 0 ∨ 255 < exponent ∨ exponent = 255 ∧ frac ≠ 8388608 then einval
  else encode isNegative exponent.toNat (frac - 8388608)

private theorem outcome_of_le {exponent : ℤ} {frac : ℕ} (least : 0 ≤ exponent)
    (most : exponent ≤ 254) :
    outcome isNegative exponent frac = encode isNegative exponent.toNat (frac - 8388608) := by
  rw [outcome, if_neg (by omega)]

/-- In the range of the normal numbers the result is the number with these
parts. -/
theorem outcome_normal {exponent : ℤ} {frac : ℕ} (least : 1 ≤ exponent) (most : exponent ≤ 254)
    (low : 8388608 ≤ frac) (high : frac < 16777216) :
    Normal (outcome isNegative exponent frac) ∧
      negative (outcome isNegative exponent frac) = isNegative ∧
      value (outcome isNegative exponent frac) =
        signed isNegative (frac : ℚ) * 2 ^ (exponent - 150) := by
  obtain ⟨natural, rfl⟩ := Int.eq_ofNat_of_zero_le (show 0 ≤ exponent by omega)
  rw [outcome_of_le (by omega) (by omega), Int.toNat_natCast]
  refine ⟨normal_encode (by omega) (by omega) (by omega),
    negative_encode (by omega) (by omega), ?_⟩
  rw [value_encode (by omega) (by omega) (by omega), Nat.add_sub_cancel' low]

/-- The test for which `pack` returns an error. -/
def OutOfRange (parts : Parts) : Prop :=
  expMax < parts.exp + expBias ∨
    parts.exp + expBias = expMax ∧ parts.frac &&& ~~~(shiftLeft 1 fracDigit) ≠ 0

section Pack

variable {exponent : ℤ} (hasExponent : HasExponent parts exponent)
  (least : -2147483648 ≤ exponent) (most : exponent ≤ 2147483647)
  (low : 8388608 ≤ parts.frac.toNat) (high : parts.frac.toNat < 16777216)

include hasExponent in
private theorem toNat_exp_add_bias : ((parts.exp + expBias).toNat : ℤ) = exponent % 4294967296 := by
  have bias : expBias.toNat = 127 := rfl
  unfold HasExponent at hasExponent
  rw [BitVec.toNat_add, bias]
  omega

include hasExponent least most low high

/-- Exponents are compared as unsigned words, in which those that are negative are
too large. -/
theorem outOfRange_iff : OutOfRange parts ↔
    exponent < 0 ∨ 255 < exponent ∨ exponent = 255 ∧ parts.frac.toNat ≠ 8388608 := by
  have isExp := toNat_exp_add_bias hasExponent
  have exceeds : expMax < parts.exp + expBias ↔ 255 < (parts.exp + expBias).toNat := BitVec.lt_def
  have reaches : parts.exp + expBias = expMax ↔ (parts.exp + expBias).toNat = 255 :=
    BitVec.toNat_inj.symm
  have whole : parts.frac &&& ~~~(shiftLeft 1 fracDigit) ≠ 0 ↔ parts.frac.toNat ≠ 8388608 := by
    rw [Ne, ← BitVec.toNat_inj, toNat_removeLead low high]
    change ¬ parts.frac.toNat - 8388608 = 0 ↔ _
    omega
  rw [OutOfRange, exceeds, reaches, whole]
  omega

private theorem pack_outcome (isSign : parts.sign.toNat = if isNegative then 1 else 0) :
    pack parts = outcome isNegative exponent parts.frac.toNat := by
  have removed := toNat_removeLead low high
  have isExp := toNat_exp_add_bias hasExponent
  have ranges := outOfRange_iff hasExponent least most low high
  simp only [pack]
  by_cases rejected : OutOfRange parts
  · rw [outcome, if_pos (ranges.mp rejected)]
    rcases rejected with exceeds | infinite
    · rw [if_pos exceeds]
    · rw [if_neg (infinite.1 ▸ BitVec.lt_irrefl _), if_pos infinite]
  · have inRange := mt ranges.mpr rejected
    have isExponent : exponent.toNat = (parts.exp + expBias).toNat := by omega
    rw [outcome, if_neg inRange, if_neg fun exceeds => rejected (.inl exceeds),
      if_neg fun infinite => rejected (.inr infinite), ← removed, isExponent]
    exact or_fields isSign (by omega) (by omega)

end Pack

/-- A fraction that is not zero is normalized. -/
theorem reconstruct_outcome {exponent : ℤ} (nonzero : parts.frac.toNat ≠ 0)
    (hasExponent : HasExponent parts exponent) (least : -1000000 ≤ exponent)
    (most : exponent ≤ 1000000) (isSign : parts.sign.toNat = if isNegative then 1 else 0) :
    reconstruct parts = .ok (outcome isNegative (exponent + parts.frac.toNat.log2 - 23)
      (fitted parts.frac.toNat)) := by
  have bits : parts.frac.toNat.log2 < 32 := (Nat.log2_lt nonzero).mpr parts.frac.isLt
  have leads := leadingOne_loopRounds nonzero
  have bounds := fitted_bounds nonzero
  have isFrac := toNat_fit_frac nonzero
  have sign : (fit (BitVec.ofNat 32 parts.frac.toNat.log2) parts).sign = parts.sign := by
    unfold fit
    split
    · rfl
    · rfl
  rw [reconstruct, leads, ok_bind, pack_outcome (hasExponent_fit nonzero hasExponent) (by omega)
    (by omega) (by omega) (by omega) (sign ▸ isSign), isFrac]

/-- The result is a number, if its exponent stays in range. -/
theorem reconstruct_eq (nonzero : parts.frac.toNat ≠ 0) (hasExp : HasExp parts exponent)
    (isSign : parts.sign.toNat = if isNegative then 1 else 0)
    (least : 23 ≤ exponent + parts.frac.toNat.log2)
    (most : exponent + parts.frac.toNat.log2 - 23 ≤ 254) :
    reconstruct parts = .ok (encode isNegative (exponent + parts.frac.toNat.log2 - 23)
      (fitted parts.frac.toNat - 8388608)) := by
  have natural : ((exponent : ℤ) + parts.frac.toNat.log2 - 23).toNat =
      exponent + parts.frac.toNat.log2 - 23 := by omega
  rw [reconstruct_outcome nonzero hasExp.hasExponent (by omega) (by omega) isSign,
    outcome_of_le (by omega) (by omega), natural]

end Reconstruct

end Rtes.Calc
