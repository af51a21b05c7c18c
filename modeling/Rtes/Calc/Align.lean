import Rtes.Calc.Normalize

/-!
# Signed sums of aligned fractions

The fractions of two operands are shifted to one exponent and added with their
signs.  The exponents are compared as unsigned words, so that the alignment is
to the greater exponent only if both are on the same side of zero.
-/

namespace Rtes.Calc

open Rtes.Binary32 Rtes.Reservation Rtes.Transition

/-! ## Signs -/

/-- A sign bit. -/
def bit (isNegative : Bool) : U32 :=
  if isNegative then 1 else 0

theorem toNat_bit (isNegative : Bool) :
    (bit isNegative).toNat = if isNegative then 1 else 0 := by
  cases isNegative with
  | true => rfl
  | false => rfl

private theorem bit_eq_zero_iff {isNegative : Bool} : bit isNegative = 0 ↔ isNegative = false := by
  cases isNegative with
  | true => decide
  | false => decide

theorem bit_xor (a b : Bool) : bit a ^^^ bit b = bit (a ^^ b) := by
  cases a with
  | true =>
      cases b with
      | true => rfl
      | false => rfl
  | false =>
      cases b with
      | true => rfl
      | false => rfl

theorem unpack_sign (n : U32) : (unpack n).sign = bit (negative n) :=
  BitVec.eq_of_toNat_eq ((toNat_unpack_sign n).trans (toNat_bit _).symm)

/-- The parts stand for a signed fraction with an exponent. -/
structure Stands (parts : Parts) (exponent : ℕ) (isNegative : Bool) (total : ℤ) : Prop where
  exp : HasExp parts exponent
  sign : parts.sign.toNat = if isNegative then 1 else 0
  frac : signed isNegative (parts.frac.toNat : ℤ) = total

private theorem cast_toNat_sub {x y : U32} (le : y.toNat ≤ x.toNat) :
    ((x - y).toNat : ℤ) = x.toNat - y.toNat := by
  have bound := x.isLt
  rw [BitVec.toNat_sub]
  omega

section Signs

variable {first second : Parts} {exponent : ℕ} {a b : Bool} (hasExp : HasExp first exponent)

include hasExp

theorem difference_stands (isNegative : Bool) : ∃ sign,
    Stands (difference first second (bit isNegative) (bit !isNegative)) exponent sign
      (signed isNegative (first.frac.toNat : ℤ) +
        signed (!isNegative) (second.frac.toNat : ℤ)) := by
  unfold difference
  split
  · rename_i greater
    refine ⟨isNegative, hasExp, toNat_bit _, ?_⟩
    rw [cast_toNat_sub (BitVec.lt_def.mp greater).le, signed_sub, signed_not, sub_eq_add_neg]
  · rename_i other
    refine ⟨!isNegative, hasExp, toNat_bit _, ?_⟩
    rw [cast_toNat_sub (not_lt.mp fun less => other (BitVec.lt_def.mpr less)), signed_sub,
      signed_not, signed_not, sub_neg_eq_add, add_comm]

variable (few : first.frac.toNat < 16777216) (few' : second.frac.toNat < 16777216)

include few few'

theorem sum_stands (isNegative : Bool) :
    Stands ⟨first.exp, first.frac + second.frac, bit isNegative⟩ exponent isNegative
      (signed isNegative (first.frac.toNat : ℤ) + signed isNegative (second.frac.toNat : ℤ)) := by
  refine ⟨hasExp, toNat_bit _, ?_⟩
  rw [BitVec.toNat_add, Nat.mod_eq_of_lt (by omega), ← signed_add]
  rfl

variable (isSign : first.sign = bit a) (isSign' : second.sign = bit b)

include isSign isSign'

/-- The sum by sign cases is the signed sum. -/
theorem plus_stands : ∃ sign, Stands (plus first second) exponent sign
    (signed a (first.frac.toNat : ℤ) + signed b (second.frac.toNat : ℤ)) := by
  simp only [plus, isSign, isSign', ne_eq, bit_eq_zero_iff]
  cases a with
  | true =>
      cases b with
      | true => exact ⟨true, sum_stands hasExp few few' true⟩
      | false => exact difference_stands hasExp true
  | false =>
      cases b with
      | true => exact difference_stands hasExp false
      | false => exact ⟨false, sum_stands hasExp few few' false⟩

/-- The difference by sign cases is the signed difference. -/
theorem minus_stands : ∃ sign, Stands (minus first second) exponent sign
    (signed a (first.frac.toNat : ℤ) + signed (!b) (second.frac.toNat : ℤ)) := by
  simp only [minus, isSign, isSign', ne_eq, bit_eq_zero_iff]
  cases a with
  | true =>
      cases b with
      | true => exact difference_stands hasExp true
      | false => exact ⟨true, sum_stands hasExp few few' true⟩
  | false =>
      cases b with
      | true => exact ⟨false, sum_stands hasExp few few' false⟩
      | false => exact difference_stands hasExp false

end Signs

namespace Stands

variable {parts : Parts} {exponent : ℕ} {isNegative : Bool} {total : ℤ}
  (stands : Stands parts exponent isNegative total)

include stands

theorem cast_frac : signed isNegative (parts.frac.toNat : ℚ) = total := by
  rw [← stands.frac, cast_signed]
  rfl

theorem toNat_frac : (parts.frac.toNat : ℤ) = |total| := by
  rw [← stands.frac, abs_signed, Nat.abs_cast]

end Stands

/-! ## Alignment -/

theorem toNat_shiftRight (x amount : U32) :
    (shiftRight x amount).toNat = x.toNat / 2 ^ (amount.toNat % 256) := by
  rw [shiftRight, BitVec.toNat_ushiftRight, Nat.shiftRight_eq_div_pow]

section Align

variable {first second : Parts} {e e' : ℕ}

private theorem align_sign : (align first second).1.sign = first.sign ∧
    (align first second).2.sign = second.sign := by
  unfold align
  split
  · exact ⟨rfl, rfl⟩
  · exact ⟨rfl, rfl⟩

/-- The alignment does not depend on the order of the operands. -/
theorem align_swap : align second first = ((align first second).2, (align first second).1) := by
  have unshifted : ∀ frac : U32, shiftRight frac 0#32 = frac := fun frac =>
    BitVec.ushiftRight_zero frac
  unfold align
  by_cases less : second.exp < first.exp
  · rw [if_neg (BitVec.lt_asymm less), if_pos less]
  · by_cases greater : first.exp < second.exp
    · rw [if_pos greater, if_neg less]
    · have same : second.exp = first.exp :=
        BitVec.le_antisymm (BitVec.not_lt.mp greater) (BitVec.not_lt.mp less)
      rw [if_neg greater, if_neg less, same, BitVec.sub_self]
      simp only [unshifted]
      exact Prod.ext (by rw [← same]) rfl

private theorem align_exp : (align first second).2.exp = (align first second).1.exp := by
  unfold align
  split
  · rfl
  · rfl

private theorem align_frac_le : (align first second).1.frac.toNat ≤ first.frac.toNat ∧
    (align first second).2.frac.toNat ≤ second.frac.toNat := by
  unfold align
  split
  · refine ⟨le_rfl, ?_⟩
    dsimp only
    rw [toNat_shiftRight]
    exact Nat.div_le_self _ _
  · refine ⟨?_, le_rfl⟩
    dsimp only
    rw [toNat_shiftRight]
    exact Nat.div_le_self _ _

/-- What an alignment gives: the common exponent, and how far each fraction is
shifted. -/
structure AlignsTo (first second : Parts) (exponent shift shift' : ℕ) : Prop where
  exp : HasExp (align first second).1 exponent
  frac : (align first second).1.frac.toNat = first.frac.toNat / 2 ^ shift
  frac' : (align first second).2.frac.toNat = second.frac.toNat / 2 ^ shift'

theorem AlignsTo.swap {exponent shift shift' : ℕ}
    (aligns : AlignsTo first second exponent shift shift') :
    AlignsTo second first exponent shift' shift := by
  constructor
  · rw [align_swap, HasExp, align_exp]
    exact aligns.exp
  · rw [align_swap]
    exact aligns.frac'
  · rw [align_swap]
    exact aligns.frac

variable (hasExp : HasExp first e) (hasExp' : HasExp second e') (most : e < 256) (most' : e' < 256)

include hasExp hasExp' most most'

/-- The second fraction is shifted when the unsigned exponent of the first is
greater. -/
theorem alignsTo_first {shift : ℕ}
    (greater : (e' + 4294967169) % 4294967296 < (e + 4294967169) % 4294967296)
    (isShift : (e + 4294967296 - e') % 256 = shift) :
    AlignsTo first second e 0 shift := by
  have less : second.exp < first.exp := by
    rw [BitVec.lt_def, hasExp, hasExp']
    exact greater
  have amount : (first.exp - second.exp).toNat % 256 = shift := by
    rw [BitVec.toNat_sub, hasExp, hasExp']
    omega
  have aligned : align first second = (first, { second with
      frac := shiftRight second.frac (first.exp - second.exp)
      exp := first.exp }) := if_pos less
  constructor
  · rw [aligned]
    exact hasExp
  · rw [aligned, pow_zero, Nat.div_one]
  · rw [aligned]
    dsimp only
    rw [toNat_shiftRight, amount]

/-- The first fraction is shifted otherwise. -/
theorem alignsTo_second {shift : ℕ}
    (le : (e + 4294967169) % 4294967296 ≤ (e' + 4294967169) % 4294967296)
    (isShift : (e' + 4294967296 - e) % 256 = shift) :
    AlignsTo first second e' shift 0 := by
  have notLess : ¬ second.exp < first.exp := by
    rw [BitVec.lt_def, hasExp, hasExp']
    exact not_lt.mpr le
  have amount : (second.exp - first.exp).toNat % 256 = shift := by
    rw [BitVec.toNat_sub, hasExp, hasExp']
    omega
  have aligned : align first second = ({ first with
      frac := shiftRight first.frac (second.exp - first.exp)
      exp := second.exp }, second) := if_neg notLess
  constructor
  · rw [aligned]
    exact hasExp'
  · rw [aligned]
    dsimp only
    rw [toNat_shiftRight, amount]
  · rw [aligned, pow_zero, Nat.div_one]

end Align

section Operands

variable {n1 n2 : U32}

/-- On the same side of zero, the fractions are aligned to the greater exponent. -/
theorem alignsTo_of_le (same : 127 ≤ biased n1 ↔ 127 ≤ biased n2) (le : biased n1 ≤ biased n2) :
    AlignsTo (unpack n1) (unpack n2) (biased n2) (biased n2 - biased n1) 0 := by
  have most := biased_lt n1
  have most' := biased_lt n2
  exact alignsTo_second (hasExp_unpack n1) (hasExp_unpack n2) most most' (by omega) (by omega)

theorem alignsTo_of_ge (same : 127 ≤ biased n1 ↔ 127 ≤ biased n2) (le : biased n2 ≤ biased n1) :
    AlignsTo (unpack n1) (unpack n2) (biased n1) 0 (biased n1 - biased n2) := by
  have most := biased_lt n1
  have most' := biased_lt n2
  rcases Nat.lt_or_eq_of_le le with greater | equal
  · exact alignsTo_first (hasExp_unpack n1) (hasExp_unpack n2) most most' (by omega) (by omega)
  · rw [equal, Nat.sub_self]
    exact equal ▸ alignsTo_second (hasExp_unpack n1) (hasExp_unpack n2) most most' (by omega)
      (by omega)

/-- Across zero, the fraction with the greater exponent is shifted. -/
theorem alignsTo_across_lt (below : biased n1 < 127) (above : 127 ≤ biased n2) :
    AlignsTo (unpack n1) (unpack n2) (biased n1) 0 (256 - (biased n2 - biased n1)) := by
  have most := biased_lt n2
  exact alignsTo_first (hasExp_unpack n1) (hasExp_unpack n2) (by omega) most (by omega) (by omega)

theorem alignsTo_across_gt (above : 127 ≤ biased n1) (below : biased n2 < 127) :
    AlignsTo (unpack n1) (unpack n2) (biased n2) (256 - (biased n1 - biased n2)) 0 := by
  have most := biased_lt n1
  exact alignsTo_second (hasExp_unpack n1) (hasExp_unpack n2) most (by omega) (by omega) (by omega)

/-- One fraction at least is not shifted, and both are not if the exponents are the
same. -/
theorem exists_alignsTo (n1 n2 : U32) : ∃ exponent shift shift',
    AlignsTo (unpack n1) (unpack n2) exponent shift shift' ∧ exponent < 256 ∧
      (shift = 0 ∨ shift' = 0) ∧ (biased n1 = biased n2 ↔ shift = 0 ∧ shift' = 0) := by
  have most := biased_lt n1
  have most' := biased_lt n2
  by_cases same : 127 ≤ biased n1 ↔ 127 ≤ biased n2
  · rcases le_total (biased n1) (biased n2) with le | le
    · exact ⟨_, _, _, alignsTo_of_le same le, most', .inr rfl, by omega⟩
    · exact ⟨_, _, _, alignsTo_of_ge same le, most, .inl rfl, by omega⟩
  · rcases lt_or_ge (biased n1) 127 with below | above
    · exact ⟨_, _, _, alignsTo_across_lt below (by omega), most, .inl rfl, by omega⟩
    · exact ⟨_, _, _, alignsTo_across_gt above (by omega), most', .inr rfl, by omega⟩

/-- The sign with which the second operand is added. -/
def addedSign (n2 : U32) (op : Char) : Bool :=
  if op = '-' then !negative n2 else negative n2

/-- A sum or difference is normalized from the signed sum of the aligned fractions. -/
theorem computed_stands {op : Char} (isSum : op = '+' ∨ op = '-') {exponent shift shift' : ℕ}
    (aligns : AlignsTo (unpack n1) (unpack n2) exponent shift shift') :
    ∃ parts sign, computed n1 n2 op = .ok (some parts) ∧ Stands parts exponent sign
      (signed (negative n1) (((8388608 + fraction n1) / 2 ^ shift : ℕ) : ℤ) +
        signed (addedSign n2 op) (((8388608 + fraction n2) / 2 ^ shift' : ℕ) : ℤ)) := by
  obtain ⟨frac, frac'⟩ := @align_frac_le (unpack n1) (unpack n2)
  obtain ⟨sign, sign'⟩ := @align_sign (unpack n1) (unpack n2)
  rw [toNat_unpack_frac] at frac frac'
  rw [unpack_sign] at sign sign'
  have bound := fraction_lt n1
  have bound' := fraction_lt n2
  rw [← toNat_unpack_frac, ← toNat_unpack_frac, ← aligns.frac, ← aligns.frac']
  rcases isSum with rfl | rfl
  · obtain ⟨result, stands⟩ := plus_stands aligns.exp (by omega) (by omega) sign sign'
    exact ⟨_, result, rfl, stands⟩
  · obtain ⟨result, stands⟩ := minus_stands aligns.exp (by omega) (by omega) sign sign'
    exact ⟨_, result, rfl, stands⟩

end Operands

end Rtes.Calc
