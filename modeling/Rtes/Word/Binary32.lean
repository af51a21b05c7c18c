import Mathlib

/-!
# Numbers in single precision

A word of 32 bits is read as a sign, a biased exponent of 8 bits and a fraction
of 23 bits.  The value of a number is its significand in units of its last
place.
-/

namespace Rtes.Binary32

/-! ## Signs -/

/-- A magnitude with a sign. -/
def signed {α : Type*} [Neg α] (negative : Bool) (x : α) : α :=
  if negative then -x else x

section Signed

variable {negative : Bool}

@[simp]
theorem signed_true {α : Type*} [Neg α] (x : α) : signed true x = -x :=
  rfl

@[simp]
theorem signed_false {α : Type*} [Neg α] (x : α) : signed false x = x :=
  rfl

theorem signed_not {α : Type*} [InvolutiveNeg α] (negative : Bool) (x : α) :
    signed (!negative) x = -signed negative x := by
  cases negative with
  | true => exact (neg_neg x).symm
  | false => rfl

theorem signed_add {α : Type*} [SubtractionCommMonoid α] (negative : Bool) (x y : α) :
    signed negative (x + y) = signed negative x + signed negative y := by
  cases negative with
  | true => exact neg_add x y
  | false => rfl

theorem signed_sub {α : Type*} [SubtractionCommMonoid α] (negative : Bool) (x y : α) :
    signed negative (x - y) = signed negative x - signed negative y := by
  cases negative with
  | true => exact neg_sub' x y
  | false => rfl

theorem signed_mul {α : Type*} [Mul α] [HasDistribNeg α] (negative : Bool) (x y : α) :
    signed negative (x * y) = signed negative x * y := by
  cases negative with
  | true => exact (neg_mul x y).symm
  | false => rfl

theorem abs_signed {α : Type*} [AddGroup α] [LinearOrder α] (negative : Bool) (x : α) :
    |signed negative x| = |x| := by
  cases negative with
  | true => exact abs_neg x
  | false => rfl

theorem signed_inj {x : ℚ} (nonzero : x ≠ 0) {negative negative' : Bool}
    (same : signed negative x = signed negative' x) : negative = negative' := by
  have opposite : -x ≠ x := fun self => nonzero (self_eq_neg.mp self.symm)
  cases negative with
  | true =>
      cases negative' with
      | true => rfl
      | false => exact absurd same opposite
  | false =>
      cases negative' with
      | true => exact absurd same.symm opposite
      | false => rfl

theorem cast_signed (negative : Bool) (x : ℤ) :
    ((signed negative x : ℤ) : ℚ) = signed negative (x : ℚ) := by
  cases negative with
  | true => exact Int.cast_neg x
  | false => rfl

end Signed

/-! ## The format -/

variable {n : BitVec 32}

/-- Whether the sign bit is set. -/
def negative (n : BitVec 32) : Bool :=
  decide (2147483648 ≤ n.toNat)

/-- The biased exponent. -/
def biased (n : BitVec 32) : ℕ :=
  n.toNat / 8388608 % 256

/-- The fraction, without a leading one. -/
def fraction (n : BitVec 32) : ℕ :=
  n.toNat % 8388608

/-- A number that is neither subnormal nor zero, infinite or not a number. -/
structure Normal (n : BitVec 32) : Prop where
  least : 1 ≤ biased n
  most : biased n ≤ 254

/-- A zero of either sign. -/
def IsZero (n : BitVec 32) : Prop :=
  biased n = 0 ∧ fraction n = 0

/-- A number that is not infinite and a number. -/
def Finite (n : BitVec 32) : Prop :=
  biased n ≤ 254

/-- The significand, with the leading one unless the number is subnormal. -/
def significand (n : BitVec 32) : ℕ :=
  if biased n = 0 then fraction n else 8388608 + fraction n

/-- The unit in the last place. -/
def ulp (n : BitVec 32) : ℚ :=
  2 ^ (max (biased n : ℤ) 1 - 150)

/-- The value of a finite number. -/
def value (n : BitVec 32) : ℚ :=
  signed (negative n) (significand n : ℚ) * ulp n

/-- Put a number together. -/
def encode (negative : Bool) (biased fraction : ℕ) : BitVec 32 :=
  BitVec.ofNat 32 ((if negative then 2147483648 else 0) + 8388608 * biased + fraction)

theorem biased_lt (n : BitVec 32) : biased n < 256 :=
  Nat.mod_lt _ (by decide)

theorem fraction_lt (n : BitVec 32) : fraction n < 8388608 :=
  Nat.mod_lt _ (by decide)

theorem ulp_pos (n : BitVec 32) : 0 < ulp n := by
  unfold ulp
  positivity

theorem Normal.finite (normal : Normal n) : Finite n :=
  normal.most

theorem Normal.significand_eq (normal : Normal n) : significand n = 8388608 + fraction n :=
  if_neg (Nat.one_le_iff_ne_zero.mp normal.least)

theorem Normal.ulp_eq (normal : Normal n) : ulp n = 2 ^ ((biased n : ℤ) - 150) := by
  have least := normal.least
  rw [ulp, max_eq_left (by omega)]

theorem Normal.value_eq (normal : Normal n) : value n =
    signed (negative n) ((8388608 + fraction n : ℕ) : ℚ) * 2 ^ ((biased n : ℤ) - 150) := by
  rw [value, normal.significand_eq, normal.ulp_eq]

theorem Normal.abs_value_eq (normal : Normal n) :
    |value n| = ((8388608 + fraction n : ℕ) : ℚ) * 2 ^ ((biased n : ℤ) - 150) := by
  rw [normal.value_eq, abs_mul, abs_signed, Nat.abs_cast, abs_of_pos (by positivity)]

theorem Normal.value_neg_iff (normal : Normal n) : value n < 0 ↔ negative n = true := by
  have positive : (0 : ℚ) < ((8388608 + fraction n : ℕ) : ℚ) * 2 ^ ((biased n : ℤ) - 150) := by
    positivity
  rw [normal.value_eq]
  cases negative n with
  | true =>
      rw [signed_true, neg_mul]
      exact iff_of_true (neg_lt_zero.mpr positive) rfl
  | false => exact iff_of_false (not_lt.mpr positive.le) Bool.false_ne_true

theorem Normal.value_ne_zero (normal : Normal n) : value n ≠ 0 := by
  rw [← abs_pos, normal.abs_value_eq]
  positivity

theorem IsZero.value_eq (isZero : IsZero n) : value n = 0 := by
  rw [value, significand, if_pos isZero.1, isZero.2, Nat.cast_zero]
  cases negative n with
  | true => rw [signed_true, neg_zero, zero_mul]
  | false => rw [signed_false, zero_mul]

theorem IsZero.not_normal (isZero : IsZero n) : ¬ Normal n := by
  intro normal
  exact Nat.one_le_iff_ne_zero.mp normal.least isZero.1

theorem Normal.not_isZero (normal : Normal n) : ¬ IsZero n := fun isZero =>
  isZero.not_normal normal

/-- Every number is a multiple of the least positive one. -/
theorem value_multiple (n : BitVec 32) : ∃ multiple : ℤ, value n = multiple * 2 ^ (-149 : ℤ) := by
  refine ⟨signed (negative n) (significand n : ℤ) * 2 ^ (max (biased n) 1 - 1), ?_⟩
  have power : (2 : ℚ) ^ (max (biased n : ℤ) 1 - 150) =
      2 ^ (max (biased n) 1 - 1) * 2 ^ (-149 : ℤ) := by
    rw [← zpow_natCast, ← zpow_add₀ two_ne_zero]
    congr 1
    omega
  rw [value, ulp, power, Int.cast_mul, cast_signed, Int.cast_pow, mul_assoc]
  rfl

/-- A significand has 24 bits. -/
theorem abs_value_lt (n : BitVec 32) : |value n| < 16777216 * ulp n := by
  have bound : significand n < 16777216 := by
    have fits := fraction_lt n
    unfold significand
    split_ifs
    · omega
    · omega
  have cast : (significand n : ℚ) < 16777216 := by exact_mod_cast bound
  rw [value, abs_mul, abs_signed, Nat.abs_cast, abs_of_pos (ulp_pos n)]
  exact mul_lt_mul_of_pos_right cast (ulp_pos n)

/-! ## Some numbers -/

theorem normal_one : Normal 0x3f800000 :=
  ⟨by decide, by decide⟩

theorem normal_half : Normal 0x3f000000 :=
  ⟨by decide, by decide⟩

theorem value_one : value 0x3f800000 = 1 := by
  have fields : biased 0x3f800000 = 127 ∧ fraction 0x3f800000 = 0 ∧
      negative 0x3f800000 = false := by decide
  rw [normal_one.value_eq, fields.1, fields.2.1, fields.2.2]
  norm_num

theorem value_half : value 0x3f000000 = 1 / 2 := by
  have fields : biased 0x3f000000 = 126 ∧ fraction 0x3f000000 = 0 ∧
      negative 0x3f000000 = false := by decide
  rw [normal_half.value_eq, fields.1, fields.2.1, fields.2.2]
  norm_num

theorem normal_threeHalves : Normal 0x3fc00000 :=
  ⟨by decide, by decide⟩

theorem normal_two : Normal 0x40000000 :=
  ⟨by decide, by decide⟩

theorem value_two : value 0x40000000 = 2 := by
  have fields : biased 0x40000000 = 128 ∧ fraction 0x40000000 = 0 ∧
      negative 0x40000000 = false := by decide
  rw [normal_two.value_eq, fields.1, fields.2.1, fields.2.2]
  norm_num

theorem value_threeHalves : value 0x3fc00000 = 3 / 2 := by
  have fields : biased 0x3fc00000 = 127 ∧ fraction 0x3fc00000 = 4194304 ∧
      negative 0x3fc00000 = false := by decide
  rw [normal_threeHalves.value_eq, fields.1, fields.2.1, fields.2.2]
  norm_num

/-! ## Powers of two -/

section Log

variable {frac : ℕ} {a e : ℤ}

theorem lt_log2_add (le : (2 : ℚ) ^ a ≤ frac * 2 ^ e) : a < frac.log2 + 1 + e := by
  have high : (frac : ℚ) < 2 ^ ((frac.log2 : ℤ) + 1) := by
    exact_mod_cast @Nat.lt_log2_self frac
  have below := le.trans_lt (mul_lt_mul_of_pos_right high (by positivity : (0 : ℚ) < 2 ^ e))
  rw [← zpow_add₀ two_ne_zero] at below
  exact (zpow_lt_zpow_iff_right₀ one_lt_two).mp below

theorem log2_add_lt (nonzero : frac ≠ 0) (less : frac * 2 ^ e < (2 : ℚ) ^ a) :
    frac.log2 + e < a := by
  have low : (2 : ℚ) ^ (frac.log2 : ℤ) ≤ frac := by
    exact_mod_cast Nat.log2_self_le nonzero
  have below := (mul_le_mul_of_nonneg_right low (by positivity : (0 : ℚ) ≤ 2 ^ e)).trans_lt less
  rw [← zpow_add₀ two_ne_zero] at below
  exact (zpow_lt_zpow_iff_right₀ one_lt_two).mp below

end Log

/-! ## Fields -/

section Encode

variable {isNegative : Bool} {exponent frac : ℕ}

theorem toNat_encode (exponentLt : exponent < 256) (fracLt : frac < 8388608) :
    (encode isNegative exponent frac).toNat =
      (if isNegative then 2147483648 else 0) + 8388608 * exponent + frac := by
  rw [encode, BitVec.toNat_ofNat]
  apply Nat.mod_eq_of_lt
  split_ifs
  · omega
  · omega

theorem negative_encode (exponentLt : exponent < 256) (fracLt : frac < 8388608) :
    negative (encode isNegative exponent frac) = isNegative := by
  rw [negative, toNat_encode exponentLt fracLt]
  cases isNegative with
  | true => simp [Nat.add_assoc]
  | false =>
      simp only [Bool.false_eq_true, if_false]
      rw [decide_eq_false_iff_not]
      omega

theorem biased_encode (exponentLt : exponent < 256) (fracLt : frac < 8388608) :
    biased (encode isNegative exponent frac) = exponent := by
  rw [biased, toNat_encode exponentLt fracLt]
  split_ifs
  · omega
  · omega

theorem fraction_encode (exponentLt : exponent < 256) (fracLt : frac < 8388608) :
    fraction (encode isNegative exponent frac) = frac := by
  rw [fraction, toNat_encode exponentLt fracLt]
  split_ifs
  · omega
  · omega

theorem normal_encode (least : 1 ≤ exponent) (most : exponent ≤ 254) (fracLt : frac < 8388608) :
    Normal (encode isNegative exponent frac) := by
  have exponentLt : exponent < 256 := by omega
  constructor
  · rw [biased_encode exponentLt fracLt]
    exact least
  · rw [biased_encode exponentLt fracLt]
    exact most

/-- The value of a normal number that is put together. -/
theorem value_encode (least : 1 ≤ exponent) (most : exponent ≤ 254) (fracLt : frac < 8388608) :
    value (encode isNegative exponent frac) =
      signed isNegative ((8388608 + frac : ℕ) : ℚ) * 2 ^ ((exponent : ℤ) - 150) := by
  have exponentLt : exponent < 256 := by omega
  have normal : Normal (encode isNegative exponent frac) := normal_encode least most fracLt
  rw [normal.value_eq, negative_encode exponentLt fracLt, fraction_encode exponentLt fracLt,
    biased_encode exponentLt fracLt]

end Encode

/-- A number is put together from its fields. -/
theorem encode_fields (n : BitVec 32) : encode (negative n) (biased n) (fraction n) = n := by
  have bound := n.isLt
  apply BitVec.eq_of_toNat_eq
  rw [toNat_encode (biased_lt n) (fraction_lt n)]
  unfold negative biased fraction
  simp only [decide_eq_true_eq]
  split_ifs
  · omega
  · omega

/-! ## The other sign -/

theorem xor_two_pow {rest sign : ℕ} (less : rest < 2 ^ 31) (isBit : sign < 2) :
    (2 ^ 31 * sign + rest) ^^^ 2 ^ 31 = 2 ^ 31 * (1 - sign) + rest := by
  apply Nat.eq_of_testBit_eq
  intro j
  rw [Nat.testBit_xor, Nat.testBit_two_pow_mul_add _ less, Nat.testBit_two_pow_mul_add _ less,
    Nat.testBit_two_pow]
  split
  · rename_i below
    simp [Nat.ne_of_gt below]
  · rename_i above
    obtain ⟨k, rfl⟩ := Nat.exists_eq_add_of_le (not_lt.mp above)
    interval_cases sign
    · cases k with
      | zero => simp
      | succ k => simp [Nat.testBit_succ]
    · cases k with
      | zero => simp
      | succ k => simp [Nat.testBit_succ]

/-- Flipping the sign bit changes the sign and nothing else. -/
theorem encode_xor {isNegative : Bool} {exponent frac : ℕ} (exponentLt : exponent < 256)
    (fracLt : frac < 8388608) : encode isNegative exponent frac ^^^ 0x80000000#32 =
      encode (!isNegative) exponent frac := by
  have less : 8388608 * exponent + frac < 2 ^ 31 := by omega
  have word : (0x80000000#32).toNat = 2 ^ 31 := rfl
  apply BitVec.eq_of_toNat_eq
  rw [BitVec.toNat_xor, word, toNat_encode exponentLt fracLt, toNat_encode exponentLt fracLt,
    Nat.add_assoc, Nat.add_assoc]
  cases isNegative with
  | true => exact xor_two_pow less one_lt_two
  | false => exact xor_two_pow less zero_lt_two

section Xor

variable (n : BitVec 32)

theorem xor_eq : n ^^^ 0x80000000#32 = encode (!negative n) (biased n) (fraction n) := by
  rw [← encode_xor (biased_lt n) (fraction_lt n), encode_fields]

theorem negative_xor : negative (n ^^^ 0x80000000#32) = !negative n := by
  rw [xor_eq, negative_encode (biased_lt n) (fraction_lt n)]

@[simp]
theorem biased_xor : biased (n ^^^ 0x80000000#32) = biased n := by
  rw [xor_eq, biased_encode (biased_lt n) (fraction_lt n)]

theorem fraction_xor : fraction (n ^^^ 0x80000000#32) = fraction n := by
  rw [xor_eq, fraction_encode (biased_lt n) (fraction_lt n)]

end Xor

/-- A number is determined by its fields. -/
theorem eq_iff_fields {m n : BitVec 32} : m = n ↔
    negative m = negative n ∧ biased m = biased n ∧ fraction m = fraction n := by
  constructor
  · rintro rfl
    exact ⟨rfl, rfl, rfl⟩
  · rintro ⟨sign, exponent, frac⟩
    rw [← encode_fields m, ← encode_fields n, sign, exponent, frac]

/-! ## Rounding toward zero -/

section TowardZero

variable {x : ℚ} {signif : ℕ} {k : ℤ}

/-- A number cut off to 24 significant bits. -/
def towardZero (x : ℚ) : ℚ :=
  signed (decide (x < 0)) (⌊|x| / 2 ^ (Int.log 2 |x| - 23)⌋₊ * 2 ^ (Int.log 2 |x| - 23))

/-- The exponent of a number is the one that leaves 24 bits. -/
theorem log_eq (low : 8388608 ≤ signif) (high : signif < 16777216) (least : signif * 2 ^ k ≤ x)
    (less : x < (signif + 1) * 2 ^ k) : Int.log 2 x = k + 23 := by
  have unit : (0 : ℚ) < 2 ^ k := by positivity
  have low' : (8388608 : ℚ) ≤ signif := by exact_mod_cast low
  have high' : (signif : ℚ) + 1 ≤ 16777216 := by exact_mod_cast high
  have floor : ((2 : ℕ) : ℚ) ^ (k + 23) ≤ x := by
    calc ((2 : ℕ) : ℚ) ^ (k + 23) = 8388608 * 2 ^ k := by
          rw [Nat.cast_ofNat, zpow_add₀ two_ne_zero, mul_comm]
          norm_num
      _ ≤ signif * 2 ^ k := mul_le_mul_of_nonneg_right low' unit.le
      _ ≤ x := least
  have ceil : x < ((2 : ℕ) : ℚ) ^ (k + 24) := by
    calc x < (signif + 1) * 2 ^ k := less
      _ ≤ 16777216 * 2 ^ k := mul_le_mul_of_nonneg_right high' unit.le
      _ = ((2 : ℕ) : ℚ) ^ (k + 24) := by
          rw [Nat.cast_ofNat, zpow_add₀ two_ne_zero, mul_comm]
          norm_num
  have positive : 0 < x := lt_of_lt_of_le (by positivity) floor
  have above := (Int.zpow_le_iff_le_log one_lt_two positive).mp floor
  have below := (Int.lt_zpow_iff_log_lt one_lt_two positive).mp ceil
  omega

theorem towardZero_eq (low : 8388608 ≤ signif) (high : signif < 16777216)
    (least : signif * 2 ^ k ≤ |x|) (less : |x| < (signif + 1) * 2 ^ k) :
    towardZero x = signed (decide (x < 0)) ((signif : ℚ) * 2 ^ k) := by
  have unit : (0 : ℚ) < 2 ^ k := by positivity
  have isLog : Int.log 2 |x| - 23 = k := by
    rw [log_eq low high least less]
    exact add_sub_cancel_right k 23
  have isFloor : ⌊|x| / 2 ^ k⌋₊ = signif := by
    rw [Nat.floor_eq_iff (by positivity), le_div_iff₀ unit, div_lt_iff₀ unit]
    exact ⟨least, less⟩
  rw [towardZero, isLog, isFloor]

end TowardZero

/-- A normal number has one encoding. -/
theorem Normal.value_inj {m : BitVec 32} (normal : Normal m) (normal' : Normal n)
    (same : value m = value n) : m = n := by
  have fits := fraction_lt m
  have fits' := fraction_lt n
  have magnitude : ((8388608 + fraction m : ℕ) : ℚ) * 2 ^ ((biased m : ℤ) - 150) =
      ((8388608 + fraction n : ℕ) : ℚ) * 2 ^ ((biased n : ℤ) - 150) := by
    rw [← normal.abs_value_eq, ← normal'.abs_value_eq, same]
  have unit : (0 : ℚ) < 2 ^ ((biased m : ℤ) - 150) := by positivity
  have unit' : (0 : ℚ) < 2 ^ ((biased n : ℤ) - 150) := by positivity
  have isLog : Int.log 2 (((8388608 + fraction m : ℕ) : ℚ) * 2 ^ ((biased m : ℤ) - 150)) =
      (biased m : ℤ) - 150 + 23 :=
    log_eq (by omega) (by omega) le_rfl (mul_lt_mul_of_pos_right (lt_add_one _) unit)
  have isLog' : Int.log 2 (((8388608 + fraction n : ℕ) : ℚ) * 2 ^ ((biased n : ℤ) - 150)) =
      (biased n : ℤ) - 150 + 23 :=
    log_eq (by omega) (by omega) le_rfl (mul_lt_mul_of_pos_right (lt_add_one _) unit')
  have isBiased : biased m = biased n := by
    rw [magnitude, isLog'] at isLog
    omega
  have isFraction : fraction m = fraction n := by
    rw [isBiased] at magnitude
    have cast := mul_right_cancel₀ unit'.ne' magnitude
    have whole : 8388608 + fraction m = 8388608 + fraction n := by exact_mod_cast cast
    omega
  have isNegative : negative m = negative n := by
    rw [normal.value_eq, normal'.value_eq, isBiased, isFraction] at same
    have signs := mul_right_cancel₀ unit'.ne' same
    have nonzero : ((8388608 + fraction n : ℕ) : ℚ) ≠ 0 := by positivity
    exact signed_inj nonzero signs
  exact eq_iff_fields.mpr ⟨isNegative, isBiased, isFraction⟩

/-! ## Masks -/

theorem toNat_fractionField (n : BitVec 32) : (n &&& 0x007fffff#32).toNat = fraction n :=
  Nat.and_two_pow_sub_one_eq_mod n.toNat 23

theorem toNat_exponentField (n : BitVec 32) : ((n &&& 0x7f800000#32) >>> 23).toNat = biased n := by
  rw [BitVec.ushiftRight_and_distrib, BitVec.toNat_and, BitVec.toNat_ushiftRight,
    Nat.shiftRight_eq_div_pow]
  exact Nat.and_two_pow_sub_one_eq_mod _ 8

theorem toNat_signField (n : BitVec 32) :
    ((n &&& 0x80000000#32) >>> 31).toNat = if negative n then 1 else 0 := by
  have bound := n.isLt
  rw [BitVec.ushiftRight_and_distrib, BitVec.toNat_and, BitVec.toNat_ushiftRight,
    Nat.shiftRight_eq_div_pow]
  have bit : n.toNat / 2 ^ 31 &&& (0x80000000#32 >>> 31).toNat = n.toNat / 2 ^ 31 % 2 ^ 1 :=
    Nat.and_two_pow_sub_one_eq_mod _ 1
  rw [bit]
  unfold negative
  simp only [decide_eq_true_eq]
  split_ifs
  · omega
  · omega

/-- Fields that fit are put together bit by bit. -/
theorem or_fields {isNegative : Bool} {sign exp frac : BitVec 32}
    (isSign : sign.toNat = if isNegative then 1 else 0) (expLt : exp.toNat < 256)
    (fracLt : frac.toNat < 8388608) :
    ((sign <<< 31) &&& 0x80000000#32) ||| ((frac <<< 0) &&& 0x007fffff#32) |||
      ((exp <<< 23) &&& 0x7f800000#32) = encode isNegative exp.toNat frac.toNat := by
  have signField : ((sign <<< 31) &&& 0x80000000#32).toNat =
      2 ^ 31 * if isNegative then 1 else 0 := by
    cases isNegative with
    | true =>
        have one : sign = 1#32 := BitVec.eq_of_toNat_eq isSign
        rw [one]
        rfl
    | false =>
        have zero : sign = 0#32 := BitVec.eq_of_toNat_eq isSign
        rw [zero]
        rfl
  have fracField : ((frac <<< 0) &&& 0x007fffff#32).toNat = frac.toNat := by
    rw [BitVec.shiftLeft_zero, toNat_fractionField]
    exact Nat.mod_eq_of_lt fracLt
  have expField : ((exp <<< 23) &&& 0x7f800000#32).toNat = 2 ^ 23 * exp.toNat := by
    have low : exp &&& 255#32 = exp := by
      apply BitVec.eq_of_toNat_eq
      rw [BitVec.toNat_and]
      exact (Nat.and_two_pow_sub_one_eq_mod _ 8).trans (Nat.mod_eq_of_lt expLt)
    have field : (exp <<< 23) &&& 0x7f800000#32 = (exp &&& 255#32) <<< 23 :=
      (BitVec.shiftLeft_and_distrib exp 255#32 23).symm
    rw [field, low, BitVec.toNat_shiftLeft, Nat.shiftLeft_eq]
    omega
  have low : 2 ^ 23 * exp.toNat ||| frac.toNat = 2 ^ 23 * exp.toNat + frac.toNat :=
    (Nat.two_pow_add_eq_or_of_lt (by omega) _).symm
  apply BitVec.eq_of_toNat_eq
  rw [toNat_encode expLt fracLt, BitVec.toNat_or, BitVec.toNat_or, signField, fracField, expField,
    Nat.or_assoc, Nat.or_comm frac.toNat, low, ← Nat.two_pow_add_eq_or_of_lt (by omega)]
  split_ifs
  · omega
  · omega

end Rtes.Binary32
