import Mathlib

/-!
# Machine words of 32 bits

Signed words are integers taken to the balanced range by wrapping around,
unsigned words are remainders.  Arithmetic that stays in range is exact.
-/

namespace Rtes.Word

/-- A signed word of 32 bits: wrap around to `-2 ^ 31 .. 2 ^ 31 - 1`. -/
def int32 (x : ℤ) : ℤ :=
  x.bmod 4294967296

/-- An unsigned word of 32 bits: wrap around to `0 .. 2 ^ 32 - 1`. -/
def uint32 (n : ℕ) : ℕ :=
  n % 4294967296

/-- The values of a signed word. -/
def IsInt (x : ℤ) : Prop :=
  -2147483648 ≤ x ∧ x < 2147483648

theorem int32_eq_self {x : ℤ} (low : -2147483648 ≤ x) (high : x < 2147483648) :
    int32 x = x :=
  Int.bmod_eq_of_le (by omega) (by omega)

theorem int32_natCast {n : ℕ} (high : n < 2147483648) : int32 n = n :=
  int32_eq_self (by omega) (by omega)

theorem int32_lt (x : ℤ) : int32 x < 2147483648 := by
  have high := @Int.bmod_lt x 4294967296 (by omega)
  exact high

theorem le_int32 (x : ℤ) : -2147483648 ≤ int32 x := by
  have low := @Int.le_bmod x 4294967296 (by omega)
  exact low

theorem isInt_int32 (x : ℤ) : IsInt (int32 x) :=
  ⟨le_int32 x, int32_lt x⟩

/-- A signed word differs from the number by whole turns. -/
theorem exists_int32_eq (x : ℤ) : ∃ turns, int32 x = x - 4294967296 * turns := by
  obtain ⟨turns, wraps⟩ := @Int.dvd_self_sub_bmod x 4294967296
  refine ⟨turns, ?_⟩
  unfold int32
  omega

theorem int32_eq_self_iff {x : ℤ} : int32 x = x ↔ -2147483648 ≤ x ∧ x < 2147483648 := by
  constructor
  · intro exact
    rw [← exact]
    exact ⟨le_int32 x, int32_lt x⟩
  · rintro ⟨low, high⟩
    exact int32_eq_self low high

theorem int32_int32 (x : ℤ) : int32 (int32 x) = int32 x :=
  Int.bmod_bmod

/-- Adding and taking away again is exact, whatever wraps in between. -/
theorem int32_add_sub_cancel (x y : ℤ) : int32 (int32 (x + y) - y) = int32 x := by
  unfold int32
  rw [Int.bmod_sub_bmod, Int.add_sub_cancel]

section Quotient

variable {x d : ℤ}

/-- The quotient of a word by a positive word is a word. -/
theorem int32_tdiv (positive : 0 < d) :
    int32 ((int32 x).tdiv d) = (int32 x).tdiv d := by
  have low := le_int32 x
  have high := int32_lt x
  rcases le_total 0 (int32 x) with nonneg | nonpos
  · have least := Int.tdiv_nonneg nonneg positive.le
    have most := Int.tdiv_le_self d nonneg
    exact int32_eq_self (by omega) (by omega)
  · have least := Int.tdiv_nonneg (Int.neg_nonneg.mpr nonpos) positive.le
    have most := Int.tdiv_le_self d (Int.neg_nonneg.mpr nonpos)
    rw [Int.neg_tdiv] at least most
    exact int32_eq_self (by omega) (by omega)

/-- A quotient is exact precisely if the dividend does not wrap, since a turn is
more than the divisor. -/
theorem tdiv_int32_eq_iff (nonneg : 0 ≤ x) (positive : 0 < d) (word : d < 2147483648) :
    (int32 x).tdiv d = x / d ↔ x < 2147483648 := by
  constructor
  · intro exact
    by_contra large
    obtain ⟨turns, wraps⟩ := exists_int32_eq x
    have high := int32_lt x
    have least : d ≤ x - int32 x := by omega
    have quotient : 1 ≤ x / d := Int.le_ediv_of_mul_le positive (by omega)
    rcases le_total 0 (int32 x) with wrapped | wrapped
    · rw [Int.tdiv_eq_ediv_of_nonneg wrapped] at exact
      have less : (int32 x + 1 * d) / d ≤ x / d := Int.ediv_le_ediv positive (by omega)
      rw [Int.add_mul_ediv_right _ _ positive.ne'] at less
      omega
    · have negative := Int.tdiv_nonneg (Int.neg_nonneg.mpr wrapped) positive.le
      rw [Int.neg_tdiv] at negative
      omega
  · intro high
    rw [int32_eq_self (by omega) high, Int.tdiv_eq_ediv_of_nonneg nonneg]

end Quotient

theorem uint32_eq_self {n : ℕ} (lt : n < 4294967296) : uint32 n = n :=
  Nat.mod_eq_of_lt lt

/-- An unsigned type that is exact on words of 32 bits, whatever it does beyond. -/
def ExactOnWords (word : ℕ → ℕ) : Prop :=
  ∀ n, n < 4294967296 → word n = n

theorem exactOnWords_uint32 : ExactOnWords uint32 :=
  fun _ => uint32_eq_self

theorem exactOnWords_id : ExactOnWords id :=
  fun _ _ => rfl

end Rtes.Word
