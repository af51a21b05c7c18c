import Rtes.Word.Wrap

/-!
# Decimal numbers in texts

Numbers are printed in decimal digits, and read back from texts that hold them among
other characters: one per line, after a separator, or with a decimal point.
-/

namespace Rtes.Text

open Rtes.Word

/-! ## Printing -/

/-- The digits of a natural number. -/
def decimal (n : ℕ) : List Char :=
  Nat.toDigits 10 n

/-- The digits of an integer, with a sign if it is negative. -/
def signedDecimal (z : ℤ) : List Char :=
  if z < 0 then '-' :: decimal z.natAbs else decimal z.toNat

theorem toList_toString (n : ℕ) : (toString n).toList = decimal n := by
  change n.repr.toList = decimal n
  rw [Nat.repr_eq_ofList_toDigits, String.toList_ofList, decimal]

theorem toList_toString_int (z : ℤ) : (toString z).toList = signedDecimal z := by
  cases z with
  | ofNat n => exact toList_toString n
  | negSucc n =>
      have isNegative : signedDecimal (Int.negSucc n) = '-' :: decimal (n + 1) :=
        if_pos (Int.negSucc_lt_zero n)
      have sign : "-".toList = ['-'] := by decide
      change ("-" ++ toString (n + 1)).toList = _
      rw [String.toList_append, toList_toString, sign, isNegative]
      rfl

theorem isDigit_of_mem_decimal {n : ℕ} {c : Char} (mem : c ∈ decimal n) : c.isDigit = true :=
  Nat.isDigit_of_mem_toDigits (by decide) (by decide) mem

theorem not_mem_decimal {n : ℕ} {c : Char} (other : c.isDigit = false) : c ∉ decimal n := by
  intro mem
  rw [isDigit_of_mem_decimal mem] at other
  cases other

theorem not_mem_signedDecimal {z : ℤ} {c : Char} (other : c.isDigit = false) (sign : c ≠ '-') :
    c ∉ signedDecimal z := by
  unfold signedDecimal
  split
  · exact List.not_mem_cons_of_ne_of_not_mem sign (not_mem_decimal other)
  · exact not_mem_decimal other

theorem length_decimal_pos (n : ℕ) : 0 < (decimal n).length :=
  Nat.length_toDigits_pos

theorem length_decimal_le {n k : ℕ} (positive : 0 < k) (less : n < 10 ^ k) :
    (decimal n).length ≤ k :=
  (Nat.length_toDigits_le_iff (by decide) positive).mpr less

theorem length_decimal_of_lt {n : ℕ} (less : n < 10) : (decimal n).length = 1 := by
  rw [decimal, Nat.toDigits_of_lt_base less]
  rfl

theorem length_decimal_eq {n k : ℕ} (positive : 0 < k) (low : 10 ^ k ≤ n)
    (high : n < 10 ^ (k + 1)) : (decimal n).length = k + 1 := by
  have most := length_decimal_le (Nat.succ_pos k) high
  have least := mt (Nat.length_toDigits_le_iff (by decide) positive).mp low.not_gt
  unfold decimal at *
  omega

theorem signedDecimal_of_nonneg {z : ℤ} (nonneg : 0 ≤ z) : signedDecimal z = decimal z.toNat :=
  if_neg nonneg.not_gt

theorem length_signedDecimal_le {z : ℤ} {k : ℕ} (positive : 0 < k) (less : z.natAbs < 10 ^ k) :
    (signedDecimal z).length ≤ k + 1 := by
  unfold signedDecimal
  split
  · exact Nat.succ_le_succ (length_decimal_le positive less)
  · have digits := length_decimal_le positive (by omega : z.toNat < 10 ^ k)
    omega

/-- A signed word has ten digits at most. -/
theorem length_signedDecimal_int {z : ℤ} (isInt : IsInt z) : (signedDecimal z).length ≤ 11 := by
  obtain ⟨low, high⟩ := isInt
  exact length_signedDecimal_le (by decide) (by omega)

/-! ## Reading -/

/-- A text of digits, and of nothing else. -/
def readDecimal (text : List Char) : Option ℕ :=
  if text ≠ [] ∧ text.all Char.isDigit then some (Nat.ofDigitChars 10 text 0) else none

theorem readDecimal_decimal (n : ℕ) : readDecimal (decimal n) = some n := by
  have digits : decimal n ≠ [] ∧ (decimal n).all Char.isDigit = true := by
    constructor
    · exact List.ne_nil_of_length_pos (length_decimal_pos n)
    · exact List.all_eq_true.mpr fun c mem => isDigit_of_mem_decimal mem
  rw [readDecimal, if_pos digits]
  exact congrArg some (Nat.ofDigitChars_toDigits (by decide) (by decide))

@[simp]
theorem readDecimal_zero_cons (n : ℕ) : readDecimal ('0' :: decimal n) = some n := by
  have digits : '0' :: decimal n ≠ [] ∧ ('0' :: decimal n).all Char.isDigit = true := by
    constructor
    · exact List.cons_ne_nil _ _
    · exact List.all_eq_true.mpr fun c mem => by
        rcases List.mem_cons.mp mem with rfl | mem
        · rfl
        · exact isDigit_of_mem_decimal mem
  rw [readDecimal, if_pos digits, Nat.ofDigitChars_cons]
  exact congrArg some (Nat.ofDigitChars_toDigits (by decide) (by decide))

/-- A number with a decimal point. -/
def readFraction (text : List Char) : Option ℚ :=
  match text.splitOn '.' with
  | [whole, rest] => do
      let whole ← readDecimal whole
      let digits ← readDecimal rest
      some ((whole : ℚ) + (digits : ℚ) / 10 ^ rest.length)
  | _ => none

theorem splitOn_append_cons {separator : Char} {first rest : List Char}
    (absent : separator ∉ first) :
    (first ++ separator :: rest).splitOn separator = first :: rest.splitOn separator := by
  rw [List.splitOn_eq_splitOnP, List.splitOn_eq_splitOnP]
  apply List.splitOnP_append_cons_of_forall_mem
  · intro c mem
    rw [beq_eq_false_iff_ne]
    rintro rfl
    exact absent mem
  · exact beq_self_eq_true separator

theorem splitOn_eq_singleton {separator : Char} {text : List Char} (absent : separator ∉ text) :
    text.splitOn separator = [text] := by
  rw [List.splitOn_eq_splitOnP]
  apply List.splitOnP_eq_singleton
  intro c mem
  rw [beq_eq_false_iff_ne]
  rintro rfl
  exact absent mem

theorem readFraction_append {whole digits : ℕ} {text rest : List Char}
    (isWhole : readDecimal text = some whole) (isRest : readDecimal rest = some digits)
    (absent : '.' ∉ text) (absent' : '.' ∉ rest) :
    readFraction (text ++ '.' :: rest) = some ((whole : ℚ) + (digits : ℚ) / 10 ^ rest.length) := by
  rw [readFraction, splitOn_append_cons absent, splitOn_eq_singleton absent']
  simp only [isWhole, isRest, Option.bind_eq_bind, Option.bind_some]

end Rtes.Text
