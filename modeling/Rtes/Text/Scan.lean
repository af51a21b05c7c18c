import Rtes.Text.Decimal

/-!
# Scanning buffers of characters

A buffer holds a text up to its first NUL.  A number is scanned from the beginning of
a text, after white space and a sign, as far as its digits go.
-/

namespace Rtes.Text

open Rtes.Word

/-- The text in a buffer, unless its terminator is missing. -/
def terminatedText (buffer : List Char) : Option (List Char) :=
  if '\x00' ∈ buffer then some (buffer.takeWhile (· ≠ '\x00')) else none

/-- A text ends at its terminator, whatever is behind it. -/
theorem terminatedText_append {text : List Char} (absent : '\x00' ∉ text) (rest : List Char) :
    terminatedText (text ++ '\x00' :: rest) = some text := by
  have kept : ∀ c ∈ text, decide (c ≠ '\x00') = true := by
    intro c member
    rw [decide_eq_true_eq]
    rintro rfl
    exact absent member
  rw [terminatedText, if_pos (List.mem_append_right _ List.mem_cons_self),
    List.takeWhile_append_of_pos kept, List.takeWhile_cons_of_neg (by decide), List.append_nil]

/-- White space, as `isspace` has it. -/
def isSpace (c : Char) : Bool :=
  c ∈ [' ', '\t', '\n', '\x0b', '\x0c', '\r']

/-- A sign: whether it is negative, and the text after it. -/
def takeSign : List Char → Bool × List Char
  | '-' :: rest => (true, rest)
  | '+' :: rest => (false, rest)
  | rest => (false, rest)

/-- The conversion `%d`: the number at the beginning of a text, and the rest. -/
def scanInt (text : List Char) : Option (ℤ × List Char) :=
  let (negative, text) := takeSign (text.dropWhile isSpace)
  let digits := text.takeWhile Char.isDigit
  if digits = [] then
    none
  else
    let value : ℤ := Nat.ofDigitChars 10 digits 0
    some (int32 (if negative then -value else value), text.dropWhile Char.isDigit)

theorem isSpace_of_isDigit {c : Char} (digit : c.isDigit = true) : isSpace c = false := by
  rw [isSpace, decide_eq_false_iff_not]
  intro mem
  simp only [List.mem_cons, List.not_mem_nil, or_false] at mem
  rcases mem with rfl | rfl | rfl | rfl | rfl | rfl
  all_goals cases digit

theorem takeSign_of_isDigit {c : Char} (digit : c.isDigit = true) (rest : List Char) :
    takeSign (c :: rest) = (false, c :: rest) := by
  unfold takeSign
  split
  · rename_i same
    cases same
    cases digit
  · rename_i same
    cases same
    cases digit
  · rfl

/-- A number that is printed is scanned, whatever comes after another character. -/
theorem scanInt_decimal {n : ℕ} (small : n < 2147483648) {separator : Char}
    (other : separator.isDigit = false) (rest : List Char) :
    scanInt (decimal n ++ separator :: rest) = some ((n : ℤ), separator :: rest) := by
  have digits : ∀ c ∈ decimal n, c.isDigit = true := fun c mem => isDigit_of_mem_decimal mem
  have taken : (decimal n ++ separator :: rest).takeWhile Char.isDigit = decimal n := by
    rw [List.takeWhile_append_of_pos digits, List.takeWhile_cons_of_neg (by simp [other]),
      List.append_nil]
  have left : (decimal n ++ separator :: rest).dropWhile Char.isDigit = separator :: rest := by
    rw [List.dropWhile_append_of_pos digits, List.dropWhile_cons_of_neg (by simp [other])]
  have value : Nat.ofDigitChars 10 (decimal n) 0 = n :=
    Nat.ofDigitChars_toDigits (by decide) (by decide)
  have notNil : decimal n ≠ [] := List.ne_nil_of_length_pos (length_decimal_pos n)
  cases isDecimal : decimal n with
  | nil => exact absurd isDecimal notNil
  | cons c cs =>
      rw [isDecimal] at digits taken left value
      have digit := digits c List.mem_cons_self
      have skipped : (c :: cs ++ separator :: rest).dropWhile isSpace =
          c :: (cs ++ separator :: rest) :=
        List.dropWhile_cons_of_neg (by simp [isSpace_of_isDigit digit])
      rw [List.cons_append] at taken left skipped
      unfold scanInt
      rw [List.cons_append, skipped, takeSign_of_isDigit digit]
      dsimp only
      rw [taken, left, if_neg (List.cons_ne_nil _ _), value]
      rw [if_neg Bool.false_ne_true, int32_natCast small]

/-- `atoi`: the number at the beginning of a text, or zero; one that does not fit is
the nearest that does. -/
def atoi (text : List Char) : ℤ :=
  let (negative, text) := takeSign (text.dropWhile isSpace)
  let value : ℤ := Nat.ofDigitChars 10 (text.takeWhile Char.isDigit) 0
  max (-2147483648) (min 2147483647 (if negative then -value else value))

theorem isInt_atoi (text : List Char) : IsInt (atoi text) := by
  unfold atoi IsInt
  dsimp only
  omega

theorem takeWhile_decimal (n : ℕ) : (decimal n).takeWhile Char.isDigit = decimal n :=
  List.takeWhile_eq_self_iff.mpr fun _ mem => isDigit_of_mem_decimal mem

theorem ofDigitChars_decimal (n : ℕ) : Nat.ofDigitChars 10 (decimal n) 0 = n :=
  Nat.ofDigitChars_toDigits (by decide) (by decide)

/-- A number that is printed has no sign and no space in front. -/
theorem takeSign_decimal (n : ℕ) :
    takeSign ((decimal n).dropWhile isSpace) = (false, decimal n) := by
  cases isDecimal : decimal n with
  | nil => exact absurd isDecimal (List.ne_nil_of_length_pos (length_decimal_pos n))
  | cons c cs =>
      have digit : c.isDigit = true :=
        isDigit_of_mem_decimal (isDecimal ▸ List.mem_cons_self)
      rw [List.dropWhile_cons_of_neg (by simp [isSpace_of_isDigit digit])]
      exact takeSign_of_isDigit digit cs

theorem atoi_signedDecimal {z : ℤ} (isInt : IsInt z) : atoi (signedDecimal z) = z := by
  obtain ⟨low, high⟩ := isInt
  unfold signedDecimal
  split
  · have sign : takeSign ('-' :: decimal z.natAbs) = (true, decimal z.natAbs) := rfl
    unfold atoi
    rw [List.dropWhile_cons_of_neg (by decide), sign]
    dsimp only
    rw [takeWhile_decimal, ofDigitChars_decimal, if_pos rfl]
    omega
  · unfold atoi
    rw [takeSign_decimal]
    dsimp only
    rw [takeWhile_decimal, ofDigitChars_decimal, if_neg Bool.false_ne_true]
    omega

end Rtes.Text
