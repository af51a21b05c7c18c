import Rtes.Taskmon.Core

/-!
# Writing a number to a file of the module

The store functions for numbers scan the whole text and say that they consumed one
byte of it.  A program that writes a text goes on with what is left of it, as `write`
asks for, so that every suffix of the text is stored in turn.
-/

namespace Rtes.Taskmon

open Rtes.Reservation Rtes.Text Rtes.Word

/-! ## Writing a text -/

/-- The calls of `write` of a program that goes on with what was not written, and gives up
at an error. -/
def writeLoop (store : Station → List Char → ℤ × Station) : ℕ → Station → List Char → Station
  | 0, st, _ => st
  | rounds + 1, st, text =>
      if text = [] then
        st
      else if (store st text).1 ≤ 0 then
        (store st text).2
      else
        writeLoop store rounds (store st text).2 (text.drop (store st text).1.toNat)

/-- A call that is no error writes a byte at least, so that there is a round for each. -/
def writeAll (store : Station → List Char → ℤ × Station) (st : Station) (text : List Char) :
    Station :=
  writeLoop store text.length st text

section Store

variable {store : Station → List Char → ℤ × Station} (one : ∀ st text, (store st text).1 = 1)
include one

/-- A store that consumes one byte is called for every suffix. -/
@[simp]
theorem writeAll_cons (st : Station) (c : Char) (rest : List Char) :
    writeAll store st (c :: rest) = writeAll store (store st (c :: rest)).2 rest := by
  have consumed := one st (c :: rest)
  rw [writeAll, List.length_cons, writeLoop, if_neg (List.cons_ne_nil c rest), consumed,
    if_neg (by decide)]
  rfl

end Store

/-! ## The last digit -/

/-- The last digit of a text. -/
def lastDigit : List Char → Option ℕ
  | [] => none
  | c :: rest => (lastDigit rest).or (if c.isDigit then some (c.toNat - 48) else none)

private theorem lastDigit_eq_none_iff {text : List Char} :
    lastDigit text = none ↔ ∀ c ∈ text, c.isDigit = false := by
  induction text with
  | nil => simp [lastDigit]
  | cons c rest ih =>
      rw [lastDigit, Option.or_eq_none_iff, ih, List.forall_mem_cons]
      constructor
      · rintro ⟨others, own⟩
        refine ⟨?_, others⟩
        by_contra digit
        simp [digit] at own
      · rintro ⟨own, others⟩
        exact ⟨others, by simp [own]⟩

private theorem lastDigit_append_digit (text : List Char) {c : Char} (digit : c.isDigit = true) :
    lastDigit (text ++ [c, '\n']) = some (c.toNat - 48) := by
  induction text with
  | nil => simp [lastDigit, digit]
  | cons first rest ih => rw [List.cons_append, lastDigit, ih, Option.some_or]

private theorem lastDigit_signedDecimal (n : ℤ) :
    lastDigit (signedDecimal n ++ ['\n']) = some (n.natAbs % 10) := by
  have decimalEnds : ∀ k : ℕ, ∃ init, decimal k = init ++ [(k % 10).digitChar] := by
    intro k
    rcases Nat.lt_or_ge k 10 with small | large
    · refine ⟨[], ?_⟩
      rw [decimal, Nat.toDigits_of_lt_base small, Nat.mod_eq_of_lt small]
      rfl
    · exact ⟨_, Nat.toDigits_of_base_le (by decide) large⟩
  have less : n.natAbs % 10 < 10 := Nat.mod_lt _ (by decide)
  have digit : (n.natAbs % 10).digitChar.isDigit = true := by
    rw [Nat.isDigit_digitChar, decide_eq_true_eq]
    exact less
  obtain ⟨init, ends⟩ : ∃ init, signedDecimal n = init ++ [(n.natAbs % 10).digitChar] := by
    obtain ⟨init, ends⟩ := decimalEnds n.natAbs
    unfold signedDecimal
    split
    · exact ⟨'-' :: init, by rw [ends]; rfl⟩
    · exact ⟨init, by rw [← ends]; congr 1; omega⟩
  rw [ends, List.append_assoc]
  exact (lastDigit_append_digit init digit).trans
    (congrArg some (Nat.toNat_digitChar_sub_48_of_lt_ten less))

/-! ## What a store scans -/

private theorem mem_of_mem_takeMinus {text : List Char} {c : Char} (mem : c ∈ (takeMinus text).2) :
    c ∈ text := by
  unfold takeMinus at mem
  split at mem
  · exact List.mem_cons_of_mem _ mem
  · exact mem

private theorem takeWhile_isDigit_eq_nil {text : List Char} (none : ∀ c ∈ text, c.isDigit = false) :
    text.takeWhile Char.isDigit = [] := by
  cases text with
  | nil => rfl
  | cons c rest => exact List.takeWhile_cons_of_neg (by simp [none c List.mem_cons_self])

private theorem sscanf_of_no_digit {text : List Char} (none : ∀ c ∈ text, c.isDigit = false) :
    sscanf text = .none :=
  if_pos (takeWhile_isDigit_eq_nil fun c mem =>
    none c (List.dropWhile_subset _ (mem_of_mem_takeMinus mem)))

private theorem sscanf_cons_digit {c : Char} {rest : List Char} (digit : c.isDigit = true)
    (none : ∀ d ∈ rest, d.isDigit = false) :
    sscanf (c :: rest) = some ((c.toNat - 48 : ℕ) : ℤ) := by
  have noSpace : isSpace c = false := by
    rw [isSpace, decide_eq_false_iff_not]
    intro space
    simp only [List.mem_cons, List.not_mem_nil, or_false] at space
    rcases space with rfl | rfl | rfl | rfl | rfl | rfl | rfl <;> exact absurd digit (by decide)
  have noSign : takeMinus (c :: rest) = (false, c :: rest) := by
    unfold takeMinus
    split
    · rename_i isCons
      injection isCons with isMinus
      subst isMinus
      exact absurd digit (by decide)
    · rfl
  have scanned : (c :: rest).takeWhile Char.isDigit = [c] := by
    rw [List.takeWhile_cons_of_pos digit, takeWhile_isDigit_eq_nil none]
  have value : Nat.ofDigitChars 10 [c] 0 = c.toNat - 48 := by
    simp [Nat.ofDigitChars]
  have small : c.toNat - 48 < 2147483648 := by
    have bounds : 48 ≤ c.toNat ∧ c.toNat ≤ 57 := by
      simpa [Char.isDigit, UInt32.le_iff_toNat_le] using digit
    omega
  rw [sscanf, List.dropWhile_cons_of_neg (by simp [noSpace]), noSign]
  simp only [scanned, value, List.cons_ne_nil, if_false, Bool.false_eq_true]
  rw [int32_natCast small]

/-! ## What a number leaves behind -/

section Store

variable {store : Station → List Char → ℤ × Station} (one : ∀ st text, (store st text).1 = 1)
  {value : Station → ℤ}
  (scans : ∀ st text, value (store st text).2 = (sscanf text).getD (value st))
include one scans

/-- The last suffix that begins with a digit is the one that counts: those behind it have
no number, and of those before it nothing is left. -/
theorem value_writeAll (st : Station) (text : List Char) :
    value (writeAll store st text) = ((lastDigit text).map Nat.cast).getD (value st) := by
  induction text generalizing st with
  | nil => rfl
  | cons c rest ih =>
      rw [writeAll_cons one, ih, scans, lastDigit]
      cases isLast : lastDigit rest with
      | some digit => rfl
      | none =>
          have none := lastDigit_eq_none_iff.mp isLast
          by_cases digit : c.isDigit = true
          · rw [sscanf_cons_digit digit none]
            simp [digit]
          · have none' : ∀ d ∈ c :: rest, d.isDigit = false :=
              List.forall_mem_cons.mpr ⟨Bool.eq_false_of_not_eq_true digit, none⟩
            rw [sscanf_of_no_digit none']
            simp [digit]

private theorem value_writeAll_signedDecimal (st : Station) (n : ℤ) :
    value (writeAll store st (signedDecimal n ++ ['\n'])) = (n.natAbs % 10 : ℕ) := by
  rw [value_writeAll one scans, lastDigit_signedDecimal]
  rfl

end Store

/-- A text that is not empty leaves the timer queued as the number behind the file asks. -/
theorem taskmonTimer_writeAll (st : Station) {text : List Char} (nonempty : text ≠ []) :
    (writeAll Station.enabledStore st text).taskmonTimer =
      decide ((writeAll Station.enabledStore st text).enabled ≠ 0) := by
  induction text generalizing st with
  | nil => exact absurd rfl nonempty
  | cons c rest ih =>
      rw [writeAll_cons fun _ _ => rfl]
      cases rest with
      | nil => rfl
      | cons d rest => exact ih _ (List.cons_ne_nil d rest)

/-- A number written as a line to `enabled` or to `config/energy` by a program that writes
all of its text comes back as its last digit, and the timer of the monitor is queued as
that digit asks: after `10` the monitor is switched off. -/
theorem writeAll_number (st : Station) (n : ℤ) :
    (writeAll Station.enabledStore st (signedDecimal n ++ ['\n'])).enabledShow =
        decimal (n.natAbs % 10) ++ ['\n'] ∧
      ((writeAll Station.enabledStore st (signedDecimal n ++ ['\n'])).taskmonTimer = true ↔
        ¬ 10 ∣ n) ∧
      (writeAll Station.energyTrackingStore st (signedDecimal n ++ ['\n'])).energyTrackingShow =
        decimal (n.natAbs % 10) ++ ['\n'] := by
  have enabled := @value_writeAll_signedDecimal Station.enabledStore (fun _ _ => rfl)
    Station.enabled (fun _ _ => rfl) st n
  have tracking := @value_writeAll_signedDecimal Station.energyTrackingStore (fun _ _ => rfl)
    Station.energyTracking (fun _ _ => rfl) st n
  refine ⟨?_, ?_, ?_⟩
  · rw [Station.enabledShow, enabled, signedDecimal_of_nonneg (Int.natCast_nonneg _),
      Int.toNat_natCast]
  · rw [taskmonTimer_writeAll st (by simp), decide_eq_true_eq, enabled]
    omega
  · rw [Station.energyTrackingShow, tracking, signedDecimal_of_nonneg (Int.natCast_nonneg _),
      Int.toNat_natCast]

end Rtes.Taskmon
