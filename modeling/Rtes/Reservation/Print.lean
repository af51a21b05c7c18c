import Rtes.Reservation.Monitor
import Rtes.Reservation.Runs
import Rtes.Text.Decimal

/-!
# What the `util` file says

Every line that `tid_show` prints holds a timestamp and a number.  A utilization is
printed in hundredths, without the zero that keeps a single digit in its place, and
with the whole parts of all lines before it.
-/

namespace Rtes.Reservation

open Rtes.Text Rtes.Transition Rtes.Word

/-! ## Texts of lines -/

/-- The number of a line, after the timestamp. -/
def lineNumber (line : List Char) : Option ℚ :=
  match line.splitOn ' ' with
  | [_, number] => readFraction number
  | _ => none

/-- The numbers of the lines of a text. -/
def lineNumbers (text : List Char) : List (Option ℚ) :=
  (text.splitOn '\n').dropLast.map lineNumber

@[simp]
private theorem lineNumbers_nil : lineNumbers [] = [] :=
  rfl

private theorem lineNumbers_append {line rest : List Char} (absent : '\n' ∉ line) :
    lineNumbers (line ++ '\n' :: rest) = lineNumber line :: lineNumbers rest := by
  have notNil : rest.splitOn '\n' ≠ [] := by
    rw [List.splitOn_eq_splitOnP]
    exact List.splitOnP_ne_nil _ _
  rw [lineNumbers, splitOn_append_cons absent, List.dropLast_cons_of_ne_nil notNil, List.map_cons,
    lineNumbers]

/-! ## Lines of slots -/

section Whole

variable {rounds : ℕ} {utilization integerPart : ℤ}

theorem takeWhole_fst (nonneg : 0 ≤ utilization) (enough : utilization < 100 * (rounds + 1))
    (integerPart : ℤ) : (takeWhole rounds utilization integerPart).1 = utilization % 100 := by
  induction rounds generalizing utilization integerPart with
  | zero =>
      rw [takeWhole]
      omega
  | succ rounds ih =>
      rw [takeWhole]
      split
      · rw [ih (by omega) (by push_cast at enough; omega)]
        omega
      · dsimp only
        omega

private theorem takeWhole_snd (nonneg : 0 ≤ utilization) (enough : utilization < 100 * (rounds + 1))
    (counted : 0 ≤ integerPart) (fits : integerPart + utilization / 100 < 2147483648) :
    (takeWhole rounds utilization integerPart).2 = integerPart + utilization / 100 := by
  induction rounds generalizing utilization integerPart with
  | zero =>
      rw [takeWhole]
      omega
  | succ rounds ih =>
      rw [takeWhole]
      split
      · rw [int32_eq_self (by omega) (by omega),
          ih (by omega) (by push_cast at enough; omega) (by omega) (by omega)]
        omega
      · dsimp only
        omega

private theorem takeWhole_eq (nonneg : 0 ≤ utilization) (enough : utilization < 100 * (rounds + 1))
    (counted : 0 ≤ integerPart) (fits : integerPart + utilization / 100 < 2147483648) :
    takeWhole rounds utilization integerPart =
      (utilization % 100, integerPart + utilization / 100) :=
  Prod.ext (takeWhole_fst nonneg enough integerPart) (takeWhole_snd nonneg enough counted fits)

end Whole

/-- The number that is printed for a utilization. -/
def numberText (integerPart utilization : ℤ) : List Char :=
  if utilization < 10 then
    '0' :: '.' :: '0' :: signedDecimal utilization
  else if utilization < 100 then
    '0' :: '.' :: signedDecimal utilization
  else
    let (utilization, integerPart) := takeWhole utilization.toNat utilization integerPart
    signedDecimal integerPart ++ '.' :: signedDecimal utilization

theorem toList_showSlot (integerPart : ℤ) (slot : ℕ × ℤ) :
    (showSlot integerPart slot).1.toList =
      decimal slot.1 ++ ' ' :: numberText integerPart slot.2 ++ ['\n'] := by
  obtain ⟨period, utilization⟩ := slot
  have texts : " 0.0".toList = [' ', '0', '.', '0'] ∧ " 0.".toList = [' ', '0', '.'] ∧
      " ".toList = [' '] ∧ ".".toList = ['.'] ∧ "\n".toList = ['\n'] := by decide
  obtain ⟨tenths, hundredths, space, point, newline⟩ := texts
  unfold showSlot numberText
  dsimp only
  split
  · change (toString period ++ " 0.0" ++ toString utilization ++ "\n").toList = _
    simp only [String.toList_append, toList_toString, toList_toString_int, tenths, newline,
      List.append_assoc, List.cons_append, List.nil_append]
  · split
    · change (toString period ++ " 0." ++ toString utilization ++ "\n").toList = _
      simp only [String.toList_append, toList_toString, toList_toString_int, hundredths, newline,
        List.append_assoc, List.cons_append, List.nil_append]
    · generalize takeWhole utilization.toNat utilization integerPart = parts
      change (toString period ++ " " ++ toString parts.2 ++ "." ++ toString parts.1 ++
        "\n").toList = _
      simp only [String.toList_append, toList_toString, toList_toString_int, space, point, newline,
        List.append_assoc, List.cons_append, List.nil_append]

/-- `integer_part` after a line. -/
theorem showSlot_snd {integerPart : ℤ} {slot : ℕ × ℤ} (nonneg : 0 ≤ slot.2)
    (counted : 0 ≤ integerPart) (fits : integerPart + slot.2 / 100 < 2147483648) :
    (showSlot integerPart slot).2 = integerPart + slot.2 / 100 := by
  obtain ⟨period, utilization⟩ := slot
  unfold showSlot
  dsimp only at *
  split
  · dsimp only
    omega
  · split
    · dsimp only
      omega
    · rw [takeWhole_eq nonneg (by omega) counted fits]

/-! ## Reading lines back -/

/-- What is read back from the number that is printed. -/
def numberValue (integerPart utilization : ℤ) : ℚ :=
  if utilization < 100 then
    utilization / 100
  else
    ((integerPart + utilization / 100 : ℤ) : ℚ) +
      ((utilization % 100 : ℤ) : ℚ) / 10 ^ (decimal (utilization % 100).toNat).length

section Number

variable {integerPart utilization : ℤ} (nonneg : 0 ≤ utilization) (counted : 0 ≤ integerPart)

include nonneg counted

private theorem readFraction_numberText (fits : integerPart + utilization / 100 < 2147483648) :
    readFraction (numberText integerPart utilization) =
      some (numberValue integerPart utilization) := by
  have point : ('.' : Char).isDigit = false := by decide
  have zero : readDecimal ['0'] = some 0 := by decide
  have absent : '.' ∉ ['0'] := by decide
  have isUtilization : ((utilization.toNat : ℤ) : ℚ) = utilization := by
    rw [Int.toNat_of_nonneg nonneg]
  rw [Int.cast_natCast] at isUtilization
  unfold numberText numberValue
  by_cases tenths : utilization < 10
  · have read := readFraction_append zero (readDecimal_zero_cons utilization.toNat) absent
      (by simp [not_mem_decimal point])
    rw [if_pos tenths, if_pos (by omega), signedDecimal_of_nonneg nonneg]
    refine read.trans ?_
    rw [List.length_cons, length_decimal_of_lt (by omega), isUtilization]
    norm_num
  · by_cases hundredths : utilization < 100
    · have read := readFraction_append zero (readDecimal_decimal utilization.toNat) absent
        (not_mem_decimal point)
      rw [if_neg tenths, if_pos hundredths, if_pos hundredths, signedDecimal_of_nonneg nonneg]
      refine read.trans ?_
      rw [length_decimal_eq one_pos (by omega) (by omega), isUtilization]
      norm_num
    · have read := readFraction_append
        (readDecimal_decimal (integerPart + utilization / 100).toNat)
        (readDecimal_decimal (utilization % 100).toNat) (not_mem_decimal point)
        (not_mem_decimal point)
      have isWhole : ((integerPart + utilization / 100).toNat : ℤ) =
          integerPart + utilization / 100 := by omega
      have isRest : ((utilization % 100).toNat : ℤ) = utilization % 100 := by omega
      rw [if_neg tenths, if_neg hundredths, if_neg hundredths,
        takeWhole_eq nonneg (by omega) counted fits]
      dsimp only
      rw [signedDecimal_of_nonneg (by omega), signedDecimal_of_nonneg (by omega)]
      refine read.trans ?_
      rw [← Int.cast_natCast, ← Int.cast_natCast (utilization % 100).toNat, isWhole, isRest]

omit nonneg in
private theorem numberValue_eq_iff : numberValue integerPart utilization = utilization / 100 ↔
    utilization < 100 ∨
      integerPart = 0 ∧ (utilization % 100 = 0 ∨ 10 ≤ utilization % 100) := by
  unfold numberValue
  by_cases small : utilization < 100
  · rw [if_pos small]
    exact iff_of_true rfl (.inl small)
  · have splits : (utilization : ℚ) = 100 * (utilization / 100 : ℤ) + (utilization % 100 : ℤ) := by
      exact_mod_cast (Int.mul_ediv_add_emod utilization 100).symm
    rw [if_neg small, or_iff_right small, splits, Int.cast_add]
    have low : 0 ≤ utilization % 100 := by omega
    have high : utilization % 100 < 100 := by omega
    generalize utilization / 100 = whole at *
    generalize utilization % 100 = rest at *
    by_cases single : rest < 10
    · rw [length_decimal_of_lt (by omega)]
      constructor
      · intro same
        have sum : 100 * (integerPart : ℚ) + 9 * rest = 0 := by linarith
        have sum' : 100 * integerPart + 9 * rest = 0 := by exact_mod_cast sum
        exact ⟨by omega, .inl (by omega)⟩
      · rintro ⟨rfl, rfl | more⟩
        · norm_num
        · exact absurd single more.not_gt
    · rw [length_decimal_eq one_pos (by omega) (by omega)]
      constructor
      · intro same
        have none : (integerPart : ℚ) = 0 := by linarith
        exact ⟨by exact_mod_cast none, .inr (not_lt.mp single)⟩
      · rintro ⟨rfl, _⟩
        norm_num
        ring

end Number

/-! ## The whole text -/

private theorem lineNumber_eq {integerPart : ℤ} {slot : ℕ × ℤ} (nonneg : 0 ≤ slot.2)
    (counted : 0 ≤ integerPart) (fits : integerPart + slot.2 / 100 < 2147483648)
    (absent : ' ' ∉ numberText integerPart slot.2) :
    lineNumber (decimal slot.1 ++ ' ' :: numberText integerPart slot.2) =
      some (numberValue integerPart slot.2) := by
  have space : (' ' : Char).isDigit = false := by decide
  rw [lineNumber, splitOn_append_cons (not_mem_decimal space), splitOn_eq_singleton absent]
  exact readFraction_numberText nonneg counted fits

/-- The text of a number has no separators. -/
theorem not_mem_numberText {integerPart utilization : ℤ} {c : Char} (digit : c.isDigit = false)
    (notMinus : c ≠ '-') (notPoint : c ≠ '.') : c ∉ numberText integerPart utilization := by
  have notZero : c ≠ '0' := by
    rintro rfl
    cases digit
  have absent : ∀ z, c ∉ signedDecimal z := fun _ => not_mem_signedDecimal digit notMinus
  unfold numberText
  split
  · simp [notZero, notPoint, absent]
  · split
    · simp [notZero, notPoint, absent]
    · simp [notPoint, absent]

private theorem lineNumbers_showSlots {integerPart : ℤ} {slot : ℕ × ℤ} {rest : List (ℕ × ℤ)}
    (nonneg : 0 ≤ slot.2) (counted : 0 ≤ integerPart)
    (fits : integerPart + slot.2 / 100 < 2147483648) :
    lineNumbers (showSlots integerPart (slot :: rest)).toList =
      some (numberValue integerPart slot.2) ::
        lineNumbers (showSlots (integerPart + slot.2 / 100) rest).toList := by
  have newline : ('\n' : Char).isDigit = false := by decide
  have absent : '\n' ∉ decimal slot.1 ++ ' ' :: numberText integerPart slot.2 := by
    rw [List.mem_append, List.mem_cons, not_or, not_or]
    exact ⟨not_mem_decimal newline, by decide, not_mem_numberText newline (by decide) (by decide)⟩
  have text : (showSlots integerPart (slot :: rest)).toList =
      decimal slot.1 ++ ' ' :: numberText integerPart slot.2 ++
        '\n' :: (showSlots (integerPart + slot.2 / 100) rest).toList := by
    change ((showSlot integerPart slot).1 ++
      showSlots (showSlot integerPart slot).2 rest).toList = _
    rw [String.toList_append, toList_showSlot, showSlot_snd nonneg counted fits,
      List.append_assoc _ ['\n']]
    rfl
  rw [text, lineNumbers_append absent, lineNumber_eq nonneg counted fits
    (not_mem_numberText (by decide) (by decide) (by decide))]

/-- Every line holds its utilization. -/
def ReadsBack (integerPart : ℤ) (slots : List (ℕ × ℤ)) : Prop :=
  lineNumbers (showSlots integerPart slots).toList =
    slots.map fun slot => some ((slot.2 : ℚ) / 100)

/-- Utilizations that a signed word holds. -/
def Utilizations (slots : List (ℕ × ℤ)) : Prop :=
  ∀ slot ∈ slots, 0 ≤ slot.2 ∧ slot.2 < 2147483648

private theorem readsBack_cons {integerPart : ℤ} {slot : ℕ × ℤ} {rest : List (ℕ × ℤ)}
    (nonneg : 0 ≤ slot.2) (counted : 0 ≤ integerPart)
    (fits : integerPart + slot.2 / 100 < 2147483648) :
    ReadsBack integerPart (slot :: rest) ↔
      (slot.2 < 100 ∨ integerPart = 0 ∧ (slot.2 % 100 = 0 ∨ 10 ≤ slot.2 % 100)) ∧
        ReadsBack (integerPart + slot.2 / 100) rest := by
  rw [ReadsBack, lineNumbers_showSlots nonneg counted fits, List.map_cons, List.cons.injEq,
    Option.some.injEq, numberValue_eq_iff counted]
  rfl

/-- Once a whole part was counted, no other is printed right. -/
theorem readsBack_of_pos {integerPart : ℤ} {slots : List (ℕ × ℤ)} (positive : 0 < integerPart)
    (fits : integerPart ≤ 21474836) (utilizations : Utilizations slots) :
    ReadsBack integerPart slots ↔ ∀ slot ∈ slots, slot.2 < 100 := by
  induction slots with
  | nil => simp [ReadsBack, showSlots, lineNumbers_nil]
  | cons slot rest ih =>
      obtain ⟨⟨nonneg, most⟩, others⟩ := List.forall_mem_cons.mp utilizations
      have ih := ih others
      rw [readsBack_cons nonneg positive.le (by omega), List.forall_mem_cons]
      constructor
      · rintro ⟨small | ⟨zero, _⟩, right⟩
        · have same : integerPart + slot.2 / 100 = integerPart := by omega
          rw [same] at right
          exact ⟨small, ih.mp right⟩
        · omega
      · rintro ⟨small, right⟩
        have same : integerPart + slot.2 / 100 = integerPart := by omega
        rw [same]
        exact ⟨.inl small, ih.mpr right⟩

/-- One utilization at most has a whole part, and its hundredths need no zero. -/
def PrintsRight (slots : List (ℕ × ℤ)) : Prop :=
  match slots.filter fun slot => 100 ≤ slot.2 with
  | [] => True
  | [slot] => slot.2 % 100 = 0 ∨ 10 ≤ slot.2 % 100
  | _ :: _ :: _ => False

private theorem readsBack_iff {slots : List (ℕ × ℤ)} (utilizations : Utilizations slots) :
    ReadsBack 0 slots ↔ PrintsRight slots := by
  induction slots with
  | nil => simp [ReadsBack, PrintsRight, showSlots, lineNumbers_nil]
  | cons slot rest ih =>
      obtain ⟨⟨nonneg, most⟩, others⟩ := List.forall_mem_cons.mp utilizations
      rw [readsBack_cons nonneg le_rfl (by omega), zero_add]
      by_cases small : slot.2 < 100
      · have same : slot.2 / 100 = 0 := by omega
        have filters : (slot :: rest).filter (fun slot => 100 ≤ slot.2) =
            rest.filter fun slot => 100 ≤ slot.2 :=
          List.filter_cons_of_neg (by simpa using small)
        rw [same, ih others, PrintsRight, PrintsRight, filters]
        exact and_iff_right (.inl small)
      · have filters : (slot :: rest).filter (fun slot => 100 ≤ slot.2) =
            slot :: rest.filter fun slot => 100 ≤ slot.2 :=
          List.filter_cons_of_pos (by simpa using not_lt.mp small)
        rw [readsBack_of_pos (by omega) (by omega) others, PrintsRight, filters,
          or_iff_right small, eq_self_iff_true, true_and]
        cases whole : rest.filter fun slot => 100 ≤ slot.2 with
        | nil =>
            apply and_iff_left
            intro other mem
            simpa using List.filter_eq_nil_iff.mp whole other mem
        | cons other more =>
            have mem : other ∈ rest.filter fun slot => 100 ≤ slot.2 := by
              rw [whole]
              exact List.mem_cons_self
            obtain ⟨mem, large⟩ := List.mem_filter.mp mem
            apply iff_of_false _ id
            rintro ⟨_, right⟩
            exact (right other mem).not_ge (by simpa using large)

theorem tidShow_eq {s : Kernel} {tid : Tid} {slots : List (ℕ × ℤ)} {final : Ring}
    (found : s.found tid = true)
    (drains : (s.reserve tid).ring.drain loopRounds = .ok (slots, final)) :
    s.tidShow tid = .ok (((showSlots 0 slots).length : ℤ), showSlots 0 slots,
      s.modify tid fun reserve => { reserve with ring := final }) := by
  unfold Kernel.tidShow
  rw [if_neg (by simp [found]), drains]
  rfl

/-- The numbers in the `util` file are the utilizations of the records, if and only if
one of them at most is a whole or more, with no single hundredths. -/
theorem tidShow_numbers_iff {s : Kernel} {tid : Tid} {slots : List (ℕ × ℤ)} {final : Ring}
    (found : s.found tid = true)
    (drains : (s.reserve tid).ring.drain loopRounds = .ok (slots, final))
    (utilizations : Utilizations slots) : ∃ text s',
    s.tidShow tid = .ok ((text.length : ℤ), text, s') ∧
      (lineNumbers text.toList = (slots.map fun slot => some ((slot.2 : ℚ) / 100)) ↔
        PrintsRight slots) :=
  ⟨showSlots 0 slots, _, tidShow_eq found drains, readsBack_iff utilizations⟩

/-- A task with a given buffer. -/
def bufferedTask (ring : Ring) : Kernel :=
  Kernel.modify .bare 1 fun reserve => { reserve with ring := ring }

/-- A task whose buffer holds one record. -/
def recordedTask (accTime : ℕ) (util : ℤ) : Kernel :=
  bufferedTask (newRing.record accTime util)

private theorem drain_recordedTask (accTime : ℕ) (util : ℤ) : ∃ final,
    ((recordedTask accTime util).reserve 1).ring.drain loopRounds =
      .ok ([(accTime, util)], final) := by
  have next : (newRing.record accTime util).last + 1 = ((0 + 1) % 4096 : ℕ) := rfl
  have start : (newRing.record accTime util).start = (0 % 4096 : ℕ) := rfl
  obtain ⟨final, drains, _⟩ := Ring.drain_eq start next (by decide)
    (show 1 < loopRounds by decide) rfl
  refine ⟨final, drains.trans ?_⟩
  rfl

/-- A utilization of one half. -/
theorem tidShow_numbers_iff_half : ∃ text s',
    (recordedTask 7 50).tidShow 1 = .ok ((text.length : ℤ), text, s') ∧
      (lineNumbers text.toList = [some (((50 : ℤ) : ℚ) / 100)] ↔ PrintsRight [(7, 50)]) := by
  obtain ⟨final, drains⟩ := drain_recordedTask 7 50
  have utilizations : Utilizations [(7, 50)] := by
    unfold Utilizations
    decide
  exact tidShow_numbers_iff rfl drains utilizations

/-- A utilization of 105 hundredths is printed as one and a half. -/
theorem tidShow_numbers_wrong : ∃ s',
    (recordedTask 7 105).tidShow 1 = .ok (6, "7 1.5\n", s') ∧
      lineNumbers "7 1.5\n".toList = [some (3 / 2)] ∧ (105 : ℚ) / 100 ≠ 3 / 2 := by
  obtain ⟨final, drains⟩ := drain_recordedTask 7 105
  have text : showSlots 0 [(7, 105)] = "7 1.5\n" := by decide
  have read : lineNumbers "7 1.5\n".toList = [some (3 / 2)] := by
    have value : numberValue 0 105 = 3 / 2 := by
      have digits : (decimal 5).length = 1 := length_decimal_of_lt (by decide)
      change ((1 : ℤ) : ℚ) + ((5 : ℤ) : ℚ) / 10 ^ (decimal 5).length = 3 / 2
      rw [digits]
      norm_num
    rw [← text, lineNumbers_showSlots (by decide) le_rfl (by decide), value]
    rfl
  have shown := tidShow_eq rfl drains
  rw [text] at shown
  exact ⟨_, shown, read, by norm_num⟩

end Rtes.Reservation
