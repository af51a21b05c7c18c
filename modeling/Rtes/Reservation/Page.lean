import Rtes.Reservation.Print

/-!
# The page of the `util` file

`tid_show` prints into one page, and tells every call of `scnprintf` that all of the
page is left.  A single line is never longer than that, but nothing bounds the lines
together: what is printed fits the page only while few records are unread.
-/

namespace Rtes.Reservation

open Rtes.Slots Rtes.Text Rtes.Transition Rtes.Word

/-- `PAGE_SIZE`. -/
def pageSize : ℕ := 4096

/-! ## Lengths of lines -/

/-- The values of a slot: an `unsigned long long` and an `int`. -/
def IsSlot (slot : ℕ × ℤ) : Prop :=
  slot.1 < 18446744073709551616 ∧ IsInt slot.2

section Line

variable {integerPart utilization : ℤ} {rounds : ℕ}

/-- `integer_part` may wrap, but stays an `int`. -/
theorem isInt_takeWhole (counted : IsInt integerPart) :
    IsInt (takeWhole rounds utilization integerPart).2 := by
  induction rounds generalizing utilization integerPart with
  | zero => exact counted
  | succ rounds ih =>
      rw [takeWhole]
      split
      · exact ih (isInt_int32 _)
      · exact counted

private theorem length_numberText_le (isInt : IsInt utilization) (counted : IsInt integerPart) :
    (numberText integerPart utilization).length ≤ 14 := by
  have digits := length_signedDecimal_int isInt
  unfold numberText
  split
  · simp only [List.length_cons]
    omega
  · split
    · simp only [List.length_cons]
      omega
    · rename_i large
      have whole := length_signedDecimal_int
        (@isInt_takeWhole integerPart utilization utilization.toNat counted)
      have rest := takeWhole_fst (by omega) (by omega : utilization < 100 * (utilization.toNat + 1))
        integerPart
      have hundredths : (signedDecimal (utilization % 100)).length ≤ 2 := by
        rw [signedDecimal_of_nonneg (by omega)]
        exact length_decimal_le (by decide) (by omega)
      dsimp only
      rw [rest, List.length_append, List.length_cons]
      omega

end Line

section Slot

variable {integerPart : ℤ} {slot : ℕ × ℤ} {slots : List (ℕ × ℤ)}

private theorem length_showSlot_le (isSlot : IsSlot slot) (counted : IsInt integerPart) :
    (showSlot integerPart slot).1.length ≤ 36 := by
  have stamp := length_decimal_le (by decide : 0 < 20) (isSlot.1.trans (by decide))
  have number := length_numberText_le isSlot.2 counted
  rw [← String.length_toList, toList_showSlot]
  simp only [List.length_append, List.length_cons, List.length_nil]
  omega

private theorem isInt_showSlot (counted : IsInt integerPart) :
    IsInt (showSlot integerPart slot).2 := by
  obtain ⟨period, utilization⟩ := slot
  unfold showSlot
  dsimp only
  split
  · exact counted
  · split
    · exact counted
    · exact isInt_takeWhole counted

private theorem length_showSlots_le (isSlots : ∀ slot ∈ slots, IsSlot slot)
    (counted : IsInt integerPart) :
    (showSlots integerPart slots).length ≤ 36 * slots.length := by
  induction slots generalizing integerPart with
  | nil => exact Nat.zero_le _
  | cons slot rest ih =>
      obtain ⟨isSlot, others⟩ := List.forall_mem_cons.mp isSlots
      have line := length_showSlot_le isSlot counted
      have lines := ih others (@isInt_showSlot integerPart slot counted)
      rw [showSlots, String.length_append, List.length_cons]
      omega

end Slot

/-! ## The first round through the buffer -/

/-- What the buffer holds until it has been written to the end, whatever the
timestamps are. -/
structure FirstRound (log : Log) (ring : Ring) : Prop where
  located : Located log.records.length ring
  few : log.records.length < 4096
  read_le : log.read ≤ log.records.length
  blank : ∀ k, log.records.length ≤ k → ring.periods k = 0
  keeps : Keeps 4096 ring.slot log.read log.records
  start : ring.start = log.read
  bufferFull : ring.bufferFull = false

namespace FirstRound

variable {log : Log} {ring final : Ring}

theorem record (round : FirstRound log ring) (accTime : ℕ) (util : ℤ)
    (few : log.records.length < 4095) :
    FirstRound (log.update (.record accTime util)) (ring.record accTime util) := by
  have place : log.records.length % 4096 = log.records.length := Nat.mod_eq_of_lt round.few
  have last := round.located.record_last accTime util
  have length : (log.update (.record accTime util)).records.length = log.records.length + 1 :=
    List.length_append
  -- The slot is not in use, so that it is not mistaken for the oldest one.
  have free : ¬ ((ring.record accTime util).last = ring.start ∧
      ring.periods ring.start.toNat ≠ 0) := by
    rintro ⟨same, used⟩
    have start := round.start
    exact used (round.blank _ (by omega))
  constructor
  · rw [length]
    exact round.located.record accTime util
  · rw [length]
    omega
  · rw [length]
    exact round.read_le.trans (Nat.le_succ _)
  · intro k after
    rw [length] at after
    have slots := congrArg Prod.fst (congrFun (Ring.slot_record last) k)
    rw [Function.update_of_ne (by omega)] at slots
    exact slots.trans (round.blank k (by omega))
  · rw [Ring.slot_record last]
    exact round.keeps.push (accTime, util)
  · exact (if_neg free).trans round.start
  · exact (if_neg free).trans round.bufferFull

/-- A read ends, and prints the records since the last one. -/
theorem drains (round : FirstRound log ring) : ∃ final,
    ring.drain loopRounds = .ok (log.records.drop log.read, final) := by
  have few := round.few
  have readLe := round.read_le
  have start : ring.start = (log.read % 4096 : ℕ) := by
    rw [round.start, Nat.mod_eq_of_lt (by omega)]
  have last : ring.last + 1 =
      ((log.read + (log.records.length - log.read)) % 4096 : ℕ) := by
    have last := round.located.last
    split_ifs at last
    · omega
    · omega
  obtain ⟨final, drains, _⟩ := Ring.drain_eq start last (by omega)
    (show log.records.length - log.read < loopRounds by unfold loopRounds; omega) round.bufferFull
  rw [round.keeps.window_eq le_rfl (by omega) (by omega)] at drains
  exact ⟨final, drains⟩

theorem drain (round : FirstRound log ring) {slots : List (ℕ × ℤ)}
    (returns : ring.drain loopRounds = .ok (slots, final)) :
    FirstRound (log.update .tidShow) final := by
  have drained := Ring.drained returns
  refine ⟨round.located.drain returns, round.few, le_rfl, ?_, keeps_length _ _ _, ?_,
    drained.bufferFull⟩
  · rw [drained.periods]
    exact round.blank
  · have last := round.located.last
    have few := round.few
    rw [drained.start]
    simp only [Log.update]
    split_ifs at last
    · omega
    · omega

end FirstRound

/-- A record is made in the first round through the buffer, and less than 113 others
are not read yet. -/
def Spare (now : Ring × Log) : RingOp → Prop
  | .record accTime util =>
      IsSlot (accTime, util) ∧ now.2.records.length < 4095 ∧
        now.2.records.length < now.2.read + 113
  | .tidShow => True

/-- What a run of such records and any reads leads to. -/
structure Paged (log : Log) (ring : Ring) : Prop where
  round : FirstRound log ring
  isSlots : ∀ slot ∈ log.records, IsSlot slot
  unread : log.records.length ≤ log.read + 113

private theorem reaches_paged {now : Ring × Log} (reached : Reaches loggedStep Spare Begins now) :
    Paged now.2 now.1 := by
  apply reached.observed
  · rintro ⟨ring, log⟩ ⟨setUp, rfl⟩
    refine ⟨⟨setUp.located, Nat.zero_lt_succ _, le_rfl, fun k _ => setUp.periods k,
      keeps_nil _ _ _, setUp.start, setUp.bufferFull⟩, ?_, Nat.zero_le _⟩
    rintro slot mem
    cases mem
  · rintro ⟨ring, log⟩ op target ⟨round, isSlots, unread⟩ spare taken
    cases op with
    | record accTime util =>
        cases taken
        obtain ⟨isSlot, few, room⟩ := spare
        refine ⟨round.record accTime util few, ?_, ?_⟩
        · rintro slot mem
          rcases List.mem_append.mp mem with before | added
          · exact isSlots slot before
          · rw [List.mem_singleton.mp added]
            exact isSlot
        · change (log.records ++ [(accTime, util)]).length ≤ log.read + 113
          rw [List.length_append, List.length_singleton]
          exact room
    | tidShow =>
        obtain ⟨⟨slots, final⟩, drains, result⟩ := bind_eq_ok_iff.mp taken
        cases result
        exact ⟨round.drain drains, isSlots, Nat.le_add_right _ _⟩

/-- As long as a record is only made in the first round through the buffer, and while
less than 113 others are unread, a read of the `util` file ends and fits the page, and
so does every line of it. -/
theorem reaches_page {s : Kernel} {tid : Tid} {log : Log}
    (reached : Reaches loggedStep Spare Begins ((s.reserve tid).ring, log)) :
    (∃ size text s', s.tidShow tid = .ok (size, text, s') ∧ text.length ≤ pageSize ∧
      size ≤ pageSize ∧ (s.found tid = true → size = text.length)) ∧
      ∀ slot ∈ log.records, ∀ integerPart, IsInt integerPart →
        (showSlot integerPart slot).1.length < pageSize := by
  obtain ⟨round, isSlots, unread⟩ := reaches_paged reached
  constructor
  · by_cases found : s.found tid = true
    · obtain ⟨final, drains⟩ := round.drains
      have total : (showSlots 0 (log.records.drop log.read)).length ≤ pageSize := by
        have zero : IsInt 0 := ⟨by decide, by decide⟩
        have unreadSlots : ∀ slot ∈ log.records.drop log.read, IsSlot slot := by
          intro slot mem
          exact isSlots slot (List.mem_of_mem_drop mem)
        have lines := length_showSlots_le unreadSlots zero
        rw [List.length_drop] at lines
        dsimp only at unread
        unfold pageSize
        omega
      exact ⟨_, _, _, tidShow_eq found drains, total, by exact_mod_cast total, fun _ => rfl⟩
    · have missing : s.tidShow tid = .ok (ESRCH, "", s) := by
        unfold Kernel.tidShow
        rw [if_pos (by simpa using found)]
      exact ⟨_, _, _, missing, by decide, by decide, fun finds => absurd finds found⟩
  · intro slot mem integerPart counted
    exact (length_showSlot_le (isSlots slot mem) counted).trans_lt (by decide)

/-- A page with a single line. -/
theorem reaches_page_single :
    (∃ size text s', (recordedTask 7 50).tidShow 1 = .ok (size, text, s') ∧
      text.length ≤ pageSize ∧ size ≤ pageSize ∧
        ((recordedTask 7 50).found 1 = true → size = text.length)) ∧
      ∀ slot ∈ [(7, 50)], ∀ integerPart, IsInt integerPart →
        (showSlot integerPart slot).1.length < pageSize := by
  have isSlot : IsSlot (7, 50) := ⟨by decide, by decide, by decide⟩
  have reached : Reaches loggedStep Spare Begins
      (((recordedTask 7 50).reserve 1).ring, ⟨[(7, 50)], 0⟩) :=
    reaches_record (.start begins_newRing) ⟨isSlot, by decide, by decide⟩
  exact reaches_page reached

private theorem length_showSlots_replicate (count : ℕ) :
    (showSlots 0 (List.replicate count (1, 0))).length = 7 * count := by
  have line : showSlot 0 (1, 0) = ("1 0.00\n", 0) := by decide
  have length : "1 0.00\n".length = 7 := by decide
  induction count with
  | zero => rfl
  | succ count ih =>
      rw [List.replicate_succ, showSlots, line]
      dsimp only
      rw [String.length_append, ih, length]
      omega

/-- Six hundred records of an idle task are printed past the end of the page. -/
theorem reaches_past_page : ∃ s log text s',
    Reaches loggedStep (fun _ op => op.Stamped) Begins ((Kernel.reserve s 1).ring, log) ∧
      log.records = List.replicate 600 (1, 0) ∧ s.tidShow 1 = .ok (4200, text, s') ∧
      text.length = 4200 ∧ pageSize < text.length := by
  have start : Reaches loggedStep (fun _ op => op.Stamped) Begins (newRing, ⟨[], 0⟩) :=
    .start begins_newRing
  obtain ⟨ring, reached⟩ := reaches_records start (List.replicate 600 (1, 0)) (by
    intro now entry member
    rw [List.eq_of_mem_replicate member]
    exact one_ne_zero)
  rw [List.nil_append] at reached
  have located := reaches_located reached
  rw [List.length_replicate] at located
  obtain ⟨⟨slots, final⟩, drains⟩ := located.drain_ends (by rw [located.last]; decide)
    (show 4096 < loopRounds by decide)
  have printed : slots = List.replicate 600 (1, 0) := by
    have reported : Reported 0 (List.replicate 600 ((1, 0) : ℕ × ℤ)).length := by
      rw [List.length_replicate, Reported]
      decide
    rw [((reaches_logged reached).slots_eq_unread_iff drains).mpr reported, Log.unread_eq]
    dsimp only
    rw [List.length_replicate, List.drop_zero]
  have length : (showSlots 0 slots).length = 4200 := by
    rw [printed, length_showSlots_replicate]
  have shown := @tidShow_eq (bufferedTask ring) 1 slots final rfl drains
  rw [length] at shown
  refine ⟨bufferedTask ring, _, _, _, reached, rfl, shown, length, ?_⟩
  rw [length]
  decide

end Rtes.Reservation
