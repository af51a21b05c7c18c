import Rtes.Reservation.Timer
import Rtes.Slots.Ring
import Rtes.Transition.History

/-!
# The utilization buffer

The period timer records the utilization of every period in a circular buffer,
and a read of the `util` file of a task prints the buffer from `start` on until
`start` has come to the slot after the last.  Which slots that are depends on the
whole history of records and reads; in particular, `start` comes round to 0 at
the end of the buffer and the slot after the last does not.
-/

namespace Rtes.Reservation

open Rtes.Slots Rtes.Transition Rtes.Word

/-! ## Reading the file -/

/-- The loop that takes the whole parts out of a utilization of a hundred or more
and counts them in `integer_part`. -/
def takeWhole : (rounds : ℕ) → (utilization integerPart : ℤ) → ℤ × ℤ
  | 0, utilization, integerPart => (utilization, integerPart)
  | rounds + 1, utilization, integerPart =>
      if 100 ≤ utilization then takeWhole rounds (utilization - 100) (int32 (integerPart + 1))
      else (utilization, integerPart)

namespace Ring

/-- The timestamp and the utilization in a slot. -/
def slot (ring : Ring) (k : ℕ) : ℕ × ℤ :=
  (ring.periods k, ring.utilization k)

/-- What a round of the loop does to the buffer: the whole parts are taken out of
the utilization that is printed, and `start` moves on. -/
def advance (ring : Ring) : Ring :=
  let utilization := ring.utilization ring.start.toNat
  { ring with
    utilization := Function.update ring.utilization ring.start.toNat
      (takeWhole utilization.toNat utilization 0).1
    start := if bufLength ≤ ring.start + 1 then ring.start + 1 - bufLength else ring.start + 1
    bufferFull := false }

/-- The loop of `tid_show`: the slots that are printed, and the buffer after
it. -/
def drain : (rounds : ℕ) → Ring → Except Fault (List (ℕ × ℤ) × Ring)
  | 0, _ => .error .divergence
  | rounds + 1, ring =>
      if ring.start ≠ ring.last + 1 ∨ ring.bufferFull then do
        let (rest, final) ← drain rounds ring.advance
        .ok (ring.slot ring.start.toNat :: rest, final)
      else
        .ok ([], ring)

end Ring

/-! ## How often the loop runs -/

namespace Ring

variable {ring final : Ring} {i count rounds : ℕ}

private theorem slot_advance {k : ℕ} (other : k ≠ ring.start.toNat) :
    ring.advance.slot k = ring.slot k := by
  simp only [slot, advance, Function.update_of_ne other]

theorem start_advance (start : ring.start = (i % 4096 : ℕ)) :
    ring.advance.start = ((i + 1) % 4096 : ℕ) := by
  simp only [advance, start, bufLength]
  split
  · omega
  · omega

/-- The buffer after the loop: `start` is at the slot after the last. -/
structure Drained (ring final : Ring) : Prop where
  periods : final.periods = ring.periods
  last : final.last = ring.last
  start : final.start = ring.last + 1
  bufferFull : final.bufferFull = false

/-- Unless the buffer is full, the loop runs from `start` to the last slot. -/
theorem drain_eq (start : ring.start = (i % 4096 : ℕ))
    (last : ring.last + 1 = ((i + count) % 4096 : ℕ)) (few : count < 4096)
    (enough : count < rounds) (room : ring.bufferFull = false) :
    ∃ final, ring.drain rounds = .ok (window 4096 ring.slot i count, final) ∧
      Drained ring final := by
  induction count generalizing ring i rounds with
  | zero =>
      obtain ⟨rounds, rfl⟩ := Nat.exists_eq_succ_of_ne_zero enough.ne'
      have stops : ring.start = ring.last + 1 := by rw [start, last, Nat.add_zero]
      refine ⟨ring, ?_, rfl, rfl, stops, room⟩
      rw [drain, if_neg (by simp [stops, room]), window_zero]
  | succ count ih =>
      obtain ⟨rounds, rfl⟩ := Nat.exists_eq_succ_of_ne_zero (Nat.ne_zero_of_lt enough)
      have place : ring.start.toNat = i % 4096 := by omega
      have goes : ring.start ≠ ring.last + 1 := by omega
      have next : ring.advance.last + 1 = ((i + 1 + count) % 4096 : ℕ) := by
        change ring.last + 1 = _
        omega
      have left : count < rounds := Nat.lt_of_succ_lt_succ enough
      obtain ⟨final, drains, periods, isLast, isStart, notFull⟩ :=
        ih (start_advance start) next (Nat.lt_of_succ_lt few) left rfl
      refine ⟨final, ?_, periods, isLast, isStart, notFull⟩
      rw [drain, if_pos (.inl goes), drains, ok_bind, window_succ, place,
        window_congr (by omega) fun k other => slot_advance (place ▸ other)]

/-- A full buffer is printed from `start` to the last slot too, and if they
follow each other that is all of it. -/
theorem drain_full (start : ring.start = (i % 4096 : ℕ))
    (last : ring.last + 1 = ((i + count + 1) % 4096 : ℕ)) (few : count < 4096)
    (enough : count + 1 < rounds) (full : ring.bufferFull = true) :
    ∃ final, ring.drain rounds = .ok (window 4096 ring.slot i (count + 1), final) ∧
      Drained ring final := by
  obtain ⟨rounds, rfl⟩ := Nat.exists_eq_succ_of_ne_zero (Nat.ne_zero_of_lt enough)
  have place : ring.start.toNat = i % 4096 := by omega
  have next : ring.advance.last + 1 = ((i + 1 + count) % 4096 : ℕ) := by
    change ring.last + 1 = _
    omega
  have left : count < rounds := Nat.lt_of_succ_lt_succ enough
  obtain ⟨final, drains, periods, isLast, isStart, notFull⟩ :=
    drain_eq (start_advance start) next few left rfl
  refine ⟨final, ?_, periods, isLast, isStart, notFull⟩
  rw [drain, if_pos (.inr full), drains, ok_bind, window_succ, place,
    window_congr few fun k other => slot_advance (place ▸ other)]

/-- At the end of the buffer the slot after the last is never come to. -/
theorem drain_diverges (last : ring.last = 4095) (low : 0 ≤ ring.start)
    (high : ring.start < 4096) (rounds : ℕ) : ring.drain rounds = .error .divergence := by
  induction rounds generalizing ring with
  | zero => rfl
  | succ rounds ih =>
      have goes : ring.start ≠ ring.last + 1 := by omega
      have place : ring.start = (ring.start.toNat % 4096 : ℕ) := by omega
      have next := start_advance place
      have rest : ring.advance.drain rounds = .error .divergence :=
        ih last (by omega) (by omega)
      rw [drain, if_pos (.inl goes), rest]
      rfl

/-- However often the loop runs, it leaves the buffer drained. -/
theorem drained {slots : List (ℕ × ℤ)} (returns : ring.drain rounds = .ok (slots, final)) :
    Drained ring final := by
  induction rounds generalizing ring slots with
  | zero => cases returns
  | succ rounds ih =>
      rw [drain] at returns
      split at returns
      · obtain ⟨⟨rest, last⟩, drains, result⟩ := bind_eq_ok_iff.mp returns
        cases result
        obtain ⟨periods, isLast, start, notFull⟩ := ih drains
        exact ⟨periods, isLast, start, notFull⟩
      · rename_i stops
        cases returns
        simp only [not_or, not_not, Bool.not_eq_true] at stops
        exact ⟨rfl, rfl, stops.1, stops.2⟩

/-- The loop stops after a number of rounds. -/
def StopsWithin (ring : Ring) (count : ℕ) : Prop :=
  ∃ result, ring.drain (count + 1) = .ok result

end Ring

/-! ## Records and reads -/

/-- The end of a period is recorded, or the file is read. -/
inductive RingOp where
  | record (accTime : ℕ) (util : ℤ)
  | tidShow

def ringStep (ring : Ring) : RingOp → Except Fault Ring
  | .record accTime util => .ok (ring.record accTime util)
  | .tidShow => do
      let (_, ring) ← ring.drain loopRounds
      .ok ring

/-- All records that were made, and how many of them at the last read. -/
structure Log where
  records : List (ℕ × ℤ)
  read : ℕ

namespace Log

def update (log : Log) : RingOp → Log
  | .record accTime util => { log with records := log.records ++ [(accTime, util)] }
  | .tidShow => { log with read := log.records.length }

/-- The records since the last read, but no more than fit the buffer. -/
def unread (log : Log) : List (ℕ × ℤ) :=
  let since := log.records.drop log.read
  since.drop (since.length - 4096)

theorem unread_eq (log : Log) :
    log.unread = log.records.drop (log.read + (log.records.length - log.read - 4096)) := by
  simp only [unread, List.length_drop, List.drop_drop]

end Log

/-- Steps of the buffer, with the log kept beside it. -/
def loggedStep : Ring × Log → RingOp → Except Fault (Ring × Log) :=
  observe ringStep fun _ op _ log => log.update op

/-- The buffer as `set_reserve` sets it up. -/
structure Ring.SetUp (ring : Ring) : Prop where
  periods : ∀ k, ring.periods k = 0
  start : ring.start = 0
  last : ring.last = -1
  bufferFull : ring.bufferFull = false

/-- Nothing is recorded yet. -/
def Begins (now : Ring × Log) : Prop :=
  now.1.SetUp ∧ now.2 = ⟨[], 0⟩

/-- Where the buffer is after a number of records. -/
structure Located (count : ℕ) (ring : Ring) : Prop where
  low : 0 ≤ ring.start
  high : ring.start < 4096
  last : ring.last = if count = 0 then (-1 : ℤ) else ((count - 1) % 4096 : ℕ)

namespace Located

variable {ring final : Ring} {count rounds : ℕ}

theorem record_last (located : Located count ring) (accTime : ℕ) (util : ℤ) :
    (ring.record accTime util).last = (count % 4096 : ℕ) := by
  have last := located.last
  simp only [Ring.record, bufLength]
  split_ifs at last ⊢
  · omega
  · omega

theorem record (located : Located count ring) (accTime : ℕ) (util : ℤ) :
    Located (count + 1) (ring.record accTime util) := by
  have low := located.low
  have high := located.high
  refine ⟨?_, ?_, ?_⟩
  · simp only [Ring.record, bufLength]
    split_ifs
    · omega
    · omega
  · simp only [Ring.record, bufLength]
    split_ifs
    · omega
    · omega
  · rw [located.record_last, if_neg (Nat.succ_ne_zero count), Nat.add_sub_cancel]

theorem last_ne (located : Located count ring) {slots : List (ℕ × ℤ)}
    (returns : ring.drain rounds = .ok (slots, final)) : ring.last ≠ 4095 := by
  intro isLast
  rw [Ring.drain_diverges isLast located.low located.high] at returns
  cases returns

theorem drain (located : Located count ring) {slots : List (ℕ × ℤ)}
    (returns : ring.drain rounds = .ok (slots, final)) : Located count final := by
  have last := located.last
  have notLast := located.last_ne returns
  obtain ⟨_, isLast, start, _⟩ := Ring.drained returns
  refine ⟨?_, ?_, isLast.trans last⟩
  · rw [start]
    split_ifs at last
    · omega
    · omega
  · rw [start]
    split_ifs at last
    · omega
    · omega

/-- Unless the last record is at the end of the buffer, the loop is over after one
round through it. -/
theorem drain_ends (located : Located count ring) (notLast : ring.last ≠ 4095)
    (enough : 4096 < rounds) : ∃ result, ring.drain rounds = .ok result := by
  have low := located.low
  have high := located.high
  have bounds : 0 ≤ ring.last + 1 ∧ ring.last + 1 < 4096 := by
    have last := located.last
    split_ifs at last
    · omega
    · omega
  have start : ring.start = (ring.start.toNat % 4096 : ℕ) := by omega
  cases full : ring.bufferFull with
  | false =>
      have ahead : ring.last + 1 =
          ((ring.start.toNat + ((ring.last + 1 - ring.start) % 4096).toNat) % 4096 : ℕ) := by
        omega
      obtain ⟨final, drains, _⟩ := Ring.drain_eq start ahead (by omega)
        (show _ < rounds by omega) full
      exact ⟨_, drains⟩
  | true =>
      have ahead : ring.last + 1 =
          ((ring.start.toNat + ((ring.last - ring.start) % 4096).toNat + 1) % 4096 : ℕ) := by
        omega
      obtain ⟨final, drains, _⟩ := Ring.drain_full start ahead (by omega)
        (show _ < rounds by omega) full
      exact ⟨_, drains⟩

private theorem stopsWithin_iff (located : Located count ring) :
    ring.StopsWithin 4096 ↔ ring.last ≠ 4095 := by
  constructor
  · rintro ⟨⟨slots, final⟩, returns⟩
    exact located.last_ne returns
  · intro notLast
    exact located.drain_ends notLast (Nat.lt_succ_self 4096)

end Located

theorem Ring.SetUp.located {ring : Ring} (setUp : ring.SetUp) : Located 0 ring :=
  ⟨by rw [setUp.start], by rw [setUp.start]; decide, setUp.last⟩

/-- Wherever a run of records and reads has come to. -/
theorem reaches_located {allowed : Ring × Log → RingOp → Prop} {now : Ring × Log}
    (reached : Reaches loggedStep allowed Begins now) : Located now.2.records.length now.1 := by
  apply reached.observed
  · rintro ⟨ring, log⟩ ⟨setUp, rfl⟩
    exact setUp.located
  · rintro ⟨ring, log⟩ op target located _ taken
    cases op with
    | record accTime util =>
        cases taken
        simpa [Log.update] using located.record accTime util
    | tidShow =>
        obtain ⟨⟨slots, final⟩, drains, result⟩ := bind_eq_ok_iff.mp taken
        cases result
        exact located.drain drains

section Reach

variable {allowed : Ring × Log → RingOp → Prop} {ring ring' : Ring} {log : Log}

theorem reaches_record (reached : Reaches loggedStep allowed Begins (ring, log)) {accTime : ℕ}
    {util : ℤ} (permitted : allowed (ring, log) (.record accTime util)) :
    Reaches loggedStep allowed Begins
      (ring.record accTime util, { log with records := log.records ++ [(accTime, util)] }) :=
  .next reached permitted rfl

/-- Further records can be made at any time. -/
theorem reaches_records (reached : Reaches loggedStep allowed Begins (ring, log))
    (more : List (ℕ × ℤ))
    (permitted : ∀ now, ∀ entry ∈ more, allowed now (.record entry.1 entry.2)) :
    ∃ ring', Reaches loggedStep allowed Begins
      (ring', { log with records := log.records ++ more }) := by
  induction more generalizing ring log with
  | nil => exact ⟨ring, by simpa using reached⟩
  | cons entry more ih =>
      have next := reaches_record reached (permitted _ entry List.mem_cons_self)
      obtain ⟨ring', reached'⟩ := ih next fun now other member =>
        permitted now other (List.mem_cons_of_mem _ member)
      refine ⟨ring', ?_⟩
      simpa using reached'

private theorem reaches_read (reached : Reaches loggedStep allowed Begins (ring, log))
    (permitted : allowed (ring, log) .tidShow) {slots : List (ℕ × ℤ)}
    (reads : ring.drain loopRounds = .ok (slots, ring')) :
    Reaches loggedStep allowed Begins (ring', { log with read := log.records.length }) := by
  have read : ringStep ring .tidShow = .ok ring' := bind_eq_ok_iff.mpr ⟨_, reads, rfl⟩
  exact .next reached permitted (bind_eq_ok_iff.mpr ⟨_, read, rfl⟩)

end Reach

/-- A buffer that was just set up. -/
def newRing : Ring :=
  ⟨fun _ => 0, fun _ => 0, 0, -1, false⟩

theorem begins_newRing : Begins (newRing, ⟨[], 0⟩) :=
  ⟨⟨fun _ => rfl, rfl, rfl, rfl⟩, rfl⟩

/-- After 4096 records a read never ends. -/
theorem reaches_not_stops :
    ∃ now, Reaches loggedStep (fun _ _ => True) Begins now ∧ now.2.records.length = 4096 ∧
      ∀ rounds, now.1.drain rounds = .error .divergence := by
  have start : Reaches loggedStep (fun _ _ => True) Begins (newRing, ⟨[], 0⟩) :=
    .start begins_newRing
  obtain ⟨ring, reached⟩ := reaches_records start (List.replicate 4096 (1, 0)) fun _ _ _ => trivial
  have located := reaches_located reached
  have length : (([] : List (ℕ × ℤ)) ++ List.replicate 4096 (1, 0)).length = 4096 := by
    rw [List.nil_append, List.length_replicate]
  refine ⟨_, reached, length, ?_⟩
  apply Ring.drain_diverges _ located.low located.high
  rw [located.last, length]
  rfl

/-- From every state that records and reads lead to, a read is over within 4096
rounds if and only if the number of records is not a multiple of 4096, or
zero. -/
theorem reaches_stopsWithin_iff {now : Ring × Log}
    (reached : Reaches loggedStep (fun _ _ => True) Begins now) :
    now.1.StopsWithin 4096 ↔
      now.2.records.length = 0 ∨ now.2.records.length % 4096 ≠ 0 := by
  have located := reaches_located reached
  have last := located.last
  rw [located.stopsWithin_iff, last]
  split_ifs
  · simp_all
  · omega

/-- Two records, a read, and another two: the next read is over within a round. -/
theorem reaches_stopsWithin_iff_reread :
    ∃ now : Ring × Log, now.2 = ⟨[(1, 10), (2, 20), (3, 30), (4, 40)], 2⟩ ∧ now.1.start = 2 ∧
      now.1.last = 3 ∧ now.1.StopsWithin 4096 := by
  let step := after loggedStep
  let twice := step (step (newRing, ⟨[], 0⟩) (.record 1 10)) (.record 2 20)
  let read := step twice .tidShow
  let now := step (step read (.record 3 30)) (.record 4 40)
  have start : Reaches loggedStep (fun _ _ => True) Begins (newRing, ⟨[], 0⟩) :=
    .start begins_newRing
  have recorded : Reaches loggedStep (fun _ _ => True) Begins twice :=
    (start.after trivial (by decide)).after trivial (by decide)
  have reached : Reaches loggedStep (fun _ _ => True) Begins now :=
    ((recorded.after trivial (by decide)).after trivial (by decide)).after trivial (by decide)
  have log : now.2 = ⟨[(1, 10), (2, 20), (3, 30), (4, 40)], 2⟩ := rfl
  refine ⟨now, log, rfl, rfl, (reaches_stopsWithin_iff reached).mpr (.inr ?_)⟩
  rw [log]
  decide

/-! ## What a read reports -/

/-- `start` has been pushed on since the last read: the buffer overflowed, or had
been through a whole round before it. -/
def Pushed (read count : ℕ) : Prop :=
  (4096 ≤ read ∧ read < count) ∨ read + 4096 < count

instance (read count : ℕ) : Decidable (Pushed read count) :=
  inferInstanceAs (Decidable (_ ∨ _))

/-- What the buffer holds, if no timestamp is zero: every slot that was written
is recognised as such, the unread records are in their places, and `start` is
the place of the first of them unless it was pushed on. -/
structure Logged (log : Log) (ring : Ring) : Prop where
  located : Located log.records.length ring
  read_le : log.read ≤ log.records.length
  stamped : ∀ k, k < 4096 → (ring.periods k ≠ 0 ↔ k < log.records.length)
  keeps : Keeps 4096 ring.slot log.read log.records
  start : ring.start =
    ((if Pushed log.read log.records.length then log.records.length else log.read) % 4096 : ℕ)
  bufferFull : ring.bufferFull = decide (Pushed log.read log.records.length)

namespace Ring

variable {ring : Ring} {accTime : ℕ} {util : ℤ} {k : ℕ}

theorem slot_record (last : (ring.record accTime util).last = k) :
    (ring.record accTime util).slot = Function.update ring.slot k (accTime, util) := by
  have place : (ring.record accTime util).last.toNat = k := by omega
  funext j
  rcases eq_or_ne j k with rfl | different
  · rw [Function.update_self, ← place]
    simp [slot, record]
  · rw [Function.update_of_ne different]
    rw [← place] at different
    exact Prod.ext (Function.update_of_ne different _ _) (Function.update_of_ne different _ _)

end Ring

/-- The records since a read are all there at the next read: of those made in the
first round through the buffer there are not just 4096, and later none or 4096 at
least. -/
def Reported (read count : ℕ) : Prop :=
  if read < 4096 then count ≠ read + 4096 else count = read ∨ read + 4096 ≤ count

namespace Logged

variable {log : Log} {ring final : Ring} {rounds : ℕ}

/-- The next record pushes `start` on if it takes its place and finds it
written. -/
theorem pushes_iff (logged : Logged log ring) (accTime : ℕ) (util : ℤ) :
    ((ring.record accTime util).last = ring.start ∧ ring.periods ring.start.toNat ≠ 0) ↔
      Pushed log.read (log.records.length + 1) := by
  have readLe := logged.read_le
  have start := logged.start
  have low := logged.located.low
  have high := logged.located.high
  rw [logged.stamped ring.start.toNat (by omega), logged.located.record_last]
  by_cases pushed : Pushed log.read log.records.length
  · rw [if_pos pushed] at start
    unfold Pushed at pushed ⊢
    omega
  · rw [if_neg pushed] at start
    unfold Pushed at pushed ⊢
    omega

theorem record (logged : Logged log ring) {accTime : ℕ} (stamp : accTime ≠ 0) (util : ℤ) :
    Logged (log.update (.record accTime util)) (ring.record accTime util) := by
  have pushes := logged.pushes_iff accTime util
  have last := logged.located.record_last accTime util
  have length : (log.update (.record accTime util)).records.length = log.records.length + 1 :=
    List.length_append
  have read : (log.update (.record accTime util)).read = log.read := rfl
  have start : (ring.record accTime util).start =
      if (ring.record accTime util).last = ring.start ∧ ring.periods ring.start.toNat ≠ 0 then
        if bufLength ≤ ring.start + 1 then ring.start + 1 - bufLength else ring.start + 1
      else ring.start := rfl
  have bufferFull : (ring.record accTime util).bufferFull =
      if (ring.record accTime util).last = ring.start ∧ ring.periods ring.start.toNat ≠ 0 then true
      else ring.bufferFull := rfl
  constructor
  · rw [length]
    exact logged.located.record accTime util
  · rw [length]
    exact logged.read_le.trans (Nat.le_succ _)
  · intro k less
    have slots := congrArg Prod.fst (congrFun (Ring.slot_record last) k)
    change (ring.record accTime util).periods k = _ at slots
    rw [length, slots]
    rcases eq_or_ne k (log.records.length % 4096) with rfl | different
    · rw [Function.update_self]
      exact iff_of_true stamp (Nat.lt_succ_of_le (Nat.mod_le _ _))
    · rw [Function.update_of_ne different]
      refine (logged.stamped k less).trans ?_
      omega
  · rw [Ring.slot_record last]
    exact logged.keeps.push (accTime, util)
  · rw [length, read, start]
    by_cases pushed : Pushed log.read (log.records.length + 1)
    · have takes := (pushes.mpr pushed).1
      rw [if_pos (pushes.mpr pushed), if_pos pushed]
      unfold bufLength
      split
      · omega
      · omega
    · have before : ¬ Pushed log.read log.records.length := by
        unfold Pushed at pushed ⊢
        omega
      rw [if_neg (mt pushes.mp pushed), if_neg pushed, logged.start, if_neg before]
  · rw [length, read, bufferFull]
    by_cases pushed : Pushed log.read (log.records.length + 1)
    · rw [if_pos (pushes.mpr pushed), decide_eq_true pushed]
    · have before : ¬ Pushed log.read log.records.length := by
        unfold Pushed at pushed ⊢
        omega
      rw [if_neg (mt pushes.mp pushed), decide_eq_false pushed, logged.bufferFull,
        decide_eq_false before]

/-- After a read that ends nothing is left, and `start` is where the next record
goes. -/
theorem drain (logged : Logged log ring) {slots : List (ℕ × ℤ)}
    (returns : ring.drain rounds = .ok (slots, final)) : Logged (log.update .tidShow) final := by
  have located := logged.located.drain returns
  have drained := Ring.drained returns
  have notLast := logged.located.last_ne returns
  have fresh : ¬ Pushed (log.update .tidShow).read (log.update .tidShow).records.length := by
    simp only [Log.update, Pushed]
    omega
  refine ⟨located, le_rfl, ?_, keeps_length _ _ _, ?_, ?_⟩
  · rw [drained.periods]
    exact logged.stamped
  · have last := logged.located.last
    rw [if_neg fresh, drained.start]
    simp only [Log.update]
    split_ifs at last
    · omega
    · omega
  · rw [drained.bufferFull, decide_eq_false fresh]

/-- A read prints the last 4096 slots from `start` on if it was pushed on, and
else the slots from the first unread record on, unless that are all. -/
theorem slots_eq (logged : Logged log ring) {slots : List (ℕ × ℤ)}
    (returns : ring.drain loopRounds = .ok (slots, final)) :
    slots =
      if Pushed log.read log.records.length then
        window 4096 ring.slot (log.records.length - 4096) 4096
      else if log.records.length = log.read + 4096 then
        []
      else
        window 4096 ring.slot log.read (log.records.length - log.read) := by
  have readLe := logged.read_le
  have start := logged.start
  have bufferFull := logged.bufferFull
  have notLast := logged.located.last_ne returns
  have next : ring.last + 1 = (log.records.length % 4096 : ℕ) := by
    have last := logged.located.last
    split_ifs at last
    · omega
    · omega
  have printed : ∀ {shown : List (ℕ × ℤ)},
      (∃ last, ring.drain loopRounds = .ok (shown, last) ∧ ring.Drained last) → slots = shown := by
    rintro shown ⟨last, drains, _⟩
    rw [returns] at drains
    exact congrArg Prod.fst (Except.ok.inj drains)
  by_cases pushed : Pushed log.read log.records.length
  · have many : 4096 ≤ log.records.length := by
      unfold Pushed at pushed
      omega
    rw [if_pos pushed] at start ⊢
    rw [decide_eq_true pushed] at bufferFull
    have place : ring.start = ((log.records.length - 4096) % 4096 : ℕ) := by omega
    have round : ring.last + 1 = ((log.records.length - 4096 + 4095 + 1) % 4096 : ℕ) := by omega
    exact printed (Ring.drain_full place round (by decide) (by decide) bufferFull)
  · have few : log.records.length ≤ log.read + 4096 := by
      unfold Pushed at pushed
      omega
    rw [if_neg pushed] at start ⊢
    rw [decide_eq_false pushed] at bufferFull
    split
    · have meets : ring.last + 1 = ((log.read + 0) % 4096 : ℕ) := by omega
      exact printed (Ring.drain_eq start meets (by decide) (by decide) bufferFull)
    · have ahead : ring.last + 1 =
          ((log.read + (log.records.length - log.read)) % 4096 : ℕ) := by omega
      have less : log.records.length - log.read < 4096 := by omega
      exact printed (Ring.drain_eq start ahead less (less.trans (by decide)) bufferFull)

/-- A read reports the records since the last one in order, each once, if and only
if they are all there. -/
theorem slots_eq_unread_iff (logged : Logged log ring) {slots : List (ℕ × ℤ)}
    (returns : ring.drain loopRounds = .ok (slots, final)) :
    slots = log.unread ↔ Reported log.read log.records.length := by
  have readLe := logged.read_le
  rw [logged.slots_eq returns, log.unread_eq]
  unfold Reported
  by_cases pushed : Pushed log.read log.records.length
  · rw [if_pos pushed]
    unfold Pushed at pushed
    by_cases whole : log.read + 4096 ≤ log.records.length
    · have shown : window 4096 ring.slot (log.records.length - 4096) 4096 =
          log.records.drop (log.records.length - 4096) :=
        logged.keeps.window_eq (by omega) (by omega) le_rfl
      have place : log.read + (log.records.length - log.read - 4096) =
          log.records.length - 4096 := by omega
      rw [shown, place]
      apply iff_of_true rfl
      · split_ifs
        · omega
        · omega
    · apply iff_of_false
      · intro same
        have lengths := congrArg List.length same
        rw [length_window, List.length_drop] at lengths
        omega
      · split_ifs
        · omega
        · omega
  · rw [if_neg pushed]
    unfold Pushed at pushed
    by_cases lost : log.records.length = log.read + 4096
    · rw [if_pos lost]
      apply iff_of_false
      · intro same
        have lengths := congrArg List.length same
        rw [List.length_nil, List.length_drop] at lengths
        omega
      · split_ifs
        · omega
        · omega
    · have shown : window 4096 ring.slot log.read (log.records.length - log.read) =
          log.records.drop log.read :=
        logged.keeps.window_eq le_rfl (by omega) (by omega)
      have place : log.read + (log.records.length - log.read - 4096) = log.read := by omega
      rw [if_neg lost, shown, place]
      apply iff_of_true rfl
      · split_ifs
        · omega
        · omega

end Logged

/-- No record has the timestamp zero. -/
def RingOp.Stamped : RingOp → Prop
  | .record accTime _ => accTime ≠ 0
  | .tidShow => True

theorem reaches_logged {now : Ring × Log}
    (reached : Reaches loggedStep (fun _ op => op.Stamped) Begins now) : Logged now.2 now.1 := by
  apply reached.observed
  · rintro ⟨ring, log⟩ ⟨setUp, rfl⟩
    have located : Located 0 ring := setUp.located
    refine ⟨located, le_rfl, ?_, keeps_nil _ _ _, setUp.start, setUp.bufferFull⟩
    intro k _
    exact iff_of_false (not_not.mpr (setUp.periods k)) (Nat.not_lt_zero k)
  · rintro ⟨ring, log⟩ op target logged stamped taken
    cases op with
    | record accTime util =>
        cases taken
        exact logged.record stamped util
    | tidShow =>
        obtain ⟨⟨slots, final⟩, drains, result⟩ := bind_eq_ok_iff.mp taken
        cases result
        exact logged.drain drains

/-- Once the buffer has been through a round, a single record makes the next read
report 4096. -/
theorem reaches_not_unread :
    ∃ now slots final, Reaches loggedStep (fun _ op => op.Stamped) Begins now ∧
      now.1.drain loopRounds = .ok (slots, final) ∧ now.2.unread.length = 1 ∧
      slots.length = 4096 := by
  have start : Reaches loggedStep (fun _ op => op.Stamped) Begins (newRing, ⟨[], 0⟩) :=
    .start begins_newRing
  obtain ⟨ring, reached⟩ := reaches_records start (List.replicate 4097 (1, 0)) (by
    intro now entry member
    rw [List.eq_of_mem_replicate member]
    exact one_ne_zero)
  have located := reaches_located reached
  rw [List.nil_append, List.length_replicate] at located
  obtain ⟨⟨shown, ring'⟩, reads⟩ := located.drain_ends (by rw [located.last]; decide)
    (show 4096 < loopRounds by decide)
  have stamped : RingOp.Stamped (.record 1 0) := one_ne_zero
  have more := reaches_record (reaches_read reached trivial reads) stamped
  rw [List.nil_append, List.length_replicate] at more
  have logged := reaches_logged more
  generalize isLog : Log.mk (List.replicate 4097 (1, 0) ++ [(1, 0)]) 4097 = log at more logged
  have length : log.records.length = 4098 := by
    rw [← isLog, List.length_append, List.length_replicate, List.length_singleton]
  have read : log.read = 4097 := by rw [← isLog]
  have notLast : (ring'.record 1 0).last ≠ 4095 := by
    rw [logged.located.last, length]
    decide
  obtain ⟨⟨slots, final⟩, returns⟩ := logged.located.drain_ends notLast
    (show 4096 < loopRounds by decide)
  refine ⟨_, slots, final, more, returns, ?_, ?_⟩
  · rw [Log.unread_eq, List.length_drop, length, read]
  · rw [logged.slots_eq returns, length, read, if_pos (by decide), length_window]

/-- After any records with timestamps other than zero and any reads that end, the
next read that ends reports exactly the records since the last one, and the last
4096 of more, if and only if they are all there. -/
theorem reaches_unread_iff {now : Ring × Log}
    (reached : Reaches loggedStep (fun _ op => op.Stamped) Begins now)
    {slots : List (ℕ × ℤ)} {final : Ring} (returns : now.1.drain loopRounds = .ok (slots, final)) :
    slots = now.2.unread ↔ Reported now.2.read now.2.records.length :=
  (reaches_logged reached).slots_eq_unread_iff returns

/-- A new buffer with one record. -/
theorem reaches_unread_iff_single : ∃ slots final,
    (newRing.record 7 50).drain loopRounds = .ok (slots, final) ∧
      (slots = [(7, 50)] ↔ Reported 0 1) := by
  have stamped : RingOp.Stamped (.record 7 50) := by
    unfold RingOp.Stamped
    decide
  have reached : Reaches loggedStep (fun _ op => op.Stamped) Begins
      (newRing.record 7 50, ⟨[(7, 50)], 0⟩) :=
    reaches_record (.start begins_newRing) stamped
  obtain ⟨⟨slots, final⟩, returns⟩ := (reaches_located reached).drain_ends (by decide)
    (show 4096 < loopRounds by decide)
  exact ⟨slots, final, returns, reaches_unread_iff reached returns⟩

end Rtes.Reservation
