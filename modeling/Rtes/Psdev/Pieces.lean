import Rtes.Psdev.Core

/-!
# Reading the device in pieces

A read counts the processes it did not print as printed, so that the first read after
the device was opened copies the beginning of the listing, and every further one
nothing.
-/

namespace Rtes.Psdev

open Rtes.Reservation Rtes.Transition

/-- `device_read` is called with buffers of these lengths until it returns zero. -/
def readUntilZero (processes : List Process) :
    (rounds : ℕ) → (lengths : ℕ → ℕ) → Device → Except Fault (List Char)
  | 0, _, _ => .error .divergence
  | rounds + 1, lengths, device => do
      let (buffer, device) ← deviceRead processes device (lengths 0)
      if buffer.length = 0 then
        .ok []
      else
        let more ← readUntilZero processes rounds (fun k => lengths (k + 1)) device
        .ok (buffer ++ more)

/-- The device is opened and read, unless it is busy. -/
def openAndRead (processes : List Process) (device : Device) (rounds : ℕ) (lengths : ℕ → ℕ) :
    Except Fault (Option (List Char)) :=
  let (retval, device) := deviceOpen device
  if retval = SUCCESS then do
    let bytes ← readUntilZero processes rounds lengths device
    .ok (some bytes)
  else
    .ok none

section Read

variable {processes : List Process} {device : Device} {lengths : ℕ → ℕ} {rounds : ℕ}

theorem readUntilZero_succ :
    readUntilZero processes (rounds + 1) lengths device =
      if ((listing (processes.drop device.processCnt)).take (lengths 0)).length = 0 then
        .ok []
      else (do
        let more ← readUntilZero processes rounds (fun k => lengths (k + 1))
          { device with processCnt := max device.processCnt processes.length }
        .ok ((listing (processes.drop device.processCnt)).take (lengths 0) ++ more)) := by
  rw [readUntilZero, deviceRead_eq]
  rfl

/-- When all processes were counted, nothing is left to read. -/
theorem readUntilZero_counted (counted : processes.length ≤ device.processCnt) :
    readUntilZero processes (rounds + 1) lengths device = .ok [] := by
  rw [readUntilZero_succ, List.drop_eq_nil_of_le counted]
  exact if_pos (by simp [listing, realTime])

/-- The beginning of the listing is read, and nothing else. -/
theorem readUntilZero_opened (opened : device.processCnt = 0) :
    readUntilZero processes (rounds + 2) lengths device =
      .ok ((listing processes).take (lengths 0)) := by
  rw [readUntilZero_succ, opened, List.drop_zero,
    readUntilZero_counted (le_max_right 0 processes.length)]
  split
  · rename_i isEmpty
    rw [List.length_eq_zero_iff.mp isEmpty]
  · change Except.ok (_ ++ []) = _
    rw [List.append_nil]

/-- A single call is enough only for an empty listing. -/
theorem readUntilZero_single (opened : device.processCnt = 0) {bytes : List Char}
    (returns : readUntilZero processes 1 lengths device = .ok bytes) :
    bytes = (listing processes).take (lengths 0) := by
  rw [readUntilZero_succ, opened, List.drop_zero] at returns
  split at returns
  · rename_i isEmpty
    cases returns
    exact (List.length_eq_zero_iff.mp isEmpty).symm
  · cases returns

theorem openAndRead_eq (closed : device.deviceOpen = 0) :
    openAndRead processes device rounds lengths = (do
      let bytes ← readUntilZero processes rounds lengths ⟨1, 0⟩
      .ok (some bytes)) := by
  unfold openAndRead deviceOpen
  rw [if_neg (not_not.mpr closed), closed]
  rfl

theorem openAndRead_enough (closed : device.deviceOpen = 0) :
    openAndRead processes device (rounds + 2) lengths =
      .ok (some ((listing processes).take (lengths 0))) := by
  rw [openAndRead_eq closed, readUntilZero_opened rfl]
  rfl

/-- Whenever the reads come to an end, they have copied as much of the listing as
fits the first buffer. -/
theorem openAndRead_eq_some (closed : device.deviceOpen = 0) {bytes : List Char}
    (returns : openAndRead processes device rounds lengths = .ok (some bytes)) :
    bytes = (listing processes).take (lengths 0) := by
  match rounds with
  | 0 =>
      rw [openAndRead_eq closed] at returns
      cases returns
  | 1 =>
      rw [openAndRead_eq closed] at returns
      obtain ⟨read, reads, result⟩ := bind_eq_ok_iff.mp returns
      cases result
      exact readUntilZero_single rfl reads
  | rounds + 2 =>
      rw [openAndRead_enough closed] at returns
      cases returns
      rfl

end Read

/-- Reading in two ways gives the listing both times, if and only if the first buffer
has room for all of it both times. -/
theorem openAndRead_listing_iff (processes : List Process) {device : Device}
    (closed : device.deviceOpen = 0) (lengths lengths' : ℕ → ℕ) :
    (∃ rounds, openAndRead processes device rounds lengths = .ok (some (listing processes)) ∧
      openAndRead processes device rounds lengths' = .ok (some (listing processes))) ↔
      (listing processes).length ≤ lengths 0 ∧ (listing processes).length ≤ lengths' 0 := by
  constructor
  · rintro ⟨rounds, returns, returns'⟩
    constructor
    · exact (List.take_eq_self_iff _).mp (openAndRead_eq_some closed returns).symm
    · exact (List.take_eq_self_iff _).mp (openAndRead_eq_some closed returns').symm
  · rintro ⟨fits, fits'⟩
    refine ⟨2, ?_, ?_⟩
    · rw [openAndRead_enough closed, List.take_of_length_le fits]
    · rw [openAndRead_enough closed, List.take_of_length_le fits']

/-- The init process, with a real-time policy. -/
def initProcess : Process where
  pid := 1
  tgid := 1
  rtPriority := 50
  policy := .SCHED_FIFO
  comm := ['i', 'n', 'i', 't']
  isPid := ⟨by decide, by decide⟩
  isTgid := ⟨by decide, by decide⟩
  isPriority := ⟨by decide, by decide⟩
  short := by decide
  terminated := by decide

/-- A logger, with a lower priority. -/
def loggerProcess : Process where
  pid := 1024
  tgid := 1024
  rtPriority := 20
  policy := .SCHED_FIFO
  comm := ['l', 'o', 'g', 'g', 'e', 'r', '/', '0']
  isPid := ⟨by decide, by decide⟩
  isTgid := ⟨by decide, by decide⟩
  isPriority := ⟨by decide, by decide⟩
  short := by decide
  terminated := by decide

/-- A shell, which is not real-time. -/
def shellProcess : Process where
  pid := 77
  tgid := 77
  rtPriority := 0
  policy := .SCHED_NORMAL
  comm := ['m', 'k', 's', 'h']
  isPid := ⟨by decide, by decide⟩
  isTgid := ⟨by decide, by decide⟩
  isPriority := ⟨by decide, by decide⟩
  short := by decide
  terminated := by decide

theorem openAndRead_listing_iff_init :
    (∃ rounds, openAndRead [initProcess] ⟨0, 0⟩ rounds (fun _ => 64) =
        .ok (some (listing [initProcess])) ∧
      openAndRead [initProcess] ⟨0, 0⟩ rounds (fun k => 20 + k) =
        .ok (some (listing [initProcess]))) ↔
      (listing [initProcess]).length ≤ 64 ∧ (listing [initProcess]).length ≤ 20 + 0 :=
  openAndRead_listing_iff [initProcess] rfl (fun _ => 64) fun k => 20 + k

/-- Read in pieces of four characters, only the first four arrive. -/
theorem openAndRead_loses :
    openAndRead [initProcess] ⟨0, 0⟩ 2 (fun _ => 64) = .ok (some "1\t1\t50\tinit\n".toList) ∧
      openAndRead [initProcess] ⟨0, 0⟩ 2 (fun _ => 4) = .ok (some "1\t1\t".toList) := by
  decide

end Rtes.Psdev
