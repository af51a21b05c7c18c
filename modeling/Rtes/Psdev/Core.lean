import Rtes.Reservation.Core
import Rtes.Text.Decimal

/-!
# The `psdev` device

The device lists the real-time processes, a line for each.  It is open to one reader at
a time.  A read prints the lines into the buffer of the reader as far as they fit, and
counts all processes of the system as printed.
-/

namespace Rtes.Psdev

open Rtes.Reservation Rtes.Text Rtes.Word

/-- `SUCCESS`. -/
def SUCCESS : ℤ := 0

/-- `BUF_LEN`. -/
def bufLen : ℕ := 200

/-- The scheduling policies. -/
inductive SchedPolicy where
  | SCHED_NORMAL
  | SCHED_FIFO
  | SCHED_RR
  | SCHED_BATCH
  | SCHED_IDLE
  deriving DecidableEq, Repr

/-- What is printed of a process.  Its name is what `comm`, an array of 16 characters,
holds before the terminator. -/
structure Process where
  pid : ℤ
  tgid : ℤ
  rtPriority : ℤ
  policy : SchedPolicy
  comm : List Char
  isPid : IsInt pid
  isTgid : IsInt tgid
  isPriority : IsInt rtPriority
  short : comm.length < 16
  terminated : '\x00' ∉ comm

/-- The variables of the device. -/
structure Device where
  deviceOpen : ℤ
  processCnt : ℕ
  deriving DecidableEq, Repr

/-! ## Opening and reading -/

/-- `device_open`. -/
def deviceOpen (device : Device) : ℤ × Device :=
  if device.deviceOpen ≠ 0 then
    (-EBUSY, device)
  else
    (SUCCESS, { device with deviceOpen := device.deviceOpen + 1, processCnt := 0 })

/-- `device_release`. -/
def deviceRelease (device : Device) : Device :=
  { device with deviceOpen := device.deviceOpen - 1 }

/-- The line of a process. -/
def Process.line (p : Process) : List Char :=
  signedDecimal p.pid ++ '\t' :: (signedDecimal p.tgid ++ '\t' :: (signedDecimal p.rtPriority ++
    '\t' :: (p.comm ++ ['\n'])))

/-- `sprintf` into `msg`, with the terminator. -/
def sprintf (p : Process) : Except Fault (List Char) :=
  if p.line.length < bufLen then .ok p.line else .error .outOfBounds

/-- The loop of `put_user`: what it copies, and what is left of `length`. -/
def putUser : (msg : List Char) → (length : ℕ) → List Char × ℕ
  | [], length => ([], length)
  | _ :: _, 0 => ([], 0)
  | c :: msg, length + 1 =>
      let (buffer, length) := putUser msg length
      (c :: buffer, length)

/-- The policies whose processes are listed. -/
def Process.isRealTime (p : Process) : Bool :=
  p.policy = .SCHED_FIFO ∨ p.policy = .SCHED_RR

/-- The loop over the processes: what it copies, and `temp_pro_cnt` after it. -/
def forEachProcess (processCnt : ℕ) :
    (tempProCnt : ℕ) → List Process → (length : ℕ) → Except Fault (List Char × ℕ)
  | tempProCnt, [], _ => .ok ([], tempProCnt)
  | tempProCnt, p :: rest, length =>
      let tempProCnt := tempProCnt + 1
      if tempProCnt ≤ processCnt ∧ 0 < processCnt then
        forEachProcess processCnt tempProCnt rest length
      else if p.isRealTime then do
        let msg ← sprintf p
        let (buffer, length) := putUser msg length
        let (more, tempProCnt) ← forEachProcess processCnt tempProCnt rest length
        .ok (buffer ++ more, tempProCnt)
      else
        forEachProcess processCnt tempProCnt rest length

/-- `device_read`: what is copied to the buffer, whose length is returned.  The loop
before the processes has nothing to copy, since `bytes_print` is zero. -/
def deviceRead (processes : List Process) (device : Device) (length : ℕ) :
    Except Fault (List Char × Device) := do
  let (buffer, tempProCnt) ← forEachProcess device.processCnt 0 processes length
  .ok (buffer,
    if device.processCnt < tempProCnt then { device with processCnt := tempProCnt } else device)

/-! ## What a read copies -/

/-- The real-time processes, in the order of the list. -/
def realTime (processes : List Process) : List Process :=
  processes.filter Process.isRealTime

/-- The lines of the real-time processes. -/
def listing (processes : List Process) : List Char :=
  (realTime processes).flatMap Process.line

private theorem listing_cons (p : Process) (rest : List Process) :
    listing (p :: rest) = (if p.isRealTime then p.line else []) ++ listing rest := by
  unfold listing realTime
  by_cases isRealTime : p.isRealTime = true
  · rw [List.filter_cons_of_pos isRealTime, List.flatMap_cons, if_pos isRealTime]
  · rw [List.filter_cons_of_neg isRealTime, if_neg isRealTime, List.nil_append]

theorem length_line_lt (p : Process) : p.line.length < bufLen := by
  have pid := length_signedDecimal_int p.isPid
  have tgid := length_signedDecimal_int p.isTgid
  have priority := length_signedDecimal_int p.isPriority
  have short := p.short
  simp only [Process.line, List.length_append, List.length_cons, List.length_nil, bufLen]
  omega

private theorem sprintf_eq (p : Process) : sprintf p = .ok p.line :=
  if_pos (length_line_lt p)

private theorem putUser_eq (msg : List Char) (length : ℕ) :
    putUser msg length = (msg.take length, length - msg.length) := by
  induction msg generalizing length with
  | nil => simp [putUser]
  | cons c msg ih =>
      cases length with
      | zero => simp [putUser]
      | succ length => simp [putUser, ih]

/-- The first processes are passed over, and of the lines of the others as much is
copied as fits. -/
theorem forEachProcess_eq (processCnt tempProCnt : ℕ) (processes : List Process) (length : ℕ) :
    forEachProcess processCnt tempProCnt processes length =
      .ok ((listing (processes.drop (processCnt - tempProCnt))).take length,
        tempProCnt + processes.length) := by
  induction processes generalizing tempProCnt length with
  | nil => simp [forEachProcess, listing, realTime]
  | cons p rest ih =>
      rw [forEachProcess, List.length_cons]
      by_cases passed : tempProCnt + 1 ≤ processCnt
      · have count : processCnt - tempProCnt = processCnt - (tempProCnt + 1) + 1 := by omega
        rw [if_pos ⟨passed, by omega⟩, ih, count, List.drop_succ_cons, Nat.add_right_comm,
          Nat.add_assoc]
      · have none : processCnt - tempProCnt = 0 ∧ processCnt - (tempProCnt + 1) = 0 := by omega
        have total : tempProCnt + 1 + rest.length = tempProCnt + (rest.length + 1) := by omega
        rw [if_neg (fun both => passed both.1), none.1, List.drop_zero, listing_cons]
        by_cases isRealTime : p.isRealTime = true
        · rw [if_pos isRealTime, if_pos isRealTime, sprintf_eq]
          change (do
            let (more, tempProCnt) ← forEachProcess processCnt (tempProCnt + 1) rest
              (putUser p.line length).2
            .ok ((putUser p.line length).1 ++ more, tempProCnt)) = _
          rw [ih, none.2, List.drop_zero, putUser_eq, List.take_append, total]
          rfl
        · rw [if_neg isRealTime, if_neg isRealTime, ih, none.2, List.drop_zero, total,
            List.nil_append]

/-- What a read copies, from any position. -/
theorem deviceRead_eq (processes : List Process) (device : Device) (length : ℕ) :
    deviceRead processes device length =
      .ok ((listing (processes.drop device.processCnt)).take length,
        { device with processCnt := max device.processCnt processes.length }) := by
  unfold deviceRead
  rw [forEachProcess_eq, Nat.sub_zero, Nat.zero_add]
  change Except.ok (_, if device.processCnt < processes.length then _ else device) = _
  split
  · rename_i more
    rw [max_eq_right more.le]
  · rename_i notMore
    rw [max_eq_left (not_lt.mp notMore)]

end Rtes.Psdev
