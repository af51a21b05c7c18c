import Rtes.Psdev.Pieces
import Rtes.Text.Scan

/-!
# The task monitor reads the device

`getRelTID` reads the listing with one call and takes it apart line by line.  Every
line is copied over the one before it, so that a line buffer holds a line and what is
left of longer ones; only the number at its beginning is used.
-/

namespace Rtes.Psdev

open Rtes.Reservation Rtes.Text Rtes.Transition

/-- `BUFSIZE`. -/
def bufSize : ℕ := 8096

/-- `ARRAYSIZE`. -/
def arraySize : ℕ := 1000

/-! ## The parser -/

/-- `bufreadline`: the number of characters that are read, and the line buffer.  A
newline is counted, a terminator is not. -/
def bufreadline : (srcbuf : List Char) → (srcsize : ℕ) → (destbuf : List Char) →
    (destsize : ℕ) → Except Fault (ℕ × List Char)
  | _, 0, destbuf, _ => .ok (0, destbuf)
  | _, _ + 1, destbuf, 0 => .ok (0, destbuf)
  | c :: srcbuf, srcsize + 1, _ :: destbuf, destsize + 1 =>
      if c = '\n' then
        .ok (1, c :: destbuf)
      else if c = '\x00' then
        .ok (0, c :: destbuf)
      else do
        let (i, destbuf) ← bufreadline srcbuf srcsize destbuf destsize
        .ok (i + 1, c :: destbuf)
  | _, _ + 1, _, _ + 1 => .error .outOfBounds

/-- `sscanf`: the first number of the line, which is all that is used of it. -/
def scanTid (readline : List Char) : Except Fault ℤ :=
  match terminatedText readline with
  | none => .error .outOfBounds
  | some text =>
      match scanInt text with
      | none => .error .uninitialized
      | some (tid, _) => .ok tid

/-- The loop over the lines of the buffer.  The array is filled with a number in every
round. -/
def fillTids (buf : List Char) (n : ℕ) :
    (rounds : ℕ) → (readcount : ℕ) → (readline : List Char) → (fill : List ℤ) →
      Except Fault (List ℤ)
  | 0, _, _, _ => .error .divergence
  | rounds + 1, readcount, readline, fill =>
      if readcount < n then do
        let (i, readline) ← bufreadline (buf.drop readcount) bufSize readline bufSize
        let tid ← scanTid readline
        if arraySize ≤ fill.length then
          .error .outOfBounds
        else
          fillTids buf n rounds (readcount + i) readline (fill ++ [tid])
      else
        .ok fill

/-- The numbers that are read from the characters that the device returned.  The
buffers were cleared before, and the array is full before the rounds are used up. -/
def readTids (bytes : List Char) : Except Fault (List ℤ) :=
  fillTids (bytes ++ List.replicate (bufSize - bytes.length) '\x00') bytes.length
    (arraySize + 2) 0 (List.replicate bufSize '\x00') []

/-- `getRelTID`.  The device is released only if an array could be made of the
numbers. -/
def getRelTID (processes : List Process) (device : Device) (newIntArray : Bool) :
    Except Fault (Option (List ℤ) × Device) :=
  let (retval, device) := deviceOpen device
  if retval ≠ SUCCESS then
    .ok (none, device)
  else do
    let (bytes, device) ← deviceRead processes device bufSize
    if bytes.length = 0 then
      .ok (none, device)
    else
      let fill ← readTids bytes
      if newIntArray then .ok (some fill, deviceRelease device) else .ok (none, device)

/-! ## A line -/

/-- A line that ends with a newline is copied over the beginning of the buffer. -/
theorem bufreadline_line {body destbuf : List Char} {srcsize destsize : ℕ}
    (single : '\n' ∉ body) (text : '\x00' ∉ body) (rest : List Char)
    (source : body.length < srcsize) (dest : body.length < destsize)
    (room : body.length < destbuf.length) :
    bufreadline (body ++ '\n' :: rest) srcsize destbuf destsize =
      .ok (body.length + 1, body ++ '\n' :: destbuf.drop (body.length + 1)) := by
  induction body generalizing srcsize destsize destbuf with
  | nil =>
      obtain ⟨srcsize, rfl⟩ := Nat.exists_eq_succ_of_ne_zero source.ne'
      obtain ⟨destsize, rfl⟩ := Nat.exists_eq_succ_of_ne_zero dest.ne'
      cases destbuf with
      | nil => cases room
      | cons _ destbuf => rfl
  | cons c body ih =>
      obtain ⟨srcsize, rfl⟩ := Nat.exists_eq_succ_of_ne_zero (Nat.ne_zero_of_lt source)
      obtain ⟨destsize, rfl⟩ := Nat.exists_eq_succ_of_ne_zero (Nat.ne_zero_of_lt dest)
      cases destbuf with
      | nil => cases room
      | cons _ destbuf =>
          obtain ⟨notNewline, single⟩ := List.ne_and_not_mem_of_not_mem_cons single
          obtain ⟨notNul, text⟩ := List.ne_and_not_mem_of_not_mem_cons text
          rw [List.cons_append, bufreadline, if_neg notNewline.symm, if_neg notNul.symm,
            ih single text (Nat.lt_of_succ_lt_succ source) (Nat.lt_of_succ_lt_succ dest)
              (Nat.lt_of_succ_lt_succ room)]
          rfl

section Line

variable {p : Process} {readline : List Char}

/-- A line without its newline. -/
def Process.body (p : Process) : List Char :=
  signedDecimal p.pid ++ '\t' :: (signedDecimal p.tgid ++ '\t' :: (signedDecimal p.rtPriority ++
    '\t' :: p.comm))

theorem line_eq (p : Process) : p.line = p.body ++ ['\n'] := by
  simp only [Process.line, Process.body, List.append_assoc, List.cons_append]

private theorem not_mem_body {c : Char} (other : c.isDigit = false) (sign : c ≠ '-')
    (tab : c ≠ '\t')
    (absent : c ∉ p.comm) : c ∉ p.body := by
  simp [Process.body, not_mem_signedDecimal other sign, tab, absent]

/-- After a line was read, the buffer begins with it and is as before otherwise. -/
theorem bufreadline_process (named : '\n' ∉ p.comm) (rest : List Char)
    (terminated : '\x00' ∈ readline.drop bufLen) :
    bufreadline (p.line ++ rest) bufSize readline bufSize =
      .ok (p.line.length, p.line ++ readline.drop p.line.length) := by
  have short := length_line_lt p
  have room := List.length_pos_of_mem terminated
  rw [List.length_drop] at room
  rw [line_eq, List.length_append, List.length_singleton] at *
  unfold bufLen at *
  rw [List.append_assoc, List.append_assoc]
  exact bufreadline_line (not_mem_body (by decide) (by decide) (by decide) named)
    (not_mem_body (by decide) (by decide) (by decide) p.terminated) rest (by unfold bufSize; omega)
    (by unfold bufSize; omega) (by omega)

/-- The number at the beginning of a line is the one that was printed, whatever is left
in the buffer behind it. -/
theorem scanTid_line (positive : 0 < p.pid) {stale : List Char} (terminated : '\x00' ∈ stale) :
    scanTid (p.line ++ stale) = .ok p.pid := by
  obtain ⟨n, isPid⟩ := Int.eq_ofNat_of_zero_le positive.le
  have small : n < 2147483648 := by
    have most := p.isPid.2
    omega
  have digits : ∀ c ∈ decimal n, decide (c ≠ '\x00') = true := by
    intro c mem
    rw [decide_eq_true_eq]
    rintro rfl
    cases isDigit_of_mem_decimal mem
  obtain ⟨rest, first⟩ : ∃ rest, p.line ++ stale = decimal n ++ '\t' :: rest := by
    rw [Process.line, isPid, signedDecimal_of_nonneg (Int.natCast_nonneg n), Int.toNat_natCast,
      List.append_assoc, List.cons_append]
    exact ⟨_, rfl⟩
  have inside : '\x00' ∈ p.line ++ stale := List.mem_append_right _ terminated
  unfold scanTid terminatedText
  rw [if_pos inside, first, List.takeWhile_append_of_pos digits,
    List.takeWhile_cons_of_pos (by decide)]
  dsimp only
  rw [scanInt_decimal small (by decide), isPid]

end Line

/-! ## The listing -/

/-- The loop yields the numbers of the processes whose lines are left. -/
theorem fillTids_lines {processes : List Process} (positive : ∀ p ∈ processes, 0 < p.pid)
    (named : ∀ p ∈ processes, '\n' ∉ p.comm) (earlier rest : List Char) {rounds : ℕ}
    {readline : List Char} {fill : List ℤ} (terminated : '\x00' ∈ readline.drop bufLen)
    (few : fill.length + processes.length ≤ arraySize) (enough : processes.length < rounds) :
    fillTids (earlier ++ (processes.flatMap Process.line ++ rest))
      (earlier.length + (processes.flatMap Process.line).length) rounds earlier.length readline
      fill = .ok (fill ++ processes.map Process.pid) := by
  induction processes generalizing earlier rounds readline fill with
  | nil =>
      obtain ⟨rounds, rfl⟩ := Nat.exists_eq_succ_of_ne_zero enough.ne'
      rw [fillTids, if_neg (by simp)]
      simp
  | cons p processes ih =>
      obtain ⟨rounds, rfl⟩ := Nat.exists_eq_succ_of_ne_zero (Nat.ne_zero_of_lt enough)
      obtain ⟨isPositive, positive⟩ := List.forall_mem_cons.mp positive
      obtain ⟨isNamed, named⟩ := List.forall_mem_cons.mp named
      have length : 0 < p.line.length := by
        rw [line_eq, List.length_append]
        exact Nat.succ_pos _
      have short := length_line_lt p
      have stale : '\x00' ∈ readline.drop p.line.length := by
        have split : readline.drop bufLen =
            (readline.drop p.line.length).drop (bufLen - p.line.length) := by
          rw [List.drop_drop, Nat.add_sub_of_le short.le]
        rw [split] at terminated
        exact List.mem_of_mem_drop terminated
      have kept : '\x00' ∈ (p.line ++ readline.drop p.line.length).drop bufLen := by
        rw [List.drop_append, List.drop_eq_nil_of_le short.le, List.nil_append, List.drop_drop,
          Nat.add_sub_of_le short.le]
        exact terminated
      rw [List.length_cons] at few enough
      have room : (fill ++ [p.pid]).length + processes.length ≤ arraySize := by
        rw [List.length_append, List.length_singleton]
        omega
      have next := ih positive named (earlier ++ p.line) kept room (Nat.lt_of_succ_lt_succ enough)
      rw [List.length_append, List.append_assoc, List.append_assoc] at next
      rw [List.flatMap_cons, List.length_append, List.append_assoc, ← Nat.add_assoc]
      rw [fillTids, if_pos (by omega), List.drop_left, bufreadline_process isNamed _ terminated,
        ok_bind]
      dsimp only
      rw [scanTid_line isPositive stale, ok_bind, if_neg (by omega)]
      exact next

section Listing

variable {processes : List Process} {device : Device}

private theorem listing_ne_nil (nonempty : realTime processes ≠ []) : listing processes ≠ [] := by
  obtain ⟨p, mem⟩ := List.exists_mem_of_ne_nil _ nonempty
  intro isEmpty
  have line := List.flatMap_eq_nil_iff.mp isEmpty p mem
  rw [line_eq] at line
  exact List.append_ne_nil_of_right_ne_nil _ (List.cons_ne_nil _ _) line

private theorem readTids_listing (positive : ∀ p ∈ realTime processes, 0 < p.pid)
    (named : ∀ p ∈ realTime processes, '\n' ∉ p.comm)
    (few : (realTime processes).length < arraySize) :
    readTids (listing processes) = .ok ((realTime processes).map Process.pid) := by
  have cleared : '\x00' ∈ (List.replicate bufSize '\x00').drop bufLen := by
    rw [List.drop_replicate]
    exact List.mem_replicate.mpr ⟨by decide, rfl⟩
  have room : ([] : List ℤ).length + (realTime processes).length ≤ arraySize := by
    rw [List.length_nil, Nat.zero_add]
    exact few.le
  have enough : (realTime processes).length < arraySize + 2 := by omega
  have parses := fillTids_lines positive named [] (List.replicate
    (bufSize - (listing processes).length) '\x00') cleared room enough
  rw [List.length_nil, Nat.zero_add] at parses
  exact parses

/-- The numbers that the task monitor reads are those of the real-time processes, in
their order. -/
theorem getRelTID_pids (closed : device.deviceOpen = 0) (nonempty : realTime processes ≠ [])
    (positive : ∀ p ∈ realTime processes, 0 < p.pid)
    (named : ∀ p ∈ realTime processes, '\n' ∉ p.comm)
    (fits : (listing processes).length ≤ bufSize)
    (few : (realTime processes).length < arraySize) :
    getRelTID processes device true =
      .ok (some ((realTime processes).map Process.pid), ⟨0, processes.length⟩) := by
  have notEmpty : (listing processes).length ≠ 0 :=
    mt List.length_eq_zero_iff.mp (listing_ne_nil nonempty)
  have read : deviceRead processes ⟨1, 0⟩ bufSize =
      .ok (listing processes, ⟨1, processes.length⟩) := by
    rw [deviceRead_eq, List.drop_zero, List.take_of_length_le fits]
    exact congrArg Except.ok (congrArg _ (congrArg _ (Nat.zero_max _)))
  unfold getRelTID deviceOpen
  rw [if_neg (not_not.mpr closed), closed]
  change (do
    let (bytes, device) ← deviceRead processes ⟨1, 0⟩ bufSize
    if bytes.length = 0 then
      .ok (none, device)
    else
      let fill ← readTids bytes
      .ok (some fill, deviceRelease device)) = _
  rw [read, ok_bind]
  dsimp only
  rw [if_neg notEmpty, readTids_listing positive named few]
  rfl

end Listing

/-- Of three processes, two are real-time. -/
theorem getRelTID_pids_logger :
    getRelTID [initProcess, shellProcess, loggerProcess] ⟨0, 0⟩ true =
      .ok (some [1, 1024], ⟨0, 3⟩) := by
  have few : (realTime [initProcess, shellProcess, loggerProcess]).length < arraySize := by
    decide
  have fits : (listing [initProcess, shellProcess, loggerProcess]).length ≤ bufSize := by
    decide
  have positive : ∀ p ∈ realTime [initProcess, shellProcess, loggerProcess], 0 < p.pid := by
    decide
  exact getRelTID_pids rfl (by decide) positive (by decide) fits few

end Rtes.Psdev
