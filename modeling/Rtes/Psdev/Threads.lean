import Rtes.Psdev.Pieces

/-!
# Listing the real-time processes by system calls

`rtps` asks for the number of real-time processes, makes an array of that length,
has it filled and prints it in order of priority.  The two calls see the list of
processes at two times, between which processes come and go.
-/

namespace Rtes.Psdev

open Rtes.Reservation Rtes.Text Rtes.Transition

/-! ## The system calls -/

/-- `struct proc_struct` -/
structure ProcStruct where
  pid : ℤ
  tgid : ℤ
  rtPriority : ℤ
  comm : List Char

/-- What is copied of a process. -/
def Process.procStruct (p : Process) : ProcStruct :=
  ⟨p.pid, p.tgid, p.rtPriority, p.comm⟩

/-- The loop of `count_rt_threads`. -/
def countRtThreads (threadsCount : ℕ) : List Process → ℕ
  | [] => threadsCount
  | p :: rest => countRtThreads (if p.isRealTime then threadsCount + 1 else threadsCount) rest

/-- The loop of `list_rt_threads`.  The cells of the array are those of the caller. -/
def listRtThreads (list : ℕ → Option ProcStruct) (threadsCount : ℕ) (len : ℤ) :
    List Process → (ℕ → Option ProcStruct)
  | [] => list
  | p :: rest =>
      if len = 0 then
        list
      else if p.isRealTime then
        listRtThreads (Function.update list threadsCount (some p.procStruct)) (threadsCount + 1)
          (len - 1) rest
      else
        listRtThreads list threadsCount len rest

/-! ## The program -/

/-- The cells of an array from `i` on.  A cell that nothing was copied to holds
nothing in particular. -/
def readCells (list : ℕ → Option ProcStruct) (i : ℕ) : (n : ℕ) → Except Fault (List ProcStruct)
  | 0 => .ok []
  | n + 1 =>
      match list i with
      | none => .error .uninitialized
      | some cell => do
          let cells ← readCells list (i + 1) n
          .ok (cell :: cells)

/-- The line of a cell. -/
def ProcStruct.line (cell : ProcStruct) : List Char :=
  signedDecimal cell.pid ++ '\t' :: (signedDecimal cell.tgid ++
    '\t' :: (signedDecimal cell.rtPriority ++ '\t' :: (cell.comm ++ ['\n'])))

/-- One round of `rtps`: the cells in the order they are printed in.  `before` are the
processes when they are counted, `listed` when they are listed. -/
def rtps (before listed : List Process) : Except Fault (List ProcStruct) := do
  let count := countRtThreads 0 before
  let cells ← readCells (listRtThreads (fun _ => none) 0 count listed) 0 count
  .ok (cells.mergeSort fun a b => a.rtPriority ≤ b.rtPriority)

/-! ## What the calls return -/

private theorem realTime_cons_of_pos {p : Process} (isRealTime : p.isRealTime = true)
    (rest : List Process) : realTime (p :: rest) = p :: realTime rest :=
  List.filter_cons_of_pos isRealTime

private theorem realTime_cons_of_neg {p : Process} (other : ¬ p.isRealTime = true)
    (rest : List Process) : realTime (p :: rest) = realTime rest :=
  List.filter_cons_of_neg other

private theorem countRtThreads_eq (threadsCount : ℕ) (processes : List Process) :
    countRtThreads threadsCount processes = threadsCount + (realTime processes).length := by
  induction processes generalizing threadsCount with
  | nil => rfl
  | cons p rest ih =>
      rw [countRtThreads, ih]
      by_cases isRealTime : p.isRealTime = true
      · rw [if_pos isRealTime, realTime_cons_of_pos isRealTime, List.length_cons]
        exact Nat.add_right_comm _ _ _
      · rw [if_neg isRealTime, realTime_cons_of_neg isRealTime]

private theorem update_getElem? (cells : List ProcStruct) (cell : ProcStruct) :
    Function.update (fun k => cells[k]?) cells.length (some cell) =
      fun k => (cells ++ [cell])[k]? := by
  funext k
  rcases lt_trichotomy k cells.length with less | rfl | more
  · rw [Function.update_of_ne less.ne, List.getElem?_append_left less]
  · rw [Function.update_self, List.getElem?_concat_length]
  · rw [Function.update_of_ne more.ne', List.getElem?_eq_none more.le,
      List.getElem?_eq_none (by simpa using more)]

/-- The array holds the first real-time processes, as many as were asked for. -/
theorem listRtThreads_eq (cells : List ProcStruct) (len : ℕ) (processes : List Process) :
    listRtThreads (fun k => cells[k]?) cells.length len processes =
      fun k => (cells ++ ((realTime processes).take len).map Process.procStruct)[k]? := by
  induction processes generalizing cells len with
  | nil => simp [listRtThreads, realTime]
  | cons p rest ih =>
      cases len with
      | zero => simp [listRtThreads]
      | succ len =>
          rw [listRtThreads, if_neg (by omega)]
          by_cases isRealTime : p.isRealTime = true
          · have less : ((len + 1 : ℕ) : ℤ) - 1 = (len : ℕ) := by omega
            have longer : cells.length + 1 = (cells ++ [p.procStruct]).length := by simp
            rw [if_pos isRealTime, update_getElem?, less, longer, ih,
              realTime_cons_of_pos isRealTime, List.take_succ_cons, List.map_cons,
              List.append_assoc]
            rfl
          · rw [if_neg isRealTime, ih, realTime_cons_of_neg isRealTime]

private theorem readCells_eq_ok_iff (cells : List ProcStruct) (i n : ℕ) {rows : List ProcStruct} :
    readCells (fun k => cells[k]?) i n = .ok rows ↔
      n ≤ (cells.drop i).length ∧ rows = (cells.drop i).take n := by
  induction n generalizing i rows with
  | zero => simp [readCells, eq_comm]
  | succ n ih =>
      rw [readCells]
      cases cell : cells[i]? with
      | none =>
          have short := List.getElem?_eq_none_iff.mp cell
          simp [List.drop_of_length_le short]
      | some first =>
          obtain ⟨less, rfl⟩ := List.getElem?_eq_some_iff.mp cell
          rw [List.drop_eq_getElem_cons less, List.take_succ_cons, List.length_cons,
            Nat.succ_le_succ_iff]
          dsimp only
          rw [bind_eq_ok_iff]
          simp only [ih]
          constructor
          · rintro ⟨_, ⟨enough, rfl⟩, result⟩
            cases result
            exact ⟨enough, rfl⟩
          · rintro ⟨enough, rfl⟩
            exact ⟨_, ⟨enough, rfl⟩, rfl⟩

/-! ## What is printed -/

private theorem cells_eq_ok_iff {before listed : List Process} {cells : List ProcStruct} :
    readCells (listRtThreads (fun _ => none) 0 (countRtThreads 0 before : ℕ) listed) 0
        (countRtThreads 0 before) = .ok cells ↔
      (realTime before).length ≤ (realTime listed).length ∧
        cells = ((realTime listed).take (realTime before).length).map Process.procStruct := by
  have empty : (fun _ => none : ℕ → Option ProcStruct) = fun k => ([] : List ProcStruct)[k]? := by
    funext k
    exact List.getElem?_nil.symm
  have filled := listRtThreads_eq [] (countRtThreads 0 before) listed
  rw [List.length_nil] at filled
  rw [empty, filled, readCells_eq_ok_iff, countRtThreads_eq, Nat.zero_add, List.drop_zero,
    List.nil_append, List.length_map, List.length_take, le_min_iff,
    List.take_of_length_le (by simp)]
  simp

/-- The rows are those of the cells, sorted. -/
theorem rtps_eq_ok_iff {before listed : List Process} {rows : List ProcStruct} :
    rtps before listed = .ok rows ↔
      (realTime before).length ≤ (realTime listed).length ∧
        rows = (((realTime listed).take (realTime before).length).map Process.procStruct).mergeSort
          fun a b => a.rtPriority ≤ b.rtPriority := by
  unfold rtps
  simp only [bind_eq_ok_iff, cells_eq_ok_iff]
  constructor
  · rintro ⟨_, ⟨enough, rfl⟩, result⟩
    cases result
    exact ⟨enough, rfl⟩
  · rintro ⟨enough, rfl⟩
    exact ⟨_, ⟨enough, rfl⟩, rfl⟩

private theorem pairwise_sorted (cells : List ProcStruct) :
    (cells.mergeSort fun a b => a.rtPriority ≤ b.rtPriority).Pairwise
      fun a b => a.rtPriority ≤ b.rtPriority := by
  refine (List.pairwise_mergeSort ?_ ?_ _).imp of_decide_eq_true
  · intro a b c first second
    rw [decide_eq_true_eq] at *
    exact first.trans second
  · intro a b
    simpa using le_total a.rtPriority b.rtPriority

/-- `rtps` prints only what was copied to it exactly when no fewer real-time processes are
listed than were counted.  It then prints the first of them, as many as were counted, each
once and in order of priority. -/
theorem rtps_ok_iff (before listed : List Process) :
    ((∃ rows, rtps before listed = .ok rows) ↔
      (realTime before).length ≤ (realTime listed).length) ∧
    ∀ rows, rtps before listed = .ok rows →
      rows.Perm (((realTime listed).take (realTime before).length).map Process.procStruct) ∧
        rows.Pairwise fun a b => a.rtPriority ≤ b.rtPriority := by
  constructor
  · constructor
    · rintro ⟨rows, returns⟩
      exact (rtps_eq_ok_iff.mp returns).1
    · intro enough
      exact ⟨_, rtps_eq_ok_iff.mpr ⟨enough, rfl⟩⟩
  · intro rows returns
    obtain ⟨_, rfl⟩ := rtps_eq_ok_iff.mp returns
    exact ⟨List.mergeSort_perm _ _, pairwise_sorted _⟩

/-- As long as no process comes or goes, `rtps` prints the lines that a long enough read
of the device after it was opened copies, in another order. -/
theorem rtps_lines (processes : List Process) {device : Device} (opened : device.processCnt = 0)
    {length : ℕ} (enough : (listing processes).length ≤ length) :
    ∃ rows lines device', rtps processes processes = .ok rows ∧
      deviceRead processes device length = .ok (List.flatten lines, device') ∧
      (rows.map ProcStruct.line).Perm lines := by
  have read : (listing (processes.drop device.processCnt)).take length =
      ((realTime processes).map Process.line).flatten := by
    rw [opened, List.drop_zero, List.take_of_length_le enough]
    exact List.flatMap_def
  refine ⟨_, (realTime processes).map Process.line, _, rtps_eq_ok_iff.mpr ⟨le_rfl, rfl⟩,
    deviceRead_eq processes device length |>.trans (by rw [read]), ?_⟩
  have lines : (realTime processes).map Process.line =
      ((realTime processes).map Process.procStruct).map ProcStruct.line := by
    rw [List.map_map]
    rfl
  rw [lines, List.take_length]
  exact (List.mergeSort_perm _ _).map ProcStruct.line

/-- The device lists the init process before the logger, `rtps` after it. -/
theorem rtps_lines_logger :
    ∃ rows lines device',
      rtps [initProcess, shellProcess, loggerProcess]
          [initProcess, shellProcess, loggerProcess] = .ok rows ∧
        deviceRead [initProcess, shellProcess, loggerProcess] ⟨1, 0⟩ 64 =
          .ok (List.flatten lines, device') ∧
        (rows.map ProcStruct.line).Perm lines ∧ rows.map ProcStruct.pid = [1024, 1] := by
  obtain ⟨rows, lines, device', printed, read, perm⟩ :=
    @rtps_lines [initProcess, shellProcess, loggerProcess] ⟨1, 0⟩ rfl 64 (by decide)
  refine ⟨rows, lines, device', printed, read, perm, ?_⟩
  cases printed
  simp [List.mergeSort, List.MergeSort.Internal.splitInTwo, Process.procStruct, initProcess,
    loggerProcess]

end Rtes.Psdev
