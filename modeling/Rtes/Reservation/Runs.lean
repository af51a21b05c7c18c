import Rtes.Reservation.Invariant

/-!
# Every run keeps the table

Runs start from an empty table and are made of operations on live tasks.  As
long as no revision takes a task out of the middle of a list by way of another
CPU's row, the kernel stays consistent, and every rejected revision is rolled
back.
-/

namespace Rtes.Reservation

open Rtes.RateMonotonic Rtes.Slots Rtes.Transition Rtes.Word

/-! ## Runs -/

/-- A kernel without reservations. -/
structure Boot (s : Kernel) : Prop where
  table : ∀ cpu, (s.table cpu).cpuTasksLength = 0 ∧ (s.table cpu).cpuUtil = 0 ∧
    (s.table cpu).cpuOpen = false
  reserve : ∀ t, (s.reserve t).flag = false ∧ (s.reserve t).suspend = false ∧
    (s.reserve t).cTimer = false ∧ (s.reserve t).pTimer = false
  rollbacks : s.rollbacks = []

theorem Boot.consistent {s : Kernel} (boot : Boot s) : Consistent s where
  represents := by
    have placement : s.placement = fun _ => none := by
      funext t
      exact placement_unreserved (boot.reserve t).1
    have entries : ∀ cpu, (s.table cpu).entries = [] := by
      intro cpu
      simp [CpuTable.entries, (boot.table cpu).1]
    rw [placement]
    constructor
    · intro cpu
      exact .of_empty (boot.table cpu).1 (boot.table cpu).2.1
    · intro cpu
      rw [entries]
      exact List.nodup_nil
    · intro cpu t
      rw [entries]
      simp
  rollbacks := by
    rw [boot.rollbacks]
    simp

/-- A kernel right after boot, without the monitoring modules. -/
def Kernel.bare : Kernel where
  reserve := fun _ => .zero
  uninterruptible := fun _ => false
  exited := fun _ => false
  found := fun _ => true
  processes := []
  table := fun _ => .empty
  partitionPolicy := .NFD
  lastCpuIDRevise := 0
  lastCpuIDCreate := 0
  cpuOnline := fun _ => true
  cpuDownCalls := []
  rollbacks := []
  utilKobj := false
  tasksKobj := false
  rtesKobj := false
  taskmonEnabled := false
  taskmonAccTime := 0
  energyTracking := false
  cpuFreq := fun _ => 0
  freqToPower := fun _ => 0
  totalEnergy := 0
  allocated := fun _ => none
  nextAddr := 0
  sysclockGovernor := fun _ => false
  cpuCurFreq := fun _ => 0

theorem boot_bare : Boot .bare :=
  ⟨fun _ => ⟨rfl, rfl, rfl⟩, fun _ => ⟨rfl, rfl, rfl, rfl⟩, rfl⟩

/-- Operations on live tasks with `1 ≤ C ≤ T ≤ 60000`, for which the files of a
reservation can be set up. -/
def Serial (s : Kernel) : Op → Prop
  | .setReserve srv tid budget period _ => s.exited tid = false ∧
      (∀ C ∈ budget, ∀ T ∈ period, ValidTimes C T) ∧ FilesSucceed srv
  | .cancelReserve _ tid => s.exited tid = false
  | .doExit _ t => s.exited t = false
  | _ => True

/-- Revisions name the CPU the task is on, or another one while the task is the
last of its list. -/
def Orderly (s : Kernel) : Op → Prop
  | .setReserve _ tid _ _ cpuid => Revisable s tid cpuid
  | _ => True

theorem step_consistent {s s' : Kernel} {op : Op} (consistent : Consistent s)
    (serial : Serial s op) (orderly : Orderly s op) (taken : step s op = .ok s') :
    Consistent s' := by
  cases op with
  | setReserve srv tid budget period cpuid =>
      obtain ⟨⟨retval, target⟩, returns, result⟩ := bind_eq_ok_iff.mp taken
      cases result
      obtain ⟨live, valid, files⟩ := serial
      exact setReserve_consistent consistent live files valid orderly returns
  | cancelReserve srv tid =>
      obtain ⟨⟨retval, target⟩, returns, result⟩ := bind_eq_ok_iff.mp taken
      cases result
      exact cancelReserve_consistent consistent (fun _ => serial) returns
  | doExit srv t => exact doExit_consistent consistent (fun _ => serial) taken
  | _ => exact consistent.of_frame (step_frame taken not_false)

/-- Every run of operations on live tasks with orderly revisions stays
consistent. -/
theorem reaches_consistent {allowed : Kernel → Op → Prop} {s : Kernel}
    (serial : ∀ s op, allowed s op → Serial s op) (orderly : ∀ s op, allowed s op → Orderly s op)
    (reached : Reaches step allowed Boot s) : Consistent s := by
  apply reached.invariant
  · intro state boot
    exact boot.consistent
  · intro state op target consistent permitted taken
    exact step_consistent consistent (serial state op permitted) (orderly state op permitted) taken

/-! ## The table and the reservations agree -/

/-- The task list of every CPU is in order of period, holds exactly the live
reserved tasks of that CPU, each once, and the utilization is their sum. -/
structure TableAgrees (s : Kernel) (cpu : Cpu) : Prop where
  nonneg : 0 ≤ (s.table cpu).cpuTasksLength
  sorted : SortedByPeriod s.reserve (s.table cpu).entries
  nodup : (s.table cpu).entries.Nodup
  mem_iff : ∀ t, t ∈ (s.table cpu).entries ↔
    s.exited t = false ∧ (s.reserve t).flag = true ∧ (s.reserve t).cpu = cpu
  util : (s.table cpu).cpuUtil = ((s.table cpu).entries.map fun t => (s.reserve t).util).sum

theorem placement_eq_some_iff {s : Kernel} {t : Tid} {cpu : Cpu} :
    s.placement t = some cpu ↔
      s.exited t = false ∧ (s.reserve t).flag = true ∧ (s.reserve t).cpu = cpu := by
  unfold Kernel.placement
  cases s.exited t with
  | true => simp
  | false => simp

private theorem Admitted.util_sum {reserve : Tid → Reserve} {bin : CpuTable}
    (admitted : Admitted reserve bin) :
    bin.cpuUtil = (bin.entries.map fun t => (reserve t).util).sum := by
  have each : ∀ tasks : List Tid, (∀ t ∈ tasks, InRange (reserve t)) →
      ((shareSum share (loads reserve tasks) : ℕ) : ℤ) =
        (tasks.map fun t => (reserve t).util).sum := by
    intro tasks range
    induction tasks with
    | nil => rfl
    | cons t tasks ih =>
        rw [List.forall_mem_cons] at range
        rw [shareSum_loads_cons, Nat.cast_add, ih range.2, List.map_cons, List.sum_cons,
          range.1.util]
  rw [admitted.util]
  exact each bin.entries admitted.acceptable.inRange

theorem Consistent.tableAgrees {s : Kernel} (consistent : Consistent s) (cpu : Cpu) :
    TableAgrees s cpu where
  nonneg := (consistent.represents.admitted cpu).nonneg
  sorted := (consistent.represents.admitted cpu).acceptable.sorted
  nodup := consistent.represents.nodup cpu
  mem_iff := by
    intro t
    rw [consistent.represents.mem_iff, placement_eq_some_iff]
  util := (consistent.represents.admitted cpu).util_sum

/-- The services a call depends on all succeed. -/
structure AllSucceed (srv : Services) : Prop extends FilesSucceed srv where
  schedSetaffinity : srv.schedSetaffinity = true
  cpuUp : srv.cpuUp = true
  cpuDown : ∀ cpu, srv.cpuDown cpu = true

/-- Calls of `set_reserve`, `cancel_reserve` and `do_exit` on live tasks with
`1 ≤ C ≤ T ≤ 60000` and `-1 ≤ cpuid ≤ 3`, all services succeeding, and changes
of the partition policy. -/
def TableCall (s : Kernel) : Op → Prop
  | .setReserve srv tid budget period cpuid => s.exited tid = false ∧ AllSucceed srv ∧
      (∀ C ∈ budget, ∀ T ∈ period, ValidTimes C T) ∧ -1 ≤ cpuid ∧ cpuid ≤ 3
  | .cancelReserve srv tid => s.exited tid = false ∧ AllSucceed srv
  | .doExit srv t => s.exited t = false ∧ AllSucceed srv
  | .setPolicy _ => True
  | _ => False

theorem TableCall.serial {s : Kernel} {op : Op} (call : TableCall s op) : Serial s op := by
  cases op with
  | setReserve srv tid budget period cpuid =>
      exact ⟨call.1, call.2.2.1, call.2.1.toFilesSucceed⟩
  | cancelReserve srv tid => exact call.1
  | doExit srv t => exact call.1
  | _ => trivial

/-- Services that all succeed. -/
def Services.succeed : Services where
  schedSetaffinity := true
  cpuUp := true
  cpuDown := fun _ => true
  kmallocName := true
  sysfsCreateUtil := 0
  kmallocPeriods := true
  kmallocKobjName := true
  kobjectCreateAndAdd := true
  kmallocEnergyAttr := true
  sysfsCreateEnergy := 0

theorem allSucceed_succeed : AllSucceed .succeed :=
  ⟨⟨rfl, rfl, rfl, rfl, rfl, rfl, rfl⟩, rfl, rfl, fun _ => rfl⟩

/-- A call of `set_reserve` with times in whole milliseconds. -/
def reserveMillis (tid : Tid) (C T cpuid : ℤ) : Op :=
  .setReserve .succeed tid (some ⟨0, C * 1000000⟩) (some ⟨0, T * 1000000⟩) cpuid

theorem tableCall_reserveMillis {s : Kernel} {tid : Tid} {C T cpuid : ℤ}
    (live : s.exited tid = false) (valid : ValidTimes ⟨0, C * 1000000⟩ ⟨0, T * 1000000⟩)
    (named : -1 ≤ cpuid ∧ cpuid ≤ 3) : TableCall s (reserveMillis tid C T cpuid) := by
  refine ⟨live, allSucceed_succeed, ?_, named⟩
  intro C' budget T' period
  cases budget
  cases period
  exact valid

/-- Two tasks on CPU 0. -/
def twoTasks : Kernel :=
  after step (after step .bare (reserveMillis 1 1 10 0)) (reserveMillis 2 1 20 0)

theorem reaches_twoTasks {allowed : Kernel → Op → Prop}
    (first : allowed .bare (reserveMillis 1 1 10 0))
    (second : allowed (after step .bare (reserveMillis 1 1 10 0)) (reserveMillis 2 1 20 0)) :
    Reaches step allowed Boot twoTasks :=
  ((Reaches.start boot_bare).after first (by decide)).after second (by decide)

/-- Moving the first of two tasks to another CPU drops the second from the list
of its CPU. -/
theorem reaches_not_tableAgrees :
    ∃ s cpu, Reaches step TableCall Boot s ∧ ¬ TableAgrees s cpu := by
  refine ⟨after step twoTasks (reserveMillis 1 1 10 1), 0, ?_, ?_⟩
  · apply Reaches.after
    · apply reaches_twoTasks
      · exact tableCall_reserveMillis rfl ⟨by decide, by decide, by decide⟩ (by decide)
      · exact tableCall_reserveMillis (by decide) ⟨by decide, by decide, by decide⟩ (by decide)
    · exact tableCall_reserveMillis (by decide) ⟨by decide, by decide, by decide⟩ (by decide)
    · decide
  · intro agrees
    have member := (agrees.mem_iff 2).mpr (by decide)
    exact absurd member (by decide)

/-- In every run of calls with orderly revisions, the table agrees with the
reservations in every state reached. -/
theorem reaches_tableAgrees {s : Kernel}
    (reached : Reaches step (fun s op => TableCall s op ∧ Orderly s op) Boot s) (cpu : Cpu) :
    TableAgrees s cpu :=
  (reaches_consistent (fun _ _ permitted => permitted.1.serial) (fun _ _ permitted => permitted.2)
    reached).tableAgrees cpu

theorem reaches_tableAgrees_last :
    TableAgrees (after step twoTasks (reserveMillis 2 1 20 1)) 1 := by
  apply reaches_tableAgrees
  apply Reaches.after
  · apply reaches_twoTasks
    · refine ⟨tableCall_reserveMillis rfl ⟨by decide, by decide, by decide⟩ (by decide), ?_⟩
      intro reserved
      exact absurd reserved (by decide)
    · refine ⟨tableCall_reserveMillis (by decide) ⟨by decide, by decide, by decide⟩ (by decide), ?_⟩
      intro reserved
      exact absurd reserved (by decide)
  · refine ⟨tableCall_reserveMillis (by decide) ⟨by decide, by decide, by decide⟩ (by decide), ?_⟩
    intro _
    exact ⟨1, by decide, .inr (by decide)⟩
  · decide

/-! ## Every list passes the test, and every rollback succeeds -/

/-- Revisions name the CPU the task is on. -/
def InPlace (s : Kernel) : Op → Prop
  | .setReserve _ tid _ _ cpuid =>
      (s.reserve tid).flag = true → cpuOf cpuid = some (s.reserve tid).cpu
  | _ => True

theorem InPlace.orderly {s : Kernel} {op : Op} (inPlace : InPlace s op) : Orderly s op := by
  cases op with
  | setReserve srv tid budget period cpuid =>
      intro reserved
      exact ⟨_, inPlace reserved, .inl rfl⟩
  | _ => trivial

theorem serial_reserveMillis {s : Kernel} {tid : Tid} {C T cpuid : ℤ}
    (live : s.exited tid = false) (valid : ValidTimes ⟨0, C * 1000000⟩ ⟨0, T * 1000000⟩)
    (fresh : (s.reserve tid).flag = false) :
    Serial s (reserveMillis tid C T cpuid) ∧ InPlace s (reserveMillis tid C T cpuid) := by
  refine ⟨⟨live, ?_, allSucceed_succeed.toFilesSucceed⟩, ?_⟩
  · intro C' budget T' period
    cases budget
    cases period
    exact valid
  · intro reserved
    simp [fresh] at reserved

/-- The test of `try_bind` passes on the list of an admitted bin as it is. -/
theorem Admitted.admissionTest {reserve : Tid → Reserve} {bin : CpuTable}
    (admitted : Admitted reserve bin) :
    bin.cpuUtil ≤ utilMultiple ∧ Reservation.admissionTest reserve bin.cpuTasks
      bin.cpuTasksLength.toNat bin.cpuUtil = .ok true := by
  have acceptable := admitted.acceptable
  have total := acceptable.total
  obtain ⟨passes, returns, decides⟩ := admissionTest_live
    (by simpa [CpuTable.entries] using acceptable.count) acceptable.inRange total
  obtain rfl := decides.mpr acceptable.hybrid
  rw [admitted.util]
  exact ⟨by unfold utilMultiple; exact_mod_cast total, returns⟩

/-- What becomes of a revision that fails: every call of `try_bind` that puts the
task back returns, and the table is as before up to the order of equal
periods. -/
structure RollsBack (s : Kernel) (tid : Tid) (C T : Timespec) (cpuid : ℤ) : Prop where
  refused : ∀ params, paramsOf C T = .ok params →
    ∃ result, s.revise tid params (cpuOf cpuid) = .ok result
  undone : ∀ srv, srv.schedSetaffinity = false →
    ∃ result, s.setReserve srv tid (some C) (some T) cpuid = .ok result
  tasks : ∀ srv retval s', FilesSucceed srv →
    s.setReserve srv tid (some C) (some T) cpuid = .ok (retval, s') → retval ≠ 0 →
    ∀ cpu, SameTasks s.reserve (s.table cpu) (s'.table cpu)

private theorem Consistent.rollsBack {s : Kernel} {tid : Tid} {C T : Timespec} {cpuid : ℤ}
    (consistent : Consistent s) (live : s.exited tid = false)
    (flag : (s.reserve tid).flag = true) (valid : ValidTimes C T)
    (named : cpuOf cpuid = some (s.reserve tid).cpu) : RollsBack s tid C T cpuid where
  refused := by
    intro params converts
    obtain ⟨retval, s₁, revises, _⟩ := revise_spec consistent.represents live flag (.inl rfl)
      (inRange_paramsOf valid converts (s.reserve tid))
    rw [named]
    exact ⟨_, revises⟩
  undone := by
    intro srv affinity
    have converts := paramsOf_valid valid
    obtain ⟨retval, s₁, revises, verdict⟩ := revise_spec consistent.represents live flag (.inl rfl)
      (inRange_paramsOf valid converts (s.reserve tid))
    unfold Kernel.setReserve
    split
    · exact ⟨_, rfl⟩
    · dsimp only
      split
      · exact ⟨_, rfl⟩
      · simp only [converts, ok_bind, Kernel.assign, if_pos flag, named, revises]
        rcases verdict with ⟨rfl, assigned⟩ | ⟨rfl, _⟩
        · obtain ⟨s', returns, _⟩ :=
            afterBind_undone (C := C) (T := T) consistent.represents live assigned affinity
          exact ⟨_, returns⟩
        · exact ⟨_, if_pos EBUSY_ne_zero⟩
  tasks := by
    intro srv retval s' files returns nonzero cpu
    rcases setReserve_result consistent.represents live (fun _ => ⟨_, named, .inl rfl⟩) returns with
      ⟨_, rfl⟩ | ⟨_, _, _, _, _, _, result⟩
    · exact consistent.represents.sameTasks consistent.represents cpu
    · cases result with
      | refused restored => exact restored.sameTasks consistent.represents cpu
      | undone _ restored => exact restored.sameTasks consistent.represents cpu
      | failed _ fails => exact absurd files fails
      | installed => exact absurd rfl nonzero

/-- In every run whose revisions name the CPU their task is on, every list
passes the test of `try_bind`, every call that puts a task back has returned
zero, and every revision that fails leaves the table as it was up to the order
of equal periods. -/
theorem reaches_accepts {s : Kernel}
    (reached : Reaches step (fun s op => Serial s op ∧ InPlace s op) Boot s) :
    (∀ cpu, (s.table cpu).cpuUtil ≤ utilMultiple ∧ admissionTest s.reserve (s.table cpu).cpuTasks
      (s.table cpu).cpuTasksLength.toNat (s.table cpu).cpuUtil = .ok true) ∧
    (∀ value ∈ s.rollbacks, value = 0) ∧
    ∀ tid C T cpuid, s.exited tid = false → (s.reserve tid).flag = true → ValidTimes C T →
      cpuOf cpuid = some (s.reserve tid).cpu → RollsBack s tid C T cpuid := by
  have consistent := reaches_consistent (fun _ _ permitted => permitted.1)
    (fun _ _ permitted => permitted.2.orderly) reached
  refine ⟨?_, consistent.rollbacks, ?_⟩
  · exact fun cpu => (consistent.represents.admitted cpu).admissionTest
  · intro tid C T cpuid live flag valid named
    exact consistent.rollsBack live flag valid named

/-- Two tasks on CPU 0 whose second is to be revised to more than there is. -/
theorem reaches_accepts_twoTasks :
    admissionTest twoTasks.reserve (twoTasks.table 0).cpuTasks 2 (twoTasks.table 0).cpuUtil =
        .ok true ∧
      RollsBack twoTasks 2 ⟨0, 20000000⟩ ⟨0, 20000000⟩ 0 := by
  have reached : Reaches step (fun s op => Serial s op ∧ InPlace s op) Boot twoTasks :=
    reaches_twoTasks
      (serial_reserveMillis rfl ⟨by decide, by decide, by decide⟩ rfl)
      (serial_reserveMillis (by decide) ⟨by decide, by decide, by decide⟩ (by decide))
  have accepts := reaches_accepts reached
  exact ⟨(accepts.1 0).2, accepts.2.2 2 _ _ 0 (by decide) (by decide)
    ⟨by decide, by decide, by decide⟩ (by decide)⟩

end Rtes.Reservation
