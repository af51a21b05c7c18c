import Rtes.Reservation.Hotplug
import Rtes.Reservation.Undo
import Rtes.Sysclock.Workload

/-!
# How many tasks SysClock collects

`sysclock_compute` has room for `MAX_TASK` tasks of a CPU and does not count
them.  A list of the table has room for ten times as many, and what limits it is
the sum of the utilizations, to which a light task adds little or nothing.  With
a hundredth of a CPU at least for each task, and none that exits with its
reservation, there is room for all.
-/

namespace Rtes.Sysclock

open Rtes.Reservation Rtes.Transition Rtes.Word

variable {s s' : Kernel} {t : Tid} {op : Op}

/-! ## Tasks of a hundredth of a CPU -/

/-- The reserved processes of a CPU are on its list. -/
theorem collect_length_le_entries (consistent : Consistent s) (unreserved : ExitedUnreserved s)
    (nodup : s.processes.Nodup) (cpu : Cpu) :
    (collect s.reserve s.processes cpu).length ≤ (s.table cpu).entries.length := by
  rw [collect, List.length_map]
  apply List.Subperm.length_le
  apply List.subperm_of_subset (nodup.filter _)
  intro t member
  obtain ⟨_, reserved⟩ := List.mem_filter.mp member
  rw [Bool.and_eq_true, beq_iff_eq] at reserved
  exact ((consistent.tableAgrees cpu).mem_iff t).mpr
    ⟨unreserved.live reserved.1, reserved.1, reserved.2⟩

/-- Tasks of a hundredth of a CPU at least: there are no more than a hundred. -/
theorem entries_length_le (consistent : Consistent s) (atLeast : UtilAtLeast 100 s) (cpu : Cpu) :
    (s.table cpu).entries.length ≤ maxTask := by
  have each : ∀ util ∈ (s.table cpu).entries.map fun t => (s.reserve t).util, 100 ≤ util := by
    intro util member
    obtain ⟨t, listed, rfl⟩ := List.mem_map.mp member
    obtain ⟨_, flag, _⟩ := ((consistent.tableAgrees cpu).mem_iff t).mp listed
    exact atLeast t flag
  have least := List.card_nsmul_le_sum _ 100 each
  rw [← (consistent.tableAgrees cpu).util, List.length_map, nsmul_eq_mul] at least
  have admitted := consistent.represents.admitted cpu
  have most := admitted.acceptable.total
  rw [admitted.util] at least
  unfold maxTask
  omega

/-- A budget is at least a hundredth of its period, and no task exits with its
reservation. -/
def Sizable (s : Kernel) : Op → Prop
  | .setReserve _ _ budget period _ =>
      ∀ C ∈ budget, ∀ T ∈ period, T.millis ≤ 100 * C.millis
  | .cancelReserve _ _ => True
  | .doExit _ t => (s.reserve t).flag = false
  | _ => False

namespace Sizable

theorem places (sizable : Sizable s op) : op.Places := by
  cases op with
  | setReserve => trivial
  | cancelReserve => trivial
  | doExit => trivial
  | _ => exact sizable.elim

theorem asksFor (serial : Serial s op) (sizable : Sizable s op) : op.AsksFor 100 := by
  cases op with
  | setReserve srv tid budget period cpuid =>
      intro C isBudget T isPeriod params converts
      have enough := sizable C isBudget T isPeriod
      exact le_util_of_paramsOf (serial.2.1 C isBudget T isPeriod) (by omega) converts
  | _ => trivial

theorem retires (serial : Serial s op) (sizable : Sizable s op) : Retires s op := by
  cases op with
  | setReserve srv tid budget period cpuid => exact .inl serial.1
  | doExit srv t => exact sizable
  | _ => trivial

end Sizable

/-! ## A crowd of light tasks -/

/-- A hundred and one processes. -/
def manyProcesses : Kernel :=
  { Kernel.bare with processes := List.range' 1 101 }

theorem boot_manyProcesses : Boot manyProcesses :=
  ⟨boot_bare.table, boot_bare.reserve, rfl⟩

/-- A task asks for one millisecond of every minute on CPU 0. -/
def reserveMinute (t : Tid) : Op :=
  .setReserve .succeed t (some ⟨0, 1000000⟩) (some ⟨60, 0⟩) 0

/-- The first `k` tasks are reserved on CPU 0, and have no utilization. -/
structure Crowd (k : ℕ) (s : Kernel) : Prop where
  reached : Reaches step (fun s op => TableCall s op ∧ InPlace s op)
    (fun s => Boot s ∧ s.processes.Nodup) s
  consistent : Consistent s
  live : ∀ t, s.exited t = false
  found : ∀ t, s.found t = true
  idle : ∀ cpu, s.sysclockGovernor cpu = false
  processes : s.processes = List.range' 1 101
  flag : ∀ t, (s.reserve t).flag = true ↔ t ∈ List.range' 1 k
  cpu : ∀ t ∈ List.range' 1 k, (s.reserve t).cpu = 0
  util : ∀ t, (s.reserve t).util = 0

namespace Crowd

variable {k : ℕ}

theorem zero : Crowd 0 manyProcesses where
  reached := .start ⟨boot_manyProcesses, List.nodup_range'⟩
  consistent := boot_manyProcesses.consistent
  live := fun _ => rfl
  found := fun _ => rfl
  idle := fun _ => rfl
  processes := rfl
  flag := by simp [(boot_manyProcesses.reserve _).1]
  cpu := by simp
  util := fun _ => rfl

theorem cpuUtil (crowd : Crowd k s) : (s.table 0).cpuUtil = 0 := by
  rw [(crowd.consistent.tableAgrees 0).util]
  simp [crowd.util]

theorem length_le (crowd : Crowd k s) : (s.table 0).cpuTasksLength ≤ k := by
  have few : (s.table 0).entries.length ≤ (List.range' 1 k).length := by
    apply List.Subperm.length_le
    apply List.subperm_of_subset (crowd.consistent.tableAgrees 0).nodup
    intro t member
    obtain ⟨_, flag, _⟩ := ((crowd.consistent.tableAgrees 0).mem_iff t).mp member
    exact (crowd.flag t).mp flag
  have length := length_entries (crowd.consistent.tableAgrees 0).nonneg
  rw [List.length_range'] at few
  omega

theorem unreserved (crowd : Crowd k s) : (s.reserve (k + 1)).flag = false := by
  rw [Bool.eq_false_iff, Ne, crowd.flag, List.mem_range'_1]
  omega

/-- There is room for another task. -/
theorem admits (crowd : Crowd k s) (room : k < 1000) :
    ∃ bound, s.assign (k + 1) ⟨60000, 1, 0⟩ (cpuOf 0) = .ok (0, some 0, bound) := by
  have space : (s.table 0).cpuTasksLength < taskSchedulingLength := by
    have length := crowd.length_le
    unfold taskSchedulingLength
    omega
  have small : int32 ((s.table 0).cpuUtil + 0) ≤ utilBoundInf := by
    rw [crowd.cpuUtil]
    decide
  exact assign_accepts crowd.unreserved ⟨(crowd.consistent.tableAgrees 0).nonneg, space⟩ small

private theorem paramsOf_minute : paramsOf ⟨0, 1000000⟩ ⟨60, 0⟩ = .ok ⟨60000, 1, 0⟩ := by
  decide

/-- The task that is admitted has a reservation of no utilization. -/
theorem newcomer (crowd : Crowd k s) {bound s' : Kernel}
    (places : s.assign (k + 1) ⟨60000, 1, 0⟩ (cpuOf 0) = .ok (0, some 0, bound))
    (returns : s.setReserve .succeed (k + 1) (some ⟨0, 1000000⟩) (some ⟨60, 0⟩) 0 = .ok (0, s')) :
    (s'.reserve (k + 1)).flag = true ∧ (s'.reserve (k + 1)).cpu = 0 ∧
      (s'.reserve (k + 1)).util = 0 := by
  obtain ⟨params, cpu, placed, converts, places', created, continues⟩ :=
    setReserve_created crowd.consistent.represents.exact crowd.unreserved returns
  cases paramsOf_minute.symm.trans converts
  cases places.symm.trans places'
  have prepared := (afterBind_zero continues).2
  obtain ⟨reserved, onCpu, _⟩ := Holding.mk.inj prepared.holding
  exact ⟨reserved, onCpu, (congrArg Params.util (prepared.params (k + 1))).trans created.util_eq⟩

theorem allowed (crowd : Crowd k s) :
    TableCall s (reserveMinute (k + 1)) ∧ InPlace s (reserveMinute (k + 1)) := by
  have valid : ∀ C ∈ some (⟨0, 1000000⟩ : Timespec), ∀ T ∈ some (⟨60, 0⟩ : Timespec),
      ValidTimes C T := by
    rintro _ ⟨⟩ _ ⟨⟩
    exact ⟨by decide, by decide, by decide⟩
  refine ⟨⟨crowd.live _, allSucceed_succeed, valid, by decide, by decide⟩, ?_⟩
  intro reserved
  exact absurd reserved (by simp [crowd.unreserved])

theorem step (crowd : Crowd k s) (room : k < 1000) : ∃ s', Crowd (k + 1) s' := by
  obtain ⟨bound, places⟩ := crowd.admits room
  obtain ⟨s', returns⟩ := setReserve_succeeds allSucceed_succeed crowd.idle (crowd.found _)
    paramsOf_minute ⟨by decide, by decide⟩ places
  have taken : Reservation.step s (reserveMinute (k + 1)) = .ok s' :=
    bind_eq_ok_iff.mpr ⟨_, returns, rfl⟩
  obtain ⟨call, inPlace⟩ := crowd.allowed
  obtain ⟨own, _, changes⟩ := setReserve_changes returns
  obtain ⟨reserved, onCpu, util⟩ := crowd.newcomer places returns
  have isNew : ∀ t, t ∈ List.range' 1 k ∨ t = k + 1 ↔ t ∈ List.range' 1 (k + 1) := by
    intro t
    rw [List.range'_1_concat, List.mem_append, List.mem_singleton, Nat.add_comm 1]
  refine ⟨s', .next crowd.reached ⟨call, inPlace⟩ taken,
    step_consistent crowd.consistent call.serial inPlace.orderly taken, ?_, ?_, ?_, ?_, ?_, ?_, ?_⟩
  · rw [changes.exited_eq]
    exact crowd.live
  · rw [changes.found_eq]
    exact crowd.found
  · rw [changes.governor_eq]
    exact crowd.idle
  · exact changes.processes_eq.trans crowd.processes
  · intro t
    rcases eq_or_ne t (k + 1) with rfl | different
    · simp [reserved]
    · rw [changes.others different, crowd.flag, ← isNew t, or_iff_left different]
  · intro t member
    rcases eq_or_ne t (k + 1) with rfl | different
    · exact onCpu
    · rw [changes.others different]
      exact crowd.cpu t (((isNew t).mpr member).resolve_right different)
  · intro t
    rcases eq_or_ne t (k + 1) with rfl | different
    · exact util
    · rw [changes.others different]
      exact crowd.util t

/-- As many as a list of the table has room for. -/
theorem exists_of_le (room : k ≤ 1000) : ∃ s, Crowd k s := by
  induction k with
  | zero => exact ⟨_, zero⟩
  | succ k ih =>
      obtain ⟨s, crowd⟩ := ih (Nat.le_of_succ_le room)
      exact crowd.step room

private theorem collect_length (crowd : Crowd 101 s) :
    (collect s.reserve s.processes 0).length = 101 := by
  have all : s.processes.filter (fun t => (s.reserve t).flag && (s.reserve t).cpu == 0) =
      s.processes := by
    rw [List.filter_eq_self, crowd.processes]
    intro t member
    simp [(crowd.flag t).mpr member, crowd.cpu t member]
  rw [collect, List.length_map, all, crowd.processes, List.length_range']

end Crowd

/-- A hundred and one tasks of one millisecond a minute are all admitted, and
SysClock writes past its array. -/
theorem reaches_not_collect_length_le :
    ∃ s, Reaches step (fun s op => TableCall s op ∧ InPlace s op)
        (fun s => Boot s ∧ s.processes.Nodup) s ∧
      maxTask < (collect s.reserve s.processes 0).length ∧
      sysclockCompute uint32 (collect s.reserve s.processes) = .error .outOfBounds := by
  obtain ⟨s, crowd⟩ : ∃ s, Crowd 101 s := Crowd.exists_of_le (by decide)
  have many : maxTask < (collect s.reserve s.processes 0).length := by
    rw [crowd.collect_length]
    decide
  refine ⟨s, crowd.reached, many, ?_⟩
  rw [sysclockCompute, scaleLoop, if_pos many]
  rfl

/-! ## Every run -/

/-- In every run of calls on live tasks that ask for a hundredth of a CPU at
least, and in which no reserved task exits, SysClock has room for all tasks of a
CPU. -/
theorem reaches_collect_length_le
    (reached : Reaches step (fun s op => (Serial s op ∧ Orderly s op) ∧ Sizable s op)
      (fun s => Boot s ∧ s.processes.Nodup) s) (cpu : Cpu) :
    (collect s.reserve s.processes cpu).length ≤ maxTask := by
  have kept : Consistent s ∧ UtilAtLeast 100 s ∧ ExitedUnreserved s ∧ s.processes.Nodup := by
    apply reached.invariant
    · rintro state ⟨boot, nodup⟩
      exact ⟨boot.consistent, boot.utilAtLeast 100, fun t _ => (boot.reserve t).1, nodup⟩
    · rintro state op target ⟨consistent, atLeast, unreserved, nodup⟩
        ⟨⟨serial, orderly⟩, sizable⟩ taken
      refine ⟨step_consistent consistent serial orderly taken,
        atLeast.step (sizable.asksFor serial) taken,
        unreserved.step (sizable.retires serial) taken, ?_⟩
      rw [(step_environment sizable.places taken).1]
      exact nodup
  obtain ⟨consistent, atLeast, unreserved, nodup⟩ := kept
  exact (collect_length_le_entries consistent unreserved nodup cpu).trans
    (entries_length_le consistent atLeast cpu)

/-- A process with a tenth of CPU 0. -/
theorem reaches_collect_length_le_process :
    (collect (after step oneProcess (reserveMillis 1 1 10 0)).reserve
      (after step oneProcess (reserveMillis 1 1 10 0)).processes 0).length ≤ maxTask := by
  apply reaches_collect_length_le
  apply Reaches.after
  · exact .start ⟨boot_oneProcess, by decide⟩
  · obtain ⟨serial, inPlace⟩ :
        Serial oneProcess (reserveMillis 1 1 10 0) ∧ InPlace oneProcess (reserveMillis 1 1 10 0) :=
      serial_reserveMillis rfl ⟨by decide, by decide, by decide⟩ rfl
    refine ⟨⟨serial, inPlace.orderly⟩, ?_⟩
    rintro _ ⟨⟩ _ ⟨⟩
    decide
  · decide

end Rtes.Sysclock
