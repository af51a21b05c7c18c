import Rtes.Reservation.Exit

/-!
# The workload SysClock sees

The reservations are kept twice: in the lists of the CPUs, which the admission
test reads, and in the tasks themselves, which `sysclock_compute` finds by
walking the processes.  Both agree, and the frequency follows the live
reservations, as long as only processes are reserved, a task gives up its
reservation before it exits, and every call completes.
-/

namespace Rtes.Sysclock

open Rtes.Reservation Rtes.Transition Rtes.Word

variable {s s' : Kernel} {t : Tid} {op : Op}

/-! ## Reserved tasks -/

/-- The parameters of a live reserved task are its times in milliseconds. -/
structure Recorded (exited : Bool) (reserve : Reserve) : Prop where
  live : exited = false
  valid : ValidTimes reserve.C reserve.T
  budget : reserve.budget = reserve.C.millis
  period : reserve.period = reserve.T.millis

/-- Every reserved task is a live process with its times on record. -/
def AllRecorded (s : Kernel) : Prop :=
  ∀ t, (s.reserve t).flag = true → t ∈ s.processes ∧ Recorded (s.exited t) (s.reserve t)

/-- Only processes are reserved, and a task exits only after it gave up its
reservation. -/
def Visible (s : Kernel) : Op → Prop
  | .setReserve _ tid _ _ _ => tid ∈ s.processes
  | .cancelReserve _ _ => True
  | .doExit _ t => (s.reserve t).flag = false
  | _ => False

private theorem millis_of_paramsOf {C T : Timespec} {params : Params}
    (converts : paramsOf C T = .ok params) :
    params.budget = C.millis ∧ params.period = T.millis := by
  unfold paramsOf at converts
  split at converts
  · cases converts
  · cases converts
    exact ⟨rfl, rfl⟩

namespace AllRecorded

theorem of_changes {own : Reserve} (recorded : AllRecorded s) (changes : Changes t own s s')
    (named : own.flag = true → t ∈ s.processes ∧ Recorded (s.exited t) own) :
    AllRecorded s' := by
  intro other
  rw [changes.exited_eq, changes.processes_eq]
  rcases eq_or_ne other t with rfl | different
  · rw [changes.own_eq]
    exact named
  · rw [changes.others different]
    exact recorded other

theorem setReserve {srv : Services} {budget period : Option Timespec} {cpuid retval : ℤ}
    (recorded : AllRecorded s) (live : s.exited t = false) (process : t ∈ s.processes)
    (files : FilesSucceed srv) (valid : ∀ C ∈ budget, ∀ T ∈ period, ValidTimes C T)
    (returns : s.setReserve srv t budget period cpuid = .ok (retval, s')) : AllRecorded s' := by
  obtain ⟨own, result, changes⟩ := setReserve_changes returns
  apply recorded.of_changes changes
  intro flag
  refine ⟨process, ?_⟩
  cases result with
  | refused _ kept =>
      have reserved : (s.reserve t).flag = true := flag
      rw [kept reserved]
      exact (recorded t reserved).2
  | undone _ kept =>
      have reserved : (s.reserve t).flag = true := flag
      rw [kept reserved, Reserve.fresh_of_reserved reserved]
      exact (recorded t reserved).2
  | failed _ fails => exact absurd files fails
  | installed isBudget isPeriod converts =>
      obtain ⟨isMillis, isPeriodMillis⟩ := millis_of_paramsOf converts
      exact ⟨live, valid _ isBudget _ isPeriod, isMillis, isPeriodMillis⟩

theorem cancelReserve {srv : Services} {retval : ℤ} (recorded : AllRecorded s)
    (returns : s.cancelReserve srv t = .ok (retval, s')) : AllRecorded s' := by
  obtain ⟨own, result, changes⟩ := cancelReserve_changes returns
  apply recorded.of_changes changes
  intro flag
  cases result with
  | missing _ => exact recorded t flag
  | refused _ reserved _ =>
      obtain ⟨process, live, valid, budget, period⟩ := recorded t reserved
      exact ⟨process, live, valid, budget, period⟩
  | idle _ unreserved _ => exact absurd flag (by simp [Reserve.withFiles, unreserved])
  | released => exact absurd flag Bool.false_ne_true

/-- The exit of a task without reservation. -/
theorem doExit {srv : Services} (recorded : AllRecorded s) (flag : (s.reserve t).flag = false)
    (returns : s.doExit srv t = .ok s') : AllRecorded s' := by
  rw [doExit_idle flag returns]
  intro other reserved
  have different : other ≠ t := by
    rintro rfl
    exact Bool.false_ne_true (flag.symm.trans reserved)
  simp only [Function.update_of_ne different]
  exact recorded other reserved

end AllRecorded

private theorem step_allRecorded (recorded : AllRecorded s) (serial : Serial s op)
    (visible : Visible s op) (taken : step s op = .ok s') : AllRecorded s' := by
  cases op with
  | setReserve srv tid budget period cpuid =>
      obtain ⟨⟨retval, target⟩, returns, result⟩ := bind_eq_ok_iff.mp taken
      cases result
      obtain ⟨live, valid, files⟩ := serial
      exact recorded.setReserve live visible files valid returns
  | cancelReserve srv tid =>
      obtain ⟨⟨retval, target⟩, returns, result⟩ := bind_eq_ok_iff.mp taken
      cases result
      exact recorded.cancelReserve returns
  | doExit srv t => exact recorded.doExit visible taken
  | _ => exact visible.elim

/-! ## Two representations of the workload -/

/-- The times in milliseconds that `sysclock_compute` collects for a CPU. -/
def collectedTimes (s : Kernel) (cpu : Cpu) : Multiset (ℤ × ℤ) :=
  (collect s.reserve s.processes cpu).map fun entry => ((entry.C : ℤ), (entry.T : ℤ))

/-- The parameters of the tasks on the list of a CPU. -/
def listedTimes (s : Kernel) (cpu : Cpu) : Multiset (ℤ × ℤ) :=
  (s.table cpu).entries.map fun t => ((s.reserve t).budget, (s.reserve t).period)

theorem Recorded.entryOf {exited : Bool} {reserve : Reserve} (recorded : Recorded exited reserve) :
    (((entryOf reserve).C : ℤ), ((entryOf reserve).T : ℤ)) = (reserve.budget, reserve.period) := by
  obtain ⟨_, ⟨positive, order, bounded⟩, budget, period⟩ := recorded
  rw [budget, period]
  simp only [Sysclock.entryOf, toUnsigned]
  congr 1
  · omega
  · omega

/-- The reserved processes of a CPU are the tasks on its list. -/
theorem reserved_perm_entries (consistent : Consistent s) (recorded : AllRecorded s)
    (nodup : s.processes.Nodup) (cpu : Cpu) :
    (s.processes.filter fun t => (s.reserve t).flag && (s.reserve t).cpu == cpu).Perm
      (s.table cpu).entries := by
  rw [List.perm_ext_iff_of_nodup (nodup.filter _) (consistent.represents.nodup cpu)]
  intro t
  rw [(consistent.tableAgrees cpu).mem_iff, List.mem_filter, Bool.and_eq_true, beq_iff_eq]
  constructor
  · rintro ⟨_, flag, own⟩
    exact ⟨(recorded t flag).2.live, flag, own⟩
  · rintro ⟨_, flag, own⟩
    exact ⟨(recorded t flag).1, flag, own⟩

private theorem collectedTimes_eq (consistent : Consistent s) (recorded : AllRecorded s)
    (nodup : s.processes.Nodup) (cpu : Cpu) : collectedTimes s cpu = listedTimes s cpu := by
  have perm := reserved_perm_entries consistent recorded nodup cpu
  rw [collectedTimes, listedTimes, Multiset.coe_eq_coe, collect, List.map_map]
  refine List.Perm.trans (List.Perm.of_eq ?_) (perm.map _)
  apply List.map_congr_left
  intro t member
  have flag : (s.reserve t).flag = true := by
    have reserved := (List.mem_filter.mp member).2
    exact (Bool.and_eq_true _ _ ▸ reserved).1
  exact (recorded t flag).2.entryOf

/-- A system call changes the environment of the reservations only by an exit. -/
theorem step_environment (places : op.Places) (taken : step s op = .ok s') :
    s'.processes = s.processes ∧ s'.sysclockGovernor = s.sysclockGovernor := by
  cases op with
  | setReserve srv tid budget period cpuid =>
      obtain ⟨⟨retval, target⟩, returns, result⟩ := bind_eq_ok_iff.mp taken
      cases result
      obtain ⟨own, _, changes⟩ := setReserve_changes returns
      exact ⟨changes.processes_eq, changes.governor_eq⟩
  | cancelReserve srv tid =>
      obtain ⟨⟨retval, target⟩, returns, result⟩ := bind_eq_ok_iff.mp taken
      cases result
      obtain ⟨own, _, changes⟩ := cancelReserve_changes returns
      exact ⟨changes.processes_eq, changes.governor_eq⟩
  | doExit srv t =>
      obtain ⟨own, released, _, changes, rfl⟩ := doExit_changes taken
      exact ⟨changes.processes_eq, changes.governor_eq⟩
  | _ => exact places.elim

theorem Visible.places (visible : Visible s op) : op.Places := by
  cases op with
  | setReserve => trivial
  | cancelReserve => trivial
  | doExit => trivial
  | _ => exact visible.elim

/-- A process 1 with a thread 2 that is not in the list of processes. -/
def oneProcess : Kernel :=
  { Kernel.bare with processes := [1], sysclockGovernor := fun _ => true }

theorem boot_oneProcess : Boot oneProcess :=
  ⟨boot_bare.table, boot_bare.reserve, rfl⟩

/-- A reserved thread is on the list of its CPU and not collected. -/
theorem reaches_not_collectedTimes_eq :
    ∃ s cpu, Reaches step (fun s op => TableCall s op ∧ InPlace s op)
        (fun s => Boot s ∧ s.processes.Nodup) s ∧ collectedTimes s cpu ≠ listedTimes s cpu := by
  refine ⟨after step oneProcess (reserveMillis 2 1 10 0), 0, ?_, by decide⟩
  apply Reaches.after
  · exact .start ⟨boot_oneProcess, by decide⟩
  · refine ⟨tableCall_reserveMillis rfl ⟨by decide, by decide, by decide⟩ (by decide), ?_⟩
    intro reserved
    exact absurd reserved (by decide)
  · decide

/-- In every run of calls on live tasks that reserve processes only and in which
no reserved task exits, SysClock and the admission table see the same
workload. -/
theorem reaches_collectedTimes_eq
    (reached : Reaches step (fun s op => (Serial s op ∧ InPlace s op) ∧ Visible s op)
      (fun s => Boot s ∧ s.processes.Nodup) s) (cpu : Cpu) :
    collectedTimes s cpu = listedTimes s cpu := by
  have kept : Consistent s ∧ AllRecorded s ∧ s.processes.Nodup := by
    apply reached.invariant
    · rintro state ⟨boot, nodup⟩
      refine ⟨boot.consistent, ?_, nodup⟩
      intro t flag
      simp [(boot.reserve t).1] at flag
    · rintro state op target ⟨consistent, recorded, nodup⟩ ⟨⟨serial, inPlace⟩, visible⟩ taken
      refine ⟨step_consistent consistent serial inPlace.orderly taken,
        step_allRecorded recorded serial visible taken, ?_⟩
      rw [(step_environment visible.places taken).1]
      exact nodup
  exact collectedTimes_eq kept.1 kept.2.1 kept.2.2 cpu

theorem reaches_collectedTimes_eq_process :
    collectedTimes (after step oneProcess (reserveMillis 1 1 10 0)) 0 =
      listedTimes (after step oneProcess (reserveMillis 1 1 10 0)) 0 := by
  apply reaches_collectedTimes_eq
  apply Reaches.after
  · exact .start ⟨boot_oneProcess, by decide⟩
  · exact ⟨serial_reserveMillis rfl ⟨by decide, by decide, by decide⟩ rfl,
      List.mem_singleton_self 1⟩
  · decide

/-! ## The frequency follows the live reservations -/

/-- The reservation a task holds: its times and its CPU. -/
def held (s : Kernel) (t : Tid) : Option (Timespec × Timespec × Cpu) :=
  if s.exited t then none
  else if (s.reserve t).flag then some ((s.reserve t).C, (s.reserve t).T, (s.reserve t).cpu)
  else none

/-- Every online CPU has the frequency that is computed for the live
reservations. -/
def Tracks (s : Kernel) : Prop :=
  ∀ cpu, s.cpuOnline cpu = true →
    sysclockCompute uint32 (collect s.reserve (s.processes.filter fun t => !s.exited t)) =
      .ok (s.cpuCurFreq cpu)

/-- A task exits only after it gave up its reservation, no exited task is given
one, and a revision can set up its files. -/
def Completes (s : Kernel) : Op → Prop
  | .setReserve srv tid _ _ _ => (s.exited tid = false ∨ s.found tid = false) ∧
      ((s.reserve tid).flag = true → FilesSucceed srv)
  | .cancelReserve _ _ => True
  | .doExit _ t => (s.reserve t).flag = false
  | _ => False

private theorem collect_filter_exited (unreserved : ExitedUnreserved s) :
    collect s.reserve (s.processes.filter fun t => !s.exited t) =
      collect s.reserve s.processes := by
  funext cpu
  rw [collect, collect, List.filter_filter]
  congr 1
  apply List.filter_congr
  intro t _
  cases exited : s.exited t with
  | false => simp
  | true => simp [unreserved t exited]

/-- After the frequencies are set they track the live reservations. -/
theorem tracks_of_sysclockSetFrequency (unreserved : ExitedUnreserved s')
    (governed : ∀ cpu, s'.sysclockGovernor cpu = true)
    (returns : sysclockSetFrequency s = .ok s') : Tracks s' := by
  intro cpu online
  rw [collect_filter_exited unreserved]
  obtain ⟨same, _, sets⟩ := Kernel.setFrequencyLoop_eq returns
  rw [same] at online governed ⊢
  exact sets cpu (by fin_cases cpu <;> decide) online (governed cpu)

/-- A call that leaves flag, times and CPU of its task alone changes no
reservation. -/
theorem held_of_changes {own : Reserve} (changes : Changes t own s s')
    (flag : own.flag = (s.reserve t).flag)
    (times : own.flag = true →
      (own.C, own.T, own.cpu) = ((s.reserve t).C, (s.reserve t).T, (s.reserve t).cpu)) :
    held s' = held s := by
  funext other
  unfold held
  rw [changes.exited_eq]
  rcases eq_or_ne other t with rfl | different
  · rw [changes.own_eq]
    split
    · rfl
    · rw [← flag]
      split
      · rename_i reserved
        rw [times reserved]
      · rfl
  · rw [changes.others different]

/-- A refused call changes no reservation. -/
theorem setReserve_held {srv : Services} {budget period : Option Timespec} {cpuid retval : ℤ}
    (files : (s.reserve t).flag = true → FilesSucceed srv)
    (returns : s.setReserve srv t budget period cpuid = .ok (retval, s')) (nonzero : retval ≠ 0) :
    held s' = held s := by
  obtain ⟨own, result, changes⟩ := setReserve_changes returns
  cases result with
  | refused _ _ => exact held_of_changes changes rfl fun _ => rfl
  | undone _ _ => exact held_of_changes changes rfl fun _ => rfl
  | failed _ fails =>
      exact held_of_changes changes rfl fun flag => absurd (files flag) fails
  | installed => exact absurd rfl nonzero

private theorem cancelReserve_held {srv : Services} {retval : ℤ}
    (returns : s.cancelReserve srv t = .ok (retval, s')) (nonzero : retval ≠ 0) :
    held s' = held s := by
  obtain ⟨own, result, changes⟩ := cancelReserve_changes returns
  cases result with
  | missing => exact held_of_changes changes rfl fun _ => rfl
  | refused => exact held_of_changes changes rfl fun _ => rfl
  | idle => exact absurd rfl nonzero
  | released => exact absurd rfl nonzero

/-- A call that succeeds ends by setting the frequencies. -/
theorem setReserve_sets {srv : Services} {budget period : Option Timespec} {cpuid : ℤ}
    (returns : s.setReserve srv t budget period cpuid = .ok (0, s')) :
    ∃ now, sysclockSetFrequency now = .ok s' := by
  generalize isZero : (0 : ℤ) = retval at returns
  cases setReserve_effect returns with
  | rejected nonzero => exact absurd isZero.symm nonzero
  | refused nonzero => exact absurd isZero.symm nonzero
  | undone => exact absurd isZero (by decide)
  | failed nonzero => exact absurd isZero.symm nonzero
  | installed _ _ _ _ _ commits => exact ⟨_, commits⟩

private theorem cancelReserve_sets {srv : Services}
    (returns : s.cancelReserve srv t = .ok (0, s')) :
    ∃ now, sysclockSetFrequency now = .ok s' := by
  generalize isZero : (0 : ℤ) = retval at returns
  cases cancelReserve_effect returns with
  | missing => exact absurd isZero (by decide)
  | refused => exact absurd isZero (by decide)
  | idle _ _ finishes => exact ⟨_, finishes⟩
  | released _ _ _ _ finishes => exact ⟨_, finishes⟩

theorem Completes.retires (completes : Completes s op) : Retires s op := by
  cases op with
  | setReserve => exact completes.1
  | doExit => exact completes
  | _ => trivial

theorem Completes.places (completes : Completes s op) : op.Places := by
  cases op with
  | setReserve => trivial
  | cancelReserve => trivial
  | doExit => trivial
  | _ => exact completes.elim

private theorem step_tracks (unreserved : ExitedUnreserved s)
    (governed : ∀ cpu, s.sysclockGovernor cpu = true) (completes : Completes s op)
    (taken : step s op = .ok s') (changed : held s' ≠ held s) : Tracks s' := by
  have unreserved' := unreserved.step completes.retires taken
  rw [← (step_environment completes.places taken).2] at governed
  cases op with
  | setReserve srv tid budget period cpuid =>
      obtain ⟨⟨retval, target⟩, returns, result⟩ := bind_eq_ok_iff.mp taken
      cases result
      rcases eq_or_ne retval 0 with rfl | nonzero
      · obtain ⟨now, sets⟩ := setReserve_sets returns
        exact tracks_of_sysclockSetFrequency unreserved' governed sets
      · exact absurd (setReserve_held completes.2 returns nonzero) changed
  | cancelReserve srv tid =>
      obtain ⟨⟨retval, target⟩, returns, result⟩ := bind_eq_ok_iff.mp taken
      cases result
      rcases eq_or_ne retval 0 with rfl | nonzero
      · obtain ⟨now, sets⟩ := cancelReserve_sets returns
        exact tracks_of_sysclockSetFrequency unreserved' governed sets
      · exact absurd (cancelReserve_held returns nonzero) changed
  | doExit srv t =>
      refine absurd ?_ changed
      have flag : (s.reserve t).flag = false := completes
      rw [doExit_idle flag taken]
      funext other
      rcases eq_or_ne other t with rfl | different
      · simp [held, flag]
      · simp [held, different]
  | _ => exact completes.elim

/-- Runs on a kernel whose CPUs are all on the sysclock governor. -/
def Governed (s : Kernel) : Prop :=
  Boot s ∧ ∀ cpu, s.sysclockGovernor cpu = true

/-- The exit of a reserved task leaves the frequency of its reservation. -/
theorem reaches_not_tracks :
    ∃ s op s', Reaches step TableCall Governed s ∧ TableCall s op ∧ step s op = .ok s' ∧
      held s' ≠ held s ∧ ¬ Tracks s' := by
  let reserved := after step oneProcess (reserveMillis 1 1 10 0)
  refine ⟨reserved, .doExit .succeed 1, after step reserved (.doExit .succeed 1), ?_,
    ⟨by decide, allSucceed_succeed⟩, step_eq_after (by decide), ?_, ?_⟩
  · apply Reaches.after
    · exact .start ⟨boot_oneProcess, fun _ => rfl⟩
    · exact tableCall_reserveMillis rfl ⟨by decide, by decide, by decide⟩ (by decide)
    · decide
  · intro same
    exact absurd (congrFun same 1) (by decide)
  · intro tracks
    exact absurd (tracks 0 (by decide)) (by decide)

/-- In every run of calls that complete, in which no reserved task exits, a step
that changes the live reservations leaves every online CPU at the frequency
computed for them. -/
theorem reaches_tracks (reached : Reaches step Completes Governed s)
    (completes : Completes s op) (taken : step s op = .ok s') (changed : held s' ≠ held s) :
    Tracks s' := by
  have kept : ExitedUnreserved s ∧ ∀ cpu, s.sysclockGovernor cpu = true := by
    apply reached.invariant
    · rintro state ⟨boot, governed⟩
      exact ⟨fun t _ => (boot.reserve t).1, governed⟩
    · rintro state op target ⟨unreserved, governed⟩ permitted taken
      rw [(step_environment permitted.places taken).2]
      exact ⟨unreserved.step permitted.retires taken, governed⟩
  exact step_tracks kept.1 kept.2 completes taken changed

theorem reaches_tracks_process :
    Tracks (after step oneProcess (reserveMillis 1 1 10 0)) := by
  have completes : Completes oneProcess (reserveMillis 1 1 10 0) := by
    refine ⟨.inl rfl, ?_⟩
    intro reserved
    exact absurd reserved (by decide)
  refine reaches_tracks (.start ⟨boot_oneProcess, fun _ => rfl⟩) completes
    (step_eq_after (by decide)) ?_
  intro same
  exact absurd (congrFun same 1) (by decide)

end Rtes.Sysclock
