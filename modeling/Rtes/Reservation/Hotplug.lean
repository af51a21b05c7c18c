import Rtes.Reservation.Own
import Rtes.Reservation.Policy

/-!
# Closed and offline CPUs

A CPU is closed, and taken offline, when the sum of its utilizations is zero.
That is the test for an empty CPU as long as no utilization is rounded down to
zero.
-/

namespace Rtes.Reservation

open Rtes.RateMonotonic Rtes.Transition

variable {s s' s'' : Kernel} {t : Tid} {op : Op}

/-! ## Which calls take a CPU offline -/

namespace Downs

/-- What follows without looking at the CPUs. -/
theorem andKeep (downs : Downs s s') (table : s''.table = s'.table)
    (calls : s''.cpuDownCalls = s'.cpuDownCalls) : Downs s s'' := by
  obtain ⟨new, isNew, closed⟩ := downs
  refine ⟨new, calls.trans isNew, ?_⟩
  rwa [table]

theorem andFiles {files : Reserve} (downs : Downs s s') (kept : Files t files s' s'') :
    Downs s s'' :=
  downs.andKeep (by rw [kept.eq]) (by rw [kept.eq])

private theorem andCommit (downs : Downs s s') (commits : s'.commit t = .ok s'') : Downs s s'' :=
  downs.andKeep (by rw [commit_eq commits]; rfl) (by rw [commit_eq commits]; rfl)

end Downs

private theorem setReserve_downs {srv : Services} {budget period : Option Timespec}
    {cpuid retval : ℤ}
    (returns : s.setReserve srv t budget period cpuid = .ok (retval, s')) : Downs s s' := by
  cases setReserve_effect returns with
  | rejected => exact .of_eq rfl
  | refused _ _ rebinds => exact .of_eq rebinds.calls
  | undone _ _ calls => exact .of_eq calls
  | failed _ _ _ _ _ _ downs kept => exact downs.andFiles kept
  | installed _ _ _ _ downs commits =>
      obtain ⟨_, named⟩ := Kernel.files_setUpTidFile srv _ t
      obtain ⟨_, filed⟩ := Kernel.files_setUpEnergyFile srv _ t
      exact ((downs.andFiles named).andFiles filed).andCommit commits

private theorem cancelReserve_downs {srv : Services} {retval : ℤ}
    (returns : s.cancelReserve srv t = .ok (retval, s')) : Downs s s' := by
  have finish : ∀ now, Downs s now →
      Sysclock.sysclockSetFrequency ((now.removeTidFile t).dropEnergyFile t) = .ok s' →
      Downs s s' := by
    intro now downs finishes
    obtain ⟨_, unnamed⟩ := Kernel.files_removeTidFile now t
    obtain ⟨_, unfiled⟩ := Kernel.files_dropEnergyFile (now.removeTidFile t) t
    have same := Kernel.sysclockSetFrequency_eq finishes
    exact ((downs.andFiles unnamed).andFiles unfiled).andKeep (by rw [same]) (by rw [same])
  cases cancelReserve_effect returns with
  | missing => exact .of_eq rfl
  | refused => exact .of_eq rfl
  | idle _ _ finishes => exact finish s (.of_eq rfl) finishes
  | released _ _ _ releases finishes => exact finish _ (release_touches releases).2 finishes

private theorem doExit_downs {srv : Services} (returns : s.doExit srv t = .ok s') : Downs s s' := by
  obtain ⟨released, effect, rfl⟩ := doExit_effect returns
  cases effect with
  | idle => exact .of_eq rfl
  | released _ isFiled releases =>
      obtain ⟨new, isNew, closed⟩ := (release_touches releases).2
      obtain ⟨_, unnamed⟩ := Kernel.files_removeTidFile (s.stopTimers t) t
      obtain ⟨_, unfiled⟩ := Kernel.files_dropEnergyFile ((s.stopTimers t).removeTidFile t) t
      have calls := congrArg Kernel.cpuDownCalls (unnamed.trans unfiled).eq
      rw [isFiled, calls] at isNew
      exact ⟨new, isNew, closed⟩

private theorem pTimerCallback_calls {freq : Cpu → ℕ} (returns : s.pTimerCallback freq t = .ok s') :
    s'.cpuDownCalls = s.cpuDownCalls := by
  obtain ⟨cpuFreq, ring, enabled, rfl⟩ := pTimerCallback_eq returns
  obtain ⟨_, kept⟩ := Kernel.files_dropStaleEnergyFile
    ({ s with cpuFreq := cpuFreq }.modify t fun reserve => { reserve with
      acc := ⟨0, 0⟩
      taskmonEnabled := enabled
      ring := ring }) t
  have calls := congrArg Kernel.cpuDownCalls kept.eq
  unfold Kernel.resumeTask
  split
  · exact calls
  · exact calls

/-- Every CPU a step takes offline is closed after it. -/
theorem step_downs (taken : step s op = .ok s') : Downs s s' := by
  cases op with
  | setReserve srv tid budget period cpuid =>
      obtain ⟨⟨retval, target⟩, returns, result⟩ := bind_eq_ok_iff.mp taken
      cases result
      exact setReserve_downs returns
  | cancelReserve srv tid =>
      obtain ⟨⟨retval, target⟩, returns, result⟩ := bind_eq_ok_iff.mp taken
      cases result
      exact cancelReserve_downs returns
  | doExit srv t => exact doExit_downs taken
  | endJob t =>
      cases taken
      apply Downs.of_eq
      unfold Kernel.endJob Kernel.suspendTask
      split_ifs <;> rfl
  | cTimer t =>
      cases taken
      apply Downs.of_eq
      unfold Kernel.cTimerCallback Kernel.suspendTask
      dsimp only
      split_ifs <;> rfl
  | pTimer freq t => exact .of_eq (pTimerCallback_calls taken)
  | switchOut t =>
      cases taken
      apply Downs.of_eq
      unfold Kernel.switchOut Kernel.chargeRun Kernel.stopBudget
      split_ifs <;> rfl
  | switchIn t =>
      cases taken
      apply Downs.of_eq
      unfold Kernel.switchIn
      split_ifs <;> rfl
  | setPolicy policy =>
      cases taken
      apply Downs.of_eq
      unfold Kernel.partitionPolicyStore
      split_ifs <;> rfl

/-! ## Utilizations that are not rounded to zero -/

/-- If reserved, a task has at least the given utilization. -/
def Reserve.UtilAtLeast (least : ℤ) (reserve : Reserve) : Prop :=
  reserve.flag = true → least ≤ reserve.util

/-- Every reserved task has at least the given utilization. -/
def UtilAtLeast (least : ℤ) (s : Kernel) : Prop :=
  ∀ t, (s.reserve t).UtilAtLeast least

/-- A call asks for at least the given utilization. -/
def Op.AsksFor (least : ℤ) : Op → Prop
  | .setReserve _ _ budget period _ => ∀ C ∈ budget, ∀ T ∈ period, ∀ params,
      paramsOf C T = .ok params → least ≤ params.util
  | _ => True

/-- Only a call that asks for less than that could reserve less. -/
theorem UtilAtLeast.step {least : ℤ} (before : UtilAtLeast least s) (asks : op.AsksFor least)
    (taken : Reservation.step s op = .ok s') : UtilAtLeast least s' := by
  obtain ⟨t, own, effect, replaced⟩ := step_own taken
  have ownAtLeast : own.UtilAtLeast least := by
    cases effect with
    | setReserve result =>
        cases result with
        | refused _ kept =>
            intro flag
            rw [kept flag]
            exact before t flag
        | undone _ kept =>
            intro flag
            rw [kept flag]
            exact before t flag
        | failed _ _ isBudget isPeriod converts =>
            exact fun _ => asks _ isBudget _ isPeriod _ converts
        | installed isBudget isPeriod converts =>
            exact fun _ => asks _ isBudget _ isPeriod _ converts
    | cancelReserve result =>
        cases result with
        | missing => exact before t
        | refused => exact before t
        | idle => exact before t
        | released => exact fun flag => Bool.noConfusion flag
    | doExit result =>
        cases result with
        | idle => exact before t
        | released => exact before t
    | _ => exact before _
  exact forall_reserve before ownAtLeast replaced

/-- A utilization of `least` parts in ten thousand. -/
theorem le_util_of_paramsOf {C T : Timespec} {params : Params} {least : ℤ}
    (valid : ValidTimes C T) (enough : T.millis * least ≤ 10000 * C.millis)
    (converts : paramsOf C T = .ok params) : least ≤ params.util := by
  rw [paramsOf_valid valid] at converts
  cases converts
  obtain ⟨positive, order, _⟩ := valid
  have quotient : ((share ⟨C.millis.toNat, T.millis.toNat⟩ : ℕ) : ℤ) =
      C.millis * 10000 / T.millis := by
    simp only [share]
    push_cast
    rw [Int.toNat_of_nonneg (by omega), Int.toNat_of_nonneg (by omega)]
  dsimp only
  rw [quotient, Int.le_ediv_iff_mul_le (by omega)]
  linarith

/-- Open CPUs are those with utilization, and every reserved task has some. -/
structure Weighted (s : Kernel) : Prop where
  opens : OpenByLoad s.table
  util_pos : UtilAtLeast 1 s

/-- No CPU that hosts a reservation is closed. -/
def HostsOpen (s : Kernel) : Prop :=
  ∀ cpu, 0 < (s.table cpu).cpuTasksLength → (s.table cpu).cpuOpen = true

namespace Weighted

theorem cpuUtil_pos (weighted : Weighted s) (consistent : Consistent s) {cpu : Cpu}
    (placed : s.placement t = some cpu) : 1 ≤ (s.table cpu).cpuUtil := by
  have member : t ∈ (s.table cpu).entries := (consistent.represents.mem_iff cpu t).mpr placed
  rw [(consistent.tableAgrees cpu).util]
  have nonneg : ∀ util ∈ (s.table cpu).entries.map fun t => (s.reserve t).util, 0 ≤ util := by
    intro util isUtil
    obtain ⟨other, listed, rfl⟩ := List.mem_map.mp isUtil
    obtain ⟨_, flag, _⟩ := ((consistent.tableAgrees cpu).mem_iff other).mp listed
    exact zero_le_one.trans (weighted.util_pos other flag)
  obtain ⟨_, flag, _⟩ := placement_eq_some_iff.mp placed
  calc
    1 ≤ (s.reserve t).util := weighted.util_pos t flag
    _ ≤ _ := List.single_le_sum nonneg _ (List.mem_map_of_mem member)

/-- A CPU with a task on it has utilization and is open. -/
theorem hostsOpen (weighted : Weighted s) (consistent : Consistent s) : HostsOpen s := by
  intro cpu busy
  have nonempty : (s.table cpu).entries ≠ [] := by
    intro empty
    have length := length_entries (consistent.represents.admitted cpu).nonneg
    rw [empty, List.length_nil] at length
    omega
  obtain ⟨t, member⟩ := List.exists_mem_of_ne_nil _ nonempty
  have positive := weighted.cpuUtil_pos consistent
    ((consistent.represents.mem_iff cpu t).mp member)
  exact (weighted.opens cpu).mpr (by omega)

end Weighted

/-! ## `set_reserve` -/

private theorem openByLoad_restored (opens : OpenByLoad s.table) (consistent : Consistent s)
    (restored : Restored s s') : OpenByLoad s'.table := by
  intro cpu
  rw [restored.cpuOpen, (restored.sameTasks consistent.represents cpu).util]
  exact opens cpu

private theorem setReserve_opens {srv : Services} {budget period : Option Timespec}
    {cpuid retval : ℤ}
    (opens : OpenByLoad s.table) (consistent : Consistent s) (live : s.exited t = false)
    (files : FilesSucceed srv) (named : Revisable s t cpuid)
    (returns : s.setReserve srv t budget period cpuid = .ok (retval, s')) :
    OpenByLoad s'.table := by
  rcases setReserve_result consistent.represents live named returns with
    ⟨_, rfl⟩ | ⟨C, T, params, isBudget, isPeriod, converts, result⟩
  · exact opens
  · cases result with
    | refused restored => exact openByLoad_restored opens consistent restored
    | undone _ restored => exact openByLoad_restored opens consistent restored
    | failed _ fails => exact absurd files fails
    | installed _ _ prepared =>
        intro other
        rw [prepared.cpuOpen other]
        exact decide_eq_true_iff

/-! ## Releasing -/

private theorem takeOut_row {table taken : Table} {cpu : Cpu} {util : ℤ}
    (takes : takeOut table (some cpu) cpu t util = .ok taken) :
    ∃ bin : CpuTable, bin.cpuOpen = (table cpu).cpuOpen ∧
      taken = Function.update table cpu bin := by
  cases takes
  refine ⟨{ table cpu with
    cpuTasks := Slots.removeSlot (table cpu).cpuTasks (table cpu).cpuTasksLength.toNat t
    cpuTasksLength := (table cpu).cpuTasksLength - 1
    cpuUtil := Word.int32 ((table cpu).cpuUtil - util) }, rfl, ?_⟩
  simp only [takeOut.shorten, Function.update_idem, Function.update_self]

/-- Releasing a task touches the bin of its CPU only, which is closed if it has
no utilization left. -/
theorem release_table {srv : Services} (returns : s.release srv t = .ok s') :
    ∃ bin : CpuTable, bin.cpuOpen = (s.table (s.reserve t).cpu).cpuOpen ∧
      s'.table = Function.update s.table (s.reserve t).cpu bin.closeIfIdle := by
  obtain ⟨taken, takes, result⟩ := bind_eq_ok_iff.mp returns
  cases result
  obtain ⟨bin, isOpen, rfl⟩ := takeOut_row takes
  refine ⟨bin, isOpen, (Kernel.frame_offlineIfClosed _ srv _).table.trans ?_⟩
  simp only [Function.update_self, Function.update_idem]

theorem release_opens {srv : Services} (opens : OpenByLoad s.table)
    (busy : (s.table (s.reserve t).cpu).cpuUtil ≠ 0) (returns : s.release srv t = .ok s') :
    OpenByLoad s'.table := by
  obtain ⟨bin, isOpen, table⟩ := release_table returns
  rw [table]
  intro cpu
  rcases eq_or_ne cpu (s.reserve t).cpu with rfl | different
  · rw [Function.update_self]
    unfold CpuTable.closeIfIdle
    split
    · rename_i idle
      simp [idle]
    · rename_i load
      simp [load, isOpen, (opens _).mpr busy]
  · rw [Function.update_of_ne different]
    exact opens cpu

/-- Releasing a reserved task leaves the open CPUs those with utilization. -/
theorem Weighted.release_opens {srv : Services} {now : Kernel} (weighted : Weighted s)
    (consistent : Consistent s) (live : s.exited t = false) (flag : (s.reserve t).flag = true)
    (table : now.table = s.table) (cpu : (now.reserve t).cpu = (s.reserve t).cpu)
    (releases : now.release srv t = .ok s') : OpenByLoad s'.table := by
  have busy := weighted.cpuUtil_pos consistent (placement_reserved live flag)
  apply Reservation.release_opens _ _ releases
  · rw [table]
    exact weighted.opens
  · rw [table, cpu]
    omega

private theorem cancelReserve_opens {srv : Services} {retval : ℤ} (weighted : Weighted s)
    (consistent : Consistent s) (live : s.exited t = false)
    (returns : s.cancelReserve srv t = .ok (retval, s')) : OpenByLoad s'.table := by
  have finish : ∀ now : Kernel, OpenByLoad now.table →
      Sysclock.sysclockSetFrequency ((now.removeTidFile t).dropEnergyFile t) = .ok s' →
      OpenByLoad s'.table := by
    intro now opens finishes
    rw [((Kernel.frame_removeTidFile now t).trans ((Kernel.frame_dropEnergyFile _ t).trans
      (Kernel.frame_sysclockSetFrequency finishes))).table]
    exact opens
  cases cancelReserve_effect returns with
  | missing => exact weighted.opens
  | refused => exact weighted.opens
  | idle _ _ finishes => exact finish s weighted.opens finishes
  | released _ flag _ releases finishes =>
      refine finish _ ?_ finishes
      apply weighted.release_opens consistent live flag _ _ releases
      · rfl
      · simp [Reserve.cancelled, Reserve.stopped]

private theorem doExit_opens {srv : Services} (weighted : Weighted s) (consistent : Consistent s)
    (live : s.exited t = false) (returns : s.doExit srv t = .ok s') : OpenByLoad s'.table := by
  obtain ⟨released, effect, rfl⟩ := doExit_effect returns
  cases effect with
  | idle flag => exact weighted.opens
  | released flag isFiled releases =>
      obtain ⟨files, unnamed⟩ := Kernel.files_removeTidFile (s.stopTimers t) t
      obtain ⟨files', unfiled⟩ := Kernel.files_dropEnergyFile ((s.stopTimers t).removeTidFile t) t
      have kept := unnamed.trans unfiled
      rw [← isFiled] at kept
      have opens : OpenByLoad released.table := by
        apply weighted.release_opens consistent live flag _ _ releases
        · rw [kept.eq]
          rfl
        · rw [kept.own_eq]
          simp [Reserve.withFiles, Kernel.stopTimers]
      exact opens

/-! ## Every run -/

/-- A budget is at least one part in ten thousand of its period. -/
def Weighty : Op → Prop
  | .setReserve _ _ budget period _ =>
      ∀ C ∈ budget, ∀ T ∈ period, T.millis ≤ 10000 * C.millis
  | _ => True

theorem weighty_reserveMillis {tid : Tid} {C T cpuid : ℤ} (weighty :
    Timespec.millis ⟨0, T * 1000000⟩ ≤ 10000 * Timespec.millis ⟨0, C * 1000000⟩) :
    Weighty (reserveMillis tid C T cpuid) := by
  intro C' budget T' period
  cases budget
  cases period
  exact weighty

theorem Weighty.asksFor (serial : Serial s op) (weighty : Weighty op) : op.AsksFor 1 := by
  cases op with
  | setReserve srv tid budget period cpuid =>
      intro C isBudget T isPeriod params converts
      have enough := weighty C isBudget T isPeriod
      exact le_util_of_paramsOf (serial.2.1 C isBudget T isPeriod) (by omega) converts
  | _ => trivial

theorem step_weighted (weighted : Weighted s) (consistent : Consistent s) (serial : Serial s op)
    (orderly : Orderly s op) (weighty : Weighty op) (taken : step s op = .ok s') :
    Weighted s' := by
  refine ⟨?_, weighted.util_pos.step (weighty.asksFor serial) taken⟩
  cases op with
  | setReserve srv tid budget period cpuid =>
      obtain ⟨⟨retval, target⟩, returns, result⟩ := bind_eq_ok_iff.mp taken
      cases result
      exact setReserve_opens weighted.opens consistent serial.1 serial.2.2 orderly returns
  | cancelReserve srv tid =>
      obtain ⟨⟨retval, target⟩, returns, result⟩ := bind_eq_ok_iff.mp taken
      cases result
      exact cancelReserve_opens weighted consistent serial returns
  | doExit srv t => exact doExit_opens weighted consistent serial taken
  | _ =>
      rw [(step_frame taken not_false).table]
      exact weighted.opens

theorem Boot.utilAtLeast (boot : Boot s) (least : ℤ) : UtilAtLeast least s := by
  intro t flag
  simp [(boot.reserve t).1] at flag

theorem Boot.weighted (boot : Boot s) : Weighted s where
  opens := by
    intro cpu
    obtain ⟨_, util, isOpen⟩ := boot.table cpu
    simp [util, isOpen]
  util_pos := boot.utilAtLeast 1

/-- A task of one millisecond a minute on CPU 1 leaves the CPU closed and has it
taken offline. -/
theorem reaches_not_hostsOpen :
    ∃ s, Reaches step (fun s op => TableCall s op ∧ InPlace s op) Boot s ∧ ¬ HostsOpen s ∧
      1 ∈ s.cpuDownCalls ∧ 0 < (s.table 1).cpuTasksLength := by
  refine ⟨after step .bare (.setReserve .succeed 1 (some ⟨0, 1000000⟩) (some ⟨60, 0⟩) 1),
    ?_, ?_, by decide, by decide⟩
  · apply Reaches.after
    · exact .start boot_bare
    · refine ⟨⟨rfl, allSucceed_succeed, ?_, by decide⟩, ?_⟩
      · intro C budget T period
        cases budget
        cases period
        exact ⟨by decide, by decide, by decide⟩
      · intro reserved
        exact absurd reserved (by decide)
    · decide
  · intro hosts
    exact absurd (hosts 1 (by decide)) (by decide)

/-- In every run of operations on live tasks whose revisions stay in place and
whose budgets have a utilization, no CPU that hosts a reservation is closed, and
no step takes a CPU offline that still hosts one. -/
theorem reaches_hostsOpen
    (reached : Reaches step (fun s op => (Serial s op ∧ InPlace s op) ∧ Weighty op) Boot s) :
    HostsOpen s ∧ ∀ op s', Serial s op → InPlace s op → Weighty op → step s op = .ok s' →
      ∃ calls, s'.cpuDownCalls = calls ++ s.cpuDownCalls ∧
        ∀ cpu ∈ calls, (s'.table cpu).cpuTasksLength = 0 := by
  have kept : Consistent s ∧ Weighted s := by
    apply reached.invariant
    · intro state boot
      exact ⟨boot.consistent, boot.weighted⟩
    · rintro state op target ⟨consistent, weighted⟩ ⟨⟨serial, inPlace⟩, weighty⟩ taken
      exact ⟨step_consistent consistent serial inPlace.orderly taken,
        step_weighted weighted consistent serial inPlace.orderly weighty taken⟩
  obtain ⟨consistent, weighted⟩ := kept
  refine ⟨weighted.hostsOpen consistent, ?_⟩
  intro op s' serial inPlace weighty taken
  have consistent' := step_consistent consistent serial inPlace.orderly taken
  have weighted' := step_weighted weighted consistent serial inPlace.orderly weighty taken
  obtain ⟨calls, isNew, closed⟩ := step_downs taken
  refine ⟨calls, isNew, ?_⟩
  intro cpu member
  have nonneg := (consistent'.represents.admitted cpu).nonneg
  have idle : ¬ 0 < (s'.table cpu).cpuTasksLength := by
    intro busy
    have isOpen := weighted'.hostsOpen consistent' cpu busy
    simp [closed cpu member] at isOpen
  omega

theorem reaches_hostsOpen_twoTasks : HostsOpen twoTasks := by
  refine (reaches_hostsOpen (reaches_twoTasks ⟨?_, ?_⟩ ⟨?_, ?_⟩)).1
  · exact serial_reserveMillis rfl ⟨by decide, by decide, by decide⟩ rfl
  · exact weighty_reserveMillis (by decide)
  · exact serial_reserveMillis (by decide) ⟨by decide, by decide, by decide⟩ (by decide)
  · exact weighty_reserveMillis (by decide)

end Rtes.Reservation
