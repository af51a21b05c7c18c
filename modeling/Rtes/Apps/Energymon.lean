import Rtes.Taskmon.Report
import Rtes.Text.Fields

/-!
# The command that prints energies

`energymon` calls `get_energy_info` once a second and prints a line for each call,
until one fails.  Its runs are described by the moments of the calls.
-/

namespace Rtes.Apps

open Rtes.Reservation Rtes.Taskmon Rtes.Text Rtes.Transition

/-- What a call finds. -/
structure Moment where
  cpufreqGet : Cpu → ℕ
  kernel : Kernel

def energyHeader : List (List Char) :=
  ["FREQ (MHZ)".toList, "POWER (mW)".toList, "ENERGY (mJ)".toList]

def energyFields (energyInfo : EnergyStruct) : List (List Char) :=
  [decimal energyInfo.freq, decimal energyInfo.power, decimal energyInfo.energy]

def failedRow : List (List Char) :=
  ["Failed to get energy information!".toList]

/-- The loop of `main`: what is printed, and what is returned unless the program goes on.
The structure is on the stack of the program, and so it can be copied to. -/
def energymonLoop (tid : ℤ) : List Moment → EnergyStruct → Except Fault (List Char × Option ℤ)
  | [], _ => .ok ([], none)
  | moment :: moments, energyInfo => do
      let (retval, energyInfo) ←
        getEnergyInfo moment.cpufreqGet moment.kernel (0, 0, 0) tid energyInfo
      if retval ≠ 0 then
        .ok (fieldsLine failedRow, some retval)
      else do
        let (text, returned) ← energymonLoop tid moments energyInfo
        .ok (fieldsLine (energyFields energyInfo) ++ text, returned)

/-- `main`, with what is on the stack. -/
def energymonMain (energyInfo : EnergyStruct) (moments : List Moment) :
    List (List Char) → Except Fault (List Char × Option ℤ)
  | [_, arg] =>
      if atoi arg < 0 then
        .ok (fieldsLine ["invalid tid".toList], some (-1))
      else do
        let (text, returned) ← energymonLoop (atoi arg) moments energyInfo
        .ok (fieldsLine energyHeader ++ text, returned)
  | _ => .ok (fieldsLine ["Usage: energymon tid".toList], some (-1))

/-! ## Rounds -/

section Rounds

variable {moment : Moment} (moments : List Moment) {energyInfo value : EnergyStruct} {tid : ℤ}

/-- A call that succeeds is printed, and the next one follows. -/
theorem energymonLoop_cons_zero
    (call : getEnergyInfo moment.cpufreqGet moment.kernel (0, 0, 0) tid energyInfo =
      .ok (0, value)) :
    energymonLoop tid (moment :: moments) energyInfo = (do
      let (text, returned) ← energymonLoop tid moments value
      .ok (fieldsLine (energyFields value) ++ text, returned)) := by
  rw [energymonLoop, call, ok_bind]
  rfl

private theorem getEnergyInfo_task {t : Tid} (positive : 0 < t)
    (found : moment.kernel.found t = true) :
    getEnergyInfo moment.cpufreqGet moment.kernel (0, 0, 0) t energyInfo =
      .ok (0, taskEnergy moment.cpufreqGet moment.kernel t) := by
  have nonzero : (t : ℤ) ≠ 0 := Int.natCast_ne_zero.mpr positive.ne'
  rw [getEnergyInfo, if_neg (Int.natCast_nonneg t).not_gt, Int.toNat_natCast,
    if_neg (by simp [found]), if_pos nonzero]
  rfl

private theorem getEnergyInfo_missing {t : Tid} (positive : 0 < t)
    (missing : moment.kernel.found t = false) :
    getEnergyInfo moment.cpufreqGet moment.kernel (0, 0, 0) t energyInfo =
      .ok (ESRCH, energyInfo) := by
  have nonzero : (t : ℤ) ≠ 0 := Int.natCast_ne_zero.mpr positive.ne'
  rw [getEnergyInfo, if_neg (Int.natCast_nonneg t).not_gt, Int.toNat_natCast,
    if_pos ⟨nonzero, missing⟩]

private theorem getEnergyInfo_system :
    getEnergyInfo moment.cpufreqGet moment.kernel (0, 0, 0) 0 energyInfo = (do
      let value ← systemEnergy moment.cpufreqGet moment.kernel
      .ok (0, value)) :=
  rfl

end Rounds

/-! ## A task -/

/-- The rows of a run for a task. -/
def taskRows (t : Tid) (moments : List Moment) : List (List (List Char)) :=
  ((moments.takeWhile fun moment => moment.kernel.found t).map fun moment =>
    energyFields (taskEnergy moment.cpufreqGet moment.kernel t)) ++
  if moments.all fun moment => moment.kernel.found t then [] else [failedRow]

private theorem plainRow_energyFields (energyInfo : EnergyStruct) :
    PlainRow (energyFields energyInfo) := by
  refine ⟨List.cons_ne_nil _ _, ?_, ?_⟩
  · simp [energyFields, not_mem_decimal]
  · simp [energyFields, not_mem_decimal]

private theorem plainRow_taskRows {t : Tid} {moments : List Moment} {row : List (List Char)}
    (member : row ∈ taskRows t moments) : PlainRow row := by
  rcases List.mem_append.mp member with printed | last
  · obtain ⟨moment, _, rfl⟩ := List.mem_map.mp printed
    exact plainRow_energyFields _
  · split at last
    · cases last
    · rw [List.mem_singleton.mp last]
      exact ⟨by decide, by decide, by decide⟩

private theorem energymonLoop_task {t : Tid} (positive : 0 < t) (moments : List Moment)
    (energyInfo : EnergyStruct) :
    energymonLoop t moments energyInfo =
      .ok ((taskRows t moments).flatMap fieldsLine,
        if moments.all fun moment => moment.kernel.found t then none else some ESRCH) := by
  induction moments generalizing energyInfo with
  | nil => rfl
  | cons moment moments ih =>
      cases isFound : moment.kernel.found t with
      | false =>
          rw [energymonLoop, getEnergyInfo_missing positive isFound, ok_bind]
          simp [taskRows, isFound, ESRCH]
      | true =>
          rw [energymonLoop_cons_zero moments (getEnergyInfo_task positive isFound), ih, ok_bind]
          simp [taskRows, isFound]

/-- For a task the command prints what the kernel holds, a line for each call, for as long as
there is the task; then it fails with `ESRCH`.  The lines can be read back. -/
theorem energymonMain_task {t : Tid} {arg : List Char} (isTid : atoi arg = t) (positive : 0 < t)
    (name : List Char) (moments : List Moment) (energyInfo : EnergyStruct) :
    ∃ text,
      energymonMain energyInfo moments [name, arg] = .ok (text,
        if moments.all fun moment => moment.kernel.found t then none else some ESRCH) ∧
      readFields text = energyHeader :: taskRows t moments ++ [[[]]] := by
  refine ⟨(energyHeader :: taskRows t moments).flatMap fieldsLine, ?_, ?_⟩
  · rw [energymonMain, isTid, if_neg (Int.natCast_nonneg t).not_gt,
      energymonLoop_task positive, ok_bind]
    rfl
  · refine readFields_lines (List.forall_mem_cons.mpr ⟨?_, fun row => plainRow_taskRows⟩)
    exact ⟨by decide, by decide, by decide⟩

/-- A task that is there for one call. -/
def leaving : List Moment :=
  [⟨fun _ => 100000, { Kernel.bare with found := fun t => t = 7 }⟩,
    ⟨fun _ => 100000, { Kernel.bare with found := fun _ => false }⟩]

theorem energymonMain_task_leaving : ∃ text,
    energymonMain ⟨0, 0, 0⟩ leaving ["energymon".toList, ['7']] = .ok (text, some ESRCH) ∧
    readFields text =
      [energyHeader, [['1', '0', '0'], ['0'], ['0']], failedRow, [[]]] :=
  @energymonMain_task 7 ['7'] rfl (by decide) _ leaving _

/-! ## The system -/

private theorem tabulated_iff {moment : Moment} :
    Tabulated moment.cpufreqGet moment.kernel ↔
      ∃ value, systemEnergy moment.cpufreqGet moment.kernel = .ok value := by
  constructor
  · rintro ⟨cpu, first, range⟩
    exact ⟨_, systemEnergy_eq_ok_iff.mpr ⟨cpu, first, range, rfl⟩⟩
  · rintro ⟨value, returns⟩
    obtain ⟨cpu, first, range, _⟩ := systemEnergy_eq_ok_iff.mp returns
    exact ⟨cpu, first, range⟩

private theorem energymonLoop_system_iff {moments : List Moment} {energyInfo : EnergyStruct}
    {returned : Option ℤ} :
    (∃ text, energymonLoop 0 moments energyInfo = .ok (text, returned)) ↔
      (∀ moment ∈ moments, Tabulated moment.cpufreqGet moment.kernel) ∧ returned = none := by
  induction moments generalizing energyInfo with
  | nil => simp [energymonLoop, eq_comm]
  | cons moment moments ih =>
      rw [List.forall_mem_cons, tabulated_iff]
      constructor
      · rintro ⟨text, runs⟩
        obtain ⟨⟨retval, value⟩, call, rest⟩ := bind_eq_ok_iff.mp runs
        obtain ⟨value, system, result⟩ := bind_eq_ok_iff.mp (getEnergyInfo_system.symm.trans call)
        cases result
        obtain ⟨⟨text', returned'⟩, later, result⟩ := bind_eq_ok_iff.mp rest
        cases result
        obtain ⟨others, none⟩ := ih.mp ⟨text', later⟩
        exact ⟨⟨⟨value, system⟩, others⟩, none⟩
      · rintro ⟨⟨⟨value, system⟩, others⟩, none⟩
        have call : getEnergyInfo moment.cpufreqGet moment.kernel (0, 0, 0) 0 energyInfo =
            .ok (0, value) := by
          rw [getEnergyInfo_system, system]
          rfl
        obtain ⟨text, later⟩ := (@ih value).mpr ⟨others, none⟩
        rw [energymonLoop_cons_zero moments call, later]
        exact ⟨_, rfl⟩

/-- For the system, which is what the command shows for an argument that `atoi` reads as zero, it
goes on for ever if at every call the first CPU online is at a frequency of the table.  At any
other call the kernel reads what is not there. -/
theorem energymonMain_system_iff {arg : List Char} (isZero : atoi arg = 0) (name : List Char)
    (moments : List Moment) (energyInfo : EnergyStruct) (returned : Option ℤ) :
    (∃ text, energymonMain energyInfo moments [name, arg] = .ok (text, returned)) ↔
      (∀ moment ∈ moments, Tabulated moment.cpufreqGet moment.kernel) ∧ returned = none := by
  rw [← @energymonLoop_system_iff moments energyInfo returned, energymonMain, isZero,
    if_neg (lt_irrefl 0)]
  constructor
  · rintro ⟨text, runs⟩
    obtain ⟨⟨text', returned'⟩, loop, result⟩ := bind_eq_ok_iff.mp runs
    cases result
    exact ⟨text', loop⟩
  · rintro ⟨text, loop⟩
    rw [loop]
    exact ⟨_, rfl⟩

theorem energymonMain_system_iff_word :
    ∃ text, energymonMain ⟨0, 0, 0⟩ leaving ["energymon".toList, "all".toList] =
      .ok (text, none) :=
  (energymonMain_system_iff (by decide) _ _ _ _).mpr
    ⟨fun _ member => by
      simp only [leaving, List.mem_cons, List.not_mem_nil, or_false] at member
      rcases member with rfl | rfl
      · exact ⟨0, by decide, by decide, by decide⟩
      · exact ⟨0, by decide, by decide, by decide⟩, rfl⟩

end Rtes.Apps
