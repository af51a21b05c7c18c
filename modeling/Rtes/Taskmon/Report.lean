import Rtes.Taskmon.Ledger

/-!
# What is reported about energy

The numbers are reported in two ways: by the system call `get_energy_info`, which
`energymon` prints, and by files that the application on the device reads and
scans.  The files of the module are there while it is loaded; a task that is
tracked has a file of its own.
-/

namespace Rtes.Taskmon

open Rtes.Reservation Rtes.Text Rtes.Transition Rtes.Word

/-! ## The system call -/

/-- `struct energy_struct`: in MHz, mW and mJ. -/
structure EnergyStruct where
  freq : ℕ
  power : ℕ
  energy : ℕ
  deriving DecidableEq, Repr

section Shows

variable (cpufreqGet : Cpu → ℕ) (s : Kernel)

/-- The CPU that stands for all, the first that is online. -/
def firstOnline : Option Cpu :=
  allCpus.find? s.cpuOnline

/-- The entry of `freq_to_power`, which has one for each frequency from `MIN_FREQ`
to `MAX_FREQ`.  The index is unsigned. -/
def lookUpPower (freq : ℕ) : Except Fault ℕ :=
  if 51 ≤ freq ∧ freq ≤ 1300 then .ok (s.freqToPower (freq - 51)) else .error .outOfBounds

/-- The values for the whole system.  No range is checked here. -/
def systemEnergy : Except Fault EnergyStruct :=
  match firstOnline s with
  | none => .error .uninitialized
  | some cpu => do
      let freq := cpufreqGet cpu / 1000
      let power ← lookUpPower s freq
      .ok ⟨freq, uint32 (power * numOnlineCpus s) / 1000, s.totalEnergy / 1000⟩

/-- The values for a task. -/
def taskEnergy (t : Tid) : EnergyStruct :=
  let freq := cpufreqGet (s.reserve t).cpu / 1000
  ⟨freq, s.powerAt freq / 1000, (s.reserve t).energy / 1000⟩

/-- Copy the values to the caller, one after the other, until a copy fails. -/
def copyEnergyInfo (copyToUser : ℕ × ℕ × ℕ) (value energyInfo : EnergyStruct) :
    ℤ × EnergyStruct :=
  if copyToUser.1 ≠ 0 then (copyToUser.1, energyInfo)
  else if copyToUser.2.1 ≠ 0 then (copyToUser.2.1, { energyInfo with freq := value.freq })
  else if copyToUser.2.2 ≠ 0 then (copyToUser.2.2, { value with energy := energyInfo.energy })
  else (0, value)

/-- The system call `get_energy_info`; the tid 0 stands for the system.
`copyToUser` are the numbers of bytes that could not be copied. -/
def getEnergyInfo (copyToUser : ℕ × ℕ × ℕ) (tid : ℤ) (energyInfo : EnergyStruct) :
    Except Fault (ℤ × EnergyStruct) :=
  if tid < 0 then
    .ok (EINVAL, energyInfo)
  else if tid ≠ 0 ∧ s.found tid.toNat = false then
    .ok (ESRCH, energyInfo)
  else if tid ≠ 0 then
    .ok (copyEnergyInfo copyToUser (taskEnergy cpufreqGet s tid.toNat) energyInfo)
  else do
    let value ← systemEnergy cpufreqGet s
    .ok (copyEnergyInfo copyToUser value energyInfo)

/-! ## The files -/

/-- A number on a line of its own. -/
def numberLine (n : ℕ) : List Char :=
  decimal n ++ ['\n']

/-- `freq_show` -/
def freqShow : List Char :=
  match firstOnline s with
  | none => []
  | some cpu => numberLine (cpufreqGet cpu / 1000)

/-- `power_show` -/
def powerShow : List Char :=
  let freq := match firstOnline s with
    | none => 0
    | some cpu => cpufreqGet cpu / 1000
  if 51 ≤ freq ∧ freq ≤ 1300 then
    numberLine (uint32 (s.freqToPower (freq - 51) * numOnlineCpus s) / 1000)
  else
    numberLine 0

/-- `total_energy_show` -/
def totalEnergyShow : List Char :=
  numberLine (s.totalEnergy / 1000)

/-- `energy_show`, for the file of a task. -/
def energyShow (t : Tid) : List Char :=
  numberLine ((s.reserve t).energy / 1000)

end Shows

/-! ## The application -/

/-- `BUFSIZE` -/
def bufSize : ℕ := 8096

/-- Open a file, read it into a buffer that was cleared and scan a number from it.
Each of the three may fail with a value of its own. -/
def readNumber (noFile noText noNumber : ℤ) (file : Option (List Char)) : Except Fault ℤ :=
  match file with
  | none => .ok noFile
  | some text =>
      if text = [] then
        .ok noText
      else
        let buf := text.take bufSize ++ List.replicate (bufSize - text.length) '\x00'
        match terminatedText buf with
        | none => .error .outOfBounds
        | some text =>
            match scanInt text with
            | none => .ok noNumber
            | some (number, _) => .ok number

/-- A file of the module. -/
def Station.file (st : Station) (text : List Char) : Option (List Char) :=
  if st.system.taskmonLoaded then some text else none

/-- `getFreq` -/
def getFreq (cpufreqGet : Cpu → ℕ) (st : Station) : Except Fault ℤ :=
  readNumber (-2) (-1) (-1) (st.file (freqShow cpufreqGet st.system.kernel))

/-- `getPower` -/
def getPower (cpufreqGet : Cpu → ℕ) (st : Station) : Except Fault ℤ :=
  readNumber (-3) (-2) (-1) (st.file (powerShow cpufreqGet st.system.kernel))

/-- `getEnergy` -/
def getEnergy (st : Station) : Except Fault ℤ :=
  readNumber (-3) (-2) (-1) (st.file (totalEnergyShow st.system.kernel))

/-- `getTidEnergy`, of the file of a task if there is one. -/
def getTidEnergy (file : Option (List Char)) : Except Fault ℤ :=
  readNumber (-1) (-1) (-1) file

/-! ## Numbers that are shown are read -/

private theorem numberLine_ne_nil (n : ℕ) : numberLine n ≠ [] :=
  List.append_ne_nil_of_right_ne_nil _ (List.cons_ne_nil _ _)

theorem length_numberLine_le {n : ℕ} (small : n < 2147483648) :
    (numberLine n).length ≤ 11 := by
  have digits : (decimal n).length ≤ 10 := length_decimal_le (by decide) (by omega)
  rw [numberLine, List.length_append, List.length_singleton]
  omega

/-- Whatever the getter, a number that fits is read as it was shown. -/
theorem readNumber_numberLine (noFile noText noNumber : ℤ) {n : ℕ} (small : n < 2147483648) :
    readNumber noFile noText noNumber (some (numberLine n)) = .ok n := by
  have short := length_numberLine_le small
  have fits : (numberLine n).length ≤ bufSize := short.trans (by decide)
  obtain ⟨room, isRoom⟩ : ∃ room, bufSize - (numberLine n).length = room + 1 := by
    refine Nat.exists_eq_succ_of_ne_zero ?_
    unfold bufSize
    omega
  have absent : '\x00' ∉ numberLine n := by
    simp [numberLine, not_mem_decimal]
  unfold readNumber
  dsimp only
  rw [if_neg (numberLine_ne_nil n), List.take_of_length_le fits, isRoom,
    List.replicate_succ, terminatedText_append absent]
  dsimp only
  rw [numberLine, scanInt_decimal small (by decide)]

section Agreement

variable {cpufreqGet : Cpu → ℕ} {st : Station} {n : ℕ}

theorem div_thousand_lt (word : n < 4294967296) : n / 1000 < 2147483648 := by
  omega

/-- The total and the frequencies are words of 32 bits. -/
structure Worded (cpufreqGet : Cpu → ℕ) (s : Kernel) : Prop where
  cpufreqGet : ∀ cpu, cpufreqGet cpu < 4294967296
  totalEnergy : s.totalEnergy < 4294967296

theorem getEnergy_eq (loaded : st.system.taskmonLoaded = true)
    (word : st.system.kernel.totalEnergy < 4294967296) :
    getEnergy st = .ok (st.system.kernel.totalEnergy / 1000 : ℕ) := by
  rw [getEnergy, Station.file, if_pos loaded, totalEnergyShow,
    readNumber_numberLine _ _ _ (div_thousand_lt word)]

theorem getFreq_eq (loaded : st.system.taskmonLoaded = true) {cpu : Cpu}
    (first : firstOnline st.system.kernel = some cpu) (word : cpufreqGet cpu < 4294967296) :
    getFreq cpufreqGet st = .ok (cpufreqGet cpu / 1000 : ℕ) := by
  rw [getFreq, Station.file, if_pos loaded, freqShow, first]
  exact readNumber_numberLine _ _ _ (div_thousand_lt word)

theorem uint32_lt (n : ℕ) : uint32 n < 4294967296 :=
  Nat.mod_lt _ (by decide)

theorem getPower_eq (loaded : st.system.taskmonLoaded = true) {cpu : Cpu}
    (first : firstOnline st.system.kernel = some cpu) :
    getPower cpufreqGet st = .ok (uint32 (st.system.kernel.powerAt (cpufreqGet cpu / 1000) *
      numOnlineCpus st.system.kernel) / 1000 : ℕ) := by
  rw [getPower, Station.file, if_pos loaded, powerShow, first, Kernel.powerAt]
  dsimp only
  split
  · exact readNumber_numberLine _ _ _ (div_thousand_lt (uint32_lt _))
  · rw [Nat.zero_mul]
    exact readNumber_numberLine _ _ _ (div_thousand_lt (uint32_lt 0))

end Agreement

/-! ## The call and the files -/

/-- The frequency of the first CPU that is online is one the table has. -/
def Tabulated (cpufreqGet : Cpu → ℕ) (s : Kernel) : Prop :=
  ∃ cpu, firstOnline s = some cpu ∧ 51 ≤ cpufreqGet cpu / 1000 ∧ cpufreqGet cpu / 1000 ≤ 1300

theorem systemEnergy_eq_ok_iff {cpufreqGet : Cpu → ℕ} {s : Kernel} {value : EnergyStruct} :
    systemEnergy cpufreqGet s = .ok value ↔
      ∃ cpu, firstOnline s = some cpu ∧
        (51 ≤ cpufreqGet cpu / 1000 ∧ cpufreqGet cpu / 1000 ≤ 1300) ∧
        value = ⟨cpufreqGet cpu / 1000,
          uint32 (s.powerAt (cpufreqGet cpu / 1000) * numOnlineCpus s) / 1000,
          s.totalEnergy / 1000⟩ := by
  unfold systemEnergy
  cases first : firstOnline s with
  | none => simp
  | some cpu =>
      by_cases range : 51 ≤ cpufreqGet cpu / 1000 ∧ cpufreqGet cpu / 1000 ≤ 1300
      · simp [lookUpPower, Kernel.powerAt, range, eq_comm]
      · simp [lookUpPower, range, bind, Except.bind]

/-- At a frequency that the table does not have, the call reads beyond it. -/
theorem systemEnergy_outOfBounds {cpufreqGet : Cpu → ℕ} {s : Kernel} {cpu : Cpu}
    (first : firstOnline s = some cpu)
    (outside : ¬ (51 ≤ cpufreqGet cpu / 1000 ∧ cpufreqGet cpu / 1000 ≤ 1300)) :
    systemEnergy cpufreqGet s = .error .outOfBounds := by
  rw [systemEnergy, first]
  dsimp only
  rw [lookUpPower, if_neg outside]
  rfl

/-- The call for the system returns, with every value copied, exactly when the
table has the frequency; the values are then those that the application reads from
the files.  At any other frequency the call reads beyond the table, while the files
still show the frequency, a power of zero and the energy. -/
theorem getEnergyInfo_zero_iff {cpufreqGet : Cpu → ℕ} {st : Station}
    (loaded : st.system.taskmonLoaded = true) (worded : Worded cpufreqGet st.system.kernel)
    (energyInfo : EnergyStruct) :
    (∀ value, getEnergyInfo cpufreqGet st.system.kernel (0, 0, 0) 0 energyInfo = .ok (0, value) ↔
      Tabulated cpufreqGet st.system.kernel ∧ getFreq cpufreqGet st = .ok value.freq ∧
        getPower cpufreqGet st = .ok value.power ∧ getEnergy st = .ok value.energy) ∧
    ∀ cpu, firstOnline st.system.kernel = some cpu →
      ¬ (51 ≤ cpufreqGet cpu / 1000 ∧ cpufreqGet cpu / 1000 ≤ 1300) →
      getEnergyInfo cpufreqGet st.system.kernel (0, 0, 0) 0 energyInfo = .error .outOfBounds ∧
        getFreq cpufreqGet st = .ok (cpufreqGet cpu / 1000 : ℕ) ∧
        getPower cpufreqGet st = .ok 0 ∧
        getEnergy st = .ok (st.system.kernel.totalEnergy / 1000 : ℕ) := by
  rw [getEnergy_eq loaded worded.totalEnergy]
  constructor
  · intro value
    have call : getEnergyInfo cpufreqGet st.system.kernel (0, 0, 0) 0 energyInfo =
        .ok (0, value) ↔ systemEnergy cpufreqGet st.system.kernel = .ok value := by
      unfold getEnergyInfo
      simp [bind_eq_ok_iff, copyEnergyInfo]
    rw [call, systemEnergy_eq_ok_iff]
    constructor
    · rintro ⟨cpu, first, range, rfl⟩
      refine ⟨⟨cpu, first, range⟩, getFreq_eq loaded first (worded.cpufreqGet cpu),
        getPower_eq loaded first, rfl⟩
    · rintro ⟨⟨cpu, first, range⟩, freq, power, energy⟩
      rw [getFreq_eq loaded first (worded.cpufreqGet cpu)] at freq
      rw [getPower_eq loaded first] at power
      obtain ⟨valueFreq, valuePower, valueEnergy⟩ := value
      simp only [Except.ok.injEq, Nat.cast_inj] at freq power energy
      subst freq power energy
      exact ⟨cpu, first, range, rfl⟩
  · intro cpu first outside
    refine ⟨?_, getFreq_eq loaded first (worded.cpufreqGet cpu), ?_, rfl⟩
    · rw [getEnergyInfo, if_neg (lt_irrefl 0), if_neg (by simp), if_neg (by simp),
        systemEnergy_outOfBounds first outside]
      rfl
    · rw [getPower_eq loaded first, Kernel.powerAt, if_neg outside, Nat.zero_mul]
      rfl

/-- A system of which one CPU is online, at 100 MHz. -/
def slowStation : Station :=
  ⟨⟨{ Kernel.bare with
      cpuOnline := fun cpu => cpu = 0
      freqToPower := fun _ => 40000
      totalEnergy := 5000000 }, true, false⟩, 0, 0, false, 0⟩

/-- At 100 MHz the call and the files agree; at 40 MHz only the files have an answer. -/
theorem getEnergyInfo_zero_iff_slow :
    (getFreq (fun _ => 100000) slowStation = .ok 100 ∧
      getPower (fun _ => 100000) slowStation = .ok 40 ∧ getEnergy slowStation = .ok 5000) ∧
    getEnergyInfo (fun _ => 40000) slowStation.system.kernel (0, 0, 0) 0 ⟨0, 0, 0⟩ =
        .error .outOfBounds ∧
      getFreq (fun _ => 40000) slowStation = .ok 40 ∧
      getPower (fun _ => 40000) slowStation = .ok 0 := by
  have call : getEnergyInfo (fun _ => 100000) slowStation.system.kernel (0, 0, 0) 0 ⟨0, 0, 0⟩ =
      .ok (0, ⟨100, 40, 5000⟩) := by decide
  have inside := (getEnergyInfo_zero_iff rfl ⟨by decide, by decide⟩ _).1 _ |>.mp call
  have outside := (@getEnergyInfo_zero_iff (fun _ => 40000) slowStation rfl
    ⟨by decide, by decide⟩ ⟨0, 0, 0⟩).2 0 rfl (by decide)
  exact ⟨inside.2, outside.1, outside.2.1, outside.2.2.1⟩

/-! ## Tasks and total -/

/-- Rounding down may lose from a sum what it has. -/
theorem sum_div_le (tasks : Finset Tid) (f : Tid → ℕ) (d : ℕ) :
    ∑ t ∈ tasks, f t / d ≤ (∑ t ∈ tasks, f t) / d := by
  rcases Nat.eq_zero_or_pos d with rfl | positive
  · simp
  · rw [Nat.le_div_iff_mul_le positive, Finset.sum_mul]
    exact Finset.sum_le_sum fun t _ => Nat.div_mul_le_self _ _

/-- The total stays a word. -/
theorem totalEnergy_lt_of_effect {s s' : Kernel} {op : SystemOp}
    (word : s.totalEnergy < 4294967296) (effect : KernelEffect s op s')
    (unwrapped : ∀ t, op = .core (.switchOut t) → s.totalEnergy + charge s t < 4294967296) :
    s'.totalEnergy < 4294967296 := by
  by_cases switches : ∃ t, op = .core (.switchOut t)
  · obtain ⟨t, rfl⟩ := switches
    cases effect with
    | core stepped =>
        cases stepped
        rw [switchOut_total_eq s t (unwrapped t rfl)]
        exact unwrapped t rfl
    | monitored other _ => exact absurd rfl (other _)
  · rw [totalEnergy_eq_of_effect effect fun t same => switches ⟨t, same⟩]
    exact word

private theorem totalEnergy_lt {st st' : Station} {op : StationOp} {erased : ℕ}
    (word : st.system.kernel.totalEnergy < 4294967296) (unwrapped : Unwrapped (st, erased) op)
    (taken : stationStep st op = .ok st') : st'.system.kernel.totalEnergy < 4294967296 := by
  rcases stationStep_lower taken with ⟨below, isBelow, steps⟩ | own
  · apply totalEnergy_lt_of_effect word (systemStep_kernel steps)
    intro t same
    exact unwrapped t (lower_switchOut (isBelow.trans (congrArg some same)))
  · cases op with
    | totalEnergyStore buf =>
        cases taken
        unfold onFile
        split
        · exact Nat.succ_pos _
        · exact word
    | _ =>
        rw [own.total fun _ => StationOp.noConfusion]
        exact word

/-- Nothing is reserved, and the total is a word. -/
def WordOpening (now : Station × ℕ) : Prop :=
  Opening now ∧ now.1.system.kernel.totalEnergy < 4294967296

/-- Along a ledger the total is a word that covers what the reserved tasks were charged. -/
theorem backed_word_of_reaches {now : Station × ℕ}
    (reached : Reaches ledgerStep Unwrapped WordOpening now) :
    Backed now.1.system.kernel now.2 ∧ now.1.system.kernel.totalEnergy < 4294967296 := by
  apply reached.observed
  · rintro now ⟨opening, word⟩
    exact ⟨opening.backed, word⟩
  · rintro ⟨st, erased⟩ op st' ⟨backed, word⟩ unwrapped taken
    exact ⟨backed.station unwrapped taken, totalEnergy_lt word unwrapped taken⟩

/-- What a task was charged is a word if the total is. -/
theorem Backed.energy_lt {s : Kernel} (backed : Backed s 0) (word : s.totalEnergy < 4294967296)
    {t : Tid} (reserved : (s.reserve t).flag = true) : (s.reserve t).energy < 4294967296 := by
  have covered := backed {t} (by simpa using reserved)
  rw [Finset.sum_singleton] at covered
  exact covered.trans_lt word

/-- What is read for a set of reserved tasks adds up to no more than the total. -/
theorem Backed.shown {s : Kernel} (backed : Backed s 0) (word : s.totalEnergy < 4294967296)
    {tasks : Finset Tid} (reserved : ∀ t ∈ tasks, (s.reserve t).flag = true) :
    (∀ t ∈ tasks,
      getTidEnergy (some (energyShow s t)) = .ok ((s.reserve t).energy / 1000 : ℕ)) ∧
      ∑ t ∈ tasks, (s.reserve t).energy / 1000 ≤ s.totalEnergy / 1000 := by
  constructor
  · intro t member
    exact readNumber_numberLine _ _ _
      (div_thousand_lt (backed.energy_lt word (reserved t member)))
  · exact (sum_div_le _ _ _).trans (Nat.div_le_div_right (backed tasks reserved))

/-- As long as the total was not started again, what the application reads for the
reserved tasks adds up to no more than what it reads for the system. -/
theorem reaches_displayed {now : Station × ℕ}
    (reached : Reaches ledgerStep Unwrapped WordOpening now) (kept : now.2 = 0)
    (loaded : now.1.system.taskmonLoaded = true) {tasks : Finset Tid}
    (reserved : ∀ t ∈ tasks, (now.1.system.kernel.reserve t).flag = true) :
    ∃ (shown : Tid → ℕ) (total : ℕ),
      (∀ t ∈ tasks, getTidEnergy (some (energyShow now.1.system.kernel t)) = .ok (shown t)) ∧
      getEnergy now.1 = .ok total ∧ ∑ t ∈ tasks, shown t ≤ total := by
  obtain ⟨backed, word⟩ := backed_word_of_reaches reached
  rw [kept] at backed
  obtain ⟨shown, covered⟩ := backed.shown word reserved
  exact ⟨_, _, shown, getEnergy_eq loaded word, covered⟩

theorem reaches_displayed_charged : ∃ (shown : Tid → ℕ) (total : ℕ),
    (∀ t ∈ ({1} : Finset Tid),
      getTidEnergy (some (energyShow chargedStation.1.system.kernel t)) = .ok (shown t)) ∧
    getEnergy chargedStation.1 = .ok total ∧ ∑ t ∈ {1}, shown t ≤ total := by
  refine reaches_displayed (reaches_charged ⟨⟨fun _ => rfl, rfl⟩, by decide⟩) ?_ ?_ ?_
  · decide
  · decide
  · decide

end Rtes.Taskmon
