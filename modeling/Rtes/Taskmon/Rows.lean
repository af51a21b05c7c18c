import Rtes.Taskmon.Report

/-!
# The screen of the application

The activity lists the directories of `/sys/rtes/tasks` once a second and shows a row
with the energy of each.  The native part collects the thread ids in an array on its
stack that it does not clear: an entry whose name is no number takes a cell and leaves
in it what was there.
-/

namespace Rtes.Taskmon

open Rtes.Reservation Rtes.Text Rtes.Transition

/-! ## The native part -/

/-- The loop of `getReservedTID` over the entries of the directory. -/
def tidLoop : List (List Char) → ℕ → (ℕ → ℤ) → Except Fault (ℕ × (ℕ → ℤ))
  | [], count, tidarray => .ok (count, tidarray)
  | name :: names, count, tidarray =>
      if 0 < atoi name then
        if count < 1000 then
          tidLoop names (count + 1) (Function.update tidarray count (atoi name))
        else
          .error .outOfBounds
      else
        tidLoop names (count + 1) tidarray

/-- `getReservedTID`, with what the stack held before.  There is no array for the caller if
there is no directory or no memory. -/
def getReservedTID (newIntArray : Bool) (tidarray : ℕ → ℤ) (dir : Option (List (List Char))) :
    Except Fault (Option (List ℤ)) :=
  match dir with
  | none => .ok none
  | some names => do
      let (count, tidarray) ← tidLoop names 0 tidarray
      if newIntArray = false then .ok none
      else if count ≤ 1000 then .ok (some ((List.range count).map tidarray))
      else .error .outOfBounds

/-! ## The activity -/

/-- The array that was read last, the texts of the three fields and the rows of the table,
each with the texts of its cells. -/
structure Activity where
  reserveTidArray : Option (List ℤ)
  freq : List Char
  power : List Char
  energy : List Char
  table : List (List (List Char))
  deriving DecidableEq, Repr

/-- `addItmesOnReserveID`: an array that could not be read leaves the old one in place. -/
def addItmesOnReserveID (resTidArray reserveTidArray : Option (List ℤ)) : Option (List ℤ) :=
  match resTidArray with
  | none => reserveTidArray
  | some array => if reserveTidArray = some array then reserveTidArray else some array

/-- The text of a field after its value was read. -/
def updateField (label : List Char) (value : ℤ) (text : List Char) : List Char :=
  if value < 0 then
    if value = -1 then "parse error".toList
    else if value = -2 then "read error".toList
    else if value = -3 then "open error".toList
    else text
  else
    label ++ signedDecimal value

/-- `updateFreq` -/
def updateFreq : ℤ → List Char → List Char :=
  updateField "freq: ".toList

/-- `updatePower` -/
def updatePower : ℤ → List Char → List Char :=
  updateField "Power: ".toList

/-- `updateEnergy` -/
def updateEnergy : ℤ → List Char → List Char :=
  updateField "Energy: ".toList

/-- A value that the table leaves out. -/
def Hidden (tid : ℤ) : Prop :=
  100000 < tid ∨ tid = 0

instance : DecidablePred Hidden :=
  fun _ => inferInstanceAs (Decidable (_ ∨ _))

def titleRow : List (List Char) :=
  ["Threads Energy List".toList]

def energyRow (tid energy : ℤ) : List (List Char) :=
  ["tid: ".toList ++ signedDecimal tid, "Energy: ".toList ++ signedDecimal energy]

/-- The loop of `run`: a row that is there gets new texts, others are added. -/
def rowLoop (tidEnergy : ℤ → Except Fault ℤ) :
    List ℤ → ℕ → List (List (List Char)) → Except Fault (List (List (List Char)))
  | [], _, table => .ok table
  | tid :: tids, count, table =>
      if Hidden tid then
        rowLoop tidEnergy tids count table
      else do
        let energy ← tidEnergy tid
        rowLoop tidEnergy tids (count + 1)
          (if count < table.length then table.set count (energyRow tid energy)
            else table ++ [energyRow tid energy])

/-- The table is cleared and gets its title first.  The first cell is skipped. -/
def energyTable (tidEnergy : ℤ → Except Fault ℤ) (reserveTidArray : Option (List ℤ)) :
    Except Fault (List (List (List Char))) :=
  match reserveTidArray with
  | none => .ok [titleRow]
  | some array => rowLoop tidEnergy (array.drop 1) 1 [titleRow]

/-- What the activity finds: the frequencies, the tasks that have a directory if there is
one for tasks, what the stack holds and whether there is memory. -/
structure View where
  cpufreqGet : Cpu → ℕ
  tasks : Option (List Tid)
  tidarray : ℕ → ℤ
  newIntArray : Bool

/-- The entries of a directory, as `sysfs_readdir` lists them. -/
def dirEntries (tids : List Tid) : List (List Char) :=
  ['.'] :: ['.', '.'] :: tids.map decimal

/-- The file `energy` in the directory of a task. -/
def View.energyFile (view : View) (s : Kernel) (tid : ℤ) : Option (List Char) :=
  match view.tasks with
  | none => none
  | some tids => if 0 ≤ tid ∧ tid.toNat ∈ tids then some (energyShow s tid.toNat) else none

/-- `run` -/
def Activity.run (activity : Activity) (view : View) (st : Station) : Except Fault Activity := do
  let resTidArray ← getReservedTID view.newIntArray view.tidarray (view.tasks.map dirEntries)
  let reserveTidArray := addItmesOnReserveID resTidArray activity.reserveTidArray
  let freq ← getFreq view.cpufreqGet st
  let power ← getPower view.cpufreqGet st
  let energy ← getEnergy st
  let table ← energyTable (fun tid => getTidEnergy (view.energyFile st.system.kernel tid))
    reserveTidArray
  .ok
    { reserveTidArray := reserveTidArray
      freq := updateFreq freq activity.freq
      power := updatePower power activity.power
      energy := updateEnergy energy activity.energy
      table := table }

/-! ## The array -/

private theorem atoi_decimal {t : ℕ} (small : t < 2147483648) : atoi (decimal t) = t := by
  have same := atoi_signedDecimal (z := (t : ℤ)) ⟨by omega, by omega⟩
  rwa [signedDecimal_of_nonneg (by omega), Int.toNat_natCast] at same

/-- The cells that the loop writes. -/
def written (tids : List Tid) (count : ℕ) (tidarray : ℕ → ℤ) : ℕ → ℤ :=
  match tids with
  | [] => tidarray
  | t :: tids => written tids (count + 1) (Function.update tidarray count t)

/-- Directories of tasks fill one cell each, until the array is full. -/
theorem tidLoop_decimal {tids : List Tid} (valid : ∀ t ∈ tids, 0 < t ∧ t ≤ 100000) {count : ℕ}
    (low : count ≤ 1000) (tidarray : ℕ → ℤ) :
    tidLoop (tids.map decimal) count tidarray =
      if count + tids.length ≤ 1000 then .ok (count + tids.length, written tids count tidarray)
      else .error .outOfBounds := by
  induction tids generalizing count tidarray with
  | nil => exact (if_pos low).symm
  | cons t tids ih =>
      obtain ⟨⟨positive, most⟩, others⟩ := List.forall_mem_cons.mp valid
      have isTid : atoi (decimal t) = t := atoi_decimal (most.trans_lt (by decide))
      rw [List.map_cons, tidLoop, isTid, if_pos (Int.natCast_pos.mpr positive), List.length_cons]
      by_cases room : count < 1000
      · rw [if_pos room, ih others (by omega), written, Nat.add_right_comm, Nat.add_assoc]
      · rw [if_neg room, if_neg (by omega)]

theorem written_of_lt (tids : List Tid) {count i : ℕ} (before : i < count) (tidarray : ℕ → ℤ) :
    written tids count tidarray i = tidarray i := by
  induction tids generalizing count tidarray with
  | nil => rfl
  | cons t tids ih =>
      rw [written, ih (by omega), Function.update_of_ne (by omega)]

private theorem map_written (tids : List Tid) (count : ℕ) (tidarray : ℕ → ℤ) :
    (List.range' count tids.length).map (written tids count tidarray) =
      tids.map (Nat.cast : Tid → ℤ) := by
  induction tids generalizing count tidarray with
  | nil => rfl
  | cons t tids ih =>
      rw [List.length_cons, List.range'_succ, List.map_cons, written, ih,
        written_of_lt tids (Nat.lt_succ_self count), Function.update_self, List.map_cons]

/-- The array has the first two cells as they were, and the tasks behind them. -/
theorem getReservedTID_dirEntries {tids : List Tid}
    (valid : ∀ t ∈ tids, 0 < t ∧ t ≤ 100000) (newIntArray : Bool) (tidarray : ℕ → ℤ) :
    getReservedTID newIntArray tidarray (some (dirEntries tids)) =
      if tids.length ≤ 998 then
        .ok (if newIntArray = false then none
          else some (tidarray 0 :: tidarray 1 :: tids.map (Nat.cast : Tid → ℤ)))
      else .error .outOfBounds := by
  have dots : tidLoop (dirEntries tids) 0 tidarray = tidLoop (tids.map decimal) 2 tidarray := by
    rw [dirEntries, tidLoop, if_neg (by decide), tidLoop, if_neg (by decide)]
  rw [getReservedTID, dots, tidLoop_decimal valid (by decide)]
  by_cases room : tids.length ≤ 998
  · rw [if_pos room, if_pos (by omega), ok_bind]
    dsimp only
    split
    · rfl
    · have cells : List.range (2 + tids.length) = 0 :: 1 :: List.range' 2 tids.length := by
        rw [List.range_eq_range', Nat.add_comm, List.range'_succ, List.range'_succ]
      rw [if_pos (by omega), cells, List.map_cons, List.map_cons, map_written,
        written_of_lt tids (by decide), written_of_lt tids (by decide)]
  · rw [if_neg room, if_neg (by omega)]
    rfl

/-! ## The rows -/

/-- The table has as many rows as were counted, so that every row is added. -/
theorem rowLoop_eq {tidEnergy : ℤ → Except Fault ℤ} {energy : ℤ → ℤ} {tids : List ℤ}
    (reads : ∀ tid ∈ tids, tidEnergy tid = .ok (energy tid)) {count : ℕ}
    {table : List (List (List Char))} (counted : count = table.length) :
    rowLoop tidEnergy tids count table =
      .ok (table ++ (tids.filter (¬ Hidden ·)).map fun tid => energyRow tid (energy tid)) := by
  induction tids generalizing count table with
  | nil => rw [rowLoop, List.filter_nil, List.map_nil, List.append_nil]
  | cons tid tids ih =>
      obtain ⟨own, others⟩ := List.forall_mem_cons.mp reads
      rw [rowLoop]
      by_cases hidden : Hidden tid
      · rw [if_pos hidden, ih others counted, List.filter_cons_of_neg (by simpa using hidden)]
      · rw [if_neg hidden, own, ok_bind, if_neg counted.not_lt,
          ih others (by rw [List.length_append, counted]; rfl),
          List.filter_cons_of_pos (by simpa using hidden), List.map_cons, List.append_assoc]
        rfl

private theorem energyTable_eq {tidEnergy : ℤ → Except Fault ℤ} {energy : ℤ → ℤ}
    (reads : ∀ tid, tidEnergy tid = .ok (energy tid)) (reserveTidArray : Option (List ℤ)) :
    energyTable tidEnergy reserveTidArray =
      .ok (titleRow :: (((reserveTidArray.getD []).drop 1).filter (¬ Hidden ·)).map
        fun tid => energyRow tid (energy tid)) := by
  cases reserveTidArray with
  | none => rfl
  | some array => exact rowLoop_eq (fun tid _ => reads tid) rfl

/-- A text that leaves room for its terminator is read, number or not. -/
theorem readNumber_total (noFile noText noNumber : ℤ) {text : List Char}
    (short : text.length < bufSize) :
    ∃ value, readNumber noFile noText noNumber (some text) = .ok value := by
  have terminated : '\x00' ∈ text.take bufSize ++
      List.replicate (bufSize - text.length) '\x00' :=
    List.mem_append_right _ (List.mem_replicate.mpr ⟨by omega, rfl⟩)
  unfold readNumber terminatedText
  dsimp only
  rw [if_pos terminated]
  split
  · exact ⟨noText, rfl⟩
  · dsimp only
    split
    · exact ⟨noNumber, rfl⟩
    · exact ⟨_, rfl⟩

theorem length_numberLine_lt {n : ℕ} (word : n < 4294967296) :
    (numberLine (n / 1000)).length < bufSize :=
  (length_numberLine_le (div_thousand_lt word)).trans_lt (by decide)

section Fields

variable (st : Station) {cpufreqGet : Cpu → ℕ} (words : ∀ cpu, cpufreqGet cpu < 4294967296)

include words in
private theorem getFreq_total : ∃ value, getFreq cpufreqGet st = .ok value := by
  unfold getFreq Station.file freqShow
  split
  · split
    · exact readNumber_total _ _ _ (by decide)
    · exact readNumber_total _ _ _ (length_numberLine_lt (words _))
  · exact ⟨_, rfl⟩

private theorem getPower_total : ∃ value, getPower cpufreqGet st = .ok value := by
  unfold getPower Station.file powerShow
  split
  · refine readNumber_total _ _ _ ?_
    dsimp only
    split
    · rw [if_neg (by decide)]
      decide
    · split
      · exact length_numberLine_lt (uint32_lt _)
      · decide
  · exact ⟨_, rfl⟩

private theorem getEnergy_total (word : st.system.kernel.totalEnergy < 4294967296) :
    ∃ value, getEnergy st = .ok value := by
  unfold getEnergy Station.file totalEnergyShow
  split
  · exact readNumber_total _ _ _ (length_numberLine_lt word)
  · exact ⟨_, rfl⟩

end Fields

/-- The energy that is shown for a value of the array, if that of a task is `energy`. -/
def View.shown (view : View) (energy : Tid → ℕ) (tid : ℤ) : ℤ :=
  if 0 ≤ tid ∧ tid.toNat ∈ view.tasks.getD [] then (energy tid.toNat / 1000 : ℕ) else -1

private theorem getTidEnergy_energyFile (view : View) {s : Kernel}
    (words : ∀ t ∈ view.tasks.getD [], (s.reserve t).energy < 4294967296) (tid : ℤ) :
    getTidEnergy (view.energyFile s tid) =
      .ok (view.shown (fun t => (s.reserve t).energy) tid) := by
  unfold View.energyFile View.shown
  cases isTasks : view.tasks with
  | none =>
      rw [if_neg fun listed => List.not_mem_nil listed.2]
      rfl
  | some tids =>
      rw [isTasks] at words
      dsimp only [Option.getD_some] at words ⊢
      split
      · rename_i listed
        exact readNumber_numberLine _ _ _ (div_thousand_lt (words _ listed.2))
      · rfl

/-- What a refresh does, once the array was read. -/
theorem run_eq {activity : Activity} {view : View} {st : Station} {array : Option (List ℤ)}
    (isArray : getReservedTID view.newIntArray view.tidarray (view.tasks.map dirEntries) =
      .ok array)
    {freq power energy : ℤ} (isFreq : getFreq view.cpufreqGet st = .ok freq)
    (isPower : getPower view.cpufreqGet st = .ok power) (isEnergy : getEnergy st = .ok energy)
    (words : ∀ t ∈ view.tasks.getD [], (st.system.kernel.reserve t).energy < 4294967296) :
    activity.run view st = .ok
      { reserveTidArray := addItmesOnReserveID array activity.reserveTidArray
        freq := updateFreq freq activity.freq
        power := updatePower power activity.power
        energy := updateEnergy energy activity.energy
        table := titleRow ::
          ((((addItmesOnReserveID array activity.reserveTidArray).getD []).drop 1).filter
            (¬ Hidden ·)).map fun tid =>
              energyRow tid (view.shown (fun t => (st.system.kernel.reserve t).energy) tid) } := by
  rw [Activity.run, isArray, ok_bind, isFreq, ok_bind, isPower, ok_bind, isEnergy, ok_bind,
    energyTable_eq (getTidEnergy_energyFile view words), ok_bind]

/-- With as many directories as the array has room for, a refresh returns; with more it
writes beyond the array. -/
theorem run_ok_iff (activity : Activity) {view : View} {st : Station} {tids : List Tid}
    (listed : view.tasks = some tids) (valid : ∀ t ∈ tids, 0 < t ∧ t ≤ 100000)
    (worded : Worded view.cpufreqGet st.system.kernel)
    (words : ∀ t ∈ tids, (st.system.kernel.reserve t).energy < 4294967296) :
    (∃ activity', activity.run view st = .ok activity') ↔ tids.length ≤ 998 := by
  have array := getReservedTID_dirEntries valid view.newIntArray view.tidarray
  constructor
  · rintro ⟨activity', returns⟩
    by_contra full
    rw [if_neg full] at array
    rw [Activity.run, listed, Option.map_some, array] at returns
    cases returns
  · intro room
    rw [if_pos room] at array
    obtain ⟨freq, isFreq⟩ := getFreq_total st worded.cpufreqGet
    obtain ⟨power, isPower⟩ := @getPower_total st view.cpufreqGet
    obtain ⟨energy, isEnergy⟩ := getEnergy_total st worded.totalEnergy
    refine ⟨_, run_eq (by rw [listed]; exact array) isFreq isPower isEnergy ?_⟩
    rw [listed]
    exact words

/-- One task has a directory, and the second cell has its number from an earlier call. -/
def oneListed : View where
  cpufreqGet := fun _ => 100000
  tasks := some [1]
  tidarray := fun _ => 1
  newIntArray := true

/-- An activity that was just created. -/
def Activity.fresh : Activity :=
  ⟨none, [], [], [], []⟩

theorem run_ok_iff_one : ∃ activity, Activity.fresh.run oneListed slowStation = .ok activity :=
  (run_ok_iff _ rfl (by decide) ⟨by decide, by decide⟩ (by decide)).mpr (by decide)

/-- The tree is gone: the fields have messages, of which that of the frequency names the wrong
error, and the tasks of the last array that was read stay, with no energy. -/
theorem run_unloaded (activity : Activity) {view : View} {st : Station}
    (gone : view.tasks = none) (unloaded : st.system.taskmonLoaded = false) :
    activity.run view st = .ok
      { activity with
        freq := "read error".toList
        power := "open error".toList
        energy := "open error".toList
        table := titleRow ::
          (((activity.reserveTidArray.getD []).drop 1).filter (¬ Hidden ·)).map
            fun tid => energyRow tid (-1) } := by
  have noFile : ∀ text, st.file text = none := fun text => if_neg (by simp [unloaded])
  have noArray : getReservedTID view.newIntArray view.tidarray (view.tasks.map dirEntries) =
      .ok none := by
    rw [gone]
    rfl
  have none : ∀ tid, view.shown (fun t => (st.system.kernel.reserve t).energy) tid = -1 := by
    intro tid
    rw [View.shown, gone]
    exact if_neg fun listed => List.not_mem_nil listed.2
  rw [run_eq noArray (by rw [getFreq, noFile]; rfl) (by rw [getPower, noFile]; rfl)
    (by rw [getEnergy, noFile]; rfl) (by rw [gone]; simp)]
  simp only [none]
  rfl

theorem run_unloaded_one :
    (Activity.mk (some [7, 0, 1, 1]) [] [] [] []).run { oneListed with tasks := none }
        ⟨⟨Kernel.bare, false, false⟩, 0, 0, false, 0⟩ = .ok
      ⟨some [7, 0, 1, 1], "read error".toList, "open error".toList, "open error".toList,
        [titleRow, energyRow 1 (-1), energyRow 1 (-1)]⟩ :=
  run_unloaded _ rfl rfl

end Rtes.Taskmon
