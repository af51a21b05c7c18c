import Rtes.Reservation.Test

/-!
# What binding does to a CPU

Whatever the parameters of the tasks, a successful `try_bind` inserts the task
behind the ones of no longer period, and a refused one leaves the list, its
length and its utilization as they were.  On reservations in range the verdict
is the abstract hybrid test of the list with the task inserted.
-/

namespace Rtes.Reservation

open Rtes.RateMonotonic Rtes.Slots Rtes.Transition Rtes.Word

/-! ## Structure -/

variable {reserve : Tid → Reserve} {bin bin' : CpuTable} {t : Tid}

/-- The bin after a task was put into it. -/
structure Inserted (reserve : Tid → Reserve) (t : Tid) (bin bin' : CpuTable) : Prop where
  entries : bin'.entries = insertBehind (longerPeriod reserve t) t bin.entries
  length : bin'.cpuTasksLength = bin.cpuTasksLength + 1
  util : bin'.cpuUtil = int32 (bin.cpuUtil + (reserve t).util)
  cpuOpen : bin'.cpuOpen = bin.cpuOpen

/-- Two bins that hold the same list. -/
structure SameList (bin bin' : CpuTable) : Prop where
  entries : bin'.entries = bin.entries
  length : bin'.cpuTasksLength = bin.cpuTasksLength
  util : bin'.cpuUtil = bin.cpuUtil

/-- Two bins that differ at most in slots behind the live entries. -/
structure SameBin (bin bin' : CpuTable) : Prop extends SameList bin bin' where
  cpuOpen : bin'.cpuOpen = bin.cpuOpen

theorem SameList.trans {first second third : CpuTable} (left : SameList first second)
    (right : SameList second third) : SameList first third where
  entries := right.entries.trans left.entries
  length := right.length.trans left.length
  util := right.util.trans left.util

theorem SameBin.refl (bin : CpuTable) : SameBin bin bin :=
  ⟨⟨rfl, rfl, rfl⟩, rfl⟩

theorem SameBin.trans {first second third : CpuTable} (left : SameBin first second)
    (right : SameBin second third) : SameBin first third where
  toSameList := left.toSameList.trans right.toSameList
  cpuOpen := right.cpuOpen.trans left.cpuOpen

private theorem entries_insert (bin : CpuTable) (nonneg : 0 ≤ bin.cpuTasksLength)
    (later : Tid → Bool) (t : Tid) (util : ℤ) :
    CpuTable.entries { bin with
      cpuTasks := (insertSlot later bin.cpuTasks bin.cpuTasksLength.toNat t).1
      cpuTasksLength := bin.cpuTasksLength + 1
      cpuUtil := util } = insertBehind later t bin.entries := by
  have succ : (bin.cpuTasksLength + 1).toNat = bin.cpuTasksLength.toNat + 1 := by omega
  simp only [CpuTable.entries, succ]
  exact live_insertSlot later bin.cpuTasks bin.cpuTasksLength.toNat t

/-- A call of `try_bind` that returns either inserts the task or leaves the bin
as it was. -/
theorem tryBind_cases {retval : ℤ} (word : int32 bin.cpuUtil = bin.cpuUtil)
    (returns : tryBind reserve bin t = .ok (retval, bin')) :
    (retval = 0 ∧ Inserted reserve t bin bin') ∨ (retval = EBUSY ∧ SameBin bin bin') := by
  unfold tryBind at returns
  split at returns
  · cases returns
    exact .inr ⟨rfl, .refl bin⟩
  · split at returns
    · cases returns
      exact .inr ⟨rfl, .refl bin⟩
    · split at returns
      · cases returns
      · rename_i inside
        obtain ⟨passes, _, result⟩ := bind_eq_ok_iff.mp returns
        split at result
        · cases result
          exact .inl ⟨rfl, entries_insert bin (by omega) _ t _, rfl, rfl, rfl⟩
        · cases result
          refine .inr ⟨rfl, ⟨?_, rfl, ?_⟩, rfl⟩
          · exact live_closeGap_insertSlot _ bin.cpuTasks bin.cpuTasksLength.toNat t
          · rw [int32_add_sub_cancel, word]

@[simp]
theorem EBUSY_ne_zero : EBUSY ≠ 0 := by
  decide

theorem tryBind_inserted (word : int32 bin.cpuUtil = bin.cpuUtil)
    (returns : tryBind reserve bin t = .ok (0, bin')) : Inserted reserve t bin bin' := by
  rcases tryBind_cases word returns with ⟨_, inserted⟩ | ⟨busy, _⟩
  · exact inserted
  · exact absurd busy.symm EBUSY_ne_zero

theorem tryBind_refused {retval : ℤ} (word : int32 bin.cpuUtil = bin.cpuUtil)
    (returns : tryBind reserve bin t = .ok (retval, bin')) (nonzero : retval ≠ 0) :
    retval = EBUSY ∧ SameBin bin bin' := by
  rcases tryBind_cases word returns with ⟨zero, _⟩ | refused
  · exact absurd zero nonzero
  · exact refused

/-! ## Reservations in range -/

/-- The load a reservation puts on its CPU. -/
def loadOf (reserve : Reserve) : Load where
  budget := reserve.budget.toNat
  period := reserve.period.toNat

/-- The loads of a list of tasks. -/
def loads (reserve : Tid → Reserve) (tasks : List Tid) : List Load :=
  tasks.map fun t => loadOf (reserve t)

/-- Budget and period between 1 and 60000 milliseconds, and the utilization
computed from them. -/
structure InRange (reserve : Reserve) : Prop where
  budget_pos : 1 ≤ reserve.budget
  budget_le : reserve.budget ≤ 60000
  period_pos : 1 ≤ reserve.period
  period_le : reserve.period ≤ 60000
  util : reserve.util = (share (loadOf reserve) : ℤ)

/-- A reservation of the given budget and period, everything else zero. -/
def Reserve.ofMillis (budget period : ℕ) : Reserve :=
  { Reserve.zero with
    budget := budget
    period := period
    util := (share ⟨budget, period⟩ : ℕ) }

theorem inRange_ofMillis {budget period : ℕ} (budgetPos : 1 ≤ budget) (budgetLe : budget ≤ 60000)
    (periodPos : 1 ≤ period) (periodLe : period ≤ 60000) :
    InRange (Reserve.ofMillis budget period) where
  budget_pos := by simpa [Reserve.ofMillis] using budgetPos
  budget_le := by simpa [Reserve.ofMillis] using budgetLe
  period_pos := by simpa [Reserve.ofMillis] using periodPos
  period_le := by simpa [Reserve.ofMillis] using periodLe
  util := rfl

/-- A bin whose length and utilization say what is in it, all of it in range. -/
structure BinOk (reserve : Tid → Reserve) (bin : CpuTable) : Prop where
  nonneg : 0 ≤ bin.cpuTasksLength
  capacity : bin.cpuTasksLength ≤ taskSchedulingLength
  util : bin.cpuUtil = (shareSum share (loads reserve bin.entries) : ℤ)
  inRange : ∀ t ∈ bin.entries, InRange (reserve t)

@[simp]
theorem length_loads (reserve : Tid → Reserve) (tasks : List Tid) :
    (loads reserve tasks).length = tasks.length := by
  simp [loads]

@[simp]
theorem shareSum_loads_cons (reserve : Tid → Reserve) (t : Tid) (tasks : List Tid) :
    shareSum share (loads reserve (t :: tasks)) =
      share (loadOf (reserve t)) + shareSum share (loads reserve tasks) := by
  simp [shareSum, loads]

theorem shareSum_loads_perm {first second : List Tid} (perm : first.Perm second) :
    shareSum share (loads reserve first) = shareSum share (loads reserve second) :=
  ((perm.map _).map share).sum_eq

theorem loads_subperm {part whole : List Tid} (sub : part.Subperm whole) :
    (loads reserve part).Subperm (loads reserve whole) := by
  obtain ⟨middle, perm, sublist⟩ := sub
  exact ⟨loads reserve middle, perm.map _, sublist.map _⟩

theorem length_entries (nonneg : 0 ≤ bin.cpuTasksLength) :
    (bin.entries.length : ℤ) = bin.cpuTasksLength := by
  simp [CpuTable.entries, nonneg]

private theorem share_le_iff {load : Load} (positive : 1 ≤ load.period)
    (small : share load ≤ 10000) : load.budget ≤ 2 * load.period := by
  unfold share at small
  by_contra more
  have large : 20000 ≤ load.budget * 10000 / load.period := by
    rw [Nat.le_div_iff_mul_le positive]
    omega
  omega

/-- Loads of at most twice their period and at most a minute fit an `int`, a
thousand of them. -/
theorem fitsInt_of_small {list : List Load} (count : list.length ≤ 1000)
    (periods : ∀ load ∈ list, 1 ≤ load.period ∧ load.period ≤ 60000)
    (budgets : ∀ load ∈ list, load.budget ≤ 2 * load.period) (j : ℕ) (lt : j < list.length) :
    FitsInt list j lt := by
  have here := periods _ (List.getElem_mem lt)
  refine ⟨fun load member => (periods load member).1, by omega, ?_⟩
  have each : ∀ load ∈ list.take j,
      (list[j].period ⌈/⌉ load.period) * load.budget ≤ 240000 := by
    intro load member
    have inList := List.mem_of_mem_take member
    have range := periods load inList
    calc
      (list[j].period ⌈/⌉ load.period) * load.budget ≤
          (list[j].period / load.period + 1) * (2 * load.period) := by
        apply Nat.mul_le_mul _ (budgets load inList)
        rw [ceilDiv_eq_div_add _ _ range.1]
        split <;> omega
      _ = 2 * (list[j].period / load.period * load.period) + 2 * load.period := by ring
      _ ≤ 240000 := by
        have whole := Nat.div_mul_le_self list[j].period load.period
        omega
  have total : demand (list.take j) list[j].period ≤ (list.take j).length * 240000 := by
    have bounded := List.sum_le_card_nsmul
      ((list.take j).map fun load => (list[j].period ⌈/⌉ load.period) * load.budget) 240000
      (by
        intro value member
        obtain ⟨load, loadMem, rfl⟩ := List.mem_map.mp member
        exact each load loadMem)
    simpa [demand] using bounded
  have own := budgets _ (List.getElem_mem lt)
  rw [List.length_take] at total
  omega

private theorem InRange.load_budget (range : InRange (reserve t)) :
    ((loadOf (reserve t)).budget : ℤ) = (reserve t).budget := by
  have positive := range.budget_pos
  simp only [loadOf]
  omega

private theorem InRange.load_period (range : InRange (reserve t)) :
    ((loadOf (reserve t)).period : ℤ) = (reserve t).period := by
  have positive := range.period_pos
  simp only [loadOf]
  omega

theorem InRange.load_bounds (range : InRange (reserve t)) :
    1 ≤ (loadOf (reserve t)).budget ∧ (loadOf (reserve t)).budget ≤ 60000 ∧
      1 ≤ (loadOf (reserve t)).period ∧ (loadOf (reserve t)).period ≤ 60000 := by
  have budget := range.load_budget
  have period := range.load_period
  have budgetPos := range.budget_pos
  have budgetLe := range.budget_le
  have periodPos := range.period_pos
  have periodLe := range.period_le
  omega

/-- The live slots of an array of tasks in range agree with their loads. -/
theorem agrees_live {tasks : ℕ → Tid} {n : ℕ}
    (range : ∀ other ∈ live tasks n, InRange (reserve other)) :
    Agrees (fun k => (reserve (tasks k)).budget) (fun k => (reserve (tasks k)).period)
      (loads reserve (live tasks n)) := by
  constructor
  · intro k lt
    simp only [loads, List.getElem_map, getElem_live]
    exact (range (tasks k) (mem_live_iff.mpr ⟨k, by simpa using lt, rfl⟩)).load_budget.symm
  · intro k lt
    simp only [loads, List.getElem_map, getElem_live]
    exact (range (tasks k) (mem_live_iff.mpr ⟨k, by simpa using lt, rfl⟩)).load_period.symm

theorem loads_bounds {tasks : List Tid} (range : ∀ t ∈ tasks, InRange (reserve t)) :
    ∀ load ∈ loads reserve tasks, 1 ≤ load.budget ∧ load.budget ≤ 60000 ∧
      1 ≤ load.period ∧ load.period ≤ 60000 := by
  intro load member
  obtain ⟨other, otherMem, rfl⟩ := List.mem_map.mp member
  exact (range other otherMem).load_bounds

/-- The response-time test of tasks in range, of total utilization at most one,
stays within an `int`. -/
theorem fitsInt_loads {tasks : List Tid} (count : tasks.length ≤ 1000)
    (range : ∀ t ∈ tasks, InRange (reserve t))
    (total : shareSum share (loads reserve tasks) ≤ 10000) (j : ℕ)
    (lt : j < (loads reserve tasks).length) : FitsInt (loads reserve tasks) j lt := by
  have bounds := loads_bounds range
  apply fitsInt_of_small (by simpa using count)
    (fun load member => ⟨(bounds load member).2.2.1, (bounds load member).2.2.2⟩)
  intro load member
  apply share_le_iff (bounds load member).2.2.1
  exact (List.single_le_sum (fun _ _ => Nat.zero_le _) _ (List.mem_map_of_mem member)).trans total

theorem util_live {tasks : ℕ → Tid} {n : ℕ}
    (range : ∀ other ∈ live tasks n, InRange (reserve other)) (k : ℕ)
    (lt : k < (loads reserve (live tasks n)).length) :
    (reserve (tasks k)).util = (share (loads reserve (live tasks n))[k] : ℤ) := by
  simp only [loads, List.getElem_map, getElem_live]
  exact (range (tasks k) (mem_live_iff.mpr ⟨k, by simpa using lt, rfl⟩)).util

/-- The admission test of tasks in range, of total utilization at most one,
returns and decides the hybrid test. -/
theorem admissionTest_live {tasks : ℕ → Tid} {n : ℕ} (count : n ≤ 1000)
    (range : ∀ other ∈ live tasks n, InRange (reserve other))
    (total : shareSum share (loads reserve (live tasks n)) ≤ 10000) :
    ∃ passes, admissionTest reserve tasks n (shareSum share (loads reserve (live tasks n))) =
        .ok passes ∧
      (passes = true ↔ Hybrid share shareBound (loads reserve (live tasks n))) := by
  have test := admissionTest_spec (agrees_live range) (util_live range) (by omega)
    (fitsInt_loads (by simpa using count) range total)
    (fun load member => (loads_bounds range load member).1)
  simpa using test

theorem share_small {load : Load} (budget : load.budget ≤ 60000) : share load ≤ 600000000 := by
  unfold share
  exact (Nat.div_le_self _ _).trans (by omega)

/-- The list of a bin with a task inserted. -/
def withTask (reserve : Tid → Reserve) (bin : CpuTable) (t : Tid) : List Tid :=
  insertBehind (longerPeriod reserve t) t bin.entries

theorem withTask_perm (reserve : Tid → Reserve) (bin : CpuTable) (t : Tid) :
    (withTask reserve bin t).Perm (t :: bin.entries) :=
  insertBehind_perm _ _ _

theorem inRange_withTask (ok : BinOk reserve bin) (range : InRange (reserve t)) :
    ∀ other ∈ withTask reserve bin t, InRange (reserve other) := by
  intro other member
  rcases mem_insertBehind.mp member with rfl | member
  · exact range
  · exact ok.inRange other member

/-- The array of a bin after a task was put into it, as the test sees it. -/
def insertedTasks (reserve : Tid → Reserve) (bin : CpuTable) (t : Tid) : ℕ → Tid :=
  (insertSlot (longerPeriod reserve t) bin.cpuTasks bin.cpuTasksLength.toNat t).1

theorem live_insertedTasks (reserve : Tid → Reserve) (bin : CpuTable) (t : Tid) :
    live (insertedTasks reserve bin t) (bin.cpuTasksLength.toNat + 1) = withTask reserve bin t :=
  live_insertSlot _ _ _ _

/-- As long as the utilization does not exceed one, the sum does not wrap. -/
theorem util_withTask (ok : BinOk reserve bin) (range : InRange (reserve t))
    (total : shareSum share (loads reserve (t :: bin.entries)) ≤ 10000) :
    int32 (bin.cpuUtil + (reserve t).util) =
      (shareSum share (loads reserve (withTask reserve bin t)) : ℤ) := by
  rw [shareSum_loads_cons] at total
  rw [shareSum_loads_perm (withTask_perm reserve bin t), shareSum_loads_cons, range.util, ok.util,
    ← Nat.cast_add, Nat.add_comm, int32_natCast (by omega)]

/-- A full bin refuses. -/
theorem tryBind_full (full : bin.cpuTasksLength = taskSchedulingLength) :
    tryBind reserve bin t = .ok (EBUSY, bin) := by
  rw [tryBind, if_pos full]

/-- A bin whose utilization would exceed one refuses. -/
theorem tryBind_overloaded (ok : BinOk reserve bin) (range : InRange (reserve t))
    (tooMuch : 10000 < shareSum share (loads reserve (t :: bin.entries)))
    (small : shareSum share (loads reserve (t :: bin.entries)) < 2147483648) :
    tryBind reserve bin t = .ok (EBUSY, bin) := by
  rw [shareSum_loads_cons] at tooMuch small
  have exceeds : utilMultiple < int32 ((reserve t).util + bin.cpuUtil) := by
    rw [range.util, ok.util, ← Nat.cast_add, int32_natCast small, utilMultiple]
    omega
  by_cases full : bin.cpuTasksLength = taskSchedulingLength
  · exact tryBind_full full
  · rw [tryBind, if_neg full, if_pos exceeds]

/-- With room in the array and in the utilization, the verdict is the hybrid
test of the list with the task inserted. -/
theorem tryBind_tested (ok : BinOk reserve bin) (range : InRange (reserve t))
    (room : bin.cpuTasksLength < taskSchedulingLength)
    (total : shareSum share (loads reserve (t :: bin.entries)) ≤ 10000) :
    ∃ retval bin', tryBind reserve bin t = .ok (retval, bin') ∧
      (retval = 0 ↔ Hybrid share shareBound (loads reserve (withTask reserve bin t))) := by
  have nonneg := ok.nonneg
  have capacity : taskSchedulingLength = 1000 := rfl
  have sum := total
  rw [shareSum_loads_cons] at sum
  have within : ¬ utilMultiple < int32 ((reserve t).util + bin.cpuUtil) := by
    rw [range.util, ok.util, ← Nat.cast_add, int32_natCast (by omega), utilMultiple]
    omega
  have inside : ¬ (bin.cpuTasksLength < 0 ∨ taskSchedulingLength < bin.cpuTasksLength) := by
    omega
  have list := live_insertedTasks reserve bin t
  have newUtil := util_withTask ok range total
  have rangeAll := inRange_withTask ok range
  have totalAll : shareSum share (loads reserve (withTask reserve bin t)) ≤ 10000 := by
    rwa [shareSum_loads_perm (withTask_perm reserve bin t)]
  rw [← list] at rangeAll totalAll newUtil
  obtain ⟨passes, returns, decides⟩ := admissionTest_live (by omega) rangeAll totalAll
  rw [list] at returns newUtil decides
  unfold insertedTasks at returns
  rw [tryBind, if_neg (by omega), if_neg within, if_neg inside]
  simp only [newUtil, returns, ok_bind]
  cases passes with
  | true =>
      rw [if_pos rfl]
      exact ⟨0, _, rfl, fun _ => decides.mp rfl, fun _ => rfl⟩
  | false =>
      rw [if_neg (by decide)]
      refine ⟨EBUSY, _, rfl, fun busy => absurd busy EBUSY_ne_zero, fun hybrid => ?_⟩
      exact absurd (decides.mpr hybrid) (by decide)

/-! ## The verdict depends on the list only -/

/-- Two bins with the same list come to the same verdict. -/
theorem tryBind_sameList {retval : ℤ} (same : SameList bin bin')
    (returns : ∃ after, tryBind reserve bin t = .ok (retval, after)) :
    ∃ after, tryBind reserve bin' t = .ok (retval, after) := by
  obtain ⟨after, returns⟩ := returns
  have inserted : ∀ k < bin.cpuTasksLength.toNat + 1,
      insertedTasks reserve bin t k = insertedTasks reserve bin' t k := by
    intro k lt
    have lists := (live_insertedTasks reserve bin t).trans
      ((congrArg (insertBehind (longerPeriod reserve t) t) same.entries.symm).trans
        (live_insertedTasks reserve bin' t).symm)
    rw [same.length] at lists
    have at_k := congrArg (fun list => list[k]?) lists
    simpa [getElem?_live, lt] using at_k
  unfold tryBind at returns ⊢
  rw [same.length, same.util]
  split at returns
  · rename_i full
    cases returns
    exact ⟨_, if_pos full⟩
  · rename_i room
    rw [if_neg room]
    split at returns
    · rename_i overloaded
      cases returns
      exact ⟨_, if_pos overloaded⟩
    · rename_i within
      rw [if_neg within]
      split at returns
      · cases returns
      · rename_i inside
        rw [if_neg inside]
        obtain ⟨passes, tests, result⟩ := bind_eq_ok_iff.mp returns
        have tests' : admissionTest reserve (insertedTasks reserve bin' t)
            (bin.cpuTasksLength.toNat + 1) (int32 (bin.cpuUtil + (reserve t).util)) = .ok passes :=
          (admissionTest_congr inserted _).symm.trans tests
        unfold insertedTasks at tests'
        rw [same.length] at tests'
        simp only [tests', ok_bind]
        split at result
        · rename_i passing
          cases result
          exact ⟨_, if_pos passing⟩
        · rename_i failing
          cases result
          exact ⟨_, if_neg failing⟩

end Rtes.Reservation
