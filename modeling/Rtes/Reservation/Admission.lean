import Rtes.RateMonotonic.LiuLayland
import Rtes.Reservation.Binding

/-!
# Admission and schedulability

A list of reservations is acceptable when it passes the test that `try_bind`
makes after inserting a task.  On a bin that holds an acceptable list, `try_bind`
accepts a task exactly when the list with the task inserted is acceptable again.
Acceptance is inherited by every part of a list, a refused list is not
schedulable, and an accepted one is schedulable when the tasks the test skips
pass it as well.
-/

namespace Rtes.Reservation

open Rtes.RateMonotonic Rtes.Slots Rtes.Transition Rtes.Word

variable {reserve : Tid → Reserve} {bin bin' : CpuTable} {t : Tid}

/-! ## Acceptable lists -/

/-- In nondecreasing order of period. -/
def SortedByPeriod (reserve : Tid → Reserve) (tasks : List Tid) : Prop :=
  tasks.Pairwise fun first second => (reserve first).period ≤ (reserve second).period

theorem SortedByPeriod.loads {tasks : List Tid} (sorted : SortedByPeriod reserve tasks) :
    Sorted (loads reserve tasks) := by
  apply List.Pairwise.map _ _ sorted
  intro first second le
  exact Int.toNat_le_toNat le

theorem sortedByPeriod_withTask (sorted : SortedByPeriod reserve bin.entries) :
    SortedByPeriod reserve (withTask reserve bin t) :=
  insertBehind_pairwise sorted

/-- A list that passes the test of `try_bind`. -/
structure Acceptable (reserve : Tid → Reserve) (tasks : List Tid) : Prop where
  count : tasks.length ≤ 1000
  inRange : ∀ t ∈ tasks, InRange (reserve t)
  sorted : SortedByPeriod reserve tasks
  total : shareSum share (loads reserve tasks) ≤ 10000
  hybrid : Hybrid share shareBound (loads reserve tasks)

theorem Acceptable.of_subperm {whole part : List Tid} (acceptable : Acceptable reserve whole)
    (sorted : SortedByPeriod reserve part) (sub : part.Subperm whole) :
    Acceptable reserve part where
  count := sub.length_le.trans acceptable.count
  inRange := fun t member => acceptable.inRange t (sub.subset member)
  sorted := sorted
  total := (shareSum_le_of_subperm (loads_subperm sub)).trans acceptable.total
  hybrid := acceptable.hybrid.of_subperm shareBound_antitone acceptable.sorted.loads sorted.loads
    (loads_subperm sub)

/-- A bin that holds an acceptable list and says so. -/
structure Admitted (reserve : Tid → Reserve) (bin : CpuTable) : Prop where
  nonneg : 0 ≤ bin.cpuTasksLength
  util : bin.cpuUtil = (shareSum share (loads reserve bin.entries) : ℤ)
  acceptable : Acceptable reserve bin.entries

namespace Admitted

theorem binOk (admitted : Admitted reserve bin) : BinOk reserve bin where
  nonneg := admitted.nonneg
  capacity := by
    have count := admitted.acceptable.count
    have length := length_entries admitted.nonneg
    unfold taskSchedulingLength
    omega
  util := admitted.util
  inRange := admitted.acceptable.inRange

theorem word (admitted : Admitted reserve bin) : int32 bin.cpuUtil = bin.cpuUtil := by
  have total := admitted.acceptable.total
  rw [admitted.util, int32_natCast (by omega)]

theorem of_sameList (admitted : Admitted reserve bin) (same : SameList bin bin') :
    Admitted reserve bin' where
  nonneg := by
    rw [same.length]
    exact admitted.nonneg
  util := by
    rw [same.util, same.entries]
    exact admitted.util
  acceptable := by
    rw [same.entries]
    exact admitted.acceptable

theorem of_empty (length : bin.cpuTasksLength = 0) (util : bin.cpuUtil = 0) :
    Admitted reserve bin := by
  have none : bin.entries = [] := by simp [CpuTable.entries, length]
  refine ⟨length.ge, by simp [util, none, loads, shareSum], ?_⟩
  rw [none]
  refine ⟨by simp, by simp, List.Pairwise.nil, by simp [loads, shareSum], ?_⟩
  intro j lt
  exact absurd lt (Nat.not_lt_zero j)

/-- Inserting a task keeps the bin admitted as long as the list stays acceptable. -/
theorem of_inserted (admitted : Admitted reserve bin) (inserted : Inserted reserve t bin bin')
    (acceptable : Acceptable reserve (withTask reserve bin t)) : Admitted reserve bin' := by
  have nonneg := admitted.nonneg
  have range : InRange (reserve t) := acceptable.inRange t (mem_insertBehind.mpr (.inl rfl))
  have total := acceptable.total
  refine ⟨by rw [inserted.length]; omega, ?_, by rw [inserted.entries]; exact acceptable⟩
  rw [shareSum_loads_perm (withTask_perm reserve bin t), shareSum_loads_cons] at total
  rw [inserted.util, inserted.entries, admitted.util, range.util, ← Nat.cast_add,
    int32_natCast (by omega), shareSum_loads_perm (insertBehind_perm _ _ _), shareSum_loads_cons,
    Nat.add_comm]

end Admitted

/-- The verdict on an admitted bin: `try_bind` returns, and accepts the task
exactly when the list with it inserted is acceptable. -/
theorem tryBind_admitted (admitted : Admitted reserve bin) (range : InRange (reserve t)) :
    ∃ retval bin', tryBind reserve bin t = .ok (retval, bin') ∧
      (retval = 0 ↔ Acceptable reserve (withTask reserve bin t)) := by
  have ok := admitted.binOk
  have capacity := ok.capacity
  have length := length_entries admitted.nonneg
  have count : (withTask reserve bin t).length = bin.entries.length + 1 :=
    length_insertBehind _ _ _
  have total : shareSum share (loads reserve (withTask reserve bin t)) =
      shareSum share (loads reserve (t :: bin.entries)) :=
    shareSum_loads_perm (withTask_perm reserve bin t)
  have cap : taskSchedulingLength = 1000 := rfl
  rcases Int.lt_or_le bin.cpuTasksLength taskSchedulingLength with room | full
  · by_cases within : shareSum share (loads reserve (t :: bin.entries)) ≤ 10000
    · obtain ⟨retval, bin', returns, verdict⟩ := tryBind_tested ok range room within
      refine ⟨retval, bin', returns, verdict.trans ⟨fun hybrid => ?_, fun acceptable =>
        acceptable.hybrid⟩⟩
      exact ⟨by omega, inRange_withTask ok range,
        sortedByPeriod_withTask admitted.acceptable.sorted, by omega, hybrid⟩
    · have small : shareSum share (loads reserve (t :: bin.entries)) < 2147483648 := by
        have old := admitted.acceptable.total
        have new := share_small range.load_bounds.2.1
        rw [shareSum_loads_cons]
        omega
      refine ⟨EBUSY, bin, tryBind_overloaded ok range (by omega) small, ?_⟩
      constructor
      · intro busy
        exact absurd busy EBUSY_ne_zero
      · intro acceptable
        exact absurd (total ▸ acceptable.total) within
  · refine ⟨EBUSY, bin, tryBind_full (by omega), ?_⟩
    constructor
    · intro busy
      exact absurd busy EBUSY_ne_zero
    · intro acceptable
      have most := acceptable.count
      omega

/-- A task bound to an admitted bin leaves it admitted. -/
theorem Admitted.tryBind_zero (admitted : Admitted reserve bin) (range : InRange (reserve t))
    (returns : tryBind reserve bin t = .ok (0, bin')) :
    Inserted reserve t bin bin' ∧ Admitted reserve bin' := by
  obtain ⟨retval, result, same, verdict⟩ := tryBind_admitted admitted range
  rw [same] at returns
  obtain ⟨rfl, rfl⟩ : retval = 0 ∧ result = bin' := by simpa using returns
  have inserted := tryBind_inserted admitted.word same
  exact ⟨inserted, admitted.of_inserted inserted (verdict.mp rfl)⟩

/-- A task that belongs to an acceptable list together with what is in the bin
is bound to it. -/
theorem Admitted.tryBind_part (admitted : Admitted reserve bin) {whole : List Tid}
    (acceptable : Acceptable reserve whole) (sub : (t :: bin.entries).Subperm whole) :
    ∃ bin', tryBind reserve bin t = .ok (0, bin') ∧ Inserted reserve t bin bin' ∧
      Admitted reserve bin' := by
  have range : InRange (reserve t) :=
    acceptable.inRange t (sub.subset List.mem_cons_self)
  obtain ⟨retval, bin', returns, verdict⟩ := tryBind_admitted admitted range
  have part : Acceptable reserve (withTask reserve bin t) :=
    acceptable.of_subperm (sortedByPeriod_withTask admitted.acceptable.sorted)
      ((withTask_perm reserve bin t).subperm.trans sub)
  obtain rfl := verdict.mpr part
  exact ⟨bin', returns, admitted.tryBind_zero range returns⟩

/-! ## Order of admission -/

/-- Binding the tasks one after another accepts all of them. -/
def AcceptsAll (reserve : Tid → Reserve) : CpuTable → List Tid → Prop
  | _, [] => True
  | bin, t :: rest => ∃ bin', tryBind reserve bin t = .ok (0, bin') ∧ AcceptsAll reserve bin' rest

/-- The tasks of an accepted sequence form an acceptable list together with
what was there before. -/
theorem AcceptsAll.exists_acceptable {tasks : List Tid} (admitted : Admitted reserve bin)
    (range : ∀ t ∈ tasks, InRange (reserve t)) (accepted : AcceptsAll reserve bin tasks) :
    ∃ whole, Acceptable reserve whole ∧ (tasks ++ bin.entries).Perm whole := by
  induction tasks generalizing bin with
  | nil => exact ⟨bin.entries, admitted.acceptable, List.Perm.refl _⟩
  | cons t rest ih =>
      obtain ⟨bin', returns, others⟩ := accepted
      obtain ⟨inserted, admitted'⟩ := admitted.tryBind_zero (range t List.mem_cons_self) returns
      obtain ⟨whole, acceptable, perm⟩ :=
        ih admitted' (fun other member => range other (List.mem_cons_of_mem t member)) others
      refine ⟨whole, acceptable, List.Perm.trans ?_ perm⟩
      rw [inserted.entries, List.cons_append]
      exact List.perm_middle.symm.trans ((insertBehind_perm _ _ _).symm.append_left rest)

/-- A sequence of tasks that belong to an acceptable list together with what is
in the bin is accepted. -/
theorem acceptsAll_of_part {tasks whole : List Tid} (admitted : Admitted reserve bin)
    (acceptable : Acceptable reserve whole) (sub : (tasks ++ bin.entries).Subperm whole) :
    AcceptsAll reserve bin tasks := by
  induction tasks generalizing bin with
  | nil => trivial
  | cons t rest ih =>
      have first : (t :: bin.entries).Subperm whole :=
        List.Subperm.trans ((List.sublist_append_right rest _).cons_cons t).subperm sub
      obtain ⟨bin', returns, inserted, admitted'⟩ := admitted.tryBind_part acceptable first
      refine ⟨bin', returns, ih admitted' (List.Subperm.trans ?_ sub)⟩
      rw [inserted.entries, List.cons_append]
      exact (((insertBehind_perm _ _ _).append_left rest).trans List.perm_middle).subperm

/-- Order independence of admission: if binding the tasks one after another to
an empty CPU accepts all of them, so does binding any of them in any order. -/
theorem acceptsAll_of_subperm {tasks part : List Tid} (length : bin.cpuTasksLength = 0)
    (util : bin.cpuUtil = 0) (range : ∀ t ∈ tasks, InRange (reserve t))
    (accepted : AcceptsAll reserve bin tasks) (sub : part.Subperm tasks) :
    AcceptsAll reserve bin part := by
  have admitted : Admitted reserve bin := .of_empty length util
  obtain ⟨whole, acceptable, perm⟩ := accepted.exists_acceptable admitted range
  apply acceptsAll_of_part admitted acceptable
  exact (sub.append (List.Subperm.refl _)).trans perm.subperm

/-- Two tasks, of which the first is known by the thread id 1. -/
def pairReserve (first second : Reserve) (t : Tid) : Reserve :=
  if t = 1 then first else second

theorem acceptsAll_of_subperm_pair :
    AcceptsAll (pairReserve (.ofMillis 1 4) (.ofMillis 3 6)) .empty [2, 1] := by
  have range : ∀ t ∈ [1, 2], InRange (pairReserve (.ofMillis 1 4) (.ofMillis 3 6) t) := by
    intro t member
    rcases List.mem_pair.mp member with rfl | rfl
    · exact inRange_ofMillis (by decide) (by decide) (by decide) (by decide)
    · exact inRange_ofMillis (by decide) (by decide) (by decide) (by decide)
  exact acceptsAll_of_subperm rfl rfl range ⟨_, rfl, _, rfl, trivial⟩
    (List.Perm.swap 1 2 []).subperm

/-! ## Refusal -/

private theorem share_mul_period_le (load : Load) :
    share load * load.period ≤ 10000 * load.budget := by
  rw [Nat.mul_comm 10000]
  exact Nat.div_mul_le_self _ _

/-- A schedulable list of tasks in range has utilization at most one. -/
theorem shareSum_le_of_schedulable {tasks : List Tid} (range : ∀ t ∈ tasks, InRange (reserve t))
    (schedulable : Schedulable (loads reserve tasks)) :
    shareSum share (loads reserve tasks) ≤ 10000 :=
  schedulable.shareSum_le (fun load member => (loads_bounds range load member).2.2.1)
    (fun load _ => share_mul_period_le load)

/-- No false rejection: if `try_bind` refuses a task although the array has room,
the list with the task inserted is not schedulable. -/
theorem tryBind_busy_misses (ok : BinOk reserve bin)
    (room : bin.cpuTasksLength < taskSchedulingLength) (range : InRange (reserve t))
    (busy : tryBind reserve bin t = .ok (EBUSY, bin')) :
    ∃ j, ∃ lt : j < (loads reserve (withTask reserve bin t)).length,
      ¬ Meets ((loads reserve (withTask reserve bin t)).take j)
        (loads reserve (withTask reserve bin t))[j] := by
  by_contra all
  have schedulable : Schedulable (loads reserve (withTask reserve bin t)) := by
    intro j lt
    by_contra misses
    exact all ⟨j, lt, misses⟩
  have total := shareSum_le_of_schedulable (inRange_withTask ok range) schedulable
  rw [shareSum_loads_perm (withTask_perm reserve bin t)] at total
  obtain ⟨retval, result, returns, verdict⟩ := tryBind_tested ok range room total
  rw [busy] at returns
  obtain ⟨rfl, _⟩ : EBUSY = retval ∧ bin' = result := by simpa using returns
  exact EBUSY_ne_zero (verdict.mpr fun j lt _ => schedulable j lt)

/-- A bin that holds the first of two tasks. -/
def firstBin (first : Reserve) : CpuTable where
  cpuTasks := fun _ => 1
  cpuTasksLength := 1
  cpuUtil := first.util
  cpuOpen := true

theorem binOk_firstBin {first second : Reserve} (range : InRange first) :
    BinOk (pairReserve first second) (firstBin first) where
  nonneg := by simp [firstBin]
  capacity := by simp [firstBin, taskSchedulingLength]
  util := by
    rw [firstBin, range.util]
    simp [CpuTable.entries, live, loads, shareSum, pairReserve]
  inRange := by
    intro other member
    obtain rfl : other = 1 := by simpa [firstBin, CpuTable.entries, live] using member
    exact range

theorem tryBind_busy_misses_pair :
    ∃ j, ∃ lt : j < (loads (pairReserve (.ofMillis 2 4) (.ofMillis 3 6)) [1, 2]).length,
      ¬ Meets ((loads (pairReserve (.ofMillis 2 4) (.ofMillis 3 6)) [1, 2]).take j)
        (loads (pairReserve (.ofMillis 2 4) (.ofMillis 3 6)) [1, 2])[j] := by
  have ok : BinOk (pairReserve (.ofMillis 2 4) (.ofMillis 3 6)) (firstBin (.ofMillis 2 4)) :=
    binOk_firstBin (inRange_ofMillis (by decide) (by decide) (by decide) (by decide))
  have range : InRange (pairReserve (.ofMillis 2 4) (.ofMillis 3 6) 2) :=
    inRange_ofMillis (by decide) (by decide) (by decide) (by decide)
  exact tryBind_busy_misses ok (by decide) range rfl

/-! ## Acceptance -/

/-- Number of tasks that pass the utilization bound together, once a task was
put into the bin.  The response-time test skips them. -/
def skipped (reserve : Tid → Reserve) (bin : CpuTable) (t : Tid) : Except Fault ℕ :=
  boundScan (fun k => (reserve (insertedTasks reserve bin t k)).util)
    (bin.cpuTasksLength.toNat + 1) (int32 (bin.cpuUtil + (reserve t).util))

/-- The skipped tasks would pass the response-time test. -/
def SkippedPass (reserve : Tid → Reserve) (bin : CpuTable) (t : Tid) : Prop :=
  ∀ i, skipped reserve bin t = .ok i → ∀ j < i, ∃ curr,
    responseTime (fun k => (reserve (insertedTasks reserve bin t k)).budget)
      (fun k => (reserve (insertedTasks reserve bin t k)).period) j = .ok curr ∧
    curr ≤ (reserve (insertedTasks reserve bin t j)).period

section Sound

variable (ok : BinOk reserve bin) (range : InRange (reserve t))

include ok range

/-- What a successful call of `try_bind` on a schedulable list has checked. -/
private theorem tryBind_zero_checks (schedulable : Schedulable (loads reserve bin.entries))
    (accepted : tryBind reserve bin t = .ok (0, bin')) :
    bin'.entries = withTask reserve bin t ∧ bin.cpuTasksLength < taskSchedulingLength ∧
      shareSum share (loads reserve (t :: bin.entries)) ≤ 10000 ∧
      Hybrid share shareBound (loads reserve (withTask reserve bin t)) := by
  have old := shareSum_le_of_schedulable ok.inRange schedulable
  have word : int32 bin.cpuUtil = bin.cpuUtil := by
    rw [ok.util, int32_natCast (by omega)]
  have busy : ∀ result, tryBind reserve bin t ≠ .ok (EBUSY, result) := by
    intro result refused
    rw [accepted] at refused
    cases refused
  have room : bin.cpuTasksLength < taskSchedulingLength := by
    by_contra full
    exact busy bin (tryBind_full (le_antisymm ok.capacity (Int.not_lt.mp full)))
  have total : shareSum share (loads reserve (t :: bin.entries)) ≤ 10000 := by
    by_contra tooMuch
    refine busy bin (tryBind_overloaded ok range (by omega) ?_)
    have new := share_small range.load_bounds.2.1
    rw [shareSum_loads_cons]
    omega
  obtain ⟨retval, result, returns, verdict⟩ := tryBind_tested ok range room total
  rw [accepted] at returns
  obtain ⟨rfl, _⟩ : 0 = retval ∧ bin' = result := by simpa using returns
  exact ⟨(tryBind_inserted word accepted).entries, room, total, verdict.mp rfl⟩

variable (total : shareSum share (loads reserve (t :: bin.entries)) ≤ 10000)

include total

theorem skipped_eq :
    skipped reserve bin t =
      .ok (passingPrefix share shareBound (loads reserve (withTask reserve bin t))) := by
  have rangeAll := inRange_withTask ok range
  have small : shareSum share (loads reserve (withTask reserve bin t)) < 2147483648 := by
    rw [shareSum_loads_perm (withTask_perm reserve bin t)]
    omega
  rw [skipped, util_withTask ok range total]
  rw [← live_insertedTasks] at rangeAll small ⊢
  simpa using boundScan_eq (util_live rangeAll) small

private theorem responseTime_withTask (room : bin.cpuTasksLength < taskSchedulingLength) (j : ℕ)
    (lt : j < (loads reserve (withTask reserve bin t)).length) :
    ∃ result : ℕ, responseTime (fun k => (reserve (insertedTasks reserve bin t k)).budget)
        (fun k => (reserve (insertedTasks reserve bin t k)).period) j = .ok (result : ℤ) ∧
      ((result : ℤ) ≤ (reserve (insertedTasks reserve bin t j)).period ↔
        Meets ((loads reserve (withTask reserve bin t)).take j)
          (loads reserve (withTask reserve bin t))[j]) := by
  have rangeAll := inRange_withTask ok range
  have count : (withTask reserve bin t).length ≤ 1000 := by
    have length := length_entries ok.nonneg
    rw [withTask, length_insertBehind]
    unfold taskSchedulingLength at room
    omega
  rw [← shareSum_loads_perm (withTask_perm reserve bin t)] at total
  have fits := fitsInt_loads count rangeAll total j lt
  have positive := (loads_bounds rangeAll _ (List.getElem_mem lt)).1
  have agrees := agrees_live (live_insertedTasks reserve bin t ▸ rangeAll)
  rw [live_insertedTasks] at agrees
  exact responseTime_accepts_iff agrees fits positive

end Sound

/-- A single task that fits its period is schedulable. -/
theorem schedulable_singleton {load : Load} (positive : 1 ≤ load.budget)
    (fits : load.budget ≤ load.period) : Schedulable [load] := by
  intro j lt
  obtain rfl : j = 0 := by simpa using lt
  exact ⟨load.budget, positive, fits, by simp⟩

private theorem late_by_one : ¬ Schedulable [⟨17574, 42426⟩, ⟨24853, 60000⟩] := by
  intro schedulable
  obtain ⟨x, positive, within, enough⟩ := schedulable 1 (by decide)
  simp only [List.getElem_cons_succ, List.getElem_cons_zero, List.take_succ_cons, List.take_zero,
    demand_cons, demand_nil] at within enough
  have releases := le_mul_ceilDiv (show 0 < 42426 by decide) x
  omega

/-- Two tasks at the edge of the bound for two tasks: their utilizations are
rounded down and the bound is rounded up, so `try_bind` accepts the second
without looking at its response time, which is one millisecond late. -/
theorem tryBind_zero_not_schedulable :
    ∃ reserve bin t bin', BinOk reserve bin ∧ SortedByPeriod reserve bin.entries ∧
      Schedulable (loads reserve bin.entries) ∧ InRange (reserve t) ∧
      tryBind reserve bin t = .ok (0, bin') ∧ ¬ Schedulable (loads reserve bin'.entries) := by
  have first : InRange (.ofMillis 17574 42426) :=
    inRange_ofMillis (by decide) (by decide) (by decide) (by decide)
  have second : InRange (.ofMillis 24853 60000) :=
    inRange_ofMillis (by decide) (by decide) (by decide) (by decide)
  exact ⟨pairReserve (.ofMillis 17574 42426) (.ofMillis 24853 60000),
    firstBin (.ofMillis 17574 42426), 2, _, binOk_firstBin first, List.pairwise_singleton _ _,
    schedulable_singleton (by decide) (by decide), second, rfl, late_by_one⟩

/-- Soundness of admission holds exactly as far as the response-time test would
have passed the tasks it skips.  It does when the skipped tasks are within the
hyperbolic bound, computed without rounding. -/
theorem tryBind_zero_schedulable_iff (ok : BinOk reserve bin)
    (sorted : SortedByPeriod reserve bin.entries)
    (schedulable : Schedulable (loads reserve bin.entries)) (range : InRange (reserve t))
    (accepted : tryBind reserve bin t = .ok (0, bin')) :
    (Schedulable (loads reserve bin'.entries) ↔ SkippedPass reserve bin t) ∧
      ∀ i, skipped reserve bin t = .ok i →
        hyperbolic ((loads reserve bin'.entries).take i) ≤ 2 →
        Schedulable (loads reserve bin'.entries) := by
  obtain ⟨entries, room, total, hybrid⟩ := tryBind_zero_checks ok range schedulable accepted
  have scan := skipped_eq ok range total
  have short : passingPrefix share shareBound (loads reserve (withTask reserve bin t)) ≤
      (loads reserve (withTask reserve bin t)).length := passingPrefix_le _
  rw [entries, hybrid.schedulable_iff]
  constructor
  · constructor
    · intro early i isSkipped j less
      rw [scan] at isSkipped
      cases isSkipped
      have lt := lt_of_lt_of_le less short
      obtain ⟨result, returns, accepts⟩ := responseTime_withTask ok range total room j lt
      exact ⟨result, returns, accepts.mpr (early j lt less)⟩
    · intro pass j lt less
      obtain ⟨result, returns, accepts⟩ := responseTime_withTask ok range total room j lt
      obtain ⟨curr, same, within⟩ := pass _ scan j less
      rw [returns] at same
      cases same
      exact accepts.mp within
  · intro i isSkipped bound j lt less
    rw [scan] at isSkipped
    cases isSkipped
    have bounds := loads_bounds (inRange_withTask ok range)
    exact (sortedByPeriod_withTask sorted).loads.meets_of_hyperbolic_take
      (fun load member => (bounds load member).1) (fun load member => (bounds load member).2.2.1)
      bound j less lt

theorem tryBind_zero_schedulable_iff_pair :
    ∃ bin', tryBind (pairReserve (.ofMillis 1 4) (.ofMillis 1 8)) (firstBin (.ofMillis 1 4)) 2 =
        .ok (0, bin') ∧
      (Schedulable (loads (pairReserve (.ofMillis 1 4) (.ofMillis 1 8)) bin'.entries) ↔
        SkippedPass (pairReserve (.ofMillis 1 4) (.ofMillis 1 8))
          (firstBin (.ofMillis 1 4)) 2) := by
  have ok : BinOk (pairReserve (.ofMillis 1 4) (.ofMillis 1 8)) (firstBin (.ofMillis 1 4)) :=
    binOk_firstBin (inRange_ofMillis (by decide) (by decide) (by decide) (by decide))
  have range : InRange (pairReserve (.ofMillis 1 4) (.ofMillis 1 8) 2) :=
    inRange_ofMillis (by decide) (by decide) (by decide) (by decide)
  exact ⟨_, rfl, (tryBind_zero_schedulable_iff ok (List.pairwise_singleton _ _)
    (schedulable_singleton (by decide) (by decide)) range rfl).1⟩

end Rtes.Reservation
