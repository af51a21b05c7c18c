import Rtes.RateMonotonic.Schedule
import Rtes.Reservation.Runs

/-!
# What admission means for the jobs

The test of `try_bind` is about windows and demands.  Here its verdicts are
carried over to schedules: the result of the response-time loop is the response
time of the worst case, a refused list is late as soon as all of its tasks are
released together, and on every CPU of every state a run reaches the tasks that
the test looked at are never late, however their jobs are released.
-/

namespace Rtes.Reservation

open Rtes.RateMonotonic Rtes.Slots Rtes.Transition Rtes.Word

/-! ## The response-time loop -/

section Response

variable {budget period : ℕ → ℤ} {loads : List Load}

/-- `curr_budget` is the response time of the worst case.  Within the period, no
job takes longer under any legal release, and the first job takes that long when
all tasks are released together.  Beyond the period, that job is late. -/
theorem responseTime_worstCase (agrees : Agrees budget period loads) (count : loads.length ≤ 1000)
    (periods : ∀ load ∈ loads, 1 ≤ load.period ∧ load.period ≤ 60000)
    (budgets : ∀ load ∈ loads, load.budget ≤ load.period) (j : ℕ) (lt : j < loads.length)
    (asks : 1 ≤ loads[j].budget) :
    ∃ curr : ℕ, responseTime budget period j = .ok (curr : ℤ) ∧
      (curr ≤ loads[j].period →
        (∀ release, Legal loads release → ∀ s, Finished 1 release j s (s + curr)) ∧
          ∀ d < curr, ¬ Finished 1 (together loads) j 0 d) ∧
      (loads[j].period < curr → ¬ Finished 1 (together loads) j 0 loads[j].period) := by
  have fits : FitsInt loads j lt := by
    refine fitsInt_of_small count periods ?_ j lt
    intro load member
    have within := budgets load member
    omega
  have positive : ∀ load ∈ loads, 1 ≤ load.period := fun load member => (periods load member).1
  have demandEq : ∀ x, 1 ≤ x → x ≤ loads[j].period →
      demand (loads.take (j + 1)) x = loads[j].budget + demand (loads.take j) x := by
    intro x one within
    rw [demand_take_succ loads lt, ceilDiv_eq_one one within, Nat.one_mul, Nat.add_comm]
  obtain ⟨curr, returns, least, fixed⟩ := responseTime_spec agrees fits
  -- the first job of the synchronous release is not finished before `curr`
  have unfinished : ∀ d, d < curr → d ≤ loads[j].period →
      ¬ Finished 1 (together loads) j 0 d := by
    intro d early within finished
    obtain ⟨x, one, before, closed⟩ :=
      (finished_together_iff positive lt asks within).mp finished
    rw [demandEq x one (by omega), Nat.one_mul] at closed
    have reached := least x closed
    omega
  refine ⟨curr, returns, ?_, fun late => unfinished _ late le_rfl⟩
  intro within
  have one : 1 ≤ curr := by
    have value := fixed within
    omega
  refine ⟨?_, fun d early => unfinished d early (by omega)⟩
  intro release legal s
  apply legal.finished positive lt one
  rw [demandEq curr one within, fixed within, Nat.one_mul]

/-- Two milliseconds in every six, below one in every four: the response time is
three. -/
theorem responseTime_worstCase_pair :
    responseTime (fun k => [1, 2].getD k 0) (fun k => [4, 6].getD k 0) 1 = .ok 3 ∧
      ∀ release, Legal [⟨1, 4⟩, ⟨2, 6⟩] release → ∀ s, Finished 1 release 1 s (s + 3) := by
  have agrees : Agrees (fun k => [1, 2].getD k 0) (fun k => [4, 6].getD k 0) [⟨1, 4⟩, ⟨2, 6⟩] :=
    ⟨by decide, by decide⟩
  have value : responseTime (fun k => [1, 2].getD k 0) (fun k => [4, 6].getD k 0) 1 = .ok 3 := by
    rfl
  obtain ⟨curr, returns, within, _⟩ :=
    responseTime_worstCase agrees (by decide) (by decide) (by decide) 1 (by decide) (by decide)
  obtain rfl : curr = 3 := by
    rw [value] at returns
    exact (Nat.cast_inj.mp (Except.ok.inj returns)).symm
  exact ⟨value, (within (by decide)).1⟩

end Response

/-! ## Lists of tasks -/

section Tasks

variable {reserve : Tid → Reserve} {bin bin' : CpuTable} {t : Tid}

/-- For tasks in range the deadlines of the test are those of the jobs. -/
theorem neverLate_loads_iff {tasks : List Tid} (range : ∀ t ∈ tasks, InRange (reserve t)) {j : ℕ}
    (lt : j < (loads reserve tasks).length) :
    NeverLate 1 (loads reserve tasks) j lt ↔
      Meets ((loads reserve tasks).take j) (loads reserve tasks)[j] :=
  neverLate_iff_meets (fun load member => (loads_bounds range load member).2.2.1) lt
    (loads_bounds range _ (List.getElem_mem lt)).1

/-- Tasks in range that do not all meet their deadlines are late once they are
all released together. -/
theorem exists_late {tasks : List Tid} (range : ∀ t ∈ tasks, InRange (reserve t))
    (misses : ¬ Schedulable (loads reserve tasks)) :
    ∃ j, ∃ lt : j < (loads reserve tasks).length,
      ¬ Finished 1 (together (loads reserve tasks)) j 0 (loads reserve tasks)[j].period := by
  by_contra none
  apply misses
  intro j lt
  have bounds := loads_bounds range
  have finished : Finished 1 (together (loads reserve tasks)) j 0
      (loads reserve tasks)[j].period := by
    by_contra late
    exact none ⟨j, lt, late⟩
  rw [finished_together_iff (fun load member => (bounds load member).2.2.1) lt
    (bounds _ (List.getElem_mem lt)).1 le_rfl] at finished
  rw [meets_iff_demand_cons]
  simpa only [demand_take_succ_perm lt, Nat.one_mul] using finished

/-- The verdict of `try_bind` on an admitted bin with room in its array, in terms
of jobs.  An accepted task leaves every task behind the skipped ones never late;
a refused one would have made some job late at the first common release. -/
theorem tryBind_jobs (admitted : Admitted reserve bin) (range : InRange (reserve t))
    (room : bin.cpuTasksLength < taskSchedulingLength) :
    ∃ retval bin', tryBind reserve bin t = .ok (retval, bin') ∧
      (retval = 0 → bin'.entries = withTask reserve bin t ∧ ∃ i, skipped reserve bin t = .ok i ∧
        ∀ j (lt : j < (loads reserve (withTask reserve bin t)).length), i ≤ j →
          NeverLate 1 (loads reserve (withTask reserve bin t)) j lt) ∧
      (retval ≠ 0 → ∃ j, ∃ lt : j < (loads reserve (withTask reserve bin t)).length,
        ¬ Finished 1 (together (loads reserve (withTask reserve bin t))) j 0
          (loads reserve (withTask reserve bin t))[j].period) := by
  have ok := admitted.binOk
  have rangeAll := inRange_withTask ok range
  obtain ⟨retval, bin', returns, verdict⟩ := tryBind_admitted admitted range
  refine ⟨retval, bin', returns, ?_, ?_⟩
  · intro accepted
    have acceptable := verdict.mp accepted
    have total := acceptable.total
    rw [shareSum_loads_perm (withTask_perm reserve bin t)] at total
    subst accepted
    refine ⟨(tryBind_inserted admitted.word returns).entries, _, skipped_eq ok range total, ?_⟩
    intro j lt behind
    rw [neverLate_loads_iff rangeAll lt]
    exact acceptable.hybrid j lt behind
  · intro refused
    apply exists_late rangeAll
    intro schedulable
    apply refused
    rw [verdict]
    have length := length_entries ok.nonneg
    refine ⟨?_, rangeAll, sortedByPeriod_withTask admitted.acceptable.sorted,
      shareSum_le_of_schedulable rangeAll schedulable, fun j lt _ => schedulable j lt⟩
    rw [withTask, length_insertBehind]
    unfold taskSchedulingLength at room
    omega

/-- Three milliseconds in six next to two in four. -/
theorem tryBind_jobs_refused :
    ∃ bin, tryBind (pairReserve (.ofMillis 2 4) (.ofMillis 3 6)) .empty 1 = .ok (0, bin) ∧
      ∃ j, ∃ lt : j < (loads (pairReserve (.ofMillis 2 4) (.ofMillis 3 6)) [1, 2]).length,
        ¬ Finished 1 (together (loads (pairReserve (.ofMillis 2 4) (.ofMillis 3 6)) [1, 2])) j 0
          (loads (pairReserve (.ofMillis 2 4) (.ofMillis 3 6)) [1, 2])[j].period := by
  have range : ∀ t, InRange (pairReserve (.ofMillis 2 4) (.ofMillis 3 6) t) := by
    intro t
    unfold pairReserve
    split
    · exact inRange_ofMillis (by decide) (by decide) (by decide) (by decide)
    · exact inRange_ofMillis (by decide) (by decide) (by decide) (by decide)
  have empty : Admitted (pairReserve (.ofMillis 2 4) (.ofMillis 3 6)) .empty := .of_empty rfl rfl
  obtain ⟨_, admitted⟩ := empty.tryBind_zero (range 1) rfl
  obtain ⟨retval, bin', returns, _, refused⟩ := tryBind_jobs admitted (range 2) (by decide)
  have busy : EBUSY = retval := (Prod.mk.inj (Except.ok.inj returns)).1
  exact ⟨_, rfl, refused (busy ▸ EBUSY_ne_zero)⟩

end Tasks

/-! ## Every run -/

/-- In every state reached by operations on live tasks with orderly revisions,
the tasks of every CPU that the bound scan does not pass over are never late in the
preemptive schedule by the order of its list, however their jobs are released.  None is
if those passed over are within the hyperbolic bound. -/
theorem reaches_neverLate {s : Kernel}
    (reached : Reaches step (fun s op => Serial s op ∧ Orderly s op) Boot s) (cpu : Cpu) :
    ∃ i, boundScan (fun k => (s.reserve ((s.table cpu).cpuTasks k)).util)
        (s.table cpu).cpuTasksLength.toNat (s.table cpu).cpuUtil = .ok i ∧
      (∀ j (lt : j < (loads s.reserve (s.table cpu).entries).length), i ≤ j →
        NeverLate 1 (loads s.reserve (s.table cpu).entries) j lt) ∧
      (hyperbolic ((loads s.reserve (s.table cpu).entries).take i) ≤ 2 →
        ∀ j (lt : j < (loads s.reserve (s.table cpu).entries).length),
          NeverLate 1 (loads s.reserve (s.table cpu).entries) j lt) := by
  have consistent := reaches_consistent (fun _ _ permitted => permitted.1)
    (fun _ _ permitted => permitted.2) reached
  have admitted := consistent.represents.admitted cpu
  have acceptable := admitted.acceptable
  have total := acceptable.total
  have bounds := loads_bounds acceptable.inRange
  have scan : boundScan (fun k => (s.reserve ((s.table cpu).cpuTasks k)).util)
      (loads s.reserve (s.table cpu).entries).length
      (shareSum share (loads s.reserve (s.table cpu).entries)) =
        .ok (passingPrefix share shareBound (loads s.reserve (s.table cpu).entries)) :=
    boundScan_eq (util_live acceptable.inRange) (by omega)
  rw [← admitted.util] at scan
  have behind : ∀ j (lt : j < (loads s.reserve (s.table cpu).entries).length),
      passingPrefix share shareBound (loads s.reserve (s.table cpu).entries) ≤ j →
        NeverLate 1 (loads s.reserve (s.table cpu).entries) j lt := by
    intro j lt later
    rw [neverLate_loads_iff acceptable.inRange lt]
    exact acceptable.hybrid j lt later
  refine ⟨_, by simpa [CpuTable.entries] using scan, behind, ?_⟩
  intro bound j lt
  rcases Nat.lt_or_ge j (passingPrefix share shareBound
    (loads s.reserve (s.table cpu).entries)) with inside | later
  · rw [neverLate_loads_iff acceptable.inRange lt]
    exact acceptable.sorted.loads.meets_of_hyperbolic_take
      (fun load member => (bounds load member).1) (fun load member => (bounds load member).2.2.1)
      bound j inside lt
  · exact behind j lt later

/-- One millisecond in ten and one in twenty, on the same CPU. -/
theorem reaches_neverLate_twoTasks : (twoTasks.table 0).entries = [1, 2] ∧
    ∀ j (lt : j < (loads twoTasks.reserve (twoTasks.table 0).entries).length),
      NeverLate 1 (loads twoTasks.reserve (twoTasks.table 0).entries) j lt := by
  have permitted : ∀ {s : Kernel} {tid : Tid} {C T cpuid : ℤ},
      Serial s (reserveMillis tid C T cpuid) ∧ InPlace s (reserveMillis tid C T cpuid) →
        Serial s (reserveMillis tid C T cpuid) ∧ Orderly s (reserveMillis tid C T cpuid) :=
    fun both => ⟨both.1, both.2.orderly⟩
  have reached : Reaches step (fun s op => Serial s op ∧ Orderly s op) Boot twoTasks :=
    reaches_twoTasks
      (permitted (serial_reserveMillis rfl ⟨by decide, by decide, by decide⟩ rfl))
      (permitted (serial_reserveMillis (by decide) ⟨by decide, by decide, by decide⟩ (by decide)))
  obtain ⟨i, scans, _, all⟩ := reaches_neverLate reached 0
  have two : i = 2 := (Except.ok.inj scans).symm
  refine ⟨by decide, ?_⟩
  apply all
  subst two
  have list : loads twoTasks.reserve (twoTasks.table 0).entries = [⟨1, 10⟩, ⟨1, 20⟩] := by
    decide
  rw [list]
  norm_num [hyperbolic, Load.utilization]

end Rtes.Reservation
