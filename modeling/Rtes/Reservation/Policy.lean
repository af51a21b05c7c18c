import Rtes.Choice.First
import Rtes.Reservation.Runs

/-!
# The partition policies

With `cpuid = -1` the CPU is chosen by a loop that tries the open CPUs in the
order of the policy and falls back to the first closed one.  A refused attempt
leaves the list of a CPU as it was, so the loop decides by what `try_bind` would
return on the table as it is.  The chosen CPU is the one the policy prescribes;
but a task may be refused although one of the CPUs that are not tried would take
it.
-/

namespace Rtes.Reservation

open Rtes.Choice Rtes.Transition Rtes.Word

variable {reserve : Tid → Reserve} {table now table' : Table} {t : Tid} {cpu : Cpu} {retval : ℤ}

/-! ## Verdicts -/

/-- What `try_bind` would return for a CPU of the table. -/
def Verdict (reserve : Tid → Reserve) (table : Table) (t : Tid) (cpu : Cpu) (retval : ℤ) : Prop :=
  ∃ bin', tryBind reserve (table cpu) t = .ok (retval, bin')

/-- `try_bind` would accept the task. -/
def Takes (reserve : Tid → Reserve) (table : Table) (t : Tid) (cpu : Cpu) : Prop :=
  Verdict reserve table t cpu 0

/-- `try_bind` would return `EBUSY`. -/
def Refuses (reserve : Tid → Reserve) (table : Table) (t : Tid) (cpu : Cpu) : Prop :=
  Verdict reserve table t cpu EBUSY

theorem Refuses.not_takes (refuses : Refuses reserve table t cpu) :
    ¬ Takes reserve table t cpu := by
  rintro ⟨_, takes⟩
  obtain ⟨_, busy⟩ := refuses
  rw [busy] at takes
  cases takes

theorem SameList.symm {bin bin' : CpuTable} (same : SameList bin bin') : SameList bin' bin :=
  ⟨same.entries.symm, same.length.symm, same.util.symm⟩

theorem Verdict.of_sameTable (same : SameTable table now)
    (verdict : Verdict reserve now t cpu retval) : Verdict reserve table t cpu retval :=
  tryBind_sameList (same cpu).toSameList.symm verdict

/-- Utilizations between zero and one. -/
def LoadsOk (table : Table) : Prop :=
  ∀ cpu, 0 ≤ (table cpu).cpuUtil ∧ (table cpu).cpuUtil ≤ utilMultiple

theorem LoadsOk.word (loads : LoadsOk table) (cpu : Cpu) :
    int32 (table cpu).cpuUtil = (table cpu).cpuUtil := by
  obtain ⟨low, high⟩ := loads cpu
  unfold utilMultiple at high
  exact int32_eq_self (by omega) (by omega)

/-- One attempt on a table that is still as at the start: the verdict is that of
the start, and a refusal leaves the table as it was. -/
theorem tryBind_verdict (loads : LoadsOk table) (same : SameTable table now)
    (returns : now.tryBind reserve t cpu = .ok (retval, table')) :
    Verdict reserve table t cpu retval ∧
      (retval ≠ 0 → retval = EBUSY ∧ SameTable table table') := by
  obtain ⟨bin', binds, rfl⟩ := Table.tryBind_eq_ok returns
  refine ⟨Verdict.of_sameTable same ⟨bin', binds⟩, ?_⟩
  intro nonzero
  have word : int32 (now cpu).cpuUtil = (now cpu).cpuUtil := by
    rw [(same cpu).util]
    exact loads.word cpu
  obtain ⟨busy, sameBin⟩ := Reservation.tryBind_refused word binds nonzero
  exact ⟨busy, same.trans (sameTable_update sameBin)⟩

/-! ## The loops -/

/-- What a placement loop comes to: the first eligible CPU that takes the task,
or the first one that is not eligible, or none. -/
inductive Placed (reserve : Tid → Reserve) (table : Table) (t : Tid) (eligible : Cpu → Bool)
    (order : List Cpu) : ℤ → Option Cpu → Prop
  | first {cpu : Cpu} :
      FirstIn order (fun cpu => eligible cpu = true ∧ Takes reserve table t cpu) cpu →
      Placed reserve table t eligible order 0 (some cpu)
  | fallback {retval : ℤ} {cpu : Cpu} :
      (∀ cpu ∈ order, eligible cpu = true → Refuses reserve table t cpu) →
      (order.find? fun cpu => !eligible cpu) = some cpu → Verdict reserve table t cpu retval →
      Placed reserve table t eligible order retval (some cpu)
  | none {retval : ℤ} :
      (∀ cpu ∈ order, eligible cpu = true → Refuses reserve table t cpu) →
      (order.find? fun cpu => !eligible cpu) = none →
      Placed reserve table t eligible order retval none

/-- The loop of the fit policies, from any point on: an open CPU takes the task,
or all refuse it and the first closed CPU decides. -/
private theorem fitLoop_cases {order : List Cpu} {closedBin cpuid : Option Cpu} {start : ℤ}
    (loads : LoadsOk table) (same : SameTable table now)
    (returns : fitLoop reserve t order closedBin start now = .ok (retval, cpuid, table')) :
    (∃ cpu, FirstIn order (fun cpu => (table cpu).cpuOpen = true ∧ Takes reserve table t cpu) cpu ∧
      retval = 0 ∧ cpuid = some cpu) ∨
    ((∀ cpu ∈ order, (table cpu).cpuOpen = true → Refuses reserve table t cpu) ∧
      cpuid = (closedBin <|> order.find? fun cpu => !(table cpu).cpuOpen) ∧
      ∀ cpu, cpuid = some cpu → Verdict reserve table t cpu retval) := by
  induction order generalizing closedBin start now with
  | nil =>
      right
      cases closedBin with
      | none =>
          cases returns
          exact ⟨by simp, rfl, by simp⟩
      | some closedBin =>
          obtain ⟨⟨value, middle⟩, binds, result⟩ := bind_eq_ok_iff.mp returns
          cases result
          refine ⟨by simp, rfl, ?_⟩
          intro cpu isChosen
          cases isChosen
          exact (tryBind_verdict loads same binds).1
  | cons cpu rest ih =>
      rw [fitLoop, (same cpu).cpuOpen] at returns
      split at returns
      · rename_i isOpen
        obtain ⟨⟨value, middle⟩, binds, result⟩ := bind_eq_ok_iff.mp returns
        obtain ⟨verdict, unchanged⟩ := tryBind_verdict loads same binds
        dsimp only at result
        split at result
        · rename_i zero
          cases result
          rw [zero] at verdict
          exact .inl ⟨cpu, firstIn_cons_of_pos ⟨isOpen, verdict⟩, rfl, rfl⟩
        · rename_i nonzero
          obtain ⟨rfl, same'⟩ := unchanged nonzero
          rcases ih same' result with ⟨chosen, first, outcome⟩ | ⟨refused, fallback, outcome⟩
          · exact .inl ⟨chosen, first.cons_of_neg fun takes => Refuses.not_takes verdict takes.2,
              outcome⟩
          · refine .inr ⟨List.forall_mem_cons.mpr ⟨fun _ => verdict, refused⟩, ?_, outcome⟩
            rw [fallback, List.find?_cons_of_neg (by simp [isOpen])]
      · rename_i isClosed
        rcases ih same returns with ⟨chosen, first, outcome⟩ | ⟨refused, fallback, outcome⟩
        · exact .inl ⟨chosen, first.cons_of_neg fun takes => isClosed takes.1, outcome⟩
        · refine .inr ⟨List.forall_mem_cons.mpr ⟨fun isOpen => absurd isOpen isClosed, refused⟩, ?_,
            outcome⟩
          rw [fallback, List.find?_cons_of_pos (by simpa using isClosed)]
          cases closedBin with
          | none => rfl
          | some closedBin => rfl

theorem fitLoop_placed {order : List Cpu} {cpuid : Option Cpu} {start : ℤ} (loads : LoadsOk table)
    (returns : fitLoop reserve t order none start table = .ok (retval, cpuid, table')) :
    Placed reserve table t (fun cpu => (table cpu).cpuOpen) order retval cpuid := by
  rcases fitLoop_cases loads (.refl table) returns with
    ⟨cpu, first, rfl, rfl⟩ | ⟨refused, fallback, outcome⟩
  · exact .first first
  · replace fallback : cpuid = order.find? fun cpu => !(table cpu).cpuOpen := fallback
    cases cpuid with
    | none => exact .none refused fallback.symm
    | some cpu => exact .fallback refused fallback.symm (outcome cpu rfl)

private theorem listLoop_placed {order : List Cpu} {cpuid : Option Cpu} {start : ℤ}
    (loads : LoadsOk table) (same : SameTable table now)
    (returns : listLoop reserve t order start now = .ok (retval, cpuid, table')) :
    Placed reserve table t (fun _ => true) order retval cpuid := by
  induction order generalizing start now with
  | nil =>
      cases returns
      exact .none (by simp) rfl
  | cons cpu rest ih =>
      obtain ⟨⟨value, middle⟩, binds, result⟩ := bind_eq_ok_iff.mp returns
      obtain ⟨verdict, unchanged⟩ := tryBind_verdict loads same binds
      dsimp only at result
      split at result
      · rename_i zero
        cases result
        rw [zero] at verdict
        exact .first (firstIn_cons_of_pos ⟨rfl, verdict⟩)
      · rename_i nonzero
        obtain ⟨rfl, same'⟩ := unchanged nonzero
        cases ih same' result with
        | first chosen =>
            exact .first (chosen.cons_of_neg fun takes => Refuses.not_takes verdict takes.2)
        | fallback _ finds => exact absurd (List.find?_some finds) (by simp)
        | none refused _ =>
            exact .none (List.forall_mem_cons.mpr ⟨fun _ => verdict, refused⟩) (by simp)

/-! ## Order of load -/

section Order

variable {util : Cpu → ℤ}

/-- All CPUs have the same load. -/
def Balanced (util : Cpu → ℤ) : Prop :=
  ∀ cpu, util cpu = util 0

theorem mem_allCpus (cpu : Cpu) : cpu ∈ allCpus := by
  revert cpu
  decide

private theorem maxCpu_spec (util : Cpu → ℤ) (cpus : List Cpu) (best : ℤ × Option Cpu) :
    best.1 ≤ (maxCpu util cpus best).1 ∧ (∀ cpu ∈ cpus, util cpu ≤ (maxCpu util cpus best).1) ∧
      (maxCpu util cpus best = best ∨ ∃ cpu, maxCpu util cpus best = (util cpu, some cpu)) := by
  induction cpus generalizing best with
  | nil => exact ⟨le_rfl, by simp, .inl rfl⟩
  | cons cpu rest ih =>
      rw [maxCpu]
      split_ifs with more
      · obtain ⟨above, bound, outcome⟩ := ih (util cpu, some cpu)
        refine ⟨more.le.trans above, List.forall_mem_cons.mpr ⟨above, bound⟩, .inr ?_⟩
        rcases outcome with same | other
        · exact ⟨cpu, same⟩
        · exact other
      · obtain ⟨above, bound, outcome⟩ := ih best
        exact ⟨above, List.forall_mem_cons.mpr ⟨(not_lt.mp more).trans above, bound⟩, outcome⟩

/-- The scan keeps its start or ends with the first CPU of least load. -/
theorem minCpu_spec (util : Cpu → ℤ) (cpus : List Cpu) (best : ℤ × Option Cpu) :
    (minCpu util cpus best = best ∧ ∀ cpu ∈ cpus, best.1 ≤ util cpu) ∨
      ∃ least, minCpu util cpus best = (util least, some least) ∧ util least < best.1 ∧
        (∀ cpu ∈ cpus, util least ≤ util cpu) ∧
        FirstIn cpus (fun cpu => util cpu ≤ util least) least := by
  induction cpus generalizing best with
  | nil => exact .inl ⟨rfl, by simp⟩
  | cons cpu rest ih =>
      rw [minCpu]
      split_ifs with less
      · right
        rcases ih (util cpu, some cpu) with ⟨same, bound⟩ | ⟨least, same, below, bound, first⟩
        · exact ⟨cpu, same, less, List.forall_mem_cons.mpr ⟨le_rfl, bound⟩,
            firstIn_cons_of_pos le_rfl⟩
        · exact ⟨least, same, below.trans less, List.forall_mem_cons.mpr ⟨below.le, bound⟩,
            first.cons_of_neg (not_le.mpr below)⟩
      · have more := not_lt.mp less
        rcases ih best with ⟨same, bound⟩ | ⟨least, same, below, bound, first⟩
        · exact .inl ⟨same, List.forall_mem_cons.mpr ⟨more, bound⟩⟩
        · have above := below.trans_le more
          exact .inr ⟨least, same, below, List.forall_mem_cons.mpr ⟨above.le, bound⟩,
            first.cons_of_neg (not_le.mpr above)⟩

/-- The second loop finds the other two CPUs, in the order of their numbers. -/
theorem middleCpus_spec : ∀ maxID minID : Cpu, maxID ≠ minID →
    ∃ a b, middleCpus maxID minID allCpus (none, none) = (some a, some b) ∧ a < b ∧
      ∀ cpu, cpu = maxID ∨ cpu = minID ∨ cpu = a ∨ cpu = b := by
  decide

/-- With equal loads CPU 0 is sorted twice and CPU 2 not at all. -/
theorem sortCPU_balanced (range : ∀ cpu, 0 ≤ util cpu ∧ util cpu ≤ utilMultiple)
    (balanced : Balanced util) (asced : Bool) :
    sortCPU asced util = .ok (if asced then [0, 1, 3, 0] else [0, 3, 1, 0]) := by
  have constant : util = fun _ => util 0 := funext balanced
  obtain ⟨low, high⟩ := range 0
  have above : -1 < util 0 := by omega
  have below : util 0 < utilMultiple + 1 := by omega
  rw [constant]
  simp [sortCPU, maxCpu, minCpu, allCpus, above, below, middleCpus]

/-- The CPUs in order of load, as `sortCPU` orders them: the last is a CPU of
greatest load, the first the lowest-numbered one of least load, and the two in
between are in the order of their numbers if their loads are equal. -/
structure ByLoad (util : Cpu → ℤ) (minID sedMin sedMax maxID : Cpu) : Prop where
  all : ∀ cpu, cpu = minID ∨ cpu = sedMin ∨ cpu = sedMax ∨ cpu = maxID
  low : util minID ≤ util sedMin
  middle : util sedMin ≤ util sedMax
  high : util sedMax ≤ util maxID
  spread : util minID < util maxID
  least : ∀ cpu, util cpu = util minID → minID ≤ cpu
  ties : util sedMin = util sedMax → sedMin < sedMax

/-- The scans find a CPU of greatest load, and the lowest-numbered one of least
load. -/
theorem exists_extremes (range : ∀ cpu, 0 ≤ util cpu ∧ util cpu ≤ utilMultiple) :
    ∃ maxID minID, maxCpu util allCpus (-1, none) = (util maxID, some maxID) ∧
      minCpu util allCpus (utilMultiple + 1, none) = (util minID, some minID) ∧
      (∀ cpu, util cpu ≤ util maxID) ∧ (∀ cpu, util minID ≤ util cpu) ∧
      ∀ cpu, util cpu = util minID → minID ≤ cpu := by
  obtain ⟨_, greatest, maxResult⟩ := maxCpu_spec util allCpus (-1, none)
  have scanned : maxCpu util allCpus (-1, none) ≠ (-1, none) := by
    intro none
    have first := greatest 0 (mem_allCpus 0)
    rw [none] at first
    exact absurd (range 0).1 (by omega)
  obtain ⟨maxID, isMax⟩ := maxResult.resolve_left scanned
  rw [isMax] at greatest
  rcases minCpu_spec util allCpus (utilMultiple + 1, none) with
    ⟨_, bound⟩ | ⟨minID, isMin, _, smallest, first⟩
  · exact absurd (bound 0 (mem_allCpus 0)) (by have high := (range 0).2; simp only; omega)
  · refine ⟨maxID, minID, isMax, isMin, fun cpu => greatest cpu (mem_allCpus cpu),
      fun cpu => smallest cpu (mem_allCpus cpu), ?_⟩
    intro cpu same
    have sorted : allCpus.Pairwise (· < ·) := by decide
    rcases first.precedes sorted (mem_allCpus cpu) same.le with rfl | lt
    · exact le_rfl
    · exact lt.le

private theorem spread_of_unbalanced {maxID minID : Cpu} (unbalanced : ¬ Balanced util)
    (greatest : ∀ cpu, util cpu ≤ util maxID) (smallest : ∀ cpu, util minID ≤ util cpu) :
    util minID < util maxID := by
  by_contra flat
  apply unbalanced
  intro cpu
  have above := greatest cpu
  have below := smallest cpu
  have above' := greatest 0
  have below' := smallest 0
  omega

theorem sortCPU_unbalanced (range : ∀ cpu, 0 ≤ util cpu ∧ util cpu ≤ utilMultiple)
    (unbalanced : ¬ Balanced util) (asced : Bool) :
    ∃ minID sedMin sedMax maxID, ByLoad util minID sedMin sedMax maxID ∧
      sortCPU asced util = .ok (if asced then [minID, sedMin, sedMax, maxID]
        else [maxID, sedMax, sedMin, minID]) := by
  obtain ⟨maxID, minID, isMax, isMin, greatest, smallest, least⟩ := exists_extremes range
  have spread := spread_of_unbalanced unbalanced greatest smallest
  have different : maxID ≠ minID := by
    rintro rfl
    exact lt_irrefl _ spread
  obtain ⟨a, b, middle, lt, all⟩ := middleCpus_spec maxID minID different
  have sorts : sortCPU asced util = .ok (
      let sed := if util b < util a then (a, b) else (b, a)
      if asced then [minID, sed.2, sed.1, maxID] else [maxID, sed.1, sed.2, minID]) := by
    simp only [sortCPU, isMax, isMin, middle]
  by_cases swapped : util b < util a
  · refine ⟨minID, b, a, maxID, ⟨?_, smallest b, swapped.le, greatest a, spread, least, ?_⟩, ?_⟩
    · intro cpu
      rcases all cpu with isMaxID | isMinID | isA | isB
      · exact .inr (.inr (.inr isMaxID))
      · exact .inl isMinID
      · exact .inr (.inr (.inl isA))
      · exact .inr (.inl isB)
    · intro same
      exact absurd same swapped.ne
    · rw [sorts]
      simp only [if_pos swapped]
  · refine ⟨minID, a, b, maxID, ⟨?_, smallest a, not_lt.mp swapped, greatest b, spread, least,
      fun _ => lt⟩, ?_⟩
    · intro cpu
      rcases all cpu with isMaxID | isMinID | isA | isB
      · exact .inr (.inr (.inr isMaxID))
      · exact .inl isMinID
      · exact .inr (.inl isA)
      · exact .inr (.inr (.inl isB))
    · rw [sorts]
      simp only [if_neg swapped]

section ByLoad

variable {minID sedMin sedMax maxID : Cpu} (byLoad : ByLoad util minID sedMin sedMax maxID)

include byLoad

theorem ByLoad.mem (cpu : Cpu) :
    cpu ∈ [minID, sedMin, sedMax, maxID] ∧ cpu ∈ [maxID, sedMax, sedMin, minID] := by
  have all := byLoad.all cpu
  simp only [List.mem_cons, List.not_mem_nil, or_false]
  tauto

theorem ByLoad.ascending : [minID, sedMin, sedMax, maxID].Pairwise fun a b => util a ≤ util b := by
  have low := byLoad.low
  have middle := byLoad.middle
  have high := byLoad.high
  simp only [List.pairwise_cons, List.mem_cons, List.not_mem_nil, or_false, forall_eq_or_imp,
    forall_eq, List.Pairwise.nil, and_true, IsEmpty.forall_iff, implies_true]
  omega

private theorem ByLoad.min_le (cpu : Cpu) : util minID ≤ util cpu := by
  rcases List.mem_cons.mp (byLoad.mem cpu).1 with rfl | behind
  · exact le_rfl
  · exact (List.pairwise_cons.mp byLoad.ascending).1 cpu behind

/-- Among the idle CPUs the order is by falling number. -/
theorem ByLoad.falling (nonneg : 0 ≤ util minID) :
    [maxID, sedMax, sedMin, minID].Pairwise fun a b => util a = 0 → util b = 0 → b ≤ a := by
  have spread := byLoad.spread
  have busy : util maxID ≠ 0 := by omega
  have least : ∀ a, util a = 0 → util minID = 0 → minID ≤ a :=
    fun a aIdle minIdle => byLoad.least a (aIdle.trans minIdle.symm)
  have ties : util sedMax = 0 → util sedMin = 0 → sedMin ≤ sedMax :=
    fun maxIdle minIdle => (byLoad.ties (minIdle.trans maxIdle.symm)).le
  simpa [busy] using ⟨⟨ties, least sedMax⟩, least sedMin⟩

end ByLoad

end Order

/-! ## The policies -/

/-- The CPUs in the order in which the loop of a policy goes over them. -/
def visitOrder (policy : PartitionPolicy) (last : Cpu) (util : Cpu → ℤ) :
    Except Fault (List Cpu) :=
  match policy with
  | .FFD => .ok allCpus
  | .NFD => .ok (cyclicFrom last)
  | .BFD => sortCPU false util
  | .WFD => sortCPU true util
  | .LST => sortCPU true util

/-- The CPUs tried in the loop itself: the open ones, or all of them. -/
def eligible (policy : PartitionPolicy) (table : Table) (cpu : Cpu) : Bool :=
  match policy with
  | .LST => true
  | _ => (table cpu).cpuOpen

private theorem place_placed {policy : PartitionPolicy} {last last' : Cpu} {cpuid : Option Cpu}
    (loads : LoadsOk table)
    (returns : place reserve policy last table t = .ok (retval, cpuid, last', table')) :
    ∃ order, visitOrder policy last (fun cpu => (table cpu).cpuUtil) = .ok order ∧
      Placed reserve table t (eligible policy table) order retval cpuid := by
  cases policy with
  | FFD =>
      obtain ⟨⟨value, chosen, middle⟩, loops, result⟩ := bind_eq_ok_iff.mp returns
      cases result
      exact ⟨_, rfl, fitLoop_placed loads loops⟩
  | NFD =>
      obtain ⟨⟨value, chosen, middle⟩, loops, result⟩ := bind_eq_ok_iff.mp returns
      cases result
      exact ⟨_, rfl, fitLoop_placed loads loops⟩
  | BFD =>
      obtain ⟨sortID, sorts, rest⟩ := bind_eq_ok_iff.mp returns
      obtain ⟨⟨value, chosen, middle⟩, loops, result⟩ := bind_eq_ok_iff.mp rest
      cases result
      exact ⟨sortID, sorts, fitLoop_placed loads loops⟩
  | WFD =>
      obtain ⟨sortID, sorts, rest⟩ := bind_eq_ok_iff.mp returns
      obtain ⟨⟨value, chosen, middle⟩, loops, result⟩ := bind_eq_ok_iff.mp rest
      cases result
      exact ⟨sortID, sorts, fitLoop_placed loads loops⟩
  | LST =>
      obtain ⟨sortID, sorts, rest⟩ := bind_eq_ok_iff.mp returns
      obtain ⟨⟨value, chosen, middle⟩, loops, result⟩ := bind_eq_ok_iff.mp rest
      cases result
      exact ⟨sortID, sorts, listLoop_placed loads (.refl table) loops⟩

private theorem cyclicFrom_sorted : ∀ last : Cpu,
    (cyclicFrom last).Pairwise fun a b => a - last < b - last := by
  decide

private theorem mem_cyclicFrom : ∀ last cpu : Cpu, cpu ∈ cyclicFrom last := by
  decide

/-- Every CPU is visited, except for CPU 2 when the loads are sorted and equal. -/
theorem mem_visitOrder {policy : PartitionPolicy} {last : Cpu} {util : Cpu → ℤ}
    {order : List Cpu} (range : ∀ cpu, 0 ≤ util cpu ∧ util cpu ≤ utilMultiple)
    (visits : visitOrder policy last util = .ok order) (cpu : Cpu) :
    cpu ∈ order ∨ Balanced util ∧ cpu = 2 ∧ policy ≠ .FFD ∧ policy ≠ .NFD := by
  have sorted : ∀ {asced : Bool}, sortCPU asced util = .ok order →
      cpu ∈ order ∨ Balanced util ∧ cpu = 2 := by
    intro asced sorts
    by_cases balanced : Balanced util
    · rw [sortCPU_balanced range balanced] at sorts
      cases sorts
      rcases eq_or_ne cpu 2 with isTwo | other
      · exact .inr ⟨balanced, isTwo⟩
      · have all : ∀ (asced : Bool) (cpu : Cpu), cpu ≠ 2 →
            cpu ∈ if asced then ([0, 1, 3, 0] : List Cpu) else [0, 3, 1, 0] := by
          decide
        exact .inl (all asced cpu other)
    · obtain ⟨minID, sedMin, sedMax, maxID, byLoad, returns⟩ :=
        sortCPU_unbalanced range balanced asced
      rw [returns] at sorts
      cases sorts
      left
      split
      · exact (byLoad.mem cpu).1
      · exact (byLoad.mem cpu).2
  cases policy with
  | FFD =>
      cases visits
      exact .inl (mem_allCpus cpu)
  | NFD =>
      cases visits
      exact .inl (mem_cyclicFrom last cpu)
  | BFD => exact (sorted visits).imp_right fun missed => ⟨missed.1, missed.2, by decide, by decide⟩
  | WFD => exact (sorted visits).imp_right fun missed => ⟨missed.1, missed.2, by decide, by decide⟩
  | LST => exact (sorted visits).imp_right fun missed => ⟨missed.1, missed.2, by decide, by decide⟩

/-- A bin is open exactly when it has utilization. -/
def OpenByLoad (table : Table) : Prop :=
  ∀ cpu, (table cpu).cpuOpen = true ↔ (table cpu).cpuUtil ≠ 0

/-- The tasks once `t` has got its new parameters. -/
def Kernel.withParams (s : Kernel) (t : Tid) (params : Params) : Tid → Reserve :=
  (s.modify t fun reserve => reserve.withParams params).reserve

section Choose

variable {policy : PartitionPolicy} {last last' : Cpu} {cpuid : Option Cpu} {order : List Cpu}

/-- If a closed CPU decides, no open CPU takes the task. -/
theorem Placed.fallback_closed (loads : LoadsOk table) (opens : OpenByLoad table)
    (visits : visitOrder policy last (fun cpu => (table cpu).cpuUtil) = .ok order)
    (refused : ∀ cpu ∈ order, eligible policy table cpu = true → Refuses reserve table t cpu)
    (finds : (order.find? fun cpu => !eligible policy table cpu) = some cpu) :
    (table cpu).cpuOpen = false ∧
      ∀ other, ¬ ((table other).cpuOpen = true ∧ Takes reserve table t other) := by
  have passed : eligible policy table cpu = false := by simpa using List.find?_some finds
  have fits : ∀ other, eligible policy table other = (table other).cpuOpen := by
    cases policy with
    | LST => exact absurd passed (by simp [eligible])
    | _ => exact fun _ => rfl
  have closed : (table cpu).cpuOpen = false := (fits cpu).symm.trans passed
  refine ⟨closed, ?_⟩
  rintro other ⟨isOpen, takes⟩
  rcases mem_visitOrder loads visits other with member | ⟨balanced, _⟩
  · exact (refused other member ((fits other).trans isOpen)).not_takes takes
  · have idle : (table cpu).cpuUtil = 0 := by
      by_contra busy
      simp [(opens cpu).mpr busy] at closed
    apply (opens other).mp isOpen
    exact (balanced other).trans ((balanced cpu).symm.trans idle)

/-- The CPU a policy prescribes: among the open CPUs that take the task the
first, the next from the pointer, one of greatest or one of least load, and for
list scheduling one of least load among all CPUs that take it. -/
def Prescribes (policy : PartitionPolicy) (last : Cpu) (util : Cpu → ℤ) (fits takes : Cpu → Prop)
    (cpu : Cpu) : Prop :=
  match policy with
  | .FFD => (∃ other, fits other) → Minimal fits cpu
  | .NFD => (∃ other, fits other) → MinimalFor fits (fun other => other - last) cpu
  | .BFD => (∃ other, fits other) → MaximalFor fits util cpu
  | .WFD => (∃ other, fits other) → MinimalFor fits util cpu
  | .LST => MinimalFor takes util cpu

/-- The first CPU in an order of load that qualifies is one of least or of
greatest load, equal loads included. -/
theorem FirstIn.extreme {util : Cpu → ℤ} {qualifies : Cpu → Prop} (asced : Bool)
    (range : ∀ cpu, 0 ≤ util cpu ∧ util cpu ≤ utilMultiple)
    (sorts : sortCPU asced util = .ok order) (first : FirstIn order qualifies cpu) :
    if asced then MinimalFor qualifies util cpu else MaximalFor qualifies util cpu := by
  by_cases balanced : Balanced util
  · have same : ∀ other, util other = util cpu :=
      fun other => (balanced other).trans (balanced cpu).symm
    split
    · exact ⟨first.1, fun other _ _ => (same other).ge⟩
    · exact ⟨first.1, fun other _ _ => (same other).le⟩
  · obtain ⟨minID, sedMin, sedMax, maxID, byLoad, returns⟩ :=
      sortCPU_unbalanced range balanced asced
    rw [returns] at sorts
    cases sorts
    cases asced with
    | true =>
        exact first.minimalFor byLoad.ascending fun other _ => (byLoad.mem other).1
    | false =>
        have descending : [maxID, sedMax, sedMin, minID].Pairwise fun a b => util b ≤ util a := by
          rw [← List.pairwise_reverse]
          exact byLoad.ascending
        exact first.maximalFor descending fun other _ => (byLoad.mem other).2

/-- What the loops choose is what the policy prescribes; with no open CPU to
take the task it is a closed one. -/
theorem Placed.prescribed (loads : LoadsOk table) (opens : OpenByLoad table)
    (visits : visitOrder policy last (fun cpu => (table cpu).cpuUtil) = .ok order)
    (placed : Placed reserve table t (eligible policy table) order 0 (some cpu)) :
    Prescribes policy last (fun cpu => (table cpu).cpuUtil)
        (fun cpu => (table cpu).cpuOpen = true ∧ Takes reserve table t cpu)
        (Takes reserve table t) cpu ∧
      ((¬ ∃ other, (table other).cpuOpen = true ∧ Takes reserve table t other) →
        (table cpu).cpuOpen = false) := by
  cases placed with
  | fallback refused finds verdict =>
      obtain ⟨closed, none⟩ := Placed.fallback_closed loads opens visits refused finds
      refine ⟨?_, fun _ => closed⟩
      cases policy with
      | LST => exact absurd (List.find?_some finds) (by simp [eligible])
      | _ => exact fun ⟨other, fits⟩ => absurd fits (none other)
  | first chosen =>
      refine ⟨?_, ?_⟩
      · cases policy with
        | FFD =>
            intro _
            cases visits
            have sorted : allCpus.Pairwise (· ≤ ·) := by decide
            refine ⟨chosen.1, ?_⟩
            intro other fits _
            rcases chosen.precedes sorted (mem_allCpus other) fits with rfl | le
            · exact le_rfl
            · exact le
        | NFD =>
            intro _
            cases visits
            exact chosen.minimalFor ((cyclicFrom_sorted last).imp le_of_lt)
              fun other _ => mem_cyclicFrom last other
        | BFD => exact fun _ => FirstIn.extreme false loads visits chosen
        | WFD => exact fun _ => FirstIn.extreme true loads visits chosen
        | LST =>
            have minimal := FirstIn.extreme true loads visits chosen
            exact ⟨minimal.1.2, fun other takes => minimal.2 ⟨rfl, takes⟩⟩
      · intro none
        by_contra isOpen
        exact none ⟨cpu, by simpa using isOpen, chosen.1.2⟩

/-- Placing a task without a reservation runs the loop of the policy. -/
theorem assign_placed {s s' : Kernel} {params : Params} (loads : LoadsOk s.table)
    (flag : (s.reserve t).flag = false)
    (returns : s.assign t params (cpuOf (-1)) = .ok (retval, cpuid, s')) :
    ∃ order, visitOrder s.partitionPolicy s.lastCpuIDCreate (fun cpu => (s.table cpu).cpuUtil) =
        .ok order ∧
      Placed (s.withParams t params) s.table t (eligible s.partitionPolicy s.table) order retval
        cpuid := by
  rw [Kernel.assign, if_neg (by simp [flag])] at returns
  obtain ⟨⟨value, chosen, last, table⟩, places, result⟩ := bind_eq_ok_iff.mp returns
  cases result
  exact place_placed loads places

/-- Automatic placement follows its policy: a new task that `set_reserve` accepts
is on the CPU the policy prescribes, and on a closed one if no open CPU takes
it. -/
theorem setReserve_prescribed {s s' : Kernel} {srv : Services} {C T : Timespec} {params : Params}
    (loads : LoadsOk s.table) (opens : OpenByLoad s.table) (flag : (s.reserve t).flag = false)
    (converts : paramsOf C T = .ok params)
    (returns : s.setReserve srv t (some C) (some T) (-1) = .ok (0, s')) :
    Prescribes s.partitionPolicy s.lastCpuIDCreate (fun cpu => (s.table cpu).cpuUtil)
        (fun cpu => (s.table cpu).cpuOpen = true ∧ Takes (s.withParams t params) s.table t cpu)
        (Takes (s.withParams t params) s.table t) (s'.reserve t).cpu ∧
      ((¬ ∃ cpu, (s.table cpu).cpuOpen = true ∧ Takes (s.withParams t params) s.table t cpu) →
        (s.table (s'.reserve t).cpu).cpuOpen = false) := by
  rcases setReserve_cases returns with
    ⟨nonzero, _⟩ | ⟨C', T', params', value, chosen, placed, checked, converts', places, finish⟩
  · exact absurd rfl nonzero
  · cases checked.budget
    cases checked.period
    obtain rfl : params = params' := Except.ok.inj (converts.symm.trans converts')
    obtain ⟨nonzero, zero, _⟩ | ⟨cpu, rfl, rfl, continues⟩ := finish
    · exact absurd zero.symm nonzero
    · obtain ⟨order, visits, choice⟩ := assign_placed loads flag places
      have own : (s'.reserve t).cpu = cpu :=
        congrArg Holding.cpu (afterBind_zero continues).2.holding
      rw [own]
      exact choice.prescribed loads opens visits

/-- A third task next to the two on CPU 0. -/
theorem setReserve_prescribed_third :
    ∃ s', twoTasks.setReserve .succeed 3 (some ⟨0, 1000000⟩) (some ⟨0, 40000000⟩) (-1) =
        .ok (0, s') ∧
      Prescribes .NFD 0 (fun cpu => (twoTasks.table cpu).cpuUtil)
        (fun cpu => (twoTasks.table cpu).cpuOpen = true ∧
          Takes (twoTasks.withParams 3 ⟨40, 1, 250⟩) twoTasks.table 3 cpu)
        (Takes (twoTasks.withParams 3 ⟨40, 1, 250⟩) twoTasks.table 3) (s'.reserve 3).cpu := by
  have converts : paramsOf ⟨0, 1000000⟩ ⟨0, 40000000⟩ = .ok ⟨40, 1, 250⟩ := rfl
  obtain ⟨s', returns⟩ : ∃ s', twoTasks.setReserve .succeed 3 (some ⟨0, 1000000⟩)
      (some ⟨0, 40000000⟩) (-1) = .ok (0, s') := ⟨_, rfl⟩
  exact ⟨s', returns, (setReserve_prescribed (by unfold LoadsOk; decide)
    (by unfold OpenByLoad; decide) (by decide) converts returns).1⟩

/-- The CPUs that are not tried: the closed ones behind the first closed one,
and CPU 2 when the loads are sorted and all equal. -/
def Untried (policy : PartitionPolicy) (last : Cpu) (table : Table) (cpu : Cpu) : Prop :=
  match policy with
  | .FFD => (table cpu).cpuOpen = false ∧ ∃ other < cpu, (table other).cpuOpen = false
  | .NFD => (table cpu).cpuOpen = false ∧
      ∃ other, other - last < cpu - last ∧ (table other).cpuOpen = false
  | .BFD => (Balanced fun cpu => (table cpu).cpuUtil) ∧
        (cpu = 2 ∨ (table cpu).cpuOpen = false ∧ cpu ≠ 0) ∨
      (¬ Balanced fun cpu => (table cpu).cpuUtil) ∧
        (table cpu).cpuOpen = false ∧ ∃ other > cpu, (table other).cpuOpen = false
  | .WFD => (Balanced fun cpu => (table cpu).cpuUtil) ∧ cpu = 2 ∨
      (table cpu).cpuOpen = false ∧ ∃ other < cpu, (table other).cpuOpen = false
  | .LST => (Balanced fun cpu => (table cpu).cpuUtil) ∧ cpu = 2

private theorem eq_head_of_find? {test : Cpu → Bool} {head first : Cpu} {rest : List Cpu}
    (holds : test head = true) (finds : (head :: rest).find? test = some first) : first = head := by
  rw [List.find?_cons_of_pos holds] at finds
  exact (Option.some.inj finds).symm

/-- On balanced CPUs one is closed only if CPU 0 is, which both sorts put first. -/
private theorem eq_zero_of_balanced {first : Cpu} {asced : Bool} (loads : LoadsOk table)
    (opens : OpenByLoad table) (balanced : Balanced fun cpu => (table cpu).cpuUtil)
    (sorts : sortCPU asced (fun cpu => (table cpu).cpuUtil) = .ok order)
    (finds : (order.find? fun cpu => !(table cpu).cpuOpen) = some first) :
    first = 0 ∧ (table 0).cpuOpen = false := by
  have closed : (table first).cpuOpen = false := by simpa using List.find?_some finds
  have zero : (table 0).cpuOpen = false := by
    rw [← Bool.not_eq_true, opens, not_not] at closed ⊢
    exact (balanced first).symm.trans closed
  rw [sortCPU_balanced loads balanced] at sorts
  refine ⟨?_, zero⟩
  cases asced with
  | true =>
      cases sorts
      exact eq_head_of_find? (by simp [zero]) finds
  | false =>
      cases sorts
      exact eq_head_of_find? (by simp [zero]) finds

/-- A closed CPU other than the one that is tried is not tried. -/
theorem untried_of_closed {first : Cpu} (loads : LoadsOk table) (opens : OpenByLoad table)
    (visits : visitOrder policy last (fun cpu => (table cpu).cpuUtil) = .ok order)
    (finds : (order.find? fun cpu => !eligible policy table cpu) = some first)
    (member : cpu ∈ order) (closed : eligible policy table cpu = false) (different : cpu ≠ first) :
    Untried policy last table cpu := by
  have idle_iff : ∀ other, (table other).cpuOpen = false ↔ (table other).cpuUtil = 0 := by
    intro other
    rw [← not_iff_not, Bool.not_eq_false]
    exact opens other
  have isFirst := firstIn_of_find? finds
  cases policy with
  | FFD =>
      cases visits
      have sorted : allCpus.Pairwise (· < ·) := by decide
      have less := (isFirst.precedes sorted member (by simpa using closed)).resolve_left different
      exact ⟨closed, first, less, by simpa [eligible] using isFirst.1⟩
  | NFD =>
      cases visits
      have less := (isFirst.precedes (cyclicFrom_sorted last) member
        (by simpa using closed)).resolve_left different
      exact ⟨closed, first, less, by simpa [eligible] using isFirst.1⟩
  | BFD =>
      have firstIdle : (table first).cpuUtil = 0 :=
        (idle_iff first).mp (by simpa [eligible] using isFirst.1)
      by_cases balanced : Balanced fun cpu => (table cpu).cpuUtil
      · obtain ⟨rfl, zero⟩ := eq_zero_of_balanced loads opens balanced visits finds
        exact .inl ⟨balanced, .inr ⟨closed, different⟩⟩
      · obtain ⟨minID, sedMin, sedMax, maxID, byLoad, sorts⟩ :=
          sortCPU_unbalanced loads balanced false
        rw [visitOrder, sorts] at visits
        cases visits
        have le := (isFirst.precedes (byLoad.falling (loads minID).1) member
          (by simpa using closed)).resolve_left different firstIdle ((idle_iff cpu).mp closed)
        exact .inr ⟨balanced, closed, first, lt_of_le_of_ne le different,
          (idle_iff first).mpr firstIdle⟩
  | WFD =>
      have firstIdle : (table first).cpuUtil = 0 :=
        (idle_iff first).mp (by simpa [eligible] using isFirst.1)
      by_cases balanced : Balanced fun cpu => (table cpu).cpuUtil
      · obtain ⟨rfl, zero⟩ := eq_zero_of_balanced loads opens balanced visits finds
        exact .inr ⟨closed, 0, Fin.pos_iff_ne_zero.mpr different, zero⟩
      · obtain ⟨minID, sedMin, sedMax, maxID, byLoad, sorts⟩ :=
          sortCPU_unbalanced loads balanced true
        rw [visitOrder, sorts] at visits
        cases visits
        have minIdle : (table minID).cpuUtil = 0 :=
          le_antisymm ((byLoad.min_le first).trans firstIdle.le) (loads minID).1
        have minClosed := (idle_iff minID).mpr minIdle
        obtain rfl := eq_head_of_find? (by simp [eligible, minClosed]) finds
        have le := byLoad.least cpu (((idle_iff cpu).mp closed).trans minIdle.symm)
        exact .inr ⟨closed, first, lt_of_le_of_ne le different.symm, minClosed⟩
  | LST => exact absurd closed (by simp [eligible])

private theorem untried_of_not_mem (loads : LoadsOk table)
    (visits : visitOrder policy last (fun cpu => (table cpu).cpuUtil) = .ok order)
    (missing : cpu ∉ order) : Untried policy last table cpu := by
  obtain ⟨balanced, isTwo, notFFD, notNFD⟩ :=
    (mem_visitOrder loads visits cpu).resolve_left missing
  cases policy with
  | FFD => exact absurd rfl notFFD
  | NFD => exact absurd rfl notNFD
  | BFD => exact .inl ⟨balanced, .inl isTwo⟩
  | WFD => exact .inl ⟨balanced, isTwo⟩
  | LST => exact ⟨balanced, isTwo⟩

/-- Automatic placement is complete exactly when the CPUs it does not try refuse
the task as well. -/
theorem assign_busy_refuses_iff {s s' : Kernel} {params : Params} (loads : LoadsOk s.table)
    (opens : OpenByLoad s.table) (flag : (s.reserve t).flag = false)
    (busy : s.assign t params (cpuOf (-1)) = .ok (EBUSY, cpuid, s')) :
    (∀ cpu, Refuses (s.withParams t params) s.table t cpu) ↔
      ∀ cpu, Untried s.partitionPolicy s.lastCpuIDCreate s.table cpu →
        Refuses (s.withParams t params) s.table t cpu := by
  constructor
  · intro refuses cpu _
    exact refuses cpu
  · intro untried cpu
    obtain ⟨order, visits, placed⟩ := assign_placed loads flag busy
    by_cases member : cpu ∈ order
    · cases placed with
      | fallback refused finds verdict =>
          rename_i first
          rcases eq_or_ne cpu first with rfl | different
          · exact verdict
          · cases tried : eligible s.partitionPolicy s.table cpu with
            | true => exact refused cpu member tried
            | false =>
                exact untried cpu
                  (untried_of_closed loads opens visits finds member tried different)
      | none refused finds =>
          have tried := List.find?_eq_none.mp finds cpu member
          exact refused cpu member (by simpa using tried)
    · exact untried cpu (untried_of_not_mem loads visits member)

theorem assign_busy_refuses_iff_oversized :
    (∀ cpu, Refuses (twoTasks.withParams 3 ⟨10, 20, 20000⟩) twoTasks.table 3 cpu) ↔
      ∀ cpu, Untried .NFD 0 twoTasks.table cpu →
        Refuses (twoTasks.withParams 3 ⟨10, 20, 20000⟩) twoTasks.table 3 cpu :=
  assign_busy_refuses_iff (s := twoTasks) (by unfold LoadsOk; decide)
    (by unfold OpenByLoad; decide) (by decide) rfl

/-- As long as closed CPUs are empty and sorted loads differ, a refusal is final:
all empty CPUs come to the same verdict. -/
theorem assign_busy_refuses {s s' : Kernel} {params : Params} (loads : LoadsOk s.table)
    (opens : OpenByLoad s.table) (flag : (s.reserve t).flag = false)
    (empty : ∀ cpu, (s.table cpu).cpuOpen = false → (s.table cpu).cpuTasksLength = 0)
    (spread : (Balanced fun cpu => (s.table cpu).cpuUtil) →
      s.partitionPolicy = .FFD ∨ s.partitionPolicy = .NFD)
    (busy : s.assign t params (cpuOf (-1)) = .ok (EBUSY, cpuid, s')) (cpu : Cpu) :
    Refuses (s.withParams t params) s.table t cpu := by
  obtain ⟨order, visits, placed⟩ := assign_placed loads flag busy
  have member : cpu ∈ order := by
    by_contra missing
    obtain ⟨balanced, _, notFFD, notNFD⟩ :=
      (mem_visitOrder loads visits cpu).resolve_left missing
    exact (spread balanced).elim notFFD notNFD
  cases placed with
  | none refused finds =>
      have tried := List.find?_eq_none.mp finds cpu member
      exact refused cpu member (by simpa using tried)
  | fallback refused finds verdict =>
      rename_i first
      obtain ⟨firstClosed, _⟩ := Placed.fallback_closed loads opens visits refused finds
      cases isOpen : (s.table cpu).cpuOpen with
      | true =>
          apply refused cpu member
          cases policy : s.partitionPolicy with
          | LST => rfl
          | _ => exact isOpen
      | false =>
          have idle : ∀ other, (s.table other).cpuOpen = false → (s.table other).cpuUtil = 0 := by
            intro other closed
            by_contra load
            simp [(opens other).mpr load] at closed
          have same : SameList (s.table first) (s.table cpu) := by
            refine ⟨?_, ?_, ?_⟩
            · simp [CpuTable.entries, empty cpu isOpen, empty first firstClosed]
            · rw [empty cpu isOpen, empty first firstClosed]
            · rw [idle cpu isOpen, idle first firstClosed]
          exact tryBind_sameList same verdict

/-- A millisecond a minute on CPU 0, which has no utilization and stays closed. -/
def minuteTask : Kernel :=
  after step .bare (.setReserve .succeed 1 (some ⟨0, 1000000⟩) (some ⟨60, 0⟩) 0)

/-- A task that needs a whole CPU is refused by the closed CPU 0, and the empty
CPU 1 is not tried. -/
theorem assign_busy_not_refuses : Reaches step TableCall Boot minuteTask ∧
    LoadsOk minuteTask.table ∧ OpenByLoad minuteTask.table ∧ (minuteTask.reserve 2).flag = false ∧
    (∃ cpuid s', minuteTask.assign 2 ⟨60000, 60000, 10000⟩ (cpuOf (-1)) = .ok (EBUSY, cpuid, s')) ∧
    ¬ ∀ cpu, Refuses (minuteTask.withParams 2 ⟨60000, 60000, 10000⟩) minuteTask.table 2 cpu := by
  refine ⟨?_, by unfold LoadsOk; decide, by unfold OpenByLoad; decide, by decide, ⟨_, _, rfl⟩, ?_⟩
  · apply Reaches.after
    · exact .start boot_bare
    · refine ⟨rfl, allSucceed_succeed, ?_, by decide⟩
      intro C budget T period
      cases budget
      cases period
      exact ⟨by decide, by decide, by decide⟩
    · decide
  · intro refuses
    exact (refuses 1).not_takes ⟨_, rfl⟩

end Choose

end Rtes.Reservation
