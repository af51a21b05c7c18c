import Rtes.RateMonotonic.Hybrid
import Rtes.Reservation.TryBind

/-!
# The admission test computes the hybrid test

On nonnegative budgets and positive periods whose demand fits a 32-bit `int`,
the response-time loop of `try_bind` ends with the least fixed point of the
demand function, the bound scan with the longest passing prefix, and the whole
admission test decides the abstract hybrid test.
-/

namespace Rtes.Reservation

open Rtes.RateMonotonic Rtes.Slots Rtes.Transition Rtes.Word

/-! ## Agreement of an array with a list of loads -/

/-- The budgets and periods of an array agree with a list of loads. -/
structure Agrees (budget period : ℕ → ℤ) (loads : List Load) : Prop where
  budget : ∀ k (lt : k < loads.length), budget k = (loads[k].budget : ℤ)
  period : ∀ k (lt : k < loads.length), period k = (loads[k].period : ℤ)

/-- Everything the response-time test of load `j` computes fits an `int`: the
periods are positive and the demand over the deadline is in range. -/
structure FitsInt (loads : List Load) (j : ℕ) (lt : j < loads.length) : Prop where
  periods : ∀ load ∈ loads, 1 ≤ load.period
  deadline : loads[j].period < 2147483648
  demand : loads[j].budget + demand (loads.take j) loads[j].period < 2147483648

/-- The quotient and the correction for a remainder round up. -/
theorem tdiv_add_eq_ceilDiv {x period : ℕ} (positive : 1 ≤ period) :
    (x : ℤ).tdiv period + (if (x : ℤ).tmod period = 0 then 0 else 1) =
      ((x ⌈/⌉ period : ℕ) : ℤ) := by
  rw [ceilDiv_eq_div_add x period positive, Int.tdiv_eq_ediv_of_nonneg (by omega),
    Int.tmod_eq_emod_of_nonneg (by omega)]
  norm_cast

theorem appearance_eq {x period : ℕ} (positive : 1 ≤ period) (small : x < 2147483648) :
    appearance x period = .ok ((x ⌈/⌉ period : ℕ) : ℤ) := by
  have nonzero : (period : ℤ) ≠ 0 := by omega
  have count := ceilDiv_le_self x period positive
  rw [appearance, if_neg nonzero, tdiv_add_eq_ceilDiv positive,
    int32_eq_self (by omega) (by omega)]

section Response

variable {budget period : ℕ → ℤ} {loads : List Load} {j : ℕ} {lt : j < loads.length}

private theorem take_demand_le (k : ℕ) (le : k ≤ j) (x : ℕ) :
    demand (loads.take k) x ≤ demand (loads.take j) x :=
  demand_le_of_subperm (List.take_prefix_take_left le).sublist.subperm x

/-- What the tasks seen so far ask for fits an `int`, up to the deadline. -/
theorem demand_lt_of_fits (fits : FitsInt loads j lt) {x : ℕ} (within : x ≤ loads[j].period)
    {k : ℕ} (le : k ≤ j) : loads[j].budget + demand (loads.take k) x < 2147483648 := by
  have more : demand (loads.take k) x ≤ demand (loads.take j) x := take_demand_le k le x
  have later := demand_mono (loads.take j) within
  have whole := fits.demand
  omega

/-- One pass of the inner loop adds the demand of the tasks seen so far. -/
theorem currBudget_eq (agrees : Agrees budget period loads) (fits : FitsInt loads j lt) {x : ℕ}
    (within : x ≤ loads[j].period) (k : ℕ) (le : k ≤ j) :
    currBudget budget period x j k =
      .ok ((loads[j].budget + demand (loads.take k) x : ℕ) : ℤ) := by
  induction k with
  | zero => simp [currBudget, agrees.budget j lt]
  | succ k ih =>
      have kLt : k < loads.length := by omega
      have deadline := fits.deadline
      have periodPos : 1 ≤ loads[k].period := fits.periods _ (List.getElem_mem kLt)
      have small := demand_lt_of_fits fits within le
      rw [demand_take_succ loads kLt] at small ⊢
      rw [currBudget, ih (by omega), agrees.period k kLt, agrees.budget k kLt,
        appearance_eq periodPos (by omega)]
      simp only [ok_bind]
      rw [← Nat.cast_mul, int32_natCast (by omega), ← Nat.cast_add, int32_natCast (by omega),
        Nat.add_assoc]

theorem sum_take_budget (k : ℕ) (kLt : k < loads.length) :
    ((loads.take (k + 1)).map Load.budget).sum =
      ((loads.take k).map Load.budget).sum + loads[k].budget := by
  rw [← List.take_concat_get' loads k kLt, List.map_append, List.sum_append]
  rfl

/-- The budgets of all tasks up to `j` fit as well: each of them is released
before the deadline. -/
theorem sum_budget_small (fits : FitsInt loads j lt) (k : ℕ) (le : k ≤ j + 1) :
    ((loads.take k).map Load.budget).sum < 2147483648 := by
  have early : ∀ load ∈ loads.take j, 1 ≤ load.period := fun load member =>
    fits.periods load (List.mem_of_mem_take member)
  have released := budget_sum_le_demand early (fits.periods _ (List.getElem_mem lt))
  have part : ((loads.take k).map Load.budget).sum ≤ ((loads.take (j + 1)).map Load.budget).sum :=
    ((List.take_prefix_take_left le).sublist.map _).sum_le_sum (fun _ _ => Nat.zero_le _)
  rw [sum_take_budget j lt] at part
  have whole := fits.demand
  omega

theorem budgetSum_eq (agrees : Agrees budget period loads) (fits : FitsInt loads j lt)
    (k : ℕ) (le : k ≤ j + 1) :
    budgetSum budget k = (((loads.take k).map Load.budget).sum : ℕ) := by
  induction k with
  | zero => simp [budgetSum]
  | succ k ih =>
      have kLt : k < loads.length := by omega
      have small := sum_budget_small fits (k + 1) le
      rw [sum_take_budget k kLt] at small ⊢
      rw [budgetSum, ih (by omega), agrees.budget k kLt, ← Nat.cast_add, int32_natCast small]

/-- The `while` loop of the source iterates the demand function. -/
theorem responseLoop_eq (agrees : Agrees budget period loads) (fits : FitsInt loads j lt)
    (rounds prev curr : ℕ) :
    responseLoop budget period j rounds prev curr =
      match climb (fun x => loads[j].budget + demand (loads.take j) x) loads[j].period
        rounds prev curr with
      | none => .error .divergence
      | some result => .ok (result : ℤ) := by
  induction rounds generalizing prev curr with
  | zero => rfl
  | succ rounds ih =>
      rw [responseLoop, climb, agrees.period j lt]
      by_cases going : curr ≤ loads[j].period ∧ curr ≠ prev
      · have goingInt : (curr : ℤ) ≤ (loads[j].period : ℤ) ∧ (curr : ℤ) ≠ prev :=
          ⟨by exact_mod_cast going.1, by exact_mod_cast going.2⟩
        rw [if_pos going, if_pos goingInt, currBudget_eq agrees fits going.1 j le_rfl]
        exact ih curr _
      · have stopped : ¬ ((curr : ℤ) ≤ (loads[j].period : ℤ) ∧ (curr : ℤ) ≠ prev) := by
          intro goingInt
          exact going ⟨by exact_mod_cast goingInt.1, by exact_mod_cast goingInt.2⟩
        rw [if_neg going, if_neg stopped]

/-- The response-time loop ends; its result is below every closed point of the
demand function, and is a fixed point when it is within the period. -/
theorem responseTime_spec (agrees : Agrees budget period loads) (fits : FitsInt loads j lt) :
    ∃ result : ℕ, responseTime budget period j = .ok (result : ℤ) ∧
      (∀ y, loads[j].budget + demand (loads.take j) y ≤ y → result ≤ y) ∧
      (result ≤ loads[j].period →
        loads[j].budget + demand (loads.take j) result = result) := by
  have start : ((loads.take (j + 1)).map Load.budget).sum = 0 →
      loads[j].budget + demand (loads.take j) 0 = 0 := by
    rw [sum_take_budget j lt, demand_zero]
    omega
  have enough : loads[j].period + 3 ≤ loopRounds := by
    have deadline := fits.deadline
    unfold loopRounds
    omega
  obtain ⟨result, climbs, least, fixed⟩ :=
    climb_from_zero (response_mono (loads.take j) loads[j]) start enough
  refine ⟨result, ?_, least, fixed⟩
  rw [responseTime, budgetSum_eq agrees fits (j + 1) le_rfl]
  have refined := responseLoop_eq agrees fits loopRounds
    ((loads.take (j + 1)).map Load.budget).sum 0
  rw [climbs] at refined
  exact refined

/-- The response-time test accepts a task exactly when it meets its deadline
below the tasks before it. -/
theorem responseTime_accepts_iff (agrees : Agrees budget period loads) (fits : FitsInt loads j lt)
    (positive : 1 ≤ loads[j].budget) :
    ∃ result : ℕ, responseTime budget period j = .ok (result : ℤ) ∧
      ((result : ℤ) ≤ period j ↔ Meets (loads.take j) loads[j]) := by
  obtain ⟨result, returns, least, fixed⟩ := responseTime_spec agrees fits
  refine ⟨result, returns, ?_⟩
  rw [agrees.period j lt, Nat.cast_le, meets_iff_closed positive]
  constructor
  · intro within
    exact ⟨result, within, (fixed within).le⟩
  · rintro ⟨y, within, closed⟩
    exact (least y closed).trans within

end Response

/-! ## The bound scan -/

/-- Utilization of a load in parts of ten thousand, rounded down. -/
def share (load : Load) : ℕ :=
  load.budget * 10000 / load.period

/-- The bound on the utilization of `i` tasks, as a natural number. -/
def shareBound (i : ℕ) : ℕ :=
  (boundOf i).toNat

private theorem boundOf_nonneg (i : ℕ) : 0 ≤ boundOf i := by
  have table : ∀ i < 21, 0 ≤ utilBound.getD i 0 := by decide
  unfold boundOf
  split
  · rename_i inTable
    exact table i (Nat.lt_succ_of_le inTable)
  · decide

private theorem shareBound_cast (i : ℕ) : (shareBound i : ℤ) = boundOf i :=
  Int.toNat_of_nonneg (boundOf_nonneg i)

/-- Longer prefixes have smaller bounds, the empty one apart. -/
theorem shareBound_antitone (m i : ℕ) (positive : 1 ≤ m) (le : m ≤ i) :
    shareBound i ≤ shareBound m := by
  have table : ∀ m < 21, ∀ i < 21, 1 ≤ m → m ≤ i → shareBound i ≤ shareBound m := by decide
  have last : ∀ m < 21, 1 ≤ m → 6932 ≤ shareBound m := by decide
  have beyond : ∀ i, 20 < i → shareBound i = 6932 := by
    intro i large
    simp [shareBound, boundOf, utilBoundMax, utilBoundInf, Nat.not_le.mpr large]
  rcases Nat.lt_or_ge 20 i with large | small
  · rw [beyond i large]
    rcases Nat.lt_or_ge 20 m with mLarge | mSmall
    · rw [beyond m mLarge]
    · exact last m (by omega) positive
  · exact table m (by omega) i (by omega) positive le

private theorem shareSum_take_succ (loads : List Load) {i : ℕ} (lt : i < loads.length) :
    shareSum share (loads.take (i + 1)) = shareSum share (loads.take i) + share loads[i] := by
  rw [← List.take_concat_get' loads i lt, shareSum, List.map_append, List.sum_append]
  rfl

/-- Utilization of the first `i` tasks of an array, in unbounded integers. -/
def utilSum (util : ℕ → ℤ) (i : ℕ) : ℤ :=
  ∑ k ∈ Finset.range i, util k

@[simp]
theorem utilSum_zero (util : ℕ → ℤ) : utilSum util 0 = 0 :=
  Finset.sum_range_zero util

private theorem utilSum_succ (util : ℕ → ℤ) (i : ℕ) :
    utilSum util (i + 1) = utilSum util i + util i :=
  Finset.sum_range_succ util i

/-- Started with the sum of all tasks, the scan ends without reading outside the
arrays: whatever wraps on the way, nothing is left of the sum at the empty
prefix.  It stops at the longest prefix whose sum, as an `int`, is within its
bound. -/
theorem boundScan_spec (util : ℕ → ℤ) (n : ℕ) :
    ∃ i, boundScan util n (int32 (utilSum util n)) = .ok i ∧
      IsGreatest {k | k ≤ n ∧ int32 (utilSum util k) ≤ boundOf k} i := by
  induction n with
  | zero =>
      have nothing : int32 (utilSum util 0) = 0 := by
        rw [utilSum_zero]
        rfl
      refine ⟨0, ?_, ⟨le_rfl, ?_⟩, fun k member => member.1⟩
      · rw [nothing]
        rfl
      · rw [nothing]
        exact boundOf_nonneg 0
  | succ n ih =>
      rw [boundScan]
      by_cases exceeds : boundOf (n + 1) < int32 (utilSum util (n + 1))
      · obtain ⟨i, scans, ⟨le, within⟩, greatest⟩ := ih
        rw [if_pos exceeds, utilSum_succ, int32_add_sub_cancel]
        refine ⟨i, scans, ⟨Nat.le_succ_of_le le, within⟩, ?_⟩
        rintro k ⟨kLe, passes⟩
        rcases Nat.le_succ_iff.mp kLe with less | rfl
        · exact greatest ⟨less, passes⟩
        · exact absurd exceeds (not_lt.mpr passes)
      · rw [if_neg exceeds]
        exact ⟨n + 1, rfl, ⟨le_rfl, not_lt.mp exceeds⟩, fun k member => member.1⟩

/-- If no sum wraps, the scan stops at the longest prefix within its bound. -/
theorem boundScan_isGreatest {util : ℕ → ℤ} {n : ℕ} (sums : ∀ k ≤ n, IsInt (utilSum util k)) :
    ∃ i, boundScan util n (utilSum util n) = .ok i ∧
      IsGreatest {k | k ≤ n ∧ utilSum util k ≤ boundOf k} i := by
  have exactSum : ∀ k ≤ n, int32 (utilSum util k) = utilSum util k := fun k le =>
    int32_eq_self (sums k le).1 (sums k le).2
  obtain ⟨i, scans, ⟨le, within⟩, greatest⟩ := boundScan_spec util n
  rw [exactSum n le_rfl] at scans
  rw [exactSum i le] at within
  refine ⟨i, scans, ⟨le, within⟩, ?_⟩
  rintro k ⟨kLe, passes⟩
  rw [← exactSum k kLe] at passes
  exact greatest ⟨kLe, passes⟩

theorem utilSum_eq_shareSum {util : ℕ → ℤ} {loads : List Load}
    (utils : ∀ k (lt : k < loads.length), util k = (share loads[k] : ℤ)) (i : ℕ)
    (le : i ≤ loads.length) : utilSum util i = (shareSum share (loads.take i) : ℤ) := by
  induction i with
  | zero => simp [shareSum]
  | succ i ih =>
      rw [utilSum_succ, ih (by omega), utils i le, shareSum_take_succ loads le, Nat.cast_add]

/-- The bound scan ends at the longest passing prefix, without reading outside
the arrays. -/
theorem boundScan_eq {util : ℕ → ℤ} {loads : List Load}
    (utils : ∀ k (lt : k < loads.length), util k = (share loads[k] : ℤ))
    (small : shareSum share loads < 2147483648) :
    boundScan util loads.length (shareSum share loads) =
      .ok (passingPrefix share shareBound loads) := by
  have sums : ∀ i ≤ loads.length, IsInt (utilSum util i) := by
    intro i le
    have part : shareSum share (loads.take i) ≤ shareSum share loads :=
      shareSum_le_of_subperm (List.take_sublist _ _).subperm
    rw [utilSum_eq_shareSum utils i le]
    constructor <;> omega
  have passes_iff : ∀ i ≤ loads.length,
      (utilSum util i ≤ boundOf i ↔ shareSum share (loads.take i) ≤ shareBound i) := by
    intro i le
    rw [utilSum_eq_shareSum utils i le, ← shareBound_cast, Nat.cast_le]
  obtain ⟨i, scans, ⟨le, within⟩, greatest⟩ := boundScan_isGreatest sums
  have longest : passingPrefix share shareBound loads = i := by
    refine Nat.findGreatest_eq_iff.mpr ⟨le, fun _ => (passes_iff i le).mp within, ?_⟩
    intro k above kLe passes
    exact not_lt.mpr (greatest ⟨kLe, (passes_iff k kLe).mpr passes⟩) above
  rw [utilSum_eq_shareSum utils _ le_rfl, List.take_length] at scans
  rw [longest]
  exact scans

/-! ## The admission test -/

/-- The response-time test of a stretch of tasks. -/
theorem responseTest_spec {budget period : ℕ → ℤ} {loads : List Load}
    (agrees : Agrees budget period loads) (fits : ∀ j lt, FitsInt loads j lt)
    (positive : ∀ load ∈ loads, 1 ≤ load.budget) (j k : ℕ) (le : j + k ≤ loads.length) :
    ∃ passes, responseTest budget period j k = .ok passes ∧
      (passes = true ↔ ∀ i, j ≤ i → i < j + k → ∀ lt : i < loads.length,
        Meets (loads.take i) loads[i]) := by
  induction k generalizing j with
  | zero =>
      refine ⟨true, rfl, ?_⟩
      constructor
      · intro _ i ge less
        omega
      · intro _
        rfl
  | succ k ih =>
      have lt : j < loads.length := by omega
      obtain ⟨result, returns, accepts⟩ :=
        responseTime_accepts_iff agrees (fits j lt) (positive _ (List.getElem_mem lt))
      obtain ⟨rest, restReturns, restAccepts⟩ := ih (j + 1) (by omega)
      rw [responseTest, returns, ok_bind]
      by_cases late : period j < (result : ℤ)
      · rw [if_pos late]
        refine ⟨false, rfl, ?_⟩
        constructor
        · intro impossible
          cases impossible
        · intro all
          have within := accepts.mpr (all j le_rfl (by omega) lt)
          omega
      · rw [if_neg late, restReturns]
        refine ⟨rest, rfl, restAccepts.trans ?_⟩
        constructor
        · intro all i ge less iLt
          rcases Nat.eq_or_lt_of_le ge with rfl | more
          · exact accepts.mp (by omega)
          · exact all i more (by omega) iLt
        · intro all i ge less iLt
          exact all i (by omega) (by omega) iLt

/-- On an array that agrees with a list of loads whose total utilization is
given, the admission test returns and decides the hybrid test. -/
theorem admissionTest_spec {reserve : Tid → Reserve} {tasks : ℕ → Tid} {loads : List Load}
    (agrees : Agrees (fun k => (reserve (tasks k)).budget) (fun k => (reserve (tasks k)).period)
      loads)
    (utils : ∀ k (lt : k < loads.length), (reserve (tasks k)).util = (share loads[k] : ℤ))
    (small : shareSum share loads < 2147483648) (fits : ∀ j lt, FitsInt loads j lt)
    (positive : ∀ load ∈ loads, 1 ≤ load.budget) :
    ∃ passes, admissionTest reserve tasks loads.length (shareSum share loads) = .ok passes ∧
      (passes = true ↔ Hybrid share shareBound loads) := by
  have scan := boundScan_eq utils small
  have prefixLe : passingPrefix share shareBound loads ≤ loads.length := passingPrefix_le loads
  rw [admissionTest, scan, ok_bind]
  by_cases all : passingPrefix share shareBound loads = loads.length
  · rw [if_pos all]
    refine ⟨true, rfl, ?_⟩
    constructor
    · intro _ j lt behind
      omega
    · intro _
      rfl
  · rw [if_neg all]
    obtain ⟨passes, returns, accepts⟩ := responseTest_spec agrees fits positive
      (passingPrefix share shareBound loads) (loads.length - passingPrefix share shareBound loads)
      (by omega)
    refine ⟨passes, returns, accepts.trans ?_⟩
    constructor
    · intro behind j lt ge
      exact behind j ge (by omega) lt
    · intro accepted i ge _ lt
      exact accepted i lt ge

/-! ## Only the live slots are read -/

section Congr

variable {budget period budget' period' : ℕ → ℤ} {n : ℕ}

private theorem boundScan_congr {util util' : ℕ → ℤ} (same : ∀ k < n, util k = util' k) (sum : ℤ) :
    boundScan util n sum = boundScan util' n sum := by
  induction n generalizing sum with
  | zero => rfl
  | succ n ih =>
      rw [boundScan, boundScan, same n n.lt_succ_self]
      simp only [ih fun k lt => same k (lt.trans n.lt_succ_self)]

private theorem currBudget_congr (budgets : ∀ k < n, budget k = budget' k)
    (periods : ∀ k < n, period k = period' k) (prev : ℤ) {j : ℕ} (jLt : j < n) {k : ℕ}
    (le : k ≤ n) : currBudget budget period prev j k = currBudget budget' period' prev j k := by
  induction k with
  | zero => rw [currBudget, currBudget, budgets j jLt]
  | succ k ih => rw [currBudget, currBudget, ih (by omega), budgets k le, periods k le]

private theorem budgetSum_congr (budgets : ∀ k < n, budget k = budget' k) {k : ℕ} (le : k ≤ n) :
    budgetSum budget k = budgetSum budget' k := by
  induction k with
  | zero => rfl
  | succ k ih => rw [budgetSum, budgetSum, ih (by omega), budgets k le]

private theorem responseLoop_congr (budgets : ∀ k < n, budget k = budget' k)
    (periods : ∀ k < n, period k = period' k) {j : ℕ} (jLt : j < n) (rounds : ℕ)
    (prev curr : ℤ) :
    responseLoop budget period j rounds prev curr =
      responseLoop budget' period' j rounds prev curr := by
  induction rounds generalizing prev curr with
  | zero => rfl
  | succ rounds ih =>
      rw [responseLoop, responseLoop, periods j jLt,
        currBudget_congr budgets periods curr jLt jLt.le]
      simp only [ih]

private theorem responseTest_congr (budgets : ∀ k < n, budget k = budget' k)
    (periods : ∀ k < n, period k = period' k) {j k : ℕ} (le : j + k ≤ n) :
    responseTest budget period j k = responseTest budget' period' j k := by
  induction k generalizing j with
  | zero => rfl
  | succ k ih =>
      have jLt : j < n := by omega
      rw [responseTest, responseTest, responseTime, responseTime, periods j jLt,
        budgetSum_congr budgets jLt, responseLoop_congr budgets periods jLt, ih (by omega)]

end Congr

private theorem boundScan_le {util : ℕ → ℤ} {n i : ℕ} {sum : ℤ}
    (returns : boundScan util n sum = .ok i) :
    i ≤ n := by
  induction n generalizing sum with
  | zero =>
      rw [boundScan] at returns
      split at returns
      · cases returns
      · cases returns
        exact le_rfl
  | succ n ih =>
      rw [boundScan] at returns
      split at returns
      · exact (ih returns).trans n.le_succ
      · cases returns
        exact le_rfl

theorem admissionTest_congr {reserve : Tid → Reserve} {tasks tasks' : ℕ → Tid} {n : ℕ}
    (same : ∀ k < n, tasks k = tasks' k)
    (util : ℤ) : admissionTest reserve tasks n util = admissionTest reserve tasks' n util := by
  have utils : ∀ k < n, (reserve (tasks k)).util = (reserve (tasks' k)).util :=
    fun k lt => by rw [same k lt]
  rw [admissionTest, admissionTest, boundScan_congr utils]
  cases scans : boundScan (fun k => (reserve (tasks' k)).util) n util with
  | error fault => rfl
  | ok i =>
      have le := boundScan_le scans
      simp only [ok_bind]
      rw [responseTest_congr (fun k lt => by rw [same k lt]) (fun k lt => by rw [same k lt])
        (Nat.add_sub_cancel' le).le]

end Rtes.Reservation
