import Rtes.Reservation.Policy

/-!
# Whether the arithmetic of the admission test wraps

With periods of up to a minute and at most a thousand tasks, nothing the
response-time loop of `try_bind` computes leaves the range of an `int`, and the
loop ends with the response time itself.  The bound scan has no such range.  It
takes the utilizations away from their sum one by one, and where what is left
wraps around to the other side of its bound, the scan goes wrong.
-/

namespace Rtes.Reservation

open Rtes.RateMonotonic Rtes.Transition Rtes.Word

/-! ## The response-time loop -/

section Response

variable {budget period : ℕ → ℤ} {loads : List Load} {j : ℕ} {lt : j < loads.length}

/-- One round of the `while` loop of task `j`, on `prev_budget` and
`curr_budget`. -/
def responseRound (budget period : ℕ → ℤ) (j : ℕ) (budgets : ℤ × ℤ) (_ : Unit) :
    Except Fault (ℤ × ℤ) := do
  let curr ← currBudget budget period budgets.2 j j
  .ok (budgets.2, curr)

/-- The condition of the `while` loop. -/
def Continues (period : ℕ → ℤ) (j : ℕ) (budgets : ℤ × ℤ) : Prop :=
  budgets.2 ≤ period j ∧ budgets.2 ≠ budgets.1

/-- What the two variables hold when the condition is tested. -/
def LoopHead (budget period : ℕ → ℤ) (j : ℕ) : ℤ × ℤ → Prop :=
  Reaches (responseRound budget period j) (fun budgets _ => Continues period j budgets)
    (· = (budgetSum budget (j + 1), 0))

/-- The numbers that the response-time test of task `j` stores in an `int`: the
sums of the budgets before the loop and, in every round and for every task
before `j`, the number of its releases, their demand and the sum so far. -/
inductive ResponseValue (budget period : ℕ → ℤ) (j : ℕ) : ℤ → Prop
  | initial {k : ℕ} : k ≤ j → ResponseValue budget period j (budgetSum budget k + budget k)
  | releases {prev curr : ℤ} {k : ℕ} : LoopHead budget period j (prev, curr) →
      Continues period j (prev, curr) → k < j → ResponseValue budget period j
        (curr.tdiv (period k) + if curr.tmod (period k) = 0 then 0 else 1)
  | demand {prev curr times : ℤ} {k : ℕ} : LoopHead budget period j (prev, curr) →
      Continues period j (prev, curr) → k < j → appearance curr (period k) = .ok times →
      ResponseValue budget period j (times * budget k)
  | running {prev curr times sum : ℤ} {k : ℕ} : LoopHead budget period j (prev, curr) →
      Continues period j (prev, curr) → k < j → appearance curr (period k) = .ok times →
      currBudget budget period curr j k = .ok sum →
      ResponseValue budget period j (sum + int32 (times * budget k))

/-- The loop returns what `curr_budget` holds where its condition fails. -/
theorem responseLoop_head {rounds : ℕ} {prev curr result : ℤ}
    (head : LoopHead budget period j (prev, curr))
    (returns : responseLoop budget period j rounds prev curr = .ok result) :
    ∃ last, LoopHead budget period j (last, result) ∧ ¬ Continues period j (last, result) := by
  induction rounds generalizing prev curr with
  | zero => cases returns
  | succ rounds ih =>
      rw [responseLoop] at returns
      by_cases going : curr ≤ period j ∧ curr ≠ prev
      · rw [if_pos going] at returns
        obtain ⟨next, pass, rest⟩ := bind_eq_ok_iff.mp returns
        have round : responseRound budget period j (prev, curr) () = .ok (curr, next) := by
          rw [responseRound, pass, ok_bind]
        exact ih (.next head going round) rest
      · rw [if_neg going] at returns
        cases returns
        exact ⟨prev, head, going⟩

/-- `curr_budget` is never negative. -/
theorem LoopHead.curr_eq_natCast (agrees : Agrees budget period loads)
    (fits : FitsInt loads j lt) {budgets : ℤ × ℤ} (head : LoopHead budget period j budgets) :
    ∃ curr : ℕ, budgets.2 = curr := by
  induction head with
  | start begins =>
      cases begins
      exact ⟨0, rfl⟩
  | next _ going round ih =>
      obtain ⟨x, same⟩ := ih
      obtain ⟨next, pass, result⟩ := bind_eq_ok_iff.mp round
      cases result
      have within := going.1
      rw [same, agrees.period j lt] at within
      rw [same, currBudget_eq agrees fits (Int.ofNat_le.mp within) j le_rfl] at pass
      cases pass
      exact ⟨_, rfl⟩

/-- In a round of the loop `curr_budget` is a time up to the deadline. -/
theorem LoopHead.within_deadline (agrees : Agrees budget period loads)
    (fits : FitsInt loads j lt) {prev curr : ℤ} (head : LoopHead budget period j (prev, curr))
    (going : Continues period j (prev, curr)) :
    ∃ x : ℕ, curr = x ∧ x ≤ loads[j].period := by
  obtain ⟨x, same⟩ := head.curr_eq_natCast agrees fits
  cases same
  refine ⟨x, rfl, ?_⟩
  have within := going.1
  rw [agrees.period j lt] at within
  exact Int.ofNat_le.mp within

/-- The releases of a task before `j` fit an `int`, on top of all that is counted
before them. -/
theorem appearance_fits (agrees : Agrees budget period loads) (fits : FitsInt loads j lt)
    {x k : ℕ} {times : ℤ} (within : x ≤ loads[j].period) (less : k < j)
    (appears : appearance x (period k) = .ok times) :
    ∃ more : ℕ, times * budget k = more ∧
      loads[j].budget + demand (loads.take k) x + more < 2147483648 := by
  have kLt : k < loads.length := by omega
  have periodPos : 1 ≤ loads[k].period := fits.periods _ (List.getElem_mem kLt)
  have deadline := fits.deadline
  have small := demand_lt_of_fits fits within less
  rw [demand_take_succ loads kLt, ← Nat.add_assoc] at small
  rw [agrees.period k kLt, appearance_eq periodPos (by omega)] at appears
  cases appears
  refine ⟨_, ?_, small⟩
  rw [agrees.budget k kLt, Nat.cast_mul]

/-- Nothing the response-time test computes leaves the range of an `int`. -/
theorem ResponseValue.in_range (agrees : Agrees budget period loads) (fits : FitsInt loads j lt)
    {value : ℤ} (computed : ResponseValue budget period j value) :
    0 ≤ value ∧ value < 2147483648 := by
  have deadline := fits.deadline
  cases computed with
  | @initial k le =>
      have kLt : k < loads.length := by omega
      have small := sum_budget_small fits (k + 1) (by omega)
      rw [sum_take_budget k kLt] at small
      rw [budgetSum_eq agrees fits k (by omega), agrees.budget k kLt]
      omega
  | @releases prev curr k head going less =>
      have kLt : k < loads.length := by omega
      have periodPos : 1 ≤ loads[k].period := fits.periods _ (List.getElem_mem kLt)
      obtain ⟨x, rfl, within⟩ := head.within_deadline agrees fits going
      have count := ceilDiv_le_self x loads[k].period periodPos
      rw [agrees.period k kLt, tdiv_add_eq_ceilDiv periodPos]
      omega
  | @demand prev curr times k head going less appears =>
      obtain ⟨x, rfl, within⟩ := head.within_deadline agrees fits going
      obtain ⟨more, product, small⟩ := appearance_fits agrees fits within less appears
      rw [product]
      omega
  | @running prev curr times sum k head going less appears sums =>
      obtain ⟨x, rfl, within⟩ := head.within_deadline agrees fits going
      obtain ⟨more, product, small⟩ := appearance_fits agrees fits within less appears
      rw [currBudget_eq agrees fits within k less.le] at sums
      cases sums
      rw [product, int32_natCast (by omega)]
      omega

/-- On at most a thousand tasks with periods of up to a minute and budgets up to
their periods, in whatever order, the response-time loop of a task ends and
nothing in it wraps.  What it ends with is within the period if and only if some
window up to the period holds the task and the releases of the tasks before it,
and is then the least such window. -/
theorem responseTime_isLeast (agrees : Agrees budget period loads) (count : loads.length ≤ 1000)
    (periods : ∀ load ∈ loads, 1 ≤ load.period ∧ load.period ≤ 60000)
    (budgets : ∀ load ∈ loads, load.budget ≤ load.period) (j : ℕ) (lt : j < loads.length) :
    (∀ value, ResponseValue budget period j value → 0 ≤ value ∧ value < 2147483648) ∧
      ∃ (prev : ℤ) (curr : ℕ), responseTime budget period j = .ok (curr : ℤ) ∧
        LoopHead budget period j (prev, curr) ∧ ¬ Continues period j (prev, curr) ∧
        (curr ≤ loads[j].period ↔
          ∃ x ≤ loads[j].period, loads[j].budget + demand (loads.take j) x ≤ x) ∧
        (curr ≤ loads[j].period → IsLeast
          {x | x ≤ loads[j].period ∧ loads[j].budget + demand (loads.take j) x ≤ x} curr) := by
  have fits : FitsInt loads j lt := by
    refine fitsInt_of_small count periods ?_ j lt
    intro load member
    have within := budgets load member
    omega
  obtain ⟨curr, returns, least, fixed⟩ := responseTime_spec agrees fits
  obtain ⟨prev, head, stopped⟩ := responseLoop_head (.start rfl) returns
  refine ⟨fun value computed => computed.in_range agrees fits, prev, curr, returns, head, stopped,
    ?_, ?_⟩
  · constructor
    · intro within
      exact ⟨curr, within, (fixed within).le⟩
    · rintro ⟨x, within, closed⟩
      exact (least x closed).trans within
  · intro within
    refine ⟨⟨within, (fixed within).le⟩, ?_⟩
    rintro x ⟨_, closed⟩
    exact least x closed

/-- Two milliseconds in every six, below one in every four. -/
theorem responseTime_isLeast_pair :
    ∃ curr : ℕ, responseTime (fun k => [1, 2].getD k 0) (fun k => [4, 6].getD k 0) 1 =
        .ok (curr : ℤ) ∧ curr ≤ 6 := by
  have agrees : Agrees (fun k => [1, 2].getD k 0) (fun k => [4, 6].getD k 0) [⟨1, 4⟩, ⟨2, 6⟩] :=
    ⟨by decide, by decide⟩
  obtain ⟨_, _, curr, returns, _, _, accepts, _⟩ :=
    responseTime_isLeast agrees (by decide) (by decide) (by decide) 1 (by decide)
  exact ⟨curr, returns, accepts.mpr ⟨3, by decide, by decide⟩⟩

end Response

/-! ## The bound scan -/

/-- Taken as an `int`, a sum is on the other side of a bound. -/
def Crosses (bound sum : ℤ) : Prop :=
  bound < sum ∧ int32 sum ≤ bound ∨ sum ≤ bound ∧ bound < int32 sum

theorem not_crosses_iff {bound sum : ℤ} :
    ¬ Crosses bound sum ↔ (bound < int32 sum ↔ bound < sum) := by
  unfold Crosses
  omega

/-- Prefixes a scan of `n` tasks has to look at: every longer one is above its
bound. -/
def Scanned (util : ℕ → ℤ) (n m : ℕ) : Prop :=
  m ≤ n ∧ ∀ k, m < k → k ≤ n → boundOf k < utilSum util k

/-- Where no prefix that has to be looked at crosses its bound, the scan looks at
no other prefixes. -/
theorem scanned_of_not_crosses {util : ℕ → ℤ} {n i : ℕ}
    (sides : ∀ m, Scanned util n m → ¬ Crosses (boundOf m) (utilSum util m)) (le : i ≤ n)
    (longer : ∀ k, i < k → k ≤ n → boundOf k < int32 (utilSum util k)) : Scanned util n i := by
  -- the scan runs down from the whole list, and so does the induction
  induction le using Nat.decreasingInduction with
  | self => exact ⟨le_rfl, fun k above le => absurd le (not_le.mpr above)⟩
  | of_succ m less ih =>
      have next := ih fun k above => longer k (Nat.lt_of_succ_lt above)
      refine ⟨less.le, ?_⟩
      intro k above kLe
      rcases Nat.eq_or_lt_of_le above with rfl | more
      · exact (not_crosses_iff.mp (sides _ next)).mp (longer _ above kLe)
      · exact next.2 k more kLe

/-- On any utilizations whose sum is an `int`, the bound scan ends in the range of
the list and without reading outside the arrays.  It ends at the longest prefix
within its bound exactly when no prefix from there on crosses its bound. -/
theorem boundScan_isGreatest_iff (util : ℕ → ℤ) (n : ℕ) (total : IsInt (utilSum util n)) :
    ∃ i, boundScan util n (utilSum util n) = .ok i ∧ i ≤ n ∧
      (IsGreatest {k | k ≤ n ∧ utilSum util k ≤ boundOf k} i ↔
        ∀ m, Scanned util n m → ¬ Crosses (boundOf m) (utilSum util m)) := by
  obtain ⟨i, scans, ⟨le, within⟩, greatestInt⟩ := boundScan_spec util n
  have longer : ∀ k, i < k → k ≤ n → boundOf k < int32 (utilSum util k) := by
    intro k above kLe
    exact not_le.mp fun passes => not_lt.mpr (greatestInt ⟨kLe, passes⟩) above
  rw [int32_eq_self total.1 total.2] at scans
  refine ⟨i, scans, le, ?_⟩
  constructor
  · rintro ⟨⟨_, small⟩, greatest⟩ m ⟨mLe, above⟩
    rw [not_crosses_iff]
    rcases lt_trichotomy m i with less | rfl | more
    · exact absurd (above i less le) (not_lt.mpr small)
    · exact iff_of_false (not_lt.mpr within) (not_lt.mpr small)
    · refine iff_of_true (longer m more mLe) (not_le.mp fun passes => ?_)
      exact not_lt.mpr (greatest ⟨mLe, passes⟩) more
  · intro sides
    have scanned := scanned_of_not_crosses sides le longer
    have small : utilSum util i ≤ boundOf i :=
      not_lt.mp fun exceeds =>
        not_lt.mpr within ((not_crosses_iff.mp (sides i scanned)).mpr exceeds)
    refine ⟨⟨le, small⟩, ?_⟩
    rintro k ⟨kLe, passes⟩
    exact not_lt.mp fun above => not_lt.mpr passes (scanned.2 k above kLe)

/-- Three tasks with a negative utilization between them. -/
theorem boundScan_isGreatest_iff_three :
    ∃ i, boundScan (fun k => [9000, -2000, 1500].getD k 0) 3 8500 = .ok i ∧ i ≤ 3 ∧
      (IsGreatest {k | k ≤ 3 ∧ utilSum (fun k => [9000, -2000, 1500].getD k 0) k ≤ boundOf k} i ↔
        ∀ m, Scanned (fun k => [9000, -2000, 1500].getD k 0) 3 m →
          ¬ Crosses (boundOf m) (utilSum (fun k => [9000, -2000, 1500].getD k 0) m)) :=
  boundScan_isGreatest_iff (fun k => [9000, -2000, 1500].getD k 0) 3 ⟨by decide, by decide⟩

/-- CPU 0 after three calls of `set_reserve`: two tasks with a budget of -214748
milliseconds in every two, and one with 214748 in every millisecond. -/
def longBudgets : Kernel :=
  let negative := Timespec.mk (-215) 252000000
  let first := after step .bare (.setReserve .succeed 1 (some negative) (some ⟨0, 2000000⟩) 0)
  let second := after step first (.setReserve .succeed 2 (some negative) (some ⟨0, 2000000⟩) 0)
  after step second (.setReserve .succeed 3 (some ⟨214, 748000000⟩) (some ⟨0, 1000000⟩) 0)

private theorem reaches_longBudgets : Reaches step (fun _ _ => True) Boot longBudgets := by
  apply Reaches.after
  · apply Reaches.after
    · exact Reaches.after (.start boot_bare) trivial (by decide)
    · trivial
    · decide
  · trivial
  · decide

/-- A fourth task that asks for every millisecond of CPU 0 is tested against them.
The scan stops at the first two of the four tasks, whose utilizations sum up to
2147490000: as an `int`, that is negative. -/
theorem boundScan_wraps :
    ∃ (s : Kernel) (params : Params) (util : ℕ → ℤ), Reaches step (fun _ _ => True) Boot s ∧
      paramsOf ⟨0, 1000000⟩ ⟨0, 1000000⟩ = .ok params ∧
      (∀ k, util k = (s.withParams 4 params
        (insertedTasks (s.withParams 4 params) (s.table 0) 4 k)).util) ∧
      int32 ((s.table 0).cpuUtil + params.util) = utilSum util 4 ∧
      boundScan util 4 (utilSum util 4) = .ok 2 ∧
      ¬ IsGreatest {k | k ≤ 4 ∧ utilSum util k ≤ boundOf k} 2 := by
  refine ⟨longBudgets, ⟨1, 1, 10000⟩, _, reaches_longBudgets, rfl, fun _ => rfl, ?_, ?_, ?_⟩
  · decide
  · decide
  · rintro ⟨⟨_, passes⟩, _⟩
    exact absurd passes (by decide)

end Rtes.Reservation
