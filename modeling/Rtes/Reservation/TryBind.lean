import Rtes.Reservation.Core

/-!
# Admission of a task to a CPU

`try_bind` puts a task into the task array of a CPU in order of period, keeps
it there if the array passes the admission test, and takes it out again
otherwise.  The test scans for the longest prefix within the utilization bound
and runs the response-time test on the tasks behind it.
-/

namespace Rtes.Reservation

open Rtes.Slots Rtes.Word

/-! ## Utilization bound -/

/-- `UTIL_BOUND_MAX` -/
def utilBoundMax : ℕ := 20

/-- `UTIL_BOUND_INF` -/
def utilBoundInf : ℤ := 6932

/-- The table `util_bound`. -/
def utilBound : List ℤ :=
  [0, 10000, 8285, 7798, 7569, 7435, 7348, 7287, 7241, 7206, 7178, 7155, 7136, 7120, 7106, 7095,
    7084, 7075, 7067, 7060, 7053]

/-- The bound on the utilization of `i` tasks. -/
def boundOf (i : ℕ) : ℤ :=
  if i ≤ utilBoundMax then utilBound.getD i 0 else utilBoundInf

/-- The utilization bound test: leave out tasks from the back until the
utilization of the rest is within its bound.  Leaving out a task that is not
there reads outside the arrays. -/
def boundScan (util : ℕ → ℤ) : ℕ → ℤ → Except Fault ℕ
  | 0, sum => if boundOf 0 < sum then .error .outOfBounds else .ok 0
  | i + 1, sum =>
      if boundOf (i + 1) < sum then boundScan util i (int32 (sum - util i)) else .ok (i + 1)

/-! ## Response time -/

/-- How often a task of the given period is released in `prev` milliseconds. -/
def appearance (prev period : ℤ) : Except Fault ℤ :=
  if period = 0 then .error .divisionByZero
  else .ok (int32 (prev.tdiv period + if prev.tmod period = 0 then 0 else 1))

/-- `curr_budget` after the first `k` tasks have been added to the budget of
task `j`. -/
def currBudget (budget period : ℕ → ℤ) (prev : ℤ) (j : ℕ) : ℕ → Except Fault ℤ
  | 0 => .ok (budget j)
  | k + 1 => do
      let curr ← currBudget budget period prev j k
      let times ← appearance prev (period k)
      .ok (int32 (curr + int32 (times * budget k)))

/-- The initial `prev_budget`: the sum of the first `k` budgets. -/
def budgetSum (budget : ℕ → ℤ) : ℕ → ℤ
  | 0 => 0
  | k + 1 => int32 (budgetSum budget k + budget k)

/-- The `while` loop of the response-time test of task `j`. -/
def responseLoop (budget period : ℕ → ℤ) (j : ℕ) : ℕ → ℤ → ℤ → Except Fault ℤ
  | 0, _, _ => .error .divergence
  | rounds + 1, prev, curr =>
      if curr ≤ period j ∧ curr ≠ prev then do
        let next ← currBudget budget period curr j j
        responseLoop budget period j rounds curr next
      else
        .ok curr

/-- `curr_budget` when the loop of task `j` ends. -/
def responseTime (budget period : ℕ → ℤ) (j : ℕ) : Except Fault ℤ :=
  responseLoop budget period j loopRounds (budgetSum budget (j + 1)) 0

/-- The response-time test of the `k` tasks from `j` on. -/
def responseTest (budget period : ℕ → ℤ) : (j k : ℕ) → Except Fault Bool
  | _, 0 => .ok true
  | j, k + 1 => do
      let curr ← responseTime budget period j
      if period j < curr then .ok false else responseTest budget period (j + 1) k

/-! ## Binding -/

variable (reserve : Tid → Reserve)

/-- The admission test of the first `n` tasks of an array of total utilization
`util`. -/
def admissionTest (tasks : ℕ → Tid) (n : ℕ) (util : ℤ) : Except Fault Bool := do
  let i ← boundScan (fun k => (reserve (tasks k)).util) n util
  if i = n then
    .ok true
  else
    responseTest (fun k => (reserve (tasks k)).budget) (fun k => (reserve (tasks k)).period) i
      (n - i)

/-- Whether a task has a longer period than `t`. -/
def longerPeriod (t other : Tid) : Bool :=
  (reserve t).period < (reserve other).period

/-- Try to bind a task to one CPU. -/
def tryBind (bin : CpuTable) (t : Tid) : Except Fault (ℤ × CpuTable) :=
  if bin.cpuTasksLength = taskSchedulingLength then .ok (EBUSY, bin)
  else if utilMultiple < int32 ((reserve t).util + bin.cpuUtil) then .ok (EBUSY, bin)
  else if bin.cpuTasksLength < 0 ∨ taskSchedulingLength < bin.cpuTasksLength then
    .error .outOfBounds
  else do
    let n := bin.cpuTasksLength.toNat
    let inserted := insertSlot (longerPeriod reserve t) bin.cpuTasks n t
    let util := int32 (bin.cpuUtil + (reserve t).util)
    let passes ← admissionTest reserve inserted.1 (n + 1) util
    if passes then
      .ok (0, { bin with
        cpuTasks := inserted.1
        cpuTasksLength := bin.cpuTasksLength + 1
        cpuUtil := util })
    else
      .ok (EBUSY, { bin with
        cpuTasks := closeGap inserted.1 inserted.2 (n - inserted.2)
        cpuUtil := int32 (util - (reserve t).util) })

/-- `try_bind` on the table: the bin of one CPU is replaced. -/
def Table.tryBind (table : Table) (t : Tid) (cpu : Cpu) : Except Fault (ℤ × Table) := do
  let bound ← Reservation.tryBind reserve (table cpu) t
  .ok (bound.1, Function.update table cpu bound.2)

end Rtes.Reservation
