import Rtes.Reservation.TryBind

/-!
# Choice of a CPU

With `cpuid = -1` the CPU is chosen by the partition policy.  First-, next-,
best- and worst-fit go over the CPUs in their own order, try every open one and
fall back to the first closed one; the list-scheduling policy tries every CPU in
order of load.
-/

namespace Rtes.Reservation

/-- All CPUs in the order of their numbers. -/
def allCpus : List Cpu := [0, 1, 2, 3]

/-- `num_online_cpus` -/
def numOnlineCpus (s : Kernel) : ℕ :=
  allCpus.countP s.cpuOnline

/-! ## Order of load -/

/-- The first loop of `sortCPU`: the first CPU of greatest load above `-1`. -/
def maxCpu (util : Cpu → ℤ) : List Cpu → ℤ × Option Cpu → ℤ × Option Cpu
  | [], best => best
  | cpu :: rest, best =>
      maxCpu util rest (if best.1 < util cpu then (util cpu, some cpu) else best)

/-- The first loop of `sortCPU`: the first CPU of least load below
`UTIL_MULTIPLE + 1`. -/
def minCpu (util : Cpu → ℤ) : List Cpu → ℤ × Option Cpu → ℤ × Option Cpu
  | [], best => best
  | cpu :: rest, best =>
      minCpu util rest (if util cpu < best.1 then (util cpu, some cpu) else best)

/-- The second loop of `sortCPU`: `a` is the first of the other CPUs and `b` the
last of those behind it. -/
def middleCpus (maxID minID : Cpu) : List Cpu → Option Cpu × Option Cpu → Option Cpu × Option Cpu
  | [], found => found
  | cpu :: rest, (a, b) =>
      if cpu ≠ maxID ∧ cpu ≠ minID then
        middleCpus maxID minID rest (if a = none then (some cpu, b) else (a, some cpu))
      else
        middleCpus maxID minID rest (a, b)

/-- The CPUs in increasing or decreasing order of load. -/
def sortCPU (asced : Bool) (util : Cpu → ℤ) : Except Fault (List Cpu) :=
  match (maxCpu util allCpus (-1, none)).2, (minCpu util allCpus (utilMultiple + 1, none)).2 with
  | some maxID, some minID =>
      match middleCpus maxID minID allCpus (none, none) with
      | (some a, some b) =>
          let sed := if util b < util a then (a, b) else (b, a)
          .ok (if asced then [minID, sed.2, sed.1, maxID] else [maxID, sed.1, sed.2, minID])
      | _ => .error .outOfBounds
  | _, _ => .error .uninitialized

/-! ## Placement loops -/

variable (reserve : Tid → Reserve)

/-- Try the open CPUs in the given order and then the first closed one.  The
result is the last value of `try_bind`, the chosen CPU and the table. -/
def fitLoop (t : Tid) : List Cpu → Option Cpu → ℤ → Table → Except Fault (ℤ × Option Cpu × Table)
  | [], none, retval, table => .ok (retval, none, table)
  | [], some closedBin, _, table => do
      let bound ← table.tryBind reserve t closedBin
      .ok (bound.1, some closedBin, bound.2)
  | cpu :: rest, closedBin, retval, table =>
      if (table cpu).cpuOpen then do
        let bound ← table.tryBind reserve t cpu
        if bound.1 = 0 then
          .ok (0, some cpu, bound.2)
        else
          fitLoop t rest closedBin bound.1 bound.2
      else
        fitLoop t rest (closedBin <|> some cpu) retval table

/-- Try every CPU in the given order. -/
def listLoop (t : Tid) : List Cpu → ℤ → Table → Except Fault (ℤ × Option Cpu × Table)
  | [], retval, table => .ok (retval, none, table)
  | cpu :: rest, _, table => do
      let bound ← table.tryBind reserve t cpu
      if bound.1 = 0 then
        .ok (0, some cpu, bound.2)
      else
        listLoop t rest bound.1 bound.2

/-- The CPUs in cyclic order from the next-fit pointer. -/
def cyclicFrom (lastCpuID : Cpu) : List Cpu :=
  [lastCpuID, lastCpuID + 1, lastCpuID + 2, lastCpuID + 3]

/-- Bind a task to a CPU chosen by the policy.  The result is the return value,
the chosen CPU, the next-fit pointer and the table.  The pointer moves on at
every CPU that does not take the task, so a whole unsuccessful turn leaves it
where it was. -/
def place (policy : PartitionPolicy) (lastCpuID : Cpu) (table : Table) (t : Tid) :
    Except Fault (ℤ × Option Cpu × Cpu × Table) :=
  match policy with
  | .FFD => do
      let (retval, cpuid, table) ← fitLoop reserve t allCpus none 0 table
      .ok (retval, cpuid, lastCpuID, table)
  | .NFD => do
      let (retval, cpuid, table) ← fitLoop reserve t (cyclicFrom lastCpuID) none 0 table
      .ok (retval, cpuid, cpuid.getD lastCpuID, table)
  | .BFD => do
      let sortID ← sortCPU false fun cpu => (table cpu).cpuUtil
      let (retval, cpuid, table) ← fitLoop reserve t sortID none 0 table
      .ok (retval, cpuid, lastCpuID, table)
  | .WFD => do
      let sortID ← sortCPU true fun cpu => (table cpu).cpuUtil
      let (retval, cpuid, table) ← fitLoop reserve t sortID none 0 table
      .ok (retval, cpuid, lastCpuID, table)
  | .LST => do
      let sortID ← sortCPU true fun cpu => (table cpu).cpuUtil
      let (retval, cpuid, table) ← listLoop reserve t sortID 0 table
      .ok (retval, cpuid, lastCpuID, table)

/-- The CPU a `cpuid` argument in `0 .. 3` names; `-1` names none. -/
def cpuOf (cpuid : ℤ) : Option Cpu :=
  if bound : 0 ≤ cpuid ∧ cpuid < 4 then some ⟨cpuid.toNat, by omega⟩ else none

/-- Bind a task to the named CPU, or to one chosen by the policy. -/
def bindTask (policy : PartitionPolicy) (lastCpuID : Cpu) (table : Table) (t : Tid)
    (cpuid : Option Cpu) : Except Fault (ℤ × Option Cpu × Cpu × Table) :=
  match cpuid with
  | none => place reserve policy lastCpuID table t
  | some cpu => do
      let bound ← table.tryBind reserve t cpu
      .ok (bound.1, some cpu, lastCpuID, bound.2)

end Rtes.Reservation
