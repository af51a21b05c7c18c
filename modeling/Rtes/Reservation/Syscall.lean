import Rtes.Reservation.Placement
import Rtes.Sysclock.Core

/-!
# Operations on reservations

The system calls `set_reserve`, `cancel_reserve` and `end_job`, the part of
`do_exit` that releases a reservation, the two timer callbacks and the hooks of
the scheduler.  Each operation is a function on the kernel state; the outcomes
of the kernel services it calls are an argument.
-/

namespace Rtes.Reservation

open Rtes.Slots Rtes.Word Rtes.Sysclock

/-! ## Taking a task out of the table -/

/-- Search a task in one row of the table, close its gap there, and shorten the
list of a CPU by one.  The loops run over the row but are bounded by the length
of the CPU's list.  No row stands for `cpu_tasks[-1]`. -/
def takeOut (table : Table) (row : Option Cpu) (cpu : Cpu) (t : Tid) (util : ℤ) :
    Except Fault Table :=
  match row with
  | none =>
      if 0 < (table cpu).cpuTasksLength then .error .outOfBounds else .ok (shorten table)
  | some row =>
      let tasks := removeSlot (table row).cpuTasks (table cpu).cpuTasksLength.toNat t
      .ok (shorten (Function.update table row { table row with cpuTasks := tasks }))
where
  shorten (table : Table) : Table :=
    Function.update table cpu { table cpu with
      cpuTasksLength := (table cpu).cpuTasksLength - 1
      cpuUtil := int32 ((table cpu).cpuUtil - util) }

/-- Close the bin if it has no utilization left. -/
def CpuTable.closeIfIdle (bin : CpuTable) : CpuTable :=
  if bin.cpuUtil = 0 then { bin with cpuOpen := false } else bin

/-! ## `set_reserve` -/

/-- The parameters of a reservation in milliseconds and its utilization. -/
structure Params where
  period : ℤ
  budget : ℤ
  util : ℤ
  deriving DecidableEq, Repr

/-- Convert back to milliseconds and compute the theoretical utilization. -/
def paramsOf (C T : Timespec) : Except Fault Params :=
  if T.millis = 0 then
    .error .divisionByZero
  else
    .ok {
      period := T.millis
      budget := C.millis
      util := int32 ((int32 (C.millis * utilMultiple)).tdiv T.millis) }

def Reserve.params (reserve : Reserve) : Params where
  period := reserve.period
  budget := reserve.budget
  util := reserve.util

def Reserve.withParams (reserve : Reserve) (params : Params) : Reserve :=
  { reserve with period := params.period, budget := params.budget, util := params.util }

namespace Kernel

/-- Put the task back to its original CPU.  The value of `try_bind` is recorded
but not looked at. -/
def putBack (s : Kernel) (t : Tid) (old : Reserve) : Except Fault Kernel := do
  let s := s.modify t fun reserve => reserve.withParams old.params
  let bound ← s.table.tryBind s.reserve t old.cpu
  .ok { s with table := bound.2, rollbacks := bound.1 :: s.rollbacks }

/-- Revise a reservation: take the task out, bind it again, and put it back if
that is refused.  The result is the return value and the chosen CPU. -/
def revise (s : Kernel) (t : Tid) (params : Params) (cpuid : Option Cpu) :
    Except Fault (ℤ × Option Cpu × Kernel) := do
  let old := s.reserve t
  let s := s.modify t fun reserve => reserve.withParams params
  let table ← takeOut s.table cpuid old.cpu t old.util
  let (retval, cpu, last, table) ←
    bindTask s.reserve s.partitionPolicy s.lastCpuIDRevise table t cpuid
  let s := { s with table := table, lastCpuIDRevise := last }
  if retval ≠ 0 then do
    let s ← s.putBack t old
    .ok (retval, cpu, s)
  else
    .ok (0, cpu, s)

/-- Create a new reservation. -/
def create (s : Kernel) (t : Tid) (params : Params) (cpuid : Option Cpu) :
    Except Fault (ℤ × Option Cpu × Kernel) := do
  let s := s.modify t fun reserve => reserve.withParams params
  let (retval, cpu, last, table) ←
    bindTask s.reserve s.partitionPolicy s.lastCpuIDCreate s.table t cpuid
  .ok (retval, cpu, { s with table := table, lastCpuIDCreate := last })

/-- Undo the binding after `sched_setaffinity` failed. -/
def undoBind (s : Kernel) (t : Tid) (cpu : Cpu) (old : Reserve) : Except Fault Kernel := do
  let table ← takeOut s.table (some cpu) cpu t (s.reserve t).util
  let s := { s with table := table }
  if (s.reserve t).flag then s.putBack t old else .ok s

/-- Reset what is only reset when the task was not reserved before. -/
def resetFresh (s : Kernel) (t : Tid) : Kernel :=
  if (s.reserve t).flag then s
  else s.modify t fun reserve => { reserve with suspend := false, taskmonEnabled := false }

/-- Bring the chosen CPU online if necessary. -/
def bringUp (srv : Services) (s : Kernel) (cpu : Cpu) : Kernel :=
  if s.cpuOnline cpu then s
  else
    { s with
      cpuOnline := if srv.cpuUp then Function.update s.cpuOnline cpu true else s.cpuOnline }

/-- A bin is open exactly when it has utilization. -/
def openBins (s : Kernel) : Kernel :=
  { s with table := fun cpu => { s.table cpu with cpuOpen := (s.table cpu).cpuUtil ≠ 0 } }

/-- Take the closed CPUs other than CPU 0 offline, of those seen online. -/
def offlineClosed (srv : Services) (online : Cpu → Bool) : List Cpu → Kernel → Kernel
  | [], s => s
  | cpu :: rest, s =>
      if !(s.table cpu).cpuOpen && online cpu && cpu ≠ 0 then
        offlineClosed srv online rest (s.cpuDown srv cpu)
      else
        offlineClosed srv online rest s

/-- Set the parameters, then cancel, initialize and start the timers: the budget
timer is left stopped and the period timer is started. -/
def startTimers (s : Kernel) (t : Tid) (C T : Timespec) : Kernel :=
  s.modify t fun reserve => { reserve with
    C := C
    T := T
    accSingleRun := ⟨0, 0⟩
    cTimer := false
    pTimer := true }

/-- Set up the file of the task under the `util` object. -/
def setUpTidFile (srv : Services) (s : Kernel) (t : Tid) : ℤ × Kernel :=
  if s.utilKobj && !(s.reserve t).flag then
    match s.kmalloc srv.kmallocName t with
    | (none, s) => (ENOMEM, s)
    | (some buf, s) =>
        let s := s.modify t fun reserve => { reserve with tidAttrName := some buf }
        if srv.sysfsCreateUtil ≠ 0 then
          (srv.sysfsCreateUtil, s)
        else
          match s.kmalloc srv.kmallocPeriods t with
          | (none, s) => (ENOMEM, s.modify t fun reserve => { reserve with periods := none })
          | (some periods, s) =>
              (0, s.modify t fun reserve => { reserve with
                periods := some periods
                ring := { reserve.ring with
                  periods := fun _ => 0
                  start := 0
                  last := -1
                  bufferFull := false } })
  else
    (0, s)

/-- Remove the energy file of a task and its directory. -/
def removeEnergyFile (s : Kernel) (t : Tid) : Kernel :=
  (s.kfree (s.reserve t).energyAttr).modify t fun reserve => { reserve with pidKobj := false }

/-- Set up or remove the energy file of the task. -/
def setUpEnergyFile (srv : Services) (s : Kernel) (t : Tid) : ℤ × Kernel :=
  if s.tasksKobj && !(s.reserve t).pidKobj && s.energyTracking then
    match s.kmalloc srv.kmallocKobjName t with
    | (none, s) => (ENOMEM, s)
    | (some _, s) =>
        if !srv.kobjectCreateAndAdd then
          (ENOMEM, s)
        else
          let s := s.modify t fun reserve => { reserve with pidKobj := true }
          match s.kmalloc srv.kmallocEnergyAttr t with
          | (none, s) => (ENOMEM, s.modify t fun reserve => { reserve with energyAttr := none })
          | (some attr, s) =>
              let s := s.modify t fun reserve => { reserve with energyAttr := some attr }
              (srv.sysfsCreateEnergy, s)
  else if s.tasksKobj && !s.energyTracking && (s.reserve t).pidKobj then
    (0, s.removeEnergyFile t)
  else
    (0, s)

/-- The end of a successful call. -/
def commit (s : Kernel) (t : Tid) : Except Fault Kernel :=
  sysclockSetFrequency <| s.modify t fun reserve => { reserve with
    energy := 0
    trackingEnergy := s.energyTracking
    flag := true }

/-- Assign the CPU id, open and close the bins, take closed CPUs offline, set the
parameters and start the timers. -/
def prepare (srv : Services) (s : Kernel) (t : Tid) (C T : Timespec) (cpu : Cpu)
    (online : Cpu → Bool) : Kernel :=
  let s := s.modify t fun reserve => { reserve with cpu := cpu }
  (offlineClosed srv online allCpus s.openBins).startTimers t C T

/-- What follows once the task is bound to a CPU and its affinity is set. -/
def install (srv : Services) (s : Kernel) (t : Tid) (C T : Timespec) (cpu : Cpu)
    (online : Cpu → Bool) : Except Fault (ℤ × Kernel) :=
  match (s.prepare srv t C T cpu online).setUpTidFile srv t with
  | (0, s) =>
      match s.setUpEnergyFile srv t with
      | (0, s) => do
          let s ← s.commit t
          .ok (0, s)
      | failed => .ok failed
  | failed => .ok failed

/-- What follows once the task is bound to a CPU. -/
def afterBind (srv : Services) (s : Kernel) (t : Tid) (C T : Timespec) (cpu : Cpu)
    (old : Reserve) : Except Fault (ℤ × Kernel) :=
  let s := s.resetFresh t
  let online := Function.update s.cpuOnline cpu true
  let s := s.bringUp srv cpu
  if srv.schedSetaffinity then
    s.install srv t C T cpu online
  else do
    let s ← s.undoBind t cpu old
    .ok (EINVAL, s)

/-- Place the task in the table, revising or creating its reservation. -/
def assign (s : Kernel) (t : Tid) (params : Params) (cpuid : Option Cpu) :
    Except Fault (ℤ × Option Cpu × Kernel) :=
  if (s.reserve t).flag then s.revise t params cpuid else s.create t params cpuid

/-- The system call `set_reserve`.  A missing timespec stands for `NULL`. -/
def setReserve (srv : Services) (s : Kernel) (tid : Tid) (C T : Option Timespec) (cpuid : ℤ) :
    Except Fault (ℤ × Kernel) :=
  if cpuid < -1 ∨ 3 < cpuid then
    .ok (EINVAL, s)
  else
    match C, T with
    | some C, some T =>
        if !s.found tid then
          .ok (ESRCH, s)
        else do
          let params ← paramsOf C T
          let (retval, cpu, s') ← s.assign tid params (cpuOf cpuid)
          if retval ≠ 0 then
            .ok (retval, s')
          else
            match cpu with
            | none => .error .outOfBounds
            | some cpu => s'.afterBind srv tid C T cpu (s.reserve tid)
    | _, _ => .ok (EINVAL, s)

/-! ## Releasing a reservation -/

/-- Stop both timers of a task. -/
def stopTimers (s : Kernel) (t : Tid) : Kernel :=
  s.modify t fun reserve => { reserve with cTimer := false, pTimer := false }

/-- Take a CPU other than CPU 0 offline if its bin is closed. -/
def offlineIfClosed (srv : Services) (s : Kernel) (cpu : Cpu) : Kernel :=
  if !(s.table cpu).cpuOpen && cpu ≠ 0 then s.cpuDown srv cpu else s

/-- Remove the task from its CPU, close the bin if necessary, and take the CPU
offline if necessary. -/
def release (srv : Services) (s : Kernel) (t : Tid) : Except Fault Kernel := do
  let cpu := (s.reserve t).cpu
  let table ← takeOut s.table (some cpu) cpu t (s.reserve t).util
  let s := { s with table := Function.update table cpu (table cpu).closeIfIdle }
  .ok (s.offlineIfClosed srv cpu)

/-- Remove the file of the task under the `util` object. -/
def removeTidFile (s : Kernel) (t : Tid) : Kernel :=
  if s.utilKobj then (s.kfree (s.reserve t).tidAttrName).kfree (s.reserve t).periods else s

/-- Remove the energy file of a released task. -/
def dropEnergyFile (s : Kernel) (t : Tid) : Kernel :=
  if s.tasksKobj && (s.reserve t).pidKobj then
    (s.removeEnergyFile t).modify t fun reserve => { reserve with trackingEnergy := false }
  else
    s

/-- The part of `cancel_reserve` that releases a reserved task. -/
def unreserve (srv : Services) (s : Kernel) (t : Tid) : Except Fault (ℤ × Kernel) :=
  if !(s.reserve t).flag then
    .ok (0, s)
  else if !srv.schedSetaffinity then
    .ok (EINVAL, s.stopTimers t)
  else do
    let s ← ((s.stopTimers t).modify t fun reserve => { reserve with flag := false }).release srv t
    .ok (0, s)

/-- The system call `cancel_reserve`. -/
def cancelReserve (srv : Services) (s : Kernel) (tid : Tid) : Except Fault (ℤ × Kernel) :=
  if !s.found tid then
    .ok (ESRCH, s)
  else do
    let (retval, s) ← s.unreserve srv tid
    if retval ≠ 0 then
      .ok (retval, s)
    else do
      let s ← sysclockSetFrequency ((s.removeTidFile tid).dropEnergyFile tid)
      .ok (0, s)

/-- The part of `do_exit` that releases a reserved task. -/
def exitReserve (srv : Services) (s : Kernel) (t : Tid) : Except Fault Kernel :=
  if (s.reserve t).flag then
    (((s.stopTimers t).removeTidFile t).dropEnergyFile t).release srv t
  else
    .ok s

/-- `do_exit`, after which the task is gone. -/
def doExit (srv : Services) (s : Kernel) (t : Tid) : Except Fault Kernel := do
  let s ← s.exitReserve srv t
  .ok { s with exited := Function.update s.exited t true }

end Kernel

end Rtes.Reservation
