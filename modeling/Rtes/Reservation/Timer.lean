import Rtes.Reservation.Syscall

/-!
# Timers, suspension and steps

The callbacks of the two timers of a reservation, the call that ends a job, and
the part of a context switch that starts and stops the budget timer and charges
energy.  Together with the system calls they are the steps of the system.
-/

namespace Rtes.Reservation

open Rtes.Word

/-! ## Accumulators -/

/-- `RESERVE_INCREMENT_NS` -/
def reserveIncrementNs : ℤ := 495000

/-- `NS_PER_S` -/
def nsPerS : ℤ := 1000000000

/-- Charge one tick of the budget timer to an accumulator.  The seconds, a `long` of 32
bits in the source, are not bounded here: they would wrap after 68 years of running time
within one period. -/
def Timespec.tick (acc : Timespec) : Timespec :=
  if nsPerS < acc.tvNsec + reserveIncrementNs then
    ⟨acc.tvSec + 1, acc.tvNsec + reserveIncrementNs - nsPerS⟩
  else
    ⟨acc.tvSec, acc.tvNsec + reserveIncrementNs⟩

/-- The time limit test. -/
def Timespec.exceeds (acc C : Timespec) : Bool :=
  C.tvSec < acc.tvSec || (acc.tvSec == C.tvSec && C.tvNsec < acc.tvNsec)

/-- Record the end of a period in the circular buffer. -/
def Ring.record (ring : Ring) (accTime : ℕ) (util : ℤ) : Ring :=
  let last := if bufLength ≤ ring.last + 1 then ring.last + 1 - bufLength else ring.last + 1
  let full := last = ring.start ∧ ring.periods ring.start.toNat ≠ 0
  let start :=
    if full then
      if bufLength ≤ ring.start + 1 then ring.start + 1 - bufLength else ring.start + 1
    else
      ring.start
  { periods := Function.update ring.periods last.toNat accTime
    utilization := Function.update ring.utilization last.toNat util
    start := start
    last := last
    bufferFull := if full then true else ring.bufferFull }

namespace Kernel

/-! ## Callbacks -/

/-- Put a task to sleep until its next period. -/
def suspendTask (s : Kernel) (t : Tid) : Kernel :=
  if (s.reserve t).suspend then s
  else
    { s.modify t fun reserve => { reserve with suspend := true } with
      uninterruptible := Function.update s.uninterruptible t true }

/-- Wake a task that sleeps until its next period. -/
def resumeTask (s : Kernel) (t : Tid) : Kernel :=
  if (s.reserve t).suspend then
    { s.modify t fun reserve => { reserve with suspend := false } with
      uninterruptible := Function.update s.uninterruptible t false }
  else s

/-- `c_timer_callback`: charge a tick, and put the task to sleep and stop the
timer once it is out of budget. -/
def cTimerCallback (s : Kernel) (t : Tid) : Kernel :=
  let s := s.modify t fun reserve => { reserve with
    accSingleRun := reserve.accSingleRun.tick
    acc := reserve.acc.tick }
  if (s.reserve t).acc.exceeds (s.reserve t).C then
    (s.suspendTask t).modify t fun reserve => { reserve with cTimer := false }
  else
    s

/-- Output the utilization of the ended period into the buffer. -/
def recordPeriod (s : Kernel) (t : Tid) : Except Fault Kernel :=
  if s.taskmonEnabled then
    if (s.reserve t).period = 0 then
      .error .divisionByZero
    else
      let computation := int32 (int32 (1000 * (s.reserve t).acc.tvSec) +
        (s.reserve t).acc.tvNsec.tdiv 1000000)
      let util := int32 ((int32 (computation * 100)).tdiv (s.reserve t).period)
      .ok (s.modify t fun reserve => { reserve with
        taskmonEnabled := true
        ring := reserve.ring.record s.taskmonAccTime util })
  else
    .ok (s.modify t fun reserve => { reserve with taskmonEnabled := false })

/-- Remove the energy file once the monitor module is gone. -/
def dropStaleEnergyFile (s : Kernel) (t : Tid) : Kernel :=
  if !s.rtesKobj && (s.reserve t).pidKobj then
    (s.removeEnergyFile t).modify t fun reserve => { reserve with trackingEnergy := false }
  else
    s

/-- `p_timer_callback`: record the period, reset the accumulator, wake the task
and run again after another period.  `freq` is what `cpufreq_get` returns. -/
def pTimerCallback (freq : Cpu → ℕ) (s : Kernel) (t : Tid) : Except Fault Kernel := do
  let s := { s with
    cpuFreq := fun cpu => if s.cpuOnline cpu then freq cpu / 1000 else s.cpuFreq cpu }
  let s ← s.recordPeriod t
  let s := s.modify t fun reserve => { reserve with acc := ⟨0, 0⟩ }
  .ok ((s.dropStaleEnergyFile t).resumeTask t)

/-- The system call `end_job`, called by task `t` itself. -/
def endJob (s : Kernel) (t : Tid) : ℤ × Kernel :=
  if (s.reserve t).flag then (0, s.suspendTask t) else (-1, s)

/-! ## Context switches -/

/-- Power drawn by a CPU at a frequency in MHz, by the lookup table. -/
def powerAt (s : Kernel) (freq : ℕ) : ℕ :=
  if 51 ≤ freq ∧ freq ≤ 1300 then s.freqToPower (freq - 51) else 0

/-- Energy of the run that ends, in the arithmetic of an `unsigned long`. -/
def runEnergy (s : Kernel) (t : Tid) : ℕ :=
  let power := s.powerAt (s.cpuFreq (s.reserve t).cpu)
  let run := (s.reserve t).accSingleRun
  uint32 (uint32 (power * run.tvSec.toNat) +
    uint32 (power * (run.tvNsec.tdiv 1000000).toNat) / 1000)

/-- Stop the budget timer of a reserved task. -/
def stopBudget (s : Kernel) (t : Tid) : Kernel :=
  if (s.reserve t).flag then s.modify t fun reserve => { reserve with cTimer := false } else s

/-- Charge the energy of the run that ends to a tracked task and to the total. -/
def chargeRun (s : Kernel) (t : Tid) : Kernel :=
  if (s.reserve t).trackingEnergy then
    { s.modify t fun reserve => { reserve with energy := uint32 (reserve.energy + s.runEnergy t) }
      with totalEnergy := uint32 (s.totalEnergy + s.runEnergy t) }
  else
    s

/-- What `__schedule` does for the task it switches out. -/
def switchOut (s : Kernel) (t : Tid) : Kernel :=
  ((s.stopBudget t).chargeRun t).modify t fun reserve => { reserve with accSingleRun := ⟨0, 0⟩ }

/-- What `__schedule` does for the task it switches in. -/
def switchIn (s : Kernel) (t : Tid) : Kernel :=
  if (s.reserve t).flag then s.modify t fun reserve => { reserve with cTimer := true } else s

/-- `partition_policy_store`: a policy is stored only while no CPU has
reservations. -/
def partitionPolicyStore (s : Kernel) (policy : PartitionPolicy) : Kernel :=
  if allCpus.all fun cpu => (s.table cpu).cpuTasksLength == 0 then
    { s with partitionPolicy := policy }
  else
    s

end Kernel

/-! ## Steps of the system -/

/-- One operation on the reservation subsystem. -/
inductive Op where
  | setReserve (srv : Services) (tid : Tid) (C T : Option Timespec) (cpuid : ℤ)
  | cancelReserve (srv : Services) (tid : Tid)
  | doExit (srv : Services) (t : Tid)
  | endJob (t : Tid)
  | cTimer (t : Tid)
  | pTimer (freq : Cpu → ℕ) (t : Tid)
  | switchOut (t : Tid)
  | switchIn (t : Tid)
  | setPolicy (policy : PartitionPolicy)

/-- The state after one operation. -/
def step (s : Kernel) : Op → Except Fault Kernel
  | .setReserve srv tid C T cpuid => do
      let (_, s) ← s.setReserve srv tid C T cpuid
      .ok s
  | .cancelReserve srv tid => do
      let (_, s) ← s.cancelReserve srv tid
      .ok s
  | .doExit srv t => s.doExit srv t
  | .endJob t => .ok (s.endJob t).2
  | .cTimer t => .ok (s.cTimerCallback t)
  | .pTimer freq t => s.pTimerCallback freq t
  | .switchOut t => .ok (s.switchOut t)
  | .switchIn t => .ok (s.switchIn t)
  | .setPolicy policy => .ok (s.partitionPolicyStore policy)

end Rtes.Reservation
