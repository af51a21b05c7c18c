import Rtes.Reservation.Core
import Rtes.Slots.Exchange

/-!
# The SysClock computation

`sysclock_compute` collects the reserved tasks of each CPU, sorts them by
period, and takes for each task the least scale at which one of the multiples
of the shorter periods is long enough for the demand up to it.  The frequency
follows from the greatest scale over all tasks.  The word type of the
arithmetic is a parameter: `uint32` is the target's `unsigned long`, the
identity computes without bound.
-/

namespace Rtes.Sysclock

open Rtes.Reservation Rtes.Slots Rtes.Word

/-- `MAX_TASK` -/
def maxTask : ℕ := 100

/-- `SYSCLOCK_MAX_FREQ` -/
def sysclockMaxFreq : ℕ := 1200

/-- `SYSCLOCK_FREQ_FACTOR` -/
def sysclockFreqFactor : ℕ := 1000

/-- `SCALE_FACTOR` -/
def scaleFactor : ℕ := 100000

/-- An entry of `t_list`: budget and period in milliseconds. -/
structure SysclockEntry where
  C : ℕ
  T : ℕ
  deriving DecidableEq, Repr

/-- Conversion of a `long` to an `unsigned long`. -/
def toUnsigned (x : ℤ) : ℕ :=
  (x % 4294967296).toNat

/-- The entry of a task, from the timespecs of its reservation. -/
def entryOf (reserve : Reserve) : SysclockEntry where
  C := toUnsigned reserve.C.millis
  T := toUnsigned reserve.T.millis

/-- The entries of the reserved processes of a CPU, in the order of the process
list. -/
def collect (reserve : Tid → Reserve) (processes : List Tid) (cpu : Cpu) : List SysclockEntry :=
  (processes.filter fun t => (reserve t).flag && (reserve t).cpu == cpu).map fun t =>
    entryOf (reserve t)

section Search

variable (word : ℕ → ℕ) (tList : ℕ → SysclockEntry)

/-- `c_sum` after the first `k` entries, for a window of `tSum` milliseconds. -/
def cSum (tSum : ℕ) : ℕ → Except Fault ℕ
  | 0 => .ok 0
  | l + 1 => do
      let sum ← cSum tSum l
      if (tList l).T = 0 then
        .error .divisionByZero
      else if tSum % (tList l).T ≠ 0 then
        .ok (word (sum + word (word (tSum / (tList l).T + 1) * (tList l).C)))
      else
        .ok (word (sum + word (tSum / (tList l).T * (tList l).C)))

/-- The loop over the multiples `n` of the period of task `j`, up to the period
of task `i`. -/
def pointLoop (i j : ℕ) : (rounds n tmpScale : ℕ) → Except Fault ℕ
  | 0, _, _ => .error .divergence
  | rounds + 1, n, tmpScale =>
      let tSum := word (n * (tList j).T)
      if tSum ≤ (tList i).T then do
        let sum ← cSum word tList tSum (i + 1)
        if tSum = 0 then
          .error .divisionByZero
        else
          let scale := word (scaleFactor * sum) / tSum
          pointLoop i j rounds (n + 1) (if scale < tmpScale then scale else tmpScale)
      else
        .ok tmpScale

/-- `tmp_scale` of task `i` after the periods of the first `k` tasks. -/
def tmpScale (i : ℕ) : ℕ → Except Fault ℕ
  | 0 => .ok scaleFactor
  | j + 1 => do
      let scale ← tmpScale i j
      pointLoop word tList i j loopRounds 1 scale

/-- `max_scale` after the first `k` tasks of a CPU, from its value before them. -/
def maxScale (before : ℕ) : ℕ → Except Fault ℕ
  | 0 => .ok before
  | i + 1 => do
      let scale ← maxScale before i
      let new ← tmpScale word tList i (i + 1)
      .ok (if scale < new then new else scale)

end Search

/-- `max_scale` after a list of CPUs. -/
def scaleLoop (word : ℕ → ℕ) (tasks : Cpu → List SysclockEntry) :
    List Cpu → ℕ → Except Fault ℕ
  | [], scale => .ok scale
  | cpu :: rest, scale =>
      if maxTask < (tasks cpu).length then
        .error .outOfBounds
      else do
        let sorted := exchangeSort (fun entry => entry.T) (fun k => (tasks cpu).getD k ⟨0, 0⟩)
          (tasks cpu).length
        let scale ← maxScale word sorted scale (tasks cpu).length
        scaleLoop word tasks rest scale

/-- The frequency in kHz for the given entries of each CPU. -/
def sysclockCompute (word : ℕ → ℕ) (tasks : Cpu → List SysclockEntry) : Except Fault ℕ := do
  let scale ← scaleLoop word tasks [0, 1, 2, 3] 0
  let scale := if scale = 0 ∨ scaleFactor < scale then scaleFactor else scale
  .ok (word (word (scale * sysclockMaxFreq) / scaleFactor * sysclockFreqFactor))

/-- `sysclock_set_frequency` for the CPUs of a list: every online CPU on the
sysclock governor is set to the computed frequency. -/
def setFrequencyLoop (s : Kernel) : List Cpu → Except Fault Kernel
  | [] => .ok s
  | cpu :: rest =>
      if s.cpuOnline cpu && s.sysclockGovernor cpu then do
        let freq ← sysclockCompute uint32 (collect s.reserve s.processes)
        setFrequencyLoop { s with cpuCurFreq := Function.update s.cpuCurFreq cpu freq } rest
      else
        setFrequencyLoop s rest

def sysclockSetFrequency (s : Kernel) : Except Fault Kernel :=
  setFrequencyLoop s [0, 1, 2, 3]

end Rtes.Sysclock
