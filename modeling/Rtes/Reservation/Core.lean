import Rtes.Slots.Shift
import Rtes.Transition.Reach
import Rtes.Word.Wrap

/-!
# Kernel state of the reservation subsystem

The data that `reserve.c`, `sysclock.c` and their hooks in `exit.c` and
`sched.c` read and write.  A task is named by its thread id, which also stands
for the pointer to its `task_struct`.  The four parallel arrays indexed by CPU
are one record per CPU.  A timer is represented by whether it is armed, an
allocation by the task it was made for, and a kernel object by its presence.
-/

namespace Rtes.Reservation

open Rtes.Slots Rtes.Word

/-- Thread ids, standing for the `task_struct` they find. -/
abbrev Tid := ℕ

/-- The four CPUs. -/
abbrev Cpu := Fin 4

instance cpusNonempty : NeZero 4 :=
  ⟨by decide⟩

/-- Addresses handed out by the allocator. -/
abbrev Addr := ℕ

/-- What can go wrong in an execution other than by a returned error. -/
inductive Fault where
  | outOfBounds
  | divisionByZero
  | divergence
  | uninitialized
  | nullPointer
  deriving DecidableEq, Repr

/-- The partition policies the `partition_policy` file accepts. -/
inductive PartitionPolicy where
  | FFD
  | NFD
  | BFD
  | WFD
  | LST
  deriving DecidableEq, Repr

/-! ## Constants -/

def ESRCH : ℤ := 3
def ENOMEM : ℤ := 12
def EBUSY : ℤ := 16
def EINVAL : ℤ := 22

/-- `UTIL_MULTIPLE`: utilizations are in parts of ten thousand. -/
def utilMultiple : ℤ := 10000

/-- `TASK_SCHEDULING_LENGTH`: capacity of the task array of a CPU. -/
def taskSchedulingLength : ℤ := 1000

/-- `BUF_LENGTH`, one page: capacity of the utilization buffer of a task. -/
def bufLength : ℤ := 4096

/-- Rounds after which a loop over 32-bit words repeats a state, so that one
which is still running then never ends. -/
def loopRounds : ℕ := 4294967298

/-! ## Reservations -/

structure Timespec where
  tvSec : ℤ
  tvNsec : ℤ
  deriving DecidableEq, Repr

/-- Whole milliseconds, in the arithmetic of a 32-bit `long`. -/
def Timespec.millis (time : Timespec) : ℤ :=
  int32 (int32 (time.tvSec * 1000) + time.tvNsec.tdiv 1000000)

/-- Circular buffer of the utilizations of past periods.  `last` is the source's
`end`. -/
structure Ring where
  periods : ℕ → ℕ
  utilization : ℕ → ℤ
  start : ℤ
  last : ℤ
  bufferFull : Bool

/-- The `reserve` member of a `task_struct`. -/
structure Reserve where
  flag : Bool
  suspend : Bool
  C : Timespec
  T : Timespec
  cpu : Cpu
  budget : ℤ
  period : ℤ
  util : ℤ
  acc : Timespec
  cTimer : Bool
  pTimer : Bool
  taskmonEnabled : Bool
  tidAttrName : Option Addr
  periods : Option Addr
  ring : Ring
  accSingleRun : Timespec
  trackingEnergy : Bool
  energy : ℕ
  pidKobj : Bool
  energyAttr : Option Addr

/-- The `reserve` member of a task that never had a reservation. -/
def Reserve.zero : Reserve where
  flag := false
  suspend := false
  C := ⟨0, 0⟩
  T := ⟨0, 0⟩
  cpu := 0
  budget := 0
  period := 0
  util := 0
  acc := ⟨0, 0⟩
  cTimer := false
  pTimer := false
  taskmonEnabled := false
  tidAttrName := none
  periods := none
  ring := ⟨fun _ => 0, fun _ => 0, 0, 0, false⟩
  accSingleRun := ⟨0, 0⟩
  trackingEnergy := false
  energy := 0
  pidKobj := false
  energyAttr := none

/-! ## The table of reserved tasks -/

/-- One CPU's entries of `cpu_tasks`, `cpu_tasks_length`, `cpu_util` and
`cpu_open`. -/
structure CpuTable where
  cpuTasks : ℕ → Tid
  cpuTasksLength : ℤ
  cpuUtil : ℤ
  cpuOpen : Bool

/-- The tasks reserved on a CPU: the live entries of its array. -/
def CpuTable.entries (bin : CpuTable) : List Tid :=
  live bin.cpuTasks bin.cpuTasksLength.toNat

/-- A CPU without reservations. -/
def CpuTable.empty : CpuTable where
  cpuTasks := fun _ => 0
  cpuTasksLength := 0
  cpuUtil := 0
  cpuOpen := false

abbrev Table := Cpu → CpuTable

/-! ## The kernel -/

structure Kernel where
  reserve : Tid → Reserve
  uninterruptible : Tid → Bool
  exited : Tid → Bool
  found : Tid → Bool
  processes : List Tid
  table : Table
  partitionPolicy : PartitionPolicy
  lastCpuIDRevise : Cpu
  lastCpuIDCreate : Cpu
  cpuOnline : Cpu → Bool
  cpuDownCalls : List Cpu
  rollbacks : List ℤ
  utilKobj : Bool
  tasksKobj : Bool
  rtesKobj : Bool
  taskmonEnabled : Bool
  taskmonAccTime : ℕ
  energyTracking : Bool
  cpuFreq : Cpu → ℕ
  freqToPower : ℕ → ℕ
  totalEnergy : ℕ
  allocated : Addr → Option Tid
  nextAddr : Addr
  sysclockGovernor : Cpu → Bool
  cpuCurFreq : Cpu → ℕ

/-- Outcomes of the kernel services a call depends on. -/
structure Services where
  schedSetaffinity : Bool
  cpuUp : Bool
  cpuDown : Cpu → Bool
  kmallocName : Bool
  sysfsCreateUtil : ℤ
  kmallocPeriods : Bool
  kmallocKobjName : Bool
  kobjectCreateAndAdd : Bool
  kmallocEnergyAttr : Bool
  sysfsCreateEnergy : ℤ

namespace Kernel

/-- Change the reservation data of one task. -/
def modify (s : Kernel) (t : Tid) (f : Reserve → Reserve) : Kernel :=
  { s with reserve := Function.update s.reserve t (f (s.reserve t)) }

@[simp]
theorem modify_reserve (s : Kernel) (t : Tid) (f : Reserve → Reserve) :
    (s.modify t f).reserve = Function.update s.reserve t (f (s.reserve t)) :=
  rfl

@[simp]
theorem modify_table (s : Kernel) (t : Tid) (f : Reserve → Reserve) :
    (s.modify t f).table = s.table :=
  rfl

@[simp]
theorem modify_exited (s : Kernel) (t : Tid) (f : Reserve → Reserve) :
    (s.modify t f).exited = s.exited :=
  rfl

/-- `kmalloc` on behalf of a task, failing or returning a fresh address. -/
def kmalloc (s : Kernel) (succeeds : Bool) (t : Tid) : Option Addr × Kernel :=
  if succeeds then
    (some s.nextAddr,
      { s with
        allocated := Function.update s.allocated s.nextAddr (some t)
        nextAddr := s.nextAddr + 1 })
  else
    (none, s)

/-- `kfree`: the object is no longer allocated.  Freeing `NULL` does nothing. -/
def kfree (s : Kernel) : Option Addr → Kernel
  | none => s
  | some addr => { s with allocated := Function.update s.allocated addr none }

/-- `cpu_down`, recorded with every other call of it. -/
def cpuDown (srv : Services) (s : Kernel) (cpu : Cpu) : Kernel :=
  { s with
    cpuOnline := if srv.cpuDown cpu then Function.update s.cpuOnline cpu false else s.cpuOnline
    cpuDownCalls := cpu :: s.cpuDownCalls }

end Kernel

end Rtes.Reservation
