import Rtes.Reservation.Lifecycle
import Rtes.Text.Scan

/-!
# The monitor module and its files

The module keeps a clock, which a timer of its own advances while the monitor is
enabled, and offers files to read and to write.  A write hands the text to the
store function of the file; numbers are read from it by the `sscanf` of the
kernel.  The state of the module stands beside that of the system, whose
operations are those of the lower level.
-/

namespace Rtes.Taskmon

open Rtes.Reservation Rtes.Text Rtes.Transition Rtes.Word

/-! ## Numbers in texts -/

/-- White space, as `isspace` of the kernel has it. -/
def isSpace (c : Char) : Bool :=
  c ∈ [' ', '\t', '\n', '\x0b', '\x0c', '\r', '\xa0']

/-- A minus sign, the only sign the kernel reads. -/
def takeMinus : List Char → Bool × List Char
  | '-' :: rest => (true, rest)
  | rest => (false, rest)

/-- The conversion `%d` of the kernel.  Nothing is stored if no number is
there. -/
def sscanf (buf : List Char) : Option ℤ :=
  let (negative, text) := takeMinus (buf.dropWhile isSpace)
  let digits := text.takeWhile Char.isDigit
  if digits = [] then
    none
  else
    let value : ℤ := Nat.ofDigitChars 10 digits 0
    some (int32 (if negative then -value else value))

/-! ## The module -/

/-- The system, the integers behind the files `enabled` and `config/energy`,
whether the timer of the module is queued, and its callbacks since the clock
was last advanced. -/
structure Station where
  system : System
  enabled : ℤ
  energyTracking : ℤ
  taskmonTimer : Bool
  count : ℕ

namespace Station

/-- Change the kernel. -/
def withKernel (st : Station) (s : Kernel) : Station :=
  { st with system := { st.system with kernel := s } }

/-- `taskmon_timer_callback`: every tenth call advances the clock. -/
def taskmonTimerCallback (st : Station) : Station :=
  if st.count + 1 = 10 then
    { st.withKernel { st.system.kernel with
        taskmonAccTime := (st.system.kernel.taskmonAccTime + 1) % 18446744073709551616 } with
      count := 0 }
  else
    { st with count := st.count + 1 }

/-! ## Stores -/

/-- `enabled_store`: a text without a number leaves the attribute as it is, and
starts or stops the timer all the same.  One byte is said to be consumed. -/
def enabledStore (st : Station) (buf : List Char) : ℤ × Station :=
  let enabled := (sscanf buf).getD st.enabled
  (1, { st.withKernel (st.system.kernel.enabledStore (enabled ≠ 0)) with
    enabled := enabled
    taskmonTimer := enabled ≠ 0 })

/-- `energy_tracking_store`. -/
def energyTrackingStore (st : Station) (buf : List Char) : ℤ × Station :=
  let energyTracking := (sscanf buf).getD st.energyTracking
  (1, { st.withKernel (st.system.kernel.energyTrackingStore (energyTracking ≠ 0)) with
    energyTracking := energyTracking })

/-- `total_energy_store`: whatever is written, the total starts again. -/
def totalEnergyStore (st : Station) (_buf : List Char) : ℤ × Station :=
  (1, st.withKernel { st.system.kernel with totalEnergy := 0 })

end Station

/-- The name of a policy, as `partition_policy` holds it. -/
def policyName : PartitionPolicy → List Char
  | .FFD => ['F', 'F', 'D']
  | .NFD => ['N', 'F', 'D']
  | .BFD => ['B', 'F', 'D']
  | .WFD => ['W', 'F', 'D']
  | .LST => ['L', 'S', 'T']

/-- The policy a text names: its name and a newline, and nothing else. -/
def policyOf (buf : List Char) : Option PartitionPolicy :=
  [.FFD, .NFD, .BFD, .WFD, .LST].find? fun policy => buf = policyName policy ++ ['\n']

namespace Station

/-- `partition_policy_store`.  What it returns when it refuses is positive. -/
def partitionPolicyStore (st : Station) (buf : List Char) : ℤ × Station :=
  if allCpus.any fun cpu => (st.system.kernel.table cpu).cpuTasksLength != 0 then
    (EBUSY, st)
  else
    match policyOf buf with
    | some policy =>
        (buf.length, st.withKernel { st.system.kernel with partitionPolicy := policy })
    | none => (EINVAL, st)

/-! ## Shows -/

/-- `enabled_show`. -/
def enabledShow (st : Station) : List Char :=
  signedDecimal st.enabled ++ ['\n']

/-- `energy_tracking_show`. -/
def energyTrackingShow (st : Station) : List Char :=
  signedDecimal st.energyTracking ++ ['\n']

/-- `partition_policy_show`. -/
def partitionPolicyShow (st : Station) : List Char :=
  policyName st.system.kernel.partitionPolicy ++ ['\n']

end Station

/-! ## Steps -/

/-- One operation on the system or on a file of the module, or a callback of its
timer. -/
inductive StationOp where
  | core (op : Op)
  | fork (parent child : Tid) (leader : Bool)
  | reap (t : Tid)
  | taskmonInit (srv : TaskmonServices)
  | taskmonExit
  | enabledStore (buf : List Char)
  | energyTrackingStore (buf : List Char)
  | totalEnergyStore (buf : List Char)
  | partitionPolicyStore (buf : List Char)
  | taskmonTimer

/-- The files are there while the module is loaded. -/
def onFile (st : Station) (store : ℤ × Station) : Station :=
  if st.system.taskmonLoaded then store.2 else st

/-- The station after one operation.  A module that is loaded brings its
variables with it; one that is unloaded stops its timer.  The timer calls back
only while it is queued. -/
def stationStep (st : Station) : StationOp → Except Fault Station
  | .core op => do
      let system ← systemStep st.system (.core op)
      .ok { st with system := system }
  | .fork parent child leader => do
      let system ← systemStep st.system (.fork parent child leader)
      .ok { st with system := system }
  | .reap t => do
      let system ← systemStep st.system (.reap t)
      .ok { st with system := system }
  | .taskmonInit srv => do
      let system ← systemStep st.system (.taskmonInit srv)
      if st.system.taskmonLoaded || st.system.taskmonPartial then
        .ok st
      else
        .ok { st with system := system, enabled := 0, taskmonTimer := false, count := 0 }
  | .taskmonExit => do
      let system ← systemStep st.system .taskmonExit
      if st.system.taskmonLoaded then
        .ok { st with system := system, enabled := 0, taskmonTimer := false }
      else
        .ok st
  | .enabledStore buf => .ok (onFile st (st.enabledStore buf))
  | .energyTrackingStore buf => .ok (onFile st (st.energyTrackingStore buf))
  | .totalEnergyStore buf => .ok (onFile st (st.totalEnergyStore buf))
  | .partitionPolicyStore buf => .ok (onFile st (st.partitionPolicyStore buf))
  | .taskmonTimer => .ok (if st.taskmonTimer then st.taskmonTimerCallback else st)

/-! ## The system below -/

/-- The operation on the system that an operation on the station amounts to, if
there is one: a store is one of the value its text has. -/
def lower (st : Station) : StationOp → Option SystemOp
  | .core op => some (.core op)
  | .fork parent child leader => some (.fork parent child leader)
  | .reap t => some (.reap t)
  | .taskmonInit srv => some (.taskmonInit srv)
  | .taskmonExit => some .taskmonExit
  | .enabledStore buf => some (.enabledStore ((sscanf buf).getD st.enabled ≠ 0))
  | .energyTrackingStore buf =>
      some (.energyTrackingStore ((sscanf buf).getD st.energyTracking ≠ 0))
  | .partitionPolicyStore buf =>
      if st.system.taskmonLoaded then (policyOf buf).map fun policy => .core (.setPolicy policy)
      else none
  | .totalEnergyStore _ => none
  | .taskmonTimer => none

private theorem systemStep_taskmonInit_loaded {system : System}
    (loaded : (system.taskmonLoaded || system.taskmonPartial) = true) (srv : TaskmonServices) :
    systemStep system (.taskmonInit srv) = .ok system :=
  if_pos loaded

private theorem systemStep_taskmonExit_unloaded {system system' : System}
    (loaded : system.taskmonLoaded ≠ true) (taken : systemStep system .taskmonExit = .ok system') :
    system' = system := by
  rw [systemStep, if_neg loaded] at taken
  split at taken
  · cases taken
  · exact (Except.ok.inj taken).symm

/-- A policy that is stored is stored by the operation of the lower level, which
refuses it for the same reason. -/
theorem partitionPolicyStore_eq (st : Station) {buf : List Char} {policy : PartitionPolicy}
    (named : policyOf buf = some policy) : (st.partitionPolicyStore buf).2.system =
      { st.system with kernel := st.system.kernel.partitionPolicyStore policy } := by
  have same : (allCpus.any fun cpu => (st.system.kernel.table cpu).cpuTasksLength != 0) =
      !(allCpus.all fun cpu => (st.system.kernel.table cpu).cpuTasksLength == 0) := by
    simp [List.any_eq_not_all_not, bne]
  unfold Station.partitionPolicyStore Kernel.partitionPolicyStore
  rw [same, named]
  cases allCpus.all fun cpu => (st.system.kernel.table cpu).cpuTasksLength == 0 with
  | true => rfl
  | false => rfl

/-- An operation of the station that is none of the system: a callback of the
timer may advance the clock, and writing to the total starts it again. -/
structure OwnStep (st : Station) (op : StationOp) (st' : Station) : Prop where
  none : lower st op = none
  system : st'.system = { st.system with
    kernel := { st.system.kernel with
      taskmonAccTime := st'.system.kernel.taskmonAccTime
      totalEnergy := st'.system.kernel.totalEnergy } }
  clock : op ≠ .taskmonTimer →
    st'.system.kernel.taskmonAccTime = st.system.kernel.taskmonAccTime
  total : (∀ buf, op ≠ .totalEnergyStore buf) →
    st'.system.kernel.totalEnergy = st.system.kernel.totalEnergy

/-- A station refines the system: every operation is one of the system, or
changes at most the clock and the total. -/
theorem stationStep_lower {st st' : Station} {op : StationOp}
    (taken : stationStep st op = .ok st') :
    (∃ below, lower st op = some below ∧ systemStep st.system below = .ok st'.system) ∨
      OwnStep st op st' := by
  cases op with
  | core op =>
      obtain ⟨system, steps, result⟩ := bind_eq_ok_iff.mp taken
      cases result
      exact .inl ⟨_, rfl, steps⟩
  | fork parent child leader =>
      obtain ⟨system, steps, result⟩ := bind_eq_ok_iff.mp taken
      cases result
      exact .inl ⟨_, rfl, steps⟩
  | reap t =>
      obtain ⟨system, steps, result⟩ := bind_eq_ok_iff.mp taken
      cases result
      exact .inl ⟨_, rfl, steps⟩
  | taskmonInit srv =>
      obtain ⟨system, steps, result⟩ := bind_eq_ok_iff.mp taken
      split at result
      · rename_i loaded
        cases result
        exact .inl ⟨_, rfl, systemStep_taskmonInit_loaded loaded srv⟩
      · cases result
        exact .inl ⟨_, rfl, steps⟩
  | taskmonExit =>
      obtain ⟨system, steps, result⟩ := bind_eq_ok_iff.mp taken
      split at result
      · cases result
        exact .inl ⟨_, rfl, steps⟩
      · rename_i unloaded
        cases result
        obtain rfl := systemStep_taskmonExit_unloaded unloaded steps
        exact .inl ⟨_, rfl, steps⟩
  | enabledStore buf =>
      cases taken
      refine .inl ⟨_, rfl, ?_⟩
      rw [systemStep, onFile]
      split
      · rfl
      · rfl
  | energyTrackingStore buf =>
      cases taken
      refine .inl ⟨_, rfl, ?_⟩
      rw [systemStep, onFile]
      split
      · rfl
      · rfl
  | totalEnergyStore buf =>
      cases taken
      right
      unfold onFile
      split
      · exact ⟨rfl, rfl, fun _ => rfl, fun other => absurd rfl (other buf)⟩
      · exact ⟨rfl, rfl, fun _ => rfl, fun _ => rfl⟩
  | partitionPolicyStore buf =>
      cases taken
      by_cases loaded : st.system.taskmonLoaded = true
      · rw [onFile, if_pos loaded]
        cases named : policyOf buf with
        | some policy =>
            refine .inl ⟨.core (.setPolicy policy), by simp [lower, loaded, named], ?_⟩
            rw [partitionPolicyStore_eq st named]
            rfl
        | none =>
            have same : (st.partitionPolicyStore buf).2 = st := by
              unfold Station.partitionPolicyStore
              rw [named]
              split <;> rfl
            rw [same]
            exact .inr ⟨by simp [lower, loaded, named], rfl, fun _ => rfl, fun _ => rfl⟩
      · rw [onFile, if_neg loaded]
        exact .inr ⟨by simp [lower, loaded], rfl, fun _ => rfl, fun _ => rfl⟩
  | taskmonTimer =>
      cases taken
      right
      unfold Station.taskmonTimerCallback
      split_ifs
      · exact ⟨rfl, rfl, fun other => absurd rfl other, fun _ => rfl⟩
      · exact ⟨rfl, rfl, fun _ => rfl, fun _ => rfl⟩
      · exact ⟨rfl, rfl, fun _ => rfl, fun _ => rfl⟩

end Rtes.Taskmon
