import Rtes.Reservation.Lifecycle
import Rtes.Reservation.Own
import Rtes.Reservation.Ring
import Rtes.Reservation.Runs

/-!
# The `util` file of a task

`tid_show` prints the slots that it drains from the utilization buffer.  As long
as the reservation of a task lasts, its buffer is recorded to by the period timer
and drained by reads, so that it is in a state the runs of the buffer lead to, and
how many periods were recorded decides whether the next read returns.
-/

namespace Rtes.Reservation

open Rtes.Transition

/-! ## Reading the file -/

/-- The line of a slot, and `integer_part` after it. -/
def showSlot (integerPart : ℤ) (slot : ℕ × ℤ) : String × ℤ :=
  let (period, utilization) := slot
  if utilization < 10 then
    (s!"{period} 0.0{utilization}\n", integerPart)
  else if utilization < 100 then
    (s!"{period} 0.{utilization}\n", integerPart)
  else
    let (utilization, integerPart) := takeWhole utilization.toNat utilization integerPart
    (s!"{period} {integerPart}.{utilization}\n", integerPart)

/-- The lines of the slots that are printed.  `integer_part` is not reset in
between. -/
def showSlots : (integerPart : ℤ) → List (ℕ × ℤ) → String
  | _, [] => ""
  | integerPart, slot :: rest =>
      let (line, integerPart) := showSlot integerPart slot
      line ++ showSlots integerPart rest

/-- `tid_show`: the return value, the text that is written, and the state after
it. -/
def Kernel.tidShow (s : Kernel) (tid : Tid) : Except Fault (ℤ × String × Kernel) :=
  if !s.found tid then
    .ok (ESRCH, "", s)
  else do
    let (slots, ring) ← (s.reserve tid).ring.drain loopRounds
    let buf := showSlots 0 slots
    .ok (buf.length, buf, s.modify tid fun reserve => { reserve with ring := ring })

/-! ## The buffer of a task -/

section Kernel

variable {s s' : Kernel} {t : Tid}

theorem kmalloc_reserve {succeeds : Bool} {result : Option Addr}
    (allocates : s.kmalloc succeeds t = (result, s')) : s'.reserve = s.reserve := by
  unfold Kernel.kmalloc at allocates
  split at allocates
  · cases allocates
    rfl
  · cases allocates
    rfl

/-- A file that could be set up has a new buffer. -/
theorem setUpTidFile_ring {srv : Services} {named : Kernel}
    (sets : s.setUpTidFile srv t = (0, named)) (monitored : s.utilKobj = true)
    (flag : (s.reserve t).flag = false) : (named.reserve t).ring.SetUp := by
  have fails : ENOMEM ≠ 0 := by decide
  unfold Kernel.setUpTidFile at sets
  rw [if_pos (by simp [monitored, flag])] at sets
  split at sets
  · exact absurd (congrArg Prod.fst sets) fails
  · dsimp only at sets
    split at sets
    · rename_i nonzero
      exact absurd (congrArg Prod.fst sets) nonzero
    · split at sets
      · exact absurd (congrArg Prod.fst sets) fails
      · cases sets
        rw [Kernel.modify_reserve, Function.update_self]
        exact ⟨fun _ => rfl, rfl, rfl, rfl⟩

private theorem removeEnergyFile_ring (s : Kernel) (t : Tid) :
    ((s.removeEnergyFile t).reserve t).ring = (s.reserve t).ring := by
  unfold Kernel.removeEnergyFile Kernel.kfree
  rw [Kernel.modify_reserve, Function.update_self]
  split
  · rfl
  · rfl

private theorem setUpEnergyFile_ring (srv : Services) (s : Kernel) (t : Tid) :
    ((s.setUpEnergyFile srv t).2.reserve t).ring = (s.reserve t).ring := by
  unfold Kernel.setUpEnergyFile
  split
  · split
    · rename_i allocates
      rw [kmalloc_reserve allocates]
    · rename_i allocates
      split
      · rw [kmalloc_reserve allocates]
      · dsimp only
        split
        · rename_i fails
          rw [Kernel.modify_reserve, Function.update_self, kmalloc_reserve fails,
            Kernel.modify_reserve, Function.update_self, kmalloc_reserve allocates]
        · rename_i succeeds
          rw [Kernel.modify_reserve, Function.update_self, kmalloc_reserve succeeds,
            Kernel.modify_reserve, Function.update_self, kmalloc_reserve allocates]
  · split
    · exact removeEnergyFile_ring s t
    · rfl

/-- A new reservation that is monitored has a new buffer. -/
theorem install_ring {srv : Services} {C T : Timespec} {cpu : Cpu} {online : Cpu → Bool}
    (returns : s.install srv t C T cpu online = .ok (0, s')) (monitored : s.utilKobj = true)
    (flag : (s.reserve t).flag = false) : (s'.reserve t).ring.SetUp := by
  have prepares := (prepare_touches srv s t C T cpu online).1
  unfold Kernel.install at returns
  split at returns
  · rename_i named sets
    split at returns
    · rename_i filed files
      obtain ⟨final, commits, result⟩ := bind_eq_ok_iff.mp returns
      cases result
      have setUp : (named.reserve t).ring.SetUp := by
        apply setUpTidFile_ring sets
        · rw [prepares]
          exact monitored
        · rw [prepares]
          simp [Reserve.started, flag]
      have kept := setUpEnergyFile_ring srv named t
      rw [files] at kept
      rw [commit_eq commits]
      simp only [Kernel.modify_reserve, Function.update_self, Reserve.committed]
      rw [kept]
      exact setUp
    · rename_i nonzero
      exact (nonzero _ (Except.ok.inj returns)).elim
  · rename_i nonzero
    exact (nonzero _ (Except.ok.inj returns)).elim

/-- A call that reserves a task while the monitor is loaded sets up its buffer. -/
theorem setReserve_ring {srv : Services} {budget period : Option Timespec} {cpuid : ℤ}
    (returns : s.setReserve srv t budget period cpuid = .ok (0, s'))
    (monitored : s.utilKobj = true) (flag : (s.reserve t).flag = false) :
    (s'.reserve t).ring.SetUp := by
  rcases setReserve_cases returns with
    ⟨nonzero, _⟩ | ⟨C, T, params, value, chosen, placed, checked, converts, places, finish⟩
  · exact absurd rfl nonzero
  rcases finish with ⟨nonzero, zero, _⟩ | ⟨cpu, rfl, rfl, continues⟩
  · exact absurd zero.symm nonzero
  obtain ⟨affinity, _⟩ := afterBind_zero continues
  have reset := (assign_rebinds places).touches.andThen Reserve.fresh (.modify placed t _)
  have raised := reset.andThen id (Kernel.touches_bringUp srv _ t cpu)
  rw [← resetFresh_eq] at raised
  simp only [Kernel.afterBind, affinity, if_true] at continues
  apply install_ring continues
  · rw [raised]
    exact monitored
  · rw [raised]
    simp [Reserve.fresh, Reserve.withParams, flag]

theorem dropStaleEnergyFile_ring (s : Kernel) (t : Tid) :
    ((s.dropStaleEnergyFile t).reserve t).ring = (s.reserve t).ring := by
  unfold Kernel.dropStaleEnergyFile
  split
  · rw [Kernel.modify_reserve, Function.update_self]
    exact removeEnergyFile_ring s t
  · rfl

/-- The period timer records the period while the monitor is enabled. -/
theorem pTimerCallback_ring {freq : Cpu → ℕ} (returns : s.pTimerCallback freq t = .ok s') :
    s.taskmonEnabled = false ∧ (s'.reserve t).ring = (s.reserve t).ring ∨
      s.taskmonEnabled = true ∧ ∃ accTime util,
        (s'.reserve t).ring = (s.reserve t).ring.record accTime util := by
  obtain ⟨recorded, records, result⟩ := bind_eq_ok_iff.mp returns
  cases result
  have kept : ∀ now : Kernel, (((now.dropStaleEnergyFile t).resumeTask t).reserve t).ring =
      (now.reserve t).ring := by
    intro now
    rw [resumeTask_reserve, Function.update_self]
    exact dropStaleEnergyFile_ring now t
  rw [kept, Kernel.modify_reserve, Function.update_self]
  unfold Kernel.recordPeriod at records
  split_ifs at records with enabled
  · cases records
    rw [Kernel.modify_reserve, Function.update_self]
    exact .inr ⟨enabled, _, _, rfl⟩
  · cases records
    rw [Kernel.modify_reserve, Function.update_self]
    exact .inl ⟨Bool.eq_false_iff.mpr enabled, rfl⟩

/-- A read drains the buffer of the task whose file it is. -/
theorem tidShow_ring {tid : Tid} {size : ℤ} {buf : String}
    (returns : s.tidShow tid = .ok (size, buf, s')) :
    (s'.reserve t).ring = (s.reserve t).ring ∨
      ringStep (s.reserve t).ring .tidShow = .ok (s'.reserve t).ring := by
  unfold Kernel.tidShow at returns
  split at returns
  · cases returns
    exact .inl rfl
  · obtain ⟨⟨slots, ring⟩, drains, result⟩ := bind_eq_ok_iff.mp returns
    cases result
    rw [Kernel.modify_reserve]
    rcases eq_or_ne t tid with rfl | different
    · rw [Function.update_self]
      exact .inr (bind_eq_ok_iff.mpr ⟨_, drains, rfl⟩)
    · rw [Function.update_of_ne different]
      exact .inl rfl

end Kernel

/-! ## Every run during a reservation -/

/-- An operation on the system, or a read of the file of a task. -/
inductive MonitorOp where
  | system (op : SystemOp)
  | tidShow (tid : Tid)

def monitorStep (system : System) : MonitorOp → Except Fault System
  | .system op => systemStep system op
  | .tidShow tid => do
      let (_, _, s) ← system.kernel.tidShow tid
      .ok { system with kernel := s }

/-- A system call for a task, its exit, or the start of another task with its tid. -/
def MonitorOp.CallsFor (t : Tid) : MonitorOp → Prop
  | .system (.core (.setReserve _ tid _ _ _)) => tid = t
  | .system (.core (.cancelReserve _ tid)) => tid = t
  | .system (.core (.doExit _ tid)) => tid = t
  | .system (.fork _ child _) => child = t
  | _ => False

/-- The periods of a task that end while the monitor is enabled are counted. -/
def countRecords (t : Tid) (s : Kernel) : MonitorOp → ℕ → ℕ
  | .system (.core (.pTimer _ tid)), count =>
      if tid = t ∧ s.taskmonEnabled = true then count + 1 else count
  | _, count => count

/-- The buffer of a task is left alone, recorded to or read, and only the records are
counted. -/
def Buffers (t : Tid) (s : Kernel) (op : MonitorOp) (s' : Kernel) : Prop :=
  (s'.reserve t).ring = (s.reserve t).ring ∧ (∀ count, countRecords t s op count = count) ∨
  ∃ ringOp, ringStep (s.reserve t).ring ringOp = .ok (s'.reserve t).ring ∧
    ∀ log : Log, (log.update ringOp).records.length = countRecords t s op log.records.length

section Runs

variable {t : Tid} {s s' : Kernel} {system system' : System}

private theorem step_buffers {op : Op} (lasts : ¬ (MonitorOp.system (.core op)).CallsFor t)
    (taken : step s op = .ok s') : Buffers t s (.system (.core op)) s' := by
  obtain ⟨named, own, effect, replaced⟩ := step_own taken
  rcases eq_or_ne t named with rfl | different
  · have ring : (s'.reserve t).ring = own.ring := by rw [replaced, Function.update_self]
    cases effect with
    | setReserve => exact absurd rfl lasts
    | cancelReserve => exact absurd rfl lasts
    | doExit => exact absurd rfl lasts
    | pTimer =>
        rcases pTimerCallback_ring taken with ⟨disabled, same⟩ | ⟨enabled, accTime, util, records⟩
        · exact .inl ⟨same, fun count => by simp [countRecords, disabled]⟩
        · refine .inr ⟨.record accTime util, congrArg Except.ok records.symm, fun log => ?_⟩
          simp [countRecords, enabled, Log.update]
    | _ => exact .inl ⟨ring, fun _ => rfl⟩
  · refine .inl ⟨by rw [replaced, Function.update_of_ne different], fun count => ?_⟩
    cases effect with
    | pTimer => simp [countRecords, different.symm]
    | _ => rfl

private theorem effect_buffers {op : SystemOp} (lasts : ¬ (MonitorOp.system op).CallsFor t)
    (effect : KernelEffect s op s') : Buffers t s (.system op) s' := by
  cases effect with
  | core steps => exact step_buffers lasts steps
  | @forked parent child leader absent =>
      have different : t ≠ child := fun same => lasts same.symm
      exact .inl ⟨congrArg Reserve.ring (Function.update_of_ne different ..), fun _ => rfl⟩
  | reaped exited => exact .inl ⟨rfl, fun _ => rfl⟩
  | monitored notCore monitors =>
      refine .inl ⟨?_, fun count => ?_⟩
      · rw [monitors]
      · cases op with
        | core op => exact absurd rfl (notCore op)
        | _ => rfl

/-- While its reservation lasts, the buffer of a task is recorded to and read, and
nothing else. -/
theorem monitorStep_buffers {op : MonitorOp} (lasts : ¬ op.CallsFor t)
    (taken : monitorStep system op = .ok system') : Buffers t system.kernel op system'.kernel := by
  cases op with
  | system op => exact effect_buffers lasts (systemStep_kernel taken)
  | tidShow tid =>
      obtain ⟨⟨size, buf, shown⟩, returns, result⟩ := bind_eq_ok_iff.mp taken
      cases result
      rcases tidShow_ring returns with same | drains
      · exact .inl ⟨same, fun _ => rfl⟩
      · exact .inr ⟨.tidShow, drains, fun _ => rfl⟩

/-- The task was reserved just now, while the monitor module was loaded. -/
def JustReserved (t : Tid) (s' : Kernel) : Prop :=
  ∃ s srv budget period cpuid, Kernel.utilKobj s = true ∧ (s.reserve t).flag = false ∧
    s.setReserve srv t budget period cpuid = .ok (0, s')

def countedStep (t : Tid) : System × ℕ → MonitorOp → Except Fault (System × ℕ) :=
  observe monitorStep fun system op _ => countRecords t system.kernel op

/-- In every run during a reservation the buffer is in a state that as many records, and
reads, lead to. -/
theorem reaches_ring {now : System × ℕ}
    (reached : Reaches (countedStep t) (fun _ op => ¬ op.CallsFor t)
      (fun now => JustReserved t now.1.kernel ∧ now.2 = 0) now) :
    ∃ log, Reaches loggedStep (fun _ _ => True) Begins ((now.1.kernel.reserve t).ring, log) ∧
      log.records.length = now.2 := by
  apply reached.observed
  · rintro ⟨system, count⟩ ⟨⟨s, srv, budget, period, cpuid, monitored, flag, returns⟩, none⟩
    cases none
    exact ⟨⟨[], 0⟩, .start ⟨setReserve_ring returns monitored flag, rfl⟩, rfl⟩
  · rintro ⟨system, count⟩ op target ⟨log, before, counts⟩ lasts taken
    cases counts
    rcases monitorStep_buffers lasts taken with ⟨same, uncounted⟩ | ⟨ringOp, steps, counted⟩
    · dsimp only
      rw [same, uncounted]
      exact ⟨log, before, rfl⟩
    · exact ⟨log.update ringOp, .next before trivial (bind_eq_ok_iff.mpr ⟨_, steps, rfl⟩),
        counted log⟩

/-- In every run of the system during a reservation that was made while the monitor was loaded,
a read of the task's file returns if and only if the number of its periods that ended while the
monitor was enabled is zero or not a multiple of 4096. -/
theorem reaches_tidShow_iff {now : System × ℕ}
    (reached : Reaches (countedStep t) (fun _ op => ¬ op.CallsFor t)
      (fun now => JustReserved t now.1.kernel ∧ now.2 = 0) now)
    (found : now.1.kernel.found t = true) :
    (∃ result, now.1.kernel.tidShow t = .ok result) ↔ now.2 = 0 ∨ now.2 % 4096 ≠ 0 := by
  obtain ⟨log, reached, counts⟩ := reaches_ring reached
  have located := reaches_located reached
  have returns : (∃ result, now.1.kernel.tidShow t = .ok result) ↔
      (now.1.kernel.reserve t).ring.last ≠ 4095 := by
    unfold Kernel.tidShow
    rw [found, Bool.not_true, if_neg Bool.false_ne_true]
    constructor
    · rintro ⟨result, shows⟩
      obtain ⟨⟨slots, ring⟩, drains, _⟩ := bind_eq_ok_iff.mp shows
      exact located.last_ne drains
    · intro notLast
      obtain ⟨⟨slots, ring⟩, drains⟩ := located.drain_ends notLast
        (show 4096 < loopRounds by decide)
      exact ⟨_, bind_eq_ok_iff.mpr ⟨_, drains, rfl⟩⟩
  have last := located.last
  rw [counts] at last
  rw [returns, last]
  split_ifs with none
  · simp [none]
  · omega

/-- The monitor is loaded and enabled. -/
def monitoredKernel : Kernel :=
  { Kernel.bare with utilKobj := true, taskmonEnabled := true }

/-- Task 1 has a reservation of 1 in 10 milliseconds. -/
def monitoredSystem : System :=
  ⟨after step monitoredKernel (reserveMillis 1 1 10 0), true, false⟩

private theorem justReserved_monitoredSystem : JustReserved 1 monitoredSystem.kernel := by
  have taken : step monitoredKernel (reserveMillis 1 1 10 0) = .ok monitoredSystem.kernel :=
    step_eq_after (by decide)
  obtain ⟨⟨retval, s⟩, returns, result⟩ := bind_eq_ok_iff.mp taken
  have zero : (monitoredKernel.setReserve .succeed 1 (some ⟨0, 1 * 1000000⟩)
      (some ⟨0, 10 * 1000000⟩) 0).toOption.map Prod.fst = some 0 := by decide
  rw [returns] at zero
  cases zero
  cases result
  exact ⟨_, _, _, _, _, rfl, by decide, returns⟩

/-- A period is recorded and read, and another one recorded. -/
theorem reaches_tidShow_iff_reread :
    ∃ now : System × ℕ, now.2 = 2 ∧ (now.1.kernel.reserve 1).ring.start = 1 ∧
      ∃ result, now.1.kernel.tidShow 1 = .ok result := by
  let once := after (countedStep 1) (monitoredSystem, 0) (.system (.core (.pTimer (fun _ => 0) 1)))
  let read := after (countedStep 1) once (.tidShow 1)
  let now := after (countedStep 1) read (.system (.core (.pTimer (fun _ => 0) 1)))
  have start : Reaches (countedStep 1) (fun _ op => ¬ op.CallsFor 1)
      (fun now => JustReserved 1 now.1.kernel ∧ now.2 = 0) (monitoredSystem, 0) :=
    .start ⟨justReserved_monitoredSystem, rfl⟩
  have reached : Reaches (countedStep 1) (fun _ op => ¬ op.CallsFor 1)
      (fun now => JustReserved 1 now.1.kernel ∧ now.2 = 0) now :=
    ((start.after id (by decide)).after id (by decide)).after id (by decide)
  have count : now.2 = 2 := by decide
  refine ⟨now, count, by decide, (reaches_tidShow_iff reached (by decide)).mpr (.inr ?_)⟩
  rw [count]
  decide

end Runs

end Rtes.Reservation
