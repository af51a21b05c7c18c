import Rtes.Reservation.Accounting
import Rtes.Reservation.Runs
import Rtes.Taskmon.Core

/-!
# What the tasks are charged and what the system is charged

A run of a tracked task is charged to the task and to the total at once.  The
total may start again when its file is written, and a reservation that is
installed starts from nothing.  Over every run, the reserved tasks together have
at most what the total has, together with what was erased from it.
-/

namespace Rtes.Taskmon

open Rtes.Reservation Rtes.Transition Rtes.Word

variable {s s' : Kernel} {t : Tid}

/-! ## The operations on the system -/

/-- What the operations on reservations leave alone. -/
structure Gauges (s s' : Kernel) : Prop where
  taskmonEnabled : s'.taskmonEnabled = s.taskmonEnabled
  taskmonAccTime : s'.taskmonAccTime = s.taskmonAccTime
  energyTracking : s'.energyTracking = s.energyTracking

theorem Gauges.of_changes {own : Reserve} (changes : Changes t own s s') :
    Gauges s s' ∧ s'.totalEnergy = s.totalEnergy := by
  rw [changes]
  exact ⟨⟨rfl, rfl, rfl⟩, rfl⟩

/-- Only a switch charges the total. -/
theorem step_gauges {op : Op} (taken : step s op = .ok s') :
    Gauges s s' ∧ ((∀ t, op ≠ .switchOut t) → s'.totalEnergy = s.totalEnergy) := by
  cases op with
  | setReserve srv tid budget period cpuid =>
      obtain ⟨⟨retval, target⟩, returns, result⟩ := bind_eq_ok_iff.mp taken
      cases result
      obtain ⟨own, _, changes⟩ := setReserve_changes returns
      obtain ⟨gauges, total⟩ := Gauges.of_changes changes
      exact ⟨gauges, fun _ => total⟩
  | cancelReserve srv tid =>
      obtain ⟨⟨retval, target⟩, returns, result⟩ := bind_eq_ok_iff.mp taken
      cases result
      obtain ⟨own, _, changes⟩ := cancelReserve_changes returns
      obtain ⟨gauges, total⟩ := Gauges.of_changes changes
      exact ⟨gauges, fun _ => total⟩
  | doExit srv t =>
      obtain ⟨own, released, _, changes, rfl⟩ := doExit_changes taken
      obtain ⟨⟨enabled, clock, tracking⟩, total⟩ := Gauges.of_changes changes
      exact ⟨⟨enabled, clock, tracking⟩, fun _ => total⟩
  | pTimer freq t =>
      obtain ⟨cpuFreq, ring, enabled, rfl⟩ := pTimerCallback_eq taken
      obtain ⟨_, kept⟩ := Kernel.files_dropStaleEnergyFile
        ({ s with cpuFreq := cpuFreq }.modify t fun reserve => { reserve with
          acc := ⟨0, 0⟩
          taskmonEnabled := enabled
          ring := ring }) t
      unfold Kernel.resumeTask
      rw [kept.eq]
      split <;> exact ⟨⟨rfl, rfl, rfl⟩, fun _ => rfl⟩
  | endJob t =>
      cases taken
      unfold Kernel.endJob Kernel.suspendTask
      split_ifs <;> exact ⟨⟨rfl, rfl, rfl⟩, fun _ => rfl⟩
  | cTimer t =>
      cases taken
      unfold Kernel.cTimerCallback Kernel.suspendTask
      dsimp only
      split_ifs <;> exact ⟨⟨rfl, rfl, rfl⟩, fun _ => rfl⟩
  | switchOut t =>
      cases taken
      refine ⟨?_, fun other => absurd rfl (other t)⟩
      unfold Kernel.switchOut Kernel.chargeRun Kernel.stopBudget
      split_ifs <;> exact ⟨rfl, rfl, rfl⟩
  | switchIn t =>
      cases taken
      unfold Kernel.switchIn
      split_ifs <;> exact ⟨⟨rfl, rfl, rfl⟩, fun _ => rfl⟩
  | setPolicy policy =>
      cases taken
      unfold Kernel.partitionPolicyStore
      split_ifs <;> exact ⟨⟨rfl, rfl, rfl⟩, fun _ => rfl⟩

theorem totalEnergy_eq_of_effect {op : SystemOp} (effect : KernelEffect s op s')
    (other : ∀ t, op ≠ .core (.switchOut t)) : s'.totalEnergy = s.totalEnergy := by
  cases effect with
  | core stepped => exact (step_gauges stepped).2 fun t same => other t (congrArg _ same)
  | forked _ => rfl
  | reaped _ => rfl
  | monitored _ monitors => rw [monitors]

/-- Apart from switches, a task that is reserved keeps what it was charged, or
starts from nothing. -/
theorem StepOwn.energy_eq {op : Op} {own : Reserve} (result : StepOwn s op t own)
    (other : ∀ t, op ≠ .switchOut t) (flag : own.flag = true) :
    ((s.reserve t).flag = true ∧ own.energy = (s.reserve t).energy) ∨ own.energy = 0 := by
  cases result with
  | setReserve result =>
      cases result with
      | refused => exact .inl ⟨flag, rfl⟩
      | undone => exact .inl ⟨flag, rfl⟩
      | failed => exact .inl ⟨flag, rfl⟩
      | installed => exact .inr rfl
  | cancelReserve result =>
      cases result with
      | missing => exact .inl ⟨flag, rfl⟩
      | refused => exact .inl ⟨flag, rfl⟩
      | idle => exact .inl ⟨flag, rfl⟩
      | released => exact absurd flag Bool.false_ne_true
  | doExit result =>
      cases result with
      | idle => exact .inl ⟨flag, rfl⟩
      | released => exact .inl ⟨flag, rfl⟩
  | switchOut => exact absurd rfl (other t)
  | endJob => exact .inl ⟨flag, rfl⟩
  | cTimer => exact .inl ⟨flag, rfl⟩
  | pTimer => exact .inl ⟨flag, rfl⟩
  | switchIn => exact .inl ⟨flag, rfl⟩
  | setPolicy => exact .inl ⟨flag, rfl⟩

/-- What a switch charges. -/
def charge (s : Kernel) (t : Tid) : ℕ :=
  if (s.reserve t).trackingEnergy then s.runEnergy t else 0

/-- A switch charges the task no more than the total. -/
theorem switchOut_energy_le (s : Kernel) (t : Tid) :
    ((s.switchOut t).reserve t).energy ≤ (s.reserve t).energy + charge s t := by
  have stopped : (s.stopBudget t).reserve t = (s.reserve t).budgetStopped := by
    rw [stopBudget_reserve, Function.update_self]
  have run : (s.stopBudget t).runEnergy t = s.runEnergy t := by
    unfold Kernel.runEnergy Kernel.powerAt
    rw [stopped]
    unfold Kernel.stopBudget
    split <;> rfl
  have charged : ((s.switchOut t).reserve t).energy =
      (((s.stopBudget t).chargeRun t).reserve t).energy := by
    simp [Kernel.switchOut]
  rw [charged]
  unfold Kernel.chargeRun charge
  rw [run, stopped]
  split
  · rename_i tracking
    change (s.reserve t).trackingEnergy = true at tracking
    rw [if_pos tracking]
    simp only [Kernel.modify_reserve, Function.update_self, stopped]
    exact Nat.mod_le _ _
  · rw [stopped]
    exact Nat.le_add_right _ _

theorem switchOut_total_eq (s : Kernel) (t : Tid)
    (unwrapped : s.totalEnergy + charge s t < 4294967296) :
    (s.switchOut t).totalEnergy = s.totalEnergy + charge s t := by
  rw [switchOut_totalEnergy]
  unfold charge at *
  split
  · rename_i tracking
    rw [if_pos tracking] at unwrapped
    exact Nat.mod_eq_of_lt unwrapped
  · rfl

/-! ## The ledger -/

/-- The reserved tasks, as many as there are, were charged no more than the
total shows together with what was erased from it. -/
def Backed (s : Kernel) (erased : ℕ) : Prop :=
  ∀ tasks : Finset Tid, (∀ t ∈ tasks, (s.reserve t).flag = true) →
    ∑ t ∈ tasks, (s.reserve t).energy ≤ s.totalEnergy + erased

namespace Backed

variable {erased : ℕ}

/-- One task is replaced by one that was charged at most `more` in addition, and
so was the total. -/
theorem replace {own : Reserve} (backed : Backed s erased)
    (replaced : s'.reserve = Function.update s.reserve t own) (more : ℕ)
    (charged : own.flag = true →
      ((s.reserve t).flag = true ∧ own.energy ≤ (s.reserve t).energy + more) ∨ own.energy ≤ more)
    (total : s'.totalEnergy = s.totalEnergy + more) : Backed s' erased := by
  intro tasks reserved
  rw [total, replaced]
  rw [replaced] at reserved
  have others : ∀ other ∈ tasks.erase t, (Function.update s.reserve t own) other =
      s.reserve other := fun other member =>
    Function.update_of_ne (Finset.ne_of_mem_erase member) _ _
  have otherFlags : ∀ other ∈ tasks.erase t, (s.reserve other).flag = true := by
    intro other member
    rw [← others other member]
    exact reserved other (Finset.mem_of_mem_erase member)
  have rest : ∑ other ∈ tasks.erase t, (Function.update s.reserve t own other).energy =
      ∑ other ∈ tasks.erase t, (s.reserve other).energy :=
    Finset.sum_congr rfl fun other member => by rw [others other member]
  have before := backed (tasks.erase t) otherFlags
  by_cases member : t ∈ tasks
  · have ownFlag := reserved t member
    rw [Function.update_self] at ownFlag
    rw [← Finset.add_sum_erase tasks _ member, rest, Function.update_self]
    rcases charged ownFlag with ⟨wasReserved, most⟩ | most
    · have whole := backed tasks fun other listed => by
        rcases eq_or_ne other t with rfl | different
        · exact wasReserved
        · exact otherFlags other (Finset.mem_erase.mpr ⟨different, listed⟩)
      rw [← Finset.add_sum_erase tasks _ member] at whole
      omega
    · omega
  · rw [Finset.erase_eq_of_notMem member] at rest before
    rw [rest]
    omega

theorem step {op : Op} (backed : Backed s erased) (taken : Reservation.step s op = .ok s')
    (unwrapped : ∀ t, op = .switchOut t → s.totalEnergy + charge s t < 4294967296) :
    Backed s' erased := by
  obtain ⟨t, own, result, replaced⟩ := step_own taken
  by_cases switches : ∃ t, op = .switchOut t
  · obtain ⟨out, rfl⟩ := switches
    cases result with
    | switchOut =>
        cases taken
        have isOwn := congrFun replaced t
        rw [Function.update_self] at isOwn
        refine backed.replace replaced (charge s t) ?_
          (switchOut_total_eq s t (unwrapped t rfl))
        intro flag
        refine .inl ⟨flag, ?_⟩
        rw [← isOwn]
        exact switchOut_energy_le s t
  · have other : ∀ t, op ≠ .switchOut t := fun t same => switches ⟨t, same⟩
    refine backed.replace replaced 0 ?_ ((step_gauges taken).2 other)
    intro flag
    rcases StepOwn.energy_eq result other flag with ⟨wasReserved, same⟩ | zero
    · exact .inl ⟨wasReserved, same.le⟩
    · exact .inr zero.le

private theorem kernelEffect {op : SystemOp} (backed : Backed s erased)
    (effect : KernelEffect s op s')
    (unwrapped : ∀ t, op = .core (.switchOut t) → s.totalEnergy + charge s t < 4294967296) :
    Backed s' erased := by
  cases effect with
  | core taken => exact backed.step taken fun t same => unwrapped t (congrArg SystemOp.core same)
  | forked _ => exact backed.replace rfl 0 (fun flag => absurd flag Bool.false_ne_true) rfl
  | reaped _ => exact backed
  | monitored _ monitors =>
      rw [monitors]
      exact backed

end Backed

/-! ## Every run -/

/-- What was erased from the total so far. -/
def erasedAfter (st : Station) (op : StationOp) (st' : Station) (erased : ℕ) : ℕ :=
  match op with
  | .totalEnergyStore _ =>
      erased + (st.system.kernel.totalEnergy - st'.system.kernel.totalEnergy)
  | _ => erased

/-- What was erased from the total is kept beside the station. -/
def ledgerStep : Station × ℕ → StationOp → Except Fault (Station × ℕ) :=
  observe stationStep erasedAfter

/-- The total does not exceed 32 bits. -/
def Unwrapped (now : Station × ℕ) (op : StationOp) : Prop :=
  ∀ t, op = .core (.switchOut t) →
    now.1.system.kernel.totalEnergy + charge now.1.system.kernel t < 4294967296

/-- No task is reserved, and nothing was erased. -/
structure Opening (now : Station × ℕ) : Prop where
  unreserved : ∀ t, (now.1.system.kernel.reserve t).flag = false
  erased : now.2 = 0

theorem Opening.backed {now : Station × ℕ} (opening : Opening now) :
    Backed now.1.system.kernel now.2 := by
  intro tasks reserved
  have none : tasks = ∅ := by
    rw [Finset.eq_empty_iff_forall_notMem]
    intro t member
    exact Bool.false_ne_true ((opening.unreserved t).symm.trans (reserved t member))
  rw [none]
  exact Nat.zero_le _

theorem lower_switchOut {st : Station} {op : StationOp} {t : Tid}
    (switches : lower st op = some (.core (.switchOut t))) : op = .core (.switchOut t) := by
  cases op with
  | core op =>
      cases switches
      rfl
  | partitionPolicyStore buf =>
      rw [lower] at switches
      split at switches
      · obtain ⟨policy, _, same⟩ := Option.map_eq_some_iff.mp switches
        cases same
      · cases switches
  | _ => cases switches

/-- One operation of the station. -/
theorem Backed.station {st st' : Station} {op : StationOp} {erased : ℕ}
    (backed : Backed st.system.kernel erased) (unwrapped : Unwrapped (st, erased) op)
    (taken : stationStep st op = .ok st') :
    Backed st'.system.kernel (erasedAfter st op st' erased) := by
  rcases stationStep_lower taken with ⟨below, isBelow, steps⟩ | own
  · have kept : Backed st'.system.kernel erased :=
      backed.kernelEffect (systemStep_kernel steps) fun t same =>
        unwrapped t (lower_switchOut (isBelow.trans (congrArg some same)))
    cases op with
    | totalEnergyStore buf => cases isBelow
    | _ => exact kept
  · intro tasks reserved
    have same : st'.system.kernel.reserve = st.system.kernel.reserve := by rw [own.system]
    rw [same] at reserved ⊢
    refine (backed tasks reserved).trans ?_
    cases op with
    | totalEnergyStore buf =>
        dsimp only [erasedAfter]
        omega
    | _ =>
        rw [own.total fun _ => StationOp.noConfusion]
        rfl

/-- Over every run of the station, with tasks that come and go, tracking switched
on and off, and the total started again at will, the reserved tasks were together
charged no more than the total shows and what was erased from it. -/
theorem reaches_backed {now : Station × ℕ} (reached : Reaches ledgerStep Unwrapped Opening now) :
    Backed now.1.system.kernel now.2 := by
  apply reached.observed
  · intro now opening
    exact opening.backed
  · rintro ⟨st, erased⟩ op st' backed unwrapped taken
    exact backed.station unwrapped taken

/-- A station that tracks energy, at a power of 40 milliwatts. -/
def trackingStation : Station where
  system := ⟨{ Kernel.bare with
    energyTracking := true
    cpuFreq := fun _ => 100
    freqToPower := fun _ => 40000 }, true, false⟩
  enabled := 0
  energyTracking := 1
  taskmonTimer := false
  count := 0

/-- One task is reserved, runs for three ticks and is switched out. -/
def chargedStation : Station × ℕ :=
  let reserved := after ledgerStep (trackingStation, 0) (.core (reserveMillis 1 5 10 0))
  let once := after ledgerStep reserved (.core (.cTimer 1))
  let twice := after ledgerStep once (.core (.cTimer 1))
  let thrice := after ledgerStep twice (.core (.cTimer 1))
  after ledgerStep thrice (.core (.switchOut 1))

theorem reaches_charged {start : Station × ℕ → Prop} (begins : start (trackingStation, 0)) :
    Reaches ledgerStep Unwrapped start chargedStation := by
  have quiet : ∀ (now : Station × ℕ) (op : Op), (∀ t, op ≠ .switchOut t) →
      Unwrapped now (.core op) := by
    intro now op other t same
    cases same
    exact absurd rfl (other t)
  apply Reaches.after
  · apply Reaches.after
    · apply Reaches.after
      · apply Reaches.after
        · apply Reaches.after
          · exact .start begins
          · exact quiet _ _ fun _ => Op.noConfusion
          · decide
        · exact quiet _ _ fun _ => Op.noConfusion
        · decide
      · exact quiet _ _ fun _ => Op.noConfusion
      · decide
    · exact quiet _ _ fun _ => Op.noConfusion
    · decide
  · rintro t same
    cases same
    decide
  · decide

theorem reaches_backed_charged :
    (chargedStation.1.system.kernel.reserve 1).energy = 40 ∧
      ∑ t ∈ {1}, (chargedStation.1.system.kernel.reserve t).energy ≤
        chargedStation.1.system.kernel.totalEnergy :=
  ⟨by decide, reaches_backed (reaches_charged ⟨fun _ => rfl, rfl⟩) {1} (by decide)⟩

end Rtes.Taskmon
