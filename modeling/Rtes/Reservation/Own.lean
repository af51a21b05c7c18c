import Rtes.Reservation.Effect

/-!
# What a step does to the task it names

Every step replaces the `reserve` member of one task at most.  The timer
callbacks and the context switches replace it by a function of what it was; with
the system calls this gives one relation for all steps.
-/

namespace Rtes.Reservation

open Rtes.Transition Rtes.Word

variable {s s' : Kernel} {t : Tid}

/-! ## Timers and context switches -/

namespace Reserve

variable (reserve : Reserve)

/-- A tick is charged to both accumulators. -/
def ticked : Reserve :=
  { reserve with accSingleRun := reserve.accSingleRun.tick, acc := reserve.acc.tick }

/-- The budget timer finds the task out of budget. -/
def outOfBudget : Bool :=
  reserve.acc.tick.exceeds reserve.C

/-- The budget timer fires: out of budget, the task is put to sleep and the timer
is not restarted. -/
def charged : Reserve :=
  { reserve.ticked with
    suspend := reserve.outOfBudget || reserve.suspend
    cTimer := !reserve.outOfBudget && reserve.cTimer }

/-- A reserved task ends its job. -/
def jobEnded : Reserve :=
  { reserve with suspend := reserve.flag || reserve.suspend }

/-- A reserved task is switched in. -/
def switchedIn : Reserve :=
  { reserve with cTimer := reserve.flag || reserve.cTimer }

/-- The budget timer of a reserved task is stopped. -/
def budgetStopped : Reserve :=
  { reserve with cTimer := !reserve.flag && reserve.cTimer }

variable {reserve}

@[simp]
private theorem jobEnded_of_unreserved (flag : reserve.flag = false) :
    reserve.jobEnded = reserve := by
  simp only [jobEnded, flag, Bool.false_or]
  rw [← flag]

@[simp]
private theorem switchedIn_of_unreserved (flag : reserve.flag = false) :
    reserve.switchedIn = reserve := by
  simp only [switchedIn, flag, Bool.false_or]
  rw [← flag]

@[simp]
private theorem budgetStopped_of_unreserved (flag : reserve.flag = false) :
    reserve.budgetStopped = reserve := by
  simp only [budgetStopped, flag, Bool.not_false, Bool.true_and]
  rw [← flag]

end Reserve

private theorem suspendTask_reserve (s : Kernel) (t : Tid) :
    (s.suspendTask t).reserve =
      Function.update s.reserve t { s.reserve t with suspend := true } := by
  unfold Kernel.suspendTask
  split
  · rename_i suspend
    rw [← suspend, Function.update_eq_self]
  · rfl

theorem resumeTask_reserve (s : Kernel) (t : Tid) :
    (s.resumeTask t).reserve =
      Function.update s.reserve t { s.reserve t with suspend := false } := by
  unfold Kernel.resumeTask
  split
  · rfl
  · rename_i awake
    have off : (s.reserve t).suspend = false := by simpa using awake
    rw [← off, Function.update_eq_self]

theorem cTimerCallback_reserve (s : Kernel) (t : Tid) :
    (s.cTimerCallback t).reserve = Function.update s.reserve t (s.reserve t).charged := by
  have ticked : (s.modify t fun reserve => { reserve with
      accSingleRun := reserve.accSingleRun.tick
      acc := reserve.acc.tick }) = s.modify t Reserve.ticked := rfl
  unfold Kernel.cTimerCallback Reserve.charged
  rw [ticked]
  simp only [Kernel.modify_reserve, suspendTask_reserve, Function.update_self, Function.update_idem,
    apply_ite Kernel.reserve]
  split
  · rename_i exceeds
    have out : (s.reserve t).outOfBudget = true := exceeds
    rw [out, Bool.true_or, Bool.not_true, Bool.false_and]
  · rename_i within
    have left : (s.reserve t).outOfBudget = false := by
      simpa [Reserve.outOfBudget, Reserve.ticked] using within
    rw [left, Bool.false_or, Bool.not_false, Bool.true_and]
    rfl

theorem endJob_reserve (s : Kernel) (t : Tid) :
    (s.endJob t).2.reserve = Function.update s.reserve t (s.reserve t).jobEnded := by
  unfold Kernel.endJob
  split
  · rename_i flag
    simp [suspendTask_reserve, Reserve.jobEnded, flag]
  · rename_i flag
    rw [Reserve.jobEnded_of_unreserved (by simpa using flag), Function.update_eq_self]

theorem switchIn_reserve (s : Kernel) (t : Tid) :
    (s.switchIn t).reserve = Function.update s.reserve t (s.reserve t).switchedIn := by
  unfold Kernel.switchIn
  split
  · rename_i flag
    simp [Reserve.switchedIn, flag]
  · rename_i flag
    rw [Reserve.switchedIn_of_unreserved (by simpa using flag), Function.update_eq_self]

theorem stopBudget_reserve (s : Kernel) (t : Tid) :
    (s.stopBudget t).reserve = Function.update s.reserve t (s.reserve t).budgetStopped := by
  unfold Kernel.stopBudget
  split
  · rename_i flag
    simp [Reserve.budgetStopped, flag]
  · rename_i flag
    rw [Reserve.budgetStopped_of_unreserved (by simpa using flag), Function.update_eq_self]

/-- The budget timer is stopped, the energy is charged and the run starts over. -/
theorem switchOut_reserve (s : Kernel) (t : Tid) :
    ∃ energy, (s.switchOut t).reserve = Function.update s.reserve t
      { (s.reserve t).budgetStopped with energy := energy, accSingleRun := ⟨0, 0⟩ } := by
  have charged : ∃ energy, ((s.stopBudget t).chargeRun t).reserve =
      Function.update s.reserve t { (s.reserve t).budgetStopped with energy := energy } := by
    unfold Kernel.chargeRun
    split
    · refine ⟨uint32 ((s.reserve t).budgetStopped.energy + (s.stopBudget t).runEnergy t), ?_⟩
      simp only [Kernel.modify_reserve, stopBudget_reserve, Function.update_self,
        Function.update_idem]
    · exact ⟨_, stopBudget_reserve s t⟩
  obtain ⟨energy, isCharged⟩ := charged
  refine ⟨energy, ?_⟩
  simp only [Kernel.switchOut, Kernel.modify_reserve, isCharged, Function.update_self,
    Function.update_idem]

/-- The period timer reads the frequencies, records the period and resets the
accumulator, drops an energy file that is stale, and wakes the task. -/
theorem pTimerCallback_eq {freq : Cpu → ℕ} (returns : s.pTimerCallback freq t = .ok s') :
    ∃ (cpuFreq : Cpu → ℕ) (ring : Ring) (enabled : Bool),
      s' = (Kernel.dropStaleEnergyFile ({ s with cpuFreq := cpuFreq }.modify t fun reserve =>
        { reserve with
          acc := ⟨0, 0⟩
          taskmonEnabled := enabled
          ring := ring }) t).resumeTask t := by
  obtain ⟨recorded, records, result⟩ := bind_eq_ok_iff.mp returns
  cases result
  unfold Kernel.recordPeriod at records
  split_ifs at records
  · cases records
    rw [modify_modify]
    exact ⟨_, _, true, rfl⟩
  · cases records
    rw [modify_modify]
    exact ⟨_, _, false, rfl⟩

/-- Besides, it changes the files of the task only. -/
theorem pTimerCallback_reserve {freq : Cpu → ℕ} (returns : s.pTimerCallback freq t = .ok s') :
    ∃ (files : Reserve) (enabled : Bool),
      (files.trackingEnergy = true → (s.reserve t).trackingEnergy = true) ∧
      s'.reserve = Function.update s.reserve t (Reserve.withFiles { s.reserve t with
        acc := ⟨0, 0⟩
        suspend := false
        taskmonEnabled := enabled } files) := by
  obtain ⟨cpuFreq, ring, enabled, rfl⟩ := pTimerCallback_eq returns
  obtain ⟨files, kept⟩ := Kernel.files_dropStaleEnergyFile
    ({ s with cpuFreq := cpuFreq }.modify t fun reserve => { reserve with
      acc := ⟨0, 0⟩
      taskmonEnabled := enabled
      ring := ring }) t
  refine ⟨files, enabled, ?_, ?_⟩
  · intro tracking
    have before := kept.tracking tracking
    simpa using before
  · simp only [resumeTask_reserve, kept.reserve_eq, Kernel.modify_reserve, Function.update_self,
      Function.update_idem]
    rfl

/-! ## All steps -/

/-- What becomes of the member of the task a step names. -/
inductive StepOwn (s : Kernel) : Op → Tid → Reserve → Prop
  | setReserve {srv : Services} {t : Tid} {budget period : Option Timespec} {cpuid retval : ℤ}
      {own : Reserve} : SetOwn srv s.energyTracking budget period (s.reserve t) retval own →
      StepOwn s (.setReserve srv t budget period cpuid) t own
  | cancelReserve {srv : Services} {t : Tid} {retval : ℤ} {own : Reserve} :
      CancelOwn srv (s.found t) (s.reserve t) retval own → StepOwn s (.cancelReserve srv t) t own
  | doExit {srv : Services} {t : Tid} {own : Reserve} : ExitOwn (s.reserve t) own →
      StepOwn s (.doExit srv t) t own
  | endJob {t : Tid} : StepOwn s (.endJob t) t (s.reserve t).jobEnded
  | cTimer {t : Tid} : StepOwn s (.cTimer t) t (s.reserve t).charged
  | pTimer {freq : Cpu → ℕ} {t : Tid} {files : Reserve} {enabled : Bool} :
      (files.trackingEnergy = true → (s.reserve t).trackingEnergy = true) →
      StepOwn s (.pTimer freq t) t (Reserve.withFiles { s.reserve t with
        acc := ⟨0, 0⟩
        suspend := false
        taskmonEnabled := enabled } files)
  | switchOut {t : Tid} {energy : ℕ} : StepOwn s (.switchOut t) t
      { (s.reserve t).budgetStopped with energy := energy, accSingleRun := ⟨0, 0⟩ }
  | switchIn {t : Tid} : StepOwn s (.switchIn t) t (s.reserve t).switchedIn
  | setPolicy {policy : PartitionPolicy} {t : Tid} : StepOwn s (.setPolicy policy) t (s.reserve t)

/-- Every step replaces the member of one task. -/
theorem step_own {op : Op} (taken : step s op = .ok s') :
    ∃ t own, StepOwn s op t own ∧ s'.reserve = Function.update s.reserve t own := by
  cases op with
  | setReserve srv t budget period cpuid =>
      obtain ⟨⟨retval, target⟩, returns, result⟩ := bind_eq_ok_iff.mp taken
      cases result
      obtain ⟨own, result, changes⟩ := setReserve_changes returns
      exact ⟨t, own, .setReserve result, changes.reserve_eq⟩
  | cancelReserve srv t =>
      obtain ⟨⟨retval, target⟩, returns, result⟩ := bind_eq_ok_iff.mp taken
      cases result
      obtain ⟨own, result, changes⟩ := cancelReserve_changes returns
      exact ⟨t, own, .cancelReserve result, changes.reserve_eq⟩
  | doExit srv t =>
      obtain ⟨own, released, result, changes, rfl⟩ := doExit_changes taken
      exact ⟨t, own, .doExit result, changes.reserve_eq⟩
  | endJob t =>
      cases taken
      exact ⟨t, _, .endJob, endJob_reserve s t⟩
  | cTimer t =>
      cases taken
      exact ⟨t, _, .cTimer, cTimerCallback_reserve s t⟩
  | pTimer freq t =>
      obtain ⟨files, enabled, tracking, reserve⟩ := pTimerCallback_reserve taken
      exact ⟨t, _, .pTimer tracking, reserve⟩
  | switchOut t =>
      cases taken
      obtain ⟨energy, reserve⟩ := switchOut_reserve s t
      exact ⟨t, _, .switchOut, reserve⟩
  | switchIn t =>
      cases taken
      exact ⟨t, _, .switchIn, switchIn_reserve s t⟩
  | setPolicy policy =>
      cases taken
      refine ⟨0, _, .setPolicy, ?_⟩
      rw [Function.update_eq_self]
      unfold Kernel.partitionPolicyStore
      split
      · rfl
      · rfl

/-- What holds of every member still does once one is replaced by another it
holds of. -/
theorem forall_reserve {holds : Tid → Reserve → Prop} {own : Reserve}
    (before : ∀ other, holds other (s.reserve other)) (ownHolds : holds t own)
    (replaced : s'.reserve = Function.update s.reserve t own) (other : Tid) :
    holds other (s'.reserve other) := by
  rw [replaced]
  rcases eq_or_ne other t with rfl | different
  · rwa [Function.update_self]
  · rw [Function.update_of_ne different]
    exact before other

end Rtes.Reservation
