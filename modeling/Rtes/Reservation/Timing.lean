import Rtes.Reservation.Effect

/-!
# The timing machine

For the timers and the suspension of tasks only a few bits of each task matter,
and every operation is about one task.  This module says once what each
operation can do to these bits: the kernel refines a small machine on them, and
invariants about timers are proved on that machine.
-/

namespace Rtes.Reservation

open Rtes.Transition

/-! ## Timing of a task -/

/-- What the timers and the suspension of a task are about. -/
structure Timing where
  flag : Bool
  suspend : Bool
  cTimer : Bool
  pTimer : Bool
  uninterruptible : Bool
  deriving DecidableEq

def Reserve.timing (reserve : Reserve) (uninterruptible : Bool) : Timing where
  flag := reserve.flag
  suspend := reserve.suspend
  cTimer := reserve.cTimer
  pTimer := reserve.pTimer
  uninterruptible := uninterruptible

def Kernel.timing (s : Kernel) (t : Tid) : Timing :=
  (s.reserve t).timing (s.uninterruptible t)

namespace Timing

variable (timing : Timing)

/-- A task that was not reserved before starts without a suspension. -/
def fresh : Timing :=
  if timing.flag then timing else { timing with suspend := false }

/-- The budget timer is stopped and the period timer started. -/
def started : Timing :=
  { timing with cTimer := false, pTimer := true }

/-- Both timers are stopped. -/
def stopped : Timing :=
  { timing with cTimer := false, pTimer := false }

/-- The timing after a reservation was cancelled: the timers are stopped, and the
flag is cleared if the affinity could be set. -/
def cancelled (affinity : Bool) : Timing :=
  { timing.stopped with flag := !affinity }

/-- Asleep until the next period. -/
def asleep : Timing :=
  if timing.suspend then timing else { timing with suspend := true, uninterruptible := true }

/-- Woken for the next period. -/
def awake : Timing :=
  if timing.suspend then { timing with suspend := false, uninterruptible := false } else timing

end Timing

/-- One step of the timing machine.  Every operation may also leave the timing
alone. -/
inductive TimingStep (found : Tid → Bool) (timing : Tid → Timing) :
    Op → (Tid → Timing) → Prop
  | idle {op : Op} : TimingStep found timing op timing
  | undone {srv : Services} {t : Tid} {C T : Option Timespec} {cpuid : ℤ} :
      TimingStep found timing (.setReserve srv t C T cpuid)
        (Function.update timing t (timing t).fresh)
  | started {srv : Services} {t : Tid} {C T : Option Timespec} {cpuid : ℤ} {flag : Bool} :
      flag = true ∨ flag = (timing t).flag ∧ ¬ FilesSucceed srv →
      TimingStep found timing (.setReserve srv t C T cpuid)
        (Function.update timing t { (timing t).fresh.started with flag := flag })
  | cancelled {srv : Services} {t : Tid} : found t = true → (timing t).flag = true →
      TimingStep found timing (.cancelReserve srv t)
        (Function.update timing t ((timing t).cancelled srv.schedSetaffinity))
  | exited {srv : Services} {t : Tid} : (timing t).flag = true →
      TimingStep found timing (.doExit srv t) (Function.update timing t (timing t).stopped)
  | slept {t : Tid} : (timing t).flag = true →
      TimingStep found timing (.endJob t) (Function.update timing t (timing t).asleep)
  | outOfBudget {t : Tid} :
      TimingStep found timing (.cTimer t)
        (Function.update timing t { (timing t).asleep with cTimer := false })
  | woken {freq : Cpu → ℕ} {t : Tid} :
      TimingStep found timing (.pTimer freq t) (Function.update timing t (timing t).awake)
  | switchedOut {t : Tid} : (timing t).flag = true →
      TimingStep found timing (.switchOut t)
        (Function.update timing t { timing t with cTimer := false })
  | switchedIn {t : Tid} : (timing t).flag = true →
      TimingStep found timing (.switchIn t)
        (Function.update timing t { timing t with cTimer := true })

/-- What holds of every task still does once one task changes to something it
holds of. -/
theorem forall_update {holds : Timing → Prop} {timing : Tid → Timing} {t : Tid} {own : Timing}
    (before : ∀ other, holds (timing other)) (ownHolds : holds own) (other : Tid) :
    holds (Function.update timing t own other) := by
  rcases eq_or_ne other t with rfl | different
  · rwa [Function.update_self]
  · rw [Function.update_of_ne different]
    exact before other

variable {s s' : Kernel} {t : Tid}

/-! ## Changing one task -/

theorem Frame.timing (frame : Frame Kernel.enforcing s s') : s'.timing = s.timing := by
  funext t
  exact congrArg (fun view : Enforcing × Bool => (⟨view.1.placing.flag, view.1.suspend,
    view.1.cTimer, view.1.pTimer, view.2⟩ : Timing)) (frame.view t)

theorem timing_modify (s : Kernel) (t : Tid) (f : Reserve → Reserve) :
    (s.modify t f).timing =
      Function.update s.timing t ((f (s.reserve t)).timing (s.uninterruptible t)) := by
  funext other
  rcases eq_or_ne other t with rfl | different
  · simp only [Kernel.timing, Kernel.modify, Function.update_self]
  · simp only [Kernel.timing, Kernel.modify, Function.update_of_ne different]

/-- The system calls change the timing of the task they name only. -/
theorem Changes.timing {own : Reserve} {timing : Timing} (changes : Changes t own s s')
    (isOwn : own.timing (s.uninterruptible t) = timing) :
    s'.timing = Function.update s.timing t timing := by
  have uninterruptible : s'.uninterruptible = s.uninterruptible := by rw [changes]
  funext other
  unfold Kernel.timing
  rw [changes.reserve_eq, uninterruptible]
  rcases eq_or_ne other t with rfl | different
  · rw [Function.update_self, Function.update_self, isOwn]
  · rw [Function.update_of_ne different, Function.update_of_ne different]

theorem Changes.timing_eq {own : Reserve} (changes : Changes t own s s')
    (isOwn : own.timing (s.uninterruptible t) = s.timing t) : s'.timing = s.timing := by
  rw [changes.timing isOwn, Function.update_eq_self]

private theorem Reserve.fresh_timing (reserve : Reserve) (uninterruptible : Bool) :
    reserve.fresh.timing uninterruptible = (reserve.timing uninterruptible).fresh := by
  unfold Reserve.fresh Timing.fresh Reserve.timing
  cases reserve.flag with
  | false => rfl
  | true => rfl

/-! ## System calls and exits -/

private theorem setReserve_timing {srv : Services} {budget period : Option Timespec}
    {cpuid retval : ℤ}
    (returns : s.setReserve srv t budget period cpuid = .ok (retval, s')) :
    TimingStep s.found s.timing (.setReserve srv t budget period cpuid) s'.timing := by
  obtain ⟨own, result, changes⟩ := setReserve_changes returns
  have fresh := (s.reserve t).fresh_timing (s.uninterruptible t)
  have started : ∀ flag, { ((s.reserve t).fresh.timing (s.uninterruptible t)).started with
      flag := flag } = { (s.timing t).fresh.started with flag := flag } := by
    intro flag
    rw [fresh]
    rfl
  cases result with
  | refused _ _ =>
      rw [changes.timing_eq rfl]
      exact .idle
  | undone _ _ =>
      rw [changes.timing fresh]
      exact .undone
  | failed _ fails _ _ _ =>
      rw [changes.timing (started (s.reserve t).flag)]
      exact .started (.inr ⟨rfl, fails⟩)
  | installed _ _ _ =>
      rw [changes.timing (started true)]
      exact .started (.inl rfl)

/-- Whether `cancel_reserve` cancels is decided by the flag of a task that is
found. -/
theorem cancelReserve_timing {srv : Services} {retval : ℤ}
    (returns : s.cancelReserve srv t = .ok (retval, s')) :
    s'.timing = if s.found t = true ∧ (s.timing t).flag = true then
      Function.update s.timing t ((s.timing t).cancelled srv.schedSetaffinity) else s.timing := by
  obtain ⟨own, result, changes⟩ := cancelReserve_changes returns
  cases result with
  | missing missing =>
      rw [if_neg (by simp [missing])]
      exact changes.timing_eq rfl
  | refused found flag affinity =>
      have reserved : (s.timing t).flag = true := flag
      rw [if_pos ⟨found, flag⟩, affinity, Timing.cancelled, Bool.not_false, ← reserved]
      exact changes.timing rfl
  | idle _ flag _ =>
      have unreserved : (s.timing t).flag = false := flag
      rw [if_neg (by simp [unreserved])]
      exact changes.timing_eq rfl
  | released found flag affinity _ =>
      rw [if_pos ⟨found, flag⟩, affinity]
      exact changes.timing rfl

private theorem doExit_timing {srv : Services} (returns : s.doExit srv t = .ok s') :
    TimingStep s.found s.timing (.doExit srv t) s'.timing := by
  obtain ⟨own, released, result, changes, rfl⟩ := doExit_changes returns
  change TimingStep s.found s.timing (.doExit srv t) released.timing
  cases result with
  | idle _ =>
      rw [changes.timing_eq rfl]
      exact .idle
  | released flag _ =>
      rw [changes.timing rfl]
      exact .exited flag

/-! ## Timers, suspension and context switches -/

private theorem suspendTask_timing (s : Kernel) (t : Tid) :
    (s.suspendTask t).timing = Function.update s.timing t (s.timing t).asleep := by
  funext other
  unfold Kernel.suspendTask
  split
  · rename_i suspend
    have on : (s.timing t).suspend = true := suspend
    rw [Timing.asleep, if_pos on, Function.update_eq_self]
  · rename_i suspend
    have off : ¬ (s.timing t).suspend = true := suspend
    rw [Timing.asleep, if_neg off]
    rcases eq_or_ne other t with rfl | different
    · simp only [Kernel.timing, Kernel.modify_reserve, Function.update_self]
      rfl
    · simp only [Kernel.timing, Kernel.modify_reserve, Function.update_of_ne different]

private theorem resumeTask_timing (s : Kernel) (t : Tid) :
    (s.resumeTask t).timing = Function.update s.timing t (s.timing t).awake := by
  funext other
  unfold Kernel.resumeTask
  split
  · rename_i suspend
    have on : (s.timing t).suspend = true := suspend
    rw [Timing.awake, if_pos on]
    rcases eq_or_ne other t with rfl | different
    · simp only [Kernel.timing, Kernel.modify_reserve, Function.update_self]
      rfl
    · simp only [Kernel.timing, Kernel.modify_reserve, Function.update_of_ne different]
  · rename_i suspend
    have off : ¬ (s.timing t).suspend = true := suspend
    rw [Timing.awake, if_neg off, Function.update_eq_self]

private theorem cTimerCallback_timing (s : Kernel) (t : Tid) :
    TimingStep s.found s.timing (.cTimer t) (s.cTimerCallback t).timing := by
  let ticked : Kernel := s.modify t fun reserve => { reserve with
    accSingleRun := reserve.accSingleRun.tick
    acc := reserve.acc.tick }
  have same : ticked.timing = s.timing := (Kernel.frame_modify s t rfl).timing
  unfold Kernel.cTimerCallback
  dsimp only
  split
  · have stops : ((ticked.suspendTask t).modify t fun reserve =>
        { reserve with cTimer := false }).timing = Function.update (ticked.suspendTask t).timing t
          { (ticked.suspendTask t).timing t with cTimer := false } := timing_modify _ t _
    rw [suspendTask_timing, Function.update_idem, Function.update_self, same] at stops
    rw [stops]
    exact .outOfBudget
  · rw [same]
    exact .idle

private theorem pTimerCallback_timing {freq : Cpu → ℕ}
    (returns : s.pTimerCallback freq t = .ok s') :
    TimingStep s.found s.timing (.pTimer freq t) s'.timing := by
  obtain ⟨recorded, records, result⟩ := bind_eq_ok_iff.mp returns
  cases result
  have same := ((Kernel.frame_recordPeriod records).trans
    ((Kernel.frame_modify recorded t (f := fun reserve => { reserve with acc := ⟨0, 0⟩ }) rfl).trans
      (Kernel.frame_dropStaleEnergyFile _ t))).timing
  rw [resumeTask_timing, same]
  exact .woken

private theorem endJob_timing (s : Kernel) (t : Tid) :
    TimingStep s.found s.timing (.endJob t) (s.endJob t).2.timing := by
  unfold Kernel.endJob
  split
  · rename_i flag
    rw [suspendTask_timing]
    exact .slept flag
  · exact .idle

private theorem switchOut_timing (s : Kernel) (t : Tid) :
    TimingStep s.found s.timing (.switchOut t) (s.switchOut t).timing := by
  have same : (s.switchOut t).timing = (s.stopBudget t).timing :=
    ((Kernel.frame_chargeRun (s.stopBudget t) t).trans (Kernel.frame_modify _ t rfl)).timing
  rw [same]
  unfold Kernel.stopBudget
  split
  · rename_i flag
    rw [timing_modify]
    exact .switchedOut flag
  · exact .idle

private theorem switchIn_timing (s : Kernel) (t : Tid) :
    TimingStep s.found s.timing (.switchIn t) (s.switchIn t).timing := by
  unfold Kernel.switchIn
  split
  · rename_i flag
    rw [timing_modify]
    exact .switchedIn flag
  · exact .idle

/-! ## Refinement -/

/-- Every step of the kernel is a step of the timing machine. -/
theorem step_timing {op : Op} (taken : step s op = .ok s') :
    TimingStep s.found s.timing op s'.timing := by
  cases op with
  | setReserve srv tid budget period cpuid =>
      obtain ⟨⟨retval, target⟩, returns, result⟩ := bind_eq_ok_iff.mp taken
      cases result
      exact setReserve_timing returns
  | cancelReserve srv tid =>
      obtain ⟨⟨retval, target⟩, returns, result⟩ := bind_eq_ok_iff.mp taken
      cases result
      rw [cancelReserve_timing returns]
      split
      · rename_i reserved
        exact .cancelled reserved.1 reserved.2
      · exact .idle
  | doExit srv t => exact doExit_timing taken
  | endJob t =>
      cases taken
      exact endJob_timing s t
  | cTimer t =>
      cases taken
      exact cTimerCallback_timing s t
  | pTimer freq t => exact pTimerCallback_timing taken
  | switchOut t =>
      cases taken
      exact switchOut_timing s t
  | switchIn t =>
      cases taken
      exact switchIn_timing s t
  | setPolicy policy =>
      cases taken
      rw [(Kernel.frame_partitionPolicyStore s policy).timing]
      exact .idle

end Rtes.Reservation
