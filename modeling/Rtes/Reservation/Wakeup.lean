import Rtes.Reservation.Runs
import Rtes.Reservation.Timing

/-!
# Period timers and wake-ups

A task that is put to sleep until its next period is woken by its period timer
only.  The timer stays armed along every interleaving of the system calls and
the timers, as long as nobody cancels the reservation of a task that sleeps, and
no cancellation is given up half way.
-/

namespace Rtes.Reservation

open Rtes.Transition

/-! ## Armed timers -/

namespace Timing

variable {timing : Timing}

/-- A reserved task, one whose budget timer runs and one that sleeps until its
next period have their period timer armed. -/
structure Armed (timing : Timing) : Prop where
  reserved : timing.flag = true → timing.pTimer = true
  charged : timing.cTimer = true → timing.pTimer = true
  asleep : timing.suspend = true → timing.uninterruptible = true → timing.pTimer = true

theorem Armed.of_pTimer (on : timing.pTimer = true) : Armed timing :=
  ⟨fun _ => on, fun _ => on, fun _ _ => on⟩

theorem Armed.fresh (armed : Armed timing) : Armed timing.fresh := by
  unfold Timing.fresh
  split
  · exact armed
  · exact ⟨armed.reserved, armed.charged, Bool.noConfusion⟩

theorem Armed.awake (armed : Armed timing) : Armed timing.awake := by
  unfold Timing.awake
  split
  · exact ⟨armed.reserved, armed.charged, Bool.noConfusion⟩
  · exact armed

private theorem asleep_pTimer (timing : Timing) : timing.asleep.pTimer = timing.pTimer := by
  unfold Timing.asleep
  split
  · rfl
  · rfl

end Timing

variable {s s' : Kernel} {t : Tid}

/-! ## Every run -/

/-- Every reserved task and every task that sleeps until its next period has its
period timer armed. -/
def Enforced (s : Kernel) : Prop :=
  ∀ t, ((s.reserve t).flag = true → (s.reserve t).pTimer = true) ∧
    ((s.reserve t).suspend = true → s.uninterruptible t = true → (s.reserve t).pTimer = true)

/-- System calls with any arguments and outcomes, context switches, and
expirations of armed timers. -/
def TimerStep (s : Kernel) : Op → Prop
  | .cTimer t => (s.reserve t).cTimer = true
  | .pTimer _ t => (s.reserve t).pTimer = true
  | .doExit _ _ => False
  | _ => True

/-- A reservation is cancelled only while the affinity can be set and the task
does not sleep until its next period. -/
def Careful (s : Kernel) : Op → Prop
  | .cancelReserve srv tid => s.found tid = true → (s.reserve tid).flag = true →
      srv.schedSetaffinity = true ∧
        ¬ ((s.reserve tid).suspend = true ∧ s.uninterruptible tid = true)
  | _ => True

/-- Careful steps of the timing machine keep the timers armed. -/
theorem TimingStep.armed {op : Op} {timing : Tid → Timing}
    (taken : TimingStep s.found s.timing op timing) (permitted : TimerStep s op)
    (careful : Careful s op) (armed : ∀ t, (s.timing t).Armed) : ∀ t, (timing t).Armed := by
  cases taken with
  | idle => exact armed
  | undone => exact forall_update armed (armed _).fresh
  | started _ => exact forall_update armed (.of_pTimer rfl)
  | cancelled found flag =>
      obtain ⟨affinity, awake⟩ := careful found flag
      apply forall_update armed
      rw [affinity]
      exact ⟨Bool.noConfusion, Bool.noConfusion,
        fun suspend state => absurd ⟨suspend, state⟩ awake⟩
  | exited _ => exact permitted.elim
  | slept flag =>
      apply forall_update armed
      exact .of_pTimer ((Timing.asleep_pTimer _).trans ((armed _).reserved flag))
  | outOfBudget =>
      apply forall_update armed
      exact .of_pTimer ((Timing.asleep_pTimer _).trans ((armed _).charged permitted))
  | woken => exact forall_update armed (armed _).awake
  | switchedOut _ =>
      exact forall_update armed ⟨(armed _).reserved, Bool.noConfusion, (armed _).asleep⟩
  | switchedIn flag => exact forall_update armed (.of_pTimer ((armed _).reserved flag))

private theorem enforced_of_armed (armed : ∀ t, (s.timing t).Armed) : Enforced s :=
  fun t => ⟨(armed t).reserved, (armed t).asleep⟩

/-- A careless cancellation leaves a reservation without its timer or a task
asleep for ever. -/
theorem careful_of_enforced {op : Op} (taken : step s op = .ok s') (enforced : Enforced s') :
    Careful s op := by
  cases op with
  | cancelReserve srv tid =>
      intro found flag
      obtain ⟨⟨retval, target⟩, returns, result⟩ := bind_eq_ok_iff.mp taken
      cases result
      have timing := congrFun (cancelReserve_timing returns) tid
      rw [if_pos ⟨found, flag⟩, Function.update_self] at timing
      have off : (s'.reserve tid).pTimer = false := congrArg Timing.pTimer timing
      have left : (s'.reserve tid).flag = !srv.schedSetaffinity := congrArg Timing.flag timing
      have suspend : (s'.reserve tid).suspend = (s.reserve tid).suspend :=
        congrArg Timing.suspend timing
      have state : s'.uninterruptible tid = s.uninterruptible tid :=
        congrArg Timing.uninterruptible timing
      obtain ⟨reserved, asleep⟩ := enforced tid
      rw [off] at reserved asleep
      constructor
      · by_contra fails
        have unset : srv.schedSetaffinity = false := by simpa using fails
        rw [unset] at left
        exact Bool.noConfusion (reserved left)
      · rintro ⟨isSuspended, isAsleep⟩
        exact Bool.noConfusion (asleep (suspend.trans isSuspended) (state.trans isAsleep))
  | _ => trivial

/-- Another process cancels the reservation of a task that sleeps until its next
period. -/
theorem reaches_not_enforced : ∃ s, Reaches step TimerStep Boot s ∧ ¬ Enforced s := by
  refine ⟨after step (after step (after step .bare (reserveMillis 1 1 10 0)) (.endJob 1))
    (.cancelReserve .succeed 1), ?_, ?_⟩
  · apply Reaches.after
    · apply Reaches.after
      · apply Reaches.after
        · exact .start boot_bare
        · trivial
        · decide
      · trivial
      · decide
    · trivial
    · decide
  · intro enforced
    exact absurd ((enforced 1).2 (by decide) (by decide)) (by decide)

/-- In every run of careful steps the period timers are armed in every state
reached, and the next step keeps them armed exactly when it is careful. -/
theorem reaches_enforced
    (reached : Reaches step (fun s op => TimerStep s op ∧ Careful s op) Boot s) :
    Enforced s ∧ ∀ op s', TimerStep s op → step s op = .ok s' → (Enforced s' ↔ Careful s op) := by
  have armed : ∀ t, (s.timing t).Armed := by
    apply reached.invariant
    · intro state boot t
      obtain ⟨flag, suspend, cTimer, _⟩ := boot.reserve t
      exact ⟨fun on => Bool.noConfusion (flag.symm.trans on),
        fun on => Bool.noConfusion (cTimer.symm.trans on),
        fun on => Bool.noConfusion (suspend.symm.trans on)⟩
    · intro state op target armed permitted taken
      exact (step_timing taken).armed permitted.1 permitted.2 armed
  refine ⟨enforced_of_armed armed, ?_⟩
  intro op s' permitted taken
  constructor
  · exact careful_of_enforced taken
  · intro careful
    exact enforced_of_armed ((step_timing taken).armed permitted careful armed)

theorem reaches_enforced_endJob :
    Enforced (after step (after step .bare (reserveMillis 1 1 10 0)) (.endJob 1)) := by
  refine (reaches_enforced ?_).1
  apply Reaches.after
  · apply Reaches.after
    · exact .start boot_bare
    · exact ⟨trivial, trivial⟩
    · decide
  · exact ⟨trivial, trivial⟩
  · decide

end Rtes.Reservation
