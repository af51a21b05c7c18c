import Rtes.Reservation.Own
import Rtes.Reservation.Timing

/-!
# The lock around a suspension

`end_job` and the two callbacks test and set the suspension of a task under its lock
`s_lock`, and leave the rest to the scheduler: a task whose state is not running is
taken off the run queue when it calls `schedule`, and put back when it is woken.  The
period timer may fire on another CPU than the one the task runs on, so that its callback
goes on while the task runs and while the budget timer interrupts it.  The task may also
wait for something else, which others wake it for.  Here they take turns statement by
statement.
-/

namespace Rtes.Reservation

open Rtes.Transition

/-! ## Parts of the operations -/

namespace Kernel

/-- `t->state` is set to `TASK_UNINTERRUPTIBLE`, or to something else. -/
def setUninterruptible (s : Kernel) (t : Tid) (value : Bool) : Kernel :=
  { s with uninterruptible := Function.update s.uninterruptible t value }

def setSuspend (s : Kernel) (t : Tid) (value : Bool) : Kernel :=
  s.modify t fun reserve => { reserve with suspend := value }

/-- `HRTIMER_NORESTART` -/
def stopCTimer (s : Kernel) (t : Tid) : Kernel :=
  s.modify t fun reserve => { reserve with cTimer := false }

/-- A tick is charged to `acc_single_run`, which nothing but this timer and `__schedule` on
the same CPU touches. -/
def tickRun (s : Kernel) (t : Tid) : Kernel :=
  s.modify t fun reserve => { reserve with accSingleRun := reserve.accSingleRun.tick }

/-- A statement on a field of `acc`. -/
def onAcc (s : Kernel) (t : Tid) (f : Timespec → Timespec) : Kernel :=
  s.modify t fun reserve => { reserve with acc := f reserve.acc }

/-- `p_timer_callback` up to where it resets the accumulator. -/
def measurePeriod (freq : Cpu → ℕ) (s : Kernel) (t : Tid) : Except Fault Kernel :=
  Kernel.recordPeriod { s with
    cpuFreq := fun cpu => if s.cpuOnline cpu then freq cpu / 1000 else s.cpuFreq cpu } t

end Kernel

/-! ## Positions -/

/-- Where the task is: computing; in `end_job` before the lock is taken, before `suspend` is
tested, before it is set, before the lock is released, before `schedule` is called, and after
it returned; or waiting for something else, interruptibly or not, before it looks whether that
has come, before `schedule` is called, and after it returned. -/
inductive TaskAt where
  | user
  | called
  | locked
  | marked
  | leaving
  | scheduling
  | returning
  | waits (interruptible : Bool)
  | sleeps (interruptible : Bool)
  | wakes (interruptible : Bool)
  deriving DecidableEq, Repr

/-- Where `c_timer_callback` is: not running, before the carry is tested, before the seconds
are counted, before the time limit is tested, before the lock is taken, and as in `end_job` from
there. -/
inductive CTimerAt where
  | idle
  | added
  | carried
  | ticked
  | spent
  | locked
  | marked
  | leaving
  deriving DecidableEq, Repr

/-- Where `p_timer_callback` is: not running, before the nanoseconds and before the seconds are
reset, before the energy file is looked at, before the lock is taken, before `suspend` is tested,
before it is cleared, and before the lock is released. -/
inductive PTimerAt where
  | idle
  | measured
  | cleared
  | reset
  | recorded
  | locked
  | woke
  | leaving
  deriving DecidableEq, Repr

/-- The task is in its critical section.  Interrupts are off there. -/
def TaskAt.Holds (position : TaskAt) : Prop :=
  position = .locked ∨ position = .marked ∨ position = .leaving

/-- The task waits for something else. -/
def TaskAt.InWait (position : TaskAt) (interruptible : Bool) : Prop :=
  position = .waits interruptible ∨ position = .sleeps interruptible ∨
    position = .wakes interruptible

def CTimerAt.Holds (position : CTimerAt) : Prop :=
  position = .locked ∨ position = .marked ∨ position = .leaving

def PTimerAt.Holds (position : PTimerAt) : Prop :=
  position = .locked ∨ position = .woke ∨ position = .leaving

/-- Whether the task is on the run queue and is the current one of its CPU, whether its lock is
taken, whether its state is `TASK_INTERRUPTIBLE`, whether something it may wait for has come and
whether whoever brought it is about to wake the task, and where the three parties are. -/
structure Control where
  onRq : Bool
  onCpu : Bool
  sLock : Bool
  interruptible : Bool
  event : Bool
  waking : Bool
  task : TaskAt
  cTimer : CTimerAt
  pTimer : PTimerAt
  deriving DecidableEq, Repr

structure Machine where
  kernel : Kernel
  control : Control

/-! ## Statements -/

namespace Machine

def taskTo (m : Machine) (position : TaskAt) : Machine :=
  { m with control := { m.control with task := position } }

def cTimerTo (m : Machine) (position : CTimerAt) : Machine :=
  { m with control := { m.control with cTimer := position } }

def pTimerTo (m : Machine) (position : PTimerAt) : Machine :=
  { m with control := { m.control with pTimer := position } }

/-- `s_lock` is taken or released. -/
def setLock (m : Machine) (value : Bool) : Machine :=
  { m with control := { m.control with sLock := value } }

/-- What the task waited for is there. -/
def takeEvent (m : Machine) : Machine :=
  { m with control := { m.control with event := false } }

/-- A statement on the data of the kernel. -/
def onKernel (m : Machine) (f : Kernel → Kernel) : Machine :=
  { m with kernel := f m.kernel }

/-- The state of the task is not `TASK_RUNNING`. -/
def blocked (t : Tid) (m : Machine) : Bool :=
  m.kernel.uninterruptible t || m.control.interruptible

/-- `t->state` is set. -/
def setState (t : Tid) (uninterruptible interruptible : Bool) (m : Machine) : Machine :=
  ⟨m.kernel.setUninterruptible t uninterruptible,
    { m.control with interruptible := interruptible }⟩

/-- `__schedule`: a task that is not running leaves the run queue, unless it was preempted
in the kernel.  One that stays there may be the only one to choose. -/
def schedule (t : Tid) (preemptActive alone : Bool) (m : Machine) : Machine :=
  if m.blocked t && !preemptActive then
    ⟨m.kernel.switchOut t, { m.control with onRq := false, onCpu := false }⟩
  else if alone then
    m
  else
    ⟨m.kernel.switchOut t, { m.control with onCpu := false }⟩

section Schedule

variable (t : Tid) (preemptActive alone : Bool) (m : Machine)

@[simp]
theorem schedule_sLock : (m.schedule t preemptActive alone).control.sLock = m.control.sLock := by
  unfold schedule
  split_ifs <;> rfl

@[simp]
theorem schedule_task : (m.schedule t preemptActive alone).control.task = m.control.task := by
  unfold schedule
  split_ifs <;> rfl

@[simp]
theorem schedule_cTimer : (m.schedule t preemptActive alone).control.cTimer = m.control.cTimer := by
  unfold schedule
  split_ifs <;> rfl

@[simp]
theorem schedule_pTimer : (m.schedule t preemptActive alone).control.pTimer = m.control.pTimer := by
  unfold schedule
  split_ifs <;> rfl

end Schedule

/-- `try_to_wake_up`, for all sleeping states or for `TASK_INTERRUPTIBLE` only. -/
def wakeUp (t : Tid) (all : Bool) (m : Machine) : Machine :=
  if all && m.kernel.uninterruptible t || m.control.interruptible then
    ⟨m.kernel.setUninterruptible t false,
      { m.control with interruptible := false, onRq := true }⟩
  else
    m

section WakeUp

variable (t : Tid) (all : Bool) (m : Machine)

@[simp]
theorem wakeUp_sLock : (m.wakeUp t all).control.sLock = m.control.sLock := by
  unfold wakeUp
  split <;> rfl

@[simp]
theorem wakeUp_onCpu : (m.wakeUp t all).control.onCpu = m.control.onCpu := by
  unfold wakeUp
  split <;> rfl

@[simp]
theorem wakeUp_task : (m.wakeUp t all).control.task = m.control.task := by
  unfold wakeUp
  split <;> rfl

@[simp]
theorem wakeUp_cTimer : (m.wakeUp t all).control.cTimer = m.control.cTimer := by
  unfold wakeUp
  split <;> rfl

@[simp]
theorem wakeUp_pTimer : (m.wakeUp t all).control.pTimer = m.control.pTimer := by
  unfold wakeUp
  split <;> rfl

end WakeUp

/-- The next statement of `end_job`, which the task calls if it computes, or of the loop in which
it waits for something else. -/
def taskStep (t : Tid) (alone : Bool) (m : Machine) : Machine :=
  match m.control.task with
  | .user => if (m.kernel.reserve t).flag then m.taskTo .called else m
  | .called => (m.setLock true).taskTo .locked
  | .locked =>
      if (m.kernel.reserve t).suspend then m.taskTo .leaving
      else (m.setState t true false).taskTo .marked
  | .marked => (m.onKernel (·.setSuspend t true)).taskTo .leaving
  | .leaving => (m.setLock false).taskTo .scheduling
  | .scheduling => (m.schedule t false alone).taskTo .returning
  | .returning => m.taskTo .user
  | .waits interruptible =>
      if m.control.event then (m.takeEvent.setState t false false).taskTo .user
      else m.taskTo (.sleeps interruptible)
  | .sleeps interruptible => (m.schedule t false alone).taskTo (.wakes interruptible)
  | .wakes interruptible =>
      (m.setState t (!interruptible) interruptible).taskTo (.waits interruptible)

/-- The next statement of `c_timer_callback`. -/
def cTimerStep (t : Tid) (m : Machine) : Machine :=
  match m.control.cTimer with
  | .idle =>
      (m.onKernel fun s => (s.tickRun t).onAcc t fun acc =>
        { acc with tvNsec := acc.tvNsec + reserveIncrementNs }).cTimerTo .added
  | .added =>
      if nsPerS < (m.kernel.reserve t).acc.tvNsec then
        (m.onKernel (·.onAcc t fun acc => { acc with tvNsec := acc.tvNsec - nsPerS })).cTimerTo
          .carried
      else
        m.cTimerTo .ticked
  | .carried =>
      (m.onKernel (·.onAcc t fun acc => { acc with tvSec := acc.tvSec + 1 })).cTimerTo .ticked
  | .ticked =>
      if (m.kernel.reserve t).acc.exceeds (m.kernel.reserve t).C then m.cTimerTo .spent
      else m.cTimerTo .idle
  | .spent => (m.setLock true).cTimerTo .locked
  | .locked =>
      if (m.kernel.reserve t).suspend then m.cTimerTo .leaving
      else (m.setState t true false).cTimerTo .marked
  | .marked => (m.onKernel (·.setSuspend t true)).cTimerTo .leaving
  | .leaving => ((m.onKernel (·.stopCTimer t)).setLock false).cTimerTo .idle

/-- The next statement of `p_timer_callback`. -/
def pTimerStep (freq : Cpu → ℕ) (t : Tid) (m : Machine) : Except Fault Machine :=
  match m.control.pTimer with
  | .idle => do
      let s ← m.kernel.measurePeriod freq t
      .ok ((m.onKernel fun _ => s).pTimerTo .measured)
  | .measured =>
      .ok ((m.onKernel (·.onAcc t fun acc => { acc with tvNsec := 0 })).pTimerTo .cleared)
  | .cleared =>
      .ok ((m.onKernel (·.onAcc t fun acc => { acc with tvSec := 0 })).pTimerTo .reset)
  | .reset => .ok ((m.onKernel (·.dropStaleEnergyFile t)).pTimerTo .recorded)
  | .recorded => .ok ((m.setLock true).pTimerTo .locked)
  | .locked =>
      if (m.kernel.reserve t).suspend then .ok ((m.wakeUp t true).pTimerTo .woke)
      else .ok (m.pTimerTo .leaving)
  | .woke => .ok ((m.onKernel (·.setSuspend t false)).pTimerTo .leaving)
  | .leaving => .ok ((m.setLock false).pTimerTo .idle)

end Machine

/-- The task or a callback goes on by a statement, the task begins to wait for something else, is
preempted or is chosen by the scheduler, or something it may wait for comes and it is woken for
that. -/
inductive Move where
  | task (alone : Bool)
  | waits (interruptible : Bool)
  | preempted (preemptActive : Bool)
  | picked
  | cTimer
  | pTimer (freq : Cpu → ℕ)
  | event
  | wake (all : Bool)

/-- A task that begins to wait sets its state before it looks. -/
def microStep (t : Tid) (m : Machine) : Move → Except Fault Machine
  | .task alone => .ok (m.taskStep t alone)
  | .waits interruptible =>
      .ok ((m.setState t (!interruptible) interruptible).taskTo (.waits interruptible))
  | .preempted preemptActive => .ok (m.schedule t preemptActive false)
  | .picked => .ok ⟨m.kernel.switchIn t, { m.control with onCpu := true }⟩
  | .cTimer => .ok (m.cTimerStep t)
  | .pTimer freq => m.pTimerStep freq t
  | .event => .ok { m with control := { m.control with event := true, waking := true } }
  | .wake all =>
      .ok (Machine.wakeUp t all { m with control := { m.control with waking := false } })

/-- The task goes on while it is current and not interrupted.  It may be preempted unless it is in
its section; outside of the kernel it is then rescheduled like one that calls `schedule`.  The
budget timer interrupts it while it is current and interrupts are on; the period timer fires at any
time.  Who wants the lock waits for it.  A task that waits uninterruptibly is woken from all
states. -/
def Enabled (t : Tid) (m : Machine) : Move → Prop
  | .task _ => m.control.onCpu = true ∧ m.control.cTimer = .idle ∧
      (m.control.task = .called → m.control.sLock = false)
  | .waits _ => m.control.onCpu = true ∧ m.control.cTimer = .idle ∧ m.control.task = .user
  | .preempted preemptActive => m.control.onCpu = true ∧ m.control.cTimer = .idle ∧
      ¬ m.control.task.Holds ∧ (preemptActive = false → m.control.task = .user)
  | .picked => m.control.onRq = true ∧ m.control.onCpu = false
  | .cTimer =>
      (m.control.cTimer = .idle → (m.kernel.reserve t).cTimer = true ∧
        m.control.onCpu = true ∧ ¬ m.control.task.Holds) ∧
      (m.control.cTimer = .spent → m.control.sLock = false)
  | .pTimer _ =>
      (m.control.pTimer = .idle → (m.kernel.reserve t).pTimer = true) ∧
      (m.control.pTimer = .recorded → m.control.sLock = false)
  | .event => True
  | .wake all => m.control.waking = true ∧ (m.control.task.InWait false → all = true)

instance : DecidablePred TaskAt.Holds :=
  fun position => inferInstanceAs (Decidable (position = _ ∨ position = _ ∨ position = _))

instance {position : TaskAt} {interruptible : Bool} : Decidable (position.InWait interruptible) :=
  inferInstanceAs (Decidable (position = _ ∨ position = _ ∨ position = _))

instance decidableEnabled {t : Tid} {m : Machine} {move : Move} : Decidable (Enabled t m move) :=
  match move with
  | .task _ => inferInstanceAs (Decidable (_ ∧ _ ∧ _))
  | .waits _ => inferInstanceAs (Decidable (_ ∧ _ ∧ _))
  | .preempted _ => inferInstanceAs (Decidable (_ ∧ _ ∧ _ ∧ _))
  | .picked => inferInstanceAs (Decidable (_ ∧ _))
  | .cTimer => inferInstanceAs (Decidable ((_ → _ ∧ _ ∧ _) ∧ (_ → _)))
  | .pTimer _ => inferInstanceAs (Decidable ((_ → _) ∧ (_ → _)))
  | .event => .isTrue trivial
  | .wake _ => inferInstanceAs (Decidable (_ ∧ (_ → _)))

/-! ## Undisturbed operations -/

variable {t : Tid} {m m' m'' : Machine}

/-- A party goes on for some statements. -/
def GoesOn (t : Tid) (move : Move) (m m' : Machine) : Prop :=
  ∃ n, (List.replicate n move).foldlM (microStep t) m = .ok m'

theorem GoesOn.trans {move : Move} (first : GoesOn t move m m') (second : GoesOn t move m' m'') :
    GoesOn t move m m'' := by
  obtain ⟨n, goes⟩ := first
  obtain ⟨k, goes'⟩ := second
  refine ⟨n + k, ?_⟩
  rw [← List.replicate_append_replicate, List.foldlM_append, goes]
  exact goes'

/-- A call of `end_job` that is not disturbed does what `endJob` does, and comes to its call
of `schedule`. -/
theorem task_undisturbed (flag : (m.kernel.reserve t).flag = true) (user : m.control.task = .user)
    (free : m.control.sLock = false) :
    ∃ interruptible, GoesOn t (.task false) m ⟨(m.kernel.endJob t).2,
      { m.control with interruptible := interruptible, task := .scheduling }⟩ := by
  obtain ⟨s, onRq, onCpu, sLock, interruptible, event, waking, task, c, p⟩ := m
  cases user
  cases free
  dsimp only at flag
  cases suspend : (s.reserve t).suspend with
  | true =>
      refine ⟨interruptible, 4, ?_⟩
      simp [microStep, Machine.taskStep, Machine.taskTo, Machine.setLock, Kernel.endJob,
        Kernel.suspendTask, flag, suspend]
  | false =>
      refine ⟨false, 5, ?_⟩
      simp [microStep, Machine.taskStep, Machine.taskTo, Machine.setLock, Machine.setState,
        Machine.onKernel, Kernel.endJob, Kernel.suspendTask, flag, suspend,
        Kernel.setUninterruptible, Kernel.setSuspend, Kernel.modify]

/-- A tick that is not disturbed charges both accumulators. -/
theorem tick_undisturbed (idle : m.control.cTimer = .idle) :
    GoesOn t .cTimer m ((m.onKernel (·.modify t Reserve.ticked)).cTimerTo .ticked) := by
  obtain ⟨s, onRq, onCpu, sLock, interruptible, event, waking, task, c, p⟩ := m
  cases idle
  by_cases carries : nsPerS < (s.reserve t).acc.tvNsec + reserveIncrementNs
  · refine ⟨3, ?_⟩
    simp [microStep, Machine.cTimerStep, Machine.onKernel, Machine.cTimerTo, Kernel.onAcc,
      Kernel.tickRun, Kernel.modify, carries, Reserve.ticked, Timespec.tick]
  · refine ⟨2, ?_⟩
    simp [microStep, Machine.cTimerStep, Machine.onKernel, Machine.cTimerTo, Kernel.onAcc,
      Kernel.tickRun, Kernel.modify, carries, Reserve.ticked, Timespec.tick]

/-- A budget timer that is not disturbed does what its callback does. -/
theorem cTimer_undisturbed (idle : m.control.cTimer = .idle) (free : m.control.sLock = false) :
    ∃ interruptible, GoesOn t .cTimer m
      ⟨m.kernel.cTimerCallback t, { m.control with interruptible := interruptible }⟩ := by
  have ticks := tick_undisturbed (t := t) idle
  obtain ⟨s, onRq, onCpu, sLock, interruptible, event, waking, task, c, p⟩ := m
  cases idle
  cases free
  by_cases exceeds : (s.reserve t).acc.tick.exceeds (s.reserve t).C = true
  · cases suspend : (s.reserve t).suspend with
    | true =>
        refine ⟨interruptible, ticks.trans ⟨4, ?_⟩⟩
        simp [microStep, Machine.cTimerStep, Machine.cTimerTo, Machine.setLock, Machine.onKernel,
          Kernel.cTimerCallback, Kernel.suspendTask, exceeds, suspend, Reserve.ticked,
          Kernel.stopCTimer, Kernel.modify]
    | false =>
        refine ⟨false, ticks.trans ⟨5, ?_⟩⟩
        simp [microStep, Machine.cTimerStep, Machine.cTimerTo, Machine.setLock, Machine.onKernel,
          Machine.setState, Kernel.cTimerCallback, Kernel.suspendTask, exceeds, suspend,
          Reserve.ticked, Kernel.setUninterruptible, Kernel.setSuspend, Kernel.stopCTimer,
          Kernel.modify]
  · refine ⟨interruptible, ticks.trans ⟨1, ?_⟩⟩
    simp [microStep, Machine.cTimerStep, Machine.cTimerTo, Machine.onKernel, Kernel.cTimerCallback,
      exceeds, Reserve.ticked, Kernel.modify]

/-- A period timer that is not disturbed does what its callback does, and puts a task that
sleeps back on the run queue. -/
theorem pTimer_undisturbed {freq : Cpu → ℕ} {s' : Kernel} (idle : m.control.pTimer = .idle)
    (free : m.control.sLock = false) (returns : m.kernel.pTimerCallback freq t = .ok s') :
    ∃ onRq interruptible, GoesOn t (.pTimer freq) m
      ⟨s', { m.control with onRq := onRq, interruptible := interruptible }⟩ := by
  obtain ⟨s, onRq, onCpu, sLock, interruptible, event, waking, task, c, p⟩ := m
  cases idle
  cases free
  obtain ⟨measured, measures, result⟩ := bind_eq_ok_iff.mp returns
  cases result
  generalize dropped : Kernel.dropStaleEnergyFile
    (measured.modify t fun reserve => { reserve with acc := ⟨0, 0⟩ }) t = ended
  have records : GoesOn t (.pTimer freq)
      ⟨s, onRq, onCpu, false, interruptible, event, waking, task, c, .idle⟩
      ⟨ended, onRq, onCpu, false, interruptible, event, waking, task, c, .recorded⟩ := by
    refine ⟨4, ?_⟩
    change s.measurePeriod freq t = .ok measured at measures
    simp [microStep, Machine.pTimerStep, Machine.pTimerTo, Machine.onKernel, measures,
      Kernel.onAcc, ← dropped, Kernel.modify]
  cases suspend : (ended.reserve t).suspend with
  | false =>
      refine ⟨onRq, interruptible, records.trans ⟨3, ?_⟩⟩
      simp [microStep, Machine.pTimerStep, Machine.pTimerTo, Machine.setLock, suspend,
        Kernel.resumeTask]
  | true =>
      by_cases asleep : ended.uninterruptible t = true ∨ interruptible = true
      · refine ⟨true, false, records.trans ⟨4, ?_⟩⟩
        simp [microStep, Machine.pTimerStep, Machine.pTimerTo, Machine.setLock, Machine.onKernel,
          Machine.wakeUp, suspend, asleep, Kernel.resumeTask, Kernel.setUninterruptible,
          Kernel.setSuspend, Kernel.modify]
      · refine ⟨onRq, interruptible, records.trans ⟨4, ?_⟩⟩
        have same : Function.update ended.uninterruptible t false = ended.uninterruptible := by
          have running : ended.uninterruptible t = false := by simp_all
          rw [← running, Function.update_eq_self]
        simp [microStep, Machine.pTimerStep, Machine.pTimerTo, Machine.setLock, Machine.onKernel,
          Machine.wakeUp, suspend, asleep, Kernel.resumeTask, Kernel.setSuspend, Kernel.modify,
          same]

end Rtes.Reservation
