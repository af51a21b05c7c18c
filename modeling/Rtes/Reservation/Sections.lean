import Rtes.Reservation.Handshake
import Rtes.Reservation.Runs
import Rtes.Transition.Simulation

/-!
# Critical sections in one step

Whatever the task and its two timers do in turn, at most one of them is between taking and
releasing the lock of the suspension.  A section can therefore be taken to happen at once,
when it tests the suspension.  What the period timer does before it takes the lock, and the
ticks that the budget timer charges and tests without it, remain single statements.
-/

namespace Rtes.Reservation

open Rtes.Transition

variable {t : Tid} {m m' : Machine} {c : Control}

/-! ## The machine of sections -/

namespace Machine

/-- The section in which `end_job` and `c_timer_callback` put the task to sleep. -/
def suspendTask (t : Tid) (m : Machine) : Machine :=
  if (m.kernel.reserve t).suspend then m
  else (m.setState t true false).onKernel (·.setSuspend t true)

/-- The section in which `p_timer_callback` wakes it. -/
def resumeTask (t : Tid) (m : Machine) : Machine :=
  if (m.kernel.reserve t).suspend then (m.wakeUp t true).onKernel (·.setSuspend t false) else m

def taskSection (t : Tid) (alone : Bool) (m : Machine) : Machine :=
  match m.control.task with
  | .called => (m.suspendTask t).taskTo .scheduling
  | _ => m.taskStep t alone

def cTimerSection (t : Tid) (m : Machine) : Machine :=
  match m.control.cTimer with
  | .spent => ((m.suspendTask t).onKernel (·.stopCTimer t)).cTimerTo .idle
  | _ => m.cTimerStep t

def pTimerSection (freq : Cpu → ℕ) (t : Tid) (m : Machine) : Except Fault Machine :=
  match m.control.pTimer with
  | .recorded => .ok ((m.resumeTask t).pTimerTo .idle)
  | _ => m.pTimerStep freq t

end Machine

/-- A move of the machine whose parties pass through their sections in one step. -/
def sectionStep (t : Tid) (m : Machine) : Move → Except Fault Machine
  | .task alone => .ok (m.taskSection t alone)
  | .cTimer => .ok (m.cTimerSection t)
  | .pTimer freq => m.pTimerSection freq t
  | move => microStep t m move

/-! ## What a section has yet to do -/

/-- Change the suspension of a task and whether its budget timer runs. -/
def Kernel.mark (s : Kernel) (t : Tid) (suspend cTimer : Bool → Bool) : Kernel :=
  s.modify t fun reserve => { reserve with
    suspend := suspend reserve.suspend
    cTimer := cTimer reserve.cTimer }

section Mark

variable (s : Kernel) (suspend cTimer : Bool → Bool)

@[simp]
theorem mark_id : s.mark t id id = s := by
  simp [Kernel.mark, Kernel.modify]

@[simp]
theorem mark_flag : ((s.mark t suspend cTimer).reserve t).flag = (s.reserve t).flag := by
  simp [Kernel.mark]

@[simp]
theorem mark_acc : ((s.mark t suspend cTimer).reserve t).acc = (s.reserve t).acc := by
  simp [Kernel.mark]

@[simp]
theorem mark_C : ((s.mark t suspend cTimer).reserve t).C = (s.reserve t).C := by
  simp [Kernel.mark]

@[simp]
theorem mark_pTimer : ((s.mark t suspend cTimer).reserve t).pTimer = (s.reserve t).pTimer := by
  simp [Kernel.mark]

@[simp]
theorem mark_suspend :
    ((s.mark t suspend cTimer).reserve t).suspend = suspend (s.reserve t).suspend := by
  simp [Kernel.mark]

@[simp]
theorem mark_cTimer :
    ((s.mark t suspend cTimer).reserve t).cTimer = cTimer (s.reserve t).cTimer := by
  simp [Kernel.mark]

@[simp]
theorem mark_uninterruptible : (s.mark t suspend cTimer).uninterruptible = s.uninterruptible :=
  rfl

@[simp]
theorem mark_mark (suspend' cTimer' : Bool → Bool) :
    (s.mark t suspend cTimer).mark t suspend' cTimer' =
      s.mark t (suspend' ∘ suspend) (cTimer' ∘ cTimer) := by
  simp [Kernel.mark, modify_modify]

theorem setSuspend_eq_mark (value : Bool) : s.setSuspend t value = s.mark t (fun _ => value) id :=
  rfl

theorem stopCTimer_eq_mark : s.stopCTimer t = s.mark t id fun _ => false :=
  rfl

@[simp]
theorem setUninterruptible_mark (value : Bool) :
    (s.mark t suspend cTimer).setUninterruptible t value =
      (s.setUninterruptible t value).mark t suspend cTimer :=
  rfl

private theorem modify_mark {f : Reserve → Reserve}
    (commutes : ∀ reserve : Reserve, f { reserve with
        suspend := suspend reserve.suspend, cTimer := cTimer reserve.cTimer } =
      { f reserve with
        suspend := suspend (f reserve).suspend, cTimer := cTimer (f reserve).cTimer }) :
    (s.mark t suspend cTimer).modify t f = (s.modify t f).mark t suspend cTimer := by
  simp only [Kernel.mark, modify_modify, commutes]

@[simp]
theorem tickRun_mark :
    (s.mark t suspend cTimer).tickRun t = (s.tickRun t).mark t suspend cTimer :=
  modify_mark _ _ _ fun _ => rfl

@[simp]
theorem onAcc_mark (f : Timespec → Timespec) :
    (s.mark t suspend cTimer).onAcc t f = (s.onAcc t f).mark t suspend cTimer :=
  modify_mark _ _ _ fun _ => rfl

private theorem measurePeriod_mark {freq : Cpu → ℕ} {s : Kernel} {measured : Kernel}
    (measures : s.measurePeriod freq t = .ok measured) :
    (s.mark t suspend cTimer).measurePeriod freq t = .ok (measured.mark t suspend cTimer) := by
  cases enabled : s.taskmonEnabled with
  | false =>
      simp only [Kernel.measurePeriod, Kernel.recordPeriod, enabled] at measures
      cases measures
      simp [Kernel.measurePeriod, Kernel.recordPeriod, Kernel.mark, Kernel.modify, enabled]
  | true =>
      by_cases zero : (s.reserve t).period = 0
      · simp [Kernel.measurePeriod, Kernel.recordPeriod, enabled, zero] at measures
      · simp only [Kernel.measurePeriod, Kernel.recordPeriod, enabled, zero, if_true,
          if_false] at measures
        cases measures
        simp [Kernel.measurePeriod, Kernel.recordPeriod, Kernel.mark, Kernel.modify, enabled, zero]

@[simp]
theorem kfree_mark (addr : Option Addr) :
    (s.mark t suspend cTimer).kfree addr = (s.kfree addr).mark t suspend cTimer := by
  cases addr with
  | none => rfl
  | some addr => rfl

@[simp]
theorem dropStaleEnergyFile_mark :
    (s.mark t suspend cTimer).dropStaleEnergyFile t =
      (s.dropStaleEnergyFile t).mark t suspend cTimer := by
  have removes : (s.mark t suspend cTimer).removeEnergyFile t =
      (s.removeEnergyFile t).mark t suspend cTimer := by
    have attr : ((s.mark t suspend cTimer).reserve t).energyAttr = (s.reserve t).energyAttr := by
      simp [Kernel.mark]
    rw [Kernel.removeEnergyFile, attr, kfree_mark]
    exact modify_mark _ _ _ fun _ => rfl
  have kobj : ((s.mark t suspend cTimer).reserve t).pidKobj = (s.reserve t).pidKobj := by
    simp [Kernel.mark]
  have rtes : (s.mark t suspend cTimer).rtesKobj = s.rtesKobj := rfl
  rw [Kernel.dropStaleEnergyFile, Kernel.dropStaleEnergyFile, kobj, rtes, removes]
  split
  · exact modify_mark _ _ _ fun _ => rfl
  · rfl

private theorem stopBudget_mark :
    (s.mark t suspend id).stopBudget t = (s.stopBudget t).mark t suspend id := by
  unfold Kernel.stopBudget
  rw [mark_flag]
  split
  · exact modify_mark _ _ _ fun _ => rfl
  · rfl

private theorem chargeRun_mark :
    (s.mark t suspend cTimer).chargeRun t = (s.chargeRun t).mark t suspend cTimer := by
  have energy : (s.mark t suspend cTimer).runEnergy t = s.runEnergy t := by
    simp [Kernel.runEnergy, Kernel.powerAt, Kernel.mark, Kernel.modify]
  have tracking : ((s.mark t suspend cTimer).reserve t).trackingEnergy =
      (s.reserve t).trackingEnergy := by
    simp [Kernel.mark]
  rw [Kernel.chargeRun, Kernel.chargeRun, tracking, energy]
  split
  · rw [modify_mark]
    · rfl
    · exact fun _ => rfl
  · rfl

@[simp]
theorem switchOut_mark :
    (s.mark t suspend id).switchOut t = (s.switchOut t).mark t suspend id := by
  rw [Kernel.switchOut, stopBudget_mark, chargeRun_mark]
  exact modify_mark _ _ _ fun _ => rfl

@[simp]
theorem switchIn_mark :
    (s.mark t suspend id).switchIn t = (s.switchIn t).mark t suspend id := by
  unfold Kernel.switchIn
  rw [mark_flag]
  split
  · exact modify_mark _ _ _ fun _ => rfl
  · rfl

end Mark

/-! ## The machine between sections -/

def TaskAt.seen : TaskAt → TaskAt
  | .locked => .called
  | .marked | .leaving => .scheduling
  | position => position

def CTimerAt.seen : CTimerAt → CTimerAt
  | .locked => .spent
  | .marked | .leaving => .idle
  | position => position

def PTimerAt.seen : PTimerAt → PTimerAt
  | .locked => .recorded
  | .woke | .leaving => .idle
  | position => position

/-- What the section has yet to do to the suspension. -/
def TaskAt.suspends : TaskAt → Bool → Bool
  | .marked => fun _ => true
  | _ => id

def CTimerAt.suspends : CTimerAt → Bool → Bool
  | .marked => fun _ => true
  | _ => id

def PTimerAt.suspends : PTimerAt → Bool → Bool
  | .woke => fun _ => false
  | _ => id

/-- What it has yet to do to the budget timer. -/
def CTimerAt.stops : CTimerAt → Bool → Bool
  | .marked | .leaving => fun _ => false
  | _ => id

namespace Control

/-- What the section in progress has yet to do to the suspension. -/
def suspends (c : Control) : Bool → Bool :=
  c.pTimer.suspends ∘ c.cTimer.suspends ∘ c.task.suspends

def seen (c : Control) : Control :=
  { c with
    sLock := false
    task := c.task.seen
    cTimer := c.cTimer.seen
    pTimer := c.pTimer.seen }

end Control

/-- The machine after a section that has tested the suspension, and before one that has not. -/
def Machine.seen (t : Tid) (m : Machine) : Machine :=
  ⟨m.kernel.mark t m.control.suspends m.control.cTimer.stops, m.control.seen⟩

theorem TaskAt.seen_inWait {position : TaskAt} {interruptible : Bool} :
    position.seen.InWait interruptible ↔ position.InWait interruptible := by
  cases position <;> simp [TaskAt.InWait, TaskAt.seen]

section Outside

variable {task : TaskAt} {cTimer : CTimerAt} {pTimer : PTimerAt}

theorem TaskAt.seen_of_outside (outside : ¬ task.Holds) : task.seen = task := by
  cases task <;> simp_all [TaskAt.Holds, TaskAt.seen]

theorem TaskAt.suspends_of_outside (outside : ¬ task.Holds) : task.suspends = id := by
  cases task <;> simp_all [TaskAt.Holds, TaskAt.suspends]

theorem CTimerAt.seen_of_outside (outside : ¬ cTimer.Holds) : cTimer.seen = cTimer := by
  cases cTimer <;> simp_all [CTimerAt.Holds, CTimerAt.seen]

theorem CTimerAt.suspends_of_outside (outside : ¬ cTimer.Holds) : cTimer.suspends = id := by
  cases cTimer <;> simp_all [CTimerAt.Holds, CTimerAt.suspends]

theorem CTimerAt.stops_of_outside (outside : ¬ cTimer.Holds) : cTimer.stops = id := by
  cases cTimer <;> simp_all [CTimerAt.Holds, CTimerAt.stops]

theorem PTimerAt.seen_of_outside (outside : ¬ pTimer.Holds) : pTimer.seen = pTimer := by
  cases pTimer <;> simp_all [PTimerAt.Holds, PTimerAt.seen]

theorem PTimerAt.suspends_of_outside (outside : ¬ pTimer.Holds) : pTimer.suspends = id := by
  cases pTimer <;> simp_all [PTimerAt.Holds, PTimerAt.suspends]

end Outside

namespace Machine

@[simp]
theorem seen_task : (m.seen t).control.task = m.control.task.seen :=
  rfl

@[simp]
theorem seen_cTimer : (m.seen t).control.cTimer = m.control.cTimer.seen :=
  rfl

@[simp]
theorem seen_pTimer : (m.seen t).control.pTimer = m.control.pTimer.seen :=
  rfl

@[simp]
theorem seen_sLock : (m.seen t).control.sLock = false :=
  rfl

@[simp]
theorem seen_flag : ((m.seen t).kernel.reserve t).flag = (m.kernel.reserve t).flag :=
  mark_flag ..

@[simp]
theorem seen_acc : ((m.seen t).kernel.reserve t).acc = (m.kernel.reserve t).acc :=
  mark_acc ..

@[simp]
theorem seen_C : ((m.seen t).kernel.reserve t).C = (m.kernel.reserve t).C :=
  mark_C ..

theorem seen_taskTo {position : TaskAt} (outside : ¬ m.control.task.Holds)
    (remains : ¬ position.Holds) : (m.taskTo position).seen t = (m.seen t).taskTo position := by
  simp [seen, taskTo, Control.seen, Control.suspends, TaskAt.seen_of_outside remains,
    TaskAt.suspends_of_outside remains, TaskAt.suspends_of_outside outside]

theorem seen_cTimerTo {position : CTimerAt} (outside : ¬ m.control.cTimer.Holds)
    (remains : ¬ position.Holds) : (m.cTimerTo position).seen t = (m.seen t).cTimerTo position := by
  simp [seen, cTimerTo, Control.seen, Control.suspends, CTimerAt.seen_of_outside remains,
    CTimerAt.suspends_of_outside remains, CTimerAt.suspends_of_outside outside,
    CTimerAt.stops_of_outside remains, CTimerAt.stops_of_outside outside]

theorem seen_pTimerTo {position : PTimerAt} (outside : ¬ m.control.pTimer.Holds)
    (remains : ¬ position.Holds) : (m.pTimerTo position).seen t = (m.seen t).pTimerTo position := by
  simp [seen, pTimerTo, Control.seen, Control.suspends, PTimerAt.seen_of_outside remains,
    PTimerAt.suspends_of_outside remains, PTimerAt.suspends_of_outside outside]

theorem seen_onKernel {f : Kernel → Kernel} (commutes : ∀ suspend cTimer,
      f (m.kernel.mark t suspend cTimer) = (f m.kernel).mark t suspend cTimer) :
    (m.onKernel f).seen t = (m.seen t).onKernel f := by
  simp [seen, onKernel, commutes]

@[simp]
theorem seen_setState (uninterruptible interruptible : Bool) :
    (m.setState t uninterruptible interruptible).seen t =
      (m.seen t).setState t uninterruptible interruptible :=
  rfl

private theorem seen_wakeUp (all : Bool) : (m.wakeUp t all).seen t = (m.seen t).wakeUp t all := by
  unfold wakeUp
  by_cases wakes : (all && m.kernel.uninterruptible t || m.control.interruptible) = true
  · exact (congrArg _ (if_pos wakes)).trans (if_pos wakes).symm
  · exact (congrArg _ (if_neg wakes)).trans (if_neg wakes).symm

theorem seen_schedule (idle : m.control.cTimer = .idle) (preemptActive alone : Bool) :
    (m.schedule t preemptActive alone).seen t = (m.seen t).schedule t preemptActive alone := by
  -- the section in progress, if any, leaves the budget timer alone
  have switches : (m.seen t).kernel.switchOut t =
      (m.kernel.switchOut t).mark t m.control.suspends id := by
    simp only [seen, idle, CTimerAt.stops, switchOut_mark]
  unfold schedule
  by_cases sleeps : (m.blocked t && !preemptActive) = true
  · rw [if_pos sleeps, if_pos (show ((m.seen t).blocked t && !preemptActive) = true from sleeps),
      switches]
    simp [seen, Control.seen, Control.suspends, idle, CTimerAt.stops]
  · rw [if_neg sleeps,
      if_neg (show ¬ ((m.seen t).blocked t && !preemptActive) = true from sleeps), switches]
    split
    · rfl
    · simp [seen, Control.seen, Control.suspends, idle, CTimerAt.stops]

end Machine

/-! ## Exclusion -/

/-- One party at a time is in its critical section.  The task is current there, and while
its budget timer interrupts it, which is outside of its section. -/
structure Excluded (c : Control) : Prop where
  task : c.task.Holds →
    c.sLock = true ∧ c.onCpu = true ∧ c.cTimer = .idle ∧ ¬ c.pTimer.Holds
  cTimer : c.cTimer.Holds → c.sLock = true ∧ ¬ c.pTimer.Holds
  pTimer : c.pTimer.Holds → c.sLock = true
  interrupts : c.cTimer ≠ .idle → c.onCpu = true

namespace Excluded

/-- The task is outside of its section and not interrupted. -/
theorem of_idle (task : ¬ c.task.Holds) (cTimer : c.cTimer = .idle)
    (pTimer : c.pTimer.Holds → c.sLock = true) : Excluded c where
  task holds := absurd holds task
  cTimer holds := by simp [CTimerAt.Holds, cTimer] at holds
  pTimer := pTimer
  interrupts running := absurd cTimer running

variable (excluded : Excluded c)
include excluded

theorem none_holds (free : c.sLock = false) :
    ¬ c.task.Holds ∧ ¬ c.cTimer.Holds ∧ ¬ c.pTimer.Holds := by
  refine ⟨fun holds => ?_, fun holds => ?_, fun holds => ?_⟩
  · exact Bool.noConfusion (free.symm.trans (excluded.task holds).1)
  · exact Bool.noConfusion (free.symm.trans (excluded.cTimer holds).1)
  · exact Bool.noConfusion (free.symm.trans (excluded.pTimer holds))

theorem task_of_cTimer (running : c.cTimer ≠ .idle) : ¬ c.task.Holds :=
  fun holds => running (excluded.task holds).2.2.1

theorem others_of_pTimer (holds : c.pTimer.Holds) : ¬ c.task.Holds ∧ ¬ c.cTimer.Holds :=
  ⟨fun task => (excluded.task task).2.2.2 holds, fun cTimer => (excluded.cTimer cTimer).2 holds⟩

theorem taskMoves {position : TaskAt} (within : position.Holds → c.task.Holds) :
    Excluded { c with task := position } :=
  { excluded with task := fun holds => excluded.task (within holds) }

theorem cTimerMoves {position : CTimerAt} (running : c.cTimer ≠ .idle)
    (within : position.Holds → c.cTimer.Holds) : Excluded { c with cTimer := position } :=
  { excluded with
    task := fun holds => absurd (excluded.task holds).2.2.1 running
    cTimer := fun holds => excluded.cTimer (within holds)
    interrupts := fun _ => excluded.interrupts running }

theorem pTimerMoves {position : PTimerAt} (within : position.Holds → c.pTimer.Holds) :
    Excluded { c with pTimer := position } :=
  { excluded with
    task := fun holds => (excluded.task holds).imp_right fun rest =>
      rest.imp_right fun rest => rest.imp_right fun outside holds => outside (within holds)
    cTimer := fun holds => (excluded.cTimer holds).imp_right fun outside holds =>
      outside (within holds)
    pTimer := fun holds => excluded.pTimer (within holds) }

end Excluded

theorem Excluded.setState (excluded : Excluded m.control) (uninterruptible interruptible : Bool) :
    Excluded (m.setState t uninterruptible interruptible).control :=
  { excluded with }

theorem Excluded.wakeUp (excluded : Excluded m.control) (all : Bool) :
    Excluded (m.wakeUp t all).control := by
  unfold Machine.wakeUp
  split
  · exact { excluded with }
  · exact excluded

/-- Between sections, the machine is what is seen of it. -/
theorem Excluded.seen_of_free (excluded : Excluded m.control) (free : m.control.sLock = false) :
    m.seen t = m := by
  obtain ⟨task, cTimer, pTimer⟩ := excluded.none_holds free
  obtain ⟨s, onRq, onCpu, sLock, interruptible, event, waking, task', c, p⟩ := m
  cases free
  simp only [Machine.seen, Control.seen, Control.suspends, TaskAt.seen_of_outside task,
    TaskAt.suspends_of_outside task, CTimerAt.seen_of_outside cTimer,
    CTimerAt.suspends_of_outside cTimer, CTimerAt.stops_of_outside cTimer,
    PTimerAt.seen_of_outside pTimer, PTimerAt.suspends_of_outside pTimer, Function.comp_id, mark_id]

/-! ## Statements of the task -/

/-- The statements that are not seen: those that take the lock, and those after the test. -/
def Move.Silent (c : Control) : Move → Prop
  | .task _ => c.task = .called ∨ c.task = .marked ∨ c.task = .leaving
  | .cTimer => c.cTimer = .spent ∨ c.cTimer = .marked ∨ c.cTimer = .leaving
  | .pTimer _ => c.pTimer = .recorded ∨ c.pTimer = .woke ∨ c.pTimer = .leaving
  | _ => False

/-- What is seen of a machine stays if the move is silent, and changes by a step of the machine
of sections otherwise. -/
def Refines (t : Tid) (m : Machine) (move : Move) (m' : Machine) : Prop :=
  move.Silent m.control ∧ m'.seen t = m.seen t ∨
    ¬ move.Silent m.control ∧ Enabled t (m.seen t) move ∧
      sectionStep t (m.seen t) move = .ok (m'.seen t)

private theorem taskStep_excluded {alone : Bool} (excluded : Excluded m.control)
    (enabled : Enabled t m (.task alone)) : Excluded (m.taskStep t alone).control := by
  obtain ⟨onCpu, idle, free⟩ := enabled
  cases task : m.control.task with
  | user =>
      simp only [Machine.taskStep, task]
      split
      · exact excluded.taskMoves (by simp [TaskAt.Holds])
      · exact excluded
  | called =>
      obtain ⟨_, cTimer, pTimer⟩ := excluded.none_holds (free task)
      simp only [Machine.taskStep, task]
      exact ⟨fun _ => ⟨rfl, onCpu, idle, pTimer⟩, fun holds => absurd holds cTimer, fun _ => rfl,
        excluded.interrupts⟩
  | locked =>
      simp only [Machine.taskStep, task]
      split
      · exact excluded.taskMoves fun _ => .inl task
      · exact (excluded.setState true false).taskMoves fun _ => .inl task
  | marked =>
      simp only [Machine.taskStep, task]
      exact excluded.taskMoves fun _ => .inr (.inl task)
  | leaving =>
      have outside := (excluded.task (.inr (.inr task))).2.2.2
      simp only [Machine.taskStep, task]
      exact .of_idle (by simp [TaskAt.Holds, Machine.taskTo]) idle fun holds => absurd holds outside
  | scheduling | sleeps _ =>
      simp only [Machine.taskStep, task]
      exact .of_idle (by simp [TaskAt.Holds, Machine.taskTo]) (by simpa [Machine.taskTo] using idle)
        (by simpa [Machine.taskTo] using excluded.pTimer)
  | returning =>
      simp only [Machine.taskStep, task]
      exact excluded.taskMoves (by simp [TaskAt.Holds])
  | waits interruptible =>
      simp only [Machine.taskStep, task]
      split
      · exact .of_idle (by simp [TaskAt.Holds, Machine.taskTo]) idle excluded.pTimer
      · exact excluded.taskMoves (by simp [TaskAt.Holds])
  | wakes interruptible =>
      simp only [Machine.taskStep, task]
      exact .of_idle (by simp [TaskAt.Holds, Machine.taskTo]) idle excluded.pTimer

private theorem taskStep_refines {alone : Bool} (excluded : Excluded m.control)
    (enabled : Enabled t m (.task alone)) : Refines t m (.task alone) (m.taskStep t alone) := by
  obtain ⟨onCpu, idle, free⟩ := enabled
  have enabled' : Enabled t (m.seen t) (.task alone) :=
    ⟨onCpu, by simp [idle, CTimerAt.seen], fun _ => rfl⟩
  cases task : m.control.task with
  | user =>
      refine .inr ⟨by simp [Move.Silent, task], enabled', congrArg Except.ok ?_⟩
      simp only [Machine.taskStep, Machine.taskSection, Machine.seen_task, task, TaskAt.seen,
        Machine.seen_flag]
      split
      · exact (Machine.seen_taskTo (by simp [TaskAt.Holds, task]) (by simp [TaskAt.Holds])).symm
      · rfl
  | called | leaving =>
      refine .inl ⟨by simp [Move.Silent, task], ?_⟩
      simp [Machine.taskStep, Machine.seen, Machine.taskTo, Machine.setLock, Control.seen,
        Control.suspends, TaskAt.seen, TaskAt.suspends, task]
  | locked =>
      refine .inr ⟨by simp [Move.Silent, task], enabled', congrArg Except.ok ?_⟩
      have outside := (excluded.task (.inl task)).2.2.2
      simp only [Machine.taskStep, Machine.taskSection, Machine.seen_task, task, TaskAt.seen]
      cases suspend : (m.kernel.reserve t).suspend with
      | true =>
          simp [Machine.suspendTask, Machine.seen, Machine.taskTo, Control.seen, Control.suspends,
            TaskAt.seen, TaskAt.suspends, task, idle, CTimerAt.suspends, CTimerAt.stops,
            PTimerAt.suspends_of_outside outside, suspend]
      | false =>
          simp [Machine.suspendTask, Machine.seen, Machine.taskTo, Control.seen, Control.suspends,
            TaskAt.seen, TaskAt.suspends, task, idle, CTimerAt.suspends, CTimerAt.stops,
            PTimerAt.suspends_of_outside outside, suspend, Machine.setState, Machine.onKernel,
            setSuspend_eq_mark]
  | marked =>
      refine .inl ⟨by simp [Move.Silent, task], ?_⟩
      have outside := (excluded.task (.inr (.inl task))).2.2.2
      simp only [Machine.taskStep, task]
      simp [Machine.seen, Machine.taskTo, Machine.onKernel, Control.seen, Control.suspends,
        TaskAt.seen, TaskAt.suspends, task, idle, CTimerAt.suspends, CTimerAt.stops,
        PTimerAt.suspends_of_outside outside, setSuspend_eq_mark]
  | scheduling | sleeps _ =>
      refine .inr ⟨by simp [Move.Silent, task], enabled', congrArg Except.ok ?_⟩
      simp only [Machine.taskStep, Machine.taskSection, Machine.seen_task, task, TaskAt.seen]
      rw [Machine.seen_taskTo (by simp [TaskAt.Holds, task]) (by simp [TaskAt.Holds]),
        Machine.seen_schedule idle]
  | returning =>
      refine .inr ⟨by simp [Move.Silent, task], enabled', congrArg Except.ok ?_⟩
      simp only [Machine.taskStep, Machine.taskSection, Machine.seen_task, task, TaskAt.seen]
      exact (Machine.seen_taskTo (by simp [TaskAt.Holds, task]) (by simp [TaskAt.Holds])).symm
  | waits interruptible =>
      refine .inr ⟨by simp [Move.Silent, task], enabled', congrArg Except.ok ?_⟩
      simp only [Machine.taskStep, Machine.taskSection, Machine.seen_task, task, TaskAt.seen]
      by_cases came : m.control.event = true
      · rw [if_pos came, if_pos (show (m.seen t).control.event = true from came),
          Machine.seen_taskTo (by simp [TaskAt.Holds, Machine.setState, Machine.takeEvent, task])
            (by simp [TaskAt.Holds])]
        rfl
      · rw [if_neg came, if_neg (show ¬ (m.seen t).control.event = true from came),
          Machine.seen_taskTo (by simp [TaskAt.Holds, task]) (by simp [TaskAt.Holds])]
  | wakes interruptible =>
      refine .inr ⟨by simp [Move.Silent, task], enabled', congrArg Except.ok ?_⟩
      simp only [Machine.taskStep, Machine.taskSection, Machine.seen_task, task, TaskAt.seen]
      rw [Machine.seen_taskTo (by simp [TaskAt.Holds, Machine.setState, task])
        (by simp [TaskAt.Holds])]
      rfl

/-! ## Statements of the budget timer -/

private theorem cTimerStep_excluded (excluded : Excluded m.control)
    (enabled : Enabled t m .cTimer) :
    Excluded (m.cTimerStep t).control := by
  obtain ⟨fires, free⟩ := enabled
  cases cTimer : m.control.cTimer with
  | idle =>
      obtain ⟨_, onCpu, outside⟩ := fires cTimer
      simp only [Machine.cTimerStep, cTimer]
      exact ⟨fun holds => absurd holds outside, by simp [CTimerAt.Holds, Machine.cTimerTo],
        excluded.pTimer, fun _ => onCpu⟩
  | carried =>
      simp only [Machine.cTimerStep, cTimer]
      exact excluded.cTimerMoves (by simp [cTimer]) (by simp [CTimerAt.Holds])
  | added | ticked =>
      simp only [Machine.cTimerStep, cTimer]
      split
      · exact excluded.cTimerMoves (by simp [cTimer]) (by simp [CTimerAt.Holds])
      · exact excluded.cTimerMoves (by simp [cTimer]) (by simp [CTimerAt.Holds])
  | spent =>
      obtain ⟨task, _, pTimer⟩ := excluded.none_holds (free cTimer)
      simp only [Machine.cTimerStep, cTimer]
      exact ⟨fun holds => absurd holds task, fun _ => ⟨rfl, pTimer⟩, fun _ => rfl,
        fun _ => excluded.interrupts (by simp [cTimer])⟩
  | locked =>
      simp only [Machine.cTimerStep, cTimer]
      split
      · exact excluded.cTimerMoves (by simp [cTimer]) fun _ => .inl cTimer
      · exact (excluded.setState true false).cTimerMoves (by simp [Machine.setState, cTimer])
          fun _ => .inl cTimer
  | marked =>
      simp only [Machine.cTimerStep, cTimer]
      exact excluded.cTimerMoves (by simp [cTimer]) fun _ => .inr (.inl cTimer)
  | leaving =>
      have task := excluded.task_of_cTimer (by simp [cTimer])
      have pTimer := (excluded.cTimer (.inr (.inr cTimer))).2
      simp only [Machine.cTimerStep, cTimer]
      exact .of_idle task rfl fun holds => absurd holds pTimer

private theorem cTimerStep_refines (excluded : Excluded m.control) (enabled : Enabled t m .cTimer) :
    Refines t m .cTimer (m.cTimerStep t) := by
  cases cTimer : m.control.cTimer with
  | idle =>
      obtain ⟨runs, onCpu, outside⟩ := enabled.1 cTimer
      refine .inr ⟨by simp [Move.Silent, cTimer], ?_, congrArg Except.ok ?_⟩
      · refine ⟨fun _ => ⟨?_, onCpu, ?_⟩, fun _ => rfl⟩
        · simpa [Machine.seen, cTimer, CTimerAt.stops] using runs
        · simpa [TaskAt.seen_of_outside outside] using outside
      · simp only [Machine.cTimerStep, Machine.cTimerSection, Machine.seen_cTimer, cTimer,
          CTimerAt.seen]
        rw [Machine.seen_cTimerTo (by simp [CTimerAt.Holds, Machine.onKernel, cTimer])
          (by simp [CTimerAt.Holds]), Machine.seen_onKernel (by simp)]
  | added =>
      refine .inr ⟨by simp [Move.Silent, cTimer],
        ⟨by simp [cTimer, CTimerAt.seen], fun _ => rfl⟩, congrArg Except.ok ?_⟩
      simp only [Machine.cTimerStep, Machine.cTimerSection, Machine.seen_cTimer, cTimer,
        CTimerAt.seen, Machine.seen_acc]
      split_ifs
      · rw [Machine.seen_cTimerTo (by simp [CTimerAt.Holds, Machine.onKernel, cTimer])
          (by simp [CTimerAt.Holds]), Machine.seen_onKernel (by simp)]
      · rw [Machine.seen_cTimerTo (by simp [CTimerAt.Holds, cTimer]) (by simp [CTimerAt.Holds])]
  | carried =>
      refine .inr ⟨by simp [Move.Silent, cTimer],
        ⟨by simp [cTimer, CTimerAt.seen], fun _ => rfl⟩, congrArg Except.ok ?_⟩
      simp only [Machine.cTimerStep, Machine.cTimerSection, Machine.seen_cTimer, cTimer,
        CTimerAt.seen]
      rw [Machine.seen_cTimerTo (by simp [CTimerAt.Holds, Machine.onKernel, cTimer])
        (by simp [CTimerAt.Holds]), Machine.seen_onKernel (by simp)]
  | ticked =>
      refine .inr ⟨by simp [Move.Silent, cTimer],
        ⟨by simp [cTimer, CTimerAt.seen], fun _ => rfl⟩, congrArg Except.ok ?_⟩
      simp only [Machine.cTimerStep, Machine.cTimerSection, Machine.seen_cTimer, cTimer,
        CTimerAt.seen, Machine.seen_acc, Machine.seen_C]
      split_ifs
      · rw [Machine.seen_cTimerTo (by simp [CTimerAt.Holds, cTimer]) (by simp [CTimerAt.Holds])]
      · rw [Machine.seen_cTimerTo (by simp [CTimerAt.Holds, cTimer]) (by simp [CTimerAt.Holds])]
  | spent =>
      refine .inl ⟨by simp [Move.Silent, cTimer], ?_⟩
      simp [Machine.cTimerStep, Machine.seen, Machine.cTimerTo, Machine.setLock, Control.seen,
        Control.suspends, CTimerAt.seen, CTimerAt.suspends, CTimerAt.stops, cTimer]
  | locked =>
      have task := excluded.task_of_cTimer (by simp [cTimer])
      have pTimer := (excluded.cTimer (.inl cTimer)).2
      refine .inr ⟨by simp [Move.Silent, cTimer],
        ⟨by simp [cTimer, CTimerAt.seen], fun _ => rfl⟩, congrArg Except.ok ?_⟩
      simp only [Machine.cTimerStep, Machine.cTimerSection, Machine.seen_cTimer, cTimer,
        CTimerAt.seen]
      cases suspend : (m.kernel.reserve t).suspend with
      | true =>
          simp [Machine.suspendTask, Machine.seen, Machine.cTimerTo, Control.seen,
            Control.suspends, CTimerAt.seen, CTimerAt.suspends, CTimerAt.stops, cTimer,
            TaskAt.suspends_of_outside task, PTimerAt.suspends_of_outside pTimer, suspend,
            Machine.onKernel, stopCTimer_eq_mark]
      | false =>
          simp [Machine.suspendTask, Machine.seen, Machine.cTimerTo, Control.seen,
            Control.suspends, CTimerAt.seen, CTimerAt.suspends, CTimerAt.stops, cTimer,
            TaskAt.suspends_of_outside task, PTimerAt.suspends_of_outside pTimer, suspend,
            Machine.onKernel, Machine.setState, setSuspend_eq_mark, stopCTimer_eq_mark]
  | marked =>
      have task := excluded.task_of_cTimer (by simp [cTimer])
      have pTimer := (excluded.cTimer (.inr (.inl cTimer))).2
      refine .inl ⟨by simp [Move.Silent, cTimer], ?_⟩
      simp only [Machine.cTimerStep, cTimer]
      simp [Machine.seen, Machine.cTimerTo, Control.seen, Control.suspends, CTimerAt.seen,
        CTimerAt.suspends, CTimerAt.stops, cTimer, TaskAt.suspends_of_outside task,
        PTimerAt.suspends_of_outside pTimer, Machine.onKernel, setSuspend_eq_mark]
  | leaving =>
      refine .inl ⟨by simp [Move.Silent, cTimer], ?_⟩
      simp only [Machine.cTimerStep, cTimer]
      simp [Machine.seen, Machine.cTimerTo, Machine.setLock, Control.seen, Control.suspends,
        CTimerAt.seen, CTimerAt.suspends, CTimerAt.stops, cTimer, Machine.onKernel,
        stopCTimer_eq_mark]

/-! ## Statements of the period timer -/

private theorem pTimerStep_excluded {freq : Cpu → ℕ} (excluded : Excluded m.control)
    (enabled : Enabled t m (.pTimer freq)) (taken : m.pTimerStep freq t = .ok m') :
    Excluded m'.control := by
  cases pTimer : m.control.pTimer with
  | idle =>
      simp only [Machine.pTimerStep, pTimer] at taken
      obtain ⟨_, _, result⟩ := bind_eq_ok_iff.mp taken
      cases result
      exact excluded.pTimerMoves (by simp [PTimerAt.Holds])
  | measured | cleared | reset =>
      simp only [Machine.pTimerStep, pTimer] at taken
      cases taken
      exact excluded.pTimerMoves (by simp [PTimerAt.Holds])
  | recorded =>
      obtain ⟨task, cTimer, _⟩ := excluded.none_holds (enabled.2 pTimer)
      simp only [Machine.pTimerStep, pTimer] at taken
      cases taken
      exact ⟨fun holds => absurd holds task, fun holds => absurd holds cTimer, fun _ => rfl,
        excluded.interrupts⟩
  | locked =>
      simp only [Machine.pTimerStep, pTimer] at taken
      split at taken
      · cases taken
        exact (excluded.wakeUp true).pTimerMoves fun _ => .inl (by simp [pTimer])
      · cases taken
        exact excluded.pTimerMoves fun _ => .inl pTimer
  | woke =>
      simp only [Machine.pTimerStep, pTimer] at taken
      cases taken
      exact excluded.pTimerMoves fun _ => .inr (.inl pTimer)
  | leaving =>
      obtain ⟨task, cTimer⟩ := excluded.others_of_pTimer (.inr (.inr pTimer))
      simp only [Machine.pTimerStep, pTimer] at taken
      cases taken
      exact ⟨fun holds => absurd holds task, fun holds => absurd holds cTimer,
        by simp [PTimerAt.Holds, Machine.pTimerTo], excluded.interrupts⟩

private theorem pTimerStep_refines {freq : Cpu → ℕ} (excluded : Excluded m.control)
    (enabled : Enabled t m (.pTimer freq)) (taken : m.pTimerStep freq t = .ok m') :
    Refines t m (.pTimer freq) m' := by
  cases pTimer : m.control.pTimer with
  | idle =>
      simp only [Machine.pTimerStep, pTimer] at taken
      obtain ⟨measured, measures, result⟩ := bind_eq_ok_iff.mp taken
      cases result
      refine .inr ⟨by simp [Move.Silent, pTimer], ?_, ?_⟩
      · refine ⟨fun _ => ?_, fun _ => rfl⟩
        simpa [Machine.seen] using enabled.1 pTimer
      · simp only [sectionStep, Machine.pTimerStep, Machine.pTimerSection, Machine.seen_pTimer,
          pTimer, PTimerAt.seen]
        rw [Machine.seen, measurePeriod_mark _ _ measures, ok_bind]
        simp [Machine.seen, Machine.onKernel, Machine.pTimerTo, Control.seen, Control.suspends,
          PTimerAt.suspends, PTimerAt.seen, pTimer]
  | measured | cleared | reset =>
      simp only [Machine.pTimerStep, pTimer] at taken
      cases taken
      refine .inr ⟨by simp [Move.Silent, pTimer],
        ⟨by simp [pTimer, PTimerAt.seen], fun _ => rfl⟩, ?_⟩
      simp only [sectionStep, Machine.pTimerStep, Machine.pTimerSection, Machine.seen_pTimer,
        pTimer, PTimerAt.seen]
      rw [Machine.seen_pTimerTo (by simp [PTimerAt.Holds, Machine.onKernel, pTimer])
        (by simp [PTimerAt.Holds]), Machine.seen_onKernel (by simp)]
  | recorded | leaving =>
      simp only [Machine.pTimerStep, pTimer] at taken
      cases taken
      refine .inl ⟨by simp [Move.Silent, pTimer], ?_⟩
      simp [Machine.seen, Machine.pTimerTo, Machine.setLock, Control.seen, Control.suspends,
        PTimerAt.seen, PTimerAt.suspends, pTimer]
  | locked =>
      obtain ⟨task, cTimer⟩ := excluded.others_of_pTimer (.inl pTimer)
      refine .inr ⟨by simp [Move.Silent, pTimer],
        ⟨by simp [pTimer, PTimerAt.seen], fun _ => rfl⟩, ?_⟩
      have same : ((m.seen t).kernel.reserve t).suspend = (m.kernel.reserve t).suspend := by
        simp [Machine.seen, Control.suspends, pTimer, PTimerAt.suspends,
          TaskAt.suspends_of_outside task, CTimerAt.suspends_of_outside cTimer]
      simp only [Machine.pTimerStep, pTimer] at taken
      simp only [sectionStep, Machine.pTimerSection, Machine.resumeTask, Machine.seen_pTimer,
        pTimer, PTimerAt.seen, same]
      split at taken
      · rename_i suspend
        cases taken
        rw [if_pos suspend, ← Machine.seen_wakeUp]
        simp [Machine.seen, Machine.pTimerTo, Machine.onKernel, Control.seen, Control.suspends,
          PTimerAt.seen, PTimerAt.suspends, pTimer, TaskAt.suspends_of_outside task,
          CTimerAt.suspends_of_outside cTimer, CTimerAt.stops_of_outside cTimer, setSuspend_eq_mark]
      · rename_i suspend
        cases taken
        rw [if_neg suspend]
        simp [Machine.seen, Machine.pTimerTo, Control.seen, Control.suspends, PTimerAt.seen,
          PTimerAt.suspends, pTimer]
  | woke =>
      obtain ⟨task, cTimer⟩ := excluded.others_of_pTimer (.inr (.inl pTimer))
      simp only [Machine.pTimerStep, pTimer] at taken
      cases taken
      refine .inl ⟨by simp [Move.Silent, pTimer], ?_⟩
      simp [Machine.seen, Machine.pTimerTo, Machine.onKernel, Control.seen, Control.suspends,
        PTimerAt.seen, PTimerAt.suspends, pTimer, TaskAt.suspends_of_outside task,
        CTimerAt.suspends_of_outside cTimer, CTimerAt.stops_of_outside cTimer, setSuspend_eq_mark]

/-! ## Every move -/

theorem microStep_excluded {move : Move} (excluded : Excluded m.control)
    (enabled : Enabled t m move) (taken : microStep t m move = .ok m') : Excluded m'.control := by
  cases move with
  | task alone =>
      cases taken
      exact taskStep_excluded excluded enabled
  | waits interruptible =>
      cases taken
      exact .of_idle (by simp [TaskAt.Holds, Machine.taskTo]) enabled.2.1 excluded.pTimer
  | preempted preemptActive =>
      obtain ⟨_, idle, outside, _⟩ := enabled
      cases taken
      exact .of_idle (by simpa using outside) (by simpa using idle)
        (by simpa using excluded.pTimer)
  | picked =>
      cases taken
      exact { excluded with
        task := fun holds => ⟨(excluded.task holds).1, rfl, (excluded.task holds).2.2⟩
        interrupts := fun _ => rfl }
  | cTimer =>
      cases taken
      exact cTimerStep_excluded excluded enabled
  | pTimer freq => exact pTimerStep_excluded excluded enabled taken
  | event =>
      cases taken
      exact { excluded with }
  | wake all =>
      cases taken
      have unchanged : Excluded { m.control with waking := false } := { excluded with }
      exact Excluded.wakeUp (m := ⟨m.kernel, _⟩) unchanged all

theorem microStep_refines {move : Move} (excluded : Excluded m.control) (enabled : Enabled t m move)
    (taken : microStep t m move = .ok m') : Refines t m move m' := by
  cases move with
  | task alone =>
      cases taken
      exact taskStep_refines excluded enabled
  | waits interruptible =>
      obtain ⟨onCpu, idle, user⟩ := enabled
      cases taken
      refine .inr ⟨id, ⟨onCpu, by simp [idle, CTimerAt.seen], by simp [user, TaskAt.seen]⟩, ?_⟩
      rw [Machine.seen_taskTo (by simp [TaskAt.Holds, Machine.setState, user])
        (by simp [TaskAt.Holds])]
      rfl
  | preempted preemptActive =>
      obtain ⟨onCpu, idle, outside, user⟩ := enabled
      cases taken
      refine .inr ⟨id, ⟨onCpu, by simp [idle, CTimerAt.seen], ?_, ?_⟩, ?_⟩
      · simpa [TaskAt.seen_of_outside outside] using outside
      · simpa [TaskAt.seen_of_outside outside] using user
      · rw [Machine.seen_schedule idle]
        rfl
  | picked =>
      obtain ⟨onRq, onCpu⟩ := enabled
      have idle : m.control.cTimer = .idle := by
        by_contra running
        exact Bool.noConfusion (onCpu.symm.trans (excluded.interrupts running))
      cases taken
      refine .inr ⟨id, ⟨onRq, onCpu⟩, ?_⟩
      simp [sectionStep, microStep, Machine.seen, Control.seen, Control.suspends, idle,
        CTimerAt.stops]
  | cTimer =>
      cases taken
      exact cTimerStep_refines excluded enabled
  | pTimer freq => exact pTimerStep_refines excluded enabled taken
  | event =>
      cases taken
      exact .inr ⟨id, trivial, rfl⟩
  | wake all =>
      obtain ⟨waking, fits⟩ := enabled
      cases taken
      refine .inr ⟨id, ⟨waking, fun waits => fits (TaskAt.seen_inWait.mp waits)⟩, ?_⟩
      rw [Machine.seen_wakeUp]
      rfl

/-! ## Every run -/

/-- A reserved task computes, and none of its timers is at work. -/
structure Computes (t : Tid) (m : Machine) : Prop where
  flag : (m.kernel.reserve t).flag = true
  pTimer : (m.kernel.reserve t).pTimer = true
  suspend : (m.kernel.reserve t).suspend = false
  uninterruptible : m.kernel.uninterruptible t = false
  control : ∃ onCpu event waking,
    m.control = ⟨true, onCpu, false, false, event, waking, .user, .idle, .idle⟩

theorem Computes.excluded (computes : Computes t m) :
    Excluded m.control ∧ m.control.sLock = false := by
  obtain ⟨_, _, _, control⟩ := computes.control
  rw [control]
  exact ⟨.of_idle (by simp [TaskAt.Holds]) rfl (by simp [PTimerAt.Holds]), rfl⟩

/-- In every interleaving the critical sections exclude each other, and what is seen of the
machine is reached by a machine that passes through each of them in one step.  While the lock
is free, that is the machine itself. -/
theorem reaches_sections (reached : Reaches (microStep t) (Enabled t) (Computes t) m) :
    (m.control.task.Holds → ¬ m.control.cTimer.Holds ∧ ¬ m.control.pTimer.Holds) ∧
    (m.control.cTimer.Holds → ¬ m.control.pTimer.Holds) ∧
    Reaches (sectionStep t) (Enabled t) (Computes t) (m.seen t) ∧
    (m.control.sLock = false → m.seen t = m) := by
  obtain ⟨excluded, sections⟩ : Excluded m.control ∧
      Reaches (sectionStep t) (Enabled t) (Computes t) (m.seen t) := by
    refine reached.refined (fun m => Excluded m.control) (Machine.seen t) ?_ ?_
    · intro first computes
      obtain ⟨excluded, free⟩ := computes.excluded
      exact ⟨excluded, by rwa [excluded.seen_of_free free]⟩
    · intro before move after excluded enabled taken
      refine ⟨microStep_excluded excluded enabled taken, ?_⟩
      rcases microStep_refines excluded enabled taken with ⟨_, same⟩ | ⟨_, enabled', sections⟩
      · exact .inl same
      · exact .inr ⟨move, enabled', sections⟩
  refine ⟨fun holds => ?_, fun holds => (excluded.cTimer holds).2, sections,
    excluded.seen_of_free⟩
  obtain ⟨_, _, idle, pTimer⟩ := excluded.task holds
  exact ⟨by simp [CTimerAt.Holds, idle], pTimer⟩

/-- Task 1 computes on CPU 0 with a reservation of 1 in 10 milliseconds. -/
def computing : Machine where
  kernel := after step .bare (reserveMillis 1 1 10 0)
  control := ⟨true, true, false, false, false, false, .user, .idle, .idle⟩

theorem computes_computing : Computes 1 computing :=
  ⟨by decide, by decide, by decide, by decide, true, false, false, rfl⟩

/-- The third tick exceeds the budget, but the period ends before the budget timer takes the
lock. -/
def stale : List Move :=
  [.preempted true, .picked] ++ List.replicate 9 .cTimer ++ List.replicate 7 (.pTimer fun _ => 0) ++
    List.replicate 4 .cTimer

/-- The task is put to sleep with an accumulator of zero, by the section of the budget timer. -/
theorem reaches_sections_stale :
    (((stale.foldl (after (microStep 1)) computing).kernel.reserve 1).suspend = true ∧
      ((stale.foldl (after (microStep 1)) computing).kernel.reserve 1).acc = ⟨0, 0⟩) ∧
    Reaches (sectionStep 1) (Enabled 1) (Computes 1)
      (stale.foldl (after (microStep 1)) computing) := by
  have reached := Reaches.run (.start computes_computing) stale
    (show Permitted (microStep 1) (Enabled 1) computing stale by decide)
  obtain ⟨_, _, sections, free⟩ := reaches_sections reached
  rw [free (by decide)] at sections
  exact ⟨by decide, sections⟩

end Rtes.Reservation
