import Rtes.Reservation.Sections
import Rtes.Transition.History

/-!
# Every interleaving of a task with its timers

With each critical section taken in one step, a step can do few things to the suspension
of the task, its state and its place on the run queue.  It follows that no wake-up is lost,
whatever else the task waits for, and that `end_job` returns after the end of a period only.
-/

namespace Rtes.Reservation

open Rtes.Transition

variable {t : Tid} {m m' : Machine} {c c' : Control}

/-! ## The suspension of a task -/

/-- What the handshake is about. -/
structure Suspension where
  pTimer : Bool
  suspend : Bool
  uninterruptible : Bool

def Kernel.suspension (s : Kernel) (t : Tid) : Suspension :=
  ⟨(s.reserve t).pTimer, (s.reserve t).suspend, s.uninterruptible t⟩

section Suspension

variable (s : Kernel)

@[simp]
theorem tickRun_suspension : (s.tickRun t).suspension t = s.suspension t := by
  simp [Kernel.suspension, Kernel.tickRun, Kernel.modify]

@[simp]
theorem onAcc_suspension (f : Timespec → Timespec) :
    (s.onAcc t f).suspension t = s.suspension t := by
  simp [Kernel.suspension, Kernel.onAcc, Kernel.modify]

@[simp]
theorem stopCTimer_suspension : (s.stopCTimer t).suspension t = s.suspension t := by
  simp [Kernel.suspension, Kernel.stopCTimer, Kernel.modify]

@[simp]
theorem setSuspend_suspension (value : Bool) :
    (s.setSuspend t value).suspension t = { s.suspension t with suspend := value } := by
  simp [Kernel.suspension, Kernel.setSuspend, Kernel.modify]

@[simp]
theorem setUninterruptible_suspension (value : Bool) :
    (s.setUninterruptible t value).suspension t =
      { s.suspension t with uninterruptible := value } := by
  simp [Kernel.suspension, Kernel.setUninterruptible]

@[simp]
theorem switchOut_suspension : (s.switchOut t).suspension t = s.suspension t := by
  unfold Kernel.switchOut Kernel.stopBudget Kernel.chargeRun
  split_ifs <;> simp [Kernel.suspension, Kernel.modify]

@[simp]
theorem switchIn_suspension : (s.switchIn t).suspension t = s.suspension t := by
  unfold Kernel.switchIn
  split_ifs <;> simp [Kernel.suspension, Kernel.modify]

@[simp]
theorem dropStaleEnergyFile_suspension :
    (s.dropStaleEnergyFile t).suspension t = s.suspension t := by
  unfold Kernel.dropStaleEnergyFile Kernel.removeEnergyFile
  split
  · cases attr : (s.reserve t).energyAttr with
    | none => simp [Kernel.suspension, Kernel.modify, Kernel.kfree]
    | some addr => simp [Kernel.suspension, Kernel.modify, Kernel.kfree]
  · rfl

private theorem measurePeriod_suspension {freq : Cpu → ℕ} {s measured : Kernel}
    (measures : s.measurePeriod freq t = .ok measured) :
    measured.suspension t = s.suspension t := by
  unfold Kernel.measurePeriod Kernel.recordPeriod at measures
  dsimp only at measures
  split_ifs at measures <;> cases measures <;> simp [Kernel.suspension, Kernel.modify]

end Suspension

/-! ## What a step can do -/

/-- A call of `schedule`. -/
inductive Schedules : TaskAt → TaskAt → Prop
  | preempted : Schedules .user .user
  | endJob : Schedules .scheduling .returning
  | sleeps (interruptible : Bool) : Schedules (.sleeps interruptible) (.wakes interruptible)

/-- The period timer goes on without waking the task. -/
inductive Advances : PTimerAt → PTimerAt → Prop
  | fires : Advances .idle .measured
  | clears : Advances .measured .cleared
  | resets : Advances .cleared .reset
  | records : Advances .reset .recorded
  | restarts : Advances .recorded .idle

/-- What a step does to the suspension of the task and to the control. -/
inductive Shift (u : Suspension) (c : Control) : Move → Suspension → Control → Prop
  | idle {alone : Bool} : c.task = .user → Shift u c (.task alone) u c
  | calls {alone : Bool} : c.onCpu = true → c.task = .user →
      Shift u c (.task alone) u { c with task := .called }
  | skips {alone : Bool} : c.onCpu = true → c.task = .called → u.suspend = true →
      Shift u c (.task alone) u { c with task := .scheduling }
  | endsJob {alone : Bool} : c.onCpu = true → c.task = .called → u.suspend = false →
      Shift u c (.task alone) { u with suspend := true, uninterruptible := true }
        { c with interruptible := false, task := .scheduling }
  | returns {alone : Bool} : c.onCpu = true → c.task = .returning →
      Shift u c (.task alone) u { c with task := .user }
  | comes {alone interruptible : Bool} : c.onCpu = true → c.task = .waits interruptible →
      Shift u c (.task alone) { u with uninterruptible := false }
        { c with interruptible := false, event := false, task := .user }
  | looks {alone interruptible : Bool} : c.onCpu = true → c.task = .waits interruptible →
      c.event = false → Shift u c (.task alone) u { c with task := .sleeps interruptible }
  | waits {move : Move} {interruptible : Bool} : c.onCpu = true →
      c.task = .user ∨ c.task = .wakes interruptible →
      Shift u c move { u with uninterruptible := !interruptible }
        { c with interruptible := interruptible, task := .waits interruptible }
  | leaves {move : Move} {position : TaskAt} : Schedules c.task position →
      (u.uninterruptible || c.interruptible) = true → c.cTimer = .idle →
      Shift u c move u { c with onRq := false, onCpu := false, task := position }
  | stays {move : Move} {position : TaskAt} {onCpu : Bool} : c.onCpu = true →
      Schedules c.task position →
      (u.uninterruptible || c.interruptible) = false → c.cTimer = .idle →
      Shift u c move u { c with onCpu := onCpu, task := position }
  | preempted {preemptActive : Bool} : c.cTimer = .idle →
      Shift u c (.preempted preemptActive) u { c with onCpu := false }
  | picked : c.onRq = true → Shift u c .picked u { c with onCpu := true }
  | ticks {position : CTimerAt} : c.onCpu = true ∨ c.cTimer ≠ .idle →
      Shift u c .cTimer u { c with cTimer := position }
  | outOfBudget : c.cTimer = .spent → u.suspend = false →
      Shift u c .cTimer { u with suspend := true, uninterruptible := true }
        { c with interruptible := false, cTimer := .idle }
  | advances {freq : Cpu → ℕ} {position : PTimerAt} : Advances c.pTimer position →
      Shift u c (.pTimer freq) u { c with pTimer := position }
  | resumes {freq : Cpu → ℕ} : c.pTimer = .recorded →
      (u.uninterruptible || c.interruptible) = true →
      Shift u c (.pTimer freq) { u with suspend := false, uninterruptible := false }
        { c with interruptible := false, onRq := true, pTimer := .idle }
  | resumesAwake {freq : Cpu → ℕ} : c.pTimer = .recorded →
      (u.uninterruptible || c.interruptible) = false →
      Shift u c (.pTimer freq) { u with suspend := false } { c with pTimer := .idle }
  | event : Shift u c .event u { c with event := true, waking := true }
  | woken {all : Bool} : (all && u.uninterruptible || c.interruptible) = true →
      Shift u c (.wake all) { u with uninterruptible := false }
        { c with interruptible := false, onRq := true, waking := false }
  | missed {all : Bool} : (all && u.uninterruptible || c.interruptible) = false →
      (c.task.InWait false → all = true) →
      Shift u c (.wake all) u { c with waking := false }

/-- The machine moves as a step can. -/
def Shifts (t : Tid) (m : Machine) (move : Move) (m' : Machine) : Prop :=
  Shift (m.kernel.suspension t) m.control move (m'.kernel.suspension t) m'.control

private theorem schedule_shifts {move : Move} {position : TaskAt} {alone : Bool}
    (onCpu : m.control.onCpu = true) (idle : m.control.cTimer = .idle)
    (schedules : Schedules m.control.task position) :
    Shifts t m move ((m.schedule t false alone).taskTo position) := by
  unfold Machine.schedule
  by_cases blocked : m.blocked t = true
  · simp only [blocked, Bool.not_false, Bool.and_self, if_true, Shifts, Machine.taskTo,
      switchOut_suspension]
    exact .leaves schedules blocked idle
  · have running : m.blocked t = false := by simpa using blocked
    simp only [running, Bool.false_and, Bool.false_eq_true, if_false]
    split
    · exact .stays onCpu schedules running idle
    · simp only [Shifts, Machine.taskTo, switchOut_suspension]
      exact .stays onCpu schedules running idle

private theorem taskSection_shifts {alone : Bool} (outside : ¬ m.control.task.Holds)
    (enabled : Enabled t m (.task alone)) : Shifts t m (.task alone) (m.taskSection t alone) := by
  obtain ⟨onCpu, idle, _⟩ := enabled
  cases task : m.control.task with
  | user =>
      simp only [Machine.taskSection, Machine.taskStep, task]
      split
      · exact .calls onCpu task
      · exact .idle task
  | called =>
      simp only [Machine.taskSection, Machine.suspendTask, task]
      split
      · rename_i suspend
        exact .skips onCpu task suspend
      · rename_i awake
        have suspend : (m.kernel.suspension t).suspend = false := by
          simpa [Kernel.suspension] using awake
        simp only [Shifts, Machine.taskTo, Machine.onKernel, Machine.setState,
          setSuspend_suspension, setUninterruptible_suspension]
        exact .endsJob onCpu task suspend
  | locked => exact absurd (.inl task) outside
  | marked => exact absurd (.inr (.inl task)) outside
  | leaving => exact absurd (.inr (.inr task)) outside
  | scheduling =>
      simp only [Machine.taskSection, Machine.taskStep, task]
      exact schedule_shifts onCpu idle (by rw [task]; exact .endJob)
  | returning =>
      simp only [Machine.taskSection, Machine.taskStep, task]
      exact .returns onCpu task
  | waits interruptible =>
      simp only [Machine.taskSection, Machine.taskStep, task]
      split
      · simp only [Shifts, Machine.taskTo, Machine.takeEvent, Machine.setState,
          setUninterruptible_suspension]
        exact .comes onCpu task
      · rename_i none
        exact .looks onCpu task (by simpa using none)
  | sleeps interruptible =>
      simp only [Machine.taskSection, Machine.taskStep, task]
      exact schedule_shifts onCpu idle (by rw [task]; exact .sleeps interruptible)
  | wakes interruptible =>
      simp only [Machine.taskSection, Machine.taskStep, task]
      simp only [Shifts, Machine.taskTo, Machine.setState, setUninterruptible_suspension]
      exact .waits onCpu (.inr task)

private theorem cTimerSection_shifts (outside : ¬ m.control.cTimer.Holds)
    (enabled : Enabled t m .cTimer) :
    Shifts t m .cTimer (m.cTimerSection t) := by
  have ticks {position : CTimerAt} : Shift (m.kernel.suspension t) m.control .cTimer
      (m.kernel.suspension t) { m.control with cTimer := position } := by
    apply Shift.ticks
    rcases eq_or_ne m.control.cTimer .idle with idle | running
    · exact .inl (enabled.1 idle).2.1
    · exact .inr running
  cases cTimer : m.control.cTimer with
  | idle =>
      simp only [Machine.cTimerSection, Machine.cTimerStep, cTimer]
      simpa [Shifts, Machine.cTimerTo, Machine.onKernel] using ticks
  | added =>
      simp only [Machine.cTimerSection, Machine.cTimerStep, cTimer]
      split
      · simpa [Shifts, Machine.cTimerTo, Machine.onKernel] using ticks
      · exact ticks
  | carried =>
      simp only [Machine.cTimerSection, Machine.cTimerStep, cTimer]
      simpa [Shifts, Machine.cTimerTo, Machine.onKernel] using ticks
  | ticked =>
      simp only [Machine.cTimerSection, Machine.cTimerStep, cTimer]
      split
      · exact ticks
      · exact ticks
  | spent =>
      simp only [Machine.cTimerSection, Machine.suspendTask, cTimer]
      split
      · simpa [Shifts, Machine.cTimerTo, Machine.onKernel] using ticks
      · rename_i awake
        have suspend : (m.kernel.suspension t).suspend = false := by
          simpa [Kernel.suspension] using awake
        simp only [Shifts, Machine.cTimerTo, Machine.onKernel, Machine.setState,
          stopCTimer_suspension, setSuspend_suspension, setUninterruptible_suspension]
        exact .outOfBudget cTimer suspend
  | locked => exact absurd (.inl cTimer) outside
  | marked => exact absurd (.inr (.inl cTimer)) outside
  | leaving => exact absurd (.inr (.inr cTimer)) outside

private theorem resumeTask_shifts {freq : Cpu → ℕ} (recorded : m.control.pTimer = .recorded) :
    Shifts t m (.pTimer freq) ((m.resumeTask t).pTimerTo .idle) := by
  unfold Machine.resumeTask Machine.wakeUp
  split
  · by_cases blocked : (true && m.kernel.uninterruptible t || m.control.interruptible) = true
    · rw [if_pos blocked]
      simp only [Shifts, Machine.pTimerTo, Machine.onKernel, setSuspend_suspension,
        setUninterruptible_suspension]
      exact .resumes recorded blocked
    · rw [if_neg blocked]
      simp only [Shifts, Machine.pTimerTo, Machine.onKernel, setSuspend_suspension]
      exact .resumesAwake recorded (Bool.eq_false_iff.mpr blocked)
  · refine .advances ?_
    rw [recorded]
    exact .restarts

private theorem pTimerSection_shifts {freq : Cpu → ℕ} (outside : ¬ m.control.pTimer.Holds)
    (taken : m.pTimerSection freq t = .ok m') : Shifts t m (.pTimer freq) m' := by
  have advances {position : PTimerAt} (next : Advances m.control.pTimer position) :
      Shift (m.kernel.suspension t) m.control (.pTimer freq) (m.kernel.suspension t)
        { m.control with pTimer := position } := .advances next
  cases pTimer : m.control.pTimer with
  | idle =>
      simp only [Machine.pTimerSection, Machine.pTimerStep, pTimer] at taken
      obtain ⟨measured, measures, result⟩ := bind_eq_ok_iff.mp taken
      cases result
      simpa [Shifts, Machine.pTimerTo, Machine.onKernel, measurePeriod_suspension measures] using
        advances (pTimer ▸ .fires)
  | measured =>
      simp only [Machine.pTimerSection, Machine.pTimerStep, pTimer] at taken
      cases taken
      simpa [Shifts, Machine.pTimerTo, Machine.onKernel] using advances (pTimer ▸ .clears)
  | cleared =>
      simp only [Machine.pTimerSection, Machine.pTimerStep, pTimer] at taken
      cases taken
      simpa [Shifts, Machine.pTimerTo, Machine.onKernel] using advances (pTimer ▸ .resets)
  | reset =>
      simp only [Machine.pTimerSection, Machine.pTimerStep, pTimer] at taken
      cases taken
      simpa [Shifts, Machine.pTimerTo, Machine.onKernel] using advances (pTimer ▸ .records)
  | recorded =>
      simp only [Machine.pTimerSection, pTimer] at taken
      cases taken
      exact resumeTask_shifts pTimer
  | locked => exact absurd (.inl pTimer) outside
  | woke => exact absurd (.inr (.inl pTimer)) outside
  | leaving => exact absurd (.inr (.inr pTimer)) outside

private theorem preempted_shifts {preemptActive : Bool}
    (enabled : Enabled t m (.preempted preemptActive)) :
    Shifts t m (.preempted preemptActive) (m.schedule t preemptActive false) := by
  obtain ⟨onCpu, idle, _, user⟩ := enabled
  unfold Machine.schedule
  split
  · rename_i leaves
    obtain ⟨blocked, inUser⟩ := Bool.and_eq_true_iff.mp leaves
    have task := user (by simpa using inUser)
    simp only [Shifts, switchOut_suspension]
    have leaves : Shift (m.kernel.suspension t) m.control (.preempted preemptActive)
        (m.kernel.suspension t) { m.control with onRq := false, onCpu := false, task := .user } :=
      .leaves (task ▸ .preempted) blocked idle
    rwa [← task] at leaves
  · simp only [Shifts, switchOut_suspension, Bool.false_eq_true, if_false]
    exact .preempted idle

private theorem wake_shifts {all : Bool} (enabled : Enabled t m (.wake all)) :
    Shifts t m (.wake all)
      (Machine.wakeUp t all { m with control := { m.control with waking := false } }) := by
  unfold Machine.wakeUp
  split
  · rename_i wakes
    simp only [Shifts, setUninterruptible_suspension]
    exact .woken wakes
  · rename_i misses
    exact .missed (Bool.eq_false_iff.mpr misses) enabled.2

/-- None of the parties is in its section. -/
structure Outside (c : Control) : Prop where
  task : ¬ c.task.Holds
  cTimer : ¬ c.cTimer.Holds
  pTimer : ¬ c.pTimer.Holds

private theorem outside_seen (c : Control) : Outside c.seen := by
  refine ⟨?_, ?_, ?_⟩
  · cases task : c.task <;> simp [Control.seen, task, TaskAt.seen, TaskAt.Holds]
  · cases cTimer : c.cTimer <;> simp [Control.seen, cTimer, CTimerAt.seen, CTimerAt.Holds]
  · cases pTimer : c.pTimer <;> simp [Control.seen, pTimer, PTimerAt.seen, PTimerAt.Holds]

private theorem sectionStep_shifts {move : Move} (outside : Outside m.control)
    (enabled : Enabled t m move)
    (taken : sectionStep t m move = .ok m') : Shifts t m move m' := by
  cases move with
  | task alone =>
      cases taken
      exact taskSection_shifts outside.task enabled
  | waits interruptible =>
      obtain ⟨onCpu, _, user⟩ := enabled
      cases taken
      simp only [Shifts, Machine.taskTo, Machine.setState, setUninterruptible_suspension]
      exact .waits onCpu (.inl user)
  | preempted preemptActive =>
      cases taken
      exact preempted_shifts enabled
  | picked =>
      cases taken
      simp only [Shifts, switchIn_suspension]
      exact .picked enabled.1
  | cTimer =>
      cases taken
      exact cTimerSection_shifts outside.cTimer enabled
  | pTimer freq => exact pTimerSection_shifts outside.pTimer taken
  | event =>
      cases taken
      exact .event
  | wake all =>
      cases taken
      exact wake_shifts enabled

/-! ## No wake-up is lost -/

/-- A task whose state is not running is suspended or waits for something else, and one that
is off the run queue will be woken. -/
structure Attended (u : Suspension) (c : Control) : Prop where
  armed : u.pTimer = true
  current : c.onCpu = true → c.onRq = true
  interrupts : c.cTimer ≠ .idle → c.onCpu = true
  interruptible : c.interruptible = true → c.task.InWait true
  uninterruptible : u.uninterruptible = true → u.suspend = true ∨ c.task.InWait false
  asleep : ∀ interruptible, c.task = .sleeps interruptible →
    (u.uninterruptible || c.interruptible) = true →
    u.suspend = true ∨ c.event = false ∨ c.waking = true
  dequeued : c.onRq = false → (u.uninterruptible || c.interruptible) = true ∧
    (u.suspend = true ∨ (∃ interruptible, c.task = .wakes interruptible) ∧
      (c.event = false ∨ c.waking = true))

namespace Attended

variable {u u' : Suspension}

/-- A running task on the run queue. -/
theorem of_running (armed : u.pTimer = true) (onRq : c.onRq = true)
    (interrupts : c.cTimer ≠ .idle → c.onCpu = true) (uninterruptible : u.uninterruptible = false)
    (interruptible : c.interruptible = false) : Attended u c :=
  ⟨armed, fun _ => onRq, interrupts, by simp [interruptible], by simp [uninterruptible],
    by simp [uninterruptible, interruptible], by simp [onRq]⟩

/-- A suspended task that is still on the run queue. -/
theorem of_suspended (armed : u.pTimer = true) (onRq : c.onRq = true)
    (interrupts : c.cTimer ≠ .idle → c.onCpu = true) (suspend : u.suspend = true)
    (interruptible : c.interruptible = false) : Attended u c :=
  ⟨armed, fun _ => onRq, interrupts, by simp [interruptible], fun _ => .inl suspend,
    fun _ _ _ => .inl suspend, by simp [onRq]⟩

variable (attended : Attended u c)
include attended

/-- A task that is not running and does not wait for anything else is suspended. -/
theorem suspend_of_blocked (elsewhere : ∀ interruptible, ¬ c.task.InWait interruptible)
    (blocked : (u.uninterruptible || c.interruptible) = true) : u.suspend = true := by
  rcases Bool.or_eq_true_iff.mp blocked with state | state
  · exact (attended.uninterruptible state).resolve_right (elsewhere false)
  · exact absurd (attended.interruptible state) (elsewhere true)

/-- The current task goes on outside of other waits. -/
theorem taskMoves {position : TaskAt} (onCpu : c.onCpu = true)
    (elsewhere : ∀ interruptible, ¬ c.task.InWait interruptible)
    (remains : ∀ interruptible, ¬ position.InWait interruptible) :
    Attended u { c with task := position } where
  armed := attended.armed
  current := attended.current
  interrupts := attended.interrupts
  interruptible state := absurd (attended.interruptible state) (elsewhere true)
  uninterruptible state :=
    .inl ((attended.uninterruptible state).resolve_right (elsewhere false))
  asleep interruptible sleeps := absurd (.inr (.inl sleeps)) (remains interruptible)
  dequeued off := Bool.noConfusion (off.symm.trans (attended.current onCpu))

/-- The task leaves the run queue. -/
theorem leaves {position : TaskAt} (schedules : Schedules c.task position)
    (blocked : (u.uninterruptible || c.interruptible) = true) (idle : c.cTimer = .idle) :
    Attended u { c with onRq := false, onCpu := false, task := position } := by
  have kept : ∀ interruptible, c.task.InWait interruptible → position.InWait interruptible := by
    intro interruptible waits
    generalize c.task = task at schedules waits
    cases schedules <;> simp_all [TaskAt.InWait]
  refine ⟨attended.armed, Bool.noConfusion, fun running => absurd idle running,
    fun state => kept true (attended.interruptible state),
    fun state => (attended.uninterruptible state).imp_right (kept false), ?_,
    fun _ => ⟨blocked, ?_⟩⟩
  · rintro interruptible rfl
    generalize c.task = task at schedules
    cases schedules
  · generalize at' : c.task = task at schedules
    cases schedules with
    | preempted | endJob =>
        exact .inl (attended.suspend_of_blocked (by simp [at', TaskAt.InWait]) blocked)
    | sleeps interruptible =>
        exact (attended.asleep interruptible at' blocked).imp_right fun comes => ⟨⟨_, rfl⟩, comes⟩

/-- A wake-up that finds the task running, or in a wait for something else, is not the one it
needs. -/
theorem missed {all : Bool}
    (misses : (all && u.uninterruptible || c.interruptible) = false)
    (fits : c.task.InWait false → all = true) : Attended u { c with waking := false } := by
  obtain ⟨unmasked, interruptible⟩ := Bool.or_eq_false_iff.mp misses
  have suspended (blocked : (u.uninterruptible || c.interruptible) = true) : u.suspend = true := by
    have state : u.uninterruptible = true := by simpa [interruptible] using blocked
    refine (attended.uninterruptible state).resolve_right fun waits => ?_
    simp [fits waits, state] at unmasked
  exact { attended with
    asleep := fun _ _ blocked => .inl (suspended blocked)
    dequeued := fun off =>
      ⟨(attended.dequeued off).1, .inl (suspended (attended.dequeued off).1)⟩ }

end Attended

theorem Shift.attended {u u' : Suspension} {move : Move} (shift : Shift u c move u' c')
    (attended : Attended u c) : Attended u' c' := by
  have armed := attended.armed
  have interrupts := attended.interrupts
  cases shift with
  | idle user => exact attended
  | calls onCpu position | skips onCpu position _ | returns onCpu position =>
      exact attended.taskMoves onCpu (by simp [TaskAt.InWait, position]) (by simp [TaskAt.InWait])
  | endsJob onCpu called awake =>
      exact .of_suspended armed (attended.current onCpu) interrupts rfl rfl
  | comes onCpu waits => exact .of_running armed (attended.current onCpu) interrupts rfl rfl
  | looks onCpu waits none =>
      exact { attended with
        interruptible := fun state => by
          simpa [TaskAt.InWait, waits] using attended.interruptible state
        uninterruptible := fun state => by
          simpa [TaskAt.InWait, waits] using attended.uninterruptible state
        asleep := fun _ _ _ => .inr (.inl none)
        dequeued := fun off => Bool.noConfusion (off.symm.trans (attended.current onCpu)) }
  | waits onCpu begins =>
      exact { attended with
        interruptible := by simp [TaskAt.InWait]
        uninterruptible := fun state => .inr (by simpa [TaskAt.InWait] using state)
        asleep := by simp
        dequeued := fun off => Bool.noConfusion (off.symm.trans (attended.current onCpu)) }
  | leaves schedules blocked idle => exact attended.leaves schedules blocked idle
  | stays onCpu schedules running idle =>
      obtain ⟨uninterruptible, interruptible⟩ := Bool.or_eq_false_iff.mp running
      exact .of_running armed (attended.current onCpu) (fun busy => absurd idle busy)
        uninterruptible interruptible
  | preempted idle =>
      exact { attended with
        current := Bool.noConfusion
        interrupts := fun busy => absurd idle busy }
  | picked onRq =>
      exact { attended with
        current := fun _ => onRq
        interrupts := fun _ => rfl }
  | ticks running => exact { attended with interrupts := fun _ => running.elim id interrupts }
  | outOfBudget spent awake =>
      have onCpu := interrupts (by simp [spent])
      exact .of_suspended armed (attended.current onCpu) (fun _ => onCpu) rfl rfl
  | advances next => exact { attended with }
  | resumes recorded blocked => exact .of_running armed rfl interrupts rfl rfl
  | resumesAwake recorded running =>
      obtain ⟨uninterruptible, interruptible⟩ := Bool.or_eq_false_iff.mp running
      have onRq : c.onRq = true := by
        by_contra off
        have blocked := (attended.dequeued (Bool.eq_false_iff.mpr off)).1
        exact Bool.noConfusion (running.symm.trans blocked)
      exact .of_running armed onRq interrupts uninterruptible interruptible
  | event =>
      exact { attended with
        asleep := fun _ _ _ => .inr (.inr rfl)
        dequeued := fun off => (attended.dequeued off).imp_right fun woken =>
          woken.imp_right fun waits => ⟨waits.1, .inr rfl⟩ }
  | woken wakes => exact .of_running armed rfl interrupts rfl rfl
  | missed misses fits => exact attended.missed misses fits

/-- The machine as seen is attended, and its sections exclude each other. -/
structure Synchronized (t : Tid) (m : Machine) : Prop where
  excluded : Excluded m.control
  attended : Attended ((m.seen t).kernel.suspension t) (m.seen t).control

theorem Computes.synchronized (computes : Computes t m) : Synchronized t m := by
  obtain ⟨excluded, free⟩ := computes.excluded
  refine ⟨excluded, ?_⟩
  rw [excluded.seen_of_free free]
  obtain ⟨_, _, _, control⟩ := computes.control
  rw [control]
  exact .of_running computes.pTimer rfl (absurd rfl) computes.uninterruptible rfl

theorem Synchronized.step {move : Move} (synchronized : Synchronized t m)
    (enabled : Enabled t m move) (taken : microStep t m move = .ok m') : Synchronized t m' := by
  obtain ⟨excluded, attended⟩ := synchronized
  refine ⟨microStep_excluded excluded enabled taken, ?_⟩
  rcases microStep_refines excluded enabled taken with ⟨_, same⟩ | ⟨_, enabled', sections⟩
  · rwa [same]
  · exact (sectionStep_shifts (outside_seen _) enabled' sections).attended attended

/-- The task ends its job and sleeps. -/
def sleeping : List Move :=
  [.task true, .task true, .task true, .task true, .task true, .task true]

/-- How many periods have ended, how many had when `end_job` tested the suspension last, whether
a period end was then about to take the lock, and whether `end_job` put the task to sleep. -/
structure JobLog where
  count : ℕ
  atJobEnd : ℕ
  inFlight : Bool
  slept : Bool

namespace JobLog

/-- `p_timer_callback` has reset the accumulator. -/
def periodEnded (log : JobLog) : JobLog :=
  { log with count := log.count + 1 }

/-- `end_job` has tested the suspension. -/
def jobEnded (log : JobLog) (suspend : Bool) (pTimer : PTimerAt) : JobLog :=
  { log with
    atJobEnd := log.count
    inFlight := decide (pTimer = .reset ∨ pTimer = .recorded)
    slept := !suspend }

/-- The test is made at `test`, under the lock. -/
def note (test : TaskAt) (t : Tid) (m : Machine) (move : Move) (log : JobLog) : JobLog :=
  match move with
  | .task _ =>
      if m.control.task = test then log.jobEnded (m.kernel.reserve t).suspend m.control.pTimer
      else log
  | .pTimer _ => if m.control.pTimer = .cleared then log.periodEnded else log
  | _ => log

theorem note_test {test : TaskAt} {alone : Bool} (log : JobLog) (tests : m.control.task = test) :
    log.note test t m (.task alone) =
      log.jobEnded (m.kernel.reserve t).suspend m.control.pTimer :=
  if_pos tests

theorem note_pTimer {test : TaskAt} {freq : Cpu → ℕ} (log : JobLog)
    (other : m.control.pTimer ≠ .cleared) : log.note test t m (.pTimer freq) = log :=
  if_neg other

/-- A period has ended since the test, or its end was on its way then. -/
def Ended (log : JobLog) : Prop :=
  log.atJobEnd < log.count ∨ log.inFlight = true

end JobLog

/-- The periods and jobs that end are noted beside the machine. -/
def jobStep (t : Tid) : Machine × JobLog → Move → Except Fault (Machine × JobLog) :=
  observe (microStep t) fun m move _ => JobLog.note .locked t m move

/-- The task is in `end_job`. -/
def TaskAt.EndsJob (position : TaskAt) : Prop :=
  position ≠ .user ∧ ∀ interruptible, ¬ position.InWait interruptible

/-- Nobody else wakes a task from `TASK_UNINTERRUPTIBLE` while it is in `end_job`. -/
def Respects (c : Control) (move : Move) : Prop :=
  match move with
  | .wake all => c.task.EndsJob → all = false
  | _ => True

instance : DecidablePred TaskAt.EndsJob :=
  fun position => inferInstanceAs (Decidable (position ≠ _ ∧ ∀ _, ¬ _))

instance {c : Control} {move : Move} : Decidable (Respects c move) :=
  match move with
  | .wake _ => inferInstanceAs (Decidable (_ → _))
  | .task _ | .waits _ | .preempted _ | .picked | .cTimer | .pTimer _ | .event => .isTrue trivial

/-- As long as no period has ended since, a task that `end_job` put to sleep is suspended, and
off the run queue once it has called `schedule`. -/
structure JobWaits (u : Suspension) (c : Control) (log : JobLog) : Prop where
  ordered : log.atJobEnd ≤ log.count
  inFlight : c.pTimer = .reset ∨ c.pTimer = .recorded → log.Ended
  asleep : log.slept = true → c.task = .scheduling ∨ c.task = .returning →
    u.suspend = true ∧ u.uninterruptible = true ∧ (c.task = .returning → c.onRq = false) ∨ log.Ended

namespace JobWaits

variable {u u' : Suspension} {log : JobLog}

theorem of_ended (ordered : log.atJobEnd ≤ log.count) (ended : log.Ended) : JobWaits u c log :=
  ⟨ordered, fun _ => ended, fun _ _ => .inr ended⟩

variable (waits : JobWaits u c log)
include waits

theorem periodEnded : JobWaits u' c' log.periodEnded := by
  have ordered := waits.ordered
  refine of_ended (Nat.le_succ_of_le ordered) (.inl ?_)
  exact Nat.lt_succ_of_le ordered

/-- The task is not about to return from `end_job`. -/
theorem elsewhere (pTimer : c'.pTimer = c.pTimer) (scheduling : c'.task ≠ .scheduling)
    (returning : c'.task ≠ .returning) : JobWaits u' c' log where
  ordered := waits.ordered
  inFlight := by
    rw [pTimer]
    exact waits.inFlight
  asleep _ at' := absurd at' (not_or.mpr ⟨scheduling, returning⟩)

/-- The task stays where it is, and asleep if it is. -/
theorem unchanged (pTimer : c'.pTimer = c.pTimer) (task : c'.task = c.task)
    (onRq : c.onRq = false → c'.onRq = false) (suspend : u.suspend = true → u'.suspend = true)
    (uninterruptible : u.uninterruptible = true → u'.uninterruptible = true) :
    JobWaits u' c' log where
  ordered := waits.ordered
  inFlight := by
    rw [pTimer]
    exact waits.inFlight
  asleep slept at' := by
    rw [task] at at' ⊢
    refine (waits.asleep slept at').imp_left ?_
    rintro ⟨suspended, state, off⟩
    exact ⟨suspend suspended, uninterruptible state, fun returning => onRq (off returning)⟩

/-- Away from the test, at most the end of a period is noted. -/
theorem note {move : Move} (other : m.control.task ≠ .called) (kept : JobWaits u' c' log) :
    JobWaits u' c' (log.note .called t m move) := by
  unfold JobLog.note
  cases move with
  | task alone =>
      dsimp only
      rwa [if_neg other]
  | pTimer freq =>
      dsimp only
      split
      · exact waits.periodEnded
      · exact kept
  | _ => exact kept

end JobWaits

private theorem Shift.jobWaits {u : Suspension} {move : Move} {log : JobLog}
    (shift : Shift (m.kernel.suspension t) m.control move u c')
    (attended : Attended (m.kernel.suspension t) m.control) (respects : Respects m.control move)
    (waits : JobWaits (m.kernel.suspension t) m.control log) :
    JobWaits u c' (log.note .called t m move) := by
  cases shift with
  | idle user => exact waits.note (by simp [user]) waits
  | calls _ position | returns _ position | comes _ position | looks _ position _ =>
      exact waits.note (by simp [position]) (waits.elsewhere rfl (by simp) (by simp))
  | skips onCpu called suspend =>
      change (m.kernel.reserve t).suspend = true at suspend
      rw [log.note_test called, suspend]
      exact ⟨le_rfl, fun at' => .inr (decide_eq_true at'), by simp [JobLog.jobEnded]⟩
  | endsJob onCpu called awake =>
      rw [log.note_test called]
      exact ⟨le_rfl, fun at' => .inr (decide_eq_true at'), fun _ _ => .inl ⟨rfl, rfl, by simp⟩⟩
  | waits onCpu begins =>
      have other : m.control.task ≠ .called := by
        rcases begins with user | wakes
        · simp [user]
        · simp [wakes]
      exact waits.note other (waits.elsewhere rfl (by simp) (by simp))
  | leaves schedules blocked idle =>
      generalize at' : m.control.task = task at schedules
      cases schedules with
      | preempted | sleeps _ =>
          exact waits.note (by simp [at']) (waits.elsewhere rfl (by simp) (by simp))
      | endJob =>
          refine waits.note (by simp [at']) ⟨waits.ordered, waits.inFlight, fun slept _ => ?_⟩
          refine (waits.asleep slept (.inl at')).imp_left ?_
          rintro ⟨suspend, state, _⟩
          exact ⟨suspend, state, fun _ => rfl⟩
  | stays onCpu schedules running idle =>
      generalize at' : m.control.task = task at schedules
      cases schedules with
      | preempted | sleeps _ =>
          exact waits.note (by simp [at']) (waits.elsewhere rfl (by simp) (by simp))
      | endJob =>
          -- a task that is still on the run queue has been woken
          refine waits.note (by simp [at']) ⟨waits.ordered, waits.inFlight, fun slept _ => .inr ?_⟩
          refine (waits.asleep slept (.inl at')).resolve_left ?_
          rintro ⟨_, state, _⟩
          simp [state] at running
  | preempted _ | picked _ | ticks _ | event | missed _ _ =>
      exact waits.unchanged rfl rfl id id id
  | outOfBudget spent awake => exact waits.unchanged rfl rfl id (fun _ => rfl) fun _ => rfl
  | advances next =>
      generalize at' : m.control.pTimer = position at next
      cases next with
      | fires | clears | restarts =>
          rw [log.note_pTimer (by simp [at'])]
          exact ⟨waits.ordered, by simp, waits.asleep⟩
      | resets =>
          simp only [JobLog.note, at', if_true]
          exact waits.periodEnded
      | records =>
          rw [log.note_pTimer (by simp [at'])]
          exact ⟨waits.ordered, fun _ => waits.inFlight (.inl at'), waits.asleep⟩
  | resumes recorded _ | resumesAwake recorded _ =>
      rw [log.note_pTimer (by simp [recorded])]
      exact .of_ended waits.ordered (waits.inFlight (.inr recorded))
  | woken wakes =>
      have elsewhere : ¬ m.control.task.EndsJob := by
        intro ends
        have interruptible : m.control.interruptible = true := by
          simpa [show _ = false from respects ends] using wakes
        exact ends.2 true (attended.interruptible interruptible)
      refine waits.elsewhere rfl ?_ ?_
      · intro (scheduling : m.control.task = .scheduling)
        exact elsewhere (by simp [TaskAt.EndsJob, TaskAt.InWait, scheduling])
      · intro (returning : m.control.task = .returning)
        exact elsewhere (by simp [TaskAt.EndsJob, TaskAt.InWait, returning])

/-- A statement that is not silent is noted as the step that is seen of it. -/
theorem note_seen {move : Move} {log : JobLog} (excluded : Excluded m.control)
    (seen : ¬ move.Silent m.control) :
    log.note .locked t m move = log.note .called t (m.seen t) move := by
  cases move with
  | task alone =>
      by_cases locked : m.control.task = .locked
      · obtain ⟨_, _, idle, outside⟩ := excluded.task (.inl locked)
        have suspend : ((m.seen t).kernel.reserve t).suspend = (m.kernel.reserve t).suspend := by
          simp [Machine.seen, Control.suspends, locked, TaskAt.suspends, idle, CTimerAt.suspends,
            PTimerAt.suspends_of_outside outside]
        rw [log.note_test locked, log.note_test (by simp [locked, TaskAt.seen]), suspend,
          Machine.seen_pTimer, PTimerAt.seen_of_outside outside]
      · have other : (m.seen t).control.task ≠ .called := by
          cases task : m.control.task <;> simp_all [Move.Silent, TaskAt.seen]
        exact (if_neg locked).trans (if_neg other).symm
  | pTimer freq =>
      have same : (m.seen t).control.pTimer = .cleared ↔ m.control.pTimer = .cleared := by
        cases pTimer : m.control.pTimer <;> simp [PTimerAt.seen, pTimer]
      simp only [JobLog.note, same]
  | _ => rfl

private theorem note_silent {move : Move} {log : JobLog} (silent : move.Silent m.control) :
    log.note .locked t m move = log := by
  cases move with
  | task alone =>
      refine if_neg fun locked => ?_
      simp [Move.Silent, locked] at silent
  | pTimer freq =>
      refine if_neg fun cleared => ?_
      simp [Move.Silent, cleared] at silent
  | _ => rfl

private theorem respects_seen {move : Move} (respects : Respects m.control move) :
    Respects (m.seen t).control move := by
  cases move with
  | wake all =>
      intro ends
      refine respects ⟨?_, fun interruptible waits => ?_⟩
      · intro user
        exact ends.1 (by simp [user, TaskAt.seen])
      · exact ends.2 interruptible (TaskAt.seen_inWait.mpr waits)
  | _ => trivial

/-- In every interleaving in which nobody else wakes the task from its sleep, when a call of
`end_job` that put the task to sleep is about to return, a period of the task has ended since the
call tested the suspension, or the end of a period was then between its reset of the accumulator
and the lock. -/
theorem reaches_endJob_waits {now : Machine × JobLog}
    (reached : Reaches (jobStep t)
      (fun now move => Enabled t now.1 move ∧ Respects now.1.control move)
      (fun now => Computes t now.1 ∧ now.2 = ⟨0, 0, false, false⟩) now)
    (returning : now.1.control.task = .returning) (onCpu : now.1.control.onCpu = true)
    (slept : now.2.slept = true) : now.2.atJobEnd < now.2.count ∨ now.2.inFlight = true := by
  obtain ⟨synchronized, waits⟩ : Synchronized t now.1 ∧
      JobWaits ((now.1.seen t).kernel.suspension t) (now.1.seen t).control now.2 := by
    apply reached.observed
    · rintro ⟨m, log⟩ ⟨computes, none⟩
      cases none
      obtain ⟨_, _, _, control⟩ := computes.control
      have idle : m.control.pTimer = .idle := congrArg Control.pTimer control
      exact ⟨computes.synchronized, le_rfl, by simp [idle, PTimerAt.seen], by simp⟩
    · rintro ⟨m, log⟩ move m' ⟨synchronized, waits⟩ ⟨enabled, respects⟩ taken
      refine ⟨synchronized.step enabled taken, ?_⟩
      obtain ⟨excluded, attended⟩ := synchronized
      rcases microStep_refines excluded enabled taken with
        ⟨silent, same⟩ | ⟨seen, enabled', sections⟩
      · dsimp only
        rwa [note_silent silent, same]
      · dsimp only
        rw [note_seen excluded seen]
        exact (sectionStep_shifts (outside_seen _) enabled' sections).jobWaits attended
          (respects_seen respects) waits
  have onRq := synchronized.attended.current onCpu
  refine (waits.asleep slept (.inr ?_)).resolve_left ?_
  · simp [returning, TaskAt.seen]
  · rintro ⟨_, _, off⟩
    exact Bool.noConfusion ((off (by simp [returning, TaskAt.seen])).symm.trans onRq)

/-- The task sleeps until its period ends. -/
def untilPeriodEnd : List Move :=
  sleeping ++ List.replicate 8 (.pTimer fun _ => 0) ++ [.picked]

/-- The task ends its job between the reset of its accumulator and the lock. -/
def overtaken : List Move :=
  List.replicate 4 (.pTimer fun _ => 0) ++ sleeping ++ List.replicate 4 (.pTimer fun _ => 0) ++
    [.picked]

theorem reaches_endJob_waits_overtaken :
    (untilPeriodEnd.foldl (after (jobStep 1)) (computing, ⟨0, 0, false, false⟩)).2.atJobEnd <
      (untilPeriodEnd.foldl (after (jobStep 1)) (computing, ⟨0, 0, false, false⟩)).2.count ∧
    ((overtaken.foldl (after (jobStep 1)) (computing, ⟨0, 0, false, false⟩)).2.inFlight = true ∧
      (overtaken.foldl (after (jobStep 1)) (computing, ⟨0, 0, false, false⟩)).2.atJobEnd =
        (overtaken.foldl (after (jobStep 1)) (computing, ⟨0, 0, false, false⟩)).2.count) := by
  have start : Reaches (jobStep 1)
      (fun now move => Enabled 1 now.1 move ∧ Respects now.1.control move)
      (fun now => Computes 1 now.1 ∧ now.2 = ⟨0, 0, false, false⟩)
      (computing, ⟨0, 0, false, false⟩) := .start ⟨computes_computing, rfl⟩
  have first := reaches_endJob_waits (start.run untilPeriodEnd (by decide)) (by decide) (by decide)
    (by decide)
  have second := reaches_endJob_waits (start.run overtaken (by decide)) (by decide) (by decide)
    (by decide)
  exact ⟨first.resolve_right (by decide), second.resolve_left (by decide), by decide⟩

end Rtes.Reservation
