import Rtes.Reservation.Lifecycle
import Rtes.Sysclock.Core

/-!
# Tasks that have exited

The flag of a task outlives its exit: a reserved task that exits is taken out of
the table but still counts as reserved until it is reaped.  If tasks give up
their reservations before they exit, and none is given to a task that has
exited, an exited task holds no reservation in any sense.
-/

namespace Rtes.Reservation

open Rtes.Sysclock Rtes.Transition

variable {s s' : Kernel} {t : Tid} {op : Op}

/-! ## Exited tasks are not reserved -/

/-- Exited tasks are not reserved. -/
def ExitedUnreserved (s : Kernel) : Prop :=
  ∀ t, s.exited t = true → (s.reserve t).flag = false

/-- A task exits only after it gave up its reservation, and no exited task is
given one. -/
def Retires (s : Kernel) : Op → Prop
  | .setReserve _ tid _ _ _ => s.exited tid = false ∨ s.found tid = false
  | .doExit _ t => (s.reserve t).flag = false
  | _ => True

/-- Steps do not change which tids are found, and only an exit makes a task
exited. -/
theorem step_tasks (taken : step s op = .ok s') : s'.found = s.found ∧
    ∀ t, s'.exited t = true → s.exited t = true ∨ ∃ srv, op = .doExit srv t := by
  cases op with
  | setReserve srv tid budget period cpuid =>
      obtain ⟨⟨retval, target⟩, returns, result⟩ := bind_eq_ok_iff.mp taken
      cases result
      obtain ⟨own, _, changes⟩ := setReserve_changes returns
      exact ⟨changes.found_eq, fun t exited => .inl (changes.exited_eq ▸ exited)⟩
  | cancelReserve srv tid =>
      obtain ⟨⟨retval, target⟩, returns, result⟩ := bind_eq_ok_iff.mp taken
      cases result
      obtain ⟨own, _, changes⟩ := cancelReserve_changes returns
      exact ⟨changes.found_eq, fun t exited => .inl (changes.exited_eq ▸ exited)⟩
  | doExit srv tid =>
      obtain ⟨own, released, _, changes, rfl⟩ := doExit_changes taken
      refine ⟨changes.found_eq, ?_⟩
      intro t exited
      rcases eq_or_ne t tid with rfl | different
      · exact .inr ⟨srv, rfl⟩
      · simp only [Function.update_of_ne different] at exited
        exact .inl exited
  | _ =>
      have frame := step_frame taken not_false
      exact ⟨frame.found, fun t exited => .inl (frame.exited ▸ exited)⟩

/-- A task becomes reserved by a call of `set_reserve` that finds it. -/
theorem step_flag (taken : step s op = .ok s') (flag : (s'.reserve t).flag = true) :
    (s.reserve t).flag = true ∨
      s.found t = true ∧ ∃ srv budget period cpuid, op = .setReserve srv t budget period cpuid := by
  cases op with
  | setReserve srv tid budget period cpuid =>
      obtain ⟨⟨retval, target⟩, returns, result⟩ := bind_eq_ok_iff.mp taken
      cases result
      cases found : s.found tid with
      | false =>
          rw [setReserve_missing found returns] at flag
          exact .inl flag
      | true =>
          obtain ⟨own, _, changes⟩ := setReserve_changes returns
          rcases eq_or_ne t tid with rfl | different
          · exact .inr ⟨found, _, _, _, _, rfl⟩
          · rw [changes.others different] at flag
            exact .inl flag
  | cancelReserve srv tid =>
      obtain ⟨⟨retval, target⟩, returns, result⟩ := bind_eq_ok_iff.mp taken
      cases result
      obtain ⟨own, result, changes⟩ := cancelReserve_changes returns
      rcases eq_or_ne t tid with rfl | different
      · rw [changes.own_eq] at flag
        cases result with
        | missing => exact .inl flag
        | refused _ reserved _ => exact .inl reserved
        | idle => exact .inl flag
        | released _ reserved _ _ => exact .inl reserved
      · rw [changes.others different] at flag
        exact .inl flag
  | doExit srv tid =>
      obtain ⟨own, released, result, changes, rfl⟩ := doExit_changes taken
      dsimp only at flag
      rcases eq_or_ne t tid with rfl | different
      · rw [changes.own_eq] at flag
        cases result with
        | idle _ => exact .inl flag
        | released reserved _ => exact .inl reserved
      · rw [changes.others different] at flag
        exact .inl flag
  | _ =>
      rw [(step_frame taken not_false).flag] at flag
      exact .inl flag

namespace ExitedUnreserved

theorem live (unreserved : ExitedUnreserved s) (flag : (s.reserve t).flag = true) :
    s.exited t = false := by
  by_contra exited
  have off := unreserved t (by simpa using exited)
  simp [off] at flag

theorem step (unreserved : ExitedUnreserved s) (retires : Retires s op)
    (taken : Reservation.step s op = .ok s') : ExitedUnreserved s' := by
  intro t exited
  by_contra reserved
  have flag : (s'.reserve t).flag = true := by simpa using reserved
  rcases step_flag taken flag with before | ⟨found, srv, budget, period, cpuid, rfl⟩
  · rcases (step_tasks taken).2 t exited with gone | ⟨srv, rfl⟩
    · simp [unreserved t gone] at before
    · exact Bool.false_ne_true (retires.symm.trans before)
  · rcases (step_tasks taken).2 t exited with gone | ⟨_, other⟩
    · rcases retires with live | missing
      · simp [live] at gone
      · simp [missing] at found
    · cases other

end ExitedUnreserved

/-! ## The table while tasks come and go -/

/-- The kernel is consistent, and neither an exited task nor a tid without task
is reserved. -/
structure Retired (s : Kernel) : Prop where
  consistent : Consistent s
  exited : ExitedUnreserved s
  missing : ∀ t, s.found t = false → (s.reserve t).flag = false

/-- Calls with `1 ≤ C ≤ T ≤ 60000` whose files can be set up, revisions that take
no task out of the middle of a list, and no reservation for or kept by an exited
task.  Everything else is free. -/
def Retiring (s : Kernel) : Op → Prop
  | .setReserve srv tid budget period cpuid => (s.exited tid = false ∨ s.found tid = false) ∧
      (∀ C ∈ budget, ∀ T ∈ period, ValidTimes C T) ∧ FilesSucceed srv ∧ Revisable s tid cpuid
  | .doExit _ t => (s.reserve t).flag = false
  | _ => True

theorem Retiring.retires (retiring : Retiring s op) : Retires s op := by
  cases op with
  | setReserve => exact retiring.1
  | doExit => exact retiring
  | _ => trivial

namespace Retired

theorem step (retired : Retired s) (retiring : Retiring s op)
    (taken : Reservation.step s op = .ok s') : Retired s' where
  consistent := by
    cases op with
    | setReserve srv tid budget period cpuid =>
        obtain ⟨⟨retval, target⟩, returns, result⟩ := bind_eq_ok_iff.mp taken
        cases result
        obtain ⟨live | missing, valid, files, named⟩ := retiring
        · exact setReserve_consistent retired.consistent live files valid named returns
        · rw [setReserve_missing missing returns]
          exact retired.consistent
    | cancelReserve srv tid =>
        obtain ⟨⟨retval, target⟩, returns, result⟩ := bind_eq_ok_iff.mp taken
        cases result
        exact cancelReserve_consistent retired.consistent retired.exited.live returns
    | doExit srv t => exact doExit_consistent retired.consistent retired.exited.live taken
    | _ => exact retired.consistent.of_frame (step_frame taken not_false)
  exited := retired.exited.step retiring.retires taken
  missing := by
    intro t missing
    rw [(step_tasks taken).1] at missing
    by_contra reserved
    rcases step_flag taken (by simpa using reserved) with before | ⟨found, _⟩
    · simp [retired.missing t missing] at before
    · simp [missing] at found

/-- A tid that is not in use is not placed, so its member may be replaced. -/
theorem fork {parent child : Tid} {leader : Bool} (retired : Retired s)
    (free : s.found child = false) : Retired (s.fork parent child leader) := by
  have flag := retired.missing child free
  have placement : (s.fork parent child leader).placement = s.placement := by
    funext t
    rcases eq_or_ne t child with rfl | different
    · simp [Kernel.placement, Kernel.fork, flag]
    · simp [Kernel.placement, Kernel.fork, different]
  refine ⟨⟨?_, retired.consistent.rollbacks⟩, ?_, ?_⟩
  · rw [placement]
    apply retired.consistent.represents.congr
    intro t placed
    have different : t ≠ child := by
      rintro rfl
      exact placed (placement_unreserved flag)
    simp [Kernel.fork, different]
  · intro t exited
    rcases eq_or_ne t child with rfl | different
    · simp [Kernel.fork]
    · simp only [Kernel.fork, Function.update_of_ne different] at exited ⊢
      exact retired.exited t exited
  · intro t missing
    rcases eq_or_ne t child with rfl | different
    · simp [Kernel.fork]
    · simp only [Kernel.fork, Function.update_of_ne different] at missing ⊢
      exact retired.missing t missing

theorem reap (retired : Retired s) (exited : s.exited t = true) : Retired (s.reap t) where
  consistent := ⟨retired.consistent.represents, retired.consistent.rollbacks⟩
  exited := retired.exited
  missing := by
    intro other missing
    rcases eq_or_ne other t with rfl | different
    · exact retired.exited other exited
    · simp only [Kernel.reap, Function.update_of_ne different] at missing
      exact retired.missing other missing

/-- The monitor module has no part in it. -/
theorem of_monitors (retired : Retired s) (monitors : Monitors s s') : Retired s' := by
  rw [monitors]
  exact ⟨⟨retired.consistent.represents, retired.consistent.rollbacks⟩, retired.exited,
    retired.missing⟩

end Retired

/-! ## Every run -/

/-- Core operations are restricted; forks, reaps and the module are free. -/
def CoreRetiring (s : Kernel) : SystemOp → Prop
  | .core op => Retiring s op
  | _ => True

theorem Retired.effect {op : SystemOp} (retired : Retired s) (retiring : CoreRetiring s op)
    (effect : KernelEffect s op s') : Retired s' := by
  cases effect with
  | core taken => exact retired.step retiring taken
  | forked free => exact retired.fork free
  | reaped exited => exact retired.reap exited
  | monitored _ monitors => exact retired.of_monitors monitors

/-- The operation is a call that gives a task a reservation or cancels it. -/
def Op.Calls (t : Tid) : Op → Prop
  | .setReserve _ tid _ _ _ => tid = t
  | .cancelReserve _ tid => tid = t
  | _ => False

/-- A task holds no reservation: it is on no list, SysClock does not count it. -/
structure HoldsNone (s : Kernel) (t : Tid) : Prop where
  lists : ∀ cpu, t ∉ (s.table cpu).entries
  collects : collect s.reserve s.processes = collect s.reserve (s.processes.filter (· ≠ t))

private theorem Retired.holdsNone (retired : Retired s) (exited : s.exited t = true) :
    HoldsNone s t where
  lists := by
    intro cpu
    rw [retired.consistent.represents.mem_iff, placement_unreserved (retired.exited t exited)]
    nofun
  collects := by
    funext cpu
    rw [collect, collect, List.filter_filter]
    congr 1
    apply List.filter_congr
    intro other _
    rcases eq_or_ne other t with rfl | different
    · simp [retired.exited other exited]
    · simp [different]

private theorem cancelReserve_unreserved {srv : Services} {retval : ℤ}
    (flag : (s.reserve t).flag = false)
    (returns : s.cancelReserve srv t = .ok (retval, s')) : s'.table = s.table := by
  cases cancelReserve_effect returns with
  | missing => rfl
  | refused _ reserved => simp [flag] at reserved
  | idle _ _ finishes =>
      exact ((Kernel.frame_removeTidFile s t).trans ((Kernel.frame_dropEnergyFile _ t).trans
        (Kernel.frame_sysclockSetFrequency finishes))).table
  | released _ reserved => simp [flag] at reserved

/-- A call naming an exited task does not touch the table. -/
theorem Retired.step_table (retired : Retired s) (exited : s.exited t = true)
    (retires : Retires s op) (calls : op.Calls t) (taken : Reservation.step s op = .ok s') :
    s'.table = s.table := by
  cases op with
  | setReserve srv tid budget period cpuid =>
      obtain ⟨⟨retval, target⟩, returns, result⟩ := bind_eq_ok_iff.mp taken
      cases result
      cases calls
      rcases retires with live | missing
      · simp [live] at exited
      · rw [setReserve_missing missing returns]
  | cancelReserve srv tid =>
      obtain ⟨⟨retval, target⟩, returns, result⟩ := bind_eq_ok_iff.mp taken
      cases result
      cases calls
      exact cancelReserve_unreserved (retired.exited _ exited) returns
  | _ => exact calls.elim

/-- A reserved task that exits keeps its flag, and a later cancellation drops the
entry of another task. -/
theorem reaches_not_retired :
    ∃ (system : System) (s' : Kernel), Reaches systemStep (fun _ _ => True)
        (fun system => Boot system.kernel) system ∧ system.kernel.exited 1 = true ∧
      step system.kernel (.cancelReserve .succeed 1) = .ok s' ∧
      (system.kernel.table 0).entries = [2] ∧ (s'.table 0).entries = [] := by
  let first := after systemStep ⟨.bare, false, false⟩ (.core (reserveMillis 1 1 10 0))
  let second := after systemStep first (.core (reserveMillis 2 1 20 0))
  let system := after systemStep second (.core (.doExit .succeed 1))
  have start : Reaches systemStep (fun _ _ => True) (fun system => Boot system.kernel)
      ⟨.bare, false, false⟩ := .start boot_bare
  have reached : Reaches systemStep (fun _ _ => True) (fun system => Boot system.kernel) system :=
    ((start.after trivial (by decide)).after trivial (by decide)).after trivial (by decide)
  exact ⟨system, after step system.kernel (.cancelReserve .succeed 1), reached, by decide,
    step_eq_after (by decide), by decide, by decide⟩

/-- In every run in which tasks give up their reservation before they exit and no
exited task is given one, an exited task holds no reservation, and calls naming
it do not change the table. -/
theorem reaches_holdsNone {system : System}
    (reached : Reaches systemStep (fun system op => CoreRetiring system.kernel op)
      (fun system => Boot system.kernel) system)
    (exited : system.kernel.exited t = true) :
    HoldsNone system.kernel t ∧ ∀ op s', Retiring system.kernel op → op.Calls t →
      step system.kernel op = .ok s' → s'.table = system.kernel.table := by
  have retired : Retired system.kernel := by
    apply reached.invariant
    · intro state boot
      exact ⟨boot.consistent, fun t _ => (boot.reserve t).1, fun t _ => (boot.reserve t).1⟩
    · intro state op target retired permitted taken
      exact retired.effect permitted (systemStep_kernel taken)
  refine ⟨retired.holdsNone exited, ?_⟩
  intro op s' retiring calls taken
  exact retired.step_table exited retiring.retires calls taken

/-- A task that cancels its reservation and exits. -/
theorem reaches_holdsNone_cancelled :
    HoldsNone (after systemStep (after systemStep (after systemStep ⟨.bare, false, false⟩
      (.core (reserveMillis 1 1 10 0))) (.core (.cancelReserve .succeed 1)))
      (.core (.doExit .succeed 1))).kernel 1 := by
  refine (reaches_holdsNone ?_ (by decide)).1
  apply Reaches.after
  · apply Reaches.after
    · apply Reaches.after
      · exact .start boot_bare
      · have calls : Serial .bare (reserveMillis 1 1 10 0) ∧
            InPlace .bare (reserveMillis 1 1 10 0) :=
          serial_reserveMillis rfl ⟨by decide, by decide, by decide⟩ rfl
        obtain ⟨⟨live, valid, files⟩, inPlace⟩ := calls
        exact ⟨.inl live, valid, files, inPlace.orderly⟩
      · decide
    · trivial
    · decide
  · show Reserve.flag _ = false
    decide
  · decide

end Rtes.Reservation
