import Rtes.Reservation.Budget

/-!
# Tasks and modules that come and go

Around the operations on reservations, tasks are forked and reaped, and the
monitor module is loaded and unloaded.  A fork copies the whole `reserve` member
of the parent and clears the flag only.
-/

namespace Rtes.Reservation

open Rtes.Transition

namespace Kernel

/-! ## Fork and reap -/

/-- `copy_process`: the child gets a copy of the `reserve` member with the flag
cleared.  The copied timers are not queued.  A thread-group leader joins the
processes. -/
def fork (s : Kernel) (parent child : Tid) (leader : Bool) : Kernel :=
  { s with
    reserve := Function.update s.reserve child
      { s.reserve parent with flag := false, cTimer := false, pTimer := false }
    uninterruptible := Function.update s.uninterruptible child false
    exited := Function.update s.exited child false
    found := Function.update s.found child true
    processes := if leader then s.processes ++ [child] else s.processes }

/-- A task that has exited is waited for: its tid is no longer found, and it
leaves the processes. -/
def reap (s : Kernel) (t : Tid) : Kernel :=
  { s with
    found := Function.update s.found t false
    processes := s.processes.filter (· ≠ t) }

/-! ## The monitor module -/

end Kernel

/-- Outcomes of the kernel services that `taskmon_init` depends on: the objects
it creates, and the results for the files it creates in turn. -/
structure TaskmonServices where
  rtesKobj : Bool
  taskmonKobj : Bool
  utilKobj : Bool
  configKobj : Bool
  tasksKobj : Bool
  sysfsCreateFile : List ℤ

namespace Kernel

/-- `taskmon_init`: whatever was created before a failure stays.  The attribute
of a module that is loaded starts disabled. -/
def taskmonInit (srv : TaskmonServices) (s : Kernel) : ℤ × Kernel :=
  let s := { s with rtesKobj := srv.rtesKobj }
  if !srv.rtesKobj || !srv.taskmonKobj then
    (ENOMEM, s)
  else
    let s := { s with utilKobj := srv.utilKobj }
    if !srv.utilKobj || !srv.configKobj then
      (ENOMEM, s)
    else
      let s := { s with tasksKobj := srv.tasksKobj }
      if !srv.tasksKobj then
        (ENOMEM, s)
      else
        match srv.sysfsCreateFile.find? (· ≠ 0) with
        | some retval => (retval, s)
        | none => (0, { s with taskmonEnabled := false })

/-- `taskmon_exit`: all objects are gone, and the monitor is disabled. -/
def taskmonExit (s : Kernel) : Kernel :=
  { s with
    utilKobj := false
    tasksKobj := false
    rtesKobj := false
    taskmonEnabled := false }

/-- `enabled_store`: enabling the monitor restarts its clock. -/
def enabledStore (s : Kernel) (enabled : Bool) : Kernel :=
  { s with
    taskmonEnabled := enabled
    taskmonAccTime := if enabled then 0 else s.taskmonAccTime }

def energyTrackingStore (s : Kernel) (energyTracking : Bool) : Kernel :=
  { s with energyTracking := energyTracking }

end Kernel

/-! ## The system -/

/-- The kernel, and whether the monitor module is loaded, which is when
`ptr_taskmon_enabled_attribute` is set.  A module whose initialisation returned a
positive number stays in the kernel, partially set up and without its files. -/
structure System where
  kernel : Kernel
  taskmonLoaded : Bool
  taskmonPartial : Bool

/-- One operation on the system. -/
inductive SystemOp where
  | core (op : Op)
  | fork (parent child : Tid) (leader : Bool)
  | reap (t : Tid)
  | taskmonInit (srv : TaskmonServices)
  | taskmonExit
  | enabledStore (enabled : Bool)
  | energyTrackingStore (energyTracking : Bool)

/-- The system after one operation.  Only live tasks fork, and a child gets a tid
that is not in use; only exited tasks are reaped.  The module is in the kernel once
at a time, and its files are there while it is loaded.  Only a negative result of
`taskmon_init` takes it out again, and taking out one that is partially set up writes
through a null pointer. -/
def systemStep (system : System) : SystemOp → Except Fault System
  | .core op => do
      let s ← step system.kernel op
      .ok { system with kernel := s }
  | .fork parent child leader =>
      if system.kernel.found parent && !system.kernel.exited parent &&
          !system.kernel.found child then
        .ok { system with kernel := system.kernel.fork parent child leader }
      else
        .ok system
  | .reap t =>
      if system.kernel.exited t then
        .ok { system with kernel := system.kernel.reap t }
      else
        .ok system
  | .taskmonInit srv =>
      if system.taskmonLoaded || system.taskmonPartial then
        .ok system
      else
        let (retval, s) := system.kernel.taskmonInit srv
        .ok ⟨s, retval == 0, 0 < retval⟩
  | .taskmonExit =>
      if system.taskmonPartial then
        .error .nullPointer
      else if system.taskmonLoaded then
        .ok ⟨system.kernel.taskmonExit, false, false⟩
      else
        .ok system
  | .enabledStore enabled =>
      if system.taskmonLoaded then
        .ok { system with kernel := system.kernel.enabledStore enabled }
      else
        .ok system
  | .energyTrackingStore energyTracking =>
      if system.taskmonLoaded then
        .ok { system with kernel := system.kernel.energyTrackingStore energyTracking }
      else
        .ok system

/-- What an operation on the system does. -/
inductive SystemEffect (system : System) : SystemOp → System → Prop
  | idle {op : SystemOp} : (∀ other, op ≠ .core other) → SystemEffect system op system
  | core {op : Op} {s : Kernel} : step system.kernel op = .ok s →
      SystemEffect system (.core op) { system with kernel := s }
  | forked {parent child : Tid} {leader : Bool} : system.kernel.found parent = true →
      system.kernel.exited parent = false → system.kernel.found child = false →
      SystemEffect system (.fork parent child leader)
        { system with kernel := system.kernel.fork parent child leader }
  | reaped {t : Tid} : system.kernel.exited t = true →
      SystemEffect system (.reap t) { system with kernel := system.kernel.reap t }
  | loaded {srv : TaskmonServices} : system.taskmonLoaded = false →
      SystemEffect system (.taskmonInit srv)
        ⟨(system.kernel.taskmonInit srv).2, (system.kernel.taskmonInit srv).1 == 0,
          0 < (system.kernel.taskmonInit srv).1⟩
  | unloaded : system.taskmonLoaded = true →
      SystemEffect system .taskmonExit ⟨system.kernel.taskmonExit, false, false⟩
  | enabled {enabled : Bool} : system.taskmonLoaded = true →
      SystemEffect system (.enabledStore enabled)
        { system with kernel := system.kernel.enabledStore enabled }
  | tracked {energyTracking : Bool} : system.taskmonLoaded = true →
      SystemEffect system (.energyTrackingStore energyTracking)
        { system with kernel := system.kernel.energyTrackingStore energyTracking }

/-- An operation that is only carried out in some states does nothing in the
others. -/
private theorem effect_of_guard {system system' target : System} {op : SystemOp} {guard : Bool}
    (notCore : ∀ other, op ≠ .core other) (effect : guard = true → SystemEffect system op target)
    (taken : (if guard = true then .ok target else .ok system : Except Fault System) =
      .ok system') : SystemEffect system op system' := by
  cases guard with
  | true =>
      cases taken
      exact effect rfl
  | false =>
      cases taken
      exact .idle notCore

theorem systemStep_effect {system system' : System} {op : SystemOp}
    (taken : systemStep system op = .ok system') : SystemEffect system op system' := by
  cases op with
  | core op =>
      obtain ⟨s, steps, result⟩ := bind_eq_ok_iff.mp taken
      cases result
      exact .core steps
  | fork parent child leader =>
      refine effect_of_guard (fun _ => SystemOp.noConfusion) ?_ taken
      intro possible
      simp only [Bool.and_eq_true, Bool.not_eq_true'] at possible
      exact .forked possible.1.1 possible.1.2 possible.2
  | reap t => exact effect_of_guard (fun _ => SystemOp.noConfusion) .reaped taken
  | taskmonInit srv =>
      rw [systemStep] at taken
      split at taken
      · cases taken
        exact .idle fun _ => SystemOp.noConfusion
      · rename_i absent
        cases taken
        exact .loaded (by simp_all)
  | taskmonExit =>
      rw [systemStep] at taken
      split at taken
      · cases taken
      · exact effect_of_guard (fun _ => SystemOp.noConfusion) .unloaded taken
  | enabledStore enabled => exact effect_of_guard (fun _ => SystemOp.noConfusion) .enabled taken
  | energyTrackingStore energyTracking =>
      exact effect_of_guard (fun _ => SystemOp.noConfusion) .tracked taken

/-! ## The kernel within the system -/

/-- Only what belongs to the monitor module changes. -/
def Monitors (s s' : Kernel) : Prop :=
  s' = { s with
    rtesKobj := s'.rtesKobj
    utilKobj := s'.utilKobj
    tasksKobj := s'.tasksKobj
    taskmonEnabled := s'.taskmonEnabled
    taskmonAccTime := s'.taskmonAccTime
    energyTracking := s'.energyTracking }

theorem monitors_taskmonInit (srv : TaskmonServices) (s : Kernel) :
    Monitors s (s.taskmonInit srv).2 := by
  unfold Kernel.taskmonInit
  dsimp only
  split_ifs
  · rfl
  · rfl
  · rfl
  · split
    · rfl
    · rfl

/-- What an operation on the system does to the kernel, when the module does not
matter. -/
inductive KernelEffect (s : Kernel) : SystemOp → Kernel → Prop
  | core {op : Op} {s' : Kernel} : step s op = .ok s' → KernelEffect s (.core op) s'
  | forked {parent child : Tid} {leader : Bool} : s.found child = false →
      KernelEffect s (.fork parent child leader) (s.fork parent child leader)
  | reaped {t : Tid} : s.exited t = true → KernelEffect s (.reap t) (s.reap t)
  | monitored {op : SystemOp} {s' : Kernel} : (∀ other, op ≠ .core other) → Monitors s s' →
      KernelEffect s op s'

theorem systemStep_kernel {system system' : System} {op : SystemOp}
    (taken : systemStep system op = .ok system') :
    KernelEffect system.kernel op system'.kernel := by
  cases systemStep_effect taken with
  | idle other => exact .monitored other rfl
  | core steps => exact .core steps
  | forked _ _ free => exact .forked free
  | reaped exited => exact .reaped exited
  | loaded _ => exact .monitored (fun _ => SystemOp.noConfusion) (monitors_taskmonInit _ _)
  | unloaded _ => exact .monitored (fun _ => SystemOp.noConfusion) rfl
  | enabled _ => exact .monitored (fun _ => SystemOp.noConfusion) rfl
  | tracked _ => exact .monitored (fun _ => SystemOp.noConfusion) rfl

end Rtes.Reservation
