import Rtes.Reservation.Timer

/-!
# What the auxiliary operations leave alone

Files, power, accounting and the timers are handled by operations that change
neither the table nor the placement of any task.  Each of them is framed by a
view of the tasks: the placement of a task, or in addition everything that
enforces its reservation.
-/

namespace Rtes.Reservation

open Rtes.Transition Rtes.Sysclock

/-! ## Views of a task -/

/-- Whether a task is reserved, where, and with which parameters. -/
structure Placing where
  flag : Bool
  cpu : Cpu
  params : Params

def Reserve.placing (reserve : Reserve) : Placing where
  flag := reserve.flag
  cpu := reserve.cpu
  params := reserve.params

/-- What enforces the reservation of a task. -/
structure Enforcing where
  placing : Placing
  suspend : Bool
  C : Timespec
  T : Timespec
  cTimer : Bool
  pTimer : Bool

def Reserve.enforcing (reserve : Reserve) : Enforcing where
  placing := reserve.placing
  suspend := reserve.suspend
  C := reserve.C
  T := reserve.T
  cTimer := reserve.cTimer
  pTimer := reserve.pTimer

namespace Kernel

def placing (s : Kernel) (t : Tid) : Placing :=
  (s.reserve t).placing

def enforcing (s : Kernel) (t : Tid) : Enforcing × Bool :=
  ((s.reserve t).enforcing, s.uninterruptible t)

end Kernel

universe u

/-- The table and the view of every task stay as they are. -/
structure Frame {β : Type u} (view : Kernel → Tid → β) (s s' : Kernel) : Prop where
  table : s'.table = s.table
  exited : s'.exited = s.exited
  found : s'.found = s.found
  rollbacks : s'.rollbacks = s.rollbacks
  view : ∀ t, view s' t = view s t

namespace Frame

variable {β : Type u} {view : Kernel → Tid → β} {s s' s'' : Kernel}

theorem refl (s : Kernel) : Frame view s s :=
  ⟨rfl, rfl, rfl, rfl, fun _ => rfl⟩

theorem trans (first : Frame view s s') (second : Frame view s' s'') : Frame view s s'' where
  table := second.table.trans first.table
  exited := second.exited.trans first.exited
  found := second.found.trans first.found
  rollbacks := second.rollbacks.trans first.rollbacks
  view := fun t => (second.view t).trans (first.view t)

/-- What enforces reservations includes where they are placed. -/
theorem placing (frame : Frame Kernel.enforcing s s') : Frame Kernel.placing s s' where
  table := frame.table
  exited := frame.exited
  found := frame.found
  rollbacks := frame.rollbacks
  view := fun t => congrArg (fun enforced => enforced.1.placing) (frame.view t)

end Frame

namespace Kernel

variable (s : Kernel) (t : Tid) (srv : Services)

theorem frame_modify_placing {f : Reserve → Reserve}
    (same : (f (s.reserve t)).placing = (s.reserve t).placing) :
    Frame placing s (s.modify t f) := by
  refine ⟨rfl, rfl, rfl, rfl, ?_⟩
  intro other
  rcases eq_or_ne other t with rfl | different
  · simp [placing, same]
  · simp [placing, different]

theorem frame_modify {f : Reserve → Reserve}
    (same : (f (s.reserve t)).enforcing = (s.reserve t).enforcing) :
    Frame enforcing s (s.modify t f) := by
  refine ⟨rfl, rfl, rfl, rfl, ?_⟩
  intro other
  rcases eq_or_ne other t with rfl | different
  · simp only [enforcing, modify_reserve, Function.update_self, same]
    rfl
  · simp only [enforcing, modify_reserve, Function.update_of_ne different]
    rfl

end Kernel

/-! ## Memory and files -/

namespace Reserve

variable (reserve : Reserve)

/-- Replace what belongs to the files of a task. -/
def withFiles (files : Reserve) : Reserve :=
  { reserve with
    tidAttrName := files.tidAttrName
    periods := files.periods
    ring := files.ring
    pidKobj := files.pidKobj
    energyAttr := files.energyAttr
    trackingEnergy := files.trackingEnergy }

@[simp]
theorem withFiles_withFiles (first second : Reserve) :
    (reserve.withFiles first).withFiles second = reserve.withFiles second :=
  rfl

end Reserve

/-- Only the files of one task and the memory change. -/
structure Files (t : Tid) (files : Reserve) (s s' : Kernel) : Prop where
  eq : s' = { s with
    reserve := Function.update s.reserve t ((s.reserve t).withFiles files)
    allocated := s'.allocated
    nextAddr := s'.nextAddr }
  tracking : files.trackingEnergy = true → (s.reserve t).trackingEnergy = true

section

variable {s s' s'' : Kernel} {t : Tid} {files files' : Reserve}

namespace Files

theorem refl (s : Kernel) (t : Tid) : Files t (s.reserve t) s s where
  eq := by
    rw [show (s.reserve t).withFiles (s.reserve t) = s.reserve t from rfl, Function.update_eq_self]
  tracking := id

theorem reserve_eq (kept : Files t files s s') :
    s'.reserve = Function.update s.reserve t ((s.reserve t).withFiles files) :=
  congrArg Kernel.reserve kept.eq

theorem own_eq (kept : Files t files s s') : s'.reserve t = (s.reserve t).withFiles files := by
  rw [kept.reserve_eq, Function.update_self]

theorem trans (first : Files t files s s') (second : Files t files' s' s'') :
    Files t files' s s'' where
  eq := by
    rw [second.eq, first.own_eq, Reserve.withFiles_withFiles, first.eq]
    simp only [Function.update_idem]
  tracking := by
    intro tracking
    have before := second.tracking tracking
    rw [first.own_eq] at before
    exact first.tracking before

/-- A change of the memory only. -/
theorem memory (s : Kernel) (t : Tid) (allocated : Addr → Option Tid) (nextAddr : Addr) :
    Files t (s.reserve t) s { s with allocated := allocated, nextAddr := nextAddr } where
  eq := by
    rw [show (s.reserve t).withFiles (s.reserve t) = s.reserve t from rfl, Function.update_eq_self]
  tracking := id

theorem frame (kept : Files t files s s') : Frame Kernel.enforcing s s' := by
  refine ⟨by rw [kept.eq], by rw [kept.eq], by rw [kept.eq], by rw [kept.eq], ?_⟩
  intro other
  have uninterruptible : s'.uninterruptible = s.uninterruptible := by rw [kept.eq]
  unfold Kernel.enforcing
  rw [kept.reserve_eq, uninterruptible]
  rcases eq_or_ne other t with rfl | different
  · rw [Function.update_self]
    rfl
  · rw [Function.update_of_ne different]

end Files

namespace Kernel

private theorem files_kmalloc (s : Kernel) (succeeds : Bool) (t : Tid) :
    Files t (s.reserve t) s (s.kmalloc succeeds t).2 := by
  cases succeeds with
  | false => exact .refl s t
  | true => exact .memory s t _ _

theorem files_of_kmalloc {succeeds : Bool} {addr : Option Addr}
    (allocates : s.kmalloc succeeds t = (addr, s')) : Files t (s.reserve t) s s' := by
  have kept := files_kmalloc s succeeds t
  rwa [allocates] at kept

theorem files_kfree (s : Kernel) (t : Tid) (addr : Option Addr) :
    Files t (s.reserve t) s (s.kfree addr) := by
  cases addr with
  | none => exact .refl s t
  | some addr => exact .memory s t _ _

theorem files_modify (s : Kernel) (t : Tid) {f : Reserve → Reserve}
    (same : f (s.reserve t) = (s.reserve t).withFiles (f (s.reserve t)))
    (tracking : (f (s.reserve t)).trackingEnergy = true → (s.reserve t).trackingEnergy = true) :
    Files t (f (s.reserve t)) s (s.modify t f) where
  eq := by
    rw [← same]
    rfl
  tracking := tracking

theorem files_setUpTidFile (srv : Services) (s : Kernel) (t : Tid) :
    ∃ files, Files t files s (s.setUpTidFile srv t).2 := by
  unfold setUpTidFile
  split
  · split
    · rename_i allocates
      exact ⟨_, files_of_kmalloc allocates⟩
    · rename_i buf named allocates
      have first := (files_of_kmalloc allocates).trans
        (files_modify named t (f := fun reserve => { reserve with tidAttrName := some buf }) rfl id)
      dsimp only
      split
      · exact ⟨_, first⟩
      · split
        · rename_i fails
          dsimp only
          exact ⟨_, (first.trans (files_of_kmalloc fails)).trans (files_modify _ t rfl id)⟩
        · rename_i succeeds
          dsimp only
          exact ⟨_, (first.trans (files_of_kmalloc succeeds)).trans (files_modify _ t rfl id)⟩
  · exact ⟨_, .refl s t⟩

private theorem files_removeEnergyFile (s : Kernel) (t : Tid) :
    ∃ files, Files t files s (s.removeEnergyFile t) :=
  ⟨_, (files_kfree s t _).trans (files_modify _ t rfl id)⟩

theorem files_setUpEnergyFile (srv : Services) (s : Kernel) (t : Tid) :
    ∃ files, Files t files s (s.setUpEnergyFile srv t).2 := by
  unfold setUpEnergyFile
  split
  · split
    · rename_i allocates
      exact ⟨_, files_of_kmalloc allocates⟩
    · rename_i made allocates
      split
      · exact ⟨_, files_of_kmalloc allocates⟩
      · have first := (files_of_kmalloc allocates).trans
          (files_modify made t (f := fun reserve => { reserve with pidKobj := true }) rfl id)
        dsimp only
        split
        · rename_i fails
          dsimp only
          exact ⟨_, (first.trans (files_of_kmalloc fails)).trans (files_modify _ t rfl id)⟩
        · rename_i succeeds
          dsimp only
          exact ⟨_, (first.trans (files_of_kmalloc succeeds)).trans (files_modify _ t rfl id)⟩
  · split
    · exact files_removeEnergyFile s t
    · exact ⟨_, .refl s t⟩

theorem files_removeTidFile (s : Kernel) (t : Tid) :
    ∃ files, Files t files s (s.removeTidFile t) := by
  unfold removeTidFile
  split
  · exact ⟨_, (files_kfree s t _).trans (files_kfree _ t _)⟩
  · exact ⟨_, .refl s t⟩

/-- Removing the energy file of a task also stops the tracking of its energy. -/
theorem files_untrack (s : Kernel) (t : Tid) :
    ∃ files, Files t files s ((s.removeEnergyFile t).modify t fun reserve =>
      { reserve with trackingEnergy := false }) := by
  obtain ⟨files, kept⟩ := files_removeEnergyFile s t
  exact ⟨_, kept.trans (files_modify _ t rfl Bool.noConfusion)⟩

theorem files_dropEnergyFile (s : Kernel) (t : Tid) :
    ∃ files, Files t files s (s.dropEnergyFile t) := by
  unfold dropEnergyFile
  split
  · exact files_untrack s t
  · exact ⟨_, .refl s t⟩

theorem files_dropStaleEnergyFile (s : Kernel) (t : Tid) :
    ∃ files, Files t files s (s.dropStaleEnergyFile t) := by
  unfold dropStaleEnergyFile
  split
  · exact files_untrack s t
  · exact ⟨_, .refl s t⟩

end Kernel

end

namespace Kernel

variable (s : Kernel) (t : Tid) (srv : Services)

theorem frame_setUpTidFile : Frame enforcing s (s.setUpTidFile srv t).2 := by
  obtain ⟨_, kept⟩ := files_setUpTidFile srv s t
  exact kept.frame

theorem frame_setUpEnergyFile : Frame enforcing s (s.setUpEnergyFile srv t).2 := by
  obtain ⟨_, kept⟩ := files_setUpEnergyFile srv s t
  exact kept.frame

theorem frame_removeTidFile : Frame enforcing s (s.removeTidFile t) := by
  obtain ⟨_, kept⟩ := files_removeTidFile s t
  exact kept.frame

theorem frame_dropEnergyFile : Frame enforcing s (s.dropEnergyFile t) := by
  obtain ⟨_, kept⟩ := files_dropEnergyFile s t
  exact kept.frame

theorem frame_dropStaleEnergyFile : Frame enforcing s (s.dropStaleEnergyFile t) := by
  obtain ⟨_, kept⟩ := files_dropStaleEnergyFile s t
  exact kept.frame

/-! ## CPUs and frequencies -/

theorem frame_bringUp (cpu : Cpu) : Frame enforcing s (s.bringUp srv cpu) := by
  unfold bringUp
  split
  · exact .refl s
  · exact ⟨rfl, rfl, rfl, rfl, fun _ => rfl⟩

private theorem frame_cpuDown (cpu : Cpu) : Frame enforcing s (s.cpuDown srv cpu) :=
  ⟨rfl, rfl, rfl, rfl, fun _ => rfl⟩

theorem frame_offlineIfClosed (cpu : Cpu) : Frame enforcing s (s.offlineIfClosed srv cpu) := by
  unfold offlineIfClosed
  split
  · exact frame_cpuDown s srv cpu
  · exact .refl s

theorem frame_offlineClosed (online : Cpu → Bool) (cpus : List Cpu) :
    Frame enforcing s (offlineClosed srv online cpus s) := by
  induction cpus generalizing s with
  | nil => exact .refl s
  | cons cpu rest ih =>
      rw [offlineClosed]
      split
      · exact (frame_cpuDown s srv cpu).trans (ih _)
      · exact ih s

private theorem frame_setFrequencyLoop {s s' : Kernel} {cpus : List Cpu}
    (returns : setFrequencyLoop s cpus = .ok s') : Frame enforcing s s' := by
  induction cpus generalizing s with
  | nil =>
      cases returns
      exact .refl _
  | cons cpu rest ih =>
      rw [setFrequencyLoop] at returns
      split at returns
      · obtain ⟨freq, _, loops⟩ := bind_eq_ok_iff.mp returns
        refine Frame.trans ?_ (ih loops)
        exact ⟨rfl, rfl, rfl, rfl, fun _ => rfl⟩
      · exact ih returns

theorem frame_sysclockSetFrequency {s s' : Kernel} (returns : sysclockSetFrequency s = .ok s') :
    Frame enforcing s s' :=
  frame_setFrequencyLoop returns

/-! ## Timers and suspension -/

theorem frame_stopTimers : Frame placing s (s.stopTimers t) :=
  frame_modify_placing s t rfl

theorem frame_resetFresh : Frame placing s (s.resetFresh t) := by
  unfold resetFresh
  split
  · exact .refl s
  · exact frame_modify_placing s t rfl

theorem frame_startTimers (C T : Timespec) : Frame placing s (s.startTimers t C T) :=
  frame_modify_placing s t rfl

private theorem frame_suspendTask : Frame placing s (s.suspendTask t) := by
  have frame := frame_modify_placing s t (f := fun reserve => { reserve with suspend := true }) rfl
  unfold suspendTask
  split
  · exact .refl s
  · exact ⟨rfl, rfl, rfl, rfl, frame.view⟩

private theorem frame_resumeTask : Frame placing s (s.resumeTask t) := by
  have frame := frame_modify_placing s t (f := fun reserve => { reserve with suspend := false }) rfl
  unfold resumeTask
  split
  · exact ⟨rfl, rfl, rfl, rfl, frame.view⟩
  · exact .refl s

private theorem frame_cTimerCallback : Frame placing s (s.cTimerCallback t) := by
  unfold cTimerCallback
  have first := frame_modify_placing s t (f := fun reserve => { reserve with
    accSingleRun := reserve.accSingleRun.tick
    acc := reserve.acc.tick }) rfl
  dsimp only
  split
  · exact (first.trans (frame_suspendTask _ t)).trans (frame_modify_placing _ t rfl)
  · exact first

theorem frame_recordPeriod {s s' : Kernel} {t : Tid} (returns : s.recordPeriod t = .ok s') :
    Frame enforcing s s' := by
  unfold recordPeriod at returns
  split at returns
  · split at returns
    · cases returns
    · cases returns
      exact frame_modify s t rfl
  · cases returns
    exact frame_modify s t rfl

private theorem frame_pTimerCallback {s s' : Kernel} {t : Tid} {freq : Cpu → ℕ}
    (returns : s.pTimerCallback freq t = .ok s') : Frame placing s s' := by
  obtain ⟨recorded, records, result⟩ := bind_eq_ok_iff.mp returns
  cases result
  have first : Frame placing s recorded := by
    refine Frame.trans ?_ (frame_recordPeriod records).placing
    exact ⟨rfl, rfl, rfl, rfl, fun _ => rfl⟩
  exact ((first.trans (frame_modify_placing recorded t rfl)).trans
    (frame_dropStaleEnergyFile _ t).placing).trans (frame_resumeTask _ t)

private theorem frame_endJob : Frame placing s (s.endJob t).2 := by
  unfold endJob
  split
  · exact frame_suspendTask s t
  · exact .refl s

private theorem frame_switchIn : Frame placing s (s.switchIn t) := by
  unfold switchIn
  split
  · exact frame_modify_placing s t rfl
  · exact .refl s

private theorem frame_stopBudget : Frame placing s (s.stopBudget t) := by
  unfold stopBudget
  split
  · exact frame_modify_placing s t rfl
  · exact .refl s

theorem frame_chargeRun : Frame enforcing s (s.chargeRun t) := by
  have frame := frame_modify s t
    (f := fun reserve =>
      { reserve with energy := Word.uint32 (reserve.energy + s.runEnergy t) }) rfl
  unfold chargeRun
  split
  · exact ⟨rfl, rfl, rfl, rfl, frame.view⟩
  · exact .refl s

private theorem frame_switchOut : Frame placing s (s.switchOut t) :=
  ((frame_stopBudget s t).trans (frame_chargeRun _ t).placing).trans (frame_modify_placing _ t rfl)

theorem frame_partitionPolicyStore (policy : PartitionPolicy) :
    Frame enforcing s (s.partitionPolicyStore policy) := by
  unfold partitionPolicyStore
  split
  · exact ⟨rfl, rfl, rfl, rfl, fun _ => rfl⟩
  · exact .refl s

end Kernel

/-! ## Steps -/

/-- The operations that place or release tasks. -/
def Op.Places : Op → Prop
  | .setReserve .. => True
  | .cancelReserve .. => True
  | .doExit .. => True
  | _ => False

/-- All other operations leave the placement alone. -/
theorem step_frame {s s' : Kernel} {op : Op} (taken : step s op = .ok s') (other : ¬ op.Places) :
    Frame Kernel.placing s s' := by
  cases op with
  | setReserve => exact absurd trivial other
  | cancelReserve => exact absurd trivial other
  | doExit => exact absurd trivial other
  | endJob t =>
      cases taken
      exact Kernel.frame_endJob s t
  | cTimer t =>
      cases taken
      exact Kernel.frame_cTimerCallback s t
  | pTimer freq t => exact Kernel.frame_pTimerCallback taken
  | switchOut t =>
      cases taken
      exact Kernel.frame_switchOut s t
  | switchIn t =>
      cases taken
      exact Kernel.frame_switchIn s t
  | setPolicy policy =>
      cases taken
      exact (Kernel.frame_partitionPolicyStore s policy).placing

end Rtes.Reservation
