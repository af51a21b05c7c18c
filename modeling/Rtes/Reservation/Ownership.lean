import Rtes.Reservation.Lifecycle
import Rtes.Tokens.Custody
import Rtes.Transition.History

/-!
# Who owns the monitoring buffers

The file of a task under the `util` object comes with two allocations, its
energy file with another one.  They are allocated if the monitor module is
loaded when the reservation is set, used if it is enabled when the period ends,
and freed if it is loaded when the reservation is given up.  The pointers stay
where they are and are copied by a fork.
-/

namespace Rtes.Reservation

open Rtes.Transition Rtes.Sysclock Rtes.Tokens

variable {s s' : Kernel} {t : Tid} {born : Tid → Addr}

/-! ## What a task holds -/

namespace Reserve

variable (reserve : Reserve)

/-- The allocations of the file under the `util` object. -/
def tidFile (present : Bool) : List (Option Addr) :=
  if present then [reserve.tidAttrName, reserve.periods] else []

/-- The allocation of the energy file. -/
def energyFile (present : Bool) : List (Option Addr) :=
  if present then [reserve.energyAttr] else []

/-- A reserved task holds the file under the `util` object while there is one,
and any task its energy file. -/
def holdings (utilKobj : Bool) : List (Option Addr) :=
  reserve.tidFile (utilKobj && reserve.flag) ++ reserve.energyFile reserve.pidKobj

end Reserve

namespace Kernel

/-- The allocated objects. -/
def store (s : Kernel) : Store Tid where
  live := s.allocated
  next := s.nextAddr

/-- What a task holds until it exits. -/
def holdings (s : Kernel) (t : Tid) : List (Option Addr) :=
  if s.exited t then [] else (s.reserve t).holdings s.utilKobj

/-- What `cancel_reserve` and `do_exit` free, in this order. -/
def freed (s : Kernel) (t : Tid) : List (Option Addr) :=
  (s.reserve t).tidFile s.utilKobj ++
    (s.reserve t).energyFile (s.tasksKobj && (s.reserve t).pidKobj)

@[simp]
theorem store_modify (s : Kernel) (t : Tid) (f : Reserve → Reserve) :
    (s.modify t f).store = s.store :=
  rfl

@[simp]
theorem store_kfree (s : Kernel) (addr : Option Addr) :
    (s.kfree addr).store = s.store.free addr := by
  cases addr with
  | none => rfl
  | some addr => rfl

@[simp]
theorem reserve_kfree (s : Kernel) (addr : Option Addr) : (s.kfree addr).reserve = s.reserve := by
  cases addr with
  | none => rfl
  | some addr => rfl

/-! ## Removing files -/

private theorem removeTidFile_store (s : Kernel) (t : Tid) :
    (s.removeTidFile t).store = s.store.freeAll ((s.reserve t).tidFile s.utilKobj) := by
  unfold removeTidFile Reserve.tidFile
  split
  · simp [Store.freeAll]
  · rfl

theorem removeTidFile_eq (s : Kernel) (t : Tid) :
    s.removeTidFile t = { s with allocated := (s.removeTidFile t).allocated } := by
  have freed : ∀ (s : Kernel) addr, s.kfree addr =
      { s with allocated := (s.kfree addr).allocated } := by
    intro s addr
    cases addr with
    | none => rfl
    | some addr => rfl
  unfold removeTidFile
  split
  · rw [freed (s.kfree _), freed s]
  · rfl

/-- Remove the energy file if the object it belongs to demands it. -/
def untrackIf (s : Kernel) (demands : Bool) (t : Tid) : Kernel :=
  if demands && (s.reserve t).pidKobj then
    (s.removeEnergyFile t).modify t fun reserve => { reserve with trackingEnergy := false }
  else
    s

private theorem dropEnergyFile_eq (s : Kernel) (t : Tid) :
    s.dropEnergyFile t = s.untrackIf s.tasksKobj t :=
  rfl

private theorem untrackIf_store (s : Kernel) (demands : Bool) (t : Tid) :
    (s.untrackIf demands t).store =
      s.store.freeAll ((s.reserve t).energyFile (demands && (s.reserve t).pidKobj)) := by
  unfold untrackIf Reserve.energyFile
  split
  · simp [removeEnergyFile, Store.freeAll]
  · rfl

theorem untrackIf_reserve (s : Kernel) (demands : Bool) (t : Tid) :
    ∃ tracking, (s.untrackIf demands t).reserve = Function.update s.reserve t
      { s.reserve t with
        pidKobj := !demands && (s.reserve t).pidKobj
        trackingEnergy := tracking } := by
  unfold untrackIf
  split
  · rename_i both
    rw [Bool.and_eq_true] at both
    refine ⟨false, ?_⟩
    simp [removeEnergyFile, both.1]
  · rename_i kept
    refine ⟨(s.reserve t).trackingEnergy, ?_⟩
    have same : (!demands && (s.reserve t).pidKobj) = (s.reserve t).pidKobj := by
      cases demands with
      | false => rfl
      | true => simpa using kept
    rw [same, Function.update_eq_self]

/-- The objects freed are those of the files that are there. -/
theorem removeFiles_store (s : Kernel) (t : Tid) :
    ((s.removeTidFile t).dropEnergyFile t).store = s.store.freeAll (s.freed t) := by
  rw [dropEnergyFile_eq, untrackIf_store, removeTidFile_store, removeTidFile_eq]
  exact (List.foldl_append ..).symm

/-! ## Setting up files -/

private theorem setUpTidFile_eq {srv : Services} (succeed : FilesSucceed srv) (s : Kernel)
    (t : Tid) :
    (s.setUpTidFile srv t).2 = if s.utilKobj && !(s.reserve t).flag then
        ((s.kmalloc true t).2.kmalloc true t).2.modify t fun reserve => { reserve with
          tidAttrName := some s.nextAddr
          periods := some (s.nextAddr + 1)
          ring := { reserve.ring with
            periods := fun _ => 0
            start := 0
            last := -1
            bufferFull := false } }
      else s := by
  unfold setUpTidFile
  split
  · simp [kmalloc, modify, succeed.kmallocName, succeed.sysfsCreateUtil, succeed.kmallocPeriods]
  · rfl

private theorem setUpEnergyFile_eq {srv : Services} (succeed : FilesSucceed srv) (s : Kernel)
    (t : Tid) :
    (s.setUpEnergyFile srv t).2 =
      if s.tasksKobj && !(s.reserve t).pidKobj && s.energyTracking then
        ((s.kmalloc true t).2.kmalloc true t).2.modify t fun reserve => { reserve with
          pidKobj := true
          energyAttr := some (s.nextAddr + 1) }
      else if s.tasksKobj && !s.energyTracking && (s.reserve t).pidKobj then
        s.removeEnergyFile t
      else s := by
  unfold setUpEnergyFile
  split
  · simp [kmalloc, modify, succeed.kmallocKobjName, succeed.kobjectCreateAndAdd,
      succeed.kmallocEnergyAttr]
  · split
    · rfl
    · rfl

end Kernel

/-! ## Custody of one task -/

section

variable {held : Tid → List (Option Addr)} {files : List (Option Addr)}

theorem energyFile_split (reserve : Reserve) (demands : Bool) :
    reserve.energyFile (demands && reserve.pidKobj) ++
      reserve.energyFile (!demands && reserve.pidKobj) = reserve.energyFile reserve.pidKobj := by
  cases demands with
  | false => rfl
  | true => simp [Reserve.energyFile]

/-- With its file set up, a task holds what a reserved task does. -/
theorem custody_setUpTidFile {srv : Services} (succeed : FilesSucceed srv)
    (custody : Custody s.store born
      (Function.update held t ((s.reserve t).holdings s.utilKobj))) :
    Custody (s.setUpTidFile srv t).2.store born (Function.update held t
      (((s.setUpTidFile srv t).2.reserve t).tidFile s.utilKobj ++
        ((s.setUpTidFile srv t).2.reserve t).energyFile
          ((s.setUpTidFile srv t).2.reserve t).pidKobj)) := by
  rw [Kernel.setUpTidFile_eq succeed]
  split
  · rename_i sets
    simp only [Bool.and_eq_true, Bool.not_eq_true'] at sets
    have none : (s.reserve t).holdings s.utilKobj =
        (s.reserve t).energyFile (s.reserve t).pidKobj := by
      simp [Reserve.holdings, Reserve.tidFile, sets.2]
    rw [none] at custody
    have both := custody.alloc.alloc.part (List.Perm.swap ..).subperm
    simp only [Kernel.modify_reserve, Function.update_self, sets.1]
    exact both
  · rename_i kept
    have same : (s.utilKobj && (s.reserve t).flag) = s.utilKobj := by
      cases util : s.utilKobj with
      | false => rfl
      | true => simpa [util] using kept
    rwa [Reserve.holdings, same] at custody

/-- What a task holds besides is not affected by its energy file. -/
theorem custody_setUpEnergyFile {srv : Services} {present : Bool} (succeed : FilesSucceed srv)
    (custody : Custody s.store born (Function.update held t
      ((s.reserve t).tidFile present ++ (s.reserve t).energyFile (s.reserve t).pidKobj))) :
    Custody (s.setUpEnergyFile srv t).2.store born (Function.update held t
      (((s.setUpEnergyFile srv t).2.reserve t).tidFile present ++
        ((s.setUpEnergyFile srv t).2.reserve t).energyFile
          ((s.setUpEnergyFile srv t).2.reserve t).pidKobj)) := by
  rw [Kernel.setUpEnergyFile_eq succeed]
  split
  · rename_i sets
    simp only [Bool.and_eq_true, Bool.not_eq_true'] at sets
    have none : (s.reserve t).energyFile (s.reserve t).pidKobj = [] := by
      simp [Reserve.energyFile, sets.1.2]
    rw [none, List.append_nil] at custody
    -- The name of the directory is not kept.
    have attr := (custody.alloc.part (List.sublist_cons_self _ _).subperm).alloc
    simp only [Kernel.modify_reserve, Function.update_self]
    exact attr.part (List.perm_append_singleton _ _).subperm
  · split
    · rename_i removes
      simp only [Bool.and_eq_true, Bool.not_eq_true'] at removes
      have one : (s.reserve t).energyFile (s.reserve t).pidKobj = [(s.reserve t).energyAttr] := by
        simp [Reserve.energyFile, removes.2]
      rw [one] at custody
      have freed := custody.free (List.perm_append_singleton _ _).symm.subperm
      rw [← List.append_nil ((s.reserve t).tidFile present)] at freed
      simp only [Kernel.removeEnergyFile, Kernel.store_modify, Kernel.store_kfree,
        Kernel.modify_reserve, Kernel.reserve_kfree, Function.update_self]
      exact freed
    · exact custody

/-- A task that gives up its files keeps at most its energy file. -/
theorem custody_removeFiles
    (custody : Custody s.store born (Function.update held t
      (files ++ (s.reserve t).energyFile (s.reserve t).pidKobj)))
    (frees : s.store.freeAll (s.freed t) = s.store.freeAll
      (files ++ (s.reserve t).energyFile (s.tasksKobj && (s.reserve t).pidKobj))) :
    Custody ((s.removeTidFile t).dropEnergyFile t).store born (Function.update held t
      ((((s.removeTidFile t).dropEnergyFile t).reserve t).energyFile
        (((s.removeTidFile t).dropEnergyFile t).reserve t).pidKobj)) := by
  obtain ⟨tracking, reserve⟩ := Kernel.untrackIf_reserve (s.removeTidFile t) s.tasksKobj t
  have same : (s.removeTidFile t).reserve = s.reserve := by rw [Kernel.removeTidFile_eq]
  have tasks : (s.removeTidFile t).tasksKobj = s.tasksKobj := by rw [Kernel.removeTidFile_eq]
  rw [Kernel.removeFiles_store, frees, Kernel.dropEnergyFile_eq, tasks, reserve, same,
    Function.update_self]
  apply custody.freeAll
  rw [List.append_assoc, ← energyFile_split (s.reserve t) s.tasksKobj]
  exact .refl _

private theorem custody_untrackIf {demands : Bool}
    (custody : Custody s.store born (Function.update held t
      (files ++ (s.reserve t).energyFile (s.reserve t).pidKobj))) :
    Custody (s.untrackIf demands t).store born (Function.update held t
      (files ++ ((s.untrackIf demands t).reserve t).energyFile
        ((s.untrackIf demands t).reserve t).pidKobj)) := by
  obtain ⟨tracking, reserve⟩ := s.untrackIf_reserve demands t
  rw [Kernel.untrackIf_store, reserve, Function.update_self]
  apply custody.freeAll
  rw [← energyFile_split (s.reserve t) demands, ← List.append_assoc, ← List.append_assoc]
  exact (List.perm_append_comm.append_right _).subperm

end

/-! ## Every task -/

/-- The monitor and the tasks that live stay as they are. -/
structure Undisturbed (s s' : Kernel) : Prop where
  utilKobj : s'.utilKobj = s.utilKobj
  taskmonEnabled : s'.taskmonEnabled = s.taskmonEnabled
  exited : s'.exited = s.exited

/-- Neither does the memory change. -/
structure Quiet (s s' : Kernel) : Prop extends Undisturbed s s' where
  store : s'.store = s.store

theorem Undisturbed.trans {s'' : Kernel} (first : Undisturbed s s') (second : Undisturbed s' s'') :
    Undisturbed s s'' where
  utilKobj := second.utilKobj.trans first.utilKobj
  taskmonEnabled := second.taskmonEnabled.trans first.taskmonEnabled
  exited := second.exited.trans first.exited

theorem Undisturbed.monitor (undisturbed : Undisturbed s s') :
    s'.utilKobj = s.utilKobj ∧ s'.taskmonEnabled = s.taskmonEnabled :=
  ⟨undisturbed.utilKobj, undisturbed.taskmonEnabled⟩

theorem Changes.undisturbed {own : Reserve} (changes : Changes t own s s') : Undisturbed s s' := by
  rw [changes]
  exact ⟨rfl, rfl, rfl⟩

theorem Quiet.refl (s : Kernel) : Quiet s s :=
  ⟨⟨rfl, rfl, rfl⟩, rfl⟩

namespace Kernel

private theorem quiet_suspendTask (s : Kernel) (t : Tid) : Quiet s (s.suspendTask t) := by
  unfold suspendTask
  split
  · exact .refl s
  · exact ⟨⟨rfl, rfl, rfl⟩, rfl⟩

private theorem quiet_resumeTask (s : Kernel) (t : Tid) : Quiet s (s.resumeTask t) := by
  unfold resumeTask
  split
  · exact ⟨⟨rfl, rfl, rfl⟩, rfl⟩
  · exact .refl s

private theorem quiet_cTimerCallback (s : Kernel) (t : Tid) : Quiet s (s.cTimerCallback t) := by
  unfold cTimerCallback
  dsimp only
  split
  · obtain ⟨⟨util, enabled, exited⟩, store⟩ := quiet_suspendTask (s.modify t Reserve.ticked) t
    exact ⟨⟨util, enabled, exited⟩, store⟩
  · exact ⟨⟨rfl, rfl, rfl⟩, rfl⟩

private theorem quiet_endJob (s : Kernel) (t : Tid) : Quiet s (s.endJob t).2 := by
  unfold endJob
  split
  · exact quiet_suspendTask s t
  · exact .refl s

private theorem quiet_switchIn (s : Kernel) (t : Tid) : Quiet s (s.switchIn t) := by
  unfold switchIn
  split
  · exact ⟨⟨rfl, rfl, rfl⟩, rfl⟩
  · exact .refl s

private theorem quiet_switchOut (s : Kernel) (t : Tid) : Quiet s (s.switchOut t) := by
  unfold switchOut chargeRun stopBudget
  split
  · split
    · exact ⟨⟨rfl, rfl, rfl⟩, rfl⟩
    · exact ⟨⟨rfl, rfl, rfl⟩, rfl⟩
  · split
    · exact ⟨⟨rfl, rfl, rfl⟩, rfl⟩
    · exact ⟨⟨rfl, rfl, rfl⟩, rfl⟩

private theorem quiet_partitionPolicyStore (s : Kernel) (policy : PartitionPolicy) :
    Quiet s (s.partitionPolicyStore policy) := by
  unfold partitionPolicyStore
  split
  · exact ⟨⟨rfl, rfl, rfl⟩, rfl⟩
  · exact .refl s

private theorem undisturbed_dropStaleEnergyFile (s : Kernel) (t : Tid) :
    Undisturbed s (s.dropStaleEnergyFile t) := by
  obtain ⟨_, kept⟩ := files_dropStaleEnergyFile s t
  exact kept.changes.undisturbed

end Kernel

/-- Every task holds its files, and period timers run for reserved tasks only. -/
structure Kept (s : Kernel) (born : Tid → Addr) : Prop where
  custody : Custody s.store born s.holdings
  timers : ∀ t, (s.reserve t).pTimer = true → (s.reserve t).flag = true ∧ s.exited t = false

/-- What a task holds depends on its member alone while it lives. -/
theorem holdings_eq {own : Reserve} (replaced : s'.reserve = Function.update s.reserve t own)
    (undisturbed : Undisturbed s s') (live : s.exited t = false) :
    s'.holdings = Function.update s.holdings t (own.holdings s.utilKobj) := by
  funext other
  unfold Kernel.holdings
  rw [replaced, undisturbed.exited, undisturbed.utilKobj]
  rcases eq_or_ne other t with rfl | different
  · simp [live]
  · simp [different]

/-- A task has nothing under the `util` object to give up. -/
def Bare (s : Kernel) (t : Tid) : Prop :=
  s.utilKobj = false ∨ ((s.reserve t).tidAttrName = none ∧ (s.reserve t).periods = none)

private theorem Bare.freeAll_freed (bare : Bare s t) :
    s.store.freeAll (s.freed t) = s.store.freeAll
      ([] ++ (s.reserve t).energyFile (s.tasksKobj && (s.reserve t).pidKobj)) := by
  unfold Kernel.freed Reserve.tidFile
  rcases bare with absent | ⟨name, periods⟩
  · rw [absent]
    rfl
  · rw [name, periods]
    split
    · rfl
    · rfl

namespace Kept

theorem own (kept : Kept s born) (live : s.exited t = false) :
    Custody s.store born
      (Function.update s.holdings t ((s.reserve t).holdings s.utilKobj)) := by
  have same : (s.reserve t).holdings s.utilKobj = s.holdings t := by simp [Kernel.holdings, live]
  rw [same, Function.update_eq_self]
  exact kept.custody

/-- A step that replaces the member of one task, which lives. -/
theorem replace {own : Reserve} (kept : Kept s born) (live : s.exited t = false)
    (replaced : s'.reserve = Function.update s.reserve t own) (undisturbed : Undisturbed s s')
    (custody : Custody s'.store born (Function.update s.holdings t (own.holdings s.utilKobj)))
    (timer : own.pTimer = true → own.flag = true) : Kept s' born where
  custody := by rwa [holdings_eq replaced undisturbed live]
  timers := by
    rw [replaced, undisturbed.exited]
    intro other
    rcases eq_or_ne other t with rfl | different
    · rw [Function.update_self]
      exact fun on => ⟨timer on, live⟩
    · rw [Function.update_of_ne different]
      exact kept.timers other

theorem setReserve {srv : Services} {budget period : Option Timespec} {cpuid retval : ℤ}
    (kept : Kept s born) (live : s.exited t = false) (succeed : FilesSucceed srv)
    (returns : s.setReserve srv t budget period cpuid = .ok (retval, s')) : Kept s' born := by
  obtain ⟨own, result, changes⟩ := setReserve_changes returns
  refine kept.replace live changes.reserve_eq changes.undisturbed ?_ ?_
  · rw [← changes.own_eq]
    cases setReserve_effect returns with
    | rejected _ => exact kept.own live
    | refused _ _ rebinds =>
        rw [rebinds.touches.own_eq, rebinds.touches]
        exact kept.own live
    | undone _ touches _ =>
        rw [touches.own_eq, touches]
        exact kept.own live
    | failed _ fails _ _ _ _ _ _ => exact absurd succeed fails
    | @installed _ _ _ _ prepared _ _ _ _ touches _ commits =>
        have before : Custody prepared.store born
            (Function.update s.holdings t ((prepared.reserve t).holdings prepared.utilKobj)) := by
          rw [touches.own_eq, touches]
          exact kept.own live
        have filed := custody_setUpEnergyFile succeed (custody_setUpTidFile succeed before)
        have prepares : prepared.utilKobj = s.utilKobj := by rw [touches]
        have committed := commit_changes commits
        rw [committed.own_eq, commit_eq commits]
        rw [prepares, ← Bool.and_true s.utilKobj] at filed
        exact filed
  · have timer := kept.timers t
    cases result with
    | refused _ _ => exact fun on => (timer on).1
    | undone _ _ => exact fun on => (timer on).1
    | failed _ fails _ _ _ => exact absurd succeed fails
    | installed _ _ _ => exact fun _ => rfl

/-- A task that is not reserved gives up its files. -/
theorem removeFiles {held : Tid → List (Option Addr)} {files : List (Option Addr)}
    (flag : (s.reserve t).flag = false)
    (custody : Custody s.store born (Function.update held t
      (files ++ (s.reserve t).energyFile (s.reserve t).pidKobj)))
    (frees : s.store.freeAll (s.freed t) = s.store.freeAll
      (files ++ (s.reserve t).energyFile (s.tasksKobj && (s.reserve t).pidKobj)))
    (finishes : sysclockSetFrequency ((s.removeTidFile t).dropEnergyFile t) = .ok s') :
    Custody s'.store born (Function.update held t ((s'.reserve t).holdings s.utilKobj)) := by
  have unreserved : (((s.removeTidFile t).dropEnergyFile t).reserve t).flag = false := by
    obtain ⟨_, unnamed⟩ := Kernel.files_removeTidFile s t
    obtain ⟨_, unfiled⟩ := Kernel.files_dropEnergyFile (s.removeTidFile t) t
    rw [(unnamed.trans unfiled).own_eq]
    exact flag
  rw [Kernel.sysclockSetFrequency_eq finishes, Reserve.holdings]
  simp only [unreserved, Bool.and_false]
  exact custody_removeFiles custody frees

theorem cancelReserve {srv : Services} {retval : ℤ} (kept : Kept s born)
    (live : s.exited t = false) (bare : (s.reserve t).flag = false → Bare s t)
    (returns : s.cancelReserve srv t = .ok (retval, s')) : Kept s' born := by
  obtain ⟨own, result, changes⟩ := cancelReserve_changes returns
  refine kept.replace live changes.reserve_eq changes.undisturbed ?_ ?_
  · rw [← changes.own_eq]
    cases cancelReserve_effect returns with
    | missing _ => exact kept.own live
    | refused _ _ _ =>
        rw [Kernel.stopTimers, Kernel.modify_reserve, Function.update_self]
        exact kept.own live
    | idle _ flag finishes =>
        have own := kept.own live
        simp only [Reserve.holdings, flag, Bool.and_false] at own
        exact removeFiles flag own (bare flag).freeAll_freed finishes
    | @released released _ _ flag _ releases finishes =>
        have own := kept.own live
        simp only [Reserve.holdings, flag, Bool.and_true] at own
        have touches : Touches t (s.reserve t).cancelled s released :=
          Touches.andThen id (.modify s t _) (release_touches releases).1
        have before : Custody released.store born (Function.update s.holdings t
            ((released.reserve t).tidFile released.utilKobj ++
              (released.reserve t).energyFile (released.reserve t).pidKobj)) := by
          rw [touches.own_eq, touches]
          exact own
        have unreserved : (released.reserve t).flag = false := by
          rw [touches.own_eq]
          rfl
        have gone := removeFiles unreserved before rfl finishes
        rwa [show released.utilKobj = s.utilKobj by rw [touches]] at gone
  · have timer := kept.timers t
    cases result with
    | missing _ => exact fun on => (timer on).1
    | refused _ _ _ => exact Bool.noConfusion
    | idle _ _ _ => exact fun on => (timer on).1
    | released _ _ _ _ => exact Bool.noConfusion

/-- A task that exits holds nothing any more. -/
theorem doExit {srv : Services} (kept : Kept s born) (live : s.exited t = false)
    (returns : s.doExit srv t = .ok s') : Kept s' born := by
  obtain ⟨own, released, result, changes, isExited⟩ := doExit_changes returns
  have reserve : s'.reserve = Function.update s.reserve t own := by
    rw [isExited]
    exact changes.reserve_eq
  have exited : s'.exited = Function.update s.exited t true := by rw [isExited]
  have util : s'.utilKobj = s.utilKobj := by rw [isExited, changes]
  have holdings : s'.holdings = Function.update s.holdings t [] := by
    funext other
    unfold Kernel.holdings
    rw [reserve, exited, util]
    rcases eq_or_ne other t with rfl | different
    · simp
    · simp [different]
  constructor
  · rw [holdings]
    obtain ⟨_, effect, rfl⟩ := doExit_effect returns
    cases effect with
    | idle _ => exact (kept.own live).part (List.nil_subperm)
    | released flag isFiled releases =>
        have own := kept.own live
        simp only [Reserve.holdings, flag, Bool.and_true] at own
        have before : Custody (s.stopTimers t).store born (Function.update s.holdings t
            (((s.stopTimers t).reserve t).tidFile s.utilKobj ++
              ((s.stopTimers t).reserve t).energyFile ((s.stopTimers t).reserve t).pidKobj)) := by
          rw [Kernel.stopTimers, Kernel.modify_reserve, Function.update_self]
          exact own
        have gone := (custody_removeFiles before rfl).part List.nil_subperm
        rw [← isFiled] at gone
        rw [(release_touches releases).1]
        exact gone
  · intro other
    rw [reserve, exited]
    rcases eq_or_ne other t with rfl | different
    · rw [Function.update_self]
      intro on
      cases result with
      | idle flag =>
          have reserved := (kept.timers other on).1
          simp [flag] at reserved
      | released _ _ => cases on
    · rw [Function.update_of_ne different, Function.update_of_ne different]
      exact kept.timers other

/-- A step that leaves the memory and the files of the tasks alone. -/
theorem same {own : Reserve} (kept : Kept s born)
    (replaced : s'.reserve = Function.update s.reserve t own) (quiet : Quiet s s')
    (holdings : ∀ util, own.holdings util = (s.reserve t).holdings util)
    (flag : own.flag = (s.reserve t).flag) (timer : own.pTimer = (s.reserve t).pTimer) :
    Kept s' born := by
  have unchanged : s'.holdings = s.holdings := by
    funext other
    unfold Kernel.holdings
    rw [replaced, quiet.exited, quiet.utilKobj]
    rcases eq_or_ne other t with rfl | different
    · rw [Function.update_self, holdings]
    · rw [Function.update_of_ne different]
  constructor
  · rw [quiet.store, unchanged]
    exact kept.custody
  · intro other
    rw [replaced, quiet.exited]
    rcases eq_or_ne other t with rfl | different
    · rw [Function.update_self, flag, timer]
      exact kept.timers other
    · rw [Function.update_of_ne different]
      exact kept.timers other

theorem dropStaleEnergyFile (kept : Kept s born) (live : s.exited t = false) :
    Kept (s.dropStaleEnergyFile t) born := by
  obtain ⟨_, replaced⟩ := s.untrackIf_reserve (!s.rtesKobj) t
  refine kept.replace live replaced (s.undisturbed_dropStaleEnergyFile t) ?_
    fun on => (kept.timers t on).1
  have own : Custody (s.untrackIf (!s.rtesKobj) t).store born _ :=
    custody_untrackIf (kept.own live)
  rw [replaced, Function.update_self] at own
  exact own

theorem pTimer {freq : Cpu → ℕ} (kept : Kept s born) (fires : (s.reserve t).pTimer = true)
    (returns : s.pTimerCallback freq t = .ok s') : Kept s' born := by
  obtain ⟨_, live⟩ := kept.timers t fires
  obtain ⟨cpuFreq, ring, enabled, rfl⟩ := pTimerCallback_eq returns
  have marked : Kept (Kernel.modify { s with cpuFreq := cpuFreq } t fun reserve =>
      { reserve with acc := ⟨0, 0⟩, taskmonEnabled := enabled, ring := ring }) born :=
    kept.same rfl ⟨⟨rfl, rfl, rfl⟩, rfl⟩ (fun _ => rfl) rfl rfl
  have dropped := marked.dropStaleEnergyFile live
  exact dropped.same (resumeTask_reserve _ t) (Kernel.quiet_resumeTask _ t) (fun _ => rfl) rfl rfl

end Kept

/-! ## Every step -/

/-- Calls name tasks that have not exited and can set up their files; a task that
is not reserved has nothing to give up; timers fire while they run; a task with
an energy file does not fork; and the module is loaded while no task is
reserved. -/
def Proper (s : Kernel) : SystemOp → Prop
  | .core (.setReserve srv t _ _ _) => (s.found t = true → s.exited t = false) ∧ FilesSucceed srv
  | .core (.cancelReserve _ t) => (s.found t = true → s.exited t = false) ∧
      ((s.reserve t).flag = false → Bare s t)
  | .core (.doExit _ t) => s.exited t = false
  | .core (.pTimer _ t) => (s.reserve t).pTimer = true
  | .fork parent _ _ => (s.reserve parent).pidKobj = false
  | .taskmonInit _ => ∀ t, s.exited t = false → (s.reserve t).flag = false
  | _ => True

/-- The address from which on objects were allocated after each task was
forked. -/
def births (s : Kernel) (op : SystemOp) (s' : Kernel) (born : Tid → Addr) : Tid → Addr :=
  match op with
  | .fork _ child _ =>
      if !s.found child && s'.found child then Function.update born child s.nextAddr else born
  | _ => born

/-- What a step writes to or frees was allocated for the task it names, since that
task was forked, and not freed yet. -/
def Sound (s : Kernel) (born : Tid → Addr) : SystemOp → Prop
  | .core (.pTimer _ t) => s.taskmonEnabled = true →
      ∃ addr, (s.reserve t).periods = some addr ∧ s.store.Owns (born t) t addr
  | .core (.cancelReserve srv t) => s.found t = true →
      ((s.reserve t).flag = true → srv.schedSetaffinity = true) →
      s.store.FreesOwned (born t) t (s.freed t)
  | .core (.doExit _ t) => (s.reserve t).flag = true → s.store.FreesOwned (born t) t (s.freed t)
  | _ => True

theorem Kept.step {op : Op} (kept : Kept s born) (proper : Proper s (.core op))
    (taken : Reservation.step s op = .ok s') : Kept s' born := by
  cases op with
  | setReserve srv t budget period cpuid =>
      obtain ⟨⟨retval, target⟩, returns, result⟩ := bind_eq_ok_iff.mp taken
      cases result
      cases found : s.found t with
      | false => rwa [setReserve_missing found returns]
      | true => exact kept.setReserve (proper.1 found) proper.2 returns
  | cancelReserve srv t =>
      obtain ⟨⟨retval, target⟩, returns, result⟩ := bind_eq_ok_iff.mp taken
      cases result
      cases found : s.found t with
      | false =>
          cases cancelReserve_effect returns with
          | missing _ => exact kept
          | refused present => simp [found] at present
          | idle present => simp [found] at present
          | released present => simp [found] at present
      | true => exact kept.cancelReserve (proper.1 found) proper.2 returns
  | doExit srv t => exact kept.doExit proper taken
  | endJob t =>
      cases taken
      exact kept.same (endJob_reserve s t) (Kernel.quiet_endJob s t) (fun _ => rfl) rfl rfl
  | cTimer t =>
      cases taken
      exact kept.same (cTimerCallback_reserve s t) (Kernel.quiet_cTimerCallback s t) (fun _ => rfl)
        rfl rfl
  | pTimer freq t => exact kept.pTimer proper taken
  | switchOut t =>
      cases taken
      obtain ⟨_, replaced⟩ := switchOut_reserve s t
      exact kept.same replaced (Kernel.quiet_switchOut s t) (fun _ => rfl) rfl rfl
  | switchIn t =>
      cases taken
      exact kept.same (switchIn_reserve s t) (Kernel.quiet_switchIn s t) (fun _ => rfl) rfl rfl
  | setPolicy policy =>
      obtain ⟨t, own, result, replaced⟩ := step_own taken
      cases result
      cases taken
      exact kept.same replaced (Kernel.quiet_partitionPolicyStore s policy) (fun _ => rfl) rfl rfl

/-- A forked task holds nothing. -/
theorem Kept.fork {parent child : Tid} {leader : Bool} (kept : Kept s born)
    (bare : (s.reserve parent).pidKobj = false) :
    Kept (s.fork parent child leader) (Function.update born child s.nextAddr) := by
  have holdings : (s.fork parent child leader).holdings =
      Function.update s.holdings child [] := by
    funext other
    unfold Kernel.holdings Kernel.fork
    rcases eq_or_ne other child with rfl | different
    · simp [Reserve.holdings, Reserve.tidFile, Reserve.energyFile, bare]
    · simp [different]
  constructor
  · rw [holdings]
    apply Custody.restart
    · have own := kept.custody
      rw [← Function.update_eq_self child s.holdings] at own
      exact own.part List.nil_subperm
    · rw [Function.update_self]
  · intro other
    rcases eq_or_ne other child with rfl | different
    · simp [Kernel.fork]
    · simp only [Kernel.fork, Function.update_of_ne different]
      exact kept.timers other

/-- The monitor uses the buffers while its module is loaded only. -/
structure Guarded (system : System) (born : Tid → Addr) : Prop where
  kept : Kept system.kernel born
  enabled : system.kernel.taskmonEnabled = true → system.taskmonLoaded = true
  loaded : system.taskmonLoaded = true → system.kernel.utilKobj = true

private theorem taskmonInit_disabled {srv : TaskmonServices} (disabled : s.taskmonEnabled = false) :
    (s.taskmonInit srv).2.taskmonEnabled = false := by
  unfold Kernel.taskmonInit
  dsimp only
  split_ifs
  · exact disabled
  · exact disabled
  · exact disabled
  · split
    · exact disabled
    · rfl

private theorem taskmonInit_loaded {srv : TaskmonServices} (succeeds : (s.taskmonInit srv).1 = 0) :
    (s.taskmonInit srv).2.utilKobj = true := by
  unfold Kernel.taskmonInit at succeeds ⊢
  dsimp only at succeeds ⊢
  split_ifs at succeeds ⊢ with _ second _
  · cases succeeds
  · cases succeeds
  · cases succeeds
  · have util : srv.utilKobj = true := by
      by_contra absent
      simp [absent] at second
    split
    · exact util
    · exact util

private theorem pTimerCallback_undisturbed {freq : Cpu → ℕ}
    (returns : s.pTimerCallback freq t = .ok s') : Undisturbed s s' := by
  obtain ⟨cpuFreq, ring, enabled, rfl⟩ := pTimerCallback_eq returns
  refine Undisturbed.trans ?_ (Kernel.quiet_resumeTask _ t).toUndisturbed
  refine Undisturbed.trans ?_ (Kernel.undisturbed_dropStaleEnergyFile _ t)
  exact ⟨rfl, rfl, rfl⟩

/-- The monitor is not affected by the operations on reservations. -/
theorem step_monitor {op : Op} (taken : step s op = .ok s') :
    s'.utilKobj = s.utilKobj ∧ s'.taskmonEnabled = s.taskmonEnabled := by
  cases op with
  | setReserve srv t budget period cpuid =>
      obtain ⟨⟨retval, target⟩, returns, result⟩ := bind_eq_ok_iff.mp taken
      cases result
      obtain ⟨_, _, changes⟩ := setReserve_changes returns
      exact changes.undisturbed.monitor
  | cancelReserve srv t =>
      obtain ⟨⟨retval, target⟩, returns, result⟩ := bind_eq_ok_iff.mp taken
      cases result
      obtain ⟨_, _, changes⟩ := cancelReserve_changes returns
      exact changes.undisturbed.monitor
  | doExit srv t =>
      obtain ⟨_, _, _, changes, rfl⟩ := doExit_changes taken
      exact changes.undisturbed.monitor
  | endJob t =>
      cases taken
      exact (Kernel.quiet_endJob s t).monitor
  | cTimer t =>
      cases taken
      exact (Kernel.quiet_cTimerCallback s t).monitor
  | pTimer freq t => exact (pTimerCallback_undisturbed taken).monitor
  | switchOut t =>
      cases taken
      exact (Kernel.quiet_switchOut s t).monitor
  | switchIn t =>
      cases taken
      exact (Kernel.quiet_switchIn s t).monitor
  | setPolicy policy =>
      cases taken
      exact (Kernel.quiet_partitionPolicyStore s policy).monitor

/-- The monitor module allocates nothing and frees nothing. -/
theorem Kept.of_monitors (kept : Kept s born) (monitors : Monitors s s')
    (parts : ∀ t, (s'.holdings t).Subperm (s.holdings t)) : Kept s' born := by
  have custody := kept.custody.mono parts
  constructor
  · rw [show s'.store = s.store by rw [monitors]; rfl]
    exact custody
  · rw [monitors]
    exact kept.timers

/-- Without the module, a task holds its energy file at most. -/
theorem holdings_taskmonExit (s : Kernel) (t : Tid) :
    (s.taskmonExit.holdings t).Sublist (s.holdings t) := by
  unfold Kernel.taskmonExit Kernel.holdings Reserve.holdings
  dsimp only
  split
  · exact .refl _
  · exact List.sublist_append_right _ _

/-- For a task without reservation the module makes no difference. -/
theorem holdings_of_unreserved (monitors : Monitors s s')
    (unreserved : s.exited t = false → (s.reserve t).flag = false) :
    s'.holdings t = s.holdings t := by
  unfold Kernel.holdings Reserve.holdings
  rw [monitors]
  split
  · rfl
  · rename_i live
    rw [unreserved (by simpa using live), Bool.and_false, Bool.and_false]

private theorem births_idle {op : SystemOp} : births s op s born = born := by
  cases op with
  | fork parent child leader => simp [births]
  | _ => rfl

theorem Guarded.step {system system' : System} {op : SystemOp} (guarded : Guarded system born)
    (proper : Proper system.kernel op) (taken : systemStep system op = .ok system') :
    Guarded system' (births system.kernel op system'.kernel born) := by
  obtain ⟨kept, enabled, loaded⟩ := guarded
  cases systemStep_effect taken with
  | idle _ =>
      rw [births_idle]
      exact ⟨kept, enabled, loaded⟩
  | core steps =>
      obtain ⟨util, monitor⟩ := step_monitor steps
      refine ⟨kept.step proper steps, ?_, ?_⟩
      · rw [monitor]
        exact enabled
      · rw [util]
        exact loaded
  | @forked parent child leader _ _ free =>
      have happens : (!system.kernel.found child &&
          (system.kernel.fork parent child leader).found child) = true := by
        simp [free, Kernel.fork]
      rw [births, if_pos happens]
      exact ⟨kept.fork proper, enabled, loaded⟩
  | reaped _ => exact ⟨⟨kept.custody, kept.timers⟩, enabled, loaded⟩
  | @loaded srv absent =>
      have monitors := monitors_taskmonInit srv system.kernel
      refine ⟨kept.of_monitors monitors fun t => ?_, fun on => ?_, fun zero => ?_⟩
      · rw [holdings_of_unreserved monitors (proper t)]
      · have disabled : system.kernel.taskmonEnabled = false := by
          by_contra on
          simp [absent] at enabled
          simp [enabled] at on
        simp [taskmonInit_disabled disabled] at on
      · exact taskmonInit_loaded (by simpa using zero)
  | unloaded _ =>
      exact ⟨kept.of_monitors rfl fun t => (holdings_taskmonExit _ t).subperm, nofun, nofun⟩
  | enabled present => exact ⟨⟨kept.custody, kept.timers⟩, fun _ => present, loaded⟩
  | tracked _ => exact ⟨⟨kept.custody, kept.timers⟩, enabled, loaded⟩

/-- A reserved task that lives holds what it frees. -/
theorem Kept.freesOwned (kept : Kept s born) (live : s.exited t = false)
    (flag : (s.reserve t).flag = true) : s.store.FreesOwned (born t) t (s.freed t) := by
  have own := (kept.own live).own
  rw [Reserve.holdings, flag, Bool.and_true] at own
  refine (own.subperm ?_).freesOwned
  apply List.Sublist.subperm
  refine (List.Sublist.refl _).append ?_
  rw [← energyFile_split (s.reserve t) s.tasksKobj]
  exact List.sublist_append_left _ _

private theorem Kept.freesOwned_of_bare (kept : Kept s born) (live : s.exited t = false)
    (flag : (s.reserve t).flag = false) (bare : Bare s t) :
    s.store.FreesOwned (born t) t (s.freed t) := by
  have own := (kept.own live).own
  rw [Reserve.holdings, flag, Bool.and_false, ← energyFile_split (s.reserve t) s.tasksKobj] at own
  have energy := (own.subperm
    ((List.sublist_append_left _ _).trans (List.sublist_append_right _ _)).subperm).freesOwned
  unfold Kernel.freed Reserve.tidFile
  rcases bare with absent | ⟨name, periods⟩
  · rw [absent]
    exact energy
  · rw [name, periods]
    split
    · exact ⟨nofun, nofun, energy⟩
    · exact energy

/-- A proper step is sound. -/
theorem Guarded.sound {system : System} {op : SystemOp} (guarded : Guarded system born)
    (proper : Proper system.kernel op) : Sound system.kernel born op := by
  obtain ⟨kept, enabled, loaded⟩ := guarded
  cases op with
  | core op =>
      cases op with
      | pTimer freq t =>
          intro on
          obtain ⟨flag, live⟩ := kept.timers t proper
          have own := (kept.own live).own
          rw [Reserve.holdings, flag, loaded (enabled on)] at own
          exact own.owned _ (by simp [Reserve.tidFile])
      | cancelReserve srv t =>
          intro found _
          cases flag : (system.kernel.reserve t).flag with
          | true => exact kept.freesOwned (proper.1 found) flag
          | false => exact kept.freesOwned_of_bare (proper.1 found) flag (proper.2 flag)
      | doExit srv t => exact kept.freesOwned proper
      | _ => trivial
  | _ => trivial

/-! ## Every run -/

/-- The system, with the births of the tasks recorded beside it. -/
def bornStep : System × (Tid → Addr) → SystemOp → Except Fault (System × (Tid → Addr)) :=
  observe systemStep fun system op system' => births system.kernel op system'.kernel

/-- Nothing is allocated, and the monitor module is not loaded. -/
structure Unallocated (now : System × (Tid → Addr)) : Prop where
  boot : Boot now.1.kernel
  allocated : ∀ addr, now.1.kernel.allocated addr = none
  energy : ∀ t, (now.1.kernel.reserve t).pidKobj = false
  loaded : now.1.taskmonLoaded = false
  enabled : now.1.kernel.taskmonEnabled = false
  born : ∀ t, now.2 t ≤ now.1.kernel.nextAddr

theorem Unallocated.guarded {now : System × (Tid → Addr)} (unallocated : Unallocated now) :
    Guarded now.1 now.2 := by
  obtain ⟨boot, allocated, energy, loaded, enabled, born⟩ := unallocated
  refine ⟨⟨⟨?_, born, ?_⟩, ?_⟩, ?_, ?_⟩
  · exact fun addr live => absurd (allocated addr) live
  · intro t
    have nothing : now.1.kernel.holdings t = [] := by
      simp [Kernel.holdings, Reserve.holdings, Reserve.tidFile, Reserve.energyFile, energy t,
        (boot.reserve t).1]
    rw [nothing]
    exact .nil ..
  · intro t on
    simp [(boot.reserve t).2.2.2] at on
  · simp [enabled]
  · simp [loaded]

/-- All objects and files of the monitor module can be created. -/
def TaskmonServices.succeed : TaskmonServices where
  rtesKobj := true
  taskmonKobj := true
  utilKobj := true
  configKobj := true
  tasksKobj := true
  sysfsCreateFile := List.replicate 7 0

/-- The only task. -/
def loneTask : System × (Tid → Addr) :=
  (⟨{ Kernel.bare with found := fun t => t == 1 }, false, false⟩, fun _ => 0)

private theorem unallocated_loneTask : Unallocated loneTask :=
  ⟨⟨boot_bare.table, boot_bare.reserve, rfl⟩, fun _ => rfl, fun _ => rfl, rfl, rfl,
    fun _ => le_rfl⟩

/-- The task is given a reservation while the module is loaded. -/
def monitoredTask : System × (Tid → Addr) :=
  after bornStep (after bornStep loneTask (.taskmonInit .succeed))
    (.core (reserveMillis 1 1 10 0))

private theorem reaches_monitoredTask {allowed : System × (Tid → Addr) → SystemOp → Prop}
    (loads : allowed loneTask (.taskmonInit .succeed))
    (reserves : allowed (after bornStep loneTask (.taskmonInit .succeed))
      (.core (reserveMillis 1 1 10 0))) :
    Reaches bornStep allowed Unallocated monitoredTask := by
  have start : Reaches bornStep allowed Unallocated loneTask := .start unallocated_loneTask
  exact (start.after loads (by decide)).after reserves (by decide)

/-- A task forks, and the child frees the buffers of its parent. -/
theorem reaches_not_sound :
    ∃ now op, Reaches bornStep (fun _ _ => True) Unallocated now ∧
      ¬ Sound now.1.kernel now.2 op := by
  let forked := after bornStep monitoredTask (.fork 1 2 true)
  have reached : Reaches bornStep (fun _ _ => True) Unallocated forked :=
    (reaches_monitoredTask trivial trivial).after trivial (by decide)
  refine ⟨forked, .core (.cancelReserve .succeed 2), reached, ?_⟩
  intro sound
  have frees := (sound (by decide) (by decide)).1
  have owned : some 1 = some 2 := (frees 0 (by decide)).1
  cases owned

/-- In every run of proper steps, every further proper step is sound: what the
period timer writes to, and what a cancellation or an exit frees, was allocated
for the task itself and not freed yet. -/
theorem reaches_sound {now : System × (Tid → Addr)}
    (reached : Reaches bornStep (fun now => Proper now.1.kernel) Unallocated now)
    {op : SystemOp} (proper : Proper now.1.kernel op) : Sound now.1.kernel now.2 op := by
  have guarded : Guarded now.1 now.2 := by
    apply reached.observed
    · exact fun now unallocated => unallocated.guarded
    · intro now op target guarded proper taken
      exact guarded.step proper taken
  exact guarded.sound proper

/-- The task cancels its reservation and frees two buffers. -/
theorem reaches_sound_monitored :
    monitoredTask.1.kernel.freed 1 = [some 0, some 1] ∧
      Sound monitoredTask.1.kernel monitoredTask.2 (.core (.cancelReserve .succeed 1)) := by
  refine ⟨by decide, reaches_sound (reaches_monitoredTask (fun _ _ => rfl) ⟨?_, ?_⟩) ⟨?_, ?_⟩⟩
  · decide
  · exact ⟨rfl, rfl, rfl, rfl, rfl, rfl, rfl⟩
  · decide
  · intro unreserved
    exact absurd unreserved (by decide)

end Rtes.Reservation
