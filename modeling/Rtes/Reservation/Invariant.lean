import Rtes.Reservation.Frame
import Rtes.Reservation.Table

/-!
# The table along every run

The kernel is consistent when its table represents the placement that the tasks
themselves record: a live reserved task is on the CPU stored in it.
-/

namespace Rtes.Reservation

open Rtes.RateMonotonic Rtes.Slots Rtes.Transition Rtes.Word

/-! ## Consistency -/

/-- Where the tasks record that they are. -/
def Kernel.placement (s : Kernel) : Placement := fun t =>
  if s.exited t then none
  else if (s.reserve t).flag then some (s.reserve t).cpu
  else none

/-- The table represents the recorded placement, and every task that had to be
put back was. -/
structure Consistent (s : Kernel) : Prop where
  represents : Represents s.reserve s.table s.placement
  rollbacks : ∀ value ∈ s.rollbacks, value = 0

variable {s s' : Kernel} {t : Tid}

theorem Frame.params (frame : Frame Kernel.placing s s') (t : Tid) :
    (s'.reserve t).params = (s.reserve t).params :=
  congrArg Placing.params (frame.view t)

theorem Frame.flag (frame : Frame Kernel.placing s s') (t : Tid) :
    (s'.reserve t).flag = (s.reserve t).flag :=
  congrArg Placing.flag (frame.view t)

theorem Frame.cpu (frame : Frame Kernel.placing s s') (t : Tid) :
    (s'.reserve t).cpu = (s.reserve t).cpu :=
  congrArg Placing.cpu (frame.view t)

theorem Frame.placement (frame : Frame Kernel.placing s s') : s'.placement = s.placement := by
  funext t
  simp only [Kernel.placement, frame.exited, frame.flag, frame.cpu]

theorem Represents.of_frame {placement : Placement} (frame : Frame Kernel.placing s s')
    (represents : Represents s.reserve s.table placement) :
    Represents s'.reserve s'.table placement := by
  rw [frame.table]
  exact represents.congr fun t _ => frame.params t

theorem Consistent.of_frame (consistent : Consistent s) (frame : Frame Kernel.placing s s') :
    Consistent s' where
  represents := by
    rw [frame.placement]
    exact consistent.represents.of_frame frame
  rollbacks := by
    rw [frame.rollbacks]
    exact consistent.rollbacks

@[simp]
theorem placement_reserved (live : s.exited t = false) (flag : (s.reserve t).flag = true) :
    s.placement t = some (s.reserve t).cpu := by
  simp [Kernel.placement, live, flag]

@[simp]
theorem placement_unreserved (flag : (s.reserve t).flag = false) : s.placement t = none := by
  simp [Kernel.placement, flag]

/-! ## Parameters -/

/-- Budget and period of a call in milliseconds: `1 ≤ C ≤ T ≤ 60000`. -/
structure ValidTimes (C T : Timespec) : Prop where
  budget_pos : 1 ≤ C.millis
  budget_le : C.millis ≤ T.millis
  period_le : T.millis ≤ 60000

theorem paramsOf_valid {C T : Timespec} (valid : ValidTimes C T) :
    paramsOf C T = .ok ⟨T.millis, C.millis, (share ⟨C.millis.toNat, T.millis.toNat⟩ : ℕ)⟩ := by
  obtain ⟨positive, order, bounded⟩ := valid
  have nonzero : T.millis ≠ 0 := by omega
  have small : int32 (C.millis * utilMultiple) = C.millis * 10000 :=
    int32_eq_self (by unfold utilMultiple; omega) (by unfold utilMultiple; omega)
  have quotient : (C.millis * 10000).tdiv T.millis =
      (share ⟨C.millis.toNat, T.millis.toNat⟩ : ℕ) := by
    rw [Int.tdiv_eq_ediv_of_nonneg (by omega), share, Int.natCast_ediv, Nat.cast_mul,
      Int.toNat_of_nonneg (by omega), Int.toNat_of_nonneg (by omega)]
    rfl
  have bound : share ⟨C.millis.toNat, T.millis.toNat⟩ ≤ 600000000 :=
    share_small (by simp only; omega)
  rw [paramsOf, if_neg nonzero, small, quotient, int32_natCast (by omega)]

theorem inRange_paramsOf {C T : Timespec} {params : Params} (valid : ValidTimes C T)
    (returns : paramsOf C T = .ok params) (reserve : Reserve) :
    InRange (reserve.withParams params) := by
  rw [paramsOf_valid valid] at returns
  cases returns
  obtain ⟨positive, order, bounded⟩ := valid
  exact ⟨positive, order.trans bounded, positive.trans order, bounded, rfl⟩

/-! ## Binding and rolling back -/

/-- What a call that fails must leave alone in a task. -/
structure Holding where
  flag : Bool
  cpu : Cpu
  C : Timespec
  T : Timespec
  cTimer : Bool
  pTimer : Bool

def Reserve.holding (reserve : Reserve) : Holding where
  flag := reserve.flag
  cpu := reserve.cpu
  C := reserve.C
  T := reserve.T
  cTimer := reserve.cTimer
  pTimer := reserve.pTimer

/-- The task, taken out where it was placed before, was bound to a CPU with new
parameters; nothing else happened. -/
structure Assigned (s : Kernel) (t : Tid) (params : Params) (cpu : Cpu) (s' : Kernel) :
    Prop where
  bound : ∃ free : Table, Represents s'.reserve free (Function.update s.placement t none) ∧
    (∀ other, (free other).cpuOpen = (s.table other).cpuOpen) ∧
    free.tryBind s'.reserve t cpu = .ok (0, s'.table)
  reserve : s'.reserve = Function.update s.reserve t ((s.reserve t).withParams params)
  exited : s'.exited = s.exited
  rollbacks : s'.rollbacks = s.rollbacks

theorem Assigned.flag_eq {params : Params} {cpu : Cpu} (assigned : Assigned s t params cpu s') :
    (s'.reserve t).flag = (s.reserve t).flag := by
  rw [assigned.reserve, Function.update_self]
  rfl

/-- With parameters in range the placement is extended. -/
theorem Assigned.represents {params : Params} {cpu : Cpu} (assigned : Assigned s t params cpu s')
    (range : InRange ((s.reserve t).withParams params)) :
    Represents s'.reserve s'.table (Function.update s.placement t (some cpu)) := by
  obtain ⟨free, represents, _, binds⟩ := assigned.bound
  have gone : Function.update s.placement t none t = none := by rw [Function.update_self]
  have rangeNew : InRange (s'.reserve t) := by
    rwa [assigned.reserve, Function.update_self]
  have bound := represents.bound gone rangeNew binds
  rwa [Function.update_idem] at bound

/-- The binding can be taken out again. -/
theorem Assigned.takeOut {params : Params} {cpu : Cpu} (assigned : Assigned s t params cpu s') :
    ∃ taken, Reservation.takeOut s'.table (some cpu) cpu t (s'.reserve t).util = .ok taken ∧
      Represents s'.reserve taken (Function.update s.placement t none) ∧
      ∀ other, (taken other).cpuOpen = (s.table other).cpuOpen := by
  obtain ⟨free, represents, opens, binds⟩ := assigned.bound
  have absent : t ∉ (free cpu).entries := by
    simp [represents.mem_iff]
  obtain ⟨taken, takes, same⟩ := takeOut_bound represents.exact absent binds
  exact ⟨taken, takes, represents.of_sameTable same,
    fun other => (same other).cpuOpen.trans (opens other)⟩

/-- Whatever was done to the table is undone. -/
structure Restored (s s' : Kernel) : Prop where
  represents : Represents s'.reserve s'.table s.placement
  exited : s'.exited = s.exited
  rollbacks : ∀ value ∈ s'.rollbacks, value ∈ s.rollbacks ∨ value = 0
  cpuOpen : ∀ cpu, (s'.table cpu).cpuOpen = (s.table cpu).cpuOpen
  holding : ∀ t, (s'.reserve t).holding = (s.reserve t).holding
  params : ∀ t, (s.reserve t).flag = true → (s'.reserve t).params = (s.reserve t).params

theorem Restored.placement (restored : Restored s s') : s'.placement = s.placement := by
  funext t
  have flag : (s'.reserve t).flag = (s.reserve t).flag :=
    congrArg Holding.flag (restored.holding t)
  have cpu : (s'.reserve t).cpu = (s.reserve t).cpu := congrArg Holding.cpu (restored.holding t)
  simp only [Kernel.placement, restored.exited, flag, cpu]

/-- The restored table is the same up to the order of equal periods. -/
theorem Restored.sameTasks (before : Represents s.reserve s.table s.placement)
    (restored : Restored s s') (cpu : Cpu) : SameTasks s.reserve (s.table cpu) (s'.table cpu) := by
  have represents : Represents s.reserve s'.table s.placement := by
    apply restored.represents.congr
    intro t placed
    refine (restored.params t ?_).symm
    by_contra unreserved
    exact placed (placement_unreserved (by simpa using unreserved))
  exact before.sameTasks represents cpu

private theorem Consistent.of_restored (consistent : Consistent s) (restored : Restored s s') :
    Consistent s' where
  represents := by
    rw [restored.placement]
    exact restored.represents
  rollbacks := by
    intro value member
    rcases restored.rollbacks value member with old | zero
    · exact consistent.rollbacks value old
    · exact zero

private theorem params_update {reserve : Tid → Reserve} {t other : Tid} {params : Params}
    (different : other ≠ t) :
    (Function.update reserve t ((reserve t).withParams params) other).params =
      (reserve other).params := by
  rw [Function.update_of_ne different]

private theorem holding_update (reserve : Tid → Reserve) (t : Tid) (params : Params) (other : Tid) :
    (Function.update reserve t ((reserve t).withParams params) other).holding =
      (reserve other).holding := by
  rcases eq_or_ne other t with rfl | different
  · rw [Function.update_self]
    rfl
  · rw [Function.update_of_ne different]

/-- A task that is not placed may change its parameters. -/
theorem Represents.update_params {reserve : Tid → Reserve} {table : Table}
    {placement : Placement} (represents : Represents reserve table placement)
    (absent : placement t = none) (params : Params) :
    Represents (Function.update reserve t ((reserve t).withParams params)) table placement := by
  apply represents.congr
  intro other placed
  apply params_update
  rintro rfl
  exact placed absent

/-- The task was put back to the CPU it had in the original state. -/
structure PutBack (original : Kernel) (t : Tid) (s s' : Kernel) : Prop where
  represents : Represents s'.reserve s'.table original.placement
  reserve : s'.reserve =
    Function.update s.reserve t ((s.reserve t).withParams (original.reserve t).params)
  exited : s'.exited = s.exited
  rollbacks : s'.rollbacks = 0 :: s.rollbacks
  cpuOpen : ∀ cpu, (s'.table cpu).cpuOpen = (s.table cpu).cpuOpen

/-- The rollback: a task that was taken out of a consistent table is put back,
and `try_bind` returns zero. -/
theorem putBack_spec {original : Kernel}
    (before : Represents original.reserve original.table original.placement)
    (placed : original.placement t = some (original.reserve t).cpu)
    (others : ∀ other, other ≠ t → (s.reserve other).params = (original.reserve other).params)
    (now : Represents s.reserve s.table (Function.update original.placement t none)) :
    ∃ s', s.putBack t (original.reserve t) = .ok s' ∧ PutBack original t s s' := by
  have gone : Function.update original.placement t none t = none := by
    rw [Function.update_self]
  have restored := now.update_params gone (original.reserve t).params
  have same : Represents (Function.update s.reserve t
      ((s.reserve t).withParams (original.reserve t).params)) original.table
      original.placement := by
    apply before.congr
    intro other _
    rcases eq_or_ne other t with rfl | different
    · rw [Function.update_self]
      rfl
    · rw [params_update different, others other different]
  obtain ⟨table', returns, represents⟩ := same.tryBind_back placed restored
  have puts : s.putBack t (original.reserve t) = .ok { s with
      reserve := Function.update s.reserve t
        ((s.reserve t).withParams (original.reserve t).params)
      table := table'
      rollbacks := 0 :: s.rollbacks } := by
    simp only [Kernel.putBack, Kernel.modify, returns, ok_bind]
  exact ⟨_, puts, represents, rfl, rfl, rfl, Table.tryBind_cpuOpen restored.exact returns⟩

/-- The CPU a revision may name: the one the task is on, or any other while the
task is the last of its list. -/
def Removable (s : Kernel) (t : Tid) (cpu : Cpu) : Prop :=
  cpu = (s.reserve t).cpu ∨ (s.table (s.reserve t).cpu).entries.getLast? = some t

private theorem restored_of_params (params : Params)
    (represents : Represents s'.reserve s'.table s.placement)
    (reserve : s'.reserve = Function.update s.reserve t ((s.reserve t).withParams params))
    (kept : (s.reserve t).flag = true → params = (s.reserve t).params)
    (exited : s'.exited = s.exited)
    (rollbacks : ∀ value ∈ s'.rollbacks, value ∈ s.rollbacks ∨ value = 0)
    (cpuOpen : ∀ cpu, (s'.table cpu).cpuOpen = (s.table cpu).cpuOpen) : Restored s s' where
  represents := represents
  exited := exited
  rollbacks := rollbacks
  cpuOpen := cpuOpen
  holding := by
    intro other
    rw [reserve]
    exact holding_update s.reserve t params other
  params := by
    intro other flag
    rw [reserve]
    rcases eq_or_ne other t with rfl | different
    · rw [Function.update_self, kept flag]
      rfl
    · exact params_update different

section Revise

variable {cpu : Cpu} {params : Params}

/-- A revision that can take the task out binds it to the named CPU, or restores
what was there if `try_bind` refuses. -/
private theorem revise_of_tryBind {taken table : Table} {retval : ℤ}
    (represents : Represents s.reserve s.table s.placement) (live : s.exited t = false)
    (flag : (s.reserve t).flag = true)
    (takes : takeOut s.table (some cpu) (s.reserve t).cpu t (s.reserve t).util = .ok taken)
    (without : Represents s.reserve taken (Function.update s.placement t none))
    (opens : ∀ other, (taken other).cpuOpen = (s.table other).cpuOpen)
    (returns : taken.tryBind (Function.update s.reserve t ((s.reserve t).withParams params)) t cpu =
      .ok (retval, table)) :
    ∃ s', s.revise t params (some cpu) = .ok (retval, some cpu, s') ∧
      ((retval = 0 ∧ Assigned s t params cpu s') ∨ (retval = EBUSY ∧ Restored s s')) := by
  have placed := placement_reserved live flag
  have gone : Function.update s.placement t none t = none := by rw [Function.update_self]
  have free := without.update_params gone params
  let s₁ : Kernel := { s with
    reserve := Function.update s.reserve t ((s.reserve t).withParams params)
    table := table }
  have unfolded : s.revise t params (some cpu) =
      if retval ≠ 0 then do
        let s' ← s₁.putBack t (s.reserve t)
        .ok (retval, some cpu, s')
      else
        .ok (0, some cpu, s₁) := by
    simp only [Kernel.revise, Kernel.modify_table, takes, ok_bind, bindTask, Kernel.modify_reserve,
      returns]
    rfl
  by_cases zero : retval = 0
  · subst zero
    exact ⟨s₁, unfolded, .inl ⟨rfl, ⟨taken, free, opens, returns⟩, rfl, rfl, rfl⟩⟩
  · obtain ⟨busy, same⟩ := Table.tryBind_refused free.exact returns zero
    obtain ⟨s', puts, back⟩ := putBack_spec (s := s₁) represents placed
      (fun other different => params_update different) (free.of_sameTable same)
    rw [puts, if_pos zero, ok_bind] at unfolded
    refine ⟨s', unfolded, .inr ⟨busy, ?_⟩⟩
    refine restored_of_params (s.reserve t).params back.represents ?_ (fun _ => rfl) back.exited
      ?_ ?_
    · simp only [back.reserve, s₁, Function.update_idem, Function.update_self]
      rfl
    · rw [back.rollbacks]
      intro value member
      rcases List.mem_cons.mp member with rfl | old
      · exact .inr rfl
      · exact .inl old
    · intro other
      exact (back.cpuOpen other).trans ((same other).cpuOpen.trans (opens other))

/-- Revising a reservation binds the task to the named CPU or restores what was
there. -/
theorem revise_result {chosen : Option Cpu} {retval : ℤ}
    (represents : Represents s.reserve s.table s.placement) (live : s.exited t = false)
    (flag : (s.reserve t).flag = true) (named : Removable s t cpu)
    (returns : s.revise t params (some cpu) = .ok (retval, chosen, s')) :
    chosen = some cpu ∧
      ((retval = 0 ∧ Assigned s t params cpu s') ∨ (retval = EBUSY ∧ Restored s s')) := by
  obtain ⟨taken, takes, without, opens⟩ :=
    represents.takeOut (placement_reserved live flag) named
  obtain ⟨_, takes', rest⟩ := bind_eq_ok_iff.mp returns
  obtain rfl : taken = _ := Except.ok.inj (takes.symm.trans takes')
  obtain ⟨_, binds, _⟩ := bind_eq_ok_iff.mp rest
  obtain ⟨⟨value, table⟩, tries, _⟩ := bind_eq_ok_iff.mp binds
  obtain ⟨target, revises, verdict⟩ :=
    revise_of_tryBind represents live flag takes without opens tries
  rw [revises] at returns
  cases returns
  exact ⟨rfl, verdict⟩

/-- With parameters in range a revision returns. -/
theorem revise_spec (represents : Represents s.reserve s.table s.placement)
    (live : s.exited t = false) (flag : (s.reserve t).flag = true) (named : Removable s t cpu)
    (range : InRange ((s.reserve t).withParams params)) :
    ∃ retval s', s.revise t params (some cpu) = .ok (retval, some cpu, s') ∧
      ((retval = 0 ∧ Assigned s t params cpu s') ∨ (retval = EBUSY ∧ Restored s s')) := by
  obtain ⟨taken, takes, without, opens⟩ :=
    represents.takeOut (placement_reserved live flag) named
  have free := without.update_params (by rw [Function.update_self]) params
  have rangeNew : InRange (Function.update s.reserve t ((s.reserve t).withParams params) t) := by
    rwa [Function.update_self]
  obtain ⟨retval, bin', binds, _⟩ := tryBind_admitted (free.admitted cpu) rangeNew
  have tries : taken.tryBind (Function.update s.reserve t ((s.reserve t).withParams params)) t
      cpu = .ok (retval, Function.update taken cpu bin') := by
    rw [Table.tryBind, binds, ok_bind]
  exact ⟨retval, revise_of_tryBind represents live flag takes without opens tries⟩

end Revise

/-- Creating a reservation binds the task or leaves the table as it was. -/
theorem create_spec {named cpuid : Option Cpu} {params : Params} {retval : ℤ}
    (represents : Represents s.reserve s.table s.placement)
    (flag : (s.reserve t).flag = false)
    (returns : s.create t params named = .ok (retval, cpuid, s')) :
    (∃ cpu, retval = 0 ∧ cpuid = some cpu ∧ Assigned s t params cpu s') ∨
      (retval = EBUSY ∧ Restored s s') ∨ (retval = 0 ∧ cpuid = none) := by
  have absent := placement_unreserved flag
  have free := represents.update_params absent params
  obtain ⟨⟨value, chosen, last, table'⟩, binds, result⟩ := bind_eq_ok_iff.mp returns
  cases result
  cases bindTask_result free.exact binds with
  | bound before tries =>
      refine .inl ⟨_, rfl, rfl, ⟨_, ?_, fun other => (before other).cpuOpen, tries⟩, rfl, rfl, rfl⟩
      rw [← absent, Function.update_eq_self]
      exact free.of_sameTable before
  | refused after =>
      refine .inr (.inl ⟨rfl, restored_of_params params (free.of_sameTable after) rfl ?_ rfl
        (fun value member => .inl member) fun other => (after other).cpuOpen⟩)
      intro reserved
      exact absurd reserved (by simp [flag])
  | untried _ => exact .inr (.inr ⟨rfl, rfl⟩)

/-- Undoing a binding restores what was there before it. -/
theorem undoBind_spec {bound now : Kernel} {params : Params} {cpu : Cpu}
    (represents : Represents s.reserve s.table s.placement) (live : s.exited t = false)
    (assigned : Assigned s t params cpu bound) (frame : Frame Kernel.placing bound now)
    (holding : ∀ other, (now.reserve other).holding = (bound.reserve other).holding) :
    ∃ s', now.undoBind t cpu (s.reserve t) = .ok s' ∧ Restored s s' := by
  obtain ⟨taken, takes, without, opens⟩ := assigned.takeOut
  have ownUtil : (now.reserve t).util = (bound.reserve t).util :=
    congrArg Params.util (frame.params t)
  rw [← frame.table, ← ownUtil] at takes
  replace without : Represents now.reserve taken (Function.update s.placement t none) :=
    without.congr fun other _ => frame.params other
  have ownFlag : (now.reserve t).flag = (s.reserve t).flag :=
    (frame.flag t).trans assigned.flag_eq
  have heldNow : ∀ other, (now.reserve other).holding = (s.reserve other).holding := by
    intro other
    rw [holding, assigned.reserve, holding_update]
  have paramsNow : ∀ other, other ≠ t →
      (now.reserve other).params = (s.reserve other).params := by
    intro other different
    rw [frame.params, assigned.reserve, params_update different]
  have exited : now.exited = s.exited := frame.exited.trans assigned.exited
  have rollbacks : now.rollbacks = s.rollbacks := frame.rollbacks.trans assigned.rollbacks
  have unfolded : now.undoBind t cpu (s.reserve t) =
      if (s.reserve t).flag then Kernel.putBack { now with table := taken } t (s.reserve t)
      else .ok { now with table := taken } := by
    simp only [Kernel.undoBind, takes, ok_bind, ownFlag]
  cases flag : (s.reserve t).flag with
  | false =>
      rw [flag] at unfolded
      rw [← placement_unreserved flag, Function.update_eq_self] at without
      refine ⟨{ now with table := taken }, unfolded, without, exited, ?_, opens, heldNow, ?_⟩
      · intro value member
        exact .inl (rollbacks ▸ member)
      · intro other reserved
        apply paramsNow
        rintro rfl
        simp [flag] at reserved
  | true =>
      rw [flag] at unfolded
      obtain ⟨s', puts, back⟩ := putBack_spec (s := { now with table := taken })
        represents (placement_reserved live flag) paramsNow without
      refine ⟨s', unfolded.trans puts, back.represents, back.exited.trans exited, ?_, ?_, ?_, ?_⟩
      · rw [back.rollbacks]
        intro value member
        rcases List.mem_cons.mp member with rfl | old
        · exact .inr rfl
        · exact .inl (rollbacks ▸ old)
      · exact fun other => (back.cpuOpen other).trans (opens other)
      · intro other
        rw [back.reserve, holding_update, heldNow]
      · intro other _
        rw [back.reserve]
        rcases eq_or_ne other t with rfl | different
        · rw [Function.update_self]
          rfl
        · rw [params_update different, paramsNow other different]

/-! ## After the binding -/

/-- The services that set up files all succeed. -/
structure FilesSucceed (srv : Services) : Prop where
  kmallocName : srv.kmallocName = true
  sysfsCreateUtil : srv.sysfsCreateUtil = 0
  kmallocPeriods : srv.kmallocPeriods = true
  kmallocKobjName : srv.kmallocKobjName = true
  kobjectCreateAndAdd : srv.kobjectCreateAndAdd = true
  kmallocEnergyAttr : srv.kmallocEnergyAttr = true
  sysfsCreateEnergy : srv.sysfsCreateEnergy = 0

theorem setUpTidFile_zero {srv : Services} (files : FilesSucceed srv) (s : Kernel) (t : Tid) :
    (s.setUpTidFile srv t).1 = 0 := by
  unfold Kernel.setUpTidFile
  split
  · simp [Kernel.kmalloc, files.kmallocName, files.sysfsCreateUtil, files.kmallocPeriods]
  · rfl

theorem setUpEnergyFile_zero {srv : Services} (files : FilesSucceed srv) (s : Kernel) (t : Tid) :
    (s.setUpEnergyFile srv t).1 = 0 := by
  unfold Kernel.setUpEnergyFile
  split
  · simp [Kernel.kmalloc, files.kmallocKobjName, files.kobjectCreateAndAdd,
      files.kmallocEnergyAttr, files.sysfsCreateEnergy]
  · split
    · rfl
    · rfl

/-- A bound task holds the given reservation and its timers are started; the
flag is set at the very end only. -/
structure Prepared (t : Tid) (C T : Timespec) (cpu : Cpu) (flag : Bool) (s s' : Kernel) :
    Prop where
  lists : ∀ other, SameList (s.table other) (s'.table other)
  exited : s'.exited = s.exited
  rollbacks : s'.rollbacks = s.rollbacks
  cpuOpen : ∀ other, (s'.table other).cpuOpen = decide ((s'.table other).cpuUtil ≠ 0)
  params : ∀ other, (s'.reserve other).params = (s.reserve other).params
  others : ∀ other, other ≠ t → (s'.reserve other).placing = (s.reserve other).placing
  holding : (s'.reserve t).holding = ⟨flag, cpu, C, T, false, true⟩

theorem Prepared.of_frame {C T : Timespec} {cpu : Cpu} {flag : Bool} {now : Kernel}
    (prepared : Prepared t C T cpu flag s now) (frame : Frame Kernel.enforcing now s') :
    Prepared t C T cpu flag s s' where
  lists := by
    rw [frame.table]
    exact prepared.lists
  exited := frame.exited.trans prepared.exited
  rollbacks := frame.rollbacks.trans prepared.rollbacks
  cpuOpen := by
    rw [frame.table]
    exact prepared.cpuOpen
  params := fun other => (frame.placing.params other).trans (prepared.params other)
  others := fun other different =>
    (frame.placing.view other).trans (prepared.others other different)
  holding := by
    have same : (s'.reserve t).holding = (now.reserve t).holding :=
      congrArg (fun view : Enforcing × Bool => (⟨view.1.placing.flag, view.1.placing.cpu, view.1.C,
        view.1.T, view.1.cTimer, view.1.pTimer⟩ : Holding)) (frame.view t)
    exact same.trans prepared.holding

private theorem prepare_prepared {bound now : Kernel} (frame : Frame Kernel.placing bound now)
    (srv : Services) (t : Tid) (C T : Timespec) (cpu : Cpu) (online : Cpu → Bool) :
    Prepared t C T cpu (bound.reserve t).flag bound (now.prepare srv t C T cpu online) := by
  let opened : Kernel := (now.modify t fun reserve => { reserve with cpu := cpu }).openBins
  have offline : Frame Kernel.enforcing opened (Kernel.offlineClosed srv online allCpus opened) :=
    Kernel.frame_offlineClosed opened srv online allCpus
  have startTimers :=
    Kernel.frame_startTimers (Kernel.offlineClosed srv online allCpus opened) t C T
  have openedOther : ∀ other, other ≠ t → opened.reserve other = now.reserve other := by
    intro other different
    simp only [opened, Kernel.openBins, Kernel.modify_reserve, Function.update_of_ne different]
  have openedOwn : opened.reserve t = { now.reserve t with cpu := cpu } := by
    simp only [opened, Kernel.openBins, Kernel.modify_reserve, Function.update_self]
  have openedParams : ∀ other, (opened.reserve other).params = (now.reserve other).params := by
    intro other
    rcases eq_or_ne other t with rfl | different
    · rw [openedOwn]
      rfl
    · rw [openedOther other different]
  have table : (now.prepare srv t C T cpu online).table = opened.table :=
    startTimers.table.trans offline.table
  constructor
  · intro other
    rw [table, ← frame.table]
    exact ⟨rfl, rfl, rfl⟩
  · exact (startTimers.exited.trans offline.exited).trans frame.exited
  · exact (startTimers.rollbacks.trans offline.rollbacks).trans frame.rollbacks
  · intro other
    rw [table]
    rfl
  · intro other
    exact (startTimers.params other).trans ((offline.placing.params other).trans
      ((openedParams other).trans (frame.params other)))
  · intro other different
    refine (startTimers.view other).trans ((offline.placing.view other).trans ?_)
    rw [Kernel.placing, openedOther other different]
    exact frame.view other
  · have flag : (Kernel.offlineClosed srv online allCpus opened |>.reserve t).flag =
        (bound.reserve t).flag := by
      rw [offline.placing.flag, openedOwn]
      exact frame.flag t
    have own : (Kernel.offlineClosed srv online allCpus opened |>.reserve t).cpu = cpu := by
      rw [offline.placing.cpu, openedOwn]
    simp only [Kernel.prepare, Kernel.startTimers, Kernel.modify_reserve, Function.update_self,
      Reserve.holding, Holding.mk.injEq, and_true]
    exact ⟨flag, own⟩

/-- Once the task is prepared, the call commits the state after both files were
set up, or it returns the state in which one of them could not be. -/
theorem install_files {srv : Services} {C T : Timespec} {cpu : Cpu} {online : Cpu → Bool}
    {retval : ℤ} {named filed : Kernel}
    (isNamed : named = ((s.prepare srv t C T cpu online).setUpTidFile srv t).2)
    (isFiled : filed = (named.setUpEnergyFile srv t).2)
    (returns : s.install srv t C T cpu online = .ok (retval, s')) :
    (retval = 0 ∧ filed.commit t = .ok s') ∨
      (retval ≠ 0 ∧ ¬ FilesSucceed srv ∧ (s' = named ∨ s' = filed)) := by
  subst isFiled isNamed
  unfold Kernel.install at returns
  split at returns
  · rename_i named sets
    rw [sets]
    split at returns
    · rename_i filed energySets
      rw [energySets]
      obtain ⟨committed, commits, result⟩ := bind_eq_ok_iff.mp returns
      cases result
      exact .inl ⟨rfl, commits⟩
    · rename_i failed
      have files := fun succeed : FilesSucceed srv => setUpEnergyFile_zero succeed named t
      cases energySets : named.setUpEnergyFile srv t with
      | mk value filed =>
          rw [energySets] at returns files
          cases returns
          have nonzero : retval ≠ 0 := fun zero => failed s' (by rw [energySets, zero])
          exact .inr ⟨nonzero, fun succeed => nonzero (files succeed), .inr rfl⟩
  · rename_i failed
    have files := fun succeed : FilesSucceed srv =>
      setUpTidFile_zero succeed (s.prepare srv t C T cpu online) t
    cases sets : (s.prepare srv t C T cpu online).setUpTidFile srv t with
    | mk value named =>
        rw [sets] at returns files
        cases returns
        have nonzero : retval ≠ 0 := fun zero => failed s' (by rw [sets, zero])
        exact .inr ⟨nonzero, fun succeed => nonzero (files succeed), .inl rfl⟩

/-- Once the task is prepared, the call succeeds or one of the files could not be
set up. -/
theorem install_cases {srv : Services} {C T : Timespec} {cpu : Cpu} {online : Cpu → Bool}
    {retval : ℤ} (returns : s.install srv t C T cpu online = .ok (retval, s')) :
    ∃ filed, Frame Kernel.enforcing (s.prepare srv t C T cpu online) filed ∧
      ((retval = 0 ∧ filed.commit t = .ok s') ∨
        (retval ≠ 0 ∧ s' = filed ∧ ¬ FilesSucceed srv)) := by
  have tidFrame := Kernel.frame_setUpTidFile (s.prepare srv t C T cpu online) t srv
  have energyFrame := tidFrame.trans (Kernel.frame_setUpEnergyFile _ t srv)
  rcases install_files rfl rfl returns with ⟨zero, commits⟩ | ⟨nonzero, fails, rfl | rfl⟩
  · exact ⟨_, energyFrame, .inl ⟨zero, commits⟩⟩
  · exact ⟨_, tidFrame, .inr ⟨nonzero, rfl, fails⟩⟩
  · exact ⟨_, energyFrame, .inr ⟨nonzero, rfl, fails⟩⟩

theorem Prepared.commit {C T : Timespec} {cpu : Cpu} {flag : Bool} {filed : Kernel}
    (prepared : Prepared t C T cpu flag s filed) (commits : filed.commit t = .ok s') :
    Prepared t C T cpu true s s' := by
  have frame := Kernel.frame_sysclockSetFrequency commits
  refine Prepared.of_frame ?_ frame
  refine ⟨prepared.lists, prepared.exited, prepared.rollbacks, prepared.cpuOpen, ?_, ?_, ?_⟩
  · intro other
    refine Eq.trans ?_ (prepared.params other)
    rcases eq_or_ne other t with rfl | different
    · simp only [Kernel.modify_reserve, Function.update_self]
      rfl
    · simp only [Kernel.modify_reserve, Function.update_of_ne different]
  · intro other different
    simp only [Kernel.modify_reserve, Function.update_of_ne different]
    exact prepared.others other different
  · have held := prepared.holding
    simp only [Reserve.holding, Holding.mk.injEq] at held
    simp only [Kernel.modify_reserve, Function.update_self, Reserve.holding, Holding.mk.injEq,
      true_and]
    exact held.2

/-- What a call of `set_reserve` can come to once its arguments are accepted: the
task is refused, its affinity cannot be set, a file cannot be set up, or the
reservation is installed. -/
inductive SetResult (srv : Services) (s : Kernel) (t : Tid) (C T : Timespec) (params : Params) :
    ℤ → Kernel → Prop
  | refused {s' : Kernel} : Restored s s' → SetResult srv s t C T params EBUSY s'
  | undone {s' : Kernel} : srv.schedSetaffinity = false → Restored s s' →
      SetResult srv s t C T params EINVAL s'
  | failed {retval : ℤ} {cpu : Cpu} {bound s' : Kernel} : srv.schedSetaffinity = true →
      ¬ FilesSucceed srv → retval ≠ 0 → Assigned s t params cpu bound →
      Prepared t C T cpu (s.reserve t).flag bound s' → SetResult srv s t C T params retval s'
  | installed {cpu : Cpu} {bound s' : Kernel} : srv.schedSetaffinity = true →
      Assigned s t params cpu bound → Prepared t C T cpu true bound s' →
      SetResult srv s t C T params 0 s'

section AfterBind

variable {srv : Services} {bound : Kernel} {params : Params} {C T : Timespec} {cpu : Cpu}

/-- Until the affinity is set nothing happens to the placement. -/
theorem frame_beforeAffinity (bound : Kernel) (t : Tid) (srv : Services) (cpu : Cpu) :
    Frame Kernel.placing bound ((bound.resetFresh t).bringUp srv cpu) :=
  (Kernel.frame_resetFresh bound t).trans (Kernel.frame_bringUp _ srv cpu).placing

private theorem holding_beforeAffinity (bound : Kernel) (t : Tid) (srv : Services) (cpu : Cpu)
    (other : Tid) : (((bound.resetFresh t).bringUp srv cpu).reserve other).holding =
      (bound.reserve other).holding := by
  have up : ((bound.resetFresh t).bringUp srv cpu).reserve = (bound.resetFresh t).reserve := by
    unfold Kernel.bringUp
    split
    · rfl
    · rfl
  rw [up]
  unfold Kernel.resetFresh
  split
  · rfl
  · rcases eq_or_ne other t with rfl | different
    · simp only [Kernel.modify_reserve, Function.update_self]
      rfl
    · simp only [Kernel.modify_reserve, Function.update_of_ne different]

/-- If the affinity cannot be set, the call returns and the binding is undone. -/
theorem afterBind_undone (represents : Represents s.reserve s.table s.placement)
    (live : s.exited t = false) (assigned : Assigned s t params cpu bound)
    (affinity : srv.schedSetaffinity = false) :
    ∃ s', bound.afterBind srv t C T cpu (s.reserve t) = .ok (EINVAL, s') ∧ Restored s s' := by
  obtain ⟨s', undoes, restored⟩ := undoBind_spec represents live assigned
    (frame_beforeAffinity bound t srv cpu) (holding_beforeAffinity bound t srv cpu)
  refine ⟨s', ?_, restored⟩
  simp [Kernel.afterBind, affinity, undoes]

/-- Once the affinity is set, the task is prepared; the call succeeds or one of
the files could not be set up. -/
theorem afterBind_prepared {old : Reserve} {retval : ℤ} (affinity : srv.schedSetaffinity = true)
    (returns : bound.afterBind srv t C T cpu old = .ok (retval, s')) :
    (retval = 0 ∧ Prepared t C T cpu true bound s') ∨
      (retval ≠ 0 ∧ ¬ FilesSucceed srv ∧ Prepared t C T cpu (bound.reserve t).flag bound s') := by
  simp only [Kernel.afterBind, affinity, if_true] at returns
  have prepared := prepare_prepared (frame_beforeAffinity bound t srv cpu) srv t C T cpu
  obtain ⟨filed, files, ⟨rfl, commits⟩ | ⟨nonzero, rfl, fails⟩⟩ := install_cases returns
  · exact .inl ⟨rfl, ((prepared _).of_frame files).commit commits⟩
  · exact .inr ⟨nonzero, fails, (prepared _).of_frame files⟩

/-- A call that returns zero has installed the reservation. -/
theorem afterBind_zero {old : Reserve} (returns : bound.afterBind srv t C T cpu old = .ok (0, s')) :
    srv.schedSetaffinity = true ∧ Prepared t C T cpu true bound s' := by
  cases affinity : srv.schedSetaffinity with
  | false =>
      simp only [Kernel.afterBind, affinity, Bool.false_eq_true, if_false] at returns
      obtain ⟨undone, _, result⟩ := bind_eq_ok_iff.mp returns
      cases result
  | true =>
      rcases afterBind_prepared affinity returns with ⟨_, prepared⟩ | ⟨nonzero, _⟩
      · exact ⟨rfl, prepared⟩
      · exact absurd rfl nonzero

private theorem afterBind_result {retval : ℤ}
    (represents : Represents s.reserve s.table s.placement)
    (live : s.exited t = false) (assigned : Assigned s t params cpu bound)
    (returns : bound.afterBind srv t C T cpu (s.reserve t) = .ok (retval, s')) :
    SetResult srv s t C T params retval s' := by
  cases affinity : srv.schedSetaffinity with
  | false =>
      obtain ⟨undone, undoes, restored⟩ :=
        afterBind_undone (C := C) (T := T) represents live assigned affinity
      rw [undoes] at returns
      cases returns
      exact .undone affinity restored
  | true =>
      rcases afterBind_prepared affinity returns with ⟨rfl, prepared⟩ | ⟨nonzero, fails, prepared⟩
      · exact .installed affinity assigned prepared
      · rw [assigned.flag_eq] at prepared
        exact .failed affinity fails nonzero assigned prepared

end AfterBind

/-! ## The system call -/

/-- The arguments pass the checks at the start of `set_reserve`. -/
structure Checked (s : Kernel) (t : Tid) (budget period : Option Timespec) (cpuid : ℤ)
    (C T : Timespec) : Prop where
  cpuid : -1 ≤ cpuid ∧ cpuid ≤ 3
  budget : budget = some C
  period : period = some T
  found : s.found t = true

/-- What a call does: it rejects its arguments, or places the task and goes on
if it was bound. -/
theorem setReserve_cases {srv : Services} {budget period : Option Timespec} {cpuid retval : ℤ}
    (returns : s.setReserve srv t budget period cpuid = .ok (retval, s')) :
    (retval ≠ 0 ∧ s' = s ∧ ∀ C T, ¬ Checked s t budget period cpuid C T) ∨
      ∃ C T params value chosen placed, Checked s t budget period cpuid C T ∧
        paramsOf C T = .ok params ∧
        s.assign t params (cpuOf cpuid) = .ok (value, chosen, placed) ∧
        ((value ≠ 0 ∧ retval = value ∧ s' = placed) ∨
          ∃ cpu, value = 0 ∧ chosen = some cpu ∧
            placed.afterBind srv t C T cpu (s.reserve t) = .ok (retval, s')) := by
  unfold Kernel.setReserve at returns
  split at returns
  · rename_i outside
    cases returns
    refine .inl ⟨by decide, rfl, ?_⟩
    intro C T checked
    have inside := checked.cpuid
    omega
  · rename_i inside
    split at returns
    · rename_i C T
      split at returns
      · rename_i missing
        cases returns
        refine .inl ⟨by decide, rfl, ?_⟩
        intro C T checked
        simp [checked.found] at missing
      · rename_i present
        have checked : Checked s t (some C) (some T) cpuid C T :=
          ⟨by omega, rfl, rfl, by simpa using present⟩
        obtain ⟨params, converts, rest⟩ := bind_eq_ok_iff.mp returns
        obtain ⟨⟨value, chosen, placed⟩, places, finish⟩ := bind_eq_ok_iff.mp rest
        refine .inr ⟨C, T, params, value, chosen, placed, checked, converts, places, ?_⟩
        dsimp only at finish
        split at finish
        · rename_i nonzero
          cases finish
          exact .inl ⟨nonzero, rfl, rfl⟩
        · rename_i zero
          split at finish
          · cases finish
          · exact .inr ⟨_, not_not.mp zero, rfl, finish⟩
    · rename_i missing
      cases returns
      refine .inl ⟨by decide, rfl, ?_⟩
      intro C T checked
      exact missing C T checked.budget checked.period

/-- A call that names a CPU the task can be revised on. -/
def Revisable (s : Kernel) (t : Tid) (cpuid : ℤ) : Prop :=
  (s.reserve t).flag = true → ∃ cpu, cpuOf cpuid = some cpu ∧ Removable s t cpu

/-- Placing a task binds it or restores what was there. -/
theorem assign_result {params : Params} {cpuid retval : ℤ} {chosen : Option Cpu}
    (represents : Represents s.reserve s.table s.placement) (live : s.exited t = false)
    (named : Revisable s t cpuid)
    (returns : s.assign t params (cpuOf cpuid) = .ok (retval, chosen, s')) :
    (∃ cpu, retval = 0 ∧ chosen = some cpu ∧
        ((s.reserve t).flag = true → cpuOf cpuid = some cpu) ∧ Assigned s t params cpu s') ∨
      (retval = EBUSY ∧ Restored s s') ∨ (retval = 0 ∧ chosen = none) := by
  unfold Kernel.assign at returns
  split at returns
  · rename_i flag
    obtain ⟨cpu, isNamed, removable⟩ := named flag
    rw [isNamed] at returns
    obtain ⟨rfl, ⟨zero, assigned⟩ | refused⟩ := revise_result represents live flag removable returns
    · exact .inl ⟨cpu, zero, rfl, fun _ => isNamed, assigned⟩
    · exact .inr (.inl refused)
  · rename_i flag
    rcases create_spec represents (by simpa using flag) returns with
      ⟨cpu, zero, isChosen, assigned⟩ | rest
    · exact .inl ⟨cpu, zero, isChosen, fun reserved => absurd reserved flag, assigned⟩
    · exact .inr rest

theorem setReserve_result {srv : Services} {budget period : Option Timespec} {cpuid retval : ℤ}
    (represents : Represents s.reserve s.table s.placement) (live : s.exited t = false)
    (named : Revisable s t cpuid)
    (returns : s.setReserve srv t budget period cpuid = .ok (retval, s')) :
    (retval ≠ 0 ∧ s' = s) ∨
      ∃ C T params, budget = some C ∧ period = some T ∧ paramsOf C T = .ok params ∧
        SetResult srv s t C T params retval s' := by
  rcases setReserve_cases returns with
    ⟨nonzero, same, _⟩ | ⟨C, T, params, value, chosen, placed, checked, converts, places, finish⟩
  · exact .inl ⟨nonzero, same⟩
  · refine .inr ⟨C, T, params, checked.budget, checked.period, converts, ?_⟩
    rcases assign_result represents live named places with
      ⟨cpu, rfl, rfl, _, assigned⟩ | ⟨rfl, restored⟩ | ⟨rfl, rfl⟩
    · obtain ⟨nonzero, _⟩ | ⟨_, _, chosen, continues⟩ := finish
      · exact absurd rfl nonzero
      · cases chosen
        exact afterBind_result represents live assigned continues
    · obtain ⟨_, rfl, rfl⟩ | ⟨_, zero, _⟩ := finish
      · exact .refused restored
      · exact absurd zero EBUSY_ne_zero
    · obtain ⟨nonzero, _⟩ | ⟨_, _, none, _⟩ := finish
      · exact absurd rfl nonzero
      · cases none

/-- A task whose reservation is installed is placed on its CPU. -/
theorem Prepared.placement {C T : Timespec} {cpu : Cpu} {params : Params} {bound : Kernel}
    (live : s.exited t = false) (assigned : Assigned s t params cpu bound)
    (prepared : Prepared t C T cpu true bound s') :
    s'.placement = Function.update s.placement t (some cpu) := by
  funext other
  have exited : s'.exited = s.exited := prepared.exited.trans assigned.exited
  rcases eq_or_ne other t with rfl | different
  · have flag : (s'.reserve other).flag = true := congrArg Holding.flag prepared.holding
    have own : (s'.reserve other).cpu = cpu := congrArg Holding.cpu prepared.holding
    simp [Kernel.placement, exited, live, flag, own]
  · have view := prepared.others other different
    rw [assigned.reserve, Function.update_of_ne different] at view
    have flag := congrArg Placing.flag view
    have own := congrArg Placing.cpu view
    simp only [Reserve.placing] at flag own
    simp [Kernel.placement, exited, flag, own, different]

/-- A task whose reservation is installed with parameters in range is where it
says it is. -/
theorem Prepared.consistent {C T : Timespec} {cpu : Cpu} {params : Params} {bound : Kernel}
    (consistent : Consistent s) (live : s.exited t = false)
    (range : InRange ((s.reserve t).withParams params)) (assigned : Assigned s t params cpu bound)
    (prepared : Prepared t C T cpu true bound s') : Consistent s' where
  represents := by
    rw [prepared.placement live assigned]
    exact ((assigned.represents range).of_sameList prepared.lists).congr
      fun other _ => prepared.params other
  rollbacks := by
    rw [prepared.rollbacks, assigned.rollbacks]
    exact consistent.rollbacks

/-- A call of `set_reserve` whose files can be set up keeps the kernel
consistent, whatever it returns. -/
theorem setReserve_consistent {srv : Services} {budget period : Option Timespec}
    {cpuid retval : ℤ} (consistent : Consistent s) (live : s.exited t = false)
    (files : FilesSucceed srv) (valid : ∀ C ∈ budget, ∀ T ∈ period, ValidTimes C T)
    (named : Revisable s t cpuid)
    (returns : s.setReserve srv t budget period cpuid = .ok (retval, s')) : Consistent s' := by
  rcases setReserve_result consistent.represents live named returns with
    ⟨_, rfl⟩ | ⟨C, T, params, isBudget, isPeriod, converts, result⟩
  · exact consistent
  · have range := inRange_paramsOf (valid C isBudget T isPeriod) converts (s.reserve t)
    cases result with
    | refused restored => exact consistent.of_restored restored
    | undone _ restored => exact consistent.of_restored restored
    | failed _ fails => exact absurd files fails
    | installed _ assigned prepared => exact prepared.consistent consistent live range assigned

/-! ## Releasing -/

theorem sameList_closeIfIdle (bin : CpuTable) : SameList bin bin.closeIfIdle := by
  unfold CpuTable.closeIfIdle
  split
  · exact ⟨rfl, rfl, rfl⟩
  · exact ⟨rfl, rfl, rfl⟩

/-- The task was taken out of the table and possibly its CPU taken offline. -/
structure Released (t : Tid) (placement : Placement) (s s' : Kernel) : Prop where
  represents : Represents s'.reserve s'.table (Function.update placement t none)
  exited : s'.exited = s.exited
  rollbacks : s'.rollbacks = s.rollbacks
  placing : ∀ other, s'.placing other = s.placing other

private theorem release_spec {srv : Services} {placement : Placement}
    (represents : Represents s.reserve s.table placement)
    (placed : placement t = some (s.reserve t).cpu) (returns : s.release srv t = .ok s') :
    Released t placement s s' := by
  obtain ⟨taken, takes, without, _⟩ := represents.takeOut placed (.inl rfl)
  have closed : Represents s.reserve (Function.update taken (s.reserve t).cpu
      (taken (s.reserve t).cpu).closeIfIdle) (Function.update placement t none) := by
    apply without.of_sameList
    intro other
    rcases eq_or_ne other (s.reserve t).cpu with rfl | different
    · rw [Function.update_self]
      exact sameList_closeIfIdle _
    · rw [Function.update_of_ne different]
      exact ⟨rfl, rfl, rfl⟩
  simp only [Kernel.release, takes, ok_bind] at returns
  cases returns
  have frame := (Kernel.frame_offlineIfClosed { s with
    table := Function.update taken (s.reserve t).cpu (taken (s.reserve t).cpu).closeIfIdle }
    srv (s.reserve t).cpu).placing
  exact ⟨closed.of_frame frame, frame.exited, frame.rollbacks, frame.view⟩

/-- Once a task that was taken out is no longer counted as placed, the kernel is
consistent again. -/
theorem Released.consistent {original : Kernel} (consistent : Consistent original)
    (released : Released t original.placement s s')
    (rollbacks : s.rollbacks = original.rollbacks)
    (placement : s'.placement = Function.update original.placement t none) : Consistent s' where
  represents := by
    rw [placement]
    exact released.represents
  rollbacks := by
    rw [released.rollbacks, rollbacks]
    exact consistent.rollbacks

private theorem unreserve_consistent {srv : Services} {retval : ℤ} (consistent : Consistent s)
    (live : (s.reserve t).flag = true → s.exited t = false)
    (returns : s.unreserve srv t = .ok (retval, s')) : Consistent s' := by
  have stopped := Kernel.frame_stopTimers s t
  unfold Kernel.unreserve at returns
  split at returns
  · cases returns
    exact consistent
  · rename_i reserved
    split at returns
    · cases returns
      exact consistent.of_frame stopped
    · obtain ⟨released, releases, result⟩ := bind_eq_ok_iff.mp returns
      cases result
      have flag : (s.reserve t).flag = true := by simpa using reserved
      have cleared : Represents ((s.stopTimers t).modify t fun reserve =>
          { reserve with flag := false }).reserve (s.stopTimers t).table s.placement := by
        apply (consistent.represents.of_frame stopped).congr
        intro other _
        rcases eq_or_ne other t with rfl | different
        · simp only [Kernel.modify_reserve, Function.update_self]
          rfl
        · simp only [Kernel.modify_reserve, Function.update_of_ne different]
      have placed : s.placement t = some (((s.stopTimers t).modify t fun reserve =>
          { reserve with flag := false }).reserve t).cpu := by
        rw [placement_reserved (live flag) flag]
        simp [Kernel.stopTimers]
      have spec := release_spec cleared placed releases
      refine spec.consistent consistent rfl ?_
      funext other
      have view := spec.placing other
      have flag := congrArg Placing.flag view
      have cpu := congrArg Placing.cpu view
      simp only [Kernel.placing, Reserve.placing] at flag cpu
      rcases eq_or_ne other t with rfl | different
      · simp [Kernel.placement, flag]
      · simp [Kernel.placement, flag, cpu, spec.exited, different, Kernel.stopTimers]

/-- A call of `cancel_reserve` keeps the kernel consistent, whatever it returns. -/
theorem cancelReserve_consistent {srv : Services} {retval : ℤ} (consistent : Consistent s)
    (live : (s.reserve t).flag = true → s.exited t = false)
    (returns : s.cancelReserve srv t = .ok (retval, s')) : Consistent s' := by
  unfold Kernel.cancelReserve at returns
  split at returns
  · cases returns
    exact consistent
  · obtain ⟨⟨value, unreserved⟩, unreserves, rest⟩ := bind_eq_ok_iff.mp returns
    have middle := unreserve_consistent consistent live unreserves
    dsimp only at rest
    split at rest
    · cases rest
      exact middle
    · obtain ⟨finished, finishes, result⟩ := bind_eq_ok_iff.mp rest
      cases result
      have files := (Kernel.frame_removeTidFile unreserved t).trans
        (Kernel.frame_dropEnergyFile _ t)
      exact middle.of_frame (files.trans (Kernel.frame_sysclockSetFrequency finishes)).placing

private theorem placement_exit (s : Kernel) (t : Tid) :
    Kernel.placement { s with exited := Function.update s.exited t true } =
      Function.update s.placement t none := by
  funext other
  rcases eq_or_ne other t with rfl | different
  · simp [Kernel.placement]
  · simp [Kernel.placement, different]

/-- The exit of a task keeps the kernel consistent. -/
theorem doExit_consistent {srv : Services} (consistent : Consistent s)
    (live : (s.reserve t).flag = true → s.exited t = false)
    (returns : s.doExit srv t = .ok s') : Consistent s' := by
  obtain ⟨released, releases, result⟩ := bind_eq_ok_iff.mp returns
  cases result
  unfold Kernel.exitReserve at releases
  split at releases
  · rename_i flag
    have frame : Frame Kernel.placing s (((s.stopTimers t).removeTidFile t).dropEnergyFile t) :=
      ((Kernel.frame_stopTimers s t).trans (Kernel.frame_removeTidFile _ t).placing).trans
        (Kernel.frame_dropEnergyFile _ t).placing
    have placed := placement_reserved (live flag) flag
    rw [← frame.cpu t] at placed
    have spec := release_spec (consistent.represents.of_frame frame) placed releases
    refine ⟨?_, ?_⟩
    · have placement : released.placement = s.placement := by
        rw [← frame.placement]
        funext other
        have flag := congrArg Placing.flag (spec.placing other)
        have cpu := congrArg Placing.cpu (spec.placing other)
        simp only [Kernel.placing, Reserve.placing] at flag cpu
        simp only [Kernel.placement, spec.exited, flag, cpu]
      rw [placement_exit, placement]
      exact spec.represents
    · rw [spec.rollbacks, frame.rollbacks]
      exact consistent.rollbacks
  · rename_i flag
    cases releases
    refine ⟨?_, consistent.rollbacks⟩
    rw [placement_exit, ← placement_unreserved (s := s) (t := t) (by simpa using flag),
      Function.update_eq_self]
    exact consistent.represents

end Rtes.Reservation
