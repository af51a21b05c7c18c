import Rtes.Reservation.Atomicity
import Rtes.Reservation.Policy

/-!
# Creating a reservation and taking it back

Whatever is in the lists and in whatever order, binding a task inserts it into
one list, and taking it out again restores that list entry by entry.  A refused
creation therefore leaves no trace in the table.  Cancelling restores the lists,
their lengths and the utilizations as well; the open flags only as long as the
utilization of the task does not cancel out that of its CPU.
-/

namespace Rtes.Reservation

open Rtes.Slots Rtes.Transition Rtes.Word

variable {s s' bound : Kernel} {t : Tid} {params : Params} {cpu : Cpu}

/-! ## A task more in one list -/

/-- A new task is in the list of one CPU, and the other lists are as before. -/
structure Created (s : Kernel) (t : Tid) (params : Params) (cpu : Cpu) (s' : Kernel) : Prop where
  inserted : Inserted s'.reserve t (s.table cpu) (s'.table cpu)
  room : (s.table cpu).cpuTasksLength ≠ taskSchedulingLength
  others : ∀ other, other ≠ cpu → SameBin (s.table other) (s'.table other)
  reserve : s'.reserve = Function.update s.reserve t ((s.reserve t).withParams params)

/-- Creating a reservation binds the task to one CPU or leaves the table as it
was. -/
theorem create_cases {named chosen : Option Cpu} {retval : ℤ} (exact : Exact s.table)
    (returns : s.create t params named = .ok (retval, chosen, s')) :
    (∃ cpu, retval = 0 ∧ chosen = some cpu ∧ Created s t params cpu s') ∨
      (retval = EBUSY ∧ SameTable s.table s'.table) ∨ (retval = 0 ∧ chosen = none) := by
  obtain ⟨⟨value, picked, last, table⟩, binds, result⟩ := bind_eq_ok_iff.mp returns
  cases result
  cases bindTask_result exact binds with
  | @bound middle _ cpu same tries =>
      obtain ⟨bin', inserts, rfl⟩ := Table.tryBind_eq_ok tries
      have inserted := tryBind_inserted ((exact.of_sameTable same) cpu).2 inserts
      refine .inl ⟨cpu, rfl, rfl, ⟨?_, ?_, ?_, rfl⟩⟩
      · simp only [Function.update_self]
        refine ⟨?_, ?_, ?_, inserted.cpuOpen.trans (same cpu).cpuOpen⟩
        · rw [inserted.entries, (same cpu).entries]
        · rw [inserted.length, (same cpu).length]
        · rw [inserted.util, (same cpu).util]
      · rw [← (same cpu).length]
        intro full
        cases (tryBind_full full).symm.trans inserts
      · intro other different
        simp only [Function.update_of_ne different]
        exact same other
  | refused same => exact .inr (.inl ⟨rfl, same⟩)
  | untried => exact .inr (.inr ⟨rfl, rfl⟩)

namespace Created

theorem params_eq (created : Created s t params cpu s') : (s'.reserve t).params = params := by
  rw [created.reserve, Function.update_self]
  rfl

theorem util_eq (created : Created s t params cpu s') : (s'.reserve t).util = params.util :=
  congrArg Params.util created.params_eq

/-- Taking the task out again restores every list; the open flags stay as they
are by then. -/
theorem takeOut (created : Created s t params cpu bound) (exact : Exact s.table)
    (absent : t ∉ (s.table cpu).entries) {table : Table}
    (lists : ∀ other, SameList (bound.table other) (table other)) :
    ∃ taken, Reservation.takeOut table (some cpu) cpu t params.util = .ok taken ∧
      ∀ other, SameList (s.table other) (taken other) ∧
        (taken other).cpuOpen = (table other).cpuOpen := by
  have inserted := created.inserted
  have present : t ∈ (table cpu).entries := by
    rw [(lists cpu).entries, inserted.entries, mem_insertBehind]
    exact .inl rfl
  obtain ⟨taken, takes, own, others⟩ := takeOut_own params.util present
  refine ⟨taken, takes, ?_⟩
  intro other
  rcases eq_or_ne other cpu with rfl | different
  · refine ⟨⟨?_, ?_, ?_⟩, own.cpuOpen⟩
    · rw [own.entries, (lists other).entries, inserted.entries, erase_insertBehind absent]
    · rw [own.length, (lists other).length, inserted.length, Int.add_sub_cancel]
    · rw [own.util, (lists other).util, inserted.util, created.util_eq, int32_add_sub_cancel,
        (exact other).2]
  · have before := (created.others other different).toSameList.trans (lists other)
    exact ⟨before.trans (others other different).toSameList, (others other different).cpuOpen⟩

end Created

/-! ## A refused creation -/

theorem Created.undone {srv : Services} {C T : Timespec} {retval : ℤ}
    (created : Created s t params cpu bound) (exact : Exact s.table)
    (absent : t ∉ (s.table cpu).entries) (flag : (s.reserve t).flag = false)
    (affinity : srv.schedSetaffinity = false)
    (returns : bound.afterBind srv t C T cpu (s.reserve t) = .ok (retval, s')) :
    SameTable s.table s'.table := by
  have frame := frame_beforeAffinity bound t srv cpu
  obtain ⟨taken, takes, restores⟩ := created.takeOut exact absent
    fun other => (SameBin.refl (bound.table other)).toSameList
  have ownUtil : (((bound.resetFresh t).bringUp srv cpu).reserve t).util = params.util :=
    (congrArg Params.util (frame.params t)).trans created.util_eq
  have ownFlag : (((bound.resetFresh t).bringUp srv cpu).reserve t).flag = false := by
    rw [frame.flag, created.reserve, Function.update_self]
    exact flag
  simp only [Kernel.afterBind, affinity, Bool.false_eq_true, if_false, Kernel.undoBind, ownUtil,
    frame.table, takes, ok_bind, ownFlag] at returns
  cases returns
  intro other
  refine ⟨(restores other).1, (restores other).2.trans ?_⟩
  rcases eq_or_ne other cpu with rfl | different
  · exact created.inserted.cpuOpen
  · exact (created.others other different).cpuOpen

/-- A creation that fails because no CPU that is tried accepts the task, or
because its affinity cannot be set, leaves the lists entry by entry, their
lengths, the utilizations and the open flags as they were. -/
theorem setReserve_refused_sameTable {srv : Services} {budget period : Option Timespec}
    {cpuid retval : ℤ} (exact : Exact s.table) (absent : ∀ cpu, t ∉ (s.table cpu).entries)
    (flag : (s.reserve t).flag = false)
    (returns : s.setReserve srv t budget period cpuid = .ok (retval, s'))
    (cause : (∀ C ∈ budget, ∀ T ∈ period, ∀ params, paramsOf C T = .ok params →
      ¬ Accepts s t params cpuid) ∨ srv.schedSetaffinity = false) :
    SameTable s.table s'.table := by
  rcases setReserve_cases returns with
    ⟨_, rfl, _⟩ | ⟨C, T, params, value, chosen, placed, checked, converts, places, finish⟩
  · exact .refl _
  · have creates : s.create t params (cpuOf cpuid) = .ok (value, chosen, placed) := by
      rw [← places, Kernel.assign, if_neg (by simp [flag])]
    rcases create_cases exact creates with
      ⟨cpu, rfl, rfl, created⟩ | ⟨rfl, same⟩ | ⟨rfl, rfl⟩
    · rcases finish with ⟨zero, _⟩ | ⟨_, _, isChosen, continues⟩
      · exact absurd rfl zero
      · cases isChosen
        rcases cause with refused | affinity
        · have accepts : Accepts s t params cpuid := ⟨cpu, placed, places⟩
          exact absurd accepts (refused C checked.budget T checked.period params converts)
        · exact created.undone exact (absent cpu) flag affinity continues
    · rcases finish with ⟨_, _, rfl⟩ | ⟨_, zero, _⟩
      · exact same
      · exact absurd zero EBUSY_ne_zero
    · rcases finish with ⟨zero, _⟩ | ⟨_, _, none, _⟩
      · exact absurd rfl zero
      · cases none

/-- Two tasks on every CPU, not in order of period. -/
def unsorted : Kernel :=
  { Kernel.bare with
    reserve := fun t => if t = 3 then .zero else .ofMillis 1 (if t = 1 then 20 else 10)
    table := fun _ => ⟨fun k => if k = 0 then 1 else 2, 2, 1500, true⟩ }

/-- A task that comes in between and gets no affinity. -/
theorem setReserve_refused_sameTable_unsorted :
    ∃ s', unsorted.setReserve { Services.succeed with schedSetaffinity := false } 3
        (some ⟨0, 1000000⟩) (some ⟨0, 5000000⟩) 0 = .ok (EINVAL, s') ∧
      SameTable unsorted.table s'.table := by
  have fails : ∃ s', unsorted.setReserve { Services.succeed with schedSetaffinity := false } 3
      (some ⟨0, 1000000⟩) (some ⟨0, 5000000⟩) 0 = .ok (EINVAL, s') := ⟨_, rfl⟩
  obtain ⟨s', returns⟩ := fails
  refine ⟨s', returns, setReserve_refused_sameTable ?_ ?_ rfl returns (.inr rfl)⟩
  · unfold Exact
    decide
  · decide

/-! ## A creation that succeeds -/

private theorem setFrequencyLoop_idle (idle : ∀ cpu, s.sysclockGovernor cpu = false)
    (cpus : List Cpu) :
    Sysclock.setFrequencyLoop s cpus = .ok s := by
  induction cpus with
  | nil => rfl
  | cons cpu rest ih => simpa [Sysclock.setFrequencyLoop, idle cpu] using ih

/-- Without a CPU on the sysclock governor, a task whose files can be set up is
installed. -/
theorem install_succeeds {srv : Services} (files : FilesSucceed srv)
    (idle : ∀ cpu, s.sysclockGovernor cpu = false) (C T : Timespec) (cpu : Cpu)
    (online : Cpu → Bool) : ∃ s', s.install srv t C T cpu online = .ok (0, s') := by
  set prepared := s.prepare srv t C T cpu online with isPrepared
  set named := (prepared.setUpTidFile srv t).2 with isNamed
  set filed := (named.setUpEnergyFile srv t).2 with isFiled
  have first : prepared.setUpTidFile srv t = (0, named) :=
    Prod.ext (setUpTidFile_zero files prepared t) rfl
  have second : named.setUpEnergyFile srv t = (0, filed) :=
    Prod.ext (setUpEnergyFile_zero files named t) rfl
  obtain ⟨_, keptName⟩ := Kernel.files_setUpTidFile srv prepared t
  obtain ⟨_, keptFile⟩ := Kernel.files_setUpEnergyFile srv named t
  have governor : filed.sysclockGovernor = s.sysclockGovernor := by
    have prepares := (prepare_touches srv s t C T cpu online).1
    rw [isFiled, keptFile.eq, isNamed, keptName.eq, isPrepared, prepares]
  have commits : ∃ s', filed.commit t = .ok s' := by
    refine ⟨_, setFrequencyLoop_idle ?_ _⟩
    intro cpu
    exact (congrFun governor cpu).trans (idle cpu)
  obtain ⟨s', commits⟩ := commits
  refine ⟨s', ?_⟩
  simp only [Kernel.install, ← isPrepared, first, second, commits, ok_bind]

/-- A call for which the task is placed, all services succeeding, returns. -/
theorem setReserve_succeeds {srv : Services} (succeed : AllSucceed srv)
    (idle : ∀ cpu, s.sysclockGovernor cpu = false) (found : s.found t = true)
    {C T : Timespec} (converts : paramsOf C T = .ok params) {cpuid : ℤ}
    (named : -1 ≤ cpuid ∧ cpuid ≤ 3)
    (places : s.assign t params (cpuOf cpuid) = .ok (0, some cpu, bound)) :
    ∃ s', s.setReserve srv t (some C) (some T) cpuid = .ok (0, s') := by
  have governor : ((bound.resetFresh t).bringUp srv cpu).sysclockGovernor = s.sysclockGovernor := by
    have reset := (assign_rebinds places).touches.andThen Reserve.fresh (.modify bound t _)
    have raised := reset.andThen id (Kernel.touches_bringUp srv _ t cpu)
    rw [resetFresh_eq, raised]
  obtain ⟨s', installs⟩ := install_succeeds succeed.toFilesSucceed
    (fun cpu => (congrFun governor cpu).trans (idle cpu)) C T cpu
    (Function.update (bound.resetFresh t).cpuOnline cpu true)
  refine ⟨s', ?_⟩
  rw [Kernel.setReserve, if_neg (by omega)]
  simp only [found, Bool.not_true, Bool.false_eq_true, if_false, converts, ok_bind, places,
    ne_eq, not_true, Kernel.afterBind, succeed.schedSetaffinity, if_true]
  exact installs

/-- A total utilization below every bound is accepted without further test. -/
theorem tryBind_accepts {reserve : Tid → Reserve} {bin : CpuTable}
    (room : 0 ≤ bin.cpuTasksLength ∧ bin.cpuTasksLength < taskSchedulingLength)
    (small : int32 (bin.cpuUtil + (reserve t).util) ≤ utilBoundInf) :
    ∃ bin', tryBind reserve bin t = .ok (0, bin') := by
  have bound : ∀ n : ℕ, ¬ boundOf (n + 1) < int32 (bin.cpuUtil + (reserve t).util) := by
    intro n
    have table : ∀ i : Fin 21, 1 ≤ i.val → utilBoundInf ≤ boundOf i.val := by decide
    by_cases listed : n + 1 ≤ utilBoundMax
    · have least := table ⟨n + 1, Nat.lt_succ_of_le listed⟩ (Nat.le_add_left 1 n)
      exact not_lt.mpr (small.trans least)
    · rw [boundOf, if_neg listed]
      exact not_lt.mpr small
  have within : ¬ utilMultiple < int32 ((reserve t).util + bin.cpuUtil) := by
    rw [Int.add_comm]
    unfold utilMultiple
    unfold utilBoundInf at small
    omega
  rw [tryBind, if_neg (by omega), if_neg within, if_neg (by omega)]
  simp [admissionTest, boundScan, bound]

/-- A new task is placed on the CPU that is named if that has room and the total
utilization is below every bound. -/
theorem assign_accepts (flag : (s.reserve t).flag = false)
    (room : 0 ≤ (s.table cpu).cpuTasksLength ∧
      (s.table cpu).cpuTasksLength < taskSchedulingLength)
    (small : int32 ((s.table cpu).cpuUtil + params.util) ≤ utilBoundInf) :
    ∃ bound, s.assign t params (some cpu) = .ok (0, some cpu, bound) := by
  have own : (s.withParams t params t).util = params.util := by
    rw [Kernel.withParams, Kernel.modify_reserve, Function.update_self]
    rfl
  obtain ⟨bin', accepts⟩ := tryBind_accepts room (own ▸ small)
  have binds : s.table.tryBind (s.withParams t params) t cpu =
      .ok (0, Function.update s.table cpu bin') := by
    rw [Table.tryBind, accepts, ok_bind]
  refine ⟨{ (s.modify t fun reserve => reserve.withParams params) with
    table := Function.update s.table cpu bin' }, ?_⟩
  rw [Kernel.assign, if_neg (by simp [flag])]
  change (s.table.tryBind (s.withParams t params) t cpu >>= _) >>= _ = _
  rw [binds]
  rfl

/-! ## Cancelling -/

section Cancel

variable {C T : Timespec} {srv srv' : Services} {cpuid : ℤ}

/-- Cancelling the reservation of a task takes it out of the list of its CPU, and
closes the CPU if nothing is left on it. -/
theorem cancelReserve_table {s₂ : Kernel} {taken : Table} (flag : (s.reserve t).flag = true)
    (takes : takeOut s.table (some (s.reserve t).cpu) (s.reserve t).cpu t (s.reserve t).util =
      .ok taken)
    (cancels : s.cancelReserve srv' t = .ok (0, s₂)) :
    s₂.table = Function.update taken (s.reserve t).cpu (taken (s.reserve t).cpu).closeIfIdle := by
  generalize isZero : (0 : ℤ) = retval at cancels
  cases cancelReserve_effect cancels with
  | missing => exact absurd isZero (by decide)
  | refused => exact absurd isZero (by decide)
  | idle _ unreserved => exact absurd (flag.symm.trans unreserved) Bool.noConfusion
  | @released released _ _ _ _ releases finishes =>
      have final : s₂.table = released.table :=
        ((Kernel.frame_removeTidFile released t).trans ((Kernel.frame_dropEnergyFile _ t).trans
          (Kernel.frame_sysclockSetFrequency finishes))).table
      obtain ⟨taken', takes', result⟩ := bind_eq_ok_iff.mp releases
      have own : (s.modify t Reserve.cancelled).reserve t = (s.reserve t).cancelled := by
        rw [Kernel.modify_reserve, Function.update_self]
      rw [own, Kernel.modify_table] at takes'
      cases takes.symm.trans takes'
      cases result
      rw [own, (Kernel.frame_offlineIfClosed _ _ _).table] at final
      exact final

/-- Cancelling a reservation right after it was created restores the lists.  The
CPU of the task is closed after it if it was closed before, or if the
utilization of the task cancelled out its own. -/
theorem Created.cancelled (created : Created s t params cpu bound) (exact : Exact s.table)
    (absent : t ∉ (s.table cpu).entries) {s₁ s₂ : Kernel}
    (continues : bound.afterBind srv t C T cpu (s.reserve t) = .ok (0, s₁))
    (cancels : s₁.cancelReserve srv' t = .ok (0, s₂)) :
    (∀ other, SameList (s.table other) (s₂.table other)) ∧
      (∀ other, other ≠ cpu →
        ((s₂.table other).cpuOpen = true ↔ (s.table other).cpuUtil ≠ 0)) ∧
      ((s₂.table cpu).cpuOpen = true ↔
        (s.table cpu).cpuUtil ≠ 0 ∧ int32 ((s.table cpu).cpuUtil + params.util) ≠ 0) := by
  have prepared := (afterBind_zero continues).2
  obtain ⟨flag, isCpu, _⟩ := Holding.mk.inj prepared.holding
  obtain ⟨taken, takes, restores⟩ := created.takeOut exact absent prepared.lists
  have ownUtil : (s₁.reserve t).util = params.util :=
    (congrArg Params.util (prepared.params t)).trans created.util_eq
  rw [← ownUtil, ← isCpu] at takes
  rw [cancelReserve_table flag takes cancels, isCpu]
  refine ⟨?_, ?_, ?_⟩
  · intro other
    rcases eq_or_ne other cpu with rfl | different
    · rw [Function.update_self]
      exact (restores other).1.trans (sameList_closeIfIdle _)
    · rw [Function.update_of_ne different]
      exact (restores other).1
  · intro other different
    rw [Function.update_of_ne different, (restores other).2, prepared.cpuOpen,
      (prepared.lists other).util, (created.others other different).util]
    exact decide_eq_true_iff
  · have opened : (taken cpu).cpuOpen =
        decide (int32 ((s.table cpu).cpuUtil + params.util) ≠ 0) := by
      rw [(restores cpu).2, prepared.cpuOpen, (prepared.lists cpu).util,
        created.inserted.util, created.util_eq]
    rw [Function.update_self, ← (restores cpu).1.util, CpuTable.closeIfIdle]
    split
    · rename_i idle
      simp [idle]
    · rename_i load
      rw [opened, decide_eq_true_iff, (restores cpu).1.util]
      rw [(restores cpu).1.util] at load
      exact (and_iff_right load).symm

/-- What a call that creates a reservation went through. -/
theorem setReserve_created {s₁ : Kernel} (exact : Exact s.table)
    (flag : (s.reserve t).flag = false)
    (returns : s.setReserve srv t (some C) (some T) cpuid = .ok (0, s₁)) :
    ∃ params cpu bound, paramsOf C T = .ok params ∧
      s.assign t params (cpuOf cpuid) = .ok (0, some cpu, bound) ∧
      Created s t params cpu bound ∧
      bound.afterBind srv t C T cpu (s.reserve t) = .ok (0, s₁) := by
  rcases setReserve_cases returns with
    ⟨nonzero, _⟩ | ⟨C', T', params, value, chosen, placed, checked, converts, places, finish⟩
  · exact absurd rfl nonzero
  obtain rfl : C = C' := Option.some.inj checked.budget
  obtain rfl : T = T' := Option.some.inj checked.period
  rcases finish with ⟨nonzero, zero, _⟩ | ⟨cpu, rfl, rfl, continues⟩
  · exact absurd zero.symm nonzero
  have creates : s.create t params (cpuOf cpuid) = .ok (0, some cpu, placed) := by
    rw [← places, Kernel.assign, if_neg (by simp [flag])]
  rcases create_cases exact creates with ⟨_, _, isChosen, created⟩ | ⟨busy, _⟩ | ⟨_, isChosen⟩
  · cases isChosen
    exact ⟨params, cpu, placed, converts, places, created, continues⟩
  · exact absurd busy (by decide)
  · cases isChosen

/-- The utilization that a budget and a period ask for. -/
def requestedUtil (C T : Timespec) : ℤ :=
  int32 ((int32 (C.millis * utilMultiple)).tdiv T.millis)

private theorem util_of_paramsOf (converts : paramsOf C T = .ok params) :
    params.util = requestedUtil C T := by
  unfold paramsOf at converts
  split at converts
  · cases converts
  · cases converts
    rfl

/-- A table in which each list is in order of period, and the open CPUs are those
with utilization. -/
structure InOrder (reserve : Tid → Reserve) (table : Table) : Prop where
  exact : Exact table
  capacity : ∀ cpu, (table cpu).cpuTasksLength ≤ taskSchedulingLength
  sorted : ∀ cpu, SortedByPeriod reserve (table cpu).entries
  opens : OpenByLoad table

/-- Cancelling undoes creating, whatever CPU or policy is asked for. -/
def Undoes (reserve : Tid → Reserve) (table : Table) (t : Tid) (C T : Timespec) : Prop :=
  ∀ (s : Kernel) (srv srv' : Services) (cpuid : ℤ) (s₁ s₂ : Kernel),
    s.reserve = reserve → s.table = table → AllSucceed srv →
    s.setReserve srv t (some C) (some T) cpuid = .ok (0, s₁) →
    s₁.cancelReserve srv' t = .ok (0, s₂) → SameTable table s₂.table

/-- A reserved task whose affinity can be set is released. -/
theorem cancelReserve_succeeds (affinity : srv.schedSetaffinity = true)
    (idle : ∀ cpu, s.sysclockGovernor cpu = false) (found : s.found t = true)
    (flag : (s.reserve t).flag = true) : ∃ s', s.cancelReserve srv t = .ok (0, s') := by
  have releases : ∃ released, (s.modify t Reserve.cancelled).release srv t = .ok released :=
    ⟨_, rfl⟩
  obtain ⟨released, releases⟩ := releases
  obtain ⟨_, unnamed⟩ := Kernel.files_removeTidFile released t
  obtain ⟨_, unfiled⟩ := Kernel.files_dropEnergyFile (released.removeTidFile t) t
  have governor : ((released.removeTidFile t).dropEnergyFile t).sysclockGovernor =
      s.sysclockGovernor := by
    rw [(unnamed.trans unfiled).eq, (release_touches releases).1]
    rfl
  have cancelled : ((s.stopTimers t).modify t fun reserve => { reserve with flag := false }) =
      s.modify t Reserve.cancelled := by
    rw [Kernel.stopTimers, modify_modify]
    rfl
  refine ⟨(released.removeTidFile t).dropEnergyFile t, ?_⟩
  simp only [Kernel.cancelReserve, Kernel.unreserve, found, flag, affinity, cancelled, releases,
    Bool.not_true, Bool.false_eq_true, if_false, ok_bind, ne_eq, not_true]
  rw [Sysclock.sysclockSetFrequency,
    setFrequencyLoop_idle fun cpu => (congrFun governor cpu).trans (idle cpu), ok_bind]

/-- A reservation that was just made can be cancelled. -/
theorem cancelReserve_of_setReserve {s₁ : Kernel} (exact : Exact s.table)
    (flag : (s.reserve t).flag = false) (idle : ∀ cpu, s.sysclockGovernor cpu = false)
    (found : s.found t = true)
    (returns : s.setReserve srv t (some C) (some T) cpuid = .ok (0, s₁)) :
    ∃ s₂, s₁.cancelReserve .succeed t = .ok (0, s₂) := by
  obtain ⟨_, _, _, _, _, _, continues⟩ := setReserve_created exact flag returns
  obtain ⟨own, _, changes⟩ := setReserve_changes returns
  have reserved : (s₁.reserve t).flag = true :=
    congrArg Holding.flag (afterBind_zero continues).2.holding
  apply cancelReserve_succeeds rfl _ _ reserved
  · rw [changes.governor_eq]
    exact idle
  · rw [changes.found_eq]
    exact found

/-- A utilization that cancels another out comes from a period that is not
zero. -/
theorem converts_of_cancelled {util : ℤ} (word : int32 util = util) (busy : util ≠ 0)
    (cancelled : int32 (util + requestedUtil C T) = 0) :
    ∃ params, paramsOf C T = .ok params := by
  unfold paramsOf
  split
  · rename_i zero
    have none : requestedUtil C T = 0 := by
      rw [requestedUtil, zero, Int.tdiv_zero]
      rfl
    rw [none, Int.add_zero, word] at cancelled
    exact absurd cancelled busy
  · exact ⟨_, rfl⟩

private theorem cpuOf_val (cpu : Cpu) : cpuOf cpu.val = some cpu := by
  have bound : 0 ≤ (cpu.val : ℤ) ∧ (cpu.val : ℤ) < 4 := by omega
  rw [cpuOf, dif_pos bound]
  simp

/-- A CPU that is named is the one that is chosen. -/
theorem assign_named {chosen : Option Cpu} {retval : ℤ} (flag : (s.reserve t).flag = false)
    (places : s.assign t params (some cpu) = .ok (retval, chosen, bound)) : chosen = some cpu := by
  rw [Kernel.assign, if_neg (by simp [flag])] at places
  obtain ⟨⟨value, picked, last, table⟩, binds, result⟩ := bind_eq_ok_iff.mp places
  obtain ⟨_, _, same⟩ := bind_eq_ok_iff.mp binds
  cases same
  cases result
  rfl

/-- One creation and its cancellation restore the table unless the CPU that the task
was placed on had a utilization that the one of the task cancelled out. -/
theorem sameTable_iff {s₁ s₂ : Kernel} (inOrder : InOrder s.reserve s.table)
    (absent : ∀ cpu, t ∉ (s.table cpu).entries) (flag : (s.reserve t).flag = false)
    (returns : s.setReserve srv t (some C) (some T) cpuid = .ok (0, s₁))
    (cancels : s₁.cancelReserve srv' t = .ok (0, s₂)) :
    ∃ cpu, (∀ named, cpuOf cpuid = some named → cpu = named) ∧
      (s.table cpu).cpuTasksLength ≠ taskSchedulingLength ∧
      (SameTable s.table s₂.table ↔ (s.table cpu).cpuUtil = 0 ∨
        int32 ((s.table cpu).cpuUtil + requestedUtil C T) ≠ 0) := by
  obtain ⟨params, cpu, bound, converts, places, created, continues⟩ :=
    setReserve_created inOrder.exact flag returns
  obtain ⟨lists, opens, own⟩ := created.cancelled inOrder.exact (absent cpu) continues cancels
  rw [util_of_paramsOf converts] at own
  refine ⟨cpu, ?_, created.room, ?_⟩
  · intro named isNamed
    rw [isNamed] at places
    exact Option.some.inj (assign_named flag places)
  · rw [Decidable.or_iff_not_imp_left]
    constructor
    · intro same busy
      rw [← ne_eq, ← inOrder.opens cpu, ← (same cpu).cpuOpen] at busy
      exact (own.mp busy).2
    · intro kept other
      refine ⟨lists other, ?_⟩
      rw [Bool.eq_iff_iff, inOrder.opens other]
      rcases eq_or_ne other cpu with rfl | different
      · rw [own]
        exact and_iff_left_of_imp kept
      · exact opens other different

/-- With a CPU that is named, only that CPU matters. -/
theorem sameTable_iff_of_cpuid {s₁ s₂ : Kernel} (inOrder : InOrder s.reserve s.table)
    (absent : ∀ cpu, t ∉ (s.table cpu).entries) (flag : (s.reserve t).flag = false)
    (returns : s.setReserve srv t (some C) (some T) cpu.val = .ok (0, s₁))
    (cancels : s₁.cancelReserve srv' t = .ok (0, s₂)) :
    SameTable s.table s₂.table ↔ (s.table cpu).cpuUtil = 0 ∨
      int32 ((s.table cpu).cpuUtil + requestedUtil C T) ≠ 0 := by
  obtain ⟨placed, named, _, same⟩ := sameTable_iff inOrder absent flag returns cancels
  rwa [named cpu (cpuOf_val cpu)] at same

/-- Cancelling undoes creating exactly when no CPU that has room for the task has
a utilization that the one of the task cancels out. -/
theorem undoes_iff {reserve : Tid → Reserve} {table : Table} (inOrder : InOrder reserve table)
    (absent : ∀ cpu, t ∉ (table cpu).entries) (flag : (reserve t).flag = false) :
    Undoes reserve table t C T ↔
      ∀ cpu, (table cpu).cpuTasksLength = taskSchedulingLength ∨ (table cpu).cpuUtil = 0 ∨
        int32 ((table cpu).cpuUtil + requestedUtil C T) ≠ 0 := by
  constructor
  · intro undoes cpu
    by_contra cancels
    simp only [not_or, not_not] at cancels
    obtain ⟨notFull, busy, cancelled⟩ := cancels
    have room := lt_of_le_of_ne (inOrder.capacity cpu) notFull
    obtain ⟨params, converts⟩ := converts_of_cancelled (inOrder.exact cpu).2 busy cancelled
    have small : int32 ((table cpu).cpuUtil + params.util) ≤ utilBoundInf := by
      rw [util_of_paramsOf converts, cancelled]
      decide
    -- a kernel without frequency scaling, on which every call returns
    let s : Kernel := { Kernel.bare with reserve := reserve, table := table }
    obtain ⟨bound, places⟩ : ∃ bound, s.assign t params (cpuOf cpu.val) =
        .ok (0, some cpu, bound) := by
      rw [cpuOf_val]
      exact assign_accepts flag ⟨(inOrder.exact cpu).1, room⟩ small
    obtain ⟨s₁, returns⟩ := setReserve_succeeds allSucceed_succeed (fun _ => rfl) rfl converts
      (by omega) places
    obtain ⟨s₂, returns'⟩ :=
      cancelReserve_of_setReserve inOrder.exact flag (fun _ => rfl) rfl returns
    have same := undoes s .succeed .succeed cpu.val s₁ s₂ rfl rfl allSucceed_succeed returns
      returns'
    exact ((sameTable_iff_of_cpuid inOrder absent flag returns returns').mp same).elim busy
      fun kept => kept cancelled
  · rintro kept s srv srv' cpuid s₁ s₂ rfl rfl _ returns cancels
    obtain ⟨cpu, _, room, same⟩ := sameTable_iff inOrder absent flag returns cancels
    exact same.mpr ((kept cpu).resolve_left room)

/-- A third task, of a quarter of a CPU. -/
theorem undoes_iff_twoTasks :
    Undoes twoTasks.reserve twoTasks.table 3 ⟨0, 5000000⟩ ⟨0, 20000000⟩ ↔
      ∀ cpu, (twoTasks.table cpu).cpuTasksLength = taskSchedulingLength ∨
        (twoTasks.table cpu).cpuUtil = 0 ∨
        int32 ((twoTasks.table cpu).cpuUtil + requestedUtil ⟨0, 5000000⟩ ⟨0, 20000000⟩) ≠ 0 := by
  apply undoes_iff
  · refine ⟨?_, by decide, ?_, ?_⟩
    · unfold Exact
      decide
    · unfold SortedByPeriod
      decide
    · unfold OpenByLoad
      decide
  · decide
  · decide

/-- Half of a CPU, a budget of minus as much, and its cancellation: the CPU has
its utilization back, and is closed. -/
theorem undoes_not_negative :
    ∃ s s₁ s₂, Reaches step Serial Boot s ∧ InOrder s.reserve s.table ∧
      (∀ cpu, 2 ∉ (s.table cpu).entries) ∧ (s.reserve 2).flag = false ∧
      s.setReserve .succeed 2 (some ⟨0, -5000000⟩) (some ⟨0, 10000000⟩) 0 = .ok (0, s₁) ∧
      s₁.cancelReserve .succeed 2 = .ok (0, s₂) ∧ (s₂.table 0).cpuUtil = 5000 ∧
      (s.table 0).cpuOpen = true ∧ (s₂.table 0).cpuOpen = false := by
  refine ⟨after step .bare (reserveMillis 1 5 10 0), _, _, ?_, ?_, by decide, rfl, rfl, rfl, rfl,
    rfl, rfl⟩
  · apply Reaches.after
    · exact .start boot_bare
    · exact (serial_reserveMillis rfl ⟨by decide, by decide, by decide⟩ rfl).1
    · decide
  · refine ⟨?_, by decide, ?_, ?_⟩
    · unfold Exact
      decide
    · unfold SortedByPeriod
      decide
    · unfold OpenByLoad
      decide

end Cancel

end Rtes.Reservation
