import Rtes.Reservation.Admission
import Rtes.Reservation.Syscall

/-!
# The table of reserved tasks as a placement

Abstractly the table is a placement: it says on which CPU each reserved task
is.  A table represents a placement when the list of each CPU holds exactly the
tasks placed there, once each, and passes the test of `try_bind`.  Binding a task
extends the placement, taking one out restricts it, and a task that was taken
out can always be bound again where it was.
-/

namespace Rtes.Reservation

open Rtes.RateMonotonic Rtes.Slots Rtes.Transition Rtes.Word

variable {reserve reserve' : Tid → Reserve} {table table' : Table} {t : Tid} {cpu : Cpu}

/-! ## Binding on the table -/

/-- Two tables that differ at most in slots behind the live entries. -/
def SameTable (table table' : Table) : Prop :=
  ∀ cpu, SameBin (table cpu) (table' cpu)

theorem SameTable.refl (table : Table) : SameTable table table :=
  fun cpu => .refl (table cpu)

theorem SameTable.trans {first second third : Table} (left : SameTable first second)
    (right : SameTable second third) : SameTable first third :=
  fun cpu => (left cpu).trans (right cpu)

/-- Lengths that are not negative and utilizations that are words. -/
def Exact (table : Table) : Prop :=
  ∀ cpu, 0 ≤ (table cpu).cpuTasksLength ∧ int32 (table cpu).cpuUtil = (table cpu).cpuUtil

theorem Exact.of_sameTable (exact : Exact table) (same : SameTable table table') :
    Exact table' := by
  intro cpu
  rw [(same cpu).length, (same cpu).util]
  exact exact cpu

theorem Table.tryBind_eq_ok {retval : ℤ}
    (returns : table.tryBind reserve t cpu = .ok (retval, table')) :
    ∃ bin', Reservation.tryBind reserve (table cpu) t = .ok (retval, bin') ∧
      table' = Function.update table cpu bin' := by
  obtain ⟨⟨value, bin'⟩, bound, result⟩ := bind_eq_ok_iff.mp returns
  cases result
  exact ⟨bin', bound, rfl⟩

theorem sameTable_update {bin' : CpuTable} (same : SameBin (table cpu) bin') :
    SameTable table (Function.update table cpu bin') := by
  intro other
  rcases eq_or_ne other cpu with rfl | different
  · rwa [Function.update_self]
  · rw [Function.update_of_ne different]
    exact .refl _

theorem Table.tryBind_refused {retval : ℤ} (exact : Exact table)
    (returns : table.tryBind reserve t cpu = .ok (retval, table')) (nonzero : retval ≠ 0) :
    retval = EBUSY ∧ SameTable table table' := by
  obtain ⟨bin', bound, rfl⟩ := Table.tryBind_eq_ok returns
  obtain ⟨busy, same⟩ := Reservation.tryBind_refused (exact cpu).2 bound nonzero
  exact ⟨busy, sameTable_update same⟩

/-- What trying one CPU after another can come to: the task was bound to one of
them after others refused it, all of them refused it, or none was tried. -/
inductive BindResult (reserve : Tid → Reserve) (t : Tid) (table : Table) :
    ℤ → Option Cpu → Table → Prop
  | bound {middle table' : Table} {cpu : Cpu} : SameTable table middle →
      middle.tryBind reserve t cpu = .ok (0, table') →
      BindResult reserve t table 0 (some cpu) table'
  | refused {cpuid : Option Cpu} {table' : Table} : SameTable table table' →
      BindResult reserve t table EBUSY cpuid table'
  | untried {table' : Table} : SameTable table table' → BindResult reserve t table 0 none table'

theorem BindResult.of_sameTable {middle : Table} {retval : ℤ} {cpuid : Option Cpu}
    (same : SameTable table middle) (result : BindResult reserve t middle retval cpuid table') :
    BindResult reserve t table retval cpuid table' := by
  cases result with
  | bound before binds => exact .bound (same.trans before) binds
  | refused after => exact .refused (same.trans after)
  | untried after => exact .untried (same.trans after)

private theorem Table.tryBind_result {retval : ℤ} (exact : Exact table)
    (returns : table.tryBind reserve t cpu = .ok (retval, table')) :
    BindResult reserve t table retval (some cpu) table' := by
  by_cases zero : retval = 0
  · subst zero
    exact .bound (.refl table) returns
  · obtain ⟨rfl, same⟩ := Table.tryBind_refused exact returns zero
    exact .refused same

/-- One CPU of the loops takes the task, or the loop goes on with the same lists. -/
private theorem tryCpu_result {value retval : ℤ} {cpuid : Option Cpu} {middle : Table}
    {rest : Except Fault (ℤ × Option Cpu × Table)} (exact : Exact table)
    (binds : table.tryBind reserve t cpu = .ok (value, middle))
    (goesOn : value = EBUSY → Exact middle → rest = .ok (retval, cpuid, table') →
      BindResult reserve t middle retval cpuid table')
    (returns : (if value = 0 then .ok (0, some cpu, middle) else rest) =
      .ok (retval, cpuid, table')) : BindResult reserve t table retval cpuid table' := by
  by_cases zero : value = 0
  · rw [if_pos zero] at returns
    cases returns
    exact .bound (.refl table) (zero ▸ binds)
  · rw [if_neg zero] at returns
    obtain ⟨busy, same⟩ := Table.tryBind_refused exact binds zero
    exact (goesOn busy (exact.of_sameTable same) returns).of_sameTable same

theorem fitLoop_result {order : List Cpu} {closedBin cpuid : Option Cpu} {start retval : ℤ}
    (exact : Exact table) (starts : start = 0 ∨ start = EBUSY)
    (returns : fitLoop reserve t order closedBin start table = .ok (retval, cpuid, table')) :
    BindResult reserve t table retval cpuid table' := by
  induction order generalizing closedBin start table with
  | nil =>
      cases closedBin with
      | none =>
          cases returns
          rcases starts with rfl | rfl
          · exact .untried (.refl _)
          · exact .refused (.refl _)
      | some closedBin =>
          obtain ⟨⟨value, middle⟩, binds, result⟩ := bind_eq_ok_iff.mp returns
          cases result
          exact Table.tryBind_result exact binds
  | cons cpu rest ih =>
      rw [fitLoop] at returns
      split at returns
      · obtain ⟨⟨value, middle⟩, binds, result⟩ := bind_eq_ok_iff.mp returns
        exact tryCpu_result exact binds (fun busy same => ih same (.inr busy)) result
      · exact ih exact starts returns

private theorem listLoop_result {order : List Cpu} {cpuid : Option Cpu} {start retval : ℤ}
    (exact : Exact table) (starts : start = 0 ∨ start = EBUSY)
    (returns : listLoop reserve t order start table = .ok (retval, cpuid, table')) :
    BindResult reserve t table retval cpuid table' := by
  induction order generalizing start table with
  | nil =>
      cases returns
      rcases starts with rfl | rfl
      · exact .untried (.refl _)
      · exact .refused (.refl _)
  | cons cpu rest ih =>
      obtain ⟨⟨value, middle⟩, binds, result⟩ := bind_eq_ok_iff.mp returns
      exact tryCpu_result exact binds (fun busy same => ih same (.inr busy)) result

private theorem place_result {policy : PartitionPolicy} {last last' : Cpu} {cpuid : Option Cpu}
    {retval : ℤ} (exact : Exact table)
    (returns : place reserve policy last table t = .ok (retval, cpuid, last', table')) :
    BindResult reserve t table retval cpuid table' := by
  cases policy with
  | FFD =>
      obtain ⟨⟨value, chosen, middle⟩, loops, result⟩ := bind_eq_ok_iff.mp returns
      cases result
      exact fitLoop_result exact (.inl rfl) loops
  | NFD =>
      obtain ⟨⟨value, chosen, middle⟩, loops, result⟩ := bind_eq_ok_iff.mp returns
      cases result
      exact fitLoop_result exact (.inl rfl) loops
  | BFD =>
      obtain ⟨sortID, _, rest⟩ := bind_eq_ok_iff.mp returns
      obtain ⟨⟨value, chosen, middle⟩, loops, result⟩ := bind_eq_ok_iff.mp rest
      cases result
      exact fitLoop_result exact (.inl rfl) loops
  | WFD =>
      obtain ⟨sortID, _, rest⟩ := bind_eq_ok_iff.mp returns
      obtain ⟨⟨value, chosen, middle⟩, loops, result⟩ := bind_eq_ok_iff.mp rest
      cases result
      exact fitLoop_result exact (.inl rfl) loops
  | LST =>
      obtain ⟨sortID, _, rest⟩ := bind_eq_ok_iff.mp returns
      obtain ⟨⟨value, chosen, middle⟩, loops, result⟩ := bind_eq_ok_iff.mp rest
      cases result
      exact listLoop_result exact (.inl rfl) loops

theorem bindTask_result {policy : PartitionPolicy} {last last' : Cpu} {named cpuid : Option Cpu}
    {retval : ℤ} (exact : Exact table)
    (returns : bindTask reserve policy last table t named = .ok (retval, cpuid, last', table')) :
    BindResult reserve t table retval cpuid table' := by
  cases named with
  | none => exact place_result exact returns
  | some cpu =>
      obtain ⟨⟨value, middle⟩, binds, result⟩ := bind_eq_ok_iff.mp returns
      cases result
      exact Table.tryBind_result exact binds

/-! ## Taking out of the table -/

/-- The bin after its list was shortened by one task. -/
structure Shortened (kept : List Tid) (util : ℤ) (bin bin' : CpuTable) : Prop where
  entries : bin'.entries = kept
  length : bin'.cpuTasksLength = bin.cpuTasksLength - 1
  util : bin'.cpuUtil = int32 (bin.cpuUtil - util)
  cpuOpen : bin'.cpuOpen = bin.cpuOpen

/-- With its own row, taking a task out erases it from the list of its CPU. -/
theorem takeOut_own (util : ℤ) (present : t ∈ (table cpu).entries) :
    ∃ table', takeOut table (some cpu) cpu t util = .ok table' ∧
      Shortened ((table cpu).entries.erase t) util (table cpu) (table' cpu) ∧
      ∀ other, other ≠ cpu → SameBin (table other) (table' other) := by
  refine ⟨_, rfl, ?_, ?_⟩
  · have pred : ((table cpu).cpuTasksLength - 1).toNat = (table cpu).cpuTasksLength.toNat - 1 := by
      omega
    simp only [takeOut.shorten, Function.update_self]
    refine ⟨?_, rfl, rfl, rfl⟩
    simp only [CpuTable.entries, pred]
    exact live_removeSlot present
  · intro other different
    simp only [takeOut.shorten, Function.update_of_ne different]
    exact .refl _

/-- With the row of another CPU, taking a task out drops the last task from the
list of its CPU instead. -/
theorem takeOut_other {row : Cpu} (util : ℤ) (different : row ≠ cpu)
    (absent : t ∉ (table row).entries) :
    ∃ table', takeOut table (some row) cpu t util = .ok table' ∧
      Shortened (table cpu).entries.dropLast util (table cpu) (table' cpu) ∧
      ∀ other, other ≠ cpu → SameBin (table other) (table' other) := by
  refine ⟨_, rfl, ?_, ?_⟩
  · have pred : ((table cpu).cpuTasksLength - 1).toNat = (table cpu).cpuTasksLength.toNat - 1 := by
      omega
    simp only [takeOut.shorten, Function.update_self, Function.update_of_ne different.symm]
    refine ⟨?_, rfl, rfl, rfl⟩
    simp only [CpuTable.entries, pred]
    exact live_pred _ _
  · intro other away
    simp only [takeOut.shorten, Function.update_of_ne away]
    apply sameTable_update
    exact ⟨⟨live_removeSlot_of_not_mem absent, rfl, rfl⟩, rfl⟩

/-- Taking out a task that was just bound leaves the table as it was. -/
theorem takeOut_bound (exact : Exact table) (absent : t ∉ (table cpu).entries)
    (returns : table.tryBind reserve t cpu = .ok (0, table')) :
    ∃ taken, takeOut table' (some cpu) cpu t (reserve t).util = .ok taken ∧
      SameTable table taken := by
  obtain ⟨bin', binds, rfl⟩ := Table.tryBind_eq_ok returns
  have inserted := tryBind_inserted (exact cpu).2 binds
  have present : t ∈ (Function.update table cpu bin' cpu).entries := by
    rw [Function.update_self, inserted.entries, mem_insertBehind]
    exact .inl rfl
  obtain ⟨taken, takes, own, others⟩ := takeOut_own (reserve t).util present
  refine ⟨taken, takes, ?_⟩
  intro other
  rcases eq_or_ne other cpu with rfl | different
  · rw [Function.update_self] at own
    refine ⟨⟨?_, ?_, ?_⟩, own.cpuOpen.trans inserted.cpuOpen⟩
    · rw [own.entries, inserted.entries, erase_insertBehind absent]
    · rw [own.length, inserted.length, Int.add_sub_cancel]
    · rw [own.util, inserted.util, int32_add_sub_cancel, (exact other).2]
  · have same := others other different
    rwa [Function.update_of_ne different] at same

/-! ## Only the parameters matter -/

theorem InRange.congr {first second : Reserve} (range : InRange first)
    (same : second.params = first.params) : InRange second := by
  obtain ⟨period, budget, util⟩ := Params.mk.inj same
  have load : loadOf second = loadOf first := by simp only [loadOf, period, budget]
  exact ⟨by rw [budget]; exact range.budget_pos, by rw [budget]; exact range.budget_le,
    by rw [period]; exact range.period_pos, by rw [period]; exact range.period_le,
    by rw [util, load]; exact range.util⟩

theorem loads_congr {tasks : List Tid}
    (same : ∀ other ∈ tasks, (reserve' other).params = (reserve other).params) :
    loads reserve' tasks = loads reserve tasks := by
  apply List.map_congr_left
  intro other member
  obtain ⟨period, budget, _⟩ := Params.mk.inj (same other member)
  simp only [loadOf, period, budget]

theorem Acceptable.congr {tasks : List Tid} (acceptable : Acceptable reserve tasks)
    (same : ∀ other ∈ tasks, (reserve' other).params = (reserve other).params) :
    Acceptable reserve' tasks where
  count := acceptable.count
  inRange := fun other member => (acceptable.inRange other member).congr (same other member)
  sorted := by
    apply acceptable.sorted.imp_of_mem
    intro first second firstMem secondMem le
    obtain ⟨firstPeriod, _⟩ := Params.mk.inj (same first firstMem)
    obtain ⟨secondPeriod, _⟩ := Params.mk.inj (same second secondMem)
    rwa [firstPeriod, secondPeriod]
  total := by
    rw [loads_congr same]
    exact acceptable.total
  hybrid := by
    rw [loads_congr same]
    exact acceptable.hybrid

theorem Admitted.congr {bin : CpuTable} (admitted : Admitted reserve bin)
    (same : ∀ other ∈ bin.entries, (reserve' other).params = (reserve other).params) :
    Admitted reserve' bin where
  nonneg := admitted.nonneg
  util := by
    rw [loads_congr same]
    exact admitted.util
  acceptable := admitted.acceptable.congr same

/-- Shortening an admitted bin by one of its tasks keeps it admitted. -/
theorem Admitted.of_shortened {bin bin' : CpuTable} (admitted : Admitted reserve bin)
    (present : t ∈ bin.entries)
    (shortened : Shortened (bin.entries.erase t) (reserve t).util bin bin') :
    Admitted reserve bin' := by
  have positive : 1 ≤ bin.cpuTasksLength := by
    have length := length_entries admitted.nonneg
    have some := List.length_pos_of_mem present
    omega
  have total := admitted.acceptable.total
  have sum : shareSum share (loads reserve bin.entries) =
      shareSum share (loads reserve (t :: bin.entries.erase t)) :=
    shareSum_loads_perm (List.perm_cons_erase present)
  rw [shareSum_loads_cons] at sum
  refine ⟨by rw [shortened.length]; omega, ?_, ?_⟩
  · rw [shortened.util, shortened.entries, admitted.util, sum,
      (admitted.acceptable.inRange t present).util, Nat.cast_add, add_sub_cancel_left,
      int32_natCast (by omega)]
  · rw [shortened.entries]
    exact admitted.acceptable.of_subperm
      (admitted.acceptable.sorted.sublist List.erase_sublist) List.erase_sublist.subperm

/-! ## Placements -/

/-- A placement: the CPU of each reserved task. -/
abbrev Placement := Tid → Option Cpu

/-- The table holds exactly the placed tasks, once each, and every list passes
the test of `try_bind`. -/
structure Represents (reserve : Tid → Reserve) (table : Table) (placement : Placement) :
    Prop where
  admitted : ∀ cpu, Admitted reserve (table cpu)
  nodup : ∀ cpu, (table cpu).entries.Nodup
  mem_iff : ∀ cpu t, t ∈ (table cpu).entries ↔ placement t = some cpu

/-- The same tasks in the same order but for tasks of equal period. -/
structure SameTasks (reserve : Tid → Reserve) (bin bin' : CpuTable) : Prop where
  perm : bin'.entries.Perm bin.entries
  periods : (bin'.entries.map fun t => (reserve t).period) =
    bin.entries.map fun t => (reserve t).period
  length : bin'.cpuTasksLength = bin.cpuTasksLength
  util : bin'.cpuUtil = bin.cpuUtil

namespace Represents

variable {placement : Placement}

theorem exact (represents : Represents reserve table placement) : Exact table :=
  fun cpu => ⟨(represents.admitted cpu).nonneg, (represents.admitted cpu).word⟩

theorem of_sameList (represents : Represents reserve table placement)
    (same : ∀ cpu, SameList (table cpu) (table' cpu)) : Represents reserve table' placement where
  admitted := fun cpu => (represents.admitted cpu).of_sameList (same cpu)
  nodup := by
    intro cpu
    rw [(same cpu).entries]
    exact represents.nodup cpu
  mem_iff := by
    intro cpu t
    rw [(same cpu).entries]
    exact represents.mem_iff cpu t

theorem of_sameTable (represents : Represents reserve table placement)
    (same : SameTable table table') : Represents reserve table' placement :=
  represents.of_sameList fun cpu => (same cpu).toSameList

theorem congr (represents : Represents reserve table placement)
    (same : ∀ other, placement other ≠ none → (reserve' other).params = (reserve other).params) :
    Represents reserve' table placement where
  admitted := by
    intro cpu
    apply (represents.admitted cpu).congr
    intro other member
    apply same
    rw [(represents.mem_iff cpu other).mp member]
    exact Option.some_ne_none cpu
  nodup := represents.nodup
  mem_iff := represents.mem_iff

/-- A placement determines the table up to the order of equal periods. -/
theorem sameTasks (first : Represents reserve table placement)
    (second : Represents reserve table' placement) (cpu : Cpu) :
    SameTasks reserve (table cpu) (table' cpu) := by
  have perm : (table' cpu).entries.Perm (table cpu).entries := by
    rw [List.perm_ext_iff_of_nodup (second.nodup cpu) (first.nodup cpu)]
    intro t
    rw [second.mem_iff, first.mem_iff]
  refine ⟨perm, ?_, ?_, ?_⟩
  · apply (perm.map _).eq_of_pairwise (fun _ _ _ _ => le_antisymm)
    · exact (second.admitted cpu).acceptable.sorted.map _ fun _ _ le => le
    · exact (first.admitted cpu).acceptable.sorted.map _ fun _ _ le => le
  · rw [← length_entries (second.admitted cpu).nonneg, ← length_entries (first.admitted cpu).nonneg,
      perm.length_eq]
  · rw [(second.admitted cpu).util, (first.admitted cpu).util, shareSum_loads_perm perm]

/-- Binding a task extends the placement. -/
theorem bound (represents : Represents reserve table placement) (absent : placement t = none)
    (range : InRange (reserve t)) (returns : table.tryBind reserve t cpu = .ok (0, table')) :
    Represents reserve table' (Function.update placement t (some cpu)) := by
  obtain ⟨bin', binds, rfl⟩ := Table.tryBind_eq_ok returns
  obtain ⟨inserted, admitted⟩ := (represents.admitted cpu).tryBind_zero range binds
  have fresh : t ∉ (table cpu).entries := by
    simp [represents.mem_iff, absent]
  constructor
  · intro other
    rcases eq_or_ne other cpu with rfl | different
    · rwa [Function.update_self]
    · rw [Function.update_of_ne different]
      exact represents.admitted other
  · intro other
    rcases eq_or_ne other cpu with rfl | different
    · rw [Function.update_self, inserted.entries, (insertBehind_perm _ _ _).nodup_iff]
      exact List.nodup_cons.mpr ⟨fresh, represents.nodup other⟩
    · rw [Function.update_of_ne different]
      exact represents.nodup other
  · intro other task
    rcases eq_or_ne other cpu with rfl | different
    · rw [Function.update_self, inserted.entries, mem_insertBehind, represents.mem_iff]
      rcases eq_or_ne task t with rfl | away
      · simp
      · simp [away]
    · rw [Function.update_of_ne different, represents.mem_iff]
      rcases eq_or_ne task t with rfl | away
      · simp [absent, different.symm]
      · simp [away]

/-- Taking a task out restricts the placement. -/
theorem shortened (represents : Represents reserve table placement)
    (placed : placement t = some cpu)
    (own : Shortened ((table cpu).entries.erase t) (reserve t).util (table cpu) (table' cpu))
    (others : ∀ other, other ≠ cpu → SameBin (table other) (table' other)) :
    Represents reserve table' (Function.update placement t none) := by
  have present : t ∈ (table cpu).entries := (represents.mem_iff cpu t).mpr placed
  constructor
  · intro other
    rcases eq_or_ne other cpu with rfl | different
    · exact (represents.admitted other).of_shortened present own
    · exact (represents.admitted other).of_sameList (others other different).toSameList
  · intro other
    rcases eq_or_ne other cpu with rfl | different
    · rw [own.entries]
      exact (represents.nodup other).erase t
    · rw [(others other different).entries]
      exact represents.nodup other
  · intro other task
    rcases eq_or_ne other cpu with rfl | different
    · rw [own.entries, (represents.nodup other).mem_erase_iff, represents.mem_iff]
      rcases eq_or_ne task t with rfl | away
      · simp
      · simp [away]
    · rw [(others other different).entries, represents.mem_iff]
      rcases eq_or_ne task t with rfl | away
      · simp [placed, different.symm]
      · simp [away]

/-- The loop that takes a task out works when it searches the row of the task's
own CPU, or when the task is the last of its list. -/
theorem takeOut {row : Cpu} (represents : Represents reserve table placement)
    (placed : placement t = some cpu)
    (found : row = cpu ∨ (table cpu).entries.getLast? = some t) :
    ∃ table', Reservation.takeOut table (some row) cpu t (reserve t).util = .ok table' ∧
      Represents reserve table' (Function.update placement t none) ∧
      ∀ other, (table' other).cpuOpen = (table other).cpuOpen := by
  have present : t ∈ (table cpu).entries := (represents.mem_iff cpu t).mpr placed
  have done : ∃ table', Reservation.takeOut table (some row) cpu t (reserve t).util = .ok table' ∧
      Shortened ((table cpu).entries.erase t) (reserve t).util (table cpu) (table' cpu) ∧
      ∀ other, other ≠ cpu → SameBin (table other) (table' other) := by
    rcases eq_or_ne row cpu with rfl | different
    · exact takeOut_own _ present
    · have last := found.resolve_left different
      have absent : t ∉ (table row).entries := by
        simp [represents.mem_iff, placed, different.symm]
      have dropped : (table cpu).entries.dropLast = (table cpu).entries.erase t := by
        obtain ⟨before, split⟩ := List.getLast?_eq_some_iff.mp last
        have nodup := represents.nodup cpu
        rw [split, List.nodup_append_comm, List.singleton_append, List.nodup_cons] at nodup
        rw [split, List.dropLast_concat, List.erase_append_right _ nodup.1, List.erase_cons_head,
          List.append_nil]
      rw [← dropped]
      exact takeOut_other _ different absent
  obtain ⟨table', returns, own, others⟩ := done
  refine ⟨table', returns, represents.shortened placed own others, ?_⟩
  intro other
  rcases eq_or_ne other cpu with rfl | different
  · exact own.cpuOpen
  · exact (others other different).cpuOpen

/-- A task that was taken out can be bound again where it was: the list it came
from passed the test. -/
theorem tryBind_back {original : Table} (before : Represents reserve original placement)
    (placed : placement t = some cpu)
    (represents : Represents reserve table (Function.update placement t none)) :
    ∃ table', table.tryBind reserve t cpu = .ok (0, table') ∧
      Represents reserve table' placement := by
  have present : t ∈ (original cpu).entries := (before.mem_iff cpu t).mpr placed
  have rest : (table cpu).entries.Perm ((original cpu).entries.erase t) := by
    rw [List.perm_ext_iff_of_nodup (represents.nodup cpu) ((before.nodup cpu).erase t)]
    intro task
    rw [represents.mem_iff, (before.nodup cpu).mem_erase_iff, before.mem_iff]
    rcases eq_or_ne task t with rfl | away
    · simp
    · simp [away]
  have whole : (t :: (table cpu).entries).Perm (original cpu).entries :=
    (rest.cons t).trans (List.perm_cons_erase present).symm
  obtain ⟨bin', binds, _⟩ := (represents.admitted cpu).tryBind_part
    (before.admitted cpu).acceptable whole.subperm
  have returns : table.tryBind reserve t cpu = .ok (0, Function.update table cpu bin') := by
    rw [Table.tryBind, binds, ok_bind]
  refine ⟨_, returns, ?_⟩
  have bound := represents.bound (Function.update_self t none placement)
    ((before.admitted cpu).acceptable.inRange t present) returns
  rwa [Function.update_idem, ← placed, Function.update_eq_self] at bound

end Represents

/-! ## Open flags -/

/-- Binding does not touch the open flags. -/
theorem Table.tryBind_cpuOpen {retval : ℤ} (exact : Exact table)
    (returns : table.tryBind reserve t cpu = .ok (retval, table')) (other : Cpu) :
    (table' other).cpuOpen = (table other).cpuOpen := by
  obtain ⟨bin', binds, rfl⟩ := Table.tryBind_eq_ok returns
  rcases eq_or_ne other cpu with rfl | different
  · rw [Function.update_self]
    rcases tryBind_cases (exact other).2 binds with ⟨_, inserted⟩ | ⟨_, same⟩
    · exact inserted.cpuOpen
    · exact same.cpuOpen
  · rw [Function.update_of_ne different]

end Rtes.Reservation
