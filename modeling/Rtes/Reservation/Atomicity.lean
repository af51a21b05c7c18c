import Rtes.Reservation.Runs
import Rtes.Reservation.Timing

/-!
# What a failed call of `set_reserve` leaves behind

`set_reserve` undoes what it did to the table when `try_bind` refuses the task
and when its affinity cannot be set.  It undoes nothing when one of the files
cannot be set up, and a revision that searches the row of another CPU has lost a
task of the old CPU whatever happens next.
-/

namespace Rtes.Reservation

open Rtes.RateMonotonic Rtes.Slots Rtes.Transition Rtes.Word

/-! ## Unchanged states -/

/-- The flag of the task says what is in the table and which timers run. -/
structure Trusted (s : Kernel) (t : Tid) : Prop where
  represents : Represents s.reserve s.table s.placement
  live : s.exited t = false
  quiet : (s.reserve t).flag = false →
    (s.reserve t).cTimer = false ∧ (s.reserve t).pTimer = false

theorem Boot.trusted {s : Kernel} {t : Tid} (boot : Boot s) (live : s.exited t = false) :
    Trusted s t :=
  ⟨boot.consistent.represents, live, fun _ => (boot.reserve t).2.2⟩

/-- A task without a reservation has no timer running. -/
def Timing.Quiet (timing : Timing) : Prop :=
  timing.flag = false → timing.cTimer = false ∧ timing.pTimer = false

theorem Timing.Quiet.of_flag {timing : Timing} (flag : timing.flag = true) : timing.Quiet :=
  fun off => Bool.noConfusion (flag.symm.trans off)

/-- No step of the timing machine leaves a timer running without a reservation,
except for a `set_reserve` that cannot set up its files. -/
theorem TimingStep.quiet {s : Kernel} {op : Op} {timing : Tid → Timing}
    (taken : TimingStep s.found s.timing op timing) (serial : Serial s op)
    (quiet : ∀ t, (s.timing t).Quiet) : ∀ t, (timing t).Quiet := by
  cases taken with
  | idle => exact quiet
  | undone =>
      apply forall_update quiet
      unfold Timing.fresh
      split
      · exact quiet _
      · exact quiet _
  | started outcome =>
      apply forall_update quiet
      rcases outcome with rfl | ⟨_, fails⟩
      · exact .of_flag rfl
      · exact absurd serial.2.2 fails
  | cancelled _ _ => exact forall_update quiet fun _ => ⟨rfl, rfl⟩
  | exited _ => exact forall_update quiet fun _ => ⟨rfl, rfl⟩
  | slept flag =>
      apply forall_update quiet
      unfold Timing.asleep
      split
      · exact quiet _
      · exact quiet _
  | outOfBudget =>
      apply forall_update quiet
      unfold Timing.asleep
      split
      · exact fun off => ⟨rfl, (quiet _ off).2⟩
      · exact fun off => ⟨rfl, (quiet _ off).2⟩
  | woken =>
      apply forall_update quiet
      unfold Timing.awake
      split
      · exact quiet _
      · exact quiet _
  | switchedOut flag => exact forall_update quiet (.of_flag flag)
  | switchedIn flag => exact forall_update quiet (.of_flag flag)

/-- Serial and orderly runs reach only states in which every live task's flag
tells the truth. -/
theorem reaches_trusted {s : Kernel} {t : Tid}
    (reached : Reaches step (fun s op => Serial s op ∧ Orderly s op) Boot s)
    (live : s.exited t = false) : Trusted s t := by
  have consistent := reaches_consistent (fun _ _ permitted => permitted.1)
    (fun _ _ permitted => permitted.2) reached
  have quiet : ∀ t, (s.timing t).Quiet := by
    apply reached.invariant
    · intro state boot t _
      exact (boot.reserve t).2.2
    · intro state op target quiet permitted taken
      exact (step_timing taken).quiet permitted.1 quiet
  exact ⟨consistent.represents, live, quiet t⟩

/-- The table, the reservation the task holds and its timers are as before; a
task without a reservation is in no list and has no timer running. -/
structure Unchanged (s : Kernel) (t : Tid) (s' : Kernel) : Prop where
  lists : ∀ cpu, (s'.table cpu).entries.Perm (s.table cpu).entries
  length : ∀ cpu, (s'.table cpu).cpuTasksLength = (s.table cpu).cpuTasksLength
  util : ∀ cpu, (s'.table cpu).cpuUtil = (s.table cpu).cpuUtil
  cpuOpen : ∀ cpu, (s'.table cpu).cpuOpen = (s.table cpu).cpuOpen
  flag : (s'.reserve t).flag = (s.reserve t).flag
  reservation : (s.reserve t).flag = true →
    (s'.reserve t).cpu = (s.reserve t).cpu ∧ (s'.reserve t).C = (s.reserve t).C ∧
      (s'.reserve t).T = (s.reserve t).T ∧ (s'.reserve t).params = (s.reserve t).params
  timers : (s'.reserve t).cTimer = (s.reserve t).cTimer ∧
    (s'.reserve t).pTimer = (s.reserve t).pTimer
  idle : (s.reserve t).flag = false →
    (∀ cpu, t ∉ (s'.table cpu).entries) ∧
      (s'.reserve t).cTimer = false ∧ (s'.reserve t).pTimer = false

section Unchanged

variable {s s' : Kernel} {t : Tid}

theorem Trusted.absent (trusted : Trusted s t) (flag : (s.reserve t).flag = false) (cpu : Cpu) :
    t ∉ (s.table cpu).entries := by
  simp [trusted.represents.mem_iff, placement_unreserved flag]

theorem Trusted.unchanged (trusted : Trusted s t) : Unchanged s t s where
  lists := fun _ => List.Perm.refl _
  length := fun _ => rfl
  util := fun _ => rfl
  cpuOpen := fun _ => rfl
  flag := rfl
  reservation := fun _ => ⟨rfl, rfl, rfl, rfl⟩
  timers := ⟨rfl, rfl⟩
  idle := fun flag => ⟨trusted.absent flag, trusted.quiet flag⟩

theorem Restored.unchanged (trusted : Trusted s t) (restored : Restored s s') :
    Unchanged s t s' := by
  have same := restored.sameTasks trusted.represents
  obtain ⟨flag, cpu, C, T, cTimer, pTimer⟩ := Holding.mk.inj (restored.holding t)
  refine ⟨fun cpu => (same cpu).perm, fun cpu => (same cpu).length, fun cpu => (same cpu).util,
    restored.cpuOpen, flag, ?_, ⟨cTimer, pTimer⟩, ?_⟩
  · intro reserved
    exact ⟨cpu, C, T, restored.params t reserved⟩
  · intro unreserved
    refine ⟨?_, ?_⟩
    · intro cpu member
      exact trusted.absent unreserved cpu ((same cpu).perm.mem_iff.mp member)
    · rw [cTimer, pTimer]
      exact trusted.quiet unreserved

end Unchanged

/-! ## A file that cannot be set up -/

/-- The call asks for the reservation the task already holds, while the budget
timer is stopped and the open flags tell the utilization. -/
structure Repeats (s : Kernel) (t : Tid) (C T : Timespec) (params : Params) (cpuid : ℤ) :
    Prop where
  named : cpuOf cpuid = some (s.reserve t).cpu
  holding : (s.reserve t).holding = ⟨true, (s.reserve t).cpu, C, T, false, true⟩
  params : (s.reserve t).params = params
  cpuOpen : ∀ cpu, (s.table cpu).cpuOpen = decide ((s.table cpu).cpuUtil ≠ 0)

section Late

variable {s bound s' : Kernel} {t : Tid} {C T : Timespec} {params : Params} {cpu : Cpu}
  {cpuid : ℤ}

theorem Assigned.mem (assigned : Assigned s t params cpu bound) :
    t ∈ (bound.table cpu).entries := by
  obtain ⟨free, represents, _, binds⟩ := assigned.bound
  obtain ⟨bin', tries, table⟩ := Table.tryBind_eq_ok binds
  have inserted := tryBind_inserted (represents.exact cpu).2 tries
  rw [table, Function.update_self, inserted.entries, mem_insertBehind]
  exact .inl rfl

theorem Assigned.params_eq (assigned : Assigned s t params cpu bound) :
    (bound.reserve t).params = params := by
  rw [assigned.reserve, Function.update_self]
  rfl

/-- Binding a task again as it was gives the same lists. -/
theorem Assigned.sameTasks (assigned : Assigned s t params cpu bound) (trusted : Trusted s t)
    (flag : (s.reserve t).flag = true) (own : cpu = (s.reserve t).cpu)
    (same : (s.reserve t).params = params) (other : Cpu) :
    SameTasks s.reserve (s.table other) (bound.table other) := by
  have placed := placement_reserved trusted.live flag
  have member := (trusted.represents.mem_iff _ t).mpr placed
  have range : InRange ((s.reserve t).withParams params) :=
    ((trusted.represents.admitted _).acceptable.inRange t member).congr same.symm
  have represents := assigned.represents range
  rw [own, ← placed, Function.update_eq_self] at represents
  refine trusted.represents.sameTasks (represents.congr ?_) other
  intro task _
  rw [assigned.reserve]
  rcases eq_or_ne task t with rfl | different
  · rw [Function.update_self]
    exact same
  · rw [Function.update_of_ne different]

/-- A call that fails after the timers were started has changed the state unless
it repeats what was there. -/
theorem Prepared.unchanged_iff (trusted : Trusted s t)
    (named : (s.reserve t).flag = true → cpuOf cpuid = some cpu)
    (assigned : Assigned s t params cpu bound)
    (prepared : Prepared t C T cpu (s.reserve t).flag bound s') :
    Unchanged s t s' ↔ Repeats s t C T params cpuid := by
  obtain ⟨flag', cpu', C', T', cTimer', pTimer'⟩ := Holding.mk.inj prepared.holding
  constructor
  · intro unchanged
    have flag : (s.reserve t).flag = true := by
      by_contra unreserved
      have idle := unchanged.idle (by simpa using unreserved)
      apply idle.1 cpu
      rw [(prepared.lists cpu).entries]
      exact assigned.mem
    obtain ⟨sameCpu, sameC, sameT, sameParams⟩ := unchanged.reservation flag
    refine ⟨?_, ?_, ?_, ?_⟩
    · rw [named flag, ← sameCpu, cpu']
    · simp only [Reserve.holding, Holding.mk.injEq, true_and]
      exact ⟨flag, sameC.symm.trans C', sameT.symm.trans T', unchanged.timers.1.symm.trans cTimer',
        unchanged.timers.2.symm.trans pTimer'⟩
    · rw [← sameParams, prepared.params, assigned.params_eq]
    · intro other
      rw [← unchanged.cpuOpen, ← unchanged.util]
      exact prepared.cpuOpen other
  · rintro ⟨isNamed, holding, same, opens⟩
    obtain ⟨flag, _, sameC, sameT, cTimer, pTimer⟩ := Holding.mk.inj holding
    have own : cpu = (s.reserve t).cpu := Option.some.inj ((named flag).symm.trans isNamed)
    have tasks := assigned.sameTasks trusted flag own same
    have util : ∀ other, (s'.table other).cpuUtil = (s.table other).cpuUtil := fun other =>
      (prepared.lists other).util.trans (tasks other).util
    refine ⟨?_, ?_, util, ?_, flag', ?_, ⟨cTimer'.trans cTimer.symm, pTimer'.trans pTimer.symm⟩, ?_⟩
    · intro other
      rw [(prepared.lists other).entries]
      exact (tasks other).perm
    · exact fun other => (prepared.lists other).length.trans (tasks other).length
    · intro other
      rw [prepared.cpuOpen, util, opens]
    · intro _
      refine ⟨cpu'.trans own, C'.trans sameC.symm, T'.trans sameT.symm, ?_⟩
      rw [prepared.params, assigned.params_eq, same]
    · intro unreserved
      simp [flag] at unreserved

end Late

/-! ## A revision that searches the wrong row -/

/-- Apart from `t`, the lists have gained nothing. -/
structure Grown (t : Tid) (table table' : Table) : Prop where
  exact : Exact table'
  mem : ∀ cpu other, other ∈ (table' cpu).entries → other = t ∨ other ∈ (table cpu).entries

section Lost

variable {s s' : Kernel} {table middle table' : Table} {t : Tid} {cpu : Cpu}

theorem Grown.trans (first : Grown t table middle) (second : Grown t middle table') :
    Grown t table table' := by
  refine ⟨second.exact, ?_⟩
  intro cpu other member
  rcases second.mem cpu other member with own | early
  · exact .inl own
  · exact first.mem cpu other early

theorem Grown.of_sameList (exact : Exact table)
    (same : ∀ cpu, SameList (table cpu) (table' cpu)) : Grown t table table' := by
  constructor
  · intro cpu
    rw [(same cpu).length, (same cpu).util]
    exact exact cpu
  · intro cpu other member
    rw [(same cpu).entries] at member
    exact .inr member

private theorem Table.tryBind_grown {reserve : Tid → Reserve} {retval : ℤ} (exact : Exact table)
    (returns : table.tryBind reserve t cpu = .ok (retval, table')) : Grown t table table' := by
  obtain ⟨bin', tries, rfl⟩ := Table.tryBind_eq_ok returns
  rcases tryBind_cases (exact cpu).2 tries with ⟨_, inserted⟩ | ⟨_, same⟩
  · constructor
    · intro other
      rcases eq_or_ne other cpu with rfl | different
      · rw [Function.update_self, inserted.length, inserted.util, int32_int32]
        exact ⟨Int.add_nonneg (exact other).1 Int.one_nonneg, rfl⟩
      · rw [Function.update_of_ne different]
        exact exact other
    · intro other task member
      rcases eq_or_ne other cpu with rfl | different
      · rwa [Function.update_self, inserted.entries, mem_insertBehind] at member
      · rw [Function.update_of_ne different] at member
        exact .inr member
  · exact .of_sameList exact fun other => (sameTable_update same other).toSameList

/-- Shortening the list of one CPU keeps lengths and utilizations exact. -/
theorem exact_of_shortened {kept : List Tid} {util : ℤ} (exact : Exact table)
    (present : t ∈ (table cpu).entries) (own : Shortened kept util (table cpu) (table' cpu))
    (others : ∀ other, other ≠ cpu → SameBin (table other) (table' other)) : Exact table' := by
  intro other
  rcases eq_or_ne other cpu with rfl | different
  · have some := List.length_pos_of_mem present
    have count := length_entries (exact other).1
    rw [own.length, own.util, int32_int32]
    exact ⟨by omega, rfl⟩
  · rw [(others other different).length, (others other different).util]
    exact exact other

private theorem takeOut_grown {util : ℤ} (exact : Exact table) (present : t ∈ (table cpu).entries)
    (returns : takeOut table (some cpu) cpu t util = .ok table') : Grown t table table' := by
  obtain ⟨taken, takes, own, others⟩ := takeOut_own util present
  obtain rfl : taken = table' := Except.ok.inj (takes.symm.trans returns)
  refine ⟨exact_of_shortened exact present own others, ?_⟩
  intro other task member
  rcases eq_or_ne other cpu with rfl | different
  · rw [own.entries] at member
    exact .inr (List.mem_of_mem_erase member)
  · rw [(others other different).entries] at member
    exact .inr member

private theorem putBack_grown {old : Reserve} (exact : Exact s.table)
    (returns : s.putBack t old = .ok s') : Grown t s.table s'.table := by
  obtain ⟨⟨value, table⟩, tries, result⟩ := bind_eq_ok_iff.mp returns
  cases result
  exact Table.tryBind_grown exact tries

private theorem undoBind_grown {old : Reserve} (exact : Exact s.table)
    (present : t ∈ (s.table cpu).entries)
    (returns : s.undoBind t cpu old = .ok s') : Grown t s.table s'.table := by
  obtain ⟨taken, takes, rest⟩ := bind_eq_ok_iff.mp returns
  have shorter := takeOut_grown exact present takes
  dsimp only at rest
  split at rest
  · exact shorter.trans (putBack_grown shorter.exact rest)
  · cases rest
    exact shorter

private theorem afterBind_grown {srv : Services} {C T : Timespec} {old : Reserve} {retval : ℤ}
    (exact : Exact s.table) (present : t ∈ (s.table cpu).entries)
    (returns : s.afterBind srv t C T cpu old = .ok (retval, s')) : Grown t s.table s'.table := by
  cases affinity : srv.schedSetaffinity with
  | true =>
      rcases afterBind_prepared affinity returns with ⟨_, prepared⟩ | ⟨_, _, prepared⟩
      · exact .of_sameList exact prepared.lists
      · exact .of_sameList exact prepared.lists
  | false =>
      have before : ((s.resetFresh t).bringUp srv cpu).table = s.table :=
        (Kernel.frame_bringUp _ srv cpu).table.trans (Kernel.frame_resetFresh s t).table
      simp only [Kernel.afterBind, affinity, Bool.false_eq_true, if_false] at returns
      obtain ⟨undone, undoes, result⟩ := bind_eq_ok_iff.mp returns
      cases result
      rw [← before] at exact present ⊢
      exact undoBind_grown exact present undoes

/-- A revision that names another CPU drops the last task of the old one. -/
theorem revise_grown {params : Params} {row : Cpu} {value : ℤ} {chosen : Option Cpu}
    (trusted : Trusted s t) (flag : (s.reserve t).flag = true) (different : row ≠ (s.reserve t).cpu)
    (returns : s.revise t params (some row) = .ok (value, chosen, s')) :
    ∃ taken : Table, (taken (s.reserve t).cpu).entries =
        (s.table (s.reserve t).cpu).entries.dropLast ∧
      Grown t taken s'.table ∧
      (value = 0 → chosen = some row ∧ t ∈ (s'.table row).entries) := by
  have placed := placement_reserved trusted.live flag
  have present := (trusted.represents.mem_iff _ t).mpr placed
  have absent : t ∉ (s.table row).entries := by
    simp [trusted.represents.mem_iff, placed, different.symm]
  obtain ⟨taken, takes, own, others⟩ := takeOut_other (s.reserve t).util different absent
  have exact := exact_of_shortened trusted.represents.exact present own others
  obtain ⟨taken', takes', rest⟩ := bind_eq_ok_iff.mp returns
  obtain rfl : taken = taken' := Except.ok.inj (takes.symm.trans takes')
  obtain ⟨_, binds, finish⟩ := bind_eq_ok_iff.mp rest
  obtain ⟨⟨retval, table⟩, tries, result⟩ := bind_eq_ok_iff.mp binds
  cases result
  refine ⟨taken, own.entries, ?_⟩
  have grown := Table.tryBind_grown exact tries
  dsimp only at finish
  split at finish
  · rename_i nonzero
    obtain ⟨back, puts, result⟩ := bind_eq_ok_iff.mp finish
    cases result
    exact ⟨grown.trans (putBack_grown grown.exact puts), fun zero => absurd zero nonzero⟩
  · rename_i zero
    cases finish
    refine ⟨grown, fun _ => ⟨rfl, ?_⟩⟩
    rw [not_not.mp zero] at tries
    obtain ⟨bin', inserts, inserted⟩ := Table.tryBind_eq_ok tries
    simp only [inserted, Function.update_self]
    rw [(tryBind_inserted (exact row).2 inserts).entries, mem_insertBehind]
    exact .inl rfl

/-- A revision of a task that cannot be taken out loses a task of its CPU. -/
theorem assign_lost {params : Params} {cpuid value : ℤ} {chosen : Option Cpu}
    (trusted : Trusted s t) (stuck : ¬ Revisable s t cpuid)
    (returns : s.assign t params (cpuOf cpuid) = .ok (value, chosen, s')) :
    ∃ lost, lost ∈ (s.table (s.reserve t).cpu).entries ∧ lost ≠ t ∧
      lost ∉ (s'.table (s.reserve t).cpu).entries ∧ Exact s'.table ∧
      (value = 0 → ∃ cpu, chosen = some cpu ∧ t ∈ (s'.table cpu).entries) := by
  obtain ⟨flag, unnamed⟩ := Classical.not_imp.mp stuck
  have placed := placement_reserved trusted.live flag
  have present := (trusted.represents.mem_iff _ t).mpr placed
  rw [Kernel.assign, if_pos flag] at returns
  cases isNamed : cpuOf cpuid with
  | none =>
      -- the search of `cpu_tasks[-1]` reads out of bounds
      have count := length_entries (trusted.represents.exact (s.reserve t).cpu).1
      have some := List.length_pos_of_mem present
      have positive : 0 < (s.table (s.reserve t).cpu).cpuTasksLength := by omega
      rw [isNamed] at returns
      obtain ⟨taken, takes, _⟩ := bind_eq_ok_iff.mp returns
      have faults : takeOut s.table none (s.reserve t).cpu t (s.reserve t).util =
        .error .outOfBounds := if_pos positive
      cases faults.symm.trans takes
  | some row =>
      rw [isNamed] at returns
      have kept : ¬ Removable s t row := fun removable => unnamed ⟨row, isNamed, removable⟩
      obtain ⟨different, notLast⟩ := not_or.mp kept
      obtain ⟨taken, entries, grown, bound⟩ := revise_grown trusted flag different returns
      obtain ⟨before, lost, split⟩ :=
        (List.eq_nil_or_concat' _).resolve_left (List.ne_nil_of_mem present)
      have nodup := trusted.represents.nodup (s.reserve t).cpu
      rw [split, List.nodup_append_comm, List.singleton_append, List.nodup_cons] at nodup
      have other : lost ≠ t := by
        rintro rfl
        exact notLast (by rw [split, List.getLast?_concat])
      refine ⟨lost, by rw [split]; simp, other, ?_, grown.exact, fun zero => ⟨row, bound zero⟩⟩
      intro member
      rcases grown.mem _ _ member with own | early
      · exact other own
      · rw [entries, split, List.dropLast_concat] at early
        exact nodup.1 early

end Lost

/-! ## All or nothing -/

/-- Some CPU accepts the task. -/
def Accepts (s : Kernel) (t : Tid) (params : Params) (cpuid : ℤ) : Prop :=
  ∃ cpu placed, s.assign t params (cpuOf cpuid) = .ok (0, some cpu, placed)

/-- A call that cannot fail cleanly: it revises a task it cannot take out, or it
gets as far as starting the timers of a reservation other than the one held. -/
def Exposed (srv : Services) (s : Kernel) (t : Tid) (budget period : Option Timespec)
    (cpuid : ℤ) : Prop :=
  ∃ C T params, Checked s t budget period cpuid C T ∧ paramsOf C T = .ok params ∧
    (¬ Revisable s t cpuid ∨
      srv.schedSetaffinity = true ∧ Accepts s t params cpuid ∧ ¬ Repeats s t C T params cpuid)

section AllOrNothing

variable {s s' : Kernel} {t : Tid} {srv : Services} {budget period : Option Timespec}
  {cpuid retval : ℤ}

private theorem Checked.exposed_iff {C T : Timespec} {params : Params}
    (checked : Checked s t budget period cpuid C T) (converts : paramsOf C T = .ok params) :
    Exposed srv s t budget period cpuid ↔
      ¬ Revisable s t cpuid ∨
        srv.schedSetaffinity = true ∧ Accepts s t params cpuid ∧
          ¬ Repeats s t C T params cpuid := by
  constructor
  · rintro ⟨C', T', params', checked', converts', exposed⟩
    obtain rfl : C = C' := Option.some.inj (checked.budget.symm.trans checked'.budget)
    obtain rfl : T = T' := Option.some.inj (checked.period.symm.trans checked'.period)
    obtain rfl : params = params' := Except.ok.inj (converts.symm.trans converts')
    exact exposed
  · intro exposed
    exact ⟨C, T, params, checked, converts, exposed⟩

/-- A call of `set_reserve` that returns an error leaves everything as it was
exactly when it could fail cleanly. -/
theorem setReserve_unchanged_iff (trusted : Trusted s t)
    (returns : s.setReserve srv t budget period cpuid = .ok (retval, s')) (failed : retval ≠ 0) :
    Unchanged s t s' ↔ ¬ Exposed srv s t budget period cpuid := by
  rcases setReserve_cases returns with
    ⟨_, rfl, rejected⟩ | ⟨C, T, params, value, chosen, placed, checked, converts, places, finish⟩
  · refine iff_of_true trusted.unchanged ?_
    rintro ⟨C, T, _, checked, _⟩
    exact rejected C T checked
  · rw [checked.exposed_iff converts]
    by_cases named : Revisable s t cpuid
    · rw [or_iff_right (not_not.mpr named)]
      rcases assign_result trusted.represents trusted.live named places with
        ⟨cpu, rfl, rfl, isNamed, assigned⟩ | ⟨rfl, restored⟩ | ⟨rfl, rfl⟩
      · obtain ⟨nonzero, _⟩ | ⟨_, _, isChosen, continues⟩ := finish
        · exact absurd rfl nonzero
        cases isChosen
        cases affinity : srv.schedSetaffinity with
        | false =>
            obtain ⟨undone, undoes, restored⟩ := afterBind_undone (C := C) (T := T)
              trusted.represents trusted.live assigned affinity
            rw [undoes] at continues
            cases continues
            exact iff_of_true (restored.unchanged trusted) (by simp)
        | true =>
            have accepts : Accepts s t params cpuid := ⟨cpu, placed, places⟩
            rcases afterBind_prepared affinity continues with ⟨zero, _⟩ | ⟨_, _, prepared⟩
            · exact absurd zero failed
            · rw [assigned.flag_eq] at prepared
              rw [prepared.unchanged_iff trusted isNamed assigned]
              simp [accepts]
      · obtain ⟨_, rfl, rfl⟩ | ⟨_, zero, _⟩ := finish
        · refine iff_of_true (restored.unchanged trusted) ?_
          rintro ⟨_, ⟨cpu, bound, accepts⟩, _⟩
          rw [accepts] at places
          cases places
        · exact absurd zero EBUSY_ne_zero
      · obtain ⟨nonzero, _⟩ | ⟨_, _, none, _⟩ := finish
        · exact absurd rfl nonzero
        · cases none
    · refine iff_of_false ?_ (not_not.mpr (.inl named))
      intro unchanged
      obtain ⟨lost, before, other, gone, exact, bound⟩ := assign_lost trusted named places
      have listed := (unchanged.lists (s.reserve t).cpu).mem_iff.mpr before
      obtain ⟨_, _, rfl⟩ | ⟨cpu, zero, isChosen, continues⟩ := finish
      · exact gone listed
      · obtain ⟨cpu', isChosen', present⟩ := bound zero
        obtain rfl : cpu = cpu' := Option.some.inj (isChosen.symm.trans isChosen')
        rcases (afterBind_grown exact present continues).mem _ _ listed with own | kept
        · exact other own
        · exact gone kept

/-- Without an affinity the first reservation is undone. -/
theorem setReserve_unchanged_iff_affinity :
    ∃ s', Kernel.bare.setReserve { Services.succeed with schedSetaffinity := false } 1
        (some ⟨0, 1000000⟩) (some ⟨0, 10000000⟩) 0 = .ok (EINVAL, s') ∧
      (Unchanged .bare 1 s' ↔
        ¬ Exposed { Services.succeed with schedSetaffinity := false } .bare 1
          (some ⟨0, 1000000⟩) (some ⟨0, 10000000⟩) 0) :=
  ⟨_, rfl, setReserve_unchanged_iff (boot_bare.trusted rfl) rfl (by decide)⟩

/-- Without memory for the name of its file, a task is left without a
reservation, but in the list of CPU 0 and with its period timer running. -/
theorem setReserve_not_unchanged :
    ∃ s', Trusted { Kernel.bare with utilKobj := true } 1 ∧
      Kernel.setReserve { Services.succeed with kmallocName := false }
        { Kernel.bare with utilKobj := true } 1 (some ⟨0, 1000000⟩) (some ⟨0, 10000000⟩) 0 =
          .ok (ENOMEM, s') ∧
      ENOMEM ≠ 0 ∧ (s'.reserve 1).flag = false ∧ (s'.reserve 1).pTimer = true ∧
      (s'.table 0).entries = [1] ∧ ¬ Unchanged { Kernel.bare with utilKobj := true } 1 s' := by
  have boot : Boot { Kernel.bare with utilKobj := true } :=
    ⟨fun _ => ⟨rfl, rfl, rfl⟩, fun _ => ⟨rfl, rfl, rfl, rfl⟩, rfl⟩
  refine ⟨_, boot.trusted rfl, rfl, by decide, rfl, rfl, rfl, ?_⟩
  intro unchanged
  have stopped := (unchanged.idle rfl).2.2
  cases stopped

end AllOrNothing

end Rtes.Reservation
