import Rtes.RateMonotonic.Hybrid

/-!
# The speed a set of loads needs

At a fraction `c` of full speed every budget takes `1 / c` times as long.  The
speed a load needs is therefore the least ratio of demand to window length over
the windows up to its period, and a set of loads needs the greatest speed of its
members.  The ratio is attained at a multiple of a period, and among loads of
one period the last in priority order needs the most.  More load never needs
less speed, since every window keeps at least its demand.
-/

namespace Rtes.RateMonotonic

/-- Loads whose period is at most `limit`. -/
def upTo (loads : List Load) (limit : ℕ) : List Load :=
  loads.filter fun load => load.period ≤ limit

theorem mem_upTo {loads : List Load} {limit : ℕ} {load : Load} :
    load ∈ upTo loads limit ↔ load ∈ loads ∧ load.period ≤ limit := by
  simp [upTo]

theorem demand_upTo_perm {first second : List Load} (perm : first.Perm second) (limit x : ℕ) :
    demand (upTo first limit) x = demand (upTo second limit) x :=
  demand_perm (perm.filter _) x

/-- Fraction of full speed, at most one, the load needs among all the loads. -/
def loadSpeed (loads : List Load) (load : Load) : ℚ :=
  (Finset.Icc 1 load.period).fold min 1 fun x => (demand (upTo loads load.period) x : ℚ) / x

/-- Fraction of full speed the loads of all processors need. -/
def speed {ι : Type*} (cpus : Finset ι) (loads : ι → List Load) : ℚ :=
  cpus.fold max 0 fun cpu => (loads cpu).toFinset.fold max 0 (loadSpeed (loads cpu))

/-! ## Lower bounds -/

theorem le_loadSpeed_iff {loads : List Load} {load : Load} {c : ℚ} :
    c ≤ loadSpeed loads load ↔
      c ≤ 1 ∧ ∀ x, 1 ≤ x → x ≤ load.period → c * x ≤ demand (upTo loads load.period) x := by
  rw [loadSpeed, Finset.le_fold_min]
  refine and_congr Iff.rfl ⟨?_, ?_⟩
  · intro below x positive within
    have windowPos : (0 : ℚ) < x := by exact_mod_cast positive
    exact (le_div_iff₀ windowPos).mp (below x (Finset.mem_Icc.mpr ⟨positive, within⟩))
  · intro below x member
    obtain ⟨positive, within⟩ := Finset.mem_Icc.mp member
    have windowPos : (0 : ℚ) < x := by exact_mod_cast positive
    exact (le_div_iff₀ windowPos).mpr (below x positive within)

section Speed

variable {ι : Type*} {cpus : Finset ι} {loads : ι → List Load} {c : ℚ}

theorem le_speed_iff :
    c ≤ speed cpus loads ↔
      c ≤ 0 ∨ ∃ cpu ∈ cpus, ∃ load ∈ loads cpu, c ≤ loadSpeed (loads cpu) load := by
  simp only [speed, Finset.le_fold_max, List.mem_toFinset]
  constructor
  · rintro (low | ⟨cpu, member, low | needed⟩)
    · exact Or.inl low
    · exact Or.inl low
    · exact Or.inr ⟨cpu, member, needed⟩
  · rintro (low | ⟨cpu, member, needed⟩)
    · exact Or.inl low
    · exact Or.inr ⟨cpu, member, Or.inr needed⟩

theorem speed_nonneg : 0 ≤ speed cpus loads :=
  le_speed_iff.mpr (Or.inl le_rfl)

/-- The speed in whole parts of `b`, rounded down. -/
theorem le_floor_mul_speed_iff {m b : ℕ} (positive : 0 < b) :
    m ≤ ⌊b * speed cpus loads⌋₊ ↔
      m ≤ 0 ∨ ∃ cpu ∈ cpus, ∃ load ∈ loads cpu, m ≤ b ∧ ∀ x, 1 ≤ x → x ≤ load.period →
        m * x ≤ b * demand (upTo (loads cpu) load.period) x := by
  have parts : (0 : ℚ) < b := by exact_mod_cast positive
  have scaled : ∀ x y : ℕ, (m / b : ℚ) * x ≤ y ↔ m * x ≤ b * y := by
    intro x y
    rw [div_mul_eq_mul_div, div_le_iff₀' parts]
    exact_mod_cast Iff.rfl
  have none : (m / b : ℚ) ≤ 0 ↔ m ≤ 0 := by simpa using scaled 1 0
  have whole : (m / b : ℚ) ≤ 1 ↔ m ≤ b := by simpa using scaled 1 1
  rw [Nat.le_floor_iff (mul_nonneg parts.le speed_nonneg), ← div_le_iff₀' parts, le_speed_iff]
  simp only [le_loadSpeed_iff, scaled, none, whole]

/-! ## Upper bounds -/

theorem loadSpeed_le_iff {loads : List Load} {load : Load} :
    loadSpeed loads load ≤ c ↔
      1 ≤ c ∨ ∃ x, 1 ≤ x ∧ x ≤ load.period ∧ demand (upTo loads load.period) x ≤ c * x := by
  rw [loadSpeed, Finset.fold_min_le]
  refine or_congr Iff.rfl ⟨?_, ?_⟩
  · rintro ⟨x, member, enough⟩
    obtain ⟨positive, within⟩ := Finset.mem_Icc.mp member
    have windowPos : (0 : ℚ) < x := by exact_mod_cast positive
    exact ⟨x, positive, within, (div_le_iff₀ windowPos).mp enough⟩
  · rintro ⟨x, positive, within, enough⟩
    have windowPos : (0 : ℚ) < x := by exact_mod_cast positive
    exact ⟨x, Finset.mem_Icc.mpr ⟨positive, within⟩, (div_le_iff₀ windowPos).mpr enough⟩

theorem speed_le_iff :
    speed cpus loads ≤ c ↔
      0 ≤ c ∧ ∀ cpu ∈ cpus, ∀ load ∈ loads cpu, loadSpeed (loads cpu) load ≤ c := by
  simp only [speed, Finset.fold_max_le, List.mem_toFinset]
  constructor
  · rintro ⟨nonneg, within⟩
    exact ⟨nonneg, fun cpu member => (within cpu member).2⟩
  · rintro ⟨nonneg, within⟩
    exact ⟨nonneg, fun cpu member => ⟨nonneg, within cpu member⟩⟩

theorem speed_le_one : speed cpus loads ≤ 1 :=
  speed_le_iff.mpr ⟨zero_le_one, fun _ _ _ _ => loadSpeed_le_iff.mpr (Or.inl le_rfl)⟩

end Speed

/-! ## Scheduling points and priority order -/

/-- A ratio is below every ratio of demand to window length exactly when it is
below those at the multiples of the periods. -/
theorem forall_window_iff_forall_schedulingPoint {loads : List Load} {load : Load}
    (member : load ∈ loads) (periods : ∀ other ∈ loads, 0 < other.period) (a b : ℕ) :
    (∀ x, 1 ≤ x → x ≤ load.period → a * x ≤ b * demand loads x) ↔
      ∀ k ∈ loads, ∀ n, 1 ≤ n → n * k.period ≤ load.period →
        a * (n * k.period) ≤ b * demand loads (n * k.period) := by
  constructor
  · intro all k kMem n nPos within
    exact all (n * k.period) (Nat.mul_pos nPos (periods k kMem)) within
  · intro points x positive within
    obtain ⟨k, kMem, n, nPos, reach, nWithin, same⟩ :=
      exists_schedulingPoint member periods positive within
    calc
      a * x ≤ a * (n * k.period) := Nat.mul_le_mul_left a reach
      _ ≤ b * demand loads (n * k.period) := points k kMem n nPos nWithin
      _ = b * demand loads x := by rw [demand_congr same]

/-- In priority order everything up to a position has at most the period there. -/
theorem Sorted.take_subperm_upTo {loads : List Load} (sorted : Sorted loads) {i : ℕ}
    (lt : i < loads.length) : (loads.take (i + 1)).Subperm (upTo loads loads[i].period) := by
  rw [upTo, sorted.filter_eq_take]
  exact (List.take_sublist_take_left (sorted.lt_length_filter lt)).subperm

/-- In priority order the loads up to a listed period end with one of that
period. -/
theorem Sorted.exists_last {loads : List Load} (sorted : Sorted loads) {j : ℕ}
    (lt : j < loads.length) : ∃ i, ∃ iLt : i < loads.length,
      loads[i].period ≤ loads[j].period ∧ loads.take (i + 1) = upTo loads loads[j].period := by
  set last := (upTo loads loads[j].period).length with lastEq
  have reach : j < last := sorted.lt_length_filter lt
  have whole : upTo loads loads[j].period = loads.take last := sorted.filter_eq_take _
  have bound : last ≤ loads.length := List.length_filter_le _ _
  have lastLt : last - 1 < loads.length := by omega
  refine ⟨last - 1, lastLt, ?_, ?_⟩
  · have listed : loads[last - 1] ∈ loads.take last :=
      List.mem_take_iff_getElem.mpr ⟨last - 1, by omega, rfl⟩
    rw [← whole] at listed
    exact (mem_upTo.mp listed).2
  · rw [Nat.sub_add_cancel (by omega : 1 ≤ last), whole]

/-- In priority order some load has every window overfilled by the loads up to
its own period exactly when some load has by those up to its own position. -/
theorem Sorted.exists_take_iff_exists_upTo {loads : List Load} (sorted : Sorted loads) (a b : ℕ) :
    (∃ i, ∃ lt : i < loads.length, ∀ x, 1 ≤ x → x ≤ loads[i].period →
        a * x ≤ b * demand (loads.take (i + 1)) x) ↔
      ∃ load ∈ loads, ∀ x, 1 ≤ x → x ≤ load.period →
        a * x ≤ b * demand (upTo loads load.period) x := by
  constructor
  · rintro ⟨i, lt, filled⟩
    refine ⟨loads[i], List.getElem_mem lt, ?_⟩
    intro x positive within
    exact (filled x positive within).trans
      (Nat.mul_le_mul_left b (demand_le_of_subperm (sorted.take_subperm_upTo lt) x))
  · rintro ⟨load, member, filled⟩
    obtain ⟨j, jLt, rfl⟩ := List.getElem_of_mem member
    -- the last load of the same period has all of them before it
    obtain ⟨i, lt, samePeriod, whole⟩ := sorted.exists_last jLt
    refine ⟨i, lt, ?_⟩
    intro x positive within
    rw [whole]
    exact filled x positive (within.trans samePeriod)

/-! ## More load -/

/-- The second list has the loads of the first, each with its period and at
least its budget, and maybe others. -/
def Extends (first second : List Load) : Prop :=
  ∃ part, part.Subperm second ∧
    List.Forall₂ (fun old new => old.period = new.period ∧ old.budget ≤ new.budget) first part

section Extends

variable {first second : List Load}

theorem Extends.exists_period (more : Extends first second) {load : Load}
    (member : load ∈ first) : ∃ other ∈ second, other.period = load.period := by
  obtain ⟨part, sub, raised⟩ := more
  obtain ⟨k, lt, rfl⟩ := List.getElem_of_mem member
  have lt' : k < part.length := raised.length_eq ▸ lt
  exact ⟨part[k], sub.subset (List.getElem_mem lt'), (raised.get lt lt').1.symm⟩

theorem demand_upTo_le_of_raised {part : List Load}
    (raised : List.Forall₂ (fun old new => old.period = new.period ∧ old.budget ≤ new.budget)
      first part) (limit x : ℕ) : demand (upTo first limit) x ≤ demand (upTo part limit) x := by
  induction raised with
  | nil => exact le_rfl
  | @cons old new olds news higher _ ih =>
      obtain ⟨samePeriod, budget⟩ := higher
      have head := Nat.mul_le_mul_left (x ⌈/⌉ new.period) budget
      simp only [upTo, List.filter_cons, samePeriod] at ih ⊢
      split
      · rw [demand_cons, demand_cons, samePeriod]
        exact Nat.add_le_add head ih
      · exact ih

theorem Extends.demand_upTo_le (more : Extends first second) (limit x : ℕ) :
    demand (upTo first limit) x ≤ demand (upTo second limit) x := by
  obtain ⟨part, sub, raised⟩ := more
  obtain ⟨middle, perm, sublist⟩ := sub
  calc
    demand (upTo first limit) x ≤ demand (upTo part limit) x :=
      demand_upTo_le_of_raised raised limit x
    _ = demand (upTo middle limit) x := demand_upTo_perm perm.symm limit x
    _ ≤ demand (upTo second limit) x := demand_le_of_subperm (sublist.filter _).subperm x

end Extends

/-- More load on any of the processors needs at least the speed. -/
theorem speed_mono {ι : Type*} {cpus : Finset ι} {loads loads' : ι → List Load}
    (more : ∀ cpu ∈ cpus, Extends (loads cpu) (loads' cpu)) :
    speed cpus loads ≤ speed cpus loads' := by
  apply le_of_forall_le
  intro c
  simp only [le_speed_iff, le_loadSpeed_iff]
  rintro (low | ⟨cpu, cpuMem, load, member, within, filled⟩)
  · exact Or.inl low
  · obtain ⟨other, otherMem, samePeriod⟩ := (more cpu cpuMem).exists_period member
    refine Or.inr ⟨cpu, cpuMem, other, otherMem, within, ?_⟩
    rw [samePeriod]
    intro x positive reach
    have demands := (more cpu cpuMem).demand_upTo_le load.period x
    exact (filled x positive reach).trans (by exact_mod_cast demands)

end Rtes.RateMonotonic
