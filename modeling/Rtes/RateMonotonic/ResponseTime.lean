import Rtes.RateMonotonic.Demand

/-!
# Least fixed points and scheduling points

Two classical ways to decide whether a load meets its deadline.  The response
time is the least fixed point of a monotone demand function, reached by
iterating it from zero.  Alternatively it is enough to look at multiples of the
periods, because the demand does not change between two of them.
-/

namespace Rtes.RateMonotonic

/-! ## Iterating a monotone function from zero -/

/-- Iterate `f` until a value repeats or passes `limit`.  The two last values
are carried along; `none` means that `fuel` rounds were not enough. -/
def climb (f : ℕ → ℕ) (limit : ℕ) : (fuel prev curr : ℕ) → Option ℕ
  | 0, _, _ => none
  | fuel + 1, prev, curr =>
      if curr ≤ limit ∧ curr ≠ prev then climb f limit fuel curr (f curr) else some curr

private theorem climb_spec {f : ℕ → ℕ} (mono : Monotone f) {limit fuel prev curr : ℕ}
    (step : curr = f prev) (le : prev ≤ curr) (below : ∀ y, f y ≤ y → curr ≤ y)
    (positive : 0 < fuel) (enough : limit + 2 ≤ fuel + prev) :
    ∃ r, climb f limit fuel prev curr = some r ∧
      (∀ y, f y ≤ y → r ≤ y) ∧ (r ≤ limit → f r = r) := by
  induction fuel generalizing prev curr with
  | zero => omega
  | succ fuel ih =>
      by_cases going : curr ≤ limit ∧ curr ≠ prev
      · rw [climb, if_pos going]
        apply ih rfl
        · rw [step]
          exact mono (step ▸ le)
        · intro y closed
          exact (mono (below y closed)).trans closed
        · omega
        · omega
      · refine ⟨curr, by rw [climb, if_neg going], below, ?_⟩
        intro within
        have repeated : curr = prev := by
          by_contra different
          exact going ⟨within, different⟩
        rw [← repeated] at step
        exact step.symm

/-- Started from zero, the iteration ends.  Its result is below every closed
point, and is a fixed point unless it passed the limit.  In place of the previous
value anything may stand, and zero if it is a fixed point. -/
theorem climb_from_zero {f : ℕ → ℕ} (mono : Monotone f) {limit fuel prev : ℕ}
    (start : prev = 0 → f 0 = 0) (enough : limit + 3 ≤ fuel) :
    ∃ r, climb f limit fuel prev 0 = some r ∧
      (∀ y, f y ≤ y → r ≤ y) ∧ (r ≤ limit → f r = r) := by
  cases fuel with
  | zero => omega
  | succ fuel =>
      rw [climb]
      rcases Nat.eq_zero_or_pos prev with rfl | positive
      · rw [if_neg fun going => going.2 rfl]
        exact ⟨0, rfl, fun y _ => Nat.zero_le y, fun _ => start rfl⟩
      · rw [if_pos ⟨Nat.zero_le _, positive.ne⟩]
        apply climb_spec mono rfl (Nat.zero_le _)
        · intro y closed
          exact (mono (Nat.zero_le y)).trans closed
        · omega
        · omega

theorem response_mono (higher : List Load) (load : Load) :
    Monotone fun x => load.budget + demand higher x :=
  fun _ _ le => Nat.add_le_add_left (demand_mono higher le) _

/-- For a positive budget the closed points within the period are the windows
in which the load meets its deadline. -/
theorem meets_iff_closed {higher : List Load} {load : Load} (positive : 1 ≤ load.budget) :
    Meets higher load ↔ ∃ y, y ≤ load.period ∧ load.budget + demand higher y ≤ y := by
  constructor
  · rintro ⟨x, _, within, enough⟩
    exact ⟨x, within, enough⟩
  · rintro ⟨y, within, enough⟩
    exact ⟨y, by omega, within, enough⟩

/-! ## Scheduling points -/

/-- Every window up to the period of a listed load can be lengthened to a
multiple of one of the periods, still within that period, without changing how
often any load is released in it. -/
theorem exists_schedulingPoint {loads : List Load} {load : Load} (member : load ∈ loads)
    (periods : ∀ other ∈ loads, 0 < other.period) {x : ℕ} (positive : 1 ≤ x)
    (within : x ≤ load.period) :
    ∃ k ∈ loads, ∃ n, 1 ≤ n ∧ x ≤ n * k.period ∧ n * k.period ≤ load.period ∧
      ∀ other ∈ loads, (n * k.period) ⌈/⌉ other.period = x ⌈/⌉ other.period := by
  classical
  obtain ⟨k, kMem, kLeast⟩ := loads.toFinset.exists_min_image
    (fun other => (x ⌈/⌉ other.period) * other.period) ⟨load, by simpa using member⟩
  simp only [List.mem_toFinset] at kMem kLeast
  have reach : x ≤ (x ⌈/⌉ k.period) * k.period := by
    rw [Nat.mul_comm]
    exact le_mul_ceilDiv (periods k kMem) x
  refine ⟨k, kMem, x ⌈/⌉ k.period, ?_, reach, ?_, ?_⟩
  · by_contra none
    have zero : x ⌈/⌉ k.period = 0 := by omega
    rw [zero] at reach
    omega
  · have last := kLeast load member
    rwa [ceilDiv_eq_one positive within, Nat.one_mul] at last
  · intro other otherMem
    apply le_antisymm
    · rw [ceilDiv_le_iff_le_mul (periods other otherMem), Nat.mul_comm other.period]
      exact kLeast other otherMem
    · exact ceilDiv_mono reach other.period

theorem demand_congr {loads : List Load} {x y : ℕ}
    (same : ∀ load ∈ loads, x ⌈/⌉ load.period = y ⌈/⌉ load.period) :
    demand loads x = demand loads y := by
  unfold demand
  rw [List.map_congr_left]
  intro load member
  rw [same load member]

/-- Some window within the period of a listed load is long enough for all the
demand in it exactly when one at a multiple of a period is. -/
theorem exists_window_iff_exists_schedulingPoint {loads : List Load} {load : Load}
    (member : load ∈ loads) (periods : ∀ other ∈ loads, 0 < other.period) :
    (∃ x, 1 ≤ x ∧ x ≤ load.period ∧ demand loads x ≤ x) ↔
      ∃ k ∈ loads, ∃ n, 1 ≤ n ∧ n * k.period ≤ load.period ∧
        demand loads (n * k.period) ≤ n * k.period := by
  constructor
  · rintro ⟨x, positive, within, enough⟩
    obtain ⟨k, kMem, n, nPos, reach, nWithin, same⟩ :=
      exists_schedulingPoint member periods positive within
    refine ⟨k, kMem, n, nPos, nWithin, ?_⟩
    rw [demand_congr same]
    exact enough.trans reach
  · rintro ⟨k, kMem, n, nPos, nWithin, enough⟩
    exact ⟨n * k.period, Nat.mul_pos nPos (periods k kMem), nWithin, enough⟩

end Rtes.RateMonotonic
