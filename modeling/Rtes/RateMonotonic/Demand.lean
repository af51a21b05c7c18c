import Mathlib

/-!
# Demand of periodic loads

A periodic load asks for `budget` units of processor time in every window of
`period` units.  The demand of a list of loads over a window of length `x`
counts every job released in it.  A load meets its deadline below a list of
higher-priority loads when some window no longer than its own period contains
its budget together with their demand.
-/

namespace Rtes.RateMonotonic

/-- A periodic load: `budget` units of time in every `period`. -/
structure Load where
  budget : ℕ
  period : ℕ
  deriving DecidableEq, Repr

/-- Time the loads ask for in a window of length `x`. -/
def demand (loads : List Load) (x : ℕ) : ℕ :=
  (loads.map fun load => (x ⌈/⌉ load.period) * load.budget).sum

@[simp]
theorem demand_nil (x : ℕ) : demand [] x = 0 :=
  rfl

@[simp]
theorem demand_cons (load : Load) (loads : List Load) (x : ℕ) :
    demand (load :: loads) x = (x ⌈/⌉ load.period) * load.budget + demand loads x := by
  simp [demand]

@[simp]
theorem demand_append (first second : List Load) (x : ℕ) :
    demand (first ++ second) x = demand first x + demand second x := by
  simp [demand]

/-- Nothing is released in an empty window. -/
@[simp]
theorem demand_zero (loads : List Load) : demand loads 0 = 0 := by
  induction loads with
  | nil => rfl
  | cons load loads ih => simp [ih]

theorem demand_take_succ (loads : List Load) {k : ℕ} (lt : k < loads.length) (x : ℕ) :
    demand (loads.take (k + 1)) x =
      demand (loads.take k) x + (x ⌈/⌉ loads[k].period) * loads[k].budget := by
  rw [← List.take_concat_get' loads k lt, demand_append, demand_cons, demand_nil, Nat.add_zero]

theorem demand_perm {first second : List Load} (perm : first.Perm second) (x : ℕ) :
    demand first x = demand second x :=
  (perm.map _).sum_eq

theorem ceilDiv_mono {x y : ℕ} (le : x ≤ y) (period : ℕ) :
    x ⌈/⌉ period ≤ y ⌈/⌉ period := by
  rw [Nat.ceilDiv_eq_add_pred_div, Nat.ceilDiv_eq_add_pred_div]
  exact Nat.div_le_div_right (by omega)

/-- A nonempty window no longer than the period holds exactly one release. -/
theorem ceilDiv_eq_one {x period : ℕ} (positive : 1 ≤ x) (within : x ≤ period) :
    x ⌈/⌉ period = 1 := by
  apply le_antisymm
  · rw [ceilDiv_le_iff_le_mul (by omega)]
    omega
  · by_contra none
    have zero : x ⌈/⌉ period ≤ 0 := by omega
    rw [ceilDiv_le_iff_le_mul (by omega)] at zero
    omega

theorem le_mul_ceilDiv {period : ℕ} (positive : 0 < period) (x : ℕ) :
    x ≤ period * (x ⌈/⌉ period) := by
  simpa using le_smul_ceilDiv positive (b := x)

theorem ceilDiv_eq_div_add (x period : ℕ) (positive : 1 ≤ period) :
    x ⌈/⌉ period = x / period + if x % period = 0 then 0 else 1 := by
  apply le_antisymm
  · rw [ceilDiv_le_iff_le_mul (by omega), Nat.mul_add]
    have whole := Nat.div_add_mod x period
    have rest := Nat.mod_lt x positive
    split
    · omega
    · omega
  · have whole := Nat.div_add_mod x period
    have reach := le_mul_ceilDiv positive x
    split
    · rename_i exact
      rw [Nat.add_zero]
      apply Nat.le_of_mul_le_mul_left _ positive
      omega
    · rename_i inexact
      apply Nat.lt_of_mul_lt_mul_left (a := period)
      omega

theorem ceilDiv_le_self (x period : ℕ) (positive : 1 ≤ period) : x ⌈/⌉ period ≤ x := by
  rw [ceilDiv_le_iff_le_mul (by omega)]
  exact Nat.le_mul_of_pos_left x positive

theorem demand_mono (loads : List Load) {x y : ℕ} (le : x ≤ y) :
    demand loads x ≤ demand loads y := by
  induction loads with
  | nil => simp
  | cons load loads ih =>
      simp only [demand_cons]
      have head := Nat.mul_le_mul_right load.budget (ceilDiv_mono le load.period)
      omega

/-- Fewer loads ask for less. -/
theorem demand_le_of_subperm {first second : List Load} (sub : first.Subperm second) (x : ℕ) :
    demand first x ≤ demand second x := by
  obtain ⟨sorted, perm, sublist⟩ := sub
  rw [← demand_perm perm x]
  exact (sublist.map _).sum_le_sum (fun _ _ => Nat.zero_le _)

/-- A nonempty window releases every load at least once. -/
theorem budget_sum_le_demand {loads : List Load} (periods : ∀ load ∈ loads, 1 ≤ load.period)
    {x : ℕ} (positive : 1 ≤ x) : (loads.map Load.budget).sum ≤ demand loads x := by
  apply List.sum_le_sum
  intro load member
  have released : 1 ≤ x ⌈/⌉ load.period := by
    by_contra never
    have zero : x ⌈/⌉ load.period ≤ 0 := by omega
    rw [ceilDiv_le_iff_le_mul (periods load member)] at zero
    omega
  exact Nat.le_mul_of_pos_left _ released

/-- The load meets its deadline below the loads of higher priority: some
window of `x` units, no longer than its period, contains its own budget and
every higher-priority job released in it. -/
def Meets (higher : List Load) (load : Load) : Prop :=
  ∃ x, 1 ≤ x ∧ x ≤ load.period ∧ load.budget + demand higher x ≤ x

/-- A list in priority order is schedulable when each load meets its deadline
below the ones before it. -/
def Schedulable (loads : List Load) : Prop :=
  ∀ j (bound : j < loads.length), Meets (loads.take j) loads[j]

/-- Deadlines of equal-period loads are met together: inside a window no
longer than the period each of them is released once, so a load may be counted
among the higher-priority ones. -/
theorem meets_iff_demand_cons (higher : List Load) (load : Load) :
    Meets higher load ↔
      ∃ x, 1 ≤ x ∧ x ≤ load.period ∧ demand (load :: higher) x ≤ x := by
  constructor
  · rintro ⟨x, positive, within, enough⟩
    refine ⟨x, positive, within, ?_⟩
    simpa [ceilDiv_eq_one positive within] using enough
  · rintro ⟨x, positive, within, enough⟩
    refine ⟨x, positive, within, ?_⟩
    simpa [ceilDiv_eq_one positive within] using enough

end Rtes.RateMonotonic
