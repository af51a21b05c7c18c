import Rtes.RateMonotonic.Schedule
import Rtes.Sysclock.Frequency

/-!
# How far the frequency is from the one that is needed

The frequency SysClock computes is rounded down twice.  It brackets the least
frequency at which no job is late: every lower one lets some job be late, and
every one that is 1008 kHz higher lets none.
-/

namespace Rtes.Sysclock

open Rtes.RateMonotonic Rtes.Reservation Rtes.Word

/-- At `f` kHz, of the 1200000 the budgets are meant for, no job is late under
any legal release: a millisecond serves `f` cycles, and a millisecond of budget
asks for 1200000. -/
def OnTime (f : ℕ) (loads : List Load) : Prop :=
  ∀ j (lt : j < (scaled 1200000 loads).length), NeverLate f (scaled 1200000 loads) j lt

private theorem onTime_iff_suffices {f : ℕ} {loads : List Load} (sorted : Sorted loads)
    (periods : ∀ load ∈ loads, 1 ≤ load.period) (asks : ∀ load ∈ loads, 1 ≤ load.budget) :
    OnTime f loads ↔ Suffices f loads :=
  neverLate_scaled_iff (by decide) sorted periods asks

section Bracket

variable {loads : Cpu → List Load}

theorem floorScale_cast (loads : Cpu → List Load) :
    (floorScale loads : ℚ) ≤ 100000 * speed Finset.univ loads ∧
      100000 * speed Finset.univ loads < floorScale loads + 1 := by
  have nonneg : 0 ≤ speed Finset.univ loads := speed_nonneg
  have scaleEq : floorScale loads = ⌊100000 * speed Finset.univ loads⌋₊ := by
    norm_num [floorScale, scaleFactor]
  rw [scaleEq]
  exact ⟨Nat.floor_le (by positivity), Nat.lt_floor_add_one _⟩

/-- The frequency is not more than what is needed. -/
theorem frequency_le (nonzero : floorScale loads ≠ 0) :
    (frequency loads : ℚ) ≤ 1200000 * speed Finset.univ loads := by
  have scale := (floorScale_cast loads).1
  have rounded : 100000 * frequency loads ≤ 1200000 * floorScale loads := by
    rw [frequency, requiredScale, if_neg nonzero]
    unfold sysclockFreqFactor sysclockMaxFreq scaleFactor
    omega
  have cast : (100000 * frequency loads : ℚ) ≤ 1200000 * floorScale loads := by
    exact_mod_cast rounded
  linarith

/-- The two roundings lose 12 kHz and 996 kHz at most. -/
theorem lt_frequency_add (loads : Cpu → List Load) :
    1200000 * speed Finset.univ loads < (frequency loads : ℚ) + 1008 := by
  have scale := (floorScale_cast loads).2
  have most := floorScale_le loads
  have rounded : 12 * floorScale loads + 12 ≤ frequency loads + 1008 := by
    unfold frequency requiredScale
    unfold sysclockFreqFactor sysclockMaxFreq scaleFactor at *
    split <;> omega
  have cast : (12 * floorScale loads + 12 : ℚ) ≤ frequency loads + 1008 := by
    exact_mod_cast rounded
  linarith

/-- A task of at least a millisecond in less than a hundred seconds needs at
least a hundred-thousandth of full speed. -/
theorem floorScale_ne_zero {cpu : Cpu} {load : Load} (member : load ∈ loads cpu)
    (periods : ∀ other ∈ loads cpu, 1 ≤ other.period) (asks : 1 ≤ load.budget)
    (short : load.period ≤ 100000) : floorScale loads ≠ 0 := by
  have needed : (1 : ℚ) / 100000 ≤ speed Finset.univ loads := by
    rw [le_speed_iff]
    refine .inr ⟨cpu, Finset.mem_univ cpu, load, member, ?_⟩
    rw [le_loadSpeed_iff]
    refine ⟨by norm_num, ?_⟩
    intro x positive within
    have own : load ∈ upTo (loads cpu) load.period := mem_upTo.mpr ⟨member, le_rfl⟩
    have budgets : load.budget ≤ ((upTo (loads cpu) load.period).map Load.budget).sum :=
      List.single_le_sum (fun _ _ => Nat.zero_le _) _ (List.mem_map_of_mem own)
    have asked : ((upTo (loads cpu) load.period).map Load.budget).sum ≤
        demand (upTo (loads cpu) load.period) x :=
      budget_sum_le_demand (fun other listed => periods other (mem_upTo.mp listed).1) positive
    have window : (x : ℚ) ≤ 100000 := by exact_mod_cast within.trans short
    have one : (1 : ℚ) ≤ demand (upTo (loads cpu) load.period) x := by
      exact_mod_cast asks.trans (budgets.trans asked)
    linarith
  have scale := (floorScale_cast loads).2
  intro zero
  rw [zero] at scale
  norm_num at scale
  linarith

/-- The frequency of SysClock brackets the least one at which no job is late,
for tasks that are on time at full speed. -/
theorem sysclockCompute_brackets {reserve : Tid → Reserve} {processes : List Tid}
    (assigns : ∀ cpu, Assigns reserve processes cpu (loads cpu)) (fits : ∀ cpu, Fits (loads cpu))
    (sorted : ∀ cpu, Sorted (loads cpu)) (asks : ∀ cpu, ∀ load ∈ loads cpu, 1 ≤ load.budget)
    (short : ∀ cpu, ∀ load ∈ loads cpu, load.period ≤ 100000) (busy : ∃ cpu, loads cpu ≠ [])
    (full : ∀ cpu, OnTime 1200000 (loads cpu)) :
    ∃ f, sysclockCompute uint32 (collect reserve processes) = .ok f ∧
      (∀ f', f + 1008 ≤ f' → ∀ cpu, OnTime f' (loads cpu)) ∧
      ∀ f', f' < f → ∃ cpu, ¬ OnTime f' (loads cpu) := by
  have meaning : ∀ f cpu, OnTime f (loads cpu) ↔ Suffices f (loads cpu) :=
    fun f cpu => onTime_iff_suffices (sorted cpu) (fits cpu).periods (asks cpu)
  have needed := suffices_iff_speed_le fun cpu => (meaning _ cpu).mp (full cpu)
  refine ⟨frequency loads, sysclockCompute_frequency exactOnWords_uint32 assigns fits, ?_, ?_⟩
  · intro f' above cpu
    rw [meaning]
    have margin : (frequency loads : ℚ) + 1008 ≤ f' := by exact_mod_cast above
    have under := lt_frequency_add loads
    refine (needed f').mpr ?_ cpu
    rw [le_div_iff₀ (by norm_num)]
    linarith
  · intro f' below
    by_contra none
    have enough : ∀ cpu, Suffices f' (loads cpu) := by
      intro cpu
      rw [← meaning]
      by_contra late
      exact none ⟨cpu, late⟩
    obtain ⟨cpu, nonempty⟩ := busy
    obtain ⟨load, member⟩ := List.exists_mem_of_ne_nil _ nonempty
    have least := frequency_le (floorScale_ne_zero member (fits cpu).periods
      (asks cpu load member) (short cpu load member))
    have speedLe := (needed f').mp enough
    rw [le_div_iff₀ (by norm_num)] at speedLe
    have less : (f' : ℚ) < frequency loads := by exact_mod_cast below
    linarith

/-- One millisecond in three: 399 MHz are given, fewer are too few, and 400.008
MHz are enough. -/
theorem sysclockCompute_brackets_third :
    (∀ f', 400008 ≤ f' → ∀ cpu, OnTime f' (onFirst [⟨1, 3⟩] cpu)) ∧
      ∀ f', f' < 399000 → ∃ cpu, ¬ OnTime f' (onFirst [⟨1, 3⟩] cpu) := by
  have assigns : ∀ cpu, Assigns (fun _ => reserved ⟨1, 3⟩) [1] cpu (onFirst [⟨1, 3⟩] cpu) := by
    unfold Assigns
    decide
  have fits : ∀ cpu, Fits (onFirst [⟨1, 3⟩] cpu) := by
    intro cpu
    apply fits_of_deadlines <;> revert cpu <;> decide
  have sorted : ∀ cpu, Sorted (onFirst [⟨1, 3⟩] cpu) := by
    unfold Sorted
    decide
  have asks : ∀ cpu, ∀ load ∈ onFirst [⟨1, 3⟩] cpu, 1 ≤ load.budget := by decide
  have full : ∀ cpu, OnTime 1200000 (onFirst [⟨1, 3⟩] cpu) := by
    intro cpu
    rw [onTime_iff_suffices (sorted cpu) (fits cpu).periods (asks cpu)]
    exact suffices_onFirst (by decide) (by decide) cpu
  obtain ⟨f, computes, above, below⟩ := sysclockCompute_brackets assigns fits sorted asks
    (by decide) ⟨0, by decide⟩ full
  obtain rfl : 399000 = f := Except.ok.inj computes
  exact ⟨above, below⟩

end Bracket

end Rtes.Sysclock
