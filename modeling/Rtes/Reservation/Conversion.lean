import Rtes.Reservation.Budget

/-!
# Conversion to milliseconds

`set_reserve` converts its times to whole milliseconds and computes the
utilization in words of 32 bits.  It checks its times for `NULL` only, so the
conversion is exact for the times of a certain range and for no others.
-/

namespace Rtes.Reservation

open Rtes.Transition Rtes.Word

/-! ## Milliseconds -/

namespace Timespec

variable {time : Timespec}

/-- Whole milliseconds of a time, in unbounded arithmetic. -/
def wholeMillis (time : Timespec) : ℤ :=
  time.nanos / 1000000

/-- The nanoseconds are not negative, or come to whole milliseconds. -/
def RoundsDown (time : Timespec) : Prop :=
  0 ≤ time.tvNsec ∨ 1000000 ∣ time.tvNsec

instance (time : Timespec) : Decidable time.RoundsDown :=
  inferInstanceAs (Decidable (_ ∨ _))

private theorem wholeMillis_eq (time : Timespec) :
    time.wholeMillis = time.tvSec * 1000 + time.tvNsec / 1000000 := by
  unfold wholeMillis nanos nsPerS
  omega

/-- The nanoseconds are rounded towards zero, which adds a millisecond where they
do not round down. -/
theorem millis_eq_int32 (time : Timespec) :
    time.millis = int32 (time.wholeMillis + if time.RoundsDown then 0 else 1) := by
  have wraps : time.millis = int32 (time.tvSec * 1000 + time.tvNsec.tdiv 1000000) := by
    unfold millis int32
    rw [Int.bmod_add_bmod]
  rw [wraps, wholeMillis_eq, Int.tdiv_eq_ediv, add_assoc]
  rfl

/-- The milliseconds are exact unless the nanoseconds are rounded up or the whole
does not fit a word. -/
theorem millis_eq_wholeMillis_iff :
    time.millis = time.wholeMillis ↔
      time.RoundsDown ∧ -2147483648 ≤ time.wholeMillis ∧ time.wholeMillis < 2147483648 := by
  rw [millis_eq_int32]
  by_cases down : time.RoundsDown
  · rw [if_pos down, add_zero, int32_eq_self_iff]
    exact (and_iff_right down).symm
  · obtain ⟨turns, wraps⟩ := exists_int32_eq (time.wholeMillis + 1)
    rw [if_neg down]
    constructor
    · intro exact
      omega
    · rintro ⟨rounds, _⟩
      exact absurd rounds down

end Timespec

/-! ## Parameters -/

variable {s s' : Kernel} {t : Tid} {C T : Timespec} {params : Params}

/-- The parameters are the whole milliseconds of the times, and their quotient in
parts of ten thousand. -/
structure ExactParams (C T : Timespec) (params : Params) : Prop where
  period : params.period = T.wholeMillis
  budget : params.budget = C.wholeMillis
  positive : 0 < params.period
  nonneg : 0 ≤ params.budget
  util : params.util = utilMultiple * C.wholeMillis / T.wholeMillis
  least : 0 ≤ params.util
  most : params.util ≤ utilMultiple

/-- Times that are converted exactly: a budget that is not negative, a period of
a millisecond at least, both within a word of 32 bits, the budget in parts of
ten thousand as well, and no more budget than rounds down to the whole period. -/
structure Convertible (C T : Timespec) : Prop where
  budgetDown : C.RoundsDown
  periodDown : T.RoundsDown
  nonneg : 0 ≤ C.nanos
  positive : 1000000 ≤ T.nanos
  period : T.wholeMillis < 2147483648
  scaled : utilMultiple * C.wholeMillis < 2147483648
  most : utilMultiple * C.wholeMillis < (utilMultiple + 1) * T.wholeMillis

namespace Convertible

theorem positive_wholeMillis (convertible : Convertible C T) : 0 < T.wholeMillis := by
  have positive := convertible.positive
  unfold Timespec.wholeMillis
  omega

private theorem nonneg_wholeMillis (convertible : Convertible C T) : 0 ≤ C.wholeMillis :=
  Int.ediv_nonneg convertible.nonneg (by decide)

theorem period_eq (convertible : Convertible C T) : T.millis = T.wholeMillis := by
  have positive := convertible.positive_wholeMillis
  rw [Timespec.millis_eq_wholeMillis_iff]
  exact ⟨convertible.periodDown, by omega, convertible.period⟩

theorem budget_eq (convertible : Convertible C T) : C.millis = C.wholeMillis := by
  have nonneg := convertible.nonneg_wholeMillis
  have scaled := convertible.scaled
  unfold utilMultiple at scaled
  rw [Timespec.millis_eq_wholeMillis_iff]
  exact ⟨convertible.budgetDown, by omega, by omega⟩

end Convertible

/-- The conversion is exact on the times of the range and on no others. -/
theorem exactParams_iff (converts : paramsOf C T = .ok params) :
    ExactParams C T params ↔ Convertible C T := by
  unfold paramsOf at converts
  split_ifs at converts
  cases converts
  constructor
  · rintro ⟨period, budget, positive, nonneg, util, _, most⟩
    dsimp only at period budget positive nonneg util most
    obtain ⟨periodDown, _, word⟩ := Timespec.millis_eq_wholeMillis_iff.mp period
    obtain ⟨budgetDown, _, _⟩ := Timespec.millis_eq_wholeMillis_iff.mp budget
    rw [util] at most
    rw [period] at positive
    rw [budget] at nonneg
    rw [period, budget, mul_comm, int32_tdiv positive,
      tdiv_int32_eq_iff (mul_nonneg (by decide) nonneg) positive word] at util
    refine ⟨budgetDown, periodDown, ?_, ?_, word, util, ?_⟩
    · unfold Timespec.wholeMillis at nonneg
      omega
    · unfold Timespec.wholeMillis at positive
      omega
    · exact (Int.ediv_lt_iff_lt_mul positive).mp (Int.lt_add_one_of_le most)
  · intro convertible
    have positive := convertible.positive_wholeMillis
    have nonneg := convertible.nonneg_wholeMillis
    have scaled : 0 ≤ utilMultiple * C.wholeMillis := mul_nonneg (by decide) nonneg
    have util : int32 ((int32 (C.millis * utilMultiple)).tdiv T.millis) =
        utilMultiple * C.wholeMillis / T.wholeMillis := by
      rw [convertible.period_eq, convertible.budget_eq, mul_comm, int32_tdiv positive,
        tdiv_int32_eq_iff scaled positive convertible.period]
      exact convertible.scaled
    refine ⟨convertible.period_eq, convertible.budget_eq, ?_, ?_, util, ?_, ?_⟩
    · rw [convertible.period_eq]
      exact positive
    · rw [convertible.budget_eq]
      exact nonneg
    · rw [util]
      exact Int.ediv_nonneg scaled positive.le
    · rw [util]
      exact Int.le_of_lt_add_one ((Int.ediv_lt_iff_lt_mul positive).mpr convertible.most)

/-- A call that succeeds stores the converted parameters. -/
theorem setReserve_params {srv : Services} {cpuid : ℤ}
    (returns : s.setReserve srv t (some C) (some T) cpuid = .ok (0, s')) :
    paramsOf C T = .ok (s'.reserve t).params := by
  obtain ⟨own, result, changes⟩ := setReserve_changes returns
  rw [changes.reserve_eq, Function.update_self]
  cases result with
  | refused nonzero _ => exact absurd rfl nonzero
  | undone nonzero _ => exact absurd rfl nonzero
  | failed nonzero _ _ _ _ => exact absurd rfl nonzero
  | installed isBudget isPeriod converts =>
      cases isBudget
      cases isPeriod
      exact converts

/-- A call that gets to divide by the period does not divide by zero and stores
exact parameters if and only if its times are convertible. -/
theorem setReserve_exact_iff {srv : Services} {cpuid : ℤ}
    (divides : T.millis = 0 ∨ s.setReserve srv t (some C) (some T) cpuid = .ok (0, s')) :
    (T.millis ≠ 0 ∧ ExactParams C T (s'.reserve t).params) ↔ Convertible C T := by
  rcases divides with zero | returns
  · constructor
    · rintro ⟨nonzero, _⟩
      exact absurd zero nonzero
    · intro convertible
      have positive := convertible.positive_wholeMillis
      rw [convertible.period_eq] at zero
      omega
  · have converts := setReserve_params returns
    rw [← exactParams_iff converts, and_iff_right_iff_imp]
    intro _ zero
    rw [paramsOf, if_pos zero] at converts
    cases converts

/-- A quarter of every second. -/
theorem setReserve_exact_iff_quarter : ∃ s' : Kernel,
    Kernel.bare.setReserve .succeed 1 (some ⟨0, 250000000⟩) (some ⟨1, 0⟩) 0 = .ok (0, s') ∧
      ((Timespec.millis ⟨1, 0⟩ ≠ 0 ∧
        ExactParams ⟨0, 250000000⟩ ⟨1, 0⟩ (s'.reserve 1).params) ↔
          Convertible ⟨0, 250000000⟩ ⟨1, 0⟩) := by
  have succeeds : ∃ s', Kernel.bare.setReserve .succeed 1 (some ⟨0, 250000000⟩)
      (some ⟨1, 0⟩) 0 = .ok (0, s') := ⟨_, rfl⟩
  obtain ⟨s', returns⟩ := succeeds
  exact ⟨s', returns, setReserve_exact_iff (.inr returns)⟩

/-- With all the time of a period of 214749 milliseconds, ten thousand budgets no
longer fit a word: the task is admitted with a utilization of `-9999`. -/
theorem setReserve_not_exact : ∃ s' : Kernel,
    Kernel.bare.setReserve .succeed 1 (some ⟨214, 749000000⟩) (some ⟨214, 749000000⟩) 0 =
        .ok (0, s') ∧
      Timespec.wholeMillis ⟨214, 749000000⟩ = 214749 ∧ (s'.reserve 1).util = -9999 ∧
      ¬ ExactParams ⟨214, 749000000⟩ ⟨214, 749000000⟩ (s'.reserve 1).params := by
  refine ⟨_, rfl, by decide, by decide, ?_⟩
  intro exact
  exact absurd exact.least (by decide)

end Rtes.Reservation
