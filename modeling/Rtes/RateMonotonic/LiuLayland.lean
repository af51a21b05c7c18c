import Rtes.RateMonotonic.Hybrid

/-!
# The hyperbolic utilization bound

A load whose period is the longest of its list meets its deadline as soon as
the product of `1 + budget / period` over the list is at most two.  The
argument takes one window per load, its last release before the deadline, in
increasing order: if every window were too short, each load would stretch the
demand by its own factor and the product would exceed two.
-/

namespace Rtes.RateMonotonic

namespace Load

/-- Exact share of the processor the load asks for. -/
def utilization (load : Load) : ℚ :=
  load.budget / load.period

theorem utilization_nonneg (load : Load) : 0 ≤ load.utilization := by
  unfold utilization
  positivity

theorem utilization_pos {load : Load} (budget : 1 ≤ load.budget) (period : 0 < load.period) :
    0 < load.utilization := by
  unfold utilization
  have budgetPos : (0 : ℚ) < load.budget := by exact_mod_cast budget
  have periodPos : (0 : ℚ) < load.period := by exact_mod_cast period
  positivity

end Load

/-- The hyperbolic product of a list of loads. -/
def hyperbolic (loads : List Load) : ℚ :=
  (loads.map fun load => 1 + load.utilization).prod

@[simp]
theorem hyperbolic_nil : hyperbolic [] = 1 :=
  rfl

@[simp]
theorem hyperbolic_cons (load : Load) (loads : List Load) :
    hyperbolic (load :: loads) = (1 + load.utilization) * hyperbolic loads := by
  simp [hyperbolic]

@[simp]
theorem hyperbolic_append (first second : List Load) :
    hyperbolic (first ++ second) = hyperbolic first * hyperbolic second := by
  simp [hyperbolic]

theorem hyperbolic_perm {first second : List Load} (perm : first.Perm second) :
    hyperbolic first = hyperbolic second :=
  (perm.map _).prod_eq

theorem one_le_hyperbolic (loads : List Load) : 1 ≤ hyperbolic loads := by
  induction loads with
  | nil => simp
  | cons load loads ih =>
      rw [hyperbolic_cons]
      have share := load.utilization_nonneg
      nlinarith

theorem hyperbolic_take_mono (loads : List Load) {i j : ℕ} (le : i ≤ j) :
    hyperbolic (loads.take i) ≤ hyperbolic (loads.take j) := by
  obtain ⟨rest, split⟩ := List.take_prefix_take_left (l := loads) le
  rw [← split, hyperbolic_append]
  have first := one_le_hyperbolic (loads.take i)
  have second := one_le_hyperbolic rest
  nlinarith

/-- Utilization-weighted sum of a window length attached to each load. -/
private def weight (window : Load → ℚ) (loads : List Load) : ℚ :=
  (loads.map fun load => load.utilization * window load).sum

@[simp]
private theorem weight_cons (window : Load → ℚ) (load : Load) (loads : List Load) :
    weight window (load :: loads) = load.utilization * window load + weight window loads := by
  simp [weight]

private theorem weight_perm (window : Load → ℚ) {first second : List Load}
    (perm : first.Perm second) : weight window first = weight window second :=
  (perm.map _).sum_eq

private theorem weight_filter_le (window : Load → ℚ) (nonneg : ∀ load, 0 ≤ window load)
    (keep : Load → Bool) (loads : List Load) :
    weight window (loads.filter keep) ≤ weight window loads := by
  induction loads with
  | nil => simp
  | cons load loads ih =>
      have share := mul_nonneg load.utilization_nonneg (nonneg load)
      rw [List.filter_cons]
      split
      · simp only [weight_cons]
        linarith
      · rw [weight_cons]
        linarith

/-- If every window falls short of what has accumulated before it, the total
falls short of the hyperbolic product. -/
private theorem weight_lt_of_short {window : Load → ℚ} {loads : List Load}
    (shares : ∀ load ∈ loads, 0 < load.utilization) (nonempty : loads ≠ []) {base : ℚ}
    (short : ∀ before load after, loads = before ++ load :: after →
      window load < base + weight window before) :
    base + weight window loads < base * hyperbolic loads := by
  induction loads generalizing base with
  | nil => exact absurd rfl nonempty
  | cons load loads ih =>
      have share : 0 < load.utilization := shares load List.mem_cons_self
      have first : window load < base := by
        simpa [weight] using short [] load loads rfl
      have grown : base + load.utilization * window load < base * (1 + load.utilization) := by
        nlinarith
      rw [weight_cons, hyperbolic_cons, ← add_assoc]
      cases loads with
      | nil => simpa [weight] using grown
      | cons second rest =>
          have later : ∀ before other after, second :: rest = before ++ other :: after →
              window other < base + load.utilization * window load + weight window before := by
            intro before other after split
            have whole := short (load :: before) other after (by rw [split]; rfl)
            rwa [weight_cons, ← add_assoc] at whole
          have tail := ih (fun other member => shares other (List.mem_cons_of_mem _ member))
            (List.cons_ne_nil _ _) later
          have factor := one_le_hyperbolic (second :: rest)
          nlinarith

/-- The last release of a load within `limit`. -/
private def lastRelease (limit : ℕ) (load : Load) : ℕ :=
  limit / load.period * load.period

private theorem share_mul_lastRelease {limit : ℕ} {load : Load} (period : 0 < load.period) :
    load.utilization * (lastRelease limit load : ℚ) =
      ((limit / load.period * load.budget : ℕ) : ℚ) := by
  have periodNe : (load.period : ℚ) ≠ 0 := by exact_mod_cast period.ne'
  unfold Load.utilization lastRelease
  push_cast
  field_simp

private theorem lastRelease_pos {limit : ℕ} {load : Load} (period : 0 < load.period)
    (within : load.period ≤ limit) : 1 ≤ lastRelease limit load :=
  Nat.mul_pos (Nat.div_pos within period) period

private theorem lastRelease_le (limit : ℕ) (load : Load) : lastRelease limit load ≤ limit :=
  Nat.div_mul_le_self limit load.period

/-- Up to its last release a load is released as often as in the whole limit;
beyond it once more. -/
private theorem ceilDiv_le_of_le_limit {limit x : ℕ} {load : Load} (period : 0 < load.period)
    (within : x ≤ limit) :
    x ⌈/⌉ load.period ≤
      limit / load.period + if lastRelease limit load < x then 1 else 0 := by
  rw [ceilDiv_le_iff_le_mul period]
  by_cases beyond : lastRelease limit load < x
  · rw [if_pos beyond, Nat.mul_add, Nat.mul_one]
    have whole := Nat.div_add_mod limit load.period
    have rest := Nat.mod_lt limit period
    omega
  · rw [if_neg beyond, Nat.add_zero, Nat.mul_comm]
    exact Nat.le_of_not_lt beyond

/-- In increasing order of last releases, the demand at one of them is covered
by the whole weight and the weight of the loads released before it. -/
private theorem demand_le_weight {limit x : ℕ} (within : x ≤ limit) {loads : List Load}
    (periods : ∀ load ∈ loads, 0 < load.period) (fits : ∀ load ∈ loads, load.period ≤ limit) :
    (demand loads x : ℚ) ≤ weight (fun load => (lastRelease limit load : ℚ)) loads +
      weight (fun load => (lastRelease limit load : ℚ))
        (loads.filter fun load => lastRelease limit load < x) := by
  induction loads with
  | nil => simp [weight]
  | cons load loads ih =>
      have rest := ih (fun other member => periods other (List.mem_cons_of_mem _ member))
        (fun other member => fits other (List.mem_cons_of_mem _ member))
      have period := periods load List.mem_cons_self
      have count := ceilDiv_le_of_le_limit period within
      have releases : 1 ≤ limit / load.period :=
        Nat.div_pos (fits load List.mem_cons_self) period
      rw [demand_cons, weight_cons, List.filter_cons]
      by_cases beyond : lastRelease limit load < x
      · rw [if_pos beyond] at count
        have whole : (x ⌈/⌉ load.period) * load.budget ≤
            limit / load.period * load.budget + limit / load.period * load.budget := by
          calc
            (x ⌈/⌉ load.period) * load.budget ≤ (limit / load.period + 1) * load.budget :=
              Nat.mul_le_mul_right _ count
            _ ≤ (limit / load.period + limit / load.period) * load.budget :=
              Nat.mul_le_mul_right _ (by omega)
            _ = _ := by ring
        rw [if_pos (by simpa using beyond), weight_cons, share_mul_lastRelease period]
        push_cast
        have wholeRat : (((x ⌈/⌉ load.period) * load.budget : ℕ) : ℚ) ≤
            ((limit / load.period * load.budget + limit / load.period * load.budget : ℕ) : ℚ) := by
          exact_mod_cast whole
        push_cast at wholeRat
        linarith
      · rw [if_neg beyond, Nat.add_zero] at count
        rw [if_neg (by simpa using beyond), share_mul_lastRelease period]
        have wholeRat : (((x ⌈/⌉ load.period) * load.budget : ℕ) : ℚ) ≤
            ((limit / load.period * load.budget : ℕ) : ℚ) := by
          exact_mod_cast Nat.mul_le_mul_right load.budget count
        push_cast at wholeRat ⊢
        linarith

/-- Among loads in increasing order of last release, those released before one
of them come before it in the list. -/
private theorem weight_filter_le_weight_before {limit : ℕ} {before after : List Load} {load : Load}
    (sorted : (before ++ load :: after).Pairwise
      fun first second => lastRelease limit first ≤ lastRelease limit second) :
    weight (fun other => (lastRelease limit other : ℚ)) ((before ++ load :: after).filter
        fun other => lastRelease limit other < lastRelease limit load) ≤
      weight (fun other => (lastRelease limit other : ℚ)) before := by
  have later : (load :: after).filter
      (fun other => lastRelease limit other < lastRelease limit load) = [] := by
    rw [List.filter_eq_nil_iff]
    intro other member
    rcases List.mem_cons.mp member with rfl | member
    · simp
    · have order := (List.pairwise_cons.mp (List.pairwise_append.mp sorted).2.1).1 other member
      simpa using order
  rw [List.filter_append, later, List.append_nil]
  exact weight_filter_le _ (fun other => by positivity) _ before

/-- The hyperbolic bound: a load of the longest period meets its deadline below
the others when the hyperbolic product of all of them is at most two. -/
theorem meets_of_hyperbolic_le_two {higher : List Load} {load : Load}
    (budgets : ∀ other ∈ load :: higher, 1 ≤ other.budget)
    (periods : ∀ other ∈ load :: higher, 0 < other.period)
    (longest : ∀ other ∈ higher, other.period ≤ load.period)
    (bound : hyperbolic (load :: higher) ≤ 2) : Meets higher load := by
  rw [meets_iff_demand_cons]
  by_contra misses
  push Not at misses
  have fits : ∀ other ∈ load :: higher, other.period ≤ load.period := by
    intro other member
    rcases List.mem_cons.mp member with rfl | member
    · exact le_rfl
    · exact longest other member
  let release : Load → ℚ := fun other => (lastRelease load.period other : ℚ)
  let order : Load → Load → Prop := fun first second =>
    lastRelease load.period first ≤ lastRelease load.period second
  let sorted := (load :: higher).insertionSort order
  have perm : sorted.Perm (load :: higher) := List.perm_insertionSort order _
  have ordered : sorted.Pairwise order := by
    have total : Std.Total order := ⟨fun first second => Nat.le_total _ _⟩
    have trans : IsTrans Load order := ⟨fun _ _ _ => Nat.le_trans⟩
    exact List.pairwise_insertionSort order _
  have short : ∀ before other after, sorted = before ++ other :: after →
      release other < weight release sorted + weight release before := by
    intro before other after split
    have member : other ∈ load :: higher := perm.mem_iff.mp (by simp [split])
    have tooShort := misses (lastRelease load.period other)
      (lastRelease_pos (periods other member) (fits other member)) (lastRelease_le _ _)
    have covered := demand_le_weight (lastRelease_le load.period other) periods fits
    rw [weight_perm _ perm.symm, weight_perm _ (perm.symm.filter _)] at covered
    have earlier := weight_filter_le_weight_before (split ▸ ordered)
    rw [← split] at earlier
    have strict : release other < (demand (load :: higher) (lastRelease load.period other) : ℚ) :=
      Nat.cast_lt.mpr tooShort
    exact strict.trans_le (covered.trans (by linarith))
  have nonempty : sorted ≠ [] := by
    intro empty
    have length := perm.length_eq
    simp [empty] at length
  have shares : ∀ other ∈ sorted, 0 < other.utilization := by
    intro other member
    have original := perm.mem_iff.mp member
    exact Load.utilization_pos (budgets other original) (periods other original)
  have total := weight_lt_of_short shares nonempty short
  rw [hyperbolic_perm perm] at total
  have positive : 0 ≤ weight release sorted := by
    have empty := weight_filter_le release (fun other => by positivity) (fun _ => false) sorted
    simpa [weight] using empty
  nlinarith

/-- In priority order, every load of a prefix within the hyperbolic bound meets
its deadline. -/
theorem Sorted.meets_of_hyperbolic_take {loads : List Load} (sorted : Sorted loads)
    (budgets : ∀ load ∈ loads, 1 ≤ load.budget) (periods : ∀ load ∈ loads, 0 < load.period)
    {i : ℕ} (bound : hyperbolic (loads.take i) ≤ 2) (j : ℕ) (less : j < i)
    (lt : j < loads.length) : Meets (loads.take j) loads[j] := by
  have snoc : (loads[j] :: loads.take j).Perm (loads.take (j + 1)) := by
    rw [← List.take_concat_get' loads j lt]
    exact (List.perm_append_singleton _ _).symm
  have inList : ∀ other ∈ loads[j] :: loads.take j, other ∈ loads := fun other member =>
    List.mem_of_mem_take (snoc.mem_iff.mp member)
  apply meets_of_hyperbolic_le_two (fun other member => budgets other (inList other member))
    (fun other member => periods other (inList other member))
  · intro other member
    obtain ⟨k, kLt, rfl⟩ := List.mem_take_iff_getElem.mp member
    exact List.pairwise_iff_getElem.mp sorted k j _ lt (by omega)
  · rw [hyperbolic_perm snoc]
    exact (hyperbolic_take_mono loads less).trans bound

end Rtes.RateMonotonic
