import Rtes.RateMonotonic.Speed

/-!
# Fixed-priority schedules

A processor that serves `speed` units of work in every slot of time, always to
the first level that has work.  Work of level `i` arrives in the slots an
arbitrary release function chooses; a release function is legal for a list of
loads when no level asks for more than its budget at once or sooner than a
period later.  What is below the list does not matter.  A closed window bounds
the response of every job under every legal release, and when all the loads are
released together the bound is attained.
-/

namespace Rtes.RateMonotonic

open Finset

/-! ## One slot -/

/-- Work of level `i` left after a slot, of the work that was ready in it. -/
def serve (speed : ℕ) (ready : ℕ → ℕ) (i : ℕ) : ℕ :=
  ready i - (speed - ∑ k ∈ range i, ready k)

/-- The slot serves as much as there is. -/
theorem sum_serve (speed : ℕ) (ready : ℕ → ℕ) (n : ℕ) :
    ∑ k ∈ range n, serve speed ready k = ∑ k ∈ range n, ready k - speed := by
  induction n with
  | zero => simp
  | succ n ih =>
      rw [sum_range_succ, sum_range_succ, ih, serve]
      omega

/-- A level that is emptied leaves nothing above it. -/
theorem sum_serve_of_emptied {speed : ℕ} {ready : ℕ → ℕ} {i : ℕ} (some : ready i ≠ 0)
    (emptied : serve speed ready i = 0) : ∑ k ∈ range (i + 1), serve speed ready k = 0 := by
  rw [sum_serve, sum_range_succ]
  unfold serve at emptied
  omega

/-! ## Whole runs -/

section Run

variable (speed : ℕ) (release : ℕ → ℕ → ℕ)

/-- Work of a level that is left at the start of a slot, when `release t i` of
level `i` is released in slot `t`. -/
def pending : (t i : ℕ) → ℕ
  | 0, _ => 0
  | t + 1, i => serve speed (fun k => pending t k + release t k) i

/-- Work left of the first `n` levels. -/
def backlog (n t : ℕ) : ℕ :=
  ∑ i ∈ range n, pending speed release t i

/-- Work of the first `n` levels released from slot `s` on, before slot `t`. -/
def arrivals (n s t : ℕ) : ℕ :=
  ∑ i ∈ range n, ∑ u ∈ Ico s t, release u i

/-- All work of level `i` released up to slot `s` has been served before slot
`d`: work is served in the order of its release. -/
def Finished (i s d : ℕ) : Prop :=
  ∑ u ∈ range (s + 1), release u i + pending speed release d i ≤ ∑ u ∈ range d, release u i

end Run

variable {speed : ℕ} {release : ℕ → ℕ → ℕ}

@[simp]
theorem backlog_zero (n : ℕ) : backlog speed release n 0 = 0 := by
  simp [backlog, pending]

theorem backlog_succ (n t : ℕ) :
    backlog speed release n (t + 1) =
      backlog speed release n t + ∑ i ∈ range n, release t i - speed := by
  simp only [backlog, pending, sum_serve, sum_add_distrib]

@[simp]
theorem arrivals_self (n s : ℕ) : arrivals release n s s = 0 := by
  simp [arrivals]

theorem arrivals_succ (n : ℕ) {s t : ℕ} (le : s ≤ t) :
    arrivals release n s (t + 1) = arrivals release n s t + ∑ i ∈ range n, release t i := by
  simp only [arrivals, sum_Ico_succ_top le, sum_add_distrib]

/-- The backlog grows by what arrives, less at most the work that can be
served. -/
theorem arrivals_le_backlog (n : ℕ) {s t : ℕ} (le : s ≤ t) :
    backlog speed release n s + arrivals release n s t ≤
      backlog speed release n t + speed * (t - s) := by
  induction t, le using Nat.le_induction with
  | base => simp
  | succ t le ih =>
      rw [arrivals_succ n le, backlog_succ, Nat.succ_sub le, Nat.mul_succ]
      omega

/-- While there is a backlog the processor is never idle. -/
theorem backlog_eq_of_busy (n : ℕ) {s t : ℕ} (le : s ≤ t)
    (busy : ∀ u, s < u → u ≤ t → backlog speed release n u ≠ 0) :
    backlog speed release n t + speed * (t - s) =
      backlog speed release n s + arrivals release n s t := by
  induction t, le using Nat.le_induction with
  | base => simp
  | succ t le ih =>
      have before := ih fun u later within => busy u later (by omega)
      have now := busy (t + 1) (by omega) le_rfl
      rw [backlog_succ] at now
      rw [arrivals_succ n le, backlog_succ, Nat.succ_sub le, Nat.mul_succ]
      omega

/-- A backlog that starts from nothing ends within a window that asks for no
more than can be served in it. -/
theorem exists_idle_of_window (n : ℕ) {s x : ℕ} (positive : 1 ≤ x)
    (idle : backlog speed release n s = 0)
    (window : arrivals release n s (s + x) ≤ speed * x) :
    ∃ t, s < t ∧ t ≤ s + x ∧ backlog speed release n t = 0 := by
  by_contra never
  have busy : ∀ u, s < u → u ≤ s + x → backlog speed release n u ≠ 0 :=
    fun u later within zero => never ⟨u, later, within, zero⟩
  have total := backlog_eq_of_busy n (Nat.le_add_right s x) busy
  have last := busy (s + x) (by omega) le_rfl
  rw [Nat.add_sub_cancel_left] at total
  omega

/-- If every window of `x` slots asks for no more than can be served in it, the
backlog is cleared within `x` slots of any time. -/
theorem exists_idle (n : ℕ) {x : ℕ} (positive : 1 ≤ x)
    (windows : ∀ s, arrivals release n s (s + x) ≤ speed * x) (s : ℕ) :
    ∃ t, s < t ∧ t ≤ s + x ∧ backlog speed release n t = 0 := by
  -- the last time without a backlog up to `s` starts the busy period around it
  set idle := Nat.findGreatest (fun t => backlog speed release n t = 0) s with idleEq
  have cleared : backlog speed release n idle = 0 :=
    Nat.findGreatest_spec (P := fun t => backlog speed release n t = 0) (Nat.zero_le s)
      (backlog_zero n)
  have early : idle ≤ s := Nat.findGreatest_le s
  obtain ⟨t, later, within, zero⟩ := exists_idle_of_window n positive cleared (windows idle)
  refine ⟨t, ?_, by omega, zero⟩
  by_contra before
  have last := Nat.le_findGreatest (P := fun t => backlog speed release n t = 0)
    (not_lt.mp before) zero
  omega

/-! ## Jobs -/

theorem pending_le_backlog {i n : ℕ} (lt : i < n) (t : ℕ) :
    pending speed release t i ≤ backlog speed release n t :=
  single_le_sum (f := fun i => pending speed release t i) (fun _ _ => Nat.zero_le _)
    (mem_range.mpr lt)

/-- Once a level has nothing left, everything released before is finished. -/
theorem finished_of_pending_eq_zero {i s d : ℕ} (lt : s < d)
    (zero : pending speed release d i = 0) : Finished speed release i s d := by
  unfold Finished
  rw [zero, Nat.add_zero]
  exact sum_le_sum_of_subset (range_mono (by omega))

/-- What is finished stays finished. -/
theorem Finished.mono {i s d d' : ℕ} (finished : Finished speed release i s d) (le : d ≤ d') :
    Finished speed release i s d' := by
  induction d', le using Nat.le_induction with
  | base => exact finished
  | succ t le ih =>
      unfold Finished at ih ⊢
      rw [sum_range_succ _ t, pending, serve]
      omega

/-! ## Legal releases -/

/-- No load asks for more than its budget at once, nor again before its period
is over. -/
def Legal (loads : List Load) (release : ℕ → ℕ → ℕ) : Prop :=
  ∀ i (lt : i < loads.length), (∀ t, release t i ≤ loads[i].budget) ∧
    ∀ s t, s < t → release s i ≠ 0 → release t i ≠ 0 → s + loads[i].period ≤ t

/-- A window of `x` slots holds at most a job for every period begun in it. -/
theorem sum_release_le {budget period : ℕ} {work : ℕ → ℕ} (positive : 1 ≤ period)
    (budgets : ∀ t, work t ≤ budget)
    (apart : ∀ s t, s < t → work s ≠ 0 → work t ≠ 0 → s + period ≤ t) (s x : ℕ) :
    ∑ u ∈ Ico s (s + x), work u ≤ (x ⌈/⌉ period) * budget := by
  induction x using Nat.strong_induction_on generalizing s with
  | _ x ih =>
      rcases Nat.eq_zero_or_pos x with rfl | nonempty
      · simp
      · have begun : 1 ≤ x ⌈/⌉ period := by
          by_contra none
          have zero : x ⌈/⌉ period ≤ 0 := by omega
          rw [ceilDiv_le_iff_le_mul (by omega)] at zero
          omega
        by_cases quiet : work s = 0
        · have rest := ih (x - 1) (by omega) (s + 1)
          have shorter := Nat.mul_le_mul_right budget (ceilDiv_mono (Nat.sub_le x 1) period)
          rw [sum_eq_sum_Ico_succ_bot (by omega), quiet, Nat.zero_add]
          rw [show s + 1 + (x - 1) = s + x by omega] at rest
          exact rest.trans shorter
        · -- a job now means none in the rest of its period
          have none : ∀ u, s < u → u < s + period → work u = 0 := by
            intro u later within
            by_contra more
            have := apart s u later quiet more
            omega
          rcases Nat.lt_or_ge x period with short | long
          · rw [sum_eq_sum_Ico_succ_bot (by omega), sum_eq_zero, Nat.add_zero]
            · exact (budgets s).trans (Nat.le_mul_of_pos_left _ begun)
            · intro u member
              obtain ⟨later, within⟩ := mem_Ico.mp member
              exact none u later (by omega)
          · have rest := ih (x - period) (by omega) (s + period)
            rw [show s + period + (x - period) = s + x by omega] at rest
            have first : ∑ u ∈ Ico s (s + period), work u ≤ budget := by
              rw [sum_eq_sum_Ico_succ_bot (by omega), sum_eq_zero, Nat.add_zero]
              · exact budgets s
              · intro u member
                obtain ⟨later, within⟩ := mem_Ico.mp member
                exact none u later within
            have one : x ⌈/⌉ period = (x - period) ⌈/⌉ period + 1 := by
              rw [Nat.ceilDiv_eq_add_pred_div, Nat.ceilDiv_eq_add_pred_div,
                ← Nat.add_div_right _ positive]
              congr 1
              omega
            rw [← sum_Ico_consecutive _ (Nat.le_add_right s period) (by omega), one,
              Nat.add_mul, Nat.one_mul, Nat.add_comm]
            exact Nat.add_le_add rest first

theorem demand_take_eq_sum {loads : List Load} {n : ℕ} (le : n ≤ loads.length) (x : ℕ) :
    demand (loads.take n) x =
      ∑ i ∈ range n, (x ⌈/⌉ (loads.getD i ⟨0, 1⟩).period) * (loads.getD i ⟨0, 1⟩).budget := by
  induction n with
  | zero => simp
  | succ n ih =>
      rw [demand_take_succ loads (by omega), ih (by omega), sum_range_succ,
        List.getD_eq_getElem _ _ (by omega)]

variable {loads : List Load}

/-- Under a legal release no window asks for more than the demand. -/
theorem Legal.arrivals_le (legal : Legal loads release) (periods : ∀ load ∈ loads, 1 ≤ load.period)
    {n : ℕ} (le : n ≤ loads.length) (s x : ℕ) :
    arrivals release n s (s + x) ≤ demand (loads.take n) x := by
  rw [demand_take_eq_sum le]
  apply sum_le_sum
  intro i member
  have lt : i < loads.length := by
    rw [mem_range] at member
    omega
  rw [List.getD_eq_getElem _ _ lt]
  exact sum_release_le (periods _ (List.getElem_mem lt)) (legal i lt).1 (legal i lt).2 s x

/-- Every job of a level finishes within a window that is long enough for all
the demand up to the level. -/
theorem Legal.finished (legal : Legal loads release) (periods : ∀ load ∈ loads, 1 ≤ load.period)
    {j x : ℕ} (lt : j < loads.length) (positive : 1 ≤ x)
    (closed : demand (loads.take (j + 1)) x ≤ speed * x) (s : ℕ) :
    Finished speed release j s (s + x) := by
  have windows : ∀ s, arrivals release (j + 1) s (s + x) ≤ speed * x :=
    fun s => (legal.arrivals_le periods lt s x).trans closed
  obtain ⟨t, later, within, idle⟩ := exists_idle (j + 1) positive windows s
  have zero : pending speed release t j = 0 :=
    Nat.le_zero.mp (idle ▸ pending_le_backlog (Nat.lt_succ_self j) t)
  exact (finished_of_pending_eq_zero later zero).mono within

/-! ## All loads released together -/

/-- Every load is released at time zero and then once a period. -/
def together (loads : List Load) (t i : ℕ) : ℕ :=
  if (loads.getD i ⟨0, 1⟩).period ∣ t then (loads.getD i ⟨0, 1⟩).budget else 0

theorem legal_together (periods : ∀ load ∈ loads, 1 ≤ load.period) :
    Legal loads (together loads) := by
  intro i lt
  have positive := periods _ (List.getElem_mem lt)
  simp only [together, List.getD_eq_getElem _ _ lt]
  constructor
  · intro t
    split <;> omega
  · intro s t later first second
    rw [ite_ne_right_iff] at first second
    have gap : loads[i].period ≤ t - s :=
      Nat.le_of_dvd (by omega) (Nat.dvd_sub second.1 first.1)
    omega

theorem sum_multiples {period : ℕ} (positive : 1 ≤ period) (budget x : ℕ) :
    (∑ u ∈ range x, if period ∣ u then budget else 0) = (x ⌈/⌉ period) * budget := by
  induction x with
  | zero => simp
  | succ x ih =>
      have next : (x + 1) ⌈/⌉ period = x ⌈/⌉ period + if period ∣ x then 1 else 0 := by
        rw [Nat.ceilDiv_eq_add_pred_div, Nat.ceilDiv_eq_add_pred_div,
          show x + 1 + period - 1 = x + period - 1 + 1 by omega, Nat.succ_div,
          show x + period - 1 + 1 = x + period by omega]
        simp only [Nat.dvd_add_self_right]
      rw [sum_range_succ, ih, next, Nat.add_mul, ite_mul, Nat.one_mul, Nat.zero_mul]

/-- Released together, the loads ask for the whole demand. -/
theorem arrivals_together (periods : ∀ load ∈ loads, 1 ≤ load.period) {n : ℕ}
    (le : n ≤ loads.length) (x : ℕ) :
    arrivals (together loads) n 0 x = demand (loads.take n) x := by
  rw [demand_take_eq_sum le]
  apply sum_congr rfl
  intro i member
  have lt : i < loads.length := by
    rw [mem_range] at member
    omega
  simp only [together, List.getD_eq_getElem _ _ lt, Nat.Ico_zero_eq_range]
  exact sum_multiples (periods _ (List.getElem_mem lt)) _ x

/-- The first time a level has nothing left, nothing is left above it either. -/
theorem exists_idle_of_pending_eq_zero {j d : ℕ} (asked : release 0 j ≠ 0) (positive : 1 ≤ d)
    (zero : pending speed release d j = 0) :
    ∃ t, 1 ≤ t ∧ t ≤ d ∧ backlog speed release (j + 1) t = 0 := by
  have ends : ∃ t, pending speed release (t + 1) j = 0 :=
    ⟨d - 1, by rwa [Nat.sub_add_cancel positive]⟩
  have first := Nat.find_spec ends
  have early : Nat.find ends ≤ d - 1 :=
    Nat.find_min' ends (by rwa [Nat.sub_add_cancel positive])
  refine ⟨Nat.find ends + 1, by omega, by omega, ?_⟩
  apply sum_serve_of_emptied _ first
  -- before that there was work: of the first job in the first slot, left over later
  rcases Nat.eq_zero_or_pos (Nat.find ends) with start | later
  · rw [start]
    omega
  · have left := Nat.find_min ends (Nat.sub_lt later Nat.one_pos)
    rw [Nat.sub_add_cancel later] at left
    omega

/-- Released together, the first job of a level is finished before slot `d` of
its period exactly when a window up to `d` is long enough for all the demand up
to the level. -/
theorem finished_together_iff (periods : ∀ load ∈ loads, 1 ≤ load.period) {j d : ℕ}
    (lt : j < loads.length) (asks : 1 ≤ loads[j].budget) (within : d ≤ loads[j].period) :
    Finished speed (together loads) j 0 d ↔
      ∃ x, 1 ≤ x ∧ x ≤ d ∧ demand (loads.take (j + 1)) x ≤ speed * x := by
  constructor
  · intro finished
    have work : together loads 0 j = loads[j].budget := by
      simp [together, List.getElem?_eq_getElem lt]
    have total := sum_multiples (periods _ (List.getElem_mem lt)) loads[j].budget d
    have positive : 1 ≤ d := by
      by_contra none
      obtain rfl : d = 0 := by omega
      simp [Finished, work] at finished
      omega
    rw [ceilDiv_eq_one positive within, Nat.one_mul] at total
    have zero : pending speed (together loads) d j = 0 := by
      simp only [Finished, zero_add, range_one, sum_singleton, work] at finished
      simp only [together, List.getD_eq_getElem _ _ lt] at finished
      omega
    obtain ⟨t, later, early, idle⟩ := exists_idle_of_pending_eq_zero (by omega) positive zero
    refine ⟨t, later, early, ?_⟩
    have asked : backlog speed (together loads) (j + 1) 0 + arrivals (together loads) (j + 1) 0 t ≤
        backlog speed (together loads) (j + 1) t + speed * (t - 0) :=
      arrivals_le_backlog (j + 1) (Nat.zero_le t)
    rw [arrivals_together periods lt, idle] at asked
    simpa using asked
  · rintro ⟨x, positive, early, closed⟩
    have finished := (legal_together periods).finished periods lt positive closed 0
    rw [Nat.zero_add] at finished
    exact finished.mono early

/-! ## Deadlines -/

/-- No job of level `j` is late under any legal release: each is finished before
its period is over. -/
def NeverLate (speed : ℕ) (loads : List Load) (j : ℕ) (lt : j < loads.length) : Prop :=
  ∀ release, Legal loads release → ∀ s, Finished speed release j s (s + loads[j].period)

/-- A level is never late exactly when a window within its period is long enough
for all the demand up to it, and it is late at once otherwise, when all loads
are released together. -/
theorem neverLate_iff_window (periods : ∀ load ∈ loads, 1 ≤ load.period) {j : ℕ}
    (lt : j < loads.length) (asks : 1 ≤ loads[j].budget) :
    NeverLate speed loads j lt ↔
      ∃ x, 1 ≤ x ∧ x ≤ loads[j].period ∧ demand (loads.take (j + 1)) x ≤ speed * x := by
  constructor
  · intro never
    have first := never _ (legal_together periods) 0
    rwa [Nat.zero_add, finished_together_iff periods lt asks le_rfl] at first
  · rintro ⟨x, positive, within, closed⟩ release legal s
    exact (legal.finished periods lt positive closed s).mono (by omega)

theorem demand_take_succ_perm {j : ℕ} (lt : j < loads.length) (x : ℕ) :
    demand (loads.take (j + 1)) x = demand (loads[j] :: loads.take j) x := by
  rw [demand_take_succ loads lt, demand_cons, Nat.add_comm]

/-- A load meets its deadline by the test exactly when it is never late. -/
theorem neverLate_iff_meets (periods : ∀ load ∈ loads, 1 ≤ load.period) {j : ℕ}
    (lt : j < loads.length) (asks : 1 ≤ loads[j].budget) :
    NeverLate 1 loads j lt ↔ Meets (loads.take j) loads[j] := by
  rw [neverLate_iff_window periods lt asks, meets_iff_demand_cons]
  simp only [demand_take_succ_perm lt, Nat.one_mul]

/-! ## Other speeds -/

/-- The loads with `factor` units of work for each unit of budget. -/
def scaled (factor : ℕ) (loads : List Load) : List Load :=
  loads.map fun load => ⟨factor * load.budget, load.period⟩

theorem demand_scaled (factor : ℕ) (loads : List Load) (x : ℕ) :
    demand (scaled factor loads) x = factor * demand loads x := by
  induction loads with
  | nil => rfl
  | cons load loads ih =>
      simp only [scaled, List.map_cons, demand_cons] at ih ⊢
      rw [ih, Nat.mul_add, Nat.mul_left_comm]

/-- In priority order, no load is late at a speed exactly when each has a window
that is long enough for the demand of the loads up to its period. -/
theorem neverLate_scaled_iff {factor : ℕ} (positive : 1 ≤ factor) (sorted : Sorted loads)
    (periods : ∀ load ∈ loads, 1 ≤ load.period) (asks : ∀ load ∈ loads, 1 ≤ load.budget) :
    (∀ j (lt : j < (scaled factor loads).length), NeverLate speed (scaled factor loads) j lt) ↔
      ∀ load ∈ loads, ∃ x, 1 ≤ x ∧ x ≤ load.period ∧
        factor * demand (upTo loads load.period) x ≤ speed * x := by
  have windows : ∀ j (lt : j < loads.length),
      NeverLate speed (scaled factor loads) j (by simpa [scaled] using lt) ↔
        ∃ x, 1 ≤ x ∧ x ≤ loads[j].period ∧
          factor * demand (loads.take (j + 1)) x ≤ speed * x := by
    intro j lt
    rw [neverLate_iff_window]
    · simp only [← demand_scaled, scaled, List.getElem_map, List.map_take]
    · intro load member
      obtain ⟨original, listed, rfl⟩ := List.mem_map.mp member
      exact periods original listed
    · simp only [scaled, List.getElem_map]
      exact Nat.mul_pos positive (asks _ (List.getElem_mem lt))
  constructor
  · intro never load member
    obtain ⟨j, lt, rfl⟩ := List.getElem_of_mem member
    obtain ⟨i, iLt, same, whole⟩ := sorted.exists_last lt
    obtain ⟨x, one, within, enough⟩ := (windows i iLt).mp (never i (by simpa [scaled] using iLt))
    exact ⟨x, one, by omega, whole ▸ enough⟩
  · intro enough j lt
    have lt' : j < loads.length := by simpa [scaled] using lt
    rw [windows j lt']
    obtain ⟨x, one, within, fits⟩ := enough _ (List.getElem_mem lt')
    refine ⟨x, one, within, le_trans ?_ fits⟩
    exact Nat.mul_le_mul_left factor (demand_le_of_subperm (sorted.take_subperm_upTo lt') x)

end Rtes.RateMonotonic
