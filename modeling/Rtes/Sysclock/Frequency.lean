import Rtes.Sysclock.Search

/-!
# The frequency SysClock computes

The whole computation is the speed the reserved tasks need, in whole parts of a
hundred thousand and then in whole megahertz, both rounded down.  The order of
the process list does not matter, and more load never lowers the frequency.
Rounding down means that the frequency is enough only when nothing is lost.
-/

namespace Rtes.Sysclock

open Rtes.RateMonotonic Rtes.Reservation Rtes.Slots Rtes.Transition Rtes.Word

/-! ## Reserved tasks as loads -/

/-- The budgets and periods reserved on a CPU are those of the loads, in some
order. -/
def Assigns (reserve : Tid → Reserve) (processes : List Tid) (cpu : Cpu)
    (loads : List Load) : Prop :=
  ((processes.filter fun t => (reserve t).flag && (reserve t).cpu == cpu).map fun t =>
      ((reserve t).C.millis, (reserve t).T.millis)).Perm
    (loads.map fun load => ((load.budget : ℤ), (load.period : ℤ)))

/-- The loads of a CPU are few enough for `t_list`, and their scaled demand is
a word. -/
structure Fits (loads : List Load) : Prop where
  count : loads.length ≤ maxTask
  periods : ∀ load ∈ loads, 1 ≤ load.period
  scaled : ∀ load ∈ loads, ∀ x, 1 ≤ x → x ≤ load.period →
    scaleFactor * demand (upTo loads load.period) x < 4294967296

/-- The demand only has to be checked over the whole periods. -/
theorem fits_of_deadlines {loads : List Load} (count : loads.length ≤ maxTask)
    (periods : ∀ load ∈ loads, 1 ≤ load.period)
    (scaled : ∀ load ∈ loads,
      scaleFactor * demand (upTo loads load.period) load.period < 4294967296) : Fits loads := by
  refine ⟨count, periods, ?_⟩
  intro load member x _ within
  exact (Nat.mul_le_mul_left scaleFactor (demand_mono _ within)).trans_lt (scaled load member)

/-- A reservation of whole milliseconds on the first CPU. -/
def reserved (load : Load) : Reserve :=
  { Reserve.zero with
    flag := true
    C := ⟨0, load.budget * 1000000⟩
    T := ⟨0, load.period * 1000000⟩ }

/-- The first CPU has all the loads. -/
def onFirst (loads : List Load) (cpu : Cpu) : List Load :=
  if cpu = 0 then loads else []

section Assigns

variable {reserve : Tid → Reserve} {processes : List Tid} {cpu : Cpu} {loads : List Load}

/-- Reserved times are `long` milliseconds. -/
theorem Assigns.bounds (assigns : Assigns reserve processes cpu loads) {load : Load}
    (member : load ∈ loads) : load.budget < 2147483648 ∧ load.period < 2147483648 := by
  have paired : ((load.budget : ℤ), (load.period : ℤ)) ∈
      loads.map fun load => ((load.budget : ℤ), (load.period : ℤ)) := List.mem_map_of_mem member
  obtain ⟨t, _, times⟩ := List.mem_map.mp (assigns.mem_iff.mpr paired)
  obtain ⟨budget, period⟩ := Prod.mk.inj times
  have budgetLt : (reserve t).C.millis < 2147483648 := int32_lt _
  have periodLt : (reserve t).T.millis < 2147483648 := int32_lt _
  omega

private theorem toUnsigned_natCast {n : ℕ} (lt : n < 2147483648) : toUnsigned n = n := by
  unfold toUnsigned
  omega

/-- The entries collected for a CPU are its loads, in the order of the process
list. -/
theorem Assigns.collect_perm (assigns : Assigns reserve processes cpu loads) :
    ((collect reserve processes cpu).map SysclockEntry.load).Perm loads := by
  have entries := assigns.map fun times => (⟨toUnsigned times.1, toUnsigned times.2⟩ : Load)
  have same : loads.map ((fun times : ℤ × ℤ => (⟨toUnsigned times.1, toUnsigned times.2⟩ : Load)) ∘
      fun load => ((load.budget : ℤ), (load.period : ℤ))) = loads := by
    conv_rhs => rw [← List.map_id loads]
    apply List.map_congr_left
    intro load member
    obtain ⟨budget, period⟩ := assigns.bounds member
    simp [toUnsigned_natCast budget, toUnsigned_natCast period]
  rw [List.map_map, List.map_map, same] at entries
  rw [collect, List.map_map]
  exact entries

end Assigns

/-! ## One CPU -/

section Cpu

variable {word : ℕ → ℕ} {tasks : List SysclockEntry} {loads : List Load}

private theorem live_getD (tasks : List SysclockEntry) (entry : SysclockEntry) :
    live (fun k => tasks.getD k entry) tasks.length = tasks := by
  apply List.ext_getElem
  · simp
  · intro k _ lt
    simp [lt]

/-- `t_list` after the sort. -/
def sortedList (tasks : List SysclockEntry) : ℕ → SysclockEntry :=
  exchangeSort (fun entry => entry.T) (fun k => tasks.getD k ⟨0, 0⟩) tasks.length

theorem sortedList_perm (listing : (tasks.map SysclockEntry.load).Perm loads) :
    (listed (sortedList tasks) tasks.length).Perm loads := by
  have moved : (live (sortedList tasks) tasks.length).Perm
      (live (fun k => tasks.getD k ⟨0, 0⟩) tasks.length) := exchangeSort_perm _ _
  rw [live_getD] at moved
  exact (moved.map SysclockEntry.load).trans listing

theorem sortedList_sorted (tasks : List SysclockEntry) :
    Sorted (listed (sortedList tasks) tasks.length) :=
  List.pairwise_map.mpr (exchangeSort_pairwise _ _)

/-- Sorting keeps everything the search of each task computes a word. -/
theorem Fits.fitsWord (fits : Fits loads) (words : ∀ load ∈ loads, load.period < 2147483648)
    (listing : (tasks.map SysclockEntry.load).Perm loads) {i : ℕ} (lt : i < tasks.length) :
    FitsWord (sortedList tasks) i := by
  have perm := sortedList_perm listing
  have listedMem : ∀ l, l ≤ i → (sortedList tasks l).load ∈ loads := by
    intro l le
    exact perm.mem_iff.mp (mem_listed_iff.mpr ⟨l, by omega, rfl⟩)
  constructor
  · intro l le
    exact fits.periods _ (listedMem l le)
  · intro l le
    exact words _ (listedMem l le)
  · intro x positive within
    have bound : i < (listed (sortedList tasks) tasks.length).length := by simpa using lt
    have part := (sortedList_sorted tasks).take_subperm_upTo bound
    rw [take_listed (by omega), getElem_listed] at part
    have whole := fits.scaled _ (listedMem i le_rfl) x positive within
    rw [← demand_upTo_perm perm] at whole
    exact (Nat.mul_le_mul_left scaleFactor (demand_le_of_subperm part x)).trans_lt whole

/-- `max_scale` after a CPU, in terms of its loads. -/
theorem maxScale_loads (exactly : ExactOnWords word) (fits : Fits loads)
    (words : ∀ load ∈ loads, load.period < 2147483648)
    (listing : (tasks.map SysclockEntry.load).Perm loads) (before : ℕ) :
    ∃ result, maxScale word (sortedList tasks) before tasks.length = .ok result ∧
      ∀ m, m ≤ result ↔ m ≤ before ∨ ∃ load ∈ loads, m ≤ scaleFactor ∧
        ∀ x, 1 ≤ x → x ≤ load.period → m * x ≤ scaleFactor * demand (upTo loads load.period) x := by
  have perm := sortedList_perm listing
  obtain ⟨result, returns, greatest⟩ := maxScale_spec exactly before
    fun i lt => fits.fitsWord words listing lt
  refine ⟨result, returns, ?_⟩
  intro m
  have byPriority := (sortedList_sorted tasks).exists_take_iff_exists_upTo m scaleFactor
  rw [greatest]
  refine or_congr Iff.rfl ⟨?_, ?_⟩
  · rintro ⟨i, lt, within, filled⟩
    obtain ⟨load, member, all⟩ := byPriority.mp ⟨i, by simpa using lt, by
      rw [take_listed (by omega), getElem_listed]
      exact filled⟩
    refine ⟨load, perm.mem_iff.mp member, within, ?_⟩
    simpa only [demand_upTo_perm perm] using all
  · rintro ⟨load, member, within, all⟩
    obtain ⟨i, lt, filled⟩ := byPriority.mpr ⟨load, perm.mem_iff.mpr member, by
      simpa only [demand_upTo_perm perm] using all⟩
    rw [length_listed] at lt
    rw [take_listed (by omega), getElem_listed] at filled
    exact ⟨i, lt, within, filled⟩

end Cpu

/-! ## All CPUs -/

section Frequency

variable {word : ℕ → ℕ} {tasks : Cpu → List SysclockEntry} {loads : Cpu → List Load}

private theorem scaleLoop_spec (exactly : ExactOnWords word) (fits : ∀ cpu, Fits (loads cpu))
    (words : ∀ cpu, ∀ load ∈ loads cpu, load.period < 2147483648)
    (listing : ∀ cpu, ((tasks cpu).map SysclockEntry.load).Perm (loads cpu))
    (cpus : List Cpu) (scale : ℕ) :
    ∃ result, scaleLoop word tasks cpus scale = .ok result ∧
      ∀ m, m ≤ result ↔ m ≤ scale ∨ ∃ cpu ∈ cpus, ∃ load ∈ loads cpu, m ≤ scaleFactor ∧
        ∀ x, 1 ≤ x → x ≤ load.period →
          m * x ≤ scaleFactor * demand (upTo (loads cpu) load.period) x := by
  induction cpus generalizing scale with
  | nil =>
      refine ⟨scale, rfl, ?_⟩
      intro m
      simp
  | cons cpu rest ih =>
      have count : ¬ maxTask < (tasks cpu).length := by
        rw [not_lt, ← List.length_map SysclockEntry.load, (listing cpu).length_eq]
        exact (fits cpu).count
      obtain ⟨new, returns, greatest⟩ := maxScale_loads exactly (fits cpu) (words cpu) (listing cpu)
        scale
      obtain ⟨result, returns', greatest'⟩ := ih new
      refine ⟨result, ?_, ?_⟩
      · rw [scaleLoop, if_neg count]
        change (maxScale word (sortedList (tasks cpu)) scale (tasks cpu).length >>= _) = _
        rw [returns, ok_bind, returns']
      · intro m
        rw [greatest', greatest, or_assoc]
        refine or_congr Iff.rfl ?_
        simp only [List.mem_cons, exists_eq_or_imp]

/-- Speed in whole parts of a hundred thousand. -/
def floorScale (loads : Cpu → List Load) : ℕ :=
  ⌊(scaleFactor : ℚ) * speed Finset.univ loads⌋₊

/-- The scale the frequency is computed from: full speed stands in for none. -/
def requiredScale (loads : Cpu → List Load) : ℕ :=
  if floorScale loads = 0 then scaleFactor else floorScale loads

private theorem scaleLoop_eq (exactly : ExactOnWords word) (fits : ∀ cpu, Fits (loads cpu))
    (words : ∀ cpu, ∀ load ∈ loads cpu, load.period < 2147483648)
    (listing : ∀ cpu, ((tasks cpu).map SysclockEntry.load).Perm (loads cpu)) :
    scaleLoop word tasks [0, 1, 2, 3] 0 = .ok (floorScale loads) := by
  obtain ⟨result, returns, greatest⟩ := scaleLoop_spec exactly fits words listing [0, 1, 2, 3] 0
  rw [returns]
  congr 1
  apply eq_of_forall_le_iff
  intro m
  have every : ∀ cpu : Cpu, cpu ∈ [0, 1, 2, 3] ↔ cpu ∈ Finset.univ := by decide
  simp only [greatest m, floorScale, le_floor_mul_speed_iff (by decide : 0 < scaleFactor), every]

theorem floorScale_le (loads : Cpu → List Load) : floorScale loads ≤ scaleFactor := by
  have most : speed Finset.univ loads ≤ 1 := speed_le_one
  exact Nat.floor_le_of_le (mul_le_of_le_one_right (Nat.cast_nonneg _) most)

/-- The frequency in kHz that the loads are given. -/
def frequency (loads : Cpu → List Load) : ℕ :=
  sysclockFreqFactor * (sysclockMaxFreq * requiredScale loads / scaleFactor)

theorem sysclockCompute_frequency (exactly : ExactOnWords word) {reserve : Tid → Reserve}
    {processes : List Tid} (assigns : ∀ cpu, Assigns reserve processes cpu (loads cpu))
    (fits : ∀ cpu, Fits (loads cpu)) :
    sysclockCompute word (collect reserve processes) = .ok (frequency loads) := by
  have most := floorScale_le loads
  have chosen : (if floorScale loads = 0 ∨ scaleFactor < floorScale loads then scaleFactor
      else floorScale loads) = requiredScale loads := by
    simp only [requiredScale, not_lt.mpr most, or_false]
  have bound : requiredScale loads ≤ scaleFactor := by
    unfold requiredScale
    split <;> omega
  rw [sysclockCompute, scaleLoop_eq exactly fits
    (fun cpu _ member => ((assigns cpu).bounds member).2)
    (fun cpu => (assigns cpu).collect_perm), ok_bind]
  simp only [chosen]
  unfold scaleFactor at bound
  have product : word (requiredScale loads * sysclockMaxFreq) =
      sysclockMaxFreq * requiredScale loads := by
    unfold sysclockMaxFreq
    rw [exactly _ (by omega), Nat.mul_comm]
  rw [product, Nat.mul_comm _ sysclockFreqFactor]
  congr 1
  apply exactly
  unfold sysclockFreqFactor sysclockMaxFreq scaleFactor
  omega

/-- `sysclock_compute` is the speed the reserved tasks need, rounded down twice,
in whatever order the process list yields them. -/
theorem sysclockCompute_eq {reserve : Tid → Reserve} {processes : List Tid}
    (assigns : ∀ cpu, Assigns reserve processes cpu (loads cpu)) (fits : ∀ cpu, Fits (loads cpu)) :
    sysclockCompute uint32 (collect reserve processes) =
      .ok (1000 * (1200 * (if ⌊100000 * speed Finset.univ loads⌋₊ = 0 then 100000
        else ⌊100000 * speed Finset.univ loads⌋₊) / 100000)) := by
  have factor : (100000 : ℚ) = (scaleFactor : ℕ) := by norm_num [scaleFactor]
  rw [sysclockCompute_frequency exactOnWords_uint32 assigns fits, factor]
  rfl

theorem sysclockCompute_eq_pair :
    sysclockCompute uint32 (collect
        (fun t => if t = 1 then reserved ⟨1, 4⟩ else reserved ⟨2, 6⟩) [2, 1]) =
      .ok (1000 * (1200 *
        (if ⌊100000 * speed Finset.univ (onFirst [⟨1, 4⟩, ⟨2, 6⟩])⌋₊ = 0 then 100000
          else ⌊100000 * speed Finset.univ (onFirst [⟨1, 4⟩, ⟨2, 6⟩])⌋₊) / 100000)) := by
  apply sysclockCompute_eq
  · unfold Assigns
    decide
  · intro cpu
    apply fits_of_deadlines <;> revert cpu <;> decide

/-! ## More load -/

private theorem floorScale_mono {loads' : Cpu → List Load}
    (more : ∀ cpu, Extends (loads cpu) (loads' cpu)) : floorScale loads ≤ floorScale loads' := by
  have faster : speed Finset.univ loads ≤ speed Finset.univ loads' :=
    speed_mono fun cpu _ => more cpu
  exact Nat.floor_mono (mul_le_mul_of_nonneg_left faster (Nat.cast_nonneg _))

private theorem frequency_mono {loads' : Cpu → List Load} (nonzero : floorScale loads ≠ 0)
    (more : ∀ cpu, Extends (loads cpu) (loads' cpu)) : frequency loads ≤ frequency loads' := by
  have scale := floorScale_mono more
  have required : requiredScale loads ≤ requiredScale loads' := by
    rw [requiredScale, requiredScale, if_neg nonzero, if_neg (by omega)]
    exact scale
  exact Nat.mul_le_mul_left _ (Nat.div_le_div_right (Nat.mul_le_mul_left _ required))

/-- More tasks or larger budgets, on any of the CPUs, never lower the frequency,
unless the scale before was zero, for which full speed is set. -/
theorem sysclockCompute_mono {reserve reserve' : Tid → Reserve} {processes processes' : List Tid}
    {loads' : Cpu → List Load} (assigns : ∀ cpu, Assigns reserve processes cpu (loads cpu))
    (assigns' : ∀ cpu, Assigns reserve' processes' cpu (loads' cpu))
    (fits : ∀ cpu, Fits (loads cpu)) (fits' : ∀ cpu, Fits (loads' cpu))
    (more : ∀ cpu, Extends (loads cpu) (loads' cpu))
    (nonzero : scaleLoop uint32 (collect reserve processes) [0, 1, 2, 3] 0 ≠ .ok 0) :
    ∃ f f', sysclockCompute uint32 (collect reserve processes) = .ok f ∧
      sysclockCompute uint32 (collect reserve' processes') = .ok f' ∧ f ≤ f' := by
  refine ⟨frequency loads, frequency loads',
    sysclockCompute_frequency exactOnWords_uint32 assigns fits,
    sysclockCompute_frequency exactOnWords_uint32 assigns' fits', frequency_mono ?_ more⟩
  intro zero
  apply nonzero
  rw [scaleLoop_eq exactOnWords_uint32 fits
    (fun cpu _ member => ((assigns cpu).bounds member).2) (fun cpu => (assigns cpu).collect_perm),
    zero]

/-- A larger budget and a second task. -/
theorem sysclockCompute_mono_pair :
    ∃ f f', sysclockCompute uint32 (collect (fun _ => reserved ⟨1, 4⟩) [1]) = .ok f ∧
      sysclockCompute uint32 (collect
        (fun t => if t = 1 then reserved ⟨2, 4⟩ else reserved ⟨1, 3⟩) [1, 2]) = .ok f' ∧
      f ≤ f' := by
  have assigns : ∀ cpu, Assigns (fun _ => reserved ⟨1, 4⟩) [1] cpu (onFirst [⟨1, 4⟩] cpu) := by
    unfold Assigns
    decide
  have assigns' : ∀ cpu, Assigns (fun t => if t = 1 then reserved ⟨2, 4⟩ else reserved ⟨1, 3⟩)
      [1, 2] cpu (onFirst [⟨1, 3⟩, ⟨2, 4⟩] cpu) := by
    unfold Assigns
    decide
  apply sysclockCompute_mono assigns assigns'
  · intro cpu
    apply fits_of_deadlines <;> revert cpu <;> decide
  · intro cpu
    apply fits_of_deadlines <;> revert cpu <;> decide
  · intro cpu
    unfold onFirst
    split
    · refine ⟨[⟨2, 4⟩], ?_, .cons ⟨rfl, by decide⟩ .nil⟩
      exact (List.Sublist.cons _ (.refl _)).subperm
    · exact ⟨[], .refl _, .nil⟩
  · decide

end Frequency

/-! ## Whether the frequency is enough -/

/-- At `f` kHz, of 1200000, every load still has a window long enough for the
demand up to it. -/
def Suffices (f : ℕ) (loads : List Load) : Prop :=
  ∀ load ∈ loads, ∃ x, 1 ≤ x ∧ x ≤ load.period ∧
    1200000 * demand (upTo loads load.period) x ≤ f * x

/-- A single load on the first CPU that fits its period is schedulable at full
speed. -/
theorem suffices_onFirst {load : Load} (positive : 1 ≤ load.period)
    (fits : load.budget ≤ load.period) (cpu : Cpu) : Suffices 1200000 (onFirst [load] cpu) := by
  unfold onFirst
  split
  · intro other member
    obtain rfl := List.mem_singleton.mp member
    refine ⟨other.period, positive, le_rfl, ?_⟩
    simpa [upTo, ceilDiv_eq_one positive le_rfl] using fits
  · intro other member
    cases member

section Suffices

variable {loads : Cpu → List Load}

/-- For loads that are schedulable at full speed, a frequency is enough exactly
when it is at least the speed they need. -/
theorem suffices_iff_speed_le (full : ∀ cpu, Suffices 1200000 (loads cpu)) (f : ℕ) :
    (∀ cpu, Suffices f (loads cpu)) ↔ speed Finset.univ loads ≤ (f : ℚ) / 1200000 := by
  have scaled : ∀ d x : ℕ, (d : ℚ) ≤ f / 1200000 * x ↔ 1200000 * d ≤ f * x := by
    intro d x
    rw [div_mul_eq_mul_div, le_div_iff₀' (by norm_num)]
    exact_mod_cast Iff.rfl
  rw [speed_le_iff]
  simp only [Finset.mem_univ, forall_const, loadSpeed_le_iff, scaled]
  constructor
  · intro enough
    exact ⟨by positivity, fun cpu load member => Or.inr (enough cpu load member)⟩
  · rintro ⟨_, enough⟩ cpu load member
    rcases enough cpu load member with whole | window
    · -- at full speed or above, the window of full speed still does
      obtain ⟨x, positive, within, filled⟩ := full cpu load member
      have fullSpeed : 1200000 ≤ f := by
        rw [le_div_iff₀ (by norm_num), one_mul] at whole
        exact_mod_cast whole
      exact ⟨x, positive, within, filled.trans (Nat.mul_le_mul_right x fullSpeed)⟩
    · exact window

/-- Rounding down loses nothing exactly for multiples of a four-hundredth, the
common part of a hundred-thousandth and a megahertz; speeds that round to none
are given full speed. -/
theorem speed_le_frequency_iff :
    speed Finset.univ loads ≤ (frequency loads : ℚ) / 1200000 ↔
      speed Finset.univ loads < 1 / 100000 ∨ ∃ k : ℕ, speed Finset.univ loads = k / 400 := by
  have nonneg : 0 ≤ speed Finset.univ loads := speed_nonneg
  have most : speed Finset.univ loads ≤ 1 := speed_le_one
  have scaleEq : floorScale loads = ⌊100000 * speed Finset.univ loads⌋₊ := by
    norm_num [floorScale, scaleFactor]
  have scaleLe : (floorScale loads : ℚ) ≤ 100000 * speed Finset.univ loads := by
    rw [scaleEq]
    exact Nat.floor_le (by positivity)
  by_cases none : floorScale loads = 0
  · have value : frequency loads = 1200000 := by
      simp [frequency, requiredScale, none, scaleFactor, sysclockMaxFreq, sysclockFreqFactor]
    have small : speed Finset.univ loads < 1 / 100000 := by
      rw [scaleEq, Nat.floor_eq_zero] at none
      linarith
    rw [value]
    norm_num
    exact ⟨fun _ => Or.inl (by linarith), fun _ => most⟩
  · set megahertz := 1200 * floorScale loads / 100000 with megahertzEq
    have value : frequency loads = 1000 * megahertz := by
      rw [frequency, requiredScale, if_neg none]
      rfl
    have large : ¬ speed Finset.univ loads < 1 / 100000 := by
      intro small
      apply none
      rw [scaleEq, Nat.floor_eq_zero]
      linarith
    rw [value, or_iff_right large]
    push_cast
    constructor
    · intro enough
      have rounded : (100000 * megahertz : ℚ) ≤ 1200 * floorScale loads := by
        exact_mod_cast Nat.mul_div_le (1200 * floorScale loads) 100000
      have exact : (100000 * megahertz : ℚ) = 1200 * floorScale loads := by linarith
      have whole : 100000 * megahertz = 1200 * floorScale loads := by exact_mod_cast exact
      have third : 3 * (megahertz / 3) = megahertz := by omega
      refine ⟨megahertz / 3, ?_⟩
      have thirdCast : (3 : ℚ) * ((megahertz / 3 : ℕ) : ℚ) = megahertz := by exact_mod_cast third
      linarith
    · rintro ⟨k, parts⟩
      have scale : floorScale loads = 250 * k := by
        have product : (100000 : ℚ) * (k / 400) = ((250 * k : ℕ) : ℚ) := by
          push_cast
          ring
        rw [scaleEq, parts, product, Nat.floor_natCast]
      have multiple : megahertz = 3 * k := by omega
      rw [parts, multiple]
      push_cast
      linarith

/-- The frequency `sysclock_compute` returns is enough for tasks that are
schedulable at full speed exactly when the rounding loses nothing. -/
theorem sysclockCompute_suffices_iff {reserve : Tid → Reserve} {processes : List Tid}
    (assigns : ∀ cpu, Assigns reserve processes cpu (loads cpu)) (fits : ∀ cpu, Fits (loads cpu))
    (full : ∀ cpu, Suffices 1200000 (loads cpu)) :
    ∃ f, sysclockCompute uint32 (collect reserve processes) = .ok f ∧
      ((∀ cpu, Suffices f (loads cpu)) ↔
        speed Finset.univ loads < 1 / 100000 ∨ ∃ k : ℕ, speed Finset.univ loads = k / 400) := by
  refine ⟨frequency loads, sysclockCompute_frequency exactOnWords_uint32 assigns fits, ?_⟩
  rw [suffices_iff_speed_le full, speed_le_frequency_iff]

theorem sysclockCompute_suffices_iff_quarter :
    ∃ f, sysclockCompute uint32 (collect (fun _ => reserved ⟨1, 4⟩) [1]) = .ok f ∧
      ((∀ cpu, Suffices f (onFirst [⟨1, 4⟩] cpu)) ↔
        speed Finset.univ (onFirst [⟨1, 4⟩]) < 1 / 100000 ∨
          ∃ k : ℕ, speed Finset.univ (onFirst [⟨1, 4⟩]) = k / 400) := by
  apply sysclockCompute_suffices_iff
  · unfold Assigns
    decide
  · intro cpu
    apply fits_of_deadlines <;> revert cpu <;> decide
  · exact suffices_onFirst (by decide) (by decide)

/-- One millisecond in three needs a third of full speed, 400 MHz, and is given
399 MHz. -/
theorem sysclockCompute_not_suffices :
    (∀ cpu, Assigns (fun _ => reserved ⟨1, 3⟩) [1] cpu (onFirst [⟨1, 3⟩] cpu)) ∧
      (∀ cpu, Fits (onFirst [⟨1, 3⟩] cpu)) ∧ (∀ cpu, Suffices 1200000 (onFirst [⟨1, 3⟩] cpu)) ∧
      sysclockCompute uint32 (collect (fun _ => reserved ⟨1, 3⟩) [1]) = .ok 399000 ∧
      ¬ Suffices 399000 (onFirst [⟨1, 3⟩] 0) := by
  refine ⟨?_, ?_, suffices_onFirst (by decide) (by decide), by rfl, ?_⟩
  · unfold Assigns
    decide
  · intro cpu
    apply fits_of_deadlines <;> revert cpu <;> decide
  · intro enoughAll
    obtain ⟨x, positive, within, enough⟩ := enoughAll ⟨1, 3⟩ (List.mem_singleton_self _)
    have less := demand_mono (upTo [⟨1, 3⟩] 3) positive
    have once : demand (upTo [⟨1, 3⟩] 3) 1 = 1 := by decide
    simp only [onFirst, if_true] at enough within
    omega

end Suffices

end Rtes.Sysclock
