import Rtes.Reservation.Runs
import Rtes.Sysclock.Frequency

/-!
# Whether the SysClock arithmetic wraps

The largest number `sysclock_compute` forms for a CPU is the scaled demand of
all its tasks over the longest period.  It is a word of 32 bits only as long as
that demand is below 42950 milliseconds, which the admission of tasks with
periods of up to a minute does not ensure.
-/

namespace Rtes.Sysclock

open Rtes.RateMonotonic Rtes.Reservation Rtes.Word

/-! ## The numbers of the search -/

/-- What the search for task `i` computes, in unbounded integers: the multiples
of the periods up to the first that is too long, the running sums of the demand,
and the scaled demands. -/
inductive Computes (tList : ℕ → SysclockEntry) (i : ℕ) : ℕ → Prop
  | multiple {j n : ℕ} : j ≤ i → n * (tList j).T ≤ (tList i).T →
      Computes tList i ((n + 1) * (tList j).T)
  | sum {j n k sum : ℕ} : j ≤ i → 1 ≤ n → n * (tList j).T ≤ (tList i).T → k ≤ i + 1 →
      cSum id tList (n * (tList j).T) k = .ok sum → Computes tList i sum
  | scaled {j n sum : ℕ} : j ≤ i → 1 ≤ n → n * (tList j).T ≤ (tList i).T →
      cSum id tList (n * (tList j).T) (i + 1) = .ok sum → Computes tList i (scaleFactor * sum)

/-- Every number the searches of all tasks compute is a word. -/
def NoWrap (tasks : Cpu → List SysclockEntry) : Prop :=
  ∀ cpu i, i < (tasks cpu).length →
    ∀ value, Computes (sortedList (tasks cpu)) i value → value < 4294967296

theorem cSum_id {tList : ℕ → SysclockEntry} {k : ℕ} (periods : ∀ l, l < k → 1 ≤ (tList l).T)
    (x : ℕ) : cSum id tList x k = .ok (demand (listed tList k) x) :=
  cSum_eq periods fun _ _ => rfl

private theorem FitsWord.lt_of_computes {tList : ℕ → SysclockEntry} {i value : ℕ}
    (fits : FitsWord tList i) (computes : Computes tList i value) : value < 4294967296 := by
  have periods : ∀ l, l < i + 1 → 1 ≤ (tList l).T :=
    fun l lt => fits.periods l (Nat.le_of_lt_succ lt)
  cases computes with
  | @multiple j n jLe within =>
      have period := fits.words j jLe
      have deadline := fits.words i le_rfl
      rw [Nat.add_one_mul]
      omega
  | @sum j n k _ jLe positive within kLe sums =>
      rw [cSum_id fun l lt => periods l (lt.trans_le kLe)] at sums
      cases sums
      have scaled := fits.scaled _ (Nat.mul_pos positive (fits.periods j jLe)) within
      have part : demand (listed tList k) (n * (tList j).T) ≤
          demand (listed tList (i + 1)) (n * (tList j).T) := by
        rw [← take_listed kLe]
        exact demand_le_of_subperm (List.take_sublist _ _).subperm _
      unfold scaleFactor at scaled
      omega
  | @scaled j n _ jLe positive within sums =>
      rw [cSum_id periods] at sums
      cases sums
      exact fits.scaled _ (Nat.mul_pos positive (fits.periods j jLe)) within

/-! ## The longest period -/

/-- The tasks of a CPU ask for at most 42949 milliseconds in a window of their
longest period. -/
def Short (loads : List Load) : Prop :=
  ∀ longest ∈ loads, (∀ other ∈ loads, other.period ≤ longest.period) →
    demand loads longest.period ≤ 42949

section Longest

variable {tasks : List SysclockEntry} {loads : List Load}

theorem Short.fits (short : Short loads) (count : loads.length ≤ maxTask)
    (periods : ∀ load ∈ loads, 1 ≤ load.period) : Fits loads := by
  refine fits_of_deadlines count periods ?_
  intro load member
  obtain ⟨longest, longestMem, longestLe⟩ := Finset.exists_max_image loads.toFinset Load.period
    ⟨load, List.mem_toFinset.mpr member⟩
  simp only [List.mem_toFinset] at longestMem longestLe
  have whole := short longest longestMem longestLe
  have less : demand (upTo loads load.period) load.period ≤ demand loads longest.period :=
    calc
      demand (upTo loads load.period) load.period ≤ demand loads load.period :=
        demand_le_of_subperm List.filter_sublist.subperm _
      _ ≤ demand loads longest.period := demand_mono loads (longestLe load member)
  unfold scaleFactor
  omega

/-- The search for the last task computes the scaled demand over the longest
period. -/
theorem computes_longest (periods : ∀ load ∈ loads, 1 ≤ load.period)
    (listing : (tasks.map SysclockEntry.load).Perm loads) {longest : Load}
    (member : longest ∈ loads) (most : ∀ other ∈ loads, other.period ≤ longest.period) :
    ∃ i, i < tasks.length ∧
      Computes (sortedList tasks) i (scaleFactor * demand loads longest.period) := by
  have perm := sortedList_perm listing
  obtain ⟨k, kLt, isLongest⟩ := mem_listed_iff.mp (perm.mem_iff.mpr member)
  have lastLt : tasks.length - 1 < tasks.length := by omega
  have listedMem : ∀ l, l < tasks.length → (sortedList tasks l).load ∈ loads :=
    fun l lt => perm.mem_iff.mp (mem_listed_iff.mpr ⟨l, lt, rfl⟩)
  have ordered := (sortedList_sorted tasks).rel_get_of_le
    (a := ⟨k, by simpa using kLt⟩) (b := ⟨tasks.length - 1, by simpa using lastLt⟩)
    (by simp only [Fin.mk_le_mk]; omega)
  simp only [List.get_eq_getElem, getElem_listed, isLongest] at ordered
  have last : (sortedList tasks (tasks.length - 1)).T = longest.period :=
    le_antisymm (most _ (listedMem _ lastLt)) ordered
  refine ⟨tasks.length - 1, lastLt, ?_⟩
  have sums : cSum id (sortedList tasks) longest.period tasks.length =
      .ok (demand loads longest.period) := by
    rw [cSum_id fun l lt => periods _ (listedMem l lt), demand_perm perm]
  refine .scaled (n := 1) le_rfl le_rfl (by rw [Nat.one_mul]) ?_
  rw [Nat.one_mul, last, Nat.sub_add_cancel (by omega)]
  exact sums

end Longest

/-! ## The result -/

/-- For tasks with `1 ≤ C ≤ T ≤ 60000`, at most a hundred a CPU, nothing wraps,
and the result is the one of unbounded integers, exactly when every CPU has at
most 42949 milliseconds of demand in its longest period. -/
theorem sysclockCompute_exact_iff {reserve : Tid → Reserve} {processes : List Tid}
    {loads : Cpu → List Load} (assigns : ∀ cpu, Assigns reserve processes cpu (loads cpu))
    (count : ∀ cpu, (loads cpu).length ≤ maxTask)
    (valid : ∀ cpu, ∀ load ∈ loads cpu,
      1 ≤ load.budget ∧ load.budget ≤ load.period ∧ load.period ≤ 60000) :
    (NoWrap (collect reserve processes) ∧
        sysclockCompute uint32 (collect reserve processes) =
          sysclockCompute id (collect reserve processes)) ↔
      ∀ cpu, Short (loads cpu) := by
  have periods : ∀ cpu, ∀ load ∈ loads cpu, 1 ≤ load.period := by
    intro cpu load member
    have bounds := valid cpu load member
    omega
  constructor
  · rintro ⟨noWrap, _⟩ cpu longest member most
    obtain ⟨i, lt, computes⟩ :=
      computes_longest (periods cpu) (assigns cpu).collect_perm member most
    have word := noWrap cpu i lt _ computes
    unfold scaleFactor at word
    omega
  · intro short
    have fits : ∀ cpu, Fits (loads cpu) := fun cpu => (short cpu).fits (count cpu) (periods cpu)
    constructor
    · intro cpu i lt value computes
      have words : ∀ load ∈ loads cpu, load.period < 2147483648 :=
        fun load member => ((assigns cpu).bounds member).2
      exact ((fits cpu).fitsWord words (assigns cpu).collect_perm lt).lt_of_computes computes
    · rw [sysclockCompute_frequency exactOnWords_uint32 assigns fits,
        sysclockCompute_frequency exactOnWords_id assigns fits]

theorem sysclockCompute_exact_iff_pair :
    (NoWrap (collect (fun t => if t = 1 then reserved ⟨1, 4⟩ else reserved ⟨2, 6⟩) [1, 2]) ∧
        sysclockCompute uint32
            (collect (fun t => if t = 1 then reserved ⟨1, 4⟩ else reserved ⟨2, 6⟩) [1, 2]) =
          sysclockCompute id
            (collect (fun t => if t = 1 then reserved ⟨1, 4⟩ else reserved ⟨2, 6⟩) [1, 2])) ↔
      ∀ cpu, Short (onFirst [⟨1, 4⟩, ⟨2, 6⟩] cpu) := by
  apply sysclockCompute_exact_iff
  · unfold Assigns
    decide
  · decide
  · decide

/-- A task that is admitted with a budget and a period of a minute: the scaled
demand wraps, and the frequency is 341 MHz instead of full speed. -/
theorem sysclockCompute_wraps :
    ∃ s, Kernel.setReserve .succeed { Kernel.bare with processes := [1] } 1 (some ⟨60, 0⟩)
        (some ⟨60, 0⟩) 0 = .ok (0, s) ∧
      (∀ cpu, Assigns s.reserve s.processes cpu (onFirst [⟨60000, 60000⟩] cpu)) ∧
      ¬ NoWrap (collect s.reserve s.processes) ∧
      sysclockCompute uint32 (collect s.reserve s.processes) = .ok 341000 ∧
      sysclockCompute id (collect s.reserve s.processes) = .ok 1200000 := by
  have sums : cSum id (sortedList [⟨60000, 60000⟩]) 60000 1 = .ok 60000 := by rfl
  refine ⟨_, rfl, ?_, ?_, by rfl, by rfl⟩
  · unfold Assigns
    decide
  · intro noWrap
    have word := noWrap 0 0 (by decide) _ (.scaled (j := 0) (n := 1) le_rfl le_rfl le_rfl sums)
    exact absurd word (by decide)

end Rtes.Sysclock
