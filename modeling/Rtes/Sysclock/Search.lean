import Rtes.RateMonotonic.Speed
import Rtes.Reservation.Test
import Rtes.Sysclock.Core

/-!
# The search for the least scale

The loops of the search look at windows, and each result is described by the numbers
it is at least: the windows are the multiples of the periods, the scale of a task is
the least of the scales at those scheduling points, and with them at every window up to
its period.  Nothing wraps as long as the scaled demand is a word, so the
unbounded computation has the same results.

The response-time test of `try_bind` is the other schedulability test of the
kernel; the last section shows that the two agree.
-/

namespace Rtes.Sysclock

open Rtes.RateMonotonic Rtes.Reservation Rtes.Slots Rtes.Transition Rtes.Word

/-- The periodic load an entry stands for. -/
def SysclockEntry.load (entry : SysclockEntry) : Load :=
  ⟨entry.C, entry.T⟩

/-- The loads of the first `k` entries. -/
def listed (tList : ℕ → SysclockEntry) (k : ℕ) : List Load :=
  (live tList k).map SysclockEntry.load

section Listed

variable {tList : ℕ → SysclockEntry}

@[simp]
theorem length_listed (k : ℕ) : (listed tList k).length = k := by
  simp [listed]

@[simp]
theorem getElem_listed {k i : ℕ} (lt : i < (listed tList k).length) :
    (listed tList k)[i] = (tList i).load := by
  simp [listed]

theorem take_listed {k n : ℕ} (le : k ≤ n) : (listed tList n).take k = listed tList k := by
  simp [listed, live, ← List.map_take, List.take_range, Nat.min_eq_left le]

theorem mem_listed_iff {k : ℕ} {load : Load} :
    load ∈ listed tList k ↔ ∃ l, l < k ∧ (tList l).load = load := by
  simp [listed, mem_live_iff]

theorem demand_listed_succ (k x : ℕ) :
    demand (listed tList (k + 1)) x =
      demand (listed tList k) x + (x ⌈/⌉ (tList k).T) * (tList k).C := by
  simp [listed, live_succ, SysclockEntry.load]

end Listed

/-! ## The demand sum -/

/-- `c_sum` is the demand of the entries, as long as the word type is exact up to
the length of the window and up to the demand. -/
theorem cSum_eq {word : ℕ → ℕ} {tList : ℕ → SysclockEntry} {tSum k : ℕ}
    (periods : ∀ l, l < k → 1 ≤ (tList l).T)
    (exactly : ∀ n, n ≤ tSum ∨ n ≤ demand (listed tList k) tSum → word n = n) :
    cSum word tList tSum k = .ok (demand (listed tList k) tSum) := by
  induction k with
  | zero => rfl
  | succ k ih =>
      rw [demand_listed_succ] at exactly ⊢
      have positive := periods k (Nat.lt_succ_self k)
      have before := ih (fun l lt => periods l (lt.trans (Nat.lt_succ_self k)))
        fun n within => exactly n (within.imp_right fun le => le.trans (Nat.le_add_right _ _))
      have count := ceilDiv_eq_div_add tSum (tList k).T positive
      have countLe := ceilDiv_le_self tSum (tList k).T positive
      have whole := exactly _ (.inr le_rfl)
      rw [cSum, before, ok_bind, if_neg (by omega)]
      by_cases exact : tSum % (tList k).T = 0
      · rw [if_pos exact, Nat.add_zero] at count
        rw [if_neg (not_not.mpr exact), ← count,
          exactly (_ * _) (.inr (Nat.le_add_left _ _)), whole]
      · rw [if_neg exact] at count
        rw [if_pos exact, ← count, exactly (tSum ⌈/⌉ _) (.inl countLe),
          exactly (_ * _) (.inr (Nat.le_add_left _ _)), whole]

/-! ## The scheduling points of one task -/

section Points

variable (word : ℕ → ℕ) (tList : ℕ → SysclockEntry)

/-- The windows that the loop over the multiples of one period looks at, each with
its demand sum. -/
def searchPoints (i j : ℕ) : (rounds n : ℕ) → Except Fault (List (ℕ × ℕ))
  | 0, _ => .error .divergence
  | rounds + 1, n =>
      let tSum := word (n * (tList j).T)
      if tSum ≤ (tList i).T then do
        let sum ← cSum word tList tSum (i + 1)
        if tSum = 0 then
          .error .divisionByZero
        else do
          let rest ← searchPoints i j rounds (n + 1)
          .ok ((tSum, sum) :: rest)
      else
        .ok []

/-- The windows that the search for task `i` looks at, for the periods of the first
`k` tasks. -/
def searched (i : ℕ) : ℕ → Except Fault (List (ℕ × ℕ))
  | 0 => .ok []
  | j + 1 => do
      let before ← searched i j
      let points ← searchPoints word tList i j loopRounds 1
      .ok (before ++ points)

/-- The scale at a window replaces a greater one. -/
def lowerScale (scale : ℕ) (point : ℕ × ℕ) : ℕ :=
  if word (scaleFactor * point.2) / point.1 < scale then word (scaleFactor * point.2) / point.1
  else scale

private theorem pointLoop_eq (i j rounds n scale : ℕ) :
    pointLoop word tList i j rounds n scale = (do
      let points ← searchPoints word tList i j rounds n
      .ok (points.foldl (lowerScale word) scale)) := by
  induction rounds generalizing n scale with
  | zero => rfl
  | succ rounds ih =>
      rw [pointLoop, searchPoints]
      dsimp only
      split
      · cases cSum word tList (word (n * (tList j).T)) (i + 1) with
        | error fault => rfl
        | ok sum =>
            rw [ok_bind, ok_bind]
            split
            · rfl
            · rw [ih]
              cases searchPoints word tList i j rounds (n + 1) with
              | error fault => rfl
              | ok rest => rfl
      · rfl

/-- `tmp_scale` is the least of the scales at the windows that are searched. -/
theorem tmpScale_eq (i k : ℕ) :
    tmpScale word tList i k = (do
      let points ← searched word tList i k
      .ok (points.foldl (lowerScale word) scaleFactor)) := by
  induction k with
  | zero => rfl
  | succ j ih =>
      rw [tmpScale, searched, ih]
      cases searched word tList i j with
      | error fault => rfl
      | ok before =>
          rw [ok_bind, ok_bind, ok_bind, pointLoop_eq]
          cases searchPoints word tList i j loopRounds 1 with
          | error fault => rfl
          | ok points => exact congrArg Except.ok List.foldl_append.symm

variable {word}

private theorem le_foldl_lowerScale {m scale : ℕ} {points : List (ℕ × ℕ)} :
    m ≤ points.foldl (lowerScale word) scale ↔
      m ≤ scale ∧ ∀ point ∈ points, m ≤ word (scaleFactor * point.2) / point.1 := by
  induction points generalizing scale with
  | nil => simp
  | cons point points ih =>
      have lower : m ≤ lowerScale word scale point ↔
          m ≤ scale ∧ m ≤ word (scaleFactor * point.2) / point.1 := by
        unfold lowerScale
        split_ifs <;> omega
      rw [List.foldl_cons, ih, lower, List.forall_mem_cons, and_assoc]

end Points

/-- Everything the search for task `i` adds up fits an `unsigned long`. -/
structure FitsSum (tList : ℕ → SysclockEntry) (i : ℕ) : Prop where
  periods : ∀ l, l ≤ i → 1 ≤ (tList l).T
  words : ∀ l, l ≤ i → (tList l).T < 2147483648
  sums : ∀ x, 1 ≤ x → x ≤ (tList i).T → demand (listed tList (i + 1)) x < 4294967296

/-- Everything the search for task `i` computes fits an `unsigned long`. -/
structure FitsWord (tList : ℕ → SysclockEntry) (i : ℕ) : Prop where
  periods : ∀ l, l ≤ i → 1 ≤ (tList l).T
  words : ∀ l, l ≤ i → (tList l).T < 2147483648
  scaled : ∀ x, 1 ≤ x → x ≤ (tList i).T →
    scaleFactor * demand (listed tList (i + 1)) x < 4294967296

section Task

variable {word : ℕ → ℕ} {tList : ℕ → SysclockEntry} {i : ℕ}

private theorem FitsWord.fitsSum (fits : FitsWord tList i) : FitsSum tList i where
  periods := fits.periods
  words := fits.words
  sums := fun x positive within => by
    have scaled := fits.scaled x positive within
    unfold scaleFactor at scaled
    omega

theorem FitsSum.cSum_eq (exactly : ExactOnWords word) (fits : FitsSum tList i) {x : ℕ}
    (positive : 1 ≤ x) (within : x ≤ (tList i).T) :
    cSum word tList x (i + 1) = .ok (demand (listed tList (i + 1)) x) := by
  have deadline := fits.words i le_rfl
  have sum := fits.sums x positive within
  refine Sysclock.cSum_eq (fun l lt => fits.periods l (Nat.le_of_lt_succ lt)) ?_
  intro n bound
  apply exactly
  omega

/-- The loop over the multiples of one period ends, and looks at the multiples from
`n` on that are within the period of task `i`. -/
theorem searchPoints_spec (exactly : ExactOnWords word) (fits : FitsSum tList i) {j : ℕ}
    (jLe : j ≤ i) {rounds n : ℕ} (positive : 1 ≤ n)
    (next : n * (tList j).T ≤ (tList i).T + (tList j).T)
    (some : 0 < rounds) (enough : (tList i).T + 2 ≤ rounds + n) :
    ∃ points, searchPoints word tList i j rounds n = .ok points ∧
      ∀ point, point ∈ points ↔ ∃ n', n ≤ n' ∧ n' * (tList j).T ≤ (tList i).T ∧
        point = (n' * (tList j).T, demand (listed tList (i + 1)) (n' * (tList j).T)) := by
  have periodPos := fits.periods j jLe
  have periodWord := fits.words j jLe
  have deadline := fits.words i le_rfl
  induction rounds generalizing n with
  | zero => omega
  | succ rounds ih =>
      have product : word (n * (tList j).T) = n * (tList j).T := exactly _ (by omega)
      rw [searchPoints]
      simp only [product]
      by_cases within : n * (tList j).T ≤ (tList i).T
      · have pointPos : 1 ≤ n * (tList j).T := Nat.mul_pos positive periodPos
        have roundsLe : n ≤ n * (tList j).T := Nat.le_mul_of_pos_right n periodPos
        obtain ⟨rest, returns, members⟩ := ih (n := n + 1) (by omega)
          (by rw [Nat.add_one_mul]; omega) (by omega) (by omega)
        rw [if_pos within, fits.cSum_eq exactly pointPos within, ok_bind, if_neg (by omega),
          returns, ok_bind]
        refine ⟨_, rfl, fun point => ?_⟩
        rw [List.mem_cons, members]
        constructor
        · rintro (rfl | ⟨n', le, more⟩)
          · exact ⟨n, le_rfl, within, rfl⟩
          · exact ⟨n', by omega, more⟩
        · rintro ⟨n', le, inside, rfl⟩
          rcases Nat.eq_or_lt_of_le le with rfl | more
          · exact .inl rfl
          · exact .inr ⟨n', more, inside, rfl⟩
      · rw [if_neg within]
        refine ⟨[], rfl, fun point => ⟨fun member => absurd member List.not_mem_nil, ?_⟩⟩
        rintro ⟨n', le, inside, _⟩
        have more := Nat.mul_le_mul_right (tList j).T le
        omega

/-- The search for task `i` looks at the multiples of the first `k` periods that are
within its own. -/
theorem searched_spec (exactly : ExactOnWords word) (fits : FitsSum tList i) {k : ℕ}
    (le : k ≤ i + 1) :
    ∃ points, searched word tList i k = .ok points ∧
      ∀ point, point ∈ points ↔ ∃ j, j < k ∧ ∃ n, 1 ≤ n ∧ n * (tList j).T ≤ (tList i).T ∧
        point = (n * (tList j).T, demand (listed tList (i + 1)) (n * (tList j).T)) := by
  induction k with
  | zero => exact ⟨[], rfl, fun point => by simp⟩
  | succ j ih =>
      obtain ⟨before, returns, earlier⟩ := ih (by omega)
      have deadline := fits.words i le_rfl
      have enough : (tList i).T + 2 ≤ loopRounds + 1 := by
        unfold loopRounds
        omega
      obtain ⟨points, returns', last⟩ := searchPoints_spec exactly fits
        (Nat.le_of_succ_le_succ le) le_rfl (by omega) (by decide) enough
      refine ⟨before ++ points, by rw [searched, returns, ok_bind, returns', ok_bind], ?_⟩
      intro point
      rw [List.mem_append, earlier, last]
      constructor
      · rintro (⟨j', lt, found⟩ | found)
        · exact ⟨j', by omega, found⟩
        · exact ⟨j, Nat.lt_succ_self j, found⟩
      · rintro ⟨j', lt, found⟩
        rcases Nat.eq_or_lt_of_le (Nat.le_of_lt_succ lt) with rfl | less
        · exact .inr found
        · exact .inl ⟨j', less, found⟩

/-- `tmp_scale` after the periods of the first `k` tasks. -/
theorem tmpScale_spec (exactly : ExactOnWords word) (fits : FitsWord tList i) {k : ℕ}
    (le : k ≤ i + 1) :
    ∃ result, tmpScale word tList i k = .ok result ∧
      ∀ m, m ≤ result ↔ m ≤ scaleFactor ∧ ∀ j, j < k → ∀ n, 1 ≤ n →
        n * (tList j).T ≤ (tList i).T →
        m * (n * (tList j).T) ≤ scaleFactor * demand (listed tList (i + 1)) (n * (tList j).T) := by
  obtain ⟨points, returns, members⟩ := searched_spec exactly fits.fitsSum le
  refine ⟨points.foldl (lowerScale word) scaleFactor, by rw [tmpScale_eq, returns, ok_bind], ?_⟩
  intro m
  -- At each of the windows, the scale is the exact quotient.
  have here : ∀ j, j < k → ∀ n, 1 ≤ n → n * (tList j).T ≤ (tList i).T →
      (m ≤ word (scaleFactor * demand (listed tList (i + 1)) (n * (tList j).T)) /
          (n * (tList j).T) ↔
        m * (n * (tList j).T) ≤
          scaleFactor * demand (listed tList (i + 1)) (n * (tList j).T)) := by
    intro j lt n positive within
    have pointPos : 1 ≤ n * (tList j).T := Nat.mul_pos positive (fits.periods j (by omega))
    rw [exactly _ (fits.scaled _ pointPos within), Nat.le_div_iff_mul_le pointPos]
  rw [le_foldl_lowerScale]
  refine and_congr Iff.rfl ⟨?_, ?_⟩
  · intro all j lt n positive within
    have point := all _ ((members _).mpr ⟨j, lt, n, positive, within, rfl⟩)
    exact (here j lt n positive within).mp point
  · intro all point member
    obtain ⟨j, lt, n, positive, within, rfl⟩ := (members point).mp member
    exact (here j lt n positive within).mpr (all j lt n positive within)

/-- The scale of a task is below the ratio of demand to length of every window
up to its period: the scheduling points decide all of them. -/
theorem tmpScale_windows (exactly : ExactOnWords word) (fits : FitsWord tList i) :
    ∃ result, tmpScale word tList i (i + 1) = .ok result ∧
      ∀ m, m ≤ result ↔ m ≤ scaleFactor ∧ ∀ x, 1 ≤ x → x ≤ (tList i).T →
        m * x ≤ scaleFactor * demand (listed tList (i + 1)) x := by
  obtain ⟨result, returns, least⟩ := tmpScale_spec exactly fits le_rfl
  refine ⟨result, returns, ?_⟩
  intro m
  have listedPos : ∀ other ∈ listed tList (i + 1), 0 < other.period := by
    intro other member
    obtain ⟨l, lt, rfl⟩ := mem_listed_iff.mp member
    exact fits.periods l (Nat.le_of_lt_succ lt)
  have member : (tList i).load ∈ listed tList (i + 1) :=
    mem_listed_iff.mpr ⟨i, Nat.lt_succ_self i, rfl⟩
  rw [least m]
  refine and_congr Iff.rfl (Iff.trans ?_
    (forall_window_iff_forall_schedulingPoint member listedPos m scaleFactor).symm)
  constructor
  · intro points k kMem
    obtain ⟨l, lt, rfl⟩ := mem_listed_iff.mp kMem
    exact points l lt
  · intro points l lt
    exact points _ (mem_listed_iff.mpr ⟨l, lt, rfl⟩)

end Task

/-! ## The greatest scale of a CPU -/

/-- `max_scale` after the first `k` tasks of a CPU. -/
theorem maxScale_spec {word : ℕ → ℕ} (exactly : ExactOnWords word) {tList : ℕ → SysclockEntry}
    (before : ℕ) {k : ℕ} (fits : ∀ i, i < k → FitsWord tList i) :
    ∃ result, maxScale word tList before k = .ok result ∧
      ∀ m, m ≤ result ↔ m ≤ before ∨ ∃ i, i < k ∧ m ≤ scaleFactor ∧
        ∀ x, 1 ≤ x → x ≤ (tList i).T →
          m * x ≤ scaleFactor * demand (listed tList (i + 1)) x := by
  induction k with
  | zero =>
      refine ⟨before, rfl, ?_⟩
      intro m
      simp
  | succ i ih =>
      obtain ⟨scale, returns, greatest⟩ := ih fun l lt => fits l (by omega)
      obtain ⟨new, returns', least⟩ := tmpScale_windows exactly (fits i (Nat.lt_succ_self i))
      refine ⟨if scale < new then new else scale, ?_, ?_⟩
      · rw [maxScale, returns, ok_bind, returns', ok_bind]
      intro m
      have larger : m ≤ (if scale < new then new else scale) ↔ m ≤ scale ∨ m ≤ new := by
        split_ifs <;> omega
      rw [larger, greatest, least, or_assoc]
      refine or_congr Iff.rfl ⟨?_, ?_⟩
      · rintro (⟨l, lt, needed⟩ | needed)
        · exact ⟨l, by omega, needed⟩
        · exact ⟨i, Nat.lt_succ_self i, needed⟩
      · rintro ⟨l, lt, needed⟩
        rcases Nat.eq_or_lt_of_le (Nat.le_of_lt_succ lt) with rfl | less
        · exact Or.inr needed
        · exact Or.inl ⟨l, less, needed⟩

/-! ## Agreement with the response-time test -/

section Agreement

variable {tList : ℕ → SysclockEntry} {j : ℕ}

/-- The search for task `j` comes to a multiple of a period that is long enough
for the demand up to it. -/
def FindsPoint (tList : ℕ → SysclockEntry) (j : ℕ) : Prop :=
  ∃ k, k ≤ j ∧ ∃ n, 1 ≤ n ∧ n * (tList k).T ≤ (tList j).T ∧
    ∃ sum, cSum uint32 tList (n * (tList k).T) (j + 1) = .ok sum ∧ sum ≤ n * (tList k).T

private theorem demand_listed_perm (x : ℕ) :
    demand ((tList j).load :: listed tList j) x = demand (listed tList (j + 1)) x := by
  rw [demand_cons, demand_listed_succ, Nat.add_comm]
  rfl

private theorem findsPoint_iff_meets (periods : ∀ l, l ≤ j → 1 ≤ (tList l).T)
    (deadline : (tList j).T < 2147483648)
    (fits : demand (listed tList (j + 1)) (tList j).T < 2147483648) :
    FindsPoint tList j ↔ Meets (listed tList j) (tList j).load := by
  have listedPos : ∀ other ∈ listed tList (j + 1), 0 < other.period := by
    intro other member
    obtain ⟨l, lt, rfl⟩ := mem_listed_iff.mp member
    exact periods l (Nat.le_of_lt_succ lt)
  have member : (tList j).load ∈ listed tList (j + 1) :=
    mem_listed_iff.mpr ⟨j, Nat.lt_succ_self j, rfl⟩
  have sumEq : ∀ x, x ≤ (tList j).T →
      cSum uint32 tList x (j + 1) = .ok (demand (listed tList (j + 1)) x) := by
    intro x within
    have less := demand_mono (listed tList (j + 1)) within
    exact cSum_eq (fun l lt => periods l (Nat.le_of_lt_succ lt))
      fun n bound => uint32_eq_self (by omega)
  rw [meets_iff_demand_cons]
  simp only [demand_listed_perm]
  rw [exists_window_iff_exists_schedulingPoint member listedPos]
  constructor
  · rintro ⟨k, le, n, positive, within, sum, sums, enough⟩
    rw [sumEq _ within] at sums
    cases sums
    exact ⟨(tList k).load, mem_listed_iff.mpr ⟨k, by omega, rfl⟩, n, positive, within, enough⟩
  · rintro ⟨_, kMem, n, positive, within, enough⟩
    obtain ⟨k, lt, rfl⟩ := mem_listed_iff.mp kMem
    exact ⟨k, by omega, n, positive, within, _, sumEq _ within, enough⟩

/-- The points that are found are windows that the search looks at. -/
theorem findsPoint_iff_searched (fits : FitsSum tList j) :
    ∃ points, searched uint32 tList j (j + 1) = .ok points ∧
      (FindsPoint tList j ↔ ∃ point ∈ points, point.2 ≤ point.1) := by
  obtain ⟨points, returns, members⟩ := searched_spec exactOnWords_uint32 fits le_rfl
  refine ⟨points, returns, ?_⟩
  have sumEq : ∀ k, k ≤ j → ∀ n, 1 ≤ n → n * (tList k).T ≤ (tList j).T →
      cSum uint32 tList (n * (tList k).T) (j + 1) =
        .ok (demand (listed tList (j + 1)) (n * (tList k).T)) := by
    intro k le n positive within
    exact fits.cSum_eq exactOnWords_uint32 (Nat.mul_pos positive (fits.periods k le)) within
  constructor
  · rintro ⟨k, le, n, positive, within, sum, sums, enough⟩
    rw [sumEq k le n positive within] at sums
    cases sums
    exact ⟨_, (members _).mpr ⟨k, by omega, n, positive, within, rfl⟩, enough⟩
  · rintro ⟨point, member, enough⟩
    obtain ⟨k, lt, n, positive, within, rfl⟩ := (members point).mp member
    exact ⟨k, by omega, n, positive, within, _, sumEq k (by omega) n positive within, enough⟩

/-- The two schedulability tests agree: the response-time iteration of
`try_bind` accepts task `j` exactly when the search of `sysclock_compute` finds
a scheduling point.  In order of the periods, the point is one of the windows that the
search looks at. -/
theorem responseTime_le_iff_findsPoint (budgets : ∀ l, l ≤ j → 1 ≤ (tList l).C)
    (periods : ∀ l, l ≤ j → 1 ≤ (tList l).T) (deadline : (tList j).T < 2147483648)
    (fits : demand (listed tList (j + 1)) (tList j).T < 2147483648) :
    ∃ currBudget, responseTime (fun k => (tList k).C) (fun k => (tList k).T) j = .ok currBudget ∧
      (currBudget ≤ (tList j).T ↔ FindsPoint tList j) ∧
      ((∀ l, l ≤ j → (tList l).T ≤ (tList j).T) →
        ∃ points, searched uint32 tList j (j + 1) = .ok points ∧
          (FindsPoint tList j ↔ ∃ point ∈ points, point.2 ≤ point.1)) := by
  have lt : j < (listed tList (j + 1)).length := by simp
  have before : (listed tList (j + 1)).take j = listed tList j := take_listed (Nat.le_succ j)
  have here : (listed tList (j + 1))[j] = (tList j).load := getElem_listed lt
  have agrees : Agrees (fun k => (tList k).C) (fun k => (tList k).T) (listed tList (j + 1)) := by
    constructor
    · intro k kLt
      rw [getElem_listed]
      rfl
    · intro k kLt
      rw [getElem_listed]
      rfl
  have fitsInt : FitsInt (listed tList (j + 1)) j lt := by
    constructor
    · intro load member
      obtain ⟨l, lLt, rfl⟩ := mem_listed_iff.mp member
      exact periods l (Nat.le_of_lt_succ lLt)
    · rw [here]
      exact deadline
    · have once := ceilDiv_eq_one (periods j le_rfl) (le_refl (tList j).T)
      rw [demand_listed_succ, once, Nat.one_mul] at fits
      rw [here, before, Nat.add_comm]
      exact fits
  obtain ⟨result, returns, accepts⟩ := responseTime_accepts_iff agrees fitsInt (by
    rw [here]
    exact budgets j le_rfl)
  refine ⟨result, returns, accepts.trans ?_, ?_⟩
  · rw [before, here]
    exact (findsPoint_iff_meets periods deadline fits).symm
  · intro sorted
    refine findsPoint_iff_searched ⟨periods, fun l le => (sorted l le).trans_lt deadline, ?_⟩
    intro x _ within
    exact (demand_mono _ within).trans_lt (fits.trans (by decide))

/-- Tasks of 1 in 4 and 2 in 6 milliseconds: the windows of 4 and of 6 milliseconds are
looked at. -/
theorem responseTime_le_iff_findsPoint_pair :
    ∃ currBudget, responseTime (fun k => (([⟨1, 4⟩, ⟨2, 6⟩] : List SysclockEntry).getD k ⟨1, 1⟩).C)
        (fun k => (([⟨1, 4⟩, ⟨2, 6⟩] : List SysclockEntry).getD k ⟨1, 1⟩).T) 1 = .ok currBudget ∧
      (currBudget ≤ 6 ↔
        FindsPoint (fun k => ([⟨1, 4⟩, ⟨2, 6⟩] : List SysclockEntry).getD k ⟨1, 1⟩) 1) ∧
      ∃ points, searched uint32
          (fun k => ([⟨1, 4⟩, ⟨2, 6⟩] : List SysclockEntry).getD k ⟨1, 1⟩) 1 2 = .ok points ∧
        (FindsPoint (fun k => ([⟨1, 4⟩, ⟨2, 6⟩] : List SysclockEntry).getD k ⟨1, 1⟩) 1 ↔
          ∃ point ∈ points, point.2 ≤ point.1) := by
  obtain ⟨currBudget, returns, accepts, search⟩ := @responseTime_le_iff_findsPoint
    (fun k => ([⟨1, 4⟩, ⟨2, 6⟩] : List SysclockEntry).getD k ⟨1, 1⟩) 1 (by decide) (by decide)
    (by decide) (by decide)
  exact ⟨currBudget, returns, accepts, search (by decide)⟩

end Agreement

end Rtes.Sysclock
