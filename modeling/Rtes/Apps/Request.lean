import Rtes.Reservation.Conversion
import Rtes.Text.Scan

/-!
# Programs that ask for a reservation

The command `reserve`, the application on the device and the periodic programs take
times in milliseconds, check them a little and pass them to the system calls as
timespecs.  They differ in the CPUs they let through, in whether they limit the
times, and in the budget they ask for.
-/

namespace Rtes.Apps

open Rtes.Reservation Rtes.Text Rtes.Transition Rtes.Word

variable {s s' : Kernel} {srv : Services} {tid c t cpu : ℤ}

/-! ## Requests -/

/-- The timespec the programs make of milliseconds. -/
def timespecOf (millis : ℤ) : Timespec :=
  ⟨millis.tdiv 1000, millis.tmod 1000 * 1000000⟩

/-- `set_reserve` for a tid as the programs pass it.  There is no task with a
negative tid. -/
def callSetReserve (srv : Services) (s : Kernel) (tid : ℤ) (C T : Timespec) (cpuid : ℤ) :
    Except Fault (ℤ × Kernel) :=
  if tid < 0 then
    .ok (if cpuid < -1 ∨ 3 < cpuid then EINVAL else ESRCH, s)
  else
    s.setReserve srv tid.toNat (some C) (some T) cpuid

/-- `cancel_reserve` for a tid as the programs pass it. -/
def callCancelReserve (srv : Services) (s : Kernel) (tid : ℤ) : Except Fault (ℤ × Kernel) :=
  if tid < 0 then .ok (ESRCH, s) else s.cancelReserve srv tid.toNat

/-- What the programs have in common: the times are compared with each other and
with a limit if there is one, and the CPU with the range `lowest .. highest`. -/
def request (limit : Option ℤ) (lowest highest : ℤ) (srv : Services) (s : Kernel)
    (tid c t budget cpu : ℤ) : Except Fault (ℤ × Kernel) :=
  if t < c then
    .ok (-1, s)
  else if limit.any fun limit => limit < c ∨ limit < t then
    .ok (-1, s)
  else if cpu < lowest ∨ highest < cpu then
    .ok (-1, s)
  else
    callSetReserve srv s tid (timespecOf budget) (timespecOf t) cpu

/-- `setReserve` of the application on the device. -/
def jniSetReserve (srv : Services) (s : Kernel) (tid c t cpuID : ℤ) : Except Fault (ℤ × Kernel) :=
  request none 0 3 srv s tid c t c cpuID

/-- The request of `easyperiodic` for itself. -/
def easyperiodic (srv : Services) (s : Kernel) (tid c t cpu : ℤ) : Except Fault (ℤ × Kernel) :=
  request (some 60000) 0 10 srv s tid c t c cpu

/-- The request of `almostperiodic` for itself: all of its period. -/
def almostperiodic (srv : Services) (s : Kernel) (tid c t cpu : ℤ) : Except Fault (ℤ × Kernel) :=
  request (some 60000) 0 10 srv s tid c t t cpu

/-- The command `reserve`: what `main` returns.  Arguments of the right number that
begin with another word do nothing. -/
def reserveMain (srv : Services) (s : Kernel) : List (List Char) → Except Fault (ℤ × Kernel)
  | [_, verb, tid, c, t, cpu] =>
      if verb = ['s', 'e', 't'] then
        request none (-1) 3 srv s (atoi tid) (atoi c) (atoi t) (atoi c) (atoi cpu)
      else
        .ok (0, s)
  | [_, verb, tid] =>
      if verb = ['c', 'a', 'n', 'c', 'e', 'l'] then
        callCancelReserve srv s (atoi tid)
      else
        .ok (0, s)
  | _ => .ok (-1, s)

/-! ## Times -/

theorem nanos_timespecOf (millis : ℤ) : (timespecOf millis).nanos = millis * 1000000 := by
  have whole := Int.tmod_add_mul_tdiv millis 1000
  unfold timespecOf Timespec.nanos nsPerS
  dsimp only
  linarith

theorem roundsDown_timespecOf (millis : ℤ) : (timespecOf millis).RoundsDown :=
  .inr (Dvd.intro_left _ rfl)

theorem wholeMillis_timespecOf (millis : ℤ) : (timespecOf millis).wholeMillis = millis := by
  rw [Timespec.wholeMillis, nanos_timespecOf, Int.mul_ediv_cancel _ (by decide)]

/-- The kernel gets the milliseconds back. -/
theorem millis_timespecOf {millis : ℤ} (isInt : IsInt millis) :
    (timespecOf millis).millis = millis := by
  have exact : (timespecOf millis).millis = (timespecOf millis).wholeMillis := by
    rw [Timespec.millis_eq_wholeMillis_iff, wholeMillis_timespecOf]
    exact ⟨roundsDown_timespecOf millis, isInt⟩
  rw [exact, wholeMillis_timespecOf]

/-! ## What a request leads to -/

/-- A reservation with the times of a request. -/
structure Requested (reserve : Reserve) (c t : ℤ) : Prop where
  flag : reserve.flag = true
  budget : reserve.budget = c
  period : reserve.period = t
  C : reserve.C.nanos = c * 1000000
  T : reserve.T.nanos = t * 1000000

private theorem setReserve_requested {task : Tid} {budget : ℤ} (isBudget : IsInt budget)
    (isPeriod : IsInt t)
    (returns : s.setReserve srv task (some (timespecOf budget)) (some (timespecOf t)) cpu =
      .ok (0, s')) : Requested (s'.reserve task) budget t ∧ t ≠ 0 := by
  obtain ⟨own, result, changes⟩ := setReserve_changes returns
  rw [changes.reserve_eq, Function.update_self]
  cases result with
  | refused nonzero _ => exact absurd rfl nonzero
  | undone nonzero _ => exact absurd rfl nonzero
  | failed nonzero _ _ _ _ => exact absurd rfl nonzero
  | installed isC isT converts =>
      cases isC
      cases isT
      rw [paramsOf, millis_timespecOf isPeriod, millis_timespecOf isBudget] at converts
      split at converts
      · cases converts
      · rename_i nonzero
        cases converts
        exact ⟨⟨rfl, rfl, rfl, nanos_timespecOf _, nanos_timespecOf _⟩, nonzero⟩

/-- A period of zero milliseconds is divided by, if there is a task. -/
theorem setReserve_zero {task : Tid} {C : Timespec} (found : s.found task = true)
    (inside : -1 ≤ cpu ∧ cpu ≤ 3) :
    s.setReserve srv task (some C) (some (timespecOf 0)) cpu = .error .divisionByZero := by
  have range : ¬ (cpu < -1 ∨ 3 < cpu) := by omega
  rw [Kernel.setReserve, if_neg range, found]
  rfl

private theorem callSetReserve_natCast (srv : Services) (s : Kernel) (task : Tid) (C T : Timespec)
    (cpu : ℤ) :
    callSetReserve srv s task C T cpu = s.setReserve srv task (some C) (some T) cpu := by
  rw [callSetReserve, if_neg (Int.natCast_nonneg task).not_gt, Int.toNat_natCast]

/-- A request for a negative tid does not succeed. -/
theorem request_tid {limit : Option ℤ} {lowest highest budget : ℤ}
    (returns : request limit lowest highest srv s tid c t budget cpu = .ok (0, s')) : 0 ≤ tid := by
  by_contra negative
  rw [not_le] at negative
  unfold request callSetReserve at returns
  rw [if_pos negative] at returns
  split_ifs at returns
  all_goals cases returns

/-- A request that succeeds passed the checks of its program and reached the kernel. -/
theorem request_zero {limit : Option ℤ} {lowest highest budget : ℤ} {task : Tid}
    (returns : request limit lowest highest srv s task c t budget cpu = .ok (0, s')) :
    c ≤ t ∧ (∀ bound ∈ limit, c ≤ bound ∧ t ≤ bound) ∧
      s.setReserve srv task (some (timespecOf budget)) (some (timespecOf t)) cpu = .ok (0, s') := by
  unfold request at returns
  split_ifs at returns with more limited outside
  · cases returns
  · cases returns
  · cases returns
  · rw [callSetReserve_natCast] at returns
    refine ⟨not_lt.mp more, ?_, returns⟩
    rintro bound ⟨⟩
    simpa using limited

/-- What `reserve set` does with the numbers that `atoi` reads in its arguments: it
turns some down itself and then leaves the kernel alone; a period of zero for a task
that exists makes the kernel divide by zero; and if it returns zero, the reservation
of the task has exactly the times that were read. -/
theorem reserveMain_set (srv : Services) (s : Kernel) (program tid c t cpu : List Char) :
    (atoi t < atoi c ∨ atoi cpu < -1 ∨ 3 < atoi cpu →
      reserveMain srv s [program, ['s', 'e', 't'], tid, c, t, cpu] = .ok (-1, s)) ∧
    (∀ task : Tid, atoi tid = task → s.found task = true → atoi c ≤ 0 → atoi t = 0 →
      -1 ≤ atoi cpu ∧ atoi cpu ≤ 3 →
      reserveMain srv s [program, ['s', 'e', 't'], tid, c, t, cpu] = .error .divisionByZero) ∧
    ∀ s', reserveMain srv s [program, ['s', 'e', 't'], tid, c, t, cpu] = .ok (0, s') →
      ∃ task : Tid, atoi tid = task ∧ Requested (s'.reserve task) (atoi c) (atoi t) ∧
        atoi c ≤ atoi t ∧ atoi t ≠ 0 := by
  rw [reserveMain, if_pos rfl]
  refine ⟨?_, ?_, ?_⟩
  · intro turned
    unfold request
    split_ifs with more limited
    · rfl
    · rfl
    · rfl
    · omega
  · intro task isTask found least zero inside
    rw [request, if_neg (by omega), Option.any_none, if_neg Bool.false_ne_true, if_neg (by omega),
      isTask, zero, callSetReserve_natCast]
    exact setReserve_zero found inside
  · intro s' returns
    obtain ⟨task, isTask⟩ := Int.eq_ofNat_of_zero_le (request_tid returns)
    rw [isTask] at returns
    obtain ⟨most, _, sets⟩ := request_zero returns
    obtain ⟨requested, nonzero⟩ := setReserve_requested (isInt_atoi c) (isInt_atoi t) sets
    exact ⟨task, isTask, requested, most, nonzero⟩

/-- Five of ten milliseconds on CPU 0 for task 1, with a unit that is not read. -/
theorem reserveMain_set_five : ∃ s',
    reserveMain .succeed Kernel.bare ["reserve".toList, "set".toList, "1".toList, "5ms".toList,
      "10ms".toList, "0".toList] = .ok (0, s') ∧ Requested (s'.reserve 1) 5 10 := by
  have returns : ∃ s', reserveMain .succeed Kernel.bare ["reserve".toList, "set".toList,
      "1".toList, "5ms".toList, "10ms".toList, "0".toList] = .ok (0, s') := ⟨_, rfl⟩
  obtain ⟨s', returns⟩ := returns
  obtain ⟨task, isTask, set, _⟩ := (reserveMain_set .succeed Kernel.bare "reserve".toList
    "1".toList "5ms".toList "10ms".toList "0".toList).2.2 s' returns
  have one : atoi "1".toList = 1 := by decide
  have same : task = 1 := Int.ofNat_inj.mp (isTask.symm.trans one)
  subst same
  have five : atoi "5ms".toList = 5 := by decide
  have ten : atoi "10ms".toList = 10 := by decide
  rw [five, ten] at set
  exact ⟨s', returns, set⟩

/-! ## Exactness -/

/-- Times that are compared as the programs do are converted exactly unless they are
negative or ten thousand budgets do not fit a word. -/
theorem convertible_timespecOf_iff (isPeriod : IsInt t) (most : c ≤ t) :
    Convertible (timespecOf c) (timespecOf t) ↔ 0 ≤ c ∧ 0 < t ∧ c ≤ 214748 := by
  constructor
  · rintro ⟨_, _, nonneg, positive, _, scaled, _⟩
    rw [nanos_timespecOf] at nonneg positive
    rw [wholeMillis_timespecOf, utilMultiple] at scaled
    omega
  · rintro ⟨nonneg, positive, small⟩
    refine ⟨roundsDown_timespecOf c, roundsDown_timespecOf t, ?_, ?_, ?_, ?_, ?_⟩
    · rw [nanos_timespecOf]
      omega
    · rw [nanos_timespecOf]
      omega
    · rw [wholeMillis_timespecOf]
      exact isPeriod.2
    · rw [wholeMillis_timespecOf, utilMultiple]
      omega
    · rw [wholeMillis_timespecOf, wholeMillis_timespecOf, utilMultiple]
      omega

/-- The limit that the periodic programs set keeps what the kernel stores for them
exact.  The application sets none, and what is stored for it is exact up to a budget of
214748 milliseconds and not beyond. -/
theorem programs_exact {tid : Tid} (isPeriod : IsInt t) :
    (∀ s', jniSetReserve srv s tid c t cpu = .ok (0, s') →
      (ExactParams (timespecOf c) (timespecOf t) (s'.reserve tid).params ↔
        0 ≤ c ∧ 0 < t ∧ c ≤ 214748)) ∧
    (∀ s', easyperiodic srv s tid c t cpu = .ok (0, s') → 0 ≤ c → 0 < t →
      ExactParams (timespecOf c) (timespecOf t) (s'.reserve tid).params) ∧
    ∀ s', almostperiodic srv s tid c t cpu = .ok (0, s') → 0 < t →
      ExactParams (timespecOf t) (timespecOf t) (s'.reserve tid).params ∧
        (s'.reserve tid).util = utilMultiple := by
  refine ⟨?_, ?_, ?_⟩
  · intro s' returns
    obtain ⟨most, _, sets⟩ := request_zero returns
    rw [exactParams_iff (setReserve_params sets), convertible_timespecOf_iff isPeriod most]
  · intro s' returns nonneg positive
    obtain ⟨most, limited, sets⟩ := request_zero returns
    have small := (limited 60000 rfl).1
    rw [exactParams_iff (setReserve_params sets), convertible_timespecOf_iff isPeriod most]
    omega
  · intro s' returns positive
    obtain ⟨_, limited, sets⟩ := request_zero returns
    have small := (limited 60000 rfl).2
    have exact : ExactParams (timespecOf t) (timespecOf t) (s'.reserve tid).params := by
      rw [exactParams_iff (setReserve_params sets), convertible_timespecOf_iff isPeriod le_rfl]
      omega
    refine ⟨exact, ?_⟩
    have util := exact.util
    rw [wholeMillis_timespecOf, Int.mul_ediv_cancel _ positive.ne'] at util
    exact util

/-- For task 1 on CPU 0, five of ten milliseconds from the application and from
`easyperiodic`, and all ten from `almostperiodic`. -/
theorem programs_exact_ten :
    (∃ s', jniSetReserve .succeed Kernel.bare 1 5 10 0 = .ok (0, s') ∧
      ExactParams (timespecOf 5) (timespecOf 10) (s'.reserve 1).params) ∧
    (∃ s', easyperiodic .succeed Kernel.bare 1 5 10 0 = .ok (0, s') ∧
      ExactParams (timespecOf 5) (timespecOf 10) (s'.reserve 1).params) ∧
    ∃ s', almostperiodic .succeed Kernel.bare 1 5 10 0 = .ok (0, s') ∧
      (s'.reserve 1).util = utilMultiple := by
  have application : ∃ s', jniSetReserve .succeed Kernel.bare 1 5 10 0 = .ok (0, s') := ⟨_, rfl⟩
  have easy : ∃ s', easyperiodic .succeed Kernel.bare 1 5 10 0 = .ok (0, s') := ⟨_, rfl⟩
  have almost : ∃ s', almostperiodic .succeed Kernel.bare 1 5 10 0 = .ok (0, s') := ⟨_, rfl⟩
  obtain ⟨s₁, first⟩ := application
  obtain ⟨s₂, second⟩ := easy
  obtain ⟨s₃, third⟩ := almost
  have isPeriod : IsInt 10 := ⟨by decide, by decide⟩
  refine ⟨⟨s₁, first, ?_⟩, ⟨s₂, second, ?_⟩, ⟨s₃, third, ?_⟩⟩
  · exact ((programs_exact isPeriod).1 s₁ first).mpr (by decide)
  · exact (programs_exact isPeriod).2.1 s₂ second (by decide) (by decide)
  · exact ((programs_exact isPeriod).2.2 s₃ third (by decide)).2

end Rtes.Apps
