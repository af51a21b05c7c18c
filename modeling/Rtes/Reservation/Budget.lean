import Rtes.Reservation.Own
import Rtes.Reservation.Runs
import Rtes.Transition.History

/-!
# Budget enforcement

The budget timer charges a fixed increment for every interval of running time,
and is started anew whenever the task is switched in.  The accumulators count
ticks, and a task is found out of budget at the tick that takes it past its
budget.
-/

namespace Rtes.Reservation

open Rtes.Transition Rtes.Word

/-! ## Accumulators -/

namespace Timespec

variable {acc C : Timespec}

/-- A time in nanoseconds. -/
def nanos (time : Timespec) : ℤ :=
  time.tvSec * nsPerS + time.tvNsec

/-- The nanoseconds are less than a second. -/
structure Normalized (time : Timespec) : Prop where
  nonneg : 0 ≤ time.tvNsec
  less : time.tvNsec < nsPerS

/-- The nanoseconds of an accumulator may come to a whole second. -/
structure Carried (time : Timespec) : Prop where
  nonneg : 0 ≤ time.tvNsec
  le : time.tvNsec ≤ nsPerS

@[simp]
theorem carried_zero : Carried ⟨0, 0⟩ :=
  ⟨le_rfl, by decide⟩

theorem nanos_tick (acc : Timespec) : acc.tick.nanos = acc.nanos + reserveIncrementNs := by
  unfold tick nanos
  split
  · ring
  · ring

theorem tick_seconds (seconds : 0 ≤ acc.tvSec) : 0 ≤ acc.tick.tvSec := by
  unfold tick
  split
  · dsimp only
    omega
  · exact seconds

theorem Carried.tick (carried : Carried acc) : Carried acc.tick := by
  obtain ⟨nonneg, le⟩ := carried
  unfold Timespec.tick
  split
  · rename_i carries
    constructor
    · dsimp only
      omega
    · unfold reserveIncrementNs nsPerS at *
      dsimp only
      omega
  · rename_i within
    constructor
    · unfold reserveIncrementNs
      dsimp only
      omega
    · exact not_lt.mp within

/-- The test compares the times. -/
theorem exceeds_iff (carried : Carried acc) (normalized : Normalized C) :
    acc.exceeds C = true ↔ C.nanos < acc.nanos := by
  obtain ⟨accNonneg, accLe⟩ := carried
  obtain ⟨nonneg, less⟩ := normalized
  unfold exceeds nanos nsPerS at *
  simp only [Bool.or_eq_true, Bool.and_eq_true, decide_eq_true_eq, beq_iff_eq]
  omega

/-- The accumulator shows a number of ticks. -/
structure Counts (ticks : ℕ) (acc : Timespec) : Prop where
  nanos : acc.nanos = reserveIncrementNs * ticks
  carried : acc.Carried

@[simp]
theorem counts_zero : Counts 0 ⟨0, 0⟩ :=
  ⟨rfl, carried_zero⟩

theorem Counts.tick {ticks : ℕ} (counts : Counts ticks acc) : Counts (ticks + 1) acc.tick where
  nanos := by
    rw [nanos_tick, counts.nanos]
    push_cast
    ring
  carried := counts.carried.tick

end Timespec

/-- The test of the budget timer compares the ticks with the budget. -/
theorem Reserve.outOfBudget_iff {ticks : ℕ} {reserve : Reserve}
    (counts : reserve.acc.Counts ticks) (normalized : reserve.C.Normalized) :
    reserve.outOfBudget = true ↔ reserve.C.nanos < reserveIncrementNs * (ticks + 1 : ℕ) := by
  rw [outOfBudget, Timespec.exceeds_iff counts.tick.carried normalized, counts.tick.nanos]

variable {s s' : Kernel} {t : Tid}

/-- What the budget timer does at its next tick if the task is `out` of budget, and only
then: it marks the task as suspended and is not started again. -/
structure Suspends (s : Kernel) (t : Tid) (out : Prop) : Prop where
  suspend : ((s.cTimerCallback t).reserve t).suspend = true ↔ (s.reserve t).suspend = true ∨ out
  cTimer : ((s.cTimerCallback t).reserve t).cTimer = true ↔ (s.reserve t).cTimer = true ∧ ¬ out

theorem suspends_of_iff {out : Prop} (test : (s.reserve t).outOfBudget = true ↔ out) :
    Suspends s t out := by
  have own : (s.cTimerCallback t).reserve t = (s.reserve t).charged := by
    rw [cTimerCallback_reserve, Function.update_self]
  constructor
  · rw [own, ← test]
    simp [Reserve.charged, or_comm]
  · rw [own, ← test]
    simp [Reserve.charged, and_comm]

/-! ## Ticks since the last reset -/

/-- A value that is stepped by the ticks of a task and reset by its period
timer. -/
def sinceReset {α : Type} (t : Tid) (op : Op) (tick : α → α) (zero value : α) : α :=
  match op with
  | .cTimer named => if named = t then tick value else value
  | .pTimer _ named => if named = t then zero else value
  | _ => value

/-- Nothing else touches the accumulator of a task. -/
theorem step_acc {op : Op} (taken : step s op = .ok s') :
    (s'.reserve t).acc = sinceReset t op Timespec.tick ⟨0, 0⟩ (s.reserve t).acc := by
  obtain ⟨named, own, effect, replaced⟩ := step_own taken
  rw [replaced]
  rcases eq_or_ne t named with rfl | different
  · rw [Function.update_self]
    cases effect with
    | setReserve result => cases result with | _ => rfl
    | cancelReserve result => cases result with | _ => rfl
    | doExit result => cases result with | _ => rfl
    | cTimer => exact (if_pos rfl).symm
    | pTimer _ => exact (if_pos rfl).symm
    | _ => rfl
  · rw [Function.update_of_ne different]
    cases effect with
    | cTimer => exact (if_neg different.symm).symm
    | pTimer _ => exact (if_neg different.symm).symm
    | _ => rfl

/-- Ticks and accumulator are stepped and reset together. -/
theorem Timespec.Counts.sinceReset {ticks : ℕ} {acc : Timespec} (counts : acc.Counts ticks)
    (op : Op) : Timespec.Counts (Reservation.sinceReset t op (· + 1) 0 ticks)
      (Reservation.sinceReset t op Timespec.tick ⟨0, 0⟩ acc) := by
  unfold Reservation.sinceReset
  cases op with
  | cTimer named =>
      dsimp only
      split
      · exact counts.tick
      · exact counts
  | pTimer _ named =>
      dsimp only
      split
      · exact Timespec.counts_zero
      · exact counts
  | _ => exact counts

/-- Steps, with the ticks of one task since its last reset counted beside them. -/
def meteredStep (t : Tid) : Kernel × ℕ → Op → Except Fault (Kernel × ℕ) :=
  observe step fun _ op _ => sinceReset t op (· + 1) 0

/-- No tick is counted and none is in the accumulator. -/
def ZeroAcc (t : Tid) (now : Kernel × ℕ) : Prop :=
  (now.1.reserve t).acc = ⟨0, 0⟩ ∧ now.2 = 0

/-- From a zero accumulator on, whatever ticks, resets and other operations
follow, the accumulator stays within a second, and the next tick finds the task
out of budget, suspends it and stops the timer if and only if the ticks since the
last reset, with this one, exceed the budget. -/
theorem reaches_test_exact {now : Kernel × ℕ}
    (reached : Reaches (meteredStep t) (fun _ _ => True) (ZeroAcc t) now) :
    (now.1.reserve t).acc.Carried ∧
      ((now.1.reserve t).C.Normalized →
        ((now.1.reserve t).outOfBudget = true ↔
          (now.1.reserve t).C.nanos < reserveIncrementNs * (now.2 + 1 : ℕ)) ∧
        Suspends now.1 t
          ((now.1.reserve t).C.nanos < reserveIncrementNs * (now.2 + 1 : ℕ))) := by
  have counts : (now.1.reserve t).acc.Counts now.2 := by
    apply reached.observed
    · rintro ⟨s, ticks⟩ ⟨acc, rfl⟩
      rw [acc]
      exact Timespec.counts_zero
    · intro now op target before _ taken
      rw [step_acc taken]
      exact before.sinceReset op
  refine ⟨counts.carried, fun normalized => ?_⟩
  have test := Reserve.outOfBudget_iff counts normalized
  exact ⟨test, suspends_of_iff test⟩

/-- A task with one millisecond of every ten. -/
def millisecondTask : Kernel :=
  after step .bare (reserveMillis 1 1 10 0)

/-- A tick, the end of the period, and another two ticks: the third tick of this
period is the one too many. -/
theorem reaches_test_exact_millisecond :
    ∃ now : Kernel × ℕ, (now.1.reserve 1).acc.Carried ∧ now.2 = 2 ∧
      ((now.1.reserve 1).outOfBudget = true ↔
        (now.1.reserve 1).C.nanos < reserveIncrementNs * (now.2 + 1 : ℕ)) ∧
      ((now.1.cTimerCallback 1).reserve 1).suspend = true := by
  let ticked := after (meteredStep 1) (millisecondTask, 0) (.cTimer 1)
  let reset := after (meteredStep 1) ticked (.pTimer (fun _ => 0) 1)
  let again := after (meteredStep 1) reset (.cTimer 1)
  let now := after (meteredStep 1) again (.cTimer 1)
  have start : Reaches (meteredStep 1) (fun _ _ => True) (ZeroAcc 1) (millisecondTask, 0) :=
    .start ⟨by decide, rfl⟩
  have reached : Reaches (meteredStep 1) (fun _ _ => True) (ZeroAcc 1) now :=
    (((start.after trivial (by decide)).after trivial (by decide)).after trivial
      (by decide)).after trivial (by decide)
  obtain ⟨carried, exact⟩ := reaches_test_exact reached
  obtain ⟨test, suspends⟩ := exact ⟨by decide, by decide⟩
  exact ⟨now, carried, by decide, test, suspends.suspend.mpr (.inr (by decide))⟩

/-! ## Segments of a period -/

/-- `RESERVE_INTERVAL_NS`: the interval of the budget timer. -/
def reserveIntervalNs : ℕ := 500000

/-- The budget timer fires a number of times unless it is stopped.  The first
component says whether it has found the task out of budget. -/
def fireBudget (t : Tid) : ℕ → Bool × Kernel → Bool × Kernel
  | 0, run => run
  | n + 1, (out, s) =>
      if (s.reserve t).cTimer then
        fireBudget t n (out || (s.reserve t).outOfBudget, s.cTimerCallback t)
      else
        (out, s)

/-- The task is switched in, runs for a number of nanoseconds, and is switched
out. -/
def runSegment (t : Tid) (run : Bool × Kernel) (length : ℕ) : Bool × Kernel :=
  let (out, s) := fireBudget t (length / reserveIntervalNs) (run.1, run.2.switchIn t)
  (out, s.switchOut t)

/-- The segments a task runs within one period. -/
def runSegments (t : Tid) (s : Kernel) (segments : List ℕ) : Bool × Kernel :=
  segments.foldl (runSegment t) (false, s)

/-- Intervals of the budget timer that are completed within the segments. -/
def intervals (segments : List ℕ) : ℕ :=
  (segments.map (· / reserveIntervalNs)).sum

/-- Ticks that a budget covers. -/
def budgetTicks (C : Timespec) : ℕ :=
  (C.nanos / reserveIncrementNs).toNat

/-- After a number of completed intervals: unless the task was found out of
budget, the accumulator has counted them all. -/
structure Counted (t : Tid) (C : Timespec) (ticks : ℕ) (run : Bool × Kernel) : Prop where
  flag : (run.2.reserve t).flag = true
  budget : (run.2.reserve t).C = C
  out : run.1 = true → budgetTicks C + 1 ≤ ticks
  within : run.1 = false → (run.2.reserve t).acc.nanos = reserveIncrementNs * ticks ∧
    (run.2.reserve t).acc.Carried ∧ ticks ≤ budgetTicks C

namespace Counted

variable {C : Timespec} {ticks : ℕ} {run : Bool × Kernel}

private theorem out_iff (counted : Counted t C ticks run) :
    run.1 = true ↔ budgetTicks C + 1 ≤ ticks := by
  constructor
  · exact counted.out
  · intro many
    by_contra within
    have few := (counted.within (by simpa using within)).2.2
    omega

theorem mono {more : ℕ} (counted : Counted t C ticks run) (isOut : run.1 = true)
    (le : ticks ≤ more) : Counted t C more run where
  flag := counted.flag
  budget := counted.budget
  out := fun _ => (counted.out isOut).trans le
  within := fun within => by simp [isOut] at within

/-- The context switches leave the accumulator alone. -/
theorem of_acc {now : Kernel} (counted : Counted t C ticks run)
    (flag : (now.reserve t).flag = (run.2.reserve t).flag)
    (budget : (now.reserve t).C = (run.2.reserve t).C)
    (acc : (now.reserve t).acc = (run.2.reserve t).acc) : Counted t C ticks (run.1, now) where
  flag := flag.trans counted.flag
  budget := budget.trans counted.budget
  out := counted.out
  within := by
    rw [acc]
    exact counted.within

/-- The next tick takes the task past its budget. -/
theorem outOfBudget_iff (normalized : C.Normalized) (nonneg : 0 ≤ C.tvSec)
    (counted : Counted t C ticks (false, s)) :
    (s.reserve t).outOfBudget = true ↔ budgetTicks C + 1 ≤ ticks + 1 := by
  obtain ⟨nanos, carried, _⟩ := counted.within rfl
  have budget : (s.reserve t).C = C := counted.budget
  have positive : 0 ≤ C.nanos := by
    have := normalized.nonneg
    unfold Timespec.nanos nsPerS
    omega
  have test := Reserve.outOfBudget_iff ⟨nanos, carried⟩ (budget ▸ normalized)
  rw [budget] at test
  rw [test]
  unfold budgetTicks reserveIncrementNs
  omega

/-- One tick of the budget timer. -/
theorem tick (normalized : C.Normalized) (nonneg : 0 ≤ C.tvSec) {out : Bool}
    (counted : Counted t C ticks (out, s)) :
    Counted t C (ticks + 1) (out || (s.reserve t).outOfBudget, s.cTimerCallback t) := by
  have own : (s.cTimerCallback t).reserve t = (s.reserve t).charged := by
    rw [cTimerCallback_reserve, Function.update_self]
  constructor
  · rw [own]
    exact counted.flag
  · rw [own]
    exact counted.budget
  · intro isOut
    cases out with
    | true => exact (counted.out rfl).trans (Nat.le_succ ticks)
    | false => exact (counted.outOfBudget_iff normalized nonneg).mp (by simpa using isOut)
  · intro isWithin
    simp only [Bool.or_eq_false_iff] at isWithin
    obtain ⟨rfl, within⟩ := isWithin
    obtain ⟨nanos, carried, _⟩ := counted.within rfl
    have ticked : (s.reserve t).acc.tick.Counts (ticks + 1) := Timespec.Counts.tick ⟨nanos, carried⟩
    have acc : ((s.cTimerCallback t).reserve t).acc = (s.reserve t).acc.tick := by
      rw [own]
      rfl
    rw [acc]
    refine ⟨ticked.nanos, ticked.carried, ?_⟩
    by_contra many
    have isOut := (counted.outOfBudget_iff normalized nonneg).mpr (by omega)
    simp [within] at isOut

/-- As long as the timer is stopped only when the task is out of budget, every
interval is counted. -/
theorem fire (normalized : C.Normalized) (nonneg : 0 ≤ C.tvSec) {n : ℕ} {out : Bool}
    (counted : Counted t C ticks (out, s))
    (armed : out = false → (s.reserve t).cTimer = true) :
    Counted t C (ticks + n) (fireBudget t n (out, s)) := by
  induction n generalizing ticks out s with
  | zero => exact counted
  | succ n ih =>
      rw [fireBudget]
      split
      · rename_i on
        rw [Nat.add_comm n 1, ← Nat.add_assoc]
        apply ih (counted.tick normalized nonneg)
        intro isWithin
        simp only [Bool.or_eq_false_iff] at isWithin
        rw [cTimerCallback_reserve, Function.update_self]
        simp [Reserve.charged, isWithin.2, on]
      · rename_i off
        refine counted.mono ?_ (Nat.le_add_right _ _)
        by_contra within
        exact off (armed (by simpa using within))

/-- One segment counts the intervals completed within it. -/
theorem segment (normalized : C.Normalized) (nonneg : 0 ≤ C.tvSec)
    (counted : Counted t C ticks run) (length : ℕ) :
    Counted t C (ticks + length / reserveIntervalNs) (runSegment t run length) := by
  have own : (run.2.switchIn t).reserve t = (run.2.reserve t).switchedIn := by
    rw [switchIn_reserve, Function.update_self]
  have started : Counted t C ticks (run.1, run.2.switchIn t) := by
    apply counted.of_acc
    · rw [own]
      rfl
    · rw [own]
      rfl
    · rw [own]
      rfl
  have fired := started.fire normalized nonneg (n := length / reserveIntervalNs) fun _ => by
    rw [own, Reserve.switchedIn, counted.flag, Bool.true_or]
  obtain ⟨energy, stopped⟩ := switchOut_reserve
    (fireBudget t (length / reserveIntervalNs) (run.1, run.2.switchIn t)).2 t
  apply fired.of_acc
  all_goals
    rw [stopped, Function.update_self]
    rfl

theorem segments (normalized : C.Normalized) (nonneg : 0 ≤ C.tvSec)
    (counted : Counted t C ticks run) (segments : List ℕ) :
    Counted t C (ticks + intervals segments) (segments.foldl (runSegment t) run) := by
  induction segments generalizing ticks run with
  | nil => exact counted
  | cons length rest ih =>
      have both := ih (counted.segment normalized nonneg length)
      rwa [Nat.add_assoc] at both

end Counted

/-- Segments that are each shorter than an interval of the timer are not charged
at all. -/
theorem runSegments_not_out : ∃ segments : List ℕ,
    (budgetTicks (millisecondTask.reserve 1).C + 2) * reserveIntervalNs ≤ segments.sum ∧
      (runSegments 1 millisecondTask segments).1 = false :=
  ⟨List.replicate 5 499999, by decide, by decide⟩

/-- Within a period, the timer has found a reserved task out of budget if and
only if its segments contain one whole interval of the timer more than the
budget covers, however long they are in all. -/
theorem runSegments_out_iff (flag : (s.reserve t).flag = true)
    (acc : (s.reserve t).acc = ⟨0, 0⟩) (normalized : (s.reserve t).C.Normalized)
    (nonneg : 0 ≤ (s.reserve t).C.tvSec) (segments : List ℕ) :
    (runSegments t s segments).1 = true ↔
      budgetTicks (s.reserve t).C + 1 ≤ intervals segments := by
  have start : Counted t (s.reserve t).C 0 (false, s) := by
    refine ⟨flag, rfl, Bool.noConfusion, fun _ => ?_⟩
    rw [acc]
    exact ⟨rfl, Timespec.carried_zero, Nat.zero_le _⟩
  have counted := start.segments normalized nonneg segments
  rw [Nat.zero_add] at counted
  exact counted.out_iff

theorem runSegments_out_iff_single :
    (runSegments 1 millisecondTask [2000000]).1 = true ↔ 3 ≤ intervals [2000000] :=
  runSegments_out_iff (by decide) (by decide) ⟨by decide, by decide⟩ (by decide) [2000000]

end Rtes.Reservation
