import Rtes.Reservation.Accounting

/-!
# How exact the charged energy is

The ticks of a run are split into seconds and milliseconds, and what is less than a
millisecond is cut off, and then what is less than a microjoule.  Over any number of
runs, what is charged stays below what the ticks are worth, and not further than what
is cut off in each of them.
-/

namespace Rtes.Reservation

open Rtes.Transition Rtes.Word

variable {s s' : Kernel} {t : Tid} {op : SystemOp}

/-! ## One run -/

/-- A run of a tracked task that has ended: its ticks, and the power at the switch that
ended it. -/
structure Segment where
  ticks : ℕ
  power : ℕ
  deriving DecidableEq, Repr

/-- What the ticks of a run are worth, in microjoules. -/
def Segment.worth (segment : Segment) : ℚ :=
  segment.power * 495 * segment.ticks / 10 ^ 6

/-- More than is cut off from the energy of a run. -/
def Segment.slack (segment : Segment) : ℚ :=
  segment.power / 1000 + 1

/-- An accumulator shows a number of ticks, and no negative time. -/
structure Shows (ticks : ℕ) (acc : Timespec) : Prop where
  seconds : 0 ≤ acc.tvSec
  counts : acc.Counts ticks

namespace Shows

variable {ticks : ℕ} {acc : Timespec}

theorem zero : Shows 0 ⟨0, 0⟩ :=
  ⟨le_rfl, Timespec.counts_zero⟩

theorem tick (shows : Shows ticks acc) : Shows (ticks + 1) acc.tick :=
  ⟨Timespec.tick_seconds shows.seconds, shows.counts.tick⟩

end Shows

/-- The energy of a run, in numbers that do not wrap. -/
def Timespec.energy (run : Timespec) (power : ℕ) : ℕ :=
  power * run.tvSec.toNat + power * (run.tvNsec.tdiv 1000000).toNat / 1000

/-- What is cut off from the energy of a run. -/
theorem Shows.energy_bounds {ticks : ℕ} {run : Timespec} (shows : Shows ticks run) (power : ℕ) :
    (run.energy power : ℚ) ≤ Segment.worth ⟨ticks, power⟩ ∧
      Segment.worth ⟨ticks, power⟩ < run.energy power + Segment.slack ⟨ticks, power⟩ := by
  obtain ⟨seconds, nanos, nonneg, _⟩ := shows
  obtain ⟨sec, isSec⟩ := Int.eq_ofNat_of_zero_le seconds
  obtain ⟨nsec, isNsec⟩ := Int.eq_ofNat_of_zero_le nonneg
  have millis : ((nsec : ℤ).tdiv 1000000).toNat = nsec / 1000000 := by
    rw [Int.tdiv_eq_ediv_of_nonneg (Int.natCast_nonneg nsec)]
    omega
  have below := Nat.div_mul_le_self (power * (nsec / 1000000)) 1000
  have above := Nat.lt_div_mul_add (a := power * (nsec / 1000000)) (b := 1000) (by decide)
  have cutBelow : power * (nsec / 1000000 * 1000000) ≤ power * nsec :=
    Nat.mul_le_mul_left _ (Nat.div_mul_le_self _ _)
  have cutAbove : power * nsec ≤ power * (nsec / 1000000 * 1000000 + 1000000) :=
    Nat.mul_le_mul_left _ (by omega)
  rw [Timespec.nanos, isSec, isNsec, nsPerS, reserveIncrementNs] at nanos
  rw [Timespec.energy, isSec, isNsec, millis, Int.toNat_natCast, Segment.worth, Segment.slack]
  generalize power * (nsec / 1000000) / 1000 = charged at *
  generalize nsec / 1000000 = milliseconds at *
  have total : (sec : ℚ) * 1000000000 + nsec = 495000 * ticks := by exact_mod_cast nanos
  have isWorth : (power : ℚ) * 495 * ticks / 10 ^ 6 =
      power * sec + power * nsec / 1000000000 := by
    linear_combination -(power : ℚ) / 1000000000 * total
  have below' : (charged : ℚ) * 1000 ≤ power * milliseconds := by exact_mod_cast below
  have above' : (power : ℚ) * milliseconds < charged * 1000 + 1000 := by exact_mod_cast above
  have cutBelow' : (power : ℚ) * (milliseconds * 1000000) ≤ power * nsec := by
    exact_mod_cast cutBelow
  have cutAbove' : (power : ℚ) * nsec ≤ power * (milliseconds * 1000000 + 1000000) := by
    exact_mod_cast cutAbove
  rw [isWorth, Nat.cast_add, Nat.cast_mul]
  constructor
  · linarith
  · linarith

/-! ## Every run -/

/-- What happened along a run: the ticks that the accumulator of each task shows, the
runs of tracked tasks that have ended, and what was added to `total_energy`. -/
structure Journal where
  pending : Tid → ℕ
  segments : List Segment
  added : ℕ

/-- A run begins where the accumulator is cleared, by a switch or by `set_reserve`.  A
forked task continues the run its accumulator is copied from. -/
def Journal.record (s : Kernel) (op : SystemOp) (s' : Kernel) (journal : Journal) : Journal :=
  match op with
  | .core (.cTimer t) =>
      { journal with pending := Function.update journal.pending t (journal.pending t + 1) }
  | .core (.switchOut t) =>
      { pending := Function.update journal.pending t 0
        segments :=
          if (s.reserve t).trackingEnergy then
            ⟨journal.pending t, powerInForce s t⟩ :: journal.segments
          else
            journal.segments
        added := journal.added + energyAdded s s' }
  | .core (.setReserve _ t _ _ _) =>
      { journal with
        pending := Function.update journal.pending t
          (if (s'.reserve t).accSingleRun = ⟨0, 0⟩ then 0 else journal.pending t) }
  | .fork parent child _ =>
      if !s.found child && s'.found child then
        { journal with pending := Function.update journal.pending child (journal.pending parent) }
      else
        journal
  | _ => journal

/-- No product or sum of the energy of a run exceeds 32 bits. -/
def Unwrapped (s : Kernel) : SystemOp → Prop
  | .core (.switchOut t) => (s.reserve t).trackingEnergy = true →
      (s.reserve t).accSingleRun.energy (powerInForce s t) < 4294967296 ∧
        powerInForce s t * ((s.reserve t).accSingleRun.tvNsec.tdiv 1000000).toNat < 4294967296
  | _ => True

private theorem runEnergy_eq
    (sum : (s.reserve t).accSingleRun.energy (powerInForce s t) < 4294967296)
    (millis : powerInForce s t * ((s.reserve t).accSingleRun.tvNsec.tdiv 1000000).toNat <
      4294967296) :
    s.runEnergy t = (s.reserve t).accSingleRun.energy (powerInForce s t) := by
  have seconds : powerInForce s t * (s.reserve t).accSingleRun.tvSec.toNat < 4294967296 :=
    lt_of_le_of_lt (Nat.le_add_right _ _) sum
  have isEnergy : s.runEnergy t =
      uint32 (uint32 (powerInForce s t * (s.reserve t).accSingleRun.tvSec.toNat) +
        uint32 (powerInForce s t *
          ((s.reserve t).accSingleRun.tvNsec.tdiv 1000000).toNat) / 1000) := rfl
  rw [isEnergy, uint32, uint32, uint32, Nat.mod_eq_of_lt seconds, Nat.mod_eq_of_lt millis]
  exact Nat.mod_eq_of_lt sum

/-- What the ticks of runs are worth. -/
def worths (segments : List Segment) : ℚ :=
  (segments.map Segment.worth).sum

/-- More than is cut off from the energy of runs. -/
def slacks (segments : List Segment) : ℚ :=
  (segments.map Segment.slack).sum

/-- What was added is worth of the ticks, less what was cut off. -/
structure Settled (added : ℕ) (segments : List Segment) : Prop where
  le : (added : ℚ) ≤ worths segments
  within : worths segments ≤ added + slacks segments
  less : segments ≠ [] → worths segments < added + slacks segments

namespace Settled

variable {added : ℕ} {segments : List Segment}

theorem nil : Settled 0 [] where
  le := le_rfl
  within := by simp [worths, slacks]
  less := fun nonempty => absurd rfl nonempty

theorem cons {run : Timespec} {ticks : ℕ} (settled : Settled added segments)
    (shows : Shows ticks run) (power : ℕ) :
    Settled (added + run.energy power) (⟨ticks, power⟩ :: segments) := by
  obtain ⟨below, above⟩ := shows.energy_bounds power
  have isWorth : worths (⟨ticks, power⟩ :: segments) =
      Segment.worth ⟨ticks, power⟩ + worths segments := List.sum_cons
  have isSlack : slacks (⟨ticks, power⟩ :: segments) =
      Segment.slack ⟨ticks, power⟩ + slacks segments := List.sum_cons
  have le := settled.le
  have within := settled.within
  have less : worths (⟨ticks, power⟩ :: segments) <
      (added + run.energy power : ℕ) + slacks (⟨ticks, power⟩ :: segments) := by
    rw [isWorth, isSlack, Nat.cast_add]
    linarith
  refine ⟨?_, less.le, fun _ => less⟩
  rw [isWorth, Nat.cast_add]
  linarith

end Settled

/-- The accumulator of the run a task is in shows its ticks. -/
def RunShown (ticks : ℕ) (reserve : Reserve) : Prop :=
  Shows ticks reserve.accSingleRun

theorem RunShown.of_eq {ticks : ℕ} {reserve own : Reserve} (shown : RunShown ticks reserve)
    (acc : own.accSingleRun = reserve.accSingleRun) : RunShown ticks own := by
  rw [RunShown, acc]
  exact shown

/-- The journal agrees with the accumulators and with what was added. -/
structure Journaled (s : Kernel) (journal : Journal) : Prop where
  runs : ∀ t, RunShown (journal.pending t) (s.reserve t)
  settled : Settled journal.added journal.segments

/-- An operation that leaves the accumulator of its task alone. -/
theorem Journaled.replace {journal : Journal} {own : Reserve} (before : Journaled s journal)
    (replaced : s'.reserve = Function.update s.reserve t own)
    (acc : own.accSingleRun = (s.reserve t).accSingleRun) : Journaled s' journal :=
  ⟨forall_reserve before.runs ((before.runs t).of_eq acc) replaced, before.settled⟩

theorem SetOwn.accSingleRun_eq {srv : Services} {energyTracking : Bool}
    {budget period : Option Timespec} {retval : ℤ} {reserve own : Reserve}
    (result : SetOwn srv energyTracking budget period reserve retval own) :
    own.accSingleRun = reserve.accSingleRun ∨ own.accSingleRun = ⟨0, 0⟩ := by
  cases result with
  | refused _ _ => exact .inl rfl
  | undone _ _ => exact .inl rfl
  | failed _ _ _ _ _ => exact .inr rfl
  | installed _ _ _ => exact .inr rfl

theorem CancelOwn.accSingleRun_eq {srv : Services} {found : Bool} {retval : ℤ}
    {reserve own : Reserve} (result : CancelOwn srv found reserve retval own) :
    own.accSingleRun = reserve.accSingleRun := by
  cases result with
  | missing _ => rfl
  | refused _ _ _ => rfl
  | idle _ _ _ => rfl
  | released _ _ _ _ => rfl

theorem ExitOwn.accSingleRun_eq {reserve own : Reserve} (result : ExitOwn reserve own) :
    own.accSingleRun = reserve.accSingleRun := by
  cases result with
  | idle _ => rfl
  | released _ _ => rfl

/-- A switch charges the run that ends. -/
theorem Journaled.switchOut {journal : Journal} (before : Journaled s journal)
    (unwrapped : Unwrapped s (.core (.switchOut t))) :
    Settled (journal.record s (.core (.switchOut t)) (s.switchOut t)).added
      (journal.record s (.core (.switchOut t)) (s.switchOut t)).segments := by
  simp only [Journal.record]
  rw [energyAdded_switchOut]
  by_cases tracked : (s.reserve t).trackingEnergy = true
  · obtain ⟨sum, millis⟩ := unwrapped tracked
    rw [if_pos tracked, if_pos tracked, runEnergy_eq sum millis]
    exact before.settled.cons (before.runs t) _
  · rw [if_neg tracked, if_neg tracked]
    exact before.settled

private theorem journal_record_other {journal : Journal} (other : ∀ op', op ≠ .core op')
    (monitors : Monitors s s') : journal.record s op s' = journal := by
  cases op with
  | core op => exact absurd rfl (other op)
  | fork parent child leader =>
      rw [monitors]
      simp [Journal.record]
  | _ => rfl

/-- Every step keeps the journal. -/
theorem KernelEffect.journaled {journal : Journal} (effect : KernelEffect s op s')
    (before : Journaled s journal) (unwrapped : Unwrapped s op) :
    Journaled s' (journal.record s op s') := by
  cases effect with
  | @core op _ taken =>
      obtain ⟨named, own, result, replaced⟩ := step_own taken
      have shown := before.runs named
      have isOwn : s'.reserve named = own := by rw [replaced, Function.update_self]
      cases result with
      | setReserve result =>
          refine ⟨forall_counted before.runs ?_ replaced, before.settled⟩
          rw [isOwn]
          split
          · rename_i cleared
            rw [RunShown, cleared]
            exact .zero
          · rename_i running
            exact shown.of_eq (result.accSingleRun_eq.resolve_right running)
      | cancelReserve result => exact before.replace replaced result.accSingleRun_eq
      | doExit result => exact before.replace replaced result.accSingleRun_eq
      | endJob => exact before.replace replaced rfl
      | cTimer =>
          refine ⟨forall_counted before.runs ?_ replaced, before.settled⟩
          exact Shows.tick shown
      | pTimer _ => exact before.replace replaced rfl
      | switchOut =>
          cases taken
          refine ⟨forall_counted before.runs ?_ replaced, before.switchOut unwrapped⟩
          exact Shows.zero
      | switchIn => exact before.replace replaced rfl
      | setPolicy => exact before.replace replaced rfl
  | @forked parent child leader free =>
      have happens : (!s.found child && (s.fork parent child leader).found child) = true := by
        simp [free, Kernel.fork]
      rw [Journal.record, if_pos happens]
      refine ⟨forall_counted before.runs ?_ rfl, before.settled⟩
      exact before.runs parent
  | reaped _ => exact ⟨before.runs, before.settled⟩
  | monitored other monitors =>
      rw [journal_record_other other monitors]
      refine ⟨?_, before.settled⟩
      rw [monitors]
      exact before.runs

/-- The system, with the journal kept beside it. -/
def journalStep : System × Journal → SystemOp → Except Fault (System × Journal) :=
  observe systemStep fun system op system' => Journal.record system.kernel op system'.kernel

/-- No run has begun. -/
structure Resting (now : System × Journal) : Prop where
  cleared : ∀ t, (now.1.kernel.reserve t).accSingleRun = ⟨0, 0⟩
  journal : now.2 = ⟨fun _ => 0, [], 0⟩

/-- Over all runs of tracked tasks that have ended, what was added to `total_energy` is
at most what their ticks are worth, and falls short of it by less than what is cut off. -/
theorem reaches_energy {now : System × Journal}
    (reached : Reaches journalStep (fun now => Unwrapped now.1.kernel) Resting now) :
    (now.2.added : ℚ) ≤ worths now.2.segments ∧
      (now.2.segments ≠ [] →
        worths now.2.segments - now.2.added < slacks now.2.segments) := by
  have journaled : Journaled now.1.kernel now.2 := by
    apply reached.observed
    · intro now resting
      rw [resting.journal]
      refine ⟨fun t => ?_, .nil⟩
      rw [RunShown, resting.cleared t]
      exact .zero
    · intro now op target before unwrapped taken
      exact (systemStep_kernel taken).journaled before unwrapped
  refine ⟨journaled.settled.le, fun nonempty => ?_⟩
  have less := journaled.settled.less nonempty
  linarith

/-- A task is reserved, runs for three ticks and is switched out. -/
def switchedRun : System × Journal :=
  let reserved := after journalStep (trackedBoot.1, ⟨fun _ => 0, [], 0⟩)
    (.core (reserveMillis 1 2 10 0))
  let running := after journalStep reserved (.core (.switchIn 1))
  let ticked := after journalStep (after journalStep (after journalStep running (.core (.cTimer 1)))
    (.core (.cTimer 1))) (.core (.cTimer 1))
  after journalStep ticked (.core (.switchOut 1))

theorem reaches_energy_switched : switchedRun.2.segments = [⟨3, 726703⟩] ∧
    (switchedRun.2.added : ℚ) ≤ worths switchedRun.2.segments ∧
    worths switchedRun.2.segments - switchedRun.2.added < slacks switchedRun.2.segments := by
  have start : Reaches journalStep (fun now => Unwrapped now.1.kernel) Resting
      (trackedBoot.1, ⟨fun _ => 0, [], 0⟩) := .start ⟨fun _ => rfl, rfl⟩
  have switched : Reaches journalStep (fun now => Unwrapped now.1.kernel) Resting switchedRun := by
    unfold switchedRun
    refine .after (.after (.after (.after (.after (.after start trivial ?_) trivial ?_) trivial ?_)
      trivial ?_) trivial ?_) (fun _ => ?_) ?_
    all_goals decide
  have segments : switchedRun.2.segments = [⟨3, 726703⟩] := by decide
  obtain ⟨le, less⟩ := reaches_energy switched
  exact ⟨segments, le, less (by rw [segments]; exact List.cons_ne_nil _ _)⟩

end Rtes.Reservation
