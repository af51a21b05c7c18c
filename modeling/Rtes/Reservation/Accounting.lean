import Rtes.Reservation.Lifecycle
import Rtes.Transition.History

/-!
# What a reservation is charged for

The accumulators live in the task across reservations and are copied by a fork.
Beside the system the runs count what happened: the ticks of each task since its
last period boundary or the start of its reservation, and the ticks of the run
it is in.  The accumulators never show more than that, as long as every
reservation starts with a clean accumulator and no unfinished run of a tracked
task is copied.
-/

namespace Rtes.Reservation

open Rtes.Transition Rtes.Word

variable {s s' : Kernel} {t : Tid} {op : SystemOp}

/-- What relates a count and a member for every task still does once both are
replaced for one. -/
theorem forall_counted {holds : ℕ → Reserve → Prop} {counts : Tid → ℕ} {count : ℕ} {own : Reserve}
    (before : ∀ other, holds (counts other) (s.reserve other)) (ownHolds : holds count own)
    (replaced : s'.reserve = Function.update s.reserve t own) (other : Tid) :
    holds (Function.update counts t count other) (s'.reserve other) := by
  rw [replaced]
  rcases eq_or_ne other t with rfl | different
  · rwa [Function.update_self, Function.update_self]
  · rw [Function.update_of_ne different, Function.update_of_ne different]
    exact before other

/-! ## Ticks of a reservation -/

/-- The ticks of each task since the later of its last period boundary and the
call that created its reservation. -/
def countTicks (s : Kernel) (op : SystemOp) (s' : Kernel) (ticks : Tid → ℕ) : Tid → ℕ :=
  match op with
  | .core (.cTimer t) => Function.update ticks t (ticks t + 1)
  | .core (.pTimer _ t) => Function.update ticks t 0
  | .core (.setReserve _ t _ _ _) => Function.update ticks t
      (if !(s.reserve t).flag && (s'.reserve t).flag then 0 else ticks t)
  | _ => ticks

/-- The accumulator of a reserved task counts its ticks, and the budget timer
runs for reserved tasks only. -/
structure Metered (ticks : ℕ) (reserve : Reserve) : Prop where
  armed : reserve.cTimer = true → reserve.flag = true
  nanos : reserve.flag = true → reserve.acc.nanos = reserveIncrementNs * ticks
  carried : reserve.flag = true → reserve.acc.Carried

/-- A reservation is created only for a task whose accumulator is clean. -/
def CleanStart (s : Kernel) : SystemOp → Prop
  | .core (.setReserve _ t _ _ _) => (s.reserve t).flag = false → (s.reserve t).acc = ⟨0, 0⟩
  | _ => True

namespace Metered

variable {ticks : ℕ} {reserve own : Reserve}

/-- What leaves flag and accumulator alone and starts the timer of a reserved task
only. -/
theorem of_eq (metered : Metered ticks reserve) (flag : own.flag = reserve.flag)
    (acc : own.acc = reserve.acc) (armed : own.cTimer = true → own.flag = true) :
    Metered ticks own where
  armed := armed
  nanos := by
    rw [flag, acc]
    exact metered.nanos
  carried := by
    rw [flag, acc]
    exact metered.carried

theorem of_unreserved (flag : own.flag = false) (timer : own.cTimer = false) :
    Metered ticks own where
  armed := by simp [timer]
  nanos := by simp [flag]
  carried := by simp [flag]

private theorem of_clean (flag : own.flag = true) (acc : own.acc = ⟨0, 0⟩) : Metered 0 own where
  armed := fun _ => flag
  nanos := by
    rw [acc]
    exact fun _ => rfl
  carried := by
    rw [acc]
    exact fun _ => Timespec.carried_zero

private theorem timer_of_unreserved (metered : Metered ticks reserve)
    (flag : reserve.flag = false) :
    reserve.cTimer = false := by
  by_contra on
  have reserved := metered.armed (by simpa using on)
  simp [flag] at reserved

theorem setOwn {srv : Services} {energyTracking : Bool} {budget period : Option Timespec}
    {retval : ℤ} (metered : Metered ticks reserve)
    (clean : reserve.flag = false → reserve.acc = ⟨0, 0⟩)
    (result : SetOwn srv energyTracking budget period reserve retval own) :
    Metered (if !reserve.flag && own.flag then 0 else ticks) own := by
  have kept : own.flag = reserve.flag → (!reserve.flag && own.flag) = false := by
    intro same
    rw [same, Bool.not_and_self]
  cases result with
  | refused _ _ =>
      rw [kept rfl]
      exact metered.of_eq rfl rfl metered.armed
  | undone _ _ =>
      rw [kept rfl]
      exact metered.of_eq rfl rfl metered.armed
  | failed _ _ _ _ _ =>
      rw [kept rfl]
      exact metered.of_eq rfl rfl nofun
  | installed _ _ _ =>
      cases flag : reserve.flag with
      | true => exact ⟨fun _ => rfl, fun _ => metered.nanos flag, fun _ => metered.carried flag⟩
      | false => exact .of_clean rfl (clean flag)

theorem cancelOwn {srv : Services} {found : Bool} {retval : ℤ} (metered : Metered ticks reserve)
    (result : CancelOwn srv found reserve retval own) : Metered ticks own := by
  cases result with
  | missing _ => exact metered
  | refused _ _ _ => exact metered.of_eq rfl rfl nofun
  | idle _ flag _ => exact .of_unreserved flag (metered.timer_of_unreserved flag)
  | released _ _ _ _ => exact .of_unreserved rfl rfl

theorem exitOwn (metered : Metered ticks reserve) (result : ExitOwn reserve own) :
    Metered ticks own := by
  cases result with
  | idle _ => exact metered
  | released _ _ => exact metered.of_eq rfl rfl nofun

theorem counts (metered : Metered ticks reserve) (flag : reserve.flag = true) :
    reserve.acc.Counts ticks :=
  ⟨metered.nanos flag, metered.carried flag⟩

theorem charged (metered : Metered ticks reserve) : Metered (ticks + 1) reserve.charged where
  armed := by
    intro on
    simp only [Reserve.charged, Bool.and_eq_true] at on
    exact metered.armed on.2
  nanos := fun flag => (metered.counts flag).tick.nanos
  carried := fun flag => (metered.counts flag).tick.carried

end Metered

private theorem countTicks_other {ticks : Tid → ℕ} (other : ∀ op', op ≠ .core op') :
    countTicks s op s' ticks = ticks := by
  cases op with
  | core op => exact absurd rfl (other op)
  | _ => rfl

/-- Every step keeps the count of the ticks. -/
theorem KernelEffect.metered {ticks : Tid → ℕ} (effect : KernelEffect s op s')
    (before : ∀ t, Metered (ticks t) (s.reserve t)) (clean : CleanStart s op) (t : Tid) :
    Metered (countTicks s op s' ticks t) (s'.reserve t) := by
  cases effect with
  | core taken =>
      obtain ⟨named, own, result, replaced⟩ := step_own taken
      have metered := before named
      cases result with
      | setReserve result =>
          apply forall_counted before _ replaced
          rw [show s'.reserve named = own by rw [replaced, Function.update_self]]
          exact metered.setOwn clean result
      | cancelReserve result => exact forall_reserve before (metered.cancelOwn result) replaced t
      | doExit result => exact forall_reserve before (metered.exitOwn result) replaced t
      | endJob =>
          refine forall_reserve before ?_ replaced t
          exact ⟨metered.armed, metered.nanos, metered.carried⟩
      | cTimer => exact forall_counted before metered.charged replaced t
      | pTimer _ =>
          refine forall_counted before ?_ replaced t
          exact ⟨metered.armed, fun _ => rfl, fun _ => Timespec.carried_zero⟩
      | switchOut =>
          refine forall_reserve before ?_ replaced t
          refine ⟨fun on => ?_, metered.nanos, metered.carried⟩
          simp only [Reserve.budgetStopped, Bool.and_eq_true] at on
          exact metered.armed on.2
      | switchIn =>
          refine forall_reserve before ?_ replaced t
          refine ⟨fun on => ?_, metered.nanos, metered.carried⟩
          simp only [Reserve.switchedIn, Bool.or_eq_true] at on
          exact on.elim id metered.armed
      | setPolicy => exact forall_reserve before metered replaced t
  | forked _ => exact forall_reserve before (.of_unreserved rfl rfl) rfl t
  | reaped _ => exact before t
  | monitored other monitors =>
      rw [countTicks_other other, monitors]
      exact before t

/-- The system, with the ticks counted beside it. -/
def tickedStep : System × (Tid → ℕ) → SystemOp → Except Fault (System × (Tid → ℕ)) :=
  observe systemStep fun system op system' => countTicks system.kernel op system'.kernel

/-- A task that is reserved and switched in, and runs for two ticks. -/
def tickedTask : System × (Tid → ℕ) :=
  let first : System × (Tid → ℕ) := (⟨.bare, false, false⟩, fun _ => 0)
  let reserved := after tickedStep first (.core (reserveMillis 1 1 10 0))
  let running := after tickedStep reserved (.core (.switchIn 1))
  after tickedStep (after tickedStep running (.core (.cTimer 1))) (.core (.cTimer 1))

private theorem reaches_tickedTask {allowed : System × (Tid → ℕ) → SystemOp → Prop}
    (reserved : allowed (⟨.bare, false, false⟩, fun _ => 0) (.core (reserveMillis 1 1 10 0)))
    (switched : ∀ now, allowed now (.core (.switchIn 1)))
    (ticked : ∀ now, allowed now (.core (.cTimer 1))) :
    Reaches tickedStep allowed (fun now => Boot now.1.kernel) tickedTask := by
  have start : Reaches tickedStep allowed (fun now => Boot now.1.kernel)
      (⟨.bare, false, false⟩, fun _ => 0) := .start boot_bare
  have running := (start.after reserved (by decide)).after (switched _) (by decide)
  exact (running.after (ticked _) (by decide)).after (ticked _) (by decide)

/-- Two ticks are left over from a reservation that was cancelled, and the next
reservation is out of budget at its first tick. -/
theorem reaches_not_within :
    ∃ now, Reaches tickedStep (fun _ _ => True) (fun now => Boot now.1.kernel) now ∧
      (now.1.kernel.reserve 1).cTimer = true ∧ (now.1.kernel.reserve 1).C.Normalized ∧
      (now.1.kernel.reserve 1).outOfBudget = true ∧
      reserveIncrementNs * (now.2 1 + 1 : ℕ) ≤ (now.1.kernel.reserve 1).C.nanos := by
  let cancelled := after tickedStep tickedTask (.core (.cancelReserve .succeed 1))
  let reserved := after tickedStep cancelled (.core (reserveMillis 1 1 10 0))
  let running := after tickedStep reserved (.core (.switchIn 1))
  have reached : Reaches tickedStep (fun _ _ => True) (fun now => Boot now.1.kernel) running :=
    (((reaches_tickedTask trivial (fun _ => trivial) fun _ => trivial).after trivial
      (by decide)).after trivial (by decide)).after trivial (by decide)
  exact ⟨running, reached, by decide, ⟨by decide, by decide⟩, by decide, by decide⟩

/-- In every run in which reservations are created for tasks with a clean
accumulator only, the budget timer finds a task out of budget, suspends it and is
stopped if and only if the ticks of the task within the reservation and the period
exceed the budget. -/
theorem reaches_outOfBudget_iff {now : System × (Tid → ℕ)}
    (reached : Reaches tickedStep (fun now => CleanStart now.1.kernel)
      (fun now => Boot now.1.kernel) now)
    (fires : (now.1.kernel.reserve t).cTimer = true)
    (normalized : (now.1.kernel.reserve t).C.Normalized) :
    ((now.1.kernel.reserve t).outOfBudget = true ↔
      (now.1.kernel.reserve t).C.nanos < reserveIncrementNs * (now.2 t + 1 : ℕ)) ∧
      Suspends now.1.kernel t
        ((now.1.kernel.reserve t).C.nanos < reserveIncrementNs * (now.2 t + 1 : ℕ)) := by
  have metered : ∀ t, Metered (now.2 t) (now.1.kernel.reserve t) := by
    apply reached.observed
    · intro now boot t
      exact .of_unreserved (boot.reserve t).1 (boot.reserve t).2.2.1
    · intro now op target before clean taken
      exact (systemStep_kernel taken).metered before clean
  have test := Reserve.outOfBudget_iff ((metered t).counts ((metered t).armed fires)) normalized
  exact ⟨test, suspends_of_iff test⟩

/-- The third tick takes a task past a budget of a millisecond. -/
theorem reaches_outOfBudget_iff_ticked :
    ((tickedTask.1.kernel.reserve 1).outOfBudget = true ↔
      (tickedTask.1.kernel.reserve 1).C.nanos < reserveIncrementNs * (tickedTask.2 1 + 1 : ℕ)) ∧
      Suspends tickedTask.1.kernel 1 ((tickedTask.1.kernel.reserve 1).C.nanos <
        reserveIncrementNs * (tickedTask.2 1 + 1 : ℕ)) :=
  reaches_outOfBudget_iff
    (reaches_tickedTask (fun _ => rfl) (fun _ => trivial) fun _ => trivial) (by decide)
    ⟨by decide, by decide⟩

/-! ## Energy of runs -/

/-- What happened along a run: the ticks of the run each task is in, what
`__schedule` added to `total_energy`, and the ticks of the runs that ended, each
multiplied by the power at the switch that ended its run. -/
structure Ledger where
  pending : Tid → ℕ
  added : ℕ
  earned : ℤ

/-- What a step adds to `total_energy`, an unsigned counter of 32 bits. -/
def energyAdded (s s' : Kernel) : ℕ :=
  (((s'.totalEnergy : ℤ) - s.totalEnergy) % 4294967296).toNat

/-- Power of the CPU a task is bound to. -/
def powerInForce (s : Kernel) (t : Tid) : ℕ :=
  s.powerAt (s.cpuFreq (s.reserve t).cpu)

/-- A tick belongs to the run of one task, until that task is switched out.  A
forked task starts a run of its own. -/
def Ledger.record (s : Kernel) (op : SystemOp) (s' : Kernel) (ledger : Ledger) : Ledger :=
  match op with
  | .core (.cTimer t) =>
      { ledger with pending := Function.update ledger.pending t (ledger.pending t + 1) }
  | .core (.switchOut t) =>
      { pending := Function.update ledger.pending t 0
        added := ledger.added + energyAdded s s'
        earned := ledger.earned + reserveIncrementNs * ledger.pending t * powerInForce s t }
  | .fork _ child _ =>
      if !s.found child && s'.found child then
        { ledger with pending := Function.update ledger.pending child 0 }
      else
        ledger
  | _ => ledger

/-- An accumulator shows a number of ticks at most. -/
structure Covers (ticks : ℕ) (acc : Timespec) : Prop where
  seconds : 0 ≤ acc.tvSec
  carried : acc.Carried
  nanos : acc.nanos ≤ reserveIncrementNs * ticks

namespace Covers

variable {ticks : ℕ} {acc : Timespec}

theorem zero (ticks : ℕ) : Covers ticks ⟨0, 0⟩ where
  seconds := le_rfl
  carried := Timespec.carried_zero
  nanos := by
    unfold Timespec.nanos reserveIncrementNs
    dsimp only
    omega

theorem tick (covers : Covers ticks acc) : Covers (ticks + 1) acc.tick where
  seconds := Timespec.tick_seconds covers.seconds
  carried := covers.carried.tick
  nanos := by
    have := covers.nanos
    rw [Timespec.nanos_tick]
    push_cast
    linarith

/-- The energy of a run that ends is worth its ticks at most. -/
theorem runEnergy_le (covers : Covers ticks (s.reserve t).accSingleRun) :
    nsPerS * s.runEnergy t ≤ reserveIncrementNs * ticks * powerInForce s t := by
  obtain ⟨seconds, ⟨nonneg, _⟩, nanos⟩ := covers
  have unwrapped : s.runEnergy t ≤ powerInForce s t * (s.reserve t).accSingleRun.tvSec.toNat +
      powerInForce s t * ((s.reserve t).accSingleRun.tvNsec.tdiv 1000000).toNat / 1000 :=
    (Nat.mod_le _ _).trans (Nat.add_le_add (Nat.mod_le _ _)
      (Nat.div_le_div_right (Nat.mod_le _ _)))
  generalize (s.reserve t).accSingleRun = run at *
  generalize powerInForce s t = power at *
  obtain ⟨sec, isSec⟩ := Int.eq_ofNat_of_zero_le seconds
  obtain ⟨nsec, isNsec⟩ := Int.eq_ofNat_of_zero_le nonneg
  rw [Timespec.nanos, isSec, isNsec] at nanos
  rw [isSec, isNsec] at unwrapped
  have millis : ((nsec : ℤ).tdiv 1000000).toNat = nsec / 1000000 := by
    rw [Int.tdiv_eq_ediv_of_nonneg (Int.natCast_nonneg nsec)]
    omega
  rw [millis, Int.toNat_natCast] at unwrapped
  have whole : 1000000000 * s.runEnergy t ≤ (sec * 1000000000 + nsec) * power := by
    calc 1000000000 * s.runEnergy t
        ≤ 1000000000 * (power * sec + power * (nsec / 1000000) / 1000) :=
          Nat.mul_le_mul_left _ unwrapped
      _ ≤ 1000000000 * (power * sec) + 1000000 * (power * (nsec / 1000000)) := by omega
      _ = (sec * 1000000000 + 1000000 * (nsec / 1000000)) * power := by ring
      _ ≤ (sec * 1000000000 + nsec) * power := Nat.mul_le_mul_right _ (by omega)
  calc nsPerS * (s.runEnergy t : ℤ)
      ≤ ((sec : ℤ) * nsPerS + nsec) * power := by
        unfold nsPerS
        exact_mod_cast whole
    _ ≤ reserveIncrementNs * ticks * power := by gcongr

end Covers

/-- The accumulator of the run a tracked task is in shows the ticks of the run at
most. -/
def RunCovered (pending : ℕ) (reserve : Reserve) : Prop :=
  reserve.trackingEnergy = true → Covers pending reserve.accSingleRun

private theorem chargeRun_totalEnergy (s : Kernel) (t : Tid) :
    (s.chargeRun t).totalEnergy = if (s.reserve t).trackingEnergy then
      uint32 (s.totalEnergy + s.runEnergy t) else s.totalEnergy := by
  unfold Kernel.chargeRun
  split
  · rfl
  · rfl

theorem switchOut_totalEnergy (s : Kernel) (t : Tid) :
    (s.switchOut t).totalEnergy = if (s.reserve t).trackingEnergy then
      uint32 (s.totalEnergy + s.runEnergy t) else s.totalEnergy := by
  have stopped : (s.stopBudget t).reserve t = (s.reserve t).budgetStopped := by
    rw [stopBudget_reserve, Function.update_self]
  have same : (s.stopBudget t).totalEnergy = s.totalEnergy ∧
      (s.stopBudget t).runEnergy t = s.runEnergy t := by
    unfold Kernel.runEnergy Kernel.powerAt
    rw [stopped]
    unfold Kernel.stopBudget
    split
    · exact ⟨rfl, rfl⟩
    · exact ⟨rfl, rfl⟩
  calc (s.switchOut t).totalEnergy
      = ((s.stopBudget t).chargeRun t).totalEnergy := rfl
    _ = _ := by
        rw [chargeRun_totalEnergy, stopped, same.1, same.2]
        rfl

theorem energyAdded_switchOut (s : Kernel) (t : Tid) :
    energyAdded s (s.switchOut t) =
      if (s.reserve t).trackingEnergy then s.runEnergy t else 0 := by
  have less : s.runEnergy t < 4294967296 := Nat.mod_lt _ (by decide)
  unfold energyAdded
  rw [switchOut_totalEnergy]
  split
  · unfold uint32
    omega
  · simp

/-- The ticks cover the accumulators, and what was added. -/
structure Paid (s : Kernel) (ledger : Ledger) : Prop where
  runs : ∀ t, RunCovered (ledger.pending t) (s.reserve t)
  total : nsPerS * ledger.added ≤ ledger.earned

/-- No unfinished run of a tracked task is copied. -/
def FreshFork (s : Kernel) : SystemOp → Prop
  | .fork parent _ _ => (s.reserve parent).trackingEnergy = true →
      (s.reserve parent).accSingleRun = ⟨0, 0⟩
  | _ => True

namespace RunCovered

variable {pending : ℕ} {reserve own : Reserve}

/-- What leaves the accumulator alone, and does not begin to track. -/
theorem of_eq (covered : RunCovered pending reserve)
    (acc : own.accSingleRun = reserve.accSingleRun)
    (tracking : own.trackingEnergy = true → reserve.trackingEnergy = true) :
    RunCovered pending own := by
  intro tracked
  rw [acc]
  exact covered (tracking tracked)

theorem of_zero (acc : own.accSingleRun = ⟨0, 0⟩) : RunCovered pending own := by
  intro _
  rw [acc]
  exact .zero pending

theorem setOwn {srv : Services} {energyTracking : Bool} {budget period : Option Timespec}
    {retval : ℤ} (covered : RunCovered pending reserve)
    (result : SetOwn srv energyTracking budget period reserve retval own) :
    RunCovered pending own := by
  cases result with
  | refused _ _ => exact covered.of_eq rfl id
  | undone _ _ => exact covered.of_eq rfl id
  | failed _ _ _ _ _ => exact of_zero rfl
  | installed _ _ _ => exact of_zero rfl

theorem cancelOwn {srv : Services} {found : Bool} {retval : ℤ}
    (covered : RunCovered pending reserve) (result : CancelOwn srv found reserve retval own) :
    RunCovered pending own := by
  cases result with
  | missing _ => exact covered
  | refused _ _ _ => exact covered.of_eq rfl id
  | idle _ _ tracking => exact covered.of_eq rfl tracking
  | released _ _ _ tracking => exact covered.of_eq rfl tracking

theorem exitOwn (covered : RunCovered pending reserve) (result : ExitOwn reserve own) :
    RunCovered pending own := by
  cases result with
  | idle _ => exact covered
  | released _ tracking => exact covered.of_eq rfl tracking

end RunCovered

/-- A switch charges the energy of the run that ends, which its ticks cover. -/
theorem Paid.switchOut {ledger : Ledger} (paid : Paid s ledger) (t : Tid) :
    nsPerS * (ledger.added + energyAdded s (s.switchOut t) : ℕ) ≤
      ledger.earned + reserveIncrementNs * ledger.pending t * powerInForce s t := by
  have run : nsPerS * energyAdded s (s.switchOut t) ≤
      reserveIncrementNs * ledger.pending t * powerInForce s t := by
    rw [energyAdded_switchOut]
    split
    · rename_i tracked
      exact (paid.runs t tracked).runEnergy_le
    · unfold reserveIncrementNs
      positivity
  push_cast
  rw [mul_add]
  exact add_le_add paid.total run

private theorem record_other {ledger : Ledger} (other : ∀ op', op ≠ .core op')
    (monitors : Monitors s s') :
    ledger.record s op s' = ledger := by
  cases op with
  | core op => exact absurd rfl (other op)
  | fork parent child leader =>
      rw [monitors]
      simp [Ledger.record]
  | _ => rfl

/-- Every step keeps the ledger paid. -/
theorem KernelEffect.paid {ledger : Ledger} (effect : KernelEffect s op s')
    (before : Paid s ledger) (fresh : FreshFork s op) :
    Paid s' (ledger.record s op s') := by
  cases effect with
  | @core op _ taken =>
      obtain ⟨named, own, result, replaced⟩ := step_own taken
      have covered := before.runs named
      cases result with
      | setReserve result =>
          exact ⟨forall_reserve before.runs (covered.setOwn result) replaced, before.total⟩
      | cancelReserve result =>
          exact ⟨forall_reserve before.runs (covered.cancelOwn result) replaced, before.total⟩
      | doExit result =>
          exact ⟨forall_reserve before.runs (covered.exitOwn result) replaced, before.total⟩
      | endJob =>
          refine ⟨forall_reserve before.runs ?_ replaced, before.total⟩
          exact covered.of_eq rfl id
      | cTimer =>
          refine ⟨forall_counted before.runs ?_ replaced, before.total⟩
          exact fun tracked => (covered tracked).tick
      | pTimer tracking =>
          refine ⟨forall_reserve before.runs ?_ replaced, before.total⟩
          exact covered.of_eq rfl tracking
      | switchOut =>
          cases taken
          exact ⟨forall_counted before.runs (.of_zero rfl) replaced, before.switchOut named⟩
      | switchIn =>
          refine ⟨forall_reserve before.runs ?_ replaced, before.total⟩
          exact covered.of_eq rfl id
      | setPolicy =>
          exact ⟨forall_reserve before.runs covered replaced, before.total⟩
  | @forked parent child leader free =>
      have happens : (!s.found child && (s.fork parent child leader).found child) = true := by
        simp [free, Kernel.fork]
      rw [Ledger.record, if_pos happens]
      refine ⟨forall_counted before.runs ?_ rfl, before.total⟩
      intro tracked
      rw [show _ = (s.reserve parent).accSingleRun from rfl, fresh tracked]
      exact .zero 0
  | reaped _ => exact ⟨before.runs, before.total⟩
  | monitored other monitors =>
      rw [record_other other monitors]
      refine ⟨?_, before.total⟩
      rw [monitors]
      exact before.runs

/-- The system, with the ledger kept beside it. -/
def ledgerStep : System × Ledger → SystemOp → Except Fault (System × Ledger) :=
  observe systemStep fun system op system' => Ledger.record system.kernel op system'.kernel

/-- Nothing is tracked and nothing was charged yet. -/
structure Opening (now : System × Ledger) : Prop where
  boot : Boot now.1.kernel
  untracked : ∀ t, (now.1.kernel.reserve t).trackingEnergy = false
  ledger : now.2 = ⟨fun _ => 0, 0, 0⟩

/-- One task, on a system that tracks energy and runs at the highest frequency. -/
def trackedBoot : System × Ledger :=
  (⟨{ Kernel.bare with
      found := fun t => t == 1
      energyTracking := true
      cpuFreq := fun _ => 1300
      freqToPower := fun _ => 726703 }, false, false⟩, ⟨fun _ => 0, 0, 0⟩)

private theorem opening_trackedBoot : Opening trackedBoot :=
  ⟨⟨boot_bare.table, boot_bare.reserve, rfl⟩, fun _ => rfl, rfl⟩

/-- The task is reserved and runs for three ticks. -/
def trackedRun : System × Ledger :=
  let reserved := after ledgerStep trackedBoot (.core (reserveMillis 1 2 10 0))
  let running := after ledgerStep reserved (.core (.switchIn 1))
  after ledgerStep (after ledgerStep (after ledgerStep running (.core (.cTimer 1)))
    (.core (.cTimer 1))) (.core (.cTimer 1))

private theorem reaches_trackedRun {allowed : System × Ledger → SystemOp → Prop}
    (core : ∀ now op, allowed now (.core op)) : Reaches ledgerStep allowed Opening trackedRun := by
  have start : Reaches ledgerStep allowed Opening trackedBoot := .start opening_trackedBoot
  have reserved := start.after (core _ (reserveMillis 1 2 10 0)) (by decide)
  have running := reserved.after (core _ (.switchIn 1)) (by decide)
  have ticked := (running.after (core _ (.cTimer 1)) (by decide)).after (core _ (.cTimer 1))
    (by decide)
  exact ticked.after (core _ (.cTimer 1)) (by decide)

/-- A task that forks within its run: both are charged for the ticks before the
fork. -/
theorem reaches_not_added_le :
    ∃ now, Reaches ledgerStep (fun _ _ => True) Opening now ∧
      now.2.earned < nsPerS * now.2.added := by
  let forked := after ledgerStep trackedRun (.fork 1 2 true)
  let switched := after ledgerStep (after ledgerStep forked (.core (.switchOut 1)))
    (.core (.switchOut 2))
  have reached : Reaches ledgerStep (fun _ _ => True) Opening switched :=
    (((reaches_trackedRun fun _ _ => trivial).after trivial (by decide)).after trivial
      (by decide)).after trivial (by decide)
  exact ⟨switched, reached, by decide⟩

/-- In every run in which no task forks within a run it is tracked in, what
`__schedule` adds to `total_energy` is never more than what the ticks of the
ended runs are worth. -/
theorem reaches_added_le {now : System × Ledger}
    (reached : Reaches ledgerStep (fun now => FreshFork now.1.kernel) Opening now) :
    nsPerS * now.2.added ≤ now.2.earned := by
  have paid : Paid now.1.kernel now.2 := by
    apply reached.observed
    · intro now opening
      refine ⟨fun t tracked => ?_, ?_⟩
      · simp [opening.untracked t] at tracked
      · rw [opening.ledger]
        exact le_rfl
    · intro now op target before fresh taken
      exact (systemStep_kernel taken).paid before fresh
  exact paid.total

/-- The task is switched out after three ticks. -/
theorem reaches_added_le_switched :
    nsPerS * (after ledgerStep trackedRun (.core (.switchOut 1))).2.added ≤
      (after ledgerStep trackedRun (.core (.switchOut 1))).2.earned :=
  reaches_added_le ((reaches_trackedRun fun _ _ => trivial).after trivial (by decide))

end Rtes.Reservation
