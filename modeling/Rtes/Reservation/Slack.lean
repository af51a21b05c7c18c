import Rtes.Reservation.Budget

/-!
# How much the budget timer gives away

The budget timer is started when its task is switched in, ticks after every interval
of 500000 nanoseconds that the task then runs, and charges 495000 for each.  An
interval that the task does not complete before it is switched out is not charged,
one that is under way when a period ends is charged to the next, and a task that is
on a CPU when it is reserved is not charged before it is switched in again.  So the
timer errs by a hundredth and by an interval for each piece in which the task runs.
-/

namespace Rtes.Reservation

open Rtes.Transition

variable {s s' : Kernel} {t : Tid} {C : Timespec}

/-! ## Running time -/

/-- A task within its present period: whether it is on a CPU, the time since the
budget timer was started or ticked last, the time that the task ran in the period
while the timer was running, what it had run of the interval that was under way when
the period began, the number of pieces, and whether it was found out of budget. -/
structure Stretch where
  running : Bool
  phase : ℕ
  ran : ℕ
  carried : ℕ
  pieces : ℕ
  out : Bool

namespace Stretch

variable (stretch : Stretch) (reserve : Reserve)

/-- The task runs, and the budget timer with it. -/
def timed : Bool :=
  stretch.running && reserve.cTimer

/-- The part of an interval that is not charged yet. -/
def rest : ℕ :=
  if stretch.timed reserve then stretch.phase else 0

/-- The piece that is under way, if there is one. -/
def current : ℕ :=
  if stretch.timed reserve then 1 else 0

/-- What an operation on the kernel does to the stretch of task `t`. -/
def follow (t : Tid) : Op → Stretch
  | .switchIn named =>
      if named = t then
        { stretch with running := true, phase := 0, pieces := stretch.pieces + 1 }
      else
        stretch
  | .switchOut named => if named = t then { stretch with running := false } else stretch
  | .pTimer _ named =>
      if named = t then
        { stretch with
          ran := 0
          carried := stretch.rest reserve
          pieces := stretch.current reserve
          out := false }
      else
        stretch
  | _ => stretch

end Stretch

/-- Some nanoseconds pass, or there is an operation on the kernel. -/
inductive ClockOp where
  | pass (length : ℕ)
  | core (op : Op)

/-- While the budget timer of task `t` is running, it fires after every interval.  A passage of time
in which it stops counts in full: the task goes on until it is scheduled. -/
def clockStep (t : Tid) (now : Kernel × Stretch) : ClockOp → Except Fault (Kernel × Stretch)
  | .pass length =>
      let (s, stretch) := now
      if stretch.timed (s.reserve t) then
        let (out, s) := fireBudget t ((stretch.phase + length) / reserveIntervalNs) (stretch.out, s)
        .ok (s, { stretch with
          phase := (stretch.phase + length) % reserveIntervalNs
          ran := stretch.ran + length
          out := out })
      else
        .ok (s, stretch)
  | .core op => do
      let s ← step now.1 op
      .ok (s, now.2.follow (now.1.reserve t) t op)

/-- The reservation of task `t` lasts, and its budget timer fires in the course of
time only. -/
def Lasting (t : Tid) : ClockOp → Prop
  | .core (.setReserve _ tid _ _ _) => tid ≠ t
  | .core (.cancelReserve _ tid) => tid ≠ t
  | .core (.doExit _ tid) => tid ≠ t
  | .core (.cTimer tid) => tid ≠ t
  | _ => True

/-- A task whose reservation begins, on a CPU or not. -/
structure Fresh (t : Tid) (C : Timespec) (now : Kernel × Stretch) : Prop where
  flag : (now.1.reserve t).flag = true
  budget : (now.1.reserve t).C = C
  acc : (now.1.reserve t).acc = ⟨0, 0⟩
  stopped : (now.1.reserve t).cTimer = false
  ran : now.2.ran = 0
  carried : now.2.carried = 0
  out : now.2.out = false

/-! ## What the timer has seen -/

/-- The ticks of the present period and the pieces that ended in it account for the
time that the task ran. -/
structure Accounts (t : Tid) (C : Timespec) (ticks ended : ℕ) (now : Kernel × Stretch) :
    Prop where
  counted : Counted t C ticks (now.2.out, now.1)
  phase : now.2.rest (now.1.reserve t) < reserveIntervalNs
  carried : now.2.carried < reserveIntervalNs
  most : reserveIntervalNs * ticks + now.2.rest (now.1.reserve t) ≤ now.2.ran + now.2.carried
  least : now.2.out = false → now.2.ran + now.2.carried ≤
    reserveIntervalNs * ticks + now.2.rest (now.1.reserve t) + reserveIntervalNs * ended
  pieces : now.2.out = false → ended + now.2.current (now.1.reserve t) ≤ now.2.pieces
  asleep : now.2.out = true → (now.1.reserve t).suspend = true

/-- As long as the task is not out of budget, the timer goes on; once it is, the task
is marked as suspended. -/
theorem fireBudget_timer (n : ℕ) {out : Bool} (asleep : out = true → (s.reserve t).suspend = true) :
    ((fireBudget t n (out, s)).1 = false →
      out = false ∧ ((fireBudget t n (out, s)).2.reserve t).cTimer = (s.reserve t).cTimer) ∧
    ((fireBudget t n (out, s)).1 = true →
      ((fireBudget t n (out, s)).2.reserve t).suspend = true) := by
  induction n generalizing out s with
  | zero => exact ⟨fun within => ⟨within, rfl⟩, asleep⟩
  | succ n ih =>
      rw [fireBudget]
      split
      · rename_i on
        have own : (s.cTimerCallback t).reserve t = (s.reserve t).charged := by
          rw [cTimerCallback_reserve, Function.update_self]
        have still : (out || (s.reserve t).outOfBudget) = true →
            ((s.cTimerCallback t).reserve t).suspend = true := by
          rw [own, Reserve.charged, Bool.or_eq_true, Bool.or_eq_true]
          rintro (before | found)
          · exact .inr (asleep before)
          · exact .inl found
        obtain ⟨within, beyond⟩ := ih still
        refine ⟨fun result => ?_, beyond⟩
        obtain ⟨both, kept⟩ := within result
        obtain ⟨before, left⟩ := Bool.or_eq_false_iff.mp both
        refine ⟨before, kept.trans ?_⟩
        rw [own, Reserve.charged, left, Bool.not_false, Bool.true_and]
      · exact ⟨fun within => ⟨within, rfl⟩, asleep⟩

namespace Accounts

variable {ticks ended : ℕ} {stretch : Stretch}

/-- What an operation leaves of the member of the task is all that counts. -/
theorem of_reserve (accounts : Accounts t C ticks ended (s, stretch))
    (flag : (s'.reserve t).flag = (s.reserve t).flag) (budget : (s'.reserve t).C = (s.reserve t).C)
    (acc : (s'.reserve t).acc = (s.reserve t).acc)
    (cTimer : (s'.reserve t).cTimer = (s.reserve t).cTimer)
    (suspend : (s.reserve t).suspend = true → (s'.reserve t).suspend = true) :
    Accounts t C ticks ended (s', stretch) := by
  have timed : stretch.timed (s'.reserve t) = stretch.timed (s.reserve t) := by
    rw [Stretch.timed, Stretch.timed, cTimer]
  have rest : stretch.rest (s'.reserve t) = stretch.rest (s.reserve t) := by
    rw [Stretch.rest, Stretch.rest, timed]
  have current : stretch.current (s'.reserve t) = stretch.current (s.reserve t) := by
    rw [Stretch.current, Stretch.current, timed]
  obtain ⟨counted, phase, carried, most, least, pieces, asleep⟩ := accounts
  dsimp only at phase most least pieces
  rw [← rest] at phase most least
  rw [← current] at pieces
  exact ⟨counted.of_acc flag budget acc, phase, carried, most, least, pieces,
    fun isOut => suspend (asleep isOut)⟩

/-- The piece that is under way ends; what is left of its interval is lost. -/
theorem piece_ends (accounts : Accounts t C ticks ended (s, stretch)) {after : Stretch}
    (flag : (s'.reserve t).flag = (s.reserve t).flag) (budget : (s'.reserve t).C = (s.reserve t).C)
    (acc : (s'.reserve t).acc = (s.reserve t).acc)
    (suspend : (s.reserve t).suspend = true → (s'.reserve t).suspend = true)
    (ran : after.ran = stretch.ran) (carried : after.carried = stretch.carried)
    (out : after.out = stretch.out) (none : after.rest (s'.reserve t) = 0)
    (pieces : after.pieces = stretch.pieces + after.current (s'.reserve t)) :
    Accounts t C ticks (ended + stretch.current (s.reserve t)) (s', after) := by
  have positive : 0 < reserveIntervalNs := by decide
  have lost : stretch.rest (s.reserve t) ≤
      reserveIntervalNs * stretch.current (s.reserve t) := by
    have phase := accounts.phase
    unfold Stretch.rest Stretch.current at *
    split at phase
    · rename_i timed
      rw [if_pos timed, if_pos timed, Nat.mul_one]
      exact phase.le
    · rename_i idle
      rw [if_neg idle, if_neg idle]
      exact Nat.zero_le _
  constructor
  · rw [out]
    exact accounts.counted.of_acc flag budget acc
  · exact none.trans_lt positive
  · exact carried.trans_lt accounts.carried
  · have most := accounts.most
    dsimp only at most ⊢
    rw [none, ran, carried]
    omega
  · intro isWithin
    have least := accounts.least (out.symm.trans isWithin)
    dsimp only at least ⊢
    rw [none, ran, carried, Nat.mul_add]
    omega
  · intro isWithin
    have before := accounts.pieces (out.symm.trans isWithin)
    dsimp only at before ⊢
    rw [pieces]
    omega
  · intro isOut
    exact suspend (accounts.asleep (out.symm.trans isOut))

theorem switchIn (accounts : Accounts t C ticks ended (s, stretch)) :
    Accounts t C ticks (ended + stretch.current (s.reserve t))
      (s.switchIn t, stretch.follow (s.reserve t) t (.switchIn t)) := by
  have own : (s.switchIn t).reserve t = (s.reserve t).switchedIn := by
    rw [switchIn_reserve, Function.update_self]
  have flag : (s.reserve t).flag = true := accounts.counted.flag
  rw [Stretch.follow, if_pos rfl]
  apply accounts.piece_ends
  · rw [own, Reserve.switchedIn]
  · rw [own, Reserve.switchedIn]
  · rw [own, Reserve.switchedIn]
  · rw [own]
    exact id
  · rfl
  · rfl
  · rfl
  · exact ite_self 0
  · rw [own, Stretch.current, Stretch.timed, Reserve.switchedIn, flag]
    rfl

theorem switchOut (accounts : Accounts t C ticks ended (s, stretch)) :
    Accounts t C ticks (ended + stretch.current (s.reserve t))
      (s.switchOut t, stretch.follow (s.reserve t) t (.switchOut t)) := by
  obtain ⟨energy, replaced⟩ := switchOut_reserve s t
  rw [Stretch.follow, if_pos rfl]
  apply accounts.piece_ends
  · rw [replaced, Function.update_self, Reserve.budgetStopped]
  · rw [replaced, Function.update_self, Reserve.budgetStopped]
  · rw [replaced, Function.update_self, Reserve.budgetStopped]
  · rw [replaced, Function.update_self]
    exact id
  · rfl
  · rfl
  · rfl
  · rfl
  · rfl

/-- At the end of a period, the interval under way is carried over. -/
theorem pTimer (accounts : Accounts t C ticks ended (s, stretch)) {freq : Cpu → ℕ}
    (fires : s.pTimerCallback freq t = .ok s') :
    Accounts t C 0 0 (s', stretch.follow (s.reserve t) t (.pTimer freq t)) := by
  obtain ⟨files, enabled, _, replaced⟩ := pTimerCallback_reserve fires
  have own := congrFun replaced t
  rw [Function.update_self] at own
  have cTimer : (s'.reserve t).cTimer = (s.reserve t).cTimer := by
    rw [own]
    rfl
  rw [Stretch.follow, if_pos rfl]
  set after : Stretch := { stretch with
    ran := 0
    carried := stretch.rest (s.reserve t)
    pieces := stretch.current (s.reserve t)
    out := false } with isAfter
  have timed : after.timed (s'.reserve t) = stretch.timed (s.reserve t) := by
    rw [Stretch.timed, Stretch.timed, cTimer]
  have rest : after.rest (s'.reserve t) = stretch.rest (s.reserve t) := by
    rw [Stretch.rest, Stretch.rest, timed]
  have current : after.current (s'.reserve t) = stretch.current (s.reserve t) := by
    rw [Stretch.current, Stretch.current, timed]
  constructor
  · refine ⟨?_, ?_, Bool.noConfusion, fun _ => ?_⟩
    · exact (congrArg Reserve.flag own).trans accounts.counted.flag
    · exact (congrArg Reserve.C own).trans accounts.counted.budget
    · have acc : (s'.reserve t).acc = ⟨0, 0⟩ := congrArg Reserve.acc own
      rw [acc]
      exact ⟨rfl, Timespec.carried_zero, Nat.zero_le _⟩
  · exact rest.trans_lt accounts.phase
  · exact accounts.phase
  · exact (Nat.zero_add _).trans_le (rest.le.trans (Nat.zero_add _).ge)
  · intro _
    have carried : after.ran + after.carried = stretch.rest (s.reserve t) := Nat.zero_add _
    dsimp only
    rw [carried, rest]
    omega
  · intro _
    dsimp only
    rw [current]
    exact (Nat.zero_add _).le
  · exact Bool.noConfusion

/-- While time passes, the timer ticks for every interval that is completed. -/
theorem pass (normalized : C.Normalized) (nonneg : 0 ≤ C.tvSec)
    (accounts : Accounts t C ticks ended (s, stretch)) (timed : stretch.timed (s.reserve t) = true)
    (length : ℕ) :
    let fired := fireBudget t ((stretch.phase + length) / reserveIntervalNs) (stretch.out, s)
    Accounts t C (ticks + (stretch.phase + length) / reserveIntervalNs) ended (fired.2,
      { stretch with
        phase := (stretch.phase + length) % reserveIntervalNs
        ran := stretch.ran + length
        out := fired.1 }) := by
  intro fired
  obtain ⟨running, on⟩ := Bool.and_eq_true_iff.mp timed
  have positive : 0 < reserveIntervalNs := by decide
  have division := Nat.div_add_mod (stretch.phase + length) reserveIntervalNs
  have modulo := Nat.mod_lt (stretch.phase + length) positive
  have before : stretch.rest (s.reserve t) = stretch.phase := if_pos timed
  have piece : stretch.current (s.reserve t) = 1 := if_pos timed
  obtain ⟨within, beyond⟩ := fireBudget_timer ((stretch.phase + length) / reserveIntervalNs)
    (t := t) accounts.asleep
  set after : Stretch := { stretch with
    phase := (stretch.phase + length) % reserveIntervalNs
    ran := stretch.ran + length
    out := fired.1 } with isAfter
  have restLe : after.rest (fired.2.reserve t) ≤ (stretch.phase + length) % reserveIntervalNs := by
    unfold Stretch.rest
    split
    · exact le_rfl
    · exact Nat.zero_le _
  -- As long as the task is not out of budget, the timer is running still.
  have still : fired.1 = false → after.timed (fired.2.reserve t) = true := by
    intro isWithin
    rw [Stretch.timed, (within isWithin).2, on]
    exact Bool.and_eq_true_iff.mpr ⟨running, rfl⟩
  constructor
  · exact accounts.counted.fire normalized nonneg fun _ => on
  · exact restLe.trans_lt modulo
  · exact accounts.carried
  · have most := accounts.most
    dsimp only at most ⊢
    rw [before] at most
    rw [isAfter, Nat.mul_add]
    dsimp only
    rw [← isAfter]
    omega
  · intro isWithin
    have least := accounts.least (within isWithin).1
    have rest : after.rest (fired.2.reserve t) = (stretch.phase + length) % reserveIntervalNs :=
      if_pos (still isWithin)
    dsimp only at least ⊢
    rw [before] at least
    rw [rest, isAfter, Nat.mul_add]
    dsimp only
    omega
  · intro isWithin
    have same : after.current (fired.2.reserve t) = 1 := if_pos (still isWithin)
    have pieces := accounts.pieces (within isWithin).1
    dsimp only at pieces ⊢
    rw [same]
    rwa [piece] at pieces
  · exact beyond

theorem core {op : Op} (accounts : Accounts t C ticks ended (s, stretch))
    (lasting : Lasting t (.core op)) (taken : step s op = .ok s') :
    ∃ ticks ended, Accounts t C ticks ended (s', stretch.follow (s.reserve t) t op) := by
  obtain ⟨named, own, effect, replaced⟩ := step_own taken
  rcases eq_or_ne named t with rfl | different
  · have isOwn : s'.reserve named = own := by rw [replaced, Function.update_self]
    cases effect with
    | setReserve => exact absurd rfl lasting
    | cancelReserve => exact absurd rfl lasting
    | doExit => exact absurd rfl lasting
    | cTimer => exact absurd rfl lasting
    | endJob =>
        refine ⟨ticks, ended, accounts.of_reserve ?_ ?_ ?_ ?_ ?_⟩
        · rw [isOwn, Reserve.jobEnded]
        · rw [isOwn, Reserve.jobEnded]
        · rw [isOwn, Reserve.jobEnded]
        · rw [isOwn, Reserve.jobEnded]
        · rw [isOwn, Reserve.jobEnded, Bool.or_eq_true]
          exact .inr
    | pTimer => exact ⟨0, 0, accounts.pTimer taken⟩
    | switchOut =>
        cases taken
        exact ⟨_, _, accounts.switchOut⟩
    | switchIn =>
        cases taken
        exact ⟨_, _, accounts.switchIn⟩
    | setPolicy =>
        exact ⟨ticks, ended, accounts.of_reserve (by rw [isOwn]) (by rw [isOwn]) (by rw [isOwn])
          (by rw [isOwn]) (by rw [isOwn]; exact id)⟩
  · have same : s'.reserve t = s.reserve t := by
      rw [replaced, Function.update_of_ne different.symm]
    have follows : stretch.follow (s.reserve t) t op = stretch := by
      cases effect with
      | switchIn => exact if_neg different
      | switchOut => exact if_neg different
      | pTimer => exact if_neg different
      | _ => rfl
    rw [follows]
    exact ⟨ticks, ended, accounts.of_reserve (by rw [same]) (by rw [same]) (by rw [same])
      (by rw [same]) (by rw [same]; exact id)⟩

theorem step (normalized : C.Normalized) (nonneg : 0 ≤ C.tvSec) {now next : Kernel × Stretch}
    {op : ClockOp} (accounts : Accounts t C ticks ended now) (lasting : Lasting t op)
    (taken : clockStep t now op = .ok next) : ∃ ticks ended, Accounts t C ticks ended next := by
  obtain ⟨s, stretch⟩ := now
  cases op with
  | pass length =>
      rw [clockStep] at taken
      dsimp only at taken
      split at taken
      · rename_i timed
        cases taken
        exact ⟨_, _, accounts.pass normalized nonneg timed length⟩
      · cases taken
        exact ⟨_, _, accounts⟩
  | core op =>
      obtain ⟨s', steps, result⟩ := bind_eq_ok_iff.mp taken
      cases result
      exact accounts.core lasting steps

end Accounts

theorem Fresh.accounts {now : Kernel × Stretch} (fresh : Fresh t C now) :
    Accounts t C 0 0 now := by
  obtain ⟨flag, budget, acc, stopped, ran, carried, out⟩ := fresh
  have idle : now.2.timed (now.1.reserve t) = false := by
    rw [Stretch.timed, stopped, Bool.and_false]
  have rest : now.2.rest (now.1.reserve t) = 0 := if_neg (by simp [idle])
  have current : now.2.current (now.1.reserve t) = 0 := if_neg (by simp [idle])
  constructor
  · refine ⟨flag, budget, fun isOut => ?_, fun _ => ?_⟩
    · simp [out] at isOut
    · dsimp only
      rw [acc]
      exact ⟨rfl, Timespec.carried_zero, Nat.zero_le _⟩
  · rw [rest]
    decide
  · rw [carried]
    decide
  · rw [rest, ran, carried]
    exact Nat.zero_le _
  · intro _
    rw [rest, ran, carried]
    exact Nat.zero_le _
  · intro _
    rw [current]
    exact Nat.zero_le _
  · intro isOut
    simp [out] at isOut

/-! ## Every run -/

/-- What the timer has found out: nothing as long as the time the task ran in the
period, with what was carried over into it, is at most 100/99 of the budget; and that
it is out of budget, so that it is marked as suspended, once the time exceeds that by
an interval for each piece. -/
structure Bracketed (C : Timespec) (reserve : Reserve) (stretch : Stretch) : Prop where
  carried : stretch.carried < reserveIntervalNs
  within : 99 * ((stretch.ran + stretch.carried : ℕ) : ℤ) ≤ 100 * C.nanos → stretch.out = false
  beyond : 100 * C.nanos + 99 * (reserveIntervalNs * stretch.pieces : ℕ) <
    99 * ((stretch.ran + stretch.carried : ℕ) : ℤ) → stretch.out = true
  asleep : stretch.out = true → reserve.suspend = true

private theorem Accounts.bracketed (nonneg : 0 ≤ C.nanos) {ticks ended : ℕ} {now : Kernel × Stretch}
    (accounts : Accounts t C ticks ended now) : Bracketed C (now.1.reserve t) now.2 := by
  have covered := Int.emod_add_mul_ediv C.nanos reserveIncrementNs
  have rest := Int.emod_nonneg C.nanos (by decide : reserveIncrementNs ≠ 0)
  have less := Int.emod_lt_of_pos C.nanos (by decide : 0 < reserveIncrementNs)
  have budget : (budgetTicks C : ℤ) = C.nanos / reserveIncrementNs :=
    Int.toNat_of_nonneg (Int.ediv_nonneg nonneg (by decide))
  rw [← budget] at covered
  refine ⟨accounts.carried, ?_, ?_, accounts.asleep⟩
  · intro within
    by_contra isOut
    have ticks := accounts.counted.out (by simpa using isOut)
    have most := accounts.most
    unfold reserveIncrementNs reserveIntervalNs at *
    omega
  · intro beyond
    by_contra isWithin
    have isWithin : now.2.out = false := by simpa using isWithin
    have ticks := (accounts.counted.within isWithin).2.2
    have least := accounts.least isWithin
    have pieces := accounts.pieces isWithin
    have phase := accounts.phase
    have current : now.2.rest (now.1.reserve t) ≤
        reserveIntervalNs * now.2.current (now.1.reserve t) := by
      unfold Stretch.rest Stretch.current at *
      split
      · rename_i timed
        rw [if_pos timed] at phase
        exact phase.le
      · exact Nat.zero_le _
    unfold reserveIncrementNs reserveIntervalNs at *
    omega

/-- From the beginning of a reservation on, at every moment and whatever happens to the
task and to others: as long as it runs within its budget, the timer does not put it to
sleep, but for what was carried over from the period before; and what it can gain is a
hundredth of the budget and half a millisecond for each piece in which it runs. -/
theorem reaches_bracketed (normalized : C.Normalized) (nonneg : 0 ≤ C.tvSec)
    {now : Kernel × Stretch}
    (reached : Reaches (clockStep t) (fun _ => Lasting t) (Fresh t C) now) :
    Bracketed C (now.1.reserve t) now.2 := by
  have accounted : ∃ ticks ended, Accounts t C ticks ended now := by
    apply reached.invariant
    · intro now fresh
      exact ⟨0, 0, fresh.accounts⟩
    · rintro now op next ⟨ticks, ended, accounts⟩ lasting taken
      exact accounts.step normalized nonneg lasting taken
  obtain ⟨ticks, ended, accounts⟩ := accounted
  refine accounts.bracketed ?_
  have least := normalized.nonneg
  unfold Timespec.nanos nsPerS
  omega

/-- A task with a budget of a millisecond that reserves itself runs for five of them
uncharged, is switched in again, and is put to sleep after 1.01 milliseconds of the next
period, in which the first tick came early. -/
theorem reaches_bracketed_early : ∃ now : Kernel × Stretch,
    now.2.ran = 1010000 ∧ now.2.carried = 490000 ∧ now.2.out = true ∧
      Bracketed ⟨0, 1000000⟩ (now.1.reserve 1) now.2 := by
  let next := after (clockStep 1)
  let reserved : Kernel × Stretch := (millisecondTask, ⟨true, 0, 0, 0, 0, false⟩)
  let switched := next (next reserved (.pass 5000000)) (.core (.switchIn 1))
  let ended := next (next switched (.pass 490000)) (.core (.pTimer (fun _ => 0) 1))
  let now := next ended (.pass 1010000)
  have start : Reaches (clockStep 1) (fun _ => Lasting 1) (Fresh 1 ⟨0, 1000000⟩) reserved :=
    .start ⟨by decide, by decide, by decide, by decide, rfl, rfl, rfl⟩
  have passes : ∀ length, Lasting 1 (.pass length) := fun _ => trivial
  have switches : Lasting 1 (.core (.switchIn 1)) := trivial
  have ends : Lasting 1 (.core (.pTimer (fun _ => 0) 1)) := trivial
  have uncharged : Reaches (clockStep 1) (fun _ => Lasting 1) (Fresh 1 ⟨0, 1000000⟩) switched :=
    (start.after (passes 5000000) (by decide)).after switches (by decide)
  have reached : Reaches (clockStep 1) (fun _ => Lasting 1) (Fresh 1 ⟨0, 1000000⟩) now :=
    ((uncharged.after (passes 490000) (by decide)).after ends (by decide)).after
      (passes 1010000) (by decide)
  exact ⟨now, by decide, by decide, by decide,
    reaches_bracketed ⟨by decide, by decide⟩ (by decide) reached⟩

end Rtes.Reservation
