import Rtes.Reservation.Monitor
import Rtes.Taskmon.Ledger

/-!
# The clock of the monitor

`taskmon_acc_time` is what the periods of a task are stamped with.  It starts
again whenever the monitor is enabled, but the callbacks counted towards its next
unit, which is ten of them, are those of the module, which no store resets.  A session is what
happened since the monitor was last enabled: the callbacks of its timer, and the
stamps that were recorded for each task.
-/

namespace Rtes.Taskmon

open Rtes.Reservation Rtes.Transition

variable {s s' : Kernel} {st st' : Station} {t : Tid}

/-! ## Sessions -/

/-- The stamp that was recorded last. -/
def latestStamp (ring : Ring) : ℕ :=
  ring.periods ring.last.toNat

/-- A period that ends while the monitor is enabled is stamped by the clock. -/
theorem pTimerCallback_latestStamp {freq : Cpu → ℕ} (enabled : s.taskmonEnabled = true)
    (returns : s.pTimerCallback freq t = .ok s') :
    latestStamp (s'.reserve t).ring = s.taskmonAccTime := by
  obtain ⟨recorded, records, result⟩ := bind_eq_ok_iff.mp returns
  cases result
  rw [resumeTask_reserve, Function.update_self]
  change latestStamp (Kernel.reserve (Kernel.dropStaleEnergyFile _ t) t).ring = _
  rw [dropStaleEnergyFile_ring, Kernel.modify_reserve, Function.update_self]
  unfold Kernel.recordPeriod at records
  rw [if_pos enabled] at records
  split_ifs at records
  cases records
  rw [Kernel.modify_reserve, Function.update_self]
  exact Function.update_self _ _ _

/-- The callbacks and the stamps since the monitor was last enabled. -/
structure Session where
  ticks : ℕ
  stamps : Tid → List ℕ

def Session.update (st : Station) (op : StationOp) (st' : Station) (session : Session) :
    Session :=
  match op with
  | .enabledStore _ =>
      if st.system.taskmonLoaded && st'.enabled ≠ 0 then ⟨0, fun _ => []⟩ else session
  | .taskmonTimer =>
      if st.taskmonTimer then { session with ticks := session.ticks + 1 } else session
  | .core (.pTimer _ t) =>
      if st.system.kernel.taskmonEnabled then
        let stamp := latestStamp (st'.system.kernel.reserve t).ring
        { session with stamps := Function.update session.stamps t (session.stamps t ++ [stamp]) }
      else
        session
  | _ => session

def sessionStep : Station × Session → StationOp → Except Fault (Station × Session) :=
  observe stationStep Session.update

/-- The session is not so long that its clock exceeds 64 bits. -/
def Brief (now : Station × Session) (op : StationOp) : Prop :=
  op = .taskmonTimer → now.2.ticks + 10 < 184467440737095516160

/-- The monitor was never loaded. -/
structure Unmonitored (now : Station × Session) : Prop where
  unloaded : now.1.system.taskmonLoaded = false
  taskmonEnabled : now.1.system.kernel.taskmonEnabled = false
  taskmonAccTime : now.1.system.kernel.taskmonAccTime = 0
  energyTracking : now.1.system.kernel.energyTracking = decide (now.1.energyTracking ≠ 0)
  enabled : now.1.enabled = 0
  taskmonTimer : now.1.taskmonTimer = false
  count : now.1.count < 10
  session : now.2 = ⟨0, fun _ => []⟩

/-! ## What holds of them -/

/-- The integers behind the files, the timer and what the kernel goes by say the
same. -/
structure Agrees (st : Station) : Prop where
  taskmonTimer : st.taskmonTimer = decide (st.enabled ≠ 0)
  taskmonEnabled : st.system.kernel.taskmonEnabled = decide (st.enabled ≠ 0)
  energyTracking : st.system.kernel.energyTracking = decide (st.energyTracking ≠ 0)
  unloaded : st.system.taskmonLoaded = false → st.enabled = 0

/-- The clock shows the callbacks of the session, ten to a unit, after a
start that is at most nine callbacks ahead. -/
def Shows (st : Station) (ticks : ℕ) : Prop :=
  ∃ ahead < 10, st.system.kernel.taskmonAccTime = (ticks + ahead) / 10 ∧
    (st.enabled ≠ 0 → st.count = (ticks + ahead) % 10)

/-- The stamps of a task are in order, and none is ahead of the clock. -/
def Ordered (clock : ℕ) (stamps : List ℕ) : Prop :=
  stamps.Pairwise (· ≤ ·) ∧ ∀ stamp ∈ stamps, stamp ≤ clock

namespace Ordered

variable {clock clock' : ℕ} {stamps : List ℕ}

theorem nil (clock : ℕ) : Ordered clock [] :=
  ⟨.nil, fun _ member => absurd member List.not_mem_nil⟩

theorem mono (ordered : Ordered clock stamps) (later : clock ≤ clock') : Ordered clock' stamps :=
  ⟨ordered.1, fun stamp member => (ordered.2 stamp member).trans later⟩

theorem push (ordered : Ordered clock stamps) : Ordered clock (stamps ++ [clock]) := by
  constructor
  · rw [List.pairwise_append]
    refine ⟨ordered.1, List.pairwise_singleton _ _, ?_⟩
    intro stamp member last isLast
    rw [List.mem_singleton.mp isLast]
    exact ordered.2 stamp member
  · intro stamp member
    rcases List.mem_append.mp member with earlier | isLast
    · exact ordered.2 stamp earlier
    · exact (List.mem_singleton.mp isLast).le

end Ordered

/-- A station in its session. -/
structure Ticking (now : Station × Session) : Prop where
  agrees : Agrees now.1
  count : now.1.count < 10
  shows : Shows now.1 now.2.ticks
  ordered : ∀ t, Ordered now.1.system.kernel.taskmonAccTime (now.2.stamps t)

/-! ## Steps -/

/-- Nothing that the clock depends on changes. -/
structure Quiet (st st' : Station) : Prop where
  gauges : Gauges st.system.kernel st'.system.kernel
  enabled : st'.enabled = st.enabled
  energyTracking : st'.energyTracking = st.energyTracking
  taskmonTimer : st'.taskmonTimer = st.taskmonTimer
  count : st'.count = st.count
  taskmonLoaded : st'.system.taskmonLoaded = st.system.taskmonLoaded

theorem Quiet.refl (st : Station) : Quiet st st :=
  ⟨⟨rfl, rfl, rfl⟩, rfl, rfl, rfl, rfl, rfl⟩

theorem Agrees.quiet (agrees : Agrees st) (quiet : Quiet st st') : Agrees st' where
  taskmonTimer := by rw [quiet.taskmonTimer, quiet.enabled, agrees.taskmonTimer]
  taskmonEnabled := by rw [quiet.gauges.taskmonEnabled, quiet.enabled, agrees.taskmonEnabled]
  energyTracking := by
    rw [quiet.gauges.energyTracking, quiet.energyTracking, agrees.energyTracking]
  unloaded absent := by
    rw [quiet.enabled]
    exact agrees.unloaded (quiet.taskmonLoaded ▸ absent)

theorem Ticking.quiet {session : Session} (ticking : Ticking (st, session))
    (quiet : Quiet st st') : Ticking (st', session) where
  agrees := ticking.agrees.quiet quiet
  count := quiet.count ▸ ticking.count
  shows := by
    unfold Shows
    rw [quiet.gauges.taskmonAccTime, quiet.enabled, quiet.count]
    exact ticking.shows
  ordered t := by
    rw [quiet.gauges.taskmonAccTime]
    exact ticking.ordered t

/-- A fork or a reap is none of the monitor's business. -/
theorem systemStep_quiet {system : System} {op : SystemOp}
    (taken : systemStep st.system op = .ok system)
    (other : (∃ parent child leader, op = .fork parent child leader) ∨ ∃ t, op = .reap t) :
    Quiet st { st with system := system } := by
  rcases other with ⟨parent, child, leader, rfl⟩ | ⟨t, rfl⟩
  · cases systemStep_effect taken with
    | idle => exact .refl st
    | forked => exact ⟨⟨rfl, rfl, rfl⟩, rfl, rfl, rfl, rfl, rfl⟩
  · cases systemStep_effect taken with
    | idle => exact .refl st
    | reaped => exact ⟨⟨rfl, rfl, rfl⟩, rfl, rfl, rfl, rfl, rfl⟩

private theorem partitionPolicyStore_quiet (st : Station) (buf : List Char) :
    Quiet st (st.partitionPolicyStore buf).2 := by
  unfold Station.partitionPolicyStore
  split
  · exact .refl st
  · split
    · exact ⟨⟨rfl, rfl, rfl⟩, rfl, rfl, rfl, rfl, rfl⟩
    · exact .refl st

private theorem onFile_quiet {store : ℤ × Station} (quiet : Quiet st store.2) :
    Quiet st (onFile st store) := by
  unfold onFile
  split
  · exact quiet
  · exact .refl st

private theorem taskmonInit_gauges (srv : TaskmonServices) (s : Kernel)
    (disabled : s.taskmonEnabled = false) : Gauges s (s.taskmonInit srv).2 := by
  unfold Kernel.taskmonInit
  dsimp only
  split_ifs
  · exact ⟨rfl, rfl, rfl⟩
  · exact ⟨rfl, rfl, rfl⟩
  · exact ⟨rfl, rfl, rfl⟩
  · split
    · exact ⟨rfl, rfl, rfl⟩
    · exact ⟨disabled.symm, rfl, rfl⟩

/-- A period that ends is recorded in the session. -/
theorem Ticking.pTimer {session : Session} (ticking : Ticking (st, session)) {freq : Cpu → ℕ}
    (quiet : Quiet st st')
    (taken : st.system.kernel.pTimerCallback freq t = .ok st'.system.kernel) :
    Ticking (st', session.update st (.core (.pTimer freq t)) st') := by
  have kept := ticking.quiet quiet
  rw [Session.update]
  split
  · rename_i enabled
    refine ⟨kept.agrees, kept.count, kept.shows, ?_⟩
    intro other
    dsimp only
    rcases eq_or_ne other t with rfl | different
    · rw [Function.update_self, pTimerCallback_latestStamp enabled taken,
        ← quiet.gauges.taskmonAccTime]
      exact (kept.ordered other).push
    · rw [Function.update_of_ne different]
      exact kept.ordered other
  · exact kept

/-- The callback counts, and at the tenth the clock goes on. -/
theorem Ticking.timer {session : Session} (ticking : Ticking (st, session))
    (queued : st.taskmonTimer = true) (brief : session.ticks + 10 < 184467440737095516160) :
    Ticking (st.taskmonTimerCallback, { session with ticks := session.ticks + 1 }) := by
  obtain ⟨ahead, few, clock, count⟩ := ticking.shows
  have enabled : st.enabled ≠ 0 := by
    have agrees := ticking.agrees.taskmonTimer
    rw [queued] at agrees
    exact of_decide_eq_true agrees.symm
  have count := count enabled
  have bound := ticking.count
  dsimp only at clock count bound
  have agrees := ticking.agrees
  unfold Station.taskmonTimerCallback
  split
  · have clock' : (st.system.kernel.taskmonAccTime + 1) % 18446744073709551616 =
        st.system.kernel.taskmonAccTime + 1 := Nat.mod_eq_of_lt (by omega)
    rw [clock']
    refine ⟨⟨agrees.1, agrees.2, agrees.3, agrees.4⟩, by dsimp only; omega,
      ⟨ahead, few, ?_, fun _ => ?_⟩, ?_⟩
    · dsimp only [Station.withKernel]
      omega
    · dsimp only
      omega
    · intro t
      exact (ticking.ordered t).mono (Nat.le_succ _)
  · refine ⟨⟨agrees.1, agrees.2, agrees.3, agrees.4⟩, by dsimp only; omega,
      ⟨ahead, few, ?_, fun _ => ?_⟩, ticking.ordered⟩
    · dsimp only
      omega
    · dsimp only
      omega

/-- Enabling the monitor begins a session. -/
theorem Ticking.enabledStore {session : Session} (ticking : Ticking (st, session))
    (loaded : st.system.taskmonLoaded = true) (buf : List Char) :
    Ticking ((st.enabledStore buf).2,
      session.update st (.enabledStore buf) (st.enabledStore buf).2) := by
  have agrees : Agrees (st.enabledStore buf).2 :=
    ⟨rfl, rfl, ticking.agrees.energyTracking,
      fun absent => absurd (loaded.symm.trans absent) Bool.noConfusion⟩
  rw [Session.update]
  split
  · rename_i begins
    have enabled : (st.enabledStore buf).2.enabled ≠ 0 := by
      simpa [loaded] using begins
    have clock : (st.enabledStore buf).2.system.kernel.taskmonAccTime = 0 := by
      change (if decide ((st.enabledStore buf).2.enabled ≠ 0) = true then 0 else _) = 0
      exact if_pos (decide_eq_true enabled)
    refine ⟨agrees, ticking.count, ⟨st.count, ticking.count, ?_, fun _ => ?_⟩, fun _ => .nil _⟩
    · rw [clock, Nat.zero_add, Nat.div_eq_of_lt ticking.count]
    · rw [Nat.zero_add, Nat.mod_eq_of_lt ticking.count]
      rfl
  · rename_i ends
    have disabled : (st.enabledStore buf).2.enabled = 0 := by
      simpa [loaded] using ends
    have clock : (st.enabledStore buf).2.system.kernel.taskmonAccTime =
        st.system.kernel.taskmonAccTime := by
      change (if decide ((st.enabledStore buf).2.enabled ≠ 0) = true then 0 else _) = _
      rw [disabled]
      rfl
    obtain ⟨ahead, few, before, _⟩ := ticking.shows
    refine ⟨agrees, ticking.count, ⟨ahead, few, clock.trans before, ?_⟩, ?_⟩
    · intro enabled
      exact absurd disabled enabled
    · rw [clock]
      exact ticking.ordered

/-- A station whose monitor is off goes on in its session. -/
theorem Ticking.off {session : Session} (ticking : Ticking (st, session))
    (agrees : Agrees st') (disabled : st'.enabled = 0) (count : st'.count < 10)
    (clock : st'.system.kernel.taskmonAccTime = st.system.kernel.taskmonAccTime) :
    Ticking (st', session) := by
  obtain ⟨ahead, few, before, _⟩ := ticking.shows
  refine ⟨agrees, count, ⟨ahead, few, clock.trans before, ?_⟩, ?_⟩
  · intro enabled
    exact absurd disabled enabled
  · rw [clock]
    exact ticking.ordered

theorem Ticking.step {session : Session} {op : StationOp} (ticking : Ticking (st, session))
    (brief : Brief (st, session) op) (taken : stationStep st op = .ok st') :
    Ticking (st', session.update st op st') := by
  cases op with
  | core op =>
      obtain ⟨system, steps, result⟩ := bind_eq_ok_iff.mp taken
      cases result
      cases systemStep_effect steps with
      | idle other => exact absurd rfl (other op)
      | core stepped =>
          have quiet : Quiet st { st with system := { st.system with kernel := _ } } :=
            ⟨(step_gauges stepped).1, rfl, rfl, rfl, rfl, rfl⟩
          cases op with
          | pTimer freq t => exact ticking.pTimer quiet stepped
          | _ => exact ticking.quiet quiet
  | fork parent child leader =>
      obtain ⟨system, steps, result⟩ := bind_eq_ok_iff.mp taken
      cases result
      exact ticking.quiet (systemStep_quiet steps (.inl ⟨_, _, _, rfl⟩))
  | reap t =>
      obtain ⟨system, steps, result⟩ := bind_eq_ok_iff.mp taken
      cases result
      exact ticking.quiet (systemStep_quiet steps (.inr ⟨_, rfl⟩))
  | taskmonInit srv =>
      obtain ⟨system, steps, result⟩ := bind_eq_ok_iff.mp taken
      split at result
      · cases result
        exact ticking
      · rename_i absent
        cases result
        obtain ⟨absent, _⟩ :
            st.system.taskmonLoaded = false ∧ st.system.taskmonPartial = false := by
          simpa using absent
        have disabled : st.system.kernel.taskmonEnabled = false := by
          rw [ticking.agrees.taskmonEnabled, ticking.agrees.unloaded absent]
          rfl
        have gauges := taskmonInit_gauges srv st.system.kernel disabled
        cases systemStep_effect steps with
        | idle =>
            exact ticking.off ⟨rfl, disabled, ticking.agrees.energyTracking, fun _ => rfl⟩ rfl
              (Nat.succ_pos 9) rfl
        | loaded =>
            exact ticking.off ⟨rfl, gauges.taskmonEnabled.trans disabled,
              gauges.energyTracking.trans ticking.agrees.energyTracking, fun _ => rfl⟩ rfl
              (Nat.succ_pos 9) gauges.taskmonAccTime
  | taskmonExit =>
      obtain ⟨system, steps, result⟩ := bind_eq_ok_iff.mp taken
      split at result
      · rename_i loaded
        rw [systemStep, if_pos loaded] at steps
        split at steps
        · cases steps
        · cases steps
          cases result
          exact ticking.off ⟨rfl, rfl, ticking.agrees.energyTracking, fun _ => rfl⟩ rfl
            ticking.count rfl
      · cases result
        exact ticking
  | enabledStore buf =>
      cases taken
      unfold onFile
      split
      · rename_i loaded
        exact ticking.enabledStore loaded buf
      · rename_i absent
        rw [Session.update, if_neg (by simp [absent])]
        exact ticking
  | energyTrackingStore buf =>
      cases taken
      unfold onFile
      split
      · have agrees := ticking.agrees
        exact ⟨⟨agrees.1, agrees.2, rfl, agrees.4⟩, ticking.count, ticking.shows, ticking.ordered⟩
      · exact ticking
  | totalEnergyStore buf =>
      cases taken
      exact ticking.quiet (onFile_quiet ⟨⟨rfl, rfl, rfl⟩, rfl, rfl, rfl, rfl, rfl⟩)
  | partitionPolicyStore buf =>
      cases taken
      exact ticking.quiet (onFile_quiet (partitionPolicyStore_quiet st buf))
  | taskmonTimer =>
      cases taken
      rw [Session.update]
      split
      · rename_i queued
        exact ticking.timer queued (brief rfl)
      · exact ticking

/-! ## Runs -/

/-- Over every run of the station, the timer of the module runs exactly while the
monitor is enabled; the clock shows the callbacks since it was last enabled, ten
to a unit, ahead by less than one; and the stamps that were recorded since
then for a task are in order and not ahead of the clock. -/
theorem reaches_ticking {now : Station × Session}
    (reached : Reaches sessionStep Brief Unmonitored now) : Ticking now := by
  apply reached.observed
  · rintro ⟨st, session⟩ off
    cases off.session
    refine ⟨⟨?_, ?_, off.energyTracking, fun _ => off.enabled⟩, off.count,
      ⟨0, Nat.succ_pos 9, off.taskmonAccTime.trans (Nat.zero_div 10).symm, ?_⟩, fun _ => .nil _⟩
    · rw [off.taskmonTimer, off.enabled]
      rfl
    · rw [off.taskmonEnabled, off.enabled]
      rfl
    · intro enabled
      exact absurd off.enabled enabled
  · rintro ⟨st, session⟩ op st' ticking brief taken
    exact ticking.step brief taken

/-- A system without the monitor. -/
def bareStation : Station :=
  ⟨⟨Kernel.bare, false, false⟩, 0, 0, false, 0⟩

/-- The monitor is loaded and enabled, a task is reserved, and its first period
ends after a callback. -/
def stampedStation : Station × Session :=
  let loaded := after sessionStep (bareStation, ⟨0, fun _ => []⟩)
    (.taskmonInit ⟨true, true, true, true, true, []⟩)
  let enabled := after sessionStep loaded (.enabledStore ['1'])
  let reserved := after sessionStep enabled (.core (reserveMillis 1 5 10 0))
  let ticked := after sessionStep reserved .taskmonTimer
  after sessionStep ticked (.core (.pTimer (fun _ => 0) 1))

theorem reaches_ticking_stamped :
    stampedStation.2.stamps 1 = [0] ∧ stampedStation.1.count = 1 ∧ Ticking stampedStation := by
  have reached : Reaches sessionStep Brief Unmonitored stampedStation := by
    apply Reaches.after
    · apply Reaches.after
      · apply Reaches.after
        · apply Reaches.after
          · apply Reaches.after
            · exact .start ⟨rfl, rfl, rfl, rfl, rfl, rfl, Nat.succ_pos 9, rfl⟩
            · exact nofun
            · decide
          · exact nofun
          · decide
        · exact nofun
        · decide
      · exact fun _ => by decide
      · decide
    · exact nofun
    · decide
  exact ⟨by decide, by decide, reaches_ticking reached⟩

end Rtes.Taskmon
