import Rtes.Reservation.Effect
import Rtes.Reservation.Runs

/-!
# The governor and the core that calls it

A CPU that is online has a policy with a governor.  The core switches governors
when the file `scaling_governor` is written, and removes and adds the policy of a
CPU that goes offline and comes back, which it remembers the governor for; a policy
that is new begins with the governor of another CPU.  The sysclock governor counts
the CPUs it was started for, and sets the frequencies when they are as many as are
online.
-/

namespace Rtes.Sysclock

open Rtes.Reservation Rtes.Transition Rtes.Word

/-! ## The governor -/

inductive Governor where
  | sysclock
  | other
  deriving DecidableEq, Repr

/-- `CPUFREQ_GOV_START`, `CPUFREQ_GOV_STOP` and `CPUFREQ_GOV_LIMITS` -/
inductive GovernorEvent where
  | start
  | stop
  | limits
  deriving DecidableEq, Repr

/-- The kernel, the governor of the policy of each CPU that has one, the governors
that are remembered for CPUs without, and the counter of the sysclock governor. -/
structure Cpufreq where
  kernel : Kernel
  policy : Cpu → Option Governor
  cpufreqCpuGovernor : Cpu → Option Governor
  cpusUsingSysclockGovernor : ℤ

/-- Outcomes of what the core depends on: whether the driver accepts a policy,
whether another governor starts, when it is new and when it is started again,
whether a policy can be set up for a CPU, and the current frequency. -/
structure CoreServices where
  verify : Bool
  starts : Bool
  restarts : Bool
  init : Bool
  cur : ℕ

namespace Cpufreq

/-- The kernel as `sysclock_set_frequency` sees it. -/
def seen (g : Cpufreq) : Kernel :=
  { g.kernel with sysclockGovernor := fun cpu => g.policy cpu = some .sysclock }

/-- Give a policy a governor. -/
def put (g : Cpufreq) (cpu : Cpu) (governor : Option Governor) : Cpufreq :=
  { g with policy := Function.update g.policy cpu governor }

@[simp]
theorem put_policy (g : Cpufreq) (cpu : Cpu) (governor : Option Governor) :
    (g.put cpu governor).policy = Function.update g.policy cpu governor :=
  rfl

/-- One more CPU uses the sysclock governor, at its present frequency. -/
def count (g : Cpufreq) (cpu : Cpu) (cur : ℕ) : Cpufreq :=
  { g with
    kernel := { g.kernel with cpuCurFreq := Function.update g.kernel.cpuCurFreq cpu cur }
    cpusUsingSysclockGovernor := g.cpusUsingSysclockGovernor + 1 }

end Cpufreq

/-- `cpufreq_governor_sysclock` -/
def cpufreqGovernorSysclock (g : Cpufreq) (cpu : Cpu) (cur : ℕ) :
    GovernorEvent → Except Fault (ℤ × Cpufreq)
  | .start =>
      if !g.kernel.cpuOnline cpu then
        .ok (-EINVAL, g)
      else
        let g := g.count cpu cur
        if g.cpusUsingSysclockGovernor = numOnlineCpus g.kernel then do
          let s ← sysclockSetFrequency g.seen
          .ok (0, { g with kernel := s })
        else
          .ok (0, g)
  | .stop => .ok (0, { g with cpusUsingSysclockGovernor := g.cpusUsingSysclockGovernor - 1 })
  | .limits => .ok (0, g)

/-! ## The core -/

/-- `__cpufreq_governor`: another governor may fail to start. -/
def cpufreqGovernor (g : Cpufreq) (cpu : Cpu) (cur : ℕ) (starts : Bool) (event : GovernorEvent) :
    Governor → Except Fault (ℤ × Cpufreq)
  | .sysclock => cpufreqGovernorSysclock g cpu cur event
  | .other => .ok (if event = .start ∧ starts = false then -EINVAL else 0, g)

/-- Stop the governor of a policy, if it has one. -/
def stopOld (g : Cpufreq) (cpu : Cpu) (cur : ℕ) : Except Fault Cpufreq :=
  match g.policy cpu with
  | none => .ok g
  | some old => do
      let (_, g) ← cpufreqGovernor g cpu cur true .stop old
      .ok g

/-- Start a governor that failed to be replaced again. -/
def restartOld (g : Cpufreq) (srv : CoreServices) (cpu : Cpu) :
    Option Governor → Except Fault (ℤ × Cpufreq)
  | none => .ok (-EINVAL, g)
  | some old => do
      let (_, g) ← cpufreqGovernor (g.put cpu (some old)) cpu srv.cur srv.restarts .start old
      .ok (-EINVAL, g)

/-- `__cpufreq_set_policy` -/
def cpufreqSetPolicy (g : Cpufreq) (srv : CoreServices) (cpu : Cpu) (governor : Governor) :
    Except Fault (ℤ × Cpufreq) :=
  if !srv.verify then
    .ok (-EINVAL, g)
  else if g.policy cpu = some governor then
    cpufreqGovernor g cpu srv.cur true .limits governor
  else do
    let stopped ← stopOld g cpu srv.cur
    let (failure, started) ←
      cpufreqGovernor (stopped.put cpu (some governor)) cpu srv.cur srv.starts .start governor
    if failure ≠ 0 then
      restartOld started srv cpu (g.policy cpu)
    else
      cpufreqGovernor started cpu srv.cur true .limits governor

/-- `store_scaling_governor`: the file is there for a CPU with a policy. -/
def storeScalingGovernor (g : Cpufreq) (srv : CoreServices) (cpu : Cpu) (governor : Governor) :
    Except Fault (ℤ × Cpufreq) :=
  if g.policy cpu = none then .ok (-EINVAL, g) else cpufreqSetPolicy g srv cpu governor

/-- The governor that a new policy begins with: that of the first CPU online that has
one, as all CPUs are related on this machine, and otherwise the standard one. -/
def Cpufreq.initialGovernor (standard : Governor) (g : Cpufreq) : Governor :=
  ((allCpus.filter fun sibling => g.kernel.cpuOnline sibling).findSome? g.policy).getD standard

/-- `cpufreq_add_dev`: the governor that is remembered for the CPU is restored.  A
policy that cannot be set is removed again. -/
def cpufreqAddDev (standard : Governor) (g : Cpufreq) (srv : CoreServices) (cpu : Cpu) :
    Except Fault Cpufreq :=
  if g.kernel.cpuOnline cpu = false ∨ g.policy cpu ≠ none ∨ srv.init = false then
    .ok g
  else do
    let governor := (g.cpufreqCpuGovernor cpu).getD (g.initialGovernor standard)
    let (failure, g) ← cpufreqSetPolicy g srv cpu governor
    .ok (if failure ≠ 0 then g.put cpu none else g)

/-- `__cpufreq_remove_dev`: the governor is remembered for the CPU. -/
def cpufreqRemoveDev (g : Cpufreq) (srv : CoreServices) (cpu : Cpu) : Except Fault Cpufreq :=
  match g.policy cpu with
  | none => .ok g
  | some governor => do
      let g := { g.put cpu none with
        cpufreqCpuGovernor := Function.update g.cpufreqCpuGovernor cpu (some governor) }
      let (_, g) ← cpufreqGovernor g cpu srv.cur true .stop governor
      .ok g

/-! ## Steps -/

/-- A governor is written for a CPU, or the CPU is brought up or taken down, which
may fail. -/
inductive GovernorOp where
  | storeScalingGovernor (srv : CoreServices) (cpu : Cpu) (governor : Governor)
  | cpuUp (srv : CoreServices) (cpu : Cpu) (succeeds : Bool)
  | cpuDown (srv : CoreServices) (cpu : Cpu) (succeeds : Bool)

def Cpufreq.setOnline (g : Cpufreq) (cpu : Cpu) (online : Bool) : Cpufreq :=
  { g with kernel := { g.kernel with
      cpuOnline := Function.update g.kernel.cpuOnline cpu online } }

/-- The core is notified before a CPU goes down, when that fails, and after a CPU
came up.  The last CPU stays online. -/
def governorStep (standard : Governor) (g : Cpufreq) : GovernorOp → Except Fault Cpufreq
  | .storeScalingGovernor srv cpu governor => do
      let (_, g) ← storeScalingGovernor g srv cpu governor
      .ok g
  | .cpuUp srv cpu succeeds =>
      if g.kernel.cpuOnline cpu || !succeeds then
        .ok g
      else
        cpufreqAddDev standard (g.setOnline cpu true) srv cpu
  | .cpuDown srv cpu succeeds =>
      if numOnlineCpus g.kernel = 1 ∨ g.kernel.cpuOnline cpu = false then
        .ok g
      else do
        let g ← cpufreqRemoveDev g srv cpu
        if succeeds then .ok (g.setOnline cpu false) else cpufreqAddDev standard g srv cpu

/-! ## The counter -/

variable {g g' : Cpufreq} {cpu : Cpu} {cur : ℕ} {governor : Governor} {failure : ℤ}
  {srv : CoreServices} {standard : Governor}

/-- What a policy adds to the counter. -/
def weight : Option Governor → ℤ
  | some .sysclock => 1
  | _ => 0

/-- The CPUs whose policies have the sysclock governor. -/
def tally (policy : Cpu → Option Governor) : ℤ :=
  ∑ cpu, weight (policy cpu)

private theorem tally_update (policy : Cpu → Option Governor) (cpu : Cpu) (new : Option Governor) :
    tally (Function.update policy cpu new) = tally policy - weight (policy cpu) + weight new := by
  have whole : tally policy = weight (policy cpu) +
      ∑ other ∈ Finset.univ.erase cpu, weight (policy other) :=
    (Finset.add_sum_erase _ _ (Finset.mem_univ cpu)).symm
  have rest : ∑ other ∈ Finset.univ.erase cpu, weight (Function.update policy cpu new other) =
      ∑ other ∈ Finset.univ.erase cpu, weight (policy other) :=
    Finset.sum_congr rfl fun other member => by
      rw [Function.update_of_ne (Finset.ne_of_mem_erase member)]
  rw [whole, tally, ← Finset.add_sum_erase _ _ (Finset.mem_univ cpu), Function.update_self, rest]
  ring

/-- How much the counter is ahead of the policies. -/
def lead (g : Cpufreq) : ℤ :=
  g.cpusUsingSysclockGovernor - tally g.policy

theorem lead_put (g : Cpufreq) (cpu : Cpu) (new : Option Governor) :
    lead (g.put cpu new) = lead g + weight (g.policy cpu) - weight new := by
  rw [lead, Cpufreq.put_policy, tally_update, lead, Cpufreq.put]
  ring

/-- What no governor changes. -/
structure Leaves (g g' : Cpufreq) : Prop where
  policy : g'.policy = g.policy
  cpuOnline : g'.kernel.cpuOnline = g.kernel.cpuOnline
  reserve : g'.kernel.reserve = g.kernel.reserve
  processes : g'.kernel.processes = g.kernel.processes

theorem Leaves.refl (g : Cpufreq) : Leaves g g :=
  ⟨rfl, rfl, rfl, rfl⟩

private theorem count_leaves (g : Cpufreq) (cpu : Cpu) (cur : ℕ) : Leaves g (g.count cpu cur) :=
  ⟨rfl, rfl, rfl, rfl⟩

/-- A start counts once, and every governed CPU gets the computed frequency if
that makes the counter the number of CPUs online. -/
theorem startSysclock (online : g.kernel.cpuOnline cpu = true)
    (returns : cpufreqGovernorSysclock g cpu cur .start = .ok (failure, g')) :
    failure = 0 ∧ Leaves g g' ∧
      g'.cpusUsingSysclockGovernor = g.cpusUsingSysclockGovernor + 1 ∧
      (g.cpusUsingSysclockGovernor + 1 = numOnlineCpus g.kernel →
        ∀ other, g.kernel.cpuOnline other = true → g.policy other = some .sysclock →
          sysclockCompute uint32 (collect g.kernel.reserve g.kernel.processes) =
            .ok (g'.kernel.cpuCurFreq other)) := by
  rw [cpufreqGovernorSysclock, if_neg (by simp [online])] at returns
  dsimp only at returns
  split at returns
  · obtain ⟨s, sets, result⟩ := bind_eq_ok_iff.mp returns
    cases result
    obtain ⟨same, _, reached⟩ := Kernel.setFrequencyLoop_eq sets
    refine ⟨rfl, ?_, rfl, ?_⟩
    · rw [same]
      exact ⟨rfl, rfl, rfl, rfl⟩
    · intro _ other isOnline governed
      exact reached other (by fin_cases other <;> decide) isOnline (by simp [Cpufreq.seen,
        Cpufreq.count, governed])
  · rename_i different
    cases returns
    exact ⟨rfl, count_leaves g cpu cur, rfl, fun same => absurd same different⟩

/-- A governor that starts is counted, unless it is another one. -/
theorem cpufreqGovernor_start {starts : Bool} (online : g.kernel.cpuOnline cpu = true)
    (returns : cpufreqGovernor g cpu cur starts .start governor = .ok (failure, g')) :
    Leaves g g' ∧ (failure ≠ 0 → governor = .other) ∧
      g'.cpusUsingSysclockGovernor = g.cpusUsingSysclockGovernor + weight (some governor) := by
  cases governor with
  | sysclock =>
      obtain ⟨zero, leaves, counted, _⟩ := startSysclock online returns
      exact ⟨leaves, fun nonzero => absurd zero nonzero, counted⟩
  | other =>
      cases returns
      exact ⟨.refl g, fun _ => rfl, (Int.add_zero _).symm⟩

private theorem cpufreqGovernor_stop
    (returns : cpufreqGovernor g cpu cur true .stop governor = .ok (failure, g')) :
    Leaves g g' ∧
      g'.cpusUsingSysclockGovernor = g.cpusUsingSysclockGovernor - weight (some governor) := by
  cases governor with
  | sysclock =>
      cases returns
      exact ⟨⟨rfl, rfl, rfl, rfl⟩, rfl⟩
  | other =>
      cases returns
      exact ⟨.refl g, (Int.sub_zero _).symm⟩

private theorem cpufreqGovernor_limits
    (returns : cpufreqGovernor g cpu cur true .limits governor = .ok (failure, g')) :
    failure = 0 ∧ g' = g := by
  cases governor with
  | sysclock =>
      cases returns
      exact ⟨rfl, rfl⟩
  | other =>
      cases returns
      exact ⟨rfl, rfl⟩

theorem stopOld_leaves (returns : stopOld g cpu cur = .ok g') :
    Leaves g g' ∧
      g'.cpusUsingSysclockGovernor = g.cpusUsingSysclockGovernor - weight (g.policy cpu) := by
  unfold stopOld at returns
  cases old : g.policy cpu with
  | none =>
      rw [old] at returns
      cases returns
      exact ⟨.refl g, (Int.sub_zero _).symm⟩
  | some governor =>
      rw [old] at returns
      obtain ⟨⟨failure, stopped⟩, stops, result⟩ := bind_eq_ok_iff.mp returns
      cases result
      exact cpufreqGovernor_stop stops

/-! ## Setting a policy -/

/-- What `__cpufreq_set_policy` comes to. -/
inductive PolicyEffect (g : Cpufreq) (srv : CoreServices) (cpu : Cpu) (governor : Governor) :
    ℤ → Cpufreq → Prop
  | unchanged {failure : ℤ} : PolicyEffect g srv cpu governor failure g
  | switched {stopped g' : Cpufreq} : stopOld g cpu srv.cur = .ok stopped →
      cpufreqGovernor (stopped.put cpu (some governor)) cpu srv.cur srv.starts .start governor =
        .ok (0, g') → PolicyEffect g srv cpu governor 0 g'
  | unset {stopped g' : Cpufreq} {failure : ℤ} : g.policy cpu = none →
      stopOld g cpu srv.cur = .ok stopped →
      cpufreqGovernor (stopped.put cpu (some governor)) cpu srv.cur srv.starts .start governor =
        .ok (failure, g') → failure ≠ 0 → PolicyEffect g srv cpu governor (-EINVAL) g'
  | restarted {stopped started g' : Cpufreq} {failure code : ℤ} {old : Governor} :
      g.policy cpu = some old → stopOld g cpu srv.cur = .ok stopped →
      cpufreqGovernor (stopped.put cpu (some governor)) cpu srv.cur srv.starts .start governor =
        .ok (failure, started) → failure ≠ 0 →
      cpufreqGovernor (started.put cpu (some old)) cpu srv.cur srv.restarts .start old =
        .ok (code, g') → PolicyEffect g srv cpu governor (-EINVAL) g'

theorem cpufreqSetPolicy_effect
    (returns : cpufreqSetPolicy g srv cpu governor = .ok (failure, g')) :
    PolicyEffect g srv cpu governor failure g' := by
  unfold cpufreqSetPolicy at returns
  split at returns
  · cases returns
    exact .unchanged
  · split at returns
    · obtain ⟨_, rfl⟩ := cpufreqGovernor_limits returns
      exact .unchanged
    · obtain ⟨stopped, stops, rest⟩ := bind_eq_ok_iff.mp returns
      obtain ⟨⟨code, started⟩, starts, rest⟩ := bind_eq_ok_iff.mp rest
      dsimp only at rest
      split at rest
      · rename_i nonzero
        cases old : g.policy cpu with
        | none =>
            rw [old] at rest
            cases rest
            exact .unset old stops starts nonzero
        | some governor =>
            rw [old] at rest
            obtain ⟨⟨again, restarted⟩, restarts, result⟩ := bind_eq_ok_iff.mp rest
            cases result
            exact .restarted old stops starts nonzero restarts
      · rename_i zero
        obtain ⟨rfl, rfl⟩ := cpufreqGovernor_limits rest
        rw [not_not.mp zero] at starts
        exact .switched stops starts

/-- Where a governor is being started, the old one was stopped. -/
theorem lead_stopped {stopped : Cpufreq} (stops : stopOld g cpu cur = .ok stopped)
    (new : Option Governor) : lead (stopped.put cpu new) = lead g - weight new := by
  obtain ⟨leaves, counted⟩ := stopOld_leaves stops
  rw [lead_put, lead, lead, counted, leaves.policy]
  ring

private theorem lead_started {starts : Bool} (online : g.kernel.cpuOnline cpu = true)
    (returns : cpufreqGovernor g cpu cur starts .start governor = .ok (failure, g')) :
    lead g' = lead g + weight (some governor) := by
  obtain ⟨leaves, _, counted⟩ := cpufreqGovernor_start online returns
  rw [lead, lead, counted, leaves.policy]
  ring

/-- The policy of a CPU that is online may change, and with it the counter. -/
structure Switches (g : Cpufreq) (cpu : Cpu) (g' : Cpufreq) : Prop where
  policy : ∃ new, g'.policy = Function.update g.policy cpu new
  cpuOnline : g'.kernel.cpuOnline = g.kernel.cpuOnline
  reserve : g'.kernel.reserve = g.kernel.reserve
  processes : g'.kernel.processes = g.kernel.processes
  lead : lead g' = lead g

theorem Switches.refl (g : Cpufreq) (cpu : Cpu) : Switches g cpu g :=
  ⟨⟨g.policy cpu, (Function.update_eq_self _ _).symm⟩, rfl, rfl, rfl, rfl⟩

/-- The governor that a policy is given is started right after the old one was
stopped. -/
theorem start_switches {stopped : Cpufreq} {starts : Bool}
    (online : g.kernel.cpuOnline cpu = true) (stops : stopOld g cpu cur = .ok stopped)
    (returns : cpufreqGovernor (stopped.put cpu (some governor)) cpu cur starts .start governor =
      .ok (failure, g')) :
    Switches g cpu g' ∧ g'.policy cpu = some governor ∧ (failure ≠ 0 → governor = .other) := by
  have stopLeaves := (stopOld_leaves stops).1
  have stillOnline : (stopped.put cpu (some governor)).kernel.cpuOnline cpu = true := by
    change stopped.kernel.cpuOnline cpu = true
    rw [stopLeaves.cpuOnline]
    exact online
  obtain ⟨leaves, fails, _⟩ := cpufreqGovernor_start stillOnline returns
  have policy : g'.policy = Function.update g.policy cpu (some governor) := by
    rw [leaves.policy, ← stopLeaves.policy]
    rfl
  refine ⟨⟨⟨_, policy⟩, leaves.cpuOnline.trans stopLeaves.cpuOnline,
    leaves.reserve.trans stopLeaves.reserve, leaves.processes.trans stopLeaves.processes, ?_⟩, ?_,
    fails⟩
  · rw [lead_started stillOnline returns, lead_stopped stops, sub_add_cancel]
  · rw [policy, Function.update_self]

/-- An old governor that is started again is counted again. -/
theorem restart_switches {started : Cpufreq} {restarts : Bool} {old : Governor}
    (online : g.kernel.cpuOnline cpu = true) (switches : Switches g cpu started)
    (failed : started.policy cpu = some .other)
    (returns : cpufreqGovernor (started.put cpu (some old)) cpu cur restarts .start old =
      .ok (failure, g')) :
    Switches g cpu g' ∧ g'.policy cpu = some old := by
  obtain ⟨new, startedPolicy⟩ := switches.policy
  have stillOnline : (started.put cpu (some old)).kernel.cpuOnline cpu = true := by
    change started.kernel.cpuOnline cpu = true
    rw [switches.cpuOnline]
    exact online
  obtain ⟨leaves, _, _⟩ := cpufreqGovernor_start stillOnline returns
  have policy : g'.policy = Function.update g.policy cpu (some old) := by
    rw [leaves.policy, Cpufreq.put_policy, startedPolicy, Function.update_idem]
  refine ⟨⟨⟨_, policy⟩, leaves.cpuOnline.trans switches.cpuOnline,
    leaves.reserve.trans switches.reserve, leaves.processes.trans switches.processes, ?_⟩, ?_⟩
  · rw [lead_started stillOnline returns, lead_put, failed, switches.lead]
    exact sub_add_cancel _ _ |>.trans (Int.add_zero _)
  · rw [policy, Function.update_self]

theorem cpufreqSetPolicy_switches (online : g.kernel.cpuOnline cpu = true)
    (returns : cpufreqSetPolicy g srv cpu governor = .ok (failure, g')) : Switches g cpu g' := by
  cases cpufreqSetPolicy_effect returns with
  | unchanged => exact .refl g cpu
  | switched stops starts => exact (start_switches online stops starts).1
  | unset _ stops starts _ => exact (start_switches online stops starts).1
  | restarted isOld stops starts nonzero restarts =>
      obtain ⟨switches, policy, fails⟩ := start_switches online stops starts
      exact (restart_switches online switches (policy.trans (congrArg some (fails nonzero)))
        restarts).1

/-- A policy that could not be set up was not counted. -/
theorem cpufreqSetPolicy_unset (online : g.kernel.cpuOnline cpu = true)
    (none : g.policy cpu = none) (nonzero : failure ≠ 0)
    (returns : cpufreqSetPolicy g srv cpu governor = .ok (failure, g')) :
    weight (g'.policy cpu) = 0 := by
  cases cpufreqSetPolicy_effect returns with
  | unchanged =>
      rw [none]
      rfl
  | switched => exact absurd rfl nonzero
  | unset _ stops starts fails =>
      obtain ⟨_, policy, isOther⟩ := start_switches online stops starts
      rw [policy, isOther fails]
      rfl
  | restarted isOld =>
      rw [none] at isOld
      cases isOld

/-! ## Every run -/

/-- The counter is the number of CPUs on the sysclock governor, and CPUs with a
policy are online. -/
structure Counted (g : Cpufreq) : Prop where
  counter : g.cpusUsingSysclockGovernor = tally g.policy
  online : ∀ cpu, g.policy cpu ≠ none → g.kernel.cpuOnline cpu = true

theorem counted_of_lead (zero : lead g = 0)
    (online : ∀ cpu, g.policy cpu ≠ none → g.kernel.cpuOnline cpu = true) : Counted g :=
  ⟨sub_eq_zero.mp zero, online⟩

theorem Counted.lead (counted : Counted g) : lead g = 0 :=
  sub_eq_zero.mpr counted.counter

theorem Counted.switches (counted : Counted g) (online : g.kernel.cpuOnline cpu = true)
    (switches : Switches g cpu g') : Counted g' := by
  obtain ⟨new, policy⟩ := switches.policy
  apply counted_of_lead (switches.lead.trans counted.lead)
  intro other managed
  rw [switches.cpuOnline]
  rcases eq_or_ne other cpu with rfl | different
  · exact online
  · rw [policy, Function.update_of_ne different] at managed
    exact counted.online other managed

private theorem Counted.addDev (counted : Counted g)
    (returns : cpufreqAddDev standard g srv cpu = .ok g') : Counted g' := by
  unfold cpufreqAddDev at returns
  split at returns
  · cases returns
    exact counted
  · rename_i absent
    simp only [not_or, Bool.not_eq_false, not_not] at absent
    obtain ⟨online, none, _⟩ := absent
    obtain ⟨⟨failure, set⟩, sets, result⟩ := bind_eq_ok_iff.mp returns
    cases result
    have after := counted.switches online (cpufreqSetPolicy_switches online sets)
    split
    · rename_i nonzero
      have uncounted := cpufreqSetPolicy_unset online none nonzero sets
      apply counted_of_lead
      · rw [lead_put, uncounted, after.lead]
        rfl
      · intro other managed
        apply after.online other
        rcases eq_or_ne other cpu with rfl | different
        · exact absurd (Function.update_self _ _ _) managed
        · rwa [Cpufreq.put_policy, Function.update_of_ne different] at managed
    · exact after

private theorem Counted.removeDev (counted : Counted g)
    (returns : cpufreqRemoveDev g srv cpu = .ok g') :
    Counted g' ∧ g'.policy = Function.update g.policy cpu none := by
  unfold cpufreqRemoveDev at returns
  cases managed : g.policy cpu with
  | none =>
      rw [managed] at returns
      cases returns
      exact ⟨counted, (Function.update_eq_self_iff.mpr managed.symm).symm⟩
  | some governor =>
      rw [managed] at returns
      obtain ⟨⟨failure, stopped⟩, stops, result⟩ := bind_eq_ok_iff.mp returns
      cases result
      obtain ⟨leaves, uncounted⟩ := cpufreqGovernor_stop stops
      have policy : g'.policy = Function.update g.policy cpu none := leaves.policy
      refine ⟨counted_of_lead ?_ ?_, policy⟩
      · rw [Sysclock.lead, uncounted, policy, tally_update, managed]
        have same := counted.counter
        dsimp only [Cpufreq.put]
        rw [same]
        simp [weight]
      · intro other isManaged
        rw [leaves.cpuOnline]
        rw [policy] at isManaged
        rcases eq_or_ne other cpu with rfl | different
        · exact absurd (Function.update_self _ _ _) isManaged
        · rw [Function.update_of_ne different] at isManaged
          exact counted.online other isManaged

/-- A CPU that comes up has no policy yet. -/
theorem Counted.setOnline (counted : Counted g) (cpu : Cpu) : Counted (g.setOnline cpu true) := by
  refine ⟨counted.counter, ?_⟩
  intro other managed
  rcases eq_or_ne other cpu with rfl | different
  · exact Function.update_self _ _ _
  · exact (Function.update_of_ne different _ _).trans (counted.online other managed)

theorem Counted.step {op : GovernorOp} (counted : Counted g)
    (taken : governorStep standard g op = .ok g') : Counted g' := by
  cases op with
  | storeScalingGovernor srv cpu governor =>
      obtain ⟨⟨failure, stored⟩, stores, result⟩ := bind_eq_ok_iff.mp taken
      cases result
      unfold storeScalingGovernor at stores
      split at stores
      · cases stores
        exact counted
      · rename_i managed
        have online := counted.online cpu managed
        exact counted.switches online (cpufreqSetPolicy_switches online stores)
  | cpuUp srv cpu succeeds =>
      rw [governorStep] at taken
      split at taken
      · cases taken
        exact counted
      · exact (counted.setOnline cpu).addDev taken
  | cpuDown srv cpu succeeds =>
      rw [governorStep] at taken
      split at taken
      · cases taken
        exact counted
      · obtain ⟨removed, removes, rest⟩ := bind_eq_ok_iff.mp taken
        obtain ⟨after, policy⟩ := counted.removeDev removes
        split at rest
        · cases rest
          refine ⟨after.counter, ?_⟩
          intro other managed
          rcases eq_or_ne other cpu with rfl | different
          · change removed.policy other ≠ none at managed
            rw [policy, Function.update_self] at managed
            exact absurd rfl managed
          · exact (Function.update_of_ne different _ _).trans (after.online other managed)
        · exact after.addDev rest

/-! ## The frequencies -/

private theorem numOnlineCpus_eq_sum (s : Kernel) :
    (numOnlineCpus s : ℤ) = ∑ cpu, if s.cpuOnline cpu = true then 1 else 0 := by
  simp only [numOnlineCpus, allCpus, List.countP_cons, List.countP_nil, Fin.sum_univ_four,
    Nat.cast_add, Nat.cast_ite, Nat.cast_one, Nat.cast_zero, Nat.zero_add]
  ring

/-- Every CPU that is online is on the sysclock governor. -/
def Completed (g : Cpufreq) : Prop :=
  ∀ cpu, g.kernel.cpuOnline cpu = true → g.policy cpu = some .sysclock

/-- The counter can be compared with the number of CPUs online to see whether all
of them are on the governor. -/
theorem Counted.tally_eq_iff (counted : Counted g) :
    tally g.policy = numOnlineCpus g.kernel ↔ Completed g := by
  have most : ∀ cpu ∈ Finset.univ, weight (g.policy cpu) ≤
      if g.kernel.cpuOnline cpu = true then 1 else 0 := by
    intro cpu _
    cases managed : g.policy cpu with
    | none =>
        dsimp only [weight]
        split <;> decide
    | some governor =>
        rw [if_pos (counted.online cpu (by simp [managed]))]
        cases governor <;> decide
  rw [numOnlineCpus_eq_sum, tally, Finset.sum_eq_sum_iff_of_le most]
  constructor
  · intro same cpu online
    have one := same cpu (Finset.mem_univ cpu)
    rw [if_pos online] at one
    unfold weight at one
    split at one
    · assumption
    · cases one
  · intro completed cpu _
    by_cases online : g.kernel.cpuOnline cpu = true
    · rw [completed cpu online, if_pos online]
      rfl
    · cases managed : g.policy cpu with
      | none =>
          rw [if_neg online]
          rfl
      | some governor => exact absurd (counted.online cpu (by simp [managed])) online

/-- Every CPU that is online has the frequency computed for the reservations. -/
def Clocked (g : Cpufreq) : Prop :=
  ∀ cpu, g.kernel.cpuOnline cpu = true →
    sysclockCompute uint32 (collect g.kernel.reserve g.kernel.processes) =
      .ok (g.kernel.cpuCurFreq cpu)

/-- The start that completes the CPUs sets their frequencies. -/
theorem cpufreqSetPolicy_clocked (counted : Counted g) (online : g.kernel.cpuOnline cpu = true)
    (returns : cpufreqSetPolicy g srv cpu governor = .ok (failure, g'))
    (before : g.policy cpu ≠ some .sysclock) (after : g'.policy cpu = some .sysclock)
    (completed : Completed g') : Clocked g' := by
  have countedAfter := counted.switches online (cpufreqSetPolicy_switches online returns)
  cases cpufreqSetPolicy_effect returns with
  | unchanged => exact absurd after before
  | switched stops starts =>
      rename_i stopped
      have policy := (start_switches online stops starts).2.1
      cases Option.some.inj (policy.symm.trans after)
      have stillOnline : (stopped.put cpu (some .sysclock)).kernel.cpuOnline cpu = true := by
        change stopped.kernel.cpuOnline cpu = true
        rw [(stopOld_leaves stops).1.cpuOnline]
        exact online
      obtain ⟨_, leaves, counts, sets⟩ := startSysclock stillOnline starts
      have whole : (stopped.put cpu (some .sysclock)).cpusUsingSysclockGovernor + 1 =
          numOnlineCpus (stopped.put cpu (some .sysclock)).kernel := by
        rw [← counts, countedAfter.counter, countedAfter.tally_eq_iff.mpr completed, numOnlineCpus,
          leaves.cpuOnline]
        rfl
      intro other isOnline
      rw [leaves.reserve, leaves.processes]
      apply sets whole other
      · rw [← leaves.cpuOnline]
        exact isOnline
      · rw [← leaves.policy]
        exact completed other isOnline
  | unset none stops starts fails =>
      obtain ⟨_, policy, isOther⟩ := start_switches online stops starts
      rw [policy, isOther fails] at after
      cases after
  | restarted isOld stops starts nonzero restarts =>
      obtain ⟨switches, policy, fails⟩ := start_switches online stops starts
      have again := (restart_switches online switches
        (policy.trans (congrArg some (fails nonzero))) restarts).2
      rw [isOld] at before
      exact absurd (again.symm.trans after) before

/-- The sysclock governor is started for a CPU. -/
def Starts (g g' : Cpufreq) : Prop :=
  ∃ cpu, g.policy cpu ≠ some .sysclock ∧ g'.policy cpu = some .sysclock

/-- Only the policy that is set can be one that starts. -/
theorem Switches.started (switches : Switches g cpu g') (starts : Starts g g') :
    g.policy cpu ≠ some .sysclock ∧ g'.policy cpu = some .sysclock := by
  obtain ⟨new, policy⟩ := switches.policy
  obtain ⟨other, before, after⟩ := starts
  rcases eq_or_ne other cpu with rfl | different
  · exact ⟨before, after⟩
  · rw [policy, Function.update_of_ne different] at after
    exact absurd after before

private theorem cpufreqAddDev_clocked (counted : Counted g)
    (returns : cpufreqAddDev standard g srv cpu = .ok g') (starts : Starts g g')
    (completed : Completed g') : Clocked g' := by
  unfold cpufreqAddDev at returns
  split at returns
  · cases returns
    obtain ⟨other, before, after⟩ := starts
    exact absurd after before
  · rename_i absent
    simp only [not_or, Bool.not_eq_false, not_not] at absent
    obtain ⟨online, _, _⟩ := absent
    obtain ⟨⟨failure, set⟩, sets, result⟩ := bind_eq_ok_iff.mp returns
    have switches := cpufreqSetPolicy_switches online sets
    dsimp only at result
    split at result
    · cases result
      obtain ⟨new, policy⟩ := switches.policy
      obtain ⟨other, before, after⟩ := starts
      rw [Cpufreq.put_policy, policy, Function.update_idem] at after
      rcases eq_or_ne other cpu with rfl | different
      · rw [Function.update_self] at after
        cases after
      · rw [Function.update_of_ne different] at after
        exact absurd after before
    · cases result
      obtain ⟨before, after⟩ := switches.started starts
      exact cpufreqSetPolicy_clocked counted online sets before after completed

/-- No CPU is on the sysclock governor yet. -/
structure Ungoverned (g : Cpufreq) : Prop where
  counter : g.cpusUsingSysclockGovernor = 0
  policy : ∀ cpu, g.policy cpu ≠ some .sysclock
  online : ∀ cpu, g.policy cpu ≠ none → g.kernel.cpuOnline cpu = true

theorem Ungoverned.counted (ungoverned : Ungoverned g) : Counted g := by
  refine ⟨?_, ungoverned.online⟩
  rw [ungoverned.counter, tally, Finset.sum_eq_zero]
  intro cpu _
  unfold weight
  split
  · rename_i governed
    exact absurd governed (ungoverned.policy cpu)
  · rfl

private theorem counted_of_reaches
    (reached : Reaches (governorStep standard) (fun _ _ => True) Ungoverned g) : Counted g := by
  apply reached.invariant
  · intro g ungoverned
    exact ungoverned.counted
  · intro g op g' counted _ taken
    exact counted.step taken

/-- Whatever governors are written and whatever CPUs come and go, with any of it
failing, the counter of the sysclock governor is the number of CPUs that are on
it, all of which are online, and it equals the number of CPUs online exactly when
every one of those is on it. -/
theorem reaches_counted
    (reached : Reaches (governorStep standard) (fun _ _ => True) Ungoverned g) :
    Counted g ∧ (g.cpusUsingSysclockGovernor = numOnlineCpus g.kernel ↔ Completed g) := by
  have counted := counted_of_reaches reached
  refine ⟨counted, ?_⟩
  rw [counted.counter]
  exact counted.tally_eq_iff

/-- CPUs 0 and 1 are online, on another governor. -/
def twoCpus : Cpufreq where
  kernel := { Kernel.bare with cpuOnline := fun cpu => cpu = 0 ∨ cpu = 1 }
  policy := fun cpu => if cpu = 0 ∨ cpu = 1 then some .other else none
  cpufreqCpuGovernor := fun _ => none
  cpusUsingSysclockGovernor := 0

private theorem ungoverned_twoCpus : Ungoverned twoCpus where
  counter := rfl
  policy := by decide
  online := by decide

/-- The sysclock governor is written for CPU 0. -/
def halfGoverned : Cpufreq :=
  after (governorStep .other) twoCpus
    (.storeScalingGovernor ⟨true, true, true, true, 640000⟩ 0 .sysclock)

private theorem reaches_halfGoverned :
    Reaches (governorStep .other) (fun _ _ => True) Ungoverned halfGoverned :=
  Reaches.after (.start ungoverned_twoCpus) trivial (by decide)

/-- CPU 2 comes up after that, and begins with the governor of CPU 0. -/
def joined : Cpufreq :=
  after (governorStep .other) halfGoverned (.cpuUp ⟨true, true, true, true, 640000⟩ 2 true)

theorem reaches_counted_joined :
    joined.policy 2 = some .sysclock ∧ joined.cpusUsingSysclockGovernor = 2 ∧ Counted joined ∧
      (joined.cpusUsingSysclockGovernor = numOnlineCpus joined.kernel ↔ Completed joined) :=
  ⟨by decide, by decide, reaches_counted (reaches_halfGoverned.after trivial (by decide))⟩

/-- The step that starts the governor on the last CPU that was not on it sets every
CPU that is online to the frequency computed for the reservations. -/
theorem reaches_clocked
    (reached : Reaches (governorStep standard) (fun _ _ => True) Ungoverned g) {op : GovernorOp}
    (taken : governorStep standard g op = .ok g') (starts : Starts g g')
    (completed : Completed g') : Clocked g' := by
  have counted := counted_of_reaches reached
  cases op with
  | storeScalingGovernor srv cpu governor =>
      obtain ⟨⟨failure, stored⟩, stores, result⟩ := bind_eq_ok_iff.mp taken
      cases result
      unfold storeScalingGovernor at stores
      split at stores
      · cases stores
        obtain ⟨other, before, after⟩ := starts
        exact absurd after before
      · rename_i managed
        have online := counted.online cpu managed
        obtain ⟨before, after⟩ := (cpufreqSetPolicy_switches online stores).started starts
        exact cpufreqSetPolicy_clocked counted online stores before after completed
  | cpuUp srv cpu succeeds =>
      rw [governorStep] at taken
      split at taken
      · cases taken
        obtain ⟨other, before, after⟩ := starts
        exact absurd after before
      · exact cpufreqAddDev_clocked (counted.setOnline cpu) taken starts completed
  | cpuDown srv cpu succeeds =>
      rw [governorStep] at taken
      split at taken
      · cases taken
        obtain ⟨other, before, after⟩ := starts
        exact absurd after before
      · obtain ⟨removed, removes, rest⟩ := bind_eq_ok_iff.mp taken
        obtain ⟨countedRemoved, policy⟩ := counted.removeDev removes
        have fewer : ∀ other, removed.policy other = some .sysclock →
            g.policy other = some .sysclock := by
          intro other governed
          rw [policy] at governed
          rcases eq_or_ne other cpu with rfl | different
          · rw [Function.update_self] at governed
            cases governed
          · rwa [Function.update_of_ne different] at governed
        obtain ⟨other, before, after⟩ := starts
        split at rest
        · cases rest
          exact absurd (fewer other after) before
        · exact cpufreqAddDev_clocked countedRemoved rest
            ⟨other, fun governed => before (fewer other governed), after⟩ completed

/-- On the two CPUs, it is written for CPU 1 as well. -/
def fullyGoverned : Cpufreq :=
  after (governorStep .other) halfGoverned
    (.storeScalingGovernor ⟨true, true, true, true, 640000⟩ 1 .sysclock)

theorem reaches_clocked_full : Clocked fullyGoverned := by
  refine reaches_clocked reaches_halfGoverned (step_eq_after (by decide)) ⟨1, by decide⟩ ?_
  unfold Completed
  decide

end Rtes.Sysclock
