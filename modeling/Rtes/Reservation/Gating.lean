import Rtes.Reservation.Hotplug

/-!
# CPUs that are online

A reservation brings its CPU online, and CPUs without utilization are taken
offline.  As long as the hotplug calls succeed and no utilization is rounded to
zero, every CPU that hosts a reservation is online, and from the first successful
call of `set_reserve` on the CPUs other than CPU 0 are online exactly when they
host one.
-/

namespace Rtes.Reservation

open Rtes.RateMonotonic Rtes.Sysclock Rtes.Transition

variable {s s' : Kernel} {t : Tid} {op : Op} {srv : Services}

/-! ## What the operations do to the CPUs -/

namespace Kernel

private theorem offlineClosed_online (down : ∀ cpu, srv.cpuDown cpu = true) (online : Cpu → Bool)
    (cpus : List Cpu) (s : Kernel) (cpu : Cpu) :
    (offlineClosed srv online cpus s).cpuOnline cpu = true ↔ s.cpuOnline cpu = true ∧
      ¬ (cpu ∈ cpus ∧ (s.table cpu).cpuOpen = false ∧ online cpu = true ∧ cpu ≠ 0) := by
  induction cpus generalizing s with
  | nil => simp [offlineClosed]
  | cons first rest ih =>
      rw [offlineClosed]
      split
      · rename_i taken
        simp only [Bool.and_eq_true, Bool.not_eq_true', decide_eq_true_eq] at taken
        rw [ih]
        rcases eq_or_ne cpu first with rfl | different
        · simp [cpuDown, down, taken.1.1, taken.1.2, taken.2]
        · simp [cpuDown, down, different]
      · rename_i kept
        simp only [Bool.and_eq_true, Bool.not_eq_true', decide_eq_true_eq] at kept
        rw [ih]
        rcases eq_or_ne cpu first with rfl | different
        · have notTaken : ¬ ((s.table cpu).cpuOpen = false ∧ online cpu = true ∧ cpu ≠ 0) :=
            fun closed => kept ⟨⟨closed.1, closed.2.1⟩, closed.2.2⟩
          simp [notTaken]
        · simp [different]

private theorem offlineIfClosed_online (down : ∀ cpu, srv.cpuDown cpu = true) (s : Kernel)
    (own cpu : Cpu) :
    (s.offlineIfClosed srv own).cpuOnline cpu = true ↔ s.cpuOnline cpu = true ∧
      ¬ (cpu = own ∧ (s.table cpu).cpuOpen = false ∧ cpu ≠ 0) := by
  unfold offlineIfClosed
  split
  · rename_i taken
    simp only [Bool.and_eq_true, Bool.not_eq_true', decide_eq_true_eq] at taken
    rcases eq_or_ne cpu own with rfl | different
    · simp [cpuDown, down, taken.1, taken.2]
    · simp [cpuDown, down, different]
  · rename_i kept
    simp only [Bool.and_eq_true, Bool.not_eq_true', decide_eq_true_eq] at kept
    rcases eq_or_ne cpu own with rfl | different
    · simp [kept]
    · simp [different]

/-- Every CPU that is closed after the preparation, other than CPU 0, is offline. -/
theorem prepare_online (down : ∀ cpu, srv.cpuDown cpu = true) (s : Kernel) (t : Tid)
    (C T : Timespec) (own : Cpu) {online : Cpu → Bool} (cpu : Cpu)
    (seen : s.cpuOnline cpu = true → online cpu = true) :
    (s.prepare srv t C T own online).cpuOnline cpu = true ↔ s.cpuOnline cpu = true ∧
      (cpu = 0 ∨ ((s.prepare srv t C T own online).table cpu).cpuOpen = true) := by
  have every : ∀ cpu : Cpu, cpu ∈ allCpus := by decide
  have table : (s.prepare srv t C T own online).table =
      ((s.modify t fun reserve => { reserve with cpu := own }).openBins).table := by
    obtain ⟨online', calls, result, _⟩ := offlineClosed_eq srv online allCpus
      (s.modify t fun reserve => { reserve with cpu := own }).openBins
    unfold prepare
    dsimp only
    rw [result]
    rfl
  rw [table]
  unfold prepare
  dsimp only
  rw [show ∀ now : Kernel, (now.startTimers t C T).cpuOnline = now.cpuOnline from fun _ => rfl,
    offlineClosed_online down]
  rw [show (s.modify t fun reserve => { reserve with cpu := own }).openBins.cpuOnline =
    s.cpuOnline from rfl]
  simp only [every, true_and]
  constructor
  · rintro ⟨before, kept⟩
    refine ⟨before, ?_⟩
    by_contra gone
    rw [not_or, Bool.not_eq_true] at gone
    exact kept ⟨gone.2, seen before, gone.1⟩
  · rintro ⟨before, zero | opened⟩
    · exact ⟨before, fun closed => closed.2.2 zero⟩
    · refine ⟨before, ?_⟩
      rintro ⟨closed, _⟩
      simp [opened] at closed

private theorem bringUp_online (up : srv.cpuUp = true) (s : Kernel) (own cpu : Cpu) :
    (s.bringUp srv own).cpuOnline cpu = true ↔ cpu = own ∨ s.cpuOnline cpu = true := by
  unfold bringUp
  rw [if_pos up]
  split
  · rename_i already
    constructor
    · exact .inr
    · rintro (rfl | online)
      · exact already
      · exact online
  · rcases eq_or_ne cpu own with rfl | different
    · simp
    · simp [different]

end Kernel

private theorem putBack_online {old : Reserve} (returns : s.putBack t old = .ok s') :
    s'.cpuOnline = s.cpuOnline := by
  obtain ⟨_, _, result⟩ := bind_eq_ok_iff.mp returns
  cases result
  rfl

private theorem assign_online {params : Params} {named cpuid : Option Cpu} {retval : ℤ}
    (returns : s.assign t params named = .ok (retval, cpuid, s')) :
    s'.cpuOnline = s.cpuOnline := by
  unfold Kernel.assign at returns
  split at returns
  · obtain ⟨_, _, rest⟩ := bind_eq_ok_iff.mp returns
    obtain ⟨⟨_, _, _, _⟩, _, finish⟩ := bind_eq_ok_iff.mp rest
    dsimp only at finish
    split at finish
    · obtain ⟨_, puts, result⟩ := bind_eq_ok_iff.mp finish
      cases result
      exact (putBack_online puts).trans rfl
    · cases finish
      rfl
  · obtain ⟨⟨_, _, _, _⟩, _, result⟩ := bind_eq_ok_iff.mp returns
    cases result
    rfl

theorem Files.cpus {files : Reserve} (kept : Files t files s s') :
    s'.cpuOnline = s.cpuOnline ∧ s'.table = s.table := by
  rw [kept.eq]
  exact ⟨rfl, rfl⟩

/-- The files of a task and the end of a successful call leave the CPUs alone. -/
theorem committed_online {prepared : Kernel}
    (commits : ((prepared.setUpTidFile srv t).2.setUpEnergyFile srv t).2.commit t = .ok s') :
    s'.cpuOnline = prepared.cpuOnline ∧ s'.table = prepared.table ∧
      (s'.reserve t).cpu = (prepared.reserve t).cpu := by
  obtain ⟨_, named⟩ := Kernel.files_setUpTidFile srv prepared t
  obtain ⟨_, filed⟩ := Kernel.files_setUpEnergyFile srv (prepared.setUpTidFile srv t).2 t
  have kept := named.trans filed
  rw [commit_eq commits]
  refine ⟨kept.cpus.1, kept.cpus.2, ?_⟩
  simp [Kernel.modify, Reserve.committed, kept.own_eq, Reserve.withFiles]

/-- A call that fails leaves the CPUs as they are; one that succeeds brings up
the CPU of the task and leaves no closed CPU online but CPU 0. -/
theorem setReserve_online {budget period : Option Timespec} {cpuid retval : ℤ}
    (succeed : AllSucceed srv)
    (returns : s.setReserve srv t budget period cpuid = .ok (retval, s')) :
    (retval ≠ 0 ∧ s'.cpuOnline = s.cpuOnline) ∨
      (retval = 0 ∧ ∀ cpu, s'.cpuOnline cpu = true ↔
        (cpu = (s'.reserve t).cpu ∨ s.cpuOnline cpu = true) ∧
          (cpu = 0 ∨ (s'.table cpu).cpuOpen = true)) := by
  rcases setReserve_cases returns with
    ⟨nonzero, rfl, _⟩ | ⟨C, T, params, value, chosen, placed, _, _, places, finish⟩
  · exact .inl ⟨nonzero, rfl⟩
  · have same := assign_online places
    rcases finish with ⟨nonzero, rfl, rfl⟩ | ⟨own, rfl, _, continues⟩
    · exact .inl ⟨nonzero, same⟩
    · unfold Kernel.afterBind at continues
      dsimp only at continues
      rw [if_pos succeed.schedSetaffinity] at continues
      have fresh : (placed.resetFresh t).cpuOnline = s.cpuOnline := by
        rw [resetFresh_eq]
        exact same
      rcases install_files rfl rfl continues with ⟨rfl, commits⟩ | ⟨_, fails, _⟩
      · refine .inr ⟨rfl, fun cpu => ?_⟩
        obtain ⟨online, table, isOwn⟩ := committed_online commits
        have chosen : (s'.reserve t).cpu = own := by
          rw [isOwn, (prepare_touches srv _ t C T own _).1.own_eq]
          rfl
        have up := Kernel.bringUp_online succeed.cpuUp (placed.resetFresh t) own
        rw [online, table, chosen, Kernel.prepare_online succeed.cpuDown, up, fresh]
        intro before
        rcases (up cpu).mp before with rfl | already
        · exact Function.update_self ..
        · rw [Function.update_apply, already, ite_self]
      · exact absurd succeed.toFilesSucceed fails

/-! ## One step -/

/-- What an operation does to the CPUs: nothing, it releases a task and drops the
CPU of the task if that is left without utilization, or it installs a
reservation. -/
inductive CpuEffect (s s' : Kernel) : Prop
  | quiet : (∀ cpu, s'.cpuOnline cpu = s.cpuOnline cpu) →
      (∀ cpu, (s'.table cpu).cpuOpen = (s.table cpu).cpuOpen) → CpuEffect s s'
  | dropped (own : Cpu) : (∀ cpu, cpu ≠ own → (s'.table cpu).cpuOpen = (s.table cpu).cpuOpen) →
      ((s'.table own).cpuOpen = true → (s.table own).cpuOpen = true) →
      (∀ cpu, s'.cpuOnline cpu = true ↔ s.cpuOnline cpu = true ∧
        ¬ (cpu = own ∧ (s'.table cpu).cpuOpen = false ∧ cpu ≠ 0)) → CpuEffect s s'
  | installed (own : Cpu) :
      (∀ cpu, cpu ≠ own → (s'.table cpu).cpuOpen = true → (s.table cpu).cpuOpen = true) →
      (∀ cpu, s'.cpuOnline cpu = true ↔ (cpu = own ∨ s.cpuOnline cpu = true) ∧
        (cpu = 0 ∨ (s'.table cpu).cpuOpen = true)) → CpuEffect s s'

private theorem release_cpus {now : Kernel} (succeed : AllSucceed srv)
    (releases : now.release srv t = .ok s') (online : now.cpuOnline = s.cpuOnline)
    (table : now.table = s.table) : CpuEffect s s' := by
  obtain ⟨bin, isOpen, result⟩ := release_table releases
  obtain ⟨taken, _, finish⟩ := bind_eq_ok_iff.mp releases
  refine .dropped (now.reserve t).cpu ?_ ?_ ?_
  · intro cpu different
    rw [result, Function.update_of_ne different, table]
  · rw [result, Function.update_self, ← table, ← isOpen]
    unfold CpuTable.closeIfIdle
    split
    · exact fun opened => Bool.noConfusion opened
    · exact id
  · intro cpu
    cases finish
    rw [Kernel.offlineIfClosed_online succeed.cpuDown, (Kernel.frame_offlineIfClosed _ srv _).table,
      ← online]

theorem CpuEffect.andKeep {now : Kernel} (effect : CpuEffect s now)
    (online : s'.cpuOnline = now.cpuOnline) (table : s'.table = now.table) : CpuEffect s s' := by
  cases effect with
  | quiet sameOnline sameOpen =>
      refine .quiet ?_ ?_
      · rwa [online]
      · rwa [table]
  | dropped own others opened result =>
      refine .dropped own ?_ ?_ ?_
      · rwa [table]
      · rwa [table]
      · rwa [table, online]
  | installed own others result =>
      refine .installed own ?_ ?_
      · rwa [table]
      · rwa [table, online]

private theorem cancelReserve_cpus {retval : ℤ} (succeed : AllSucceed srv)
    (returns : s.cancelReserve srv t = .ok (retval, s')) : CpuEffect s s' := by
  have finish : ∀ now : Kernel, CpuEffect s now →
      sysclockSetFrequency ((now.removeTidFile t).dropEnergyFile t) = .ok s' →
      CpuEffect s s' := by
    intro now effect finishes
    obtain ⟨_, unnamed⟩ := Kernel.files_removeTidFile now t
    obtain ⟨_, unfiled⟩ := Kernel.files_dropEnergyFile (now.removeTidFile t) t
    have kept := (unnamed.trans unfiled).cpus
    rw [Kernel.sysclockSetFrequency_eq finishes]
    exact effect.andKeep kept.1 kept.2
  have unchanged : CpuEffect s s := .quiet (fun _ => rfl) fun _ => rfl
  cases cancelReserve_effect returns with
  | missing => exact unchanged
  | refused => exact unchanged.andKeep rfl rfl
  | idle _ _ finishes => exact finish s unchanged finishes
  | released _ _ _ releases finishes =>
      exact finish _ (release_cpus succeed releases rfl rfl) finishes

private theorem doExit_cpus (succeed : AllSucceed srv) (returns : s.doExit srv t = .ok s') :
    CpuEffect s s' := by
  obtain ⟨released, effect, rfl⟩ := doExit_effect returns
  cases effect with
  | idle => exact .quiet (fun _ => rfl) fun _ => rfl
  | released _ isFiled releases =>
      obtain ⟨_, unnamed⟩ := Kernel.files_removeTidFile (s.stopTimers t) t
      obtain ⟨_, unfiled⟩ := Kernel.files_dropEnergyFile ((s.stopTimers t).removeTidFile t) t
      have kept := (unnamed.trans unfiled).cpus
      rw [← isFiled] at kept
      have effect : CpuEffect s released := release_cpus succeed releases kept.1 kept.2
      exact effect.andKeep rfl rfl

/-- Where a CPU has utilization, a task is placed. -/
theorem exists_placed (consistent : Consistent s) {cpu : Cpu} (load : (s.table cpu).cpuUtil ≠ 0) :
    ∃ other, s.placement other = some cpu := by
  by_contra none
  apply load
  have empty : (s.table cpu).entries = [] := by
    rw [List.eq_nil_iff_forall_not_mem]
    intro other member
    exact none ⟨other, (consistent.represents.mem_iff cpu other).mp member⟩
  rw [(consistent.tableAgrees cpu).util, empty]
  rfl

private theorem setReserve_cpus {budget period : Option Timespec} {cpuid retval : ℤ}
    (weighted : Weighted s) (consistent : Consistent s) (weighted' : Weighted s')
    (consistent' : Consistent s') (live : s.exited t = false) (succeed : AllSucceed srv)
    (named : Revisable s t cpuid)
    (returns : s.setReserve srv t budget period cpuid = .ok (retval, s')) : CpuEffect s s' := by
  rcases setReserve_online succeed returns with ⟨nonzero, same⟩ | ⟨rfl, result⟩
  · refine .quiet (fun cpu => congrFun same cpu) ?_
    intro cpu
    rcases setReserve_result consistent.represents live named returns with
      ⟨_, rfl⟩ | ⟨_, _, _, _, _, _, result⟩
    · rfl
    · cases result with
      | refused restored => exact restored.cpuOpen cpu
      | undone fails => exact absurd (succeed.schedSetaffinity.symm.trans fails) Bool.noConfusion
      | failed _ fails => exact absurd succeed.toFilesSucceed fails
      | installed => exact absurd rfl nonzero
  · refine .installed (s'.reserve t).cpu ?_ result
    intro cpu different opened
    -- some task other than `t` is placed there, and was placed there before
    obtain ⟨other, placed⟩ := exists_placed consistent' ((weighted'.opens cpu).mp opened)
    obtain ⟨own, _, changes⟩ := setReserve_changes returns
    have another : other ≠ t := by
      rintro rfl
      exact different (placement_eq_some_iff.mp placed).2.2.symm
    have before : s.placement other = some cpu := by
      rw [placement_eq_some_iff] at placed ⊢
      rwa [changes.others another, changes.exited_eq] at placed
    have load := weighted.cpuUtil_pos consistent before
    exact (weighted.opens cpu).mpr (by omega)

/-- The callbacks, the hooks of the scheduler and the policy leave the CPUs
alone. -/
theorem step_quiet (taken : step s op = .ok s') (other : ¬ op.Places) :
    s'.cpuOnline = s.cpuOnline := by
  cases op with
  | setReserve => exact absurd trivial other
  | cancelReserve => exact absurd trivial other
  | doExit => exact absurd trivial other
  | endJob t =>
      cases taken
      unfold Kernel.endJob Kernel.suspendTask
      split_ifs <;> rfl
  | cTimer t =>
      cases taken
      unfold Kernel.cTimerCallback Kernel.suspendTask
      dsimp only
      split_ifs <;> rfl
  | pTimer freq t =>
      obtain ⟨cpuFreq, ring, enabled, rfl⟩ := pTimerCallback_eq taken
      obtain ⟨_, kept⟩ := Kernel.files_dropStaleEnergyFile
        ({ s with cpuFreq := cpuFreq }.modify t fun reserve => { reserve with
          acc := ⟨0, 0⟩
          taskmonEnabled := enabled
          ring := ring }) t
      unfold Kernel.resumeTask
      split
      · exact kept.cpus.1
      · exact kept.cpus.1
  | switchOut t =>
      cases taken
      unfold Kernel.switchOut Kernel.chargeRun Kernel.stopBudget
      split_ifs <;> rfl
  | switchIn t =>
      cases taken
      unfold Kernel.switchIn
      split_ifs <;> rfl
  | setPolicy policy =>
      cases taken
      unfold Kernel.partitionPolicyStore
      split_ifs <;> rfl

/-! ## Every run -/

/-- The services of an operation all succeed. -/
def Reliable : Op → Prop
  | .setReserve srv .. => AllSucceed srv
  | .cancelReserve srv _ => AllSucceed srv
  | .doExit srv _ => AllSucceed srv
  | _ => True

/-- Operations on live tasks with orderly revisions, budgets that have a
utilization, and services that succeed. -/
structure GateCall (s : Kernel) (op : Op) : Prop where
  serial : Serial s op
  orderly : Orderly s op
  weighty : Weighty op
  reliable : Reliable op

/-- What holds of the table in every run. -/
structure WellPlaced (s : Kernel) : Prop where
  consistent : Consistent s
  weighted : Weighted s

private theorem Boot.wellPlaced (boot : Boot s) : WellPlaced s :=
  ⟨boot.consistent, boot.weighted⟩

theorem WellPlaced.step (placed : WellPlaced s) (call : GateCall s op)
    (taken : Reservation.step s op = .ok s') : WellPlaced s' where
  consistent := step_consistent placed.consistent call.serial call.orderly taken
  weighted := step_weighted placed.weighted placed.consistent call.serial call.orderly
    call.weighty taken

theorem step_cpus (placed : WellPlaced s) (call : GateCall s op) (taken : step s op = .ok s') :
    CpuEffect s s' := by
  have placed' := placed.step call taken
  cases op with
  | setReserve srv tid budget period cpuid =>
      obtain ⟨⟨retval, target⟩, returns, result⟩ := bind_eq_ok_iff.mp taken
      cases result
      exact setReserve_cpus placed.weighted placed.consistent placed'.weighted placed'.consistent
        call.serial.1 call.reliable call.orderly returns
  | cancelReserve srv tid =>
      obtain ⟨⟨retval, target⟩, returns, result⟩ := bind_eq_ok_iff.mp taken
      cases result
      exact cancelReserve_cpus call.reliable returns
  | doExit srv t => exact doExit_cpus call.reliable taken
  | _ =>
      refine .quiet (fun cpu => congrFun (step_quiet taken not_false) cpu) ?_
      rw [(step_frame taken not_false).table]
      exact fun _ => rfl

/-- Every open CPU is online. -/
def OpenOnline (s : Kernel) : Prop :=
  ∀ cpu, (s.table cpu).cpuOpen = true → s.cpuOnline cpu = true

/-- Every closed CPU other than CPU 0 is offline. -/
def ClosedOffline (s : Kernel) : Prop :=
  ∀ cpu, cpu ≠ 0 → s.cpuOnline cpu = true → (s.table cpu).cpuOpen = true

theorem CpuEffect.openOnline (effect : CpuEffect s s') (before : OpenOnline s) : OpenOnline s' := by
  intro cpu opened
  cases effect with
  | quiet sameOnline sameOpen =>
      rw [sameOpen] at opened
      rw [sameOnline]
      exact before cpu opened
  | dropped own others kept result =>
      rw [result]
      refine ⟨before cpu ?_, ?_⟩
      · rcases eq_or_ne cpu own with rfl | different
        · exact kept opened
        · rwa [← others cpu different]
      · rintro ⟨_, closed, _⟩
        simp [opened] at closed
  | installed own others result =>
      rw [result]
      refine ⟨?_, .inr opened⟩
      rcases eq_or_ne cpu own with rfl | different
      · exact .inl rfl
      · exact .inr (before cpu (others cpu different opened))

private theorem CpuEffect.closedOffline (effect : CpuEffect s s') (before : ClosedOffline s) :
    ClosedOffline s' := by
  intro cpu notBoot online
  cases effect with
  | quiet sameOnline sameOpen =>
      rw [sameOnline] at online
      rw [sameOpen]
      exact before cpu notBoot online
  | dropped own others kept result =>
      obtain ⟨wasOnline, notDropped⟩ := (result cpu).mp online
      rcases eq_or_ne cpu own with rfl | different
      · by_contra closed
        exact notDropped ⟨rfl, by simpa using closed, notBoot⟩
      · rw [others cpu different]
        exact before cpu notBoot wasOnline
  | installed own others result =>
      exact ((result cpu).mp online).2.resolve_left notBoot

/-- A successful call of `set_reserve` leaves no closed CPU online but CPU 0. -/
theorem setReserve_closedOffline {budget period : Option Timespec} {cpuid : ℤ}
    (succeed : AllSucceed srv) (returns : s.setReserve srv t budget period cpuid = .ok (0, s')) :
    ClosedOffline s' := by
  intro cpu notBoot online
  rcases setReserve_online succeed returns with ⟨nonzero, _⟩ | ⟨_, result⟩
  · exact absurd rfl nonzero
  · exact ((result cpu).mp online).2.resolve_left notBoot

private theorem WellPlaced.open_iff_hosts (placed : WellPlaced s) (cpu : Cpu) :
    (s.table cpu).cpuOpen = true ↔ 0 < (s.table cpu).cpuTasksLength := by
  constructor
  · intro opened
    obtain ⟨other, onCpu⟩ := exists_placed placed.consistent ((placed.weighted.opens cpu).mp opened)
    have member := (placed.consistent.represents.mem_iff cpu other).mpr onCpu
    have length := length_entries (placed.consistent.represents.admitted cpu).nonneg
    have positive := List.length_pos_of_mem member
    omega
  · exact placed.weighted.hostsOpen placed.consistent cpu

/-- In every run of such operations every CPU that hosts a reservation is
online.  From the first successful call of `set_reserve` on, the other CPUs are
offline, except CPU 0. -/
theorem reaches_gated (reached : Reaches step GateCall Boot s) :
    (∀ cpu, 0 < (s.table cpu).cpuTasksLength → s.cpuOnline cpu = true) ∧
    ∀ srv tid budget period cpuid s₁ s₂, GateCall s (.setReserve srv tid budget period cpuid) →
      s.setReserve srv tid budget period cpuid = .ok (0, s₁) →
      Reaches step GateCall (fun state => state = s₁) s₂ → ∀ cpu, cpu ≠ 0 →
        (s₂.cpuOnline cpu = true ↔ 0 < (s₂.table cpu).cpuTasksLength) := by
  have kept : WellPlaced s ∧ OpenOnline s := by
    apply reached.invariant
    · intro state boot
      refine ⟨boot.wellPlaced, fun cpu opened => ?_⟩
      simp [(boot.table cpu).2.2] at opened
    · rintro state op target ⟨placed, online⟩ call taken
      exact ⟨placed.step call taken, (step_cpus placed call taken).openOnline online⟩
  obtain ⟨placed, online⟩ := kept
  refine ⟨fun cpu hosts => online cpu ((placed.open_iff_hosts cpu).mpr hosts), ?_⟩
  intro srv tid budget period cpuid s₁ s₂ call returns later
  have taken : step s (.setReserve srv tid budget period cpuid) = .ok s₁ := by
    rw [step, returns]
    rfl
  have gated : WellPlaced s₂ ∧ OpenOnline s₂ ∧ ClosedOffline s₂ := by
    apply later.invariant
    · rintro state rfl
      exact ⟨placed.step call taken, (step_cpus placed call taken).openOnline online,
        setReserve_closedOffline call.reliable returns⟩
    · rintro state op target ⟨placed, opens, closes⟩ call taken
      have effect := step_cpus placed call taken
      exact ⟨placed.step call taken, effect.openOnline opens, effect.closedOffline closes⟩
  obtain ⟨placed₂, opens, closes⟩ := gated
  intro cpu notBoot
  rw [← placed₂.open_iff_hosts]
  exact ⟨closes cpu notBoot, opens cpu⟩

private theorem gateCall_reserveMillis {s : Kernel} {tid : Tid} {C T cpuid : ℤ}
    (live : s.exited tid = false) (valid : ValidTimes ⟨0, C * 1000000⟩ ⟨0, T * 1000000⟩)
    (fresh : (s.reserve tid).flag = false) (weighty :
      Timespec.millis ⟨0, T * 1000000⟩ ≤ 10000 * Timespec.millis ⟨0, C * 1000000⟩) :
    GateCall s (reserveMillis tid C T cpuid) := by
  obtain ⟨serial, inPlace⟩ := serial_reserveMillis live valid fresh
  exact ⟨serial, inPlace.orderly, weighty_reserveMillis weighty, allSucceed_succeed⟩

/-- Two tasks on CPU 0 leave the three other CPUs offline. -/
theorem reaches_gated_twoTasks : twoTasks.cpuOnline 1 = false ∧ ∀ cpu, cpu ≠ 0 →
    (twoTasks.cpuOnline cpu = true ↔ 0 < (twoTasks.table cpu).cpuTasksLength) := by
  have first : GateCall .bare (reserveMillis 1 1 10 0) :=
    gateCall_reserveMillis rfl ⟨by decide, by decide, by decide⟩ rfl (by decide)
  have second : GateCall (after step .bare (reserveMillis 1 1 10 0)) (reserveMillis 2 1 20 0) :=
    gateCall_reserveMillis (by decide) ⟨by decide, by decide, by decide⟩ (by decide) (by decide)
  have reached : Reaches step GateCall Boot (after step .bare (reserveMillis 1 1 10 0)) :=
    (Reaches.start boot_bare).after first (by decide)
  exact ⟨by decide, (reaches_gated reached).2 _ _ _ _ _ twoTasks twoTasks second rfl (.start rfl)⟩

end Rtes.Reservation
