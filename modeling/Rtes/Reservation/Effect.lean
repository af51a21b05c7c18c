import Rtes.Reservation.Invariant

/-!
# What an operation does to a task

A system call that names a task replaces the `reserve` member of that task and
changes the table and the CPUs, then the files of the task, and at last the
frequencies.  This module says once for all what becomes of the member, so that
invariants about timers, accumulators, energy and memory need not look at the
code of the calls again.
-/

namespace Rtes.Reservation

open Rtes.Sysclock Rtes.Transition Rtes.Word

/-! ## The stages of a reservation -/

namespace Reserve

variable (reserve : Reserve)

/-- A task that was not reserved before starts without a suspension. -/
def fresh : Reserve :=
  { reserve with
    suspend := reserve.flag && reserve.suspend
    taskmonEnabled := reserve.flag && reserve.taskmonEnabled }

/-- The task got its CPU and its times, and its period timer runs. -/
def started (C T : Timespec) (cpu : Cpu) : Reserve :=
  { reserve with
    cpu := cpu
    C := C
    T := T
    accSingleRun := ⟨0, 0⟩
    cTimer := false
    pTimer := true }

/-- The end of a successful call. -/
def committed (energyTracking : Bool) : Reserve :=
  { reserve with energy := 0, trackingEnergy := energyTracking, flag := true }

/-- Both timers are stopped. -/
def stopped : Reserve :=
  { reserve with cTimer := false, pTimer := false }

/-- The timers are stopped and the task is no longer reserved. -/
def cancelled : Reserve :=
  { reserve.stopped with flag := false }

variable {reserve} in
@[simp]
theorem fresh_of_reserved (flag : reserve.flag = true) : reserve.fresh = reserve := by
  simp only [fresh, flag, Bool.true_and]
  rw [← flag]

end Reserve

/-! ## Changing one task -/

/-- The member of one task is replaced, and only the table and the CPUs change
besides. -/
def Touches (t : Tid) (own : Reserve) (s s' : Kernel) : Prop :=
  s' = { s with
    reserve := Function.update s.reserve t own
    table := s'.table
    lastCpuIDRevise := s'.lastCpuIDRevise
    lastCpuIDCreate := s'.lastCpuIDCreate
    cpuOnline := s'.cpuOnline
    cpuDownCalls := s'.cpuDownCalls
    rollbacks := s'.rollbacks }

variable {s s' s'' : Kernel} {t : Tid} {own own' files files' : Reserve}

namespace Touches

/-- A change of the table and the CPUs only. -/
theorem keep (t : Tid) (same : s' = { s with
    table := s'.table
    lastCpuIDRevise := s'.lastCpuIDRevise
    lastCpuIDCreate := s'.lastCpuIDCreate
    cpuOnline := s'.cpuOnline
    cpuDownCalls := s'.cpuDownCalls
    rollbacks := s'.rollbacks }) : Touches t (s.reserve t) s s' := by
  unfold Touches
  rw [Function.update_eq_self]
  exact same

theorem modify (s : Kernel) (t : Tid) (f : Reserve → Reserve) :
    Touches t (f (s.reserve t)) s (s.modify t f) :=
  rfl

theorem trans (first : Touches t own s s') (second : Touches t own' s' s'') :
    Touches t own' s s'' := by
  unfold Touches at first second ⊢
  rw [second, first]
  simp only [Function.update_idem]

theorem reserve_eq (touches : Touches t own s s') :
    s'.reserve = Function.update s.reserve t own :=
  congrArg Kernel.reserve touches

theorem own_eq (touches : Touches t own s s') : s'.reserve t = own := by
  rw [touches.reserve_eq, Function.update_self]

/-- What is done to the member second is done to what it was after the first. -/
theorem andThen (f : Reserve → Reserve) (first : Touches t own s s')
    (second : Touches t (f (s'.reserve t)) s' s'') : Touches t (f own) s s'' := by
  have both := first.trans second
  rwa [first.own_eq] at both

end Touches

/-! ## CPUs and frequencies -/

theorem Kernel.touches_bringUp (srv : Services) (s : Kernel) (t : Tid) (cpu : Cpu) :
    Touches t (s.reserve t) s (s.bringUp srv cpu) := by
  unfold bringUp
  split
  · exact .keep t rfl
  · exact .keep t rfl

/-- The CPUs taken offline in between are closed in the end. -/
def Downs (s s' : Kernel) : Prop :=
  ∃ calls, s'.cpuDownCalls = calls ++ s.cpuDownCalls ∧
    ∀ cpu ∈ calls, (s'.table cpu).cpuOpen = false

theorem Downs.of_eq (calls : s'.cpuDownCalls = s.cpuDownCalls) : Downs s s' :=
  ⟨[], calls, by simp⟩

namespace Kernel

/-- Closed CPUs are taken offline, and nothing else happens. -/
theorem offlineClosed_eq (srv : Services) (online : Cpu → Bool) (cpus : List Cpu) (s : Kernel) :
    ∃ online' calls, offlineClosed srv online cpus s =
        { s with cpuOnline := online', cpuDownCalls := calls ++ s.cpuDownCalls } ∧
      ∀ cpu ∈ calls, (s.table cpu).cpuOpen = false := by
  induction cpus generalizing s with
  | nil => exact ⟨s.cpuOnline, [], rfl, by simp⟩
  | cons cpu rest ih =>
      rw [offlineClosed]
      split
      · rename_i taken
        obtain ⟨online', calls, result, closed⟩ := ih (s.cpuDown srv cpu)
        refine ⟨online', calls ++ [cpu], ?_, ?_⟩
        · rw [result]
          simp [cpuDown]
        · simp only [Bool.and_eq_true, Bool.not_eq_true'] at taken
          intro other member
          rcases List.mem_append.mp member with early | last
          · exact closed other early
          · rw [List.mem_singleton.mp last]
            exact taken.1.1
      · exact ih s

private theorem offlineIfClosed_eq (srv : Services) (s : Kernel) (cpu : Cpu) :
    ∃ online calls, s.offlineIfClosed srv cpu =
        { s with cpuOnline := online, cpuDownCalls := calls ++ s.cpuDownCalls } ∧
      ∀ cpu ∈ calls, (s.table cpu).cpuOpen = false := by
  unfold offlineIfClosed
  split
  · rename_i taken
    refine ⟨_, [cpu], rfl, ?_⟩
    intro other member
    rw [List.mem_singleton.mp member]
    simp only [Bool.and_eq_true, Bool.not_eq_true'] at taken
    exact taken.1
  · exact ⟨s.cpuOnline, [], rfl, by simp⟩

/-- Every governed online CPU of the list is set to the computed frequency, and
nothing else happens. -/
theorem setFrequencyLoop_eq {cpus : List Cpu} (returns : setFrequencyLoop s cpus = .ok s') :
    s' = { s with cpuCurFreq := s'.cpuCurFreq } ∧
      (∀ cpu, s'.cpuCurFreq cpu = s.cpuCurFreq cpu ∨
        sysclockCompute uint32 (collect s.reserve s.processes) = .ok (s'.cpuCurFreq cpu)) ∧
      ∀ cpu ∈ cpus, s.cpuOnline cpu = true → s.sysclockGovernor cpu = true →
        sysclockCompute uint32 (collect s.reserve s.processes) = .ok (s'.cpuCurFreq cpu) := by
  induction cpus generalizing s with
  | nil =>
      cases returns
      exact ⟨rfl, fun _ => .inl rfl, by simp⟩
  | cons cpu rest ih =>
      rw [setFrequencyLoop] at returns
      split at returns
      · obtain ⟨freq, computes, loops⟩ := bind_eq_ok_iff.mp returns
        obtain ⟨same, either, sets⟩ := ih loops
        dsimp only at either sets
        have now : ∀ other, s'.cpuCurFreq other = s.cpuCurFreq other ∨
            sysclockCompute uint32 (collect s.reserve s.processes) =
              .ok (s'.cpuCurFreq other) := by
          intro other
          rcases either other with kept | computed
          · rcases eq_or_ne other cpu with rfl | different
            · rw [kept, Function.update_self]
              exact .inr computes
            · rw [kept, Function.update_of_ne different]
              exact .inl rfl
          · exact .inr computed
        refine ⟨same, now, ?_⟩
        intro other member online governed
        rcases List.mem_cons.mp member with rfl | behind
        · rcases either other with kept | computed
          · rw [kept, Function.update_self]
            exact computes
          · exact computed
        · exact sets other behind online governed
      · rename_i skipped
        obtain ⟨same, either, sets⟩ := ih returns
        refine ⟨same, either, ?_⟩
        intro other member online governed
        rcases List.mem_cons.mp member with rfl | behind
        · simp [online, governed] at skipped
        · exact sets other behind online governed

theorem sysclockSetFrequency_eq (returns : sysclockSetFrequency s = .ok s') :
    s' = { s with cpuCurFreq := s'.cpuCurFreq } :=
  (setFrequencyLoop_eq returns).1

end Kernel

/-! ## Placing a task -/

/-- Only the parameters of one task and the table change. -/
structure Rebinds (t : Tid) (params : Params) (s s' : Kernel) : Prop where
  touches : Touches t ((s.reserve t).withParams params) s s'
  calls : s'.cpuDownCalls = s.cpuDownCalls

private theorem putBack_rebinds {old : Reserve} (returns : s.putBack t old = .ok s') :
    Rebinds t old.params s s' := by
  obtain ⟨⟨value, table⟩, _, result⟩ := bind_eq_ok_iff.mp returns
  cases result
  exact ⟨rfl, rfl⟩

theorem Rebinds.trans {params params' : Params} (first : Rebinds t params s s')
    (second : Rebinds t params' s' s'') : Rebinds t params' s s'' where
  touches := by
    have touches := first.touches.trans second.touches
    rwa [first.touches.own_eq] at touches
  calls := second.calls.trans first.calls

private theorem revise_rebinds {params : Params} {named cpuid : Option Cpu} {retval : ℤ}
    (returns : s.revise t params named = .ok (retval, cpuid, s')) :
    Rebinds t (if retval = 0 then params else (s.reserve t).params) s s' := by
  obtain ⟨taken, _, rest⟩ := bind_eq_ok_iff.mp returns
  obtain ⟨⟨value, chosen, last, table⟩, _, finish⟩ := bind_eq_ok_iff.mp rest
  have changed : Rebinds t params s { (s.modify t fun reserve => reserve.withParams params) with
      table := table, lastCpuIDRevise := last } := ⟨rfl, rfl⟩
  dsimp only at finish
  split at finish
  · rename_i nonzero
    obtain ⟨back, puts, result⟩ := bind_eq_ok_iff.mp finish
    cases result
    rw [if_neg nonzero]
    exact changed.trans (putBack_rebinds puts)
  · cases finish
    rw [if_pos rfl]
    exact changed

private theorem create_rebinds {params : Params} {named cpuid : Option Cpu} {retval : ℤ}
    (returns : s.create t params named = .ok (retval, cpuid, s')) : Rebinds t params s s' := by
  obtain ⟨⟨value, chosen, last, table⟩, _, result⟩ := bind_eq_ok_iff.mp returns
  cases result
  exact ⟨rfl, rfl⟩

/-- Placing a task changes its parameters; a refused revision restores them. -/
theorem assign_rebinds {params : Params} {named cpuid : Option Cpu} {retval : ℤ}
    (returns : s.assign t params named = .ok (retval, cpuid, s')) :
    Rebinds t (if (s.reserve t).flag = true ∧ retval ≠ 0 then (s.reserve t).params else params)
      s s' := by
  unfold Kernel.assign at returns
  split at returns
  · rename_i flag
    have rebinds := revise_rebinds returns
    by_cases zero : retval = 0
    · rw [if_pos zero] at rebinds
      rwa [if_neg (by simp [zero])]
    · rw [if_neg zero] at rebinds
      rwa [if_pos ⟨flag, zero⟩]
  · rename_i flag
    rw [if_neg (by simp [flag])]
    exact create_rebinds returns

private theorem undoBind_rebinds {cpu : Cpu} {old : Reserve}
    (returns : s.undoBind t cpu old = .ok s') :
    Rebinds t (if (s.reserve t).flag = true then old.params else (s.reserve t).params) s s' := by
  obtain ⟨taken, _, rest⟩ := bind_eq_ok_iff.mp returns
  dsimp only at rest
  split at rest
  · rename_i flag
    rw [if_pos flag]
    obtain ⟨touches, calls⟩ := putBack_rebinds rest
    exact ⟨touches, calls⟩
  · rename_i flag
    cases rest
    rw [if_neg flag]
    exact ⟨Touches.keep t rfl, rfl⟩

/-! ## After the binding -/

theorem resetFresh_eq (s : Kernel) (t : Tid) : s.resetFresh t = s.modify t Reserve.fresh := by
  unfold Kernel.resetFresh Kernel.modify
  split
  · rename_i flag
    rw [Reserve.fresh_of_reserved flag, Function.update_eq_self]
  · rename_i flag
    simp [Reserve.fresh, flag]

theorem prepare_touches (srv : Services) (s : Kernel) (t : Tid) (C T : Timespec) (cpu : Cpu)
    (online : Cpu → Bool) :
    Touches t ((s.reserve t).started C T cpu) s (s.prepare srv t C T cpu online) ∧
      Downs s (s.prepare srv t C T cpu online) := by
  unfold Kernel.prepare
  obtain ⟨online', calls, result, closed⟩ := Kernel.offlineClosed_eq srv online allCpus
    (s.modify t fun reserve => { reserve with cpu := cpu }).openBins
  dsimp only
  rw [result]
  refine ⟨?_, calls, rfl, closed⟩
  simp only [Touches, Kernel.startTimers, Kernel.modify, Kernel.openBins, Function.update_self,
    Function.update_idem]
  rfl

theorem commit_eq (commits : s.commit t = .ok s') :
    s' = { s.modify t fun reserve => reserve.committed s.energyTracking with
      cpuCurFreq := s'.cpuCurFreq } :=
  Kernel.sysclockSetFrequency_eq commits

/-- What a call does to the task it names: the arguments are rejected, the task
is refused, its affinity cannot be set, a file cannot be set up, or the
reservation is installed. -/
inductive SetEffect (srv : Services) (s : Kernel) (t : Tid) (budget period : Option Timespec) :
    ℤ → Kernel → Prop
  | rejected {retval : ℤ} : retval ≠ 0 → SetEffect srv s t budget period retval s
  | refused {retval : ℤ} {params : Params} {s' : Kernel} : retval ≠ 0 →
      ((s.reserve t).flag = true → params = (s.reserve t).params) → Rebinds t params s s' →
      SetEffect srv s t budget period retval s'
  | undone {params : Params} {s' : Kernel} :
      ((s.reserve t).flag = true → params = (s.reserve t).params) →
      Touches t ((s.reserve t).fresh.withParams params) s s' →
      s'.cpuDownCalls = s.cpuDownCalls → SetEffect srv s t budget period EINVAL s'
  | failed {retval : ℤ} {C T : Timespec} {params : Params} {cpu : Cpu} {files : Reserve}
      {prepared s' : Kernel} : retval ≠ 0 → ¬ FilesSucceed srv →
      C ∈ budget → T ∈ period → paramsOf C T = .ok params →
      Touches t (((s.reserve t).fresh.withParams params).started C T cpu) s prepared →
      Downs s prepared → Files t files prepared s' → SetEffect srv s t budget period retval s'
  | installed {C T : Timespec} {params : Params} {cpu : Cpu} {prepared s' : Kernel} :
      C ∈ budget → T ∈ period → paramsOf C T = .ok params →
      Touches t (((s.reserve t).fresh.withParams params).started C T cpu) s prepared →
      Downs s prepared →
      ((prepared.setUpTidFile srv t).2.setUpEnergyFile srv t).2.commit t = .ok s' →
      SetEffect srv s t budget period 0 s'

private theorem afterBind_effect {srv : Services} {budget period : Option Timespec} {C T : Timespec}
    {params : Params} {cpu : Cpu} {retval : ℤ} {bound : Kernel} (isBudget : C ∈ budget)
    (isPeriod : T ∈ period) (converts : paramsOf C T = .ok params)
    (rebinds : Rebinds t params s bound)
    (returns : bound.afterBind srv t C T cpu (s.reserve t) = .ok (retval, s')) :
    SetEffect srv s t budget period retval s' := by
  have reset : Touches t ((s.reserve t).fresh.withParams params) s
      ((bound.resetFresh t).bringUp srv cpu) := by
    rw [resetFresh_eq]
    exact (rebinds.touches.andThen Reserve.fresh (.modify bound t _)).andThen id
      (Kernel.touches_bringUp srv _ t cpu)
  have calls : ((bound.resetFresh t).bringUp srv cpu).cpuDownCalls = s.cpuDownCalls := by
    rw [resetFresh_eq]
    refine Eq.trans ?_ rebinds.calls
    unfold Kernel.bringUp
    split
    · rfl
    · rfl
  unfold Kernel.afterBind at returns
  dsimp only at returns
  split at returns
  · obtain ⟨prepares, downs⟩ := prepare_touches srv ((bound.resetFresh t).bringUp srv cpu) t C T
      cpu (Function.update (bound.resetFresh t).cpuOnline cpu true)
    replace prepares := reset.andThen (fun own => own.started C T cpu) prepares
    rw [Downs, calls] at downs
    rcases install_files rfl rfl returns with ⟨rfl, commits⟩ | ⟨nonzero, fails, rfl | rfl⟩
    · exact .installed isBudget isPeriod converts prepares downs commits
    · obtain ⟨files, kept⟩ := Kernel.files_setUpTidFile srv _ t
      exact .failed nonzero fails isBudget isPeriod converts prepares downs kept
    · obtain ⟨named, first⟩ := Kernel.files_setUpTidFile srv _ t
      obtain ⟨files, second⟩ := Kernel.files_setUpEnergyFile srv _ t
      exact .failed nonzero fails isBudget isPeriod converts prepares downs (first.trans second)
  · obtain ⟨undone, undoes, result⟩ := bind_eq_ok_iff.mp returns
    cases result
    obtain ⟨touches, same⟩ := undoBind_rebinds undoes
    refine .undone ?_ (reset.andThen (fun own => own.withParams _) touches) (same.trans calls)
    intro flag
    rw [reset.own_eq]
    exact if_pos flag

/-- What a call of `set_reserve` does to the task it names. -/
theorem setReserve_effect {srv : Services} {budget period : Option Timespec} {cpuid retval : ℤ}
    (returns : s.setReserve srv t budget period cpuid = .ok (retval, s')) :
    SetEffect srv s t budget period retval s' := by
  rcases setReserve_cases returns with
    ⟨nonzero, rfl, _⟩ | ⟨C, T, params, value, chosen, placed, checked, converts, places, finish⟩
  · exact .rejected nonzero
  · have rebinds := assign_rebinds places
    rcases finish with ⟨nonzero, rfl, rfl⟩ | ⟨cpu, rfl, _, continues⟩
    · refine .refused nonzero ?_ rebinds
      intro flag
      rw [if_pos ⟨flag, nonzero⟩]
    · rw [if_neg (by simp)] at rebinds
      exact afterBind_effect checked.budget checked.period converts rebinds continues

/-- A task that is not found is left alone. -/
theorem setReserve_missing {srv : Services} {budget period : Option Timespec} {cpuid retval : ℤ}
    (missing : s.found t = false)
    (returns : s.setReserve srv t budget period cpuid = .ok (retval, s')) : s' = s := by
  rcases setReserve_cases returns with ⟨_, same, _⟩ | ⟨_, _, _, _, _, _, checked, _⟩
  · exact same
  · have found := checked.found
    simp [missing] at found

/-! ## Releasing a reservation -/

@[simp]
theorem modify_modify (s : Kernel) (t : Tid) (f g : Reserve → Reserve) :
    (s.modify t f).modify t g = s.modify t fun reserve => g (f reserve) := by
  simp only [Kernel.modify, Function.update_self, Function.update_idem]

/-- The task is taken out of the table and possibly its CPU taken offline. -/
theorem release_touches {srv : Services} (returns : s.release srv t = .ok s') :
    Touches t (s.reserve t) s s' ∧ Downs s s' := by
  obtain ⟨taken, _, result⟩ := bind_eq_ok_iff.mp returns
  cases result
  obtain ⟨online, calls, result, closed⟩ := Kernel.offlineIfClosed_eq srv { s with
    table := Function.update taken (s.reserve t).cpu (taken (s.reserve t).cpu).closeIfIdle }
    (s.reserve t).cpu
  dsimp only at result ⊢
  rw [result]
  exact ⟨.keep t rfl, calls, rfl, closed⟩

/-- What a call of `cancel_reserve` does: the task is not found, its affinity
cannot be set, or its files are removed, after it was released if it was
reserved. -/
inductive CancelEffect (srv : Services) (s : Kernel) (t : Tid) : ℤ → Kernel → Prop
  | missing : s.found t = false → CancelEffect srv s t ESRCH s
  | refused : s.found t = true → (s.reserve t).flag = true → srv.schedSetaffinity = false →
      CancelEffect srv s t EINVAL (s.stopTimers t)
  | idle {s' : Kernel} : s.found t = true → (s.reserve t).flag = false →
      sysclockSetFrequency ((s.removeTidFile t).dropEnergyFile t) = .ok s' →
      CancelEffect srv s t 0 s'
  | released {released s' : Kernel} : s.found t = true → (s.reserve t).flag = true →
      srv.schedSetaffinity = true → (s.modify t Reserve.cancelled).release srv t = .ok released →
      sysclockSetFrequency ((released.removeTidFile t).dropEnergyFile t) = .ok s' →
      CancelEffect srv s t 0 s'

theorem cancelReserve_effect {srv : Services} {retval : ℤ}
    (returns : s.cancelReserve srv t = .ok (retval, s')) : CancelEffect srv s t retval s' := by
  unfold Kernel.cancelReserve at returns
  split at returns
  · rename_i missing
    cases returns
    exact .missing (by simpa using missing)
  · rename_i present
    have found : s.found t = true := by simpa using present
    obtain ⟨⟨value, unreserved⟩, unreserves, rest⟩ := bind_eq_ok_iff.mp returns
    unfold Kernel.unreserve at unreserves
    cases flag : (s.reserve t).flag with
    | false =>
        simp only [flag, Bool.not_false, if_true] at unreserves
        cases unreserves
        obtain ⟨finished, finishes, result⟩ := bind_eq_ok_iff.mp rest
        cases result
        exact .idle found flag finishes
    | true =>
        cases affinity : srv.schedSetaffinity with
        | false =>
            simp only [flag, affinity, Bool.not_true, Bool.not_false, Bool.false_eq_true, if_false,
              if_true] at unreserves
            cases unreserves
            cases rest
            exact .refused found flag affinity
        | true =>
            simp only [flag, affinity, Bool.not_true, Bool.false_eq_true, if_false] at unreserves
            obtain ⟨released, releases, result⟩ := bind_eq_ok_iff.mp unreserves
            cases result
            rw [Kernel.stopTimers, modify_modify] at releases
            obtain ⟨finished, finishes, result⟩ := bind_eq_ok_iff.mp rest
            cases result
            exact .released found flag affinity releases finishes

/-- What `do_exit` does: a reserved task is stopped, its files are removed, and
it is released; its flag stays set. -/
inductive ExitEffect (srv : Services) (s : Kernel) (t : Tid) : Kernel → Prop
  | idle : (s.reserve t).flag = false → ExitEffect srv s t s
  | released {filed s' : Kernel} : (s.reserve t).flag = true →
      filed = ((s.stopTimers t).removeTidFile t).dropEnergyFile t →
      filed.release srv t = .ok s' → ExitEffect srv s t s'

theorem doExit_effect {srv : Services} (returns : s.doExit srv t = .ok s') :
    ∃ released, ExitEffect srv s t released ∧
      s' = { released with exited := Function.update released.exited t true } := by
  obtain ⟨released, releases, result⟩ := bind_eq_ok_iff.mp returns
  cases result
  refine ⟨released, ?_, rfl⟩
  unfold Kernel.exitReserve at releases
  split at releases
  · rename_i flag
    exact .released flag rfl releases
  · rename_i flag
    cases releases
    exact .idle (by simpa using flag)

/-- A task without reservation just exits. -/
theorem doExit_idle {srv : Services} (flag : (s.reserve t).flag = false)
    (returns : s.doExit srv t = .ok s') :
    s' = { s with exited := Function.update s.exited t true } := by
  obtain ⟨released, effect, rfl⟩ := doExit_effect returns
  cases effect with
  | idle _ => rfl
  | released reserved => simp [flag] at reserved

/-! ## The task in the end -/

/-- The member of one task is replaced, and besides only the table, the CPUs, the
memory and the frequencies change. -/
def Changes (t : Tid) (own : Reserve) (s s' : Kernel) : Prop :=
  s' = { s with
    reserve := Function.update s.reserve t own
    table := s'.table
    lastCpuIDRevise := s'.lastCpuIDRevise
    lastCpuIDCreate := s'.lastCpuIDCreate
    cpuOnline := s'.cpuOnline
    cpuDownCalls := s'.cpuDownCalls
    rollbacks := s'.rollbacks
    allocated := s'.allocated
    nextAddr := s'.nextAddr
    cpuCurFreq := s'.cpuCurFreq }

namespace Changes

theorem refl (s : Kernel) (t : Tid) : Changes t (s.reserve t) s s := by
  unfold Changes
  rw [Function.update_eq_self]

theorem reserve_eq (changes : Changes t own s s') :
    s'.reserve = Function.update s.reserve t own :=
  congrArg Kernel.reserve changes

theorem own_eq (changes : Changes t own s s') : s'.reserve t = own := by
  rw [changes.reserve_eq, Function.update_self]

theorem others (changes : Changes t own s s') {other : Tid} (different : other ≠ t) :
    s'.reserve other = s.reserve other := by
  rw [changes.reserve_eq, Function.update_of_ne different]

theorem exited_eq (changes : Changes t own s s') : s'.exited = s.exited := by
  rw [changes]

theorem found_eq (changes : Changes t own s s') : s'.found = s.found := by
  rw [changes]

theorem processes_eq (changes : Changes t own s s') : s'.processes = s.processes := by
  rw [changes]

theorem governor_eq (changes : Changes t own s s') :
    s'.sysclockGovernor = s.sysclockGovernor := by
  rw [changes]

theorem andThen (f : Reserve → Reserve) (first : Changes t own s s')
    (second : Changes t (f (s'.reserve t)) s' s'') : Changes t (f own) s s'' := by
  rw [first.own_eq] at second
  unfold Changes at first second ⊢
  rw [second, first]
  simp only [Function.update_idem]

end Changes

theorem Touches.changes (touches : Touches t own s s') : Changes t own s s' := by
  unfold Changes
  rw [touches]

theorem Files.changes (kept : Files t files s s') :
    Changes t ((s.reserve t).withFiles files) s s' := by
  unfold Changes
  rw [kept.eq]

private theorem changes_of_frequency (same : s' = { s with cpuCurFreq := s'.cpuCurFreq })
    (t : Tid) :
    Changes t (s.reserve t) s s' := by
  unfold Changes
  rw [Function.update_eq_self, same]

theorem commit_changes (commits : s.commit t = .ok s') :
    Changes t ((s.reserve t).committed s.energyTracking) s s' := by
  unfold Changes
  rw [commit_eq commits]
  rfl

/-- What becomes of the member of a task that a call of `set_reserve` names. -/
inductive SetOwn (srv : Services) (energyTracking : Bool) (budget period : Option Timespec)
    (reserve : Reserve) : ℤ → Reserve → Prop
  | refused {retval : ℤ} {params : Params} : retval ≠ 0 →
      (reserve.flag = true → params = reserve.params) →
      SetOwn srv energyTracking budget period reserve retval (reserve.withParams params)
  | undone {retval : ℤ} {params : Params} : retval ≠ 0 →
      (reserve.flag = true → params = reserve.params) →
      SetOwn srv energyTracking budget period reserve retval (reserve.fresh.withParams params)
  | failed {retval : ℤ} {C T : Timespec} {params : Params} {cpu : Cpu} {files : Reserve} :
      retval ≠ 0 → ¬ FilesSucceed srv → C ∈ budget → T ∈ period → paramsOf C T = .ok params →
      SetOwn srv energyTracking budget period reserve retval
        (((reserve.fresh.withParams params).started C T cpu).withFiles files)
  | installed {C T : Timespec} {params : Params} {cpu : Cpu} {files : Reserve} :
      C ∈ budget → T ∈ period → paramsOf C T = .ok params →
      SetOwn srv energyTracking budget period reserve 0
        ((((reserve.fresh.withParams params).started C T cpu).withFiles files).committed
          energyTracking)

theorem setReserve_changes {srv : Services} {budget period : Option Timespec} {cpuid retval : ℤ}
    (returns : s.setReserve srv t budget period cpuid = .ok (retval, s')) :
    ∃ own, SetOwn srv s.energyTracking budget period (s.reserve t) retval own ∧
      Changes t own s s' := by
  cases setReserve_effect returns with
  | rejected nonzero =>
      exact ⟨(s.reserve t).withParams (s.reserve t).params, .refused nonzero fun _ => rfl,
        .refl s t⟩
  | refused nonzero kept rebinds => exact ⟨_, .refused nonzero kept, rebinds.touches.changes⟩
  | undone kept touches _ => exact ⟨_, .undone (by decide) kept, touches.changes⟩
  | failed nonzero fails isBudget isPeriod converts touches _ kept =>
      exact ⟨_, .failed nonzero fails isBudget isPeriod converts,
        touches.changes.andThen (fun own => own.withFiles _) kept.changes⟩
  | @installed _ _ _ _ prepared _ isBudget isPeriod converts touches _ commits =>
      obtain ⟨_, named⟩ := Kernel.files_setUpTidFile srv prepared t
      obtain ⟨files, filed⟩ := Kernel.files_setUpEnergyFile srv (prepared.setUpTidFile srv t).2 t
      have both := touches.changes.andThen (fun own => own.withFiles files)
        (named.trans filed).changes
      have tracking := congrArg Kernel.energyTracking both
      have finish := commit_changes commits
      rw [tracking] at finish
      exact ⟨_, .installed isBudget isPeriod converts,
        both.andThen (fun own => own.committed s.energyTracking) finish⟩

/-- What becomes of the member of a task that a call of `cancel_reserve` names. -/
inductive CancelOwn (srv : Services) (found : Bool) (reserve : Reserve) : ℤ → Reserve → Prop
  | missing : found = false → CancelOwn srv found reserve ESRCH reserve
  | refused : found = true → reserve.flag = true → srv.schedSetaffinity = false →
      CancelOwn srv found reserve EINVAL reserve.stopped
  | idle {files : Reserve} : found = true → reserve.flag = false →
      (files.trackingEnergy = true → reserve.trackingEnergy = true) →
      CancelOwn srv found reserve 0 (reserve.withFiles files)
  | released {files : Reserve} : found = true → reserve.flag = true →
      srv.schedSetaffinity = true →
      (files.trackingEnergy = true → reserve.trackingEnergy = true) →
      CancelOwn srv found reserve 0 (reserve.cancelled.withFiles files)

theorem cancelReserve_changes {srv : Services} {retval : ℤ}
    (returns : s.cancelReserve srv t = .ok (retval, s')) :
    ∃ own, CancelOwn srv (s.found t) (s.reserve t) retval own ∧ Changes t own s s' := by
  -- Whatever the task was before, its files are removed and the frequencies set.
  have finish : ∀ now, sysclockSetFrequency ((now.removeTidFile t).dropEnergyFile t) = .ok s' →
      ∃ files : Reserve, (files.trackingEnergy = true → (now.reserve t).trackingEnergy = true) ∧
        Changes t ((now.reserve t).withFiles files) now s' := by
    intro now finishes
    obtain ⟨_, unnamed⟩ := Kernel.files_removeTidFile now t
    obtain ⟨files, unfiled⟩ := Kernel.files_dropEnergyFile (now.removeTidFile t) t
    have kept := unnamed.trans unfiled
    exact ⟨files, kept.tracking, kept.changes.andThen id
      (changes_of_frequency (Kernel.sysclockSetFrequency_eq finishes) t)⟩
  cases cancelReserve_effect returns with
  | missing missing => exact ⟨_, .missing missing, .refl s t⟩
  | refused found flag affinity =>
      exact ⟨_, .refused found flag affinity, Touches.changes rfl⟩
  | idle found flag finishes =>
      obtain ⟨files, tracking, changes⟩ := finish s finishes
      exact ⟨_, .idle found flag tracking, changes⟩
  | released found flag affinity releases finishes =>
      obtain ⟨files, tracking, changes⟩ := finish _ finishes
      have touches : Touches t (s.reserve t).cancelled s _ :=
        Touches.andThen id (.modify s t _) (release_touches releases).1
      rw [touches.own_eq] at tracking
      exact ⟨_, .released found flag affinity tracking,
        touches.changes.andThen (fun own => own.withFiles files) changes⟩

/-- What becomes of the member of a task that exits. -/
inductive ExitOwn (reserve : Reserve) : Reserve → Prop
  | idle : reserve.flag = false → ExitOwn reserve reserve
  | released {files : Reserve} : reserve.flag = true →
      (files.trackingEnergy = true → reserve.trackingEnergy = true) →
      ExitOwn reserve (reserve.stopped.withFiles files)

theorem doExit_changes {srv : Services} (returns : s.doExit srv t = .ok s') :
    ∃ own released, ExitOwn (s.reserve t) own ∧ Changes t own s released ∧
      s' = { released with exited := Function.update s.exited t true } := by
  obtain ⟨released, effect, rfl⟩ := doExit_effect returns
  cases effect with
  | idle flag => exact ⟨_, s, .idle flag, .refl s t, rfl⟩
  | released flag isFiled releases =>
      obtain ⟨_, unnamed⟩ := Kernel.files_removeTidFile (s.stopTimers t) t
      obtain ⟨files, unfiled⟩ := Kernel.files_dropEnergyFile ((s.stopTimers t).removeTidFile t) t
      have kept := unnamed.trans unfiled
      rw [← isFiled] at kept
      have stops : Touches t (s.reserve t).stopped s (s.stopTimers t) := rfl
      have changes := (stops.changes.andThen (fun own => own.withFiles files) kept.changes).andThen
        id (release_touches releases).1.changes
      have tracking := kept.tracking
      rw [stops.own_eq] at tracking
      refine ⟨_, released, .released flag tracking, changes, ?_⟩
      rw [changes.exited_eq]

end Rtes.Reservation
