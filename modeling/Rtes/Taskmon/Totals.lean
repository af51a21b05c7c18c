import Rtes.Taskmon.Ledger
import Rtes.Transition.Simulation

/-!
# The total under its lock

The total is charged by every CPU that switches a tracked task out, and started again by
a write to its file.  Both take a lock, which nobody initialises before the files are
written to for the first time: a store that finds the flag `lock_initialized` unset writes
an unlocked lock and sets the flag.  The parties are modelled instruction by instruction,
in any order, and the updates of the total are recorded when they are begun and when they
take effect.
-/

namespace Rtes.Taskmon

open Rtes.Reservation Rtes.Transition Rtes.Word

/-! ## Updates -/

/-- What is done to the total under the lock. -/
inductive Update
  | reset
  | add (increment : ℕ)
  deriving DecidableEq, Repr

/-- The total after an update. -/
def Update.apply (total : ℕ) : Update → ℕ
  | .reset => 0
  | .add increment => uint32 (total + increment)

/-- The updates of the total by an operation of the station. -/
def updatesOf (st : Station) : StationOp → List Update
  | .core (.switchOut t) =>
      if (st.system.kernel.reserve t).trackingEnergy then [.add (st.system.kernel.runEnergy t)]
      else []
  | .totalEnergyStore _ => if st.system.taskmonLoaded then [.reset] else []
  | _ => []

private theorem updatesOf_eq_nil {st : Station} {op : StationOp}
    (noSwitch : ∀ t, op ≠ .core (.switchOut t)) (noStore : ∀ buf, op ≠ .totalEnergyStore buf) :
    updatesOf st op = [] := by
  unfold updatesOf
  split
  · exact absurd rfl (noSwitch _)
  · exact absurd rfl (noStore _)
  · rfl

/-- The total of the station changes by these updates only. -/
theorem stationStep_totalEnergy {st st' : Station} {op : StationOp}
    (taken : stationStep st op = .ok st') :
    st'.system.kernel.totalEnergy =
      (updatesOf st op).foldl Update.apply st.system.kernel.totalEnergy := by
  by_cases stores : ∃ buf, op = .totalEnergyStore buf
  · obtain ⟨buf, rfl⟩ := stores
    cases taken
    rw [updatesOf, onFile]
    split
    · rfl
    · rfl
  by_cases switches : ∃ t, op = .core (.switchOut t)
  · obtain ⟨t, rfl⟩ := switches
    obtain ⟨system, steps, result⟩ := bind_eq_ok_iff.mp taken
    cases result
    obtain ⟨kernel, steps, result⟩ := bind_eq_ok_iff.mp steps
    cases steps
    cases result
    rw [updatesOf]
    dsimp only
    rw [switchOut_totalEnergy]
    split
    · rfl
    · rfl
  · rw [updatesOf_eq_nil (fun t same => switches ⟨t, same⟩) fun buf same => stores ⟨buf, same⟩,
      List.foldl_nil]
    rcases stationStep_lower taken with ⟨below, isBelow, steps⟩ | own
    · apply totalEnergy_eq_of_effect (systemStep_kernel steps)
      intro t same
      exact switches ⟨t, lower_switchOut (isBelow.trans (congrArg some same))⟩
    · exact own.total fun buf same => stores ⟨buf, same⟩

/-- What was charged since the total was started again. -/
def Update.note (charges : List ℕ) : Update → List ℕ
  | .reset => []
  | .add increment => charges ++ [increment]

private theorem Update.foldl_apply (updates : List Update) (charges : List ℕ) :
    updates.foldl Update.apply (uint32 charges.sum) =
      uint32 (updates.foldl Update.note charges).sum := by
  induction updates generalizing charges with
  | nil => rfl
  | cons update updates ih =>
      rw [List.foldl_cons, List.foldl_cons, ← ih]
      congr 1
      cases update with
      | reset => rfl
      | add increment => simp [Update.apply, Update.note, uint32]

def chargedStep : Station × List ℕ → StationOp → Except Fault (Station × List ℕ) :=
  observe stationStep fun st op _ charges => (updatesOf st op).foldl Update.note charges

/-- In every run of the station, the total is the sum, modulo 2^32, of what was charged to tracked
tasks that were switched out since the last write to its file. -/
theorem reaches_totalEnergy {now : Station × List ℕ}
    (reached : Reaches chargedStep (fun _ _ => True)
      (fun now => now.1.system.kernel.totalEnergy = 0 ∧ now.2 = []) now) :
    now.1.system.kernel.totalEnergy = uint32 now.2.sum := by
  apply reached.observed
  · rintro ⟨st, charges⟩ ⟨zero, none⟩
    cases none
    exact zero
  · rintro ⟨st, charges⟩ op st' total _ taken
    dsimp only at total ⊢
    rw [stationStep_totalEnergy taken, total, Update.foldl_apply]

/-- Task 1 is charged for two ticks, the total is written to, and it is charged for another
three. -/
def chargedTwice : List StationOp :=
  [.core (reserveMillis 1 5 10 0), .core (.cTimer 1), .core (.cTimer 1), .core (.switchOut 1),
    .totalEnergyStore ['0'], .core (.cTimer 1), .core (.cTimer 1), .core (.cTimer 1),
    .core (.switchOut 1)]

example :
    (chargedTwice.foldl (after chargedStep) (trackingStation, [])).2 = [40] ∧
      (chargedTwice.foldl (after chargedStep) (trackingStation, [])).1.system.kernel.totalEnergy =
        40 := by
  decide

/-! ## The parties -/

/-- What a store does once the lock is looked after. -/
inductive StoreCall
  | total
  | tracking (energyTracking : Bool)
  deriving DecidableEq, Repr

/-- Where a party is.  From `load` to `release` it has the lock. -/
inductive Place
  | idle
  | resetLock (store : StoreCall)
  | setFlag (store : StoreCall)
  | storeTracking (energyTracking : Bool)
  | acquire (update : Update)
  | load (increment : ℕ)
  | write (update : Update) (value : ℕ)
  | release
  deriving DecidableEq, Repr

namespace Place

/-- The party found the flag unset and has not set it. -/
def Initializes : Place → Prop
  | .resetLock _ => True
  | .setFlag _ => True
  | _ => False

/-- The party has the lock. -/
def Holds : Place → Prop
  | .load _ => True
  | .write _ _ => True
  | .release => True
  | _ => False

/-- The party is past the check of the flag, or it did not need one. -/
def Ready : Place → Prop
  | .idle => False
  | .resetLock _ => False
  | .setFlag _ => False
  | _ => True

instance decidableInitializes (place : Place) : Decidable place.Initializes :=
  match place with
  | .resetLock _ | .setFlag _ => .isTrue trivial
  | .idle | .storeTracking _ | .acquire _ | .load _ | .write _ _ | .release => .isFalse not_false

theorem Holds.ready {place : Place} (holds : place.Holds) : place.Ready := by
  cases place with
  | load | write | release => trivial
  | _ => cases holds

/-- The update that was begun and did not take effect. -/
def pending : Place → List Update
  | .resetLock .total => [.reset]
  | .setFlag .total => [.reset]
  | .acquire update => [update]
  | .load increment => [.add increment]
  | .write update _ => [update]
  | _ => []

@[simp]
private theorem pending_idle : Place.idle.pending = [] :=
  rfl

end Place

/-- After the check of the flag. -/
def StoreCall.next : StoreCall → Place
  | .total => .acquire .reset
  | .tracking energyTracking => .storeTracking energyTracking

/-- After the lock was taken. -/
def Update.entered : Update → Place
  | .reset => .write .reset 0
  | .add increment => .load increment

/-- What the parties share, and where they are. -/
structure Totals (Party : Type) where
  lock : Bool
  lockInitialized : Bool
  energyTracking : Bool
  totalEnergy : ℕ
  trackingEnergy : Tid → Bool
  place : Party → Place

/-- A party begins a call, the reservation of a task changes, or a party goes on with what it
is at. -/
inductive Turn (Party : Type)
  | totalEnergyStore (p : Party)
  | energyTrackingStore (p : Party) (energyTracking : Bool)
  | switchOut (p : Party) (t : Tid) (increment : ℕ)
  | setReserve (t : Tid)
  | cancelReserve (t : Tid)
  | copyProcess (parent child : Tid)
  | advance (p : Party)

section Parties

variable {Party : Type} [DecidableEq Party]

namespace Totals

def goTo (c : Totals Party) (p : Party) (place : Place) : Totals Party :=
  { c with place := Function.update c.place p place }

/-- A store begins with a look at the flag. -/
def enter (c : Totals Party) (p : Party) (store : StoreCall) : Totals Party :=
  c.goTo p (if c.lockInitialized then store.next else .resetLock store)

/-- The next instruction of a party.  One that finds the lock taken tries again. -/
def advance (c : Totals Party) (p : Party) : Totals Party :=
  match c.place p with
  | .idle => c
  | .resetLock store => { c.goTo p (.setFlag store) with lock := false }
  | .setFlag store => { c.goTo p store.next with lockInitialized := true }
  | .storeTracking energyTracking => { c.goTo p .idle with energyTracking := energyTracking }
  | .acquire update => if c.lock then c else { c.goTo p update.entered with lock := true }
  | .load increment => c.goTo p (.write (.add increment) (uint32 (c.totalEnergy + increment)))
  | .write _ value => { c.goTo p .release with totalEnergy := value }
  | .release => { c.goTo p .idle with lock := false }

end Totals

/-- The state after a turn. -/
def turnStep (c : Totals Party) : Turn Party → Except Fault (Totals Party)
  | .totalEnergyStore p => .ok (c.enter p .total)
  | .energyTrackingStore p energyTracking => .ok (c.enter p (.tracking energyTracking))
  | .switchOut p _ increment => .ok (c.goTo p (.acquire (.add increment)))
  | .setReserve t =>
      .ok { c with trackingEnergy := Function.update c.trackingEnergy t c.energyTracking }
  | .cancelReserve t => .ok { c with trackingEnergy := Function.update c.trackingEnergy t false }
  | .copyProcess parent child =>
      .ok { c with
        trackingEnergy := Function.update c.trackingEnergy child (c.trackingEnergy parent) }
  | .advance p => .ok (c.advance p)

/-- The updates that each party began, and all that took effect, in their order. -/
structure Updates (Party : Type) where
  begun : Party → List Update
  done : List (Party × Update)

namespace Updates

def begin (j : Updates Party) (p : Party) (update : Update) : Updates Party :=
  { j with begun := Function.update j.begun p (j.begun p ++ [update]) }

/-- An update takes effect when it is written. -/
def finish (j : Updates Party) (p : Party) : Place → Updates Party
  | .write update _ => { j with done := j.done ++ [(p, update)] }
  | _ => j

/-- The updates of a party that took effect. -/
def doneBy (j : Updates Party) (p : Party) : List Update :=
  (j.done.filter (·.1 = p)).map Prod.snd

/-- The total that the updates make. -/
def total (j : Updates Party) : ℕ :=
  (j.done.map Prod.snd).foldl Update.apply 0

end Updates

def record (c : Totals Party) (turn : Turn Party) (_ : Totals Party) (j : Updates Party) :
    Updates Party :=
  match turn with
  | .totalEnergyStore p => j.begin p .reset
  | .switchOut p _ increment => j.begin p (.add increment)
  | .advance p => j.finish p (c.place p)
  | _ => j

def updatesStep : Totals Party × Updates Party → Turn Party →
    Except Fault (Totals Party × Updates Party) :=
  observe turnStep record

/-- A party begins a call when it is not in one, and only tracked tasks are charged. -/
def Starts (c : Totals Party) : Turn Party → Prop
  | .totalEnergyStore p => c.place p = .idle
  | .energyTrackingStore p _ => c.place p = .idle
  | .switchOut p t _ => c.place p = .idle ∧ c.trackingEnergy t = true
  | _ => True

/-- No store begins while another one initialises the lock. -/
def Unraced (c : Totals Party) : Turn Party → Prop
  | .totalEnergyStore _ => ∀ q, ¬ (c.place q).Initializes
  | .energyTrackingStore _ _ => ∀ q, ¬ (c.place q).Initializes
  | _ => True

instance decidableStarts (c : Totals Party) (turn : Turn Party) : Decidable (Starts c turn) :=
  match turn with
  | .totalEnergyStore p | .energyTrackingStore p _ => inferInstanceAs (Decidable (c.place p = _))
  | .switchOut p t _ => inferInstanceAs (Decidable (c.place p = _ ∧ c.trackingEnergy t = true))
  | .setReserve _ | .cancelReserve _ | .copyProcess _ _ | .advance _ => .isTrue trivial

instance decidableUnraced [Fintype Party] (c : Totals Party) (turn : Turn Party) :
    Decidable (Unraced c turn) :=
  match turn with
  | .totalEnergyStore _ | .energyTrackingStore _ _ =>
      inferInstanceAs (Decidable (∀ q, ¬ (c.place q).Initializes))
  | .switchOut _ _ _ | .setReserve _ | .cancelReserve _ | .copyProcess _ _ | .advance _ =>
      .isTrue trivial

def Sequenced (now : Totals Party × Updates Party) (turn : Turn Party) : Prop :=
  Starts now.1 turn ∧ Unraced now.1 turn

instance [Fintype Party] (now : Totals Party × Updates Party) (turn : Turn Party) :
    Decidable (Sequenced now turn) :=
  inferInstanceAs (Decidable (_ ∧ _))

/-- The kernel has started, and nothing was written to the files. -/
structure Cold (now : Totals Party × Updates Party) : Prop where
  lock : now.1.lock = false
  energyTracking : now.1.energyTracking = false
  totalEnergy : now.1.totalEnergy = 0
  trackingEnergy : ∀ t, now.1.trackingEnergy t = false
  place : ∀ p, now.1.place p = .idle
  begun : ∀ p, now.2.begun p = []
  done : now.2.done = []

variable {c c' : Totals Party} {j : Updates Party} {p : Party} {place : Place}

/-! ## Initialisation -/

/-- Nobody needs the lock before the flag is set, and at most one party sets it. -/
structure Initialized (c : Totals Party) : Prop where
  ready : ∀ p, (c.place p).Ready → c.lockInitialized = true
  tracking : c.energyTracking = true → c.lockInitialized = true
  tracked : ∀ t, c.trackingEnergy t = true → c.lockInitialized = true
  unset : ∀ p, (c.place p).Initializes → c.lockInitialized = false
  alone : ∀ p q, (c.place p).Initializes → (c.place q).Initializes → p = q

namespace Initialized

/-- A party goes to a place where it needs the lock only if the flag is set, and that it may
initialise from only if it is alone. -/
theorem goTo (inv : Initialized c) (p : Party) (place : Place)
    (ready : place.Ready → c.lockInitialized = true)
    (first : place.Initializes →
      c.lockInitialized = false ∧ ∀ q ≠ p, ¬ (c.place q).Initializes) :
    Initialized (c.goTo p place) where
  ready := (Function.forall_update_iff c.place fun _ place => place.Ready → _).mpr
    ⟨ready, fun q _ => inv.ready q⟩
  tracking := inv.tracking
  tracked := inv.tracked
  unset := (Function.forall_update_iff c.place fun _ place => place.Initializes → _).mpr
    ⟨fun initializes => (first initializes).1, fun q _ => inv.unset q⟩
  alone := by
    intro q r
    simp only [Totals.goTo, Function.update_apply]
    split
    · split
      · intro _ _
        exact ‹q = p›.trans ‹r = p›.symm
      · intro initializes other
        exact absurd other ((first initializes).2 r ‹_›)
    · split
      · intro other initializes
        exact absurd other ((first initializes).2 q ‹_›)
      · exact inv.alone q r

theorem enter (inv : Initialized c) (unraced : ∀ q, ¬ (c.place q).Initializes) (store : StoreCall) :
    Initialized (c.enter p store) := by
  unfold Totals.enter
  split
  · rename_i isSet
    apply inv.goTo
    · exact fun _ => isSet
    · cases store <;> exact False.elim
  · rename_i isUnset
    apply inv.goTo
    · exact False.elim
    · exact fun _ => ⟨Bool.eq_false_of_not_eq_true isUnset, fun q _ => unraced q⟩

/-- Only one party is about to set the flag, and so nobody initialises once it is set. -/
theorem setFlag (inv : Initialized c) {store : StoreCall} (placed : c.place p = .setFlag store) :
    Initialized { c.goTo p store.next with lockInitialized := true } where
  ready := fun _ _ => rfl
  tracking := fun _ => rfl
  tracked := fun _ _ => rfl
  unset := by
    have initializes : (c.place p).Initializes := by rw [placed]; trivial
    refine (Function.forall_update_iff c.place fun _ place => place.Initializes → _).mpr ⟨?_, ?_⟩
    · cases store <;> exact False.elim
    · intro q other also
      exact absurd (inv.alone q p also initializes) other
  alone := by
    have initializes : (c.place p).Initializes := by rw [placed]; trivial
    have none : ∀ q, ¬ ((c.goTo p store.next).place q).Initializes := by
      refine (Function.forall_update_iff c.place fun _ place => ¬ place.Initializes).mpr ⟨?_, ?_⟩
      · cases store <;> exact not_false
      · intro q other also
        exact other (inv.alone q p also initializes)
    intro q _ also
    exact absurd also (none q)

theorem advance (inv : Initialized c) (p : Party) : Initialized (c.advance p) := by
  have ready : (c.place p).Ready → c.lockInitialized = true := inv.ready p
  have unset : (c.place p).Initializes → c.lockInitialized = false := inv.unset p
  have alone : (c.place p).Initializes → ∀ q ≠ p, ¬ (c.place q).Initializes :=
    fun own q other also => other (inv.alone q p also own)
  unfold Totals.advance
  cases placed : c.place p with
  | idle => exact inv
  | resetLock store =>
      rw [placed] at unset alone
      have kept := inv.goTo p (.setFlag store) False.elim
        fun _ => ⟨unset trivial, alone trivial⟩
      exact ⟨kept.ready, kept.tracking, kept.tracked, kept.unset, kept.alone⟩
  | setFlag store => exact inv.setFlag placed
  | storeTracking energyTracking =>
      rw [placed] at ready
      have kept := inv.goTo p .idle False.elim False.elim
      exact ⟨kept.ready, fun _ => ready trivial, kept.tracked, kept.unset, kept.alone⟩
  | acquire update =>
      rw [placed] at ready
      dsimp only
      split
      · exact inv
      · have kept := inv.goTo p update.entered (fun _ => ready trivial)
          (by cases update <;> exact False.elim)
        exact ⟨kept.ready, kept.tracking, kept.tracked, kept.unset, kept.alone⟩
  | load increment =>
      rw [placed] at ready
      exact inv.goTo p _ (fun _ => ready trivial) False.elim
  | write update value =>
      rw [placed] at ready
      have kept := inv.goTo p .release (fun _ => ready trivial) False.elim
      exact ⟨kept.ready, kept.tracking, kept.tracked, kept.unset, kept.alone⟩
  | release =>
      have kept := inv.goTo p .idle False.elim False.elim
      exact ⟨kept.ready, kept.tracking, kept.tracked, kept.unset, kept.alone⟩

omit [DecidableEq Party] in
/-- A task gets the tracking of another one, or of the system. -/
theorem track (inv : Initialized c) (t : Tid) {tracking : Bool}
    (isSet : tracking = true → c.lockInitialized = true) :
    Initialized { c with trackingEnergy := Function.update c.trackingEnergy t tracking } where
  ready := inv.ready
  tracking := inv.tracking
  tracked := (Function.forall_update_iff c.trackingEnergy fun _ tracking => tracking = true → _).mpr
    ⟨isSet, fun other _ => inv.tracked other⟩
  unset := inv.unset
  alone := inv.alone

theorem step {turn : Turn Party} (inv : Initialized c) (begins : Starts c turn)
    (unraced : Unraced c turn) (taken : turnStep c turn = .ok c') : Initialized c' := by
  cases turn with
  | totalEnergyStore p =>
      cases taken
      exact inv.enter unraced .total
  | energyTrackingStore p energyTracking =>
      cases taken
      exact inv.enter unraced (.tracking energyTracking)
  | switchOut p t increment =>
      cases taken
      exact inv.goTo p _ (fun _ => inv.tracked t begins.2) False.elim
  | setReserve t =>
      cases taken
      exact inv.track t inv.tracking
  | cancelReserve t =>
      cases taken
      exact inv.track t fun impossible => absurd impossible Bool.false_ne_true
  | copyProcess parent child =>
      cases taken
      exact inv.track child (inv.tracked parent)
  | advance p =>
      cases taken
      exact inv.advance p

end Initialized

/-! ## Exclusion -/

/-- The lock is taken when a party has it, and by one party only. -/
structure Exclusive (c : Totals Party) : Prop where
  held : ∀ p, (c.place p).Holds → c.lock = true
  holder : c.lock = true → ∃ p, (c.place p).Holds
  one : ∀ p q, (c.place p).Holds → (c.place q).Holds → p = q

namespace Exclusive

omit [DecidableEq Party] in
theorem of_unlocked (free : ∀ p, ¬ (c.place p).Holds) (unlocked : c.lock = false) :
    Exclusive c where
  held := fun p holds => absurd holds (free p)
  holder := fun locked => absurd (unlocked.symm.trans locked) Bool.false_ne_true
  one := fun p _ holds => absurd holds (free p)

/-- The place of one party changes, and not whether it has the lock. -/
theorem goTo (inv : Exclusive c) (p : Party) (place : Place)
    (same : place.Holds ↔ (c.place p).Holds) : Exclusive (c.goTo p place) := by
  have holds : ∀ q, ((c.goTo p place).place q).Holds ↔ (c.place q).Holds :=
    (Function.forall_update_iff c.place fun q place => place.Holds ↔ (c.place q).Holds).mpr
      ⟨same, fun _ _ => Iff.rfl⟩
  refine ⟨fun q own => inv.held q ((holds q).mp own), fun locked => ?_, fun q r own also => ?_⟩
  · obtain ⟨q, own⟩ := inv.holder locked
    exact ⟨q, (holds q).mpr own⟩
  · exact inv.one q r ((holds q).mp own) ((holds r).mp also)

/-- A party that finds the lock free is the only one that has it. -/
theorem acquire (inv : Exclusive c) {update : Update} (unlocked : c.lock ≠ true) :
    Exclusive { c.goTo p update.entered with lock := true } := by
  have own : update.entered.Holds := by cases update <;> trivial
  have only : ∀ q, ((c.goTo p update.entered).place q).Holds → q = p :=
    (Function.forall_update_iff c.place fun q place => place.Holds → q = p).mpr
      ⟨fun _ => rfl, fun q _ holds => absurd (inv.held q holds) unlocked⟩
  refine ⟨fun _ _ => rfl, fun _ => ⟨p, ?_⟩, fun q r first second => ?_⟩
  · change (Function.update c.place p update.entered p).Holds
    rw [Function.update_self]
    exact own
  · exact (only q first).trans (only r second).symm

theorem release (inv : Exclusive c) (placed : c.place p = .release) :
    Exclusive { c.goTo p .idle with lock := false } := by
  refine of_unlocked ?_ rfl
  refine (Function.forall_update_iff c.place fun _ place => ¬ place.Holds).mpr ⟨not_false, ?_⟩
  intro q other holds
  exact other (inv.one q p holds (by rw [placed]; trivial))

/-- Nobody has a lock that is being initialised. -/
theorem resetLock (initialized : Initialized c) {store : StoreCall}
    (placed : c.place p = .resetLock store) :
    Exclusive { c.goTo p (.setFlag store) with lock := false } := by
  have unset : c.lockInitialized = false := initialized.unset p (by rw [placed]; trivial)
  refine of_unlocked ?_ rfl
  refine (Function.forall_update_iff c.place fun _ place => ¬ place.Holds).mpr ⟨not_false, ?_⟩
  intro q _ holds
  exact Bool.false_ne_true (unset.symm.trans (initialized.ready q holds.ready))

theorem enter (inv : Exclusive c) (idle : c.place p = .idle) (store : StoreCall) :
    Exclusive (c.enter p store) := by
  apply inv.goTo
  rw [idle]
  cases store <;> split <;> exact Iff.rfl

theorem advance (inv : Exclusive c) (initialized : Initialized c) (p : Party) :
    Exclusive (c.advance p) := by
  unfold Totals.advance
  cases placed : c.place p with
  | idle => exact inv
  | resetLock store => exact resetLock initialized placed
  | setFlag store =>
      have kept := inv.goTo p store.next (by rw [placed]; cases store <;> exact Iff.rfl)
      exact ⟨kept.held, kept.holder, kept.one⟩
  | storeTracking energyTracking =>
      have kept := inv.goTo p .idle (by rw [placed]; exact Iff.rfl)
      exact ⟨kept.held, kept.holder, kept.one⟩
  | acquire update =>
      dsimp only
      split
      · exact inv
      · exact inv.acquire ‹_›
  | load increment => exact inv.goTo p _ (by rw [placed]; exact Iff.rfl)
  | write update value =>
      have kept := inv.goTo p .release (by rw [placed]; exact Iff.rfl)
      exact ⟨kept.held, kept.holder, kept.one⟩
  | release => exact inv.release placed

theorem step {turn : Turn Party} (inv : Exclusive c) (initialized : Initialized c)
    (begins : Starts c turn) (taken : turnStep c turn = .ok c') : Exclusive c' := by
  cases turn with
  | totalEnergyStore p =>
      cases taken
      exact inv.enter begins .total
  | energyTrackingStore p energyTracking =>
      cases taken
      exact inv.enter begins (.tracking energyTracking)
  | switchOut p t increment =>
      cases taken
      exact inv.goTo p _ (by rw [begins.1]; exact Iff.rfl)
  | setReserve t =>
      cases taken
      exact ⟨inv.held, inv.holder, inv.one⟩
  | cancelReserve t =>
      cases taken
      exact ⟨inv.held, inv.holder, inv.one⟩
  | copyProcess parent child =>
      cases taken
      exact ⟨inv.held, inv.holder, inv.one⟩
  | advance p =>
      cases taken
      exact inv.advance initialized p

end Exclusive

/-! ## No update is lost -/

/-- The total is what the updates make that took effect.  What a party is about to write is
the next total, and each party has begun what it did and what it is at. -/
structure NoneLost (c : Totals Party) (j : Updates Party) : Prop where
  value : ∀ p update value, c.place p = .write update value →
    value = update.apply c.totalEnergy
  total : c.totalEnergy = j.total
  program : ∀ p, j.begun p = j.doneBy p ++ (c.place p).pending

namespace NoneLost

/-- A party goes on without an effect on the total. -/
theorem goTo (inv : NoneLost c j) (p : Party) (place : Place)
    (value : ∀ update value, place = .write update value → value = update.apply c.totalEnergy)
    (same : place.pending = (c.place p).pending) : NoneLost (c.goTo p place) j where
  value := (Function.forall_update_iff c.place fun _ place => ∀ update value,
    place = .write update value → value = update.apply c.totalEnergy).mpr
      ⟨value, fun q _ => inv.value q⟩
  total := inv.total
  program := (Function.forall_update_iff c.place fun p place =>
    j.begun p = j.doneBy p ++ place.pending).mpr
      ⟨by rw [same]; exact inv.program p, fun q _ => inv.program q⟩

/-- A party that is idle begins an update. -/
theorem begins (inv : NoneLost c j) (idle : c.place p = .idle) {update : Update}
    (noWrite : ∀ update value, place ≠ .write update value) (isPending : place.pending = [update]) :
    NoneLost (c.goTo p place) (j.begin p update) where
  value := (Function.forall_update_iff c.place fun _ place => ∀ update value,
    place = .write update value → value = update.apply c.totalEnergy).mpr
      ⟨fun update value isWrite => absurd isWrite (noWrite update value), fun q _ => inv.value q⟩
  total := inv.total
  program := by
    have own := inv.program p
    rw [idle, Place.pending_idle, List.append_nil] at own
    intro q
    by_cases same : q = p
    · subst same
      simp only [Totals.goTo, Updates.begin, Function.update_self, isPending, own]
      rfl
    · simp only [Totals.goTo, Updates.begin, Function.update_of_ne same]
      exact inv.program q

/-- Nobody else is about to write when an update takes effect. -/
theorem write (inv : NoneLost c j) (exclusive : Exclusive c) {update : Update} {value : ℕ}
    (placed : c.place p = .write update value) :
    NoneLost { c.goTo p .release with totalEnergy := value }
      (j.finish p (.write update value)) where
  value := by
    refine (Function.forall_update_iff c.place fun _ place => ∀ update other,
      place = .write update other → other = update.apply value).mpr ⟨?_, ?_⟩
    · intro _ _ impossible
      cases impossible
    · intro q other update' value' also
      exact absurd (exclusive.one q p (by rw [also]; trivial) (by rw [placed]; trivial)) other
  total := by
    change value = _
    rw [Updates.finish, Updates.total, List.map_append, List.foldl_append, ← Updates.total,
      ← inv.total, inv.value p update value placed]
    rfl
  program := by
    intro q
    have own := inv.program q
    by_cases same : q = p
    · subst same
      rw [placed] at own
      simp only [Totals.goTo, Updates.finish, Updates.doneBy, Function.update_self,
        List.filter_append, List.map_append] at own ⊢
      simpa [Place.pending, Updates.doneBy] using own
    · have others : ¬ p = q := fun same' => same same'.symm
      simp only [Totals.goTo, Updates.finish, Function.update_of_ne same, own]
      simp [Updates.doneBy, others]

theorem totalEnergyStore (inv : NoneLost c j) (idle : c.place p = .idle) :
    NoneLost (c.enter p .total) (j.begin p .reset) := by
  unfold Totals.enter
  split
  · exact inv.begins idle (fun _ _ => Place.noConfusion) rfl
  · exact inv.begins idle (fun _ _ => Place.noConfusion) rfl

theorem energyTrackingStore (inv : NoneLost c j) (idle : c.place p = .idle)
    (energyTracking : Bool) : NoneLost (c.enter p (.tracking energyTracking)) j := by
  unfold Totals.enter
  split
  · exact inv.goTo p _ (fun _ _ => Place.noConfusion) (by rw [idle]; rfl)
  · exact inv.goTo p _ (fun _ _ => Place.noConfusion) (by rw [idle]; rfl)

theorem advance (inv : NoneLost c j) (exclusive : Exclusive c) (p : Party) :
    NoneLost (c.advance p) (j.finish p (c.place p)) := by
  unfold Totals.advance
  cases placed : c.place p with
  | idle => exact inv
  | resetLock store =>
      have kept := inv.goTo p (.setFlag store) (fun _ _ => Place.noConfusion)
        (by rw [placed]; cases store <;> rfl)
      exact ⟨kept.value, kept.total, kept.program⟩
  | setFlag store =>
      have kept := inv.goTo p store.next (by cases store <;> exact fun _ _ => Place.noConfusion)
        (by rw [placed]; cases store <;> rfl)
      exact ⟨kept.value, kept.total, kept.program⟩
  | storeTracking energyTracking =>
      have kept := inv.goTo p .idle (fun _ _ => Place.noConfusion) (by rw [placed]; rfl)
      exact ⟨kept.value, kept.total, kept.program⟩
  | acquire update =>
      dsimp only
      split
      · exact inv
      · have value : ∀ update' value, update.entered = .write update' value →
            value = update'.apply c.totalEnergy := by
          intro update' value entered
          cases update with
          | reset =>
              cases entered
              rfl
          | add increment => cases entered
        have kept := inv.goTo p update.entered value (by rw [placed]; cases update <;> rfl)
        exact ⟨kept.value, kept.total, kept.program⟩
  | load increment =>
      apply inv.goTo p
      · intro update value loaded
        cases loaded
        rfl
      · rw [placed]
        rfl
  | write update value => exact inv.write exclusive placed
  | release =>
      have kept := inv.goTo p .idle (fun _ _ => Place.noConfusion) (by rw [placed]; rfl)
      exact ⟨kept.value, kept.total, kept.program⟩

theorem step {turn : Turn Party} (inv : NoneLost c j) (exclusive : Exclusive c)
    (begins : Starts c turn) (taken : turnStep c turn = .ok c') :
    NoneLost c' (record c turn c' j) := by
  cases turn with
  | totalEnergyStore p =>
      cases taken
      exact inv.totalEnergyStore begins
  | energyTrackingStore p energyTracking =>
      cases taken
      exact inv.energyTrackingStore begins energyTracking
  | switchOut p t increment =>
      cases taken
      exact inv.begins begins.1 (fun _ _ => Place.noConfusion) rfl
  | setReserve t =>
      cases taken
      exact ⟨inv.value, inv.total, inv.program⟩
  | cancelReserve t =>
      cases taken
      exact ⟨inv.value, inv.total, inv.program⟩
  | copyProcess parent child =>
      cases taken
      exact ⟨inv.value, inv.total, inv.program⟩
  | advance p =>
      cases taken
      exact inv.advance exclusive p

end NoneLost

/-! ## Runs -/

theorem Cold.invariants {now : Totals Party × Updates Party} (cold : Cold now) :
    Initialized now.1 ∧ Exclusive now.1 ∧ NoneLost now.1 now.2 := by
  have noInitializer : ∀ p, ¬ (now.1.place p).Initializes := by
    intro p
    rw [cold.place p]
    exact not_false
  have noneReady : ∀ p, ¬ (now.1.place p).Ready := by
    intro p
    rw [cold.place p]
    exact not_false
  have noHolder : ∀ p, ¬ (now.1.place p).Holds := fun p holds => noneReady p holds.ready
  refine ⟨⟨?_, ?_, ?_, ?_, ?_⟩, .of_unlocked noHolder cold.lock, ⟨?_, ?_, ?_⟩⟩
  · exact fun p ready => absurd ready (noneReady p)
  · intro tracking
    exact absurd (cold.energyTracking.symm.trans tracking) Bool.false_ne_true
  · intro t tracked
    exact absurd ((cold.trackingEnergy t).symm.trans tracked) Bool.false_ne_true
  · exact fun p initializes => absurd initializes (noInitializer p)
  · exact fun p _ initializes => absurd initializes (noInitializer p)
  · intro p update value isWrite
    rw [cold.place p] at isWrite
    cases isWrite
  · rw [cold.totalEnergy, Updates.total, cold.done]
    rfl
  · intro p
    rw [cold.begun, cold.place, Updates.doneBy, cold.done]
    rfl

/-- In every order in which no store begins while another one initialises the lock, one party
at most has the lock and nobody waits for a lock that nobody has; the total is what the
updates make that took effect, in their order; and those of each party took effect once each,
in the order of its program, but for one that it may be at. -/
theorem reaches_total {now : Totals Party × Updates Party}
    (reached : Reaches updatesStep Sequenced Cold now) :
    (∀ p q, (now.1.place p).Holds → (now.1.place q).Holds → p = q) ∧
      (now.1.lock = true → ∃ p, (now.1.place p).Holds) ∧
      now.1.totalEnergy = now.2.total ∧
      ∀ p, now.2.begun p = now.2.doneBy p ++ (now.1.place p).pending := by
  have invariants : Initialized now.1 ∧ Exclusive now.1 ∧ NoneLost now.1 now.2 := by
    apply reached.observed
    · intro now cold
      exact cold.invariants
    · rintro ⟨c, j⟩ turn c' ⟨initialized, exclusive, noneLost⟩ ⟨begins, unraced⟩ taken
      exact ⟨initialized.step begins unraced taken, exclusive.step initialized begins taken,
        noneLost.step exclusive begins taken⟩
  obtain ⟨_, exclusive, noneLost⟩ := invariants
  exact ⟨exclusive.one, exclusive.holder, noneLost.total, noneLost.program⟩

end Parties

/-! ## Two parties -/

def booted : Totals Bool × Updates Bool :=
  (⟨false, false, false, 0, fun _ => false, fun _ => .idle⟩, ⟨fun _ => [], []⟩)

private theorem cold_booted : Cold booted :=
  ⟨rfl, rfl, rfl, fun _ => rfl, fun _ => rfl, fun _ => rfl, rfl⟩

/-- The first party switches tracking on, and a task is reserved. -/
def trackingTurns : List (Turn Bool) :=
  [.energyTrackingStore true true, .advance true, .advance true, .advance true, .setReserve 1]

/-- The second party waits to start the total again while the first one charges it. -/
def chargingTurns : List (Turn Bool) :=
  trackingTurns ++ [.switchOut true 1 5, .advance true, .totalEnergyStore false, .advance false,
    .advance true, .advance true]

theorem reaches_total_charging :
    (chargingTurns.foldl (after updatesStep) booted).1.totalEnergy = 5 ∧
      (chargingTurns.foldl (after updatesStep) booted).1.totalEnergy =
        (chargingTurns.foldl (after updatesStep) booted).2.total :=
  ⟨by decide, (reaches_total ((Reaches.start cold_booted).run chargingTurns (by decide))).2.2.1⟩

/-- The second party looks at the flag before the first one sets it, and goes on when the
total is being charged. -/
def racingTurns : List (Turn Bool) :=
  .totalEnergyStore false :: trackingTurns ++
    [.switchOut true 1 7, .advance true, .advance true, .advance true, .advance true,
      .switchOut true 1 5, .advance true, .advance true] ++
    [.advance false, .advance false, .advance false, .advance false, .advance true]

/-- Without the assumption the lock can be unlocked under the party that has it, and an update
is lost. -/
theorem reaches_raced : ∃ now : Totals Bool × Updates Bool,
    Reaches updatesStep (fun now => Starts now.1) Cold now ∧ now.1.totalEnergy = 12 ∧
      now.2.total = 5 :=
  ⟨racingTurns.foldl (after updatesStep) booted,
    (Reaches.start cold_booted).run racingTurns (by decide), by decide, by decide⟩

end Rtes.Taskmon
