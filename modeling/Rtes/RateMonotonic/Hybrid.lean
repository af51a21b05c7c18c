import Rtes.RateMonotonic.ResponseTime

/-!
# Hybrid admission

A hybrid test accepts the longest prefix of a priority list whose shares stay
within a bound that depends on the prefix length only, and asks every load
behind that prefix to meet its deadline.  On lists in order of period the
verdict depends on the loads only, not on the order of equal periods, and is
inherited by every part of an accepted list.
-/

namespace Rtes.RateMonotonic

section Sorted

variable {loads : List Load}

/-- Priority order: shorter periods first. -/
def Sorted (loads : List Load) : Prop :=
  loads.Pairwise fun first second => first.period ≤ second.period

/-- In priority order the loads up to a period are a prefix. -/
theorem Sorted.filter_eq_take (sorted : Sorted loads) (limit : ℕ) :
    loads.filter (fun load => load.period ≤ limit) =
      loads.take (loads.filter fun load => load.period ≤ limit).length := by
  induction loads with
  | nil => rfl
  | cons load loads ih =>
      obtain ⟨first, rest⟩ := List.pairwise_cons.mp sorted
      by_cases within : load.period ≤ limit
      · rw [List.filter_cons_of_pos (by simpa using within), List.length_cons, List.take_succ_cons,
          ← ih rest]
      · have none : loads.filter (fun other => other.period ≤ limit) = [] := by
          rw [List.filter_eq_nil_iff]
          intro other member
          have later := first other member
          simp only [decide_eq_true_eq]
          omega
        rw [List.filter_cons_of_neg (by simpa using within), none]
        rfl

/-- Everything up to index `j` has at most the period found there. -/
theorem Sorted.lt_length_filter (sorted : Sorted loads) {j : ℕ} (bound : j < loads.length) :
    j < (loads.filter fun load => load.period ≤ loads[j].period).length := by
  have early : ∀ load ∈ loads.take (j + 1), load.period ≤ loads[j].period := by
    intro load member
    obtain ⟨k, kBound, rfl⟩ := List.getElem_of_mem member
    rw [List.getElem_take]
    rw [List.length_take] at kBound
    rcases Nat.lt_or_ge k j with less | same
    · exact List.pairwise_iff_getElem.mp sorted k j _ bound less
    · obtain rfl : k = j := by omega
      exact le_rfl
  calc
    j < (loads.take (j + 1)).length := by
      rw [List.length_take]
      omega
    _ = ((loads.take (j + 1)).filter fun load => load.period ≤ loads[j].period).length := by
      rw [List.filter_eq_self.mpr]
      intro load member
      simpa using early load member
    _ ≤ (loads.filter fun load => load.period ≤ loads[j].period).length :=
      ((List.take_sublist (j + 1) loads).filter _).length_le

end Sorted

variable (share : Load → ℕ) (bound : ℕ → ℕ)

/-- Sum of the shares of a list of loads. -/
def shareSum (loads : List Load) : ℕ :=
  (loads.map share).sum

/-- Length of the longest prefix whose shares are within its bound. -/
def passingPrefix (loads : List Load) : ℕ :=
  Nat.findGreatest (fun i => shareSum share (loads.take i) ≤ bound i) loads.length

/-- The hybrid test: behind the longest passing prefix every load meets its
deadline. -/
def Hybrid (loads : List Load) : Prop :=
  ∀ j (lt : j < loads.length), passingPrefix share bound loads ≤ j →
    Meets (loads.take j) loads[j]

variable {share bound}

theorem shareSum_le_of_subperm {first second : List Load} (sub : first.Subperm second) :
    shareSum share first ≤ shareSum share second := by
  obtain ⟨middle, perm, sublist⟩ := sub
  have same : shareSum share middle = shareSum share first := (perm.map share).sum_eq
  rw [← same]
  exact (sublist.map share).sum_le_sum (fun _ _ => Nat.zero_le _)

theorem passingPrefix_le (loads : List Load) :
    passingPrefix share bound loads ≤ loads.length :=
  Nat.findGreatest_le _

theorem le_passingPrefix {loads : List Load} {i : ℕ} (le : i ≤ loads.length)
    (within : shareSum share (loads.take i) ≤ bound i) : i ≤ passingPrefix share bound loads :=
  Nat.le_findGreatest le within

theorem shareSum_passingPrefix {loads : List Load} (nonzero : passingPrefix share bound loads ≠ 0) :
    shareSum share (loads.take (passingPrefix share bound loads)) ≤
      bound (passingPrefix share bound loads) :=
  Nat.findGreatest_of_ne_zero (P := fun i => shareSum share (loads.take i) ≤ bound i) rfl nonzero

theorem shareSum_perm {first second : List Load} (perm : first.Perm second) :
    shareSum share first = shareSum share second :=
  (perm.map share).sum_eq

/-- In every window the loads ask for at least their shares of it. -/
theorem mul_shareSum_le_demand {scale : ℕ} {loads : List Load}
    (periods : ∀ load ∈ loads, 0 < load.period)
    (shares : ∀ load ∈ loads, share load * load.period ≤ scale * load.budget) (x : ℕ) :
    x * shareSum share loads ≤ scale * demand loads x := by
  induction loads with
  | nil => simp [shareSum]
  | cons load loads ih =>
      rw [List.forall_mem_cons] at periods shares
      have rest := ih periods.2 shares.2
      have own : x * share load ≤ scale * ((x ⌈/⌉ load.period) * load.budget) := by
        calc
          x * share load ≤ load.period * (x ⌈/⌉ load.period) * share load :=
            Nat.mul_le_mul_right _ (le_mul_ceilDiv periods.1 x)
          _ = (x ⌈/⌉ load.period) * (share load * load.period) := by ring
          _ ≤ (x ⌈/⌉ load.period) * (scale * load.budget) := Nat.mul_le_mul_left _ shares.1
          _ = scale * ((x ⌈/⌉ load.period) * load.budget) := by ring
      rw [demand_cons, Nat.mul_add]
      simp only [shareSum, List.map_cons, List.sum_cons, Nat.mul_add] at rest ⊢
      omega

/-- Shares of more than the whole cannot be served. -/
theorem not_meets_of_overload {scale : ℕ} {higher : List Load} {load : Load}
    (periods : ∀ other ∈ load :: higher, 0 < other.period)
    (shares : ∀ other ∈ load :: higher, share other * other.period ≤ scale * other.budget)
    (overload : scale < shareSum share (load :: higher)) : ¬ Meets higher load := by
  rw [meets_iff_demand_cons]
  rintro ⟨x, positive, _, enough⟩
  have asked := mul_shareSum_le_demand periods shares x
  have served := Nat.mul_le_mul_left scale enough
  have more := Nat.mul_lt_mul_of_pos_left overload positive
  rw [Nat.mul_comm scale x] at served
  omega

/-- A schedulable list has shares of at most the whole. -/
theorem Schedulable.shareSum_le {scale : ℕ} {loads : List Load} (schedulable : Schedulable loads)
    (periods : ∀ load ∈ loads, 0 < load.period)
    (shares : ∀ load ∈ loads, share load * load.period ≤ scale * load.budget) :
    shareSum share loads ≤ scale := by
  rcases List.eq_nil_or_concat' loads with rfl | ⟨higher, load, rfl⟩
  · exact Nat.zero_le scale
  · by_contra overload
    have snoc : (load :: higher).Perm (higher ++ [load]) :=
      (List.perm_append_singleton load higher).symm
    have last := schedulable higher.length (by simp)
    simp only [List.take_left, List.getElem_concat_length] at last
    refine not_meets_of_overload (fun other member => periods other (snoc.mem_iff.mp member))
      (fun other member => shares other (snoc.mem_iff.mp member)) ?_ last
    rw [shareSum_perm snoc]
    omega

/-- An accepted list is schedulable as far as its passing prefix is. -/
theorem Hybrid.schedulable_iff {loads : List Load} (accepted : Hybrid share bound loads) :
    Schedulable loads ↔ ∀ j (lt : j < loads.length), j < passingPrefix share bound loads →
      Meets (loads.take j) loads[j] := by
  constructor
  · intro schedulable j lt _
    exact schedulable j lt
  · intro early j lt
    rcases Nat.lt_or_ge j (passingPrefix share bound loads) with inside | behind
    · exact early j lt inside
    · exact accepted j lt behind

private theorem take_subperm_take {loads : List Load} {i j : ℕ} (le : i ≤ j) :
    (loads.take i).Subperm (loads.take j) :=
  (List.take_prefix_take_left le).sublist.subperm

/-- The last load of a prefix cut off at a listed period has that period. -/
private theorem Sorted.last_period {loads : List Load} (sorted : Sorted loads) {load : Load}
    (member : load ∈ loads) {m : ℕ}
    (cut : loads.filter (fun other => other.period ≤ load.period) = loads.take (m + 1))
    (lt : m < loads.length) : loads[m].period = load.period := by
  have lastMem : loads[m] ∈ loads.filter fun other => other.period ≤ load.period := by
    rw [cut, List.mem_take_iff_getElem]
    exact ⟨m, by omega, rfl⟩
  have loadMem : load ∈ loads.take (m + 1) := by
    rw [← cut]
    simpa using member
  obtain ⟨k, kLt, kEq⟩ := List.mem_take_iff_getElem.mp loadMem
  have above : load.period ≤ loads[m].period := by
    rcases Nat.lt_or_ge k m with less | same
    · rw [← kEq]
      exact List.pairwise_iff_getElem.mp sorted k m _ lt less
    · obtain rfl : k = m := by omega
      rw [kEq]
  have below : loads[m].period ≤ load.period := by simpa using (List.mem_filter.mp lastMem).2
  omega

/-- A hybrid verdict is inherited: every list in priority order made of part of
the loads of an accepted one is accepted.  In particular the order of loads of
equal period does not matter. -/
theorem Hybrid.of_subperm (antitone : ∀ m i, 1 ≤ m → m ≤ i → bound i ≤ bound m)
    {loads part : List Load} (accepted : Hybrid share bound loads) (sorted : Sorted loads)
    (partSorted : Sorted part) (sub : part.Subperm loads) : Hybrid share bound part := by
  intro j lt behind
  set load := part[j] with loadEq
  have loadMem : load ∈ loads := sub.subset (List.getElem_mem lt)
  set cut := loads.filter fun other => other.period ≤ load.period with cutEq
  set partCut := part.filter fun other => other.period ≤ load.period with partCutEq
  have cutTake : cut = loads.take cut.length := sorted.filter_eq_take load.period
  have partTake : partCut = part.take partCut.length := partSorted.filter_eq_take load.period
  have cutSub : partCut.Subperm cut := sub.filter _
  have cutLe : cut.length ≤ loads.length := List.length_filter_le _ _
  have partLe : partCut.length ≤ part.length := List.length_filter_le _ _
  have jLt : j < partCut.length := partSorted.lt_length_filter lt
  have lengths : partCut.length ≤ cut.length := cutSub.length_le
  obtain ⟨m, mEq⟩ : ∃ m, cut.length = m + 1 := ⟨cut.length - 1, by omega⟩
  rcases Nat.lt_or_ge m (passingPrefix share bound loads) with inside | outside
  · -- the whole block up to this period passed, so its part passes as well
    exfalso
    have nonzero : passingPrefix share bound loads ≠ 0 := by omega
    have passed := shareSum_passingPrefix nonzero
    have partShare : shareSum share (part.take partCut.length) ≤ bound partCut.length := by
      calc
        shareSum share (part.take partCut.length) = shareSum share partCut := by rw [← partTake]
        _ ≤ shareSum share cut := shareSum_le_of_subperm cutSub
        _ = shareSum share (loads.take cut.length) := by rw [← cutTake]
        _ ≤ shareSum share (loads.take (passingPrefix share bound loads)) :=
          shareSum_le_of_subperm (take_subperm_take (by omega))
        _ ≤ bound (passingPrefix share bound loads) := passed
        _ ≤ bound partCut.length := antitone _ _ (by omega) (by omega)
    have reached := le_passingPrefix partLe partShare
    omega
  · have mLt : m < loads.length := by omega
    have cutTakeSucc : cut = loads.take (m + 1) := mEq ▸ cutTake
    have lastPeriod := sorted.last_period loadMem cutTakeSucc mLt
    obtain ⟨x, positive, within, enough⟩ :=
      (meets_iff_demand_cons _ _).mp (accepted m mLt outside)
    rw [meets_iff_demand_cons]
    refine ⟨x, positive, by omega, le_trans ?_ enough⟩
    have whole : (loads[m] :: loads.take m).Perm cut := by
      rw [cutTakeSucc, ← List.take_concat_get' loads m mLt]
      exact (List.perm_append_singleton _ _).symm
    have early : (load :: part.take j).Subperm partCut := by
      have snoc : (load :: part.take j).Perm (part.take (j + 1)) := by
        rw [← List.take_concat_get' part j lt, ← loadEq]
        exact (List.perm_append_singleton _ _).symm
      rw [partTake]
      exact snoc.subperm.trans (take_subperm_take (by omega))
    rw [demand_perm whole]
    exact demand_le_of_subperm (early.trans cutSub) x

end Rtes.RateMonotonic
