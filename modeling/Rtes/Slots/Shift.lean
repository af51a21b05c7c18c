import Mathlib

/-!
# Arrays with a live prefix

An array of slots is a function from indices; a separate length says how many
of its first slots are live.  The module gives the three hand-written loops such
an array is maintained with (open a gap from the back, find an element, close a
gap) and says what each does to the list of live slots.  Slots behind the live
prefix keep whatever was left in them.
-/

namespace Rtes.Slots

universe u v

variable {α : Type u}

/-- The first `n` slots as a list. -/
def live (slots : ℕ → α) (n : ℕ) : List α :=
  (List.range n).map slots

@[simp]
theorem live_zero (slots : ℕ → α) : live slots 0 = [] :=
  rfl

theorem live_succ (slots : ℕ → α) (n : ℕ) :
    live slots (n + 1) = live slots n ++ [slots n] := by
  simp [live, List.range_succ]

theorem live_pred (slots : ℕ → α) (n : ℕ) : live slots (n - 1) = (live slots n).dropLast := by
  cases n with
  | zero => rfl
  | succ n => rw [live_succ, List.dropLast_concat, Nat.add_sub_cancel]

@[simp]
theorem length_live (slots : ℕ → α) (n : ℕ) : (live slots n).length = n := by
  simp [live]

@[simp]
theorem getElem_live (slots : ℕ → α) (n i : ℕ) (bound : i < (live slots n).length) :
    (live slots n)[i] = slots i := by
  simp [live]

theorem getElem?_live (slots : ℕ → α) (n i : ℕ) :
    (live slots n)[i]? = if i < n then some (slots i) else none := by
  by_cases lt : i < n
  · rw [if_pos lt, List.getElem?_eq_getElem (by simpa using lt), getElem_live]
  · rw [if_neg lt, List.getElem?_eq_none (by simpa using lt)]

theorem mem_live_iff {slots : ℕ → α} {n : ℕ} {x : α} :
    x ∈ live slots n ↔ ∃ i, i < n ∧ slots i = x := by
  simp [live]

theorem live_congr {first second : ℕ → α} {n : ℕ} (same : ∀ i, i < n → first i = second i) :
    live first n = live second n := by
  apply List.ext_getElem
  · simp
  · intro i firstBound _
    simp only [getElem_live]
    exact same i (by simpa using firstBound)

theorem live_update_of_le {slots : ℕ → α} {n i : ℕ} (le : n ≤ i) (x : α) :
    live (Function.update slots i x) n = live slots n := by
  apply live_congr
  intro k lt
  exact Function.update_of_ne (by omega) _ _

/-! ## Opening a gap -/

/-- Starting behind slot `n`, move every slot that belongs later up by one and
stop at the first that does not; the result is the array and the gap. -/
def openGap (later : α → Bool) (slots : ℕ → α) : ℕ → (ℕ → α) × ℕ
  | 0 => (slots, 0)
  | i + 1 =>
      if later (slots i) then openGap later (Function.update slots (i + 1) (slots i)) i
      else (slots, i + 1)

/-- Insert an element into the gap opened among the first `n` slots. -/
def insertSlot (later : α → Bool) (slots : ℕ → α) (n : ℕ) (x : α) : (ℕ → α) × ℕ :=
  let gap := openGap later slots n
  (Function.update gap.1 gap.2 x, gap.2)

/-- List form of the insertion: behind the last element that does not belong
later. -/
def insertBehind (later : α → Bool) (x : α) (xs : List α) : List α :=
  xs.rdropWhile later ++ x :: xs.rtakeWhile later

private theorem openGap_spec (later : α → Bool) (slots : ℕ → α) (n : ℕ) :
    (openGap later slots n).2 = ((live slots n).rdropWhile later).length ∧
      (∀ k, k < (openGap later slots n).2 → (openGap later slots n).1 k = slots k) ∧
      (∀ k, (openGap later slots n).2 ≤ k → k < n →
        (openGap later slots n).1 (k + 1) = slots k) ∧
      (∀ k, n < k → (openGap later slots n).1 k = slots k) := by
  induction n generalizing slots with
  | zero => simp [openGap]
  | succ n ih =>
      by_cases moves : later (slots n)
      · obtain ⟨gap, before, behind, beyond⟩ := ih (Function.update slots (n + 1) (slots n))
        rw [live_update_of_le (by omega)] at gap
        rw [openGap, if_pos moves, live_succ, List.rdropWhile_concat_pos _ _ _ moves]
        have gapLe := (List.rdropWhile_prefix later (l := live slots n)).length_le
        rw [← gap, length_live] at gapLe
        refine ⟨gap, ?_, ?_, ?_⟩
        · intro k lt
          rw [before k lt, Function.update_of_ne (by omega)]
        · intro k le lt
          rcases Nat.lt_or_ge k n with inside | last
          · rw [behind k le inside, Function.update_of_ne (by omega)]
          · obtain rfl : k = n := by omega
            rw [beyond (k + 1) (by omega), Function.update_self]
        · intro k lt
          rw [beyond k (by omega), Function.update_of_ne (by omega)]
      · rw [openGap, if_neg moves, live_succ, List.rdropWhile_concat_neg _ _ _ moves]
        refine ⟨by simp, fun _ _ => rfl, ?_, fun _ _ => rfl⟩
        intro k le lt
        simp only at le
        omega

theorem insertSlot_pos (later : α → Bool) (slots : ℕ → α) (n : ℕ) (x : α) :
    (insertSlot later slots n x).2 = ((live slots n).rdropWhile later).length :=
  (openGap_spec later slots n).1

theorem insertSlot_pos_le (later : α → Bool) (slots : ℕ → α) (n : ℕ) (x : α) :
    (insertSlot later slots n x).2 ≤ n := by
  rw [insertSlot_pos]
  simpa using (List.rdropWhile_prefix later (l := live slots n)).length_le

/-- Slot by slot, insertion keeps what is before the gap and moves the rest up. -/
theorem insertSlot_apply (later : α → Bool) (slots : ℕ → α) (n : ℕ) (x : α) {k : ℕ}
    (le : k ≤ n) :
    (insertSlot later slots n x).1 k =
      if k < (insertSlot later slots n x).2 then slots k
      else if k = (insertSlot later slots n x).2 then x else slots (k - 1) := by
  obtain ⟨_, before, behind, _⟩ := openGap_spec later slots n
  unfold insertSlot
  simp only
  rcases Nat.lt_trichotomy k (openGap later slots n).2 with less | same | more
  · rw [if_pos less, Function.update_of_ne (by omega), before k less]
  · rw [if_neg (by omega), if_pos same, same, Function.update_self]
  · rw [if_neg (by omega), if_neg (by omega), Function.update_of_ne (by omega)]
    obtain ⟨m, rfl⟩ : ∃ m, k = m + 1 := ⟨k - 1, by omega⟩
    exact behind m (by omega) (by omega)

/-- The insertion loop refines insertion into the list of live slots. -/
theorem live_insertSlot (later : α → Bool) (slots : ℕ → α) (n : ℕ) (x : α) :
    live (insertSlot later slots n x).1 (n + 1) = insertBehind later x (live slots n) := by
  have whole : (live slots n).rdropWhile later ++ (live slots n).rtakeWhile later =
      live slots n := List.rdropWhile_append_rtakeWhile
  have pos := insertSlot_pos later slots n x
  have posLe := insertSlot_pos_le later slots n x
  apply List.ext_getElem?
  intro k
  rw [getElem?_live, insertBehind, List.getElem?_append, ← pos]
  by_cases bound : k < n + 1
  · rw [if_pos bound, insertSlot_apply later slots n x (by omega)]
    rcases Nat.lt_trichotomy k (insertSlot later slots n x).2 with less | same | more
    · have old := getElem?_live slots n k
      rw [← whole, List.getElem?_append, ← pos, if_pos less, if_pos (by omega)] at old
      rw [if_pos less, if_pos less, old]
    · rw [if_neg (by omega), if_pos same, if_neg (by omega), same, Nat.sub_self]
      rfl
    · have old := getElem?_live slots n (k - 1)
      rw [← whole, List.getElem?_append, ← pos, if_neg (by omega), if_pos (by omega)] at old
      rw [if_neg (by omega), if_neg (by omega), if_neg (by omega), ← old,
        List.getElem?_cons, if_neg (by omega)]
      congr 1
      omega
  · have lengths := congrArg List.length whole
    rw [List.length_append, length_live, ← pos] at lengths
    rw [if_neg bound, if_neg (by omega), List.getElem?_eq_none]
    rw [List.length_cons]
    omega

theorem insertBehind_perm (later : α → Bool) (x : α) (xs : List α) :
    (insertBehind later x xs).Perm (x :: xs) := by
  have whole : xs.rdropWhile later ++ xs.rtakeWhile later = xs := List.rdropWhile_append_rtakeWhile
  unfold insertBehind
  conv_rhs => rw [← whole]
  exact List.perm_middle

@[simp]
theorem length_insertBehind (later : α → Bool) (x : α) (xs : List α) :
    (insertBehind later x xs).length = xs.length + 1 := by
  simpa using (insertBehind_perm later x xs).length_eq

theorem mem_insertBehind {later : α → Bool} {x y : α} {xs : List α} :
    y ∈ insertBehind later x xs ↔ y = x ∨ y ∈ xs := by
  rw [(insertBehind_perm later x xs).mem_iff, List.mem_cons]

/-- Insertion by a key keeps the list in order of the key. -/
theorem insertBehind_pairwise {κ : Type v} [LinearOrder κ] {key : α → κ} {x : α} {xs : List α}
    (sorted : xs.Pairwise fun first second => key first ≤ key second) :
    (insertBehind (fun other => key x < key other) x xs).Pairwise
      fun first second => key first ≤ key second := by
  set later : α → Bool := fun other => key x < key other with laterEq
  have whole : xs.rdropWhile later ++ xs.rtakeWhile later = xs := List.rdropWhile_append_rtakeWhile
  rw [← whole] at sorted
  obtain ⟨front, back, across⟩ := List.pairwise_append.mp sorted
  have behind : ∀ other ∈ xs.rtakeWhile later, key x < key other := by
    intro other member
    simpa [laterEq] using List.mem_rtakeWhile_imp member
  have before : ∀ other ∈ xs.rdropWhile later, key other ≤ key x := by
    intro other member
    have nonempty : xs.rdropWhile later ≠ [] := List.ne_nil_of_mem member
    have last : ¬ later ((xs.rdropWhile later).getLast nonempty) :=
      List.rdropWhile_last_not later xs nonempty
    have lastLe : key ((xs.rdropWhile later).getLast nonempty) ≤ key x := by
      simpa [laterEq] using last
    have split := List.dropLast_append_getLast nonempty
    rw [← split] at member front
    rcases List.mem_append.mp member with early | final
    · have earlyLe := (List.pairwise_append.mp front).2.2 other early _ (List.mem_singleton_self _)
      exact earlyLe.trans lastLe
    · rw [List.mem_singleton.mp final]
      exact lastLe
  rw [insertBehind, List.pairwise_append]
  refine ⟨front, List.pairwise_cons.mpr ⟨fun other member => (behind other member).le, back⟩, ?_⟩
  intro other otherMem next nextMem
  rcases List.mem_cons.mp nextMem with rfl | nextMem
  · exact before other otherMem
  · exact across other otherMem next nextMem

/-! ## Closing a gap -/

/-- Move the `k` slots behind slot `i` down by one. -/
def closeGap (slots : ℕ → α) (i : ℕ) : ℕ → ℕ → α
  | 0 => slots
  | k + 1 => closeGap (Function.update slots i (slots (i + 1))) (i + 1) k

theorem closeGap_apply (slots : ℕ → α) (i k m : ℕ) :
    closeGap slots i k m = if i ≤ m ∧ m < i + k then slots (m + 1) else slots m := by
  induction k generalizing slots i with
  | zero =>
      rw [if_neg (by omega)]
      rfl
  | succ k ih =>
      rw [closeGap, ih]
      by_cases first : m = i
      · subst first
        rw [if_neg (by omega), if_pos (by omega), Function.update_self]
      · by_cases inside : i + 1 ≤ m ∧ m < i + 1 + k
        · rw [if_pos inside, if_pos (by omega), Function.update_of_ne (by omega)]
        · rw [if_neg inside, if_neg (by omega), Function.update_of_ne first]

/-- Closing a gap among the first `n` slots erases the element at the gap. -/
theorem live_closeGap {slots : ℕ → α} {n i : ℕ} (lt : i < n) :
    live (closeGap slots i (n - 1 - i)) (n - 1) = (live slots n).eraseIdx i := by
  apply List.ext_getElem?
  intro k
  rw [getElem?_live, List.getElem?_eraseIdx, closeGap_apply]
  rcases Nat.lt_or_ge k i with before | behind
  · rw [if_pos (by omega), if_neg (by omega), if_pos before, getElem?_live, if_pos (by omega)]
  · rw [if_neg (Nat.not_lt.mpr behind), getElem?_live]
    by_cases bound : k < n - 1
    · rw [if_pos bound, if_pos (by omega), if_pos (by omega)]
    · rw [if_neg bound, if_neg (by omega)]

/-- Inserting and closing the gap again leaves the live slots as they were. -/
theorem live_closeGap_insertSlot (later : α → Bool) (slots : ℕ → α) (n : ℕ) (x : α) :
    live (closeGap (insertSlot later slots n x).1 (insertSlot later slots n x).2
      (n - (insertSlot later slots n x).2)) n = live slots n := by
  have posLe := insertSlot_pos_le later slots n x
  apply live_congr
  intro k lt
  rw [closeGap_apply]
  by_cases behind : (insertSlot later slots n x).2 ≤ k
  · rw [if_pos (by omega), insertSlot_apply later slots n x (by omega), if_neg (by omega),
      if_neg (by omega)]
    rfl
  · rw [if_neg (by omega), insertSlot_apply later slots n x (by omega), if_pos (by omega)]

/-! ## Finding and removing an element -/

variable [DecidableEq α]

theorem erase_insertBehind {later : α → Bool} {x : α} {xs : List α} (absent : x ∉ xs) :
    (insertBehind later x xs).erase x = xs := by
  have before : x ∉ xs.rdropWhile later := fun member =>
    absent ((List.rdropWhile_prefix later xs).subset member)
  rw [insertBehind, List.erase_append_right _ before, List.erase_cons_head]
  exact List.rdropWhile_append_rtakeWhile

/-- The first of the `k` slots from `i` on that holds `x`, or the slot behind
them. -/
def findSlot (slots : ℕ → α) (x : α) : (i k : ℕ) → ℕ
  | i, 0 => i
  | i, k + 1 => if slots i = x then i else findSlot slots x (i + 1) k

private theorem findSlot_spec (slots : ℕ → α) (x : α) (i k : ℕ) :
    i ≤ findSlot slots x i k ∧ findSlot slots x i k ≤ i + k ∧
      (∀ m, i ≤ m → m < findSlot slots x i k → slots m ≠ x) ∧
      (findSlot slots x i k < i + k → slots (findSlot slots x i k) = x) := by
  induction k generalizing i with
  | zero =>
      simp only [findSlot]
      refine ⟨le_rfl, le_rfl, ?_, ?_⟩
      · intro m le lt
        omega
      · omega
  | succ k ih =>
      by_cases found : slots i = x
      · rw [findSlot, if_pos found]
        refine ⟨le_rfl, by omega, ?_, fun _ => found⟩
        intro m le lt
        omega
      · obtain ⟨ge, le, before, hit⟩ := ih (i + 1)
        rw [findSlot, if_neg found]
        refine ⟨by omega, by omega, ?_, fun lt => hit (by omega)⟩
        intro m mLe mLt
        rcases Nat.eq_or_lt_of_le mLe with rfl | later
        · exact found
        · exact before m later mLt

theorem findSlot_eq_of_not_mem {slots : ℕ → α} {x : α} {n : ℕ} (absent : x ∉ live slots n) :
    findSlot slots x 0 n = n := by
  obtain ⟨_, le, _, hit⟩ := findSlot_spec slots x 0 n
  by_contra different
  apply absent
  rw [mem_live_iff]
  exact ⟨findSlot slots x 0 n, by omega, hit (by omega)⟩

theorem findSlot_eq_idxOf (slots : ℕ → α) (x : α) (n : ℕ) :
    findSlot slots x 0 n = (live slots n).idxOf x := by
  by_cases present : x ∈ live slots n
  · obtain ⟨_, le, before, hit⟩ := findSlot_spec slots x 0 n
    have idxLt : (live slots n).idxOf x < n := by
      simpa using List.idxOf_lt_length_of_mem present
    have idxHit : slots ((live slots n).idxOf x) = x := by
      have bound : (live slots n).idxOf x < (live slots n).length := by simpa using idxLt
      have value := List.getElem_idxOf bound
      rwa [getElem_live] at value
    apply le_antisymm
    · by_contra more
      exact before _ (Nat.zero_le _) (by omega) idxHit
    · by_contra less
      have early : findSlot slots x 0 n < (live slots n).idxOf x := by omega
      have missed := List.not_of_lt_findIdx early
      rw [getElem_live, hit (by omega)] at missed
      simp at missed
  · rw [findSlot_eq_of_not_mem present, List.idxOf_eq_length present, length_live]

/-- Search for an element among the first `n` slots and close the gap it
leaves. -/
def removeSlot (slots : ℕ → α) (n : ℕ) (x : α) : ℕ → α :=
  closeGap slots (findSlot slots x 0 n) (n - 1 - findSlot slots x 0 n)

/-- The search-and-shift loop refines erasing from the list of live slots. -/
theorem live_removeSlot {slots : ℕ → α} {n : ℕ} {x : α} (present : x ∈ live slots n) :
    live (removeSlot slots n x) (n - 1) = (live slots n).erase x := by
  have idxLt : (live slots n).idxOf x < n := by
    simpa using List.idxOf_lt_length_of_mem present
  rw [removeSlot, findSlot_eq_idxOf, live_closeGap idxLt, List.eraseIdx_idxOf_eq_erase]

/-- An element that is not found leaves the array unchanged. -/
theorem removeSlot_of_not_mem {slots : ℕ → α} {n : ℕ} {x : α} (absent : x ∉ live slots n) :
    removeSlot slots n x = slots := by
  have none : n - 1 - n = 0 := by omega
  rw [removeSlot, findSlot_eq_of_not_mem absent, none]
  rfl

/-- Slots before the one that is found do not change. -/
theorem live_removeSlot_of_not_mem {slots : ℕ → α} {n m : ℕ} {x : α}
    (absent : x ∉ live slots m) : live (removeSlot slots n x) m = live slots m := by
  rcases Nat.lt_or_ge n m with shorter | longer
  · rw [removeSlot_of_not_mem]
    intro present
    obtain ⟨i, lt, eq⟩ := mem_live_iff.mp present
    exact absent (mem_live_iff.mpr ⟨i, by omega, eq⟩)
  · apply live_congr
    intro k lt
    have hit := (findSlot_spec slots x 0 n).2.2.2
    have gap : k < findSlot slots x 0 n := by
      by_contra early
      have found := hit (by omega)
      exact absent (mem_live_iff.mpr ⟨findSlot slots x 0 n, by omega, found⟩)
    rw [removeSlot, closeGap_apply, if_neg (by omega)]

end Rtes.Slots
