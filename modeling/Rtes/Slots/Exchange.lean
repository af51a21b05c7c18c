import Rtes.Slots.Shift

/-!
# Exchange sort

Two nested loops over an array: the outer index is compared with every slot
behind it, and the two are exchanged when they are out of order.  Exchanges
permute the live slots, and each pass settles one more slot.
-/

namespace Rtes.Slots

universe u v

variable {α : Type u} {κ : Type v} [LinearOrder κ] (key : α → κ)

/-- Compare slot `i` with the `k` slots from `j` on, exchanging when out of
order. -/
def exchangePass (i : ℕ) (slots : ℕ → α) : (j k : ℕ) → ℕ → α
  | _, 0 => slots
  | j, k + 1 =>
      if key (slots j) < key (slots i) then
        exchangePass i
          (Function.update (Function.update slots i (slots j)) j (slots i)) (j + 1) k
      else
        exchangePass i slots (j + 1) k

/-- Run the outer loop over the `k` slots from `i` on, of `n` slots in all. -/
def exchangeFrom (n : ℕ) (slots : ℕ → α) : (i k : ℕ) → ℕ → α
  | _, 0 => slots
  | i, k + 1 => exchangeFrom n (exchangePass key i slots (i + 1) (n - (i + 1))) (i + 1) k

/-- Sort the first `n` slots. -/
def exchangeSort (slots : ℕ → α) (n : ℕ) : ℕ → α :=
  exchangeFrom key n slots 0 n

/-! ## Exchanging two slots -/

section Exchange

variable {slots : ℕ → α} {n i j : ℕ}

theorem live_exchange_perm (iLt : i < n) (jLt : j < n) :
    (live (Function.update (Function.update slots i (slots j)) j (slots i)) n).Perm
      (live slots n) := by
  have moved : ((List.range n).map (Equiv.swap j i)).Perm (List.range n) := by
    rw [List.perm_ext_iff_of_nodup (List.nodup_range.map (Equiv.injective _)) List.nodup_range]
    intro a
    simp only [List.mem_map, List.mem_range]
    constructor
    · rintro ⟨b, bLt, rfl⟩
      rw [Equiv.swap_apply_def]
      split_ifs <;> assumption
    · intro aLt
      refine ⟨Equiv.swap j i a, ?_, Equiv.swap_apply_self j i a⟩
      rw [Equiv.swap_apply_def]
      split_ifs <;> assumption
  rw [← Equiv.comp_swap_eq_update, live, live, ← List.map_map]
  exact moved.map slots

theorem exchange_apply (m : ℕ) :
    Function.update (Function.update slots i (slots j)) j (slots i) m =
      if m = j then slots i else if m = i then slots j else slots m := by
  simp only [Function.update_apply]

end Exchange

/-! ## Settled slots -/

/-- The first `i` of `n` slots are in order and not above any slot behind them. -/
def Settled (n : ℕ) (slots : ℕ → α) (i : ℕ) : Prop :=
  ∀ a b, a < i → a < b → b < n → key (slots a) ≤ key (slots b)

variable {key} {n : ℕ} {slots : ℕ → α}

/-- Exchanging two slots behind the settled ones keeps those settled. -/
theorem Settled.exchange {i j : ℕ} (settled : Settled key n slots i) (lt : i < j) (jLt : j < n) :
    Settled key n (Function.update (Function.update slots i (slots j)) j (slots i)) i := by
  intro a b aLt less bLt
  rw [exchange_apply a, if_neg (by omega), if_neg (by omega), exchange_apply b]
  split_ifs with atJ atI
  · exact settled a i aLt aLt (lt.trans jLt)
  · exact settled a j aLt (aLt.trans lt) jLt
  · exact settled a b aLt less bLt

/-- A pass keeps what is settled, and leaves in slot `i` a least key of all the
slots it has compared it with. -/
theorem exchangePass_spec {i j k : ℕ} (lt : i < j) (bound : j + k ≤ n)
    (settled : Settled key n slots i)
    (least : ∀ m, i < m → m < j → key (slots i) ≤ key (slots m)) :
    (live (exchangePass key i slots j k) n).Perm (live slots n) ∧
      Settled key n (exchangePass key i slots j k) i ∧
      ∀ m, i < m → m < j + k →
        key (exchangePass key i slots j k i) ≤ key (exchangePass key i slots j k m) := by
  induction k generalizing slots j with
  | zero => exact ⟨List.Perm.refl _, settled, least⟩
  | succ k ih =>
      have shift : j + (k + 1) = j + 1 + k := by omega
      rw [exchangePass, shift]
      split_ifs with smaller
      · have jLt : j < n := by omega
        obtain ⟨perm, settled', least'⟩ :=
          ih (lt.trans (Nat.lt_succ_self j)) (by omega) (settled.exchange lt jLt) (by
            intro m less more
            rw [exchange_apply i, if_neg (by omega), if_pos rfl, exchange_apply m]
            split_ifs with atJ atI
            · exact smaller.le
            · exact le_rfl
            · exact smaller.le.trans (least m less (by omega)))
        exact ⟨perm.trans (live_exchange_perm (lt.trans jLt) jLt), settled', least'⟩
      · apply ih (lt.trans (Nat.lt_succ_self j)) (by omega) settled
        intro m less more
        rcases Nat.eq_or_lt_of_le (Nat.le_of_lt_succ more) with rfl | before
        · exact not_lt.mp smaller
        · exact least m less before

/-- Each round of the outer loop settles one more slot. -/
theorem exchangeFrom_spec {i k : ℕ} (bound : i + k = n) (settled : Settled key n slots i) :
    (live (exchangeFrom key n slots i k) n).Perm (live slots n) ∧
      Settled key n (exchangeFrom key n slots i k) n := by
  induction k generalizing slots i with
  | zero =>
      obtain rfl : i = n := bound
      exact ⟨List.Perm.refl _, settled⟩
  | succ k ih =>
      rw [exchangeFrom]
      obtain ⟨perm, settled', least⟩ := exchangePass_spec (k := n - (i + 1)) (Nat.lt_succ_self i)
        (by omega) settled (fun m less more => by omega)
      have more : Settled key n (exchangePass key i slots (i + 1) (n - (i + 1))) (i + 1) := by
        intro a b aLt less bLt
        rcases Nat.eq_or_lt_of_le (Nat.le_of_lt_succ aLt) with rfl | before
        · exact least b less (by omega)
        · exact settled' a b before less bLt
      obtain ⟨perm', done⟩ := ih (by omega) more
      exact ⟨perm'.trans perm, done⟩

theorem exchangeSort_perm (slots : ℕ → α) (n : ℕ) :
    (live (exchangeSort key slots n) n).Perm (live slots n) :=
  (exchangeFrom_spec (Nat.zero_add n) (fun _ _ lt => absurd lt (Nat.not_lt_zero _))).1

theorem exchangeSort_pairwise (slots : ℕ → α) (n : ℕ) :
    (live (exchangeSort key slots n) n).Pairwise fun first second => key first ≤ key second := by
  have settled : Settled key n (exchangeSort key slots n) n :=
    (exchangeFrom_spec (Nat.zero_add n) (fun _ _ lt => absurd lt (Nat.not_lt_zero _))).2
  rw [List.pairwise_iff_getElem]
  intro a b aLt bLt less
  rw [getElem_live, getElem_live]
  rw [length_live] at aLt bLt
  exact settled a b aLt less bLt

end Rtes.Slots
