import Mathlib

/-!
# Arrays written in a circle

Entries are written to an array of `cap` slots one after the other, each at its
number modulo `cap`.  The slots then hold the last `cap` entries of the history,
and a walk over consecutive slots reads a part of it.
-/

namespace Rtes.Slots

universe u

variable {α : Type u} {cap first i j count : ℕ} {slots : ℕ → α} {history : List α}

/-- Numbers less than a round apart have places of their own. -/
theorem mod_ne_mod_of_lt (less : i < j) (near : j < i + cap) : i % cap ≠ j % cap := by
  intro same
  have multiple : cap ∣ j - i := (Nat.modEq_iff_dvd' less.le).mp same
  have round := Nat.le_of_dvd (Nat.sub_pos_of_lt less) multiple
  omega

/-- Of the entries of a history from `first` on, those that are among the last
`cap` are in their places. -/
def Keeps (cap : ℕ) (slots : ℕ → α) (first : ℕ) (history : List α) : Prop :=
  ∀ k (bound : k < history.length), first ≤ k → history.length ≤ k + cap →
    slots (k % cap) = history[k]

@[simp]
theorem keeps_nil (cap : ℕ) (slots : ℕ → α) (first : ℕ) : Keeps cap slots first [] := by
  intro k bound
  exact absurd bound (Nat.not_lt_zero k)

/-- Nothing is kept of what is over. -/
@[simp]
theorem keeps_length (cap : ℕ) (slots : ℕ → α) (history : List α) :
    Keeps cap slots history.length history := by
  intro k bound after
  exact absurd bound (not_lt.mpr after)

/-- The next entry takes the place of the oldest. -/
theorem Keeps.push (keeps : Keeps cap slots first history) (entry : α) :
    Keeps cap (Function.update slots (history.length % cap) entry) first
      (history ++ [entry]) := by
  intro k bound after recent
  simp only [List.length_append, List.length_singleton] at bound recent
  rcases Nat.lt_succ_iff_lt_or_eq.mp bound with less | rfl
  · rw [Function.update_of_ne (mod_ne_mod_of_lt less (by omega)), List.getElem_append_left less]
    exact keeps k less after (by omega)
  · rw [Function.update_self]
    simp

/-- The entries at a number of consecutive places. -/
def window (cap : ℕ) (slots : ℕ → α) (i count : ℕ) : List α :=
  (List.range count).map fun j => slots ((i + j) % cap)

@[simp]
theorem length_window : (window cap slots i count).length = count := by
  simp [window]

@[simp]
theorem window_zero : window cap slots i 0 = [] :=
  rfl

theorem window_succ :
    window cap slots i (count + 1) = slots (i % cap) :: window cap slots (i + 1) count := by
  simp only [window, List.range_succ_eq_map, List.map_cons, List.map_map, Nat.add_zero]
  congr 1
  apply List.map_congr_left
  intro j _
  simp only [Function.comp_apply, Nat.succ_eq_add_one]
  congr 2
  omega

/-- A slot that is behind does not matter. -/
theorem window_congr {slots' : ℕ → α} (few : count < cap)
    (same : ∀ k, k ≠ i % cap → slots' k = slots k) :
    window cap slots' (i + 1) count = window cap slots (i + 1) count := by
  apply List.map_congr_left
  intro j member
  have less := List.mem_range.mp member
  exact same _ (mod_ne_mod_of_lt (by omega) (by omega)).symm

/-- The places of the latest entries hold that part of the history. -/
theorem Keeps.window_eq (keeps : Keeps cap slots first history) (after : first ≤ i)
    (whole : i + count = history.length) (few : count ≤ cap) :
    window cap slots i count = history.drop i := by
  apply List.ext_getElem
  · rw [length_window, List.length_drop]
    omega
  · intro j bound _
    rw [length_window] at bound
    rw [List.getElem_drop]
    simp only [window, List.getElem_map, List.getElem_range]
    exact keeps (i + j) (by omega) (by omega) (by omega)

end Rtes.Slots
