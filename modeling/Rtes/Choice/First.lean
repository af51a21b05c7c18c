import Mathlib

/-!
# The first candidate in an order

A search that goes over a list and takes the first candidate takes a least one
when the list is sorted and leaves no candidate out.
-/

namespace Rtes.Choice

universe u v

variable {α : Type u} {candidate : α → Prop} {order : List α} {choice other : α}

/-- `choice` is a candidate and nothing before it in the order is. -/
def FirstIn (order : List α) (candidate : α → Prop) (choice : α) : Prop :=
  candidate choice ∧
    ∃ before after, order = before ++ choice :: after ∧ ∀ other ∈ before, ¬ candidate other

theorem firstIn_cons_of_pos (holds : candidate choice) :
    FirstIn (choice :: order) candidate choice :=
  ⟨holds, [], order, rfl, by simp⟩

theorem FirstIn.cons_of_neg (first : FirstIn order candidate choice)
    (fails : ¬ candidate other) : FirstIn (other :: order) candidate choice := by
  obtain ⟨holds, before, after, rfl, none⟩ := first
  exact ⟨holds, other :: before, after, rfl, List.forall_mem_cons.mpr ⟨fails, none⟩⟩

theorem firstIn_of_find? {test : α → Bool} (finds : order.find? test = some choice) :
    FirstIn order (fun other => test other = true) choice := by
  obtain ⟨holds, before, after, split, none⟩ := List.find?_eq_some_iff_append.mp finds
  refine ⟨holds, before, after, split, ?_⟩
  intro other member
  simpa using none other member

/-- Any other candidate of a sorted order comes behind the first one. -/
theorem FirstIn.precedes {rel : α → α → Prop} (first : FirstIn order candidate choice)
    (sorted : order.Pairwise rel) (member : other ∈ order) (holds : candidate other) :
    other = choice ∨ rel choice other := by
  obtain ⟨_, before, after, rfl, none⟩ := first
  rcases List.mem_append.mp member with early | late
  · exact absurd holds (none other early)
  · rcases List.mem_cons.mp late with same | behind
    · exact .inl same
    · exact .inr ((List.pairwise_cons.mp (List.pairwise_append.mp sorted).2.1).1 other behind)

variable {κ : Type v} [Preorder κ] {key : α → κ}

theorem FirstIn.minimalFor (first : FirstIn order candidate choice)
    (sorted : order.Pairwise fun a b => key a ≤ key b)
    (complete : ∀ other, candidate other → other ∈ order) :
    MinimalFor candidate key choice := by
  refine ⟨first.1, ?_⟩
  intro other holds _
  rcases first.precedes sorted (complete other holds) holds with rfl | le
  · exact le_rfl
  · exact le

theorem FirstIn.maximalFor (first : FirstIn order candidate choice)
    (sorted : order.Pairwise fun a b => key b ≤ key a)
    (complete : ∀ other, candidate other → other ∈ order) :
    MaximalFor candidate key choice := by
  refine ⟨first.1, ?_⟩
  intro other holds _
  rcases first.precedes sorted (complete other holds) holds with rfl | le
  · exact le_rfl
  · exact le

end Rtes.Choice
