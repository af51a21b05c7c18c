import Rtes.Transition.Reach

/-!
# Refinement

A system refines another one if each of its steps is a step of the other between the
views of its states, or changes nothing there.
-/

namespace Rtes.Transition

universe u v w x

variable {σ τ : Type u} {α : Type v} {β : Type x} {ε : Type w}
variable {step : σ → α → Except ε σ} {allowed : σ → α → Prop} {start : σ → Prop}

/-- Along every run an invariant holds, and what is seen of its states is reached by the
other system. -/
theorem Reaches.refined (inv : σ → Prop) (view : σ → τ) {coarse : τ → β → Except ε τ}
    {permits : τ → β → Prop} {begins : τ → Prop}
    (atStart : ∀ state, start state → inv state ∧ begins (view state))
    (kept : ∀ state label target, inv state → allowed state label →
      step state label = .ok target → inv target ∧ (view target = view state ∨
        ∃ other, permits (view state) other ∧ coarse (view state) other = .ok (view target)))
    {state : σ} (reached : Reaches step allowed start state) :
    inv state ∧ Reaches coarse permits begins (view state) := by
  induction reached with
  | start first => exact ⟨(atStart _ first).1, .start (atStart _ first).2⟩
  | next _ permitted taken ih =>
      obtain ⟨holdsThen, seen⟩ := kept _ _ _ ih.1 permitted taken
      refine ⟨holdsThen, ?_⟩
      rcases seen with same | ⟨other, allows, moves⟩
      · rw [same]
        exact ih.2
      · exact .next ih.2 allows moves

/-- Labels can be taken one after another. -/
def Permitted (step : σ → α → Except ε σ) (allowed : σ → α → Prop) : σ → List α → Prop
  | _, [] => True
  | state, label :: labels => allowed state label ∧ (step state label).isOk = true ∧
      Permitted step allowed (after step state label) labels

instance decidablePermitted [∀ state label, Decidable (allowed state label)] (state : σ)
    (labels : List α) : Decidable (Permitted step allowed state labels) :=
  match labels with
  | [] => .isTrue trivial
  | label :: labels =>
      have := decidablePermitted (after step state label) labels
      inferInstanceAs (Decidable (_ ∧ _ ∧ _))

theorem Reaches.run {state : σ} (reached : Reaches step allowed start state) (labels : List α)
    (permitted : Permitted step allowed state labels) :
    Reaches step allowed start (labels.foldl (Transition.after step) state) := by
  induction labels generalizing state with
  | nil => exact reached
  | cons label labels ih =>
      obtain ⟨first, succeeds, rest⟩ := permitted
      exact ih (reached.after first succeeds) rest

end Rtes.Transition
