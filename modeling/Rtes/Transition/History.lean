import Rtes.Transition.Reach

/-!
# Histories

What happened along a run is recorded beside the state: every step that is taken
updates an observation, which no step reads.
-/

namespace Rtes.Transition

universe u v w

variable {σ γ : Type u} {α : Type v} {ε : Type w}

/-- Steps that update an observation. -/
def observe (step : σ → α → Except ε σ) (update : σ → α → σ → γ → γ) (state : σ × γ) (label : α) :
    Except ε (σ × γ) := do
  let target ← step state.1 label
  .ok (target, update state.1 label target state.2)

variable {step : σ → α → Except ε σ} {update : σ → α → σ → γ → γ}
  {allowed : σ × γ → α → Prop} {start : σ × γ → Prop}

/-- An invariant of states and observations is shown for the steps themselves. -/
theorem Reaches.observed {inv : σ × γ → Prop} (atStart : ∀ now, start now → inv now)
    (kept : ∀ now label target, inv now → allowed now label → step now.1 label = .ok target →
      inv (target, update now.1 label target now.2))
    {now : σ × γ} (reached : Reaches (observe step update) allowed start now) : inv now := by
  refine Reaches.invariant atStart ?_ reached
  intro now label next holds permitted taken
  obtain ⟨target, steps, result⟩ := bind_eq_ok_iff.mp taken
  cases result
  exact kept now label target holds permitted steps

end Rtes.Transition
