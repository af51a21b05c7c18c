import Mathlib

/-!
# Reachable states of labelled steps

A step takes a state and a label to a new state, or fails.  The states reached
from a set of start states by steps whose label is allowed in the state where
it is taken carry every invariant that holds at the start and is kept by the
allowed steps.
-/

namespace Rtes.Transition

universe u v w

variable {σ : Type u} {α : Type v} {ε : Type w}

/-- States reached from `start` by allowed steps that do not fail. -/
inductive Reaches (step : σ → α → Except ε σ) (allowed : σ → α → Prop) (start : σ → Prop) :
    σ → Prop
  | start {state : σ} : start state → Reaches step allowed start state
  | next {state target : σ} {label : α} : Reaches step allowed start state →
      allowed state label → step state label = .ok target → Reaches step allowed start target

variable {step : σ → α → Except ε σ} {allowed : σ → α → Prop} {start : σ → Prop}

/-- What holds at the start and is kept by every allowed step holds in every
reachable state. -/
theorem Reaches.invariant {inv : σ → Prop} (atStart : ∀ state, start state → inv state)
    (kept : ∀ state label target, inv state → allowed state label →
      step state label = .ok target → inv target)
    {state : σ} (reached : Reaches step allowed start state) : inv state := by
  induction reached with
  | start begins => exact atStart _ begins
  | next _ permitted taken ih => exact kept _ _ _ ih permitted taken

/-- The state after a step that does not fail. -/
def after (step : σ → α → Except ε σ) (state : σ) (label : α) : σ :=
  (step state label).toOption.getD state

theorem step_eq_after {state : σ} {label : α} (succeeds : (step state label).isOk = true) :
    step state label = .ok (after step state label) := by
  unfold after
  cases taken : step state label with
  | error fault =>
      rw [taken] at succeeds
      cases succeeds
  | ok target => rfl

theorem Reaches.after {state : σ} {label : α} (reached : Reaches step allowed start state)
    (permitted : allowed state label) (succeeds : (step state label).isOk = true) :
    Reaches step allowed start (after step state label) :=
  .next reached permitted (step_eq_after succeeds)

/-! ## Results of computations that may fail -/

/-- A sequence of two computations succeeds when both do. -/
theorem bind_eq_ok_iff {α β : Type u} {first : Except ε α} {second : α → Except ε β}
    {result : β} :
    (first >>= second) = .ok result ↔
      ∃ value, first = .ok value ∧ second value = .ok result := by
  cases first with
  | error fault =>
      constructor
      · intro impossible
        cases impossible
      · rintro ⟨value, impossible, _⟩
        cases impossible
  | ok value =>
      constructor
      · intro succeeds
        exact ⟨value, rfl, succeeds⟩
      · rintro ⟨other, same, succeeds⟩
        cases same
        exact succeeds

@[simp]
theorem ok_bind {α β : Type u} (value : α) (next : α → Except ε β) :
    ((Except.ok value : Except ε α) >>= next) = next value :=
  rfl

end Rtes.Transition
