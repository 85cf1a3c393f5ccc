import Mathlib.Logic.Relation

/-!
# Reachable states

A transition system is a set of first states and a step relation.  Its reachable
states are those at the end of a run, and an invariant is proved of all of them
by one induction over the run.
-/

namespace Transition

variable {σ : Type*} {init : σ → Prop} {step : σ → σ → Prop} {I : σ → Prop}

/-- A state at the end of a run from a first state. -/
def Reachable (init : σ → Prop) (step : σ → σ → Prop) (s : σ) : Prop :=
  ∃ s₀, init s₀ ∧ Relation.ReflTransGen step s₀ s

theorem Reachable.of_init {s : σ} (h : init s) : Reachable init step s := ⟨s, h, .refl⟩

theorem Reachable.tail {s s' : σ} (h : Reachable init step s) (hs : step s s') :
    Reachable init step s' := by
  obtain ⟨s₀, h₀, hrun⟩ := h
  exact ⟨s₀, h₀, hrun.tail hs⟩

/-- What holds at first and is kept by every step holds of every reachable state. -/
theorem Reachable.invariant {s : σ} (h : Reachable init step s) (h₀ : ∀ s, init s → I s)
    (hstep : ∀ s s', I s → step s s' → I s') : I s := by
  obtain ⟨s₀, hi, hrun⟩ := h
  induction hrun with
  | refl => exact h₀ s₀ hi
  | tail _ hs ih => exact hstep _ _ ih hs

end Transition
