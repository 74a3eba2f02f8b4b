/-
  BuildPlan.Proofs.Rounds
  ───────────────────────
  **HOW MANY STEPS A SYSTEM HAS TAKEN.**

  A search is given by its first state and by what a step makes of a state.  `After` tells
  which states it comes to, and after how many steps.  What the first state has and every
  step keeps, all of them have, which is the induction that comes with `After`.  A bound on
  the number of steps makes the search end (`exists_last`).
-/
import Mathlib.Tactic.ByContra

namespace BuildPlan

variable {σ : Type} {step : σ → σ → Prop} {first : σ}

/-- The state after a number of steps. -/
inductive After (step : σ → σ → Prop) (first : σ) : Nat → σ → Prop
  | start : After step first 0 first
  | next {n : Nat} {s s' : σ} (h : After step first n s) (hstep : step s s') :
      After step first (n + 1) s'

/-- If there are never more steps than some number, one state is the last. -/
theorem After.exists_last {bound : Nat} (hbound : ∀ n s, After step first n s → n ≤ bound) :
    ∃ n s, After step first n s ∧ ∀ s', ¬ step s s' := by
  by_contra hnone
  push Not at hnone
  -- without a last state there would be states after any number of steps
  have hall : ∀ n, ∃ s, After step first n s := by
    intro n
    induction n with
    | zero => exact ⟨first, .start⟩
    | succ n ih =>
      obtain ⟨s, hs⟩ := ih
      obtain ⟨s', hstep⟩ := hnone n s hs
      exact ⟨s', .next hs hstep⟩
  obtain ⟨s, hs⟩ := hall (bound + 1)
  exact Nat.not_succ_le_self bound (hbound (bound + 1) s hs)

end BuildPlan
