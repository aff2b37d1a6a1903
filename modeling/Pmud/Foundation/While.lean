import Mathlib.Order.Basic

/-! # Loops

A `while` loop with a bound on its iterations. The rule for total correctness
shows that the bound is not reached.
-/

namespace Pmud.Foundation

variable {State : Type} (condition : State → Bool) (body : State → State)

/-- `none` when the loop has not ended after `fuel` iterations. -/
def whileLoop : Nat → State → Option State
  | 0, state => if condition state then none else some state
  | fuel + 1, state =>
      if condition state then whileLoop fuel (body state) else some state

/-- An invariant of the body and a quantity that the body lowers. -/
theorem whileLoop_total (invariant : State → Prop) (variant : State → Nat)
    (kept : ∀ state, invariant state → condition state = true → invariant (body state))
    (lowered : ∀ state, invariant state → condition state = true →
      variant (body state) < variant state)
    {fuel : Nat} {state : State} (initial : invariant state) (enough : variant state ≤ fuel) :
    ∃ final, whileLoop condition body fuel state = some final ∧ invariant final ∧
      condition final = false := by
  induction fuel generalizing state with
  | zero =>
      cases running : condition state with
      | false => exact ⟨state, by simp [whileLoop, running], initial, running⟩
      | true =>
          have lower := lowered state initial running
          omega
  | succ fuel induction =>
      cases running : condition state with
      | false => exact ⟨state, by simp [whileLoop, running], initial, running⟩
      | true =>
          have lower := lowered state initial running
          rcases induction (kept state initial running) (by omega) with ⟨final, ends, rest⟩
          exact ⟨final, by simpa [whileLoop, running] using ends, rest⟩

end Pmud.Foundation
