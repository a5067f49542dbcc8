/-
Walks over the natural numbers that are followed up to a bound.

A walk has a state and a position, and `next` gives both of the next round. It
is followed while the position is below the bound, and what is wanted of it is
the last such position. `Leaves` says which one that is. The rules compare two
bounds of one walk, and two walks under one bound.
-/
import Mathlib.Tactic.Common
import Mathlib.Data.Int.Notation
import Mathlib.Data.Nat.Notation

set_option autoImplicit false

namespace WebInsights.Walk

variable {σ τ : Type}

/-- **Where a walk leaves the positions below `bound`**: in state `s` at position `j`, and at
`b` the round before, the last position below the bound is `r`. -/
inductive Leaves (next : σ → ℕ → σ × ℕ) (bound : ℕ) : σ → ℤ → ℕ → ℤ → Prop
  | out {s : σ} {b : ℤ} {j : ℕ} (h : bound ≤ j) : Leaves next bound s b j b
  | round {s : σ} {b : ℤ} {j : ℕ} {r : ℤ} (h : j < bound)
      (rest : Leaves next bound (next s j).1 j (next s j).2 r) : Leaves next bound s b j r

variable {next : σ → ℕ → σ × ℕ} {next' : τ → ℕ → τ × ℕ} {bound : ℕ} {s : σ} {b r r' : ℤ} {j : ℕ}

namespace Leaves

/-- A walk leaves from one position. -/
theorem unique (h : Leaves next bound s b j r) (h' : Leaves next bound s b j r') : r = r' := by
  induction h with
  | out hout =>
    cases h' with
    | out => rfl
    | round hlt => omega
  | round hlt _ ih =>
    cases h' with
    | out hout => omega
    | round _ rest' => exact ih rest'

/-- The position left from was reached, and is below the bound. -/
theorem mem_range (h : Leaves next bound s b j r) (hb : 0 ≤ b) (hlt : b < bound) :
    0 ≤ r ∧ r < bound := by
  induction h with
  | out => exact ⟨hb, hlt⟩
  | round hj _ ih => exact ih (by omega) (by omega)

/-- A walk that starts below the bound leaves from below the bound. -/
theorem mem_range_of_lt (h : Leaves next bound s b j r) (hj : j < bound) :
    0 ≤ r ∧ r < bound := by
  cases h with
  | out hout => omega
  | round _ rest => exact rest.mem_range (by omega) (by omega)

/-! ## One bound more -/

section

variable (hclimb : ∀ s j, j ≤ bound → j ≤ (next s j).2)
include hclimb

/-- A walk that climbs and has reached the old bound leaves the new one from there. -/
theorem eq_bound (h : Leaves next (bound + 1) s b j r) (hb : b = bound) (hj : bound ≤ j) :
    r = bound := by
  induction h with
  | out => exact hb
  | @round s b j r hlt _ ih =>
    have hat := hclimb s j (Nat.le_of_lt_succ hlt)
    exact ih (by omega) (by omega)

/-- **One bound more**: a walk that climbs leaves from where it left, or from the old bound.
Both runs take the same rounds up to the bound, and what differs is the rest of the longer. -/
theorem of_succ (h : Leaves next bound s b j r) (h' : Leaves next (bound + 1) s b j r') :
    r' = r ∨ r' = bound := by
  induction h with
  | @out s b j hout =>
    cases h' with
    | out => exact Or.inl rfl
    | round hlt rest =>
      have hat := hclimb s j (Nat.le_of_lt_succ hlt)
      exact Or.inr (rest.eq_bound hclimb (by omega) (by omega))
  | round hlt _ ih =>
    cases h' with
    | out hout => omega
    | round _ rest' => exact ih rest'

end

/-! ## Two walks -/

/-- **Two walks that leave together.** In related states a round takes both walks to one
position and to related states, or both leave from where they are, whatever rounds that
takes either of them. -/
theorem transfer {R : σ → τ → Prop}
    (hround : ∀ s t j, R s t → j < bound →
      (R (next s j).1 (next' t j).1 ∧ (next s j).2 = (next' t j).2) ∨
      (Leaves next bound (next s j).1 j (next s j).2 j ∧
        Leaves next' bound (next' t j).1 j (next' t j).2 j))
    {t : τ} (hR : R s t) (h : Leaves next bound s b j r) : Leaves next' bound t b j r := by
  induction h generalizing t with
  | out hout => exact .out hout
  | @round s b j r hlt rest ih =>
    apply Leaves.round hlt
    rcases hround s t j hR hlt with ⟨hR', hpos⟩ | ⟨hleft, hright⟩
    · rw [← hpos]
      exact ih hR'
    · rw [rest.unique hleft]
      exact hright

end Leaves

end WebInsights.Walk
