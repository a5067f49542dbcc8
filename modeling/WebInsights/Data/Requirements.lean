/-
Requirements in an order, and what they say of an input.

A chain of checks that returns at the first failure computes `Judged`: nothing, where
the input meets every requirement, and otherwise the refusal of the first requirement
that it does not meet.
-/
import Mathlib.Data.List.Basic
import Mathlib.Tactic.Common

set_option autoImplicit false

namespace WebInsights

/-- What an input has to meet, and why one that does not is refused. -/
structure Requirement (α ρ : Type) where
  Met : α → Prop
  refusal : ρ

namespace Requirement

variable {α ρ : Type} {x : α}

/-- The outcome of the requirements for `x`: the refusal of the first that is not met, if
there is one. -/
inductive Judged (x : α) : List (Requirement α ρ) → Option ρ → Prop
  | accepted : Judged x [] none
  | refused {r : Requirement α ρ} {rs : List (Requirement α ρ)} (h : ¬ r.Met x) :
      Judged x (r :: rs) (some r.refusal)
  | met {r : Requirement α ρ} {rs : List (Requirement α ρ)} {o : Option ρ} (h : r.Met x)
      (hrest : Judged x rs o) : Judged x (r :: rs) o

namespace Judged

variable {rs rs' : List (Requirement α ρ)} {o o' : Option ρ} {refusal : ρ}

/-- What is refused is refused whatever else is required. -/
theorem append_some (h : Judged x rs (some refusal)) : Judged x (rs ++ rs') (some refusal) := by
  induction rs with
  | nil => cases h
  | cons r rs ih =>
    rcases h with _ | h | ⟨h, hrest⟩
    · exact refused h
    · exact met h (ih hrest)

/-- What meets the first requirements is judged by the rest. -/
theorem append_none (h : Judged x rs none) (h' : Judged x rs' o) : Judged x (rs ++ rs') o := by
  induction rs with
  | nil => exact h'
  | cons r rs ih =>
    rcases h with _ | _ | ⟨h, hrest⟩
    exact met h (ih hrest)

theorem none_iff : Judged x rs none ↔ ∀ r ∈ rs, r.Met x := by
  induction rs with
  | nil => exact ⟨fun _ => List.forall_mem_nil _, fun _ => accepted⟩
  | cons r rs ih =>
    rw [List.forall_mem_cons, ← ih]
    constructor
    · rintro (_ | _ | ⟨h, hrest⟩)
      exact ⟨h, hrest⟩
    · exact fun h => met h.1 h.2

/-- A refusal is that of a requirement that is not met, with all before it met. -/
theorem some_iff : Judged x rs (some refusal) ↔
    ∃ before r after, rs = before ++ r :: after ∧ (∀ b ∈ before, b.Met x) ∧ ¬ r.Met x ∧
      r.refusal = refusal := by
  constructor
  · intro h
    induction rs with
    | nil => cases h
    | cons r rs ih =>
      rcases h with _ | h | ⟨h, hrest⟩
      · exact ⟨[], r, rs, rfl, List.forall_mem_nil _, h, rfl⟩
      · obtain ⟨before, r', after, hsplit, hbefore, hr'⟩ := ih hrest
        refine ⟨r :: before, r', after, ?_, List.forall_mem_cons.mpr ⟨h, hbefore⟩, hr'⟩
        rw [hsplit, List.cons_append]
  · rintro ⟨before, r, after, rfl, hbefore, hr, rfl⟩
    exact append_none (none_iff.mpr hbefore) (refused hr)

/-- The requirements say one thing of an input. -/
theorem unique (h : Judged x rs o) (h' : Judged x rs o') : o = o' := by
  induction h with
  | accepted =>
    rcases h' with _ | _ | _
    rfl
  | refused h =>
    rcases h' with _ | _ | ⟨hmet, -⟩
    · rfl
    · exact absurd hmet h
  | met h _ ih =>
    rcases h' with _ | hrefused | ⟨-, hrest⟩
    · exact absurd h hrefused
    · exact ih hrest

end Judged

end Requirement

end WebInsights
