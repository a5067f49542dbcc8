/-
Total correctness of one program running alone.

`p.Returns h s Q`: run from `s`, the program `p` returns, and what it returns and the
state it leaves satisfy `Q`. The rules follow the constructs of a program; the rule for a
loop asks for an invariant and a measure, as `run_iterate` does.
-/
import WebInsights.Effect.Loop

set_option autoImplicit false

namespace WebInsights.Effect.Program

variable {Op : Type} {Res : Op → Type} {ε α β σ : Type}

/-- Run from `s`, the program returns in `Q`. -/
def Returns (h : Handler Op Res σ) (p : Program Op Res ε α) (s : σ) (Q : α → σ → Prop) : Prop :=
  ∃ a s', p.run h s = (.ok a, s') ∧ Q a s'

variable {h : Handler Op Res σ} {s : σ} {Q : α → σ → Prop}

theorem returns_pure {a : α} (hQ : Q a s) :
    (Pure.pure a : Program Op Res ε α).Returns h s Q := ⟨a, s, rfl, hQ⟩

theorem Returns.bind {p : Program Op Res ε β} {R : β → σ → Prop} {f : β → Program Op Res ε α}
    (hp : p.Returns h s R) (hf : ∀ b s', R b s' → (f b).Returns h s' Q) :
    (p >>= f).Returns h s Q := by
  obtain ⟨b, s', hrun, hR⟩ := hp
  obtain ⟨a, s'', hrun', hQ⟩ := hf b s' hR
  exact ⟨a, s'', (run_bind_ok h hrun).trans hrun', hQ⟩

theorem Returns.mono {Q' : α → σ → Prop} {p : Program Op Res ε α} (hp : p.Returns h s Q)
    (hQ : ∀ a s', Q a s' → Q' a s') : p.Returns h s Q' := by
  obtain ⟨a, s', hrun, hq⟩ := hp
  exact ⟨a, s', hrun, hQ a s' hq⟩

/-- What a turn of a loop with the invariant `I` and the measure `μ` returns. -/
def TurnReturns (I : β → σ → Prop) (Q : α → σ → Prop) (μ : β → ℕ) (b : β) :
    Option (β ⊕ α) → σ → Prop
  | some (.inl b'), s' => I b' s' ∧ μ b' < μ b
  | some (.inr a), s' => Q a s'
  | none, _ => False

/-- **The loop rule.** If every turn from a state of the invariant returns, so does a loop
with more fuel than its measure. -/
theorem returns_iterate {turn : β → Program Op Res ε (Option (β ⊕ α))} {I : β → σ → Prop}
    {μ : β → ℕ} (hturn : ∀ b s, I b s → (turn b).Returns h s (TurnReturns I Q μ b)) {fuel : ℕ}
    {b : β} (hI : I b s) (hfuel : μ b < fuel) :
    (iterate turn fuel b).Returns h s fun r s' => ∃ a, r = some a ∧ Q a s' := by
  induction fuel generalizing b s with
  | zero => omega
  | succ fuel ih =>
    refine (hturn b s hI).bind ?_
    rintro (_ | b' | a) s' hmeets
    · exact hmeets.elim
    · have hless : μ b' < μ b := hmeets.2
      exact ih hmeets.1 (by omega)
    · exact returns_pure ⟨a, rfl, hmeets⟩

end WebInsights.Effect.Program
