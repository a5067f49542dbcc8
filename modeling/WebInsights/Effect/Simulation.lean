/-
One program under two handlers.

Where two handlers answer the operations of a program alike in states that are related, and
leave related states, the program performs the same operations under both and ends alike. So a
program can be proved about under a plain handler, and run under one that does more.
-/
import WebInsights.Effect.Loop

set_option autoImplicit false

namespace WebInsights.Effect

variable {Op σ τ ε α β : Type} {Res : Op → Type}

/-- The handlers answer these operations alike, and leave related states. -/
def Alike (P : Op → Prop) (R : σ → τ → Prop) (h : Handler Op Res σ) (h' : Handler Op Res τ) :
    Prop :=
  ∀ op, P op → ∀ s t, R s t → (h op s).1 = (h' op t).1 ∧ R (h op s).2 (h' op t).2

namespace Program

variable {P : Op → Prop}

theorem uses_iterate {turn : β → Program Op Res ε (Option (β ⊕ α))} (h : ∀ b, (turn b).Uses P)
    (fuel : ℕ) (b : β) : (iterate turn fuel b).Uses P := by
  induction fuel generalizing b with
  | zero => trivial
  | succ fuel ih =>
    refine uses_bind (h b) fun r => ?_
    rcases r with _ | b' | a
    · trivial
    · exact ih b'
    · trivial

/-- **A program under handlers that are alike.** -/
theorem run_of_alike {R : σ → τ → Prop} {h : Handler Op Res σ} {h' : Handler Op Res τ}
    (halike : Alike P R h h') {p : Program Op Res ε α} (hp : p.Uses P) {s : σ} {t : τ}
    (hR : R s t) : (p.run h s).1 = (p.run h' t).1 ∧ R (p.run h s).2 (p.run h' t).2 ∧
      p.ops h s = p.ops h' t := by
  induction p generalizing s t with
  | pure a => exact ⟨rfl, hR, rfl⟩
  | throw e => exact ⟨rfl, hR, rfl⟩
  | call op k ih =>
    obtain ⟨hanswer, hstate⟩ := halike op hp.1 s t hR
    obtain ⟨hrun, hR', hops⟩ := ih (h op s).1 (hp.2 _) hstate
    simp only [run_call, ops_call]
    rw [← hanswer]
    exact ⟨hrun, hR', congrArg (op :: ·) hops⟩

end Program

end WebInsights.Effect
