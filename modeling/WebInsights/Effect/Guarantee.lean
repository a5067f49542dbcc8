/-
Rely and guarantee, for one program and for programs that interleave.

`Guarantees R P Q p`: as long as the answers satisfy `R`, the program `p` performs
only operations in `P`, and what it returns satisfies `Q`. The rules follow the
constructs of a program. A run in states that satisfy an invariant gives answers
in `R` and stays within the invariant (`Guarantees.run`), so what a program writes
may depend on what it read. What programs guarantee that share a state, each of them may
rely on (`Pool.Runs.guarantees`).
-/
import WebInsights.Effect.Pool

set_option autoImplicit false

namespace WebInsights.Effect

variable {Op : Type} {Res : Op → Type} {ε α β σ : Type}

namespace Program

/-- Relying on answers in `R`, the program guarantees operations in `P` and a result
in `Q`. -/
def Guarantees (R : (op : Op) → Res op → Prop) (P : Op → Prop) (Q : α → Prop) :
    Program Op Res ε α → Prop
  | .pure a => Q a
  | .throw _ => True
  | .call op k => P op ∧ ∀ r, R op r → (k r).Guarantees R P Q

variable {R : (op : Op) → Res op → Prop} {P : Op → Prop} {Q Q' : α → Prop} {Q₂ : β → Prop}

theorem guarantees_pure {a : α} (h : Q a) :
    (Pure.pure a : Program Op Res ε α).Guarantees R P Q := h

theorem guarantees_throw (e : ε) :
    (MonadExcept.throw e : Program Op Res ε α).Guarantees R P Q := trivial

theorem guarantees_perform {op : Op} (h : P op) :
    (perform op : Program Op Res ε (Res op)).Guarantees R P (R op) :=
  ⟨h, fun _ hr => hr⟩

theorem guarantees_ofExcept {x : Except ε α} (h : ∀ a, x = .ok a → Q a) :
    (ofExcept x : Program Op Res ε α).Guarantees R P Q := by
  cases x with
  | ok a => exact h a rfl
  | error e => trivial

theorem Guarantees.mono {p : Program Op Res ε α} (h : p.Guarantees R P Q)
    (hQ : ∀ a, Q a → Q' a) : p.Guarantees R P Q' := by
  induction p with
  | pure a => exact hQ a h
  | throw e => trivial
  | call op k ih => exact ⟨h.1, fun r hr => ih r (h.2 r hr)⟩

theorem Guarantees.bind {p : Program Op Res ε α} {f : α → Program Op Res ε β}
    (h : p.Guarantees R P Q) (hf : ∀ a, Q a → (f a).Guarantees R P Q₂) :
    (p >>= f).Guarantees R P Q₂ := by
  induction p with
  | pure a => exact hf a h
  | throw e => trivial
  | call op k ih => exact ⟨h.1, fun r hr => ih r (h.2 r hr)⟩

theorem Guarantees.tryCatch {p : Program Op Res ε α} {f : ε → Program Op Res ε α}
    (h : p.Guarantees R P Q) (hf : ∀ e, (f e).Guarantees R P Q) :
    (MonadExcept.tryCatch p f).Guarantees R P Q := by
  induction p with
  | pure a => exact h
  | throw e => exact hf e
  | call op k ih => exact ⟨h.1, fun r hr => ih r (h.2 r hr)⟩

theorem Guarantees.settle {p : Program Op Res ε α} (h : p.Guarantees R P Q) :
    p.settle.Guarantees R P fun r => ∀ a, r = .ok a → Q a := by
  refine Guarantees.tryCatch (h.bind fun a ha => guarantees_pure ?_) fun e => guarantees_pure nofun
  intro b hb
  cases hb
  exact ha

/-- Programs started together guarantee what each of them does. -/
theorem guarantees_all {ps : List (Program Op Res ε α)} (h : ∀ p ∈ ps, p.Guarantees R P Q) :
    (all ps).Guarantees R P fun _ => True := by
  have hsettle : (settleAll ps).Guarantees R P fun _ => True := by
    induction ps with
    | nil => trivial
    | cons p ps ih =>
      refine (h p List.mem_cons_self).settle.bind fun _ _ => ?_
      exact (ih fun q hq => h q (List.mem_cons_of_mem _ hq)).bind fun _ _ => trivial
  exact hsettle.bind fun _ _ => guarantees_ofExcept fun _ _ => trivial

/-- **The rule of a run.** If the operations in `P` keep the invariant, and states that
satisfy it give answers in `R`, then a run of the program keeps the invariant and what
it returns satisfies `Q`. -/
theorem Guarantees.run {p : Program Op Res ε α} {h : Handler Op Res σ} {I : σ → Prop}
    (hp : p.Guarantees R P Q) (hkeep : ∀ op s, P op → I s → I (h op s).2)
    (hanswer : ∀ op s, I s → R op (h op s).1) {s : σ} (hs : I s) :
    I (p.run h s).2 ∧ ∀ a, (p.run h s).1 = .ok a → Q a := by
  induction p generalizing s with
  | pure a => exact ⟨hs, fun b hb => Except.ok.inj hb ▸ hp⟩
  | throw e => exact ⟨hs, nofun⟩
  | call op k ih => exact ih _ (hp.2 _ (hanswer op s hs)) (hkeep op s hp.1 hs)

end Program

/-- **The rule of an interleaving.** The invariant that each caller relies on is kept by the
operations of all of them. -/
theorem Pool.Runs.guarantees {ι : Type} [DecidableEq ι] {R : (op : Op) → Res op → Prop}
    {P : Op → Prop} {Q : ι → α → Prop} {h : Handler Op Res σ} {I : σ → Prop}
    {G : Pool ι Op Res σ ε α → ι → Op → Prop} {p q : Pool ι Op Res σ ε α}
    (hrun : Pool.Runs h G p q) (hkeep : ∀ op s, P op → I s → I (h op s).2)
    (hanswer : ∀ op s, I s → R op (h op s).1)
    (hp : ∀ i, (p.threads i).prog.Guarantees R P (Q i)) (hI : I p.shared) :
    I q.shared ∧ ∀ i, (q.threads i).prog.Guarantees R P (Q i) := by
  refine hrun.invariant
    (I := fun p => I p.shared ∧ ∀ i, (p.threads i).prog.Guarantees R P (Q i)) ⟨hI, hp⟩ ?_
  rintro p i op k ⟨hI, hp⟩ - hk
  have hi := hp i
  rw [hk] at hi
  obtain ⟨hop, hrest⟩ := hi
  refine ⟨hkeep op _ hop hI, fun j => ?_⟩
  by_cases hj : j = i
  · subst hj
    rw [Pool.perform_threads_self]
    exact hrest _ (hanswer op _ hI)
  · rw [Pool.perform_threads_ne h p hj]
    exact hp j

end WebInsights.Effect
