/-
Callers that keep to a cell of their own.

A shared state is read and written in cells. Where an operation is about one cell, and does to
it what `step` says, callers that are each about another cell do not meet: whatever the
interleaving, a caller and its cell have come where the caller alone can take the cell
(`Solo`), and the cells of nobody are as they were.
-/
import WebInsights.Effect.Guarantee
import WebInsights.Effect.Pool

set_option autoImplicit false

namespace WebInsights.Effect

variable {ι Op σ ε α κ C : Type} {Res : Op → Type}

/-- What the operations do to the cells of a state that satisfies `I`: one that is admitted
does to the cell it is about what `step` says and is answered in `R`, and none does anything
to a cell it is not about. -/
structure Local (h : Handler Op Res σ) (I : σ → Prop) (Admits : Op → σ → Prop)
    (cell : κ → σ → C) (about : Op → Option κ) (step : (op : Op) → C → Res op → C → Prop)
    (R : (op : Op) → Res op → Prop) : Prop where
  keeps {op : Op} {s : σ} : I s → I (h op s).2
  own {op : Op} {s : σ} {k : κ} : I s → Admits op s → about op = some k →
    step op (cell k s) (h op s).1 (cell k (h op s).2)
  answer {op : Op} {s : σ} {k : κ} : I s → Admits op s → about op = some k → R op (h op s).1
  frame {op : Op} {s : σ} {k k' : κ} : I s → about op = some k → k' ≠ k →
    cell k' (h op s).2 = cell k' s

/-- Where a caller can come with its cell, if nobody else is about it. -/
inductive Solo (step : (op : Op) → C → Res op → C → Prop) (R : (op : Op) → Res op → Prop)
    (prog : Program Op Res ε α) (c : C) : Program Op Res ε α → C → Prop
  | refl : Solo step R prog c prog c
  | step {op : Op} {k : Res op → Program Op Res ε α} {c₁ c₂ : C} {r : Res op}
      (h : Solo step R prog c (.call op k) c₁) (hstep : step op c₁ r c₂) (hanswer : R op r) :
      Solo step R prog c (k r) c₂

section

variable {h : Handler Op Res σ} {I : σ → Prop} {Admits : Op → σ → Prop} {cell : κ → σ → C}
  {about : Op → Option κ} {step : (op : Op) → C → Res op → C → Prop}
  {R : (op : Op) → Res op → Prop}

/-- What callers with these cells have come to. -/
structure Apart (I : σ → Prop) (cell : κ → σ → C) (about : Op → Option κ)
    (step : (op : Op) → C → Res op → C → Prop) (R : (op : Op) → Res op → Prop) (key : ι → κ)
    (progs : ι → Program Op Res ε α) (s : σ) (p : Pool ι Op Res σ ε α) : Prop where
  keeps : I p.shared
  about (i : ι) : (p.threads i).prog.Guarantees R (about · = some (key i)) fun _ => True
  solo (i : ι) : Solo step R (progs i) (cell (key i) s) (p.threads i).prog
    (cell (key i) p.shared)
  others (k : κ) : (∀ i, key i ≠ k) → cell k p.shared = cell k s

variable [DecidableEq ι] {key : ι → κ} {progs : ι → Program Op Res ε α} {s : σ}
  {p : Pool ι Op Res σ ε α}

/-- **One step** of a caller. -/
theorem Apart.perform (hlocal : Local h I Admits cell about step R)
    (hkey : Function.Injective key) (hp : Apart I cell about step R key progs s p) {i : ι} {op : Op}
    {k : Res op → Program Op Res ε α} (hadmits : Admits op p.shared)
    (hk : (p.threads i).prog = .call op k) :
    Apart I cell about step R key progs s (p.perform h i op k) := by
  have habout := hp.about i
  have hsolo := hp.solo i
  rw [hk] at habout hsolo
  obtain ⟨hop, hrest⟩ := habout
  refine ⟨hlocal.keeps hp.keeps, fun j => ?_, fun j => ?_, fun k' hne => ?_⟩
  · by_cases hj : j = i
    · subst hj
      rw [Pool.perform_threads_self]
      exact hrest _ (hlocal.answer hp.keeps hadmits hop)
    · rw [Pool.perform_threads_ne _ _ hj]
      exact hp.about j
  · by_cases hj : j = i
    · subst hj
      rw [Pool.perform_threads_self]
      exact hsolo.step (hlocal.own hp.keeps hadmits hop) (hlocal.answer hp.keeps hadmits hop)
    · -- the cell of another caller is not the one the operation is about
      rw [Pool.perform_threads_ne _ _ hj]
      have hframe : cell (key j) (p.perform h i op k).shared = cell (key j) p.shared :=
        hlocal.frame hp.keeps hop fun e => hj (hkey e)
      rw [hframe]
      exact hp.solo j
  · exact (hlocal.frame hp.keeps hop (hne i).symm).trans (hp.others k' hne)

/-- **Callers that do not meet**: in every pool an interleaving reaches, each is where it can
come alone with its cell. -/
theorem Pool.Runs.apart (hlocal : Local h I Admits cell about step R)
    (hkey : Function.Injective key) (hs : I s)
    (habout : ∀ i, (progs i).Guarantees R (about · = some (key i)) fun _ => True)
    {G : Pool ι Op Res σ ε α → ι → Op → Prop} (hG : ∀ p i op, G p i op → Admits op p.shared)
    {q : Pool ι Op Res σ ε α} (hrun : Pool.Runs h G (Pool.start progs s) q) :
    Apart I cell about step R key progs s q := by
  refine hrun.invariant ⟨hs, habout, fun _ => .refl, fun _ _ => rfl⟩ ?_
  intro p i op k hp hstep hk
  exact hp.perform hlocal hkey (hG p i op hstep) hk

end

end WebInsights.Effect
