/-
Many callers over one shared state.

A pool is a family of programs together with the state they share. A step picks
one caller and performs the operation it awaits, so a run is an interleaving of
the callers' operations, and every interleaving is a run. Each caller keeps the
answers it has been given, so that a condition on a step can speak of them.

The rules: a step changes one thread (`perform_threads_self`, `perform_threads_ne`)
and the shared state by one operation, and what every step keeps, every run
keeps (`Runs.invariant`). Nothing here depends on what the operations are.
-/
import Mathlib.Logic.Function.Basic
import WebInsights.Effect.Program

set_option autoImplicit false

namespace WebInsights.Effect

variable {ι Op σ ε α : Type} {Res : Op → Type}

/-- One caller: what it still has to do, and the answers it was given. -/
structure Thread (Op : Type) (Res : Op → Type) (ε α : Type) where
  prog : Program Op Res ε α
  seen : List (Sigma Res)

/-- The caller has returned or thrown. -/
def Program.Ended : Program Op Res ε α → Prop
  | .call _ _ => False
  | _ => True

/-- What has become of a promise. -/
inductive Settlement where
  | pending
  | fulfilled
  | rejected
  deriving DecidableEq

def Program.settlement : Program Op Res ε α → Settlement
  | .pure _ => .fulfilled
  | .throw _ => .rejected
  | .call _ _ => .pending

/-- `Promise.all`: one rejection rejects it, and it is fulfilled when all of them are. -/
def Settlement.all (promises : List Settlement) : Settlement :=
  if .rejected ∈ promises then .rejected
  else if ∀ s ∈ promises, s = .fulfilled then .fulfilled
  else .pending

theorem Settlement.all_eq_fulfilled_iff {promises : List Settlement} :
    all promises = .fulfilled ↔ ∀ s ∈ promises, s = .fulfilled := by
  unfold all
  by_cases hrejected : Settlement.rejected ∈ promises
  · rw [if_pos hrejected]
    exact iff_of_false nofun fun h => nomatch h _ hrejected
  · rw [if_neg hrejected]
    by_cases h : ∀ s ∈ promises, s = .fulfilled
    · rw [if_pos h]
      exact iff_of_true rfl h
    · rw [if_neg h]
      exact iff_of_false nofun h

/-- Callers and the state they share. -/
structure Pool (ι Op : Type) (Res : Op → Type) (σ ε α : Type) where
  threads : ι → Thread Op Res ε α
  shared : σ

namespace Pool

/-- All callers at their beginning. -/
def start (progs : ι → Program Op Res ε α) (s : σ) : Pool ι Op Res σ ε α where
  threads := fun i => ⟨progs i, []⟩
  shared := s

variable [DecidableEq ι]

/-- The pool after caller `i` was answered the operation it awaited. -/
def perform (h : Handler Op Res σ) (p : Pool ι Op Res σ ε α) (i : ι) (op : Op)
    (k : Res op → Program Op Res ε α) : Pool ι Op Res σ ε α where
  threads := Function.update p.threads i
    ⟨k (h op p.shared).1, (p.threads i).seen ++ [⟨op, (h op p.shared).1⟩]⟩
  shared := (h op p.shared).2

/-- Caller `i` awaits `op`, and is answered. -/
inductive Step (h : Handler Op Res σ) (p : Pool ι Op Res σ ε α) (i : ι) (op : Op) :
    Pool ι Op Res σ ε α → Prop
  | perform (k : Res op → Program Op Res ε α) (hk : (p.threads i).prog = .call op k) :
      Step h p i op (p.perform h i op k)

theorem perform_threads_self (h : Handler Op Res σ) (p : Pool ι Op Res σ ε α) (i : ι) (op : Op)
    (k : Res op → Program Op Res ε α) :
    (p.perform h i op k).threads i =
      ⟨k (h op p.shared).1, (p.threads i).seen ++ [⟨op, (h op p.shared).1⟩]⟩ := by
  unfold perform
  exact Function.update_self i _ p.threads

theorem perform_threads_ne (h : Handler Op Res σ) (p : Pool ι Op Res σ ε α) {i j : ι}
    (hij : j ≠ i) (op : Op) (k : Res op → Program Op Res ε α) :
    (p.perform h i op k).threads j = p.threads j := by
  unfold perform
  exact Function.update_of_ne hij _ p.threads

/-- The runs whose every step meets the condition `G` when it is taken. -/
inductive Runs (h : Handler Op Res σ) (G : Pool ι Op Res σ ε α → ι → Op → Prop)
    (p₀ : Pool ι Op Res σ ε α) : Pool ι Op Res σ ε α → Prop
  | refl : Runs h G p₀ p₀
  | step {p q : Pool ι Op Res σ ε α} (hp : Runs h G p₀ p) {i : ι} {op : Op} (hG : G p i op)
      (hstep : Step h p i op q) : Runs h G p₀ q

/-- One more step of a run. -/
theorem Runs.perform {h : Handler Op Res σ} {G : Pool ι Op Res σ ε α → ι → Op → Prop}
    {p₀ p : Pool ι Op Res σ ε α} (hrun : Runs h G p₀ p) {i : ι} {op : Op}
    {k : Res op → Program Op Res ε α} (hG : G p i op) (hk : (p.threads i).prog = .call op k) :
    Runs h G p₀ (p.perform h i op k) :=
  .step hrun hG (.perform k hk)

/-- **The invariant rule for interleavings.** A step may use that its pool was reached. -/
theorem Runs.invariant_reached {h : Handler Op Res σ}
    {G : Pool ι Op Res σ ε α → ι → Op → Prop} {p₀ q : Pool ι Op Res σ ε α} (hrun : Runs h G p₀ q)
    {I : Pool ι Op Res σ ε α → Prop} (hstart : I p₀)
    (hkeep : ∀ p i op k, Runs h G p₀ p → I p → G p i op → (p.threads i).prog = .call op k →
      I (p.perform h i op k)) : I q := by
  induction hrun with
  | refl => exact hstart
  | step hp hG hstep ih =>
    obtain ⟨k, hk⟩ := hstep
    exact hkeep _ _ _ k hp ih hG hk

/-- The invariant rule, where a step needs only what it says of the pool before. -/
theorem Runs.invariant {h : Handler Op Res σ} {G : Pool ι Op Res σ ε α → ι → Op → Prop}
    {p₀ q : Pool ι Op Res σ ε α} (hrun : Runs h G p₀ q) {I : Pool ι Op Res σ ε α → Prop}
    (hstart : I p₀)
    (hkeep : ∀ p i op k, I p → G p i op → (p.threads i).prog = .call op k →
      I (p.perform h i op k)) : I q :=
  hrun.invariant_reached hstart fun p i op k _ => hkeep p i op k

/-- The pool after caller `i` was answered, if it awaits an operation and is admitted. -/
def advance (h : Handler Op Res σ) (admits : Pool ι Op Res σ ε α → ι → Op → Bool)
    (p : Pool ι Op Res σ ε α) (i : ι) : Pool ι Op Res σ ε α :=
  match (p.threads i).prog with
  | .call op k => if admits p i op then p.perform h i op k else p
  | _ => p

/-- The pool after the callers took their turns in this order. -/
def playIf (h : Handler Op Res σ) (admits : Pool ι Op Res σ ε α → ι → Op → Bool)
    (p : Pool ι Op Res σ ε α) (schedule : List ι) : Pool ι Op Res σ ε α :=
  schedule.foldl (advance h admits) p

def play (h : Handler Op Res σ) (p : Pool ι Op Res σ ε α) (schedule : List ι) :
    Pool ι Op Res σ ε α :=
  p.playIf h (fun _ _ _ => true) schedule

/-- Every schedule is a run. -/
theorem runs_playIf (h : Handler Op Res σ) {G : Pool ι Op Res σ ε α → ι → Op → Prop}
    {admits : Pool ι Op Res σ ε α → ι → Op → Bool}
    (hadmits : ∀ p i op, admits p i op = true → G p i op) (p : Pool ι Op Res σ ε α)
    (schedule : List ι) : Runs h G p (p.playIf h admits schedule) := by
  have hfrom : ∀ q, Runs h G p q → Runs h G p (schedule.foldl (advance h admits) q) := by
    induction schedule with
    | nil => exact fun q hq => hq
    | cons i schedule ih =>
      intro q hq
      apply ih
      unfold advance
      split
      · rename_i op k hk
        by_cases hG : admits q i op = true
        · rw [if_pos hG]
          exact .step hq (hadmits q i op hG) (.perform k hk)
        · rw [if_neg hG]
          exact hq
      · exact hq
  exact hfrom p .refl

theorem runs_play (h : Handler Op Res σ) (p : Pool ι Op Res σ ε α) (schedule : List ι) :
    Runs h (fun _ _ _ => True) p (p.play h schedule) :=
  runs_playIf h (fun _ _ _ _ => trivial) p schedule

end Pool

end WebInsights.Effect
