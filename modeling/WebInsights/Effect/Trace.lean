/-
What a program was answered on its way.

A trace leads from a program to what is left of it, by the answers it was given
in between, whoever gave them and whatever happened meanwhile. The rules take a
trace apart along the program: `of_bind`, `of_tryCatch` and `of_perform` for
one that returned, `bind_cases` for one that may still be under way. In a
pool every thread is a trace of its program (`Runs.trace`), and what the answers
satisfy is a matter of the shared state (`Runs.answers`).
-/
import WebInsights.Effect.Pool

set_option autoImplicit false

namespace WebInsights.Effect

variable {ι Op σ ε α β : Type} {Res : Op → Type}

/-- The program `p`, given the answers `seen`, has become `q`. -/
inductive Trace : Program Op Res ε α → List (Sigma Res) → Program Op Res ε α → Prop
  | nil (p : Program Op Res ε α) : Trace p [] p
  | cons {op : Op} {k : Res op → Program Op Res ε α} {a : Res op} {seen : List (Sigma Res)}
      {q : Program Op Res ε α} (h : Trace (k a) seen q) : Trace (.call op k) (⟨op, a⟩ :: seen) q

namespace Trace

theorem concat {p : Program Op Res ε α} {seen : List (Sigma Res)} {op : Op}
    {k : Res op → Program Op Res ε α} (h : Trace p seen (.call op k)) (a : Res op) :
    Trace p (seen ++ [⟨op, a⟩]) (k a) := by
  generalize hq : Program.call op k = q at h
  induction h with
  | nil p =>
    subst hq
    exact .cons (.nil _)
  | cons _ ih => exact .cons (ih hq)

/-- An operation that returned was answered that. -/
theorem of_perform {op : Op} {a : Res op} {seen : List (Sigma Res)}
    (h : Trace (Program.perform op : Program Op Res ε (Res op)) seen (.pure a)) :
    seen = [⟨op, a⟩] := by
  cases h with
  | cons h =>
    cases h
    rfl

theorem of_pure {a b : α} {seen : List (Sigma Res)}
    (h : Trace (.pure a : Program Op Res ε α) seen (.pure b)) : a = b ∧ seen = [] := by
  cases h
  exact ⟨rfl, rfl⟩

theorem of_throw {e : ε} {b : α} {seen : List (Sigma Res)} :
    ¬ Trace (.throw e : Program Op Res ε α) seen (.pure b) := nofun

theorem of_ofExcept {x : Except ε α} {b : α} {seen : List (Sigma Res)}
    (h : Trace (Program.ofExcept x : Program Op Res ε α) seen (.pure b)) :
    x = .ok b ∧ seen = [] := by
  cases x with
  | ok a =>
    obtain ⟨rfl, hseen⟩ := of_pure h
    exact ⟨rfl, hseen⟩
  | error e => exact absurd h of_throw

/-- A sequence that returned went through both parts. -/
theorem of_bind {p : Program Op Res ε α} {f : α → Program Op Res ε β} {seen : List (Sigma Res)}
    {b : β} (h : Trace (p >>= f) seen (.pure b)) :
    ∃ seen₁ seen₂ a, seen = seen₁ ++ seen₂ ∧ Trace p seen₁ (.pure a) ∧
      Trace (f a) seen₂ (.pure b) := by
  induction p generalizing seen with
  | pure a => exact ⟨[], seen, a, rfl, .nil _, h⟩
  | throw e => exact absurd h of_throw
  | call op k ih =>
    cases h with
    | cons h =>
      obtain ⟨seen₁, seen₂, a, hseen, h₁, h₂⟩ := ih _ h
      exact ⟨_ :: seen₁, seen₂, a, congrArg _ hseen, .cons h₁, h₂⟩

/-- A guarded part that returned did so itself, or threw and was handled. -/
theorem of_tryCatch {p : Program Op Res ε α} {f : ε → Program Op Res ε α}
    {seen : List (Sigma Res)} {b : α} (h : Trace (MonadExcept.tryCatch p f) seen (.pure b)) :
    Trace p seen (.pure b) ∨
    ∃ seen₁ seen₂ e, seen = seen₁ ++ seen₂ ∧ Trace p seen₁ (.throw e) ∧
      Trace (f e) seen₂ (.pure b) := by
  induction p generalizing seen with
  | pure a => exact Or.inl h
  | throw e => exact Or.inr ⟨[], seen, e, rfl, .nil _, h⟩
  | call op k ih =>
    cases h with
    | cons h =>
      rcases ih _ h with h | ⟨seen₁, seen₂, e, hseen, h₁, h₂⟩
      · exact Or.inl (.cons h)
      · exact Or.inr ⟨_ :: seen₁, seen₂, e, congrArg _ hseen, .cons h₁, h₂⟩

/-- A sequence is in its first part, or has gone on to the second. -/
theorem bind_cases {p : Program Op Res ε α} {f : α → Program Op Res ε β}
    {seen : List (Sigma Res)} {q : Program Op Res ε β} (h : Trace (p >>= f) seen q) :
    (∃ p', Trace p seen p' ∧ q = p' >>= f) ∨
    ∃ seen₁ seen₂ a, seen = seen₁ ++ seen₂ ∧ Trace p seen₁ (.pure a) ∧ Trace (f a) seen₂ q := by
  induction p generalizing seen with
  | pure a => exact Or.inr ⟨[], seen, a, rfl, .nil _, h⟩
  | throw e =>
    left
    cases h
    exact ⟨_, .nil _, rfl⟩
  | call op k ih =>
    cases h with
    | nil => exact Or.inl ⟨_, .nil _, rfl⟩
    | cons h =>
      rcases ih _ h with ⟨p', h, hq⟩ | ⟨seen₁, seen₂, a, hseen, h₁, h₂⟩
      · exact Or.inl ⟨p', .cons h, hq⟩
      · exact Or.inr ⟨_ :: seen₁, seen₂, a, congrArg _ hseen, .cons h₁, h₂⟩

theorem bind {p p' : Program Op Res ε α} {seen : List (Sigma Res)} (h : Trace p seen p')
    (f : α → Program Op Res ε β) : Trace (p >>= f) seen (p' >>= f) := by
  induction h with
  | nil p => exact .nil _
  | cons _ ih => exact .cons ih

/-- The answers decide what is left of a program. -/
theorem drop {p p' q : Program Op Res ε α} {seen₁ seen₂ : List (Sigma Res)}
    (h : Trace p (seen₁ ++ seen₂) q) (h₁ : Trace p seen₁ p') : Trace p' seen₂ q := by
  induction h₁ with
  | nil p => exact h
  | cons _ ih =>
    cases h with
    | cons h => exact ih h

/-- What a program can do at most bounds what it was answered. -/
theorem uses_seen {p q : Program Op Res ε α} {seen : List (Sigma Res)} (h : Trace p seen q)
    {P : Op → Prop} (hp : p.Uses P) : ∀ x ∈ seen, P x.1 := by
  induction h with
  | nil p => exact fun x hx => nomatch hx
  | cons _ ih =>
    intro x hx
    rcases List.mem_cons.mp hx with rfl | hx
    · exact hp.1
    · exact ih (hp.2 _) x hx

end Trace

namespace Pool

variable [DecidableEq ι] {h : Handler Op Res σ} {G : Pool ι Op Res σ ε α → ι → Op → Prop}
  {progs : ι → Program Op Res ε α} {s : σ} {q : Pool ι Op Res σ ε α}

/-- Every thread of a run is a trace of its program. -/
theorem Runs.trace (hrun : Runs h G (start progs s) q) (i : ι) :
    Trace (progs i) (q.threads i).seen (q.threads i).prog := by
  revert i
  refine hrun.invariant (I := fun q => ∀ i, Trace (progs i) (q.threads i).seen (q.threads i).prog)
    (fun i => .nil _) ?_
  intro p i op k hp _ hk j
  by_cases hj : j = i
  · subst hj
    rw [perform_threads_self]
    exact (hk ▸ hp j).concat _
  · rw [perform_threads_ne h p hj]
    exact hp j

/-- **What the threads are answered.** If the operations the programs can do at most
keep `I` of the shared state, and a state that satisfies `I` gives answers that satisfy
`R`, then every answer of a run does. -/
theorem Runs.answers (hrun : Runs h G (start progs s) q) {P : Op → Prop} {I : σ → Prop}
    {R : (op : Op) → Res op → Prop} (huses : ∀ i, (progs i).Uses P) (hs : I s)
    (hkeep : ∀ op s, P op → I s → I (h op s).2) (hanswer : ∀ op s, I s → R op (h op s).1) :
    I q.shared ∧ ∀ i, ∀ x ∈ (q.threads i).seen, R x.1 x.2 := by
  have hinv : (∀ i, (q.threads i).prog.Uses P) ∧ I q.shared ∧
      ∀ i, ∀ x ∈ (q.threads i).seen, R x.1 x.2 := by
    refine hrun.invariant (I := fun q => (∀ i, (q.threads i).prog.Uses P) ∧ I q.shared ∧
      ∀ i, ∀ x ∈ (q.threads i).seen, R x.1 x.2) ⟨huses, hs, fun i x hx => nomatch hx⟩ ?_
    rintro p i op k ⟨hp, hI, hR⟩ _ hk
    -- only the thread that steps is answered, and `I` held before
    have hop := hp i
    rw [hk] at hop
    refine ⟨fun j => ?_, hkeep op _ hop.1 hI, fun j x hx => ?_⟩
    · by_cases hj : j = i
      · subst hj
        rw [perform_threads_self]
        exact hop.2 _
      · rw [perform_threads_ne h p hj]
        exact hp j
    · by_cases hj : j = i
      · subst hj
        rw [perform_threads_self] at hx
        rcases List.mem_append.mp hx with hx | hx
        · exact hR j x hx
        · obtain rfl := List.mem_singleton.mp hx
          exact hanswer op _ hI
      · rw [perform_threads_ne h p hj] at hx
        exact hR j x hx
  exact hinv.2

end Pool

end WebInsights.Effect
