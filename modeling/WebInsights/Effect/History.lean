/-
What a program does, told by what it was answered so far.

`p.Meets C Q seen`: once it was answered `seen`, the program `p` performs an operation
only where the condition `C` on the answers up to then allows it, and the answers and
the outcome it ends with satisfy `Q`. The rules follow the constructs of a program. In a
pool every thread meets what its program met at the start (`Runs.meets`), whatever the
other threads do.
-/
import WebInsights.Effect.Loop
import WebInsights.Effect.Pool

set_option autoImplicit false

namespace WebInsights.Effect

variable {ι Op σ ε α β : Type} {Res : Op → Type}

namespace Program

/-- Having been answered `seen`, the program performs operations in `C` and ends in
`Q`. -/
def Meets (C : List (Sigma Res) → Op → Prop) (Q : List (Sigma Res) → Except ε α → Prop) :
    Program Op Res ε α → List (Sigma Res) → Prop
  | .pure a, seen => Q seen (.ok a)
  | .throw e, seen => Q seen (.error e)
  | .call op k, seen => C seen op ∧ ∀ r, (k r).Meets C Q (seen ++ [⟨op, r⟩])

variable {C : List (Sigma Res) → Op → Prop} {seen : List (Sigma Res)}

theorem meets_pure {Q : List (Sigma Res) → Except ε α → Prop} {a : α} (h : Q seen (.ok a)) :
    (Pure.pure a : Program Op Res ε α).Meets C Q seen := h

theorem meets_throw {Q : List (Sigma Res) → Except ε α → Prop} {e : ε} (h : Q seen (.error e)) :
    (MonadExcept.throw e : Program Op Res ε α).Meets C Q seen := h

theorem meets_perform {Q : List (Sigma Res) → Except ε β → Prop} {op : Op}
    {k : Res op → Program Op Res ε β} (h : C seen op)
    (hk : ∀ r, (k r).Meets C Q (seen ++ [⟨op, r⟩])) :
    (perform op >>= k).Meets C Q seen := ⟨h, hk⟩

/-- A sequence: the second part starts from the answers the first one ended with. -/
theorem Meets.bind {R : List (Sigma Res) → Except ε α → Prop}
    {Q : List (Sigma Res) → Except ε β → Prop} {p : Program Op Res ε α}
    {f : α → Program Op Res ε β} (h : p.Meets C R seen)
    (hok : ∀ seen' a, R seen' (.ok a) → (f a).Meets C Q seen')
    (herror : ∀ seen' e, R seen' (.error e) → Q seen' (.error e)) :
    (p >>= f).Meets C Q seen := by
  induction p generalizing seen with
  | pure a => exact hok _ _ h
  | throw e => exact herror _ _ h
  | call op k ih => exact ⟨h.1, fun r => ih r (h.2 r)⟩

theorem Meets.tryCatch {R Q : List (Sigma Res) → Except ε α → Prop} {p : Program Op Res ε α}
    {f : ε → Program Op Res ε α} (h : p.Meets C R seen)
    (hok : ∀ seen' a, R seen' (.ok a) → Q seen' (.ok a))
    (herror : ∀ seen' e, R seen' (.error e) → (f e).Meets C Q seen') :
    (MonadExcept.tryCatch p f).Meets C Q seen := by
  induction p generalizing seen with
  | pure a => exact hok _ _ h
  | throw e => exact herror _ _ h
  | call op k ih => exact ⟨h.1, fun r => ih r (h.2 r)⟩

theorem Meets.mono {C' : List (Sigma Res) → Op → Prop}
    {Q Q' : List (Sigma Res) → Except ε α → Prop} {p : Program Op Res ε α} (h : p.Meets C Q seen)
    (hC : ∀ seen' op, C seen' op → C' seen' op) (hQ : ∀ seen' r, Q seen' r → Q' seen' r) :
    p.Meets C' Q' seen := by
  induction p generalizing seen with
  | pure a => exact hQ _ _ h
  | throw e => exact hQ _ _ h
  | call op k ih => exact ⟨hC _ _ h.1, fun r => ih r (h.2 r)⟩

/-- A settled program ends with its outcome as a value. -/
theorem Meets.settle {Q : List (Sigma Res) → Except ε α → Prop} {p : Program Op Res ε α}
    (h : p.Meets C Q seen) :
    p.settle.Meets C (fun seen' r => ∃ x, r = .ok x ∧ Q seen' x) seen := by
  refine Meets.tryCatch (R := fun seen' r => match r with
    | .ok x => Q seen' x
    | .error e => Q seen' (.error e)) ?_ ?_ ?_
  · exact h.bind (fun _ _ h => meets_pure h) fun _ _ h => h
  · exact fun seen' x h => ⟨x, rfl, h⟩
  · exact fun seen' e h => meets_pure ⟨.error e, rfl, h⟩

theorem meets_ofExcept {Q : List (Sigma Res) → Except ε α → Prop} {x : Except ε α}
    (h : Q seen x) : (ofExcept x : Program Op Res ε α).Meets C Q seen := by
  cases x with
  | ok a => exact meets_pure h
  | error e => exact meets_throw h

/-- Answers are only added. -/
theorem Meets.extends {Q : List (Sigma Res) → Except ε α → Prop} {p : Program Op Res ε α}
    (h : p.Meets C Q seen) : p.Meets C (fun seen' r => seen ⊆ seen' ∧ Q seen' r) seen := by
  have hfrom : ∀ seen₁, seen ⊆ seen₁ → p.Meets C Q seen₁ →
      p.Meets C (fun seen' r => seen ⊆ seen' ∧ Q seen' r) seen₁ := by
    clear h
    induction p with
    | pure a => exact fun seen₁ hsub h => ⟨hsub, h⟩
    | throw e => exact fun seen₁ hsub h => ⟨hsub, h⟩
    | call op k ih =>
      intro seen₁ hsub h
      exact ⟨h.1, fun r => ih r _ (List.Subset.trans hsub (List.subset_append_left _ _)) (h.2 r)⟩
  exact hfrom seen (List.Subset.refl _) h

/-- What a turn of a loop with the invariant `I` and the measure `μ` ends in. -/
def TurnEnds (I : β → List (Sigma Res) → Prop)
    (Q : List (Sigma Res) → Except ε (Option α) → Prop) (μ : β → ℕ) (b : β)
    (seen : List (Sigma Res)) : Except ε (Option (β ⊕ α)) → Prop
  | .ok (some (.inl b')) => I b' seen ∧ μ b' < μ b
  | .ok (some (.inr a)) => Q seen (.ok (some a))
  | .ok none => False
  | .error e => Q seen (.error e)

/-- **The loop rule.** With more fuel than its measure a loop does not run out of it. -/
theorem meets_iterate {turn : β → Program Op Res ε (Option (β ⊕ α))}
    {I : β → List (Sigma Res) → Prop} {Q : List (Sigma Res) → Except ε (Option α) → Prop}
    {μ : β → ℕ} (hturn : ∀ b seen, I b seen → (turn b).Meets C (TurnEnds I Q μ b) seen) {fuel : ℕ}
    {b : β} (hI : I b seen) (hfuel : μ b < fuel) : (iterate turn fuel b).Meets C Q seen := by
  induction fuel generalizing b seen with
  | zero => omega
  | succ fuel ih =>
    refine (hturn b seen hI).bind ?_ fun seen' e h => h
    rintro seen' (_ | b' | a) h
    · exact h.elim
    · have hless : μ b' < μ b := h.2
      exact ih h.1 (by omega)
    · exact h

end Program

namespace Pool

variable [DecidableEq ι] {h : Handler Op Res σ} {G : Pool ι Op Res σ ε α → ι → Op → Prop}
  {progs : ι → Program Op Res ε α} {s : σ} {q : Pool ι Op Res σ ε α}
  {C : ι → List (Sigma Res) → Op → Prop} {Q : ι → List (Sigma Res) → Except ε α → Prop}

/-- **Threads keep what they meet.** -/
theorem Runs.meets (hrun : Runs h G (start progs s) q)
    (hprogs : ∀ i, (progs i).Meets (C i) (Q i) []) (i : ι) :
    (q.threads i).prog.Meets (C i) (Q i) (q.threads i).seen := by
  revert i
  refine hrun.invariant
    (I := fun q => ∀ i, (q.threads i).prog.Meets (C i) (Q i) (q.threads i).seen) hprogs ?_
  intro p i op k hp _ hk j
  by_cases hj : j = i
  · subst hj
    have hmeets := hp j
    rw [hk] at hmeets
    rw [perform_threads_self]
    exact hmeets.2 _
  · rw [perform_threads_ne h p hj]
    exact hp j

/-- A thread performs what its condition allows. -/
theorem Runs.allowed (hrun : Runs h G (start progs s) q)
    (hprogs : ∀ i, (progs i).Meets (C i) (Q i) []) {i : ι} {op : Op}
    {k : Res op → Program Op Res ε α} (hk : (q.threads i).prog = .call op k) :
    C i (q.threads i).seen op := by
  have hmeets := hrun.meets hprogs i
  rw [hk] at hmeets
  exact hmeets.1

/-- A thread that returned did so in its postcondition. -/
theorem Runs.returned (hrun : Runs h G (start progs s) q)
    (hprogs : ∀ i, (progs i).Meets (C i) (Q i) []) {i : ι} {a : α}
    (ha : (q.threads i).prog = .pure a) : Q i (q.threads i).seen (.ok a) := by
  have hmeets := hrun.meets hprogs i
  rw [ha] at hmeets
  exact hmeets

end Pool

end WebInsights.Effect
