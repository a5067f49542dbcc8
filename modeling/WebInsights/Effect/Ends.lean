/-
How a program ends, by the answers it was given.

`p.Ends answers out`: given these answers one after another, the program `p` ends with the
outcome `out`. The rules take a program apart along its constructs, whether it returns or
throws, so the outcome and the answers of the whole are told by those of its parts. A
program running alone ends with the answers of its run (`ends_run`), and so does every
thread of a pool that has ended (`Runs.ends`).
-/
import WebInsights.Effect.Guarantee
import WebInsights.Effect.Trace

set_option autoImplicit false

namespace WebInsights.Effect

variable {ι Op σ ε α β : Type} {Res : Op → Type}

namespace Program

/-- Given these answers, the program ends so. -/
def Ends : Program Op Res ε α → List (Sigma Res) → Except ε α → Prop
  | .pure a, answers, out => answers = [] ∧ out = .ok a
  | .throw e, answers, out => answers = [] ∧ out = .error e
  | .call op k, answers, out => ∃ r rest, answers = ⟨op, r⟩ :: rest ∧ (k r).Ends rest out

namespace Ends

variable {answers : List (Sigma Res)}

theorem of_ofExcept {x out : Except ε α}
    (h : (ofExcept x : Program Op Res ε α).Ends answers out) : answers = [] ∧ out = x := by
  cases x <;> exact h

/-- A sequence ends with its second part, or with the error of its first. -/
theorem of_bind {p : Program Op Res ε α} {f : α → Program Op Res ε β} {out : Except ε β}
    (h : (p >>= f).Ends answers out) :
    (∃ first rest a, answers = first ++ rest ∧ p.Ends first (.ok a) ∧ (f a).Ends rest out) ∨
      ∃ e, out = .error e ∧ p.Ends answers (.error e) := by
  induction p generalizing answers with
  | pure a => exact Or.inl ⟨[], answers, a, rfl, ⟨rfl, rfl⟩, h⟩
  | throw e => exact Or.inr ⟨e, h.2, h.1, rfl⟩
  | call op k ih =>
    obtain ⟨r, rest, rfl, h⟩ := h
    rcases ih r h with ⟨first, rest', a, rfl, hp, hf⟩ | ⟨e, hout, hp⟩
    · exact Or.inl ⟨⟨op, r⟩ :: first, rest', a, rfl, ⟨r, first, rfl, hp⟩, hf⟩
    · exact Or.inr ⟨e, hout, r, rest, rfl, hp⟩

/-- A guarded part ends as it does itself, or with the handler of its error. -/
theorem of_tryCatch {p : Program Op Res ε α} {f : ε → Program Op Res ε α} {out : Except ε α}
    (h : (MonadExcept.tryCatch p f).Ends answers out) :
    (∃ a, out = .ok a ∧ p.Ends answers (.ok a)) ∨
      ∃ first rest e, answers = first ++ rest ∧ p.Ends first (.error e) ∧ (f e).Ends rest out := by
  induction p generalizing answers with
  | pure a => exact Or.inl ⟨a, h.2, h.1, rfl⟩
  | throw e => exact Or.inr ⟨[], answers, e, rfl, ⟨rfl, rfl⟩, h⟩
  | call op k ih =>
    obtain ⟨r, rest, rfl, h⟩ := h
    rcases ih r h with ⟨a, hout, hp⟩ | ⟨first, rest', e, rfl, hp, hf⟩
    · exact Or.inl ⟨a, hout, r, rest, rfl, hp⟩
    · exact Or.inr ⟨⟨op, r⟩ :: first, rest', e, rfl, ⟨r, first, rfl, hp⟩, hf⟩

/-- A settled program ends with its outcome as a value. -/
theorem of_settle {p : Program Op Res ε α} {out : Except ε (Except ε α)}
    (h : p.settle.Ends answers out) : ∃ x, out = .ok x ∧ p.Ends answers x := by
  have hpure : ∀ {answers : List (Sigma Res)} {x : Except ε (Except ε α)},
      (p >>= fun a => Pure.pure (Except.ok a)).Ends answers x →
        (∃ a, x = .ok (.ok a) ∧ p.Ends answers (.ok a)) ∨
          ∃ e, x = .error e ∧ p.Ends answers (.error e) := by
    intro answers x hx
    rcases of_bind hx with ⟨first, rest, a, rfl, hp, rfl, rfl⟩ | herror
    · exact Or.inl ⟨a, rfl, by rwa [List.append_nil]⟩
    · exact Or.inr herror
  rcases of_tryCatch h with ⟨x, rfl, hp⟩ | ⟨first, rest, e, rfl, hp, rfl, rfl⟩
  · rcases hpure hp with ⟨a, hx, ha⟩ | ⟨e, hx, -⟩
    · exact ⟨x, rfl, by rwa [Except.ok.inj hx]⟩
    · cases hx
  · rcases hpure hp with ⟨a, hx, -⟩ | ⟨e', hx, he⟩
    · cases hx
    · obtain rfl := Except.error.inj hx
      exact ⟨.error e, rfl, by rwa [List.append_nil]⟩

/-- The outcome of programs that are awaited together, by theirs. -/
theorem mapM_id_cases (outs : List (Except ε α)) :
    (∃ as, outs.mapM id = .ok as ∧ ∀ x ∈ outs, ∃ a, x = .ok a) ∨
      ∃ e, outs.mapM id = .error e ∧ ∃ x ∈ outs, ∃ e', x = .error e' := by
  induction outs with
  | nil => exact Or.inl ⟨[], rfl, nofun⟩
  | cons x outs ih =>
    rw [List.mapM_cons]
    rcases x with e | a
    · exact Or.inr ⟨e, rfl, _, List.mem_cons_self, e, rfl⟩
    rcases ih with ⟨as, has, hall⟩ | ⟨e, he, x, hx, hexists⟩
    · rw [has]
      exact Or.inl ⟨a :: as, rfl, List.forall_mem_cons.mpr ⟨⟨a, rfl⟩, hall⟩⟩
    · rw [he]
      exact Or.inr ⟨e, rfl, x, List.mem_cons_of_mem _ hx, hexists⟩

/-- Settled together, programs end with the outcomes of all of them as values. -/
theorem of_settleAll {ps : List (Program Op Res ε α)} {out : Except ε (List (Except ε α))}
    (h : (settleAll ps).Ends answers out) :
    ∃ parts : List (List (Sigma Res) × Except ε α),
      List.Forall₂ (fun p part => p.Ends part.1 part.2) ps parts ∧
        answers = (parts.map Prod.fst).flatten ∧ out = .ok (parts.map Prod.snd) := by
  induction ps generalizing answers out with
  | nil =>
    obtain ⟨rfl, rfl⟩ := h
    exact ⟨[], .nil, rfl, rfl⟩
  | cons p ps ih =>
    rcases of_bind h with ⟨first, rest, x, rfl, hp, h⟩ | ⟨e, -, hp⟩
    · obtain ⟨x, hx, hp⟩ := of_settle hp
      obtain rfl := Except.ok.inj hx
      rcases of_bind h with ⟨first', rest', xs, rfl, hps, rfl, rfl⟩ | ⟨e, -, hps⟩
      · obtain ⟨parts, hparts, rfl, hxs⟩ := ih hps
        obtain rfl := Except.ok.inj hxs
        exact ⟨(first, x) :: parts, .cons hp hparts, by simp, rfl⟩
      · obtain ⟨parts, -, -, hxs⟩ := ih hps
        cases hxs
    · -- a settled program throws nothing
      obtain ⟨x, hx, -⟩ := of_settle hp
      cases hx

/-- Programs that are awaited together end with the outcomes of all of them, and return
exactly when all of them do. -/
theorem of_all {ps : List (Program Op Res ε α)} {out : Except ε (List α)}
    (h : (all ps).Ends answers out) :
    ∃ parts : List (List (Sigma Res) × Except ε α),
      List.Forall₂ (fun p part => p.Ends part.1 part.2) ps parts ∧
        answers = (parts.map Prod.fst).flatten ∧
        ((∃ as, out = .ok as ∧ ∀ part ∈ parts, ∃ a, part.2 = .ok a) ∨
          ∃ e, out = .error e ∧ ∃ part ∈ parts, ∃ e', part.2 = .error e') := by
  rcases of_bind h with ⟨first, rest, xs, rfl, hps, h⟩ | ⟨e, -, hps⟩
  · obtain ⟨parts, hparts, rfl, hxs⟩ := of_settleAll hps
    obtain rfl := Except.ok.inj hxs
    obtain ⟨rfl, rfl⟩ := of_ofExcept h
    refine ⟨parts, hparts, by rw [List.append_nil], ?_⟩
    rcases mapM_id_cases (parts.map Prod.snd) with ⟨as, has, hall⟩ | ⟨e, he, x, hx, e', he'⟩
    · exact Or.inl ⟨as, has, fun part hmem => hall _ (List.mem_map_of_mem hmem)⟩
    · obtain ⟨part, hmem, rfl⟩ := List.mem_map.mp hx
      exact Or.inr ⟨e, he, part, hmem, e', he'⟩
  · obtain ⟨parts, -, -, hxs⟩ := of_settleAll hps
    cases hxs

theorem exists_of_forall₂ {γ δ : Type} {R : γ → δ → Prop} {as : List γ} {bs : List δ}
    (h : List.Forall₂ R as bs) {b : δ} (hb : b ∈ bs) : ∃ a ∈ as, R a b := by
  induction h with
  | nil => cases hb
  | @cons a b' as bs hR _ ih =>
    rcases List.mem_cons.mp hb with rfl | hb
    · exact ⟨a, List.mem_cons_self, hR⟩
    · obtain ⟨a', ha', hR'⟩ := ih hb
      exact ⟨a', List.mem_cons_of_mem _ ha', hR'⟩

/-- Programs that are awaited together return, if each of them does. -/
theorem all_ok {ps : List (Program Op Res ε α)} {P : Sigma Res → Prop}
    (hps : ∀ p ∈ ps, ∀ answers out, p.Ends answers out →
      (∃ a, out = .ok a) ∧ ∀ x ∈ answers, P x)
    {out : Except ε (List α)} (h : (all ps).Ends answers out) :
    (∃ as, out = .ok as) ∧ ∀ x ∈ answers, P x := by
  obtain ⟨parts, hparts, rfl, hout⟩ := of_all h
  have hpart : ∀ part ∈ parts, (∃ a, part.2 = .ok a) ∧ ∀ x ∈ part.1, P x := by
    intro part hmem
    obtain ⟨p, hp, hends⟩ := exists_of_forall₂ hparts hmem
    exact hps p hp _ _ hends
  refine ⟨?_, fun x hx => ?_⟩
  · rcases hout with ⟨as, has, -⟩ | ⟨e, -, part, hmem, e', he'⟩
    · exact ⟨as, has⟩
    · obtain ⟨a, ha⟩ := (hpart part hmem).1
      rw [he'] at ha
      cases ha
  · obtain ⟨answers, hanswers, hx⟩ := List.mem_flatten.mp hx
    obtain ⟨part, hmem, rfl⟩ := List.mem_map.mp hanswers
    exact (hpart part hmem).2 x hx

/-- Where each program returns exactly if its answers are good, so do they together. -/
theorem all_ok_iff {ps : List (Program Op Res ε α)} {P : Sigma Res → Prop}
    (hps : ∀ p ∈ ps, ∀ answers out, p.Ends answers out →
      ((∃ a, out = .ok a) ↔ ∀ x ∈ answers, P x))
    {out : Except ε (List α)} (h : (all ps).Ends answers out) :
    (∃ as, out = .ok as) ↔ ∀ x ∈ answers, P x := by
  obtain ⟨parts, hparts, rfl, hout⟩ := of_all h
  have hpart : ∀ part ∈ parts, ((∃ a, part.2 = .ok a) ↔ ∀ x ∈ part.1, P x) := by
    intro part hmem
    obtain ⟨p, hp, hends⟩ := exists_of_forall₂ hparts hmem
    exact hps p hp _ _ hends
  rcases hout with ⟨as, rfl, hreturned⟩ | ⟨e, rfl, part, hmem, e', he'⟩
  · refine ⟨fun _ x hx => ?_, fun _ => ⟨as, rfl⟩⟩
    obtain ⟨answers, hanswers, hx⟩ := List.mem_flatten.mp hx
    obtain ⟨part, hmem, rfl⟩ := List.mem_map.mp hanswers
    exact (hpart part hmem).mp (hreturned part hmem) x hx
  · constructor
    · rintro ⟨as, has⟩
      cases has
    · -- the answers of the program that threw are among them
      intro hgood
      obtain ⟨a, ha⟩ := (hpart part hmem).mpr fun x hx =>
        hgood x (List.mem_flatten.mpr ⟨part.1, List.mem_map_of_mem hmem, hx⟩)
      rw [he'] at ha
      cases ha

/-- A program that has ended performed what it can at most. -/
theorem performed {p : Program Op Res ε α} {P : Op → Prop} {Q : α → Prop}
    (hp : p.Guarantees (fun _ _ => True) P Q) {out : Except ε α} (h : p.Ends answers out) :
    ∀ x ∈ answers, P x.1 := by
  induction p generalizing answers with
  | pure a =>
    obtain ⟨rfl, -⟩ := h
    exact nofun
  | throw e =>
    obtain ⟨rfl, -⟩ := h
    exact nofun
  | call op k ih =>
    obtain ⟨r, rest, rfl, h⟩ := h
    exact List.forall_mem_cons.mpr ⟨hp.1, ih r (hp.2 r trivial) h⟩

end Ends

/-! ## Runs that end -/

/-- The answers of a program running alone. -/
def answers (h : Handler Op Res σ) : Program Op Res ε α → σ → List (Sigma Res)
  | .call op k, s => ⟨op, (h op s).1⟩ :: (k (h op s).1).answers h (h op s).2
  | _, _ => []

/-- **Every program running alone ends.** -/
theorem ends_run (h : Handler Op Res σ) (p : Program Op Res ε α) (s : σ) :
    p.Ends (p.answers h s) (p.run h s).1 := by
  induction p generalizing s with
  | pure a => exact ⟨rfl, rfl⟩
  | throw e => exact ⟨rfl, rfl⟩
  | call op k ih => exact ⟨_, _, rfl, ih _ _⟩

/-- The state that operations leave one after another, whatever they were answered. -/
def stateAfter (h : Handler Op Res σ) (seen : List (Sigma Res)) (s : σ) : σ :=
  seen.foldl (fun s x => (h x.1 s).2) s

theorem stateAfter_append (h : Handler Op Res σ) (seen rest : List (Sigma Res)) (s : σ) :
    stateAfter h (seen ++ rest) s = stateAfter h rest (stateAfter h seen s) :=
  List.foldl_append

/-- A run leaves the state its operations do. -/
theorem run_state (h : Handler Op Res σ) (p : Program Op Res ε α) (s : σ) :
    (p.run h s).2 = stateAfter h (p.answers h s) s := by
  induction p generalizing s with
  | pure a => rfl
  | throw e => rfl
  | call op k ih => exact ih _ _

/-- An answer of a run is the one in the state that the operations before it left. -/
theorem answer_eq {h : Handler Op Res σ} {p : Program Op Res ε α} {s : σ}
    {before after : List (Sigma Res)} {op : Op} {r : Res op}
    (hsplit : p.answers h s = before ++ ⟨op, r⟩ :: after) :
    r = (h op (stateAfter h before s)).1 := by
  induction p generalizing s before with
  | pure a => exact absurd hsplit.symm (by simp [answers])
  | throw e => exact absurd hsplit.symm (by simp [answers])
  | call op' k ih =>
    rcases before with _ | ⟨x, before⟩
    · cases (List.cons.inj hsplit).1
      rfl
    · obtain ⟨rfl, hrest⟩ := List.cons.inj hsplit
      exact @ih _ (h op' s).2 before hrest

theorem ends_of_trace {p q : Program Op Res ε α} {seen : List (Sigma Res)} (h : Trace p seen q)
    {rest : List (Sigma Res)} {out : Except ε α} (hq : q.Ends rest out) :
    p.Ends (seen ++ rest) out := by
  induction h with
  | nil p => exact hq
  | cons _ ih => exact ⟨_, _, rfl, ih hq⟩

end Program

/-- A thread that has ended did so with its answers. -/
theorem Pool.Runs.ends [DecidableEq ι] {h : Handler Op Res σ}
    {G : Pool ι Op Res σ ε α → ι → Op → Prop} {progs : ι → Program Op Res ε α} {s : σ}
    {q : Pool ι Op Res σ ε α} (hrun : Pool.Runs h G (Pool.start progs s) q) {i : ι}
    {out : Except ε α} (hend : (q.threads i).prog = Program.ofExcept out) :
    (progs i).Ends (q.threads i).seen out := by
  have hends : (q.threads i).prog.Ends [] out := by
    rw [hend]
    cases out <;> exact ⟨rfl, rfl⟩
  have htrace := Program.ends_of_trace (hrun.trace i) hends
  rwa [List.append_nil] at htrace

end WebInsights.Effect
