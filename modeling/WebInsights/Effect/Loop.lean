/-
Loops of programs.

A turn of a loop is a program that goes on with a new loop state (`Sum.inl`) or leaves
the loop with a result (`Sum.inr`). `iterate` takes at most as many turns as it has
fuel, and says `none` where the fuel runs out, so that a bound on the turns is a fact
about `iterate` and not an assumption. The rule (`run_iterate`) asks for an invariant
that a turn keeps and a measure that it lowers; with more fuel than the measure the
loop ends, by returning or by throwing. Where the turns are known one by one,
`iterate_of_turns` tells how the loop ends and all it performed.
-/
import WebInsights.Effect.Program

set_option autoImplicit false

namespace WebInsights.Effect.Program

variable {Op : Type} {Res : Op → Type} {ε α β σ : Type}

/-- Take turns until one of them leaves the loop. A turn that ran out of fuel itself
(`none`) ends the loop the same way. -/
def iterate (turn : β → Program Op Res ε (Option (β ⊕ α))) : ℕ → β → Program Op Res ε (Option α)
  | 0, _ => pure none
  | fuel + 1, b => do
    match ← turn b with
    | none => pure none
    | some (.inl b') => iterate turn fuel b'
    | some (.inr a) => pure (some a)

/-- What a turn from the loop state `b` and the state `s` has to do: keep the invariant
`I` and lower the measure `μ` where it goes on, and satisfy `Q` where it returns or
throws. -/
def TurnMeets (I : β → σ → Prop) (Q : Except ε α → σ → Prop) (μ : β → σ → ℕ) (b : β)
    (s : σ) : Except ε (Option (β ⊕ α)) × σ → Prop
  | (.ok (some (.inl b')), s') => I b' s' ∧ μ b' s' < μ b s
  | (.ok (some (.inr a)), s') => Q (.ok a) s'
  | (.ok none, _) => False
  | (.error e, s') => Q (.error e) s'

/-- **The loop rule.** If every turn from a state of the invariant does what it has to,
a loop with more fuel than its measure returns or throws, and what it leaves satisfies
`Q`. -/
theorem run_iterate (h : Handler Op Res σ) {turn : β → Program Op Res ε (Option (β ⊕ α))}
    {I : β → σ → Prop} {Q : Except ε α → σ → Prop} {μ : β → σ → ℕ}
    (hturn : ∀ b s, I b s → TurnMeets I Q μ b s ((turn b).run h s)) {fuel : ℕ} {b : β} {s : σ}
    (hI : I b s) (hfuel : μ b s < fuel) :
    ∃ r, ((iterate turn fuel b).run h s).1 = r.map some ∧
      Q r ((iterate turn fuel b).run h s).2 := by
  induction fuel generalizing b s with
  | zero => omega
  | succ fuel ih =>
    have hmeets := hturn b s hI
    unfold iterate
    rw [run_bind]
    rcases hrun : (turn b).run h s with ⟨e | _ | b' | a, s'⟩
    · rw [hrun] at hmeets
      exact ⟨.error e, rfl, hmeets⟩
    · rw [hrun] at hmeets
      exact hmeets.elim
    · rw [hrun] at hmeets
      -- the turn went on: the rest of the fuel is enough for the smaller measure
      have hless : μ b' s' < μ b s := hmeets.2
      exact ih hmeets.1 (by omega)
    · rw [hrun] at hmeets
      exact ⟨.ok a, rfl, hmeets⟩

/-- **A loop told turn by turn**: every turn before `k` goes on, and turn `k` leaves it. -/
theorem iterate_of_turns (h : Handler Op Res σ)
    {turn : β → Program Op Res ε (Option (β ⊕ α))} {b : ℕ → β} {s : ℕ → σ} {k : ℕ}
    {out : Except ε α} {s' : σ}
    (hgoes : ∀ i < k, (turn (b i)).run h (s i) = (.ok (some (.inl (b (i + 1)))), s (i + 1)))
    (hleaves : (turn (b k)).run h (s k) = (out.map fun a => some (.inr a), s')) {fuel : ℕ}
    (hfuel : k < fuel) :
    (iterate turn fuel (b 0)).run h (s 0) = (out.map some, s') ∧
      (iterate turn fuel (b 0)).ops h (s 0) =
        (List.range (k + 1)).flatMap fun i => (turn (b i)).ops h (s i) := by
  induction k generalizing b s fuel with
  | zero =>
    obtain ⟨fuel, rfl⟩ : ∃ n, fuel = n + 1 := ⟨fuel - 1, by omega⟩
    unfold iterate
    rw [run_bind, ops_bind, hleaves]
    rcases out with e | a
    · exact ⟨rfl, rfl⟩
    · exact ⟨rfl, rfl⟩
  | succ k ih =>
    obtain ⟨fuel, rfl⟩ : ∃ n, fuel = n + 1 := ⟨fuel - 1, by omega⟩
    -- the rest of the turns, counted from the second one
    obtain ⟨hrun, hops⟩ := @ih (fun i => b (i + 1)) (fun i => s (i + 1))
      (fun i hi => hgoes (i + 1) (by omega)) hleaves fuel (by omega)
    unfold iterate
    rw [run_bind, ops_bind, hgoes 0 (by omega)]
    refine ⟨hrun, ?_⟩
    rw [List.range_succ_eq_map, List.flatMap_cons, List.flatMap_map, ← hops]

/-- Turns that each perform an operation once perform it as often as there are turns. -/
theorem count_flatMap_range [DecidableEq Op] {f : ℕ → List Op} {op : Op} {n : ℕ}
    (h : ∀ i < n, (f i).count op = 1) : ((List.range n).flatMap f).count op = n := by
  induction n with
  | zero => rfl
  | succ n ih =>
    rw [List.range_succ, List.flatMap_append, List.count_append, List.flatMap_singleton,
      ih fun i hi => h i (by omega), h n (by omega)]

end WebInsights.Effect.Program
