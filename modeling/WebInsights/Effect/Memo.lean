/-
A value that is made once, by an asynchronous factory, for many callers.

The first caller starts the factory and keeps the promise of its value in a variable; it
and every other caller awaits the promise that is kept. A run of the factory may end at
any time after it was started, and ends as it does: `outcome n` is how the `n`-th run
ends. Callers and runs are the threads of one pool, so every order of their steps is a
run of the pool.

The invariant (`Memoised`) says how far each thread is. From it, there is one run of the
factory at most and everybody gets what it ends with; an exception is kept like a value.
-/
import WebInsights.Effect.Pool

set_option autoImplicit false

namespace WebInsights.Effect

variable {ι ε α : Type}

/-- The variable that keeps the promise, and the runs of the factory. -/
structure Memo (ε α : Type) where
  promise : Option ℕ
  started : ℕ
  settled : ℕ → Bool
  outcome : ℕ → Except ε α

namespace Memo

/-- What the threads do: compute up to the next `await`, await a promise, or end a run of the
factory. -/
inductive Operation (ε α : Type) where
  | sync (body : StateM (Memo ε α) ℕ)
  | await (promise : ℕ)
  | settle (run : ℕ)

abbrev Operation.Result : Operation ε α → Type
  | .sync _ => ℕ
  | .await _ => Except ε α
  | .settle _ => Except ε α

def handle : Handler (Operation ε α) Operation.Result (Memo ε α)
  | .sync body, s => body s
  | .await promise, s => (s.outcome promise, s)
  | .settle run, s => (s.outcome run, { s with settled := Function.update s.settled run true })

/-- Start the factory. -/
def start : StateM (Memo ε α) ℕ := fun s => (s.started, { s with started := s.started + 1 })

/-- The kept promise, which is that of a new run if there was none. -/
def memoise : StateM (Memo ε α) ℕ := fun s =>
  match s.promise with
  | some promise => (promise, s)
  | none => (s.started, { s with promise := some s.started, started := s.started + 1 })

/-- A caller: get a promise and await it. -/
def call (body : StateM (Memo ε α) ℕ) : Program (Operation ε α) Operation.Result ε α := do
  let promise ← Program.perform (.sync body)
  let result ← Program.perform (.await promise)
  Program.ofExcept result

/-- A run of the factory. -/
def factory (run : ℕ) : Program (Operation ε α) Operation.Result ε α := do
  let result ← Program.perform (.settle run)
  Program.ofExcept result

/-- Callers and runs of the factory. -/
abbrev Callers (ι ε α : Type) : Type :=
  Pool (ι ⊕ ℕ) (Operation ε α) Operation.Result (Memo ε α) ε α

/-- Nobody has called yet. -/
def callers (ι : Type) (body : StateM (Memo ε α) ℕ) (outcome : ℕ → Except ε α) :
    Callers ι ε α :=
  .start (Sum.elim (fun _ => call body) factory) ⟨none, 0, fun _ => false, outcome⟩

/-- A promise is awaited until it is settled, and a run ends once, after it was started. -/
def Admitted (p : Callers ι ε α) (_ : ι ⊕ ℕ) : Operation ε α → Prop
  | .sync _ => True
  | .await promise => p.shared.settled promise = true
  | .settle run => run < p.shared.started ∧ p.shared.settled run = false

instance (p : Callers ι ε α) (i : ι ⊕ ℕ) (op : Operation ε α) : Decidable (Admitted p i op) :=
  match op with
  | .sync _ => .isTrue trivial
  | .await promise => inferInstanceAs (Decidable (p.shared.settled promise = true))
  | .settle run => inferInstanceAs (Decidable (run < p.shared.started ∧ _))

/-- The pool after the threads took their turns in this order, as far as they are admitted. -/
def scheduled [DecidableEq ι] (body : StateM (Memo ε α) ℕ) (outcome : ℕ → Except ε α)
    (schedule : List (ι ⊕ ℕ)) : Callers ι ε α :=
  (callers ι body outcome).playIf handle (fun p i op => decide (Admitted p i op)) schedule

theorem runs_scheduled [DecidableEq ι] (body : StateM (Memo ε α) ℕ) (outcome : ℕ → Except ε α)
    (schedule : List (ι ⊕ ℕ)) :
    Pool.Runs handle Admitted (callers ι body outcome) (scheduled body outcome schedule) :=
  Pool.runs_playIf handle (fun _ _ _ h => of_decide_eq_true h) _ schedule

/-! ## What is promised -/

/-- The run was started and has not ended. -/
def InFlight (s : Memo ε α) (run : ℕ) : Prop := run < s.started ∧ s.settled run = false

/-- The run has ended like this. -/
def Ended (s : Memo ε α) (run : ℕ) (result : Except ε α) : Prop :=
  run < s.started ∧ s.settled run = true ∧ s.outcome run = result

/-- A call that is made now starts the factory. -/
def Starts (body : StateM (Memo ε α) ℕ) (s : Memo ε α) : Prop :=
  (body s).2.started = s.started + 1

instance (body : StateM (Memo ε α) ℕ) (s : Memo ε α) : Decidable (Starts body s) :=
  inferInstanceAs (Decidable (_ = _))

/-- **A singleton**: one run of the factory at a time, none after one that succeeded, and one
value for everybody. -/
structure Single (body : StateM (Memo ε α) ℕ) (p : Callers ι ε α) : Prop where
  alone : ∀ run run', InFlight p.shared run → InFlight p.shared run' → run = run'
  busy : (∃ run, InFlight p.shared run) → ¬ Starts body p.shared
  kept : (∃ run a, Ended p.shared run (.ok a)) → ¬ Starts body p.shared
  same : ∀ i j a b, (p.threads (.inl i)).prog = .pure a → (p.threads (.inl j)).prog = .pure b →
    a = b

/-- **A singleton that recovers**: after a run that failed the next call starts another. -/
structure Recovering (body : StateM (Memo ε α) ℕ) (p : Callers ι ε α) : Prop
    extends Single body p where
  recovers : ∀ run e, run + 1 = p.shared.started → Ended p.shared run (.error e) →
    Starts body p.shared

/-! ## The invariant -/

/-- How far a caller is: it has not begun, it awaits the one run, or it was given what that
ended with. -/
def CallerAt (s : Memo ε α) (prog : Program (Operation ε α) Operation.Result ε α) : Prop :=
  prog = call memoise ∨
  (s.started = 1 ∧ prog = .call (.await 0) Program.ofExcept) ∨
  (s.started = 1 ∧ s.settled 0 = true ∧ prog = Program.ofExcept (s.outcome 0))

/-- There is no run, and no promise is kept, or one, and its promise is. -/
structure Memoised (outcome : ℕ → Except ε α) (p : Callers ι ε α) : Prop where
  outcomes : p.shared.outcome = outcome
  one : (p.shared.promise = none ∧ p.shared.started = 0) ∨
    (p.shared.promise = some 0 ∧ p.shared.started = 1)
  settled : ∀ run, p.shared.settled run = true → run < p.shared.started
  callers : ∀ i, CallerAt p.shared (p.threads (.inl i)).prog
  runs : ∀ run, (p.threads (.inr run)).prog = factory run ∨
    (p.threads (.inr run)).prog = Program.ofExcept (outcome run)

theorem ofExcept_ne_call {result : Except ε α} {op : Operation ε α}
    {k : op.Result → Program (Operation ε α) Operation.Result ε α} :
    Program.ofExcept result ≠ .call op k := by
  cases result <;> nofun

/-- A caller stays where it is while the others go on. -/
theorem CallerAt.mono {s s' : Memo ε α} {prog : Program (Operation ε α) Operation.Result ε α}
    (h : CallerAt s prog) (hstarted : s.started = 1 → s'.started = 1)
    (hsettled : s.settled 0 = true → s'.settled 0 = true) (houtcome : s'.outcome = s.outcome) :
    CallerAt s' prog := by
  rcases h with hcall | ⟨hone, hawait⟩ | ⟨hone, hend, hgiven⟩
  · exact Or.inl hcall
  · exact Or.inr (Or.inl ⟨hstarted hone, hawait⟩)
  · exact Or.inr (Or.inr ⟨hstarted hone, hsettled hend, by rw [houtcome]; exact hgiven⟩)

/-- The promise every caller gets is that of the one run. -/
theorem memoise_eq {s : Memo ε α} (h : (s.promise = none ∧ s.started = 0) ∨
    (s.promise = some 0 ∧ s.started = 1)) :
    memoise s = (0, { s with promise := some 0, started := 1 }) := by
  obtain ⟨promise, started, settled, outcome⟩ := s
  rcases h with ⟨hnone, hzero⟩ | ⟨hsome, hone⟩
  · obtain rfl : promise = none := hnone
    obtain rfl : started = 0 := hzero
    rfl
  · obtain rfl : promise = some 0 := hsome
    obtain rfl : started = 1 := hone
    rfl

variable {outcome : ℕ → Except ε α} {p : Callers ι ε α}

section

variable (h : Memoised outcome p)

include h

theorem Memoised.run_eq_zero {run : ℕ} (hrun : run < p.shared.started) : run = 0 := by
  rcases h.one with ⟨-, hzero⟩ | ⟨-, hone⟩ <;> omega

/-- Once there is a run, no call starts another. -/
theorem Memoised.not_starts {run : ℕ} (hrun : run < p.shared.started) :
    ¬ Starts memoise p.shared := by
  intro hstarts
  rw [Starts, memoise_eq h.one] at hstarts
  have hone : (1 : ℕ) = p.shared.started + 1 := hstarts
  omega

/-- What a caller returned is what the run ended with. -/
theorem Memoised.outcome_eq {i : ι} {a : α} (hreturned : (p.threads (.inl i)).prog = .pure a) :
    outcome 0 = .ok a := by
  rcases h.callers i with hcall | ⟨-, hawait⟩ | ⟨-, -, hgiven⟩
  · rw [hcall] at hreturned
    cases hreturned
  · rw [hawait] at hreturned
    cases hreturned
  · rw [hgiven, h.outcomes] at hreturned
    rcases houtcome : outcome 0 with e | b
    · rw [houtcome] at hreturned
      cases hreturned
    · rw [houtcome] at hreturned
      cases hreturned
      rfl

/-- It is a singleton, however its runs end. -/
theorem Memoised.single : Single memoise p where
  alone := by
    intro run run' hrun hrun'
    rw [h.run_eq_zero hrun.1, h.run_eq_zero hrun'.1]
  busy := by
    rintro ⟨run, hrun⟩
    exact h.not_starts hrun.1
  kept := by
    rintro ⟨run, a, hended⟩
    exact h.not_starts hended.1
  same := by
    intro i j a b hi hj
    have hsame := (h.outcome_eq hi).symm.trans (h.outcome_eq hj)
    exact Except.ok.inj hsame

/-- **It recovers exactly as long as no run has failed.** -/
theorem Memoised.recovering_iff :
    Recovering memoise p ↔ ∀ run e, ¬ Ended p.shared run (.error e) := by
  constructor
  · intro hrecovering run e hended
    have hzero := h.run_eq_zero hended.1
    have hlast : run + 1 = p.shared.started := by
      have hlt := hended.1
      rcases h.one with ⟨-, hnone⟩ | ⟨-, hone⟩ <;> omega
    exact h.not_starts hended.1 (hrecovering.recovers run e hlast hended)
  · intro hnone
    refine ⟨h.single, fun run e _ hended => ?_⟩
    exact absurd hended (hnone run e)

end

variable [DecidableEq ι]

/-! ## Runs of the pool -/

theorem memoised_start (ι : Type) (outcome : ℕ → Except ε α) :
    Memoised outcome (callers ι memoise outcome) where
  outcomes := rfl
  one := Or.inl ⟨rfl, rfl⟩
  settled := nofun
  callers := fun _ => Or.inl rfl
  runs := fun _ => Or.inl rfl

/-- A step of a caller. -/
theorem Memoised.perform_caller (h : Memoised outcome p) {i : ι} {op : Operation ε α}
    {k : op.Result → Program (Operation ε α) Operation.Result ε α}
    (hadmitted : Admitted p (.inl i) op) (hk : (p.threads (.inl i)).prog = .call op k) :
    Memoised outcome (p.perform handle (.inl i) op k) := by
  have hruns : ∀ run, ((p.perform handle (.inl i) op k).threads (.inr run)) =
      p.threads (.inr run) := fun run => p.perform_threads_ne handle (by nofun) op k
  have hself := p.perform_threads_self handle (.inl i) op k
  have hothers : ∀ j, j ≠ i → (p.perform handle (.inl i) op k).threads (.inl j) =
      p.threads (.inl j) := fun j hj =>
    p.perform_threads_ne handle (fun heq => hj (Sum.inl.inj heq)) op k
  rcases h.callers i with hcall | ⟨hone, hawait⟩ | ⟨-, -, hgiven⟩
  · -- the caller begins: it gets the one promise
    rw [hcall] at hk
    cases hk
    have hshared : ∀ k, (p.perform handle (.inl i) (.sync memoise) k).shared =
        { p.shared with promise := some 0, started := 1 } := fun _ =>
      congrArg Prod.snd (memoise_eq h.one)
    have hpromise : (handle (.sync memoise) p.shared).1 = 0 :=
      congrArg Prod.fst (memoise_eq h.one)
    refine ⟨by rw [hshared]; exact h.outcomes, by rw [hshared]; exact Or.inr ⟨rfl, rfl⟩,
      ?_, fun j => ?_, fun run => by rw [hruns]; exact h.runs run⟩
    · rw [hshared]
      intro run hrun
      have hlt := h.settled run hrun
      show run < 1
      rcases h.one with ⟨-, hzero⟩ | ⟨-, hone⟩ <;> omega
    · rw [hshared]
      by_cases hj : j = i
      · rw [hj, hself, hpromise]
        exact Or.inr (Or.inl ⟨rfl, rfl⟩)
      · rw [hothers j hj]
        exact (h.callers j).mono (fun _ => rfl) id rfl
  · -- it is given what the run ended with
    rw [hawait] at hk
    cases hk
    refine ⟨h.outcomes, h.one, h.settled, fun j => ?_, fun run => by rw [hruns]; exact h.runs run⟩
    by_cases hj : j = i
    · rw [hj, hself]
      exact Or.inr (Or.inr ⟨hone, hadmitted, rfl⟩)
    · rw [hothers j hj]
      exact h.callers j
  · exact absurd (hgiven ▸ hk) ofExcept_ne_call

/-- The end of a run. -/
theorem Memoised.perform_run (h : Memoised outcome p) {n : ℕ} {op : Operation ε α}
    {k : op.Result → Program (Operation ε α) Operation.Result ε α}
    (hadmitted : Admitted p (.inr n) op) (hk : (p.threads (.inr n)).prog = .call op k) :
    Memoised outcome (p.perform handle (.inr n) op k) := by
  have hcallers : ∀ i, ((p.perform handle (.inr n) op k).threads (.inl i)) =
      p.threads (.inl i) := fun i => p.perform_threads_ne handle (by nofun) op k
  have hself := p.perform_threads_self handle (.inr n) op k
  have hothers : ∀ m, m ≠ n → (p.perform handle (.inr n) op k).threads (.inr m) =
      p.threads (.inr m) := fun m hm =>
    p.perform_threads_ne handle (fun heq => hm (Sum.inr.inj heq)) op k
  rcases h.runs n with hfactory | hended
  · -- the run settles its own promise, and no other
    rw [hfactory] at hk
    cases hk
    refine ⟨h.outcomes, h.one, fun run hrun => ?_, fun i => ?_, fun m => ?_⟩
    · by_cases hn : run = n
      · rw [hn]
        exact hadmitted.1
      · apply h.settled run
        have hsame : Function.update p.shared.settled n true run = p.shared.settled run :=
          Function.update_of_ne hn _ _
        rw [← hsame]
        exact hrun
    · rw [hcallers]
      refine (h.callers i).mono id (fun hzero => ?_) rfl
      show Function.update p.shared.settled n true 0 = true
      by_cases hn : 0 = n
      · rw [hn, Function.update_self]
      · rw [Function.update_of_ne hn, hzero]
    · by_cases hm : m = n
      · rw [hm, hself]
        right
        show Program.ofExcept (p.shared.outcome n) = _
        rw [h.outcomes]
      · rw [hothers m hm]
        exact h.runs m
  · exact absurd (hended ▸ hk) ofExcept_ne_call

/-- **Every run of the pool keeps the invariant.** -/
theorem memoised_run (hrun : Pool.Runs handle Admitted (callers ι memoise outcome) p) :
    Memoised outcome p := by
  refine hrun.invariant (I := Memoised outcome) (memoised_start ι outcome) ?_
  intro p i op k h hadmitted hk
  cases i with
  | inl i => exact h.perform_caller hadmitted hk
  | inr n => exact h.perform_run hadmitted hk

end Memo

end WebInsights.Effect
