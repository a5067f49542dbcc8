/-
Programs whose operations are programs.

A method may be given another one to call, and await it among its own operations. It is
written as a program with an operation for that call; `interpret` puts the other program in
the place of the operation, and leaves a program of the operations that are left. What the
method itself remembers between its operations goes along as a state `τ`.
-/
import WebInsights.Effect.Loop

set_option autoImplicit false

namespace WebInsights.Effect.Program

variable {Op Op' : Type} {Res : Op → Type} {Res' : Op' → Type} {ε ε' α β σ τ : Type}

/-- The program with its exception as a result, where exceptions are of another type. -/
def attempt : Program Op Res ε α → Program Op Res ε' (Except ε α)
  | .pure a => .pure (.ok a)
  | .throw e => .pure (.error e)
  | .call op k => .call op fun r => (k r).attempt

/-- The program with a program for each of its operations. -/
def interpret (f : (op : Op) → τ → Program Op' Res' ε (Res op × τ)) :
    Program Op Res ε α → τ → Program Op' Res' ε (α × τ)
  | .pure a, t => .pure (a, t)
  | .throw e, _ => .throw e
  | .call op k, t => f op t >>= fun r => (k r.1).interpret f r.2

variable (f : (op : Op) → τ → Program Op' Res' ε (Res op × τ))

@[simp] theorem interpret_pure (a : α) (t : τ) :
    (Pure.pure a : Program Op Res ε α).interpret f t = Pure.pure (a, t) := rfl

@[simp] theorem interpret_throw (e : ε) (t : τ) :
    (MonadExcept.throw e : Program Op Res ε α).interpret f t = MonadExcept.throw e := rfl

@[simp] theorem interpret_perform_bind (op : Op) (g : Res op → Program Op Res ε β) (t : τ) :
    (perform op >>= g).interpret f t = f op t >>= fun r => (g r.1).interpret f r.2 := rfl

/-- A sequence is interpreted part by part. -/
theorem interpret_bind (p : Program Op Res ε α) (g : α → Program Op Res ε β) (t : τ) :
    (p >>= g).interpret f t = p.interpret f t >>= fun r => (g r.1).interpret f r.2 := by
  induction p generalizing t with
  | pure a => rfl
  | throw e => rfl
  | call op k ih =>
    show (f op t >>= fun r => (k r.1 >>= g).interpret f r.2) = _
    simp only [ih]
    exact (bind_assoc _ _ _).symm

/-- A loop is interpreted turn by turn. -/
theorem interpret_iterate_succ (turn : β → Program Op Res ε (Option (β ⊕ α))) (fuel : ℕ) (b : β)
    (t : τ) :
    (iterate turn (fuel + 1) b).interpret f t = (turn b).interpret f t >>= fun r =>
      match r.1 with
      | none => Pure.pure (none, r.2)
      | some (.inl b') => (iterate turn fuel b').interpret f r.2
      | some (.inr a) => Pure.pure (some a, r.2) := by
  rw [iterate, interpret_bind]
  refine congrArg _ (funext fun r => ?_)
  obtain ⟨_ | b' | a, t'⟩ := r <;> rfl

end WebInsights.Effect.Program
