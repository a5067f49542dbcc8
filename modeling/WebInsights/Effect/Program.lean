/-
Programs with effects: the shape every asynchronous method of the service has.

An `async` method is a chain of `await`s. Between two of them it computes, at
each of them it hands an operation to the outside world and goes on with the
answer, and it ends with a value or with an exception. `Program` is exactly
that tree. Nothing here says what an operation does: a `Handler` answers the
operations of one caller running alone (`run`), `Effect/Pool.lean` interleaves
many callers, and both run the same tree.

The file names nothing of the service. It is parametrised by the operations
`Op`, the type `Res op` of each operation's answer and the exceptions `ε`.
-/
import Mathlib.Logic.Basic
import Mathlib.Tactic.Common

set_option autoImplicit false

namespace WebInsights.Effect

/-- A computation that awaits operations: it returns, throws, or performs an
operation and continues with the answer. -/
inductive Program (Op : Type) (Res : Op → Type) (ε α : Type) : Type where
  | pure (a : α)
  | throw (e : ε)
  | call (op : Op) (k : Res op → Program Op Res ε α)

/-- How the outside world answers one operation, and the state it leaves. -/
abbrev Handler (Op : Type) (Res : Op → Type) (σ : Type) : Type :=
  (op : Op) → σ → Res op × σ

namespace Program

variable {Op : Type} {Res : Op → Type} {ε α β γ σ : Type}

/-! ## Sequencing and exceptions -/

/-- `await p` and go on with `f`; an exception of `p` skips `f`. -/
def bind : Program Op Res ε α → (α → Program Op Res ε β) → Program Op Res ε β
  | .pure a, f => f a
  | .throw e, _ => .throw e
  | .call op k, f => .call op fun r => (k r).bind f

/-- `try { p } catch (e) { f(e) }`. -/
def tryCatch : Program Op Res ε α → (ε → Program Op Res ε α) → Program Op Res ε α
  | .pure a, _ => .pure a
  | .throw e, f => f e
  | .call op k, f => .call op fun r => (k r).tryCatch f

/-- Perform one operation and return its answer. -/
def perform (op : Op) : Program Op Res ε (Res op) := .call op .pure

instance : Monad (Program Op Res ε) where
  pure := .pure
  bind := bind

instance : MonadExceptOf ε (Program Op Res ε) where
  throw := .throw
  tryCatch := tryCatch

/-- A synchronous computation that may throw, as a step of a program. -/
def ofExcept : Except ε α → Program Op Res ε α
  | .ok a => .pure a
  | .error e => .throw e

/-- A program with its exception as a result. -/
def settle (p : Program Op Res ε α) : Program Op Res ε (Except ε α) :=
  (p.bind fun a => .pure (.ok a)).tryCatch fun e => .pure (.error e)

/-- The results of programs started together, each of which ends before the first
exception among them is thrown on: `await Promise.all(..)` for programs that do not
meet. -/
def settleAll : List (Program Op Res ε α) → Program Op Res ε (List (Except ε α))
  | [] => .pure []
  | p :: ps => p.settle.bind fun r => (settleAll ps).bind fun rs => .pure (r :: rs)

def all (ps : List (Program Op Res ε α)) : Program Op Res ε (List α) :=
  (settleAll ps).bind fun rs => ofExcept (rs.mapM id)

theorem bind_pure_right (p : Program Op Res ε α) : p.bind .pure = p := by
  induction p with
  | pure a => rfl
  | throw e => rfl
  | call op k ih => simp only [bind, ih]

theorem bind_bind (p : Program Op Res ε α) (f : α → Program Op Res ε β)
    (g : β → Program Op Res ε γ) :
    (p.bind f).bind g = p.bind fun a => (f a).bind g := by
  induction p with
  | pure a => rfl
  | throw e => rfl
  | call op k ih => simp only [bind, ih]

instance : LawfulMonad (Program Op Res ε) :=
  LawfulMonad.mk' _ (fun p => bind_pure_right p) (fun _ _ => rfl) (fun p f g => bind_bind p f g)

/-- To catch an error and throw it on changes nothing. -/
theorem tryCatch_throw (p : Program Op Res ε α) : MonadExcept.tryCatch p MonadExcept.throw = p := by
  induction p with
  | pure a => rfl
  | throw e => rfl
  | call op k ih => exact congrArg (call op) (funext ih)

@[simp] theorem perform_bind (op : Op) (f : Res op → Program Op Res ε β) :
    (perform op >>= f) = call op f := rfl

@[simp] theorem ofExcept_ok (a : α) :
    (ofExcept (.ok a) : Program Op Res ε α) = Pure.pure a := rfl

/-! ## One caller running alone -/

/-- Run a program against a handler: its outcome and the state it leaves. -/
def run (h : Handler Op Res σ) : Program Op Res ε α → σ → Except ε α × σ
  | .pure a, s => (.ok a, s)
  | .throw e, s => (.error e, s)
  | .call op k, s => (k (h op s).1).run h (h op s).2

/-- The operations a run performs, in order. -/
def ops (h : Handler Op Res σ) : Program Op Res ε α → σ → List Op
  | .pure _, _ => []
  | .throw _, _ => []
  | .call op k, s => op :: (k (h op s).1).ops h (h op s).2

variable (h : Handler Op Res σ)

@[simp] theorem run_pure (a : α) (s : σ) :
    (Pure.pure a : Program Op Res ε α).run h s = (.ok a, s) := rfl

@[simp] theorem run_throw (e : ε) (s : σ) :
    (MonadExcept.throw e : Program Op Res ε α).run h s = (.error e, s) := rfl

@[simp] theorem run_call (op : Op) (k : Res op → Program Op Res ε α) (s : σ) :
    (call op k).run h s = (k (h op s).1).run h (h op s).2 := rfl

/-- A sequence runs its second part from where the first one left the state, and
only if the first one returned. -/
theorem run_bind (p : Program Op Res ε α) (f : α → Program Op Res ε β) (s : σ) :
    (p >>= f).run h s = match p.run h s with
      | (.ok a, s') => (f a).run h s'
      | (.error e, s') => (.error e, s') := by
  induction p generalizing s with
  | pure a => rfl
  | throw e => rfl
  | call op k ih => exact ih (h op s).1 (h op s).2

/-- The form of [`run_bind`] a proof uses when the first part is known to return. -/
theorem run_bind_ok {p : Program Op Res ε α} {f : α → Program Op Res ε β} {s s' : σ} {a : α}
    (hp : p.run h s = (.ok a, s')) : (p >>= f).run h s = (f a).run h s' := by
  rw [run_bind, hp]

/-- The form of [`run_bind`] a proof uses when the first part is known to throw. -/
theorem run_bind_error {p : Program Op Res ε α} {f : α → Program Op Res ε β} {s s' : σ} {e : ε}
    (hp : p.run h s = (.error e, s')) : (p >>= f).run h s = (.error e, s') := by
  rw [run_bind, hp]

/-- Inversion of [`run_bind`]: a sequence that returned went through both parts. -/
theorem run_bind_eq_ok {p : Program Op Res ε α} {f : α → Program Op Res ε β} {s s' : σ} {b : β}
    (hb : (p >>= f).run h s = (.ok b, s')) :
    ∃ a s₁, p.run h s = (.ok a, s₁) ∧ (f a).run h s₁ = (.ok b, s') := by
  rw [run_bind] at hb
  rcases hp : p.run h s with ⟨e | a, s₁⟩
  · rw [hp] at hb
    cases hb
  · rw [hp] at hb
    exact ⟨a, s₁, rfl, hb⟩

/-- A synchronous step that returned did not touch the state. -/
theorem run_ofExcept_eq_ok {x : Except ε α} {s s' : σ} {a : α}
    (hx : (ofExcept x : Program Op Res ε α).run h s = (.ok a, s')) : s' = s ∧ x = .ok a := by
  cases x with
  | ok b =>
    cases hx
    exact ⟨rfl, rfl⟩
  | error e => cases hx

/-- A synchronous step whose result is wrapped. -/
theorem run_map_ofExcept (f : α → β) (x : Except ε α) (s : σ) :
    (f <$> (ofExcept x : Program Op Res ε α)).run h s = (x.map f, s) := by
  cases x <;> rfl

theorem run_tryCatch (p : Program Op Res ε α) (f : ε → Program Op Res ε α) (s : σ) :
    (MonadExcept.tryCatch p f).run h s = match p.run h s with
      | (.ok a, s') => (.ok a, s')
      | (.error e, s') => (f e).run h s' := by
  induction p generalizing s with
  | pure a => rfl
  | throw e => rfl
  | call op k ih => exact ih (h op s).1 (h op s).2

/-- A settled program returns what the program ends with. -/
theorem run_settle (p : Program Op Res ε α) (s : σ) :
    p.settle.run h s = (.ok (p.run h s).1, (p.run h s).2) := by
  induction p generalizing s with
  | pure a => rfl
  | throw e => rfl
  | call op k ih => exact ih (h op s).1 (h op s).2

theorem run_settle_ok {p : Program Op Res ε α} {s s' : σ} {a : α} (hp : p.run h s = (.ok a, s')) :
    p.settle.run h s = (.ok (.ok a), s') := by
  rw [run_settle, hp]

/-- Programs started together that all return, one after the other. -/
theorem run_all_cons {p : Program Op Res ε α} {ps : List (Program Op Res ε α)} {s s₁ s₂ : σ}
    {a : α} {as : List α} (hp : p.run h s = (.ok a, s₁)) (hps : (all ps).run h s₁ = (.ok as, s₂)) :
    (all (p :: ps)).run h s = (.ok (a :: as), s₂) := by
  obtain ⟨rs, s', hsettle, hrs⟩ := run_bind_eq_ok h hps
  rcases hmap : rs.mapM id with e | bs
  · rw [hmap] at hrs
    cases hrs
  · rw [hmap] at hrs
    cases hrs
    have hcons : (settleAll (p :: ps)).run h s = (.ok (.ok a :: rs), s₂) := by
      refine (run_bind_ok h (run_settle_ok h hp)).trans ?_
      exact (run_bind_ok h hsettle).trans rfl
    refine (run_bind_ok h hcons).trans ?_
    rw [List.mapM_cons, hmap]
    rfl

@[simp] theorem ops_pure (a : α) (s : σ) :
    (Pure.pure a : Program Op Res ε α).ops h s = [] := rfl

@[simp] theorem ops_throw (e : ε) (s : σ) :
    (MonadExcept.throw e : Program Op Res ε α).ops h s = [] := rfl

@[simp] theorem ops_call (op : Op) (k : Res op → Program Op Res ε α) (s : σ) :
    (call op k).ops h s = op :: (k (h op s).1).ops h (h op s).2 := rfl

/-- A sequence performs what its parts do, the second one only if the first returned. -/
theorem ops_bind (p : Program Op Res ε α) (f : α → Program Op Res ε β) (s : σ) :
    (p >>= f).ops h s = p.ops h s ++ match p.run h s with
      | (.ok a, s') => (f a).ops h s'
      | (.error _, _) => [] := by
  induction p generalizing s with
  | pure a => rfl
  | throw e => rfl
  | call op k ih => exact congrArg (op :: ·) (ih (h op s).1 (h op s).2)

/-! ## What a program can do at most -/

/-- Every operation the program can perform, whatever it is answered, satisfies
`P`. -/
def Uses (P : Op → Prop) : Program Op Res ε α → Prop
  | .pure _ => True
  | .throw _ => True
  | .call op k => P op ∧ ∀ r, (k r).Uses P

variable {P Q : Op → Prop}

@[simp] theorem uses_pure (a : α) : (Pure.pure a : Program Op Res ε α).Uses P := trivial

@[simp] theorem uses_throw (e : ε) :
    (MonadExcept.throw e : Program Op Res ε α).Uses P := trivial

@[simp] theorem uses_perform (op : Op) :
    (perform op : Program Op Res ε (Res op)).Uses P ↔ P op :=
  ⟨fun hu => hu.1, fun hp => ⟨hp, fun _ => trivial⟩⟩

theorem uses_bind {p : Program Op Res ε α} {f : α → Program Op Res ε β}
    (hp : p.Uses P) (hf : ∀ a, (f a).Uses P) : (p >>= f).Uses P := by
  induction p with
  | pure a => exact hf a
  | throw e => trivial
  | call op k ih => exact ⟨hp.1, fun r => ih r (hp.2 r)⟩

theorem uses_tryCatch {p : Program Op Res ε α} {f : ε → Program Op Res ε α}
    (hp : p.Uses P) (hf : ∀ e, (f e).Uses P) : (MonadExcept.tryCatch p f).Uses P := by
  induction p with
  | pure a => trivial
  | throw e => exact hf e
  | call op k ih => exact ⟨hp.1, fun r => ih r (hp.2 r)⟩

theorem uses_ofExcept (x : Except ε α) : (ofExcept x : Program Op Res ε α).Uses P := by
  cases x <;> trivial

end Program

end WebInsights.Effect
