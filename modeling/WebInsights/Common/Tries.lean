/-
What the tries of `executeWithRetries` are answered.

The method is written over any programs for the action, `onRetry` and the pauses. `Tries` says
how the answers of a run of it are made of theirs: every try is the action, ended as it may be,
and after a failure that is none of the last kind comes what `onRetry` and the pause are
answered, and then the next try.
-/
import WebInsights.Common.RetryHelper
import WebInsights.Effect.Ends
import WebInsights.Effect.Interpret

set_option autoImplicit false

namespace WebInsights.Effect.Program

variable {Op : Type} {Res : Op → Type} {ε ε' α : Type}

/-- What is attempted ends with the outcome as a value. -/
theorem Ends.of_attempt {p : Program Op Res ε α} {answers : List (Sigma Res)}
    {out : Except ε' (Except ε α)} (h : (attempt p : Program Op Res ε' _).Ends answers out) :
    ∃ x, out = .ok x ∧ p.Ends answers x := by
  induction p generalizing answers with
  | pure a => exact ⟨.ok a, h.2, h.1, rfl⟩
  | throw e => exact ⟨.error e, h.2, h.1, rfl⟩
  | call op k ih =>
    obtain ⟨r, rest, rfl, h⟩ := h
    obtain ⟨x, hx, hp⟩ := ih r h
    exact ⟨x, hx, r, rest, rfl, hp⟩

/-- A single operation ends with its answer. -/
theorem Ends.of_perform {op : Op} {answers : List (Sigma Res)} {out : Except ε (Res op)}
    (h : (perform op : Program Op Res ε _).Ends answers out) :
    ∃ r, answers = [⟨op, r⟩] ∧ out = .ok r := by
  obtain ⟨r, rest, rfl, rfl, rfl⟩ := h
  exact ⟨r, rfl, rfl⟩

end WebInsights.Effect.Program

namespace WebInsights.Common.RetryHelper

open Effect
open Effect.Program (Ends)

variable {Op : Type} {Res : Op → Type} {ε ε' α : Type} (helper : RetryHelper Op Res ε ε')
  (action : Program Op Res ε α) (onRetry : ε' → Program Op Res ε' Unit)
  (maxRetryCount : ℕ) (retryIntervalMilliseconds : ℚ)

/-- What comes after the failed try `i`: nothing, if it was the last one. -/
def pause (i : ℕ) (lastError : ε') : Program Op Res ε' Unit :=
  if i < maxRetryCount - 1 then do
    onRetry lastError
    if 0 < retryIntervalMilliseconds then
      helper.sleepFunction (retryIntervalMilliseconds * (i + 1))
  else pure ()

/-- The answers of a run of the loop with so many turns left, at the turn `i`, with `lastError`;
and how it ends. -/
inductive Tries : ℕ → ℕ → ε' → List (Sigma Res) → Except ε' α → Prop
  | runsOut {i : ℕ} {lastError : ε'} : Tries 0 i lastError [] (.error lastError)
  | resolves {turns i : ℕ} {lastError : ε'} {seen : List (Sigma Res)} {a : α}
      (htry : action.Ends seen (.ok a)) : Tries (turns + 1) i lastError seen (.ok a)
  /-- What was thrown cannot be made an error. -/
  | noError {turns i : ℕ} {lastError : ε'} {seen : List (Sigma Res)} {e : ε} {e' : ε'}
      (htry : action.Ends seen (.error e)) (herror : helper.asError e = .error e') :
      Tries (turns + 1) i lastError seen (.error e')
  | interrupted {turns i : ℕ} {lastError : ε'} {seen paused : List (Sigma Res)} {e : ε}
      {error e' : ε'} (htry : action.Ends seen (.error e)) (herror : helper.asError e = .ok error)
      (hpause : (helper.pause onRetry maxRetryCount retryIntervalMilliseconds i error).Ends paused
        (.error e')) :
      Tries (turns + 1) i lastError (seen ++ paused) (.error e')
  | again {turns i : ℕ} {lastError : ε'} {seen paused rest : List (Sigma Res)} {e : ε} {error : ε'}
      {out : Except ε' α} (htry : action.Ends seen (.error e))
      (herror : helper.asError e = .ok error)
      (hpause : (helper.pause onRetry maxRetryCount retryIntervalMilliseconds i error).Ends paused
        (.ok ()))
      (hrest : Tries turns (i + 1) error rest out) :
      Tries (turns + 1) i lastError (seen ++ (paused ++ rest)) out

variable {helper action onRetry maxRetryCount retryIntervalMilliseconds}

theorem retrying_succ {turns i : ℕ} {lastError : ε'} :
    helper.retrying action.attempt onRetry maxRetryCount retryIntervalMilliseconds (turns + 1) i
        lastError =
      action.attempt >>= fun outcome => match outcome with
        | .ok value => pure value
        | .error error => Program.ofExcept (helper.asError error) >>= fun lastError =>
            helper.pause onRetry maxRetryCount retryIntervalMilliseconds i lastError >>= fun _ =>
              helper.retrying action.attempt onRetry maxRetryCount retryIntervalMilliseconds turns
                (i + 1) lastError := by
  -- the same turn, with what a failed try does named
  refine congrArg (action.attempt >>= ·) (funext fun outcome => ?_)
  rcases outcome with error | value
  · refine congrArg (Program.ofExcept (helper.asError error) >>= ·) (funext fun lastError => ?_)
    unfold pause
    by_cases hi : i < maxRetryCount - 1
    · simp only [if_pos hi]
      by_cases hr : 0 < retryIntervalMilliseconds
      · simp only [if_pos hr, bind_assoc]
      · simp only [if_neg hr, bind_assoc, pure_bind]
    · simp only [if_neg hi, pure_bind]
  · rfl

theorem tries_of_retrying {turns i : ℕ} {lastError : ε'} {seen : List (Sigma Res)}
    {out : Except ε' α}
    (h : (helper.retrying action.attempt onRetry maxRetryCount retryIntervalMilliseconds turns i
      lastError).Ends seen out) :
    helper.Tries action onRetry maxRetryCount retryIntervalMilliseconds turns i lastError seen
      out := by
  induction turns generalizing i lastError seen with
  | zero =>
    obtain ⟨rfl, rfl⟩ := h
    exact .runsOut
  | succ turns ih =>
    rw [retrying_succ] at h
    rcases Ends.of_bind h with ⟨first, rest, outcome, rfl, haction, h⟩ | ⟨e, -, haction⟩
    · obtain ⟨x, hx, htry⟩ := Ends.of_attempt haction
      obtain rfl := Except.ok.inj hx
      rcases outcome with error | value
      · -- the error is made one, and unless that throws the pause follows
        rcases Ends.of_bind h with ⟨made, rest', lastError', rfl, hmade, hafter⟩ | ⟨e, rfl, hmade⟩
        · obtain ⟨rfl, herror⟩ := Ends.of_ofExcept hmade
          rw [List.nil_append]
          rcases Ends.of_bind hafter with
            ⟨paused, rest, u, rfl, hpause, hrest⟩ | ⟨e, rfl, hpause⟩
          · exact .again htry herror.symm hpause (ih hrest)
          · exact .interrupted htry herror.symm hpause
        · obtain ⟨rfl, herror⟩ := Ends.of_ofExcept hmade
          rw [List.append_nil]
          exact .noError htry herror.symm
      · obtain ⟨rfl, rfl⟩ := h
        rw [List.append_nil]
        exact .resolves htry
    · obtain ⟨x, hx, -⟩ := Ends.of_attempt haction
      cases hx

/-- **What a run of the method was answered.** -/
theorem tries_of_executeWithRetries {seen : List (Sigma Res)} {out : Except ε' α}
    (h : (helper.executeWithRetries action.attempt onRetry maxRetryCount
      retryIntervalMilliseconds).Ends seen out) :
    helper.Tries action onRetry maxRetryCount retryIntervalMilliseconds maxRetryCount 0
      helper.undefined seen out :=
  tries_of_retrying h

end WebInsights.Common.RetryHelper
