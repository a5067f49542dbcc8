/-
`RetryHelper.executeWithRetries`.

An action is tried until it succeeds, at most so many times. What a try throws is made an
error if it is none, with its JSON for the message; then `onRetry` is told and a pause
follows, longer every time, unless that was the last try. The JSON is made inside the
`catch`, so a value that has none ends the tries with an error of its own: the promise of
the method is kept exactly if no try throws such a value (`promised_iff`).

The method is written over any programs for the action, `onRetry` and the pauses. For what
is called when, they are the operations of `RetryOperation`.
-/
import Mathlib.Data.Rat.Defs
import WebInsights.Effect.Loop

set_option autoImplicit false

namespace WebInsights.Common

open Effect

/-! ## The method -/

/-- The pause between two tries, and `lastError`: what is thrown on when nothing was tried,
and what becomes of something that was thrown. -/
structure RetryHelper (Op : Type) (Res : Op → Type) (ε ε' : Type) where
  sleepFunction : ℚ → Program Op Res ε' Unit
  undefined : ε'
  asError : ε → Except ε' ε'

namespace RetryHelper

variable {Op : Type} {Res : Op → Type} {ε ε' α : Type} (helper : RetryHelper Op Res ε ε')
  (action : Program Op Res ε' (Except ε α)) (onRetry : ε' → Program Op Res ε' Unit)
  (maxRetryCount : ℕ) (retryIntervalMilliseconds : ℚ)

/-- The loop, with the turns that are left, the turn `i` and `lastError`. -/
def retrying : ℕ → ℕ → ε' → Program Op Res ε' α
  | 0, _, lastError => throw lastError
  | turns + 1, i, _ => do
    match ← action with
    | .ok value => pure value
    | .error error =>
      let lastError ← Program.ofExcept (helper.asError error)
      if i < maxRetryCount - 1 then
        onRetry lastError
        if 0 < retryIntervalMilliseconds then
          helper.sleepFunction (retryIntervalMilliseconds * (i + 1))
      retrying turns (i + 1) lastError

def executeWithRetries : Program Op Res ε' α :=
  helper.retrying action onRetry maxRetryCount retryIntervalMilliseconds maxRetryCount 0
    helper.undefined

end RetryHelper

/-! ## What is thrown -/

inductive Thrown where
  /-- An instance of `Error`. -/
  | error (message : String)
  /-- Any other value, by what `JSON.stringify` makes of it: its text, `undefined`, or, of a
  value that contains itself or a `BigInt`, the error it throws. -/
  | value (json : Except String (Option String))

inductive LastError where
  | undefined
  | error (message : String)
  /-- `{ name: 'RetryError', message, stack }` -/
  | retryError (message : Option String)
  deriving DecidableEq

/-- `error instanceof Error ? error : { name: 'RetryError', .. }` -/
def Thrown.asError : Thrown → Except LastError LastError
  | .error message => .ok (.error message)
  | .value (.ok json) => .ok (.retryError json)
  | .value (.error message) => .error (.error message)

/-! ## The calls of the method -/

inductive RetryOperation where
  | action
  | onRetry (error : LastError)
  | sleep (milliseconds : ℚ)
  deriving DecidableEq

abbrev RetryOperation.Result (α : Type) : RetryOperation → Type
  | .action => Except Thrown α
  | .onRetry _ => Unit
  | .sleep _ => Unit

/-- The helper whose calls are told. -/
def retryHelper (α : Type) :
    RetryHelper RetryOperation (RetryOperation.Result α) Thrown LastError where
  sleepFunction := fun milliseconds => Program.perform (RetryOperation.sleep milliseconds)
  undefined := .undefined
  asError := Thrown.asError

/-- The method over any action. -/
def retried (α : Type) (maxRetryCount : ℕ) (retryIntervalMilliseconds : ℚ) :
    Program RetryOperation (RetryOperation.Result α) LastError α :=
  (retryHelper α).executeWithRetries (Program.perform RetryOperation.action)
    (fun error => Program.perform (RetryOperation.onRetry error)) maxRetryCount
    retryIntervalMilliseconds

/-- The tries end as they do, one after the other. -/
def inOrder {α : Type} (outcomes : ℕ → Except Thrown α) :
    Handler RetryOperation (RetryOperation.Result α) ℕ
  | .action, i => (outcomes i, i + 1)
  | .onRetry _, i => ((), i)
  | .sleep _, i => ((), i)

section Tries

variable {α : Type} (outcomes : ℕ → Except Thrown α)

/-! ## What is promised -/

/-- The error of a try that threw this. -/
inductive IsErrorOf : Thrown → LastError → Prop
  | error (message : String) : IsErrorOf (.error message) (.error message)
  | json (text : Option String) : IsErrorOf (.value (.ok text)) (.retryError text)
  | noJson (e : String) (message : Option String) :
      IsErrorOf (.value (.error e)) (.retryError message)

/-- The action fails before its try `k`, counted from 0, and succeeds there. -/
def FirstSuccess (k : ℕ) (a : α) : Prop :=
  outcomes k = .ok a ∧ ∀ i < k, ∃ e, outcomes i = .error e

/-- What is called for the try `i`: after a failure that is not the last of `n`, `onRetry`
and a pause. -/
def callsOf (errors : ℕ → LastError) (n : ℕ) (r : ℚ) (i : ℕ) : List RetryOperation :=
  .action :: match outcomes i with
    | .ok _ => []
    | .error _ =>
      if i + 1 < n then
        .onRetry (errors i) :: if 0 < r then [.sleep (r * (i + 1))] else []
      else []

/-- The promise of `executeWithRetries`, with at most `n` tries and pauses of `r` milliseconds
and more, about what it called and how it ended. -/
structure Retried (errors : ℕ → LastError) (n : ℕ) (r : ℚ) (calls : List RetryOperation)
    (out : Except LastError α) : Prop where
  runs : ∀ k a, FirstSuccess outcomes k a → calls.count .action = min (k + 1) n
  runsOut : (∀ i < n, ∃ e, outcomes i = .error e) → calls.count .action = n
  traced : calls = (List.range (calls.count .action)).flatMap (callsOf outcomes errors n r)
  resolves : ∀ k a, FirstSuccess outcomes k a → k < n → out = .ok a
  rejects : (∀ i < n, ∃ e, outcomes i = .error e) → out = .error (errors (n - 1))

/-- A value was thrown that `JSON.stringify` throws for. -/
def NoJson (outcome : Except Thrown α) : Prop :=
  ∃ message, outcome = .error (.value (.error message))

/-! ## One turn of the loop -/

section Turn

variable {outcomes} {n turns i : ℕ} {r : ℚ} {last : LastError}

/-- The loop over the operations. -/
abbrev loop (n : ℕ) (r : ℚ) (turns i : ℕ) (last : LastError) :
    Program RetryOperation (RetryOperation.Result α) LastError α :=
  (retryHelper α).retrying (Program.perform RetryOperation.action)
    (fun error => Program.perform (RetryOperation.onRetry error)) n r turns i last

theorem loop_succ : (loop n r (turns + 1) i last : Program _ (RetryOperation.Result α) _ α) =
    .call .action fun outcome => match outcome with
      | .ok value => pure value
      | .error error => (do
        let lastError ← Program.ofExcept error.asError
        if i < n - 1 then
          Program.perform (RetryOperation.onRetry lastError)
          if 0 < r then Program.perform (RetryOperation.sleep (r * (i + 1)))
        loop n r turns (i + 1) lastError) := by
  apply congrArg (Program.call RetryOperation.action)
  funext outcome
  cases outcome <;> rfl

/-- A try that succeeds is the last one. -/
theorem loop_ok {a : α} (h : outcomes i = .ok a) :
    (loop n r (turns + 1) i last).ops (inOrder outcomes) i = [.action] ∧
      ((loop n r (turns + 1) i last).run (inOrder outcomes) i).1 = .ok a := by
  simp only [loop_succ, Program.ops_call, Program.run_call, inOrder, h]
  exact ⟨rfl, rfl⟩

/-- A value with no JSON ends the tries. -/
theorem loop_noJson {message : String} (h : outcomes i = .error (.value (.error message))) :
    (loop n r (turns + 1) i last).ops (inOrder outcomes) i = [.action] ∧
      ((loop n r (turns + 1) i last).run (inOrder outcomes) i).1 = .error (.error message) := by
  simp only [loop_succ, Program.ops_call, Program.run_call, inOrder, h]
  exact ⟨rfl, rfl⟩

/-- After another failure come `onRetry`, the pause and the turns that are left. -/
theorem loop_error {e : Thrown} {errors : ℕ → LastError} (h : outcomes i = .error e)
    (herror : e.asError = .ok (errors i)) (hi : i < n) :
    (loop n r (turns + 1) i last).ops (inOrder outcomes) i =
        callsOf outcomes errors n r i ++
          (loop n r turns (i + 1) (errors i)).ops (inOrder outcomes) (i + 1) ∧
      (loop n r (turns + 1) i last).run (inOrder outcomes) i =
        (loop n r turns (i + 1) (errors i)).run (inOrder outcomes) (i + 1) := by
  simp only [loop_succ, Program.ops_call, Program.run_call, inOrder, h, callsOf, herror,
    Program.ofExcept_ok, pure_bind]
  by_cases hlast : i + 1 < n
  · rw [if_pos hlast, if_pos (show i < n - 1 by omega)]
    by_cases hr : 0 < r
    · rw [if_pos hr, if_pos hr]
      exact ⟨rfl, rfl⟩
    · rw [if_neg hr, if_neg hr]
      exact ⟨rfl, rfl⟩
  · rw [if_neg hlast, if_neg (show ¬ i < n - 1 by omega)]
    exact ⟨rfl, rfl⟩

end Turn

/-! ## All turns -/

section Turns

variable {outcomes} {errors : ℕ → LastError} {n k : ℕ} {r : ℚ}

theorem count_callsOf (i : ℕ) : (callsOf outcomes errors n r i).count .action = 1 := by
  unfold callsOf
  rcases outcomes i with e | a
  · dsimp only
    split_ifs <;> rfl
  · rfl

/-- Every try is one call of the action. -/
theorem count_calls (k : ℕ) :
    ((List.range k).flatMap (callsOf outcomes errors n r)).count .action = k :=
  Program.count_flatMap_range fun i _ => count_callsOf i

/-- The first `k` tries threw what has JSON. -/
def Thrown.FirstTries (outcomes : ℕ → Except Thrown α) (errors : ℕ → LastError) (k : ℕ) : Prop :=
  ∀ i < k, ∃ e, outcomes i = .error e ∧ e.asError = .ok (errors i)

/-- After tries that failed the loop is at the next one. -/
theorem reaches (hk : k ≤ n) (hfails : Thrown.FirstTries outcomes errors k) :
    ∃ last, (k ≠ 0 → last = errors (k - 1)) ∧
      (retried α n r).ops (inOrder outcomes) 0 =
        (List.range k).flatMap (callsOf outcomes errors n r) ++
          (loop n r (n - k) k last).ops (inOrder outcomes) k ∧
      (retried α n r).run (inOrder outcomes) 0 =
        (loop n r (n - k) k last).run (inOrder outcomes) k := by
  induction k with
  | zero => exact ⟨.undefined, fun h => absurd rfl h, rfl, rfl⟩
  | succ k ih =>
    obtain ⟨last, -, hops, hrun⟩ := ih (by omega) fun i hi => hfails i (by omega)
    obtain ⟨e, houtcome, herror⟩ := hfails k (by omega)
    obtain ⟨hops', hrun'⟩ := @loop_error α outcomes n (n - (k + 1)) k r last e errors houtcome
      herror (by omega)
    have hturns : n - k = n - (k + 1) + 1 := by omega
    refine ⟨errors k, fun _ => rfl, ?_, ?_⟩
    · rw [hops, hturns, hops', List.range_succ, List.flatMap_append, List.flatMap_singleton,
        List.append_assoc]
    · rw [hrun, hturns, hrun']

/-- A success is where the tries end. -/
theorem retried_success {a : α} (hk : k < n) (hfails : Thrown.FirstTries outcomes errors k)
    (hsuccess : outcomes k = .ok a) :
    (retried α n r).ops (inOrder outcomes) 0 =
        (List.range (k + 1)).flatMap (callsOf outcomes errors n r) ∧
      ((retried α n r).run (inOrder outcomes) 0).1 = .ok a := by
  obtain ⟨last, -, hops, hrun⟩ := @reaches α outcomes errors n k r (by omega) hfails
  obtain ⟨turns, hturns⟩ : ∃ turns, n - k = turns + 1 := ⟨n - k - 1, by omega⟩
  obtain ⟨hops', hrun'⟩ := @loop_ok α outcomes n turns k r last a hsuccess
  have hlast : callsOf outcomes errors n r k = [.action] := by rw [callsOf, hsuccess]
  constructor
  · rw [hops, hturns, hops', List.range_succ, List.flatMap_append, List.flatMap_singleton, hlast]
  · rw [hrun, hturns, hrun']

/-- Where all tries fail, the error of the last one is thrown on. -/
theorem retried_failure (hn : n ≠ 0) (hfails : Thrown.FirstTries outcomes errors n) :
    (retried α n r).ops (inOrder outcomes) 0 =
        (List.range n).flatMap (callsOf outcomes errors n r) ∧
      ((retried α n r).run (inOrder outcomes) 0).1 = .error (errors (n - 1)) := by
  obtain ⟨last, hlast, hops, hrun⟩ := @reaches α outcomes errors n n r le_rfl hfails
  rw [hops, hrun, Nat.sub_self, hlast hn]
  exact ⟨List.append_nil _, rfl⟩

/-- A value with no JSON is where the tries end, too. -/
theorem retried_noJson {message : String} (hk : k < n)
    (hfails : Thrown.FirstTries outcomes errors k)
    (hthrown : outcomes k = .error (.value (.error message))) :
    ((retried α n r).ops (inOrder outcomes) 0).count .action = k + 1 ∧
      ((retried α n r).run (inOrder outcomes) 0).1 = .error (.error message) := by
  obtain ⟨last, -, hops, hrun⟩ := @reaches α outcomes errors n k r (by omega) hfails
  obtain ⟨turns, hturns⟩ : ∃ turns, n - k = turns + 1 := ⟨n - k - 1, by omega⟩
  obtain ⟨hops', hrun'⟩ := @loop_noJson α outcomes n turns k r last message hthrown
  constructor
  · rw [hops, hturns, hops', List.count_append, count_calls]
    rfl
  · rw [hrun, hturns, hrun']

end Turns

/-! ## The promise -/

section Promise

variable {outcomes} {n k : ℕ} {r : ℚ} {a : α}

theorem FirstSuccess.unique {k' : ℕ} {a' : α} (h : FirstSuccess outcomes k a)
    (h' : FirstSuccess outcomes k' a') : k' = k ∧ a' = a := by
  have hk : k' = k := by
    rcases lt_trichotomy k' k with hlt | heq | hlt
    · obtain ⟨e, he⟩ := h.2 k' hlt
      rw [h'.1] at he
      cases he
    · exact heq
    · obtain ⟨e, he⟩ := h'.2 k hlt
      rw [h.1] at he
      cases he
  subst hk
  have ha := h'.1.symm.trans h.1
  exact ⟨rfl, Except.ok.inj ha⟩

/-- One of the first `n` tries is the first that succeeds, or all of them fail. -/
theorem firstSuccess_or (outcomes : ℕ → Except Thrown α) (n : ℕ) :
    (∃ k < n, ∃ a, FirstSuccess outcomes k a) ∨ ∀ i < n, ∃ e, outcomes i = .error e := by
  induction n with
  | zero => exact Or.inr fun i hi => absurd hi (Nat.not_lt_zero i)
  | succ n ih =>
    rcases ih with ⟨k, hk, a, hfirst⟩ | hfails
    · exact Or.inl ⟨k, by omega, a, hfirst⟩
    · rcases houtcome : outcomes n with e | a
      · refine Or.inr fun i hi => ?_
        rcases Nat.lt_succ_iff_lt_or_eq.mp hi with hi | rfl
        · exact hfails i hi
        · exact ⟨e, houtcome⟩
      · exact Or.inl ⟨n, by omega, a, houtcome, hfails⟩

/-- The errors of the tries. -/
def errorsOf (outcomes : ℕ → Except Thrown α) (i : ℕ) : LastError :=
  match outcomes i with
  | .error (.error message) => .error message
  | .error (.value json) => .retryError (json.toOption.getD none)
  | .ok _ => .undefined

theorem isErrorOf_errorsOf {i : ℕ} {e : Thrown} (h : outcomes i = .error e) :
    IsErrorOf e (errorsOf outcomes i) := by
  rw [errorsOf, h]
  rcases e with message | message | text
  · exact .error message
  · exact .noJson message _
  · exact .json text

theorem asError_of_json {i : ℕ} {e : Thrown} (h : outcomes i = .error e)
    (hjson : ¬ NoJson (outcomes i)) : e.asError = .ok (errorsOf outcomes i) := by
  rw [errorsOf, h]
  rcases e with message | message | text
  · rfl
  · exact absurd ⟨message, h⟩ hjson
  · rfl

theorem firstTries_errorsOf (hfails : ∀ i < k, ∃ e, outcomes i = .error e)
    (hjson : ∀ i < k, ¬ NoJson (outcomes i)) :
    Thrown.FirstTries outcomes (errorsOf outcomes) k := by
  intro i hi
  obtain ⟨e, he⟩ := hfails i hi
  exact ⟨e, he, asError_of_json he (hjson i hi)⟩

/-- The calls of `executeWithRetries` and its end are as promised, with the right error for
every try. -/
def Promised (outcomes : ℕ → Except Thrown α) (n : ℕ) (r : ℚ) : Prop :=
  ∃ errors : ℕ → LastError, (∀ i e, outcomes i = .error e → IsErrorOf e (errors i)) ∧
    Retried outcomes errors n r ((retried α n r).ops (inOrder outcomes) 0)
      ((retried α n r).run (inOrder outcomes) 0).1

/-- Tries that throw nothing without JSON, up to one that succeeds. -/
theorem promised_of_success (hk : k < n) (hfirst : FirstSuccess outcomes k a)
    (hjson : ∀ i < k, ¬ NoJson (outcomes i)) : Promised outcomes n r := by
  obtain ⟨hcalls, hout⟩ := @retried_success α outcomes _ n k r a hk
    (firstTries_errorsOf hfirst.2 hjson) hfirst.1
  have hcount := congrArg (List.count RetryOperation.action) hcalls
  rw [count_calls] at hcount
  have hnot : ¬ ∀ i < n, ∃ e, outcomes i = .error e := by
    intro hfails
    obtain ⟨e, he⟩ := hfails k hk
    rw [hfirst.1] at he
    cases he
  refine ⟨errorsOf outcomes, fun i e => isErrorOf_errorsOf, fun k' a' hfirst' => ?_,
    fun h => absurd h hnot, ?_, fun k' a' hfirst' _ => ?_, fun h => absurd h hnot⟩
  · rw [hcount, (hfirst.unique hfirst').1]
    omega
  · rw [hcount]
    exact hcalls
  · rw [hout, (hfirst.unique hfirst').2]

/-- Tries that throw nothing without JSON, and all fail. -/
theorem promised_of_failure (hn : 1 ≤ n) (hfails : ∀ i < n, ∃ e, outcomes i = .error e)
    (hjson : ∀ i < n, ¬ NoJson (outcomes i)) : Promised outcomes n r := by
  obtain ⟨hcalls, hout⟩ := @retried_failure α outcomes _ n r (by omega)
    (firstTries_errorsOf hfails hjson)
  have hcount := congrArg (List.count RetryOperation.action) hcalls
  rw [count_calls] at hcount
  -- no try of these succeeds, so a first success would be a later one
  have hlate : ∀ k a, FirstSuccess outcomes k a → n ≤ k := by
    intro k a hfirst
    by_contra hlt
    obtain ⟨e, he⟩ := hfails k (by omega)
    rw [hfirst.1] at he
    cases he
  refine ⟨errorsOf outcomes, fun i e => isErrorOf_errorsOf, fun k a hfirst => ?_, fun _ => hcount,
    ?_, fun k a hfirst hk => ?_, fun _ => hout⟩
  · have hle := hlate k a hfirst
    omega
  · rw [hcount]
    exact hcalls
  · have hle := hlate k a hfirst
    omega

/-- A try that is made and throws what has no JSON: nothing is tried after it, and the error
that is thrown on is not that of the try. -/
theorem not_promised_of_noJson (hk : k < n) (hfails : ∀ i < k, ∃ e, outcomes i = .error e)
    (hjson : ∀ i < k, ¬ NoJson (outcomes i)) (hno : NoJson (outcomes k)) :
    ¬ Promised outcomes n r := by
  rintro ⟨errors, herrors, hretried⟩
  obtain ⟨message, hthrown⟩ := hno
  obtain ⟨hcount, hout⟩ := @retried_noJson α outcomes _ n k r message hk
    (firstTries_errorsOf hfails hjson) hthrown
  rcases firstSuccess_or outcomes n with ⟨k', hk', a, hfirst⟩ | hall
  · -- the success would be the result
    have hresolved := hretried.resolves k' a hfirst hk'
    rw [hout] at hresolved
    cases hresolved
  · -- all `n` tries would be made, so this was the last one, and its error is the result
    have hruns := hretried.runsOut hall
    have hrejected := hretried.rejects hall
    obtain rfl : k = n - 1 := by omega
    rw [hout] at hrejected
    have herror := herrors _ _ hthrown
    rw [← Except.error.inj hrejected] at herror
    cases herror

/-- **The promise of `executeWithRetries`** is kept exactly where no try that is made throws
what has no JSON. -/
theorem promised_iff (hn : 1 ≤ n) : Promised outcomes n r ↔
    ∀ i < n, (∀ j < i, ∃ e, outcomes j = .error e) → ¬ NoJson (outcomes i) := by
  constructor
  · intro hpromised i
    induction i using Nat.strong_induction_on with
    | _ i ih =>
      intro hi hfails hno
      exact not_promised_of_noJson hi hfails
        (fun j hj => ih j hj (by omega) fun l hl => hfails l (by omega)) hno hpromised
  · intro hjson
    rcases firstSuccess_or outcomes n with ⟨k, hk, a, hfirst⟩ | hfails
    · exact promised_of_success hk hfirst fun i hi =>
        hjson i (by omega) fun j hj => hfirst.2 j (by omega)
    · exact promised_of_failure hn hfails fun i hi => hjson i hi fun j hj => hfails j (by omega)

end Promise

end Tries

end WebInsights.Common
