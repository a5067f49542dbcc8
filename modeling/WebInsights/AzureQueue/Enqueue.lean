/-
`Queue.createMessage` and its retries.

Every try gets the client of the queue, makes sure of the queue and sends the message, and
succeeds if the response has a message id (`attempt_ok_iff`). `createMessage` tells whether
one of the tries succeeded and never rejects, whatever the client library does. Which tries
there would be is told without the retries (`attemptState`); the retries get to all of them
as long as nothing is thrown that has no JSON.
-/
import WebInsights.AzureQueue.Queue
import WebInsights.Effect.Ends

set_option autoImplicit false

namespace WebInsights.AzureQueue

open Common Effect Js Queue

variable {σ : Type} (h : Handler QueueOperation QueueOperation.Result σ) (queue : String)
  (message : Val)

/-! ## The tries -/

/-- One try of `tryCreateMessage`. -/
def attempt : Awaits Unit := do
  let queueURL ← getQueueClient queue
  ensureQueueExists queueURL
  createQueueMessage queueURL message none

/-- The state before the try `i`, counted from 0. -/
def attemptState (s : σ) : ℕ → σ
  | 0 => s
  | i + 1 => ((attempt queue message).run h (attemptState s i)).2

/-- How the try `i` ends. -/
def attemptOutcome (s : σ) (i : ℕ) : Except QueueError Unit :=
  ((attempt queue message).run h (attemptState h queue message s i)).1

/-- The try `i` got a message id back. -/
def GotId (s : σ) (i : ℕ) : Prop :=
  ∃ text id, (⟨.sendMessage queue text none, .ok (some id)⟩ : Sigma QueueOperation.Result) ∈
    (attempt queue message).answers h (attemptState h queue message s i)

variable {h queue message}

/-- An operation that is awaited is answered once, and ends as it was answered. -/
theorem ends_await {op : QueueOperation} {answers : List (Sigma QueueOperation.Result)}
    {out : op.Result} (hends : (await op).Ends answers out) : answers = [⟨op, out⟩] := by
  obtain ⟨r, rest, rfl, hends⟩ := hends
  rcases r with e | value
  · obtain ⟨rfl, rfl⟩ := hends
    rfl
  · obtain ⟨rfl, rfl⟩ := hends
    rfl

theorem ends_getQueueClient {queueName : String} {answers : List (Sigma QueueOperation.Result)}
    {out : Except QueueError QueueClient} (hends : (getQueueClient queueName).Ends answers out) :
    (∃ r, answers = [⟨.getQueueClient queueName, r⟩]) ∧ ∀ c, out = .ok c → c = queueName := by
  rcases Program.Ends.of_bind hends with ⟨first, rest, _, rfl, hawait, rfl, rfl⟩ | ⟨e, rfl, hawait⟩
  · exact ⟨⟨_, by rw [ends_await hawait, List.append_nil]⟩, fun c hc => (Except.ok.inj hc).symm⟩
  · exact ⟨⟨_, ends_await hawait⟩, nofun⟩

/-- A message is created exactly if the response to it has an id. -/
theorem ends_createQueueMessage {queueClient : QueueClient}
    {answers : List (Sigma QueueOperation.Result)} {out : Except QueueError Unit}
    (hends : (createQueueMessage queueClient message none).Ends answers out) :
    out = .ok () ↔ ∃ text id,
      (⟨.sendMessage queueClient text none, .ok (some id)⟩ : Sigma QueueOperation.Result) ∈
        answers := by
  unfold createQueueMessage at hends
  rcases hjson : stringify message with _ | text
  · rw [hjson] at hends
    obtain ⟨rfl, rfl⟩ := hends
    simp
  rw [hjson] at hends
  rcases Program.Ends.of_bind hends with ⟨first, rest, id, rfl, hawait, hends⟩ | ⟨e, rfl, hawait⟩
  · rw [ends_await hawait]
    rcases id with _ | id
    · obtain ⟨rfl, rfl⟩ := hends
      simp
    · obtain ⟨rfl, rfl⟩ := hends
      simp
  · rw [ends_await hawait]
    simp

theorem ends_attempt {answers : List (Sigma QueueOperation.Result)} {out : Except QueueError Unit}
    (hends : (attempt queue message).Ends answers out) :
    out = .ok () ↔ ∃ text id,
      (⟨.sendMessage queue text none, .ok (some id)⟩ : Sigma QueueOperation.Result) ∈ answers := by
  rcases Program.Ends.of_bind hends with ⟨_, _, c, rfl, hclient, hrest⟩ | ⟨e, rfl, hclient⟩
  · obtain ⟨⟨r, rfl⟩, hname⟩ := ends_getQueueClient hclient
    obtain rfl := hname c rfl
    rcases Program.Ends.of_bind hrest with ⟨first, rest, _, rfl, hensure, hcreate⟩ |
      ⟨e, rfl, hensure⟩
    · rw [ends_createQueueMessage hcreate, ends_await hensure]
      simp
    · rw [ends_await hensure]
      simp
  · obtain ⟨⟨r, rfl⟩, -⟩ := ends_getQueueClient hclient
    simp

/-- A try succeeds exactly if it gets a message id. -/
theorem attemptOutcome_eq_ok_iff {s : σ} {i : ℕ} :
    attemptOutcome h queue message s i = .ok () ↔ GotId h queue message s i :=
  ends_attempt (Program.ends_run h (attempt queue message) (attemptState h queue message s i))

/-! ## The retries -/

section Retries

variable (h queue message) {s s' : σ} {n k turns i : ℕ} {last e e' : QueueError}

/-- The retries of `tryCreateMessage`. -/
def retries (n turns i : ℕ) (last : QueueError) : Awaits Unit :=
  retryHelper.retrying (attempt queue message).settle (fun _ => pure ()) n 1000 turns i last

/-- A value was thrown that `JSON.stringify` throws for. -/
def NoJson (outcome : Except QueueError Unit) : Prop :=
  ∃ message, outcome = .error (.value (.error message))

variable {h queue message}

theorem run_retries_ok (hrun : (attempt queue message).run h s = (.ok (), s')) :
    (retries queue message n (turns + 1) i last).run h s = (.ok (), s') :=
  Program.run_bind_ok h (Program.run_settle_ok h hrun)

theorem run_retries_error (hrun : (attempt queue message).run h s = (.error e, s')) :
    (retries queue message n (turns + 1) i last).run h s =
      (Program.ofExcept e.asError >>= fun last' =>
        retries queue message n turns (i + 1) last').run h s' := by
  have hsettle := Program.run_settle h (attempt queue message) s
  rw [hrun] at hsettle
  refine (Program.run_bind_ok h hsettle).trans ?_
  show (Program.ofExcept e.asError >>= _).run h s' = _
  rcases e.asError with e' | e'
  · rfl
  · rw [Program.ofExcept_ok, pure_bind, pure_bind]
    split_ifs <;> rfl

theorem exists_asError (hjson : ¬ NoJson (.error e)) : ∃ e', e.asError = .ok e' := by
  rcases e with message | _ | _ | (message | text) | message
  · exact ⟨_, rfl⟩
  · exact ⟨_, rfl⟩
  · exact ⟨_, rfl⟩
  · exact absurd ⟨message, rfl⟩ hjson
  · exact ⟨_, rfl⟩
  · exact ⟨_, rfl⟩

/-- After tries that failed with something that has JSON comes the next one. -/
theorem reaches_try (hk : k ≤ n)
    (hfails : ∀ i < k, ∃ e, attemptOutcome h queue message s i = .error e ∧ ¬ NoJson (.error e)) :
    ∃ last, (executeWithRetries (attempt queue message) n).run h s =
      (retries queue message n (n - k) k last).run h (attemptState h queue message s k) := by
  induction k with
  | zero => exact ⟨.undefined, rfl⟩
  | succ k ih =>
    obtain ⟨last, hrun⟩ := ih (by omega) fun i hi => hfails i (by omega)
    obtain ⟨e, houtcome, hjson⟩ := hfails k (by omega)
    obtain ⟨e', he'⟩ := exists_asError hjson
    have htry : (attempt queue message).run h (attemptState h queue message s k) =
        (.error e, attemptState h queue message s (k + 1)) := Prod.ext houtcome rfl
    have hturns : n - k = n - (k + 1) + 1 := by omega
    refine ⟨e', ?_⟩
    rw [hrun, hturns, run_retries_error htry, he']
    rfl

/-- Where the retries stop: behind the last try, at a success or at what has no JSON. -/
theorem exists_stop (outcomes : ℕ → Except QueueError Unit) (n : ℕ) :
    ∃ k ≤ n, (∀ i < k, ∃ e, outcomes i = .error e ∧ ¬ NoJson (.error e)) ∧
      (k = n ∨ k < n ∧ outcomes k = .ok () ∨ k < n ∧ NoJson (outcomes k)) := by
  induction n with
  | zero => exact ⟨0, le_rfl, fun i hi => absurd hi (Nat.not_lt_zero i), Or.inl rfl⟩
  | succ n ih =>
    obtain ⟨k, hk, hfails, hend | ⟨hlt, hok⟩ | ⟨hlt, hno⟩⟩ := ih
    · subst hend
      rcases houtcome : outcomes k with e | ⟨⟩
      · by_cases hno : NoJson (.error e)
        · exact ⟨k, by omega, hfails, Or.inr (Or.inr ⟨by omega, houtcome ▸ hno⟩)⟩
        · refine ⟨k + 1, le_rfl, fun i hi => ?_, Or.inl rfl⟩
          rcases Nat.lt_succ_iff_lt_or_eq.mp hi with hi | rfl
          · exact hfails i hi
          · exact ⟨e, houtcome, hno⟩
      · exact ⟨k, by omega, hfails, Or.inr (Or.inl ⟨by omega, houtcome⟩)⟩
    · exact ⟨k, by omega, hfails, Or.inr (Or.inl ⟨by omega, hok⟩)⟩
    · exact ⟨k, by omega, hfails, Or.inr (Or.inr ⟨by omega, hno⟩)⟩

/-- `createMessage` tells whether the retries returned. -/
theorem run_createMessage {out : Except QueueError Unit}
    (hrun : (executeWithRetries (attempt queue message) n).run h s = (out, s')) :
    ((createMessage n queue message).run h s).1 = .ok out.isOk := by
  have hcreate : createMessage n queue message =
      tryCatch (executeWithRetries (attempt queue message) n >>= fun _ => pure true)
        fun _ => pure false := rfl
  rw [hcreate, Program.run_tryCatch, Program.run_bind, hrun]
  cases out <;> rfl

theorem not_gotId {e : QueueError} (houtcome : attemptOutcome h queue message s i = .error e) :
    ¬ GotId h queue message s i := by
  intro hgot
  have hok := attemptOutcome_eq_ok_iff.mpr hgot
  rw [houtcome] at hok
  cases hok

/-- **Whether a message was created**: `createMessage` never rejects, and it tells whether one
of the first `n` tries gets a message id exactly where none of these tries follows one
that threw what has no JSON, with no success up to that one. -/
theorem createMessage_tells_iff :
    (∃ created, ((createMessage n queue message).run h s).1 = .ok created ∧
      (created = true ↔ ∃ i < n, GotId h queue message s i)) ↔
    ∀ i k, i < k → k < n → (∀ j ≤ i, ¬ GotId h queue message s j) → GotId h queue message s k →
      ¬ NoJson (attemptOutcome h queue message s i) := by
  -- the tries are made up to the one that succeeds or throws what has no JSON
  obtain ⟨k, hk, hfails, hstop⟩ := exists_stop (attemptOutcome h queue message s) n
  have hbefore : ∀ i < k, ¬ GotId h queue message s i := by
    intro i hi
    obtain ⟨e, he, -⟩ := hfails i hi
    exact not_gotId he
  obtain ⟨last, hrun⟩ := @reaches_try σ h queue message s n k hk hfails
  rcases hstop with rfl | ⟨hlt, hok⟩ | ⟨hlt, hno⟩
  · -- all tries fail
    rw [Nat.sub_self] at hrun
    constructor
    · exact fun _ i k' _ hk' _ hgot => absurd hgot (hbefore k' hk')
    · refine fun _ => ⟨false, run_createMessage hrun, nofun, ?_⟩
      rintro ⟨i, hi, hgot⟩
      exact absurd hgot (hbefore i hi)
  · -- the try `k` succeeds
    have htry : (attempt queue message).run h (attemptState h queue message s k) =
        (.ok (), attemptState h queue message s (k + 1)) := Prod.ext hok rfl
    obtain ⟨turns, hturns⟩ : ∃ turns, n - k = turns + 1 := ⟨n - k - 1, by omega⟩
    rw [hturns, run_retries_ok htry] at hrun
    have hgot := attemptOutcome_eq_ok_iff.mp hok
    constructor
    · intro _ i k' _ _ hnone _
      obtain ⟨e, he, hjson⟩ := hfails i (by
        by_contra hle
        exact hnone k (by omega) hgot)
      rwa [he]
    · exact fun _ => ⟨true, run_createMessage hrun, fun _ => ⟨k, hlt, hgot⟩, fun _ => rfl⟩
  · -- the try `k` throws what has no JSON
    obtain ⟨message', hthrown⟩ := hno
    have htry : (attempt queue message).run h (attemptState h queue message s k) =
        (.error (.value (.error message')), attemptState h queue message s (k + 1)) :=
      Prod.ext hthrown rfl
    obtain ⟨turns, hturns⟩ : ∃ turns, n - k = turns + 1 := ⟨n - k - 1, by omega⟩
    rw [hturns, run_retries_error htry] at hrun
    have hnone : ∀ j ≤ k, ¬ GotId h queue message s j := by
      intro j hj
      rcases Nat.lt_or_eq_of_le hj with hj | rfl
      · exact hbefore j hj
      · exact not_gotId hthrown
    have hcreated : ((createMessage n queue message).run h s).1 = .ok false :=
      run_createMessage hrun
    rw [hcreated]
    constructor
    · rintro ⟨created, hfalse, htells⟩ i k' _ hk' _ hgot _
      obtain rfl := Except.ok.inj hfalse
      exact Bool.false_ne_true (htells.mpr ⟨k', hk', hgot⟩)
    · intro hjson
      refine ⟨false, rfl, nofun, ?_⟩
      rintro ⟨i, hi, hgot⟩
      have hki : k < i := by
        by_contra hle
        exact hnone i (by omega) hgot
      exact absurd ⟨message', hthrown⟩ (hjson k i hki hi hnone hgot)

end Retries

/-! ## The promise of both -/

/-- **Retries**: `executeWithRetries` tries, tells, pauses and ends as promised exactly where no
try that is made throws what has no JSON, and `createMessage` tells of `n` tries whether
one gets a message id exactly where none throws such a thing before the first that does. -/
theorem executeWithRetries_promised_iff {α : Type} (outcomes : ℕ → Except Thrown α) {n : ℕ}
    (hn : 1 ≤ n) (r : ℚ) :
    (Promised outcomes n r ↔
      ∀ i < n, (∀ j < i, ∃ e, outcomes j = .error e) → ¬ Common.NoJson (outcomes i)) ∧
    ∀ {σ : Type} (h : Handler QueueOperation QueueOperation.Result σ) (s : σ) (queue : String)
      (message : Val),
      (∃ created, ((createMessage n queue message).run h s).1 = .ok created ∧
        (created = true ↔ ∃ i < n, GotId h queue message s i)) ↔
      ∀ i k, i < k → k < n → (∀ j ≤ i, ¬ GotId h queue message s j) →
        GotId h queue message s k → ¬ NoJson (attemptOutcome h queue message s i) :=
  ⟨promised_iff hn, fun _ _ _ _ => createMessage_tells_iff⟩

/-- Two failures and a success, in three tries with pauses of 10 milliseconds and more. -/
def sampleOutcomes : ℕ → Except Thrown ℕ
  | 0 => .error (.error "test error")
  | 1 => .error (.value (.ok (some "\x7b\"message\":\"other error type\"\x7d")))
  | _ => .ok 42

theorem executeWithRetries_promised_iff_sample :
    Promised sampleOutcomes 3 10 ∧
      (retried ℕ 3 10).ops (inOrder sampleOutcomes) 0 =
        [.action, .onRetry (.error "test error"), .sleep 10, .action,
          .onRetry (.retryError (some "\x7b\"message\":\"other error type\"\x7d")), .sleep 20,
          .action] := by
  refine ⟨(executeWithRetries_promised_iff sampleOutcomes (by decide) 10).1.mpr ?_,
    by decide +kernel⟩
  rintro (_ | _ | i) - - ⟨message, hno⟩ <;> cases hno

/-- A `BigInt` is thrown, and then nothing would be. -/
def throwsBigInt : ℕ → Except Thrown ℕ
  | 0 => .error (.value (.error "Do not know how to serialize a BigInt"))
  | _ => .ok 42

/-- The second of two tries would succeed, and is not made. -/
theorem executeWithRetries_bigInt :
    (retried ℕ 2 10).ops (inOrder throwsBigInt) 0 = [.action] ∧
      ((retried ℕ 2 10).run (inOrder throwsBigInt) 0).1 =
        .error (.error "Do not know how to serialize a BigInt") ∧
      ¬ Promised throwsBigInt 2 10 :=
  ⟨rfl, rfl, not_promised_of_noJson (by decide : 0 < 2) (fun i hi => absurd hi (Nat.not_lt_zero i))
    (fun i hi => absurd hi (Nat.not_lt_zero i)) ⟨_, rfl⟩⟩

end WebInsights.AzureQueue
