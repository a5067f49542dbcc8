/-
`CosmosContainerClient.tryExecuteOperation`: an operation is done again while its response
has a transient status, until the timeout.

The loop ends at a response that is no transient failure, at a rejection, or at a transient
failure past the deadline, and at the first of them (`Effect/Deadline.lean`). The deadline is
looked at after a transient failure only, so a response that is none is returned however
late it is.
-/
import WebInsights.Cosmos.World
import WebInsights.Effect.Deadline
import WebInsights.Effect.Loop

set_option autoImplicit false

namespace WebInsights.Cosmos

open Effect

/-! ## The method -/

structure RetryOptions where
  timeoutMilliseconds : ℚ
  intervalMilliseconds : ℚ
  retryingOnStatusCodes : List ℤ

/-- What is used where the caller gives none. -/
def RetryOptions.default : RetryOptions where
  timeoutMilliseconds := 15000
  intervalMilliseconds := 500
  retryingOnStatusCodes := [412]

/-- What an operation rejects with. -/
inductive Rejection where
  /-- An instance of `Error`. -/
  | error (message : String)
  /-- Any other value, by what `util.inspect` makes of it. -/
  | value (inspected : String)

/-- What `tryExecuteOperation` rejects with. -/
inductive ExecutionError where
  /-- `new VError(cause, message)` -/
  | vError (cause message : String)
  | reason (text : String)
  | response (operationResponse : CosmosOperationResponse)

inductive ExecutionStep where
  | operation
  | now
  | wait (milliseconds : ℚ)
  deriving DecidableEq

abbrev ExecutionStep.Result : ExecutionStep → Type
  | .operation => Except Rejection CosmosOperationResponse
  | .now => ℚ
  | .wait _ => Unit

abbrev Execution (α : Type) : Type := Program ExecutionStep ExecutionStep.Result ExecutionError α

def transientStatusCodes (retryOptions : RetryOptions) : List ℤ :=
  [429, 449, 500, 503] ++ retryOptions.retryingOnStatusCodes

/-- `customError` -/
def customError : Rejection → ExecutionError
  | .error message => .vError message "An error occurred while executing storage operation"
  | .value inspected => .reason inspected

/-- `statusCode <= 399 || transientStatusCodes.indexOf(statusCode) < 0`. The name of a network
error is no number, and in no list of numbers. -/
def Completed (retryOptions : RetryOptions) : StatusCode → Prop
  | .code n => n ≤ 399 ∨ n ∉ transientStatusCodes retryOptions
  | .name _ => True

instance (retryOptions : RetryOptions) : DecidablePred (Completed retryOptions)
  | .code n => inferInstanceAs (Decidable (n ≤ 399 ∨ n ∉ transientStatusCodes retryOptions))
  | .name _ => inferInstanceAs (Decidable True)

/-- `Date.now() > timeoutTimestamp` -/
def isPast (timeoutTimestamp : ℚ) : Execution Bool := do
  let now : ℚ ← Program.perform ExecutionStep.now
  pure (timeoutTimestamp < now)

/-- The body of the loop. -/
def execute (retryOptions : RetryOptions) (timeoutTimestamp : ℚ) :
    Execution (Option (Unit ⊕ CosmosOperationResponse)) := do
  match ← Program.perform ExecutionStep.operation with
  | .error error => throw (customError error)
  | .ok operationResponse =>
    if Completed retryOptions operationResponse.statusCode then
      pure (some (.inr operationResponse))
    else if ← isPast timeoutTimestamp then
      -- `return Promise.reject(..)` is not awaited in the `try`, so it is not caught
      throw (.response operationResponse)
    else
      Program.perform (ExecutionStep.wait retryOptions.intervalMilliseconds)
      pure (some (.inl ()))

/-- `tryExecuteOperation`, with at most `fuel` turns. -/
def tryExecuteOperation (fuel : ℕ) (retryOptions : RetryOptions := .default) :
    Execution (Option CosmosOperationResponse) := do
  let now : ℚ ← Program.perform ExecutionStep.now
  Program.iterate (fun _ => execute retryOptions (now + retryOptions.timeoutMilliseconds)) fuel ()

/-! ## The turns -/

/-- The operation ends as told, one time after the other, and the clock is looked at at the
start and after a response. The state counts the times. -/
def executedInOrder {pause : ℚ} (outcomes : ℕ → Except Rejection CosmosOperationResponse)
    (clock : Clock pause) : Handler ExecutionStep ExecutionStep.Result ℕ
  | .operation, i => (outcomes i, i + 1)
  | .now, 0 => (clock.start, 0)
  | .now, i + 1 => (clock.time i, i + 1)
  | .wait _, i => ((), i)

section Turns

variable {retryOptions : RetryOptions} {outcomes : ℕ → Except Rejection CosmosOperationResponse}
  {clock : Clock retryOptions.intervalMilliseconds} {k : ℕ}

/-- The loop body with the deadline of the clock. -/
abbrev executeBy (clock : Clock retryOptions.intervalMilliseconds) :
    Execution (Option (Unit ⊕ CosmosOperationResponse)) :=
  execute retryOptions (clock.start + retryOptions.timeoutMilliseconds)

/-- The response of the time `k`, counted from 0, is past the deadline. -/
abbrev PastDeadline (clock : Clock retryOptions.intervalMilliseconds) (k : ℕ) : Prop :=
  clock.Late retryOptions.timeoutMilliseconds k

theorem run_isPast :
    (isPast (clock.start + retryOptions.timeoutMilliseconds)).run (executedInOrder outcomes clock)
        (k + 1) =
      (.ok (decide (clock.start + retryOptions.timeoutMilliseconds < clock.time k)), k + 1) ∧
    (isPast (clock.start + retryOptions.timeoutMilliseconds)).ops (executedInOrder outcomes clock)
      (k + 1) = [.now] :=
  ⟨rfl, rfl⟩

/-- A rejection is wrapped. -/
theorem execute_rejection {e : Rejection} (h : outcomes k = .error e) :
    (executeBy clock).run (executedInOrder outcomes clock) k = (.error (customError e), k + 1) ∧
      (executeBy clock).ops (executedInOrder outcomes clock) k = [.operation] := by
  simp only [executeBy, execute, Program.perform_bind, Program.run_call, Program.ops_call,
    executedInOrder, h]
  exact ⟨rfl, rfl⟩

/-- A response that is no transient failure is returned. -/
theorem execute_completed {r : CosmosOperationResponse} (h : outcomes k = .ok r)
    (hcompleted : Completed retryOptions r.statusCode) :
    (executeBy clock).run (executedInOrder outcomes clock) k = (.ok (some (.inr r)), k + 1) ∧
      (executeBy clock).ops (executedInOrder outcomes clock) k = [.operation] := by
  simp only [executeBy, execute, Program.perform_bind, Program.run_call, Program.ops_call,
    executedInOrder, h, if_pos hcompleted]
  exact ⟨rfl, rfl⟩

/-- A transient failure past the deadline is what is rejected with. -/
theorem execute_late {r : CosmosOperationResponse} (h : outcomes k = .ok r)
    (htransient : ¬ Completed retryOptions r.statusCode) (hlate : PastDeadline clock k) :
    (executeBy clock).run (executedInOrder outcomes clock) k = (.error (.response r), k + 1) ∧
      (executeBy clock).ops (executedInOrder outcomes clock) k = [.operation, .now] := by
  have hpast : decide (clock.start + retryOptions.timeoutMilliseconds < clock.time k) = true :=
    decide_eq_true (lt_sub_iff_add_lt'.mp hlate)
  simp only [executeBy, execute, Program.perform_bind, Program.run_call, Program.ops_call,
    executedInOrder, h, if_neg htransient, Program.run_bind, Program.ops_bind, run_isPast.1,
    run_isPast.2, hpast]
  exact ⟨rfl, rfl⟩

/-- After any other there is a pause. -/
theorem execute_goes {r : CosmosOperationResponse} (h : outcomes k = .ok r)
    (htransient : ¬ Completed retryOptions r.statusCode) (hlate : ¬ PastDeadline clock k) :
    (executeBy clock).run (executedInOrder outcomes clock) k = (.ok (some (.inl ())), k + 1) ∧
      (executeBy clock).ops (executedInOrder outcomes clock) k =
        [.operation, .now, .wait retryOptions.intervalMilliseconds] := by
  have hpast : decide (clock.start + retryOptions.timeoutMilliseconds < clock.time k) = false :=
    decide_eq_false fun hlt => hlate (lt_sub_iff_add_lt'.mpr hlt)
  simp only [executeBy, execute, Program.perform_bind, Program.run_call, Program.ops_call,
    executedInOrder, h, if_neg htransient, Program.run_bind, Program.ops_bind, run_isPast.1,
    run_isPast.2, hpast]
  exact ⟨rfl, rfl⟩

end Turns

/-! ## The loop -/

/-- The status of a transient failure: too many requests, retry with, two errors of the server,
and what the caller adds, if it is none of success or redirection. -/
def IsTransient (retryOptions : RetryOptions) (statusCode : StatusCode) : Prop :=
  ∃ n : ℤ, statusCode = .code n ∧ 399 < n ∧
    (n = 429 ∨ n = 449 ∨ n = 500 ∨ n = 503 ∨ n ∈ retryOptions.retryingOnStatusCodes)

theorem not_completed_iff {retryOptions : RetryOptions} {statusCode : StatusCode} :
    ¬ Completed retryOptions statusCode ↔ IsTransient retryOptions statusCode := by
  cases statusCode with
  | code n =>
    unfold Completed IsTransient transientStatusCodes
    rw [not_or, not_not, not_le]
    simp only [List.mem_append, List.mem_cons, List.not_mem_nil, or_false, StatusCode.code.injEq,
      exists_eq_left', or_assoc]
  | name _ =>
    refine iff_of_false (fun h => h trivial) ?_
    rintro ⟨n, hn, -⟩
    cases hn

/-- The operation is done and has a response that is a transient failure. -/
def Transient (retryOptions : RetryOptions)
    (outcome : Except Rejection CosmosOperationResponse) : Prop :=
  ∃ r, outcome = .ok r ∧ IsTransient retryOptions r.statusCode

/-- What `tryExecuteOperation` promises for these outcomes and this clock, about what it
called and how it ended. Before the time `k` there were transient failures in time only. -/
structure Executed (retryOptions : RetryOptions)
    (outcomes : ℕ → Except Rejection CosmosOperationResponse)
    (clock : Clock retryOptions.intervalMilliseconds) (calls : List ExecutionStep)
    (out : Except ExecutionError (Option CosmosOperationResponse)) : Prop where
  returns : ∀ k r, outcomes k = .ok r → ¬ IsTransient retryOptions r.statusCode →
    (∀ j < k, Transient retryOptions (outcomes j) ∧ ¬ PastDeadline clock j) →
      out = .ok (some r) ∧ calls.count .operation = k + 1
  wraps : ∀ k message, outcomes k = .error (.error message) →
    (∀ j < k, Transient retryOptions (outcomes j) ∧ ¬ PastDeadline clock j) →
      out = .error (.vError message "An error occurred while executing storage operation") ∧
        calls.count .operation = k + 1
  inspects : ∀ k inspected, outcomes k = .error (.value inspected) →
    (∀ j < k, Transient retryOptions (outcomes j) ∧ ¬ PastDeadline clock j) →
      out = .error (.reason inspected) ∧ calls.count .operation = k + 1
  timesOut : ∀ k r, outcomes k = .ok r → IsTransient retryOptions r.statusCode →
    PastDeadline clock k →
    (∀ j < k, Transient retryOptions (outcomes j) ∧ ¬ PastDeadline clock j) →
      out = .error (.response r) ∧ calls.count .operation = k + 1
  /-- One of them is the case. -/
  ends : ∃ k, (Transient retryOptions (outcomes k) → PastDeadline clock k) ∧
    ∀ j < k, Transient retryOptions (outcomes j) ∧ ¬ PastDeadline clock j
  completed : ∀ r, out = .ok r → ∃ response, r = some response ∧
    ¬ IsTransient retryOptions response.statusCode
  bounded : calls.count .operation ≤
    ⌊retryOptions.timeoutMilliseconds / retryOptions.intervalMilliseconds⌋₊ + 2

section Loop

variable {retryOptions : RetryOptions} {outcomes : ℕ → Except Rejection CosmosOperationResponse}
  {clock : Clock retryOptions.intervalMilliseconds} {k fuel : ℕ}

/-- The loop ends at what is no transient failure. -/
abbrev EndsWith (outcomes : ℕ → Except Rejection CosmosOperationResponse)
    (clock : Clock retryOptions.intervalMilliseconds) (k : ℕ) : Prop :=
  EndsAt (fun i => ¬ Transient retryOptions (outcomes i)) (PastDeadline clock) k

/-- What a last outcome leaves the loop with. -/
def leaveWith (retryOptions : RetryOptions) :
    Except Rejection CosmosOperationResponse → Except ExecutionError CosmosOperationResponse
  | .error e => .error (customError e)
  | .ok r => if Completed retryOptions r.statusCode then .ok r else .error (.response r)

/-- The last turn does the operation once and leaves the loop. -/
theorem execute_last (h : EndsWith outcomes clock k) :
    (executeBy clock).run (executedInOrder outcomes clock) k =
        ((leaveWith retryOptions (outcomes k)).map fun r => some (.inr r), k + 1) ∧
      ((executeBy clock).ops (executedInOrder outcomes clock) k).count .operation = 1 := by
  rcases houtcome : outcomes k with e | r
  · obtain ⟨hrun, hops⟩ := @execute_rejection retryOptions outcomes clock k e houtcome
    exact ⟨hrun, by rw [hops]; rfl⟩
  · rw [leaveWith]
    by_cases hcompleted : Completed retryOptions r.statusCode
    · obtain ⟨hrun, hops⟩ := @execute_completed retryOptions outcomes clock k r houtcome hcompleted
      rw [if_pos hcompleted]
      exact ⟨hrun, by rw [hops]; rfl⟩
    · have hlate : PastDeadline clock k :=
        h.ends.resolve_left (not_not.mpr ⟨r, houtcome, not_completed_iff.mp hcompleted⟩)
      obtain ⟨hrun, hops⟩ := execute_late houtcome hcompleted hlate
      rw [if_neg hcompleted]
      exact ⟨hrun, by rw [hops]; rfl⟩

/-- Every turn does the operation once. -/
theorem count_execute (h : EndsWith outcomes clock k) {i : ℕ} (hi : i < k + 1) :
    ((executeBy clock).ops (executedInOrder outcomes clock) i).count .operation = 1 := by
  rcases Nat.lt_succ_iff_lt_or_eq.mp hi with hi | rfl
  · obtain ⟨r, houtcome, htransient⟩ := not_not.mp (h.goes i hi).1
    rw [(execute_goes houtcome (not_completed_iff.mpr htransient) (h.goes i hi).2).2]
    rfl
  · exact (execute_last h).2

/-- The run, told by the time it ends at. -/
theorem tryExecuteOperation_of_endsWith (h : EndsWith outcomes clock k) (hfuel : k < fuel) :
    ((tryExecuteOperation fuel retryOptions).run (executedInOrder outcomes clock) 0).1 =
        (leaveWith retryOptions (outcomes k)).map some ∧
      ((tryExecuteOperation fuel retryOptions).ops (executedInOrder outcomes clock) 0).count
        .operation = k + 1 := by
  have hgoes : ∀ i < k, (executeBy clock).run (executedInOrder outcomes clock) i =
      (.ok (some (.inl ())), i + 1) := by
    intro i hi
    obtain ⟨r, houtcome, htransient⟩ := not_not.mp (h.goes i hi).1
    exact (execute_goes houtcome (not_completed_iff.mpr htransient) (h.goes i hi).2).1
  obtain ⟨hrun, hops⟩ := @Program.iterate_of_turns _ _ _ _ _ _ (executedInOrder outcomes clock)
    (fun _ => executeBy clock) (fun _ => ()) (fun i => i) k _ _ hgoes (execute_last h).1 fuel hfuel
  have hcalls : (tryExecuteOperation fuel retryOptions).ops (executedInOrder outcomes clock) 0 =
      [.now] ++ _ := congrArg ([ExecutionStep.now] ++ ·) hops
  refine ⟨congrArg Prod.fst hrun, ?_⟩
  rw [hcalls, List.count_append, Program.count_flatMap_range fun i hi => count_execute h hi]
  simp

/-- A time before which there were transient failures in time only, and which is none, is where
the loop ends. -/
theorem endsWith_of_before (hends : Transient retryOptions (outcomes k) → PastDeadline clock k)
    (hbefore : ∀ j < k, Transient retryOptions (outcomes j) ∧ ¬ PastDeadline clock j) :
    EndsWith outcomes clock k :=
  ⟨(em (Transient retryOptions (outcomes k))).symm.imp_right hends,
    fun j hj => ⟨not_not.mpr (hbefore j hj).1, (hbefore j hj).2⟩⟩

theorem not_transient_of_completed {r : CosmosOperationResponse} (h : outcomes k = .ok r)
    (hcompleted : Completed retryOptions r.statusCode) : ¬ Transient retryOptions (outcomes k) := by
  rintro ⟨r', hr', htransient⟩
  rw [h] at hr'
  rw [← Except.ok.inj hr'] at htransient
  exact not_completed_iff.mpr htransient hcompleted

theorem not_transient_of_error {e : Rejection} (h : outcomes k = .error e) :
    ¬ Transient retryOptions (outcomes k) := by
  rintro ⟨r, hr, -⟩
  rw [h] at hr
  cases hr

/-- **The storage retry loop**: the first response that is no transient failure is returned,
an error is wrapped and any other rejection inspected, and a transient failure past the deadline
is rejected with, whichever comes first. The operation is done at most
`⌊timeout / interval⌋ + 2` times. -/
theorem tryExecuteOperation_executed (hinterval : 0 < retryOptions.intervalMilliseconds)
    (hfuel : ⌊retryOptions.timeoutMilliseconds / retryOptions.intervalMilliseconds⌋₊ + 1 < fuel) :
    Executed retryOptions outcomes clock
      ((tryExecuteOperation fuel retryOptions).ops (executedInOrder outcomes clock) 0)
      ((tryExecuteOperation fuel retryOptions).run (executedInOrder outcomes clock) 0).1 := by
  obtain ⟨k, hk, hends⟩ := clock.exists_endsAt retryOptions.timeoutMilliseconds
    (fun i => ¬ Transient retryOptions (outcomes i)) hinterval
  have hbelow : k < fuel := by omega
  -- there is only one time of which the first four can be told
  have hthere : ∀ {k'}, (Transient retryOptions (outcomes k') → PastDeadline clock k') →
      (∀ j < k', Transient retryOptions (outcomes j) ∧ ¬ PastDeadline clock j) →
      EndsWith outcomes clock k' ∧ k' < fuel := by
    intro k' hends' hbefore
    have hat := endsWith_of_before hends' hbefore
    exact ⟨hat, by rwa [hends.unique hat]⟩
  have hrejects : ∀ {k'} {e : Rejection}, outcomes k' = .error e →
      (∀ j < k', Transient retryOptions (outcomes j) ∧ ¬ PastDeadline clock j) →
      ((tryExecuteOperation fuel retryOptions).run (executedInOrder outcomes clock) 0).1 =
          .error (customError e) ∧
        ((tryExecuteOperation fuel retryOptions).ops (executedInOrder outcomes clock) 0).count
          .operation = k' + 1 := by
    intro k' e he hbefore
    obtain ⟨hat, hlt⟩ := hthere (fun h => absurd h (not_transient_of_error he)) hbefore
    obtain ⟨hrun, hcount⟩ := tryExecuteOperation_of_endsWith hat hlt
    rw [hrun, hcount, he]
    exact ⟨rfl, rfl⟩
  refine ⟨fun k' r hr hcompleted hbefore => ?_, fun k' message he hbefore => hrejects he hbefore,
    fun k' inspected he hbefore => hrejects he hbefore,
    fun k' r hr htransient hlate hbefore => ?_, ?_, fun out hout => ?_, ?_⟩
  · rw [← not_completed_iff, not_not] at hcompleted
    obtain ⟨hat, hlt⟩ := hthere (fun h => absurd h (not_transient_of_completed hr hcompleted))
      hbefore
    obtain ⟨hrun, hcount⟩ := tryExecuteOperation_of_endsWith hat hlt
    rw [hrun, hcount, hr, leaveWith, if_pos hcompleted]
    exact ⟨rfl, rfl⟩
  · obtain ⟨hat, hlt⟩ := hthere (fun _ => hlate) hbefore
    obtain ⟨hrun, hcount⟩ := tryExecuteOperation_of_endsWith hat hlt
    rw [hrun, hcount, hr, leaveWith, if_neg (not_completed_iff.mpr htransient)]
    exact ⟨rfl, rfl⟩
  · exact ⟨k, fun ht => hends.ends.resolve_left (not_not.mpr ht),
      fun j hj => ⟨not_not.mp (hends.goes j hj).1, (hends.goes j hj).2⟩⟩
  · rw [(tryExecuteOperation_of_endsWith hends hbelow).1] at hout
    rcases houtcome : outcomes k with e | r
    · rw [houtcome] at hout
      cases hout
    · rw [houtcome, leaveWith] at hout
      by_cases hcompleted : Completed retryOptions r.statusCode
      · rw [if_pos hcompleted] at hout
        exact ⟨r, (Except.ok.inj hout).symm, fun h => not_completed_iff.mpr h hcompleted⟩
      · rw [if_neg hcompleted] at hout
        cases hout
  · rw [(tryExecuteOperation_of_endsWith hends hbelow).2]
    omega

/-- A clock that shows the time of the pauses alone. -/
def exactClock (pause : ℚ) : Clock pause where
  start := 0
  time := fun k => k * pause
  start_le := by norm_num
  advances := fun k => by
    push_cast
    linarith

/-- A precondition that fails, a server that fails, and a document. -/
def failsTwice (i : ℕ) : Except Rejection CosmosOperationResponse :=
  .ok { item := .undefined, response := .undefined,
        statusCode := .code (if i = 0 then 412 else if i = 1 then 500 else 200) }

theorem tryExecuteOperation_executed_default :
    (tryExecuteOperation 33).ops (executedInOrder failsTwice (exactClock 500)) 0 =
        [.now, .operation, .now, .wait 500, .operation, .now, .wait 500, .operation] ∧
      Executed .default failsTwice (exactClock 500)
        ((tryExecuteOperation 33).ops (executedInOrder failsTwice (exactClock 500)) 0)
        ((tryExecuteOperation 33).run (executedInOrder failsTwice (exactClock 500)) 0).1 := by
  have hinterval : 0 < RetryOptions.default.intervalMilliseconds := by
    norm_num [RetryOptions.default]
  have hfuel : ⌊RetryOptions.default.timeoutMilliseconds /
      RetryOptions.default.intervalMilliseconds⌋₊ + 1 < 33 := by
    norm_num [RetryOptions.default]
  constructor
  · decide +kernel
  · exact @tryExecuteOperation_executed .default failsTwice (exactClock 500) 33 hinterval hfuel

end Loop

end WebInsights.Cosmos
