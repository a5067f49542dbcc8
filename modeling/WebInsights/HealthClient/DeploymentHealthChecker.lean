/-
`DeploymentHealthChecker.run`: a deployment passes once a health report says so, and fails
when none did before the timeout.

A report that cannot be retrieved leaves the health status of the evaluation before, which
was no pass. So an evaluation is settled exactly by a report that passes, whatever the ones
before it were, and the loop is one with a deadline (`Effect/Deadline.lean`): it ends at the
first evaluation that passes or is late, and how it ends says which (`run_gate`).
-/
import WebInsights.Cosmos.World
import WebInsights.Effect.Deadline
import WebInsights.Effect.Loop
import WebInsights.Js.Json

set_option autoImplicit false

namespace WebInsights.HealthClient

open Cosmos (JsError property)
open Effect Js

/-! ## The checker -/

inductive CheckerOperation where
  | waitFunc (timeoutMilliseconds : ℚ)
  | getCurrentTime
  | getHealthReport (releaseId : String)
  deriving DecidableEq

abbrev CheckerOperation.Result : CheckerOperation → Type
  | .waitFunc _ => Unit
  | .getCurrentTime => ℚ
  | .getHealthReport _ => Except JsError Val

abbrev Checks (α : Type) : Type := Program CheckerOperation CheckerOperation.Result JsError α

def minutesToMilliseconds (minutes : ℚ) : ℚ := minutes * 60000

def timedOut : JsError := .error "Functional tests result validation timed out."

/-- `response.body.healthStatus` of a response with the status 200. -/
def healthStatusOf (response : Val) : Except JsError Val := do
  let statusCode ← property response "statusCode"
  if statusCode ≠ .num 200 then
    let details := [("statusCode", statusCode), ("statusMessage", response.get "statusMessage"),
      ("body", response.get "body")]
    throw (.error ((stringify (.obj details)).getD ""))
  property (← property response "body") "healthStatus"

def isTestTimeout (startTime testTimeoutInMinutes : ℚ) : Checks Bool := do
  let currentTime ← Program.perform CheckerOperation.getCurrentTime
  pure (testTimeoutInMinutes * 60000 < currentTime - startTime)

/-- The `try` and `catch` of an evaluation, which is what assigns `healthStatus`. -/
def retrieve (releaseId : String) (healthStatus : Val) : Checks Val :=
  tryCatch
    (do
      let response ← Program.perform (CheckerOperation.getHealthReport releaseId)
      Program.ofExcept (response >>= healthStatusOf))
    fun _ => pure healthStatus

/-- The body of the loop, with `healthStatus`. -/
def evaluate (testTimeoutInMinutes evaluationIntervalInMinutes : ℚ) (releaseId : String)
    (startTime : ℚ) (healthStatus : Val) : Checks (Option (Val ⊕ Unit)) := do
  let healthStatus ← retrieve releaseId healthStatus
  if healthStatus ≠ .str "pass" then
    if ← isTestTimeout startTime testTimeoutInMinutes then
      throw timedOut
    Program.perform
      (CheckerOperation.waitFunc (minutesToMilliseconds evaluationIntervalInMinutes))
    pure (some (.inl healthStatus))
  else
    pure (some (.inr ()))

/-- `run`, with at most `fuel` evaluations. -/
def run (fuel : ℕ) (testTimeoutInMinutes waitTimeBeforeEvaluationInMinutes
    evaluationIntervalInMinutes : ℚ) (releaseId : String) : Checks (Option Unit) := do
  Program.perform
    (CheckerOperation.waitFunc (minutesToMilliseconds waitTimeBeforeEvaluationInMinutes))
  let startTime ← Program.perform CheckerOperation.getCurrentTime
  Program.iterate
    (evaluate testTimeoutInMinutes evaluationIntervalInMinutes releaseId startTime) fuel .undefined

/-! ## The evaluations -/

/-- The outcome of `getHealthReport` is a response with the status 200 and the health status
`pass`. -/
def Passes (outcome : Except JsError Val) : Prop :=
  ∃ response, outcome = .ok response ∧ response.get "statusCode" = .num 200 ∧
    (response.get "body").get "healthStatus" = .str "pass"

/-- The reports are retrieved one after the other, and the clock is looked at at the start
and after an evaluation. The state counts the evaluations. -/
def inOrder {pause : ℚ} (outcomes : ℕ → Except JsError Val) (clock : Clock pause) :
    Handler CheckerOperation CheckerOperation.Result ℕ
  | .waitFunc _, i => ((), i)
  | .getCurrentTime, 0 => (clock.start, 0)
  | .getCurrentTime, i + 1 => (clock.time i, i + 1)
  | .getHealthReport _, i => (outcomes i, i + 1)

/-- `healthStatus` before the evaluation `i`, counted from 0. -/
def healthStatusAt (outcomes : ℕ → Except JsError Val) : ℕ → Val
  | 0 => .undefined
  | i + 1 => match outcomes i >>= healthStatusOf with
    | .ok healthStatus => healthStatus
    | .error _ => healthStatusAt outcomes i

theorem bind_eq_ok {ε α β : Type} {x : Except ε α} {f : α → Except ε β} {b : β} :
    (x >>= f) = .ok b ↔ ∃ a, x = .ok a ∧ f a = .ok b := by
  cases x with
  | error e => exact ⟨nofun, nofun⟩
  | ok a => exact ⟨fun h => ⟨a, rfl, h⟩, fun ⟨_, ha, h⟩ => by cases ha; exact h⟩

/-- A property that is there was read of a value that has properties. -/
theorem property_of_get {v r : Val} {k : String} (h : v.get k = r) (hr : r ≠ .undefined) :
    property v k = .ok r := by
  subst h
  refine Cosmos.property_of_ne ?_ ?_
  · rintro rfl
    exact hr rfl
  · rintro rfl
    exact hr rfl

/-- What is read of the response of an evaluation is a pass exactly if it passes. -/
theorem bind_healthStatusOf_eq_pass {outcome : Except JsError Val} :
    (outcome >>= healthStatusOf) = .ok (.str "pass") ↔ Passes outcome := by
  constructor
  · intro h
    obtain ⟨response, rfl, hread⟩ := bind_eq_ok.mp h
    obtain ⟨statusCode, hstatus, hrest⟩ := bind_eq_ok.mp hread
    by_cases hok : statusCode = .num 200
    · obtain ⟨body, hbody, hpass⟩ : ∃ body, property response "body" = .ok body ∧
          property body "healthStatus" = .ok (.str "pass") := by
        rw [if_neg (not_not.mpr hok)] at hrest
        exact bind_eq_ok.mp hrest
      refine ⟨response, rfl, (Cosmos.property_eq_ok hstatus).trans hok, ?_⟩
      rw [Cosmos.property_eq_ok hbody]
      exact Cosmos.property_eq_ok hpass
    · rw [if_pos hok] at hrest
      cases hrest
  · rintro ⟨response, rfl, hstatus, hpass⟩
    have hread : property (response.get "body") "healthStatus" = .ok (.str "pass") :=
      property_of_get hpass (Val.str_ne_undefined _)
    have hbody : property response "body" = .ok (response.get "body") := by
      refine property_of_get rfl ?_
      intro hundefined
      rw [hundefined] at hread
      cases hread
    have hcode : property response "statusCode" = .ok (.num 200) :=
      property_of_get hstatus nofun
    refine bind_eq_ok.mpr ⟨response, rfl, bind_eq_ok.mpr ⟨_, hcode, ?_⟩⟩
    rw [if_neg (not_not.mpr rfl)]
    exact bind_eq_ok.mpr ⟨_, hbody, hread⟩

section Evaluations

variable {T W I : ℚ} {releaseId : String} {outcomes : ℕ → Except JsError Val}
  {clock : Clock (minutesToMilliseconds I)} {k : ℕ}

/-- Before the first pass the health status is none. -/
theorem healthStatusAt_ne_pass (h : ∀ i < k, ¬ Passes (outcomes i)) :
    healthStatusAt outcomes k ≠ .str "pass" := by
  induction k with
  | zero => exact (Val.str_ne_undefined "pass").symm
  | succ k ih =>
    rw [healthStatusAt]
    rcases hstatus : outcomes k >>= healthStatusOf with e | healthStatus
    · exact ih fun i hi => h i (by omega)
    · rintro rfl
      exact h k (by omega) (bind_healthStatusOf_eq_pass.mp hstatus)

/-- An evaluation leaves a pass exactly if it is one. -/
theorem healthStatusAt_succ_eq_pass (h : ∀ i < k, ¬ Passes (outcomes i)) :
    healthStatusAt outcomes (k + 1) = .str "pass" ↔ Passes (outcomes k) := by
  constructor
  · intro hpass
    by_contra hnot
    refine healthStatusAt_ne_pass (fun i hi => ?_) hpass
    rcases Nat.lt_succ_iff_lt_or_eq.mp hi with hi | rfl
    · exact h i hi
    · exact hnot
  · intro hpass
    rw [healthStatusAt, bind_healthStatusOf_eq_pass.mpr hpass]

/-- The `try` of the evaluation `k` retrieves one report. -/
theorem run_retrieve : (retrieve releaseId (healthStatusAt outcomes k)).run
      (inOrder outcomes clock) k = (.ok (healthStatusAt outcomes (k + 1)), k + 1) ∧
    (retrieve releaseId (healthStatusAt outcomes k)).ops (inOrder outcomes clock) k =
      [.getHealthReport releaseId] := by
  have hcall : retrieve releaseId (healthStatusAt outcomes k) =
      .call (.getHealthReport releaseId) fun response =>
        tryCatch (Program.ofExcept (response >>= healthStatusOf))
          fun _ => pure (healthStatusAt outcomes k) := rfl
  rw [hcall, Program.run_call, Program.ops_call, healthStatusAt]
  simp only [inOrder]
  rcases outcomes k >>= healthStatusOf with e | healthStatus
  · exact ⟨rfl, rfl⟩
  · exact ⟨rfl, rfl⟩

/-- The loop body in the evaluation `k`. -/
abbrev evaluateAt (T I : ℚ) (releaseId : String) (outcomes : ℕ → Except JsError Val)
    (clock : Clock (minutesToMilliseconds I)) (k : ℕ) : Checks (Option (Val ⊕ Unit)) :=
  evaluate T I releaseId clock.start (healthStatusAt outcomes k)

/-- The evaluation `k` comes after the deadline. -/
abbrev Late (T : ℚ) (clock : Clock (minutesToMilliseconds I)) (k : ℕ) : Prop :=
  clock.Late (T * 60000) k

theorem run_isTestTimeout : (isTestTimeout clock.start T).run (inOrder outcomes clock) (k + 1) =
      (.ok (decide (T * 60000 < clock.time k - clock.start)), k + 1) ∧
    (isTestTimeout clock.start T).ops (inOrder outcomes clock) (k + 1) = [.getCurrentTime] :=
  ⟨rfl, rfl⟩

/-- An evaluation that passes is the last one. -/
theorem evaluate_pass (hbefore : ∀ i < k, ¬ Passes (outcomes i)) (hpass : Passes (outcomes k)) :
    (evaluateAt T I releaseId outcomes clock k).run (inOrder outcomes clock) k =
        (.ok (some (.inr ())), k + 1) ∧
      (evaluateAt T I releaseId outcomes clock k).ops (inOrder outcomes clock) k =
        [.getHealthReport releaseId] := by
  have hstatus := not_not.mpr ((healthStatusAt_succ_eq_pass hbefore).mpr hpass)
  rw [evaluateAt, evaluate, Program.run_bind, Program.ops_bind, run_retrieve.1, run_retrieve.2]
  simp only [if_neg hstatus]
  exact ⟨rfl, rfl⟩

/-- So is one that does not and is late. -/
theorem evaluate_late (hbefore : ∀ i < k + 1, ¬ Passes (outcomes i)) (hlate : Late T clock k) :
    (evaluateAt T I releaseId outcomes clock k).run (inOrder outcomes clock) k =
        (.error timedOut, k + 1) ∧
      (evaluateAt T I releaseId outcomes clock k).ops (inOrder outcomes clock) k =
        [.getHealthReport releaseId, .getCurrentTime] := by
  have htimeout : decide (T * 60000 < clock.time k - clock.start) = true := decide_eq_true hlate
  rw [evaluateAt, evaluate, Program.run_bind, Program.ops_bind, run_retrieve.1, run_retrieve.2]
  simp only [if_pos (healthStatusAt_ne_pass hbefore), Program.run_bind, Program.ops_bind,
    run_isTestTimeout.1, run_isTestTimeout.2, htimeout]
  exact ⟨rfl, rfl⟩

/-- After any other one there is a pause. -/
theorem evaluate_goes (hbefore : ∀ i < k + 1, ¬ Passes (outcomes i)) (hlate : ¬ Late T clock k) :
    (evaluateAt T I releaseId outcomes clock k).run (inOrder outcomes clock) k =
        (.ok (some (.inl (healthStatusAt outcomes (k + 1)))), k + 1) ∧
      (evaluateAt T I releaseId outcomes clock k).ops (inOrder outcomes clock) k =
        [.getHealthReport releaseId, .getCurrentTime, .waitFunc (minutesToMilliseconds I)] := by
  have htimeout : decide (T * 60000 < clock.time k - clock.start) = false := decide_eq_false hlate
  rw [evaluateAt, evaluate, Program.run_bind, Program.ops_bind, run_retrieve.1, run_retrieve.2]
  simp only [if_pos (healthStatusAt_ne_pass hbefore), Program.run_bind, Program.ops_bind,
    run_isTestTimeout.1, run_isTestTimeout.2, htimeout]
  exact ⟨rfl, rfl⟩

end Evaluations

/-! ## The gate -/

/-- The evaluation `k` does not pass and comes after the deadline. -/
def TimedOut {I : ℚ} (T : ℚ) (outcomes : ℕ → Except JsError Val)
    (clock : Clock (minutesToMilliseconds I)) (k : ℕ) : Prop :=
  ¬ Passes (outcomes k) ∧ Late T clock k

/-- What `run` promises for these outcomes and this clock, about what it called and how it
ended. -/
structure Gate {I : ℚ} (T : ℚ) (releaseId : String) (outcomes : ℕ → Except JsError Val)
    (clock : Clock (minutesToMilliseconds I)) (calls : List CheckerOperation)
    (out : Except JsError (Option Unit)) : Prop where
  resolves : out = .ok (some ()) ↔
    ∃ k, Passes (outcomes k) ∧ ∀ j < k, ¬ TimedOut T outcomes clock j
  stops : ∀ k, Passes (outcomes k) → (∀ j < k, ¬ Passes (outcomes j)) →
    (∀ j < k, ¬ TimedOut T outcomes clock j) → calls.count (.getHealthReport releaseId) = k + 1
  rejects : out ≠ .ok (some ()) → out = .error timedOut ∧
    ∃ k, TimedOut T outcomes clock k ∧ (∀ j < k, ¬ TimedOut T outcomes clock j) ∧
      calls.count (.getHealthReport releaseId) = k + 1
  bounded : calls.count (.getHealthReport releaseId) ≤ ⌊T / I⌋₊ + 2
  /-- No failed retrieval counts as a pass. -/
  passed : out = .ok (some ()) →
    Passes (outcomes (calls.count (.getHealthReport releaseId) - 1))

section Gate

variable {T W I : ℚ} {releaseId : String} {outcomes : ℕ → Except JsError Val}
  {clock : Clock (minutesToMilliseconds I)} {k fuel : ℕ}

/-- The evaluations are settled by a pass. -/
abbrev EndsWith (T : ℚ) (outcomes : ℕ → Except JsError Val)
    (clock : Clock (minutesToMilliseconds I)) (k : ℕ) : Prop :=
  EndsAt (fun i => Passes (outcomes i)) (Late T clock) k

theorem EndsWith.not_passes (h : EndsWith T outcomes clock k) {i : ℕ} (hi : i < k) :
    ∀ j < i + 1, ¬ Passes (outcomes j) := fun j hj => (h.goes j (by omega)).1

/-- If the last evaluation does not pass, none did. -/
theorem EndsWith.not_passes_last (h : EndsWith T outcomes clock k) (hpass : ¬ Passes (outcomes k)) :
    ∀ j < k + 1, ¬ Passes (outcomes j) := by
  intro j hj
  rcases Nat.lt_succ_iff_lt_or_eq.mp hj with hj | rfl
  · exact (h.goes j hj).1
  · exact hpass

theorem EndsWith.late (h : EndsWith T outcomes clock k) (hpass : ¬ Passes (outcomes k)) :
    Late T clock k := h.ends.resolve_left hpass

/-- How the last evaluation leaves the loop. -/
theorem evaluate_last (h : EndsWith T outcomes clock k) :
    ∃ out : Except JsError Unit,
      (evaluateAt T I releaseId outcomes clock k).run (inOrder outcomes clock) k =
        (out.map fun a => some (.inr a), k + 1) ∧
      ((Passes (outcomes k) ∧ out = .ok ()) ∨ (¬ Passes (outcomes k) ∧ out = .error timedOut)) := by
  by_cases hpass : Passes (outcomes k)
  · exact ⟨.ok (), (evaluate_pass (fun j hj => (h.goes j hj).1) hpass).1, Or.inl ⟨hpass, rfl⟩⟩
  · exact ⟨.error timedOut, (evaluate_late (h.not_passes_last hpass) (h.late hpass)).1,
      Or.inr ⟨hpass, rfl⟩⟩

/-- Every evaluation up to the last one retrieves one report. -/
theorem count_evaluate (h : EndsWith T outcomes clock k) {i : ℕ} (hi : i < k + 1) :
    ((evaluateAt T I releaseId outcomes clock i).ops (inOrder outcomes clock) i).count
      (.getHealthReport releaseId) = 1 := by
  rcases Nat.lt_succ_iff_lt_or_eq.mp hi with hi | rfl
  · rw [(evaluate_goes (h.not_passes hi) (h.goes i hi).2).2]
    simp
  · by_cases hpass : Passes (outcomes i)
    · rw [(evaluate_pass (fun j hj => (h.goes j hj).1) hpass).2]
      simp
    · rw [(evaluate_late (h.not_passes_last hpass) (h.late hpass)).2]
      simp

/-- The run, told by the evaluation it ends at. -/
theorem run_of_endsWith (h : EndsWith T outcomes clock k) (hfuel : k < fuel) :
    ((Passes (outcomes k) ∧
        ((run fuel T W I releaseId).run (inOrder outcomes clock) 0).1 = .ok (some ())) ∨
      (TimedOut T outcomes clock k ∧
        ((run fuel T W I releaseId).run (inOrder outcomes clock) 0).1 = .error timedOut)) ∧
      ((run fuel T W I releaseId).ops (inOrder outcomes clock) 0).count
        (.getHealthReport releaseId) = k + 1 := by
  obtain ⟨out, hlast, hout⟩ := @evaluate_last T I releaseId outcomes clock k h
  -- the turns before the last one go on, and the last one ends the loop
  have hgoes : ∀ i < k, (evaluate T I releaseId clock.start (healthStatusAt outcomes i)).run
      (inOrder outcomes clock) i =
        (.ok (some (.inl (healthStatusAt outcomes (i + 1)))), i + 1) := fun i hi =>
    (evaluate_goes (h.not_passes hi) (h.goes i hi).2).1
  obtain ⟨hrun, hops⟩ := Program.iterate_of_turns (inOrder outcomes clock) hgoes hlast hfuel
  have hloop : ((run fuel T W I releaseId).run (inOrder outcomes clock) 0).1 = out.map some :=
    congrArg Prod.fst hrun
  have hcalls : (run fuel T W I releaseId).ops (inOrder outcomes clock) 0 =
      [.waitFunc (minutesToMilliseconds W), .getCurrentTime] ++ _ :=
    congrArg ([CheckerOperation.waitFunc (minutesToMilliseconds W), .getCurrentTime] ++ ·) hops
  constructor
  · rw [hloop]
    rcases hout with ⟨hpass, rfl⟩ | ⟨hpass, rfl⟩
    · exact Or.inl ⟨hpass, rfl⟩
    · exact Or.inr ⟨⟨hpass, h.late hpass⟩, rfl⟩
  · rw [hcalls, List.count_append, Program.count_flatMap_range fun i hi => count_evaluate h hi]
    simp

/-- **The deployment gate**: `run` resolves exactly when an evaluation passes before one that
timed out, at the first that does, and else rejects at the first one that timed out. It ends,
after at most `⌊T / I⌋ + 2` evaluations. -/
theorem run_gate (hI : 0 < I) (clock : Clock (minutesToMilliseconds I))
    (outcomes : ℕ → Except JsError Val) (hfuel : ⌊T / I⌋₊ + 1 < fuel) :
    Gate T releaseId outcomes clock
      ((run fuel T W I releaseId).ops (inOrder outcomes clock) 0)
      ((run fuel T W I releaseId).run (inOrder outcomes clock) 0).1 := by
  have hpause : 0 < minutesToMilliseconds I := mul_pos hI (by norm_num)
  have hbound : T * 60000 / minutesToMilliseconds I = T / I :=
    mul_div_mul_right T I (by norm_num)
  -- the loop ends at the first evaluation that passes or comes after the timeout
  obtain ⟨k, hk, hends⟩ :=
    clock.exists_endsAt (T * 60000) (fun i => Passes (outcomes i)) hpause
  rw [hbound] at hk
  obtain ⟨hout, hcount⟩ := @run_of_endsWith T W I releaseId outcomes clock k fuel hends (by omega)
  have hgoes : ∀ j < k, ¬ TimedOut T outcomes clock j := fun j hj h => (hends.goes j hj).2 h.2
  refine ⟨⟨fun h => ?_, ?_⟩, ?_, fun h => ?_, ?_, fun h => ?_⟩
  · rcases hout with ⟨hpass, -⟩ | ⟨-, herror⟩
    · exact ⟨k, hpass, hgoes⟩
    · rw [herror] at h
      cases h
  · rintro ⟨k', hpass, hbefore⟩
    rcases hout with ⟨-, hok⟩ | ⟨htimedOut, -⟩
    · exact hok
    · -- it would have ended at the pass, or at the timeout before
      rcases lt_trichotomy k' k with hlt | rfl | hlt
      · exact absurd hpass (hends.goes k' hlt).1
      · exact absurd hpass htimedOut.1
      · exact absurd htimedOut (hbefore k hlt)
  · intro k' hpass hfirst hbefore
    have hends' : EndsWith T outcomes clock k' :=
      ⟨Or.inl hpass, fun j hj => ⟨hfirst j hj, fun hlate => hbefore j hj ⟨hfirst j hj, hlate⟩⟩⟩
    rw [hcount, hends'.unique hends]
  · rcases hout with ⟨-, hok⟩ | ⟨htimedOut, herror⟩
    · exact absurd hok h
    · exact ⟨herror, k, htimedOut, hgoes, hcount⟩
  · rw [hcount]
    omega
  · rcases hout with ⟨hpass, -⟩ | ⟨-, herror⟩
    · rwa [hcount]
    · rw [herror] at h
      cases h

/-- A minute between the evaluations, and a clock that is exact. -/
def everyMinute : Clock (minutesToMilliseconds 1) where
  start := 0
  time := fun k => k * 60000
  start_le := by norm_num
  advances := fun k => by
    rw [minutesToMilliseconds]
    push_cast
    linarith

/-- The first report is not there, the second evaluation warns and the later ones pass. -/
def warnsThenPasses (i : ℕ) : Except JsError Val :=
  if i = 0 then .ok (.obj [("statusCode", .num 404)])
  else .ok (.obj [("statusCode", .num 200), ("body", .obj [("healthStatus",
    .str (if i = 1 then "warn" else "pass"))])])

theorem run_gate_everyMinute :
    (run 7 5 0 1 "1").ops (inOrder warnsThenPasses everyMinute) 0 =
        [.waitFunc 0, .getCurrentTime, .getHealthReport "1", .getCurrentTime, .waitFunc 60000,
          .getHealthReport "1", .getCurrentTime, .waitFunc 60000, .getHealthReport "1"] ∧
      Gate 5 "1" warnsThenPasses everyMinute
        ((run 7 5 0 1 "1").ops (inOrder warnsThenPasses everyMinute) 0)
        ((run 7 5 0 1 "1").run (inOrder warnsThenPasses everyMinute) 0).1 := by
  constructor
  · decide +kernel
  · exact run_gate (by norm_num) everyMinute warnsThenPasses (by norm_num)

end Gate

end WebInsights.HealthClient
