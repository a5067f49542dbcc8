/-
The deployment gate, from the checker to the events in Application Insights.

The checker asks for the health of the release through the client, over a network that loses
requests and responses, and each answer of the service is the report on the events there are.
So a deployment goes through only if the events said, at one of these requests, that the tests
of the release had passed; and it times out only if none of the requests up to then was answered
by the service when they had (`run_deploys`).
-/
import WebInsights.E2eTestRunner.ReleaseReport
import WebInsights.Effect.Simulation
import WebInsights.HealthClient.DeploymentHealthChecker
import WebInsights.StorageApiClient.HealthReports

set_option autoImplicit false

namespace WebInsights.HealthClient

open Cosmos (JsError)
open Common Effect Js Kql StorageApi StorageApiClient

/-! ## What the events say -/

section

variable (releaseId : String)

/-- The run of the tests has results, and all of them are good. -/
structure TestsPassed (log : Log) (runId : Cell) : Prop where
  tested : ∃ e ∈ log.tables "customEvents", TestRunEvent releaseId runId e
  passed : ∀ e ∈ log.tables "customEvents", TestRunEvent releaseId runId e →
    eventProperty e "result" = .text "pass"

/-- So does the run of the availability tests. -/
structure Available (log : Log) (runId : Cell) : Prop where
  measured : ∃ e ∈ log.tables "availabilityResults", AvailabilityEvent releaseId runId e
  available : ∀ e ∈ log.tables "availabilityResults", AvailabilityEvent releaseId runId e →
    e.cell "success" = .number 1

variable (format : TimeFormat)

/-- The run of the last finalizer. A tie between newest events is broken in any way. -/
abbrev LastFinished (log : Log) (runId : Cell) : Prop :=
  LastRun format.text (log.tables "customEvents") (FinalizerEvent releaseId) runId

/-- The run of the last availability result. -/
abbrev LastMeasured (log : Log) (runId : Cell) : Prop :=
  LastRun format.text (log.tables "availabilityResults")
    (fun e => eventProperty e "releaseId" = .text releaseId) runId

/-- The events may say that the release has passed. -/
def MayPass (tests availability : Log) : Prop :=
  (∃ runId, LastFinished releaseId format tests runId ∧ TestsPassed releaseId tests runId) ∧
    ∃ runId, LastMeasured releaseId format availability runId ∧
      Available releaseId availability runId

/-- They say so whatever ties there are. -/
def MustPass (tests availability : Log) : Prop :=
  (∀ runId, LastFinished releaseId format tests runId → TestsPassed releaseId tests runId) ∧
    ∀ runId, LastMeasured releaseId format availability runId →
      Available releaseId availability runId

end

section

variable {format : TimeFormat} {newDate : Val → Val} {tests availability : Log}
  {releaseId : String} {report : HealthReport Val}

/-- A report passes if the runs it is about did. -/
theorem exists_lastMeasured {runId : Cell} {rows results : List Row}
    (h : report.Describes format newDate tests availability releaseId runId rows results) :
    ∃ availabilityRunId, LastMeasured releaseId format availability availabilityRunId ∧
      (report.healthStatus = .pass ↔ TestsPassed releaseId tests runId ∧
        Available releaseId availability availabilityRunId) := by
  obtain ⟨availabilityRunId, hlast, rfl⟩ := h.ofLastResult
  -- the report is about the events of the two runs, and of no other
  have htest : ∀ e, e ∈ rows ↔
      e ∈ tests.tables "customEvents" ∧ TestRunEvent releaseId runId e := by
    intro e
    rw [h.ofRun.mem_iff, List.mem_filter, decide_eq_true_iff]
  have hresult : ∀ e, e ∈ (availability.tables "availabilityResults").filter
        (AvailabilityEvent releaseId availabilityRunId ·) ↔
      e ∈ availability.tables "availabilityResults" ∧
        AvailabilityEvent releaseId availabilityRunId e := by
    intro e
    rw [List.mem_filter, decide_eq_true_iff]
  refine ⟨availabilityRunId, hlast, ?_⟩
  rw [h.pass_iff]
  constructor
  · rintro ⟨htested, hmeasured, hpassed, havailable⟩
    obtain ⟨e, he⟩ := List.exists_mem_of_ne_nil _ htested
    obtain ⟨e', he'⟩ := List.exists_mem_of_ne_nil _ hmeasured
    exact ⟨⟨⟨e, (htest e).mp he⟩, fun e he hrun => hpassed e ((htest e).mpr ⟨he, hrun⟩)⟩,
      ⟨e', (hresult e').mp he'⟩, fun e he hrun => havailable e ((hresult e).mpr ⟨he, hrun⟩)⟩
  · rintro ⟨⟨⟨e, he⟩, hpassed⟩, ⟨e', he'⟩, havailable⟩
    refine ⟨List.ne_nil_of_mem ((htest e).mpr he), List.ne_nil_of_mem ((hresult e').mpr he'),
      fun e he => ?_, fun e he => ?_⟩
    · exact hpassed e ((htest e).mp he).1 ((htest e).mp he).2
    · exact havailable e ((hresult e).mp he).1 ((hresult e).mp he).2

/-- A report that passes is about events that may say so. -/
theorem mayPass_of_pass {runId : Cell} {rows results : List Row}
    (h : report.Describes format newDate tests availability releaseId runId rows results)
    (hpass : report.healthStatus = .pass) : MayPass releaseId format tests availability := by
  obtain ⟨availabilityRunId, hmeasured, hiff⟩ := exists_lastMeasured h
  exact ⟨⟨runId, h.finished, (hiff.mp hpass).1⟩, availabilityRunId, hmeasured, (hiff.mp hpass).2⟩

/-- A report on events that must say so passes. -/
theorem pass_of_mustPass {runId : Cell} {rows results : List Row}
    (h : report.Describes format newDate tests availability releaseId runId rows results)
    (hmust : MustPass releaseId format tests availability) : report.healthStatus = .pass := by
  obtain ⟨availabilityRunId, hmeasured, hiff⟩ := exists_lastMeasured h
  exact hiff.mpr ⟨hmust.1 runId h.finished, hmust.2 availabilityRunId hmeasured⟩

/-- What the checker makes of a report that it is sent. -/
theorem passes_report_iff : Passes (.ok (gotResponse 200 report.toVal.toJson)) ↔
    report.healthStatus = .pass := by
  have hget : report.toVal.toJson.get "healthStatus" = report.healthStatus.toVal.toJson :=
    Val.get_toJsonFields _ _
  have hstatus : (gotResponse 200 report.toVal.toJson).get "statusCode" = .num 200 := by
    exact congrArg Val.num (Nat.cast_ofNat)
  have hbody : (gotResponse 200 report.toVal.toJson).get "body" = report.toVal.toJson := rfl
  constructor
  · rintro ⟨response, hresponse, -, hpass⟩
    obtain rfl := Except.ok.inj hresponse
    rw [hbody, hget] at hpass
    rcases hhealth : report.healthStatus
    · rfl
    all_goals
      rw [hhealth] at hpass
      simp [TestRunResult.toVal, Val.toJson] at hpass
  · intro hhealth
    refine ⟨_, rfl, hstatus, ?_⟩
    rw [hbody, hget, hhealth]
    rfl

theorem not_passes_of_status {status : ℕ} (h : status ≠ 200) (body : Val) :
    ¬ Passes (.ok (gotResponse status body)) := by
  rintro ⟨response, hresponse, hstatus, -⟩
  obtain rfl := Except.ok.inj hresponse
  have hnum : (status : ℚ) = 200 := by
    have hval : Val.num status = .num 200 := hstatus
    simpa using hval
  exact h (by exact_mod_cast hnum)

end

/-! ## The checker over the network -/

/-- What the client throws, which the checker only logs. -/
def thrownByClient : LastError → JsError
  | .undefined => .reason "undefined"
  | .error message => .error message
  | .retryError message => .reason (message.getD "")

section

variable {σ : Type} (texts : ErrorTexts) (client : WebInsightsStorageClient) (course : Course)
  (serve : HttpRequest → σ → Val × σ)

/-- The surroundings of the checker: the client over the network, and the clock. The number
counts the evaluations. -/
def surroundings {pause : ℚ} (clock : Clock pause) :
    Handler CheckerOperation CheckerOperation.Result (Network σ × ℕ)
  | .waitFunc _, s => ((), s)
  | .getCurrentTime, (network, 0) => (clock.start, (network, 0))
  | .getCurrentTime, (network, i + 1) => (clock.time i, (network, i + 1))
  | .getHealthReport releaseId, (network, i) =>
    let result := (Call.getHealthReport (some releaseId)).over texts client course serve network
    (result.1.mapError thrownByClient, (result.2, i + 1))

variable (releaseId : String) (network : Network σ)

/-- The network before an evaluation. -/
def networkAt (i : ℕ) : Network σ :=
  (fun network =>
    ((Call.getHealthReport (some releaseId)).over texts client course serve network).2)^[i] network

theorem networkAt_succ (i : ℕ) :
    networkAt texts client course serve releaseId network (i + 1) =
      ((Call.getHealthReport (some releaseId)).over texts client course serve
        (networkAt texts client course serve releaseId network i)).2 :=
  Function.iterate_succ_apply' _ _ _

/-- The outcome of an evaluation's `getHealthReport`. -/
def outcomeAt (i : ℕ) : Except JsError Val :=
  ((Call.getHealthReport (some releaseId)).over texts client course serve
    (networkAt texts client course serve releaseId network i)).1.mapError thrownByClient

/-- The checker asks for the health of no other release. -/
theorem uses_run {fuel : ℕ} {T W I : ℚ} : (run fuel T W I releaseId).Uses fun op =>
    ∀ asked, op = .getHealthReport asked → asked = releaseId := by
  have hother : ∀ op : CheckerOperation, (∀ asked, op ≠ .getHealthReport asked) →
      ∀ asked, op = .getHealthReport asked → asked = releaseId :=
    fun op hop asked h => absurd h (hop asked)
  have hevaluate : ∀ startTime healthStatus, (evaluate T I releaseId startTime healthStatus).Uses
      fun op => ∀ asked, op = .getHealthReport asked → asked = releaseId := by
    intro startTime healthStatus
    refine Program.uses_bind (Program.uses_tryCatch (Program.uses_bind ?_ fun _ =>
      Program.uses_ofExcept _) fun _ => trivial) fun status => ?_
    · refine (Program.uses_perform _).mpr fun asked h => ?_
      cases h
      rfl
    · split
      · refine Program.uses_bind (Program.uses_bind ((Program.uses_perform _).mpr (hother _ nofun))
          fun _ => trivial) fun late => ?_
        split
        · exact Program.uses_throw _
        · exact Program.uses_bind ((Program.uses_perform _).mpr (hother _ nofun)) fun _ => trivial
      · trivial
  refine Program.uses_bind ((Program.uses_perform _).mpr (hother _ nofun)) fun _ =>
    Program.uses_bind ((Program.uses_perform _).mpr (hother _ nofun)) fun startTime =>
    Program.uses_iterate (hevaluate startTime) fuel _

/-- Under these surroundings the checker runs as it does where the reports come one after
another. -/
theorem run_surroundings {T W I : ℚ} {fuel : ℕ} (clock : Clock (minutesToMilliseconds I)) :
    ((run fuel T W I releaseId).run (surroundings texts client course serve clock)
        (network, 0)).1 =
      ((run fuel T W I releaseId).run
        (inOrder (outcomeAt texts client course serve releaseId network) clock) 0).1 ∧
    (run fuel T W I releaseId).ops (surroundings texts client course serve clock) (network, 0) =
      (run fuel T W I releaseId).ops
        (inOrder (outcomeAt texts client course serve releaseId network) clock) 0 := by
  have halike : Alike (fun op => ∀ asked, op = .getHealthReport asked → asked = releaseId)
      (fun s i => s = (networkAt texts client course serve releaseId network i, i))
      (surroundings texts client course serve clock)
      (inOrder (outcomeAt texts client course serve releaseId network) clock) := by
    rintro op hop s i rfl
    cases op with
    | waitFunc timeoutMilliseconds => exact ⟨rfl, rfl⟩
    | getCurrentTime => cases i <;> exact ⟨rfl, rfl⟩
    | getHealthReport asked =>
      obtain rfl := hop asked rfl
      exact ⟨rfl, Prod.ext (networkAt_succ texts client course serve asked network i).symm rfl⟩
  have hstart : (network, 0) = (networkAt texts client course serve releaseId network 0, 0) := rfl
  obtain ⟨hrun, -, hops⟩ := Program.run_of_alike halike (uses_run releaseId) hstart
  exact ⟨hrun, hops⟩

end

/-! ## The gate -/

section

variable {format : TimeFormat} {escapes : Escapes} {σ : Type} (texts : ErrorTexts)
  {client : WebInsightsStorageClient} (newDate : Val → Val) (webApiConfig : WebApiConfig)
  (releaseId : String) (service : AppInsights format escapes σ)
  (host : FunctionHost client.baseUrl) (others : HttpRequest → σ → Val × σ) (course : Course)
  (network : Network σ)

/-- Application Insights when the request `m` arrives. -/
def insightsAt (m : ℕ) : σ :=
  (fun s => (serveRelease newDate webApiConfig service host releaseId s).2)^[
    course.served network.sent m] network.state

/-- The network before the evaluation `i`. -/
abbrev networkBefore (i : ℕ) : Network σ :=
  networkAt texts client course (serveHealthReport newDate webApiConfig service host others)
    releaseId network i

/-- What the evaluation `i` is answered. -/
abbrev answerAt (i : ℕ) : Except JsError Val :=
  outcomeAt texts client course (serveHealthReport newDate webApiConfig service host others)
    releaseId network i

/-- The request `m` is served by a service that knows its release, and the events there are when
it asks for the tests and for the availability have a property. -/
def ServedWhen (P : Log → Log → Prop) (m : ℕ) : Prop :=
  course.deliveries (network.sent + m) = .served ∧ webApiConfig.releaseId ≠ none ∧
    P (atTests service (insightsAt newDate webApiConfig releaseId service host course network m))
      (atAvailability service releaseId
        (insightsAt newDate webApiConfig releaseId service host course network m))

variable (hversion : client.apiVersion = "1.0") (hkept : UrlKeeps releaseId)
  (hquote : '"' ∉ releaseId.toList)

include hversion hkept

/-- Every evaluation sends some of the requests. -/
theorem networkBefore_eq (i : ℕ) : ∃ m ≤ i * client.maxRetryCount,
    (networkBefore texts newDate webApiConfig releaseId service host others course network i).sent =
      network.sent + m ∧
    (networkBefore texts newDate webApiConfig releaseId service host others course network
      i).state = insightsAt newDate webApiConfig releaseId service host course network m := by
  induction i with
  | zero => exact ⟨0, Nat.zero_le _, rfl, rfl⟩
  | succ i ih =>
    obtain ⟨m, hm, hsent, hstate⟩ := ih
    rw [networkBefore] at hsent hstate ⊢
    rw [networkAt_succ]
    generalize networkAt texts client course
      (serveHealthReport newDate webApiConfig service host others) releaseId network i = before
      at hsent hstate
    obtain ⟨n, hn, hsent', hstate', -⟩ := @over_served _ texts client
      (.getHealthReport (some releaseId)) course _ _
      (@servedAs_getHealthReport _ _ _ client newDate webApiConfig releaseId service host hversion
        hkept others) before
    refine ⟨m + n, by rw [Nat.succ_mul]; omega, by omega, ?_⟩
    rw [hstate', hstate, insightsAt, insightsAt, ← Function.iterate_add_apply, hsent,
      course.served_add, Nat.add_comm]

/-- **What an evaluation is answered** was refused on the way, or is about the events there
were when one of the requests arrived. -/
theorem answerAt_eq_ok {i : ℕ} {response : Val}
    (h : answerAt texts newDate webApiConfig releaseId service host others course network i =
      .ok response) :
    ∃ m < (i + 1) * client.maxRetryCount,
      course.deliveries (network.sent + m) = .refused response ∨
      course.deliveries (network.sent + m) = .served ∧
        response = (serveRelease newDate webApiConfig service host releaseId
          (insightsAt newDate webApiConfig releaseId service host course network m)).1 := by
  obtain ⟨m, hm, hsent, hstate⟩ := networkBefore_eq texts newDate webApiConfig releaseId service
    host others course network hversion hkept i
  -- an evaluation is answered what the call over the network returns
  have hout : ((Call.getHealthReport (some releaseId)).over texts client course
      (serveHealthReport newDate webApiConfig service host others)
      (networkBefore texts newDate webApiConfig releaseId service host others course network
        i)).1 = .ok response := by
    unfold answerAt outcomeAt at h
    rcases hover : ((Call.getHealthReport (some releaseId)).over texts client course
      (serveHealthReport newDate webApiConfig service host others)
      (networkBefore texts newDate webApiConfig releaseId service host others course network
        i)).1 with e | response'
    · rw [hover] at h
      cases h
    · rw [hover] at h
      exact congrArg Except.ok (Except.ok.inj h)
  obtain ⟨n, hn, -, -, hresponse⟩ := @over_served _ texts client
    (.getHealthReport (some releaseId)) course _ _
    (@servedAs_getHealthReport _ _ _ client newDate webApiConfig releaseId service host hversion
      hkept others) (networkBefore texts newDate webApiConfig releaseId service host others
        course network i)
  obtain ⟨k, hk, hresponds⟩ := hresponse response hout
  unfold Responds at hresponds
  rw [hsent, hstate, Nat.add_assoc] at hresponds
  refine ⟨m + k, by rw [Nat.succ_mul]; omega, hresponds.imp_right ?_⟩
  rintro ⟨hserved, hresponse⟩
  refine ⟨hserved, hresponse.trans ?_⟩
  rw [insightsAt, insightsAt, ← Function.iterate_add_apply, course.served_add, Nat.add_comm]

include hquote in
/-- A passing answer of the service was given when the events may say that the release passed. -/
theorem servedWhen_of_passes {m : ℕ}
    (hserved : course.deliveries (network.sent + m) = .served)
    (hpasses : Passes (.ok (serveRelease newDate webApiConfig service host releaseId
      (insightsAt newDate webApiConfig releaseId service host course network m)).1)) :
    ServedWhen newDate webApiConfig releaseId service host course network
      (MayPass releaseId format) m := by
  rcases serveRelease_response newDate webApiConfig service host hversion hkept hquote
      (insightsAt newDate webApiConfig releaseId service host course network m) with
    ⟨-, hresponse⟩ | hreport
  · rw [hresponse] at hpasses
    exact absurd hpasses (not_passes_of_status (by decide) _)
  · obtain ⟨hconfig, report, runId, tests, results, hresponse, hdescribes⟩ := hreport
    rw [hresponse, passes_report_iff] at hpasses
    exact ⟨hserved, hconfig, mayPass_of_pass hdescribes hpasses⟩

include hquote in
/-- An answer of the service passes, if it is given when the events must say so. -/
theorem passes_of_servedWhen {m : ℕ}
    (h : ServedWhen newDate webApiConfig releaseId service host course network
      (MustPass releaseId format) m) :
    Passes (.ok (serveRelease newDate webApiConfig service host releaseId
      (insightsAt newDate webApiConfig releaseId service host course network m)).1) := by
  obtain ⟨-, hconfig, hmust⟩ := h
  rcases serveRelease_response newDate webApiConfig service host hversion hkept hquote
      (insightsAt newDate webApiConfig releaseId service host course network m) with
    ⟨hnone, -⟩ | ⟨-, report, runId, tests, results, hresponse, hdescribes⟩
  · exact absurd hnone hconfig
  · rw [hresponse, passes_report_iff]
    exact pass_of_mustPass hdescribes hmust

/-- How the checker ends, by the responses of the service: it goes on past each of them that
does not pass. -/
theorem run_settles (hrefused : ∀ m response,
      course.deliveries (network.sent + m) = .refused response → ¬ Passes (.ok response))
    {T W I : ℚ} (hI : 0 < I) (clock : Clock (minutesToMilliseconds I)) {fuel : ℕ}
    (hfuel : ⌊T / I⌋₊ + 1 < fuel) :
    ∃ k ≤ ⌊T / I⌋₊ + 1, ∃ out,
      ((run fuel T W I releaseId).run (surroundings texts client course
        (serveHealthReport newDate webApiConfig service host others) clock) (network, 0)).1 = out ∧
      ((out = .ok (some ()) ∧ ∃ m < (k + 1) * client.maxRetryCount,
          course.deliveries (network.sent + m) = .served ∧
          Passes (.ok (serveRelease newDate webApiConfig service host releaseId
            (insightsAt newDate webApiConfig releaseId service host course network m)).1)) ∨
        (out = .error timedOut ∧ clock.Late (T * 60000) k ∧ ∀ i ≤ k, ∀ response,
          answerAt texts newDate webApiConfig releaseId service host others course network i =
            .ok response →
          ∃ m < (i + 1) * client.maxRetryCount,
            course.deliveries (network.sent + m) = .refused response ∨
            course.deliveries (network.sent + m) = .served ∧
              ¬ Passes (.ok (serveRelease newDate webApiConfig service host releaseId
                (insightsAt newDate webApiConfig releaseId service host course network m)).1))) := by
  have hpause : 0 < minutesToMilliseconds I := mul_pos hI (by norm_num)
  have hbound : T * 60000 / minutesToMilliseconds I = T / I :=
    mul_div_mul_right T I (by norm_num)
  -- what the evaluations are answered is settled before the loop that looks at them
  generalize houtcomes : answerAt texts newDate webApiConfig releaseId service host others course
    network = outcomes
  have hcases : ∀ i response, outcomes i = .ok response →
      ∃ m < (i + 1) * client.maxRetryCount,
        course.deliveries (network.sent + m) = .refused response ∨
        course.deliveries (network.sent + m) = .served ∧
          response = (serveRelease newDate webApiConfig service host releaseId
            (insightsAt newDate webApiConfig releaseId service host course network m)).1 := by
    intro i response h
    rw [← houtcomes] at h
    exact answerAt_eq_ok texts newDate webApiConfig releaseId service host others course network
      hversion hkept h
  obtain ⟨k, hk, hends⟩ :=
    clock.exists_endsAt (T * 60000) (fun i => Passes (outcomes i)) hpause
  rw [hbound] at hk
  obtain ⟨hout, -⟩ := @run_of_endsWith T W I releaseId outcomes clock k fuel hends (by omega)
  obtain ⟨hrun, -⟩ := @run_surroundings σ texts client course
    (serveHealthReport newDate webApiConfig service host others) releaseId network T W I fuel clock
  refine ⟨k, hk, _, hrun, ?_⟩
  rw [show outcomeAt texts client course _ releaseId network = outcomes from houtcomes]
  rcases hout with ⟨hpasses, hok⟩ | ⟨⟨hpasses, hlate⟩, herror⟩
  · -- the report that passed was the service's
    obtain ⟨response, hresponse, hstatus⟩ := hpasses
    obtain ⟨m, hm, hfrom | ⟨hserved, rfl⟩⟩ := hcases k response hresponse
    · exact absurd ⟨response, rfl, hstatus⟩ (hrefused m response hfrom)
    · exact Or.inl ⟨hok, m, hm, hserved, _, rfl, hstatus⟩
  · right
    refine ⟨herror, hlate, fun i hi response hresponse => ?_⟩
    obtain ⟨m, hm, hfrom | ⟨hserved, hserve⟩⟩ := hcases i response hresponse
    · exact ⟨m, hm, Or.inl hfrom⟩
    · refine ⟨m, hm, Or.inr ⟨hserved, ?_⟩⟩
      rw [← hserve, ← hresponse]
      -- an evaluation before the last one did not pass, or the checker would have ended
      rcases Nat.lt_or_eq_of_le hi with hlt | rfl
      · exact (hends.goes i hlt).1
      · exact hpasses

end

/-! ### A gateway that is down at first -/

/-- The first request is refused by a gateway, and the response to the second gets lost. -/
def slowStart : Course where
  tokens := fun _ => .ok (some ⟨"Bearer", "token"⟩)
  deliveries := fun i =>
    if i = 0 then .refused (gotResponse 503 .undefined)
    else if i = 1 then .unanswered (.error "ECONNRESET") else .served
  httpError := fun _ => "Response code"

theorem not_passes_slowStart (m : ℕ) (response : Val)
    (h : slowStart.deliveries (0 + m) = .refused response) : ¬ Passes (.ok response) := by
  unfold slowStart at h
  dsimp only at h
  split at h
  · rw [← Delivery.refused.inj h]
    exact not_passes_of_status (by decide) _
  · split at h <;> cases h

end WebInsights.HealthClient
