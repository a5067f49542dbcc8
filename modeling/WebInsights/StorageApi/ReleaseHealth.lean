/-
`GetHealthReportController`, and the requests its validator lets through.

The route binds a `target` and a `targetId`, each if the url has one. The controller asks
Application Insights about the release that the url names, or else about the release of the
service. Its validator looks for the release of the url under another name.
-/
import WebInsights.Effect.Program
import WebInsights.StorageApi.HealthQueries
import WebInsights.StorageApi.HealthReport
import WebInsights.StorageApi.Validation

set_option autoImplicit false

namespace WebInsights.StorageApi

open Cosmos Effect Js WebApi

/-- What the controller asks of its surroundings. -/
inductive HealthOperation where
  | executeAppInsightsQuery (queryString : String)

/-- `ResponseWithBodyType<ApplicationInsightsQueryResponse>`. -/
structure QueryResponse where
  statusCode : ℕ
  body : ApplicationInsightsQueryResponse

abbrev HealthOperation.Result (_ : HealthOperation) : Type := Except JsError QueryResponse

/-- An `async` method of the controller. -/
abbrev AsyncHealth (α : Type) : Type := Program HealthOperation HealthOperation.Result JsError α

/-! ## The report as it is sent -/

def TestRunResult.toVal : TestRunResult → Val
  | .pass => .str "pass"
  | .fail => .str "fail"
  | .warn => .str "warn"

def TestRun.toVal (testRun : TestRun Val) : Val :=
  .obj ([("testContainer", testRun.testContainer), ("testName", testRun.testName),
    ("scenarioName", testRun.scenarioName), ("scanId", testRun.scanId),
    ("result", testRun.result), ("timestamp", testRun.timestamp)] ++
    testRun.error.toList.map fun error => ("error", error))

def AvailabilityResult.toVal (availabilityResult : AvailabilityResult Val) : Val :=
  .obj [("scenarioName", availabilityResult.scenarioName),
    ("timestamp", availabilityResult.timestamp), ("success", availabilityResult.success)]

def HealthReport.toVal (report : HealthReport Val) : Val :=
  .obj [("healthStatus", report.healthStatus.toVal), ("environment", report.environment),
    ("releaseId", report.releaseId), ("runId", report.runId),
    ("availabilityResults", .arr (report.availabilityResults.map AvailabilityResult.toVal)),
    ("testRuns", .arr (report.testRuns.map TestRun.toVal)),
    ("testsPassed", .num report.testsPassed), ("testsFailed", .num report.testsFailed)]

namespace GetHealthReportController

/-! ## The controller -/

variable (newDate : Val → Val) (webApiConfig : WebApiConfig) (context : Context)

/-- The release that is asked about: `targetId ?? webApiConfig.releaseId`. -/
def releaseId : Option String := context.bindingData.lookup "targetId" <|> webApiConfig.releaseId

/-- A release that is not defined is named `undefined` in the query. -/
def executeQuery (createQuery : String → String) : AsyncHealth (Except JsError QueryResponse) :=
  Program.perform (.executeAppInsightsQuery
    (createQuery ((releaseId webApiConfig context).getD "undefined")))

/-- The response to the two answers: an exception is thrown on where its answer is waited
for. -/
def respond (testResultsQuery availabilityResultsQuery : Except JsError QueryResponse) :
    Except JsError HttpResponse := do
  let testResultsResponse ← testResultsQuery
  let availabilityResultsResponse ← availabilityResultsQuery
  if testResultsResponse.statusCode ≠ 200 ∨ availabilityResultsResponse.statusCode ≠ 200 then
    pure (getErrorResponse WebApiErrorCodes.internalError)
  else do
    let healthReport ← createHealthReport newDate testResultsResponse.body
      availabilityResultsResponse.body
    pure ⟨some 200, none, healthReport.toVal⟩

def processReleaseHealthRequest : AsyncHealth HttpResponse := do
  -- both queries are executed before the first is waited for
  let testResultsQuery ← executeQuery webApiConfig context createTestResultsQueryForRelease
  let availabilityResultsQuery ←
    executeQuery webApiConfig context createAvailabilityResultsQueryForRelease
  Program.ofExcept (respond newDate testResultsQuery availabilityResultsQuery)

def handleRequest (res : Option HttpResponse) : AsyncHealth (Option HttpResponse) :=
  match context.bindingData.lookup "target" with
  | none => pure (some ⟨some 200, none, .undefined⟩)
  | some target =>
    if target = "release" then do
      let response ← processReleaseHealthRequest newDate webApiConfig context
      pure (some response)
    else pure res

/-- A request for the health of a release executes the two queries for the release that is
asked about, and no others, whatever they are answered. -/
theorem ops_handleRequest {σ : Type} (h : Handler HealthOperation HealthOperation.Result σ)
    (htarget : context.bindingData.lookup "target" = some "release") (res : Option HttpResponse)
    (s : σ) :
    (handleRequest newDate webApiConfig context res).ops h s =
      (StorageApi.processReleaseHealthRequest (context.bindingData.lookup "targetId")
        webApiConfig.releaseId).map .executeAppInsightsQuery := by
  unfold handleRequest
  rw [htarget]
  dsimp only
  rw [if_pos rfl]
  -- nothing is asked once both queries are answered
  have hrespond : ∀ (answer : Except JsError HttpResponse) (s' : σ),
      ((Program.ofExcept answer : AsyncHealth HttpResponse) >>= fun response =>
        pure (some response)).ops h s' = [] := by
    rintro (e | response) s' <;> rfl
  exact congrArg (fun rest => _ :: _ :: rest) (hrespond (respond newDate _ _) _)

end GetHealthReportController

/-! ## The validator and the controller -/

section

variable (webApiConfig : WebApiConfig) {context : Context} {res : Option HttpResponse}
  (htarget : context.bindingData.lookup "target" = some "release")

include htarget

/-- A request for the health of a release is accepted if there is a release in the
configuration, or under the name `releaseId` in the url. -/
theorem healthReportValidator_accepts_iff
    (hbase : (ApiRequestValidator.validateRequest ["1.0"] context res).1 = true) :
    (GetHealthReportRequestValidator.validateRequest webApiConfig context res).1 = true ↔
      webApiConfig.releaseId ≠ none ∨ context.bindingData.lookup "releaseId" ≠ none := by
  have hversion := (follows_apiRequirements ["1.0"] context res).accepted_iff.mp hbase
  rw [(GetHealthReportRequestValidator.follows webApiConfig).accepted_iff, List.forall_mem_append,
    and_iff_right hversion]
  unfold GetHealthReportRequestValidator.requirements
  rw [List.forall_mem_cons, List.forall_mem_singleton]
  dsimp only
  rw [htarget]
  constructor
  · exact fun h => h.2 rfl
  · exact fun h => ⟨fun target hsome => (Option.some.inj hsome).symm, fun _ => h⟩

omit htarget in
/-- A release is asked about if there is one in the configuration, or under the name `targetId`
in the url. -/
theorem releaseId_isSome_iff : (GetHealthReportController.releaseId webApiConfig context).isSome ↔
    webApiConfig.releaseId ≠ none ∨ context.bindingData.lookup "targetId" ≠ none := by
  unfold GetHealthReportController.releaseId
  rcases context.bindingData.lookup "targetId" with _ | targetId <;>
    rcases webApiConfig.releaseId with _ | releaseId <;> simp

/-- **Validator and controller agree exactly when the service knows its release, or each finds
a release in the url where the other does**: the validator reads `releaseId` there, and the
controller `targetId`. -/
theorem healthReportValidator_agrees_iff
    (hbase : (ApiRequestValidator.validateRequest ["1.0"] context res).1 = true) :
    ((GetHealthReportRequestValidator.validateRequest webApiConfig context res).1 = true ↔
        (GetHealthReportController.releaseId webApiConfig context).isSome) ↔
      webApiConfig.releaseId ≠ none ∨
        (context.bindingData.lookup "releaseId" ≠ none ↔
          context.bindingData.lookup "targetId" ≠ none) := by
  rw [healthReportValidator_accepts_iff webApiConfig htarget hbase, releaseId_isSome_iff]
  by_cases hconfig : webApiConfig.releaseId ≠ none
  · exact iff_of_true (iff_of_true (Or.inl hconfig) (Or.inl hconfig)) (Or.inl hconfig)
  · rw [or_iff_right hconfig, or_iff_right hconfig, or_iff_right hconfig]

end

/-- A request for `health/release/..`, with what the route binds. -/
def healthContext (bindingData : List (String × String)) : Context where
  method := "GET"
  headers := none
  query := some [("api-version", "1.0")]
  rawBody := .noBody
  bindingData := bindingData

/-- Where the service knows its release, the two agree on every url. -/
theorem healthReportValidator_agrees_iff_sample :
    (GetHealthReportRequestValidator.validateRequest ⟨some "2419"⟩
        (healthContext [("target", "release"), ("targetId", "2420")]) none).1 = true ∧
      GetHealthReportController.releaseId ⟨some "2419"⟩
        (healthContext [("target", "release"), ("targetId", "2420")]) = some "2420" := by
  have hreleaseId : GetHealthReportController.releaseId ⟨some "2419"⟩
      (healthContext [("target", "release"), ("targetId", "2420")]) = some "2420" := rfl
  refine ⟨?_, hreleaseId⟩
  refine ((healthReportValidator_agrees_iff ⟨some "2419"⟩ rfl ?_).mpr (Or.inl nofun)).mpr ?_
  · decide
  · rw [hreleaseId]
    rfl

/-- A service that does not know its release refuses a request that names one, for want of a
release. -/
theorem healthReportValidator_refuses_targetId :
    GetHealthReportRequestValidator.validateRequest ⟨none⟩
        (healthContext [("target", "release"), ("targetId", "2420")]) none =
      (false, some ⟨some 500, none, WebApiErrorCodes.missingReleaseId.body⟩) ∧
    GetHealthReportController.releaseId ⟨none⟩
        (healthContext [("target", "release"), ("targetId", "2420")]) = some "2420" ∧
    ¬ ((GetHealthReportRequestValidator.validateRequest ⟨none⟩
          (healthContext [("target", "release"), ("targetId", "2420")]) none).1 = true ↔
        (GetHealthReportController.releaseId ⟨none⟩
          (healthContext [("target", "release"), ("targetId", "2420")])).isSome) := by
  decide

end WebInsights.StorageApi
