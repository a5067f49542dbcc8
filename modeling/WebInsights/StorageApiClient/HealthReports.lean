/-
The health of a release, asked for over the network.

`getHealthReport` arrives at `GetHealthReportController`, which asks Application Insights. So
each response of the service is the report on the events there were after some number of such
requests; a service that does not know its own release refuses all of them
(`serveHealthReport_response`).
-/
import WebInsights.StorageApi.ReleaseVerdict
import WebInsights.StorageApiClient.LossyNetwork

set_option autoImplicit false

namespace WebInsights.StorageApiClient

open Cosmos (JsError)
open Common Effect Js Kql StorageApi WebApi

/-! ## The function behind the network -/

section

variable {format : TimeFormat} {escapes : Escapes} {σ : Type} {baseUrl : String}
  (newDate : Val → Val) (webApiConfig : WebApiConfig)

/-- What `invoke` does with a request for a health report that is authorized. -/
def invokeHealthReport (context : Context) : AsyncHealth (Option HttpResponse) :=
  let validated := GetHealthReportRequestValidator.validateRequest webApiConfig context none
  if validated.1 = true then do
    let res ← GetHealthReportController.handleRequest newDate webApiConfig context validated.2
    pure (setResponseContentTypeHeader res)
  else pure (setResponseContentTypeHeader validated.2)

/-- A request for a health report that was let in, and the response the host makes of it. -/
def serveHealthContext (service : AppInsights format escapes σ) (host : FunctionHost baseUrl)
    (context : Context) (s : σ) : Val × σ :=
  let result := (invokeHealthReport newDate webApiConfig context).run service.handle s
  (host.respond result.1, result.2)

/-- A request to the storage API: what becomes of the requests that are for another function is
left open. -/
def serveHealthReport (service : AppInsights format escapes σ) (host : FunctionHost baseUrl)
    (others : HttpRequest → σ → Val × σ) (request : HttpRequest) (s : σ) : Val × σ :=
  match host.receive request with
  | some (.getHealthReport, context) =>
    serveHealthContext newDate webApiConfig service host context s
  | _ => others request s

/-- What `invoke` does with a GET request for the health of a release: it is refused if no
release is known. -/
theorem invokeHealthReport_release {context : Context} (hget : ¬ context.SendsPayload)
    (hversion : context.apiVersion = some "1.0")
    (htarget : context.bindingData.lookup "target" = some "release") :
    invokeHealthReport newDate webApiConfig context =
      if webApiConfig.releaseId = none ∧ context.bindingData.lookup "releaseId" = none then
        pure (setResponseContentTypeHeader
          (some (getErrorResponse WebApiErrorCodes.missingReleaseId)))
      else
        GetHealthReportController.handleRequest newDate webApiConfig context none >>=
          fun res => pure (setResponseContentTypeHeader res) := by
  have hbase : ApiRequestValidator.validateRequest ["1.0"] context none = (true, none) := by
    obtain ⟨o, hjudged, hresult⟩ := follows_apiRequirements ["1.0"] context none
    have hmet : ∀ r ∈ apiRequirements ["1.0"], r.Met context :=
      met_apiRequirements hversion (List.mem_singleton.mpr rfl) hget
    obtain rfl := hjudged.unique (Requirement.Judged.none_iff.mpr hmet)
    exact hresult
  -- for a release, only the id is looked at besides
  have hvalidated : GetHealthReportRequestValidator.validateRequest webApiConfig context none =
      if webApiConfig.releaseId = none ∧ context.bindingData.lookup "releaseId" = none then
        (false, some (getErrorResponse WebApiErrorCodes.missingReleaseId))
      else (true, none) := by
    unfold GetHealthReportRequestValidator.validateRequest StorageApi.validateRequest
    rw [hbase]
    dsimp only
    rw [if_neg (by decide), htarget]
    dsimp only
    rw [if_neg (not_not.mpr rfl)]
    rfl
  unfold invokeHealthReport
  rw [hvalidated]
  split <;> rfl

end

/-! ## One release -/

/-- The request of `getHealthReport`, as it arrives. -/
abbrev healthReportContext (client : WebInsightsStorageClient) (releaseId : String) : Context :=
  contextOf ((Call.getHealthReport (some releaseId)).request client)
    (Call.getHealthReport (some releaseId)).arguments

section

variable {format : TimeFormat} {escapes : Escapes} {σ : Type} {client : WebInsightsStorageClient}
  (newDate : Val → Val) (webApiConfig : WebApiConfig) {releaseId : String}
  (service : AppInsights format escapes σ) (host : FunctionHost client.baseUrl)
  (hversion : client.apiVersion = "1.0") (hkept : UrlKeeps releaseId)
  (hquote : '"' ∉ releaseId.toList)

/-- The request for the health of the release, and the response. -/
abbrev serveRelease (releaseId : String) : σ → Val × σ :=
  serveHealthContext newDate webApiConfig service host (healthReportContext client releaseId)

/-- The events there are when a request asks for the tests. -/
abbrev atTests (service : AppInsights format escapes σ) (s : σ) : Log := service.log s

/-- The events there are when it then asks for the availability. -/
abbrev atAvailability (service : AppInsights format escapes σ) (releaseId : String) (s : σ) : Log :=
  service.log (service.handle
    (.executeAppInsightsQuery (createTestResultsQueryForRelease releaseId)) s).2

include hkept in
theorem arguments_getHealthReport : (Call.getHealthReport (some releaseId)).arguments =
    [("target", "release"), ("targetId", releaseId)] :=
  if_neg hkept.1

include hversion hkept

/-- What `invoke` does with the request, whatever its other headers are. -/
theorem invokeHealthReport_arrived (headers : Option (List (String × String))) :
    invokeHealthReport newDate webApiConfig
        { healthReportContext client releaseId with headers := headers } =
      if webApiConfig.releaseId = none then
        pure (setResponseContentTypeHeader
          (some (getErrorResponse WebApiErrorCodes.missingReleaseId)))
      else
        GetHealthReportController.handleRequest newDate webApiConfig
            (healthReportContext client releaseId) none >>=
          fun res => pure (setResponseContentTypeHeader res) := by
  have hbinding : (healthReportContext client releaseId).bindingData =
      [("target", "release"), ("targetId", releaseId)] := arguments_getHealthReport hkept
  have hget : ¬ Context.SendsPayload
      { healthReportContext client releaseId with headers := headers } := by
    rintro (hpost | hput)
    · exact absurd hpost (show ¬ "GET" = "POST" by decide)
    · exact absurd hput (show ¬ "GET" = "PUT" by decide)
  have hversion' : Context.apiVersion
      { healthReportContext client releaseId with headers := headers } = some "1.0" := by
    rw [← hversion]
    rfl
  -- the route calls the id `targetId`, and it is looked for as `releaseId`
  have hnone : (healthReportContext client releaseId).bindingData.lookup "releaseId" = none := by
    rw [hbinding]
    rfl
  rw [invokeHealthReport_release newDate webApiConfig hget hversion' (by rw [hbinding]; rfl)]
  by_cases hconfig : webApiConfig.releaseId = none
  · rw [if_pos ⟨hconfig, hnone⟩, if_pos hconfig]
  · rw [if_neg fun h => hconfig h.1, if_neg hconfig]
    rfl

/-- The requests of `getHealthReport` arrive, whatever token they are signed with. -/
theorem servedAs_getHealthReport {others : HttpRequest → σ → Val × σ} :
    ServedAs (serveHealthReport newDate webApiConfig service host others)
      ((Call.getHealthReport (some releaseId)).request client)
      (serveRelease newDate webApiConfig service host releaseId) := by
  intro token s
  have hkeptArguments : (Call.getHealthReport (some releaseId)).KeptArguments := by
    have hrelease : UrlKeeps "release" := by decide
    rw [Call.KeptArguments, arguments_getHealthReport hkept]
    exact List.forall_mem_cons.mpr ⟨hrelease, List.forall_mem_singleton.mpr hkept⟩
  have hinvoke : ∀ headers, invokeHealthReport newDate webApiConfig
        { healthReportContext client releaseId with headers := headers } =
      invokeHealthReport newDate webApiConfig (healthReportContext client releaseId) :=
    fun headers => (invokeHealthReport_arrived newDate webApiConfig hversion hkept headers).trans
      (invokeHealthReport_arrived newDate webApiConfig hversion hkept _).symm
  simp only [serveHealthReport,
    (Call.getHealthReport (some releaseId)).receives host hkeptArguments token, Call.function]
  unfold serveRelease serveHealthContext
  exact congrArg (fun p : AsyncHealth (Option HttpResponse) =>
    (host.respond (p.run service.handle s).1, (p.run service.handle s).2)) (hinvoke _)

include hquote in
/-- **The response of the service** to a request for the health of a release: the report on the
events there are, if the service knows its own release, and no report otherwise. -/
theorem serveRelease_response (s : σ) :
    (webApiConfig.releaseId = none ∧
      (serveRelease newDate webApiConfig service host releaseId s).1 =
        gotResponse 500 (getErrorResponse WebApiErrorCodes.missingReleaseId).body.toJson) ∨
    webApiConfig.releaseId ≠ none ∧
      ∃ (report : HealthReport Val) (runId : Cell) (tests results : List Row),
        (serveRelease newDate webApiConfig service host releaseId s).1 =
          gotResponse 200 report.toVal.toJson ∧
        report.Describes format newDate (atTests service s) (atAvailability service releaseId s)
          releaseId runId tests results := by
  have hbinding : (healthReportContext client releaseId).bindingData =
      [("target", "release"), ("targetId", releaseId)] := arguments_getHealthReport hkept
  have htargetId : GetHealthReportController.releaseId webApiConfig
      (healthReportContext client releaseId) = some releaseId := by
    rw [GetHealthReportController.releaseId, hbinding]
    rfl
  unfold serveRelease serveHealthContext
  rw [show invokeHealthReport newDate webApiConfig (healthReportContext client releaseId) = _ from
    invokeHealthReport_arrived newDate webApiConfig hversion hkept _]
  by_cases hconfig : webApiConfig.releaseId = none
  · left
    rw [if_pos hconfig]
    exact ⟨hconfig, host.responds 500 _ _⟩
  · right
    rw [if_neg hconfig]
    -- without a quote the queries are what they are meant to be, and the url keeps no backslash
    have htext : ∀ c ∈ releaseId.toList, c ≠ '"' ∧ c ≠ '\\' :=
      fun c hc => ⟨ne_of_mem_of_not_mem hc hquote, (hkept.ne hc).2⟩
    obtain ⟨answer, answer', hgives, hgives', hrun⟩ := exists_answers_handleRequest service newDate
      webApiConfig none (by rw [hbinding]; rfl) htargetId htext s
    obtain ⟨runId, tests, results, hdescribes⟩ :=
      @reportOf_describes format newDate releaseId _ _ _ _ hgives hgives'
    refine ⟨hconfig, _, runId, tests, results, ?_, hdescribes⟩
    rcases hresult : (GetHealthReportController.handleRequest newDate webApiConfig
      (healthReportContext client releaseId) none).run service.handle s with ⟨out, s'⟩
    rw [hresult] at hrun
    dsimp only at hrun
    subst hrun
    rw [Program.run_bind_ok _ hresult]
    exact host.responds 200 _ _

end

end WebInsights.StorageApiClient
