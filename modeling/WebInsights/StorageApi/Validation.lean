/-
What the validators of the storage API require, one list for each of them.

Behind the requirements that all requests have in common come those of the endpoint. What a
validator returns and leaves in `context.res` is what the list says of the request
(`RequestValidator.follows`). A request that has no content keeps the answer that is in
`context.res` already, whether it has a status or not.
-/
import WebInsights.StorageApi.Controllers
import WebInsights.WebApi.Validation

set_option autoImplicit false

namespace WebInsights.StorageApi

open Common Js WebApi
open Requirement (Judged)

variable {context : Context} {res : Option HttpResponse}

/-! ## The endpoints -/

def PostWebsiteRequestValidator.requirements : List (Requirement Context Refusal) :=
  [⟨fun context => isValidWebsiteObject context.payload = true ∧
        context.payload.get "pages" = .undefined,
      .error WebApiErrorCodes.malformedRequest⟩,
    ⟨fun context => context.payload.get "id" = .undefined ∨
        isValidV6GuidVal (context.payload.get "id") = true,
      .error WebApiErrorCodes.invalidResourceId⟩]

def GetWebsiteRequestValidator.requirements : List (Requirement Context Refusal) :=
  [⟨fun context => isValidV6Guid (bindingData context "websiteId") = true,
      .error WebApiErrorCodes.invalidResourceId⟩]

/-- No cron expression, or one that is parsed. -/
def FrequencyParses (env : Environment) (websiteScanRequest : Val) : Prop :=
  websiteScanRequest.get "scanFrequency" = .undefined ∨
    ∃ frequency, websiteScanRequest.get "scanFrequency" = .str frequency ∧
      env.parsesExpression frequency = true

/-- A priority is within the bounds of the configuration. -/
def PriorityAllowed (env : Environment) (websiteScanRequest : Val) : Prop :=
  ∀ n : ℚ, websiteScanRequest.get "priority" = .num n →
    env.restApiConfig.minScanPriorityValue ≤ n ∧ n ≤ env.restApiConfig.maxScanPriorityValue

def PostWebsiteScanRequestValidator.requirements (env : Environment) :
    List (Requirement Context Refusal) :=
  [⟨fun context => isValidWebsiteScanRequestObject context.payload = true ∧
        context.payload.get "websiteId" ≠ .undefined,
      .error WebApiErrorCodes.malformedRequest⟩,
    ⟨fun context => isValidV6GuidVal (context.payload.get "websiteId") = true,
      .error WebApiErrorCodes.invalidResourceId⟩,
    ⟨fun context => FrequencyParses env context.payload,
      .error WebApiErrorCodes.invalidFrequencyExpression⟩,
    ⟨fun context => PriorityAllowed env context.payload,
      .error WebApiErrorCodes.outOfRangePriority⟩]

def GetWebsiteScanRequestValidator.requirements : List (Requirement Context Refusal) :=
  [⟨fun context => isValidV6Guid (bindingData context "websiteId") = true ∧
        (isValidV6Guid (bindingData context "scanIdOrLatest") = true ∨
          bindingData context "scanIdOrLatest" = latestScanTag),
      .error WebApiErrorCodes.invalidResourceId⟩,
    ⟨fun context => isValidScanType (.str (bindingData context "scanType")) = true,
      .error WebApiErrorCodes.invalidScanType⟩]

def PostPageRequestValidator.requirements : List (Requirement Context Refusal) :=
  [⟨fun context => isValidPageUpdateObject context.payload = true,
      .error WebApiErrorCodes.malformedRequest⟩,
    ⟨fun context => isValidV6GuidVal (context.payload.get "pageId") = true,
      .error WebApiErrorCodes.invalidResourceId⟩]

def GetHealthReportRequestValidator.requirements (webApiConfig : WebApiConfig) :
    List (Requirement Context Refusal) :=
  [⟨fun context => ∀ target, context.bindingData.lookup "target" = some target →
        target = "release",
      .error WebApiErrorCodes.resourceNotFound⟩,
    ⟨fun context => context.bindingData.lookup "target" = some "release" →
        webApiConfig.releaseId ≠ none ∨ context.bindingData.lookup "releaseId" ≠ none,
      .error WebApiErrorCodes.missingReleaseId⟩]

/-! ## What the validators check -/

/-- The checks of an endpoint come behind those of all requests. -/
theorem follows_validateRequest {requirements : List (Requirement Context Refusal)}
    {checks : Option HttpResponse → Bool × Option HttpResponse}
    (h : Follows requirements context res (checks res)) :
    Follows (apiRequirements ["1.0"] ++ requirements) context res
      (validateRequest context res checks) :=
  (follows_apiRequirements ["1.0"] context res).andThen h

/-- What a validator accepts meets what applies to the endpoint. -/
theorem met_of_accepted {requirements : List (Requirement Context Refusal)}
    {result : Bool × Option HttpResponse}
    (h : Follows (apiRequirements ["1.0"] ++ requirements) context res result)
    (haccepted : result.1 = true) : ∀ r ∈ requirements, r.Met context := fun r hr =>
  h.accepted_iff.mp haccepted r (List.mem_append_right _ hr)

/-- A payload that is an object was parsed. -/
theorem payload_ne_undefined {properties : List Property}
    (h : Check.object properties context.payload = true) : context.payload ≠ .undefined := by
  obtain ⟨payload, hobj, -⟩ := Check.exists_obj_of_object h
  rw [hobj]
  exact nofun

theorem PostWebsiteRequestValidator.follows :
    Follows (apiRequirements ["1.0"] ++ requirements) context res
      (validateRequest context res) := by
  refine follows_validateRequest ?_
  dsimp only
  rw [Context.tryGetPayload_fst]
  refine .check ?_ fun hobject => .check ?_ fun _ => ?_
  · simp only [Bool.or_eq_true, Bool.not_eq_true', decide_eq_true_eq, not_and_or,
      Bool.not_eq_true, ne_eq]
  · simp only [Bool.and_eq_true, Bool.not_eq_true', decide_eq_true_eq, not_or,
      Bool.not_eq_true, ne_eq]
  · rw [Context.tryGetPayload_eq (payload_ne_undefined hobject.1)]
    exact .accept (List.forall_mem_nil _)

theorem GetWebsiteRequestValidator.follows :
    Follows (apiRequirements ["1.0"] ++ requirements) context res
      (validateRequest context res) := by
  refine follows_validateRequest (.check ?_ fun _ => .accept (List.forall_mem_nil _))
  rw [Bool.not_eq_true, or_iff_right_iff_imp]
  intro hempty
  rw [hempty]
  decide

namespace PostWebsiteScanRequestValidator

variable {env : Environment}

theorem hasInvalidFrequencyExpression_iff {websiteScanRequest : Val} :
    hasInvalidFrequencyExpression env websiteScanRequest = true ↔
      ¬ FrequencyParses env websiteScanRequest := by
  unfold hasInvalidFrequencyExpression FrequencyParses
  split
  · rename_i hnone
    simp [hnone]
  · rename_i frequency hsome
    simp [hsome]
  · -- what is neither undefined nor a text is no expression
    rename_i hundefined htext
    refine iff_of_true rfl ?_
    rintro (hnone | ⟨frequency, hsome, -⟩)
    · exact hundefined hnone
    · exact htext frequency hsome

theorem isInvalidScanPriority_iff {websiteScanRequest : Val} :
    isInvalidScanPriority env (websiteScanRequest.get "priority") = true ↔
      ¬ PriorityAllowed env websiteScanRequest := by
  unfold isInvalidScanPriority PriorityAllowed
  split
  · rename_i n hn
    have hranged : (∀ m : ℚ, websiteScanRequest.get "priority" = .num m →
        env.restApiConfig.minScanPriorityValue ≤ m ∧ m ≤ env.restApiConfig.maxScanPriorityValue) ↔
        env.restApiConfig.minScanPriorityValue ≤ n ∧
          n ≤ env.restApiConfig.maxScanPriorityValue := by
      refine ⟨fun h => h n hn, fun h m hm => ?_⟩
      rw [hn] at hm
      cases hm
      exact h
    rw [hranged, Bool.or_eq_true, decide_eq_true_eq, decide_eq_true_eq, not_and_or, not_le, not_le]
  · rename_i hnone
    have hnumber : ∀ n : ℚ, websiteScanRequest.get "priority" ≠ .num n := hnone
    simp [hnumber]

theorem follows : Follows (apiRequirements ["1.0"] ++ requirements env) context res
    (validateRequest env context res) := by
  refine follows_validateRequest ?_
  dsimp only
  rw [Context.tryGetPayload_fst]
  refine .check ?_ fun hobject => .check ?_ fun _ => .check hasInvalidFrequencyExpression_iff
    fun _ => .check isInvalidScanPriority_iff fun _ => ?_
  · simp only [Bool.or_eq_true, Bool.not_eq_true', decide_eq_true_eq, not_and_or,
      Bool.not_eq_true, ne_eq, not_not]
  · simp only [Bool.not_eq_true', Bool.not_eq_true]
  · rw [Context.tryGetPayload_eq (payload_ne_undefined hobject.1)]
    exact .accept (List.forall_mem_nil _)

end PostWebsiteScanRequestValidator

namespace GetWebsiteScanRequestValidator

theorem isInvalidWebsiteId_iff {websiteId : String} :
    isInvalidWebsiteId websiteId = true ↔ ¬ isValidV6Guid websiteId = true := by
  unfold isInvalidWebsiteId
  simp only [Bool.or_eq_true, decide_eq_true_eq, Bool.not_eq_true', Bool.not_eq_true,
    or_iff_right_iff_imp]
  rintro rfl
  decide

theorem isInvalidScanTarget_iff {scanIdOrLatest : String} :
    isInvalidScanTarget scanIdOrLatest = true ↔
      ¬ isValidV6Guid scanIdOrLatest = true ∧ ¬ scanIdOrLatest = latestScanTag := by
  unfold isInvalidScanTarget
  simp only [Bool.or_eq_true, decide_eq_true_eq, Bool.and_eq_true, Bool.not_eq_true',
    Bool.not_eq_true, ne_eq, or_iff_right_iff_imp]
  rintro rfl
  exact ⟨by decide, by decide⟩

theorem follows :
    Follows (apiRequirements ["1.0"] ++ requirements) context res
      (validateRequest context res) := by
  refine follows_validateRequest (.check ?_ fun _ => .check ?_ fun _ =>
    .accept (List.forall_mem_nil _))
  · rw [Bool.or_eq_true, isInvalidWebsiteId_iff, isInvalidScanTarget_iff, not_and_or, not_or]
  · simp only [Bool.not_eq_true', Bool.not_eq_true]

end GetWebsiteScanRequestValidator

theorem PostPageRequestValidator.follows :
    Follows (apiRequirements ["1.0"] ++ requirements) context res
      (validateRequest context res) := by
  refine follows_validateRequest ?_
  dsimp only
  rw [Context.tryGetPayload_fst]
  refine .check ?_ fun hobject => .check ?_ fun _ => ?_
  · simp only [Bool.not_eq_true', Bool.not_eq_true]
  · simp only [Bool.or_eq_true, decide_eq_true_eq, Bool.not_eq_true', Bool.not_eq_true,
      or_iff_right_iff_imp]
    intro hnone
    rw [hnone]
    rfl
  · rw [Context.tryGetPayload_eq (payload_ne_undefined hobject)]
    exact .accept (List.forall_mem_nil _)

theorem GetHealthReportRequestValidator.follows (webApiConfig : WebApiConfig) :
    Follows (apiRequirements ["1.0"] ++ requirements webApiConfig) context res
      (validateRequest webApiConfig context res) := by
  refine follows_validateRequest ?_
  rcases htarget : context.bindingData.lookup "target" with _ | target
  · exact .accept (List.forall_mem_cons.mpr
      ⟨by simp [htarget], List.forall_mem_singleton.mpr (by simp [htarget])⟩)
  · refine .check ?_ fun hrelease => .check ?_ fun _ => .accept (List.forall_mem_nil _)
    · simp [htarget]
    · have hnamed : context.bindingData.lookup "target" = some "release" :=
        htarget.trans (congrArg some (hrelease target htarget))
      simp only [hnamed, ne_eq, forall_const, not_or, not_not]

/-! ## All validators -/

/-- The six validators, each with what is injected into it and is asked. -/
inductive RequestValidator where
  | postWebsite
  | getWebsite
  | postWebsiteScan (env : Environment)
  | getWebsiteScan
  | postPage
  | getHealthReport (webApiConfig : WebApiConfig)

namespace RequestValidator

def validateRequest : RequestValidator → Context → Option HttpResponse →
    Bool × Option HttpResponse
  | .postWebsite => PostWebsiteRequestValidator.validateRequest
  | .getWebsite => GetWebsiteRequestValidator.validateRequest
  | .postWebsiteScan env => PostWebsiteScanRequestValidator.validateRequest env
  | .getWebsiteScan => GetWebsiteScanRequestValidator.validateRequest
  | .postPage => PostPageRequestValidator.validateRequest
  | .getHealthReport webApiConfig => GetHealthReportRequestValidator.validateRequest webApiConfig

/-- What applies to the endpoint alone. -/
def endpointRequirements : RequestValidator → List (Requirement Context Refusal)
  | .postWebsite => PostWebsiteRequestValidator.requirements
  | .getWebsite => GetWebsiteRequestValidator.requirements
  | .postWebsiteScan env => PostWebsiteScanRequestValidator.requirements env
  | .getWebsiteScan => GetWebsiteScanRequestValidator.requirements
  | .postPage => PostPageRequestValidator.requirements
  | .getHealthReport webApiConfig => GetHealthReportRequestValidator.requirements webApiConfig

/-- All that is required of a request: the version, the payload, the content type, and what
applies to the endpoint. -/
def requirements (validator : RequestValidator) : List (Requirement Context Refusal) :=
  apiRequirements ["1.0"] ++ validator.endpointRequirements

variable (validator : RequestValidator)

theorem follows : Follows validator.requirements context res
    (validator.validateRequest context res) := by
  cases validator with
  | postWebsite => exact PostWebsiteRequestValidator.follows
  | getWebsite => exact GetWebsiteRequestValidator.follows
  | postWebsiteScan env => exact PostWebsiteScanRequestValidator.follows
  | getWebsiteScan => exact GetWebsiteScanRequestValidator.follows
  | postPage => exact PostPageRequestValidator.follows
  | getHealthReport webApiConfig => exact GetHealthReportRequestValidator.follows webApiConfig

/-- No endpoint refuses a request for want of content. -/
theorem refusal_ne_noContent : ∀ r ∈ validator.endpointRequirements, r.refusal ≠ .noContent := by
  cases validator <;>
    simp [endpointRequirements, PostWebsiteRequestValidator.requirements,
      GetWebsiteRequestValidator.requirements, PostWebsiteScanRequestValidator.requirements,
      GetWebsiteScanRequestValidator.requirements, PostPageRequestValidator.requirements,
      GetHealthReportRequestValidator.requirements]

/-- What is refused for want of content has a version that is supported, and no payload. -/
theorem judged_noContent_iff : Judged context validator.requirements (some .noContent) ↔
    (∀ r ∈ versionRequirements ["1.0"], r.Met context) ∧ context.NoPayload := by
  constructor
  · intro h
    constructor
    · obtain ⟨_ | refusal, hversion, -⟩ := follows_validateApiVersion ["1.0"] context none
      · exact Judged.none_iff.mp hversion
      · -- the version is refused with an error
        obtain rfl := Option.some.inj (h.unique hversion.append_some)
        obtain ⟨before, r, after, hsplit, -, -, hrefusal⟩ := Judged.some_iff.mp hversion
        have hmem : r ∈ versionRequirements ["1.0"] := by simp [hsplit]
        exact absurd hrefusal (versionRequirements_refusal r hmem)
    · obtain ⟨before, r, after, hsplit, -, hr, hrefusal⟩ := Judged.some_iff.mp h
      have hmem : r ∈ validator.requirements := by simp [hsplit]
      rw [requirements, List.mem_append] at hmem
      rcases hmem with hmem | hmem
      · exact noPayload_of_refused hmem hrefusal hr
      · exact absurd hrefusal (validator.refusal_ne_noContent r hmem)
  · rintro ⟨hversion, hsends, hempty⟩
    refine Judged.append_some (Judged.append_none (Judged.none_iff.mpr hversion)
      (Judged.append_some ?_))
    rcases hempty with hnone | ⟨json, hjson, hempty⟩
    · exact .refused fun h => h hsends hnone
    · have hgiven : context.rawBody ≠ .noBody := by simp [hjson]
      have hparses : context.rawBody ≠ .unparsable := by simp [hjson]
      refine .met (fun _ => hgiven) (.met (fun _ => hparses) (.refused fun h => ?_))
      rw [h hsends json hjson] at hempty
      cases hempty

end RequestValidator

/-- `context.res` is not there, or has no status. -/
def StatusFree (res : Option HttpResponse) : Prop :=
  ∀ response, res = some response → response.status = none

/-- The response says why the request is refused. -/
def AnsweredBy (response : HttpResponse) : Refusal → Prop
  | .noContent => response.status = some 204
  | .error webApiErrorCode =>
    response = ⟨some webApiErrorCode.statusCode, none, webApiErrorCode.body⟩

/-- The result of a validator and `context.res` agree: what is accepted meets every
requirement and is not answered yet, and anything else is answered for the first
requirement it does not meet. -/
structure Agrees (requirements : List (Requirement Context Refusal)) (context : Context)
    (res : Option HttpResponse) (result : Bool × Option HttpResponse) : Prop where
  accepted : result.1 = true → (∀ r ∈ requirements, r.Met context) ∧ result.2 = res
  refused : result.1 = false → ∃ before r after, requirements = before ++ r :: after ∧
    (∀ b ∈ before, b.Met context) ∧ ¬ r.Met context ∧
    ∃ response, result.2 = some response ∧ AnsweredBy response r.refusal

/-- The answer to what is refused says why, but for want of content. -/
theorem answeredBy_answer_iff (hres : StatusFree res) {refusal : Refusal} :
    AnsweredBy (refusal.answer res) refusal ↔ res = none ∨ refusal ≠ .noContent := by
  rcases refusal with _ | webApiErrorCode
  · rcases res with _ | response
    · exact iff_of_true rfl (Or.inl rfl)
    · refine iff_of_false ?_ (by simp)
      intro h
      have hstatus : response.status = some 204 := h
      rw [hres response rfl] at hstatus
      cases hstatus
  · exact iff_of_true rfl (Or.inr nofun)

/-- A result that is what the requirements say agrees with its answer if the answer says
why. -/
theorem agrees_outcome_iff {requirements : List (Requirement Context Refusal)}
    {refusal : Refusal} (h : Judged context requirements (some refusal)) :
    Agrees requirements context res (outcome res (some refusal)) ↔
      AnsweredBy (refusal.answer res) refusal := by
  constructor
  · intro hagrees
    obtain ⟨before, r, after, hsplit, hbefore, hr, response, hresponse, hanswered⟩ :=
      hagrees.refused rfl
    have hfirst : refusal = r.refusal :=
      Option.some.inj (h.unique (Judged.some_iff.mpr ⟨before, r, after, hsplit, hbefore, hr, rfl⟩))
    rw [← hfirst, ← Option.some.inj hresponse] at hanswered
    exact hanswered
  · intro hanswered
    obtain ⟨before, r, after, hsplit, hbefore, hr, rfl⟩ := Judged.some_iff.mp h
    exact ⟨nofun, fun _ => ⟨before, r, after, hsplit, hbefore, hr, _, rfl, hanswered⟩⟩

/-- **Validation and response agree exactly when no answer is kept that was there before**:
`context.res` is undefined at first, or the request is not one with a supported version and
without a payload where one is asked for. -/
theorem validateRequest_agrees_iff (validator : RequestValidator) (context : Context)
    {res : Option HttpResponse} (hres : StatusFree res) :
    Agrees validator.requirements context res (validator.validateRequest context res) ↔
      res = none ∨
        ¬ ((∀ r ∈ versionRequirements ["1.0"], r.Met context) ∧ context.NoPayload) := by
  obtain ⟨o, ho, hresult⟩ := @RequestValidator.follows context res validator
  rw [hresult, ← validator.judged_noContent_iff]
  rcases o with _ | refusal
  · -- an accepted request is not refused
    refine iff_of_true ⟨fun _ => ⟨Judged.none_iff.mp ho, rfl⟩, nofun⟩ (Or.inr fun h => ?_)
    cases ho.unique h
  · rw [agrees_outcome_iff ho, answeredBy_answer_iff hres]
    refine or_congr_right (not_congr ⟨fun h => h ▸ ho, fun h => ?_⟩)
    exact Option.some.inj (ho.unique h)

/-- `context.res` as an object without properties. -/
def emptyResponse : HttpResponse := ⟨none, none, .undefined⟩

/-- A page update with such a body. -/
def pageUpdate (rawBody : RawBody) : Context where
  method := "POST"
  headers := some [("content-type", "application/json")]
  query := some [("api-version", "1.0")]
  rawBody := rawBody
  bindingData := []

theorem statusFree_emptyResponse : StatusFree (some emptyResponse) := by
  rintro response hresponse
  obtain rfl := Option.some.inj hresponse
  rfl

/-- A body that is no JSON document is answered for, whatever `context.res` was. -/
theorem validateRequest_agrees_iff_sample :
    Agrees RequestValidator.postPage.requirements (pageUpdate .unparsable) (some emptyResponse)
      (RequestValidator.postPage.validateRequest (pageUpdate .unparsable)
        (some emptyResponse)) := by
  refine (validateRequest_agrees_iff .postPage (pageUpdate .unparsable)
    statusFree_emptyResponse).mpr (Or.inr ?_)
  rintro ⟨-, -, hnone | ⟨json, hjson, -⟩⟩
  · cases hnone
  · cases hjson

/-- A page update without a body is refused, and there is no status in `context.res`. -/
theorem validateRequest_keeps_emptyResponse :
    StatusFree (some emptyResponse) ∧
      RequestValidator.postPage.validateRequest (pageUpdate .noBody) (some emptyResponse) =
        (false, some emptyResponse) ∧
      ¬ Agrees RequestValidator.postPage.requirements (pageUpdate .noBody) (some emptyResponse)
        (RequestValidator.postPage.validateRequest (pageUpdate .noBody) (some emptyResponse)) := by
  have hrun : RequestValidator.postPage.validateRequest (pageUpdate .noBody) (some emptyResponse) =
      (false, some emptyResponse) := by decide
  refine ⟨statusFree_emptyResponse, hrun, fun hagrees => ?_⟩
  obtain ⟨before, r, after, hsplit, hbefore, hr, response, hresponse, hanswered⟩ :=
    hagrees.refused (by rw [hrun])
  rw [hrun] at hresponse
  obtain rfl := Option.some.inj hresponse
  -- neither an answer to a request without content nor an error
  rcases hrefusal : r.refusal with _ | webApiErrorCode
  · rw [hrefusal] at hanswered
    exact nomatch (show (none : Option ℕ) = some 204 from hanswered)
  · rw [hrefusal] at hanswered
    exact nomatch congrArg HttpResponse.status
      (show emptyResponse = getErrorResponse webApiErrorCode from hanswered)

end WebInsights.StorageApi
