/-
What `ApiRequestValidator` requires of a request, in its order: the version, the payload,
the content type.

A validator returns at the first check that fails and leaves its answer in `context.res`.
`Follows` says so of a result, for requirements that are stated apart from the code, and the
validators of the API are put together with `Follows.andThen`, as their methods are.
-/
import WebInsights.Data.Requirements
import WebInsights.WebApi.ApiRequest

set_option autoImplicit false

namespace WebInsights.WebApi

open Js
open Requirement (Judged)

/-- Why a request is refused: there is nothing to do, or there is an error. -/
inductive Refusal where
  | noContent
  | error (webApiErrorCode : WebApiErrorCode)

/-- The answer to a request that is refused. A request without content is answered with what
`context.res` already is. -/
def Refusal.answer (res : Option HttpResponse) : Refusal → HttpResponse
  | .noContent => res.getD ⟨some 204, none, .undefined⟩
  | .error webApiErrorCode => getErrorResponse webApiErrorCode

/-- What a validator returns and leaves in `context.res`. -/
def outcome (res : Option HttpResponse) : Option Refusal → Bool × Option HttpResponse
  | none => (true, res)
  | some refusal => (false, some (refusal.answer res))

/-- The result of a validator is what the requirements say of the request. -/
def Follows (requirements : List (Requirement Context Refusal)) (context : Context)
    (res : Option HttpResponse) (result : Bool × Option HttpResponse) : Prop :=
  ∃ o, Judged context requirements o ∧ result = outcome res o

namespace Follows

variable {requirements requirements' : List (Requirement Context Refusal)} {context : Context}
  {res : Option HttpResponse}

/-- Nothing is left to check. -/
theorem accept (h : ∀ r ∈ requirements, r.Met context) :
    Follows requirements context res (true, res) :=
  ⟨none, Judged.none_iff.mpr h, rfl⟩

/-- A check of one requirement, and the checks behind it. -/
theorem check {c : Prop} [Decidable c] {r : Requirement Context Refusal}
    {rest : Bool × Option HttpResponse} (hc : c ↔ ¬ r.Met context)
    (hrest : r.Met context → Follows requirements context res rest) :
    Follows (r :: requirements) context res
      (if c then (false, some (r.refusal.answer res)) else rest) := by
  by_cases h : r.Met context
  · have hfails : ¬ c := fun hcheck => hc.mp hcheck h
    obtain ⟨o, ho, hresult⟩ := hrest h
    rw [if_neg hfails]
    exact ⟨o, ho.met h, hresult⟩
  · rw [if_pos (hc.mpr h)]
    exact ⟨_, Judged.refused h, rfl⟩

/-- The checks of one method, and then those of another. -/
theorem andThen {base : Bool × Option HttpResponse}
    {rest : Option HttpResponse → Bool × Option HttpResponse}
    (hbase : Follows requirements context res base)
    (hrest : Follows requirements' context res (rest res)) :
    Follows (requirements ++ requirements') context res
      (if base.1 = false then base else rest base.2) := by
  obtain ⟨o, ho, rfl⟩ := hbase
  rcases o with _ | refusal
  · have haccepted : ¬ (outcome res none).1 = false := nofun
    obtain ⟨o, hjudged, hresult⟩ := hrest
    rw [if_neg haccepted]
    exact ⟨o, ho.append_none hjudged, hresult⟩
  · have hrefused : (outcome res (some refusal)).1 = false := rfl
    rw [if_pos hrefused]
    exact ⟨_, ho.append_some, rfl⟩

/-- What is accepted is what meets every requirement. -/
theorem accepted_iff {result : Bool × Option HttpResponse}
    (h : Follows requirements context res result) :
    result.1 = true ↔ ∀ r ∈ requirements, r.Met context := by
  obtain ⟨o, ho, rfl⟩ := h
  rw [← Judged.none_iff]
  rcases o with _ | refusal
  · exact iff_of_true rfl ho
  · exact iff_of_false nofun fun hnone => nomatch ho.unique hnone

end Follows

/-! ## `ApiRequestValidator` -/

namespace Context

def apiVersion (context : Context) : Option String :=
  context.query.bind (List.lookup "api-version")

def contentType (context : Context) : Option String :=
  context.headers.bind (List.lookup "content-type")

/-- Of a POST and of a PUT a payload is asked. -/
def SendsPayload (context : Context) : Prop := context.method = "POST" ∨ context.method = "PUT"

/-- What the body is parsed to. -/
def payload (context : Context) : Val := (tryGetPayload context none).1

/-- What is not `undefined` was parsed from JSON. -/
theorem exists_json {context : Context} (h : context.payload ≠ .undefined) :
    ∃ json, context.rawBody = .json json ∧ context.payload = json.val := by
  unfold payload tryGetPayload at h ⊢
  rcases hbody : context.rawBody with _ | _ | json
  · rw [hbody] at h
    exact absurd rfl h
  · rw [hbody] at h
    exact absurd rfl h
  · exact ⟨json, rfl, rfl⟩

/-- A body that was parsed leaves `context.res` alone. -/
theorem tryGetPayload_eq {context : Context} (h : context.payload ≠ .undefined)
    (res : Option HttpResponse) : tryGetPayload context res = (context.payload, res) := by
  obtain ⟨json, hbody, hpayload⟩ := exists_json h
  unfold tryGetPayload
  rw [hbody, hpayload]

theorem isJson_payload {context : Context} (h : context.payload ≠ .undefined) :
    context.payload.IsJson := by
  obtain ⟨json, -, hpayload⟩ := exists_json h
  rw [hpayload]
  exact json.isJson

theorem tryGetPayload_fst (context : Context) (res : Option HttpResponse) :
    (tryGetPayload context res).1 = context.payload := by
  unfold payload tryGetPayload
  rcases context.rawBody with _ | _ | json <;> rfl

end Context

def versionRequirements (apiVersions : List String) : List (Requirement Context Refusal) :=
  [⟨fun context => context.apiVersion ≠ none,
      .error WebApiErrorCodes.missingApiVersionQueryParameter⟩,
    ⟨fun context => ∀ apiVersion, context.apiVersion = some apiVersion → apiVersion ∈ apiVersions,
      .error WebApiErrorCodes.unsupportedApiVersion⟩]

def payloadRequirements : List (Requirement Context Refusal) :=
  [⟨fun context => context.SendsPayload → context.rawBody ≠ .noBody, .noContent⟩,
    ⟨fun context => context.SendsPayload → context.rawBody ≠ .unparsable,
      .error WebApiErrorCodes.invalidJsonDocument⟩,
    ⟨fun context => context.SendsPayload → ∀ json, context.rawBody = .json json →
      isEmpty json.val = false, .noContent⟩]

def contentTypeRequirements : List (Requirement Context Refusal) :=
  [⟨fun context => context.SendsPayload → context.contentType ≠ none,
      .error WebApiErrorCodes.missingContentTypeHeader⟩,
    ⟨fun context => context.SendsPayload → ∀ contentType,
      context.contentType = some contentType → contentType = "application/json",
      .error WebApiErrorCodes.unsupportedContentType⟩]

/-- What every request of the API has to meet. -/
def apiRequirements (apiVersions : List String) : List (Requirement Context Refusal) :=
  versionRequirements apiVersions ++ (payloadRequirements ++ contentTypeRequirements)

/-- A request that sends no payload has to name a version that is supported, and no more. -/
theorem met_apiRequirements {apiVersions : List String} {apiVersion : String} {context : Context}
    (hversion : context.apiVersion = some apiVersion) (hmem : apiVersion ∈ apiVersions)
    (hreads : ¬ context.SendsPayload) : ∀ r ∈ apiRequirements apiVersions, r.Met context := by
  simp only [apiRequirements, versionRequirements, payloadRequirements, contentTypeRequirements,
    List.mem_append, List.mem_cons, List.not_mem_nil, or_false]
  rintro r ((rfl | rfl) | (rfl | rfl | rfl) | rfl | rfl)
  · simp [hversion]
  · intro given hgiven
    obtain rfl := Option.some.inj (hversion.symm.trans hgiven)
    exact hmem
  -- the others ask something of a payload
  all_goals exact fun hsends => absurd hsends hreads

/-- A POST or a PUT without a payload, or with a value that is empty: what lodash says of a
number, a boolean and `null`, too. -/
structure Context.NoPayload (context : Context) : Prop where
  sends : context.SendsPayload
  empty : context.rawBody = .noBody ∨ ∃ json, context.rawBody = .json json ∧ isEmpty json.val = true

/-- A version that is not supported is an error. -/
theorem versionRequirements_refusal {apiVersions : List String} :
    ∀ r ∈ versionRequirements apiVersions, r.refusal ≠ .noContent := by
  simp [versionRequirements]

/-- Only a request without a payload is refused for want of content. -/
theorem noPayload_of_refused {apiVersions : List String} {context : Context}
    {r : Requirement Context Refusal} (hmem : r ∈ apiRequirements apiVersions)
    (hrefusal : r.refusal = .noContent) (hr : ¬ r.Met context) : context.NoPayload := by
  simp only [apiRequirements, payloadRequirements, contentTypeRequirements, List.mem_append,
    List.mem_cons, List.not_mem_nil, or_false] at hmem
  rcases hmem with hversion | (rfl | rfl | rfl) | rfl | rfl
  · exact absurd hrefusal (versionRequirements_refusal r hversion)
  · obtain ⟨hsends, hnone⟩ := Classical.not_imp.mp hr
    exact ⟨hsends, Or.inl (not_not.mp hnone)⟩
  · cases hrefusal
  · obtain ⟨hsends, hempty⟩ := Classical.not_imp.mp hr
    simp only [not_forall, Bool.not_eq_false] at hempty
    obtain ⟨json, hjson, hempty⟩ := hempty
    exact ⟨hsends, Or.inr ⟨json, hjson, hempty⟩⟩
  · cases hrefusal
  · cases hrefusal

section

variable (apiVersions : List String) (context : Context) (res : Option HttpResponse)

theorem follows_validateApiVersion : Follows (versionRequirements apiVersions) context res
    (ApiRequestValidator.validateApiVersion apiVersions context res) := by
  have hread : context.query.bind (List.lookup "api-version") = context.apiVersion := rfl
  unfold ApiRequestValidator.validateApiVersion versionRequirements
  rw [hread]
  rcases hversion : context.apiVersion with _ | apiVersion
  · exact ⟨_, .refused fun h => h hversion, rfl⟩
  · have hgiven : context.apiVersion ≠ none := by simp [hversion]
    by_cases hsupported : apiVersion ∈ apiVersions
    · dsimp only
      rw [if_pos hsupported]
      refine .accept (List.forall_mem_cons.mpr ⟨hgiven, List.forall_mem_singleton.mpr ?_⟩)
      rintro apiVersion' hgiven'
      rw [hversion, Option.some.injEq] at hgiven'
      exact hgiven' ▸ hsupported
    · dsimp only
      rw [if_neg hsupported]
      exact ⟨_, .met hgiven (.refused fun h => hsupported (h apiVersion hversion)), rfl⟩

variable {context}

/-- A payload that is asked for and parsed from JSON is followed by the content type. -/
theorem follows_contentType (hsends : context.SendsPayload) :
    Follows contentTypeRequirements context res
      (match context.contentType with
      | none => (false, some (getErrorResponse WebApiErrorCodes.missingContentTypeHeader))
      | some contentType =>
        if contentType ≠ "application/json" then
          (false, some (getErrorResponse WebApiErrorCodes.unsupportedContentType))
        else (true, res)) := by
  rcases htype : context.contentType with _ | contentType
  · exact ⟨_, .refused fun h => h hsends htype, rfl⟩
  · have hgiven : context.contentType ≠ none := by simp [htype]
    by_cases hjson : contentType = "application/json"
    · dsimp only
      rw [if_neg (not_not.mpr hjson)]
      refine .accept (List.forall_mem_cons.mpr
        ⟨fun _ => hgiven, List.forall_mem_singleton.mpr fun _ contentType' hgiven' => ?_⟩)
      rw [htype, Option.some.injEq] at hgiven'
      exact hgiven' ▸ hjson
    · dsimp only
      rw [if_pos hjson]
      exact ⟨_, .met (fun _ => hgiven) (.refused fun h => hjson (h hsends contentType htype)), rfl⟩

variable (context)

theorem follows_validateContentType : Follows (payloadRequirements ++ contentTypeRequirements)
    context res (ApiRequestValidator.validateContentType context res) := by
  unfold ApiRequestValidator.validateContentType
  by_cases hsends : context.SendsPayload
  · have hmethod : ¬ (context.method ≠ "POST" ∧ context.method ≠ "PUT") := by
      rw [← not_or, not_not]
      exact hsends
    rw [if_neg hmethod]
    unfold ApiRequestValidator.hasPayload tryGetPayload
    rcases hbody : context.rawBody with _ | _ | json
    · exact ⟨_, Judged.append_some (.refused fun h => h hsends hbody), rfl⟩
    · -- the answer was set while the body was parsed
      have hgiven : context.rawBody ≠ .noBody := by simp [hbody]
      exact ⟨_, Judged.append_some (.met (fun _ => hgiven) (.refused fun h => h hsends hbody)), rfl⟩
    · have hgiven : context.rawBody ≠ .noBody := by simp [hbody]
      have hparses : context.rawBody ≠ .unparsable := by simp [hbody]
      dsimp only
      -- an empty payload is refused before its type is looked at
      by_cases hempty : isEmpty json.val = true
      · have hrefused : ¬ (context.SendsPayload → ∀ json', context.rawBody = .json json' →
            isEmpty json'.val = false) := fun h => by
          rw [h hsends json hbody] at hempty
          cases hempty
        rw [hempty, if_pos (show (!true) = false by rfl)]
        exact ⟨_, Judged.append_some
          (.met (fun _ => hgiven) (.met (fun _ => hparses) (.refused hrefused))), rfl⟩
      · rw [Bool.not_eq_true] at hempty
        rw [hempty, if_neg (show ¬ (!false) = false by decide)]
        obtain ⟨o, ho, hresult⟩ := follows_contentType res hsends
        refine ⟨o, Judged.append_none ?_ ho, hresult⟩
        refine .met (fun _ => hgiven) (.met (fun _ => hparses) (.met (fun _ json' hbody' => ?_)
          .accepted))
        rw [hbody, RawBody.json.injEq] at hbody'
        exact hbody' ▸ hempty
  · -- nothing is required of the other methods
    have hmethod : context.method ≠ "POST" ∧ context.method ≠ "PUT" := by
      rw [← not_or]
      exact hsends
    rw [if_pos hmethod]
    refine .accept fun r hr => ?_
    simp only [payloadRequirements, contentTypeRequirements, List.mem_append, List.mem_cons,
      List.not_mem_nil, or_false] at hr
    rcases hr with (rfl | rfl | rfl) | rfl | rfl <;> exact fun h => absurd h hsends

theorem follows_apiRequirements : Follows (apiRequirements apiVersions) context res
    (ApiRequestValidator.validateRequest apiVersions context res) :=
  (follows_validateApiVersion apiVersions context res).andThen
    (follows_validateContentType context res)

end

end WebInsights.WebApi
