/-
Requests to the storage API, and runs of them.

A request that was let in is validated and then handled. `serve` is what `invoke`
does from there on (`validateAndHandle_serve`), and a run serves one request
after another, whatever each of them is answered. What the validators accept is
said once for each of them.
-/
import WebInsights.StorageApi.Validation

set_option autoImplicit false

namespace WebInsights.StorageApi

open Common Cosmos Effect Js Providers WebApi

inductive Endpoint where
  | postWebsite
  | getWebsite
  | postWebsiteScan
  | getWebsiteScan
  | postPage
  deriving DecidableEq

variable (env : Environment) (svc : Service)

def Endpoint.validateRequest : Endpoint → Context → Option HttpResponse →
    Bool × Option HttpResponse
  | .postWebsite => PostWebsiteRequestValidator.validateRequest
  | .getWebsite => GetWebsiteRequestValidator.validateRequest
  | .postWebsiteScan => PostWebsiteScanRequestValidator.validateRequest env
  | .getWebsiteScan => GetWebsiteScanRequestValidator.validateRequest
  | .postPage => PostPageRequestValidator.validateRequest

def Endpoint.handleRequest : Endpoint → Context → Option HttpResponse →
    Async (Option HttpResponse)
  | .postWebsite => PostWebsiteController.handleRequest env
  | .getWebsite => GetWebsiteController.handleRequest env
  | .postWebsiteScan => PostWebsiteScanController.handleRequest env
  | .getWebsiteScan => GetWebsiteScanController.handleRequest env
  | .postPage => PostPageController.handleRequest env

/-- The response a handler leaves is sent as JSON. -/
def jsonResponse (status : ℕ) (body : Val) : HttpResponse :=
  ⟨some status, some (setJsonHeaders []), body⟩

/-- A request to an endpoint. -/
structure ApiRequest where
  endpoint : Endpoint
  context : Context

namespace ApiRequest

def validated (r : ApiRequest) : Bool × Option HttpResponse :=
  r.endpoint.validateRequest env r.context none

/-- The validator lets the request pass. -/
def Accepted (r : ApiRequest) : Prop := (r.validated env).1 = true

instance (r : ApiRequest) : Decidable (r.Accepted env) :=
  inferInstanceAs (Decidable (_ = true))

/-- What `invoke` does with a request that is authorized: `context.res` at the end. -/
def serve (r : ApiRequest) : Async (Option HttpResponse) :=
  if (r.validated env).1 = true then do
    let res ← r.endpoint.handleRequest env r.context (r.validated env).2
    pure (setResponseContentTypeHeader res)
  else pure (setResponseContentTypeHeader (r.validated env).2)

/-- The stages of `invoke` for a request: the storage is the world, and the rest of the
service is asked for its answers. -/
def stages (r : ApiRequest) (setCommonProperties getWebControllerAuth : Except JsError Unit)
    (auth : (op : Auth.Operation) → op.Result) : Handler Stage Stage.Result World
  | .setCommonProperties, w => (setCommonProperties, w)
  | .getWebControllerAuth, w => (getWebControllerAuth, w)
  | .auth op, w => (auth op, w)
  | .validateRequest res, w =>
    let validated := r.endpoint.validateRequest env r.context res
    ((.ok validated.1, validated.2), w)
  | .handleRequest res, w =>
    match (r.endpoint.handleRequest env r.context res).run (World.handle svc) w with
    | (.ok res', w') => ((.ok .undefined, res'), w')
    | (.error e, w') => ((.error e, res), w')

/-- **`serve` is what `invoke` does after the authorization**: the two end with the same
response, or with the same exception, in the same world. -/
theorem validateAndHandle_serve (r : ApiRequest)
    (setCommonProperties getWebControllerAuth : Except JsError Unit)
    (auth : (op : Auth.Operation) → op.Result) (w : World) :
    (WebController.validateAndHandle none).run
        (r.stages env svc setCommonProperties getWebControllerAuth auth) w =
      (((r.serve env).run (World.handle svc) w).1.map fun res => (.undefined, res),
        ((r.serve env).run (World.handle svc) w).2) := by
  unfold WebController.validateAndHandle serve
  rw [Program.perform_bind, Program.run_call]
  simp only [stages, Program.ofExcept_ok, pure_bind]
  change (if (r.validated env).1 = true then _ else _ : AsyncStage _).run _ w = _
  by_cases hvalid : (r.validated env).1 = true
  · rw [if_pos hvalid, if_pos hvalid, Program.perform_bind, Program.run_call]
    -- both run the handler on the validated request, and end as it does
    rcases hrun : (r.endpoint.handleRequest env r.context (r.validated env).2).run
      (World.handle svc) w with ⟨e | res, w'⟩
    · rw [Program.run_bind_error _ hrun]
      simp only [stages]
      rw [← validated, hrun]
      rfl
    · rw [Program.run_bind_ok _ hrun]
      simp only [stages]
      rw [← validated, hrun]
      rfl
  · rw [if_neg hvalid, if_neg hvalid]
    rfl

/-- A request that is not accepted does nothing. -/
theorem run_serve_refused {r : ApiRequest} (h : ¬ r.Accepted env) (w : World) :
    ((r.serve env).run (World.handle svc) w).2 = w := by
  unfold serve
  rw [if_neg (show ¬ (r.validated env).1 = true from h), Program.run_pure]

theorem run_serve_accepted {r : ApiRequest} (h : r.Accepted env) (w : World) :
    (r.serve env).run (World.handle svc) w =
      (r.endpoint.handleRequest env r.context (r.validated env).2 >>= fun res =>
        pure (setResponseContentTypeHeader res)).run (World.handle svc) w := by
  unfold serve
  rw [if_pos (show (r.validated env).1 = true from h)]

/-- Sending the response does nothing to the storage. -/
theorem run_serve_world {r : ApiRequest} (h : r.Accepted env) (w : World) :
    ((r.serve env).run (World.handle svc) w).2 =
      ((r.endpoint.handleRequest env r.context (r.validated env).2).run
        (World.handle svc) w).2 := by
  rw [run_serve_accepted env svc h, Program.run_bind]
  rcases (r.endpoint.handleRequest env r.context (r.validated env).2).run (World.handle svc) w with
    ⟨e | res, w'⟩ <;> rfl

/-- What a handler leaves is what an accepted request is answered with. -/
theorem run_serve_ok {r : ApiRequest} (h : r.Accepted env) {w w' : World} {status : ℕ} {body : Val}
    (hrun : (r.endpoint.handleRequest env r.context (r.validated env).2).run (World.handle svc) w =
      (.ok (some ⟨some status, none, body⟩), w')) :
    (r.serve env).run (World.handle svc) w = (.ok (some (jsonResponse status body)), w') := by
  rw [run_serve_accepted env svc h, Program.run_bind_ok _ hrun]
  rfl

end ApiRequest

/-! ## What is accepted -/

/-- The payload of a POST website request that is accepted: the data of a website and
perhaps a valid id. -/
structure WebsitePayload (payload : Fields) : Prop where
  json : (Val.obj payload).IsJson
  keys : ∀ k ∈ Fields.keys payload, k ∈ StorageApi.websiteProperties
  flat : ∀ p ∈ payload, Flat p.2
  knownPages : ∃ urls, Fields.get payload "knownPages" = .arr (strings urls)
  id : Fields.get payload "id" = .undefined ∨
    ∃ id, Fields.get payload "id" = .str id ∧ isValidV6Guid id = true

section

variable {env} {context : Context}

/-- A payload an interface accepts was parsed from the body, and is an object. -/
theorem payload_of_object {properties : List Property}
    (h : Check.object properties context.payload = true) :
    ∃ payload : Fields, context.payload = .obj payload ∧
      (∀ res, tryGetPayload context res = (.obj payload, res)) ∧ (Val.obj payload).IsJson ∧
      ∀ k ∈ Fields.keys payload, k ∈ properties.map Property.name := by
  obtain ⟨payload, hparsed, -, hkeys⟩ := Check.exists_obj_of_object h
  have hne := payload_ne_undefined h
  refine ⟨payload, hparsed, fun res => ?_, ?_, hkeys⟩
  · rw [Context.tryGetPayload_eq hne, hparsed]
  · rw [← hparsed]
    exact Context.isJson_payload hne

theorem exists_of_isValidV6GuidVal {v : Val} (h : isValidV6GuidVal v = true) :
    ∃ guid, v = .str guid ∧ isValidV6Guid guid = true := by
  unfold isValidV6GuidVal at h
  split at h
  · exact ⟨_, rfl, h⟩
  · cases h

/-- An object of the contract that names no pages and has a valid id, if any, is such a
payload. -/
theorem websitePayload_of_checks {payload : Fields} (hjson : (Val.obj payload).IsJson)
    (hkeys : ∀ k ∈ Fields.keys payload, k ∈ WebApi.websiteProperties.map Property.name)
    (hobject : isValidWebsiteObject (.obj payload) = true)
    (hpages : Fields.get payload "pages" = .undefined)
    (hid : Fields.get payload "id" = .undefined ∨
      isValidV6GuidVal (Fields.get payload "id") = true) : WebsitePayload payload := by
  -- what was parsed from JSON is nowhere `undefined`
  have hne : ∀ k ∈ Fields.keys payload, k ≠ "pages" := by
    rintro k hk rfl
    exact (Val.isJsonFields_iff.mp hjson.2 _ (Fields.mem_of_mem_keys hk)).ne_undefined hpages
  refine ⟨hjson, ?_, ?_, ?_, hid.imp id exists_of_isValidV6GuidVal⟩
  · intro k hk
    have hcontract : ∀ k ∈ WebApi.websiteProperties.map Property.name, k ≠ "pages" →
        k ∈ StorageApi.websiteProperties := by decide
    exact hcontract k (hkeys k hk) (hne k hk)
  · intro p hp
    have hk := Fields.mem_keys_of_mem hp
    obtain ⟨property, hproperty, hname⟩ := List.mem_map.mp (hkeys _ hk)
    have hcheck := Check.get_optional hobject hproperty
    rw [hname, Val.get_obj, Fields.get_eq_of_mem hjson.1 hp] at hcheck
    -- the contract has no nested values but for the list of pages
    have hflat : property.check.Flat := by
      rcases List.mem_append.mp hproperty with hdata | hrest
      · exact flat_websiteDataProperties _ hdata
      · rcases List.mem_cons.mp hrest with rfl | hrest
        · exact Check.flat_string
        · obtain rfl := List.mem_singleton.mp hrest
          exact absurd hname.symm (hne _ hk)
    rcases hcheck with hundefined | hcheck
    · rw [hundefined]
      trivial
    · exact hflat _ hcheck
  · have hknown : WebApi.required "knownPages" (.arrayOf .string) ∈ WebApi.websiteProperties := by
      simp [WebApi.websiteProperties, websiteDataProperties]
    exact Check.exists_strings_of_arrayOf (Check.get_required hobject hknown rfl)

/-- An accepted website. -/
theorem websitePayload_of_accepted (h : (ApiRequest.mk .postWebsite context).Accepted env) :
    ∃ payload, WebsitePayload payload ∧
      ∀ res, tryGetPayload context res = (.obj payload, res) := by
  obtain ⟨hobject, hid⟩ :=
    List.forall_mem_cons.mp (met_of_accepted PostWebsiteRequestValidator.follows h)
  have hid := List.forall_mem_singleton.mp hid
  obtain ⟨payload, hparsed, hpayload, hjson, hkeys⟩ := payload_of_object hobject.1
  dsimp only at hobject hid
  rw [hparsed] at hobject hid
  exact ⟨payload, websitePayload_of_checks hjson hkeys hobject.1 hobject.2 hid, hpayload⟩

/-- The payload of a POST page request that is accepted. -/
structure PagePayload (payload : Fields) (pageId : String) : Prop where
  json : (Val.obj payload).IsJson
  keys : ∀ k ∈ Fields.keys payload, k ∈ ["pageId", "disabledScans"]
  named : Fields.get payload "pageId" = .str pageId
  valid : isValidV6Guid pageId = true

/-- An accepted page update. -/
theorem pagePayload_of_accepted (h : (ApiRequest.mk .postPage context).Accepted env) :
    ∃ payload pageId, PagePayload payload pageId ∧
      ∀ res, tryGetPayload context res = (.obj payload, res) := by
  obtain ⟨hobject, hid⟩ :=
    List.forall_mem_cons.mp (met_of_accepted PostPageRequestValidator.follows h)
  have hid := List.forall_mem_singleton.mp hid
  obtain ⟨payload, hparsed, hpayload, hjson, hkeys⟩ := payload_of_object hobject
  dsimp only at hid
  rw [hparsed] at hid
  obtain ⟨pageId, hpageId, hvalid⟩ := exists_of_isValidV6GuidVal hid
  exact ⟨payload, pageId, ⟨hjson, hkeys, hpageId, hvalid⟩, hpayload⟩

/-- The payload of a POST website scan request that is accepted. -/
structure ScanPayload (env : Environment) (payload : Fields) (websiteId : String) : Prop where
  named : Fields.get payload "websiteId" = .str websiteId
  valid : isValidV6Guid websiteId = true
  frequency : Fields.get payload "scanFrequency" = .undefined ∨
    ∃ frequency, Fields.get payload "scanFrequency" = .str frequency ∧
      env.parsesExpression frequency = true
  priority : Fields.get payload "priority" = .undefined ∨
    ∃ n : ℚ, Fields.get payload "priority" = .num n ∧
      env.restApiConfig.minScanPriorityValue ≤ n ∧ n ≤ env.restApiConfig.maxScanPriorityValue

/-- An accepted scan request. -/
theorem scanPayload_of_accepted (h : (ApiRequest.mk .postWebsiteScan context).Accepted env) :
    ∃ payload websiteId, ScanPayload env payload websiteId ∧
      ∀ res, tryGetPayload context res = (.obj payload, res) := by
  obtain ⟨hobject, hrest⟩ :=
    List.forall_mem_cons.mp (met_of_accepted PostWebsiteScanRequestValidator.follows h)
  obtain ⟨hid, hrest⟩ := List.forall_mem_cons.mp hrest
  obtain ⟨hfrequency, hpriority⟩ := List.forall_mem_cons.mp hrest
  have hpriority := List.forall_mem_singleton.mp hpriority
  obtain ⟨payload, hparsed, hpayload, hjson, hkeys⟩ := payload_of_object hobject.1
  dsimp only at hobject hid hfrequency hpriority
  rw [hparsed] at hobject hid hfrequency hpriority
  obtain ⟨websiteId, hwebsiteId, hvalid⟩ := exists_of_isValidV6GuidVal hid
  refine ⟨payload, websiteId, ⟨hwebsiteId, hvalid, hfrequency, ?_⟩, hpayload⟩
  have hnumber : optional "priority" .number ∈ websiteScanRequestProperties := by
    simp [websiteScanRequestProperties]
  rcases Check.get_optional hobject.1 hnumber with hnone | hsome
  · exact Or.inl hnone
  · -- the contract makes it a number, and the validator bounds it
    obtain ⟨n, hn⟩ := Check.exists_num_of_number hsome
    exact Or.inr ⟨n, hn, hpriority n hn⟩

end

/-! ## Runs -/

/-- The worlds that requests lead to, each of them admitted in its world, one request
after the other. -/
inductive Reaches (Admitted : World → ApiRequest → Prop) (w₀ : World) : World → Prop
  | refl : Reaches Admitted w₀ w₀
  | step {w : World} (hw : Reaches Admitted w₀ w) {r : ApiRequest} (hr : Admitted w r) :
      Reaches Admitted w₀ ((r.serve env).run (World.handle svc) w).2

/-- What every admitted request keeps holds of every world a run reaches. -/
theorem Reaches.invariant {Admitted : World → ApiRequest → Prop} {w₀ w : World} {I : World → Prop}
    (h : Reaches env svc Admitted w₀ w) (h₀ : I w₀)
    (hstep : ∀ w r, Admitted w r → I w → I ((r.serve env).run (World.handle svc) w).2) : I w := by
  induction h with
  | refl => exact h₀
  | step _ hr ih => exact hstep _ _ hr ih

/-! ## Requests to compute with -/

/-- The hash of the source, scan priorities from -1000 to 1000, and a cron parser that is as
good as the real one where the expression is the default. -/
def sampleEnvironment : Environment where
  fnv1a := fnv1aAscii
  parsesExpression := fun expression => expression = "0 4 * * *"
  restApiConfig := ⟨-1000, 1000, "0 4 * * *"⟩

def postContext (payload : Json) : Context where
  method := "POST"
  headers := some [("content-type", "application/json")]
  query := some [("api-version", "1.0")]
  rawBody := .json payload
  bindingData := []

def getContext (bindingData : List (String × String)) : Context where
  method := "GET"
  headers := none
  query := some [("api-version", "1.0")]
  rawBody := .noBody
  bindingData := bindingData

/-- A website without an id. -/
def sampleWebsite (priority : ℚ) (knownPages : List String) : Fields :=
  [("name", .str "site"), ("baseUrl", .str "https://site/"), ("priority", .num priority),
    ("discoveryPatterns", .arr []), ("knownPages", .arr (strings knownPages)),
    ("scanners", .arr []), ("domainId", .str "domain"), ("compliant", .bool true),
    ("enableCrawler", .bool true), ("deleted", .bool false), ("noBanner", .bool false),
    ("serviceTreeId", .str "service"), ("isCustomBanner", .bool false),
    ("isMicrosoftOwned", .bool true), ("isCookieManagable", .bool false)]

theorem isJson_sampleWebsite (priority : ℚ) (knownPages : List String) :
    (Val.obj (sampleWebsite priority knownPages)).IsJson := by
  have hknown : Val.IsJsonElems (strings knownPages) :=
    Val.isJsonElems_iff.mpr fun v hv => by
      obtain ⟨url, -, rfl⟩ := List.mem_map.mp hv
      exact nofun
  have hkeys : (Fields.keys (sampleWebsite 0 [])).Nodup := by decide
  exact ⟨hkeys, by simp [sampleWebsite, Val.IsJsonFields, Val.IsJson, Val.IsJsonElems, hknown]⟩

/-- The request that posts it. -/
def postSampleWebsite (priority : ℚ) (knownPages : List String) : ApiRequest :=
  ⟨.postWebsite, postContext ⟨.obj (sampleWebsite priority knownPages),
    isJson_sampleWebsite priority knownPages⟩⟩

/-- The request for an accessibility scan of a website, without a priority. -/
def postSampleScan (websiteId : String) : ApiRequest :=
  ⟨.postWebsiteScan, postContext ⟨.obj [("websiteId", .str websiteId), ("scanType", .str "a11y")],
    show (["websiteId", "scanType"] : List String).Nodup by decide, nofun, nofun, trivial⟩⟩

end WebInsights.StorageApi
