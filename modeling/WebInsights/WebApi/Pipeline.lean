/-
The order of the stages of a web request.

Whatever the stages of a request are answered, an API controller validates only a
request that was authorized, and handles only one that was authorized and then
validated; an exception ends the request where it happens. The statements are
about the answers seen so far, so they hold at every moment of a request.
-/
import WebInsights.Auth.Soundness
import WebInsights.WebApi.WebController

set_option autoImplicit false

namespace WebInsights.WebApi

open Auth Effect Js
open Cosmos (JsError)

/-! ## Authorization within a request -/

/-- An answer to `WebControllerAuth`, among those to `invoke`. -/
def liftAnswer (x : Sigma Auth.Operation.Result) : Sigma Stage.Result := ⟨.auth x.1, x.2⟩

theorem ofAuth_cases {α : Type} {p : AsyncAuth α} {seen : List (Sigma Stage.Result)}
    {q : AsyncStage α} (h : Trace (ofAuth p) seen q) :
    ∃ authSeen p', seen = authSeen.map liftAnswer ∧ q = ofAuth p' ∧ Trace p authSeen p' := by
  induction p generalizing seen with
  | pure a =>
    cases h
    exact ⟨[], _, rfl, rfl, .nil _⟩
  | throw e =>
    cases h
    exact ⟨[], _, rfl, rfl, .nil _⟩
  | call op k ih =>
    cases h with
    | nil => exact ⟨[], _, rfl, rfl, .nil _⟩
    | cons h =>
      obtain ⟨authSeen, p', rfl, hq, htrace⟩ := ih _ h
      exact ⟨⟨op, _⟩ :: authSeen, p', rfl, hq, .cons htrace⟩

theorem ofAuth_trace {α : Type} {p p' : AsyncAuth α} {authSeen : List (Sigma Auth.Operation.Result)}
    (h : Trace p authSeen p') : Trace (ofAuth p) (authSeen.map liftAnswer) (ofAuth p') := by
  induction h with
  | nil p => exact .nil _
  | cons _ ih => exact .cons ih

theorem ofAuth_eq_pure {α : Type} {p : AsyncAuth α} {a : α} (h : ofAuth p = .pure a) :
    p = .pure a := by
  cases p with
  | pure b =>
    cases h
    rfl
  | throw e => cases h
  | call op k => cases h

/-- The answers `before` took the request through authorization, which ended as
`outcome`. -/
def Authorization (controller : JsClass) (request : WebRequest)
    (before : List (Sigma Stage.Result)) (outcome : AsyncAuth (Bool × Option HttpResponse)) :
    Prop :=
  ∃ aclName authSeen, controller.aclName = some aclName ∧
    before = ⟨.setCommonProperties, .ok ()⟩ :: ⟨.getWebControllerAuth, .ok ()⟩ ::
      authSeen.map liftAnswer ∧
    Trace (WebControllerAuth.authorize request.authHeader aclName request.res) authSeen outcome

/-- The stages run in order, and each only after the one before it agreed. -/
structure Guarded (controller : JsClass) (request : WebRequest)
    (seen : List (Sigma Stage.Result)) (rest : AsyncStage (Val × Option HttpResponse)) :
    Prop where
  /-- A request that was handled was authorized, and then validated. -/
  handled : ∀ res answer, ⟨.handleRequest res, answer⟩ ∈ seen →
    ∃ before, Authorization controller request before (.pure (true, request.res)) ∧
      seen = before ++ [⟨.validateRequest request.res, (.ok true, res)⟩,
        ⟨.handleRequest res, answer⟩]
  /-- A request that was validated was authorized. -/
  validated : ∀ res answer, ⟨.validateRequest res, answer⟩ ∈ seen →
    ∃ before after, Authorization controller request before (.pure (true, request.res)) ∧
      seen = before ++ ⟨.validateRequest res, answer⟩ :: after
  /-- A request that is refused ends with the response 401. -/
  refused : ∀ before after res, seen = before ++ after →
    Authorization controller request before (.pure (false, res)) →
    after = [] ∧
      rest = .pure (.undefined, some ⟨some 401, none, WebApiErrorCodes.unauthorized.body⟩)
  /-- An exception in a stage ends the request. -/
  entryFails : ∀ e after, (seen = ⟨.setCommonProperties, .error e⟩ :: after ∨
      seen = ⟨.setCommonProperties, .ok ()⟩ :: ⟨.getWebControllerAuth, .error e⟩ :: after) →
    after = [] ∧ rest = .throw e
  authorizationFails : ∀ before after e, seen = before ++ after →
    Authorization controller request before (.throw e) → after = [] ∧ rest = .throw e
  validationFails : ∀ res res' e, ⟨.validateRequest res, (.error e, res')⟩ ∈ seen →
    (∃ before, seen = before ++ [⟨.validateRequest res, (.error e, res')⟩]) ∧ rest = .throw e
  handlingFails : ∀ res res' e, ⟨.handleRequest res, (.error e, res')⟩ ∈ seen → rest = .throw e

/-! ## The part before validation -/

/-- The API controllers are decorated: the metadata is found through the wrapper, and
the wrapper has an `aclName`. -/
theorem apiControllers_decorated {controller : JsClass} (h : controller ∈ apiControllers) :
    controller.getMetadata "authorize" = some true ∧
      ∃ aclName, controller.aclName = some aclName := by
  simp only [apiControllers, List.mem_cons, List.not_mem_nil, or_false] at h
  rcases h with rfl | rfl | rfl | rfl | rfl | rfl <;> exact ⟨rfl, _, rfl⟩

/-- The operations of the part before validation. -/
def Stage.Entering : Stage → Prop
  | .validateRequest _ => False
  | .handleRequest _ => False
  | _ => True

theorem uses_ofAuth {α : Type} (p : AsyncAuth α) : (ofAuth p).Uses Stage.Entering := by
  induction p with
  | pure a => trivial
  | throw e => trivial
  | call op k ih => exact ⟨trivial, ih⟩

theorem uses_enter (controller : JsClass) (request : WebRequest) :
    (WebController.enter controller request).Uses Stage.Entering := by
  unfold WebController.enter WebController.authorize
  refine Program.uses_bind ((Program.uses_perform _).mpr trivial) fun _ => ?_
  refine Program.uses_bind (Program.uses_ofExcept _) fun _ => ?_
  split
  · refine Program.uses_bind ((Program.uses_perform _).mpr trivial) fun _ => ?_
    exact Program.uses_bind (Program.uses_ofExcept _) fun _ => uses_ofAuth _
  · trivial

section

variable {controller : JsClass} {request : WebRequest} {seen : List (Sigma Stage.Result)}

theorem enter_of_authorization (hdecorated : controller.getMetadata "authorize" = some true)
    {outcome : AsyncAuth (Bool × Option HttpResponse)}
    (h : Authorization controller request seen outcome) :
    Trace (WebController.enter controller request) seen (ofAuth outcome) := by
  obtain ⟨aclName, authSeen, hname, rfl, htrace⟩ := h
  have hlift := ofAuth_trace htrace
  unfold WebController.enter WebController.authorize
  rw [if_pos hdecorated, hname]
  exact .cons (.cons hlift)

theorem authorization_of_enter (hdecorated : controller.getMetadata "authorize" = some true)
    {aclName : String} (hname : controller.aclName = some aclName) {a : Bool × Option HttpResponse}
    (h : Trace (WebController.enter controller request) seen (.pure a)) :
    Authorization controller request seen (.pure a) := by
  unfold WebController.enter WebController.authorize at h
  rw [if_pos hdecorated, hname] at h
  cases h with
  | @cons _ _ entered _ _ h =>
    rcases entered with e | u
    · exact absurd h Trace.of_throw
    · cases h with
      | @cons _ _ resolved _ _ h =>
        rcases resolved with e | u'
        · exact absurd h Trace.of_throw
        · obtain ⟨authSeen, p', rfl, hq, htrace⟩ := ofAuth_cases h
          obtain rfl := ofAuth_eq_pure hq.symm
          exact ⟨aclName, authSeen, hname, rfl, htrace⟩

/-! ## The part after it -/

variable {rest : AsyncStage (Val × Option HttpResponse)}

/-- How far validation and handling have come. -/
inductive Handling (res : Option HttpResponse) :
    List (Sigma Stage.Result) → AsyncStage (Val × Option HttpResponse) → Prop
  | waiting {rest : AsyncStage (Val × Option HttpResponse)} : Handling res [] rest
  | validationFailed {e : JsError} {res' : Option HttpResponse} :
      Handling res [⟨.validateRequest res, (.error e, res')⟩] (.throw e)
  | validated {valid : Bool} {res' : Option HttpResponse}
      {rest : AsyncStage (Val × Option HttpResponse)} :
      Handling res [⟨.validateRequest res, (.ok valid, res')⟩] rest
  | handled {res' : Option HttpResponse} {answer : Except JsError Val × Option HttpResponse}
      {rest : AsyncStage (Val × Option HttpResponse)}
      (hfail : ∀ e, answer.1 = .error e → rest = .throw e) :
      Handling res [⟨.validateRequest res, (.ok true, res')⟩, ⟨.handleRequest res', answer⟩] rest

/-- The handler answers last, right after the validation that agreed. -/
theorem Handling.of_handled {res res' : Option HttpResponse}
    {answer : Except JsError Val × Option HttpResponse} (h : Handling res seen rest)
    (hmem : ⟨.handleRequest res', answer⟩ ∈ seen) :
    seen = [⟨.validateRequest res, (.ok true, res')⟩, ⟨.handleRequest res', answer⟩] ∧
      ∀ e, answer.1 = .error e → rest = .throw e := by
  cases h with
  | waiting => cases hmem
  | validationFailed => simp at hmem
  | validated => simp at hmem
  | handled hfail =>
    simp only [List.mem_cons, List.not_mem_nil, or_false] at hmem
    rcases hmem with hmem | hmem
    · cases hmem
    · cases hmem
      exact ⟨rfl, hfail⟩

/-- The validation answers first, and alone if it failed. -/
theorem Handling.of_validated {res res' : Option HttpResponse}
    {answer : Except JsError Bool × Option HttpResponse} (h : Handling res seen rest)
    (hmem : ⟨.validateRequest res', answer⟩ ∈ seen) :
    (∃ after, seen = ⟨.validateRequest res', answer⟩ :: after) ∧
      ∀ e, answer.1 = .error e →
        seen = [⟨.validateRequest res', answer⟩] ∧ rest = .throw e := by
  cases h with
  | waiting => cases hmem
  | validationFailed =>
    obtain ⟨⟩ := List.mem_singleton.mp hmem
    refine ⟨⟨[], rfl⟩, fun e he => ?_⟩
    cases he
    exact ⟨rfl, rfl⟩
  | validated =>
    obtain ⟨⟩ := List.mem_singleton.mp hmem
    refine ⟨⟨[], rfl⟩, fun e he => ?_⟩
    cases he
  | handled hfail =>
    simp only [List.mem_cons, List.not_mem_nil, or_false] at hmem
    rcases hmem with hmem | hmem
    · -- the other answer is not one to a validation
      cases hmem
      refine ⟨⟨_, rfl⟩, fun e he => ?_⟩
      cases he
    · cases hmem

theorem validateAndHandle_trace {res : Option HttpResponse}
    (h : Trace (WebController.validateAndHandle res) seen rest) : Handling res seen rest := by
  cases h with
  | nil => exact .waiting
  | @cons _ _ validated _ _ h =>
    obtain ⟨valid, res'⟩ := validated
    rcases valid with e | valid
    · cases h
      exact .validationFailed
    · cases valid with
      | false =>
        cases h
        exact .validated
      | true =>
        cases h with
        | nil => exact .validated
        | @cons _ _ answer _ _ h =>
          obtain ⟨result, res''⟩ := answer
          rcases result with e | v
          · cases h
            refine .handled fun e' he' => ?_
            cases he'
            rfl
          · cases h
            refine .handled fun e' he' => ?_
            cases he'

/-! ## The whole request -/

/-- A request is on its way in, was refused, or goes on to validation. -/
theorem invoke_cases (hdecorated : controller.getMetadata "authorize" = some true)
    {aclName : String} (hname : controller.aclName = some aclName)
    (h : Trace (WebController.invoke controller request) seen rest) :
    (∀ x ∈ seen, x.1.Entering) ∨
    ∃ before after, seen = before ++ after ∧ (∀ x ∈ before, x.1.Entering) ∧
      Authorization controller request before (.pure (true, request.res)) ∧
      Handling request.res after rest := by
  unfold WebController.invoke at h
  rw [Program.tryCatch_throw] at h
  rcases Trace.bind_cases h with ⟨p', h, -⟩ | ⟨before, after, entered, rfl, h₁, h₂⟩
  · exact Or.inl (h.uses_seen (uses_enter controller request))
  · have hbefore := h₁.uses_seen (uses_enter controller request)
    have hauthorization := authorization_of_enter hdecorated hname h₁
    obtain ⟨authorized, res⟩ := entered
    cases authorized with
    -- without an authorization the response is what entering has left
    | false =>
      left
      cases h₂
      rwa [List.append_nil]
    | true =>
      right
      obtain ⟨name, authSeen, -, -, htrace⟩ := id hauthorization
      rcases authorize_cases htrace with ⟨-, rfl, -⟩ | ⟨hfalse, -⟩
      · exact ⟨before, after, rfl, hbefore, hauthorization, validateAndHandle_trace h₂⟩
      · cases hfalse

/-- A stage past the entry was answered only after an authorization. -/
theorem invoke_past_entry (hdecorated : controller.getMetadata "authorize" = some true)
    {aclName : String} (hname : controller.aclName = some aclName)
    (h : Trace (WebController.invoke controller request) seen rest)
    {x : Sigma Stage.Result} (hmem : x ∈ seen) (hpast : ¬ x.1.Entering) :
    ∃ before after, seen = before ++ after ∧
      Authorization controller request before (.pure (true, request.res)) ∧ x ∈ after ∧
      Handling request.res after rest := by
  rcases invoke_cases hdecorated hname h with
    hentering | ⟨before, after, rfl, hentering, hauthorized, hhandling⟩
  · exact absurd (hentering x hmem) hpast
  · refine ⟨before, after, rfl, hauthorized, ?_, hhandling⟩
    exact (List.mem_append.mp hmem).resolve_left fun hbefore => hpast (hentering x hbefore)

/-- What `invoke` does after the part before validation. -/
theorem invoke_drop {before after : List (Sigma Stage.Result)}
    {entered : AsyncStage (Bool × Option HttpResponse)}
    (h : Trace (WebController.invoke controller request) (before ++ after) rest)
    (hentered : Trace (WebController.enter controller request) before entered) :
    Trace (entered >>= fun entered =>
      if entered.1 = true then WebController.validateAndHandle entered.2
      else pure (.undefined, entered.2)) after rest := by
  unfold WebController.invoke at h
  rw [Program.tryCatch_throw] at h
  exact h.drop (hentered.bind _)

/-- **No unauthorized or invalid request has an effect.** For each of the API
controllers, at every moment of every request, whatever its stages are answered. -/
theorem invoke_guarded (controller : JsClass) (hcontroller : controller ∈ apiControllers)
    (request : WebRequest) {seen : List (Sigma Stage.Result)}
    {rest : AsyncStage (Val × Option HttpResponse)}
    (h : Trace (WebController.invoke controller request) seen rest) :
    Guarded controller request seen rest := by
  obtain ⟨hdecorated, aclName, hname⟩ := apiControllers_decorated hcontroller
  exact {
    -- the entry has been passed, so what follows is the handling of the request
    handled := by
      intro res answer hmem
      obtain ⟨before, after, rfl, hauthorized, hafter, hhandling⟩ :=
        invoke_past_entry hdecorated hname h hmem id
      obtain ⟨rfl, -⟩ := hhandling.of_handled hafter
      exact ⟨before, hauthorized, rfl⟩
    validated := by
      intro res answer hmem
      obtain ⟨before, after, rfl, hauthorized, hafter, hhandling⟩ :=
        invoke_past_entry hdecorated hname h hmem id
      obtain ⟨⟨tail, rfl⟩, -⟩ := hhandling.of_validated hafter
      exact ⟨before, tail, hauthorized, rfl⟩
    refused := by
      rintro before after res rfl hrefused
      have hrest := invoke_drop h (enter_of_authorization hdecorated hrefused)
      obtain ⟨name, authSeen, -, -, htrace⟩ := hrefused
      rcases authorize_cases htrace with ⟨hfalse, -⟩ | ⟨-, rfl⟩
      · cases hfalse
      · cases hrest
        exact ⟨rfl, rfl⟩
    -- nothing runs after an entry that throws
    entryFails := by
      rintro e after (rfl | rfl)
      · have hentered : Trace (WebController.enter controller request)
            [⟨.setCommonProperties, .error e⟩] (.throw e) := .cons (.nil _)
        cases invoke_drop h hentered
        exact ⟨rfl, rfl⟩
      · have hentered : Trace (WebController.enter controller request)
            [⟨.setCommonProperties, .ok ()⟩, ⟨.getWebControllerAuth, .error e⟩] (.throw e) := by
          unfold WebController.enter WebController.authorize
          rw [if_pos hdecorated]
          exact .cons (.cons (.nil _))
        cases invoke_drop h hentered
        exact ⟨rfl, rfl⟩
    authorizationFails := by
      rintro before after e rfl hfails
      have hrest := invoke_drop h (enter_of_authorization hdecorated hfails)
      cases hrest
      exact ⟨rfl, rfl⟩
    validationFails := by
      intro res res' e hmem
      obtain ⟨before, after, rfl, -, hafter, hhandling⟩ :=
        invoke_past_entry hdecorated hname h hmem id
      obtain ⟨rfl, hrest⟩ := (hhandling.of_validated hafter).2 e rfl
      exact ⟨⟨before, rfl⟩, hrest⟩
    handlingFails := by
      intro res res' e hmem
      obtain ⟨before, after, rfl, -, hafter, hhandling⟩ :=
        invoke_past_entry hdecorated hname h hmem id
      exact (hhandling.of_handled hafter).2 e rfl }

end

/-! ### A request that is handled -/

/-- The list an application is let in by. -/
def sampleAcl : Acl where
  issuer := .str "https://sts.windows.net/tenant/"
  publicKeysUrl := .str "https://login.test/keys"
  audience := .str "api://web-insights"
  appIds := .arr [.str "app-1"]
  valid := true

/-- The answers to a request that is authorized by a cached list, valid, and handled. -/
def sampleSeen : List (Sigma Stage.Result) :=
  [⟨.setCommonProperties, .ok ()⟩, ⟨.getWebControllerAuth, .ok ()⟩,
    ⟨.auth (.cacheGet "aclApiReadAll"), some sampleAcl⟩,
    ⟨.auth (.verifyToken "token" ⟨sampleAcl.publicKeysUrl, sampleAcl.issuer, sampleAcl.audience⟩),
      .ok (.obj [("aud", .str "api://web-insights"), ("appid", .str "app-1")])⟩,
    ⟨.validateRequest none, (.ok true, none)⟩,
    ⟨.handleRequest none, (.ok .undefined, some ⟨some 200, none, .null⟩)⟩]

theorem invoke_guarded_sample :
    Guarded GetWebsiteController ⟨some "Bearer token", none⟩ sampleSeen
      (.pure (.undefined, setResponseContentTypeHeader (some ⟨some 200, none, .null⟩))) := by
  have htrace : Trace (WebController.invoke GetWebsiteController ⟨some "Bearer token", none⟩)
      sampleSeen
      (.pure (.undefined, setResponseContentTypeHeader (some ⟨some 200, none, .null⟩))) :=
    .cons (.cons (.cons (.cons (.cons (.cons (.nil _))))))
  exact invoke_guarded GetWebsiteController (by simp [apiControllers]) _ htrace

end WebInsights.WebApi
