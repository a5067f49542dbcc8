/-
A website that the client posts may be posted more than once.

Whatever gets lost on the way, the client sends its request again, and the storage API serves
every request that reaches it. A website that is posted without an id is created once for each
of them. One that is posted with its id is created or merged by the first, and the others leave
its known pages and its pages as they are (`Posts.effect`): posting is idempotent for websites
that name themselves.
-/
import WebInsights.StorageApi.RoundTrip
import WebInsights.StorageApiClient.LossyNetwork

set_option autoImplicit false

namespace WebInsights.StorageApiClient

open Common Cosmos Effect Js Providers StorageApi WebApi

/-! ## The storage API behind the network -/

/-- The endpoint of a function of the storage. -/
def ApiFunction.endpoint : ApiFunction → Option Endpoint
  | .getHealthReport => none
  | .getWebsite => some .getWebsite
  | .getWebsiteScan => some .getWebsiteScan
  | .postPage => some .postPage
  | .postWebsite => some .postWebsite
  | .postWebsiteScan => some .postWebsiteScan

section

variable {baseUrl : String} (host : FunctionHost baseUrl) (env : Environment) (svc : Service)

/-- A request to an endpoint that was let in, and the response the host makes of it. -/
def serveEndpoint (r : ApiRequest) (w : World) : Val × World :=
  let result := (r.serve env).run (World.handle svc) w
  (host.respond result.1, result.2)

/-- A request to the storage API: what becomes of the requests that are for none of its
functions is left open. -/
def serveStorage (others : HttpRequest → World → Val × World) (request : HttpRequest) (w : World) :
    Val × World :=
  match host.receive request with
  | some (function, context) =>
    match function.endpoint with
    | some endpoint => serveEndpoint host env svc ⟨endpoint, context⟩ w
    | none => others request w
  | none => others request w

/-- A request that differs in the other headers only is served in the same way. -/
theorem serve_headers (endpoint : Endpoint) (context : Context)
    {headers headers' : Option (List (String × String))}
    (h : headers.bind (List.lookup "content-type") = headers'.bind (List.lookup "content-type")) :
    (ApiRequest.mk endpoint { context with headers := headers }).serve env =
      (ApiRequest.mk endpoint { context with headers := headers' }).serve env := by
  have hcontent : ∀ res, ApiRequestValidator.validateContentType
        { context with headers := headers } res =
      ApiRequestValidator.validateContentType { context with headers := headers' } res := by
    intro res
    unfold ApiRequestValidator.validateContentType
    rw [h]
    rfl
  have hbase : ∀ versions res, ApiRequestValidator.validateRequest versions
        { context with headers := headers } res =
      ApiRequestValidator.validateRequest versions { context with headers := headers' } res := by
    intro versions res
    unfold ApiRequestValidator.validateRequest
    simp only [hcontent]
    rfl
  have hvalidated : ∀ checks checks' : Option HttpResponse → Bool × Option HttpResponse,
      checks = checks' →
      StorageApi.validateRequest { context with headers := headers } none checks =
        StorageApi.validateRequest { context with headers := headers' } none checks' := by
    rintro checks checks' rfl
    unfold StorageApi.validateRequest
    rw [hbase]
  -- the handlers do not look at the headers
  have hserve : ∀ v v' : Bool × Option HttpResponse, v = v' →
      (if v.1 = true then do
          let res ← endpoint.handleRequest env { context with headers := headers } v.2
          pure (setResponseContentTypeHeader res)
        else pure (setResponseContentTypeHeader v.2) : Async (Option HttpResponse)) =
      (if v'.1 = true then do
          let res ← endpoint.handleRequest env { context with headers := headers' } v'.2
          pure (setResponseContentTypeHeader res)
        else pure (setResponseContentTypeHeader v'.2)) := by
    rintro v v' rfl
    cases endpoint <;> rfl
  refine hserve _ _ ?_
  cases endpoint <;>
    simp only [ApiRequest.validated, Endpoint.validateRequest,
      PostWebsiteRequestValidator.validateRequest, GetWebsiteRequestValidator.validateRequest,
      PostWebsiteScanRequestValidator.validateRequest,
      GetWebsiteScanRequestValidator.validateRequest,
      PostPageRequestValidator.validateRequest] <;>
    refine hvalidated _ _ ?_ <;> rfl

variable {host env svc}

theorem Call.request_headers (client : WebInsightsStorageClient) (call : Call) :
    (call.request client).headers = [("Content-Type", "application/json")] := by
  cases call with
  | getHealthReport releaseId => cases releaseId <;> rfl
  | _ => rfl

/-- **A call arrives at its endpoint** with its arguments, whatever token it is signed with. -/
theorem servedAs_endpoint {client : WebInsightsStorageClient}
    {host : FunctionHost client.baseUrl} {others : HttpRequest → World → Val × World} {call : Call}
    (hkept : call.KeptArguments) {endpoint : Endpoint}
    (hendpoint : call.function.endpoint = some endpoint) :
    ServedAs (serveStorage host env svc others) (call.request client)
      (serveEndpoint host env svc
        ⟨endpoint, contextOf (call.request client) call.arguments⟩) := by
  intro token w
  have hlower : lowerCase "Content-Type" = "content-type" := by decide
  have hheaders : (contextOf ((call.request client).signed token) call.arguments).headers.bind
        (List.lookup "content-type") =
      (contextOf (call.request client) call.arguments).headers.bind
        (List.lookup "content-type") := by
    simp only [contextOf, HttpRequest.signed, call.request_headers, List.map_append, List.map_cons,
      List.map_nil, hlower, Option.bind_some, List.cons_append, List.lookup_cons_self]
  have hserve := serve_headers env endpoint (contextOf (call.request client) call.arguments)
    hheaders
  simp only [serveStorage, call.receives host hkept token, hendpoint, serveEndpoint]
  exact congrArg (fun p : Async (Option HttpResponse) =>
    (host.respond (p.run (World.handle svc) w).1, (p.run (World.handle svc) w).2)) hserve

/-- The request of `postWebsite`, as it arrives. -/
theorem contextOf_postWebsite {client : WebInsightsStorageClient}
    (hversion : client.apiVersion = "1.0") (website : Json) :
    contextOf ((Call.postWebsite website.val).request client)
        (Call.postWebsite website.val).arguments = postContext website := by
  have hlower : lowerCase "Content-Type" = "content-type" := by decide
  simp only [contextOf, Call.request, Call.line, Call.arguments, postContext, List.map_cons,
    List.map_nil, hlower, hversion, website.isJson.toJson_eq, website.isJson.ne_undefined]
  rfl

end

/-! ## One website, posted again and again -/

/-- What is stored of a website is the same in two worlds. -/
def SameSite (w w' : World) (id : String) : Prop :=
  storedWebsite w' id = storedWebsite w id ∧ pagesOf w' id = pagesOf w id

/-- Requests that post the same payload, one after another, with the ids and the documents they
wrote. -/
inductive Posts (payload : Fields) (w : World) : List (String × Document) → World → Prop
  | nil : Posts payload w [] w
  | post {posted : List (String × Document)} {w' w'' : World} {id : String} {D : Document}
      (h : Posts payload w posted w')
      (hknown : ∀ S, storedWebsite w' id = some S → ∃ us, S.get "knownPages" = .arr (strings us))
      (hpost : Posted w' payload id D w'') :
      Posts payload w (posted ++ [(id, D)]) w''

/-- A website knows the posted pages, and each known page has a page document. -/
def Complete (payload : Fields) (w : World) (id : String) (D : Document) : Prop :=
  ∃ ks, D.get "knownPages" = .arr (strings ks) ∧
    (∀ vs, Fields.get payload "knownPages" = .arr (strings vs) → vs ⊆ ks) ∧
    ∀ u ∈ ks, .str u ∈ (pagesOf w id).map fun P => P.get "url"

/-- Two documents know the same pages. -/
def SameKnownPages (D D' : Document) : Prop :=
  ∃ ks ks', D.get "knownPages" = .arr (strings ks) ∧ D'.get "knownPages" = .arr (strings ks') ∧
    ∀ u, u ∈ ks ↔ u ∈ ks'

section

variable {payload : Fields} {w w' : World} {id : String} {D : Document}

/-- A request leaves a website complete. -/
theorem complete_of_posted
    (hknown : ∀ S, storedWebsite w id = some S → ∃ us, S.get "knownPages" = .arr (strings us))
    (h : Posted w payload id D w') : Complete payload w' id D := by
  obtain ⟨v, hwritten⟩ := h.written
  obtain ⟨ks, news, hks, hpages, hnews⟩ := h.pages
  refine ⟨ks, hks, fun vs hvs => ?_, fun u hu => ?_⟩
  · rcases hS : storedWebsite w id with _ | S
    · have hposted := hwritten.posted hS "knownPages" (by decide) (by decide)
      rw [hks, hvs] at hposted
      rw [strings_injective (Val.arr.inj hposted)]
      exact List.Subset.refl vs
    · obtain ⟨us, hus⟩ := hknown S hS
      obtain ⟨ks', hks', -, hmem⟩ := hwritten.merged S us vs hS hus hvs
      obtain rfl := strings_injective (Val.arr.inj (hks.symm.trans hks'))
      exact fun u hu => (hmem u).mpr (Or.inr hu)
  · -- a page is missing, or was there
    rw [hpages, List.map_append, hnews, List.mem_append]
    by_cases hthere : Val.str u ∈ (pagesOf w id).map fun P => P.get "url"
    · exact Or.inl hthere
    · right
      simp only [strings, missingUrls, List.mem_map, List.mem_filter, decide_eq_true_eq]
      exact ⟨u, ⟨hu, by simpa using hthere⟩, rfl⟩

variable (hp : WebsitePayload payload)

include hp

/-- **Posting a complete website again** leaves its known pages and its pages as they are. -/
theorem Complete.posted_again {S : Document} (hcomplete : Complete payload w id S)
    (hS : storedWebsite w id = some S) (h : Posted w payload id D w') :
    SameKnownPages S D ∧ pagesOf w' id = pagesOf w id ∧ Complete payload w' id D := by
  obtain ⟨us, hus, hsub, hthere⟩ := hcomplete
  obtain ⟨v, hwritten⟩ := h.written
  obtain ⟨ks, news, hks, hpages, hnews⟩ := h.pages
  obtain ⟨vs, hvs⟩ := hp.knownPages
  obtain ⟨ks', hks', -, hmem⟩ := hwritten.merged S us vs hS hus hvs
  obtain rfl := strings_injective (Val.arr.inj (hks.symm.trans hks'))
  have hsame : ∀ u, u ∈ us ↔ u ∈ ks := by
    intro u
    rw [hmem]
    exact ⟨Or.inl, fun hu => hu.elim (fun hu => hu) fun hu => hsub vs hvs hu⟩
  -- every known page has its page, so none is created
  have hmissing : missingUrls ks (pagesOf w id) = [] := by
    rw [missingUrls, List.filter_eq_nil_iff]
    intro u hu
    simpa using hthere u ((hsame u).mpr hu)
  rw [hmissing] at hnews
  rw [List.map_eq_nil_iff.mp hnews, List.append_nil] at hpages
  refine ⟨⟨us, ks, hus, hks, hsame⟩, hpages, ks, hks, fun vs' hvs' u hu => ?_, fun u hu => ?_⟩
  · exact (hsame u).mp (hsub vs' hvs' hu)
  · rw [hpages]
    exact hthere u ((hsame u).mpr hu)

/-- What the requests did to a website: it is stored with the known pages and the pages that one
of them makes of what was stored of it before. -/
def PostedOnce (payload : Fields) (w w' : World) (id : String) : Prop :=
  ∃ w₀ D₁ w₁ D, SameSite w w₀ id ∧ Posted w₀ payload id D₁ w₁ ∧ storedWebsite w' id = some D ∧
    SameKnownPages D₁ D ∧ pagesOf w' id = pagesOf w₁ id

omit hp in
/-- Another website is left alone. -/
theorem Posts.others {posted : List (String × Document)} (h : Posts payload w posted w')
    {id : String} (hid : id ∉ posted.map Prod.fst) : SameSite w w' id := by
  induction h with
  | nil => exact ⟨rfl, rfl⟩
  | post h hknown hpost ih =>
    rw [List.map_append, List.mem_append, not_or] at hid
    obtain ⟨hstored, hpages⟩ := ih hid.1
    have hne := fun heq => hid.2 (List.mem_singleton.mpr heq)
    exact ⟨(hpost.websites id hne).trans hstored, (hpost.others id hne).trans hpages⟩

/-- **However often a website was posted**, it is as if it had been posted once. -/
theorem Posts.once {posted : List (String × Document)} (h : Posts payload w posted w')
    {id : String} (hid : id ∈ posted.map Prod.fst) : PostedOnce payload w w' id := by
  -- what makes posting it again harmless is carried along: the website is complete
  have hcomplete : ∃ w₀ D₁ w₁ D, SameSite w w₀ id ∧ Posted w₀ payload id D₁ w₁ ∧
      storedWebsite w' id = some D ∧ SameKnownPages D₁ D ∧ pagesOf w' id = pagesOf w₁ id ∧
      Complete payload w' id D := by
    induction h with
    | nil => cases hid
    | @post posted w' w'' own D h hknown hpost ih =>
      by_cases hne : id = own
      · subst hne
        have hlast := complete_of_posted hknown hpost
        by_cases hbefore : id ∈ posted.map Prod.fst
        · -- it had been posted before
          obtain ⟨w₀, D₁, w₁, S, hsame, hfirst, hS, hpages, hids, hcomplete⟩ := ih hbefore
          obtain ⟨hagain, hpages', hcomplete'⟩ := hcomplete.posted_again hp hS hpost
          obtain ⟨ks, ks', hks, hks', hmem⟩ := hpages
          obtain ⟨ls, ls', hls, hls', hmem'⟩ := hagain
          obtain rfl := strings_injective (Val.arr.inj (hks'.symm.trans hls))
          exact ⟨w₀, D₁, w₁, D, hsame, hfirst, hpost.stored,
            ⟨ks, ls', hks, hls', fun u => (hmem u).trans (hmem' u)⟩, hpages'.trans hids,
            hcomplete'⟩
        · have hself : SameKnownPages D D := by
            obtain ⟨ks, hks, -, -⟩ := hlast
            exact ⟨ks, ks, hks, hks, fun _ => Iff.rfl⟩
          exact ⟨w', D, w'', D, h.others hbefore, hpost, hpost.stored, hself, rfl, hlast⟩
      · rw [List.map_append, List.mem_append] at hid
        obtain ⟨w₀, D₁, w₁, S, hsame, hfirst, hS, hknown', hpages, hcomplete⟩ :=
          ih (hid.resolve_right fun h => hne (List.mem_singleton.mp h))
        have hother := hpost.others id hne
        refine ⟨w₀, D₁, w₁, S, hsame, hfirst, (hpost.websites id hne).trans hS, hknown',
          hother.trans hpages, ?_⟩
        obtain ⟨ks, hks, hsub, hthere⟩ := hcomplete
        exact ⟨ks, hks, hsub, by rwa [hother]⟩
  obtain ⟨w₀, D₁, w₁, D, hsame, hfirst, hD, hknown, hpages, -⟩ := hcomplete
  exact ⟨w₀, D₁, w₁, D, hsame, hfirst, hD, hknown, hpages⟩

/-- Without an id, every request creates a website that was not there. -/
theorem Posts.created {posted : List (String × Document)} (h : Posts payload w posted w')
    (hnew : Fields.get payload "id" = .undefined) :
    (posted.map Prod.fst).Nodup ∧ ∀ id ∈ posted.map Prod.fst, storedWebsite w id = none := by
  induction h with
  | nil => exact ⟨List.nodup_nil, fun id hid => by cases hid⟩
  | @post posted w' w'' own D h hknown hpost ih =>
    obtain ⟨hnodup, hnone⟩ := ih
    obtain ⟨v, hwritten⟩ := hpost.written
    have hown : storedWebsite w' own = none := by
      rcases hwritten.given with hid | ⟨-, hnone⟩
      · rw [hnew] at hid
        cases hid
      · exact hnone
    -- the ids that were written before belong to stored websites
    have hfresh : own ∉ posted.map Prod.fst := by
      intro hmem
      obtain ⟨w₀, D₁, w₁, S, -, -, hS, -⟩ := h.once hp hmem
      rw [hown] at hS
      cases hS
    rw [List.map_append, List.map_singleton]
    refine ⟨List.nodup_append.mpr ⟨hnodup, List.nodup_singleton own, ?_⟩, ?_⟩
    · intro a ha b hb
      obtain rfl := List.mem_singleton.mp hb
      rintro rfl
      exact hfresh ha
    · intro id hid
      rcases List.mem_append.mp hid with hid | hid
      · exact hnone id hid
      · obtain rfl := List.mem_singleton.mp hid
        exact (h.others hfresh).1.symm.trans hown

omit hp in
/-- With an id, every request is about that website. -/
theorem Posts.named {posted : List (String × Document)} (h : Posts payload w posted w')
    {own : String} (hown : Fields.get payload "id" = .str own) :
    ∀ id ∈ posted.map Prod.fst, id = own := by
  induction h with
  | nil => exact fun id hid => by cases hid
  | @post posted w' w'' last D h hknown hpost ih =>
    intro id hid
    rw [List.map_append, List.mem_append] at hid
    rcases hid with hid | hid
    · exact ih id hid
    · obtain rfl := List.mem_singleton.mp hid
      obtain ⟨v, hwritten⟩ := hpost.written
      rcases hwritten.given with hid | ⟨hid, -⟩
      · simpa using hid.symm.trans hown
      · rw [hown] at hid
        cases hid

end

/-! ## The requests of a call -/

section

variable {baseUrl : String} {host : FunctionHost baseUrl} {env : Environment} {svc : Service}
  (hnewId : ∀ n, isValidV6Guid (svc.newId n) = false) {website : Json} {payload : Fields}
  (haccepted : (ApiRequest.mk .postWebsite (postContext website)).Accepted env)
  (hpayload : website.val = .obj payload)

/-- The request that posts the website, and the response. -/
abbrev servePost (host : FunctionHost baseUrl) (env : Environment) (svc : Service)
    (website : Json) : World → Val × World :=
  serveEndpoint host env svc ⟨.postWebsite, postContext website⟩

/-- The world after so many of these requests. -/
abbrev afterPosts (host : FunctionHost baseUrl) (env : Environment) (svc : Service)
    (website : Json) (n : ℕ) (w : World) : World :=
  (fun w => (servePost host env svc website w).2)^[n] w

include hnewId haccepted hpayload

/-- One request: the website and its pages as they are then stored. -/
theorem servePost_posted {w : World} (hw : w.faults = [])
    (hshape : w.Shaped svc (shape env.fnv1a fun _ => True))
    (hunused : Unused w (uuidsFor w payload)) :
    ∃ id D status, status ∈ [200, 201] ∧ isValidV6Guid id = true ∧
      (servePost host env svc website w).1 = gotResponse status
        (websiteBody D (pagesOf (servePost host env svc website w).2 id)).toJson ∧
      Posted w payload id D (servePost host env svc website w).2 ∧
      (servePost host env svc website w).2.Shaped svc (shape env.fnv1a fun _ => True) := by
  obtain ⟨payload', hp, hparsed⟩ := websitePayload_of_accepted haccepted
  obtain rfl : payload = payload' :=
    Val.obj.inj (hpayload.symm.trans (congrArg Prod.fst (hparsed none)))
  obtain ⟨id, D, w', status, hrun, hstatus, hposted⟩ := @run_postWebsite env svc hnewId w hw hshape
    payload hp (postContext website) hparsed hunused
    ((ApiRequest.mk .postWebsite (postContext website)).validated env).2
  have hserve := ApiRequest.run_serve_ok env svc haccepted hrun
  have hshape' := shaped_run (@keeps_postWebsite env svc _ hnewId (postContext website)) hshape
  have hsecond : (servePost host env svc website w).2 = w' := congrArg Prod.snd hserve
  rw [← hsecond] at hposted
  obtain ⟨v, hwritten⟩ := hposted.written
  refine ⟨id, D, status, hstatus, hwritten.valid, ?_, hposted, hshape'⟩
  have hfirst : (servePost host env svc website w).1 =
      host.respond (.ok (some (jsonResponse status (websiteBody D (pagesOf w' id))))) :=
    congrArg (fun result => host.respond (Prod.fst result)) hserve
  rw [hfirst, hsecond]
  exact host.responds _ _ _

/-- **So many requests**, each of which finds unused UUIDs. -/
theorem posts_afterPosts {w : World} (hw : w.faults = [])
    (hshape : w.Shaped svc (shape env.fnv1a fun _ => True)) {n : ℕ}
    (hunused : ∀ k < n, Unused (afterPosts host env svc website k w)
      (uuidsFor (afterPosts host env svc website k w) payload)) :
    ∃ posted, posted.length = n ∧ Posts payload w posted (afterPosts host env svc website n w) ∧
      (afterPosts host env svc website n w).faults = [] ∧
      (afterPosts host env svc website n w).Shaped svc (shape env.fnv1a fun _ => True) := by
  induction n with
  | zero => exact ⟨[], rfl, .nil, hw, hshape⟩
  | succ n ih =>
    obtain ⟨posted, hlength, hposts, hfaults, hshape'⟩ := ih fun k hk => hunused k (by omega)
    obtain ⟨id, D, status, -, hvalid, -, hposted, hshape''⟩ :=
      @servePost_posted _ host env svc hnewId website payload haccepted hpayload _ hfaults hshape'
        (hunused n (by omega))
    have hknown : ∀ S, storedWebsite (afterPosts host env svc website n w) id = some S →
        ∃ us, S.get "knownPages" = .arr (strings us) := fun S hS =>
      exists_knownPages hshape' hS hvalid
    rw [afterPosts, Function.iterate_succ_apply']
    refine ⟨posted ++ [(id, D)], by simp [hlength], .post hposts hknown hposted, hposted.faults,
      hshape''⟩

end

/-! ## A call -/

section

variable {texts : ErrorTexts} {client : WebInsightsStorageClient}
  (hversion : client.apiVersion = "1.0") {host : FunctionHost client.baseUrl}
  {env : Environment} {svc : Service} (hnewId : ∀ n, isValidV6Guid (svc.newId n) = false)
  {others : HttpRequest → World → Val × World} {website : Json} {payload : Fields}
  (hpayload : website.val = .obj payload)
  (haccepted : (ApiRequest.mk .postWebsite (postContext website)).Accepted env)
  {w : World} (hw : w.faults = []) (hshape : w.Shaped svc (shape env.fnv1a fun _ => True))
  (hunused : ∀ k < client.maxRetryCount, Unused (afterPosts host env svc website k w)
    (uuidsFor (afterPosts host env svc website k w) payload))

include hversion in
theorem servedAs_postWebsite : ServedAs (serveStorage host env svc others)
    ((Call.postWebsite website.val).request client) (servePost host env svc website) := by
  have h := @servedAs_endpoint env svc client host others (.postWebsite website.val)
    (fun argument hmem => absurd hmem List.not_mem_nil) .postWebsite rfl
  rwa [contextOf_postWebsite hversion] at h

include hversion hnewId hpayload haccepted hw hshape hunused

/-- The posts of a call, and its response. -/
theorem posts_over (course : Course) (acquired sent : ℕ) :
    ∃ n ≤ client.maxRetryCount, ∃ out s' posted,
      (Call.postWebsite website.val).over texts client course (serveStorage host env svc others)
        ⟨w, acquired, sent⟩ = (out, s') ∧
      posted.length = course.served sent n ∧ Posts payload w posted s'.state ∧
      s'.state.faults = [] ∧ s'.state.Shaped svc (shape env.fnv1a fun _ => True) ∧
      ∀ response, out = .ok response →
        (∃ m, n = m + 1 ∧ course.deliveries (sent + m) = .refused response) ∨
        ∃ before id D status, posted = before ++ [(id, D)] ∧ status ∈ [200, 201] ∧
          isValidV6Guid id = true ∧ storedWebsite s'.state id = some D ∧
          response = gotResponse status (websiteBody D (pagesOf s'.state id)).toJson := by
  obtain ⟨n, hn, -, hstate, hresponse⟩ := @over_served _ texts client (.postWebsite website.val)
    course _ _ (@servedAs_postWebsite client hversion host env svc others website)
    ⟨w, acquired, sent⟩
  generalize hover : (Call.postWebsite website.val).over texts client course
    (serveStorage host env svc others) ⟨w, acquired, sent⟩ = run at hstate hresponse
  obtain ⟨out, s'⟩ := run
  dsimp only at hstate hresponse
  have hserved := course.served_le sent n
  -- only the requests that are served need unused UUIDs
  have hposts : ∀ k ≤ course.served sent n, ∃ posted, posted.length = k ∧
      Posts payload w posted (afterPosts host env svc website k w) ∧
      (afterPosts host env svc website k w).faults = [] ∧
      (afterPosts host env svc website k w).Shaped svc (shape env.fnv1a fun _ => True) :=
    fun k hk => posts_afterPosts hnewId haccepted hpayload hw hshape
      fun i hi => hunused i (by omega)
  refine ⟨n, hn, out, s', ?_⟩
  by_cases hlast : ∃ m, n = m + 1 ∧ course.deliveries (sent + m) = .served
  · -- the last request is the one that was served last
    obtain ⟨m, rfl, hdelivery⟩ := hlast
    have hcount : course.served sent (m + 1) = course.served sent m + 1 := by
      rw [course.served_succ, hdelivery]
      rfl
    obtain ⟨posted, hlength, hchain, hfaults, hshape'⟩ := hposts (course.served sent m) (by omega)
    obtain ⟨id, D, status, hstatus, hvalid, hanswer, hposted, hshape''⟩ :=
      @servePost_posted _ host env svc hnewId website payload haccepted hpayload _ hfaults hshape'
        (hunused _ (by omega))
    have hknown : ∀ S, storedWebsite (afterPosts host env svc website (course.served sent m) w) id =
        some S → ∃ us, S.get "knownPages" = .arr (strings us) := fun S hS =>
      exists_knownPages hshape' hS hvalid
    rw [hcount, Function.iterate_succ_apply'] at hstate
    rw [← hstate] at hposted hshape'' hanswer
    refine ⟨posted ++ [(id, D)], rfl, by simp [hlength, hcount], .post hchain hknown hposted,
      hposted.faults, hshape'', fun response hout => Or.inr ?_⟩
    obtain ⟨m', hm, hresponds⟩ := hresponse response hout
    obtain rfl : m = m' := by omega
    rcases hresponds with hrefused | ⟨-, rfl⟩
    · rw [hdelivery] at hrefused
      cases hrefused
    · exact ⟨posted, id, D, status, rfl, hstatus, hvalid, hposted.stored, hanswer⟩
  · -- the last request was not served, so a response to it came from the way
    have hsame : s'.state = afterPosts host env svc website (course.served sent n) w := hstate
    obtain ⟨posted, hlength, hchain, hfaults, hshape'⟩ := hposts _ le_rfl
    rw [← hsame] at hchain hfaults hshape'
    refine ⟨posted, rfl, hlength, hchain, hfaults, hshape', fun response hout => Or.inl ?_⟩
    obtain ⟨m, rfl, hresponds⟩ := hresponse response hout
    rcases hresponds with hrefused | ⟨hserved', -⟩
    · exact ⟨m, rfl, hrefused⟩
    · exact absurd ⟨m, rfl, hserved'⟩ hlast

end

/-- What a call of `postWebsite` leaves behind, with the ids of the websites it wrote. -/
structure Delivered (payload : Fields) (w w' : World) (ids : List String) : Prop where
  /-- A website without an id is created anew by every request that is served. -/
  created : Fields.get payload "id" = .undefined →
    ids.Nodup ∧ ∀ id ∈ ids, storedWebsite w id = none
  named : ∀ own, Fields.get payload "id" = .str own → ∀ id ∈ ids, id = own
  /-- What is stored of it is as after one request, however many were served. -/
  once : ∀ id ∈ ids, PostedOnce payload w w' id
  others : ∀ id, id ∉ ids → SameSite w w' id

theorem Posts.delivered {payload : Fields} (hp : WebsitePayload payload) {w w' : World}
    {posted : List (String × Document)} (h : Posts payload w posted w') :
    Delivered payload w w' (posted.map Prod.fst) where
  created := h.created hp
  named _ hown := h.named hown
  once _ hid := h.once hp hid
  others _ hid := h.others hid

/-- **A website that is posted over a network that loses requests and responses**: the call
writes one website for each request that was served, and nothing else. Without an id these are
different websites; with one it is as if the website had been posted once. What the service
responds is about the website that was written last. The service creates the pages of a request
one after another. -/
theorem postWebsite_delivered (texts : ErrorTexts) {client : WebInsightsStorageClient}
    (hversion : client.apiVersion = "1.0") (host : FunctionHost client.baseUrl)
    {env : Environment} {svc : Service} (hnewId : ∀ n, isValidV6Guid (svc.newId n) = false)
    (others : HttpRequest → World → Val × World) {website : Json} {payload : Fields}
    (hpayload : website.val = .obj payload)
    (haccepted : (ApiRequest.mk .postWebsite (postContext website)).Accepted env)
    {guids : ℕ → V6Guid} {faults : List (Option Fault)} {w : World}
    (hreach : Reaches env svc (fun _ _ => True) { World.empty guids with faults := faults } w)
    (hunused : ∀ k < client.maxRetryCount,
      Unused (afterPosts host env svc website k w.faultless)
        (uuidsFor (afterPosts host env svc website k w.faultless) payload))
    (course : Course) (acquired sent : ℕ) :
    ∃ n ≤ client.maxRetryCount, ∃ out s' ids,
      (Call.postWebsite website.val).over texts client course (serveStorage host env svc others)
        ⟨w.faultless, acquired, sent⟩ = (out, s') ∧
      ids.length = course.served sent n ∧ Delivered payload w.faultless s'.state ids ∧
      ∀ response, out = .ok response →
        (∃ m, n = m + 1 ∧ course.deliveries (sent + m) = .refused response) ∨
        ∃ id D status, ids.getLast? = some id ∧ status ∈ [200, 201] ∧
          storedWebsite s'.state id = some D ∧
          response = gotResponse status (websiteBody D (pagesOf s'.state id)).toJson := by
  obtain ⟨payload', hp, hparsed⟩ := websitePayload_of_accepted haccepted
  obtain rfl : payload = payload' :=
    Val.obj.inj (hpayload.symm.trans (congrArg Prod.fst (hparsed none)))
  obtain ⟨n, hn, out, s', posted, hover, hlength, hposts, -, -, hresponse⟩ :=
    @posts_over texts client hversion host env svc hnewId others website payload hpayload haccepted
      w.faultless rfl (hreach.shaped_faultless hnewId) hunused course acquired sent
  refine ⟨n, hn, out, s', posted.map Prod.fst, hover, by simp [hlength], hposts.delivered hp,
    fun response hout => (hresponse response hout).imp_right ?_⟩
  rintro ⟨before, id, D, status, rfl, hstatus, -, hstored, hanswer⟩
  exact ⟨id, D, status, by simp, hstatus, hstored, hanswer⟩

/-! ### A response that is lost -/

/-- A client that tries twice. -/
def twiceClient : WebInsightsStorageClient := { sampleClient with maxRetryCount := 2 }

/-- The response to the first request gets lost, and all goes well from then on. -/
def losesResponse : Course where
  tokens := fun _ => .ok (some ⟨"Bearer", "token"⟩)
  deliveries := fun i => if i = 0 then .unanswered (.error "ECONNRESET") else .served
  httpError := fun _ => "Response code"

def samplePosted : Json := ⟨.obj (sampleWebsite 0 ["a"]), isJson_sampleWebsite 0 ["a"]⟩

def sampleHost : FunctionHost twiceClient.baseUrl := routingHost twiceClient.baseUrl

/-- The world after one of the requests. -/
abbrev samplePostedWorld : World :=
  afterPosts sampleHost sampleEnvironment Service.counting samplePosted 1
    (World.empty V6Guid.sample).faultless

theorem unused_samplePostedWorld : Unused samplePostedWorld 2 := by
  have hnext : samplePostedWorld.nextGuid = 2 := by decide +kernel
  have hguids : samplePostedWorld.guids = V6Guid.sample := rfl
  have hids : ((samplePostedWorld.repo .websiteData).docs.map fun d => d.get "id") =
      [.str "1ed10000-0000-6000-8000-00000000000a", .str "1ed10001-0000-6000-8000-00000000000a"] :=
    by decide +kernel
  have hdistinct : ∀ j < 2, ∀ i < j, guidPrefix (V6Guid.sample (2 + i)).text ≠
      guidPrefix (V6Guid.sample (2 + j)).text := by decide
  have hfirst : ∀ i < 2, guidPrefix "1ed10000-0000-6000-8000-00000000000a" ≠
      guidPrefix (V6Guid.sample (2 + i)).text := by decide
  have hsecond : ∀ i < 2, guidPrefix "1ed10001-0000-6000-8000-00000000000a" ≠
      guidPrefix (V6Guid.sample (2 + i)).text := by decide
  refine ⟨fun i j hij hj => ?_, fun d hd id hid i hi => ?_⟩
  · rw [hnext, hguids]
    exact hdistinct j hj i hij
  · rw [hnext, hguids]
    have hmem := List.mem_map_of_mem hd (f := fun d : Document => d.get "id")
    rw [hids, hid] at hmem
    rcases List.mem_cons.mp hmem with hid | hmem
    · rw [show id = "1ed10000-0000-6000-8000-00000000000a" by simpa using hid]
      exact hfirst i hi
    · rw [show id = "1ed10001-0000-6000-8000-00000000000a" by simpa using hmem]
      exact hsecond i hi

/-- Both requests find unused UUIDs. -/
theorem unused_samplePosts (k : ℕ) (hk : k < twiceClient.maxRetryCount) :
    Unused (afterPosts sampleHost sampleEnvironment Service.counting samplePosted k
      (World.empty V6Guid.sample).faultless) 2 := by
  have hempty : Unused (World.empty V6Guid.sample) 2 := unused_sample (by decide)
  have hcount : twiceClient.maxRetryCount = 2 := rfl
  obtain rfl | rfl : k = 0 ∨ k = 1 := by omega
  · exact hempty
  · exact unused_samplePostedWorld

/-- The website is posted twice. -/
theorem postWebsite_delivered_sample :
    ∃ n ≤ 2, ∃ out s' ids,
      (Call.postWebsite samplePosted.val).over sampleTexts twiceClient losesResponse
        (serveStorage sampleHost sampleEnvironment Service.counting fun _ w => (.undefined, w))
        ⟨(World.empty V6Guid.sample).faultless, 0, 0⟩ = (out, s') ∧
      ids.length = losesResponse.served 0 n ∧
      Delivered (sampleWebsite 0 ["a"]) (World.empty V6Guid.sample).faultless s'.state ids ∧
      ∀ response, out = .ok response →
        (∃ m, n = m + 1 ∧ losesResponse.deliveries (0 + m) = .refused response) ∨
        ∃ id D status, ids.getLast? = some id ∧ status ∈ [200, 201] ∧
          storedWebsite s'.state id = some D ∧
          response = gotResponse status (websiteBody D (pagesOf s'.state id)).toJson := by
  exact @postWebsite_delivered sampleTexts twiceClient rfl sampleHost sampleEnvironment
    Service.counting not_valid_newId (fun _ w => (.undefined, w)) samplePosted
    (sampleWebsite 0 ["a"]) rfl (by decide) V6Guid.sample [] (World.empty V6Guid.sample) .refl
    unused_samplePosts losesResponse 0 0

end WebInsights.StorageApiClient
