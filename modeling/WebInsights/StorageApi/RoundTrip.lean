/-
A website that is posted, and then read.

Both responses are made of what is stored: the POST request answers with the
website it wrote, with the pages of the website and those it created, and the
GET request with the website and the pages it reads. When no storage call fails
the two bodies are the same, and a website that was new comes back as it was
posted.
-/
import WebInsights.StorageApi.WebsiteRuns

set_option autoImplicit false

namespace WebInsights.StorageApi

open Common Cosmos CosmosContainerClient Effect Js Providers WebApi

variable {env : Environment} {svc : Service}

/-! ## The body -/

theorem get_copyProperties {document : Val} {ks : List String} {k : String} (h : k ∈ ks) :
    Fields.get (copyProperties document ks) k = document.get k := by
  unfold copyProperties
  induction ks with
  | nil => cases h
  | cons k' ks ih =>
    rw [List.map_cons, Fields.get_cons]
    by_cases hk : k' = k
    · rw [if_pos hk, hk]
    · rw [if_neg hk]
      exact ih ((List.mem_cons.mp h).resolve_left fun e => hk e.symm)

theorem keys_copyProperties (document : Val) (ks : List String) :
    Fields.keys (copyProperties document ks) = ks := by
  unfold Fields.keys copyProperties
  rw [List.map_map]
  exact List.map_id ks

theorem get_body_of_mem (response : WebsiteResponse) {k : String}
    (h : k ∈ Fields.keys response.website) :
    response.body.get k = Fields.get response.website k := by
  unfold WebsiteResponse.body
  rw [Val.get_obj, Fields.get_append, if_pos h]

theorem get_body_of_notMem (response : WebsiteResponse) {k : String}
    (h : k ∉ Fields.keys response.website) :
    response.body.get k = Fields.get [("pages", .arr (response.pages.map .obj))] k := by
  unfold WebsiteResponse.body
  rw [Val.get_obj, Fields.get_append, if_neg h]

section

variable (D : Document) (pages : List Document)

/-- A website property of the body is the one of the document. -/
theorem get_websiteBody {k : String} (h : k ∈ websiteProperties) :
    (websiteBody D pages).get k = D.get k := by
  unfold websiteBody
  rw [get_body_of_mem _ (by rwa [keys_copyProperties]), get_copyProperties h]
  rfl

theorem get_websiteBody_pages :
    (websiteBody D pages).get "pages" = .arr (pages.map fun d => .obj (pageObject d)) := by
  unfold websiteBody
  rw [get_body_of_notMem _ (by rw [keys_copyProperties]; decide), Fields.get_cons_self,
    List.map_map]
  rfl

/-- The body has nothing else. -/
theorem get_websiteBody_other {k : String} (h : k ∉ websiteProperties) (hne : k ≠ "pages") :
    (websiteBody D pages).get k = .undefined := by
  unfold websiteBody
  rw [get_body_of_notMem _ (by rwa [keys_copyProperties]), Fields.get_cons_ne hne.symm,
    Fields.get_nil]

end

/-! ## Reading a website -/

/-- **A GET website request** for a stored website, when nothing fails. -/
theorem run_getWebsite {w : World} (hw : w.faults = [])
    (hshape : w.Shaped svc (shape env.fnv1a fun _ => True)) {id : String} {D : Document}
    (hD : storedWebsite w id = some D) {context : Context}
    (hid : bindingData context "websiteId" = id) (res : Option HttpResponse) :
    (GetWebsiteController.handleRequest env context res).run (World.handle svc) w =
      (.ok (some ⟨some 200, none, websiteBody D (pagesOf w id)⟩), w) := by
  have hread : (WebsiteProvider.readWebsite (.str id) false).run (World.handle svc) w =
      (.ok ⟨D.val, .undefined, .code 200⟩, w) := run_readItem_some hw hD false
  have hresponse := @run_createWebsiteApiResponse env svc w hw hshape D.val ⟨_, rfl⟩ id
  have hfound : ¬ (StatusCode.code 200 = .code 404) := by decide
  have hsuccess : ¬ client.isSuccessStatusCode (.code 200) = false := by decide
  unfold GetWebsiteController.handleRequest
  rw [hid]
  refine (Program.run_bind_ok _ hread).trans ?_
  rw [if_neg hfound, if_neg hsuccess]
  refine (Program.run_bind_ok _ hresponse).trans ?_
  rfl

/-! ## Posting it first -/

/-- What the body of a POST website response says: the website has the id that was posted or
generated, what was posted of a new website, and one entry for every page document. -/
structure Returned (w w' : World) (payload : Fields) (id : String) (body : Val) : Prop where
  named : body.get "id" = .str id
  valid : isValidV6Guid id = true
  given : Fields.get payload "id" = .str id ∨
    Fields.get payload "id" = .undefined ∧ storedWebsite w id = none
  posted : storedWebsite w id = none → ∀ k, k ≠ "id" → k ≠ "pages" →
    body.get k = Fields.get payload k
  pages : body.get "pages" = .arr ((pagesOf w' id).map fun d => .obj (pageObject d))

theorem Posted.returned {w w' : World} {payload : Fields} (hp : WebsitePayload payload)
    {id : String} {D : Document} (h : Posted w payload id D w') :
    Returned w w' payload id (websiteBody D (pagesOf w' id)) := by
  obtain ⟨v, hwritten⟩ := h.written
  refine ⟨?_, hwritten.valid, hwritten.given, ?_, get_websiteBody_pages D _⟩
  · rw [get_websiteBody D _ (by decide)]
    exact (Prod.mk.inj hwritten.key).2
  · intro hnone k hid hpages
    by_cases hk : k ∈ websiteProperties
    · rw [get_websiteBody D _ hk]
      exact hwritten.posted hnone k hk hid
    · -- neither the payload nor the body has any other property
      rw [get_websiteBody_other D _ hk hpages,
        Fields.get_eq_undefined_of_notMem fun hmem => hk (hp.keys k hmem)]

section

variable (hnewId : ∀ n, isValidV6Guid (svc.newId n) = false)

include hnewId

/-- **A website that is posted comes back**, in every store that any requests and any faults
lead to: with the same body, to every GET request for it. The pages of a request are created
one after another. -/
theorem postWebsite_getWebsite {guids : ℕ → V6Guid} {faults : List (Option Fault)} {w : World}
    (hreach : Reaches env svc (fun _ _ => True) { World.empty guids with faults := faults } w)
    {post : Context} (hpost : (ApiRequest.mk .postWebsite post).Accepted env) {payload : Fields}
    (hpayload : (tryGetPayload post none).1 = .obj payload)
    (hunused : Unused w (uuidsFor w payload)) :
    ∃ id status body w',
      ((ApiRequest.mk .postWebsite post).serve env).run (World.handle svc) w.faultless =
        (.ok (some (jsonResponse status body)), w') ∧
      status ∈ [200, 201] ∧ Returned w w' payload id body ∧
      ∀ get : Context, (ApiRequest.mk .getWebsite get).Accepted env →
        bindingData get "websiteId" = id →
        ((ApiRequest.mk .getWebsite get).serve env).run (World.handle svc) w' =
          (.ok (some (jsonResponse 200 body)), w') := by
  -- faults do not matter to what is stored
  have hshape : w.faultless.Shaped svc (shape env.fnv1a fun _ => True) :=
    hreach.shaped_faultless hnewId
  obtain ⟨payload', hp, hpayload'⟩ := websitePayload_of_accepted hpost
  obtain rfl : payload = payload' :=
    Val.obj.inj (hpayload.symm.trans (congrArg Prod.fst (hpayload' none)))
  obtain ⟨id, D, w', status, hrun, hstatus, hposted⟩ := @run_postWebsite env svc hnewId w.faultless
    rfl hshape payload hp post hpayload' ⟨hunused.distinct, hunused.unused⟩
    ((ApiRequest.mk .postWebsite post).validated env).2
  have hshape' : w'.Shaped svc (shape env.fnv1a fun _ => True) := by
    have h := shaped_run (@keeps_postWebsite env svc _ hnewId post) hshape
    rwa [ApiRequest.run_serve_ok env svc hpost hrun] at h
  have hreturned := hposted.returned hp
  refine ⟨id, status, _, w', ApiRequest.run_serve_ok env svc hpost hrun, hstatus,
    ⟨hreturned.named, hreturned.valid, hreturned.given, hreturned.posted, hreturned.pages⟩, ?_⟩
  -- a website is found by its id and read as it was written
  intro get hget hid
  exact ApiRequest.run_serve_ok env svc hget
    (run_getWebsite hposted.faults hshape' hposted.stored hid
      ((ApiRequest.mk .getWebsite get).validated env).2)

end

/-- A website with two known pages, posted to the empty store. -/
theorem postWebsite_getWebsite_sample :
    ∃ id status body w',
      ((postSampleWebsite 0 ["a", "b"]).serve sampleEnvironment).run
          (World.handle Service.counting) (World.empty V6Guid.sample).faultless =
        (.ok (some (jsonResponse status body)), w') ∧
      status ∈ [200, 201] ∧
      Returned (World.empty V6Guid.sample) w' (sampleWebsite 0 ["a", "b"]) id body ∧
      ∀ get : Context, (ApiRequest.mk .getWebsite get).Accepted sampleEnvironment →
        bindingData get "websiteId" = id →
        ((ApiRequest.mk .getWebsite get).serve sampleEnvironment).run
            (World.handle Service.counting) w' =
          (.ok (some (jsonResponse 200 body)), w') := by
  exact @postWebsite_getWebsite sampleEnvironment Service.counting not_valid_newId V6Guid.sample []
    _ .refl (postSampleWebsite 0 ["a", "b"]).context (by decide) _ rfl (unused_sample (by decide))

end WebInsights.StorageApi
