/-
What a POST page request can change.

The update goes through the page that is stored: it is read, the id and what was
posted are given the type and the bucket of a page and merged into it, and the
merge is written in its place. So nothing is written where there is no page, and
of a page that is there only the properties the update names can change. Those
are the id, the type and the bucket, which are what they were, and
`disabledScans`. A stored page without nulls comes through the merge as it is.
-/
import WebInsights.StorageApi.WebsiteRuns

set_option autoImplicit false

namespace WebInsights.StorageApi

open Common Cosmos CosmosClientWrapper CosmosContainerClient Effect Js Providers WebApi

variable {env : Environment} {svc : Service}

/-! ## Values without nulls -/

mutual

/-- Neither the value nor a property of an object in it is `null`. -/
def nullFree : Val → Bool
  | .scalar s => s ≠ .null
  | .arr _ => true
  | .obj fs => nullFreeFields fs
termination_by structural v => v

def nullFreeFields : List (String × Val) → Bool
  | [] => true
  | (_, v) :: fs => nullFree v && nullFreeFields fs
termination_by structural fs => fs

end

mutual

/-- Normalizing takes out nulls, and nothing else. -/
theorem normalizeValue_eq_self : (v : Val) → nullFree v = true → normalizeValue v = v
  | .scalar s, h => by
    cases s with
    | null => cases h
    | _ => rfl
  | .arr _, _ => rfl
  | .obj fs, h => congrArg Val.obj (normalizeFields_eq_self fs h)
termination_by structural v => v

theorem normalizeFields_eq_self : (fs : List (String × Val)) → nullFreeFields fs = true →
    normalizeFields fs = fs
  | [], _ => rfl
  | (k, v) :: fs, h => by
    rw [nullFreeFields, Bool.and_eq_true] at h
    rw [normalizeFields, normalizeValue_eq_self v h.1, normalizeFields_eq_self fs h.2]
termination_by structural fs => fs

end

theorem nullFree_get {fs : Fields} (h : nullFreeFields fs = true) (k : String) :
    nullFree (Fields.get fs k) = true := by
  induction fs with
  | nil => rfl
  | cons p fs ih =>
    obtain ⟨k', v⟩ := p
    rw [nullFreeFields, Bool.and_eq_true] at h
    rw [Fields.get_cons]
    split
    · exact h.1
    · exact ih h.2

/-! ## The page -/

/-- Where the page with an id is stored. -/
def pageKey (fnv1a : String → ℕ) (pageId : String) : Val × Val :=
  (.str (PageProvider.getPagePartitionKey fnv1a pageId), .str pageId)

/-- What is stored where pages are is a page, and has no nulls. -/
def PagesWithoutNulls (fnv1a : String → ℕ) (w : World) : Prop :=
  ∀ d ∈ (w.repo .websiteData).docs, ∀ pageId, d.key = pageKey fnv1a pageId →
    d.get "itemType" = .str ItemType.page.name ∧ nullFree d.val = true

/-- A stored property without nulls that the update does not name is stored again. -/
theorem get_stamp_updateOf {t : ItemType} {id : String} {document : Fields} {S : Document}
    {merged : Fields} (h : UpdateOf env.fnv1a t id document S merged) (hne : id ≠ "")
    (hwf : (Val.obj document).Wf) (hnull : nullFree S.val = true) (n : ℕ) {k : String}
    (hk : k ∉ Fields.keys (bucketed env.fnv1a t id document)) (hetag : k ≠ "_etag")
    (hts : k ≠ "_ts") : (svc.stamp n merged).get k = S.get k := by
  have hsame : Fields.get merged k = S.get k := by
    rw [get_merged_of_notMem (wf_bucketed hwf).1 h.result hk]
    exact normalizeValue_eq_self _ (nullFree_get hnull k)
  rw [svc.get_stamp (not_hasNoId h.sameId hne) hetag hts, hsame]
  -- what is stored is JSON already
  by_cases hmem : k ∈ Fields.keys S.fields
  · exact (Val.isJsonFields_iff.mp S.isJson.2 _ (Fields.mem_of_mem_keys hmem)).toJson_eq
  · have hnone : S.get k = .undefined := Fields.get_eq_undefined_of_notMem hmem
    rw [hnone]
    rfl

section

variable {w : World} (hw : w.faults = []) {payload : Fields} {pageId : String}
  (hp : PagePayload payload pageId) {context : Context}
  (hpayload : ∀ res, tryGetPayload context res = (.obj payload, res)) (res : Option HttpResponse)

include hw hp hpayload

/-- Where there is no page, nothing is updated. -/
theorem run_postPage_absent
    (hnone : (w.repo .websiteData).find (pageKey env.fnv1a pageId) = none) :
    (PostPageController.handleRequest env context res).run (World.handle svc) w =
      (.ok (some (getErrorResponse WebApiErrorCodes.resourceNotFound)), w) := by
  have hproperty : property (.obj payload) "pageId" = .ok (.str pageId) :=
    congrArg Except.ok hp.named
  have hguid : guidText (.str pageId) = .ok pageId := rfl
  have hread : (PageProvider.readPage env.fnv1a pageId).run (World.handle svc) w =
      (.error (.failedRequest ⟨.undefined, .undefined, .code 404⟩), w) :=
    Program.run_bind_ok _ (run_readItem_none hw hnone true)
  unfold PostPageController.handleRequest
  dsimp only
  rw [hpayload, hproperty, Program.ofExcept_ok, pure_bind, hguid, Program.ofExcept_ok, pure_bind,
    Program.run_bind, Program.run_tryCatch, Program.run_bind_error _ hread]
  rfl

/-- A page that is there is updated. -/
theorem run_postPage_stored {S : Document}
    (hS : (w.repo .websiteData).find (pageKey env.fnv1a pageId) = some S) {etag : String}
    (hetag : S.get "_etag" = .str etag) {merged : Fields}
    (hmerged : UpdateOf env.fnv1a .page pageId (pagePatch payload pageId) S merged) :
    ∃ body, (PostPageController.handleRequest env context res).run (World.handle svc) w =
      (.ok (some ⟨some 200, none, body⟩), w.store svc .websiteData merged) := by
  have hproperty : property (.obj payload) "pageId" = .ok (.str pageId) :=
    congrArg Except.ok hp.named
  have hguid : guidText (.str pageId) = .ok pageId := rfl
  have hread : (PageProvider.readPage env.fnv1a pageId).run (World.handle svc) w =
      (.ok S.val, w) := Program.run_bind_ok _ (run_readItem_some hw hS true)
  -- what was posted has no partition key to take the place of the bucket
  have hpk : "partitionKey" ∉ Fields.keys (pagePatch payload pageId) := fun h =>
    absurd (keys_pagePatch hp h) (by decide)
  have hupdate : (PageProvider.updatePage env.fnv1a (pagePatch payload pageId)).run
      (World.handle svc) w = _ := run_updateBucketed (wf_pagePatch hp) (ne_empty_of_valid hp.valid)
    (get_pagePatch_id hp) hpk hS hetag hmerged hw "Page document has no associated id"
  obtain ⟨body, hbody⟩ : ∃ body, createPageApiResponse
      (svc.stamp (w.repo .websiteData).writes merged).val = .ok body := ⟨_, rfl⟩
  refine ⟨.obj body, ?_⟩
  unfold PostPageController.handleRequest
  dsimp only
  rw [hpayload, hproperty, Program.ofExcept_ok, pure_bind, hguid, Program.ofExcept_ok, pure_bind,
    Program.run_bind, Program.run_tryCatch, Program.run_bind_ok _ hread]
  refine (Program.run_bind_ok _ hupdate).trans ?_
  rw [hbody]
  rfl

end

/-- The properties the service gives every document it stores. -/
def systemProperties : List String := ["_etag", "_ts"]

/-- The page `S` of a world was updated, and nothing else was changed. -/
structure PageUpdated (w w' : World) (key : Val × Val) (S : Document) : Prop where
  page : ∃ S', (w'.repo .websiteData).find key = some S' ∧
    ∀ k, k ∉ "disabledScans" :: systemProperties → S'.get k = S.get k
  others : ∀ key', key' ≠ key → (w'.repo .websiteData).find key' = (w.repo .websiteData).find key'
  keys : (w'.repo .websiteData).docs.map Document.key = (w.repo .websiteData).docs.map Document.key
  scans : w'.repo .scanMetadata = w.repo .scanMetadata

/-- The new version of a page differs in `disabledScans` and the properties of the service. -/
theorem get_stamp_pageUpdate {payload : Fields} {pageId : String} (hp : PagePayload payload pageId)
    {S : Document} (hkey : S.key = pageKey env.fnv1a pageId)
    (htype : S.get "itemType" = .str ItemType.page.name) (hnull : nullFree S.val = true)
    {merged : Fields}
    (hmerged : UpdateOf env.fnv1a .page pageId (pagePatch payload pageId) S merged) (n : ℕ)
    {k : String} (hk : k ∉ "disabledScans" :: systemProperties) :
    (svc.stamp n merged).get k = S.get k := by
  have hne := ne_empty_of_valid hp.valid
  simp only [systemProperties, List.mem_cons, List.not_mem_nil, or_false, not_or] at hk
  obtain ⟨hscans, hetag, hts⟩ := hk
  -- the id, the type and the bucket are what the update says they are
  by_cases hkt : k = "itemType"
  · subst hkt
    rw [hmerged.get_stamp hne n hmerged.itemType hetag hts, htype]
  by_cases hkp : k = "partitionKey"
  · subst hkp
    rw [hmerged.get_stamp hne n hmerged.partitionKey hetag hts]
    exact (Prod.mk.inj hkey).1.symm
  by_cases hki : k = "id"
  · subst hki
    rw [hmerged.get_stamp hne n hmerged.sameId hetag hts]
    exact (Prod.mk.inj hkey).2.symm
  -- and it names no other property
  refine get_stamp_updateOf hmerged hne (wf_pagePatch hp) hnull n ?_ hetag hts
  rw [mem_keys_bucketed]
  rintro (h | h | h)
  · have hnamed : k = "id" ∨ k = "disabledScans" := by simpa using keys_pagePatch hp h
    exact hnamed.elim hki hscans
  · exact hkt h
  · exact hkp h

/-- A page is updated by storing the merge. -/
theorem pageUpdated_store {w : World} {payload : Fields} {pageId : String}
    (hp : PagePayload payload pageId) {S : Document}
    (hS : (w.repo .websiteData).find (pageKey env.fnv1a pageId) = some S)
    (htype : S.get "itemType" = .str ItemType.page.name) (hnull : nullFree S.val = true)
    {merged : Fields}
    (hmerged : UpdateOf env.fnv1a .page pageId (pagePatch payload pageId) S merged) :
    PageUpdated w (w.store svc .websiteData merged) (pageKey env.fnv1a pageId) S := by
  obtain ⟨hmem, hkey⟩ := Collection.find_eq_some_iff.mp hS
  have hstamp : (svc.stamp (w.repo .websiteData).writes merged).key = pageKey env.fnv1a pageId :=
    hmerged.key_stamp (ne_empty_of_valid hp.valid) _
  have hrepo : (w.store svc .websiteData merged).repo .websiteData =
      (w.repo .websiteData).put (svc.stamp (w.repo .websiteData).writes merged) :=
    World.store_repo_self _
  refine ⟨⟨svc.stamp (w.repo .websiteData).writes merged, ?_, ?_⟩, ?_, ?_,
    World.store_repo_ne (by decide) _⟩
  · rw [hrepo, ← hstamp, Collection.find_put_self]
  · exact fun k hk => get_stamp_pageUpdate hp hkey htype hnull hmerged _ hk
  · intro key' hkey'
    rw [hrepo, Collection.find_put_ne]
    rwa [hstamp]
  · rw [hrepo, Collection.docs_put, Keyed.map_key_put, if_pos]
    rw [hstamp, ← hkey]
    exact List.mem_map_of_mem hmem

/-- **The frame of a POST page request**, in any store and when nothing fails: where there is no
page, nothing is changed and the answer says so; a page that is there is the only document that
changes, in nothing but `disabledScans` and the properties of the service. -/
theorem postPage_frame {w : World} (hw : w.faults = [])
    (hstamped : (w.repo .websiteData).Stamped svc) (hpages : PagesWithoutNulls env.fnv1a w)
    {context : Context} (haccepted : (ApiRequest.mk .postPage context).Accepted env)
    {payload : Fields} (hpayload : (tryGetPayload context none).1 = .obj payload)
    {pageId : String} (hid : Fields.get payload "pageId" = .str pageId) :
    ((w.repo .websiteData).find (pageKey env.fnv1a pageId) = none →
      ((ApiRequest.mk .postPage context).serve env).run (World.handle svc) w =
        (.ok (some (jsonResponse 404 WebApiErrorCodes.resourceNotFound.body)), w)) ∧
    ∀ S, (w.repo .websiteData).find (pageKey env.fnv1a pageId) = some S →
      ∃ body w', ((ApiRequest.mk .postPage context).serve env).run (World.handle svc) w =
          (.ok (some (jsonResponse 200 body)), w') ∧
        PageUpdated w w' (pageKey env.fnv1a pageId) S := by
  obtain ⟨payload', pageId', hp, hpayload'⟩ := pagePayload_of_accepted haccepted
  obtain rfl : payload = payload' :=
    Val.obj.inj (hpayload.symm.trans (congrArg Prod.fst (hpayload' none)))
  obtain rfl : pageId = pageId' := by simpa using hid.symm.trans hp.named
  constructor
  · intro hnone
    rw [ApiRequest.run_serve_accepted env svc haccepted]
    exact Program.run_bind_ok _ (run_postPage_absent hw hp hpayload' _ hnone)
  · intro S hS
    obtain ⟨hmem, hkey⟩ := Collection.find_eq_some_iff.mp hS
    obtain ⟨htype, hnull⟩ := hpages S hmem pageId hkey
    obtain ⟨n, -, hetag⟩ := hstamped S hmem
    -- the patch leaves the type and the bucket alone
    have hunset : ∀ k ∈ ["itemType", "partitionKey"],
        k ∉ Fields.keys (pagePatch payload pageId) := by
      intro k hk h
      have hnamed : k = "id" ∨ k = "disabledScans" := by simpa using keys_pagePatch hp h
      rcases hnamed with rfl | rfl
      · exact absurd hk (by decide)
      · exact absurd hk (by decide)
    obtain ⟨merged, hmerged⟩ := @exists_updateOf env.fnv1a .page _ _ (wf_pagePatch hp)
      (get_pagePatch_id hp) (hunset _ (by decide)) (hunset _ (by decide)) S hkey htype
    obtain ⟨body, hrun⟩ := @run_postPage_stored env svc w hw payload pageId hp context hpayload'
      ((ApiRequest.mk .postPage context).validated env).2 S hS _ hetag merged hmerged
    exact ⟨body, _, ApiRequest.run_serve_ok env svc haccepted hrun,
      pageUpdated_store hp hS htype hnull hmerged⟩

/-- The request to disable the accessibility scans of a page. -/
def disableScans (pageId : String) : ApiRequest :=
  ⟨.postPage, postContext ⟨.obj [("pageId", .str pageId), ("disabledScans",
    .arr (strings ["a11y"]))], show (["pageId", "disabledScans"] : List String).Nodup by decide,
    nofun, ⟨nofun, trivial⟩, trivial⟩⟩

/-- The world after a website with one known page was posted. -/
def onePageWorld : World :=
  (((postSampleWebsite 0 ["a"]).serve sampleEnvironment).run (World.handle Service.counting)
    (World.empty V6Guid.sample)).2

def onePageId : String := createGuidFromBaseGuid (V6Guid.sample 1).text (V6Guid.sample 0).text

/-- The update of the page that was created for the website. -/
theorem postPage_frame_sample :
    ∃ S, (onePageWorld.repo .websiteData).find (pageKey fnv1aAscii onePageId) = some S ∧
      ∃ body w', ((disableScans onePageId).serve sampleEnvironment).run
          (World.handle Service.counting) onePageWorld = (.ok (some (jsonResponse 200 body)), w') ∧
        PageUpdated onePageWorld w' (pageKey fnv1aAscii onePageId) S := by
  have hreach : Reaches sampleEnvironment Service.counting (fun _ _ => True)
      (World.empty V6Guid.sample) onePageWorld := .step .refl trivial
  have hshape := hreach.shaped not_valid_newId (World.shaped_empty V6Guid.sample [])
  have hpages : PagesWithoutNulls fnv1aAscii onePageWorld := by
    have hdocs : ∀ d ∈ (onePageWorld.repo .websiteData).docs,
        d.get "partitionKey" = .str websiteDocuments ∨
        d.get "itemType" = .str ItemType.page.name ∧ nullFree d.val = true := by
      decide +kernel
    intro d hd pageId hkey
    refine (hdocs d hd).resolve_left fun hpk => ?_
    rw [(Prod.mk.inj hkey).1] at hpk
    exact getPagePartitionKey_ne fnv1aAscii pageId (by simpa using hpk)
  have hsome : ((onePageWorld.repo .websiteData).find (pageKey fnv1aAscii onePageId)).isSome =
      true := by
    decide +kernel
  obtain ⟨S, hS⟩ := Option.isSome_iff_exists.mp hsome
  have hfaults : onePageWorld.faults = [] := World.run_faults Service.counting _ rfl
  exact ⟨S, hS, (@postPage_frame sampleEnvironment Service.counting onePageWorld hfaults
    (hshape.stamped .websiteData) hpages (disableScans onePageId).context (by decide +kernel) _ rfl
    onePageId rfl).2 S hS⟩

end WebInsights.StorageApi
