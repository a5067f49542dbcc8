/-
The scans that are stored.

The validator looks at the priority and the frequency of the request. A request
without a priority takes over the one of the website, which another validator let
in as any number, so what is stored can lie outside of the configured range. The
rest holds of every stored scan: its frequency is one the parser accepts or the
default of its type, and its website is stored. And a request that is answered
with anything but the scan stores none, unless the response to its write is lost.
-/
import WebInsights.Providers.PartitionRouting
import WebInsights.StorageApi.WebsiteRuns

set_option autoImplicit false

namespace WebInsights.StorageApi

open Common Cosmos CosmosClientWrapper CosmosContainerClient Effect Js Providers WebApi

variable {env : Environment} {svc : Service}

/-- A number between the two bounds of the configuration. -/
def InRange (config : RestApiConfig) : Val → Prop
  | .num n => config.minScanPriorityValue ≤ n ∧ n ≤ config.maxScanPriorityValue
  | _ => False

/-- A scan as the validator of its request would have it, for a stored website. -/
structure WellFormedScan (env : Environment) (w : World) (d : Document) : Prop where
  priority : InRange env.restApiConfig (d.get "priority")
  frequency : ∃ frequency, d.get "scanFrequency" = .str frequency ∧
    (env.parsesExpression frequency = true ∨
      PostWebsiteScanController.defaultScanFrequency env (d.get "scanType") = some frequency)
  website : ∃ websiteId, d.get "websiteId" = .str websiteId ∧ storedWebsite w websiteId ≠ none

/-- Every stored scan is well formed. -/
def WellFormedScans (env : Environment) (w : World) : Prop :=
  ∀ d ∈ (w.repo .scanMetadata).docs, WellFormedScan env w d

/-- The priority a scan is stored with. -/
def resolvedPriority (payload : Fields) (website : Document) : Val :=
  ((Fields.get payload "priority").nullish (website.get "priority")).nullish
    WebsiteScanProvider.defaultPriority

/-- A request for a scan without a priority is for a website whose priority, if it has one, is
in range. -/
def PriorityInRange (env : Environment) (w : World) (r : ApiRequest) : Prop :=
  r.endpoint = .postWebsiteScan → ∀ payload websiteId website,
    (tryGetPayload r.context none).1 = .obj payload →
    Fields.get payload "websiteId" = .str websiteId → Fields.get payload "priority" = .undefined →
    storedWebsite w websiteId = some website →
    website.get "priority" ≠ .undefined → website.get "priority" ≠ .null →
    InRange env.restApiConfig (website.get "priority")

/-- The second of the next two requests to the storage is carried out and its response lost.
It is the write of a scan request, which reads the website first. -/
def WriteLost (w : World) : Prop := ∃ f, w.faults[1]? = some (some f) ∧ f.carriedOut = true

/-- The scan priorities of the configuration go around the default one. -/
def ConfigAround (config : RestApiConfig) : Prop :=
  config.minScanPriorityValue ≤ 0 ∧ 0 ≤ config.maxScanPriorityValue

theorem inRange_nullish {config : RestApiConfig} (hconfig : ConfigAround config) {v : Val} :
    InRange config (v.nullish WebsiteScanProvider.defaultPriority) ↔
      (v ≠ .undefined → v ≠ .null → InRange config v) := by
  have hdefault : InRange config WebsiteScanProvider.defaultPriority :=
    ⟨by exact_mod_cast hconfig.1, by exact_mod_cast hconfig.2⟩
  by_cases hundefined : v = .undefined
  · subst hundefined
    exact iff_of_true hdefault fun h => absurd rfl h
  · by_cases hnull : v = .null
    · subst hnull
      exact iff_of_true hdefault fun _ h => absurd rfl h
    · have hv : v.nullish WebsiteScanProvider.defaultPriority = v := by
        unfold Val.nullish
        split
        · exact absurd rfl hundefined
        · exact absurd rfl hnull
        · rfl
      rw [hv]
      exact ⟨fun h _ _ => h, fun h => h hundefined hnull⟩

theorem inRange_toJson {config : RestApiConfig} {v : Val} :
    InRange config v.toJson ↔ InRange config v := by
  cases v <;> rfl

/-! ## What a scan request does -/

/-- Reading the website writes nothing, and finds only what is stored. -/
theorem run_tryReadWebsite {w : World} (hw : w.ErrorsFail) (websiteId : String) :
    ∃ result w', (PostWebsiteScanController.tryReadWebsite (.str websiteId)).run (World.handle svc)
        w = (result, w') ∧ w'.repo = w.repo ∧ w'.faults = w.faults.tail ∧
      ((∃ e, result = .error e) ∨ (∃ res, result = .ok (.error res) ∧ res.status ≠ some 201) ∨
        ∃ website, storedWebsite w websiteId = some website ∧ result = .ok (.ok website.val)) := by
  have hrepo := @World.handle_readOnly svc
    (.cosmos .websiteData (.read (.str websiteId) (.str websiteDocuments))) trivial w
  have htail := World.handle_faults svc .websiteData
    (.read (.str websiteId) (.str websiteDocuments)) w
  unfold PostWebsiteScanController.tryReadWebsite WebsiteProvider.readWebsite readDocument
  rw [readItem_eq, bind_assoc, World.run_request_bind]
  rcases World.handle_answer_cases svc w .websiteData
    (.read (.str websiteId) (.str websiteDocuments)) with ⟨f, hf, hanswer⟩ | hanswer
  · rw [hanswer]
    rcases hcode : f.error.code with _ | status
    · refine ⟨_, _, ?_, hrepo, htail, Or.inl ⟨.sdk f.error, rfl⟩⟩
      rw [readResponse, errorResponse, client.getErrorResponse, hcode]
      rfl
    · -- an error with a status is none of a success
      have hstatus := hw f hf status hcode
      rw [readResponse, errorResponse, client.getErrorResponse, hcode, Option.map_some,
        Program.ofExcept_ok, pure_bind]
      dsimp only
      by_cases hmissing : status = .code 404
      · rw [if_pos hmissing]
        exact ⟨_, _, rfl, hrepo, htail, Or.inr (Or.inl ⟨_, rfl, by decide⟩)⟩
      · rw [if_neg hmissing, if_pos hstatus]
        exact ⟨_, _, rfl, hrepo, htail, Or.inr (Or.inl ⟨_, rfl, by decide⟩)⟩
  · rw [hanswer]
    rcases hfind : (w.repo .websiteData).find (.str websiteDocuments, .str websiteId) with _ | D
    · rw [Collection.serve_read_none svc hfind]
      exact ⟨_, _, rfl, hrepo, htail, Or.inr (Or.inl ⟨_, rfl, by decide⟩)⟩
    · rw [Collection.serve_read_some svc hfind]
      exact ⟨_, _, rfl, hrepo, htail, Or.inr (Or.inr ⟨D, hfind, rfl⟩)⟩

/-- The scan document `d` that a request stores for a website. -/
structure StoredScan (env : Environment) (payload : Fields) (websiteId : String)
    (website d : Document) : Prop where
  websiteId : d.get "websiteId" = .str websiteId
  scanType : d.get "scanType" = (Fields.get payload "scanType").toJson
  frequency : ∃ frequency, PostWebsiteScanController.getScanFrequency env (.obj payload) =
    .ok frequency ∧ d.get "scanFrequency" = frequency.toJson
  priority : d.get "priority" = (resolvedPriority payload website).toJson

/-- Creating a scan fails, or writes one. -/
theorem createScan_outcome {w : World} (hw : w.ErrorsFail) {websiteId : String}
    (hvalid : isValidV6Guid websiteId = true) (scanType frequency priority : Val) :
    Fails svc (WebsiteScanProvider.createScanDocumentForWebsite env.fnv1a websiteId scanType
      frequency priority) w ∨
    ∃ doc d, Writes svc w.LosesNext .scanMetadata d doc
        (WebsiteScanProvider.createScanDocumentForWebsite env.fnv1a websiteId scanType frequency
          priority) w ∧
      d.get "websiteId" = .str websiteId ∧ d.get "scanType" = scanType.toJson ∧
      d.get "scanFrequency" = frequency.toJson ∧
      d.get "priority" = (priority.nullish WebsiteScanProvider.defaultPriority).toJson := by
  have hnew := newDocument_websiteScan w hvalid scanType frequency priority
  have hid : isValidV6Guid (nextId w websiteId) = true :=
    isValidV6Guid_createGuidFromBaseGuid (w.guids w.nextGuid).valid hvalid
  have hlater : w.Later { w with nextGuid := w.nextGuid + 1 } := ⟨rfl, List.Subset.refl _⟩
  obtain ⟨noId, hcall⟩ := @Creation.run_call env.fnv1a svc
    (.websiteScan websiteId scanType frequency priority) w
  rcases @writeBucketed_outcome env.fnv1a .websiteScan _ _ svc .scanMetadata
    { w with nextGuid := w.nextGuid + 1 } (hw.subset hlater.faults) hnew.nodup hnew.id
    (hnew.unset _ (by decide)) (hnew.unset _ (by decide)) noId with hfails | hwrites
  · exact Or.inl (hfails.of_run hlater hcall)
  · right
    -- the etag, the time stamp, the type and the bucket are not asked for
    have hget : ∀ k, k ≠ "_etag" → k ≠ "_ts" → k ≠ "itemType" → k ≠ "partitionKey" →
        (svc.stamp (w.repo .scanMetadata).writes (bucketed env.fnv1a .websiteScan
          (nextId w websiteId) ((Creation.websiteScan websiteId scanType frequency
            priority).document (nextId w websiteId)))).get k =
        (Fields.get ((Creation.websiteScan websiteId scanType frequency priority).document
          (nextId w websiteId)) k).toJson := by
      intro k hetag hts htype hpk
      refine (get_stamp_bucketed hnew.id (ne_empty_of_valid hid) hnew.nodup _ hetag hts).trans ?_
      exact congrArg Val.toJson (get_bucketed_other hnew.nodup htype hpk)
    refine ⟨_, _, hwrites.of_run hlater hcall, ?_, ?_, ?_, ?_⟩
    all_goals
      refine (hget _ (by decide) (by decide) (by decide) (by decide)).trans ?_
      rfl

/-- **A scan request** writes nothing and is not answered with a scan, or it is answered with
the scan it stored, unless the response to its write is lost. -/
theorem postWebsiteScan_outcome {w : World} (hw : w.ErrorsFail) {payload : Fields}
    {websiteId : String} (hp : ScanPayload env payload websiteId) {context : Context}
    (hpayload : ∀ res, tryGetPayload context res = (.obj payload, res))
    (res : Option HttpResponse) :
    (∃ result w', (PostWebsiteScanController.handleRequest env context res).run
        (World.handle svc) w =
        (result, w') ∧ w.Later w' ∧
      ∀ response, result = .ok (some response) → response.status ≠ some 201) ∨
    ∃ website d result w', storedWebsite w websiteId = some website ∧
      StoredScan env payload websiteId website d ∧
      (PostWebsiteScanController.handleRequest env context res).run (World.handle svc) w =
        (result, w') ∧
      (¬ WriteLost w ∧ (∃ body, result = .ok (some ⟨some 201, none, body⟩)) ∨
        WriteLost w ∧ ∃ e, result = .error e) ∧
      w'.repo = Function.update w.repo .scanMetadata ((w.repo .scanMetadata).put d) := by
  obtain ⟨result, w₁, hread, hrepo₁, htail, hresult⟩ := @run_tryReadWebsite svc w hw websiteId
  have hlater : w.Later w₁ := ⟨hrepo₁, htail ▸ (List.tail_sublist _).subset⟩
  -- what is lost after the read is the second response
  have hlost : w₁.LosesNext ↔ WriteLost w := by
    unfold World.LosesNext WriteLost
    rw [htail, List.head?_tail]
  have hproperty : property (.obj payload) "websiteId" = .ok (.str websiteId) :=
    congrArg Except.ok hp.named
  have hguid : guidText (.str websiteId) = .ok websiteId := rfl
  unfold PostWebsiteScanController.handleRequest
  rw [hpayload]
  dsimp only
  rw [hproperty, Program.ofExcept_ok, pure_bind]
  rcases hresult with ⟨e, rfl⟩ | ⟨error, rfl, herror⟩ | ⟨website, hwebsite, rfl⟩
  · left
    -- the website could not be read
    exact ⟨_, w₁, Program.run_bind_error _ hread, hlater, nofun⟩
  · left
    refine ⟨_, w₁, Program.run_bind_ok _ hread, hlater, ?_⟩
    rintro response hresponse
    cases hresponse
    exact herror
  · rw [Program.run_bind_ok _ hread]
    dsimp only
    rcases hfrequency : PostWebsiteScanController.getScanFrequency env (.obj payload) with
      e | frequency
    · left
      exact ⟨_, w₁, rfl, hlater, nofun⟩
    · have hpriority : PostWebsiteScanController.getScanPriority (.obj payload) website.val =
          .ok ((Fields.get payload "priority").nullish (website.get "priority")) := by
        rcases hp.priority with hnone | ⟨n, hn, -⟩
        · rw [PostWebsiteScanController.getScanPriority, Val.get_obj, hnone]
          rfl
        · rw [PostWebsiteScanController.getScanPriority, Val.get_obj, hn]
          rfl
      rw [Program.ofExcept_ok, pure_bind, hpriority, Program.ofExcept_ok, pure_bind, hguid,
        Program.ofExcept_ok, pure_bind]
      rcases @createScan_outcome env svc w₁ (hw.subset hlater.faults) websiteId hp.valid
        (Fields.get payload "scanType") frequency
        ((Fields.get payload "priority").nullish (website.get "priority")) with
        hfails | ⟨doc, d, ⟨r, w₂, hwrites, hr, hrepo, -⟩, hid, htype, hfreq, hprio⟩
      · left
        -- the scan could not be created, and nothing was written
        obtain ⟨e, w₂, hrun, hlater'⟩ := hfails
        exact ⟨_, w₂, Program.run_bind_error _ hrun, ⟨hlater'.repo.trans hlater.repo,
          List.Subset.trans hlater'.faults hlater.faults⟩, nofun⟩
      · right
        have hstored : StoredScan env payload websiteId website d :=
          ⟨hid, htype, ⟨frequency, hfrequency, hfreq⟩, hprio⟩
        rw [hlater.repo] at hrepo
        rw [hlost] at hr
        rcases hr with ⟨hkept, rfl⟩ | ⟨hgone, e, rfl⟩
        · exact ⟨website, d, _, w₂, hwebsite, hstored, Program.run_bind_ok _ hwrites,
            Or.inl ⟨hkept, _, rfl⟩, hrepo⟩
        · exact ⟨website, d, _, w₂, hwebsite, hstored, Program.run_bind_error _ hwrites,
            Or.inr ⟨hgone, e, rfl⟩, hrepo⟩

/-! ## Runs -/

/-- Faults are used up along a run, none is added. -/
theorem run_faults_subset {α : Type} (p : Async α) (w : World) :
    (p.run (World.handle svc) w).2.faults ⊆ w.faults := by
  induction p generalizing w with
  | pure a => exact List.Subset.refl _
  | throw e => exact List.Subset.refl _
  | call op k ih =>
    exact List.Subset.trans (ih _ _) (World.handle_faults_subset svc op w)

/-- What holds between the requests. -/
structure ScanInvariant (env : Environment) (svc : Service) (w : World) : Prop where
  errors : w.ErrorsFail
  shape : w.Shaped svc (shape env.fnv1a fun _ => True)
  scans : WellFormedScans env w

/-- A scan stays well formed as long as its website stays stored. -/
theorem WellFormedScan.of_stored {w w' : World} {d : Document} (h : WellFormedScan env w d)
    (hstored : ∀ id, storedWebsite w id ≠ none → storedWebsite w' id ≠ none) :
    WellFormedScan env w' d where
  priority := h.priority
  frequency := h.frequency
  website := by
    obtain ⟨websiteId, hid, hne⟩ := h.website
    exact ⟨websiteId, hid, hstored websiteId hne⟩

theorem storedWebsite_of_stillStored {w w' : World} (h : StillStored w w') (id : String)
    (hid : storedWebsite w id ≠ none) : storedWebsite w' id ≠ none := by
  obtain ⟨d, hd⟩ := Option.ne_none_iff_exists'.mp hid
  obtain ⟨hmem, hkey⟩ := Collection.find_eq_some_iff.mp hd
  obtain ⟨d', hmem', hkey'⟩ := h .websiteData d hmem
  intro hnone
  exact Collection.find_eq_none_iff.mp hnone d' hmem' (hkey'.trans hkey)

/-- The scan of a request is well formed exactly if its priority is in range. -/
theorem StoredScan.wellFormed_iff {payload : Fields} {websiteId : String} {website d : Document}
    (h : StoredScan env payload websiteId website d) (hp : ScanPayload env payload websiteId)
    {w : World} (hstored : storedWebsite w websiteId ≠ none) :
    WellFormedScan env w d ↔ InRange env.restApiConfig (resolvedPriority payload website) := by
  constructor
  · intro hd
    have hpriority := hd.priority
    rwa [h.priority, inRange_toJson] at hpriority
  · intro hrange
    refine ⟨by rwa [h.priority, inRange_toJson], ?_, websiteId, h.websiteId, hstored⟩
    obtain ⟨frequency, hfrequency, hget⟩ := h.frequency
    unfold PostWebsiteScanController.getScanFrequency at hfrequency
    rcases hp.frequency with hnone | ⟨own, hown, hparses⟩
    · -- the default of the type
      rw [Val.get_obj, hnone, if_neg (not_not_intro rfl)] at hfrequency
      rcases hdefault : PostWebsiteScanController.defaultScanFrequency env
          (Fields.get payload "scanType") with _ | own
      · rw [Val.get_obj, hdefault] at hfrequency
        cases hfrequency
      · rw [Val.get_obj, hdefault] at hfrequency
        cases hfrequency
        refine ⟨own, hget, Or.inr ?_⟩
        rw [h.scanType]
        unfold PostWebsiteScanController.defaultScanFrequency at hdefault ⊢
        split at hdefault
        · rename_i htype
          rw [htype]
          exact hdefault
        · cases hdefault
    · -- the frequency of the request, which the validator let through
      have hne : (Val.obj payload).get "scanFrequency" ≠ .undefined := by
        rw [Val.get_obj, hown]
        nofun
      rw [if_pos hne, Val.get_obj, hown] at hfrequency
      cases hfrequency
      exact ⟨own, hget, Or.inl hparses⟩

/-- The stored priority is in range exactly if the request meets the condition. -/
theorem priorityInRange_iff (hconfig : ConfigAround env.restApiConfig) {context : Context}
    {payload : Fields} {websiteId : String}
    (hp : ScanPayload env payload websiteId)
    (hpayload : (tryGetPayload context none).1 = .obj payload) {w : World} {website : Document}
    (hwebsite : storedWebsite w websiteId = some website) :
    PriorityInRange env w ⟨.postWebsiteScan, context⟩ ↔
      InRange env.restApiConfig (resolvedPriority payload website) := by
  unfold resolvedPriority
  constructor
  · intro h
    rcases hp.priority with hnone | ⟨n, hn, hrange⟩
    · rw [hnone]
      exact (inRange_nullish hconfig).mpr
        (h rfl payload websiteId website hpayload hp.named hnone hwebsite)
    · -- the validator looked at it
      rw [hn]
      exact hrange
  · intro h _ payload' websiteId' website' hpayload' hnamed hnone hwebsite'
    obtain rfl : payload = payload' := Val.obj.inj (hpayload.symm.trans hpayload')
    obtain rfl : websiteId = websiteId' := by simpa using hp.named.symm.trans hnamed
    obtain rfl : website = website' := Option.some.inj (hwebsite.symm.trans hwebsite')
    rw [hnone] at h
    exact (inRange_nullish hconfig).mp h

/-- A scan request in a run writes nothing, or is answered with the scan it stored, or the
response to its write is lost. -/
theorem postWebsiteScan_cases {w : World} (hw : w.ErrorsFail) (context : Context) :
    (((ApiRequest.mk .postWebsiteScan context).serve env).run (World.handle svc) w).2.repo =
      w.repo ∨
    ∃ payload websiteId website d result w',
      (tryGetPayload context none).1 = .obj payload ∧ ScanPayload env payload websiteId ∧
      storedWebsite w websiteId = some website ∧ StoredScan env payload websiteId website d ∧
      ((ApiRequest.mk .postWebsiteScan context).serve env).run (World.handle svc) w =
        (result, w') ∧
      (¬ WriteLost w ∧ (∃ body, result = .ok (some (jsonResponse 201 body))) ∨
        WriteLost w ∧ ∃ e, result = .error e) ∧
      w'.repo = Function.update w.repo .scanMetadata ((w.repo .scanMetadata).put d) := by
  by_cases haccepted : (ApiRequest.mk .postWebsiteScan context).Accepted env
  · obtain ⟨payload, websiteId, hp, hpayload⟩ := scanPayload_of_accepted haccepted
    rcases @postWebsiteScan_outcome env svc w hw payload websiteId hp context hpayload
      ((ApiRequest.mk .postWebsiteScan context).validated env).2 with
      ⟨result, w', hrun, hlater, -⟩ | ⟨website, d, result, w', hwebsite, hd, hrun, hresult, hrepo⟩
    · left
      rw [ApiRequest.run_serve_world env svc haccepted]
      refine Eq.trans ?_ hlater.repo
      exact congrArg (fun x => x.2.repo) hrun
    · right
      have hpayload' := congrArg Prod.fst (hpayload none)
      rcases hresult with ⟨hkept, body, rfl⟩ | ⟨hlost, e, rfl⟩
      · exact ⟨payload, websiteId, website, d, _, w', hpayload', hp, hwebsite, hd,
          ApiRequest.run_serve_ok env svc haccepted hrun, Or.inl ⟨hkept, body, rfl⟩, hrepo⟩
      · refine ⟨payload, websiteId, website, d, _, w', hpayload', hp, hwebsite, hd, ?_,
          Or.inr ⟨hlost, e, rfl⟩, hrepo⟩
        rw [ApiRequest.run_serve_accepted env svc haccepted]
        exact Program.run_bind_error _ hrun
  · left
    rw [ApiRequest.run_serve_refused env svc haccepted]

/-- A website request changes no scan, and deletes no website. -/
theorem postWebsite_scans (hnewId : ∀ n, isValidV6Guid (svc.newId n) = false) {w : World}
    (hw : ScanInvariant env svc w) (context : Context) :
    WellFormedScans env
      (((ApiRequest.mk .postWebsite context).serve env).run (World.handle svc) w).2 := by
  -- the shape of the scans is to be among those of before
  have hshape : w.Shaped svc (shape env.fnv1a fun d => d ∈ (w.repo .scanMetadata).docs) := by
    refine ⟨hw.shape.stamped, fun container d hd => ?_⟩
    cases container with
    | websiteData => exact hw.shape.shape .websiteData d hd
    | scanMetadata => exact hd
  have hkeeps :=
    @keeps_postWebsite env svc (fun d => d ∈ (w.repo .scanMetadata).docs) hnewId context
  have hstill := stillStored_run hkeeps hshape
  intro d hd
  have hold := (shaped_run hkeeps hshape).shape .scanMetadata d hd
  exact (hw.scans d hold).of_stored (storedWebsite_of_stillStored hstill)

/-- A scan request keeps the scans well formed exactly if its priority is in range, or it
stores no scan. -/
theorem postWebsiteScan_scans (hconfig : ConfigAround env.restApiConfig) {w : World}
    (hw : ScanInvariant env svc w) (context : Context) :
    WellFormedScans env
      (((ApiRequest.mk .postWebsiteScan context).serve env).run (World.handle svc) w).2 ↔
    PriorityInRange env w ⟨.postWebsiteScan, context⟩ ∨
      (((ApiRequest.mk .postWebsiteScan context).serve env).run (World.handle svc) w).2.repo
        .scanMetadata = w.repo .scanMetadata := by
  rcases @postWebsiteScan_cases env svc w hw.errors context with
    hrepo | ⟨payload, websiteId, website, d, result, w', hpayload, hp, hwebsite, hd, hrun, -, hrepo⟩
  · -- nothing is stored, so the scans are the ones that were there
    have hscans : WellFormedScans env
        (((ApiRequest.mk .postWebsiteScan context).serve env).run (World.handle svc) w).2 := by
      intro e he
      rw [hrepo] at he
      refine (hw.scans e he).of_stored fun id hid => ?_
      unfold storedWebsite
      rwa [hrepo]
    exact iff_of_true hscans (Or.inr (congrFun hrepo _))
  · rw [hrun]
    -- a scan is stored, and the websites are the same
    have hsites : ∀ id, storedWebsite w' id = storedWebsite w id := fun id => by
      unfold storedWebsite
      rw [hrepo, Function.update_of_ne (by decide)]
    have hstored : storedWebsite w' websiteId ≠ none := by
      rw [hsites, hwebsite]
      nofun
    have hdocs : w'.repo .scanMetadata = (w.repo .scanMetadata).put d := by
      rw [hrepo, Function.update_self]
    -- a collection counts its writes
    have hne : w'.repo .scanMetadata ≠ w.repo .scanMetadata := by
      rw [hdocs]
      intro h
      have hwrites := congrArg Collection.writes h
      rw [Collection.writes_put] at hwrites
      omega
    rw [or_iff_left hne, priorityInRange_iff hconfig hp hpayload hwebsite,
      ← hd.wellFormed_iff hp hstored]
    constructor
    · intro h
      refine h d ?_
      rw [hdocs]
      exact Collection.mem_put_iff.mpr (Or.inl rfl)
    · intro h e he
      rw [hdocs] at he
      rcases Collection.mem_put_iff.mp he with rfl | ⟨he, -⟩
      · exact h
      · exact (hw.scans e he).of_stored fun id hid => by rwa [hsites]

/-- The requests of these runs. -/
def PostsWebsiteOrScan (r : ApiRequest) : Prop :=
  r.endpoint = .postWebsite ∨ r.endpoint = .postWebsiteScan

section

variable (hnewId : ∀ n, isValidV6Guid (svc.newId n) = false)
  (hconfig : ConfigAround env.restApiConfig)

include hnewId hconfig

theorem ScanInvariant.step_iff {w : World} (hw : ScanInvariant env svc w) {r : ApiRequest}
    (hr : PostsWebsiteOrScan r) :
    WellFormedScans env ((r.serve env).run (World.handle svc) w).2 ↔
      PriorityInRange env w r ∨
      ((r.serve env).run (World.handle svc) w).2.repo .scanMetadata = w.repo .scanMetadata := by
  obtain ⟨endpoint, context⟩ := r
  rcases hr with rfl | rfl
  · exact iff_of_true (postWebsite_scans hnewId hw context) (Or.inl nofun)
  · exact postWebsiteScan_scans hconfig hw context

theorem ScanInvariant.step {w : World} (hw : ScanInvariant env svc w) {r : ApiRequest}
    (hr : PostsWebsiteOrScan r) (hrange : PriorityInRange env w r) :
    ScanInvariant env svc ((r.serve env).run (World.handle svc) w).2 := by
  refine ⟨hw.errors.subset (run_faults_subset _ _), ?_,
    (hw.step_iff hnewId hconfig hr).mpr (Or.inl hrange)⟩
  obtain ⟨endpoint, context⟩ := r
  rcases hr with rfl | rfl
  · exact shaped_run (keeps_postWebsite hnewId context) hw.shape
  · exact shaped_run (keeps_postWebsiteScan context) hw.shape

/-- **The scans of a run** whose requests for scans have a priority in range, of their own or of
the website: every stored scan is well formed, and stays so exactly if the next request, too, has
a priority in range, or stores no scan. A scan request that is not answered with a scan has stored
none exactly if the response to its write is not lost, or it stores no scan. -/
theorem postWebsiteScan_wellFormed
    {guids : ℕ → V6Guid} {faults : List (Option Fault)} {w : World}
    (herrors : World.ErrorsFail { World.empty guids with faults := faults })
    (hreach : Reaches env svc (fun w r => PostsWebsiteOrScan r ∧ PriorityInRange env w r)
      { World.empty guids with faults := faults } w) :
    WellFormedScans env w ∧
    (∀ r, PostsWebsiteOrScan r →
      (WellFormedScans env ((r.serve env).run (World.handle svc) w).2 ↔
        PriorityInRange env w r ∨
        ((r.serve env).run (World.handle svc) w).2.repo .scanMetadata =
          w.repo .scanMetadata)) ∧
    ∀ context, ((∀ body, (((ApiRequest.mk .postWebsiteScan context).serve env).run
          (World.handle svc) w).1 ≠ .ok (some (jsonResponse 201 body))) →
        (((ApiRequest.mk .postWebsiteScan context).serve env).run (World.handle svc) w).2.repo
          .scanMetadata = w.repo .scanMetadata) ↔
      ¬ WriteLost w ∨
        (((ApiRequest.mk .postWebsiteScan context).serve env).run (World.handle svc) w).2.repo
          .scanMetadata = w.repo .scanMetadata := by
  have hempty : ScanInvariant env svc { World.empty guids with faults := faults } :=
    ⟨herrors, World.shaped_empty guids faults, fun _ hd => absurd hd List.not_mem_nil⟩
  have hw : ScanInvariant env svc w := hreach.invariant env svc hempty
    fun w r hr hw => hw.step hnewId hconfig hr.1 hr.2
  refine ⟨hw.scans, fun r hr => hw.step_iff hnewId hconfig hr, fun context => ?_⟩
  rcases @postWebsiteScan_cases env svc w hw.errors context with
    hrepo | ⟨-, -, -, -, result, w', -, -, -, -, hrun, ⟨hkept, body, rfl⟩ | ⟨hlost, e, rfl⟩, -⟩
  · exact iff_of_true (fun _ => congrFun hrepo _) (Or.inr (congrFun hrepo _))
  · rw [hrun]
    exact iff_of_true (fun hanswer => absurd rfl (hanswer body)) (Or.inl hkept)
  · -- the scan is stored and an exception thrown
    rw [hrun, or_iff_right (not_not_intro hlost)]
    exact ⟨fun h => h nofun, fun h _ => h⟩

end

/-! ### The priority of the website -/

/-- The world after a website with a priority was posted. -/
def prioritizedWorld (priority : ℚ) : World :=
  (((postSampleWebsite priority []).serve sampleEnvironment).run (World.handle Service.counting)
    (World.empty V6Guid.sample)).2

/-- And after a scan was requested without one. -/
def inheritingWorld (priority : ℚ) : World :=
  (((postSampleScan (V6Guid.sample 0).text).serve sampleEnvironment).run
    (World.handle Service.counting) (prioritizedWorld priority)).2

/-- The scan of a website whose priority is out of range has that priority. -/
theorem postWebsiteScan_outOfRange :
    ConfigAround sampleEnvironment.restApiConfig ∧
    Reaches sampleEnvironment Service.counting (fun _ r => PostsWebsiteOrScan r)
      (World.empty V6Guid.sample) (inheritingWorld 5000) ∧
    ((inheritingWorld 5000).repo .scanMetadata).docs.map (fun d => d.get "priority") =
      [.num 5000] ∧
    ¬ WellFormedScans sampleEnvironment (inheritingWorld 5000) := by
  have hpriorities : ((inheritingWorld 5000).repo .scanMetadata).docs.map
      (fun d => d.get "priority") = [.num 5000] := by
    decide +kernel
  refine ⟨⟨by decide, by decide⟩, .step (.step .refl (Or.inl rfl)) (Or.inr rfl), hpriorities, ?_⟩
  intro h
  obtain ⟨d, hd, hpriority⟩ :=
    List.mem_map.mp (hpriorities ▸ List.mem_singleton_self (Val.num 5000))
  have hrange := (h d hd).priority
  rw [hpriority] at hrange
  exact absurd hrange.2 (by decide)

/-- A scan takes over a priority in range. -/
theorem postWebsiteScan_wellFormed_sample :
    WellFormedScans sampleEnvironment (inheritingWorld 7) := by
  have hstored : (storedWebsite (prioritizedWorld 7) (V6Guid.sample 0).text).map
      (fun website => website.get "priority") = some (.num 7) := by
    decide +kernel
  have hrange : PriorityInRange sampleEnvironment (prioritizedWorld 7)
      (postSampleScan (V6Guid.sample 0).text) := by
    intro _ payload websiteId website hpayload hid _ hwebsite _ _
    obtain rfl : [("websiteId", Val.str (V6Guid.sample 0).text), ("scanType", .str "a11y")] =
      payload := Val.obj.inj hpayload
    obtain rfl : (V6Guid.sample 0).text = websiteId := by simpa [Fields.get] using hid
    rw [hwebsite, Option.map_some] at hstored
    rw [Option.some.inj hstored]
    exact ⟨by decide, by decide⟩
  have hpost : PriorityInRange sampleEnvironment (World.empty V6Guid.sample)
      (postSampleWebsite 7 []) := fun hendpoint => absurd hendpoint (by decide)
  exact (@postWebsiteScan_wellFormed sampleEnvironment Service.counting not_valid_newId
    ⟨by decide, by decide⟩ V6Guid.sample [] (inheritingWorld 7)
    (fun _ he => absurd he List.not_mem_nil)
    (.step (.step .refl ⟨Or.inl rfl, hpost⟩) ⟨Or.inr rfl, hrange⟩)).1

end WebInsights.StorageApi
