/-
Which scan a GET website scan request answers with.

The latest scan is found by a query for the website and the scan type of the
route. A scan with an id is found by its id alone: the partition key comes from
the node of the id, and nothing compares what was found with the rest of the
route. And only one storage error is looked at, the one of the read by id: where
the query for the latest scan, the query for the page scans or the read of a page
fails, or the page of a page scan is missing, the handler ends with an exception.
So a request is answered as its route says exactly if the scan that is found, if
there is one, is of the website and the type of the route and can be answered
with (`Answerable`), or its read is refused (`ReadRefused`).
-/
import WebInsights.Cosmos.Reads
import WebInsights.Providers.PartitionRouting
import WebInsights.StorageApi.RoundTrip

set_option autoImplicit false

namespace WebInsights.StorageApi

open Common Cosmos CosmosClientWrapper CosmosContainerClient Effect Js Providers WebApi

variable {env : Environment} {svc : Service} {w : World}

/-! ## Queries that may fail -/

/-- A query is iterated in a calm world. -/
theorem run_iterable_calm {container : Container} (hw : w.Calm 1) (q : SqlQuerySpec) :
    (getCosmosQueryResultsIterable container q).run (World.handle svc) w =
      (.ok ((q.results (w.repo container).docs).map Document.val), w.next) := by
  rcases @World.handle_calm_cases svc w container (.query q) with ⟨e, -, hcalm⟩ | ⟨hserve, -⟩
  · exact absurd hw hcalm
  · have hrepo : w.next.repo container = w.repo container := rfl
    unfold getCosmosQueryResultsIterable queryDocuments readItems
    rw [bind_assoc, World.run_request_bind, hserve, Collection.serve, ← hrepo,
      World.withRepo_eq_self]
    rcases (q.results (w.next.repo container).docs).map Document.val with _ | ⟨v, vs⟩ <;> rfl

/-- A query that was iterated listed its results, in a calm world. -/
theorem run_iterable_ok {container : Container} {q : SqlQuerySpec} {vs : List Val} {w' : World}
    (h : (getCosmosQueryResultsIterable container q).run (World.handle svc) w = (.ok vs, w')) :
    w.Calm 1 ∧ w' = w.next ∧ vs = (q.results (w.repo container).docs).map Document.val := by
  by_cases hcalm : w.Calm 1
  · rw [run_iterable_calm hcalm] at h
    cases h
    exact ⟨hcalm, rfl, rfl⟩
  · -- the error leaves nothing to iterate
    rcases @World.handle_calm_cases svc w container (.query q) with ⟨e, he, -⟩ | ⟨-, h'⟩
    · unfold getCosmosQueryResultsIterable queryDocuments readItems at h
      rw [bind_assoc, World.run_request_bind, he] at h
      obtain ⟨response, w₁, hfailed, hrest⟩ := Program.run_bind_eq_ok _ h
      obtain ⟨_, w₂, -, hitem⟩ := Program.run_bind_eq_ok _ hrest
      rw [handleFailedOperationResponse_item hfailed] at hitem
      cases hitem
    · exact absurd h' hcalm

/-- The first result of a query, in a calm world. -/
theorem run_firstQueryResult_calm {container : Container} (hw : w.Calm 1) (q : SqlQuerySpec)
    (none : Val) : (firstQueryResult container q none).run (World.handle svc) w =
      (.ok (((q.results (w.repo container).docs).map Document.val).headD none), w.next) := by
  rcases @World.handle_calm_cases svc w container (.query q) with ⟨e, -, hcalm⟩ | ⟨hserve, -⟩
  · exact absurd hw hcalm
  · have hrepo : w.next.repo container = w.repo container := rfl
    unfold firstQueryResult queryDocuments readItems
    rw [bind_assoc, World.run_request_bind, hserve, Collection.serve, ← hrepo,
      World.withRepo_eq_self]
    rcases (q.results (w.next.repo container).docs).map Document.val with _ | ⟨v, vs⟩ <;> rfl

/-- Only a calm world has a first result. -/
theorem calm_of_firstQueryResult {container : Container} {q : SqlQuerySpec} {none v : Val}
    {w' : World} (h : (firstQueryResult container q none).run (World.handle svc) w = (.ok v, w')) :
    w.Calm 1 := by
  unfold firstQueryResult queryDocuments readItems at h
  rw [bind_assoc, World.run_request_bind] at h
  rcases @World.handle_calm_cases svc w container (.query q) with ⟨e, he, -⟩ | ⟨-, hcalm⟩
  · rw [he] at h
    obtain ⟨response, w₁, hfailed, hrest⟩ := Program.run_bind_eq_ok _ h
    obtain ⟨_, w₂, -, hitem⟩ := Program.run_bind_eq_ok _ hrest
    rw [handleFailedOperationResponse_item hfailed] at hitem
    cases hitem
  · exact hcalm

/-! ## The page scans of the answer -/

/-- The page of a page scan is stored. -/
def HasPage (fnv1a : String → ℕ) (w : World) (pageScan : Document) : Prop :=
  ∃ pageId page, pageScan.get "pageId" = .str pageId ∧ (w.repo .websiteData).find
    (.str (PageProvider.getPagePartitionKey fnv1a pageId), .str pageId) = some page

/-- What the converter does with a page scan. -/
def convertPageScan (env : Environment) (pageScan : Val) : Async Fields := do
  let page ← GetWebsiteScanController.getPageForScan env pageScan
  Program.ofExcept (createPageScanApiObject pageScan page)

theorem run_convertPageScan_calm (hw : w.Calm 1) {pageScan : Document}
    (h : HasPage env.fnv1a w pageScan) :
    ∃ object, (convertPageScan env pageScan.val).run (World.handle svc) w =
      (.ok object, w.next) := by
  obtain ⟨pageId, page, hpageId, hfind⟩ := h
  have hproperty : property pageScan.val "pageId" = .ok (.str pageId) := congrArg Except.ok hpageId
  have hguid : guidText (.str pageId) = .ok pageId := rfl
  have hread := @run_readItem_calm svc .websiteData w hw _ _ page hfind true
  have hpage : (PageProvider.readPage env.fnv1a pageId).run (World.handle svc) w =
      (.ok page.val, w.next) := Program.run_bind_ok _ hread
  obtain ⟨object, hobject⟩ : ∃ object, createPageScanApiObject pageScan.val page.val =
      .ok object := ⟨_, rfl⟩
  refine ⟨object, ?_⟩
  unfold convertPageScan GetWebsiteScanController.getPageForScan
  rw [hproperty, Program.ofExcept_ok, pure_bind, hguid, Program.ofExcept_ok, pure_bind,
    Program.run_bind_ok _ hpage, hobject, Program.ofExcept_ok, Program.run_pure]

theorem run_convertPageScan_ok {pageScan : Document} {object : Fields} {w' : World}
    (h : (convertPageScan env pageScan.val).run (World.handle svc) w = (.ok object, w')) :
    w.Calm 1 ∧ HasPage env.fnv1a w pageScan ∧ w' = w.next := by
  unfold convertPageScan GetWebsiteScanController.getPageForScan at h
  obtain ⟨page, w₁, hpage, hconvert⟩ := Program.run_bind_eq_ok _ h
  obtain ⟨v, w₂, hv, hrest⟩ := Program.run_bind_eq_ok _ hpage
  obtain ⟨pageId, w₃, hpageId, hread⟩ := Program.run_bind_eq_ok _ hrest
  obtain ⟨rfl, hproperty⟩ := Program.run_ofExcept_eq_ok _ hv
  obtain ⟨rfl, hguid⟩ := Program.run_ofExcept_eq_ok _ hpageId
  obtain ⟨rfl, hobject⟩ := Program.run_ofExcept_eq_ok _ hconvert
  obtain rfl := eq_str_of_guidText hguid
  obtain ⟨response, w₄, hresponse, hreturn⟩ := Program.run_bind_eq_ok _ hread
  obtain ⟨_, w₅, hsuccess, hitem⟩ := Program.run_bind_eq_ok _ hreturn
  obtain rfl : w₅ = w₄ := by
    unfold client.ensureSuccessStatusCode at hsuccess
    split at hsuccess
    · cases hsuccess
      rfl
    · cases hsuccess
  cases hitem
  -- only a page can be converted
  have hne : response.item ≠ .undefined := by
    intro hnone
    have hthrows : createPageScanApiObject pageScan.val .undefined =
        .error (.typeError "Cannot read property 'id' of undefined") := rfl
    rw [hnone, hthrows] at hobject
    cases hobject
  obtain ⟨hcalm, rfl, d, hfind, rfl⟩ := run_readItem_item hresponse hne
  exact ⟨hcalm, ⟨pageId, d, property_eq_ok hproperty, hfind⟩, rfl⟩

/-- Page scans are converted one by one in a calm world that has their pages. -/
theorem run_convertAll_calm {pageScans : List Document} (hw : w.Calm pageScans.length)
    (h : ∀ pageScan ∈ pageScans, HasPage env.fnv1a w pageScan) :
    ∃ objects w', (convertAll (convertPageScan env) (pageScans.map Document.val)).run
      (World.handle svc) w = (.ok objects, w') := by
  induction pageScans generalizing w with
  | nil => exact ⟨[], w, rfl⟩
  | cons pageScan pageScans ih =>
    have hne : pageScan.val ≠ .undefined := nofun
    obtain ⟨hcalm, hnext⟩ := World.calm_succ.mp hw
    obtain ⟨object, hobject⟩ := @run_convertPageScan_calm env svc w hcalm pageScan
      (h pageScan List.mem_cons_self)
    obtain ⟨objects, w', hobjects⟩ := ih hnext fun ps hps => h ps (List.mem_cons_of_mem _ hps)
    refine ⟨object :: objects, w', ?_⟩
    rw [List.map_cons, convertAll, if_neg hne, Program.run_bind_ok _ hobject,
      Program.run_bind_ok _ hobjects, Program.run_pure]

/-- Page scans that were converted had a calm world and their pages. -/
theorem run_convertAll_ok {pageScans : List Document} {objects : List Fields} {w' : World}
    (h : (convertAll (convertPageScan env) (pageScans.map Document.val)).run
      (World.handle svc) w = (.ok objects, w')) :
    w.Calm pageScans.length ∧ ∀ pageScan ∈ pageScans, HasPage env.fnv1a w pageScan := by
  induction pageScans generalizing w objects w' with
  | nil => exact ⟨w.calm_zero, fun _ hmem => absurd hmem List.not_mem_nil⟩
  | cons pageScan pageScans ih =>
    have hne : pageScan.val ≠ .undefined := nofun
    rw [List.map_cons, convertAll, if_neg hne] at h
    obtain ⟨object, w₁, hobject, hrest⟩ := Program.run_bind_eq_ok _ h
    obtain ⟨os, w₂, hobjects, -⟩ := Program.run_bind_eq_ok _ hrest
    obtain ⟨hcalm, hpage, rfl⟩ := run_convertPageScan_ok hobject
    obtain ⟨hnext, hpages⟩ := ih hobjects
    exact ⟨World.calm_succ.mpr ⟨hcalm, hnext⟩, List.forall_mem_cons.mpr ⟨hpage, hpages⟩⟩

/-! ## The answer -/

/-- The scan stored under an id. -/
def storedScan (fnv1a : String → ℕ) (w : World) (scanId : String) : Option Document :=
  (w.repo .scanMetadata).find
    (.str (WebsiteScanProvider.getWebsiteScanPartitionKey fnv1a scanId), .str scanId)

/-- The page scans that are listed with a scan. -/
def pageScansOf (fnv1a : String → ℕ) (w : World) (scanId : String) : List Document :=
  (PageScanProvider.allPageScansQuery fnv1a scanId).results (w.repo .scanMetadata).docs

/-- A scan that was found can be answered with: neither the query for its page scans nor the
read of one of their pages is answered with an error, and the pages are stored. -/
def Answerable (fnv1a : String → ℕ) (w : World) (websiteScan : Document) : Prop :=
  ∃ scanId, websiteScan.get "id" = .str scanId ∧
    w.Calm ((pageScansOf fnv1a w scanId).length + 1) ∧
    ∀ pageScan ∈ pageScansOf fnv1a w scanId, HasPage fnv1a w pageScan

/-- The scan is of the website and the type that the route names. -/
structure Addressed (context : Context) (websiteScan : Val) : Prop where
  website : websiteScan.get "websiteId" = .str (bindingData context "websiteId")
  scanType : websiteScan.get "scanType" = .str (bindingData context "scanType")

/-- The response has the scan that the route names, or says that there is none. -/
def AnsweredFor (context : Context) (res : Option HttpResponse) : Prop :=
  (∃ body, res = some (jsonResponse 200 body) ∧ Addressed context body) ∨
  ∃ error ∈ [WebApiErrorCodes.resourceNotFound, WebApiErrorCodes.internalError],
    res = some (jsonResponse error.statusCode error.body)

open GetWebsiteScanController

/-- The body of a response about a scan. -/
def websiteScanBody (d : Document) (pageScans : List Fields) : Val :=
  .obj (copyProperties d.val websiteScanProperties ++ [("pageScans", .arr (pageScans.map .obj))])

theorem get_websiteScanBody (d : Document) (pageScans : List Fields) {k : String}
    (h : k ∈ websiteScanProperties) : (websiteScanBody d pageScans).get k = d.get k := by
  unfold websiteScanBody
  rw [Val.get_obj, Fields.get_append, keys_copyProperties, if_pos h, get_copyProperties h]
  rfl

theorem addressed_body (context : Context) (d : Document) (pageScans : List Fields) :
    Addressed context (websiteScanBody d pageScans) ↔ Addressed context d.val := by
  have hwebsite := get_websiteScanBody d pageScans (show "websiteId" ∈ websiteScanProperties by
    decide)
  have htype := get_websiteScanBody d pageScans (show "scanType" ∈ websiteScanProperties by decide)
  constructor
  · rintro ⟨h, h'⟩
    exact ⟨hwebsite.symm.trans h, htype.symm.trans h'⟩
  · rintro ⟨h, h'⟩
    exact ⟨hwebsite.trans h, htype.trans h'⟩

/-- A response about a scan is for the route if the scan is. -/
theorem answeredFor_body_iff {context : Context} {d : Document} {pageScans : List Fields} :
    AnsweredFor context (setResponseContentTypeHeader
      (some ⟨some 200, none, websiteScanBody d pageScans⟩)) ↔ Addressed context d.val := by
  constructor
  · rintro (⟨body, hbody, haddressed⟩ | ⟨error, herror, hres⟩)
    · obtain rfl : websiteScanBody d pageScans = body := by
        simpa [jsonResponse, setResponseContentTypeHeader] using hbody
      exact (addressed_body context d pageScans).mp haddressed
    · -- neither of the errors has status 200
      simp only [List.mem_cons, List.not_mem_nil, or_false] at herror
      rcases herror with rfl | rfl
      · cases congrArg (Option.map HttpResponse.status) hres
      · cases congrArg (Option.map HttpResponse.status) hres
  · intro haddressed
    exact Or.inl ⟨_, rfl, (addressed_body context d pageScans).mpr haddressed⟩

/-- A scan is answered with when nothing is in the way. -/
theorem run_respond_of_answerable {d : Document} (h : Answerable env.fnv1a w d) :
    ∃ pageScans w', (respond env d.val).run (World.handle svc) w =
      (.ok (some ⟨some 200, none, websiteScanBody d pageScans⟩), w') := by
  obtain ⟨scanId, hid, hw, hpages⟩ := h
  obtain ⟨hcalm, hnext⟩ := World.calm_succ.mp hw
  have hproperty : property d.val "id" = .ok (.str scanId) := congrArg Except.ok hid
  have hguid : guidText (.str scanId) = .ok scanId := rfl
  have hconvert : createWebsiteScanApiObject d.val =
      .ok (copyProperties d.val websiteScanProperties) := rfl
  have hquery := @run_iterable_calm svc w .scanMetadata hcalm
    (PageScanProvider.allPageScansQuery env.fnv1a scanId)
  obtain ⟨objects, w', hobjects⟩ := @run_convertAll_calm env svc w.next
    (pageScansOf env.fnv1a w scanId) hnext hpages
  have hresponse : (createWebsiteScanApiResponse d.val
      (PageScanProvider.getAllPageScansForWebsiteScan env.fnv1a scanId) (getPageForScan env)).run
      (World.handle svc) w = (.ok (copyProperties d.val websiteScanProperties ++
        [("pageScans", .arr (objects.map .obj))]), w') := by
    unfold createWebsiteScanApiResponse
    rw [hconvert, Program.ofExcept_ok, pure_bind]
    refine (Program.run_bind_ok _ hquery).trans ?_
    exact Program.run_bind_ok _ hobjects
  refine ⟨objects, w', ?_⟩
  unfold respond
  rw [hproperty, Program.ofExcept_ok, pure_bind, hguid, Program.ofExcept_ok, pure_bind,
    Program.run_bind_ok _ hresponse]
  rfl

/-- What was answered with a scan is about that scan, and nothing was in the way. -/
theorem run_respond_ok {d : Document} {res : Option HttpResponse} {w' : World}
    (h : (respond env d.val).run (World.handle svc) w = (.ok res, w')) :
    Answerable env.fnv1a w d ∧ ∃ pageScans,
      res = some ⟨some 200, none, websiteScanBody d pageScans⟩ := by
  unfold respond at h
  obtain ⟨v, w₁, hv, hguided⟩ := Program.run_bind_eq_ok _ h
  obtain ⟨scanId, w₂, hscanId, hanswered⟩ := Program.run_bind_eq_ok _ hguided
  obtain ⟨body, w₃, hbody, hreturned⟩ := Program.run_bind_eq_ok _ hanswered
  unfold createWebsiteScanApiResponse at hbody
  obtain ⟨websiteScan, w₄, hscan, hlisted⟩ := Program.run_bind_eq_ok _ hbody
  obtain ⟨documents, w₅, hquery, hconverted⟩ := Program.run_bind_eq_ok _ hlisted
  obtain ⟨objects, w₆, hobjects, hobject⟩ := Program.run_bind_eq_ok _ hconverted
  -- the steps that only compute leave the world alone
  obtain ⟨rfl, hproperty⟩ := Program.run_ofExcept_eq_ok _ hv
  obtain ⟨rfl, hguid⟩ := Program.run_ofExcept_eq_ok _ hscanId
  obtain ⟨rfl, hconvert⟩ := Program.run_ofExcept_eq_ok _ hscan
  obtain rfl := eq_str_of_guidText hguid
  obtain ⟨hcalm, rfl, rfl⟩ := run_iterable_ok hquery
  obtain ⟨hnext, hpages⟩ := @run_convertAll_ok env svc w₄.next (pageScansOf env.fnv1a w₄ scanId)
    objects w₆ hobjects
  have hsame : copyProperties d.val websiteScanProperties = websiteScan := Except.ok.inj hconvert
  cases hobject
  cases hreturned
  refine ⟨⟨scanId, property_eq_ok hproperty, World.calm_succ.mpr ⟨hcalm, hnext⟩, hpages⟩,
    objects, ?_⟩
  rw [websiteScanBody, hsame]

/-- Nothing is not answered with. -/
theorem run_respond_undefined (res : Option HttpResponse) (w' : World) :
    (respond env .undefined).run (World.handle svc) w ≠ (.ok res, w') := nofun

/-! ## Finding the scan -/

/-- The scan a request is about: the latest one of the website and the type, or the one that is
stored under the id. -/
def foundScan (fnv1a : String → ℕ) (w : World) (context : Context) : Option Document :=
  if bindingData context "scanIdOrLatest" = GetWebsiteScanRequestValidator.latestScanTag then
    ((WebsiteScanProvider.latestScanForWebsiteQuery fnv1a (bindingData context "websiteId")
      (.str (bindingData context "scanType"))).results (w.repo .scanMetadata).docs).head?
  else storedScan fnv1a w (bindingData context "scanIdOrLatest")

/-- The read of a scan by its id is answered with an error whose status is none of success. -/
def ReadRefused (w : World) (context : Context) : Prop :=
  bindingData context "scanIdOrLatest" ≠ GetWebsiteScanRequestValidator.latestScanTag ∧
  ∃ f status, w.faults.head? = some (some f) ∧ f.error.code = some status ∧
    client.isSuccessStatusCode status = false

/-- The latest scan is one of the website and the type of the route. -/
theorem addressed_of_latest {context : Context} {d : Document}
    (hlatest : bindingData context "scanIdOrLatest" = GetWebsiteScanRequestValidator.latestScanTag)
    (h : foundScan env.fnv1a w context = some d) : Addressed context d.val := by
  rw [foundScan, if_pos hlatest] at h
  have hselects := (SqlQuerySpec.mem_of_mem_results (List.mem_of_head? h)).2
  obtain ⟨hmeets, -, htype⟩ := (latestScanForWebsiteQuery_selects _ _ d).mp hselects
  exact ⟨hmeets.2.1, htype⟩

/-- The lookup of a scan, in a calm world. -/
theorem run_getWebsiteScan_calm (hw : w.Calm 1) (context : Context) :
    (getWebsiteScan env context).run (World.handle svc) w =
      (.ok (match foundScan env.fnv1a w context with
        | some d => .ok d.val
        | none => .error (getErrorResponse WebApiErrorCodes.resourceNotFound)), w.next) := by
  unfold getWebsiteScan foundScan
  by_cases hlatest : bindingData context "scanIdOrLatest" =
      GetWebsiteScanRequestValidator.latestScanTag
  · rw [if_pos hlatest, if_pos hlatest]
    refine (Program.run_bind_ok _ (run_firstQueryResult_calm hw _ _)).trans ?_
    rcases ((WebsiteScanProvider.latestScanForWebsiteQuery env.fnv1a
      (bindingData context "websiteId") (.str (bindingData context "scanType"))).results
        (w.repo .scanMetadata).docs) with _ | ⟨d, ds⟩ <;> rfl
  · rw [if_neg hlatest, if_neg hlatest]
    unfold getScanWithId storedScan
    rcases hfind : (w.repo .scanMetadata).find
      (.str (WebsiteScanProvider.getWebsiteScanPartitionKey env.fnv1a
        (bindingData context "scanIdOrLatest")), .str (bindingData context "scanIdOrLatest"))
      with _ | d
    · exact Program.run_bind_ok _ (run_readItem_absent hw hfind false)
    · exact Program.run_bind_ok _ (run_readItem_calm hw hfind false)

/-- A read by id that is answered with an error: its status tells what comes of it. -/
theorem run_getScanWithId_fault {scanId : String} {f : Fault} {faults : List (Option Fault)}
    (h : w.faults = some f :: faults) :
    (getScanWithId env scanId).run (World.handle svc) w =
      (match f.error.code with
        | none => .error (.sdk f.error)
        | some status =>
          if client.isSuccessStatusCode status = true then .ok (.ok .undefined)
          else if status = .code 404 then
            .ok (.error (getErrorResponse WebApiErrorCodes.resourceNotFound))
          else .ok (.error (getErrorResponse WebApiErrorCodes.internalError)), w.next) := by
  unfold getScanWithId WebsiteScanProvider.readWebsiteScan readDocument
  rw [readItem_eq, bind_assoc, World.run_request_bind, World.handle_read_fault h, readResponse,
    errorResponse, client.getErrorResponse]
  rcases f.error.code with _ | status
  · rfl
  · rw [Option.map_some, Program.ofExcept_ok, pure_bind]
    dsimp only
    by_cases hsuccess : client.isSuccessStatusCode status = true
    · rw [if_pos hsuccess, if_pos hsuccess, Program.run_pure]
    · rw [if_neg hsuccess, if_neg hsuccess]
      by_cases hmissing : status = .code 404
      · rw [if_pos hmissing, if_pos hmissing, Program.run_pure]
      · rw [if_neg hmissing, if_neg hmissing, Program.run_pure]

theorem run_getWebsiteScan_refused {context : Context} (h : ReadRefused w context) :
    ∃ error ∈ [WebApiErrorCodes.resourceNotFound, WebApiErrorCodes.internalError], ∃ w',
      (getWebsiteScan env context).run (World.handle svc) w =
        (.ok (.error (getErrorResponse error)), w') := by
  obtain ⟨hid, f, status, hf, hcode, hstatus⟩ := h
  obtain ⟨faults, hfaults⟩ := List.head?_eq_some_iff.mp hf
  have hrun := @run_getScanWithId_fault env svc w (bindingData context "scanIdOrLatest") _ _ hfaults
  rw [hcode] at hrun
  dsimp only at hrun
  rw [if_neg (by rw [hstatus]; nofun)] at hrun
  unfold getWebsiteScan
  rw [if_neg hid, hrun]
  by_cases hmissing : status = .code 404
  · rw [if_pos hmissing]
    exact ⟨_, List.mem_cons_self, _, rfl⟩
  · rw [if_neg hmissing]
    exact ⟨_, List.mem_cons_of_mem _ List.mem_cons_self, _, rfl⟩

/-- Any other error leaves nothing to answer with. -/
theorem run_getWebsiteScan_ok {context : Context} {found : Except HttpResponse Val} {w' : World}
    (h : (getWebsiteScan env context).run (World.handle svc) w = (.ok found, w')) :
    w.Calm 1 ∨ ReadRefused w context ∨ found = .ok .undefined := by
  rw [or_iff_not_imp_left]
  intro hcalm
  unfold getWebsiteScan at h
  by_cases hlatest : bindingData context "scanIdOrLatest" =
      GetWebsiteScanRequestValidator.latestScanTag
  · rw [if_pos hlatest] at h
    obtain ⟨v, w₁, hquery, -⟩ := Program.run_bind_eq_ok _ h
    exact absurd (calm_of_firstQueryResult hquery) hcalm
  · rw [if_neg hlatest] at h
    obtain ⟨f, faults, hfaults⟩ := World.not_calm_one.mp hcalm
    rw [run_getScanWithId_fault hfaults] at h
    rcases hcode : f.error.code with _ | status
    · rw [hcode] at h
      cases h
    · rw [hcode] at h
      dsimp only at h
      by_cases hstatus : client.isSuccessStatusCode status = true
      · rw [if_pos hstatus] at h
        cases h
        exact Or.inr rfl
      · exact Or.inl ⟨hlatest, f, status, by rw [hfaults]; rfl, hcode, by simpa using hstatus⟩

/-- Sending the response does not change what it says. -/
theorem exists_run_serve_iff {context : Context} {P : Option HttpResponse → Prop}
    (haccepted : (ApiRequest.mk .getWebsiteScan context).Accepted env) :
    (∃ res w', ((ApiRequest.mk .getWebsiteScan context).serve env).run (World.handle svc) w =
      (.ok res, w') ∧ P res) ↔
    ∃ res w', (GetWebsiteScanController.handleRequest env context
      ((ApiRequest.mk .getWebsiteScan context).validated env).2).run (World.handle svc) w =
      (.ok res, w') ∧ P (setResponseContentTypeHeader res) := by
  rw [ApiRequest.run_serve_accepted env svc haccepted]
  constructor
  · rintro ⟨res, w', hrun, hP⟩
    obtain ⟨left, w₁, hhandled, hheaders⟩ := Program.run_bind_eq_ok _ hrun
    cases hheaders
    exact ⟨left, _, hhandled, hP⟩
  · rintro ⟨res, w', hrun, hP⟩
    exact ⟨_, w', Program.run_bind_ok _ hrun, hP⟩

/-- **A GET website scan request is answered as its route says exactly if** the scan that is
found, if there is one, is of the website and the type of the route and can be answered with, or
its read by id is refused. -/
theorem getWebsiteScan_addressed_iff {context : Context}
    (haccepted : (ApiRequest.mk .getWebsiteScan context).Accepted env) (w : World) :
    (∃ res w', ((ApiRequest.mk .getWebsiteScan context).serve env).run (World.handle svc) w =
      (.ok res, w') ∧ AnsweredFor context res) ↔
    ReadRefused w context ∨ w.Calm 1 ∧ ∀ d, foundScan env.fnv1a w context = some d →
      Addressed context d.val ∧ Answerable env.fnv1a w.next d := by
  rw [exists_run_serve_iff haccepted]
  by_cases hrefused : ReadRefused w context
  · -- the error of the read is looked at
    obtain ⟨error, herror, w', hrun⟩ := @run_getWebsiteScan_refused env svc w context hrefused
    exact iff_of_true ⟨_, w', Program.run_bind_ok _ hrun, Or.inr ⟨error, herror, rfl⟩⟩
      (Or.inl hrefused)
  rw [or_iff_right hrefused]
  by_cases hcalm : w.Calm 1
  · rw [and_iff_right hcalm]
    have hlookup := @run_getWebsiteScan_calm env svc w hcalm context
    rcases hfound : foundScan env.fnv1a w context with _ | d
    · rw [hfound] at hlookup
      exact iff_of_true ⟨_, _, Program.run_bind_ok _ hlookup, Or.inr ⟨_, List.mem_cons_self, rfl⟩⟩
        nofun
    · rw [hfound] at hlookup
      constructor
      · rintro ⟨res, w', hrun, hanswered⟩ d' hd'
        obtain rfl := Option.some.inj hd'
        obtain ⟨hanswerable, pageScans, rfl⟩ :=
          run_respond_ok ((Program.run_bind_ok _ hlookup).symm.trans hrun)
        exact ⟨answeredFor_body_iff.mp hanswered, hanswerable⟩
      · intro h
        obtain ⟨haddressed, hanswerable⟩ := h d rfl
        obtain ⟨pageScans, w', hrespond⟩ := @run_respond_of_answerable env svc _ d hanswerable
        exact ⟨_, w', (Program.run_bind_ok _ hlookup).trans hrespond,
          answeredFor_body_iff.mpr haddressed⟩
  · -- nothing was found that could be answered with, or said to be missing
    refine iff_of_false ?_ fun h => hcalm h.1
    rintro ⟨res, w', hrun, -⟩
    obtain ⟨found, w₁, hlookup, hanswered⟩ := Program.run_bind_eq_ok _ hrun
    obtain rfl := ((run_getWebsiteScan_ok hlookup).resolve_left hcalm).resolve_left hrefused
    exact run_respond_undefined _ _ hanswered

/-! ### A scan of another website -/

/-- The world after a website and an accessibility scan of it were posted. -/
def scannedWorld : World :=
  ((postSampleScan (V6Guid.sample 0).text).serve sampleEnvironment).run
    (World.handle Service.counting) (((postSampleWebsite 0 []).serve sampleEnvironment).run
      (World.handle Service.counting) (World.empty V6Guid.sample)).2 |>.2

/-- A request for a privacy scan of another website, with the id of that scan. -/
def misaddressed : Context :=
  getContext [("websiteId", (V6Guid.sample 2).text), ("scanType", "privacy"),
    ("scanIdOrLatest", createGuidFromBaseGuid (V6Guid.sample 1).text (V6Guid.sample 0).text)]

/-- The scan is answered with, whatever website and type the route names. -/
theorem getWebsiteScan_misaddressed :
    Reaches sampleEnvironment Service.counting (fun _ _ => True) (World.empty V6Guid.sample)
        scannedWorld ∧
      (ApiRequest.mk .getWebsiteScan misaddressed).Accepted sampleEnvironment ∧
      (((ApiRequest.mk .getWebsiteScan misaddressed).serve sampleEnvironment).run
          (World.handle Service.counting) scannedWorld).1.toOption.map (Option.map fun response =>
        (response.status, response.body.get "websiteId", response.body.get "scanType")) =
          some (some (some 200, .str (V6Guid.sample 0).text, .str "a11y")) ∧
      ¬ ∃ res w', ((ApiRequest.mk .getWebsiteScan misaddressed).serve sampleEnvironment).run
          (World.handle Service.counting) scannedWorld = (.ok res, w') ∧
        AnsweredFor misaddressed res := by
  have hanswer : (((ApiRequest.mk .getWebsiteScan misaddressed).serve sampleEnvironment).run
      (World.handle Service.counting) scannedWorld).1.toOption.map (Option.map fun response =>
        (response.status, response.body.get "websiteId", response.body.get "scanType")) =
      some (some (some 200, .str (V6Guid.sample 0).text, .str "a11y")) := by
    decide +kernel
  refine ⟨.step (.step .refl trivial) trivial, by decide +kernel, hanswer, ?_⟩
  rintro ⟨res, w', hrun, hanswered⟩
  rw [hrun] at hanswer
  have hres := Option.some.inj hanswer
  rcases hanswered with ⟨body, rfl, haddressed⟩ | ⟨error, herror, rfl⟩
  · -- the body has the other type
    have htype : body.get "scanType" = .str "a11y" :=
      congrArg (fun x => x.2.2) (Option.some.inj hres)
    have hroute := haddressed.scanType.symm.trans htype
    exact absurd hroute (by decide)
  · simp only [List.mem_cons, List.not_mem_nil, or_false] at herror
    have hstatus := congrArg (Option.map Prod.fst) hres
    rcases herror with rfl | rfl <;> cases hstatus

/-- A request for the scan by its own website, type and id. -/
def addressed : Context :=
  getContext [("websiteId", (V6Guid.sample 0).text), ("scanType", "a11y"),
    ("scanIdOrLatest", createGuidFromBaseGuid (V6Guid.sample 1).text (V6Guid.sample 0).text)]

/-- It is answered as its route says. -/
theorem getWebsiteScan_addressed_iff_sample :
    ∃ res w', ((ApiRequest.mk .getWebsiteScan addressed).serve sampleEnvironment).run
        (World.handle Service.counting) scannedWorld = (.ok res, w') ∧
      AnsweredFor addressed res := by
  have hfound : (foundScan sampleEnvironment.fnv1a scannedWorld addressed).map
      (fun d => (d.get "websiteId", d.get "scanType", d.get "id")) =
      some (.str (bindingData addressed "websiteId"), .str (bindingData addressed "scanType"),
        .str (bindingData addressed "scanIdOrLatest")) := by
    decide +kernel
  have hnone : pageScansOf sampleEnvironment.fnv1a scannedWorld.next
      (bindingData addressed "scanIdOrLatest") = [] := by
    decide +kernel
  have hfaults : scannedWorld.faults = [] := World.run_faults _ _ (World.run_faults _ _ rfl)
  have hcalm : ∀ n, scannedWorld.Calm n := fun n f => by simp [hfaults]
  refine (@getWebsiteScan_addressed_iff sampleEnvironment Service.counting addressed
    (by decide +kernel) scannedWorld).mpr (Or.inr ⟨hcalm 1, fun d hd => ?_⟩)
  rw [hd] at hfound
  obtain ⟨hwebsite, htype, hid⟩ :
      d.get "websiteId" = _ ∧ d.get "scanType" = _ ∧ d.get "id" = _ := by
    simpa using hfound
  refine ⟨⟨hwebsite, htype⟩, _, hid, ?_, ?_⟩
  · rw [hnone]
    exact (World.calm_succ.mp (hcalm 2)).2
  · rw [hnone]
    exact fun _ h => absurd h List.not_mem_nil

end WebInsights.StorageApi
