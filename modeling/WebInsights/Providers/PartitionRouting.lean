/-
Partition routing over whole runs.

Whatever was created and updated, every document lies under the bucket of its own
id, which is the bucket of each of its parents, so a point read finds it by its id
and a listing by its parent; and the buckets of two types are never the same.
Each part is read off the invariant of `Routing`: `listed_iff` turns the conditions
of a listing query into the list of what was created.
-/
import WebInsights.Providers.Routing

set_option autoImplicit false

namespace WebInsights.Providers

open Common Cosmos CosmosContainerClient Effect Js

section

variable (fnv1a : String → ℕ)

/-- `readPage`, the document of `readWebsiteScan`, and `readPageScan`. -/
def Kind.read : Kind → String → Async Val
  | .page => PageProvider.readPage fnv1a
  | .websiteScan => fun id => do
    let response ← WebsiteScanProvider.readWebsiteScan fnv1a id true
    pure response.item
  | .pageScan => PageScanProvider.readPageScan fnv1a

/-- The stored document of something created under the parent `parent`, which its
property `field` names. -/
def Child (w : World) (cs : List Created) (kind : Kind) (field parent : String) (d : Document) :
    Prop :=
  d ∈ (w.repo kind.container).docs ∧
    ∃ c ∈ cs, c.kind = kind ∧ (field, parent) ∈ c.parents ∧ Stores fnv1a c d

/-- The ids of what was created under a parent. -/
def childIds (cs : List Created) (kind : Kind) (field parent : String) : List Val :=
  (cs.filter fun c => c.kind = kind ∧ (field, parent) ∈ c.parents).map fun c => .str c.id

variable (svc : Service)

/-- A listing returns the stored documents of what was created under the parent, each
of them once. -/
def Lists (w : World) (cs : List Created) (kind : Kind) (field parent : String)
    (listing : Async (List Val)) : Prop :=
  ∃ ds : List Document, listing.run (World.handle svc) w = (.ok (ds.map Document.val), w) ∧
    (∀ d ∈ ds, Child fnv1a w cs kind field parent d) ∧
    (ds.map fun d => d.get "id").Perm (childIds cs kind field parent)

/-- A search returns the newest of the documents that meet `P`, and `none` if there
is none. -/
def Newest (w : World) (P : Document → Prop) (none : Val) (search : Async Val) : Prop :=
  ∃ result, search.run (World.handle svc) w = (.ok result, w) ∧
    ((result = none ∧ ∀ d, ¬ P d) ∨
      ∃ d, P d ∧ result = d.val ∧ ∀ e, P e → e.timestamp ≤ d.timestamp)

/-- What routing is for. -/
structure Coherent (w : World) (cs : List Created) : Prop where
  /-- The stored bucket is that of the id, and that of each parent. -/
  stored : ∀ c ∈ cs, ∃ d, (w.repo c.kind.container).find
      (.str (c.kind.bucket fnv1a c.id), .str c.id) = some d ∧
    d.get "partitionKey" = .str (c.kind.bucket fnv1a c.id) ∧
    ∀ p ∈ c.parents, d.get "partitionKey" = .str (c.kind.bucket fnv1a p.2)
  /-- A point read by id returns the document. -/
  read : ∀ c ∈ cs, ∃ d ∈ (w.repo c.kind.container).docs, Stores fnv1a c d ∧
    (c.kind.read fnv1a c.id).run (World.handle svc) w = (.ok d.val, w)
  /-- An update writes the document back under its key. -/
  update : ∀ c ∈ cs, ∀ patch : Obj, Fields.get patch.fields "id" = .str c.id →
    (∀ k ∈ routingFields, k ∉ Fields.keys patch.fields) →
    ∃ d, Stores fnv1a c d ∧ (c.kind.update fnv1a patch.fields).run (World.handle svc) w =
      (.ok d.val, w.withRepo c.kind.container ((w.repo c.kind.container).put d))
  /-- `deletePage` removes the page. -/
  delete : ∀ c ∈ cs, c.kind = .page →
    (PageProvider.deletePage fnv1a c.id).run (World.handle svc) w =
      (.ok (), w.withRepo .websiteData
        ((w.repo .websiteData).erase (.str (c.kind.bucket fnv1a c.id), .str c.id)))
  pages : ∀ websiteId, Lists fnv1a svc w cs .page "websiteId" websiteId
    (PageProvider.getPagesForWebsite fnv1a websiteId)
  scans : ∀ websiteId, Lists fnv1a svc w cs .websiteScan "websiteId" websiteId
    (WebsiteScanProvider.getScansForWebsite fnv1a websiteId)
  latestScan : ∀ websiteId scanType, Newest svc w
    (fun d => Child fnv1a w cs .websiteScan "websiteId" websiteId d ∧
      d.get "scanType" ≠ .undefined ∧ d.get "scanType" = scanType)
    .null (WebsiteScanProvider.getLatestScanForWebsite fnv1a websiteId scanType)
  pageScans : ∀ websiteScanId, Lists fnv1a svc w cs .pageScan "websiteScanId" websiteScanId
    (PageScanProvider.getAllPageScansForWebsiteScan fnv1a websiteScanId)
  latestPageScan : ∀ websiteScanId pageId completed, Newest svc w
    (fun d => Child fnv1a w cs .pageScan "websiteScanId" websiteScanId d ∧
      d.get "pageId" = .str pageId ∧
      (completed = true → (d.get "run").get "state" = .str "completed" ∨
        (d.get "run").get "state" = .str "failed"))
    .undefined (PageScanProvider.getLatestPageScan fnv1a websiteScanId pageId completed)
  /-- Documents of different types never share a partition key. -/
  separate : ∀ c ∈ cs, ∀ c' ∈ cs, c.kind ≠ c'.kind →
    c.kind.bucket fnv1a c.id ≠ c'.kind.bucket fnv1a c'.id

variable {fnv1a svc} {w : World} {cs : List Created}

/-! ## Listings -/

/-- What the conditions of a listing say of a stored document. -/
def Meets (fnv1a : String → ℕ) (kind : Kind) (field parent : String) (d : Document) : Prop :=
  d.get "partitionKey" = .str (kind.bucket fnv1a parent) ∧ d.get field = .str parent ∧
    d.get "itemType" = .str kind.itemType.name

/-- **The conditions of a listing** select what was created under the parent. -/
theorem Routed.listed_iff (h : Routed fnv1a svc w cs) {kind : Kind} {field : String}
    (hfield : field ∈ kind.parentFields) (parent : String) {d : Document} :
    (d ∈ (w.repo kind.container).docs ∧ Meets fnv1a kind field parent d) ↔
      Child fnv1a w cs kind field parent d := by
  constructor
  · rintro ⟨hd, -, hparent, htype⟩
    obtain ⟨c, hc, rfl, hstores⟩ := h.known kind d hd htype
    refine ⟨hd, c, hc, rfl, ?_, hstores⟩
    -- the document names the parent that was recorded
    obtain ⟨p, hp, hpfield⟩ := List.mem_map.mp ((h.fields c hc).symm ▸ hfield)
    have hp₂ : p.2 = parent := by
      have hget := hstores.parents p hp
      rw [hpfield, hparent] at hget
      simpa using hget.symm
    rw [← hpfield, ← hp₂]
    exact hp
  · rintro ⟨hd, c, hc, rfl, hparent, hstores⟩
    refine ⟨hd, ?_, hstores.parents _ hparent, hstores.itemType⟩
    have hpk := (Prod.mk.inj hstores.key).1
    rw [hpk, bucket_eq fnv1a c.kind (h.nodes c hc _ hparent)]

/-- Documents of one partition have different ids. -/
theorem nodup_ids {col : Collection} {pk : Val} {ds : List Document} (hsub : ds.Sublist col.docs)
    (hpk : ∀ d ∈ ds, d.get "partitionKey" = pk) : (ds.map fun d => d.get "id").Nodup := by
  have hkeys : (ds.map Document.key).Nodup := col.nodup.sublist (hsub.map _)
  have hmap : ds.map Document.key = (ds.map fun d => d.get "id").map fun id => (pk, id) := by
    rw [List.map_map]
    apply List.map_congr_left
    intro d hd
    exact Prod.ext (hpk d hd) rfl
  rw [hmap] at hkeys
  exact hkeys.of_map _

/-- **A listing is exact** if its query selects what its parent's conditions say. -/
theorem Routed.lists (h : Routed fnv1a svc w cs) (hw : w.faults = []) {kind : Kind} {field : String}
    (hfield : field ∈ kind.parentFields) (parent : String) {q : SqlQuerySpec}
    (htop : q.top1 = false) (horder : q.orderByTimestamp = false)
    (hq : ∀ d, q.selects d = true ↔ Meets fnv1a kind field parent d) :
    Lists fnv1a svc w cs kind field parent
      (getCosmosQueryResultsIterable kind.container q) := by
  have hmem : ∀ d, d ∈ (w.repo kind.container).docs.filter q.selects ↔
      Child fnv1a w cs kind field parent d := by
    intro d
    rw [List.mem_filter, hq, h.listed_iff hfield]
  refine ⟨(w.repo kind.container).docs.filter q.selects, ?_, fun d hd => (hmem d).mp hd, ?_⟩
  · rw [run_getCosmosQueryResultsIterable hw, q.results_eq_filter htop horder]
  -- one document per id on the one side, one creation per id on the other
  have hleft : (((w.repo kind.container).docs.filter q.selects).map fun d => d.get "id").Nodup := by
    refine @nodup_ids (w.repo kind.container) (.str (kind.bucket fnv1a parent)) _
      List.filter_sublist fun d hd => ?_
    exact ((hq d).mp (List.mem_filter.mp hd).2).1
  have hright : (childIds cs kind field parent).Nodup := by
    have hids : (((cs.filter fun c => c.kind = kind ∧ (field, parent) ∈ c.parents).map
        Created.id).map Val.str).Nodup :=
      List.Nodup.map (fun _ _ e => by simpa using e)
        (h.ids.sublist (List.filter_sublist.map Created.id))
    rwa [List.map_map] at hids
  refine (List.perm_ext_iff_of_nodup hleft hright).mpr fun id => ?_
  constructor
  · intro hid
    obtain ⟨d, hd, rfl⟩ := List.mem_map.mp hid
    obtain ⟨-, c, hc, hkind, hparent, hstores⟩ := (hmem d).mp hd
    refine List.mem_map.mpr ⟨c, List.mem_filter.mpr ⟨hc, by simp [hkind, hparent]⟩, ?_⟩
    exact (Prod.mk.inj hstores.key).2.symm
  · intro hid
    obtain ⟨c, hc, rfl⟩ := List.mem_map.mp hid
    obtain ⟨hcs, hcond⟩ := List.mem_filter.mp hc
    simp only [decide_eq_true_eq] at hcond
    obtain ⟨rfl, hparent⟩ := hcond
    obtain ⟨d, hd, hstores⟩ := h.stored c hcs
    exact List.mem_map.mpr ⟨d, (hmem d).mpr ⟨hd, c, hcs, rfl, hparent, hstores⟩,
      (Prod.mk.inj hstores.key).2⟩

/-- A search for the newest document of a query. -/
theorem newest_of_query (hw : w.faults = []) {container : Container} {q : SqlQuerySpec}
    (htop : q.top1 = true) (horder : q.orderByTimestamp = true) {P : Document → Prop}
    (hq : ∀ d, d ∈ (w.repo container).docs ∧ q.selects d = true ↔ P d) (none : Val) :
    Newest svc w P none (firstQueryResult container q none) := by
  refine ⟨_, run_firstQueryResult hw q none, ?_⟩
  rcases q.results_newest htop horder (w.repo container).docs with ⟨hnil, hnone⟩ | hsome
  · left
    refine ⟨by rw [hnil]; rfl, fun d hd => ?_⟩
    obtain ⟨hmem, hsel⟩ := (hq d).mpr hd
    rw [hnone d hmem] at hsel
    cases hsel
  · right
    obtain ⟨d, hd, hresults, hsel, hmax⟩ := hsome
    refine ⟨d, (hq d).mp ⟨hd, hsel⟩, by rw [hresults]; rfl, fun e he => ?_⟩
    obtain ⟨hmem, hsel'⟩ := (hq e).mpr he
    exact hmax e hmem hsel'

/-! ## The queries -/

/-- A condition compares with the text of its parameter. -/
theorem compares_str_iff {q : SqlQuerySpec} {d : Document} {c : String × String} {s : String}
    (h : Fields.get q.parameters c.2 = .str s) : q.compares d c = true ↔ d.get c.1 = .str s := by
  rw [SqlQuerySpec.compares, h, decide_eq_true_eq, and_iff_right_iff_imp]
  intro hd
  rw [hd]
  nofun

theorem pagesForWebsiteQuery_selects (websiteId : String) (d : Document) :
    (PageProvider.pagesForWebsiteQuery fnv1a websiteId).selects d = true ↔
      Meets fnv1a .page "websiteId" websiteId d := by
  simp only [SqlQuerySpec.selects, PageProvider.pagesForWebsiteQuery, List.all_cons, List.all_nil,
    Bool.and_eq_true, List.isEmpty_nil, Bool.true_or, and_true]
  rw [compares_str_iff rfl, compares_str_iff rfl, compares_str_iff rfl]
  rfl

theorem scansForWebsiteQuery_selects (websiteId : String) (d : Document) :
    (WebsiteScanProvider.scansForWebsiteQuery fnv1a websiteId).selects d = true ↔
      Meets fnv1a .websiteScan "websiteId" websiteId d := by
  simp only [SqlQuerySpec.selects, WebsiteScanProvider.scansForWebsiteQuery, List.all_cons,
    List.all_nil, Bool.and_eq_true, List.isEmpty_nil, Bool.true_or, and_true]
  rw [compares_str_iff rfl, compares_str_iff rfl, compares_str_iff rfl]
  rfl

theorem latestScanForWebsiteQuery_selects (websiteId : String) (scanType : Val) (d : Document) :
    (WebsiteScanProvider.latestScanForWebsiteQuery fnv1a websiteId scanType).selects d = true ↔
      Meets fnv1a .websiteScan "websiteId" websiteId d ∧
        d.get "scanType" ≠ .undefined ∧ d.get "scanType" = scanType := by
  simp only [SqlQuerySpec.selects, WebsiteScanProvider.latestScanForWebsiteQuery, List.all_cons,
    List.all_nil, Bool.and_eq_true, List.isEmpty_nil, Bool.true_or, and_true]
  rw [compares_str_iff rfl, compares_str_iff rfl, compares_str_iff rfl, SqlQuerySpec.compares,
    decide_eq_true_eq, Meets, and_assoc, and_assoc]
  rfl

theorem allPageScansQuery_selects (websiteScanId : String) (d : Document) :
    (PageScanProvider.allPageScansQuery fnv1a websiteScanId).selects d = true ↔
      Meets fnv1a .pageScan "websiteScanId" websiteScanId d := by
  simp only [SqlQuerySpec.selects, PageScanProvider.allPageScansQuery, List.all_cons, List.all_nil,
    Bool.and_eq_true, List.isEmpty_nil, Bool.true_or, and_true]
  rw [compares_str_iff rfl, compares_str_iff rfl, compares_str_iff rfl]
  exact and_congr_right fun _ => and_comm

theorem latestPageScanQuery_selects (websiteScanId pageId : String) (completed : Bool)
    (d : Document) :
    (PageScanProvider.latestPageScanQuery fnv1a websiteScanId pageId completed).selects d = true ↔
      Meets fnv1a .pageScan "websiteScanId" websiteScanId d ∧ d.get "pageId" = .str pageId ∧
        (completed = true → (d.get "run").get "state" = .str "completed" ∨
          (d.get "run").get "state" = .str "failed") := by
  have hstates : ((PageScanProvider.latestPageScanQuery fnv1a websiteScanId pageId
      completed).runStates.isEmpty || (PageScanProvider.latestPageScanQuery fnv1a websiteScanId
      pageId completed).runStates.any fun s => (d.get "run").get "state" = .str s) = true ↔
      (completed = true → (d.get "run").get "state" = .str "completed" ∨
        (d.get "run").get "state" = .str "failed") := by
    cases completed <;> simp [PageScanProvider.latestPageScanQuery]
  rw [SqlQuerySpec.selects, Bool.and_eq_true, hstates]
  simp only [PageScanProvider.latestPageScanQuery, List.all_cons, List.all_nil, Bool.and_eq_true,
    and_true]
  rw [compares_str_iff rfl, compares_str_iff rfl, compares_str_iff rfl, compares_str_iff rfl]
  simp only [Meets, Kind.bucket, Kind.itemType, PageScanProvider.getPageScanPartitionKey]
  tauto

/-! ## Reads -/

/-- A point read of a created document. -/
theorem Routed.run_read (h : Routed fnv1a svc w cs) (hw : w.faults = []) {c : Created}
    (hc : c ∈ cs) :
    ∃ d ∈ (w.repo c.kind.container).docs, Stores fnv1a c d ∧
      (c.kind.read fnv1a c.id).run (World.handle svc) w = (.ok d.val, w) := by
  obtain ⟨d, hfind, hstores⟩ := h.find hc
  refine ⟨d, (Collection.find_eq_some_iff.mp hfind).1, hstores, ?_⟩
  obtain ⟨kind, id, parents⟩ := c
  cases kind with
  | page => exact run_readDocument_item hw hfind
  | websiteScan =>
    have hread : (WebsiteScanProvider.readWebsiteScan fnv1a id true).run (World.handle svc) w =
        (.ok ⟨d.val, .undefined, .code 200⟩, w) := run_readItem_some hw hfind true
    unfold Kind.read
    dsimp only
    rw [Program.run_bind_ok _ hread, Program.run_pure]
  | pageScan => exact run_readDocument_item hw hfind

/-- **What the invariant is for.** -/
theorem Routed.coherent (h : Routed fnv1a svc w cs) (hw : w.faults = []) :
    Coherent fnv1a svc w cs where
  stored := by
    intro c hc
    obtain ⟨d, hfind, hstores⟩ := h.find hc
    have hpk := (Prod.mk.inj hstores.key).1
    refine ⟨d, hfind, hpk, fun p hp => ?_⟩
    -- a child shares the node of its parent's id, hence the bucket
    rw [hpk, bucket_eq fnv1a c.kind (h.nodes c hc p hp)]
  read := fun c hc => h.run_read hw hc
  update := by
    intro c hc patch hid hfields
    obtain ⟨item, hrun, hstores⟩ := h.run_update hc hid hfields hw
    exact ⟨_, hstores, hrun⟩
  delete := by
    intro c hc hkind
    obtain ⟨d, hfind, -⟩ := h.find hc
    obtain ⟨kind, id, parents⟩ := c
    obtain rfl : kind = .page := hkind
    exact run_deleteDocument hw hfind
  pages := fun websiteId => h.lists hw (by decide) websiteId rfl rfl
    (pagesForWebsiteQuery_selects websiteId)
  scans := fun websiteId => h.lists hw (by decide) websiteId rfl rfl
    (scansForWebsiteQuery_selects websiteId)
  latestScan := by
    intro websiteId scanType
    refine newest_of_query hw rfl rfl (fun d => ?_) _
    rw [latestScanForWebsiteQuery_selects, ← and_assoc]
    have hfield : "websiteId" ∈ Kind.websiteScan.parentFields := by decide
    exact and_congr_left fun _ => h.listed_iff hfield websiteId
  pageScans := fun websiteScanId => h.lists hw (by decide) websiteScanId rfl rfl
    (allPageScansQuery_selects websiteScanId)
  latestPageScan := by
    intro websiteScanId pageId completed
    refine newest_of_query hw rfl rfl (fun d => ?_) _
    rw [latestPageScanQuery_selects, ← and_assoc]
    have hfield : "websiteScanId" ∈ Kind.pageScan.parentFields := by decide
    exact and_congr_left fun _ => h.listed_iff hfield websiteScanId
  separate := fun _ _ _ _ hkind => bucket_ne fnv1a hkind _ _

/-- **Partition routing is coherent.** In every world a run of creations and updates
reaches from a world with none of these documents, whatever failed in it, a document
lies under the bucket of its id, point reads and updates find it there, every listing
by a parent returns exactly what was created for the parent, and no two types share
a partition. -/
theorem partitionRouting_coherent (fnv1a : String → ℕ) (svc : Service)
    (hnewId : ∀ n, isValidV6Guid (svc.newId n) = false) {w₀ w : World} {cs : List Created}
    (hfaults : w₀.FaultsFail) (hstamped : ∀ container, (w₀.repo container).Stamped svc)
    (hnone : Unrouted w₀) (hr : Reaches fnv1a svc w₀ w cs) :
    Coherent fnv1a svc w.faultless cs := by
  have h := hr.routed hnewId (routed_start hfaults hstamped hnone)
  have hlater : w.Later w.faultless := ⟨rfl, List.nil_subset _⟩
  exact (h.later hlater).coherent rfl

end

/-! ### A website with a page, a scan and a page scan -/

theorem not_valid_newId (n : ℕ) : isValidV6Guid (Service.counting.newId n) = false := by
  cases n with
  | zero => rfl
  | succ n =>
    simp only [Service.counting, isValidV6Guid, String.toList_ofList, List.replicate_succ]
    rfl

theorem unrouted_empty (guids : ℕ → V6Guid) : Unrouted (World.empty guids) :=
  fun _ _ hd => absurd hd List.not_mem_nil

def sampleCreated : List Created :=
  [⟨.page, "1ed10000-0000-6000-8000-000000000000", [("websiteId", V6Guid.zero.text)]⟩,
    ⟨.websiteScan, "1ed10001-0000-6000-8000-000000000000", [("websiteId", V6Guid.zero.text)]⟩,
    ⟨.pageScan, "1ed10002-0000-6000-8000-000000000000",
      [("pageId", "1ed10000-0000-6000-8000-000000000000"),
        ("websiteScanId", "1ed10001-0000-6000-8000-000000000000")]⟩]

theorem partitionRouting_coherent_sample :
    ∃ w, Coherent fnv1aAscii Service.counting w sampleCreated := by
  have hrun : ∃ w, Reaches fnv1aAscii Service.counting (World.empty V6Guid.sample) w
      sampleCreated := by
    refine ⟨_, .step (.step (.step .refl
      (.create (x := .page "https://www.test.com/" V6Guid.zero.text) V6Guid.zero.valid
        (by decide) rfl rfl))
      (.create (x := .websiteScan V6Guid.zero.text (.str "a11y") (.str "0 0 * * *") .undefined)
        V6Guid.zero.valid (by decide) rfl rfl))
      (.create (x := .pageScan "1ed10000-0000-6000-8000-000000000000"
        "1ed10001-0000-6000-8000-000000000000" (.num 0))
        ⟨V6Guid.zero.text, .head _, .tail _ (.head _)⟩ (by decide) rfl rfl)⟩
  obtain ⟨w, hrun⟩ := hrun
  exact ⟨w.faultless, partitionRouting_coherent fnv1aAscii Service.counting not_valid_newId
    (fun e he => absurd he List.not_mem_nil) (fun _ => Collection.stamped_empty _)
    (unrouted_empty _) hrun⟩

end WebInsights.Providers
