/-
The pair of a page and a website scan that a page scan is for.

The type of page scans says that no two of them have the same pair. Neither call of the
provider sees to it: a new page scan gets an id of its own, whatever is stored, and an
update may change either part of the pair. The pairs stay distinct as long as no call
writes one that another page scan has (`PageScanCall.Free`), and the first call that does
ends it.
-/
import WebInsights.Providers.Routing

set_option autoImplicit false

namespace WebInsights.Providers

open Common Cosmos CosmosContainerClient Effect Js

/-! ## Pairs -/

def IsPageScan (d : Document) : Prop := d.get "itemType" = .str ItemType.pageScan.name

/-- The page and the website scan a page scan is for. -/
def pairOf (d : Document) : Val × Val := (d.get "pageId", d.get "websiteScanId")

/-- No two page scans have the same pair. -/
def UniquePairs (w : World) : Prop :=
  Keyed.UniqueBy Document.key IsPageScan pairOf (w.repo .scanMetadata).docs

/-- No page scan under another key has the pair. -/
def FreePair (w : World) (key pair : Val × Val) : Prop :=
  Keyed.FreeFor Document.key IsPageScan pairOf key pair (w.repo .scanMetadata).docs

/-- A text, or nothing. -/
def IsText (v : Val) : Prop := v = .undefined ∨ ∃ s, v = .str s

/-- A `Partial<PageScan>`. Without an id it is refused; the service takes no empty one. -/
structure PartialPageScan where
  fields : Fields
  wf : (Val.obj fields).Wf
  id : Fields.get fields "id" = .undefined ∨ ∃ id, id ≠ "" ∧ Fields.get fields "id" = .str id
  pageId : IsText (Fields.get fields "pageId")
  websiteScanId : IsText (Fields.get fields "websiteScanId")
  itemType : "itemType" ∈ Fields.keys fields →
    Fields.get fields "itemType" = .str ItemType.pageScan.name
  partitionKey : "partitionKey" ∈ Fields.keys fields →
    ∃ pk, Fields.get fields "partitionKey" = .str pk

/-- The calls that write page scans. -/
inductive PageScanCall where
  | create (pageId websiteScanId : String) (priority : Val)
  | update (pageScan : PartialPageScan)

section

variable (fnv1a : String → ℕ) (svc : Service)

/-- The world after a call, however it ends. -/
def PageScanCall.after (w : World) : PageScanCall → World
  | .create pageId websiteScanId priority =>
    ((PageScanProvider.createPageScan fnv1a pageId websiteScanId priority).run
      (World.handle svc) w).2
  | .update pageScan =>
    ((PageScanProvider.updatePageScan fnv1a pageScan.fields).run (World.handle svc) w).2

/-- What an update leaves of a property: its own value, else the stored one. -/
def updatedValue (w : World) (key : Val × Val) (pageScan : PartialPageScan) (k : String) : Val :=
  if Fields.get pageScan.fields k ≠ .undefined then Fields.get pageScan.fields k
  else ((w.repo .scanMetadata).find key).elim .undefined fun S => S.get k

/-- Where an update of the page scan `id` is written. -/
def PartialPageScan.key (pageScan : PartialPageScan) (id : String) : Val × Val :=
  (Fields.get (bucketed fnv1a .pageScan id pageScan.fields) "partitionKey", .str id)

/-- The key under which a call writes a page scan, and the pair it gives it. An update of
nothing that names an etag is refused. -/
def PageScanCall.Stores (w : World) : PageScanCall → Val × Val → Val × Val → Prop
  | .create pageId websiteScanId _, key, pair =>
    key = (.str (PageScanProvider.getPageScanPartitionKey fnv1a (nextId w pageId)),
      .str (nextId w pageId)) ∧ pair = (.str pageId, .str websiteScanId)
  | .update pageScan, key, pair =>
    ∃ id, Fields.get pageScan.fields "id" = .str id ∧ key = pageScan.key fnv1a id ∧
      pair = (updatedValue w key pageScan "pageId", updatedValue w key pageScan "websiteScanId") ∧
      ((w.repo .scanMetadata).find key = none → Fields.get pageScan.fields "_etag" = .undefined)

/-- **The pair that a call writes is free**: no page scan that is stored under another key
has it. -/
def PageScanCall.Free (w : World) (c : PageScanCall) : Prop :=
  ∀ key pair, c.Stores fnv1a w key pair → FreePair w key pair

/-- The worlds that calls lead to, each of them admitted where it is made. -/
inductive PageScanRun (Admitted : World → PageScanCall → Prop) (w₀ : World) : World → Prop
  | refl : PageScanRun Admitted w₀ w₀
  | step {w : World} (hw : PageScanRun Admitted w₀ w) {c : PageScanCall} (hc : Admitted w c) :
      PageScanRun Admitted w₀ (c.after fnv1a svc w)

/-- What the proofs need of the stored documents: etags of writes, and texts where the type
and the pair of a page scan are. -/
structure ScansStored (w : World) : Prop where
  faults : w.FaultsFail
  stamped : ∀ container, (w.repo container).Stamped svc
  texts : ∀ d ∈ (w.repo .scanMetadata).docs, ∀ k ∈ ["itemType", "pageId", "websiteScanId"],
    IsText (d.get k)

end

/-! ## Texts in a merge -/

theorem IsText.not_isArray {v : Val} (h : IsText v) : isArray v = false := by
  rcases h with rfl | ⟨s, rfl⟩ <;> rfl

theorem IsText.normalizeValue_eq {v : Val} (h : IsText v) : normalizeValue v = v := by
  rcases h with rfl | ⟨s, rfl⟩ <;> rfl

theorem IsText.toJson_eq {v : Val} (h : IsText v) : v.toJson = v := by
  rcases h with rfl | ⟨s, rfl⟩ <;> rfl

/-- A text of the update takes the place of the stored one. -/
theorem get_merged_text {ss document merged : Fields} (hnd : (Fields.keys document).Nodup)
    (hmerged : mergedDocument (.obj ss) document none = .ok merged) {k : String}
    (hk : k ≠ "_etag") (hstored : IsText (Fields.get ss k))
    (hdocument : IsText (Fields.get document k)) :
    Fields.get merged k = if Fields.get document k ≠ .undefined then Fields.get document k
      else Fields.get ss k := by
  by_cases hmem : k ∈ Fields.keys document
  · obtain ⟨v, hv, hget⟩ := get_merged_of_mem hnd hmerged hmem
    have hsilent := @mergeCustomizer_other (Fields.get ss k) (Fields.get document k) k hk
      hstored.not_isArray
    have hvalue : v = Fields.get document k := by
      rcases hdocument with hu | ⟨s, hs⟩
      · rw [hu] at hv hsilent ⊢
        rw [mergeValue_scalar hsilent] at hv
        exact (Except.ok.inj hv).symm
      · rw [hs] at hv hsilent ⊢
        rw [mergeValue_scalar hsilent] at hv
        exact (Except.ok.inj hv).symm
    rw [hget, hvalue, assigned]
    by_cases hu : Fields.get document k = .undefined
    · rw [if_pos hu, if_neg (not_not.mpr hu), hstored.normalizeValue_eq]
    · rw [if_neg hu, if_pos hu, hdocument.normalizeValue_eq]
  · rw [get_merged_of_notMem hnd hmerged hmem, hstored.normalizeValue_eq,
      Fields.get_eq_undefined_of_notMem hmem, if_neg (not_not.mpr rfl)]

variable {fnv1a : String → ℕ} {svc : Service} {w : World}

/-! ## What a call writes -/

namespace PartialPageScan

variable (pageScan : PartialPageScan) {id : String}

theorem get_doc_partitionKey :
    ∃ pk, Fields.get (bucketed fnv1a .pageScan id pageScan.fields) "partitionKey" = .str pk := by
  by_cases hk : "partitionKey" ∈ Fields.keys pageScan.fields
  · rw [get_bucketed_of_mem pageScan.wf.1 hk]
    exact pageScan.partitionKey hk
  · exact ⟨_, get_bucketed_partitionKey pageScan.wf.1 hk⟩

theorem get_doc_itemType :
    Fields.get (bucketed fnv1a .pageScan id pageScan.fields) "itemType" =
      .str ItemType.pageScan.name := by
  by_cases hk : "itemType" ∈ Fields.keys pageScan.fields
  · rw [get_bucketed_of_mem pageScan.wf.1 hk]
    exact pageScan.itemType hk
  · exact get_bucketed_itemType pageScan.wf.1 hk

theorem get_doc_other {k : String} (htype : k ≠ "itemType") (hpk : k ≠ "partitionKey") :
    Fields.get (bucketed fnv1a .pageScan id pageScan.fields) k = Fields.get pageScan.fields k :=
  get_bucketed_other pageScan.wf.1 htype hpk

theorem isText {k : String} (hk : k ∈ ["pageId", "websiteScanId"]) :
    IsText (Fields.get pageScan.fields k) := by
  simp only [List.mem_cons, List.not_mem_nil, or_false] at hk
  rcases hk with rfl | rfl
  · exact pageScan.pageId
  · exact pageScan.websiteScanId

end PartialPageScan

/-- The run of an update that names its page scan. -/
theorem updatePageScan_eq {document : Fields} {id : String}
    (hid : Fields.get document "id" = .str id) :
    PageScanProvider.updatePageScan fnv1a document = (do
      let response ← mergeOrWriteDocument .scanMetadata (bucketed fnv1a .pageScan id document)
        .undefined true none
      pure response.item) := by
  unfold PageScanProvider.updatePageScan PageScanProvider.normalizeDbDocument
  rw [normalizeBucketed_eq fnv1a hid, pure_bind]

theorem createGuidFromBaseGuid_ne_empty (guid : V6Guid) (base : String) :
    createGuidFromBaseGuid guid.text base ≠ "" := by
  intro h
  have hlength := congrArg (fun s => s.toList.length) h
  have hhead := length_take_of_valid guid.valid
  simp only [createGuidFromBaseGuid, String.toList_append, toList_substr, List.drop_zero,
    List.length_append, hhead, String.toList_empty, List.length_nil] at hlength
  omega

/-- The document of a new page scan. -/
def newPageScan (id pageId websiteScanId : String) (priority : Val) : Fields :=
  (Creation.pageScan pageId websiteScanId priority).document id

theorem nodup_newPageScan (id pageId websiteScanId : String) (priority : Val) :
    (Fields.keys (newPageScan id pageId websiteScanId priority)).Nodup := by
  simp [newPageScan, Creation.document]

/-- The document `D` is stored as the call is meant to: a page scan under its key, with its
pair. -/
structure StoredAs (fnv1a : String → ℕ) (w : World) (c : PageScanCall) (D : Document) : Prop where
  itemType : IsPageScan D
  stores : c.Stores fnv1a w D.key (pairOf D)
  pageId : IsText (D.get "pageId")
  websiteScanId : IsText (D.get "websiteScanId")

theorem storedAs_create {id : String} {pageId : String} (hid : id = nextId w pageId)
    (websiteScanId : String) (priority : Val) (n : ℕ) :
    StoredAs fnv1a w (.create pageId websiteScanId priority)
      (svc.stamp n
        (bucketed fnv1a .pageScan id (newPageScan id pageId websiteScanId priority))) := by
  have hne : id ≠ "" := hid ▸ createGuidFromBaseGuid_ne_empty _ _
  have hnd := nodup_newPageScan id pageId websiteScanId priority
  have hnamed : Fields.get (newPageScan id pageId websiteScanId priority) "id" = .str id := rfl
  -- neither the provider nor the store touches what the pair is made of
  have hstamp : ∀ k v, k ≠ "_etag" → k ≠ "_ts" →
      Fields.get (bucketed fnv1a .pageScan id (newPageScan id pageId websiteScanId priority)) k =
        .str v →
      (svc.stamp n (bucketed fnv1a .pageScan id
        (newPageScan id pageId websiteScanId priority))).get k = .str v := by
    intro k v hetag hts hk
    rw [get_stamp_bucketed hnamed hne hnd n hetag hts, hk]
    rfl
  have hother : ∀ k v, k ≠ "_etag" → k ≠ "_ts" → k ≠ "itemType" → k ≠ "partitionKey" →
      Fields.get (newPageScan id pageId websiteScanId priority) k = .str v →
      (svc.stamp n (bucketed fnv1a .pageScan id
        (newPageScan id pageId websiteScanId priority))).get k = .str v := by
    intro k v hetag hts htype hpk hk
    exact hstamp k v hetag hts ((get_bucketed_other hnd htype hpk).trans hk)
  have hpageId := hother "pageId" pageId (by decide) (by decide) (by decide) (by decide) rfl
  have hwebsiteScanId := hother "websiteScanId" websiteScanId (by decide) (by decide) (by decide)
    (by decide) rfl
  have hstoredId := hother "id" id (by decide) (by decide) (by decide) (by decide) rfl
  have hpk := hstamp "partitionKey" _ (by decide) (by decide)
    (get_bucketed_partitionKey hnd (by simp [newPageScan, Creation.document]))
  refine ⟨?_, ⟨?_, ?_⟩, Or.inr ⟨_, hpageId⟩, Or.inr ⟨_, hwebsiteScanId⟩⟩
  · exact hstamp _ _ (by decide) (by decide)
      (get_bucketed_itemType hnd (by simp [newPageScan, Creation.document]))
  · rw [Document.key, hpk, hstoredId, ← hid]
    rfl
  · rw [pairOf, hpageId, hwebsiteScanId]

/-- An update of nothing that is stored writes its own document. -/
theorem storedAs_update_absent {pageScan : PartialPageScan} {id : String} (hidne : id ≠ "")
    (hid : Fields.get pageScan.fields "id" = .str id)
    (hnone : (w.repo .scanMetadata).find (pageScan.key fnv1a id) = none)
    (hetag : Fields.get pageScan.fields "_etag" = .undefined) (n : ℕ) :
    StoredAs fnv1a w (.update pageScan)
      (svc.stamp n (bucketed fnv1a .pageScan id pageScan.fields)) := by
  obtain ⟨pk, hpk⟩ := @PartialPageScan.get_doc_partitionKey fnv1a pageScan id
  have hdocid : Fields.get (bucketed fnv1a .pageScan id pageScan.fields) "id" = .str id := by
    rw [pageScan.get_doc_other (by decide) (by decide), hid]
  have hkey := svc.key_stamp_str hdocid hidne hpk n
  have hget : ∀ k ∈ ["pageId", "websiteScanId"],
      (svc.stamp n (bucketed fnv1a .pageScan id pageScan.fields)).get k =
        Fields.get pageScan.fields k := by
    intro k hk
    have hnames : ∀ k ∈ ["pageId", "websiteScanId"], k ≠ "itemType" ∧ k ≠ "partitionKey" ∧
      k ≠ "_etag" ∧ k ≠ "_ts" := by decide
    obtain ⟨htype, hpk', hetag', hts⟩ := hnames k hk
    rw [svc.get_stamp (not_hasNoId hdocid hidne) hetag' hts, pageScan.get_doc_other htype hpk',
      (pageScan.isText hk).toJson_eq]
  -- with nothing stored, only what the update says counts
  have hupdated : ∀ k, updatedValue w (pageScan.key fnv1a id) pageScan k =
      Fields.get pageScan.fields k := by
    intro k
    rw [updatedValue, hnone]
    split_ifs with h
    · rfl
    · exact (not_not.mp h).symm
  have hkey' : pageScan.key fnv1a id = (.str pk, .str id) := by
    rw [PartialPageScan.key, hpk]
  refine ⟨?_, ⟨id, hid, by rw [hkey, hkey'], ?_, fun _ => hetag⟩, ?_, ?_⟩
  · rw [IsPageScan, svc.get_stamp (not_hasNoId hdocid hidne) (by decide) (by decide),
      pageScan.get_doc_itemType]
    rfl
  · rw [hkey, ← hkey', hupdated, hupdated, pairOf, hget _ (by decide), hget _ (by decide)]
  · rw [hget _ (by decide)]
    exact pageScan.pageId
  · rw [hget _ (by decide)]
    exact pageScan.websiteScanId

/-- An update of a stored page scan writes what it says of the pair, and what is stored of
the rest. -/
theorem storedAs_update_found {pageScan : PartialPageScan} {id : String}
    (hid : Fields.get pageScan.fields "id" = .str id) {S : Document}
    (hS : (w.repo .scanMetadata).find (pageScan.key fnv1a id) = some S)
    (htexts : ∀ k ∈ ["itemType", "pageId", "websiteScanId"], IsText (S.get k)) {merged : Fields}
    (hmerged : mergedDocument S.val (bucketed fnv1a .pageScan id pageScan.fields) none =
      .ok merged) (n : ℕ) (hkey : (svc.stamp n merged).key = pageScan.key fnv1a id) :
    StoredAs fnv1a w (.update pageScan) (svc.stamp n merged) := by
  have hnd := (@wf_bucketed fnv1a .pageScan id _ pageScan.wf).1
  have hstored : ∀ k ∈ ["itemType", "pageId", "websiteScanId"],
      IsText (Fields.get S.fields k) := htexts
  have hitem := get_merged_text hnd hmerged (by decide) (hstored "itemType" (by decide))
    (Or.inr ⟨_, pageScan.get_doc_itemType⟩)
  -- texts are merged one in the place of the other
  have hget : ∀ k ∈ ["pageId", "websiteScanId"],
      (svc.stamp n merged).get k = updatedValue w (pageScan.key fnv1a id) pageScan k ∧
        IsText ((svc.stamp n merged).get k) := by
    intro k hk
    have hnames : ∀ k ∈ ["pageId", "websiteScanId"], k ≠ "itemType" ∧ k ≠ "partitionKey" ∧
      k ≠ "_etag" ∧ k ≠ "_ts" ∧ k ≠ "id" := by decide
    obtain ⟨htype, hpk, hetag, hts, hne⟩ := hnames k hk
    have hdoc := @PartialPageScan.get_doc_other fnv1a pageScan id k htype hpk
    have hmergedk := get_merged_text hnd hmerged hetag
      (hstored k (List.mem_cons_of_mem _ hk)) (by rw [hdoc]; exact pageScan.isText hk)
    have hupdated : Fields.get merged k = updatedValue w (pageScan.key fnv1a id) pageScan k := by
      rw [hmergedk, hdoc, updatedValue, hS]
      rfl
    have htext : IsText (Fields.get merged k) := by
      rw [hmergedk, hdoc]
      split_ifs
      · exact pageScan.isText hk
      · exact hstored k (List.mem_cons_of_mem _ hk)
    rw [svc.get_stamp_of_ne_id n merged hne hetag hts, htext.toJson_eq]
    exact ⟨hupdated, htext⟩
  refine ⟨?_, ⟨id, hid, hkey, ?_, fun hnone => ?_⟩, (hget _ (by decide)).2,
    (hget _ (by decide)).2⟩
  · rw [IsPageScan, svc.get_stamp_of_ne_id n merged (by decide) (by decide) (by decide), hitem,
      pageScan.get_doc_itemType, if_pos (by nofun)]
    rfl
  · rw [hkey, ← (hget _ (by decide)).1, ← (hget _ (by decide)).1]
    rfl
  · rw [hkey, hS] at hnone
    cases hnone

/-! ## One call -/

/-- What a call leaves: nothing written, the page scan it is meant to write, or the orphan of a
failed read. -/
structure CallOutcome (fnv1a : String → ℕ) (svc : Service) (w : World) (c : PageScanCall)
    (w' : World) : Prop where
  faults : w'.faults ⊆ w.faults
  repo : w'.repo = w.repo ∨
    ∃ item, ((∃ pk, item = orphan pk) ∨
        StoredAs fnv1a w c (svc.stamp (w.repo .scanMetadata).writes item)) ∧
      w'.repo = Function.update w.repo .scanMetadata
        ((w.repo .scanMetadata).put (svc.stamp (w.repo .scanMetadata).writes item))

theorem CallOutcome.of_fails {α : Type} {c : PageScanCall} {p : Async α} (h : Fails svc p w) :
    CallOutcome fnv1a svc w c (p.run (World.handle svc) w).2 := by
  obtain ⟨e, w', hrun, hlater⟩ := h
  rw [hrun]
  exact ⟨hlater.faults, Or.inl hlater.repo⟩

theorem CallOutcome.of_writes {α : Type} {c : PageScanCall} {p : Async α} {item : Fields} {a : α}
    {lost : Prop}
    (h : Writes svc lost .scanMetadata (svc.stamp (w.repo .scanMetadata).writes item) a p w)
    (hitem : (∃ pk, item = orphan pk) ∨
      StoredAs fnv1a w c (svc.stamp (w.repo .scanMetadata).writes item)) :
    CallOutcome fnv1a svc w c (p.run (World.handle svc) w).2 := by
  obtain ⟨r, w', hrun, -, hrepo, hfaults⟩ := h
  rw [hrun]
  exact ⟨hfaults, Or.inr ⟨item, hitem, hrepo⟩⟩

/-- A creation draws a UUID, and then writes its document. -/
theorem after_create (pageId websiteScanId : String) (priority : Val) :
    ∃ noId, (PageScanCall.create pageId websiteScanId priority).after fnv1a svc w =
      ((normalizeBucketed fnv1a .pageScan noId
          (newPageScan (nextId w pageId) pageId websiteScanId priority) >>= fun doc =>
        writeDocument .scanMetadata doc .undefined true >>= fun _ => pure doc).run
        (World.handle svc) { w with nextGuid := w.nextGuid + 1 }).2 := by
  obtain ⟨noId, hrun⟩ := @Creation.run_call fnv1a svc
    (.pageScan pageId websiteScanId priority) w
  exact ⟨noId, congrArg Prod.snd hrun⟩

theorem callOutcome_create (h : ScansStored svc w) (pageId websiteScanId : String)
    (priority : Val) : CallOutcome fnv1a svc w (.create pageId websiteScanId priority)
      ((PageScanCall.create pageId websiteScanId priority).after fnv1a svc w) := by
  obtain ⟨noId, hafter⟩ := @after_create fnv1a svc w pageId websiteScanId priority
  rw [hafter]
  -- drawing the UUID changes nothing that is stored
  have hout := @writeBucketed_outcome fnv1a .pageScan (nextId w pageId)
    (newPageScan (nextId w pageId) pageId websiteScanId priority) svc .scanMetadata
    { w with nextGuid := w.nextGuid + 1 } h.faults.errorsFail
    (nodup_newPageScan _ pageId websiteScanId priority) rfl
    (by simp [newPageScan, Creation.document]) (by simp [newPageScan, Creation.document]) noId
  have hstored := @storedAs_create fnv1a svc w _ pageId rfl websiteScanId priority
    (w.repo .scanMetadata).writes
  rcases hout with ⟨e, w', hfails, hlater⟩ | ⟨r, w', hwrites, -, hrepo, hfaults⟩
  · exact ⟨by rw [hfails]; exact hlater.faults, Or.inl (by rw [hfails]; exact hlater.repo)⟩
  · exact ⟨by rw [hwrites]; exact hfaults,
      Or.inr ⟨_, Or.inr hstored, by rw [hwrites]; exact hrepo⟩⟩

/-- Without an id an update is refused. -/
theorem updatePageScan_noId {pageScan : PartialPageScan}
    (hnone : Fields.get pageScan.fields "id" = .undefined) :
    PageScanProvider.updatePageScan fnv1a pageScan.fields =
      throw (.error "Page scan document has no id") := by
  unfold PageScanProvider.updatePageScan PageScanProvider.normalizeDbDocument normalizeBucketed
  rw [hnone]
  rfl

/-- The document of an update, and the key it is written under. -/
theorem PartialPageScan.exists_key {pageScan : PartialPageScan} {id : String}
    (hid : Fields.get pageScan.fields "id" = .str id) :
    ∃ pk, Fields.get (bucketed fnv1a .pageScan id pageScan.fields) "partitionKey" = .str pk ∧
      Fields.get (bucketed fnv1a .pageScan id pageScan.fields) "id" = .str id ∧
      pageScan.key fnv1a id = (.str pk, .str id) := by
  obtain ⟨pk, hpk⟩ := @PartialPageScan.get_doc_partitionKey fnv1a pageScan id
  refine ⟨pk, hpk, ?_, ?_⟩
  · rw [pageScan.get_doc_other (by decide) (by decide), hid]
  · rw [PartialPageScan.key, hpk]

theorem callOutcome_update (h : ScansStored svc w) (pageScan : PartialPageScan) :
    CallOutcome fnv1a svc w (.update pageScan)
      ((PageScanCall.update pageScan).after fnv1a svc w) := by
  rw [PageScanCall.after]
  rcases pageScan.id with hnone | ⟨id, hidne, hid⟩
  · rw [updatePageScan_noId hnone]
    exact ⟨List.Subset.refl _, Or.inl rfl⟩
  · rw [updatePageScan_eq hid]
    obtain ⟨pk, hpk, hdocid, hkey⟩ := @PartialPageScan.exists_key fnv1a pageScan id hid
    -- a found page scan is merged, and one that is not there is created
    rcases hfind : (w.repo .scanMetadata).find (pageScan.key fnv1a id) with _ | S
    · have hout := @mergeOrWriteDocument_absent_outcome svc .scanMetadata w h.faults _ _ _ hidne
        hdocid hpk (hkey ▸ hfind)
      rcases hout with hfails | ⟨item, hitem, _, hwrites⟩
      · exact .of_fails (hfails.bind _)
      · refine .of_writes (hwrites.bind_pure _) ?_
        rcases hitem with rfl | ⟨rfl, hetag⟩
        · exact Or.inl ⟨pk, rfl⟩
        · rw [pageScan.get_doc_other (by decide) (by decide)] at hetag
          exact Or.inr (storedAs_update_absent hidne hid hfind hetag _)
    · obtain ⟨hmem, -⟩ := Collection.find_eq_some_iff.mp hfind
      obtain ⟨n, -, hetag⟩ := h.stamped .scanMetadata S hmem
      obtain ⟨merged, hmerged⟩ := exists_mergedDocument S
        (bucketed fnv1a .pageScan id pageScan.fields)
      obtain ⟨hstampkey, hout⟩ := mergeOrWriteDocument_outcome h.faults
        (@wf_bucketed fnv1a .pageScan id _ pageScan.wf) hidne hdocid hpk (hkey ▸ hfind) hetag
        hmerged
      rcases hout with hfails | ⟨item, hitem, _, hwrites⟩
      · exact .of_fails (hfails.bind _)
      · refine .of_writes (hwrites.bind_pure _) ?_
        simp only [List.mem_cons, List.not_mem_nil, or_false] at hitem
        rcases hitem with rfl | rfl
        · exact Or.inr (storedAs_update_found hid hfind (h.texts S hmem) hmerged _
            (hstampkey.trans hkey.symm))
        · exact Or.inl ⟨pk, rfl⟩

/-- **Every call** fails, or writes as it is meant to, or writes an orphan. -/
theorem callOutcome (h : ScansStored svc w) (c : PageScanCall) :
    CallOutcome fnv1a svc w c (c.after fnv1a svc w) := by
  cases c with
  | create pageId websiteScanId priority =>
    exact callOutcome_create h pageId websiteScanId priority
  | update pageScan => exact callOutcome_update h pageScan

theorem get_stamp_orphan_other (n : ℕ) (pk : String) {k : String} (hid : k ≠ "id")
    (hpk : k ≠ "partitionKey") (hetag : k ≠ "_etag") (hts : k ≠ "_ts") :
    (svc.stamp n (orphan pk)).get k = .undefined := by
  rw [svc.get_stamp_of_ne_id n _ hid hetag hts, orphan,
    CosmosClientWrapper.get_assignPartitionKey_ne hpk, Fields.get_nil]
  rfl

/-- A call keeps the store as the proofs need it. -/
theorem ScansStored.after (h : ScansStored svc w) (c : PageScanCall) :
    ScansStored svc (c.after fnv1a svc w) := by
  have hout := @callOutcome fnv1a svc w h c
  rcases hout.repo with hsame | ⟨item, hitem, hrepo⟩
  · refine ⟨h.faults.subset hout.faults, fun container => ?_, ?_⟩
    · rw [hsame]
      exact h.stamped container
    · rw [hsame]
      exact h.texts
  · refine ⟨h.faults.subset hout.faults, stamped_put h.stamped item hrepo, ?_⟩
    rw [hrepo, Function.update_self]
    intro d hd k hk
    rcases Collection.mem_put_iff.mp hd with rfl | ⟨hd, -⟩
    · simp only [List.mem_cons, List.not_mem_nil, or_false] at hk
      -- an orphan has none of the three
      rcases hitem with ⟨pk, rfl⟩ | hstored
      · left
        rcases hk with rfl | rfl | rfl <;>
          exact get_stamp_orphan_other _ pk (by decide) (by decide) (by decide) (by decide)
      · rcases hk with rfl | rfl | rfl
        · exact Or.inr ⟨_, hstored.itemType⟩
        · exact hstored.pageId
        · exact hstored.websiteScanId
    · exact h.texts d hd k hk

/-- A call whose pair is free keeps the pairs apart. -/
theorem UniquePairs.after (h : ScansStored svc w) (hunique : UniquePairs w) {c : PageScanCall}
    (hfree : c.Free fnv1a w) : UniquePairs (c.after fnv1a svc w) := by
  have hout := @callOutcome fnv1a svc w h c
  unfold UniquePairs
  rcases hout.repo with hsame | ⟨item, hitem, hrepo⟩
  · rw [hsame]
    exact hunique
  · rw [hrepo, Function.update_self]
    refine Keyed.UniqueBy.put Document.key (w.repo .scanMetadata).nodup hunique fun hscan => ?_
    rcases hitem with ⟨pk, rfl⟩ | hstored
    · -- an orphan is no page scan
      rw [IsPageScan, get_stamp_orphan_other _ pk (by decide) (by decide) (by decide)
        (by decide)] at hscan
      cases hscan
    · exact hfree _ _ hstored.stores

/-! ## Where nothing fails -/

/-- A call has one key and one pair to write. -/
theorem PageScanCall.Stores.unique {c : PageScanCall} {key key' pair pair' : Val × Val}
    (h : c.Stores fnv1a w key pair) (h' : c.Stores fnv1a w key' pair') :
    key = key' ∧ pair = pair' := by
  cases c with
  | create pageId websiteScanId priority =>
    exact ⟨h.1.trans h'.1.symm, h.2.trans h'.2.symm⟩
  | update pageScan =>
    obtain ⟨id, hid, hkey, hpair, -⟩ := h
    obtain ⟨id', hid', hkey', hpair', -⟩ := h'
    have hsame : id = id' := by simpa using hid.symm.trans hid'
    subst hsame
    rw [← hkey'] at hkey
    subst hkey
    exact ⟨rfl, hpair.trans hpair'.symm⟩

theorem after_create_served (hw : w.faults = []) (pageId websiteScanId : String)
    (priority : Val) :
    (PageScanCall.create pageId websiteScanId priority).after fnv1a svc w =
      World.store svc { w with nextGuid := w.nextGuid + 1 } .scanMetadata
        (bucketed fnv1a .pageScan (nextId w pageId)
          (newPageScan (nextId w pageId) pageId websiteScanId priority)) := by
  obtain ⟨noId, hafter⟩ := @after_create fnv1a svc w pageId websiteScanId priority
  rw [hafter, @run_writeBucketed fnv1a .pageScan (nextId w pageId)
    (newPageScan (nextId w pageId) pageId websiteScanId priority) svc .scanMetadata
    { w with nextGuid := w.nextGuid + 1 } hw (nodup_newPageScan _ pageId websiteScanId priority)
    rfl (by simp [newPageScan, Creation.document]) (by simp [newPageScan, Creation.document]) noId]

/-- A call that has a page scan to write writes it. -/
theorem writes_of_stores (h : ScansStored svc w) (hw : w.faults = []) {c : PageScanCall}
    {key pair : Val × Val} (hc : c.Stores fnv1a w key pair) :
    ∃ item, StoredAs fnv1a w c (svc.stamp (w.repo .scanMetadata).writes item) ∧
      (c.after fnv1a svc w).repo = Function.update w.repo .scanMetadata
        ((w.repo .scanMetadata).put (svc.stamp (w.repo .scanMetadata).writes item)) := by
  cases c with
  | create pageId websiteScanId priority =>
    refine ⟨_, storedAs_create rfl websiteScanId priority _, ?_⟩
    rw [after_create_served hw]
    rfl
  | update pageScan =>
    obtain ⟨id, hid, rfl, -, hrefused⟩ := hc
    have hidne : id ≠ "" := by
      rcases pageScan.id with hnone | ⟨id', hne, hid'⟩
      · rw [hnone] at hid
        cases hid
      · have hsame : id = id' := by simpa using hid.symm.trans hid'
        rwa [hsame]
    obtain ⟨pk, hpk, hdocid, hkey⟩ := @PartialPageScan.exists_key fnv1a pageScan id hid
    rw [PageScanCall.after, updatePageScan_eq hid]
    rcases hfind : (w.repo .scanMetadata).find (pageScan.key fnv1a id) with _ | S
    · have hetag := hrefused hfind
      have hdocetag : Fields.get (bucketed fnv1a .pageScan id pageScan.fields) "_etag" =
          .undefined := by
        rw [pageScan.get_doc_other (by decide) (by decide), hetag]
      have hrun := @run_mergeOrWriteDocument_absent svc .scanMetadata w hw _ .undefined pk none
        (by rw [hdocid]; nofun) hpk hpk hdocetag (by rw [hdocid, ← hkey]; exact hfind) true
      refine ⟨_, storedAs_update_absent hidne hid hfind hetag _, ?_⟩
      rw [Program.run_bind_ok _ hrun]
      rfl
    · obtain ⟨hmem, -⟩ := Collection.find_eq_some_iff.mp hfind
      obtain ⟨n, -, hetag⟩ := h.stamped .scanMetadata S hmem
      obtain ⟨merged, hmerged⟩ := exists_mergedDocument S
        (bucketed fnv1a .pageScan id pageScan.fields)
      -- without a merge of the caller the key and the etag come from the stored document
      have hleave : ∀ k ∈ ["id", "partitionKey", "_etag"], LeavesAlone none k := by
        intro k _ f hf
        cases hf
      obtain ⟨hrun, hstampkey⟩ := @run_mergeOrWriteDocument_found svc .scanMetadata w hw _
        (@wf_bucketed fnv1a .pageScan id _ pageScan.wf) .undefined _ _ _ none hidne hdocid hpk hpk
        hleave S (hkey ▸ hfind) hetag merged hmerged true
      refine ⟨merged, storedAs_update_found hid hfind (h.texts S hmem) hmerged _
        (hstampkey.trans hkey.symm), ?_⟩
      rw [Program.run_bind_ok _ hrun]
      rfl

/-- A call whose pair is not free ends with two page scans for it. -/
theorem not_uniquePairs_after (h : ScansStored svc w) (hw : w.faults = []) {c : PageScanCall}
    (hnot : ¬ c.Free fnv1a w) : ¬ UniquePairs (c.after fnv1a svc w) := by
  unfold PageScanCall.Free at hnot
  push Not at hnot
  obtain ⟨key, pair, hstores, htaken⟩ := hnot
  obtain ⟨item, hstored, hrepo⟩ := writes_of_stores h hw hstores
  obtain ⟨rfl, rfl⟩ := hstores.unique hstored.stores
  unfold UniquePairs
  rw [hrepo, Function.update_self]
  exact Keyed.not_uniqueBy_put Document.key (w.repo .scanMetadata).nodup hstored.itemType htaken

/-! ## Runs -/

theorem scansStored_empty {guids : ℕ → V6Guid} {faults : List (Option Fault)}
    (hfaults : World.FaultsFail { World.empty guids with faults := faults }) :
    ScansStored svc { World.empty guids with faults := faults } where
  faults := hfaults
  stamped := fun _ => Collection.stamped_empty svc
  texts := fun _ hd => absurd hd List.not_mem_nil

theorem PageScanRun.scansStored {Admitted : World → PageScanCall → Prop} {w₀ : World}
    (h : PageScanRun fnv1a svc Admitted w₀ w) (h₀ : ScansStored svc w₀) : ScansStored svc w := by
  induction h with
  | refl => exact h₀
  | step _ _ ih => exact ih.after _

theorem PageScanRun.mono {Admitted Admitted' : World → PageScanCall → Prop} {w₀ : World}
    (h : PageScanRun fnv1a svc Admitted w₀ w) (hadmits : ∀ w c, Admitted w c → Admitted' w c) :
    PageScanRun fnv1a svc Admitted' w₀ w := by
  induction h with
  | refl => exact .refl
  | step _ hc ih => exact ih.step (hadmits _ _ hc)

/-- **No two page scans have the same page and website scan**, in every store that calls lead
to from the empty one whose pairs are free where they are written, whatever else fails. And
the call that writes a pair that is not free ends it, wherever calls have led to. -/
theorem pageScan_pairs_unique (fnv1a : String → ℕ) (svc : Service) {guids : ℕ → V6Guid}
    {faults : List (Option Fault)}
    (hfaults : World.FaultsFail { World.empty guids with faults := faults }) :
    (∀ w, PageScanRun fnv1a svc (fun w c => c.Free fnv1a w)
      { World.empty guids with faults := faults } w → UniquePairs w) ∧
    ∀ w c, PageScanRun fnv1a svc (fun _ _ => True)
      { World.empty guids with faults := faults } w → w.faults = [] →
      ¬ PageScanCall.Free fnv1a w c → ¬ UniquePairs (c.after fnv1a svc w) := by
  have hempty := @scansStored_empty svc guids faults hfaults
  constructor
  · intro w hw
    induction hw with
    | refl => exact fun d hd => absurd hd List.not_mem_nil
    | step hw hfree ih => exact ih.after (hw.scansStored hempty) hfree
  · intro w c hw hserved hnot
    exact not_uniquePairs_after (hw.scansStored hempty) hserved hnot

/-- A new page scan has a free pair if no stored one has it. -/
theorem free_create {pageId websiteScanId : String} {priority : Val}
    (h : ∀ d ∈ (w.repo .scanMetadata).docs, pairOf d ≠ (.str pageId, .str websiteScanId)) :
    (PageScanCall.create pageId websiteScanId priority).Free fnv1a w := by
  rintro key pair ⟨-, rfl⟩ d hd - -
  exact h d hd

/-- The world after page scans for these pairs were created. -/
def pairedWorld (pairs : List (String × String)) : World :=
  pairs.foldl (fun w pair => (PageScanCall.create pair.1 pair.2 (.num 0)).after fnv1aAscii
    Service.counting w) (World.empty V6Guid.sample)

/-- Two pages of one website scan have free pairs, and one of them again has not. -/
theorem pageScan_pairs_unique_sample :
    ((pairedWorld [("p", "s"), ("q", "s")]).repo .scanMetadata).docs.map pairOf =
      [(.str "p", .str "s"), (.str "q", .str "s")] ∧
    UniquePairs (pairedWorld [("p", "s"), ("q", "s")]) ∧
    ¬ UniquePairs (pairedWorld [("p", "s"), ("q", "s"), ("p", "s")]) := by
  have hfirst : ((pairedWorld [("p", "s")]).repo .scanMetadata).docs.map pairOf =
      [(.str "p", .str "s")] := by
    decide +kernel
  have hpairs : ((pairedWorld [("p", "s"), ("q", "s")]).repo .scanMetadata).docs.map pairOf =
      [(.str "p", .str "s"), (.str "q", .str "s")] := by
    decide +kernel
  obtain ⟨hkept, hended⟩ := @pageScan_pairs_unique fnv1aAscii Service.counting V6Guid.sample []
    fun _ he => absurd he List.not_mem_nil
  -- the pair of the second page is not the one of the first
  have hfree : (PageScanCall.create "q" "s" (.num 0)).Free fnv1aAscii
      (pairedWorld [("p", "s")]) := by
    refine free_create fun d hd hsame => ?_
    have hmem : pairOf d ∈ [((.str "p", .str "s") : Val × Val)] :=
      hfirst ▸ List.mem_map_of_mem hd
    rw [hsame] at hmem
    exact absurd hmem (by decide)
  have hrun : PageScanRun fnv1aAscii Service.counting (fun w c => c.Free fnv1aAscii w)
      (World.empty V6Guid.sample) (pairedWorld [("p", "s"), ("q", "s")]) :=
    .step (c := .create "q" "s" (.num 0)) (.step (c := .create "p" "s" (.num 0)) .refl
      (free_create fun _ hd => absurd hd List.not_mem_nil)) hfree
  have htaken : ∃ d ∈ ((pairedWorld [("p", "s"), ("q", "s")]).repo .scanMetadata).docs,
      d.get "itemType" = .str ItemType.pageScan.name ∧
      d.get "id" ≠ .str (nextId (pairedWorld [("p", "s"), ("q", "s")]) "p") ∧
      pairOf d = (.str "p", .str "s") := by
    decide +kernel
  obtain ⟨d, hd, hscan, hid, hpair⟩ := htaken
  refine ⟨hpairs, hkept _ hrun, hended _ (.create "p" "s" (.num 0)) (hrun.mono fun _ _ _ => trivial)
    (World.run_faults _ _ (World.run_faults _ _ rfl)) fun hfree => ?_⟩
  exact hfree _ _ ⟨rfl, rfl⟩ d hd hscan (fun hkey => hid (Prod.mk.inj hkey).2) hpair

/-- Two creations for the same page and website scan store two page scans. -/
theorem createPageScan_twice :
    ¬ UniquePairs ((PageScanCall.create "p" "s" (.num 0)).after fnv1aAscii Service.counting
      ((PageScanCall.create "p" "s" (.num 0)).after fnv1aAscii Service.counting
        (World.empty V6Guid.sample))) := by
  have hempty : ScansStored Service.counting (World.empty V6Guid.sample) :=
    @scansStored_empty Service.counting V6Guid.sample [] fun _ he => absurd he List.not_mem_nil
  have hfirst := @after_create_served fnv1aAscii Service.counting (World.empty V6Guid.sample) rfl
    "p" "s" (.num 0)
  have hstored := @storedAs_create fnv1aAscii Service.counting (World.empty V6Guid.sample) _ "p"
    rfl "s" (.num 0) 0
  refine not_uniquePairs_after (hempty.after _) (by rw [hfirst]; rfl) fun hfree => ?_
  refine hfree _ _ ⟨rfl, rfl⟩ _ ?_ hstored.itemType ?_ hstored.stores.2
  · rw [hfirst, World.store_repo_self]
    exact Collection.mem_put_iff.mpr (Or.inl rfl)
  · -- the second one has the next UUID
    rw [hstored.stores.1, hfirst]
    intro hsame
    have hid := (Prod.mk.inj hsame).2
    exact absurd hid (by decide)

end WebInsights.Providers
