/-
What the requests of the API keep of the stored websites and pages.

Whatever the storage answers, and whatever fails, a document that names a website
lies in the bucket of that website, and a website under a valid id has an array of
known pages (`SiteShape`). Each handler is followed through once, by the rules of
`Cosmos/Shapes.lean`; a run of any requests then keeps the shape
(`Reaches.shaped`).
-/
import WebInsights.Cosmos.Shapes
import WebInsights.Providers.ProviderSpec
import WebInsights.StorageApi.Requests

set_option autoImplicit false

namespace WebInsights.StorageApi

open Common Cosmos CosmosContainerClient Effect Js Providers WebApi

/-- What every document among the websites and pages satisfies. -/
structure SiteShape (fnv1a : String → ℕ) (d : Document) : Prop where
  page : ∀ websiteId, d.get "websiteId" = .str websiteId →
    d.get "partitionKey" = .str (PageProvider.getPagePartitionKey fnv1a websiteId)
  website : d.get "partitionKey" = .str websiteDocuments → ∀ id, d.get "id" = .str id →
    isValidV6Guid id = true → ∃ urls, d.get "knownPages" = .arr (strings urls)

/-- The shape of the two collections; the one of the scans is left open. -/
def shape (fnv1a : String → ℕ) (scans : Document → Prop) : Container → Document → Prop
  | .websiteData => SiteShape fnv1a
  | .scanMetadata => scans

variable {env : Environment} {svc : Service} {scans : Document → Prop}

/-! ## Items with the shape -/

theorem toJson_strings (ss : List String) :
    (Val.arr (strings ss)).toJson = .arr (strings ss) := by
  rw [Val.toJson, Val.toJsonElems_eq_map]
  refine congrArg _ ?_
  have helem : ∀ v ∈ strings ss, (if v = .undefined then .null else v.toJson) = v := by
    intro v hv
    obtain ⟨s, -, rfl⟩ := List.mem_map.mp hv
    rfl
  rw [List.map_congr_left helem, List.map_id']

/-- No bucket of pages is the partition of the websites. -/
theorem getPagePartitionKey_ne (fnv1a : String → ℕ) (id : String) :
    PageProvider.getPagePartitionKey fnv1a id ≠ websiteDocuments := by
  intro h
  have hprefix := @takeWhile_getDbHashBucket fnv1a ItemType.page.name (by decide) [getGuidNode id]
  have hbucket : getDbHashBucket fnv1a ItemType.page.name [getGuidNode id] = websiteDocuments := h
  rw [hbucket] at hprefix
  exact absurd hprefix (by decide)

/-- An item for the partition of the websites: a website with known pages under a valid
id, or an item with neither. -/
structure WebsiteItem (item : Fields) : Prop where
  unnamed : ∀ s, Fields.get item "websiteId" ≠ .str s
  known : (Fields.get item "id" = .undefined ∧ Fields.get item "knownPages" = .undefined) ∨
    ∃ id urls, Fields.get item "id" = .str id ∧ isValidV6Guid id = true ∧
      Fields.get item "knownPages" = .arr (strings urls)

/-- An item for a bucket of pages. If it names a website, the bucket is that of the
website. -/
structure PageItem (fnv1a : String → ℕ) (item : Fields) : Prop where
  bucket : Fields.get item "partitionKey" ≠ .str websiteDocuments
  page : ∀ websiteId, Fields.get item "websiteId" = .str websiteId →
    Fields.get item "partitionKey" = .str (PageProvider.getPagePartitionKey fnv1a websiteId)

theorem eq_str_of_toJson {v : Val} {s : String} (h : v.toJson = .str s) : v = .str s := by
  cases v with
  | scalar _ => exact h
  | arr _ => cases h
  | obj _ => cases h

theorem WebsiteItem.shape (hnewId : ∀ n, isValidV6Guid (svc.newId n) = false) {fnv1a : String → ℕ}
    {item : Fields} (h : WebsiteItem item) (n : ℕ) : SiteShape fnv1a (svc.stamp n item) := by
  refine ⟨fun s hs => ?_, fun _ id hid hvalid => ?_⟩
  · rw [svc.get_stamp_of_ne_id n item (by decide) (by decide) (by decide)] at hs
    exact absurd (eq_str_of_toJson hs) (h.unnamed s)
  · rcases h.known with ⟨hnone, -⟩ | ⟨id', urls, -, -, hurls⟩
    · -- the id was made up by the SDK
      rw [svc.get_stamp_id_of_hasNoId n (Or.inl hnone)] at hid
      cases hid
      rw [hnewId] at hvalid
      cases hvalid
    · refine ⟨urls, ?_⟩
      rw [svc.get_stamp_of_ne_id n item (by decide) (by decide) (by decide), hurls,
        toJson_strings]

theorem PageItem.shape {fnv1a : String → ℕ} {item : Fields} (h : PageItem fnv1a item) (n : ℕ) :
    SiteShape fnv1a (svc.stamp n item) := by
  have hpk := svc.get_stamp_of_ne_id n item (k := "partitionKey") (by decide) (by decide)
    (by decide)
  refine ⟨fun s hs => ?_, fun hwebsite => ?_⟩
  · rw [svc.get_stamp_of_ne_id n item (by decide) (by decide) (by decide)] at hs
    rw [hpk, h.page s (eq_str_of_toJson hs)]
    rfl
  · rw [hpk] at hwebsite
    exact absurd (eq_str_of_toJson hwebsite) h.bucket

/-! ## Website documents -/

/-- What `WebsiteProvider.normalizeDbDocument` returns. -/
def websiteDoc (payload : Fields) (id : Val) : Fields :=
  Fields.spread [("id", id), ("itemType", .str ItemType.website.name),
    ("partitionKey", .str websiteDocuments)] payload

section

variable {payload : Fields} (hp : WebsitePayload payload)

include hp

/-- What the posted website has comes first. -/
theorem get_websiteDoc_of_mem {k : String} (hk : k ∈ Fields.keys payload) (id : Val) :
    Fields.get (websiteDoc payload id) k = Fields.get payload k := by
  unfold websiteDoc
  rw [Fields.get_spread hp.json.1, if_pos hk]

theorem get_websiteDoc_of_notMem {k : String} (hk : k ∉ Fields.keys payload) (id : Val) :
    Fields.get (websiteDoc payload id) k = Fields.get [("id", id),
      ("itemType", .str ItemType.website.name), ("partitionKey", .str websiteDocuments)] k := by
  unfold websiteDoc
  rw [Fields.get_spread hp.json.1, if_neg hk]

theorem get_websiteDoc_partitionKey (id : Val) :
    Fields.get (websiteDoc payload id) "partitionKey" = .str websiteDocuments := by
  have hk : "partitionKey" ∉ Fields.keys payload := fun hk =>
    absurd (hp.keys _ hk) (by decide)
  rw [get_websiteDoc_of_notMem hp hk]
  rfl

/-- It has no property but those of a website and the two the provider adds. -/
theorem mem_keys_websiteDoc {id : Val} {k : String}
    (hk : k ∈ Fields.keys (websiteDoc payload id)) :
    k ∈ "itemType" :: "partitionKey" :: StorageApi.websiteProperties := by
  rcases Fields.mem_keys_spread.mp hk with hk | hk
  · exact List.mem_cons_of_mem _ (List.mem_cons_of_mem _ (hp.keys k hk))
  · have hbase : ∀ k ∈ ["id", "itemType", "partitionKey"],
        k ∈ "itemType" :: "partitionKey" :: StorageApi.websiteProperties := by decide
    exact hbase k hk

theorem get_websiteDoc_knownPages (id : Val) :
    Fields.get (websiteDoc payload id) "knownPages" = Fields.get payload "knownPages" := by
  refine get_websiteDoc_of_mem hp (Decidable.byContradiction fun hk => ?_) id
  obtain ⟨urls, hurls⟩ := hp.knownPages
  rw [Fields.get_eq_undefined_of_notMem hk] at hurls
  cases hurls

/-- A website posted with no id gets the one it is given. -/
theorem get_websiteDoc_id_new (hid : Fields.get payload "id" = .undefined) (id : Val) :
    Fields.get (websiteDoc payload id) "id" = id := by
  have hk : "id" ∉ Fields.keys payload := fun hk =>
    (Val.isJsonFields_iff.mp hp.json.2 _ (Fields.mem_of_mem_keys hk)).ne_undefined hid
  rw [get_websiteDoc_of_notMem hp hk, Fields.get_cons_self]

/-- A website posted with an id keeps it. -/
theorem get_websiteDoc_id_own {own : String} (hid : Fields.get payload "id" = .str own)
    (id : Val) : Fields.get (websiteDoc payload id) "id" = .str own := by
  have hk : "id" ∈ Fields.keys payload := Decidable.byContradiction fun hk => by
    rw [Fields.get_eq_undefined_of_notMem hk] at hid
    cases hid
  rw [get_websiteDoc_of_mem hp hk, hid]

theorem wf_websiteDoc (s : Scalar) : (Val.obj (websiteDoc payload (.scalar s))).Wf :=
  Val.wf_spread ⟨by simp, trivial, trivial, trivial, trivial⟩
    (Val.wfFields_iff.mp hp.json.wf.2)

/-- It names no website, so it is no page. -/
theorem websiteItem_websiteDoc {v : Val} {id : String}
    (hid : Fields.get (websiteDoc payload v) "id" = .str id) (hvalid : isValidV6Guid id = true) :
    WebsiteItem (websiteDoc payload v) := by
  obtain ⟨urls, hurls⟩ := hp.knownPages
  refine ⟨fun s hs => ?_, Or.inr ⟨id, urls, hid, hvalid, ?_⟩⟩
  · have hk : "websiteId" ∉ Fields.keys (websiteDoc payload v) := fun hk =>
      absurd (mem_keys_websiteDoc hp hk) (by decide)
    rw [Fields.get_eq_undefined_of_notMem hk] at hs
    cases hs
  · rw [get_websiteDoc_knownPages hp, hurls]

end

/-! ## The merge of known pages -/

/-- The customizer of websites answers about the known pages only. -/
theorem mergeKnownPages_leavesAlone {k : String} (hk : k ≠ "knownPages") :
    LeavesAlone (some WebsiteProvider.mergeKnownPages) k := by
  intro f hf source target
  cases hf
  rw [WebsiteProvider.mergeKnownPages, if_neg hk]
  rfl

/-- It says nothing about the other properties of a website, nor about the elements of their
lists. -/
theorem exists_mergeValue_leftAlone {k : String} (hk : k ≠ "knownPages") {v : Val} (hv : Flat v)
    (t : Val) :
    ∃ r, mergeValue (mergeCustomizer (some WebsiteProvider.mergeKnownPages)) k t v = .ok r := by
  refine exists_mergeValue_of_flat hv (fun t s => ?_) (fun i t s => ?_) t
  · rw [mergeCustomizer_of_leavesAlone (mergeKnownPages_leavesAlone hk)]
    exact mergeCustomizer_total t s _
  · have hne := toString_ne_of_not_isDigit (s := "knownPages") (c := 'k') (by decide)
      (by decide) i
    rw [mergeCustomizer_of_leavesAlone (mergeKnownPages_leavesAlone hne)]
    exact mergeCustomizer_total t s _

/-- A merge exists if the merge of every property does. -/
theorem exists_merged_of_cells {S : Document} {document : Fields}
    {customMerge : Option CustomMerge} (hnd : (Fields.keys document).Nodup)
    (hcells : ∀ p ∈ document, ∃ r,
      mergeValue (mergeCustomizer customMerge) p.1 (Fields.get S.fields p.1) p.2 = .ok r) :
    ∃ merged, mergedDocument S.val document customMerge = .ok merged := by
  rw [Document.val, mergedDocument_obj]
  rcases hm : mergeFields (mergeCustomizer customMerge) S.fields document with e | fs
  · obtain ⟨p, hmem, e', he'⟩ := (mergeFields_error_iff hnd).mp ⟨e, hm⟩
    obtain ⟨r, hr⟩ := hcells p hmem
    rw [hr] at he'
    cases he'
  · exact ⟨_, rfl⟩

/-- Lists of urls are merged into the list of the distinct ones. The customizer is given the
update first, so its pages come first. -/
theorem mergeCustomizer_pages (ks us : List String) :
    mergeCustomizer (some WebsiteProvider.mergeKnownPages) (.arr (strings ks)) (.arr (strings us))
      "knownPages" = .ok (.arr (strings (us ++ ks).eraseDups)) := by
  refine mergeCustomizer_of_custom ?_ nofun
  rw [WebsiteProvider.mergeKnownPages, if_pos rfl, ← uniqElems_strings, strings_append]
  rfl

section

variable {payload : Fields} (hp : WebsitePayload payload) {S : Document} {us : List String}
  (hS : S.get "knownPages" = .arr (strings us)) {v : Val}

include hp hS

/-- The known pages of a merged website. -/
theorem get_merged_knownPages (hwf : (Val.obj (websiteDoc payload v)).Wf) {merged : Fields}
    (hmerged : mergedDocument S.val (websiteDoc payload v)
      (some WebsiteProvider.mergeKnownPages) = .ok merged) {vs : List String}
    (hvs : Fields.get payload "knownPages" = .arr (strings vs)) :
    ∃ ks, Fields.get merged "knownPages" = .arr (strings ks) ∧ ks.Nodup ∧
      ∀ u, u ∈ ks ↔ u ∈ us ∨ u ∈ vs := by
  have hdoc : Fields.get (websiteDoc payload v) "knownPages" = .arr (strings vs) := by
    rw [get_websiteDoc_knownPages hp, hvs]
  have hk : "knownPages" ∈ Fields.keys (websiteDoc payload v) :=
    Decidable.byContradiction fun hk => by
      rw [Fields.get_eq_undefined_of_notMem hk] at hdoc
      cases hdoc
  obtain ⟨r, hr, hget⟩ := get_merged_of_mem hwf.1 hmerged hk
  have hSget : Fields.get S.fields "knownPages" = .arr (strings us) := hS
  rw [hSget, hdoc, mergeValue_of_custom (mergeCustomizer_pages us vs) nofun] at hr
  rw [hget, ← Except.ok.inj hr]
  refine ⟨(vs ++ us).eraseDups, rfl, FirstOccurrences.nodup_eraseDups _, fun u => ?_⟩
  rw [List.mem_eraseDups, List.mem_append, or_comm]

/-- The merge of a posted website into a stored one exists. -/
theorem exists_mergedWebsite (hwf : (Val.obj (websiteDoc payload v)).Wf) (hv : Flat v) :
    ∃ merged, mergedDocument S.val (websiteDoc payload v)
      (some WebsiteProvider.mergeKnownPages) = .ok merged := by
  have hcells : ∀ p ∈ websiteDoc payload v, ∃ r,
      mergeValue (mergeCustomizer (some WebsiteProvider.mergeKnownPages)) p.1
        (Fields.get S.fields p.1) p.2 = .ok r := by
    intro p hmem
    have hget := Fields.get_eq_of_mem hwf.1 hmem
    by_cases hk : p.1 = "knownPages"
    · obtain ⟨vs, hvs⟩ := hp.knownPages
      have hSget : Fields.get S.fields "knownPages" = .arr (strings us) := hS
      rw [hk, get_websiteDoc_knownPages hp, hvs] at hget
      rw [hk, hSget, ← hget]
      exact ⟨_, mergeValue_of_custom (mergeCustomizer_pages us vs) nofun⟩
    · -- every other property is flat, and so is asked about by keys that are left alone
      have hflat : Flat p.2 := by
        rw [← hget]
        by_cases hkey : p.1 ∈ Fields.keys payload
        · rw [get_websiteDoc_of_mem hp hkey]
          exact hp.flat _ (Fields.mem_of_mem_keys hkey)
        · rw [get_websiteDoc_of_notMem hp hkey, Fields.get_cons]
          split
          · exact hv
          · simp only [Fields.get_cons, Fields.get_nil]
            split_ifs <;> trivial
      exact exists_mergeValue_leftAlone hk hflat _
  exact exists_merged_of_cells hwf.1 hcells

end

/-! ## The handlers -/

/-- A program that keeps the shape of the websites and pages. -/
abbrev Keeps {α : Type} (env : Environment) (svc : Service) (scans : Document → Prop)
    (Q : α → Prop) (p : Async α) : Prop :=
  KeepsShape svc (shape env.fnv1a scans) Q p

theorem eq_str_of_normalizeValue {v : Val} {s : String} (h : normalizeValue v = .str s) :
    v = .str s := by
  cases v with
  | scalar x =>
    cases x with
    | null => cases h
    | _ => exact h
  | arr _ => cases h
  | obj _ => cases h

/-- Merging into a document that was not read leaves an item with nothing in it. -/
theorem mergedDocument_undefined_eq_nil {document merged : Fields}
    {customMerge : Option CustomMerge}
    (h : mergedDocument .undefined document customMerge = .ok merged) : merged = [] := by
  rw [mergedDocument_undefined] at h
  rcases hm : mergeFields (mergeCustomizer customMerge) [] document with e | fs
  · rw [hm] at h
    cases h
  · rw [hm] at h
    exact (Except.ok.inj h).symm

/-- An item of which nothing is left but its partition key. -/
theorem get_assignPartitionKey_nil {k : String} (hk : k ≠ "partitionKey") (partitionKey : Val) :
    Fields.get (CosmosClientWrapper.assignPartitionKey [] partitionKey) k = .undefined := by
  rw [CosmosClientWrapper.get_assignPartitionKey_ne hk, Fields.get_nil]

/-- What an update of a website upserts after it read something. -/
theorem websiteItem_merged {payload : Fields} (hp : WebsitePayload payload) {id : String}
    (hid : Fields.get payload "id" = .str id) (hvalid : isValidV6Guid id = true) {item : Val}
    (hitem : FoundOf (shape env.fnv1a scans) .websiteData (.str id) (.str websiteDocuments) item)
    {merged : Fields}
    (hmerged : mergedDocument item (websiteDoc payload .undefined)
      (some WebsiteProvider.mergeKnownPages) = .ok merged) :
    WebsiteItem (CosmosClientWrapper.assignPartitionKey merged (.str websiteDocuments)) := by
  have hdocid := get_websiteDoc_id_own hp hid .undefined
  have hdocpk := get_websiteDoc_partitionKey hp .undefined
  have hwf := wf_websiteDoc hp .undefined
  rcases hitem with rfl | ⟨S, hS, hkey, rfl⟩
  · rw [mergedDocument_undefined_eq_nil hmerged]
    refine ⟨fun s hs => ?_, Or.inl ⟨?_, ?_⟩⟩
    · rw [get_assignPartitionKey_nil (by decide)] at hs
      cases hs
    · exact get_assignPartitionKey_nil (by decide) _
    · exact get_assignPartitionKey_nil (by decide) _
  · obtain ⟨hSpk, hSid⟩ := Prod.mk.inj hkey
    obtain ⟨us, hus⟩ := hS.website hSpk id hSid hvalid
    obtain ⟨vs, hvs⟩ := hp.knownPages
    obtain ⟨ks, hks, -⟩ := get_merged_knownPages hp hus hwf hmerged hvs
    have hmid := get_merged_str hwf.1 hmerged (mergeKnownPages_leavesAlone (by decide)) hSid
      (Or.inr hdocid)
    have hmpk := get_merged_str hwf.1 hmerged (mergeKnownPages_leavesAlone (by decide)) hSpk
      (Or.inr hdocpk)
    have hassign : CosmosClientWrapper.assignPartitionKey merged (.str websiteDocuments) = merged :=
      assignPartitionKey_eq_self nofun hmpk
    rw [hassign]
    refine ⟨fun s hs => ?_, Or.inr ⟨id, ks, hmid, hvalid, hks⟩⟩
    -- a stored website names no website itself
    have hk : "websiteId" ∉ Fields.keys (websiteDoc payload .undefined) := fun hk =>
      absurd (mem_keys_websiteDoc hp hk) (by decide)
    rw [get_merged_of_notMem hwf.1 hmerged hk] at hs
    have hbucket := hS.page s (eq_str_of_normalizeValue hs)
    rw [hSpk] at hbucket
    exact getPagePartitionKey_ne env.fnv1a s (by simpa using hbucket.symm)

theorem eq_str_of_guidText {v : Val} {guid : String} (h : guidText v = .ok guid) :
    v = .str guid := by
  unfold guidText at h
  rcases hp : property v "replace" with e | r
  · rw [hp] at h
    cases h
  · rw [hp] at h
    dsimp only [bind, Except.bind] at h
    split at h
    · rw [Except.ok.inj h]
    · cases h

/-- A website the handler goes on with: either it has no known pages to create, or it has
a valid id to create them under. -/
def Usable (websiteDocument : Val) : Prop :=
  websiteDocument.get "knownPages" = .undefined ∨
    ∃ id, websiteDocument.get "id" = .str id ∧ isValidV6Guid id = true

theorem usable_of_storedOf {v : Val} (h : StoredOf svc WebsiteItem v) : Usable v := by
  rcases h with rfl | ⟨n, item, hitem, rfl⟩
  · exact Or.inl rfl
  · rcases hitem.known with ⟨-, hnone⟩ | ⟨id, urls, hid, hvalid, -⟩
    · left
      have hget := svc.get_stamp_of_ne_id n item (k := "knownPages") (by decide) (by decide)
        (by decide)
      rw [hnone] at hget
      exact hget
    · right
      have hget := svc.get_stamp (not_hasNoId hid (ne_empty_of_valid hvalid)) (k := "id")
        (by decide)
        (by decide) n
      rw [hid] at hget
      exact ⟨id, hget, hvalid⟩

section

variable (hnewId : ∀ n, isValidV6Guid (svc.newId n) = false)

include hnewId

theorem keeps_createOrUpdateWebsite {payload : Fields} (hp : WebsitePayload payload) :
    Keeps env svc scans (fun r => Usable r.1)
      (PostWebsiteController.createOrUpdateWebsite (.obj payload)) := by
  have hI : ∀ item, WebsiteItem item → ∀ n,
      shape env.fnv1a scans .websiteData (svc.stamp n item) := fun item h n => h.shape hnewId n
  unfold PostWebsiteController.createOrUpdateWebsite
  rw [property_obj, Program.ofExcept_ok, pure_bind]
  rcases hp.id with hid | ⟨id, hid, hvalid⟩
  · -- a new website, under the UUID that is drawn
    rw [if_pos hid, WebsiteProvider.createWebsite, bind_assoc]
    refine (Program.guarantees_perform trivial).bind fun (guid : V6Guid) _ => ?_
    have hdocid := get_websiteDoc_id_new hp hid (.str guid.text)
    have hitem := websiteItem_websiteDoc hp hdocid guid.valid
    have hnormalize : WebsiteProvider.normalizeDbDocument payload (.str guid.text) =
        pure (websiteDoc payload (.str guid.text)) := if_neg fun h => nomatch h.1
    rw [ownFields, hnormalize, pure_bind, bind_assoc]
    have hwrite := keepsShape_writeDocument hI (get_websiteDoc_partitionKey hp _) hitem true
    exact hwrite.bind fun _ _ => Or.inr ⟨guid.text, hdocid, guid.valid⟩
  · -- a website under its own id
    have hne : Fields.get payload "id" ≠ .undefined := by
      rw [hid]
      nofun
    have hdocid := get_websiteDoc_id_own hp hid .undefined
    have hnormalize : WebsiteProvider.normalizeDbDocument payload .undefined =
        pure (websiteDoc payload .undefined) := if_neg fun h => hne h.2
    rw [if_neg hne, WebsiteProvider.updateWebsite, ownFields, hnormalize, pure_bind, bind_assoc]
    have hpk := get_websiteDoc_partitionKey hp .undefined
    have heff : effectivePartitionKey (websiteDoc payload .undefined)
        (Fields.get (websiteDoc payload .undefined) "partitionKey") = .str websiteDocuments := by
      rw [hpk]
      rfl
    have hmerge := keepsShape_mergeOrWriteDocument hI hpk heff
      (websiteItem_websiteDoc hp hdocid hvalid)
      (fun item merged hitem hmerged => websiteItem_merged hp hid hvalid (hdocid ▸ hitem) hmerged)
      true
    exact hmerge.bind fun response hresponse => usable_of_storedOf hresponse

end

/-! Queries and conversions write nothing. -/

theorem keeps_getCosmosQueryResultsIterable (container : Container) (q : SqlQuerySpec) :
    Keeps env svc scans (fun _ => True) (getCosmosQueryResultsIterable container q) := by
  refine (keepsShape_queryDocuments q).bind fun response _ => ?_
  refine (keepsShape_ensureSuccessStatusCode response).bind fun _ _ => ?_
  split
  · trivial
  · exact Program.guarantees_throw _

theorem keeps_firstQueryResult (container : Container) (q : SqlQuerySpec) (none : Val) :
    Keeps env svc scans (fun _ => True) (firstQueryResult container q none) := by
  refine (keepsShape_queryDocuments q).bind fun response _ => ?_
  refine (keepsShape_ensureSuccessStatusCode response).bind fun _ _ => ?_
  split
  · trivial
  · trivial
  · exact Program.guarantees_throw _

theorem keeps_ofExcept {α : Type} (x : Except JsError α) :
    Keeps env svc scans (fun a => x = .ok a) (Program.ofExcept x) :=
  Program.guarantees_ofExcept fun _ h => h

theorem keeps_convertAll {f : Val → Async Fields}
    (hf : ∀ v, Keeps env svc scans (fun _ => True) (f v)) (documents : List Val) :
    Keeps env svc scans (fun _ => True) (convertAll f documents) := by
  induction documents with
  | nil => trivial
  | cons document documents ih =>
    unfold convertAll
    split
    · exact ih
    · exact (hf document).bind fun _ _ => ih.bind fun _ _ => trivial

theorem convert_eq_ok {document : Val} {ks : List String} {fs : Fields}
    (h : convert document ks = .ok fs) : fs = copyProperties document ks := by
  unfold convert at h
  rcases hid : property document "id" with e | v
  · rw [hid] at h
    cases h
  · rw [hid] at h
    exact (Except.ok.inj h).symm

theorem keeps_createWebsiteApiResponse (websiteDocument : Val) {pages : Async (List Val)}
    (hpages : Keeps env svc scans (fun _ => True) pages) :
    Keeps env svc scans
      (fun response => response.website = copyProperties websiteDocument websiteProperties)
      (createWebsiteApiResponse websiteDocument pages) := by
  refine (keeps_ofExcept _).bind fun website hwebsite => ?_
  refine hpages.bind fun documents _ => ?_
  have hconvert := fun page => (@keeps_ofExcept env svc scans _ (createPageApiObject page)).mono
    fun _ _ => trivial
  exact (keeps_convertAll hconvert documents).bind fun _ _ => convert_eq_ok hwebsite

theorem keeps_createWebsiteScanApiResponse (websiteScanDocument : Val)
    {pageScans : Async (List Val)} (hpageScans : Keeps env svc scans (fun _ => True) pageScans)
    {getPageForScan : Val → Async Val}
    (hpage : ∀ v, Keeps env svc scans (fun _ => True) (getPageForScan v)) :
    Keeps env svc scans (fun _ => True)
      (createWebsiteScanApiResponse websiteScanDocument pageScans getPageForScan) := by
  refine (keeps_ofExcept _).bind fun _ _ => ?_
  refine hpageScans.bind fun documents _ => ?_
  have hconvert := fun pageScan => (hpage pageScan).bind fun page _ =>
    (@keeps_ofExcept env svc scans _ (createPageScanApiObject pageScan page)).mono
      fun _ _ => trivial
  exact (keeps_convertAll hconvert documents).bind fun _ _ => trivial

theorem keeps_readPage (id : String) :
    Keeps env svc scans (fun _ => True) (PageProvider.readPage env.fnv1a id) := by
  refine (keepsShape_readItem _ _ true).bind fun response _ => ?_
  exact (keepsShape_ensureSuccessStatusCode response).bind fun _ _ => trivial

/-! Pages. -/

/-- A page document goes to its bucket, and only there. -/
theorem pageItem_bucketed {fnv1a : String → ℕ} {document : Fields} {id : String}
    (hnd : (Fields.keys document).Nodup) (hpk : "partitionKey" ∉ Fields.keys document)
    (hpage : ∀ websiteId, Fields.get document "websiteId" = .str websiteId →
      getGuidNode websiteId = getGuidNode id) :
    PageItem fnv1a (bucketed fnv1a .page id document) := by
  have hbucket := @get_bucketed_partitionKey fnv1a .page id document hnd hpk
  refine ⟨fun h => ?_, fun websiteId hwebsite => ?_⟩
  · rw [hbucket] at h
    exact getPagePartitionKey_ne fnv1a id (by simpa [PageProvider.getPagePartitionKey] using h)
  · rw [get_bucketed_other hnd (by decide) (by decide)] at hwebsite
    have hnode := hpage websiteId hwebsite
    rw [hbucket, PageProvider.getPagePartitionKey, createPartitionKeyForDocument,
      createPartitionKeyForDocument, hnode]

theorem keeps_createPageForWebsite {websiteId : String} (hvalid : isValidV6Guid websiteId = true)
    (url : Val) :
    Keeps env svc scans (fun _ => True)
      (PageProvider.createPageForWebsite env.fnv1a url websiteId) := by
  have hI : ∀ item, PageItem env.fnv1a item → ∀ n,
      shape env.fnv1a scans .websiteData (svc.stamp n item) := fun item h n => h.shape n
  unfold PageProvider.createPageForWebsite PageProvider.normalizeDbDocument
  refine (Program.guarantees_perform trivial).bind fun (guid : V6Guid) _ => ?_
  rw [normalizeBucketed_eq env.fnv1a rfl, pure_bind]
  have hitem : PageItem env.fnv1a (bucketed env.fnv1a .page
      (createGuidFromBaseGuid guid.text websiteId)
      [("id", .str (createGuidFromBaseGuid guid.text websiteId)), ("websiteId", .str websiteId),
        ("url", url)]) := by
    refine pageItem_bucketed (by simp) (by simp) fun websiteId' hwebsite => ?_
    cases hwebsite
    exact (getGuidNode_createGuidFromBaseGuid guid.valid hvalid).symm
  exact (keepsShape_writeDocument hI (get_bucketed_partitionKey (by simp) (by simp)) hitem
    true).bind fun _ _ => trivial

/-- The document of a page update: nothing but the id and what is posted. -/
def pagePatch (payload : Fields) (pageId : String) : Fields :=
  Fields.spread [("id", .str pageId)] (Fields.without payload "pageId")

section

variable {payload : Fields} {pageId : String} (hp : PagePayload payload pageId)

include hp

theorem keys_pagePatch {k : String} (hk : k ∈ Fields.keys (pagePatch payload pageId)) :
    k ∈ ["id", "disabledScans"] := by
  rcases Fields.mem_keys_spread.mp hk with hk | hk
  · rw [Fields.keys_without, List.mem_filter] at hk
    have hkeys := hp.keys k hk.1
    have hne : k ≠ "pageId" := by simpa using hk.2
    simp only [List.mem_cons, List.not_mem_nil, or_false] at hkeys ⊢
    exact Or.inr (hkeys.resolve_left hne)
  · have hid : k = "id" := by simpa using hk
    rw [hid]
    exact List.mem_cons_self

theorem wf_pagePatch : (Val.obj (pagePatch payload pageId)).Wf := by
  refine Val.wf_spread ⟨by simp, trivial, trivial⟩ fun p hmem => ?_
  exact Val.wfFields_iff.mp hp.json.wf.2 p (List.mem_of_mem_filter hmem)

theorem get_pagePatch_id : Fields.get (pagePatch payload pageId) "id" = .str pageId := by
  have hnd : (Fields.keys (Fields.without payload "pageId")).Nodup := by
    rw [Fields.keys_without]
    exact hp.json.1.filter _
  have hk : "id" ∉ Fields.keys (Fields.without payload "pageId") := by
    rw [Fields.keys_without]
    exact fun h => absurd (hp.keys _ (List.mem_of_mem_filter h)) (by decide)
  unfold pagePatch
  rw [Fields.get_spread hnd, if_neg hk, Fields.get_cons_self]

/-- What an update of a page upserts after it read something. -/
theorem pageItem_merged {item : Val}
    (hitem : FoundOf (shape env.fnv1a scans) .websiteData (.str pageId)
      (.str (createPartitionKeyForDocument env.fnv1a .page pageId)) item) {merged : Fields}
    (hmerged : mergedDocument item (bucketed env.fnv1a .page pageId (pagePatch payload pageId))
      none = .ok merged) :
    PageItem env.fnv1a (CosmosClientWrapper.assignPartitionKey merged
      (.str (createPartitionKeyForDocument env.fnv1a .page pageId))) := by
  have hwf := wf_pagePatch hp
  have hpk := @get_bucketed_partitionKey env.fnv1a .page pageId _ hwf.1 fun h =>
    absurd (keys_pagePatch hp h) (by decide)
  rcases hitem with rfl | ⟨S, hS, hkey, rfl⟩
  · -- an orphan in the bucket of the page
    rw [mergedDocument_undefined_eq_nil hmerged]
    refine ⟨?_, fun s hs => ?_⟩
    · have hne : CosmosClientWrapper.assignPartitionKey [] (.str (createPartitionKeyForDocument
          env.fnv1a .page pageId)) = [] ∨ CosmosClientWrapper.assignPartitionKey []
          (.str (createPartitionKeyForDocument env.fnv1a .page pageId)) =
          [("partitionKey", .str (createPartitionKeyForDocument env.fnv1a .page pageId))] := by
        unfold CosmosClientWrapper.assignPartitionKey
        split
        · exact Or.inl rfl
        · exact Or.inr rfl
      rcases hne with h | h
      · rw [h]
        nofun
      · rw [h]
        intro hbucket
        exact getPagePartitionKey_ne env.fnv1a pageId
          (by simpa [PageProvider.getPagePartitionKey] using hbucket)
    · rw [get_assignPartitionKey_nil (by decide)] at hs
      cases hs
  · -- a stored page keeps its bucket, as the patch names the same
    obtain ⟨hSpk, hSid⟩ := Prod.mk.inj hkey
    have hleave : LeavesAlone none "partitionKey" := nofun
    have hmpk := get_merged_str (wf_bucketed hwf).1 hmerged hleave hSpk (Or.inr hpk)
    have hassign : CosmosClientWrapper.assignPartitionKey merged
        (.str (createPartitionKeyForDocument env.fnv1a .page pageId)) = merged :=
      assignPartitionKey_eq_self nofun hmpk
    have hk : "websiteId" ∉ Fields.keys (bucketed env.fnv1a .page pageId
        (pagePatch payload pageId)) := by
      rw [mem_keys_bucketed]
      rintro (h | h | h)
      · exact absurd (keys_pagePatch hp h) (by decide)
      · exact absurd h (by decide)
      · exact absurd h (by decide)
    rw [hassign]
    refine ⟨fun h => ?_, fun s hs => ?_⟩
    · rw [hmpk] at h
      exact getPagePartitionKey_ne env.fnv1a pageId
        (by simpa [PageProvider.getPagePartitionKey] using h)
    · -- the stored page names its website, and lies in the bucket of it
      rw [get_merged_of_notMem (wf_bucketed hwf).1 hmerged hk] at hs
      rw [hmpk, ← hSpk]
      exact hS.page s (eq_str_of_normalizeValue hs)

theorem keeps_updatePage :
    Keeps env svc scans (fun _ => True)
      (PageProvider.updatePage env.fnv1a (pagePatch payload pageId)) := by
  have hI : ∀ item, PageItem env.fnv1a item → ∀ n,
      shape env.fnv1a scans .websiteData (svc.stamp n item) := fun item h n => h.shape n
  have hwf := wf_pagePatch hp
  -- the patch has the id and what was posted, and no other property of a page
  have hpk := @get_bucketed_partitionKey env.fnv1a .page pageId _ hwf.1 fun h =>
    absurd (keys_pagePatch hp h) (by decide)
  have hitem : PageItem env.fnv1a (bucketed env.fnv1a .page pageId (pagePatch payload pageId)) := by
    refine pageItem_bucketed hwf.1 (fun h => absurd (keys_pagePatch hp h) (by decide))
      fun websiteId hwebsite => ?_
    rw [Fields.get_eq_undefined_of_notMem fun h => absurd (keys_pagePatch hp h) (by decide)]
      at hwebsite
    cases hwebsite
  have hid : Fields.get (bucketed env.fnv1a .page pageId (pagePatch payload pageId)) "id" =
      .str pageId := by
    rw [get_bucketed_other hwf.1 (by decide) (by decide), get_pagePatch_id hp]
  unfold PageProvider.updatePage PageProvider.normalizeDbDocument
  rw [normalizeBucketed_eq env.fnv1a (get_pagePatch_id hp), pure_bind]
  have hmerge := @keepsShape_mergeOrWriteDocument svc _ _ _ hI _ .undefined _ hpk hpk none hitem
    (fun item merged hitem hmerged => pageItem_merged hp (hid ▸ hitem) hmerged) true
  exact hmerge.bind fun _ _ => trivial

end

/-! Every request. -/

/-- A request that keeps the shape of the websites and pages, and of the scans that are
given. -/
abbrev ApiRequest.Keeps (env : Environment) (svc : Service) (scans : Document → Prop)
    (r : ApiRequest) : Prop :=
  StorageApi.Keeps env svc scans (fun _ => True) (r.serve env)

theorem keeps_serve {r : ApiRequest}
    (h : r.Accepted env → Keeps env svc scans (fun _ => True)
      (r.endpoint.handleRequest env r.context (r.validated env).2)) :
    r.Keeps env svc scans := by
  unfold ApiRequest.Keeps ApiRequest.serve
  split
  · rename_i haccepted
    exact (h haccepted).bind fun _ _ => trivial
  · trivial

section

variable (hnewId : ∀ n, isValidV6Guid (svc.newId n) = false)

include hnewId

theorem keeps_postWebsite (context : Context) :
    (ApiRequest.mk .postWebsite context).Keeps env svc scans := by
  refine keeps_serve fun haccepted => ?_
  obtain ⟨payload, hp, hpayload⟩ := websitePayload_of_accepted haccepted
  unfold Endpoint.handleRequest PostWebsiteController.handleRequest
  dsimp only
  rw [hpayload]
  refine (keeps_createOrUpdateWebsite hnewId hp).bind fun ⟨websiteDocument, created⟩ husable => ?_
  refine (keeps_ofExcept _).bind fun id hid => ?_
  refine (keeps_ofExcept _).bind fun websiteId hwebsiteId => ?_
  refine (keeps_createWebsiteApiResponse websiteDocument
    (keeps_getCosmosQueryResultsIterable _ _)).bind fun response hresponse => ?_
  have hid' := eq_str_of_guidText hwebsiteId
  rw [hid'] at hid
  have hknown : Fields.get response.website "knownPages" = websiteDocument.get "knownPages" := by
    rw [hresponse]
    rfl
  have hcreate : Keeps env svc scans (fun _ => True)
      (PostWebsiteController.createNewPages env websiteId response) := by
    refine (Program.guarantees_all (Q := fun _ => True) fun p hmem => ?_).bind fun _ _ => trivial
    obtain ⟨url, hurl, rfl⟩ := List.mem_map.mp hmem
    rcases husable with hnone | ⟨own, hown, hvalid⟩
    · -- a website with no known pages has no new ones
      rw [PostWebsiteController.newPageUrls, hknown, hnone] at hurl
      exact absurd hurl List.not_mem_nil
    · have hsame : Val.str own = .str websiteId := hown.symm.trans (property_eq_ok hid)
      obtain rfl : own = websiteId := by simpa using hsame
      exact (keeps_createPageForWebsite hvalid url).bind fun _ _ =>
        (keeps_ofExcept _).mono fun _ _ => trivial
  exact hcreate.bind fun _ _ => trivial

end

theorem keeps_getWebsite (context : Context) :
    (ApiRequest.mk .getWebsite context).Keeps env svc scans := by
  refine keeps_serve fun _ => ?_
  refine (keepsShape_readItem _ _ false).bind fun response _ => ?_
  split
  · trivial
  split
  · trivial
  exact (keeps_createWebsiteApiResponse _ (keeps_getCosmosQueryResultsIterable _ _)).bind
    fun _ _ => trivial

theorem keeps_getWebsiteScan (context : Context) :
    (ApiRequest.mk .getWebsiteScan context).Keeps env svc scans := by
  refine keeps_serve fun _ => ?_
  refine Program.Guarantees.bind (Q := fun _ => True) ?_ fun found _ => ?_
  · unfold GetWebsiteScanController.getWebsiteScan
    split
    · refine (keeps_firstQueryResult _ _ _).bind fun _ _ => ?_
      split <;> trivial
    · refine (keepsShape_readItem _ _ false).bind fun _ _ => ?_
      split
      · trivial
      split <;> trivial
  · split
    · trivial
    · refine (keeps_ofExcept _).bind fun _ _ => (keeps_ofExcept _).bind fun _ _ => ?_
      have hpage : ∀ v, Keeps env svc scans (fun _ => True)
          (GetWebsiteScanController.getPageForScan env v) := fun v =>
        (keeps_ofExcept _).bind fun _ _ => (keeps_ofExcept _).bind fun _ _ => keeps_readPage _
      exact (keeps_createWebsiteScanApiResponse _ (keeps_getCosmosQueryResultsIterable _ _)
        hpage).bind fun _ _ => trivial

theorem keeps_postPage (context : Context) :
    (ApiRequest.mk .postPage context).Keeps env svc scans := by
  refine keeps_serve fun haccepted => ?_
  obtain ⟨payload, pageId, hp, hpayload⟩ := pagePayload_of_accepted haccepted
  unfold Endpoint.handleRequest PostPageController.handleRequest
  dsimp only
  rw [hpayload, property_obj, hp.named, Program.ofExcept_ok, pure_bind]
  refine Program.Guarantees.bind (Q := fun _ => True) ?_ fun found _ => ?_
  · refine Program.Guarantees.tryCatch ?_ fun _ => trivial
    exact (keeps_ofExcept _).bind fun _ _ => (keeps_readPage _).bind fun _ _ => trivial
  · split
    · exact (keeps_updatePage hp).bind fun _ _ => (keeps_ofExcept _).bind fun _ _ => trivial
    · trivial

theorem keeps_createScanDocumentForWebsite (websiteId : String)
    (scanType frequency priority : Val) :
    Keeps env svc (fun _ => True) (fun _ => True)
      (WebsiteScanProvider.createScanDocumentForWebsite env.fnv1a websiteId scanType frequency
        priority) := by
  have hI : ∀ item, True → ∀ n,
      shape env.fnv1a (fun _ => True) .scanMetadata (svc.stamp n item) := fun _ _ _ => trivial
  unfold WebsiteScanProvider.createScanDocumentForWebsite WebsiteScanProvider.normalizeDbDocument
  refine (Program.guarantees_perform trivial).bind fun (guid : V6Guid) _ => ?_
  rw [normalizeBucketed_eq env.fnv1a rfl, pure_bind]
  exact (keepsShape_writeDocument hI (get_bucketed_partitionKey (by simp) (by simp)) trivial
    true).bind fun _ _ => trivial

/-- A scan request reads a website and writes a scan, of which nothing is asked here. -/
theorem keeps_postWebsiteScan (context : Context) :
    (ApiRequest.mk .postWebsiteScan context).Keeps env svc (fun _ => True) := by
  refine keeps_serve fun haccepted => ?_
  refine (keeps_ofExcept _).bind fun websiteId _ => ?_
  refine Program.Guarantees.bind (Q := fun _ => True) ?_ fun website _ => ?_
  · refine (keepsShape_readItem _ _ false).bind fun _ _ => ?_
    split
    · trivial
    split <;> trivial
  split
  · trivial
  · refine (keeps_ofExcept _).bind fun _ _ => (keeps_ofExcept _).bind fun _ _ => ?_
    refine (keeps_ofExcept _).bind fun _ _ => ?_
    exact (keeps_createScanDocumentForWebsite _ _ _ _).bind fun _ _ =>
      (keeps_ofExcept _).bind fun _ _ => trivial

/-- Every request keeps the shape of the websites and pages. -/
theorem keeps_request (hnewId : ∀ n, isValidV6Guid (svc.newId n) = false) (r : ApiRequest) :
    r.Keeps env svc fun _ => True := by
  obtain ⟨endpoint, context⟩ := r
  cases endpoint with
  | postWebsite => exact keeps_postWebsite hnewId context
  | getWebsite => exact keeps_getWebsite context
  | postWebsiteScan => exact keeps_postWebsiteScan context
  | getWebsiteScan => exact keeps_getWebsiteScan context
  | postPage => exact keeps_postPage context

/-- **Every run keeps the shape** of the websites and pages, whatever is requested and
whatever fails. -/
theorem Reaches.shaped (hnewId : ∀ n, isValidV6Guid (svc.newId n) = false)
    {Admitted : World → ApiRequest → Prop} {w₀ w : World}
    (h : Reaches env svc Admitted w₀ w) (h₀ : w₀.Shaped svc (shape env.fnv1a fun _ => True)) :
    w.Shaped svc (shape env.fnv1a fun _ => True) :=
  h.invariant _ _ h₀ fun _ r _ hw => shaped_run (keeps_request hnewId r) hw

/-- A world that requests lead to, once the storage works. -/
theorem Reaches.shaped_faultless (hnewId : ∀ n, isValidV6Guid (svc.newId n) = false)
    {guids : ℕ → V6Guid} {faults : List (Option Fault)} {w : World}
    (h : Reaches env svc (fun _ _ => True) { World.empty guids with faults := faults } w) :
    w.faultless.Shaped svc (shape env.fnv1a fun _ => True) :=
  (h.shaped hnewId (World.shaped_empty guids faults)).faultless

end WebInsights.StorageApi
