/-
What becomes of the known pages of a website under `updateWebsite`.

`mergeOrWriteDocument` asks the customizer of websites with the update first and the
stored value second, so the pages of the update come before the stored ones, and a
website that is stored without known pages makes the customizer throw. What is promised
is the other order: the pages that are known, and then the new ones. The two agree as
long as every list of an update begins like what is known, or goes on from it (`Grows`).
-/
import WebInsights.Data.FirstOccurrences
import WebInsights.StorageApi.WebsiteRuns

set_option autoImplicit false

namespace WebInsights.StorageApi

open Common Cosmos CosmosContainerClient Effect Js Providers FirstOccurrences

/-! ## Lists of known pages -/

/-- The known pages of a website or of an update, which may have none. -/
abbrev Known : Type := Option (List String)

/-- The known pages that are promised after the updates: the first occurrences in the first
list and the lists of the updates, one after the other. -/
def promised (known : Known) (updates : List Known) : Known :=
  if (known :: updates).filterMap id = [] then none
  else some ((known :: updates).filterMap id).flatten.eraseDups

/-- The list of an update begins like the known pages, or goes on from them. -/
def Continues (known pages : Known) : Prop :=
  ∀ us, pages = some us → ∃ ks, known = some ks ∧ (us.eraseDups <+: ks ∨ ks <+: us.eraseDups)

/-- **Updates under which the known pages grow**: nothing is known twice at first, and every
update continues what is known by then. -/
structure Grows (known : Known) (updates : List Known) : Prop where
  distinct : ∀ ks, known = some ks → ks.Nodup
  continues : ∀ before pages after, updates = before ++ pages :: after →
    Continues (promised known before) pages

/-- The known pages an update leaves; none, if it throws. -/
def updateKnown : Known → Known → Option Known
  | known, none => some known
  | some ks, some us => some (some (us ++ ks).eraseDups)
  | none, some _ => none

/-- The known pages after the updates, if none of them throws. -/
def knownAfter (known : Known) (updates : List Known) : Option Known :=
  updates.foldlM updateKnown known

section

variable {known pages : Known} {updates : List Known}

theorem promised_nil (known : Known) : promised known [] = known.map List.eraseDups := by
  cases known with
  | none => rfl
  | some ks => simp [promised]

theorem promised_append_none (known : Known) (updates : List Known) :
    promised known (updates ++ [none]) = promised known updates := by
  have hlists : (known :: (updates ++ [none])).filterMap id =
      (known :: updates).filterMap id := by
    rw [← List.cons_append, List.filterMap_append]
    simp
  rw [promised, promised, hlists]

theorem promised_append_some (known : Known) (updates : List Known) (us : List String) :
    promised known (updates ++ [some us]) =
      some ((promised known updates).getD [] ++ us).eraseDups := by
  have hlists : (known :: (updates ++ [some us])).filterMap id =
      (known :: updates).filterMap id ++ [us] := by
    rw [← List.cons_append, List.filterMap_append]
    simp
  rw [promised, promised, hlists, if_neg (by simp), List.flatten_append, List.flatten_singleton]
  by_cases hnone : (known :: updates).filterMap id = []
  · rw [if_pos hnone, hnone]
    rfl
  · rw [if_neg hnone, Option.getD_some, eraseDups_append_left]

/-- What is promised has no repetition. -/
theorem nodup_promised {ks : List String} (h : promised known updates = some ks) : ks.Nodup := by
  rw [promised] at h
  split_ifs at h
  rw [← Option.some.inj h]
  exact nodup_eraseDups _

theorem grows_nil : Grows known [] ↔ ∀ ks, known = some ks → ks.Nodup := by
  refine ⟨fun h => h.distinct, fun h => ⟨h, fun before pages after hsplit => ?_⟩⟩
  exact absurd hsplit (by simp)

theorem grows_append_singleton :
    Grows known (updates ++ [pages]) ↔
      Grows known updates ∧ Continues (promised known updates) pages := by
  constructor
  · intro h
    refine ⟨⟨h.distinct, fun before us after hsplit => ?_⟩, h.continues updates pages [] rfl⟩
    apply h.continues before us (after ++ [pages])
    rw [hsplit, List.append_assoc, List.cons_append]
  · rintro ⟨h, hlast⟩
    refine ⟨h.distinct, fun before us after hsplit => ?_⟩
    rcases List.eq_nil_or_concat after with rfl | ⟨after, last, rfl⟩
    · -- the update in question is the last one
      obtain ⟨rfl, hpages⟩ := List.append_inj' hsplit rfl
      cases hpages
      exact hlast
    · rw [List.concat_eq_append, ← List.cons_append, ← List.append_assoc] at hsplit
      exact h.continues before us after (List.append_inj' hsplit rfl).1

/-- One more update keeps the promise exactly if it continues what is known. -/
theorem updateKnown_eq_promised_iff :
    updateKnown (promised known updates) pages = some (promised known (updates ++ [pages])) ↔
      Continues (promised known updates) pages := by
  cases pages with
  | none =>
    rw [promised_append_none]
    exact ⟨fun _ us h => (nomatch h), fun _ => by cases promised known updates <;> rfl⟩
  | some us =>
    rw [promised_append_some]
    rcases hks : promised known updates with _ | ks
    · constructor
      · intro h
        cases h
      · intro h
        obtain ⟨ks, hks', -⟩ := h us rfl
        cases hks'
    · rw [updateKnown, Option.some_inj, Option.some_inj, Option.getD_some,
        eraseDups_append_comm_iff (nodup_promised hks)]
      constructor
      · intro h us' hus'
        cases hus'
        exact ⟨ks, rfl, h⟩
      · intro h
        obtain ⟨ks', hks', hprefix⟩ := h us rfl
        cases hks'
        exact hprefix

/-- **The promise is kept after every update exactly if the known pages grow.** The induction
is on the last update, where both sides ask one thing more. -/
theorem knownAfter_eq_promised_iff (known : Known) (updates : List Known) :
    (∀ before, before <+: updates → knownAfter known before = some (promised known before)) ↔
      Grows known updates := by
  induction updates using List.reverseRecOn with
  | nil =>
    rw [grows_nil]
    have hnil : knownAfter known [] = some (promised known []) ↔
        ∀ ks, known = some ks → ks.Nodup := by
      rw [promised_nil]
      cases known with
      | none => exact ⟨fun _ ks h => (nomatch h), fun _ => rfl⟩
      | some ks =>
        show some (some ks) = some (some ks.eraseDups) ↔ _
        rw [Option.some_inj, Option.some_inj, eq_comm, eraseDups_eq_self_iff]
        exact ⟨fun h _ e => Option.some.inj e ▸ h, fun h => h ks rfl⟩
    rw [← hnil]
    constructor
    · exact fun h => h [] List.nil_prefix
    · intro h before hbefore
      rw [List.prefix_nil.mp hbefore]
      exact h
  -- only the last update is new, and the others are as promised
  | append_singleton updates pages ih =>
    rw [grows_append_singleton, ← ih]
    have hlast : knownAfter known updates = some (promised known updates) →
        (knownAfter known (updates ++ [pages]) = some (promised known (updates ++ [pages])) ↔
          Continues (promised known updates) pages) := by
      intro hbefore
      rw [← updateKnown_eq_promised_iff, knownAfter, List.foldlM_append, ← knownAfter, hbefore]
      simp
    constructor
    · intro h
      refine ⟨fun before hbefore => h before (hbefore.trans (List.prefix_append _ _)), ?_⟩
      rw [← hlast (h updates (List.prefix_append _ _))]
      exact h _ (List.prefix_refl _)
    · rintro ⟨h, hcontinues⟩ before hbefore
      rcases List.prefix_concat_iff.mp hbefore with rfl | hbefore
      · exact (hlast (h updates (List.prefix_refl _))).mpr hcontinues
      · exact h before hbefore

end

/-! ## Websites with known pages -/

/-- What is stored as the known pages. -/
def knownValue : Known → Val
  | none => .undefined
  | some us => .arr (strings us)

theorem knownValue_toJson (known : Known) : (knownValue known).toJson = knownValue known := by
  cases known with
  | none => rfl
  | some us => exact toJson_strings us

theorem normalizeValue_knownValue (known : Known) :
    normalizeValue (knownValue known) = knownValue known := by
  cases known <;> rfl

/-- A `Partial<Website>`, of which no value is nested. It may name no id and no known pages,
and if it names a partition key, then that of the websites. -/
structure PartialWebsite where
  fields : Fields
  pages : Known
  wf : (Val.obj fields).Wf
  flat : ∀ p ∈ fields, Flat p.2
  partitionKey : "partitionKey" ∈ Fields.keys fields →
    Fields.get fields "partitionKey" = .str websiteDocuments
  knownPages : Fields.get fields "knownPages" = knownValue pages
  omitted : pages = none → "knownPages" ∉ Fields.keys fields

namespace PartialWebsite

variable (website : PartialWebsite) (v : Scalar)

theorem wf_doc : (Val.obj (websiteDoc website.fields (.scalar v))).Wf :=
  Val.wf_spread ⟨by simp, trivial, trivial, trivial, trivial⟩ (Val.wfFields_iff.mp website.wf.2)

theorem get_doc (k : String) :
    Fields.get (websiteDoc website.fields (.scalar v)) k =
      if k ∈ Fields.keys website.fields then Fields.get website.fields k
      else Fields.get [("id", .scalar v), ("itemType", .str ItemType.website.name),
        ("partitionKey", .str websiteDocuments)] k := by
  unfold websiteDoc
  rw [Fields.get_spread website.wf.1]

theorem get_doc_partitionKey :
    Fields.get (websiteDoc website.fields (.scalar v)) "partitionKey" = .str websiteDocuments := by
  rw [get_doc]
  split_ifs with hk
  · exact website.partitionKey hk
  · rfl

theorem get_doc_id {id : String} (hid : Fields.get website.fields "id" = .str id) :
    Fields.get (websiteDoc website.fields (.scalar v)) "id" = .str id := by
  rw [get_doc, if_pos, hid]
  by_contra hk
  rw [Fields.get_eq_undefined_of_notMem hk] at hid
  cases hid

theorem get_doc_knownPages :
    Fields.get (websiteDoc website.fields (.scalar v)) "knownPages" =
      knownValue website.pages := by
  rw [get_doc]
  split_ifs with hk
  · exact website.knownPages
  · rw [← website.knownPages, Fields.get_eq_undefined_of_notMem hk]
    rfl

theorem mem_keys_doc : "knownPages" ∈ Fields.keys (websiteDoc website.fields (.scalar v)) ↔
    website.pages ≠ none := by
  have hkeys : "knownPages" ∈ Fields.keys (websiteDoc website.fields (.scalar v)) ↔
      "knownPages" ∈ Fields.keys website.fields := by
    unfold websiteDoc
    rw [Fields.mem_keys_spread]
    exact or_iff_left (by simp)
  rw [hkeys]
  constructor
  · exact fun hk hnone => website.omitted hnone hk
  · intro hsome
    by_contra hk
    have hget := website.knownPages
    rw [Fields.get_eq_undefined_of_notMem hk] at hget
    rcases hpages : website.pages with _ | us
    · exact hsome hpages
    · rw [hpages] at hget
      cases hget

theorem flat_doc {p : String × Val} (hp : p ∈ websiteDoc website.fields (.scalar v)) :
    Flat p.2 := by
  rw [← Fields.get_eq_of_mem (website.wf_doc v).1 hp, get_doc]
  split_ifs with hk
  · exact website.flat _ (Fields.mem_of_mem_keys hk)
  · simp only [Fields.get_cons, Fields.get_nil]
    split_ifs <;> trivial

end PartialWebsite

/-! ## The merge of a website -/

/-- There is nothing to iterate where no pages are stored. -/
theorem mergeCustomizer_noPages (us : List String) :
    mergeCustomizer (some WebsiteProvider.mergeKnownPages) .undefined (.arr (strings us))
      "knownPages" = .error (.typeError "object is not iterable") := by
  refine mergeCustomizer_of_throw ?_
  rw [WebsiteProvider.mergeKnownPages, if_pos rfl]
  rfl

/-- The cell of the known pages, where the update has any. -/
theorem mergeValue_pages {known known' pages : Known} (hsome : pages ≠ none)
    (hknown' : updateKnown known pages = some known') :
    mergeValue (mergeCustomizer (some WebsiteProvider.mergeKnownPages)) "knownPages"
      (knownValue known) (knownValue pages) = .ok (knownValue known') := by
  rcases pages with _ | us
  · exact absurd rfl hsome
  · rcases known with _ | ks
    · cases hknown'
    · rw [← Option.some.inj hknown']
      exact mergeValue_of_custom (mergeCustomizer_pages ks us) nofun

section

variable {S : Document} {known : Known} (hS : S.get "knownPages" = knownValue known)
  (website : PartialWebsite) (v : Scalar)

include hS

theorem exists_merged {known' : Known} (hknown' : updateKnown known website.pages = some known') :
    ∃ merged, mergedDocument S.val (websiteDoc website.fields (.scalar v))
        (some WebsiteProvider.mergeKnownPages) = .ok merged ∧
      Fields.get merged "knownPages" = knownValue known' := by
  have hnd := (website.wf_doc v).1
  have hSget : Fields.get S.fields "knownPages" = knownValue known := hS
  -- no cell throws: known pages are merged by their own rule, the rest is left alone
  have hcells : ∀ p ∈ websiteDoc website.fields (.scalar v), ∃ r,
      mergeValue (mergeCustomizer (some WebsiteProvider.mergeKnownPages)) p.1
        (Fields.get S.fields p.1) p.2 = .ok r := by
    intro p hp
    by_cases hk : p.1 = "knownPages"
    · have hsome := (website.mem_keys_doc v).mp (hk ▸ Fields.mem_keys_of_mem hp)
      have hget := Fields.get_eq_of_mem hnd hp
      rw [hk, website.get_doc_knownPages] at hget
      rw [hk, hSget, ← hget]
      exact ⟨_, mergeValue_pages hsome hknown'⟩
    · exact exists_mergeValue_leftAlone hk (website.flat_doc v hp) _
  obtain ⟨merged, hmerged⟩ := exists_merged_of_cells hnd hcells
  refine ⟨merged, hmerged, ?_⟩
  by_cases hsome : website.pages = none
  · rw [hsome] at hknown'
    have hk : "knownPages" ∉ Fields.keys (websiteDoc website.fields (.scalar v)) := fun h =>
      (website.mem_keys_doc v).mp h hsome
    rw [get_merged_of_notMem hnd hmerged hk, hSget, normalizeValue_knownValue]
    cases known with
    | none => rw [← Option.some.inj hknown']
    | some ks => rw [← Option.some.inj hknown']
  · obtain ⟨r, hr, hget⟩ := get_merged_of_mem hnd hmerged ((website.mem_keys_doc v).mpr hsome)
    rw [hSget, website.get_doc_knownPages, mergeValue_pages hsome hknown'] at hr
    rw [hget, ← Except.ok.inj hr]
    rcases hus : known' with _ | us
    · -- a merge of known pages leaves a list
      rcases hus' : website.pages with _ | us'
      · exact absurd hus' hsome
      · rw [hus, hus'] at hknown'
        cases known <;> cases hknown'
    · rfl

theorem merged_throws (hnone : updateKnown known website.pages = none) :
    ∃ e, mergedDocument S.val (websiteDoc website.fields (.scalar v))
      (some WebsiteProvider.mergeKnownPages) = .error e := by
  have hSget : Fields.get S.fields "knownPages" = knownValue known := hS
  rcases hus : website.pages with _ | us
  · rw [hus] at hnone
    cases known <;> cases hnone
  · rcases hks : known with _ | ks
    · have hmem := (website.mem_keys_doc v).mpr (by rw [hus]; nofun)
      -- the only update that throws has pages for a website without any
      have herror : mergeValue (mergeCustomizer (some WebsiteProvider.mergeKnownPages))
          "knownPages" (Fields.get S.fields "knownPages")
          (Fields.get (websiteDoc website.fields (.scalar v)) "knownPages") =
          .error (.typeError "object is not iterable") := by
        rw [hSget, website.get_doc_knownPages, hks, hus]
        exact mergeValue_of_custom_error (mergeCustomizer_noPages us)
      obtain ⟨e, he⟩ := (mergeFields_error_iff (website.wf_doc v).1).mpr
        ⟨_, Fields.mem_of_mem_keys hmem, _, herror⟩
      refine ⟨e, ?_⟩
      rw [Document.val, mergedDocument_obj, he]
      rfl
    · rw [hus, hks] at hnone
      cases hnone

end

/-! ## The stores that are reached -/

/-- The stores that calls of the provider lead to, one after the other, whatever fails. -/
inductive Saved (svc : Service) (w₀ : World) : World → Prop
  | refl : Saved svc w₀ w₀
  | create {w : World} (hw : Saved svc w₀ w) (website : PartialWebsite) :
      Saved svc w₀ ((WebsiteProvider.createWebsite website.fields).run (World.handle svc) w).2
  | update {w : World} (hw : Saved svc w₀ w) (website : PartialWebsite) :
      Saved svc w₀ ((WebsiteProvider.updateWebsite website.fields).run (World.handle svc) w).2
  | delete {w : World} (hw : Saved svc w₀ w) (websiteId : String) :
      Saved svc w₀ ((WebsiteProvider.deleteWebsite websiteId).run (World.handle svc) w).2

/-- The known pages of every stored website are a list of urls, or there are none. -/
def knownShape : Container → Document → Prop
  | .websiteData, d => ∃ known, d.get "knownPages" = knownValue known
  | .scanMetadata, _ => True

/-- An item that keeps it so. -/
def KnownItem (item : Fields) : Prop := ∃ known, Fields.get item "knownPages" = knownValue known

section

variable {svc : Service}

theorem KnownItem.shape {item : Fields} (h : KnownItem item) (n : ℕ) :
    knownShape .websiteData (svc.stamp n item) := by
  obtain ⟨known, hknown⟩ := h
  refine ⟨known, ?_⟩
  rw [svc.get_stamp_of_ne_id n item (by decide) (by decide) (by decide), hknown,
    knownValue_toJson]

theorem knownItem_merged (website : PartialWebsite) {id item : Val} {pk : String}
    (hitem : FoundOf knownShape .websiteData id (.str pk) item) {merged : Fields}
    (hmerged : mergedDocument item (websiteDoc website.fields .undefined)
      (some WebsiteProvider.mergeKnownPages) = .ok merged) :
    KnownItem (CosmosClientWrapper.assignPartitionKey merged (.str pk)) := by
  unfold KnownItem
  rw [CosmosClientWrapper.get_assignPartitionKey_ne (by decide)]
  rcases hitem with rfl | ⟨S, ⟨known, hS⟩, -, rfl⟩
  · rw [mergedDocument_undefined_eq_nil hmerged]
    exact ⟨none, rfl⟩
  · rcases hknown : updateKnown known website.pages with _ | known'
    · obtain ⟨e, he⟩ := merged_throws hS website .undefined hknown
      rw [hmerged] at he
      cases he
    · obtain ⟨merged', hmerged', hget⟩ := exists_merged hS website .undefined hknown
      rw [hmerged] at hmerged'
      cases hmerged'
      exact ⟨known', hget⟩

theorem keeps_updateWebsite (website : PartialWebsite) :
    KeepsShape svc knownShape (fun _ => True)
      (WebsiteProvider.updateWebsite website.fields) := by
  have hpk := website.get_doc_partitionKey .undefined
  have heff : effectivePartitionKey (websiteDoc website.fields .undefined)
      (Fields.get (websiteDoc website.fields .undefined) "partitionKey") =
      .str websiteDocuments := by
    rw [hpk]
    rfl
  have hmerge := @keepsShape_mergeOrWriteDocument svc knownShape .websiteData KnownItem
    (fun item h n => h.shape n) _ _ _ hpk heff (some WebsiteProvider.mergeKnownPages)
    ⟨_, website.get_doc_knownPages .undefined⟩
    (fun item merged hitem hmerged => knownItem_merged website hitem hmerged) true
  unfold WebsiteProvider.updateWebsite WebsiteProvider.normalizeDbDocument
  split_ifs with hid
  · trivial
  · exact hmerge.bind fun _ _ => trivial

theorem keeps_createWebsite (website : PartialWebsite) :
    KeepsShape svc knownShape (fun _ => True)
      (WebsiteProvider.createWebsite website.fields) := by
  unfold WebsiteProvider.createWebsite
  refine (Program.guarantees_perform trivial).bind fun (guid : V6Guid) _ => ?_
  have hnormalize : WebsiteProvider.normalizeDbDocument website.fields (.str guid.text) =
      pure (websiteDoc website.fields (.str guid.text)) := if_neg fun h => nomatch h.1
  rw [hnormalize, pure_bind]
  have hwrite := @keepsShape_writeDocument svc knownShape .websiteData KnownItem
    (fun item h n => h.shape n) _ _ (website.get_doc_partitionKey (.str guid.text))
    ⟨_, website.get_doc_knownPages (.str guid.text)⟩ true
  exact hwrite.bind fun _ _ => trivial

/-- **Every stored website has a list of known pages or none.** -/
theorem Saved.shaped {w₀ w : World} (h : Saved svc w₀ w) (h₀ : w₀.Shaped svc knownShape) :
    w.Shaped svc knownShape := by
  induction h with
  | refl => exact h₀
  | create _ website ih => exact shaped_run (keeps_createWebsite website) ih
  | update _ website ih => exact shaped_run (keeps_updateWebsite website) ih
  | delete _ websiteId ih =>
    rw [WebsiteProvider.deleteWebsite, run_deleteDocument_world]
    exact ih.handle_delete _ _ _

end

/-! ## Updates one after the other -/

/-- Every update is awaited before the next one is made. -/
def updateInOrder : List PartialWebsite → Async Unit
  | [] => pure ()
  | website :: websites => do
    let _ ← WebsiteProvider.updateWebsite website.fields
    updateInOrder websites

/-- The website with the id is stored with these known pages, and nothing is to fail. -/
structure StoredKnown (w : World) (id : String) (known : Known) : Prop where
  faults : w.faults = []
  stored : ∃ S, storedWebsite w id = some S ∧ S.get "knownPages" = knownValue known ∧
    ∃ etag, S.get "_etag" = .str etag

section

variable {svc : Service} {id : String} (hidne : id ≠ "") {website : PartialWebsite}

theorem updateWebsite_eq (hid : Fields.get website.fields "id" = .str id) :
    WebsiteProvider.updateWebsite website.fields = (do
      let response ← mergeOrWriteDocument .websiteData (websiteDoc website.fields .undefined)
        (.str websiteDocuments) true (some WebsiteProvider.mergeKnownPages)
      pure response.item) := by
  have hnormalize : WebsiteProvider.normalizeDbDocument website.fields .undefined =
      pure (websiteDoc website.fields .undefined) := if_neg fun h => by
    rw [hid] at h
    cases h.2
  rw [WebsiteProvider.updateWebsite, hnormalize, pure_bind, website.get_doc_partitionKey]

theorem run_updateWebsite_throws {w : World} {known : Known} (h : StoredKnown w id known)
    (hid : Fields.get website.fields "id" = .str id)
    (hnone : updateKnown known website.pages = none) :
    ∃ e, (WebsiteProvider.updateWebsite website.fields).run (World.handle svc) w =
      (.error e, w) := by
  obtain ⟨S, hS, hknown, -⟩ := h.stored
  obtain ⟨e, he⟩ := merged_throws hknown website .undefined hnone
  refine ⟨e, ?_⟩
  have hdocid := website.get_doc_id .undefined hid
  have heff : effectivePartitionKey (websiteDoc website.fields .undefined)
      (.str websiteDocuments) = .str websiteDocuments := rfl
  have hfind : (w.repo .websiteData).find (.str websiteDocuments, .str id) = some S := hS
  have hmerge : (mergeOrWriteDocument .websiteData (websiteDoc website.fields .undefined)
      (.str websiteDocuments) true (some WebsiteProvider.mergeKnownPages)).run
      (World.handle svc) w = (.error e, w) := by
    rw [mergeOrWriteDocument_eq (by rw [hdocid]; nofun) (by rw [heff]; nofun), heff, hdocid,
      World.run_request_bind, World.handle_faultless svc h.faults,
      Collection.serve_read_some svc hfind, World.withRepo_eq_self, readResponse,
      Program.ofExcept_ok, pure_bind, mergeOrWrite_throws (by simp) he, Program.run_throw]
  rw [updateWebsite_eq hid, Program.run_bind_error _ hmerge]

include hidne

/-- One update that does not throw stores what it leaves known. -/
theorem run_updateWebsite {w : World} {known known' : Known} (h : StoredKnown w id known)
    (hid : Fields.get website.fields "id" = .str id)
    (hknown' : updateKnown known website.pages = some known') :
    ∃ v w', (WebsiteProvider.updateWebsite website.fields).run (World.handle svc) w =
      (.ok v, w') ∧ StoredKnown w' id known' := by
  obtain ⟨S, hS, hknown, etag, hetag⟩ := h.stored
  obtain ⟨merged, hmerged, hget⟩ := exists_merged hknown website .undefined hknown'
  have hleave : ∀ k ∈ ["id", "partitionKey", "_etag"],
      LeavesAlone (some WebsiteProvider.mergeKnownPages) k := by
    intro k hk
    apply mergeKnownPages_leavesAlone
    rintro rfl
    exact absurd hk (by decide)
  have heff : effectivePartitionKey (websiteDoc website.fields .undefined)
      (.str websiteDocuments) = .str websiteDocuments := rfl
  obtain ⟨hrun, hkey⟩ := @run_mergeOrWriteDocument_found svc .websiteData w h.faults _
    (website.wf_doc .undefined) _ _ _ _ _ hidne (website.get_doc_id .undefined hid) heff
    (website.get_doc_partitionKey .undefined) hleave S hS hetag merged hmerged true
  refine ⟨(svc.stamp (w.repo .websiteData).writes merged).val, w.store svc .websiteData merged,
    ?_, ?_⟩
  · rw [updateWebsite_eq hid, Program.run_bind_ok _ hrun, Program.run_pure]
  · refine ⟨h.faults, svc.stamp (w.repo .websiteData).writes merged, ?_, ?_, _,
      svc.get_stamp_etag _ _⟩
    · rw [storedWebsite, websiteKey, ← hkey, World.store_repo_self, Collection.find_put_self]
    · rw [svc.get_stamp_of_ne_id _ _ (by decide) (by decide) (by decide), hget,
        knownValue_toJson]

/-- **Updates one after the other** store what they leave known, if none throws, and end with
an exception otherwise. -/
theorem run_updateInOrder {w : World} {known : Known} (h : StoredKnown w id known)
    (websites : List PartialWebsite)
    (hids : ∀ website ∈ websites, Fields.get website.fields "id" = .str id) :
    match knownAfter known (websites.map PartialWebsite.pages) with
    | some known' => ∃ w', (updateInOrder websites).run (World.handle svc) w = (.ok (), w') ∧
        StoredKnown w' id known'
    | none => ∃ e w', (updateInOrder websites).run (World.handle svc) w = (.error e, w') := by
  induction websites generalizing w known with
  | nil => exact ⟨w, rfl, h⟩
  | cons website websites ih =>
    have hid := hids website List.mem_cons_self
    have hrest := fun website h => hids website (List.mem_cons_of_mem _ h)
    rw [List.map_cons, knownAfter, List.foldlM_cons, updateInOrder]
    rcases hknown : updateKnown known website.pages with _ | known'
    · obtain ⟨e, he⟩ := @run_updateWebsite_throws svc id _ w _ h hid hknown
      exact ⟨e, w, Program.run_bind_error _ he⟩
    · obtain ⟨v, w', hrun, h'⟩ := @run_updateWebsite svc id hidne _ w _ _ h hid hknown
      rw [Program.run_bind_ok _ hrun]
      exact ih h' hrest

end

/-! ## What is promised, and when it is kept -/

theorem knownValue_injective : Function.Injective knownValue := by
  intro a b h
  cases a with
  | none => cases b with
    | none => rfl
    | some bs => cases h
  | some as => cases b with
    | none => cases h
    | some bs => rw [strings_injective (Val.arr.inj h)]

/-- The promise is kept by the updates so far. -/
def KeepsPromise (svc : Service) (w : World) (id : String) (known : Known)
    (before : List PartialWebsite) : Prop :=
  ∃ w' D, (updateInOrder before).run (World.handle svc) w = (.ok (), w') ∧
    storedWebsite w' id = some D ∧
    D.get "knownPages" = knownValue (promised known (before.map PartialWebsite.pages))

theorem keepsPromise_iff {svc : Service} {id : String} (hidne : id ≠ "") {w : World}
    {known : Known} (h : StoredKnown w id known) {before : List PartialWebsite}
    (hids : ∀ website ∈ before, Fields.get website.fields "id" = .str id) :
    KeepsPromise svc w id known before ↔
      knownAfter known (before.map PartialWebsite.pages) =
        some (promised known (before.map PartialWebsite.pages)) := by
  have hrun := @run_updateInOrder svc id hidne w known h before hids
  -- a run that throws keeps no promise
  rcases hafter : knownAfter known (before.map PartialWebsite.pages) with _ | known'
  · rw [hafter] at hrun
    obtain ⟨e, w', hrun⟩ := hrun
    constructor
    · rintro ⟨w'', D, hok, -⟩
      rw [hrun] at hok
      cases hok
    · intro hsome
      cases hsome
  · rw [hafter] at hrun
    obtain ⟨w', hrun, hstored⟩ := hrun
    obtain ⟨D, hD, hknown, -⟩ := hstored.stored
    rw [Option.some_inj]
    constructor
    · rintro ⟨w'', D', hok, hD', hkept⟩
      rw [hrun] at hok
      cases hok
      rw [hD] at hD'
      cases hD'
      exact knownValue_injective (hknown.symm.trans hkept)
    · intro hsame
      exact ⟨w', D, hrun, hD, hsame ▸ hknown⟩

/-- **The known pages only grow, in their order**, in every store that calls of the provider
lead to, under every updates of a stored website that are made one after the other and do not
fail: what is known, and then what the updates add. This is so after every one of them exactly
if the known pages grow. -/
theorem updateWebsite_grows_iff (svc : Service) {guids : ℕ → V6Guid}
    {faults : List (Option Fault)} {w : World}
    (hw : Saved svc { World.empty guids with faults := faults } w) {id : String}
    (hidne : id ≠ "") {S : Document} (hS : storedWebsite w id = some S) :
    ∃ known, S.get "knownPages" = knownValue known ∧
      ∀ websites : List PartialWebsite,
        (∀ website ∈ websites, Fields.get website.fields "id" = .str id) →
        ((∀ before, before <+: websites → KeepsPromise svc w.faultless id known before) ↔
          Grows known (websites.map PartialWebsite.pages)) := by
  have hshaped := hw.shaped (World.shaped_empty guids faults)
  have hmem := (Collection.find_eq_some_iff.mp hS).1
  obtain ⟨known, hknown⟩ := hshaped.shape .websiteData S hmem
  obtain ⟨n, -, hetag⟩ := hshaped.stamped .websiteData S hmem
  have hstored : StoredKnown w.faultless id known := ⟨rfl, S, hS, hknown, _, hetag⟩
  refine ⟨known, hknown, fun websites hids => ?_⟩
  rw [← knownAfter_eq_promised_iff]
  constructor
  · intro h before hbefore
    -- the first lists are those of the first updates
    have htake : before = (websites.take before.length).map PartialWebsite.pages := by
      rw [List.map_take]
      exact List.prefix_iff_eq_take.mp hbefore
    rw [htake]
    refine (keepsPromise_iff hidne hstored fun website hmem => ?_).mp
      (h _ (List.take_prefix _ _))
    exact hids website (List.mem_of_mem_take hmem)
  · intro h before hbefore
    refine (keepsPromise_iff hidne hstored fun website hmem => ?_).mpr (h _ (hbefore.map _))
    exact hids website (hbefore.subset hmem)

/-- An update of the website `w` with known pages, or with none. -/
def PartialWebsite.sample (pages : Known) : PartialWebsite where
  fields := ("id", .str "w") :: pages.elim [] fun us => [("knownPages", .arr (strings us))]
  pages := pages
  wf := by
    cases pages with
    | none => exact ⟨by simp, trivial, trivial⟩
    | some us =>
      refine ⟨by simp, trivial, ?_, trivial⟩
      exact Val.wfElems_iff.mpr fun v hv => by
        obtain ⟨s, -, rfl⟩ := List.mem_map.mp hv
        trivial
  flat := by
    intro p hp
    cases pages with
    | none =>
      obtain rfl := List.mem_singleton.mp hp
      trivial
    | some us =>
      simp only [Option.elim_some, List.mem_cons, List.not_mem_nil, or_false] at hp
      rcases hp with rfl | rfl
      · trivial
      · intro v hv
        obtain ⟨s, -, rfl⟩ := List.mem_map.mp hv
        exact ⟨_, rfl⟩
  partitionKey := by
    intro hk
    cases pages <;> simp at hk
  knownPages := by
    cases pages with
    | none => rfl
    | some us => rfl
  omitted := by
    rintro rfl
    simp

/-- The store after the sample website was written with these pages. -/
def sampleStore (pages : Known) : World :=
  ((WebsiteProvider.updateWebsite (PartialWebsite.sample pages).fields).run
    (World.handle Service.counting) (World.empty V6Guid.sample)).2

/-- Two updates that go on from a page keep the promise. -/
theorem updateWebsite_grows_iff_sample :
    ∃ S, storedWebsite (sampleStore (some ["a"])) "w" = some S ∧
      S.get "knownPages" = knownValue (some ["a"]) ∧
      ∀ before, before <+: [some ["a", "b"], none].map PartialWebsite.sample →
        KeepsPromise Service.counting (sampleStore (some ["a"])).faultless "w" (some ["a"])
          before := by
  have hS : ∃ S, storedWebsite (sampleStore (some ["a"])) "w" = some S ∧
      S.get "knownPages" = knownValue (some ["a"]) := ⟨_, rfl, rfl⟩
  obtain ⟨S, hS, hstored⟩ := hS
  obtain ⟨known, hknown, h⟩ := updateWebsite_grows_iff Service.counting
    (.update .refl (PartialWebsite.sample (some ["a"]))) (by decide) hS
  obtain rfl := knownValue_injective (hknown.symm.trans hstored)
  refine ⟨S, hS, hstored, (h _ fun website hmem => ?_).mpr ?_⟩
  · obtain ⟨pages, -, rfl⟩ := List.mem_map.mp hmem
    rfl
  · change Grows (some ["a"]) (([] ++ [some ["a", "b"]]) ++ [none])
    rw [grows_append_singleton, grows_append_singleton, grows_nil]
    refine ⟨⟨?_, ?_⟩, nofun⟩
    · rintro ks ⟨⟩
      decide
    · rintro us ⟨⟩
      exact ⟨["a"], rfl, Or.inr (by decide)⟩

/-- A new page is put before the one that is stored, and where none are stored, a list of
them is refused. -/
theorem updateWebsite_puts_before :
    (∃ S, storedWebsite (sampleStore (some ["a"])) "w" = some S ∧
      S.get "knownPages" = knownValue (some ["a"]) ∧
      ∃ w' D, (updateInOrder [.sample (some ["b"])]).run (World.handle Service.counting)
          (sampleStore (some ["a"])) = (.ok (), w') ∧
        storedWebsite w' "w" = some D ∧ D.get "knownPages" = knownValue (some ["b", "a"]) ∧
        promised (some ["a"]) [some ["b"]] = some ["a", "b"]) ∧
    (∃ S, storedWebsite (sampleStore none) "w" = some S ∧
      S.get "knownPages" = knownValue none ∧
      ∃ e w', (updateInOrder [.sample (some ["b"])]).run (World.handle Service.counting)
          (sampleStore none) = (.error e, w')) := by
  exact ⟨⟨_, rfl, rfl, _, _, rfl, rfl, rfl, by decide⟩, ⟨_, rfl, rfl, _, _, rfl⟩⟩

end WebInsights.StorageApi
