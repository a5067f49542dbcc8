/-
A POST website request whose storage calls all succeed.

The website is written first (`Written`): as it was posted where nothing is
stored under its id, merged into the stored website otherwise. Then the pages of
the website are queried, and one is created for every known page that has none
(`CreatedPages`). The response is what is stored of both at the end.
-/
import WebInsights.Providers.PartitionRouting
import WebInsights.StorageApi.WebsiteStore

set_option autoImplicit false

namespace WebInsights.StorageApi

open Common Cosmos CosmosContainerClient Effect Js Providers WebApi

variable {env : Environment} {svc : Service}

/-- Where the website with an id is stored. -/
def websiteKey (id : String) : Val × Val := (.str websiteDocuments, .str id)

/-- The stored website. -/
def storedWebsite (w : World) (id : String) : Option Document :=
  (w.repo .websiteData).find (websiteKey id)

/-- The page documents of a website. -/
def pagesOf (w : World) (websiteId : String) : List Document :=
  (w.repo .websiteData).docs.filter fun d =>
    d.get "itemType" = .str ItemType.page.name ∧ d.get "websiteId" = .str websiteId

/-- The next `n` UUIDs are different before the node, from each other and from the ids of
the stored websites and pages. -/
structure Unused (w : World) (n : ℕ) : Prop where
  distinct : ∀ i j, i < j → j < n →
    guidPrefix (w.guids (w.nextGuid + i)).text ≠ guidPrefix (w.guids (w.nextGuid + j)).text
  unused : ∀ d ∈ (w.repo .websiteData).docs, ∀ id, d.get "id" = .str id → ∀ i < n,
    guidPrefix id ≠ guidPrefix (w.guids (w.nextGuid + i)).text

/-- As many UUIDs as a POST website request can draw: one for the website, and one for every
page that is known of it afterwards. -/
def uuidsFor (w : World) (payload : Fields) : ℕ :=
  1 + (arrayTarget (Fields.get payload "knownPages")).length +
    match Fields.get payload "id" with
    | .str id => (storedWebsite w id).elim 0 fun S => (arrayTarget (S.get "knownPages")).length
    | _ => 0

/-- The sample UUIDs are fresh in the empty store. -/
theorem unused_sample {n : ℕ} (hn : n ≤ 4) : Unused (World.empty V6Guid.sample) n := by
  have hdistinct : ∀ j < 4, ∀ i < j, guidPrefix (V6Guid.sample i).text ≠
      guidPrefix (V6Guid.sample j).text := by decide
  refine ⟨fun i j hij hj => ?_, fun d hd => absurd hd List.not_mem_nil⟩
  have h := hdistinct j (by omega) i hij
  simpa [World.empty] using h

/-! ## The website -/

/-- The document `D` that a POST website request stores in `w`, and the document `v` it
goes on with. -/
structure Written (w : World) (payload : Fields) (id : String) (D : Document) (v : Val) :
    Prop where
  key : D.key = websiteKey id
  valid : isValidV6Guid id = true
  /-- The id is the one that was posted; without one it belongs to no stored website. -/
  given : Fields.get payload "id" = .str id ∨
    Fields.get payload "id" = .undefined ∧ storedWebsite w id = none
  object : ∃ fs, v = .obj fs
  copied : ∀ k ∈ websiteProperties, v.get k = D.get k
  /-- A new website has the posted values. -/
  posted : storedWebsite w id = none →
    ∀ k ∈ websiteProperties, k ≠ "id" → D.get k = Fields.get payload k
  /-- A stored website knows the posted pages besides its own. -/
  merged : ∀ S us vs, storedWebsite w id = some S → S.get "knownPages" = .arr (strings us) →
    Fields.get payload "knownPages" = .arr (strings vs) →
    ∃ ks, D.get "knownPages" = .arr (strings ks) ∧ ks.Nodup ∧ ∀ u, u ∈ ks ↔ u ∈ us ∨ u ∈ vs

/-- A stored website has an array of known pages. -/
theorem exists_knownPages {w : World} (hshape : w.Shaped svc (shape env.fnv1a fun _ => True))
    {id : String} {S : Document} (hS : storedWebsite w id = some S)
    (hvalid : isValidV6Guid id = true) : ∃ us, S.get "knownPages" = .arr (strings us) := by
  obtain ⟨hmem, hkey⟩ := Collection.find_eq_some_iff.mp hS
  obtain ⟨hpk, hid⟩ := Prod.mk.inj hkey
  exact (hshape.shape .websiteData S hmem).website hpk id hid hvalid

theorem unused_uuidsFor {w : World} {payload : Fields} (h : Unused w (uuidsFor w payload)) :
    Unused w (1 + (uuidsFor w payload - 1)) := by
  have hpos : 1 + (uuidsFor w payload - 1) = uuidsFor w payload := by
    unfold uuidsFor
    omega
  rwa [hpos]

/-- A website that was written knows at most as many pages as UUIDs are reserved for. -/
theorem Written.length_knownPages {w : World} {payload : Fields} {id : String} {D : Document}
    {v : Val} (h : Written w payload id D v) (hp : WebsitePayload payload)
    (hshape : w.Shaped svc (shape env.fnv1a fun _ => True)) {ks : List String}
    (hks : D.get "knownPages" = .arr (strings ks)) : ks.length ≤ uuidsFor w payload - 1 := by
  obtain ⟨vs, hvs⟩ := hp.knownPages
  have hposted : (arrayTarget (Fields.get payload "knownPages")).length = vs.length := by
    rw [hvs]
    exact List.length_map _
  rcases hS : storedWebsite w id with _ | S
  · -- the known pages are the posted ones
    have hsame := h.posted hS "knownPages" (by decide) (by decide)
    rw [hks, hvs] at hsame
    obtain rfl := strings_injective (Val.arr.inj hsame)
    unfold uuidsFor
    omega
  · -- the known pages are those of either side, each once
    obtain ⟨us, hus⟩ := exists_knownPages hshape hS h.valid
    obtain ⟨ks', hks', hnd, hmem⟩ := h.merged S us vs hS hus hvs
    obtain rfl := strings_injective (Val.arr.inj (hks.symm.trans hks'))
    have hid : Fields.get payload "id" = .str id := h.given.resolve_right fun hnew => by
      rw [hnew.2] at hS
      cases hS
    have hsub : ks ⊆ us ++ vs := fun u hu => List.mem_append.mpr ((hmem u).mp hu)
    have hlength := (List.subperm_of_subset hnd hsub).length_le
    have hstored : (arrayTarget (S.get "knownPages")).length = us.length := by
      rw [hus]
      exact List.length_map _
    unfold uuidsFor
    rw [hid]
    simp only [hS, Option.elim_some]
    rw [List.length_append] at hlength
    omega

section

variable {payload : Fields} (hp : WebsitePayload payload)

include hp

/-- Every property of a website is stored as the document has it. -/
theorem get_stamp_websiteDoc {x : Scalar} {id : String}
    (hid : Fields.get (websiteDoc payload (.scalar x)) "id" = .str id)
    (hvalid : isValidV6Guid id = true) (n : ℕ) {k : String}
    (hk : k ∈ "partitionKey" :: websiteProperties) :
    (svc.stamp n (websiteDoc payload (.scalar x))).get k =
      Fields.get (websiteDoc payload (.scalar x)) k := by
  have hstamps : ∀ k ∈ "partitionKey" :: websiteProperties, k ≠ "_etag" ∧ k ≠ "_ts" := by decide
  rw [svc.get_stamp (not_hasNoId hid (ne_empty_of_valid hvalid)) (hstamps k hk).1
    (hstamps k hk).2]
  by_cases hmem : k ∈ Fields.keys payload
  · rw [get_websiteDoc_of_mem hp hmem]
    exact (Val.isJsonFields_iff.mp hp.json.2 _ (Fields.mem_of_mem_keys hmem)).toJson_eq
  · -- what the provider adds has no parts
    rw [get_websiteDoc_of_notMem hp hmem]
    simp only [Fields.get_cons, Fields.get_nil]
    split_ifs <;> rfl

/-- What is stored of a website that was not there before. -/
theorem Written.of_websiteDoc {w : World} {x : Scalar} {id : String}
    (hgiven : Fields.get payload "id" = .str id ∨ Fields.get payload "id" = .undefined)
    (hid : Fields.get (websiteDoc payload (.scalar x)) "id" = .str id)
    (hvalid : isValidV6Guid id = true) (hnone : storedWebsite w id = none) (n : ℕ) {v : Val}
    (hobject : ∃ fs, v = .obj fs)
    (hv : ∀ k ∈ websiteProperties, v.get k = (svc.stamp n (websiteDoc payload (.scalar x))).get k) :
    Written w payload id (svc.stamp n (websiteDoc payload (.scalar x))) v where
  key := by
    rw [Document.key, get_stamp_websiteDoc hp hid hvalid n (by decide),
      get_stamp_websiteDoc hp hid hvalid n (by decide), hid, get_websiteDoc_partitionKey hp]
    rfl
  valid := hvalid
  given := hgiven.imp_right fun hnew => ⟨hnew, hnone⟩
  object := hobject
  copied := hv
  posted := by
    intro _ k hk hne
    rw [get_stamp_websiteDoc hp hid hvalid n (List.mem_cons_of_mem _ hk)]
    by_cases hmem : k ∈ Fields.keys payload
    · exact get_websiteDoc_of_mem hp hmem _
    · -- what was not posted is not there, unless the provider adds it
      have hprovider : ∀ k ∈ websiteProperties, k ≠ "itemType" ∧ k ≠ "partitionKey" := by decide
      rw [get_websiteDoc_of_notMem hp hmem, Fields.get_eq_undefined_of_notMem hmem,
        Fields.get_cons_ne hne.symm, Fields.get_cons_ne (hprovider k hk).1.symm,
        Fields.get_cons_ne (hprovider k hk).2.symm, Fields.get_nil]
  merged := by
    intro S us vs hS
    rw [hnone] at hS
    cases hS

/-- What is stored of a website that was there: the merge of the two. -/
theorem Written.of_merged {w : World} {id : String} (hid : Fields.get payload "id" = .str id)
    (hvalid : isValidV6Guid id = true) {S : Document} (hS : storedWebsite w id = some S)
    {merged : Fields}
    (hmerged : mergedDocument S.val (websiteDoc payload .undefined)
      (some WebsiteProvider.mergeKnownPages) = .ok merged) (n : ℕ)
    (hkey : (svc.stamp n merged).key = websiteKey id) :
    Written w payload id (svc.stamp n merged) (svc.stamp n merged).val where
  key := hkey
  valid := hvalid
  given := Or.inl hid
  object := ⟨_, rfl⟩
  copied := fun _ _ => rfl
  posted := by
    intro hnone
    rw [hnone] at hS
    cases hS
  merged := by
    intro S' us vs hS' hus hvs
    rw [hS] at hS'
    cases hS'
    -- the two lists of known pages are joined
    obtain ⟨ks, hks, hnd, hmem⟩ := get_merged_knownPages hp hus (wf_websiteDoc hp .undefined)
      hmerged hvs
    refine ⟨ks, ?_, hnd, hmem⟩
    rw [svc.get_stamp_of_ne_id n merged (by decide) (by decide) (by decide), hks, toJson_strings]

theorem get_websiteDoc_etag (v : Val) : Fields.get (websiteDoc payload v) "_etag" = .undefined :=
  Fields.get_eq_undefined_of_notMem fun h => absurd (mem_keys_websiteDoc hp h) (by decide)

/-- A new website is written under the next UUID, which no other website has. -/
theorem run_createOrUpdateWebsite_new {w : World} (hw : w.faults = []) {m : ℕ}
    (hunused : Unused w (1 + m)) (hid : Fields.get payload "id" = .undefined) :
    ∃ id item v,
      (PostWebsiteController.createOrUpdateWebsite (.obj payload)).run (World.handle svc) w =
        (.ok (v, true),
          World.store svc { w with nextGuid := w.nextGuid + 1 } .websiteData item) ∧
      Written w payload id (svc.stamp (w.repo .websiteData).writes item) v := by
  have hvalid := (w.guids w.nextGuid).valid
  have hdocid := get_websiteDoc_id_new hp hid (.str (w.guids w.nextGuid).text)
  have hnone : storedWebsite w (w.guids w.nextGuid).text = none := by
    refine Collection.find_eq_none_iff.mpr fun d hd hkey => ?_
    exact hunused.unused d hd _ (Prod.mk.inj hkey).2 0 (by omega) rfl
  have hnormalize : WebsiteProvider.normalizeDbDocument payload
      (.str (w.guids w.nextGuid).text) =
      pure (websiteDoc payload (.str (w.guids w.nextGuid).text)) := if_neg fun h =>
        Val.str_ne_undefined _ h.1
  have hrun := @run_writeDocument svc .websiteData { w with nextGuid := w.nextGuid + 1 } hw
    (websiteDoc payload (.str (w.guids w.nextGuid).text)) _
    (get_websiteDoc_partitionKey hp _) (get_websiteDoc_etag hp _) true
  refine ⟨(w.guids w.nextGuid).text, websiteDoc payload (.str (w.guids w.nextGuid).text),
    .obj (websiteDoc payload (.str (w.guids w.nextGuid).text)), ?_, ?_⟩
  · unfold PostWebsiteController.createOrUpdateWebsite
    rw [property_obj, Program.ofExcept_ok, pure_bind, if_pos hid, WebsiteProvider.createWebsite,
      bind_assoc, Program.run_bind_ok _ (World.run_uuidV6 svc w), ownFields, hnormalize, pure_bind,
      bind_assoc, Program.run_bind_ok _ hrun, pure_bind, Program.run_pure]
  · refine Written.of_websiteDoc hp (Or.inr hid) hdocid hvalid hnone _ ⟨_, rfl⟩ fun k hk => ?_
    rw [get_stamp_websiteDoc hp hdocid hvalid _ (List.mem_cons_of_mem _ hk), Val.get_obj]

/-- A website with an id is written under it, and merged into the one that is there. -/
theorem run_createOrUpdateWebsite_own {w : World} (hw : w.faults = [])
    (hshape : w.Shaped svc (shape env.fnv1a fun _ => True)) {id : String}
    (hid : Fields.get payload "id" = .str id) (hvalid : isValidV6Guid id = true) :
    ∃ item v,
      (PostWebsiteController.createOrUpdateWebsite (.obj payload)).run (World.handle svc) w =
        (.ok (v, false), World.store svc w .websiteData item) ∧
      Written w payload id (svc.stamp (w.repo .websiteData).writes item) v := by
  have hne : Fields.get payload "id" ≠ .undefined := by
    rw [hid]
    exact Val.str_ne_undefined id
  have hdocid := get_websiteDoc_id_own hp hid .undefined
  have hdocpk := get_websiteDoc_partitionKey hp .undefined
  have heff : effectivePartitionKey (websiteDoc payload .undefined)
      (Fields.get (websiteDoc payload .undefined) "partitionKey") = .str websiteDocuments := by
    rw [hdocpk]
    rfl
  have hnormalize : WebsiteProvider.normalizeDbDocument payload .undefined =
      pure (websiteDoc payload .undefined) := if_neg fun h => hne h.2
  unfold PostWebsiteController.createOrUpdateWebsite
  rw [property_obj, Program.ofExcept_ok, pure_bind, if_neg hne, WebsiteProvider.updateWebsite,
    ownFields, hnormalize, pure_bind, bind_assoc]
  -- it is created under the id it names, or merged into the website there
  rcases hS : storedWebsite w id with _ | S
  · have hsome : Fields.get (websiteDoc payload .undefined) "id" ≠ .undefined := by
      rw [hdocid]
      exact Val.str_ne_undefined id
    have hfind : (w.repo .websiteData).find (.str websiteDocuments,
        Fields.get (websiteDoc payload .undefined) "id") = none := by
      rw [hdocid]
      exact hS
    have hrun := @run_mergeOrWriteDocument_absent svc .websiteData w hw _ _ _
      (some WebsiteProvider.mergeKnownPages) hsome heff hdocpk (get_websiteDoc_etag hp _) hfind true
    refine ⟨websiteDoc payload .undefined, _, ?_,
      Written.of_websiteDoc hp (Or.inl hid) hdocid hvalid hS _ ⟨_, rfl⟩ fun _ _ => rfl⟩
    rw [Program.run_bind_ok _ hrun, pure_bind, Program.run_pure]
    rfl
  · obtain ⟨us, hus⟩ := exists_knownPages hshape hS hvalid
    obtain ⟨merged, hmerged⟩ := exists_mergedWebsite hp hus (wf_websiteDoc hp .undefined) trivial
    obtain ⟨n, -, hSetag⟩ := hshape.stamped .websiteData S (Collection.find_eq_some_iff.mp hS).1
    have hleave : ∀ k ∈ ["id", "partitionKey", "_etag"],
        LeavesAlone (some WebsiteProvider.mergeKnownPages) k := fun k hk =>
      mergeKnownPages_leavesAlone (by rintro rfl; exact absurd hk (by decide))
    obtain ⟨hrun, hkey⟩ := run_mergeOrWriteDocument_found hw (wf_websiteDoc hp .undefined)
      (ne_empty_of_valid hvalid) hdocid heff hdocpk hleave hS hSetag hmerged true
    refine ⟨merged, _, ?_, Written.of_merged hp hid hvalid hS hmerged _ hkey⟩
    rw [Program.run_bind_ok _ hrun, pure_bind, Program.run_pure]

/-- **The website of a POST request** is written under its own id, or under the next UUID. -/
theorem run_createOrUpdateWebsite {w : World} (hw : w.faults = [])
    (hshape : w.Shaped svc (shape env.fnv1a fun _ => True)) {m : ℕ} (hunused : Unused w (1 + m)) :
    ∃ id item v created n, n ≤ 1 ∧
      (PostWebsiteController.createOrUpdateWebsite (.obj payload)).run (World.handle svc) w =
        (.ok (v, created),
          World.store svc { w with nextGuid := w.nextGuid + n } .websiteData item) ∧
      Written w payload id (svc.stamp (w.repo .websiteData).writes item) v := by
  rcases hp.id with hid | ⟨id, hid, hvalid⟩
  · obtain ⟨id, item, v, hrun, hwritten⟩ := run_createOrUpdateWebsite_new hp hw hunused hid
    exact ⟨id, item, v, true, 1, le_rfl, hrun, hwritten⟩
  · -- the next UUID is not drawn
    obtain ⟨item, v, hrun, hwritten⟩ := run_createOrUpdateWebsite_own hp hw hshape hid hvalid
    exact ⟨id, item, v, false, 0, zero_le_one, hrun, hwritten⟩

end

/-! ## The pages -/

/-- A page of a response. -/
def pageObject (d : Document) : Fields := copyProperties d.val pageProperties

theorem convert_val (d : Document) (ks : List String) :
    convert d.val ks = .ok (copyProperties d.val ks) := rfl

/-- Stored pages are converted one by one. -/
theorem convertAll_pages (ds : List Document) :
    convertAll (fun page => Program.ofExcept (createPageApiObject page)) (ds.map Document.val) =
      pure (ds.map pageObject) := by
  induction ds with
  | nil => rfl
  | cons d ds ih =>
    have hne : d.val ≠ .undefined := nofun
    rw [List.map_cons, convertAll, if_neg hne, createPageApiObject, convert_val,
      Program.ofExcept_ok, pure_bind, ih]
    rfl

section

variable {w : World} (hw : w.faults = []) (hshape : w.Shaped svc (shape env.fnv1a fun _ => True))

include hw hshape

/-- The listing of a website has all page documents of the website. -/
theorem run_getPagesForWebsite (websiteId : String) :
    (PageProvider.getPagesForWebsite env.fnv1a websiteId).run (World.handle svc) w =
      (.ok ((pagesOf w websiteId).map Document.val), w) := by
  unfold PageProvider.getPagesForWebsite
  rw [run_getCosmosQueryResultsIterable hw, SqlQuerySpec.results_eq_filter rfl rfl]
  refine congrArg (fun ds => (Except.ok (ds.map Document.val), w)) (List.filter_congr ?_)
  intro d hd
  -- a page that names the website lies in its bucket
  have hbucket := (hshape.shape .websiteData d hd).page websiteId
  rw [Bool.eq_iff_iff, pagesForWebsiteQuery_selects, decide_eq_true_eq]
  constructor
  · rintro ⟨-, hwebsite, htype⟩
    exact ⟨htype, hwebsite⟩
  · rintro ⟨htype, hwebsite⟩
    exact ⟨hbucket hwebsite, hwebsite, htype⟩

theorem run_createWebsiteApiResponse {v : Val} (hv : ∃ fs, v = .obj fs) (websiteId : String) :
    (createWebsiteApiResponse v (PageProvider.getPagesForWebsite env.fnv1a websiteId)).run
        (World.handle svc) w =
      (.ok ⟨copyProperties v websiteProperties, (pagesOf w websiteId).map pageObject⟩, w) := by
  obtain ⟨fs, rfl⟩ := hv
  have hconvert : convert (.obj fs) websiteProperties =
      .ok (copyProperties (.obj fs) websiteProperties) := rfl
  unfold createWebsiteApiResponse
  rw [hconvert, Program.ofExcept_ok, pure_bind,
    Program.run_bind_ok _ (run_getPagesForWebsite hw hshape websiteId), convertAll_pages, pure_bind,
    Program.run_pure]

end

/-- The next `n` UUIDs are different from each other and from the ids of the stored pages. -/
structure PagesUnused (w : World) (n : ℕ) : Prop where
  distinct : ∀ i j, i < j → j < n →
    guidPrefix (w.guids (w.nextGuid + i)).text ≠ guidPrefix (w.guids (w.nextGuid + j)).text
  unused : ∀ d ∈ (w.repo .websiteData).docs, d.get "partitionKey" ≠ .str websiteDocuments →
    ∀ id, d.get "id" = .str id → ∀ i < n,
    guidPrefix id ≠ guidPrefix (w.guids (w.nextGuid + i)).text

theorem PagesUnused.mono {w : World} {m n : ℕ} (h : PagesUnused w n) (hmn : m ≤ n) :
    PagesUnused w m where
  distinct := fun i j hij hj => h.distinct i j hij (hj.trans_le hmn)
  unused := fun d hd hpk id hid i hi => h.unused d hd hpk id hid i (hi.trans_le hmn)

/-- The page document for an url of a website. -/
structure NewPage (fnv1a : String → ℕ) (websiteId url id : String) (P : Document) : Prop where
  key : P.key = (.str (PageProvider.getPagePartitionKey fnv1a websiteId), .str id)
  itemType : P.get "itemType" = .str ItemType.page.name
  website : P.get "websiteId" = .str websiteId
  address : P.get "url" = .str url

/-- Pages with these urls were added to a website, and nothing else was changed. -/
structure CreatedPages (w w' : World) (websiteId : String) (urls : List String)
    (objects : List Fields) : Prop where
  faults : w'.faults = []
  pages : ∃ news, pagesOf w' websiteId = pagesOf w websiteId ++ news ∧
    news.map (fun P => P.get "url") = strings urls ∧ objects = news.map pageObject
  others : ∀ id, id ≠ websiteId → pagesOf w' id = pagesOf w id
  websites : ∀ id, storedWebsite w' id = storedWebsite w id

section

variable {w : World} {websiteId : String}

/-- One page after the other. -/
theorem CreatedPages.trans {w₁ w₂ w₃ : World} {us vs : List String} {os os' : List Fields}
    (h : CreatedPages w₁ w₂ websiteId us os) (h' : CreatedPages w₂ w₃ websiteId vs os') :
    CreatedPages w₁ w₃ websiteId (us ++ vs) (os ++ os') where
  faults := h'.faults
  pages := by
    obtain ⟨ns, hns, hus, hos⟩ := h.pages
    obtain ⟨ns', hns', hvs, hos'⟩ := h'.pages
    refine ⟨ns ++ ns', ?_, ?_, ?_⟩
    · rw [hns', hns, List.append_assoc]
    · rw [List.map_append, hus, hvs, strings_append]
    · rw [hos, hos', List.map_append]
  others := fun id hid => (h'.others id hid).trans (h.others id hid)
  websites := fun id => (h'.websites id).trans (h.websites id)

/-- The document of a new page, as it is written. -/
def newPageDoc (fnv1a : String → ℕ) (websiteId url id : String) : Fields :=
  bucketed fnv1a .page id ((Creation.page url websiteId).document id)

/-- The converted new page is the converted stored one. -/
theorem copyProperties_newPageDoc {url id : String} (hid : id ≠ "") (n : ℕ) :
    copyProperties (.obj (newPageDoc env.fnv1a websiteId url id)) pageProperties =
      pageObject (svc.stamp n (newPageDoc env.fnv1a websiteId url id)) := by
  have hnd : (Fields.keys ((Creation.page url websiteId).document id)).Nodup := by
    simp [Creation.document]
  unfold pageObject copyProperties
  refine List.map_congr_left fun k hk => ?_
  have hne : ∀ k ∈ pageProperties, k ≠ "_etag" ∧ k ≠ "_ts" ∧ k ≠ "itemType" ∧
      k ≠ "partitionKey" := by decide
  obtain ⟨hetag, hts, htype, hpk⟩ := hne k hk
  have hstamp : (svc.stamp n (newPageDoc env.fnv1a websiteId url id)).get k =
      (Fields.get (newPageDoc env.fnv1a websiteId url id) k).toJson :=
    get_stamp_bucketed rfl hid hnd n hetag hts
  refine congrArg (Prod.mk k) (Eq.trans ?_ hstamp.symm)
  rw [Val.get_obj, newPageDoc, get_bucketed_other hnd htype hpk]
  simp only [Creation.document, Fields.get_cons, Fields.get_nil]
  split_ifs <;> rfl

variable (hvalid : isValidV6Guid websiteId = true)

include hvalid

/-- What is stored of a new page. -/
theorem newPage_stamp (url : String) (n : ℕ) :
    NewPage env.fnv1a websiteId url (nextId w websiteId)
      (svc.stamp n (newPageDoc env.fnv1a websiteId url (nextId w websiteId))) := by
  have hguid := (w.guids w.nextGuid).valid
  have hid : isValidV6Guid (nextId w websiteId) = true :=
    isValidV6Guid_createGuidFromBaseGuid hguid hvalid
  have hnew := newDocument_page w url hvalid
  have hstores : Stores env.fnv1a ((Creation.page url websiteId).created (nextId w websiteId))
      (svc.stamp n (newPageDoc env.fnv1a websiteId url (nextId w websiteId))) := hnew.stores hid n
  refine ⟨?_, hstores.itemType, hstores.parents _ List.mem_cons_self, ?_⟩
  · have hnode : getGuidNode (nextId w websiteId) = getGuidNode websiteId :=
      getGuidNode_createGuidFromBaseGuid hguid hvalid
    rw [hstores.key]
    exact congrArg (fun bucket => (Val.str bucket, Val.str (nextId w websiteId)))
      (bucket_eq env.fnv1a .page hnode)
  · unfold newPageDoc
    rw [get_stamp_bucketed rfl (ne_empty_of_valid hid) hnew.nodup n (by decide) (by decide),
      get_bucketed_other hnew.nodup (by decide) (by decide)]
    rfl

/-- The id of the next page is new. -/
theorem key_ne_of_unused {n : ℕ} (hunused : PagesUnused w (n + 1)) {d : Document}
    (hd : d ∈ (w.repo .websiteData).docs) {bucket : String} (hbucket : bucket ≠ websiteDocuments) :
    d.key ≠ (.str bucket, .str (nextId w websiteId)) := by
  intro hkey
  obtain ⟨hpk, hid⟩ := Prod.mk.inj hkey
  have hne : d.get "partitionKey" ≠ .str websiteDocuments := by
    rw [hpk]
    simpa using hbucket
  refine hunused.unused d hd hne _ hid 0 (by omega) ?_
  exact take_createGuidFromBaseGuid (w.guids w.nextGuid).valid hvalid

/-- Adding a page document with the next id. -/
theorem createdPages_of_docs {n : ℕ} (hunused : PagesUnused w (n + 1)) {w' : World} {url : String}
    {P : Document} (hP : NewPage env.fnv1a websiteId url (nextId w websiteId) P)
    (hfaults : w'.faults = []) (hguids : w'.guids = w.guids)
    (hnext : w'.nextGuid = w.nextGuid + 1)
    (hrepo : w'.repo .websiteData = (w.repo .websiteData).put P) :
    CreatedPages w w' websiteId [url] [pageObject P] ∧ PagesUnused w' n := by
  have hbucket := getPagePartitionKey_ne env.fnv1a websiteId
  have hnew : ∀ d ∈ (w.repo .websiteData).docs, d.key ≠ P.key := fun d hd => by
    rw [hP.key]
    exact key_ne_of_unused hvalid hunused hd hbucket
  have hdocs : (w'.repo .websiteData).docs = (w.repo .websiteData).docs ++ [P] := by
    rw [hrepo, Collection.docs_put, Keyed.put_of_forall_ne Document.key hnew]
  have hpages : ∀ id, pagesOf w' id = pagesOf w id ++ [P].filter fun d =>
      d.get "itemType" = .str ItemType.page.name ∧ d.get "websiteId" = .str id := by
    intro id
    unfold pagesOf
    rw [hdocs, List.filter_append]
  -- one UUID was drawn, and the others are left
  have hlater : ∀ i, w'.guids (w'.nextGuid + i) = w.guids (w.nextGuid + (i + 1)) := by
    intro i
    rw [hguids, hnext]
    congr 1
    omega
  refine ⟨⟨hfaults, ⟨[P], ?_, ?_, rfl⟩, ?_, ?_⟩, ?_, ?_⟩
  · rw [hpages, List.filter_cons_of_pos (by simp [hP.itemType, hP.website]), List.filter_nil]
  · simp [hP.address, strings]
  · intro id hid
    have hne : websiteId ≠ id := fun e => hid e.symm
    rw [hpages, List.filter_cons_of_neg (by simp [hP.website, hne]), List.filter_nil,
      List.append_nil]
  · intro id
    unfold storedWebsite
    rw [hrepo, Collection.find_put_ne]
    rw [hP.key]
    intro hkey
    exact hbucket (by simpa [websiteKey] using (Prod.mk.inj hkey).1.symm)
  · intro i j hij hj
    rw [hlater, hlater]
    exact hunused.distinct (i + 1) (j + 1) (by omega) (by omega)
  · intro d hd hpk id hid i hi
    rw [hlater]
    rw [hdocs] at hd
    rcases List.mem_append.mp hd with hd | hd
    · exact hunused.unused d hd hpk id hid (i + 1) (by omega)
    · -- the new page has the prefix of an earlier UUID
      obtain rfl := List.mem_singleton.mp hd
      have hPid : d.get "id" = .str (nextId w websiteId) := (Prod.mk.inj hP.key).2
      obtain rfl : nextId w websiteId = id := by simpa using hPid.symm.trans hid
      rw [nextId, guidPrefix, take_createGuidFromBaseGuid (w.guids w.nextGuid).valid hvalid]
      exact hunused.distinct 0 (i + 1) (by omega) (by omega)

/-- **A new page** is added to those of its website. -/
theorem run_createNewPage (hw : w.faults = []) {n : ℕ} (hunused : PagesUnused w (n + 1))
    (url : String) :
    ∃ w' object, (PostWebsiteController.createNewPage env websiteId (.str url)).run
        (World.handle svc) w = (.ok object, w') ∧
      CreatedPages w w' websiteId [url] [object] ∧ PagesUnused w' n := by
  have hnew := newDocument_page w url hvalid
  have hid : isValidV6Guid (nextId w websiteId) = true :=
    isValidV6Guid_createGuidFromBaseGuid (w.guids w.nextGuid).valid hvalid
  obtain ⟨noId, hcall⟩ := @Creation.run_call env.fnv1a svc (.page url websiteId) w
  have hwrite := @run_writeBucketed env.fnv1a .page _ _ svc .websiteData
    { w with nextGuid := w.nextGuid + 1 } hw hnew.nodup hnew.id (hnew.unset _ (by decide))
    (hnew.unset _ (by decide)) noId
  have hrun := hcall.trans hwrite
  refine ⟨World.store svc { w with nextGuid := w.nextGuid + 1 } .websiteData
      (newPageDoc env.fnv1a websiteId url (nextId w websiteId)), _, ?_,
    createdPages_of_docs hvalid hunused (@newPage_stamp env svc w websiteId hvalid url
      (w.repo .websiteData).writes) hw rfl rfl (World.store_repo_self _)⟩
  -- the answer is made from the document that was written
  have hconvert : createPageApiObject (.obj (newPageDoc env.fnv1a websiteId url
      (nextId w websiteId))) = .ok (copyProperties (.obj (newPageDoc env.fnv1a websiteId url
      (nextId w websiteId))) pageProperties) := rfl
  rw [@copyProperties_newPageDoc env svc websiteId url _ (ne_empty_of_valid hid)
    (w.repo .websiteData).writes] at hconvert
  refine (Program.run_bind_ok _ hrun).trans ?_
  exact congrArg (fun x => (Program.ofExcept x : Async Fields).run (World.handle svc) _) hconvert

/-- **Creating pages** for a list of urls, one page for each. -/
theorem run_createAll (urls : List String) (hw : w.faults = [])
    (hunused : PagesUnused w urls.length) :
    ∃ w' objects, (Program.all (urls.map fun url => PostWebsiteController.createNewPage env
        websiteId (.str url))).run (World.handle svc) w = (.ok objects, w') ∧
      CreatedPages w w' websiteId urls objects := by
  induction urls generalizing w with
  | nil =>
    exact ⟨w, [], rfl, hw, ⟨[], (List.append_nil _).symm, rfl, rfl⟩, fun _ _ => rfl, fun _ => rfl⟩
  | cons url urls ih =>
    obtain ⟨w₁, object, hrun, hcreated, hunused₁⟩ :=
      @run_createNewPage env svc w websiteId hvalid hw urls.length hunused url
    obtain ⟨w₂, objects, hruns, hcreated'⟩ := ih hcreated.faults hunused₁
    exact ⟨w₂, object :: objects, Program.run_all_cons _ hrun hruns, hcreated.trans hcreated'⟩

end

/-! ## The request -/

/-- The body of a response about a website with these page documents. -/
def websiteBody (D : Document) (pages : List Document) : Val :=
  (WebsiteResponse.mk (copyProperties D.val websiteProperties) (pages.map pageObject)).body

/-- The urls no page of the list has. -/
def missingUrls (urls : List String) (pages : List Document) : List String :=
  urls.filter fun url => .str url ∉ pages.map fun P => P.get "url"

/-- What a POST website request leaves behind: the website `D` under `id`, and a page for
every known page that had none. -/
structure Posted (w : World) (payload : Fields) (id : String) (D : Document) (w' : World) :
    Prop where
  written : ∃ v, Written w payload id D v
  stored : storedWebsite w' id = some D
  websites : ∀ id', id' ≠ id → storedWebsite w' id' = storedWebsite w id'
  pages : ∃ ks news, D.get "knownPages" = .arr (strings ks) ∧
    pagesOf w' id = pagesOf w id ++ news ∧
    news.map (fun P => P.get "url") = strings (missingUrls ks (pagesOf w id))
  others : ∀ id', id' ≠ id → pagesOf w' id' = pagesOf w id'
  faults : w'.faults = []

section

variable {w : World} (hshape : w.Shaped svc (shape env.fnv1a fun _ => True))

include hshape

/-- What is stored as a website is no page of any website. -/
theorem not_page_of_websiteKey {d : Document} (hd : d ∈ (w.repo .websiteData).docs)
    {id : String} (hkey : d.key = websiteKey id) (websiteId : String) :
    d.get "websiteId" ≠ .str websiteId := by
  intro hwebsite
  have hbucket := (hshape.shape .websiteData d hd).page websiteId hwebsite
  rw [(Prod.mk.inj hkey).1] at hbucket
  exact getPagePartitionKey_ne env.fnv1a websiteId (by simpa using hbucket.symm)

/-- Writing a website changes no pages. -/
theorem pagesOf_put_website {w' : World} (hshape' : w'.Shaped svc (shape env.fnv1a fun _ => True))
    {D : Document} (hrepo : w'.repo .websiteData = (w.repo .websiteData).put D) {id : String}
    (hkey : D.key = websiteKey id) (websiteId : String) :
    pagesOf w' websiteId = pagesOf w websiteId := by
  have hD : D ∈ (w'.repo .websiteData).docs := by
    rw [hrepo]
    exact Collection.mem_put_iff.mpr (Or.inl rfl)
  unfold pagesOf
  rw [hrepo, Collection.docs_put]
  refine Keyed.filter_put_of_neg Document.key ?_ fun d hd hsame => ?_
  · simp [not_page_of_websiteKey hshape' hD hkey websiteId]
  · simp [not_page_of_websiteKey hshape hd (hsame.trans hkey) websiteId]

end

theorem Written.copyProperties {w : World} {payload : Fields} {id : String} {D : Document}
    {v : Val} (h : Written w payload id D v) :
    StorageApi.copyProperties v websiteProperties =
      StorageApi.copyProperties D.val websiteProperties :=
  List.map_congr_left fun k hk => congrArg (Prod.mk k) (h.copied k hk)

/-- The known pages of a website that have no page. -/
theorem newPageUrls_eq {D : Document} {ks : List String}
    (hks : D.get "knownPages" = .arr (strings ks)) (pages : List Document) :
    PostWebsiteController.newPageUrls ⟨copyProperties D.val websiteProperties,
        pages.map pageObject⟩ = strings (missingUrls ks pages) := by
  have hknown : Fields.get (copyProperties D.val websiteProperties) "knownPages" =
      .arr (strings ks) := hks
  rw [PostWebsiteController.newPageUrls, hknown, List.map_map, arrayTarget, difference_strings]
  rfl

/-- **The missing pages** of a website are created and pushed to the response. -/
theorem run_createNewPages {w : World} (hw : w.faults = []) {id : String}
    (hvalid : isValidV6Guid id = true) {D : Document} {ks : List String}
    (hks : D.get "knownPages" = .arr (strings ks))
    (hunused : PagesUnused w (missingUrls ks (pagesOf w id)).length) :
    ∃ w' created objects, (PostWebsiteController.createNewPages env id
        ⟨copyProperties D.val websiteProperties, (pagesOf w id).map pageObject⟩).run
        (World.handle svc) w = (.ok (⟨copyProperties D.val websiteProperties,
          (pagesOf w' id).map pageObject⟩, created), w') ∧
      CreatedPages w w' id (missingUrls ks (pagesOf w id)) objects := by
  obtain ⟨w', objects, hrun, hcreated⟩ := @run_createAll env svc w id hvalid
    (missingUrls ks (pagesOf w id)) hw hunused
  refine ⟨w', !(strings (missingUrls ks (pagesOf w id))).isEmpty, objects, ?_, hcreated⟩
  obtain ⟨news, hnews, -, hobjects⟩ := hcreated.pages
  unfold PostWebsiteController.createNewPages
  rw [newPageUrls_eq hks, strings, List.map_map]
  refine (Program.run_bind_ok _ hrun).trans ?_
  rw [Program.run_pure, hobjects, hnews, List.map_append]

/-- The world after the website `D` was written, and before its pages are: the next `m` UUIDs
are free for them. -/
structure WebsitePut (env : Environment) (svc : Service) (w : World) (m : ℕ) (id : String)
    (D : Document) (w₁ : World) : Prop where
  faults : w₁.faults = []
  shape : w₁.Shaped svc (shape env.fnv1a fun _ => True)
  unused : PagesUnused w₁ m
  stored : storedWebsite w₁ id = some D
  websites : ∀ id', id' ≠ id → storedWebsite w₁ id' = storedWebsite w id'
  pages : ∀ websiteId, pagesOf w₁ websiteId = pagesOf w websiteId

section

variable (hnewId : ∀ n, isValidV6Guid (svc.newId n) = false) {w : World} (hw : w.faults = [])
  (hshape : w.Shaped svc (shape env.fnv1a fun _ => True))
  {payload : Fields} (hp : WebsitePayload payload)

include hnewId hw hshape hp

theorem run_writeWebsite {m : ℕ} (hunused : Unused w (1 + m)) :
    ∃ id D v created w₁, (PostWebsiteController.createOrUpdateWebsite (.obj payload)).run
        (World.handle svc) w = (.ok (v, created), w₁) ∧
      Written w payload id D v ∧ WebsitePut env svc w m id D w₁ := by
  obtain ⟨id, item, v, created, n, hn, hrun, hwritten⟩ :=
    @run_createOrUpdateWebsite env svc payload hp w hw hshape m hunused
  have hshape₁ := shaped_run (@keeps_createOrUpdateWebsite env svc _ hnewId _ hp) hshape
  rw [hrun] at hshape₁
  have hrepo : (World.store svc { w with nextGuid := w.nextGuid + n } .websiteData item).repo
      .websiteData = (w.repo .websiteData).put (svc.stamp (w.repo .websiteData).writes item) :=
    World.store_repo_self _
  have hkey := hwritten.key
  refine ⟨id, _, v, created, _, hrun, hwritten, hw, hshape₁, ⟨?_, ?_⟩, ?_, ?_,
    pagesOf_put_website hshape hshape₁ hrepo hkey⟩
  · -- the website may have taken the first of the UUIDs
    intro i j hij hj
    have hdistinct := hunused.distinct (n + i) (n + j) (by omega) (by omega)
    rwa [← Nat.add_assoc, ← Nat.add_assoc] at hdistinct
  · intro d hd hpk own hown i hi
    rw [hrepo] at hd
    rcases Collection.mem_put_iff.mp hd with rfl | ⟨hd, -⟩
    · exact absurd (Prod.mk.inj hkey).1 hpk
    · have hother := hunused.unused d hd own hown (n + i) (by omega)
      rwa [← Nat.add_assoc] at hother
  · unfold storedWebsite
    rw [hrepo, ← hkey, Collection.find_put_self]
  · intro id' hne
    unfold storedWebsite
    rw [hrepo, Collection.find_put_ne]
    rw [hkey]
    exact fun h => hne (by simpa [websiteKey] using h)

/-- **A POST website request** that is served in full: the response is about the website
and the pages as they are stored at its end. -/
theorem run_postWebsite {context : Context}
    (hpayload : ∀ res, tryGetPayload context res = (.obj payload, res))
    (hunused : Unused w (uuidsFor w payload)) (res : Option HttpResponse) :
    ∃ id D w' status, (PostWebsiteController.handleRequest env context res).run
        (World.handle svc) w = (.ok (some ⟨some status, none, websiteBody D (pagesOf w' id)⟩), w') ∧
      status ∈ [200, 201] ∧ Posted w payload id D w' := by
  obtain ⟨id, D, v, created, w₁, hrun, hwritten, hput⟩ :=
    run_writeWebsite hnewId hw hshape hp (unused_uuidsFor hunused)
  obtain ⟨ks, hks⟩ := exists_knownPages hput.shape hput.stored hwritten.valid
  -- there are as many free UUIDs as known pages, and no more pages are created
  have hlength : (missingUrls ks (pagesOf w₁ id)).length ≤ uuidsFor w payload - 1 :=
    (List.length_filter_le _ _).trans (hwritten.length_knownPages hp hshape hks)
  have hresponse := run_createWebsiteApiResponse hput.faults hput.shape hwritten.object id
  rw [hwritten.copyProperties] at hresponse
  obtain ⟨w₂, pagesCreated, objects, hcreate, hcreated⟩ :=
    @run_createNewPages env svc w₁ hput.faults id hwritten.valid D ks hks
      (hput.unused.mono hlength)
  obtain ⟨news, hnews, hurls, -⟩ := hcreated.pages
  obtain ⟨fs, rfl⟩ := hwritten.object
  have hid : Fields.get fs "id" = .str id :=
    (hwritten.copied "id" (by decide)).trans (Prod.mk.inj hwritten.key).2
  have hguid : guidText (.str id) = .ok id := rfl
  refine ⟨id, D, w₂, if created || pagesCreated then 201 else 200, ?_, ?_, ⟨⟨_, hwritten⟩, ?_, ?_,
    ⟨ks, news, hks, ?_, ?_⟩, ?_, hcreated.faults⟩⟩
  · unfold PostWebsiteController.handleRequest
    rw [hpayload]
    refine (Program.run_bind_ok _ hrun).trans ?_
    dsimp only
    rw [property_obj, hid, Program.ofExcept_ok, pure_bind, hguid, Program.ofExcept_ok, pure_bind,
      Program.run_bind_ok _ hresponse, Program.run_bind_ok _ hcreate, Program.run_pure]
    rfl
  · split <;> simp
  · rw [hcreated.websites, hput.stored]
  · exact fun id' hne => (hcreated.websites id').trans (hput.websites id' hne)
  · rw [hnews, hput.pages]
  · rw [hurls, hput.pages]
  · exact fun id' hne => (hcreated.others id' hne).trans (hput.pages id')

end

end WebInsights.StorageApi
