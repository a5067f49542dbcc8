/-
The pages of a website are its known pages.

Three pieces keep them together: a new website is stored with the known pages as
they were posted, a stored one with the union of its own and the posted ones, and
a page is created for every known page whose url no page of the website has. The
last takes the list as it is: a url that is listed twice and has no page gets two.
So a run keeps one page for each known page as long as no website is created from
a list with duplicates (`ListedOnce`), and a step that does otherwise breaks it.
-/
import WebInsights.StorageApi.WebsiteRuns

set_option autoImplicit false

namespace WebInsights.StorageApi

open Common Cosmos Effect Js Providers WebApi

variable {env : Environment} {svc : Service}

/-! ## The missing urls -/

/-- The pages with the missing urls added. -/
def filledUrls (ks us : List String) : List String := us ++ ks.filter fun u => u ∉ us

theorem missingUrls_eq {pages : List Document} {us : List String}
    (hus : pages.map (fun P => P.get "url") = strings us) (ks : List String) :
    missingUrls ks pages = ks.filter fun u => u ∉ us := by
  unfold missingUrls
  rw [hus]
  refine List.filter_congr fun u _ => ?_
  have hmem : Val.str u ∈ strings us ↔ u ∈ us := by
    simp [strings]
  rw [decide_eq_decide, hmem]

theorem mem_filledUrls {ks us : List String} (h : us ⊆ ks) (u : String) :
    u ∈ filledUrls ks us ↔ u ∈ ks := by
  unfold filledUrls
  rw [List.mem_append, List.mem_filter, decide_eq_true_eq]
  constructor
  · rintro (hu | ⟨hu, -⟩)
    · exact h hu
    · exact hu
  · intro hu
    by_cases hmem : u ∈ us
    · exact Or.inl hmem
    · exact Or.inr ⟨hu, hmem⟩

theorem nodup_filledUrls {ks us : List String} (hks : ks.Nodup) (hus : us.Nodup) :
    (filledUrls ks us).Nodup := by
  unfold filledUrls
  refine hus.append (hks.filter _) fun u hu hmissing => ?_
  -- what is added was missing
  have hnot := (List.mem_filter.mp hmissing).2
  rw [decide_eq_true_eq] at hnot
  exact hnot hu

/-! ## The invariant -/

/-- The pages of every website are its known pages, each once. -/
def PageSets (w : World) : Prop :=
  ∀ id D, storedWebsite w id = some D → ∃ ks us, D.get "knownPages" = .arr (strings ks) ∧
    (pagesOf w id).map (fun P => P.get "url") = strings us ∧ us.Nodup ∧ ∀ u, u ∈ us ↔ u ∈ ks

/-- What holds between the requests. -/
structure SiteInvariant (env : Environment) (svc : Service) (w : World) : Prop where
  faults : w.faults = []
  shape : w.Shaped svc (shape env.fnv1a fun _ => True)
  pageSets : PageSets w
  /-- Pages belong to stored websites. -/
  stored : ∀ id, storedWebsite w id = none → pagesOf w id = []

theorem siteInvariant_empty (guids : ℕ → V6Guid) : SiteInvariant env svc (World.empty guids) where
  faults := rfl
  shape := World.shaped_empty guids []
  pageSets := nofun
  stored := fun _ _ => rfl

/-! ## The requests -/

/-- An accepted POST website request, with fresh UUIDs to come. -/
structure PostsWebsite (env : Environment) (w : World) (r : ApiRequest) : Prop where
  endpoint : r.endpoint = .postWebsite
  accepted : r.Accepted env
  unused : ∀ payload, (tryGetPayload r.context none).1 = .obj payload →
    Unused w (uuidsFor w payload)

/-- The request creates no website from a list with duplicates. -/
def ListedOnce (w : World) (r : ApiRequest) : Prop :=
  ∀ payload urls, (tryGetPayload r.context none).1 = .obj payload →
    Fields.get payload "knownPages" = .arr (strings urls) →
    (∀ id, Fields.get payload "id" = .str id → storedWebsite w id = none) → urls.Nodup

/-- What an accepted POST website request does to a world. -/
theorem PostsWebsite.posted (hnewId : ∀ n, isValidV6Guid (svc.newId n) = false) {w : World}
    (hw : SiteInvariant env svc w) {r : ApiRequest} (hr : PostsWebsite env w r) :
    ∃ payload id D, WebsitePayload payload ∧ (tryGetPayload r.context none).1 = .obj payload ∧
      Posted w payload id D ((r.serve env).run (World.handle svc) w).2 := by
  obtain ⟨endpoint, context⟩ := r
  obtain rfl : endpoint = .postWebsite := hr.endpoint
  obtain ⟨payload, hp, hpayload⟩ := websitePayload_of_accepted hr.accepted
  have hsame : (tryGetPayload context none).1 = .obj payload := congrArg Prod.fst (hpayload none)
  obtain ⟨id, D, w', status, hrun, -, hposted⟩ := @run_postWebsite env svc hnewId w hw.faults
    hw.shape payload hp context hpayload (hr.unused payload hsame)
    ((ApiRequest.mk .postWebsite context).validated env).2
  refine ⟨payload, id, D, hp, hsame, ?_⟩
  rwa [ApiRequest.run_serve_ok env svc hr.accepted hrun]

section

variable {w w' : World} (hw : SiteInvariant env svc w) {payload : Fields} {id : String}
  {D : Document} (hposted : Posted w payload id D w')

include hw hposted

/-- A website that was created has a page for every entry of the posted list. -/
theorem Posted.pages_of_new (hnone : storedWebsite w id = none) {urls : List String}
    (hurls : Fields.get payload "knownPages" = .arr (strings urls)) :
    D.get "knownPages" = .arr (strings urls) ∧
      (pagesOf w' id).map (fun P => P.get "url") = strings urls := by
  obtain ⟨v, hwritten⟩ := hposted.written
  obtain ⟨ks, news, hks, hpages, hnews⟩ := hposted.pages
  have hD := hwritten.posted hnone "knownPages" (by decide) (by decide)
  rw [hurls, hks] at hD
  obtain rfl : ks = urls := strings_injective (Val.arr.inj hD)
  have hempty := hw.stored id hnone
  refine ⟨hks, ?_⟩
  rw [hpages, hempty, List.nil_append, hnews, hempty,
    missingUrls_eq (show ([] : List Document).map _ = strings [] from rfl)]
  simp

/-- A website that was stored keeps one page for each known page. -/
theorem Posted.pages_of_stored (hp : WebsitePayload payload) {S : Document}
    (hS : storedWebsite w id = some S) :
    ∃ ks us, D.get "knownPages" = .arr (strings ks) ∧
      (pagesOf w' id).map (fun P => P.get "url") = strings us ∧ us.Nodup ∧
        ∀ u, u ∈ us ↔ u ∈ ks := by
  obtain ⟨v, hwritten⟩ := hposted.written
  obtain ⟨ks, news, hks, hpages, hnews⟩ := hposted.pages
  obtain ⟨known, us, hknown, hus, hnd, hmem⟩ := hw.pageSets id S hS
  obtain ⟨vs, hvs⟩ := hp.knownPages
  obtain ⟨ks', hks', hksnd, hunion⟩ := hwritten.merged S known vs hS hknown hvs
  obtain rfl : ks = ks' := strings_injective (Val.arr.inj (hks.symm.trans hks'))
  -- the pages there are belong to known pages
  have hsub : us ⊆ ks := fun u hu => (hunion u).mpr (Or.inl ((hmem u).mp hu))
  refine ⟨ks, filledUrls ks us, hks, ?_, nodup_filledUrls hksnd hnd, mem_filledUrls hsub⟩
  rw [hpages, List.map_append, hus, hnews, missingUrls_eq hus, filledUrls, strings_append]

/-- **A POST website request keeps the invariant exactly if** it creates no website from a list
with duplicates. -/
theorem Posted.pageSets_iff (hp : WebsitePayload payload) :
    PageSets w' ↔ (storedWebsite w id = none → ∀ urls,
      Fields.get payload "knownPages" = .arr (strings urls) → urls.Nodup) := by
  constructor
  · intro h hnone urls hurls
    obtain ⟨ks, us, -, hus, hnd, -⟩ := h id D hposted.stored
    rw [(hposted.pages_of_new hw hnone hurls).2] at hus
    rwa [strings_injective hus]
  · intro h id' D' hD'
    by_cases hid : id' = id
    · subst hid
      obtain rfl : D = D' := Option.some.inj (hposted.stored.symm.trans hD')
      rcases hS : storedWebsite w id' with _ | S
      · obtain ⟨urls, hurls⟩ := hp.knownPages
        obtain ⟨hks, hpages⟩ := hposted.pages_of_new hw hS hurls
        exact ⟨urls, urls, hks, hpages, h hS urls hurls, fun _ => Iff.rfl⟩
      · exact hposted.pages_of_stored hw hp hS
    · -- nothing was done to another website
      rw [hposted.websites id' hid] at hD'
      rw [hposted.others id' hid]
      exact hw.pageSets id' D' hD'

/-- A POST website request that names no new page of a stored website creates no page. -/
theorem Posted.pages_eq {S : Document} (hS : storedWebsite w id = some S)
    {known vs : List String} (hknown : S.get "knownPages" = .arr (strings known))
    (hvs : Fields.get payload "knownPages" = .arr (strings vs)) (hsub : vs ⊆ known)
    (websiteId : String) : pagesOf w' websiteId = pagesOf w websiteId := by
  by_cases hid : websiteId = id
  · subst hid
    obtain ⟨v, hwritten⟩ := hposted.written
    obtain ⟨ks, news, hks, hpages, hnews⟩ := hposted.pages
    obtain ⟨ks', hks', -, hunion⟩ := hwritten.merged S known vs hS hknown hvs
    obtain rfl : ks = ks' := strings_injective (Val.arr.inj (hks.symm.trans hks'))
    obtain ⟨known', us, hknown', hus, -, hmem⟩ := hw.pageSets websiteId S hS
    obtain rfl : known = known' := strings_injective (Val.arr.inj (hknown.symm.trans hknown'))
    -- every known page has its page
    have hmissing : missingUrls ks (pagesOf w websiteId) = [] := by
      rw [missingUrls_eq hus, List.filter_eq_nil_iff]
      intro u hu
      have hknows : u ∈ known := ((hunion u).mp hu).elim (fun h => h) fun h => hsub h
      simpa using (hmem u).mpr hknows
    rw [hmissing] at hnews
    rw [hpages, List.map_eq_nil_iff.mp hnews, List.append_nil]
  · exact hposted.others websiteId hid

end

/-! ## Runs -/

/-- `ListedOnce` in terms of what the request did. -/
theorem listedOnce_iff {w w' : World} {r : ApiRequest} {payload : Fields}
    (hsame : (tryGetPayload r.context none).1 = .obj payload) {id : String} {D : Document}
    (hposted : Posted w payload id D w') :
    ListedOnce w r ↔ (storedWebsite w id = none → ∀ urls,
      Fields.get payload "knownPages" = .arr (strings urls) → urls.Nodup) := by
  obtain ⟨v, hwritten⟩ := hposted.written
  constructor
  · intro h hnone urls hurls
    refine h payload urls hsame hurls fun own hown => ?_
    rcases hwritten.given with hid | ⟨hid, -⟩
    · obtain rfl : own = id := by simpa using hown.symm.trans hid
      exact hnone
    · rw [hid] at hown
      cases hown
  · intro h payload' urls hsame' hurls hnew
    obtain rfl : payload = payload' := Val.obj.inj (hsame.symm.trans hsame')
    exact h (hwritten.given.elim (hnew id) fun hid => hid.2) urls hurls

section

variable (hnewId : ∀ n, isValidV6Guid (svc.newId n) = false)

include hnewId

theorem SiteInvariant.step {w : World} (hw : SiteInvariant env svc w) {r : ApiRequest}
    (hr : PostsWebsite env w r) (honce : ListedOnce w r) :
    SiteInvariant env svc ((r.serve env).run (World.handle svc) w).2 := by
  obtain ⟨payload, id, D, hp, hsame, hposted⟩ := hr.posted hnewId hw
  refine ⟨hposted.faults, ?_, ?_, ?_⟩
  · obtain ⟨endpoint, context⟩ := r
    obtain rfl : endpoint = .postWebsite := hr.endpoint
    exact shaped_run (keeps_postWebsite hnewId context) hw.shape
  · exact (hposted.pageSets_iff hw hp).mpr ((listedOnce_iff hsame hposted).mp honce)
  · intro id' hnone
    have hne : id' ≠ id := by
      rintro rfl
      rw [hposted.stored] at hnone
      cases hnone
    rw [hposted.websites id' hne] at hnone
    rw [hposted.others id' hne]
    exact hw.stored id' hnone

/-- **The page sets of a run** whose requests create no website from a list with duplicates: in
every world it reaches, the pages of every website are its known pages, each once; posting a
website again creates no page; and the next request keeps it that way exactly if it, too,
creates no website from a list with duplicates. A request creates its pages one after another. -/
theorem postWebsite_pageSets {guids : ℕ → V6Guid} {w : World}
    (hreach : Reaches env svc (fun w r => PostsWebsite env w r ∧ ListedOnce w r)
      (World.empty guids) w) :
    PageSets w ∧
    (∀ r payload id S known vs, PostsWebsite env w r →
      (tryGetPayload r.context none).1 = .obj payload →
      Fields.get payload "id" = .str id → storedWebsite w id = some S →
      S.get "knownPages" = .arr (strings known) →
      Fields.get payload "knownPages" = .arr (strings vs) → vs ⊆ known →
      ∀ websiteId, pagesOf ((r.serve env).run (World.handle svc) w).2 websiteId =
        pagesOf w websiteId) ∧
    ∀ r, PostsWebsite env w r →
      (PageSets ((r.serve env).run (World.handle svc) w).2 ↔ ListedOnce w r) := by
  have hw : SiteInvariant env svc w := hreach.invariant env svc (siteInvariant_empty guids)
    fun w r hr hw => hw.step hnewId hr.1 hr.2
  refine ⟨hw.pageSets, ?_, ?_⟩
  · intro r payload id S known vs hr hsame hid hS hknown hvs hsub
    obtain ⟨payload', id', D, hp, hsame', hposted⟩ := hr.posted hnewId hw
    obtain rfl : payload = payload' := Val.obj.inj (hsame.symm.trans hsame')
    obtain ⟨v, hwritten⟩ := hposted.written
    -- the request names the id, so it was not made up
    have hown : Fields.get payload "id" = .str id' := hwritten.given.resolve_right fun h => by
      rw [h.1] at hid
      cases hid
    obtain rfl : id = id' := by simpa using hid.symm.trans hown
    exact hposted.pages_eq hw hS hknown hvs hsub
  · intro r hr
    obtain ⟨payload, id, D, hp, hsame, hposted⟩ := hr.posted hnewId hw
    rw [hposted.pageSets_iff hw hp, listedOnce_iff hsame hposted]

end

/-! ### A url that is listed twice -/

theorem postsWebsite_sample {urls : List String}
    (haccepted : (postSampleWebsite 0 urls).Accepted sampleEnvironment)
    (hlength : urls.length ≤ 3) :
    PostsWebsite sampleEnvironment (World.empty V6Guid.sample) (postSampleWebsite 0 urls) where
  endpoint := rfl
  accepted := haccepted
  unused := by
    intro payload hpayload
    obtain rfl : sampleWebsite 0 urls = payload := Val.obj.inj hpayload
    refine unused_sample ?_
    have huuids : uuidsFor (World.empty V6Guid.sample) (sampleWebsite 0 urls) =
        1 + (strings urls).length + 0 := rfl
    rw [huuids, strings, List.length_map]
    omega

/-- A new website whose list has a url twice gets two pages for it. -/
theorem postWebsite_pageSets_duplicate :
    ∃ w, Reaches sampleEnvironment Service.counting (PostsWebsite sampleEnvironment)
        (World.empty V6Guid.sample) w ∧
      (pagesOf w (V6Guid.sample 0).text).map (fun P => P.get "url") = strings ["a", "a"] ∧
      ¬ PageSets w := by
  have hpost := @postsWebsite_sample ["a", "a"] (by decide) (by decide)
  have hpages : (pagesOf (((postSampleWebsite 0 ["a", "a"]).serve sampleEnvironment).run
      (World.handle Service.counting) (World.empty V6Guid.sample)).2
      (V6Guid.sample 0).text).map (fun P => P.get "url") = strings ["a", "a"] := by
    decide +kernel
  refine ⟨_, .step .refl hpost, hpages, fun h => ?_⟩
  have hstored : (storedWebsite (((postSampleWebsite 0 ["a", "a"]).serve sampleEnvironment).run
      (World.handle Service.counting) (World.empty V6Guid.sample)).2
      (V6Guid.sample 0).text).isSome = true := by
    decide +kernel
  obtain ⟨D, hD⟩ := Option.isSome_iff_exists.mp hstored
  obtain ⟨ks, us, -, hus, hnd, -⟩ := h _ D hD
  rw [hpages] at hus
  obtain rfl := strings_injective hus
  exact absurd hnd (by decide)

/-- A website with two known pages gets two pages. -/
theorem postWebsite_pageSets_sample :
    PageSets (((postSampleWebsite 0 ["a", "b"]).serve sampleEnvironment).run
      (World.handle Service.counting) (World.empty V6Guid.sample)).2 := by
  have honce : ListedOnce (World.empty V6Guid.sample) (postSampleWebsite 0 ["a", "b"]) := by
    intro payload urls hpayload hurls _
    obtain rfl : sampleWebsite 0 ["a", "b"] = payload := Val.obj.inj hpayload
    obtain rfl : ["a", "b"] = urls := strings_injective (Val.arr.inj hurls)
    decide
  exact (@postWebsite_pageSets sampleEnvironment Service.counting not_valid_newId V6Guid.sample _
    (.step .refl ⟨postsWebsite_sample (by decide) (by decide), honce⟩)).1

end WebInsights.StorageApi
