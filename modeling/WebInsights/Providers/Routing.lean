/-
Where documents are written is where they are looked for.

The id of a child is spliced from a fresh UUID and the node of its parent's id,
and every bucket is computed from the node of some id: of the document itself
when it is written or read, of the parent when the children are listed. The
invariant of a run (`Routed`) keeps the list of the documents that were created,
each with its parents; it says that each is stored, under its own bucket, that
the nodes of a document and its parents agree, and that the collections hold no
other document of these types. Everything a provider answers follows from it.
-/
import WebInsights.Providers.ProviderSpec

set_option autoImplicit false

namespace WebInsights.Providers

open Common Cosmos CosmosContainerClient Effect Js

/-! ## What was created -/

/-- The types of documents whose bucket their id decides. -/
inductive Kind where
  | page
  | websiteScan
  | pageScan
  deriving DecidableEq

namespace Kind

def itemType : Kind → ItemType
  | .page => .page
  | .websiteScan => .websiteScan
  | .pageScan => .pageScan

/-- The collection its provider works on. -/
def container : Kind → Container
  | .page => .websiteData
  | .websiteScan => .scanMetadata
  | .pageScan => .scanMetadata

/-- The properties that name the parents. -/
def parentFields : Kind → List String
  | .page => ["websiteId"]
  | .websiteScan => ["websiteId"]
  | .pageScan => ["pageId", "websiteScanId"]

theorem name_injective {k k' : Kind} (h : k.itemType.name = k'.itemType.name) : k = k' := by
  revert h
  cases k <;> cases k' <;> decide

theorem dash_notMem_name (kind : Kind) : '-' ∉ kind.itemType.name.toList := by
  cases kind <;> decide

end Kind

/-- A document that was created: its type, its id, and the ids of its parents under
the properties that name them. -/
structure Created where
  kind : Kind
  id : String
  parents : List (String × String)

section

variable (fnv1a : String → ℕ)

/-- `updatePage`, `updateWebsiteScan` and `updatePageScan`. -/
def Kind.update : Kind → Fields → Async Val
  | .page => PageProvider.updatePage fnv1a
  | .websiteScan => WebsiteScanProvider.updateWebsiteScan fnv1a
  | .pageScan => PageScanProvider.updatePageScan fnv1a

/-- The partition key the providers compute from an id, of the document itself or of
its parent. -/
def Kind.bucket (kind : Kind) (guid : String) : String :=
  createPartitionKeyForDocument fnv1a kind.itemType guid

/-- The stored document of a created one: it lies under the bucket of its own id, and
has its type and its parents. -/
structure Stores (c : Created) (d : Document) : Prop where
  key : d.key = (.str (c.kind.bucket fnv1a c.id), .str c.id)
  itemType : d.get "itemType" = .str c.kind.itemType.name
  parents : ∀ p ∈ c.parents, d.get p.1 = .str p.2

/-- Documents of different types never share a partition key. -/
theorem bucket_ne {k k' : Kind} (h : k ≠ k') (guid guid' : String) :
    k.bucket fnv1a guid ≠ k'.bucket fnv1a guid' :=
  getDbHashBucket_ne fnv1a k.dash_notMem_name k'.dash_notMem_name
    (fun e => h (Kind.name_injective e)) _ _

/-- Ids with the same node have the same bucket. -/
theorem bucket_eq (kind : Kind) {guid guid' : String} (h : getGuidNode guid = getGuidNode guid') :
    kind.bucket fnv1a guid = kind.bucket fnv1a guid' := by
  unfold Kind.bucket createPartitionKeyForDocument
  rw [h]

/-! ## Runs -/

/-- The properties an update leaves to the providers. -/
def routingFields : List String :=
  ["partitionKey", "itemType", "websiteId", "pageId", "websiteScanId"]

/-- The UUID that is drawn next differs from those drawn for `cs` before the node. -/
def Fresh (w : World) (cs : List Created) : Prop :=
  ∀ c ∈ cs, guidPrefix c.id ≠ guidPrefix (w.guids w.nextGuid).text

instance (w : World) (cs : List Created) : Decidable (Fresh w cs) :=
  inferInstanceAs (Decidable (∀ c ∈ cs, _))

/-- The id a child of `base` gets that is created next. -/
def nextId (w : World) (base : String) : String :=
  createGuidFromBaseGuid (w.guids w.nextGuid).text base

/-- A call that creates a document. -/
inductive Creation where
  | page (url websiteId : String)
  | websiteScan (websiteId : String) (scanType frequency priority : Val)
  | pageScan (pageId websiteScanId : String) (priority : Val)

namespace Creation

def call : Creation → Async Fields
  | .page url websiteId => PageProvider.createPageForWebsite fnv1a (.str url) websiteId
  | .websiteScan websiteId scanType frequency priority =>
    WebsiteScanProvider.createScanDocumentForWebsite fnv1a websiteId scanType frequency priority
  | .pageScan pageId websiteScanId priority =>
    PageScanProvider.createPageScan fnv1a pageId websiteScanId priority

/-- What it creates, once it has an id. -/
def created : Creation → String → Created
  | .page _ websiteId, id => ⟨.page, id, [("websiteId", websiteId)]⟩
  | .websiteScan websiteId _ _ _, id => ⟨.websiteScan, id, [("websiteId", websiteId)]⟩
  | .pageScan pageId websiteScanId _, id =>
    ⟨.pageScan, id, [("pageId", pageId), ("websiteScanId", websiteScanId)]⟩

/-- For whom: a website with a valid id, or a page and a scan created for one website. -/
def Allowed (cs : List Created) : Creation → Prop
  | .page _ websiteId => isValidV6Guid websiteId = true
  | .websiteScan websiteId _ _ _ => isValidV6Guid websiteId = true
  | .pageScan pageId websiteScanId _ =>
    ∃ websiteId, ⟨.page, pageId, [("websiteId", websiteId)]⟩ ∈ cs ∧
      ⟨.websiteScan, websiteScanId, [("websiteId", websiteId)]⟩ ∈ cs

/-- The id the new one is spliced from. -/
def base : Creation → String
  | .page _ websiteId => websiteId
  | .websiteScan websiteId _ _ _ => websiteId
  | .pageScan pageId _ _ => pageId

/-- The document that is normalized. -/
def document : Creation → String → Fields
  | .page url websiteId, id =>
    [("id", .str id), ("websiteId", .str websiteId), ("url", .str url)]
  | .websiteScan websiteId scanType frequency priority, id =>
    [("id", .str id), ("websiteId", .str websiteId), ("scanType", scanType),
      ("scanFrequency", frequency), ("scanStatus", .str "pending"),
      ("priority", priority.nullish WebsiteScanProvider.defaultPriority)]
  | .pageScan pageId websiteScanId priority, id =>
    [("id", .str id), ("pageId", .str pageId), ("websiteScanId", .str websiteScanId),
      ("priority", priority), ("run", .obj [("state", .str "pending")])]

end Creation

variable (svc : Service)

/-- The document of `c` is stored. -/
def Stored (w : World) (c : Created) : Prop :=
  ∃ d ∈ (w.repo c.kind.container).docs, Stores fnv1a c d

/-- One call of a provider, between two worlds and the lists of what was created. Any
request of it may fail; a creation that throws has created its document all the same if
only the response to its write was lost. -/
inductive Step : World → List Created → World → List Created → Prop
  | create {w w' : World} {cs : List Created} {x : Creation} {doc : Fields} {id : String}
      (hx : x.Allowed cs) (hfresh : Fresh w cs)
      (hrun : (x.call fnv1a).run (World.handle svc) w = (.ok doc, w'))
      (hid : Fields.get doc "id" = .str id) : Step w cs w' (cs ++ [x.created id])
  | createFails {w w' : World} {cs : List Created} {x : Creation} {e : JsError}
      (hx : x.Allowed cs) (hfresh : Fresh w cs)
      (hrun : (x.call fnv1a).run (World.handle svc) w = (.error e, w'))
      (hnone : ¬ Stored fnv1a w' (x.created (nextId w x.base))) : Step w cs w' cs
  | createLost {w w' : World} {cs : List Created} {x : Creation} {e : JsError}
      (hx : x.Allowed cs) (hfresh : Fresh w cs)
      (hrun : (x.call fnv1a).run (World.handle svc) w = (.error e, w'))
      (hstored : Stored fnv1a w' (x.created (nextId w x.base))) :
      Step w cs w' (cs ++ [x.created (nextId w x.base)])
  | update {w w' : World} {cs : List Created} {c : Created} {patch : Obj}
      {result : Except JsError Val} (hc : c ∈ cs)
      (hid : Fields.get patch.fields "id" = .str c.id)
      (hfields : ∀ k ∈ routingFields, k ∉ Fields.keys patch.fields)
      (hrun : (c.kind.update fnv1a patch.fields).run (World.handle svc) w = (result, w')) :
      Step w cs w' cs

/-- Any sequence of such calls. -/
inductive Reaches (w₀ : World) : World → List Created → Prop
  | refl : Reaches w₀ w₀ []
  | step {w w' : World} {cs cs' : List Created} (hw : Reaches w₀ w cs)
      (hstep : Step fnv1a svc w cs w' cs') : Reaches w₀ w' cs'

/-- No document of the three types is stored. -/
def Unrouted (w : World) : Prop :=
  ∀ kind : Kind, ∀ d ∈ (w.repo kind.container).docs, d.get "itemType" ≠ .str kind.itemType.name

/-! ## The invariant -/

/-- What holds of every world a run reaches, with what was created in it. -/
structure Routed (w : World) (cs : List Created) : Prop where
  faults : w.FaultsFail
  stamped : ∀ container, (w.repo container).Stamped svc
  ids : (cs.map Created.id).Nodup
  valid : ∀ c ∈ cs, isValidV6Guid c.id = true
  fields : ∀ c ∈ cs, c.parents.map Prod.fst = c.kind.parentFields
  nodes : ∀ c ∈ cs, ∀ p ∈ c.parents, getGuidNode p.2 = getGuidNode c.id
  stored : ∀ c ∈ cs, Stored fnv1a w c
  known : ∀ kind : Kind, ∀ d ∈ (w.repo kind.container).docs,
    d.get "itemType" = .str kind.itemType.name → ∃ c ∈ cs, c.kind = kind ∧ Stores fnv1a c d

variable {fnv1a svc} {w : World} {cs : List Created}

theorem routed_start (hw : w.FaultsFail) (hstamped : ∀ container, (w.repo container).Stamped svc)
    (hnone : Unrouted w) : Routed fnv1a svc w [] where
  faults := hw
  stamped := hstamped
  ids := List.nodup_nil
  valid := fun _ hc => absurd hc List.not_mem_nil
  fields := fun _ hc => absurd hc List.not_mem_nil
  nodes := fun _ hc => absurd hc List.not_mem_nil
  stored := fun _ hc => absurd hc List.not_mem_nil
  known := fun kind d hd htype => absurd htype (hnone kind d hd)

/-- A created document is found under its key. -/
theorem Routed.find (h : Routed fnv1a svc w cs) {c : Created} (hc : c ∈ cs) :
    ∃ d, (w.repo c.kind.container).find (.str (c.kind.bucket fnv1a c.id), .str c.id) = some d ∧
      Stores fnv1a c d := by
  obtain ⟨d, hd, hstores⟩ := h.stored c hc
  exact ⟨d, Collection.find_eq_some_iff.mpr ⟨hd, hstores.key⟩, hstores⟩

/-- The world after the document of `c` was written is the same to all others: they
have other ids. -/
theorem stored_put {c : Created} {d : Document} (hd : Stores fnv1a c d) {w' : World}
    (hrepo : w'.repo =
      Function.update w.repo c.kind.container ((w.repo c.kind.container).put d))
    {c' : Created} (hstored : Stored fnv1a w c') (hne : c'.id ≠ c.id) : Stored fnv1a w' c' := by
  obtain ⟨e, he, hstores⟩ := hstored
  refine ⟨e, ?_, hstores⟩
  by_cases hcontainer : c'.kind.container = c.kind.container
  · rw [hrepo, hcontainer, Function.update_self]
    rw [hcontainer] at he
    refine Collection.mem_put_iff.mpr (Or.inr ⟨he, fun hkey => hne ?_⟩)
    rw [hstores.key, hd.key] at hkey
    simpa using (Prod.mk.inj hkey).2
  · rwa [hrepo, Function.update_of_ne hcontainer]

theorem stored_put_self {c : Created} {d : Document} (hd : Stores fnv1a c d) {w' : World}
    (hrepo : w'.repo =
      Function.update w.repo c.kind.container ((w.repo c.kind.container).put d)) :
    Stored fnv1a w' c := by
  refine ⟨d, ?_, hd⟩
  rw [hrepo, Function.update_self]
  exact Collection.mem_put_iff.mpr (Or.inl rfl)

/-- A write of the collection `c.kind` keeps it stamped. -/
theorem stamped_put (h : ∀ container, (w.repo container).Stamped svc) {target : Container}
    (item : Fields) {w' : World}
    (hrepo : w'.repo = Function.update w.repo target
      ((w.repo target).put (svc.stamp (w.repo target).writes item)))
    (container : Container) : (w'.repo container).Stamped svc := by
  by_cases hcontainer : container = target
  · subst hcontainer
    rw [hrepo, Function.update_self]
    exact (h container).put item
  · rw [hrepo, Function.update_of_ne hcontainer]
    exact h container

/-- **Writing the document of `c`**, which may be new, keeps the invariant. -/
theorem Routed.put (h : Routed fnv1a svc w cs) {c : Created} {cs' : List Created}
    (hsub : ∀ c' ∈ cs', c' ∈ cs ∨ c' = c) (hmem : ∀ c' ∈ cs, c' ∈ cs') (hc : c ∈ cs')
    (hids : (cs'.map Created.id).Nodup) (hvalid : isValidV6Guid c.id = true)
    (hfields : c.parents.map Prod.fst = c.kind.parentFields)
    (hnodes : ∀ p ∈ c.parents, getGuidNode p.2 = getGuidNode c.id) {item : Fields}
    (hd : Stores fnv1a c (svc.stamp (w.repo c.kind.container).writes item))
    {w' : World} (hfaults : w'.FaultsFail)
    (hrepo : w'.repo = Function.update w.repo c.kind.container
      ((w.repo c.kind.container).put (svc.stamp (w.repo c.kind.container).writes item))) :
    Routed fnv1a svc w' cs' where
  faults := hfaults
  stamped := stamped_put h.stamped item hrepo
  ids := hids
  valid := by
    intro c' hc'
    rcases hsub c' hc' with hc' | rfl
    · exact h.valid c' hc'
    · exact hvalid
  fields := by
    intro c' hc'
    rcases hsub c' hc' with hc' | rfl
    · exact h.fields c' hc'
    · exact hfields
  nodes := by
    intro c' hc'
    rcases hsub c' hc' with hc' | rfl
    · exact h.nodes c' hc'
    · exact hnodes
  stored := by
    intro c' hc'
    by_cases hid : c'.id = c.id
    · -- ids are distinct, so it is the document that was written
      obtain rfl : c' = c := List.inj_on_of_nodup_map hids hc' hc hid
      exact stored_put_self hd hrepo
    · rcases hsub c' hc' with hc' | rfl
      · exact stored_put hd hrepo (h.stored c' hc') hid
      · exact absurd rfl hid
  known := by
    intro kind e he htype
    by_cases hcontainer : kind.container = c.kind.container
    · rw [hrepo, hcontainer, Function.update_self] at he
      rcases Collection.mem_put_iff.mp he with rfl | ⟨he, -⟩
      · refine ⟨c, hc, Kind.name_injective ?_, hd⟩
        have hname := hd.itemType.symm.trans htype
        simpa using hname
      · rw [← hcontainer] at he
        obtain ⟨c', hc', hkind, hstores⟩ := h.known kind e he htype
        exact ⟨c', hmem c' hc', hkind, hstores⟩
    · rw [hrepo, Function.update_of_ne hcontainer] at he
      obtain ⟨c', hc', hkind, hstores⟩ := h.known kind e he htype
      exact ⟨c', hmem c' hc', hkind, hstores⟩

/-- Nothing was written. -/
theorem Routed.later (h : Routed fnv1a svc w cs) {w' : World} (hw : w.Later w') :
    Routed fnv1a svc w' cs where
  faults := h.faults.subset hw.faults
  stamped := fun container => by rw [hw.repo]; exact h.stamped container
  ids := h.ids
  valid := h.valid
  fields := h.fields
  nodes := h.nodes
  stored := fun c hc => by unfold Stored; rw [hw.repo]; exact h.stored c hc
  known := fun kind d hd => by rw [hw.repo] at hd; exact h.known kind d hd

/-- An orphan has the id the SDK made up, and no type. -/
theorem get_stamp_orphan (n : ℕ) (pk : String) :
    (svc.stamp n (orphan pk)).get "id" = .str (svc.newId n) ∧
      (svc.stamp n (orphan pk)).get "itemType" = .undefined := by
  have hget : ∀ k, k ≠ "partitionKey" → Fields.get (orphan pk) k = .undefined := by
    intro k hk
    rw [orphan, CosmosClientWrapper.get_assignPartitionKey_ne hk, Fields.get_nil]
  have hid : hasNoId (orphan pk) := Or.inl (hget "id" (by decide))
  constructor
  · exact svc.get_stamp_id_of_hasNoId n hid
  · rw [svc.get_stamp_of_ne_id n _ (by decide) (by decide) (by decide), hget _ (by decide)]
    rfl

/-- **Writing an orphan** keeps the invariant: the id the SDK makes up is no version 6
UUID, so no created document is under its key. -/
theorem Routed.put_orphan (h : Routed fnv1a svc w cs)
    (hnewId : ∀ n, isValidV6Guid (svc.newId n) = false) {target : Container} {pk : String}
    {w' : World} (hfaults : w'.FaultsFail)
    (hrepo : w'.repo = Function.update w.repo target
      ((w.repo target).put (svc.stamp (w.repo target).writes (orphan pk)))) :
    Routed fnv1a svc w' cs where
  faults := hfaults
  stamped := stamped_put h.stamped _ hrepo
  ids := h.ids
  valid := h.valid
  fields := h.fields
  nodes := h.nodes
  stored := by
    intro c hc
    obtain ⟨d, hd, hstores⟩ := h.stored c hc
    refine ⟨d, ?_, hstores⟩
    by_cases hcontainer : c.kind.container = target
    · rw [hrepo, hcontainer, Function.update_self]
      rw [hcontainer] at hd
      refine Collection.mem_put_iff.mpr (Or.inr ⟨hd, fun hkey => ?_⟩)
      -- a created document under the orphan's key would have its made up id
      have hid := (Prod.mk.inj (hstores.key.symm.trans hkey)).2
      rw [(get_stamp_orphan _ pk).1] at hid
      have hvalid := h.valid c hc
      rw [show c.id = svc.newId _ by simpa using hid, hnewId] at hvalid
      cases hvalid
    · rwa [hrepo, Function.update_of_ne hcontainer]
  known := by
    intro kind e he htype
    by_cases hcontainer : kind.container = target
    · rw [hrepo, hcontainer, Function.update_self] at he
      rcases Collection.mem_put_iff.mp he with rfl | ⟨he, -⟩
      · -- an orphan has no type
        rw [(get_stamp_orphan _ pk).2] at htype
        cases htype
      · rw [← hcontainer] at he
        exact h.known kind e he htype
    · rw [hrepo, Function.update_of_ne hcontainer] at he
      exact h.known kind e he htype

/-! ## Steps -/

/-- The properties that name parents are no others that the code sets. -/
theorem Kind.parentFields_ne {kind : Kind} {k : String} (h : k ∈ kind.parentFields) :
    k ≠ "itemType" ∧ k ≠ "partitionKey" ∧ k ≠ "_etag" ∧ k ≠ "_ts" := by
  revert k
  cases kind <;> decide

/-- The new document of `c` as a provider makes it: it names its parents, and leaves
its type, its bucket and its stamps to others. Its id keeps the node of `base`, which
is that of its parents. -/
structure NewDocument (w : World) (c : Created) (base : String) (document : Fields) : Prop where
  nodup : (Fields.keys document).Nodup
  spliced : c.id = nextId w base
  valid : isValidV6Guid base = true
  id : Fields.get document "id" = .str c.id
  unset : ∀ k ∈ ["itemType", "partitionKey", "_etag", "_ts"], k ∉ Fields.keys document
  parents : ∀ p ∈ c.parents, Fields.get document p.1 = .str p.2
  fields : c.parents.map Prod.fst = c.kind.parentFields
  nodes : ∀ p ∈ c.parents, getGuidNode p.2 = getGuidNode base

theorem newDocument_page (w : World) (url : String) {websiteId : String}
    (hvalid : isValidV6Guid websiteId = true) :
    NewDocument w ((Creation.page url websiteId).created (nextId w websiteId)) websiteId
      ((Creation.page url websiteId).document (nextId w websiteId)) :=
  ⟨by simp [Creation.document], rfl, hvalid, rfl, by simp [Creation.document],
    by simp [Creation.document, Creation.created, Fields.get], rfl, by simp [Creation.created]⟩

theorem newDocument_websiteScan (w : World) {websiteId : String}
    (hvalid : isValidV6Guid websiteId = true) (scanType frequency priority : Val) :
    NewDocument w ((Creation.websiteScan websiteId scanType frequency priority).created
      (nextId w websiteId)) websiteId
      ((Creation.websiteScan websiteId scanType frequency priority).document
        (nextId w websiteId)) := by
  refine ⟨?_, rfl, hvalid, rfl, ?_, List.forall_mem_singleton.mpr rfl, rfl, ?_⟩
  · simp [Creation.document]
  · simp [Creation.document]
  · simp [Creation.created]

/-- What a creation normalizes is a new document. -/
theorem Routed.newDocument (h : Routed fnv1a svc w cs) {x : Creation} (hx : x.Allowed cs) :
    NewDocument w (x.created (nextId w x.base)) x.base (x.document (nextId w x.base)) := by
  cases x with
  | page url websiteId => exact newDocument_page w url hx
  | websiteScan websiteId scanType frequency priority =>
    exact newDocument_websiteScan w hx scanType frequency priority
  | pageScan pageId websiteScanId priority =>
    obtain ⟨websiteId, hpage, hscan⟩ := hx
    -- page and scan have the node of the website they were created for
    have hnodes : getGuidNode websiteScanId = getGuidNode pageId :=
      (h.nodes _ hscan _ List.mem_cons_self).symm.trans (h.nodes _ hpage _ List.mem_cons_self)
    refine ⟨?_, rfl, h.valid _ hpage, rfl, ?_, ?_, rfl, ?_⟩
    · simp [Creation.document]
    · simp [Creation.document]
    · exact List.forall_mem_cons.mpr ⟨rfl, List.forall_mem_singleton.mpr rfl⟩
    · simp [Creation.created, Creation.base, hnodes]

/-- A creation draws a UUID, normalizes its document and writes it. -/
theorem Creation.run_call (x : Creation) (w : World) :
    ∃ noId, (x.call fnv1a).run (World.handle svc) w =
      (normalizeBucketed fnv1a (x.created (nextId w x.base)).kind.itemType noId
          (x.document (nextId w x.base)) >>= fun doc =>
        writeDocument (x.created (nextId w x.base)).kind.container doc .undefined true >>=
        fun _ => pure doc).run (World.handle svc) { w with nextGuid := w.nextGuid + 1 } := by
  cases x with
  | page url websiteId => exact ⟨"Page document has no associated id", rfl⟩
  | websiteScan websiteId scanType frequency priority =>
    refine ⟨"Website scan document has no id", ?_⟩
    rw [Creation.call, WebsiteScanProvider.createScanDocumentForWebsite, Program.run_bind,
      World.run_uuidV6]
    rfl
  | pageScan pageId websiteScanId priority =>
    have hid : Fields.get ((Creation.pageScan pageId websiteScanId priority).document
        (nextId w pageId)) "id" = .str (nextId w pageId) := rfl
    -- normalizing a normalized document changes nothing
    have hagain : PageScanProvider.normalizeDbDocument fnv1a (bucketed fnv1a .pageScan
        (nextId w pageId) ((Creation.pageScan pageId websiteScanId priority).document
          (nextId w pageId))) = pure (bucketed fnv1a .pageScan (nextId w pageId)
            ((Creation.pageScan pageId websiteScanId priority).document (nextId w pageId))) := rfl
    refine ⟨"Page scan document has no id", ?_⟩
    rw [Creation.call, PageScanProvider.createPageScan, Program.run_bind, World.run_uuidV6]
    change ((normalizeBucketed fnv1a .pageScan _
      ((Creation.pageScan pageId websiteScanId priority).document (nextId w pageId)) >>= _).run _ _)
      = ((normalizeBucketed fnv1a .pageScan _
        ((Creation.pageScan pageId websiteScanId priority).document (nextId w pageId))
          >>= _).run _ _)
    rw [normalizeBucketed_eq fnv1a hid, pure_bind, pure_bind, hagain, pure_bind]
    rfl

/-- What is stored of a new document. -/
theorem NewDocument.stores {c : Created} {base : String} {document : Fields}
    (hnew : NewDocument w c base document) (hvalid : isValidV6Guid c.id = true) (n : ℕ) :
    Stores fnv1a c (svc.stamp n (bucketed fnv1a c.kind.itemType c.id document)) := by
  -- what is text comes through the store as it is
  have hget : ∀ k s, k ≠ "_etag" → k ≠ "_ts" →
      Fields.get (bucketed fnv1a c.kind.itemType c.id document) k = .str s →
      (svc.stamp n (bucketed fnv1a c.kind.itemType c.id document)).get k = .str s := by
    intro k s hetag hts hk
    rw [get_stamp_bucketed hnew.id (ne_empty_of_valid hvalid) hnew.nodup n hetag hts, hk]
    rfl
  refine ⟨?_, ?_, ?_⟩
  · have hid := hget "id" c.id (by decide) (by decide)
      ((get_bucketed_other hnew.nodup (by decide) (by decide)).trans hnew.id)
    have hpk := hget "partitionKey" _ (by decide) (by decide)
      (get_bucketed_partitionKey hnew.nodup (hnew.unset _ (by decide)))
    rw [Document.key, hid, hpk]
    rfl
  · exact hget "itemType" _ (by decide) (by decide)
      (get_bucketed_itemType hnew.nodup (hnew.unset _ (by decide)))
  · intro p hp
    have hfield : p.1 ∈ c.kind.parentFields := hnew.fields ▸ List.mem_map_of_mem hp
    obtain ⟨htype, hpk, hetag, hts⟩ := Kind.parentFields_ne hfield
    exact hget p.1 p.2 hetag hts
      ((get_bucketed_other hnew.nodup htype hpk).trans (hnew.parents p hp))

/-- **Writing a new document** keeps the invariant. -/
theorem Routed.put_new (h : Routed fnv1a svc w cs) {c : Created} {base : String}
    {document : Fields} (hnew : NewDocument w c base document) (hfresh : Fresh w cs)
    {w' : World} (hfaults : w'.FaultsFail)
    (hrepo : w'.repo = Function.update w.repo c.kind.container
      ((w.repo c.kind.container).put (svc.stamp (w.repo c.kind.container).writes
        (bucketed fnv1a c.kind.itemType c.id document)))) :
    Routed fnv1a svc w' (cs ++ [c]) := by
  have hguid := (w.guids w.nextGuid).valid
  have hvalid : isValidV6Guid c.id = true :=
    hnew.spliced ▸ isValidV6Guid_createGuidFromBaseGuid hguid hnew.valid
  have hids : ((cs ++ [c]).map Created.id).Nodup := by
    rw [List.map_append, List.nodup_append]
    refine ⟨h.ids, List.nodup_singleton _, ?_⟩
    intro a ha b hb hab
    obtain ⟨c', hc', rfl⟩ := List.mem_map.mp ha
    obtain rfl := List.mem_singleton.mp hb
    -- the two ids differ before the node
    apply hfresh c' hc'
    rw [hab, hnew.spliced, guidPrefix, guidPrefix, nextId,
      take_createGuidFromBaseGuid hguid hnew.valid]
  have hnodes : ∀ p ∈ c.parents, getGuidNode p.2 = getGuidNode c.id := by
    intro p hp
    rw [hnew.nodes p hp, hnew.spliced]
    exact (getGuidNode_createGuidFromBaseGuid hguid hnew.valid).symm
  refine h.put (fun c' hc' => ?_) (fun c' hc' => List.mem_append_left _ hc')
    (List.mem_append_right _ List.mem_cons_self) hids hvalid hnew.fields hnodes
    (hnew.stores hvalid _) hfaults hrepo
  simpa using hc'

/-- What is about to be created is not stored: its id is new. -/
theorem Routed.not_stored (h : Routed fnv1a svc w cs) {c : Created} {base : String}
    {document : Fields} (hnew : NewDocument w c base document) (hfresh : Fresh w cs) :
    ¬ Stored fnv1a w c := by
  rintro ⟨d, hd, hstores⟩
  obtain ⟨c', hc', -, hstores'⟩ := h.known c.kind d hd hstores.itemType
  have hkeys := (Prod.mk.inj (hstores.key.symm.trans hstores'.key)).2
  have hid : c.id = c'.id := by simpa using hkeys
  apply hfresh c' hc'
  rw [← hid, hnew.spliced, guidPrefix, guidPrefix, nextId,
    take_createGuidFromBaseGuid (w.guids w.nextGuid).valid hnew.valid]

/-- A call that creates a document fails and leaves the invariant, or creates one, and
returns it if the response is not lost. -/
theorem Routed.create (h : Routed fnv1a svc w cs) {x : Creation} (hx : x.Allowed cs)
    (hfresh : Fresh w cs) :
    (∃ e w', (x.call fnv1a).run (World.handle svc) w = (.error e, w') ∧
      ¬ Stored fnv1a w' (x.created (nextId w x.base)) ∧ Routed fnv1a svc w' cs) ∨
    ∃ r w', (x.call fnv1a).run (World.handle svc) w = (r, w') ∧
      (∀ doc, r = .ok doc → Fields.get doc "id" = .str (nextId w x.base)) ∧
      Routed fnv1a svc w' (cs ++ [x.created (nextId w x.base)]) := by
  have hnew := h.newDocument hx
  have hid : (x.created (nextId w x.base)).id = nextId w x.base := hnew.spliced
  obtain ⟨noId, hrun⟩ := @Creation.run_call fnv1a svc x w
  have hlater : w.Later { w with nextGuid := w.nextGuid + 1 } := ⟨rfl, List.Subset.refl _⟩
  rcases @writeBucketed_outcome fnv1a (x.created (nextId w x.base)).kind.itemType _ _ svc
    (x.created (nextId w x.base)).kind.container { w with nextGuid := w.nextGuid + 1 }
    (h.faults.subset hlater.faults).errorsFail hnew.nodup hnew.id (hnew.unset _ (by decide))
    (hnew.unset _ (by decide)) noId with hfails | hwrites
  · left
    obtain ⟨e, w', hcall, hw'⟩ := hfails.of_run hlater hrun
    refine ⟨e, w', hcall, ?_, h.later hw'⟩
    unfold Stored
    rw [hw'.repo]
    exact h.not_stored hnew hfresh
  · right
    obtain ⟨r, w', hcall, hr, hrepo, hfaults⟩ := hwrites.of_run hlater hrun
    refine ⟨r, w', hcall, ?_, h.put_new hnew hfresh (h.faults.subset hfaults) hrepo⟩
    rintro doc rfl
    obtain ⟨-, hdoc⟩ | ⟨-, e, he⟩ := hr
    · rw [Except.ok.inj hdoc, get_bucketed_other hnew.nodup (by decide) (by decide), hnew.id, hid]
    · cases he

/-- Every `updateX` is the update of its type. -/
theorem Kind.update_eq (kind : Kind) (patch : Fields) :
    ∃ noId, kind.update fnv1a patch =
      normalizeBucketed fnv1a kind.itemType noId patch >>= fun doc =>
        mergeOrWriteDocument kind.container doc .undefined true none >>= fun response =>
        pure response.item := by
  cases kind with
  | page => exact ⟨_, rfl⟩
  | websiteScan => exact ⟨_, rfl⟩
  | pageScan => exact ⟨_, rfl⟩

section

variable (h : Routed fnv1a svc w cs) {c : Created} (hc : c ∈ cs) {patch : Obj}
  (hid : Fields.get patch.fields "id" = .str c.id)
  (hfields : ∀ k ∈ routingFields, k ∉ Fields.keys patch.fields)

include h hc hid hfields

/-- What an update of a created document has to merge. -/
theorem Routed.updateOf :
    ∃ S etag merged, (w.repo c.kind.container).find
        (.str (c.kind.bucket fnv1a c.id), .str c.id) = some S ∧
      S.get "_etag" = .str etag ∧
      UpdateOf fnv1a c.kind.itemType c.id patch.fields S merged ∧
      ∀ n, Stores fnv1a c (svc.stamp n merged) := by
  obtain ⟨S, hfind, hS⟩ := h.find hc
  obtain ⟨n, -, hetag⟩ := h.stamped _ S (Collection.find_eq_some_iff.mp hfind).1
  obtain ⟨merged, hmerged⟩ := exists_updateOf patch.wf hid (hfields _ (by decide))
    (hfields _ (by decide)) hS.key hS.itemType
  refine ⟨S, _, merged, hfind, hetag, hmerged, fun n => ?_⟩
  have hget : ∀ k s, Fields.get merged k = .str s → k ≠ "_etag" → k ≠ "_ts" →
      (svc.stamp n merged).get k = .str s :=
    fun k s => hmerged.get_stamp (ne_empty_of_valid (h.valid c hc)) n
  refine ⟨hmerged.key_stamp (ne_empty_of_valid (h.valid c hc)) n,
    hget _ _ hmerged.itemType (by decide) (by decide), ?_⟩
  intro p hp
  -- the names of the parents are among the properties the update leaves alone
  have hfield : p.1 ∈ c.kind.parentFields := h.fields c hc ▸ List.mem_map_of_mem hp
  have hrouting : ∀ k ∈ c.kind.parentFields, k ∈ routingFields := by
    cases c.kind <;> decide
  obtain ⟨-, -, hnetag, hnts⟩ := Kind.parentFields_ne hfield
  exact hget _ _ (hmerged.kept _ _ (hfields _ (hrouting _ hfield)) (hS.parents p hp)) hnetag hnts

/-- **Updating a document** keeps the invariant, however its requests end. -/
theorem Routed.update (hnewId : ∀ n, isValidV6Guid (svc.newId n) = false) :
    Routed fnv1a svc ((c.kind.update fnv1a patch.fields).run (World.handle svc) w).2 cs := by
  obtain ⟨S, etag, merged, hfind, hetag, hmerged, hstores⟩ := h.updateOf hc hid hfields
  obtain ⟨noId, hupdate⟩ := @Kind.update_eq fnv1a c.kind patch.fields
  rw [hupdate]
  rcases updateBucketed_outcome patch.wf (ne_empty_of_valid (h.valid c hc)) hid
    (hfields _ (by decide)) hfind hetag hmerged h.faults noId with
    ⟨e, w', hrun, hw'⟩ | ⟨item, hitem, -, r, w', hrun, -, hrepo, hfaults⟩
  · rw [hrun]
    exact h.later hw'
  · rw [hrun]
    have hw' := h.faults.subset hfaults
    simp only [List.mem_cons, List.not_mem_nil, or_false] at hitem
    rcases hitem with rfl | rfl
    · exact h.put (fun _ hc' => Or.inl hc') (fun _ hc' => hc') hc h.ids (h.valid c hc)
        (h.fields c hc) (h.nodes c hc) (hstores _) hw' hrepo
    · exact h.put_orphan hnewId hw' hrepo

/-- The run of an update none of whose requests fails. -/
theorem Routed.run_update (hw : w.faults = []) :
    ∃ item, (c.kind.update fnv1a patch.fields).run (World.handle svc) w =
        (.ok (svc.stamp (w.repo c.kind.container).writes item).val,
          w.store svc c.kind.container item) ∧
      Stores fnv1a c (svc.stamp (w.repo c.kind.container).writes item) := by
  obtain ⟨S, etag, merged, hfind, hetag, hmerged, hstores⟩ := h.updateOf hc hid hfields
  obtain ⟨noId, hupdate⟩ := @Kind.update_eq fnv1a c.kind patch.fields
  refine ⟨merged, ?_, hstores _⟩
  rw [hupdate]
  exact run_updateBucketed patch.wf (ne_empty_of_valid (h.valid c hc)) hid
    (hfields _ (by decide)) hfind hetag hmerged hw noId

end

/-- **Step lemma.** Every call keeps the invariant. -/
theorem Routed.step (h : Routed fnv1a svc w cs)
    (hnewId : ∀ n, isValidV6Guid (svc.newId n) = false) {w' : World} {cs' : List Created}
    (hstep : Step fnv1a svc w cs w' cs') : Routed fnv1a svc w' cs' := by
  -- a run has one outcome, and its document is stored or it is not
  cases hstep with
  | create hx hfresh hrun hid =>
    rcases h.create hx hfresh with ⟨e, w'', hrun', -⟩ | ⟨r, w'', hrun', hid', hrouted⟩
    · rw [hrun'] at hrun
      cases hrun
    · rw [hrun'] at hrun
      cases hrun
      have hsame := (hid' _ rfl).symm.trans hid
      cases hsame
      exact hrouted
  | createFails hx hfresh hrun hnone =>
    rcases h.create hx hfresh with ⟨e, w'', hrun', -, hrouted⟩ | ⟨r, w'', hrun', -, hrouted⟩
    · rw [hrun'] at hrun
      cases hrun
      exact hrouted
    · rw [hrun'] at hrun
      cases hrun
      exact absurd (hrouted.stored _ (List.mem_append_right _ List.mem_cons_self)) hnone
  | createLost hx hfresh hrun hstored =>
    rcases h.create hx hfresh with ⟨e, w'', hrun', hnone, -⟩ | ⟨r, w'', hrun', -, hrouted⟩
    · rw [hrun'] at hrun
      cases hrun
      exact absurd hstored hnone
    · rw [hrun'] at hrun
      cases hrun
      exact hrouted
  | update hc hid hfields hrun =>
    have hrouted := h.update hc hid hfields hnewId
    rwa [hrun] at hrouted

/-- **Run lemma.** The invariant holds of every world a run reaches. -/
theorem Reaches.routed {w₀ : World} (hr : Reaches fnv1a svc w₀ w cs)
    (hnewId : ∀ n, isValidV6Guid (svc.newId n) = false) (h₀ : Routed fnv1a svc w₀ []) :
    Routed fnv1a svc w cs := by
  induction hr with
  | refl => exact h₀
  | step _ hstep ih => exact ih.step hnewId hstep

end

end WebInsights.Providers
