/-
Partition routing with callers that overlap.

Functions of the service run beside each other, and a POST of a website creates its pages all
at once: between two requests of one call of a provider come requests of others. Whatever the
interleaving, what is stored is what the creations that have returned made and the updates kept
in place, so listings and point reads are as exact as if the calls came one after another. A
creation whose write was carried out and its response lost throws, and its document is there.
-/
import Mathlib.Data.Fintype.Card
import WebInsights.Cosmos.BulkMerges
import WebInsights.Providers.PartitionRouting

set_option autoImplicit false

namespace WebInsights.Providers

open Common Cosmos CosmosClientWrapper CosmosContainerClient Effect Js

/-! ## Calls -/

/-- A call of a provider that others may overlap. -/
inductive Call where
  | create (x : Creation)
  | update (c : Created) (patch : Obj)

namespace Creation

def kind : Creation → Kind
  | .page _ _ => .page
  | .websiteScan _ _ _ _ => .websiteScan
  | .pageScan _ _ _ => .pageScan

@[simp] theorem kind_created (x : Creation) (id : String) : (x.created id).kind = x.kind := by
  cases x <;> rfl

@[simp] theorem id_created (x : Creation) (id : String) : (x.created id).id = id := by
  cases x <;> rfl

variable (fnv1a : String → ℕ) (x : Creation) (id : String)

/-- The document that is written. -/
def item : Fields := bucketed fnv1a x.kind.itemType id (x.document id)

theorem nodup_document : (Fields.keys (x.document id)).Nodup := by
  cases x <;> simp [document]

theorem unset_document :
    ∀ k ∈ ["itemType", "partitionKey", "_etag", "_ts"], k ∉ Fields.keys (x.document id) := by
  cases x <;> simp [document]

theorem get_document_id : Fields.get (x.document id) "id" = .str id := by
  cases x <;> rfl

theorem get_item_id : Fields.get (x.item fnv1a id) "id" = .str id :=
  (get_bucketed_other (x.nodup_document id) (by decide) (by decide)).trans (x.get_document_id id)

theorem get_item_partitionKey :
    Fields.get (x.item fnv1a id) "partitionKey" = .str (x.kind.bucket fnv1a id) :=
  get_bucketed_partitionKey (x.nodup_document id) (x.unset_document id _ (by decide))

theorem get_item_etag : Fields.get (x.item fnv1a id) "_etag" = .undefined :=
  (get_bucketed_other (x.nodup_document id) (by decide) (by decide)).trans
    (Fields.get_eq_undefined_of_notMem (x.unset_document id _ (by decide)))

/-- What follows the write. -/
def afterWrite : Except SdkError Answer → Async Val
  | .ok _ => pure (.obj (x.item fnv1a id))
  | .error error =>
    handleFailedOperationResponse "upsertItem" error true (.str id) >>=
      fun _ => pure (.obj (x.item fnv1a id))

/-- What follows the UUID. -/
def writing : Async Val :=
  .call (.cosmos x.kind.container (.upsert (x.item fnv1a id) none)) (x.afterWrite fnv1a id)

theorem writeDocument_item :
    (writeDocument x.kind.container (x.item fnv1a id) .undefined true >>= fun _ =>
      pure (.obj (x.item fnv1a id))) = x.writing fnv1a id := by
  have heff : effectivePartitionKey (x.item fnv1a id) .undefined =
      .str (x.kind.bucket fnv1a id) := x.get_item_partitionKey fnv1a id
  have hassign := @assignPartitionKey_eq_self (x.item fnv1a id) (.str (x.kind.bucket fnv1a id))
    nofun (x.get_item_partitionKey fnv1a id)
  unfold writeDocument getEffectivePartitionKey
  rw [heff, if_neg nofun, pure_bind, upsertItem_eq,
    upsertRequest, hassign, get_item_id, getOptions,
    if_pos (x.get_item_etag fnv1a id)]
  unfold writing request
  rw [Program.perform_bind]
  refine congrArg (Program.call _) (funext fun answer => ?_)
  cases answer <;> rfl

/-- A creation draws a UUID, and writes its document. -/
theorem call_eq : (x.call fnv1a >>= fun doc => pure (.obj doc)) =
    (.call .uuidV6 fun guid => x.writing fnv1a (createGuidFromBaseGuid guid.text x.base) :
      Async Val) := by
  have hcall : x.call fnv1a = (.call .uuidV6 fun guid =>
      writeDocument x.kind.container (x.item fnv1a (createGuidFromBaseGuid guid.text x.base))
        .undefined true >>= fun _ =>
      pure (x.item fnv1a (createGuidFromBaseGuid guid.text x.base)) : Async Fields) := by
    cases x <;> rfl
  rw [hcall]
  refine congrArg (Program.call _) (funext fun guid => ?_)
  rw [← writeDocument_item]
  exact Program.bind_bind _ _ _

end Creation

/-! ## What callers have come to -/

section

variable {ι : Type} (fnv1a : String → ℕ) (svc : Service)

def Call.program : Call → Async Val
  | .create x => x.call fnv1a >>= fun doc => pure (.obj doc)
  | .update c patch => c.kind.update fnv1a patch.fields

/-- What may be called for when this is created: a new document for parents that are there, and
an update of one that is there, which leaves the routing to the providers. -/
def Call.Allowed (cs : List Created) : Call → Prop
  | .create x => x.Allowed cs
  | .update c patch => c ∈ cs ∧ Fields.get patch.fields "id" = .str c.id ∧
      ∀ k ∈ routingFields, k ∉ Fields.keys patch.fields

/-- The next `n` UUIDs are different from each other and from those drawn for `cs`, before the
node. -/
structure FreshFor (w : World) (cs : List Created) (n : ℕ) : Prop where
  distinct : ∀ i j, i < j → j < n →
    guidPrefix (w.guids (w.nextGuid + i)).text ≠ guidPrefix (w.guids (w.nextGuid + j)).text
  unused : ∀ c ∈ cs, ∀ i < n, guidPrefix c.id ≠ guidPrefix (w.guids (w.nextGuid + i)).text

/-- The world in which the UUID number `m` is the next one. -/
def drawing (w : World) (m : ℕ) : World := { w with nextGuid := w.nextGuid + m }

/-- The merge that an update performs. -/
def updateCall (c : Created) (patch : Obj) : MergeCall where
  document := ⟨bucketed fnv1a c.kind.itemType c.id patch.fields, wf_bucketed patch.wf⟩
  partitionKey := .undefined
  throwIfNotSuccess := true
  customMerge := none

/-- The upsert of an update, and what follows it. -/
def updating (c : Created) (item : Fields) : Async Val :=
  upsertItem c.kind.container item (.str (c.kind.bucket fnv1a c.id)) true >>= fun response =>
    pure response.item

/-- Where a call can be, when the callers `drawn` have drawn a UUID and those of `order` have
created what stands beside them. -/
inductive CallProgress (w : World) (drawn : List ι) (order : List (ι × Created)) (i : ι) :
    Call → Async Val → Prop
  | waiting {call} (h : i ∉ drawn) : CallProgress w drawn order i call (call.program fnv1a)
  | writing {x m} (hm : drawn[m]? = some i) (h : i ∉ order.map Prod.fst) :
      CallProgress w drawn order i (.create x)
        (x.writing fnv1a (nextId (drawing w m) x.base))
  | updating {c patch item} (h : i ∉ drawn)
      (hitem : item = [] ∨ ∀ n, Stores fnv1a c (svc.stamp n
        (assignPartitionKey item (.str (c.kind.bucket fnv1a c.id))))) :
      CallProgress w drawn order i (.update c patch) (updating fnv1a c item)
  | created {x m} (hm : drawn[m]? = some i)
      (h : (i, x.created (nextId (drawing w m) x.base)) ∈ order) :
      CallProgress w drawn order i (.create x)
        (pure (.obj (x.item fnv1a (nextId (drawing w m) x.base))))
  | lost {x m e} (hm : drawn[m]? = some i)
      (h : (i, x.created (nextId (drawing w m) x.base)) ∈ order) (hlose : w.MayLose) :
      CallProgress w drawn order i (.create x) (throw e)
  | ended {call prog} (hend : prog.Ended) (h : i ∉ order.map Prod.fst)
      (hcreate : ∀ x v, call = .create x → prog ≠ pure v) :
      CallProgress w drawn order i call prog

abbrev CallPool (ι : Type) : Type :=
  Pool ι Operation Operation.Result World JsError Val

/-- What holds of every pool a run reaches from the world `w`, in which `cs` is created. -/
structure Overlapping (calls : ι → Call) (w : World) (cs : List Created) (p : CallPool ι)
    (drawn : List ι) (order : List (ι × Created)) : Prop where
  guids : p.shared.guids = w.guids
  faults : p.shared.faults ⊆ w.faults
  next : p.shared.nextGuid = w.nextGuid + drawn.length
  nodup : drawn.Nodup
  once : (order.map Prod.fst).Nodup
  made : ∀ a ∈ order, ∃ x m, calls a.1 = .create x ∧ drawn[m]? = some a.1 ∧
    a.2 = x.created (nextId (drawing w m) x.base)
  routed : Routed fnv1a svc p.shared (cs ++ order.map Prod.snd)
  progress : ∀ i, CallProgress fnv1a svc w drawn order i (calls i) (p.threads i).prog

variable {fnv1a svc} {w : World} {cs : List Created} {calls : ι → Call} {p : CallPool ι}
  {drawn : List ι} {order : List (ι × Created)} {i : ι}

theorem handle_cosmos_guids (w : World) (container : Container) (r : Request) :
    (World.handle svc (.cosmos container r) w).2.guids = w.guids ∧
      (World.handle svc (.cosmos container r) w).2.nextGuid = w.nextGuid := by
  rcases hf : w.faults with _ | ⟨_ | f, faults⟩
  · rw [World.handle_faultless svc hf]
    exact ⟨rfl, rfl⟩
  · simp only [World.handle, hf]
    exact ⟨rfl, rfl⟩
  · rw [World.handle_fault svc hf]
    cases f.carriedOut <;> exact ⟨rfl, rfl⟩

theorem handle_cosmos_later {w : World} {container : Container} {r : Request}
    (h : (World.handle svc (.cosmos container r) w).2.repo = w.repo) :
    w.Later (World.handle svc (.cosmos container r) w).2 :=
  ⟨h, World.handle_faults_subset svc _ w⟩

/-- What others draw and create does not move a call. -/
theorem CallProgress.others {call : Call} {prog : Async Val}
    (h : CallProgress fnv1a svc w drawn order i call prog) {ds : List ι}
    {os : List (ι × Created)} (hds : i ∉ ds) (hos : i ∉ os.map Prod.fst) :
    CallProgress fnv1a svc w (drawn ++ ds) (order ++ os) i call prog := by
  have hdrawn : i ∉ drawn → i ∉ drawn ++ ds := by simp_all
  have horder : i ∉ order.map Prod.fst → i ∉ (order ++ os).map Prod.fst := by simp_all
  have hget : ∀ {m}, drawn[m]? = some i → (drawn ++ ds)[m]? = some i := fun hm =>
    (List.getElem?_append_left (List.getElem?_eq_some_iff.mp hm).1).trans hm
  cases h with
  | waiting h => exact .waiting (hdrawn h)
  | writing hm h => exact .writing (hget hm) (horder h)
  | updating h hitem => exact .updating (hdrawn h) hitem
  | created hm h => exact .created (hget hm) (List.mem_append_left _ h)
  | lost hm h hlose => exact .lost (hget hm) (List.mem_append_left _ h) hlose
  | ended hend h hcreate => exact .ended hend (horder h) hcreate

theorem Creation.Allowed.mono {x : Creation} (hx : x.Allowed cs) {cs' : List Created} :
    x.Allowed (cs ++ cs') := by
  cases x with
  | page | websiteScan => exact hx
  | pageScan =>
    obtain ⟨websiteId, hpage, hscan⟩ := hx
    exact ⟨websiteId, List.mem_append_left _ hpage, List.mem_append_left _ hscan⟩

theorem CallProgress.update_ended {c : Created} {patch : Obj} {prog : Async Val}
    (hend : prog.Ended) (h : i ∉ order.map Prod.fst) :
    CallProgress fnv1a svc w drawn order i (.update c patch) prog := by
  apply CallProgress.ended hend h
  intro x v hcall
  cases hcall

/-- Who has created something has drawn a UUID. -/
theorem Overlapping.mem_drawn (h : Overlapping fnv1a svc calls w cs p drawn order)
    (hi : i ∈ order.map Prod.fst) : i ∈ drawn := by
  obtain ⟨a, ha, rfl⟩ := List.mem_map.mp hi
  obtain ⟨x, m, -, hm, -⟩ := h.made a ha
  exact List.mem_of_getElem? hm

/-- The world of a pool, with the UUID number `m` for the next one, is free for it. -/
theorem Overlapping.fresh (h : Overlapping fnv1a svc calls w cs p drawn order) [Fintype ι]
    (hallowed : ∀ i, (calls i).Allowed cs) (hfresh : FreshFor w cs (Fintype.card ι)) {m : ℕ}
    (hm : drawn[m]? = some i) (hi : i ∉ order.map Prod.fst) :
    Fresh { p.shared with nextGuid := w.nextGuid + m } (cs ++ order.map Prod.snd) := by
  have hlt : ∀ {m j}, drawn[m]? = some j → m < Fintype.card ι := fun hm =>
    (List.getElem?_eq_some_iff.mp hm).1.trans_le h.nodup.length_le_card
  have hguids : ({ p.shared with nextGuid := w.nextGuid + m } : World).guids = w.guids := h.guids
  intro c hc
  rw [hguids]
  rcases List.mem_append.mp hc with hc | hc
  · exact hfresh.unused c hc m (hlt hm)
  · obtain ⟨a, ha, rfl⟩ := List.mem_map.mp hc
    obtain ⟨x, m', hx, hm', hac⟩ := h.made a ha
    have hne : m' ≠ m := by
      rintro rfl
      rw [hm] at hm'
      exact hi (List.mem_map.mpr ⟨a, ha, (Option.some.inj hm').symm⟩)
    have hxallowed : x.Allowed cs := by
      have := hallowed a.1
      rwa [hx] at this
    have hbase := (h.routed.newDocument hxallowed.mono).valid
    -- the ids differ before the node as the UUIDs do
    have hguid : guidPrefix a.2.id = guidPrefix (w.guids (w.nextGuid + m')).text := by
      rw [hac, Creation.id_created]
      exact take_createGuidFromBaseGuid (w.guids (w.nextGuid + m')).valid hbase
    rw [hguid]
    rcases Nat.lt_or_gt_of_ne hne with hlt' | hlt'
    · exact hfresh.distinct m' m hlt' (hlt hm)
    · exact (hfresh.distinct m m' hlt' (hlt hm')).symm

variable [DecidableEq ι]

/-- A step of a caller, with what it draws and creates. -/
theorem Overlapping.perform (h : Overlapping fnv1a svc calls w cs p drawn order) {op : Operation}
    {k : op.Result → Async Val} {ds : List ι} {os : List (ι × Created)} (hds : ∀ j ∈ ds, j = i)
    (hos : ∀ a ∈ os, a.1 = i)
    (hguids : (World.handle svc op p.shared).2.guids = p.shared.guids)
    (hnext : (World.handle svc op p.shared).2.nextGuid = p.shared.nextGuid + ds.length)
    (hnodup : (drawn ++ ds).Nodup) (honce : ((order ++ os).map Prod.fst).Nodup)
    (hmade : ∀ a ∈ os, ∃ x m, calls a.1 = .create x ∧ (drawn ++ ds)[m]? = some a.1 ∧
      a.2 = x.created (nextId (drawing w m) x.base))
    (hrouted : Routed fnv1a svc (World.handle svc op p.shared).2
      (cs ++ (order ++ os).map Prod.snd))
    (hprog : CallProgress fnv1a svc w (drawn ++ ds) (order ++ os) i (calls i)
      (k (World.handle svc op p.shared).1)) :
    Overlapping fnv1a svc calls w cs (p.perform (World.handle svc) i op k) (drawn ++ ds)
      (order ++ os) where
  guids := hguids.trans h.guids
  faults := List.Subset.trans (World.handle_faults_subset svc op p.shared) h.faults
  next := by
    have hshared : (p.perform (World.handle svc) i op k).shared.nextGuid =
        p.shared.nextGuid + ds.length := hnext
    rw [hshared, h.next, List.length_append, Nat.add_assoc]
  nodup := hnodup
  once := honce
  made := by
    intro a ha
    rcases List.mem_append.mp ha with ha | ha
    · obtain ⟨x, m, hx, hm, hc⟩ := h.made a ha
      exact ⟨x, m, hx, (List.getElem?_append_left (List.getElem?_eq_some_iff.mp hm).1).trans hm, hc⟩
    · exact hmade a ha
  routed := hrouted
  progress := by
    intro j
    by_cases hj : j = i
    · subst hj
      rw [Pool.perform_threads_self]
      exact hprog
    · rw [Pool.perform_threads_ne _ _ hj]
      -- the other callers know nothing of the new entries
      refine (h.progress j).others (fun hmem => hj (hds j hmem)) fun hmem => ?_
      obtain ⟨a, ha, rfl⟩ := List.mem_map.mp hmem
      exact hj (hos a ha)

/-- A request that creates nothing new. -/
theorem Overlapping.written (h : Overlapping fnv1a svc calls w cs p drawn order)
    {container : Container} {r : Request} {k : Except SdkError Answer → Async Val}
    (hrouted : Routed fnv1a svc (World.handle svc (.cosmos container r) p.shared).2
      (cs ++ order.map Prod.snd))
    (hprog : CallProgress fnv1a svc w drawn order i (calls i)
      (k (World.handle svc (.cosmos container r) p.shared).1)) :
    Overlapping fnv1a svc calls w cs (p.perform (World.handle svc) i (.cosmos container r) k)
      drawn order := by
  have hguids := @handle_cosmos_guids svc p.shared container r
  have hstep := @Overlapping.perform _ fnv1a svc w cs calls p drawn order i _ h
    (.cosmos container r) k [] [] nofun nofun hguids.1 hguids.2
  simp only [List.append_nil] at hstep
  exact hstep h.nodup h.once nofun hrouted hprog

/-- A request that writes nothing. -/
theorem Overlapping.quiet (h : Overlapping fnv1a svc calls w cs p drawn order)
    {container : Container} {r : Request} {k : Except SdkError Answer → Async Val}
    (hrepo : (World.handle svc (.cosmos container r) p.shared).2.repo = p.shared.repo)
    (hprog : CallProgress fnv1a svc w drawn order i (calls i)
      (k (World.handle svc (.cosmos container r) p.shared).1)) :
    Overlapping fnv1a svc calls w cs (p.perform (World.handle svc) i (.cosmos container r) k)
      drawn order :=
  h.written (h.routed.later (handle_cosmos_later hrepo)) hprog

/-- **A creation draws its UUID.** -/
theorem Overlapping.draw (h : Overlapping fnv1a svc calls w cs p drawn order) {x : Creation}
    (hx : calls i = .create x) (hi : i ∉ drawn) :
    Overlapping fnv1a svc calls w cs (p.perform (World.handle svc) i .uuidV6 fun guid =>
      x.writing fnv1a (createGuidFromBaseGuid guid.text x.base)) (drawn ++ [i]) order := by
  have hstep := @Overlapping.perform _ fnv1a svc w cs calls p drawn order i _ h .uuidV6
    (fun guid => x.writing fnv1a (createGuidFromBaseGuid guid.text x.base)) [i] []
    (fun j hj => List.mem_singleton.mp hj) nofun rfl rfl
  simp only [List.append_nil] at hstep
  refine hstep ?_ h.once nofun (h.routed.later ⟨rfl, List.Subset.refl _⟩) ?_
  · rw [List.nodup_append]
    refine ⟨h.nodup, List.nodup_singleton i, ?_⟩
    rintro j hj l hl rfl
    exact hi (List.mem_singleton.mp hl ▸ hj)
  · rw [hx]
    have hid : createGuidFromBaseGuid (p.shared.guids p.shared.nextGuid).text x.base =
        nextId (drawing w drawn.length) x.base := by
      rw [h.guids, h.next]
      rfl
    show CallProgress _ _ _ _ _ _ _
      (x.writing fnv1a (createGuidFromBaseGuid (p.shared.guids p.shared.nextGuid).text x.base))
    rw [hid]
    exact .writing List.getElem?_concat_length fun hmem => hi (h.mem_drawn hmem)

/-- The document of a creation is written, with or without an answer. -/
theorem Overlapping.creates (h : Overlapping fnv1a svc calls w cs p drawn order) [Fintype ι]
    (hallowed : ∀ i, (calls i).Allowed cs) (hfresh : FreshFor w cs (Fintype.card ι))
    {x : Creation} (hx : calls i = .create x) {m : ℕ} (hm : drawn[m]? = some i)
    (hi : i ∉ order.map Prod.fst) {id : String} (hid : id = nextId (drawing w m) x.base)
    (hrepo : (World.handle svc (.cosmos x.kind.container (.upsert (x.item fnv1a id) none))
        p.shared).2.repo = Function.update p.shared.repo x.kind.container
      ((p.shared.repo x.kind.container).put
        (svc.stamp (p.shared.repo x.kind.container).writes (x.item fnv1a id))))
    (hprog : ∀ order', (i, x.created id) ∈ order' → CallProgress fnv1a svc w drawn order' i
      (calls i) (x.afterWrite fnv1a id (World.handle svc
        (.cosmos x.kind.container (.upsert (x.item fnv1a id) none)) p.shared).1)) :
    Overlapping fnv1a svc calls w cs (p.perform (World.handle svc) i
      (.cosmos x.kind.container (.upsert (x.item fnv1a id) none)) (x.afterWrite fnv1a id)) drawn
      (order ++ [(i, x.created id)]) := by
  have hxallowed : x.Allowed cs := by
    have := hallowed i
    rwa [hx] at this
  -- the document is written as if its UUID were drawn now
  have hlater : p.shared.Later { p.shared with nextGuid := w.nextGuid + m } :=
    ⟨rfl, List.Subset.refl _⟩
  have hrouted := h.routed.later hlater
  have hnew := hrouted.newDocument (hxallowed.mono)
  have hnext : nextId { p.shared with nextGuid := w.nextGuid + m } x.base = id := by
    rw [hid]
    unfold nextId drawing
    dsimp only
    rw [h.guids]
  rw [hnext] at hnew
  have hput := hrouted.put_new hnew (h.fresh hallowed hfresh hm hi)
    (h.routed.faults.subset (World.handle_faults_subset svc _ _))
    (by rw [Creation.kind_created, Creation.id_created]; exact hrepo)
  have hguids := @handle_cosmos_guids svc p.shared x.kind.container
    (.upsert (x.item fnv1a id) none)
  have hstep := @Overlapping.perform _ fnv1a svc w cs calls p drawn order i _ h
    (.cosmos x.kind.container (.upsert (x.item fnv1a id) none)) (x.afterWrite fnv1a id) []
    [(i, x.created id)] nofun (fun a ha => by rw [List.mem_singleton.mp ha]) hguids.1 hguids.2
  simp only [List.append_nil] at hstep
  refine hstep h.nodup ?_ ?_ ?_ (hprog _ (List.mem_append_right _ List.mem_cons_self))
  · rw [List.map_append, List.nodup_append]
    refine ⟨h.once, List.nodup_singleton i, ?_⟩
    rintro j hj l hl rfl
    have hji : j = i := List.mem_singleton.mp hl
    exact hi (hji ▸ hj)
  · intro a ha
    obtain rfl := List.mem_singleton.mp ha
    exact ⟨x, m, hx, hm, by rw [← hid]⟩
  · rw [List.map_append, ← List.append_assoc]
    exact hput

/-- **A creation writes its document.** -/
theorem Overlapping.write (h : Overlapping fnv1a svc calls w cs p drawn order) [Fintype ι]
    (hallowed : ∀ i, (calls i).Allowed cs) (hfresh : FreshFor w cs (Fintype.card ι))
    {x : Creation} (hx : calls i = .create x) {m : ℕ} (hm : drawn[m]? = some i)
    (hi : i ∉ order.map Prod.fst) {id : String} (hid : id = nextId (drawing w m) x.base) :
    ∃ order', Overlapping fnv1a svc calls w cs (p.perform (World.handle svc) i
      (.cosmos x.kind.container (.upsert (x.item fnv1a id) none)) (x.afterWrite fnv1a id)) drawn
      order' := by
  -- a fault is thrown
  have hthrows : ∀ f, some f ∈ p.shared.faults → ∃ e',
      x.afterWrite fnv1a id (.error f.error) = throw e' := by
    intro f hf
    obtain ⟨e', he'⟩ := handleFailedOperationResponse_throws
      (fun status hstatus => (h.routed.faults f hf status hstatus).1) "upsertItem" (.str id)
    exact ⟨e', by rw [Creation.afterWrite, he']; rfl⟩
  rcases World.handle_cosmos_cases svc p.shared x.kind.container
    (.upsert (x.item fnv1a id) none) with ⟨f, hf, hanswer, hrepo⟩ |
      ⟨f, hf, hcarried, hanswer, hrepo⟩ | ⟨hanswer, hrepo⟩
  · obtain ⟨e', he'⟩ := hthrows f hf
    refine ⟨order, h.quiet hrepo ?_⟩
    rw [hanswer, hx, he']
    exact .ended trivial hi nofun
  · rw [Collection.serve_upsert svc (Collection.admits_none _ _)] at hrepo
    obtain ⟨e', he'⟩ := hthrows f (List.mem_of_head? hf)
    refine ⟨_, h.creates hallowed hfresh hx hm hi hid hrepo fun order' hmem => ?_⟩
    rw [hanswer, hx, he']
    exact .lost hm (hid ▸ hmem) ⟨f, h.faults (List.mem_of_head? hf), hcarried⟩
  · rw [Collection.serve_upsert svc (Collection.admits_none _ _)] at hanswer hrepo
    refine ⟨_, h.creates hallowed hfresh hx hm hi hid hrepo fun order' hmem => ?_⟩
    rw [hanswer, hx]
    show CallProgress _ _ _ _ _ _ _ (pure (.obj (x.item fnv1a id)))
    rw [hid] at hmem ⊢
    exact .created hm hmem

/-! ## Updates -/

section Update

variable {c : Created} {patch : Obj} (hid : Fields.get patch.fields "id" = .str c.id)
  (hne : c.id ≠ "") (hpk : "partitionKey" ∉ Fields.keys patch.fields)

include hid hne hpk

theorem targets_updateCall :
    (updateCall fnv1a c patch).Targets c.id (c.kind.bucket fnv1a c.id) := by
  have hpk' := @get_bucketed_partitionKey fnv1a c.kind.itemType c.id patch.fields patch.wf.1 hpk
  refine ⟨hne, ?_, hpk', Or.inr hpk', fun k _ f hf => by cases hf⟩
  exact (get_bucketed_other patch.wf.1 (by decide) (by decide)).trans hid

/-- An update reads its document first. -/
theorem update_eq : (Call.update c patch).program fnv1a =
    .call (.cosmos c.kind.container (.read (.str c.id) (.str (c.kind.bucket fnv1a c.id))))
      fun answer => (updateCall fnv1a c patch).afterRead c.kind.container
        (c.kind.bucket fnv1a c.id) answer >>= fun response => pure response.item := by
  obtain ⟨noId, hupdate⟩ := @Kind.update_eq fnv1a c.kind patch.fields
  have hprogram := @MergeCall.program_eq c.kind.container _ _ _
    (@targets_updateCall fnv1a c patch hid hne hpk)
  have hmerge : mergeOrWriteDocument c.kind.container
      (bucketed fnv1a c.kind.itemType c.id patch.fields) .undefined true none =
      (updateCall fnv1a c patch).program c.kind.container := rfl
  show c.kind.update fnv1a patch.fields = _
  rw [hupdate, normalizeBucketed_eq fnv1a hid, pure_bind, hmerge, hprogram]
  rfl

end Update

/-- What follows the upsert of an update. -/
def afterUpdate (id : Val) : Except SdkError Answer → Async Val
  | .ok answer => pure answer.resource
  | .error error => handleFailedOperationResponse "upsertItem" error true id >>= fun response =>
      pure response.item

theorem updating_eq (c : Created) (item : Fields) : updating fnv1a c item =
    .call (.cosmos c.kind.container (upsertRequest item (.str (c.kind.bucket fnv1a c.id))))
      (afterUpdate (Fields.get (assignPartitionKey item
        (.str (c.kind.bucket fnv1a c.id))) "id")) := by
  unfold updating
  rw [upsertItem_eq]
  refine congrArg (Program.call _) (funext fun answer => ?_)
  cases answer <;> rfl

/-- After a failed read with a status, an update is merged into nothing. -/
theorem afterRead_failed (c : Created) (patch : Obj) {e : SdkError} {status : StatusCode}
    (hcode : e.code = some status) (hstatus : status ≠ .code 404) (pk : String) :
    (updateCall fnv1a c patch).afterRead c.kind.container pk (.error e) =
      upsertItem c.kind.container [] (.str pk) true := by
  rw [MergeCall.afterRead, readResponse, errorResponse, client.getErrorResponse, hcode,
    Option.map_some, Program.ofExcept_ok, pure_bind]
  exact mergeOrWrite_merged hstatus
    (mergedDocument_undefined_none (updateCall fnv1a c patch).document.fields) _ _

/-- **The read of an update.** -/
theorem Overlapping.readUpdate (h : Overlapping fnv1a svc calls w cs p drawn order) {c : Created}
    {patch : Obj} (hcall : calls i = .update c patch) (hallowed : (calls i).Allowed cs)
    (hi : i ∉ drawn) :
    Overlapping fnv1a svc calls w cs (p.perform (World.handle svc) i
      (.cosmos c.kind.container (.read (.str c.id) (.str (c.kind.bucket fnv1a c.id))))
      fun answer => (updateCall fnv1a c patch).afterRead c.kind.container
        (c.kind.bucket fnv1a c.id) answer >>= fun response => pure response.item) drawn order := by
  rw [hcall] at hallowed
  obtain ⟨hc, hid, hfields⟩ := hallowed
  have hmem : c ∈ cs ++ order.map Prod.snd := List.mem_append_left _ hc
  have horder : i ∉ order.map Prod.fst := fun hmem => hi (h.mem_drawn hmem)
  refine h.quiet (@World.handle_readOnly svc (.cosmos _ (.read _ _)) trivial p.shared) ?_
  rw [hcall]
  rcases World.handle_answer_cases svc p.shared c.kind.container
    (.read (.str c.id) (.str (c.kind.bucket fnv1a c.id))) with ⟨f, hf, hanswer⟩ | hanswer
  · rw [hanswer]
    rcases hcode : f.error.code with _ | status
    · rw [afterRead_error hcode]
      exact .update_ended trivial horder
    · -- with a status, the read counts as one that found no item
      rw [afterRead_failed c patch hcode (h.routed.faults f hf status hcode).2]
      exact .updating hi (Or.inl rfl)
  · obtain ⟨S, etag, merged, hfind, -, hmerged, hstores⟩ := h.routed.updateOf hmem hid hfields
    have hitem : (updateCall fnv1a c patch).item (some S) = .ok merged := hmerged.result
    rw [Collection.serve_read_some svc hfind] at hanswer
    have hafter := @afterRead_readAnswer c.kind.container (updateCall fnv1a c patch)
      (c.kind.bucket fnv1a c.id) (some S)
    rw [hitem] at hafter
    rw [hanswer]
    show CallProgress _ _ _ _ _ _ _ (MergeCall.afterRead _ _ _ (.ok (readAnswer (some S))) >>= _)
    rw [hafter]
    refine .updating hi (Or.inr fun n => ?_)
    have hassign := @assignPartitionKey_eq_self merged (.str (c.kind.bucket fnv1a c.id)) nofun
      hmerged.partitionKey
    rw [hassign]
    exact hstores n

/-- **The upsert of an update.** -/
theorem Overlapping.writeUpdate (h : Overlapping fnv1a svc calls w cs p drawn order)
    (hnewId : ∀ n, isValidV6Guid (svc.newId n) = false) {c : Created}
    {patch : Obj} (hcall : calls i = .update c patch) (hallowed : (calls i).Allowed cs)
    (hi : i ∉ drawn) {item : Fields} (hitem : item = [] ∨ ∀ n, Stores fnv1a c (svc.stamp n
      (assignPartitionKey item (.str (c.kind.bucket fnv1a c.id))))) (v : Val) :
    Overlapping fnv1a svc calls w cs (p.perform (World.handle svc) i (.cosmos c.kind.container
      (upsertRequest item (.str (c.kind.bucket fnv1a c.id)))) (afterUpdate v)) drawn order := by
  rw [hcall] at hallowed
  have hmem : c ∈ cs ++ order.map Prod.snd := List.mem_append_left _ hallowed.1
  have horder : i ∉ order.map Prod.fst := fun hmem => hi (h.mem_drawn hmem)
  have hended : ∀ e : SdkError, (∀ status, e.code = some status →
      client.isSuccessStatusCode status = false) →
      CallProgress fnv1a svc w drawn order i (calls i) (afterUpdate v (.error e)) := by
    intro e he
    obtain ⟨e', he'⟩ := handleFailedOperationResponse_throws he "upsertItem" v
    rw [hcall, afterUpdate, he']
    exact .update_ended trivial horder
  by_cases hadmits : (p.shared.repo c.kind.container).Admits
      (svc.stamp (p.shared.repo c.kind.container).writes
        (assignPartitionKey item (.str (c.kind.bucket fnv1a c.id)))).key
      (getOptions (assignPartitionKey item (.str (c.kind.bucket fnv1a c.id))))
  · have hfaults := h.routed.faults.subset (World.handle_faults_subset svc
      (.cosmos c.kind.container (upsertRequest item (.str (c.kind.bucket fnv1a c.id)))) p.shared)
    have hserved := Collection.serve_upsert svc hadmits
    -- an item that was merged into nothing has no id, and goes where no creation is
    have hput : (World.handle svc (.cosmos c.kind.container
        (upsertRequest item (.str (c.kind.bucket fnv1a c.id)))) p.shared).2.repo =
          Function.update p.shared.repo c.kind.container ((p.shared.repo c.kind.container).put
            (svc.stamp (p.shared.repo c.kind.container).writes
              (assignPartitionKey item (.str (c.kind.bucket fnv1a c.id))))) →
        Routed fnv1a svc (World.handle svc (.cosmos c.kind.container
          (upsertRequest item (.str (c.kind.bucket fnv1a c.id)))) p.shared).2
            (cs ++ order.map Prod.snd) := by
      intro hrepo
      rcases hitem with rfl | hstores
      · exact h.routed.put_orphan hnewId hfaults hrepo
      · exact h.routed.put (fun _ hc' => Or.inl hc') (fun _ hc' => hc') hmem h.routed.ids
          (h.routed.valid c hmem) (h.routed.fields c hmem) (h.routed.nodes c hmem) (hstores _)
          hfaults hrepo
    rcases World.handle_cosmos_cases svc p.shared c.kind.container
      (upsertRequest item (.str (c.kind.bucket fnv1a c.id))) with ⟨f, hf, hanswer, hrepo⟩ |
        ⟨f, hf, -, hanswer, hrepo⟩ | ⟨hanswer, hrepo⟩
    · refine h.quiet hrepo ?_
      rw [hanswer]
      exact hended f.error fun status hstatus => (h.routed.faults f hf status hstatus).1
    · rw [upsertRequest, hserved] at hrepo
      refine h.written (hput hrepo) ?_
      rw [hanswer]
      exact hended f.error fun status hstatus =>
        (h.routed.faults f (List.mem_of_head? hf) status hstatus).1
    · rw [upsertRequest, hserved] at hanswer hrepo
      refine h.written (hput hrepo) ?_
      rw [upsertRequest, hanswer, hcall]
      exact .update_ended trivial horder
  · -- the document has changed since it was read
    have hserved := Collection.serve_upsert_conflict svc hadmits
    have hrepo : (World.handle svc (.cosmos c.kind.container
        (upsertRequest item (.str (c.kind.bucket fnv1a c.id)))) p.shared).2.repo =
          p.shared.repo := by
      rcases World.handle_cosmos_cases svc p.shared c.kind.container
        (upsertRequest item (.str (c.kind.bucket fnv1a c.id))) with ⟨-, -, -, hrepo⟩ |
          ⟨-, -, -, -, hrepo⟩ | ⟨-, hrepo⟩
      · exact hrepo
      · rw [hrepo, upsertRequest, hserved, Function.update_eq_self]
      · rw [hrepo, upsertRequest, hserved, Function.update_eq_self]
    refine h.quiet hrepo ?_
    rcases World.handle_answer_cases svc p.shared c.kind.container
      (upsertRequest item (.str (c.kind.bucket fnv1a c.id))) with ⟨f, hf, hanswer⟩ | hanswer
    · rw [hanswer]
      exact hended f.error fun status hstatus => (h.routed.faults f hf status hstatus).1
    · rw [hanswer, upsertRequest, hserved]
      refine hended _ ?_
      rintro status hs
      cases hs
      rfl

/-- **One step** of any caller. -/
theorem Overlapping.step (h : Overlapping fnv1a svc calls w cs p drawn order) [Fintype ι]
    (hnewId : ∀ n, isValidV6Guid (svc.newId n) = false)
    (hallowed : ∀ i, (calls i).Allowed cs) (hfresh : FreshFor w cs (Fintype.card ι))
    {op : Operation} {k : op.Result → Async Val} (hk : (p.threads i).prog = .call op k) :
    ∃ drawn' order', Overlapping fnv1a svc calls w cs (p.perform (World.handle svc) i op k) drawn'
      order' := by
  have hprogress := h.progress i
  have hallowed' := hallowed i
  rw [hk] at hprogress
  generalize hcall : calls i = call at hprogress
  generalize hprog : Program.call op k = prog at hprogress
  -- how far a caller is tells what it awaits
  cases hprogress with
  | waiting hi =>
    cases call with
    | create x =>
      have hprogram : (Call.create x).program fnv1a = _ := x.call_eq fnv1a
      rw [hprogram] at hprog
      cases hprog
      exact ⟨_, _, h.draw hcall hi⟩
    | update c patch =>
      rw [hcall] at hallowed'
      have hvalid := h.routed.valid c (List.mem_append_left _ hallowed'.1)
      rw [update_eq hallowed'.2.1 (ne_empty_of_valid hvalid) (hallowed'.2.2 _ (by decide))]
        at hprog
      cases hprog
      exact ⟨_, _, h.readUpdate hcall (hallowed i) hi⟩
  | @writing x m hm hi =>
    cases hprog
    obtain ⟨order', h'⟩ := h.write hallowed hfresh hcall hm hi rfl
    exact ⟨_, order', h'⟩
  | updating hi hitem =>
    rw [updating_eq] at hprog
    cases hprog
    exact ⟨_, _, h.writeUpdate hnewId hcall (hallowed i) hi hitem _⟩
  | created => cases hprog
  | lost => cases hprog
  | ended hend =>
    rw [← hprog] at hend
    exact hend.elim

omit [DecidableEq ι] in
/-- The callers of `order` are creations that have returned what they made, or whose response
was lost. -/
theorem Overlapping.of_mem_order (h : Overlapping fnv1a svc calls w cs p drawn order)
    {c : Created} (hmem : (i, c) ∈ order) :
    ∃ x, calls i = .create x ∧ c = x.created c.id ∧
      ((∃ v, (p.threads i).prog = .pure v ∧ v.get "id" = .str c.id) ∨
        w.MayLose ∧ ∃ e, (p.threads i).prog = .throw e) := by
  have hprogress := h.progress i
  have hi : i ∈ order.map Prod.fst := List.mem_map.mpr ⟨_, hmem, rfl⟩
  -- who has created something is past its write
  have hsame : ∀ {c'}, (i, c') ∈ order → c = c' := fun hmade =>
    (Prod.mk.inj (List.inj_on_of_nodup_map h.once hmem hmade rfl)).2
  generalize hcall : calls i = call at hprogress
  generalize (p.threads i).prog = prog at hprogress
  cases hprogress with
  | waiting hdrawn => exact absurd (h.mem_drawn hi) hdrawn
  | writing _ hnot => exact absurd hi hnot
  | updating hdrawn => exact absurd (h.mem_drawn hi) hdrawn
  | @created x m _ hmade =>
    obtain rfl := hsame hmade
    rw [Creation.id_created]
    exact ⟨x, rfl, rfl, Or.inl ⟨_, rfl, x.get_item_id fnv1a _⟩⟩
  | @lost x m e _ hmade hlose =>
    obtain rfl := hsame hmade
    rw [Creation.id_created]
    exact ⟨x, rfl, rfl, Or.inr ⟨hlose, e, rfl⟩⟩
  | ended _ hnot => exact absurd hi hnot

omit [DecidableEq ι] in
/-- A creation that has returned has written what it returns. -/
theorem Overlapping.mem_order (h : Overlapping fnv1a svc calls w cs p drawn order)
    {x : Creation} {v : Val} (hcall : calls i = .create x) (hprog : (p.threads i).prog = .pure v) :
    ∃ id, v.get "id" = .str id ∧ (i, x.created id) ∈ order := by
  have hprogress := h.progress i
  rw [hcall, hprog] at hprogress
  generalize hp : (Program.pure v : Async Val) = prog at hprogress
  cases hprogress with
  | waiting =>
    have hprogram : (Call.create x).program fnv1a = _ := x.call_eq fnv1a
    rw [hprogram] at hp
    cases hp
  | writing => cases hp
  | created _ hmade =>
    cases hp
    exact ⟨_, x.get_item_id fnv1a _, hmade⟩
  | lost => cases hp
  | ended _ _ hcreate => exact absurd hp.symm (hcreate x v rfl)

/-- **Partition routing is coherent under concurrency.** Let any number of creations and updates
overlap, in a world that calls one after another have reached. In every state an interleaving
of their requests reaches, whatever failed in it, what is created is what was, and what the
creations that have returned made, each its own document: point reads, updates and listings
find exactly these. Where a response may be lost, a creation that has thrown may be one of them. -/
theorem partitionRouting_concurrent [Fintype ι] (fnv1a : String → ℕ) (svc : Service)
    (hnewId : ∀ n, isValidV6Guid (svc.newId n) = false) {w₀ w : World} {cs : List Created}
    (hfaults : w₀.FaultsFail) (hstamped : ∀ container, (w₀.repo container).Stamped svc)
    (hnone : Unrouted w₀) (hr : Reaches fnv1a svc w₀ w cs) {calls : ι → Call}
    (hallowed : ∀ i, (calls i).Allowed cs) (hfresh : FreshFor w cs (Fintype.card ι))
    {q : CallPool ι} (hrun : Pool.Runs (World.handle svc) (fun _ _ _ => True)
      (Pool.start (fun i => (calls i).program fnv1a) w) q) :
    ∃ order : List (ι × Created), (order.map Prod.fst).Nodup ∧
      (∀ i x v, calls i = .create x → (q.threads i).prog = .pure v →
        ∃ id, v.get "id" = .str id ∧ (i, x.created id) ∈ order) ∧
      (∀ i c, (i, c) ∈ order → ∃ x, calls i = .create x ∧ c = x.created c.id ∧
        ((∃ v, (q.threads i).prog = .pure v ∧ v.get "id" = .str c.id) ∨
          w.MayLose ∧ ∃ e, (q.threads i).prog = .throw e)) ∧
      Coherent fnv1a svc q.shared.faultless (cs ++ order.map Prod.snd) := by
  have hrouted := hr.routed hnewId (routed_start hfaults hstamped hnone)
  have hinv : ∃ drawn order, Overlapping fnv1a svc calls w cs q drawn order := by
    refine hrun.invariant (I := fun p => ∃ drawn order,
      Overlapping fnv1a svc calls w cs p drawn order) ⟨[], [], ?_⟩ ?_
    · refine ⟨rfl, List.Subset.refl _, rfl, List.nodup_nil, List.nodup_nil, nofun, ?_,
        fun _ => .waiting nofun⟩
      rw [List.map_nil, List.append_nil]
      exact hrouted
    · rintro p i op k ⟨drawn, order, h⟩ - hk
      exact h.step hnewId hallowed hfresh hk
  obtain ⟨drawn, order, h⟩ := hinv
  have hlater : q.shared.Later q.shared.faultless := ⟨rfl, List.nil_subset _⟩
  exact ⟨order, h.once, fun i x v => h.mem_order, fun i c => h.of_mem_order,
    (h.routed.later hlater).coherent rfl⟩

end

/-! ### A page that is renamed while its website gets a scan, whose response is lost -/

def overlapCreated : List Created :=
  [⟨.page, "1ed10000-0000-6000-8000-000000000000", [("websiteId", V6Guid.zero.text)]⟩]

def overlapCalls : Bool → Call
  | false => .create (.websiteScan V6Guid.zero.text (.str "a11y") (.str "0 0 * * *") .undefined)
  | true => .update ⟨.page, "1ed10000-0000-6000-8000-000000000000",
      [("websiteId", V6Guid.zero.text)]⟩
      ⟨[("id", .str "1ed10000-0000-6000-8000-000000000000"), ("url", .str "https://b.com/")],
        by decide⟩

/-- The third request is carried out, and nobody learns of it. -/
def overlapStart : World :=
  { World.empty V6Guid.sample with
    faults := [none, none, some ⟨⟨none, "socket hang up"⟩, true⟩] }

/-- The world with the page. -/
def overlapWorld : World :=
  (((Creation.page "https://www.test.com/" V6Guid.zero.text).call fnv1aAscii).run
    (World.handle Service.counting) overlapStart).2

def overlapPool : CallPool Bool :=
  (Pool.start (fun b => (overlapCalls b).program fnv1aAscii) overlapWorld).play
    (World.handle Service.counting) [false, true, false, true]

theorem partitionRouting_concurrent_overlap :
    (∃ e, (overlapPool.threads false).prog = .throw e) ∧
    ∃ order : List (Bool × Created), (order.map Prod.fst).Nodup ∧
      (∀ i x v, overlapCalls i = .create x → (overlapPool.threads i).prog = .pure v →
        ∃ id, v.get "id" = .str id ∧ (i, x.created id) ∈ order) ∧
      (∀ i c, (i, c) ∈ order → ∃ x, overlapCalls i = .create x ∧ c = x.created c.id ∧
        ((∃ v, (overlapPool.threads i).prog = .pure v ∧ v.get "id" = .str c.id) ∨
          overlapWorld.MayLose ∧ ∃ e, (overlapPool.threads i).prog = .throw e)) ∧
      Coherent fnv1aAscii Service.counting overlapPool.shared.faultless
        (overlapCreated ++ order.map Prod.snd) := by
  have hfaults : overlapStart.FaultsFail := by
    intro f hf status hstatus
    have hlost : f = ⟨⟨none, "socket hang up"⟩, true⟩ := by
      simpa [overlapStart] using hf
    rw [hlost] at hstatus
    cases hstatus
  have hr : Reaches fnv1aAscii Service.counting overlapStart overlapWorld overlapCreated :=
    .step .refl (.create (x := .page "https://www.test.com/" V6Guid.zero.text) V6Guid.zero.valid
      (by decide) rfl rfl)
  refine ⟨⟨_, rfl⟩, ?_⟩
  refine partitionRouting_concurrent fnv1aAscii Service.counting not_valid_newId hfaults
    (fun _ => Collection.stamped_empty _) (unrouted_empty V6Guid.sample) hr ?_ ?_
    (Pool.runs_play _ _ _)
  · rintro (_ | _)
    · exact V6Guid.zero.valid
    · exact ⟨List.mem_cons_self, rfl, by decide⟩
  · rw [Fintype.card_bool]
    refine ⟨fun i j hij hj => ?_, fun c hc => ?_⟩
    · obtain ⟨rfl, rfl⟩ : i = 0 ∧ j = 1 := by omega
      decide
    · obtain rfl := List.mem_singleton.mp hc
      decide

end WebInsights.Providers
