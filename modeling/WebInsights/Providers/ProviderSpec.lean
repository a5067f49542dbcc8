/-
What the data providers do to a collection.

A document of a bucketed type is stored under the bucket its own id decides
(`bucketed`), with its type. Creating one stores exactly that; updating one
merges into the document under the bucket of the update's id and keeps every
property the update does not name.
-/
import WebInsights.Cosmos.ClientRuns
import WebInsights.Providers.DataProviders

set_option autoImplicit false

namespace WebInsights.Providers

open Common Cosmos CosmosContainerClient Effect Js

section

variable (fnv1a : String → ℕ)

/-! ## Normalized documents -/

/-- A document with its type and its bucket, where it names neither itself. -/
def bucketed (t : ItemType) (id : String) (document : Fields) : Fields :=
  Fields.spread
    [("itemType", .str t.name),
      ("partitionKey", .str (createPartitionKeyForDocument fnv1a t id))] document

theorem normalizeBucketed_eq {document : Fields} {id : String}
    (h : Fields.get document "id" = .str id) (t : ItemType) (noId : String) :
    normalizeBucketed fnv1a t noId document = pure (bucketed fnv1a t id document) := by
  unfold normalizeBucketed
  rw [h]
  rfl

variable {fnv1a} {t : ItemType} {id : String} {document : Fields}

theorem get_bucketed_of_mem (hnd : (Fields.keys document).Nodup) {k : String}
    (hk : k ∈ Fields.keys document) :
    Fields.get (bucketed fnv1a t id document) k = Fields.get document k := by
  unfold bucketed
  rw [Fields.get_spread hnd, if_pos hk]

theorem get_bucketed_of_notMem (hnd : (Fields.keys document).Nodup) {k : String}
    (hk : k ∉ Fields.keys document) :
    Fields.get (bucketed fnv1a t id document) k =
      Fields.get [("itemType", .str t.name),
        ("partitionKey", .str (createPartitionKeyForDocument fnv1a t id))] k := by
  unfold bucketed
  rw [Fields.get_spread hnd, if_neg hk]

theorem get_bucketed_itemType (hnd : (Fields.keys document).Nodup)
    (hk : "itemType" ∉ Fields.keys document) :
    Fields.get (bucketed fnv1a t id document) "itemType" = .str t.name := by
  rw [get_bucketed_of_notMem hnd hk]
  rfl

theorem get_bucketed_partitionKey (hnd : (Fields.keys document).Nodup)
    (hk : "partitionKey" ∉ Fields.keys document) :
    Fields.get (bucketed fnv1a t id document) "partitionKey" =
      .str (createPartitionKeyForDocument fnv1a t id) := by
  rw [get_bucketed_of_notMem hnd hk]
  rfl

/-- Every other property is the document's own. -/
theorem get_bucketed_other (hnd : (Fields.keys document).Nodup) {k : String}
    (htype : k ≠ "itemType") (hpk : k ≠ "partitionKey") :
    Fields.get (bucketed fnv1a t id document) k = Fields.get document k := by
  by_cases hk : k ∈ Fields.keys document
  · exact get_bucketed_of_mem hnd hk
  · rw [get_bucketed_of_notMem hnd hk, Fields.get_eq_undefined_of_notMem hk,
      Fields.get_cons_ne htype.symm, Fields.get_cons_ne hpk.symm]
    rfl

theorem mem_keys_bucketed {k : String} :
    k ∈ Fields.keys (bucketed fnv1a t id document) ↔
      k ∈ Fields.keys document ∨ k = "itemType" ∨ k = "partitionKey" := by
  unfold bucketed
  rw [Fields.mem_keys_spread]
  simp

theorem wf_bucketed (h : (Val.obj document).Wf) :
    (Val.obj (bucketed fnv1a t id document)).Wf :=
  Val.wf_spread ⟨by simp, trivial, trivial, trivial⟩ (Val.wfFields_iff.mp h.2)

/-! ## Creating and updating -/

variable {svc : Service} {container : Container} {w : World}

/-- Normalize a new document and write it. -/
theorem run_writeBucketed (hw : w.faults = []) (hnd : (Fields.keys document).Nodup)
    (hid : Fields.get document "id" = .str id)
    (hpk : "partitionKey" ∉ Fields.keys document) (hetag : "_etag" ∉ Fields.keys document)
    (noId : String) :
    (normalizeBucketed fnv1a t noId document >>= fun doc =>
        writeDocument container doc .undefined true >>= fun _ => pure doc).run
        (World.handle svc) w =
      (.ok (bucketed fnv1a t id document),
        w.store svc container (bucketed fnv1a t id document)) := by
  have hetag' : Fields.get (bucketed fnv1a t id document) "_etag" = .undefined := by
    rw [get_bucketed_other hnd (by decide) (by decide), Fields.get_eq_undefined_of_notMem hetag]
  rw [normalizeBucketed_eq fnv1a hid, pure_bind,
    Program.run_bind_ok _ (run_writeDocument hw (get_bucketed_partitionKey hnd hpk) hetag' true),
    Program.run_pure]

/-- The stored document of a new one has its bucket, its id and its own properties. -/
theorem get_stamp_bucketed (hid : Fields.get document "id" = .str id) (hne : id ≠ "")
    (hnd : (Fields.keys document).Nodup) (n : ℕ) {k : String} (hetag : k ≠ "_etag")
    (hts : k ≠ "_ts") :
    (svc.stamp n (bucketed fnv1a t id document)).get k =
      (Fields.get (bucketed fnv1a t id document) k).toJson := by
  have hid' : Fields.get (bucketed fnv1a t id document) "id" = .str id := by
    rw [get_bucketed_other hnd (by decide) (by decide), hid]
  exact svc.get_stamp (not_hasNoId hid' hne) hetag hts n

/-- Normalize a new document and write it, where a request may fail. -/
theorem writeBucketed_outcome (hw : w.ErrorsFail) (hnd : (Fields.keys document).Nodup)
    (hid : Fields.get document "id" = .str id)
    (hpk : "partitionKey" ∉ Fields.keys document) (hetag : "_etag" ∉ Fields.keys document)
    (noId : String) :
    Fails svc (normalizeBucketed fnv1a t noId document >>= fun doc =>
        writeDocument container doc .undefined true >>= fun _ => pure doc) w ∨
    Writes svc w.LosesNext container
      (svc.stamp (w.repo container).writes (bucketed fnv1a t id document))
      (bucketed fnv1a t id document)
      (normalizeBucketed fnv1a t noId document >>= fun doc =>
        writeDocument container doc .undefined true >>= fun _ => pure doc) w := by
  have hetag' : Fields.get (bucketed fnv1a t id document) "_etag" = .undefined := by
    rw [get_bucketed_other hnd (by decide) (by decide), Fields.get_eq_undefined_of_notMem hetag]
  rw [normalizeBucketed_eq fnv1a hid, pure_bind]
  rcases @writeDocument_outcome svc container w hw _ _ (get_bucketed_partitionKey hnd hpk)
    hetag' with hfails | hwrites
  · exact Or.inl (hfails.bind _)
  · exact Or.inr (hwrites.bind_pure _)

/-- The document an update merges: the stored one, with the type and the bucket it
has anyway, and with every text the update does not name. -/
structure UpdateOf (fnv1a : String → ℕ) (t : ItemType) (id : String) (document : Fields)
    (S : Document) (merged : Fields) : Prop where
  result : mergedDocument S.val (bucketed fnv1a t id document) none = .ok merged
  sameId : Fields.get merged "id" = .str id
  partitionKey :
    Fields.get merged "partitionKey" = .str (createPartitionKeyForDocument fnv1a t id)
  itemType : Fields.get merged "itemType" = .str t.name
  kept : ∀ k s, k ∉ Fields.keys document → S.get k = .str s → Fields.get merged k = .str s

/-- **An update** of a stored document keeps its key, its type, and every property it
does not name. -/
theorem exists_updateOf (hwf : (Val.obj document).Wf) (hid : Fields.get document "id" = .str id)
    (htype : "itemType" ∉ Fields.keys document) (hpk : "partitionKey" ∉ Fields.keys document)
    {S : Document}
    (hS : S.key = (.str (createPartitionKeyForDocument fnv1a t id), .str id))
    (hStype : S.get "itemType" = .str t.name) :
    ∃ merged, UpdateOf fnv1a t id document S merged := by
  obtain ⟨hSpk, hSid⟩ := Prod.mk.inj hS
  obtain ⟨merged, hmerged⟩ := exists_mergedDocument S (bucketed fnv1a t id document)
  have hleave : ∀ k, LeavesAlone none k := by
    intro k f hf
    cases hf
  have hid' : Fields.get (bucketed fnv1a t id document) "id" = .str id := by
    rw [get_bucketed_other hwf.1 (by decide) (by decide), hid]
  have hpk' := @get_bucketed_partitionKey fnv1a t id document hwf.1 hpk
  have htype' := @get_bucketed_itemType fnv1a t id document hwf.1 htype
  -- a stored text stays if the update is silent about it, or agrees
  have hkeep : ∀ k s, S.get k = .str s →
      (k ∉ Fields.keys (bucketed fnv1a t id document) ∨
        Fields.get (bucketed fnv1a t id document) k = .str s) →
      Fields.get merged k = .str s := by
    rintro k s hS (hk | hk)
    · rw [get_merged_of_notMem (wf_bucketed hwf).1 hmerged hk]
      exact congrArg normalizeValue hS
    · exact get_merged_str (wf_bucketed hwf).1 hmerged (hleave k) hS (Or.inr hk)
  refine ⟨merged, hmerged, hkeep _ _ hSid (Or.inr hid'), hkeep _ _ hSpk (Or.inr hpk'),
    hkeep _ _ hStype (Or.inr htype'), ?_⟩
  intro k s hk hS
  refine hkeep k s hS ?_
  by_cases hkt : k = "itemType"
  · right
    rw [hkt] at hS ⊢
    rw [htype', ← hStype, hS]
  · by_cases hkp : k = "partitionKey"
    · right
      rw [hkp] at hS ⊢
      rw [hpk', ← hSpk, hS]
    · left
      rw [mem_keys_bucketed]
      rintro (h | h | h)
      · exact hk h
      · exact hkt h
      · exact hkp h

/-- What is stored of it. -/
theorem UpdateOf.get_stamp {S : Document} {merged : Fields}
    (h : UpdateOf fnv1a t id document S merged) (hne : id ≠ "") (n : ℕ) {k s : String}
    (hk : Fields.get merged k = .str s) (hetag : k ≠ "_etag") (hts : k ≠ "_ts") :
    (svc.stamp n merged).get k = .str s := by
  rw [svc.get_stamp (not_hasNoId h.sameId hne) hetag hts, hk]
  rfl

/-- The new version has the key of the old one. -/
theorem UpdateOf.key_stamp {S : Document} {merged : Fields}
    (h : UpdateOf fnv1a t id document S merged) (hne : id ≠ "") (n : ℕ) :
    (svc.stamp n merged).key = (.str (createPartitionKeyForDocument fnv1a t id), .str id) :=
  svc.key_stamp_str h.sameId hne h.partitionKey n

section

variable (hwf : (Val.obj document).Wf) (hne : id ≠ "") (hid : Fields.get document "id" = .str id)
  (hpk : "partitionKey" ∉ Fields.keys document) {S : Document} {etag : String} {merged : Fields}
  (hfind : (w.repo container).find
    (.str (createPartitionKeyForDocument fnv1a t id), .str id) = some S)
  (hetag : S.get "_etag" = .str etag) (hmerged : UpdateOf fnv1a t id document S merged)

include hwf hne hid hpk hfind hetag hmerged

/-- The run of an update. -/
theorem run_updateBucketed (hw : w.faults = []) (noId : String) :
    (normalizeBucketed fnv1a t noId document >>= fun doc =>
        mergeOrWriteDocument container doc .undefined true none >>= fun response =>
        pure response.item).run (World.handle svc) w =
      (.ok (svc.stamp (w.repo container).writes merged).val, w.store svc container merged) := by
  have hid' : Fields.get (bucketed fnv1a t id document) "id" = .str id := by
    rw [get_bucketed_other hwf.1 (by decide) (by decide), hid]
  have hpk' := @get_bucketed_partitionKey fnv1a t id document hwf.1 hpk
  have hleave : ∀ k ∈ ["id", "partitionKey", "_etag"], LeavesAlone none k := by
    intro k _ f hf
    cases hf
  obtain ⟨hrun, -⟩ := @run_mergeOrWriteDocument_found svc container w hw _ (wf_bucketed hwf)
    .undefined id _ etag none hne hid' hpk' hpk' hleave S hfind hetag _ hmerged.result true
  rw [normalizeBucketed_eq fnv1a hid, pure_bind, Program.run_bind_ok _ hrun, Program.run_pure]

/-- An update where a request may fail. -/
theorem updateBucketed_outcome (hw : w.FaultsFail) (noId : String) :
    Fails svc (normalizeBucketed fnv1a t noId document >>= fun doc =>
        mergeOrWriteDocument container doc .undefined true none >>= fun response =>
        pure response.item) w ∨
    ∃ item ∈ [merged, orphan (createPartitionKeyForDocument fnv1a t id)],
      ∃ lost, Writes svc lost container (svc.stamp (w.repo container).writes item)
        (svc.stamp (w.repo container).writes item).val
        (normalizeBucketed fnv1a t noId document >>= fun doc =>
          mergeOrWriteDocument container doc .undefined true none >>= fun response =>
          pure response.item) w := by
  have hid' : Fields.get (bucketed fnv1a t id document) "id" = .str id := by
    rw [get_bucketed_other hwf.1 (by decide) (by decide), hid]
  have hpk' := @get_bucketed_partitionKey fnv1a t id document hwf.1 hpk
  obtain ⟨-, hfails | ⟨item, hitem, lost, hwrites⟩⟩ := mergeOrWriteDocument_outcome hw
    (wf_bucketed hwf) hne hid' hpk' hfind hetag hmerged.result
  · left
    rw [normalizeBucketed_eq fnv1a hid, pure_bind]
    exact hfails.bind _
  · right
    refine ⟨item, hitem, lost, ?_⟩
    rw [normalizeBucketed_eq fnv1a hid, pure_bind]
    exact hwrites.bind_pure _

end

/-! ## Reading and listing -/

/-- Read a document that is there. -/
theorem run_readDocument_item (hw : w.faults = []) {id partitionKey : Val} {d : Document}
    (h : (w.repo container).find (partitionKey, id) = some d) :
    (readDocument container id partitionKey true >>= fun response =>
        client.ensureSuccessStatusCode response >>= fun _ => pure response.item).run
        (World.handle svc) w =
      (.ok d.val, w) := by
  unfold readDocument
  rw [Program.run_bind_ok _ (run_readItem_some hw h true)]
  rfl

/-- Iterating a query yields its results. -/
theorem run_getCosmosQueryResultsIterable (hw : w.faults = []) (q : SqlQuerySpec) :
    (getCosmosQueryResultsIterable container q).run (World.handle svc) w =
      (.ok ((q.results (w.repo container).docs).map Document.val), w) := by
  obtain ⟨status, hstatus, hrun⟩ := @run_queryDocuments svc container w hw q
  unfold getCosmosQueryResultsIterable
  rw [Program.run_bind_ok _ hrun]
  simp [client.ensureSuccessStatusCode, hstatus]

theorem run_firstQueryResult (hw : w.faults = []) (q : SqlQuerySpec) (none : Val) :
    (firstQueryResult container q none).run (World.handle svc) w =
      (.ok (((q.results (w.repo container).docs).map Document.val).headD none), w) := by
  obtain ⟨status, hstatus, hrun⟩ := @run_queryDocuments svc container w hw q
  unfold firstQueryResult
  rw [Program.run_bind_ok _ hrun]
  rcases (q.results (w.repo container).docs).map Document.val with _ | ⟨v, vs⟩ <;>
    simp [client.ensureSuccessStatusCode, hstatus]

end

end WebInsights.Providers
