/-
Runs of the storage client, one caller, one call after another.

With every request served, an answer depends on nothing but the state of the
collection: what each method returns then, and the world it leaves. With requests
that may fail, a method that writes fails as a whole, or writes one document
(`Fails`, `Writes`).
-/
import WebInsights.Cosmos.ClientSpec

set_option autoImplicit false

namespace WebInsights.Cosmos

open Effect Js CosmosClientWrapper CosmosContainerClient

/-- The world after an item was stored. -/
def World.store (svc : Service) (w : World) (container : Container) (item : Fields) : World :=
  w.withRepo container
    ((w.repo container).put (svc.stamp (w.repo container).writes item))

section

variable {svc : Service} {container : Container} {w : World}

@[simp] theorem World.store_repo_self (item : Fields) :
    (w.store svc container item).repo container =
      (w.repo container).put (svc.stamp (w.repo container).writes item) :=
  World.withRepo_repo_self w container _

theorem World.store_repo_ne {c : Container} (h : c ≠ container) (item : Fields) :
    (w.store svc container item).repo c = w.repo c :=
  World.withRepo_repo_ne w h _

/-! ## The wrapper -/

theorem run_readItem_some (hw : w.faults = []) {id partitionKey : Val} {d : Document}
    (h : (w.repo container).find (partitionKey, id) = some d) (throwIfNotSuccess : Bool) :
    (readItem container id partitionKey throwIfNotSuccess).run (World.handle svc) w =
      (.ok ⟨d.val, .undefined, .code 200⟩, w) := by
  unfold readItem
  rw [World.run_request_bind, World.handle_faultless svc hw, Collection.serve_read_some svc h,
    World.withRepo_eq_self]
  rfl

/-- A document that is not there is answered 404, whatever the caller asked for. -/
theorem run_readItem_none (hw : w.faults = []) {id partitionKey : Val}
    (h : (w.repo container).find (partitionKey, id) = none) (throwIfNotSuccess : Bool) :
    (readItem container id partitionKey throwIfNotSuccess).run (World.handle svc) w =
      (.ok ⟨.undefined, .undefined, .code 404⟩, w) := by
  unfold readItem
  rw [World.run_request_bind, World.handle_faultless svc hw, Collection.serve_read_none svc h,
    World.withRepo_eq_self]
  rfl

theorem run_upsertItem (hw : w.faults = []) {item : Fields} {partitionKey : Val}
    (h : (w.repo container).Admits
      (svc.stamp (w.repo container).writes (assignPartitionKey item partitionKey)).key
      (getOptions (assignPartitionKey item partitionKey))) (throwIfNotSuccess : Bool) :
    (upsertItem container item partitionKey throwIfNotSuccess).run (World.handle svc) w =
      (.ok ⟨(svc.stamp (w.repo container).writes (assignPartitionKey item partitionKey)).val,
          .undefined, .code 200⟩,
        w.store svc container (assignPartitionKey item partitionKey)) := by
  rw [upsertItem_eq, World.run_request_bind, World.handle_faultless svc hw, upsertRequest,
    Collection.serve_upsert svc h]
  rfl

theorem run_queryDocuments (hw : w.faults = []) (q : SqlQuerySpec) :
    ∃ status, client.isSuccessStatusCode status = true ∧
      (queryDocuments container q).run (World.handle svc) w =
        (.ok ⟨.arr ((q.results (w.repo container).docs).map Document.val), .undefined, status⟩,
          w) := by
  unfold queryDocuments readItems
  rw [World.run_request_bind, World.handle_faultless svc hw, Collection.serve,
    World.withRepo_eq_self]
  rcases (q.results (w.repo container).docs).map Document.val with _ | ⟨v, vs⟩
  · exact ⟨.code 204, rfl, rfl⟩
  · exact ⟨.code 200, rfl, rfl⟩

theorem run_deleteDocument (hw : w.faults = []) {id partitionKey : Val} {d : Document}
    (h : (w.repo container).find (partitionKey, id) = some d) :
    (deleteDocument container id partitionKey).run (World.handle svc) w =
      (.ok (), w.withRepo container ((w.repo container).erase (partitionKey, id))) := by
  have hserve : (w.repo container).serve svc (.delete id partitionKey) =
      (.ok ⟨.undefined, .code 204⟩, (w.repo container).erase (partitionKey, id)) := by
    simp only [Collection.serve, h]
  unfold deleteDocument deleteItem
  rw [bind_assoc, World.run_request_bind, World.handle_faultless svc hw, hserve]
  rfl

/-- What follows the answer to a delete leaves the world alone. -/
theorem run_deleteDocument_world (svc : Service) (container : Container) (id partitionKey : Val)
    (w : World) :
    ((deleteDocument container id partitionKey).run (World.handle svc) w).2 =
      (World.handle svc (.cosmos container (.delete id partitionKey)) w).2 := by
  unfold deleteDocument deleteItem
  rw [bind_assoc, World.run_request_bind]
  cases (World.handle svc (.cosmos container (.delete id partitionKey)) w).1 with
  | ok response => rfl
  | error e =>
    rcases handleFailedOperationResponse_cases "deleteItem" e true id with
      ⟨_, h⟩ | ⟨_, h, -⟩
    · simp only [h]
      rfl
    · simp only [h]
      rfl

/-! ## The container client -/

/-- Writing the partition key a document has already changes nothing. -/
theorem assignPartitionKey_eq_self {item : Fields} {partitionKey : Val}
    (hne : partitionKey ≠ .undefined) (h : Fields.get item "partitionKey" = partitionKey) :
    assignPartitionKey item partitionKey = item := by
  unfold assignPartitionKey
  split
  · rfl
  · exact Fields.set_eq_self (by rw [h]; exact hne) h

/-- A document that carries its partition key, and no etag, is written unconditionally. -/
theorem admits_fresh {document : Fields} {pk : String}
    (hpk : Fields.get document "partitionKey" = .str pk)
    (hetag : Fields.get document "_etag" = .undefined) :
    (w.repo container).Admits
      (svc.stamp (w.repo container).writes (assignPartitionKey document (.str pk))).key
      (getOptions (assignPartitionKey document (.str pk))) := by
  rw [assignPartitionKey_eq_self (Val.str_ne_undefined pk) hpk, getOptions, if_pos hetag]
  exact Collection.admits_none _ _

/-- An upsert of a document that carries its partition key, and no etag. -/
theorem run_upsertItem_fresh (hw : w.faults = []) {document : Fields} {pk : String}
    (hpk : Fields.get document "partitionKey" = .str pk)
    (hetag : Fields.get document "_etag" = .undefined) (throwIfNotSuccess : Bool) :
    (CosmosClientWrapper.upsertItem container document (.str pk) throwIfNotSuccess).run
        (World.handle svc) w =
      (.ok ⟨(svc.stamp (w.repo container).writes document).val, .undefined, .code 200⟩,
        w.store svc container document) := by
  have hrun := run_upsertItem hw (@admits_fresh svc container w document pk hpk hetag)
    throwIfNotSuccess
  rwa [assignPartitionKey_eq_self (Val.str_ne_undefined pk) hpk] at hrun

/-- A write of a document that carries its partition key, and no etag. -/
theorem run_writeDocument (hw : w.faults = []) {document : Fields} {pk : String}
    (hpk : Fields.get document "partitionKey" = .str pk)
    (hetag : Fields.get document "_etag" = .undefined) (throwIfNotSuccess : Bool) :
    (writeDocument container document .undefined throwIfNotSuccess).run (World.handle svc) w =
      (.ok ⟨(svc.stamp (w.repo container).writes document).val, .undefined, .code 200⟩,
        w.store svc container document) := by
  have heff : effectivePartitionKey document .undefined = .str pk := hpk
  unfold writeDocument getEffectivePartitionKey
  rw [heff, if_neg nofun, pure_bind, run_upsertItem_fresh hw hpk hetag]

/-- A merge whose document is not there writes its own document. -/
theorem run_mergeOrWriteDocument_absent (hw : w.faults = []) {document : Fields}
    {partitionKey : Val} {pk : String} {customMerge : Option CustomMerge}
    (hid : Fields.get document "id" ≠ .undefined)
    (heff : effectivePartitionKey document partitionKey = .str pk)
    (hpk : Fields.get document "partitionKey" = .str pk)
    (hetag : Fields.get document "_etag" = .undefined)
    (hfind : (w.repo container).find (.str pk, Fields.get document "id") = none)
    (throwIfNotSuccess : Bool) :
    (mergeOrWriteDocument container document partitionKey throwIfNotSuccess customMerge).run
        (World.handle svc) w =
      (.ok ⟨(svc.stamp (w.repo container).writes document).val, .undefined, .code 200⟩,
        w.store svc container document) := by
  rw [mergeOrWriteDocument_eq hid (by rw [heff]; nofun), heff, World.run_request_bind,
    World.handle_faultless svc hw, Collection.serve_read_none svc hfind, World.withRepo_eq_self,
    readResponse, Program.ofExcept_ok, pure_bind, mergeOrWrite_notFound rfl,
    run_upsertItem_fresh hw hpk hetag]

/-- The merged document keeps the id, the partition key and the etag of the stored
one, so it may be written in its place. -/
theorem admits_merged {document : Fields} (hwf : (Val.obj document).Wf) {id pk etag : String}
    {customMerge : Option CustomMerge} (hidne : id ≠ "")
    (hid : Fields.get document "id" = .str id)
    (hpk : Fields.get document "partitionKey" = .str pk)
    (hleave : ∀ k ∈ ["id", "partitionKey", "_etag"], LeavesAlone customMerge k)
    {S : Document} (hfind : (w.repo container).find (.str pk, .str id) = some S)
    (hetag : S.get "_etag" = .str etag) {merged : Fields}
    (hmerged : mergedDocument S.val document customMerge = .ok merged) :
    assignPartitionKey merged (.str pk) = merged ∧
    (svc.stamp (w.repo container).writes merged).key = (.str pk, .str id) ∧
    (w.repo container).Admits (svc.stamp (w.repo container).writes merged).key
      (getOptions merged) := by
  have hkey := Prod.mk.inj (Collection.find_eq_some_iff.mp hfind).2
  have hmid := get_merged_str hwf.1 hmerged (hleave _ (by decide)) hkey.2 (Or.inr hid)
  have hmpk := get_merged_str hwf.1 hmerged (hleave _ (by decide)) hkey.1 (Or.inr hpk)
  have hmetag := get_merged_str hwf.1 hmerged (hleave _ (by decide)) hetag (Or.inl rfl)
  have hstamp : (svc.stamp (w.repo container).writes merged).key = (.str pk, .str id) :=
    svc.key_stamp_str hmid hidne hmpk _
  refine ⟨assignPartitionKey_eq_self nofun hmpk, hstamp, ?_⟩
  rw [hstamp, getOptions, hmetag, if_neg nofun]
  exact Collection.admits_some.mpr ⟨S, hfind, hetag⟩

/-- A merge into a document that is there writes the merged document. -/
theorem run_mergeOrWriteDocument_found (hw : w.faults = []) {document : Fields}
    (hwf : (Val.obj document).Wf) {partitionKey : Val} {id pk etag : String}
    {customMerge : Option CustomMerge} (hidne : id ≠ "")
    (hid : Fields.get document "id" = .str id)
    (heff : effectivePartitionKey document partitionKey = .str pk)
    (hpk : Fields.get document "partitionKey" = .str pk)
    (hleave : ∀ k ∈ ["id", "partitionKey", "_etag"], LeavesAlone customMerge k)
    {S : Document} (hfind : (w.repo container).find (.str pk, .str id) = some S)
    (hetag : S.get "_etag" = .str etag) {merged : Fields}
    (hmerged : mergedDocument S.val document customMerge = .ok merged)
    (throwIfNotSuccess : Bool) :
    (mergeOrWriteDocument container document partitionKey throwIfNotSuccess customMerge).run
        (World.handle svc) w =
      (.ok ⟨(svc.stamp (w.repo container).writes merged).val, .undefined, .code 200⟩,
        w.store svc container merged) ∧
      (svc.stamp (w.repo container).writes merged).key = (.str pk, .str id) := by
  obtain ⟨hassign, hkey, hadmits⟩ :=
    @admits_merged svc _ _ _ hwf _ _ _ _ hidne hid hpk hleave S hfind hetag _ hmerged
  refine ⟨?_, hkey⟩
  have hrun := @run_upsertItem svc container w hw merged (.str pk) (by rwa [hassign])
    throwIfNotSuccess
  rw [hassign] at hrun
  rw [mergeOrWriteDocument_eq (by rw [hid]; nofun) (by rw [heff]; nofun), heff, hid,
    World.run_request_bind, World.handle_faultless svc hw, Collection.serve_read_some svc hfind,
    World.withRepo_eq_self, readResponse, Program.ofExcept_ok, pure_bind,
    mergeOrWrite_merged (by simp) hmerged, hrun]

end

/-! ## Runs that may meet faults -/

/-- The errors that are still to come tell of failures: none has the status of a success. -/
def World.ErrorsFail (w : World) : Prop :=
  ∀ f, some f ∈ w.faults → ∀ status, f.error.code = some status →
    client.isSuccessStatusCode status = false

theorem World.ErrorsFail.subset {w w' : World} (h : w.ErrorsFail) (hsub : w'.faults ⊆ w.faults) :
    w'.ErrorsFail :=
  fun f hf => h f (hsub hf)

/-- And none says that a document is not there. -/
def World.FaultsFail (w : World) : Prop :=
  ∀ f, some f ∈ w.faults → ∀ status, f.error.code = some status →
    client.isSuccessStatusCode status = false ∧ status ≠ .code 404

theorem World.FaultsFail.subset {w w' : World} (h : w.FaultsFail) (hsub : w'.faults ⊆ w.faults) :
    w'.FaultsFail :=
  fun f hf => h f (hsub hf)

theorem World.FaultsFail.errorsFail {w : World} (h : w.FaultsFail) : w.ErrorsFail :=
  fun f hf status hstatus => (h f hf status hstatus).1

/-- Some request is carried out and its response lost. -/
def World.MayLose (w : World) : Prop := ∃ f, some f ∈ w.faults ∧ f.carriedOut = true

/-- The next request is carried out and its response lost. -/
def World.LosesNext (w : World) : Prop :=
  ∃ f, w.faults.head? = some (some f) ∧ f.carriedOut = true

/-- Who loses a response is answered with an error. -/
theorem World.LosesNext.answer {w : World} (h : w.LosesNext) (svc : Service)
    (container : Container) (r : Request) :
    ∃ e, (World.handle svc (.cosmos container r) w).1 = .error e := by
  obtain ⟨f, hf, -⟩ := h
  obtain ⟨faults, hfaults⟩ := List.head?_eq_some_iff.mp hf
  exact ⟨f.error, by rw [World.handle_fault svc hfaults]⟩

/-- The same storage, with nothing to fail. -/
def World.faultless (w : World) : World := { w with faults := [] }

section

variable (svc : Service) {α β : Type}

/-- A later world in which nothing was written. -/
structure World.Later (w w' : World) : Prop where
  repo : w'.repo = w.repo
  faults : w'.faults ⊆ w.faults

/-- The call ends with an exception and writes nothing. -/
def Fails (p : Async α) (w : World) : Prop :=
  ∃ e w', p.run (World.handle svc) w = (.error e, w') ∧ w.Later w'

/-- The call writes the document `d`, and returns `a`, unless its response is `lost`. -/
def Writes (lost : Prop) (container : Container) (d : Document) (a : α) (p : Async α)
    (w : World) : Prop :=
  ∃ r w', p.run (World.handle svc) w = (r, w') ∧
    (¬ lost ∧ r = .ok a ∨ lost ∧ ∃ e, r = .error e) ∧
    w'.repo = Function.update w.repo container ((w.repo container).put d) ∧ w'.faults ⊆ w.faults

variable {svc} {lost : Prop} {container : Container} {w : World}

theorem Fails.bind {p : Async α} (h : Fails svc p w) (f : α → Async β) :
    Fails svc (p >>= f) w := by
  obtain ⟨e, w', hrun, hw'⟩ := h
  exact ⟨e, w', Program.run_bind_error _ hrun, hw'⟩

/-- A call that goes on as `q` does from a later world. -/
theorem Fails.of_run {p q : Async α} {w' : World} (h : Fails svc q w') (hw : w.Later w')
    (hrun : p.run (World.handle svc) w = q.run (World.handle svc) w') : Fails svc p w := by
  obtain ⟨e, w'', hq, hw'⟩ := h
  exact ⟨e, w'', hrun.trans hq, hw'.repo.trans hw.repo, List.Subset.trans hw'.faults hw.faults⟩

theorem Writes.of_run {p q : Async α} {w' : World} {d : Document} {a : α}
    (h : Writes svc lost container d a q w') (hw : w.Later w')
    (hrun : p.run (World.handle svc) w = q.run (World.handle svc) w') :
    Writes svc lost container d a p w := by
  obtain ⟨r, w'', hq, hr, hrepo, hfaults⟩ := h
  exact ⟨r, w'', hrun.trans hq, hr, by rw [hrepo, hw.repo], List.Subset.trans hfaults hw.faults⟩

theorem Writes.bind_pure {p : Async α} {d : Document} {a : α}
    (h : Writes svc lost container d a p w) (f : α → β) :
    Writes svc lost container d (f a) (p >>= fun x => pure (f x)) w := by
  obtain ⟨r, w', hrun, ⟨hlost, rfl⟩ | ⟨hlost, e, rfl⟩, hw'⟩ := h
  · exact ⟨_, w', by rw [Program.run_bind_ok _ hrun, Program.run_pure], Or.inl ⟨hlost, rfl⟩, hw'⟩
  · exact ⟨_, w', Program.run_bind_error _ hrun, Or.inr ⟨hlost, e, rfl⟩, hw'⟩

/-- Asking for an error to be thrown is enough, if it is one. -/
theorem CosmosClientWrapper.handleFailedOperationResponse_throws {error : SdkError}
    (h : ∀ status, error.code = some status → client.isSuccessStatusCode status = false)
    (operation : String) (id : Val) :
    ∃ e, handleFailedOperationResponse operation error true id = throw e := by
  unfold handleFailedOperationResponse client.getErrorResponse
  rcases hcode : error.code with _ | status
  · exact ⟨_, rfl⟩
  · have hs := h status hcode
    simp only [Option.map_some, CosmosClientWrapper.throwIfNotSuccess, hs, if_true]
    exact ⟨_, rfl⟩

/-- **An upsert** that throws on errors fails, or writes the item. -/
theorem upsertItem_outcome (hw : w.ErrorsFail) {item : Fields} {partitionKey : Val}
    (h : (w.repo container).Admits
      (svc.stamp (w.repo container).writes (assignPartitionKey item partitionKey)).key
      (getOptions (assignPartitionKey item partitionKey))) :
    Fails svc (upsertItem container item partitionKey true) w ∨
    Writes svc w.LosesNext container
      (svc.stamp (w.repo container).writes (assignPartitionKey item partitionKey))
      ⟨(svc.stamp (w.repo container).writes (assignPartitionKey item partitionKey)).val,
        .undefined, .code 200⟩
      (upsertItem container item partitionKey true) w := by
  have hsub := World.handle_faults_subset svc
    (.cosmos container (upsertRequest item partitionKey)) w
  -- a fault is thrown
  have hthrows : ∀ f, some f ∈ w.faults →
      (World.handle svc (.cosmos container (upsertRequest item partitionKey)) w).1 =
        .error f.error →
      ∃ e', (upsertItem container item partitionKey true).run (World.handle svc) w =
        (.error e',
          (World.handle svc (.cosmos container (upsertRequest item partitionKey)) w).2) := by
    intro f hf hanswer
    obtain ⟨e', he'⟩ := handleFailedOperationResponse_throws (hw f hf)
      "upsertItem" (Fields.get (assignPartitionKey item partitionKey) "id")
    refine ⟨e', ?_⟩
    rw [upsertItem_eq, World.run_request_bind, hanswer]
    simp only [he', Program.run_throw]
  rcases World.handle_cosmos_cases svc w container (upsertRequest item partitionKey) with
    ⟨f, hf, hanswer, hrepo⟩ | ⟨f, hf, hcarried, hanswer, hrepo⟩ | ⟨hanswer, hrepo⟩
  · left
    obtain ⟨e', hrun⟩ := hthrows f hf hanswer
    exact ⟨e', _, hrun, ⟨hrepo, hsub⟩⟩
  · right
    obtain ⟨e', hrun⟩ := hthrows f (List.mem_of_head? hf) hanswer
    rw [upsertRequest, Collection.serve_upsert svc h] at hrepo
    exact ⟨_, _, hrun, Or.inr ⟨⟨f, hf, hcarried⟩, e', rfl⟩, hrepo, hsub⟩
  · right
    rw [upsertRequest, Collection.serve_upsert svc h] at hanswer hrepo
    have hkept : ¬ w.LosesNext := by
      intro hlost
      obtain ⟨e, he⟩ := hlost.answer svc container (upsertRequest item partitionKey)
      rw [upsertRequest, hanswer] at he
      cases he
    refine ⟨_, _, ?_, Or.inl ⟨hkept, rfl⟩, hrepo, hsub⟩
    rw [upsertItem_eq, World.run_request_bind, upsertRequest, hanswer]
    rfl

/-- A write of a document that carries its partition key, and no etag. -/
theorem writeDocument_outcome (hw : w.ErrorsFail) {document : Fields} {pk : String}
    (hpk : Fields.get document "partitionKey" = .str pk)
    (hetag : Fields.get document "_etag" = .undefined) :
    Fails svc (writeDocument container document .undefined true) w ∨
    Writes svc w.LosesNext container (svc.stamp (w.repo container).writes document)
      ⟨(svc.stamp (w.repo container).writes document).val, .undefined, .code 200⟩
      (writeDocument container document .undefined true) w := by
  have heff : effectivePartitionKey document .undefined = .str pk := hpk
  have hout := upsertItem_outcome hw (@admits_fresh svc container w document pk hpk hetag)
  rw [assignPartitionKey_eq_self (Val.str_ne_undefined pk) hpk] at hout
  unfold writeDocument getEffectivePartitionKey
  rwa [heff, if_neg nofun, pure_bind]

/-- What an update writes whose read failed: an item with no id, of which nothing but
the partition key is left. -/
def orphan (pk : String) : Fields := assignPartitionKey [] (.str pk)

/-- The read of a merge is served, or meets a fault. -/
theorem mergeOrWriteDocument_reads {document : Fields} {id pk : String} {partitionKey : Val}
    (hid : Fields.get document "id" = .str id)
    (heff : effectivePartitionKey document partitionKey = .str pk) :
    ∃ w', w.Later w' ∧ ∃ a, (a = ((w.repo container).serve svc (.read (.str id) (.str pk))).1 ∨
        ∃ f, some f ∈ w.faults ∧ a = .error f.error) ∧
      ∀ throwIfNotSuccess customMerge,
        (mergeOrWriteDocument container document partitionKey throwIfNotSuccess customMerge).run
          (World.handle svc) w =
        (Program.ofExcept (readResponse a) >>= fun response => mergeOrWrite container document
          (.str pk) throwIfNotSuccess customMerge response).run (World.handle svc) w' := by
  have hsub := World.handle_faults_subset svc (.cosmos container (.read (.str id) (.str pk))) w
  have hrepo := @World.handle_readOnly svc (.cosmos container (.read (.str id) (.str pk))) trivial w
  refine ⟨_, ⟨hrepo, hsub⟩,
    (World.handle svc (.cosmos container (.read (.str id) (.str pk))) w).1, ?_, ?_⟩
  · exact (World.handle_answer_cases svc w container (.read (.str id) (.str pk))).symm
  · intro throwIfNotSuccess customMerge
    rw [mergeOrWriteDocument_eq (by rw [hid]; nofun) (by rw [heff]; nofun), heff, hid,
      World.run_request_bind]

/-- After a failed read with a status, the document is merged into nothing. -/
theorem mergeOrWrite_failedRead_outcome (hw : w.FaultsFail) {document : Fields} {pk : String}
    {e : SdkError} (he : ∀ status, e.code = some status → status ≠ .code 404) :
    Fails svc (Program.ofExcept (readResponse (.error e)) >>= fun response =>
      mergeOrWrite container document (.str pk) true none response) w ∨
    Writes svc w.LosesNext container (svc.stamp (w.repo container).writes (orphan pk))
      ⟨(svc.stamp (w.repo container).writes (orphan pk)).val, .undefined, .code 200⟩
      (Program.ofExcept (readResponse (.error e)) >>= fun response =>
        mergeOrWrite container document (.str pk) true none response) w := by
  rcases hcode : e.code with _ | status
  · left
    refine ⟨.sdk e, w, ?_, rfl, List.Subset.refl _⟩
    rw [readResponse, errorResponse, client.getErrorResponse, hcode]
    rfl
  · -- nothing is stored but the partition key, without an etag to be refused over
    have hetag' : Fields.get (orphan pk) "_etag" = .undefined := by
      rw [orphan, get_assignPartitionKey_ne (by decide), Fields.get_nil]
    have hout := @upsertItem_outcome svc container w hw.errorsFail [] (.str pk)
      (by rw [← orphan, getOptions, if_pos hetag']; exact Collection.admits_none _ _)
    rw [readResponse, errorResponse, client.getErrorResponse, hcode, Option.map_some,
      Program.ofExcept_ok, pure_bind,
      mergeOrWrite_merged (by simpa using he status hcode)
        (mergedDocument_undefined_none document)]
    rwa [← orphan] at hout

/-- A call whose read has failed: at most an orphan is written. -/
theorem failedRead_outcome (hw : w.FaultsFail) {p : Async CosmosOperationResponse}
    {document : Fields} {pk : String} {f : Fault} (hf : some f ∈ w.faults) {w' : World}
    (hlater : w.Later w')
    (hrun : p.run (World.handle svc) w =
      (Program.ofExcept (readResponse (.error f.error)) >>= fun response =>
        mergeOrWrite container document (.str pk) true none response).run (World.handle svc) w') :
    Fails svc p w ∨
    ∃ lost, Writes svc lost container (svc.stamp (w.repo container).writes (orphan pk))
      ⟨(svc.stamp (w.repo container).writes (orphan pk)).val, .undefined, .code 200⟩ p w := by
  rcases @mergeOrWrite_failedRead_outcome svc container w' (hw.subset hlater.faults) document pk
    f.error fun status h => (hw f hf status h).2 with hfails | hwrites
  · exact Or.inl (hfails.of_run hlater hrun)
  · rw [hlater.repo] at hwrites
    exact Or.inr ⟨_, hwrites.of_run hlater hrun⟩

/-- **A merge** into a document that is there fails, or writes the merged document,
or, if its read failed, the orphan. -/
theorem mergeOrWriteDocument_outcome (hw : w.FaultsFail) {document : Fields}
    (hwf : (Val.obj document).Wf) {id pk etag : String} (hidne : id ≠ "")
    (hid : Fields.get document "id" = .str id)
    (hpk : Fields.get document "partitionKey" = .str pk) {S : Document}
    (hfind : (w.repo container).find (.str pk, .str id) = some S)
    (hetag : S.get "_etag" = .str etag) {merged : Fields}
    (hmerged : mergedDocument S.val document none = .ok merged) :
    (svc.stamp (w.repo container).writes merged).key = (.str pk, .str id) ∧
    (Fails svc (mergeOrWriteDocument container document .undefined true none) w ∨
      ∃ item ∈ [merged, orphan pk], ∃ lost, Writes svc lost container
        (svc.stamp (w.repo container).writes item)
        ⟨(svc.stamp (w.repo container).writes item).val, .undefined, .code 200⟩
        (mergeOrWriteDocument container document .undefined true none) w) := by
  have heff : effectivePartitionKey document .undefined = .str pk := hpk
  have hleave : ∀ k ∈ ["id", "partitionKey", "_etag"], LeavesAlone none k := by
    intro k _ f hf
    cases hf
  obtain ⟨hassign, hkey, hadmits⟩ :=
    @admits_merged svc _ w _ hwf _ _ _ _ hidne hid hpk hleave S hfind hetag _ hmerged
  refine ⟨hkey, ?_⟩
  obtain ⟨w', hlater, a, ha, hreads⟩ :=
    @mergeOrWriteDocument_reads svc container w document id pk .undefined hid heff
  have hrun := hreads true none
  have hw' : w'.FaultsFail := hw.subset hlater.faults
  rw [Collection.serve_read_some svc hfind] at ha
  rcases ha with rfl | ⟨f, hf, rfl⟩
  · -- the document was read: the upsert of the merge fails, or writes it
    have hout := @upsertItem_outcome svc container w' hw'.errorsFail merged (.str pk)
      (by rw [hassign, hlater.repo]; exact hadmits)
    rw [hassign, hlater.repo] at hout
    rw [readResponse, Program.ofExcept_ok, pure_bind,
      mergeOrWrite_merged (by simp) hmerged] at hrun
    rcases hout with hfails | hwrites
    · exact Or.inl (hfails.of_run hlater hrun)
    · exact Or.inr ⟨merged, by simp, _, hwrites.of_run hlater hrun⟩
  · exact (failedRead_outcome hw hf hlater hrun).imp_right fun h => ⟨orphan pk, by simp, h⟩

/-- An upsert on a condition that is not met fails, however it is answered. -/
theorem upsertItem_refused (hw : w.ErrorsFail) {item : Fields} {partitionKey : Val}
    (h : ¬ (w.repo container).Admits
      (svc.stamp (w.repo container).writes (assignPartitionKey item partitionKey)).key
      (getOptions (assignPartitionKey item partitionKey))) :
    Fails svc (upsertItem container item partitionKey true) w := by
  have hsub := World.handle_faults_subset svc
    (.cosmos container (upsertRequest item partitionKey)) w
  have hrefused := Collection.serve_upsert_conflict svc h
  -- the request fails or is refused, and the collection is the same
  have hanswered : ∃ e, (∀ status, e.code = some status →
        client.isSuccessStatusCode status = false) ∧
      (World.handle svc (.cosmos container (upsertRequest item partitionKey)) w).1 = .error e ∧
      (World.handle svc (.cosmos container (upsertRequest item partitionKey)) w).2.repo =
        w.repo := by
    rcases World.handle_cosmos_cases svc w container (upsertRequest item partitionKey) with
      ⟨f, hf, hanswer, hrepo⟩ | ⟨f, hf, -, hanswer, hrepo⟩ | ⟨hanswer, hrepo⟩
    · exact ⟨f.error, hw f hf, hanswer, hrepo⟩
    · -- to carry out a refused upsert changes nothing
      rw [upsertRequest, hrefused, Function.update_eq_self] at hrepo
      exact ⟨f.error, hw f (List.mem_of_head? hf), hanswer, hrepo⟩
    · rw [upsertRequest, hrefused] at hanswer hrepo
      rw [Function.update_eq_self] at hrepo
      refine ⟨_, ?_, hanswer, hrepo⟩
      intro status hstatus
      cases hstatus
      decide
  obtain ⟨e, hfail, hanswer, hrepo⟩ := hanswered
  obtain ⟨e', he'⟩ := handleFailedOperationResponse_throws hfail
    "upsertItem" (Fields.get (assignPartitionKey item partitionKey) "id")
  refine ⟨e', _, ?_, hrepo, hsub⟩
  rw [upsertItem_eq, World.run_request_bind, hanswer]
  simp only [he', Program.run_throw]

/-- **A merge** whose document is not there fails, or writes its own document, unless that
has an etag, or, if its read failed, the orphan. -/
theorem mergeOrWriteDocument_absent_outcome (hw : w.FaultsFail) {document : Fields}
    {id pk : String} (hidne : id ≠ "") (hid : Fields.get document "id" = .str id)
    (hpk : Fields.get document "partitionKey" = .str pk)
    (hfind : (w.repo container).find (.str pk, .str id) = none) :
    Fails svc (mergeOrWriteDocument container document .undefined true none) w ∨
      ∃ item, (item = orphan pk ∨ item = document ∧ Fields.get document "_etag" = .undefined) ∧
        ∃ lost, Writes svc lost container (svc.stamp (w.repo container).writes item)
          ⟨(svc.stamp (w.repo container).writes item).val, .undefined, .code 200⟩
          (mergeOrWriteDocument container document .undefined true none) w := by
  have heff : effectivePartitionKey document .undefined = .str pk := hpk
  have hassign := @assignPartitionKey_eq_self document (.str pk) nofun hpk
  obtain ⟨w', hlater, a, ha, hreads⟩ :=
    @mergeOrWriteDocument_reads svc container w document id pk .undefined hid heff
  have hrun := hreads true none
  have hw' : w'.FaultsFail := hw.subset hlater.faults
  rw [Collection.serve_read_none svc hfind] at ha
  rcases ha with rfl | ⟨f, hf, rfl⟩
  · rw [readResponse, Program.ofExcept_ok, pure_bind, mergeOrWrite_notFound rfl] at hrun
    by_cases hetag : Fields.get document "_etag" = .undefined
    · have hout := @upsertItem_outcome svc container w' hw'.errorsFail document (.str pk)
        (@admits_fresh svc container w' document pk hpk hetag)
      rw [hassign, hlater.repo] at hout
      rcases hout with hfails | hwrites
      · exact Or.inl (hfails.of_run hlater hrun)
      · exact Or.inr ⟨document, Or.inr ⟨rfl, hetag⟩, _, hwrites.of_run hlater hrun⟩
    · -- no document is there to have the etag
      have hrefused : Fails svc (upsertItem container document (.str pk) true) w' := by
        apply upsertItem_refused hw'.errorsFail
        rw [hassign, getOptions, if_neg hetag, Collection.admits_some, hlater.repo,
          svc.key_stamp_str hid hidne hpk, hfind]
        rintro ⟨d, hd, -⟩
        cases hd
      exact Or.inl (hrefused.of_run hlater hrun)
  · exact (failedRead_outcome hw hf hlater hrun).imp_right fun h => ⟨orphan pk, Or.inl rfl, h⟩

end

end WebInsights.Cosmos
