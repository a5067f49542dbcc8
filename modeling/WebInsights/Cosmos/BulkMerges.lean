/-
`mergeOrWriteDocuments` for documents that are not the same.

It starts one merge for each of its documents, and each of them reads and upserts on its own.
If no two of the documents go to the same place, the merges do not meet: in every interleaving
a merge that reports success has stored its document merged into what was there before all of
them, and one that does not has stored nothing, unless its response was lost.
-/
import WebInsights.Cosmos.DocumentCells
import WebInsights.Cosmos.MergeCalls
import WebInsights.Cosmos.MergeSemantics

set_option autoImplicit false

namespace WebInsights.Cosmos.CosmosContainerClient

open Effect Js CosmosClientWrapper

/-! ## One merge and its document -/

section Alone

variable {svc : Service} {Faults : Fault → Prop} {container : Container} {id pk : String}

theorem Addressed.about {item : Fields} (h : Addressed item id pk) :
    (Operation.cosmos container (upsertRequest item (.str pk))).about =
      some (container, .str pk, .str id) := by
  obtain ⟨hid, hpk⟩ := h.sent
  rw [upsertRequest, Operation.about_upsert (not_hasNoId hid h.id_ne), hid, hpk]
  rfl

/-- What a call writes where this is stored. -/
def MergeCall.item (call : MergeCall) : Option Document → Except JsError Fields
  | none => .ok call.document.fields
  | some S => mergedDocument S.val call.document.fields call.customMerge

/-- What a call makes of a document: it stores its item, which is the documented merge where the
values of the two are aligned. -/
def MergeCall.Makes (call : MergeCall) (svc : Service) (pk : String)
    (before after : Option Document) : Prop :=
  ∃ item n, call.item before = .ok item ∧
    after = some (svc.stamp n (assignPartitionKey item (.str pk))) ∧
    ∀ S, before = some S → call.customMerge = none →
      (∀ p ∈ call.document.fields, Aligned p.1 (S.get p.1) p.2) →
      item = documentedMerge S.fields call.document.fields

theorem MergeCall.makes_item (call : MergeCall) (svc : Service) (pk : String)
    {before : Option Document} {item : Fields} (hitem : call.item before = .ok item) (n : ℕ) :
    call.Makes svc pk before (some (svc.stamp n (assignPartitionKey item (.str pk)))) := by
  refine ⟨item, n, hitem, rfl, ?_⟩
  rintro S rfl hcustom haligned
  have hmerged : mergedDocument S.val call.document.fields call.customMerge = .ok item := hitem
  rw [hcustom, mergedDocument_documented haligned] at hmerged
  exact (Except.ok.inj hmerged).symm

/-- The reasons for a call to fail where this is stored: a request that fails, a merge that
throws, and an etag for a document that is not there. -/
def MergeCall.CanFail (call : MergeCall) (Faults : Fault → Prop) (stored : Option Document) :
    Prop :=
  (∃ f, Faults f) ∨ (∃ e, call.item stored = .error e) ∨
    stored = none ∧ Fields.get call.document.fields "_etag" ≠ .undefined

variable (svc Faults container id pk)

/-- Where a call has come alone with its document. -/
inductive MergeCall.Alone (call : MergeCall) (stored : Option Document) :
    Async CosmosOperationResponse → Option Document → Prop
  | waiting : call.Alone stored (call.program container) stored
  | writing {item} (hitem : call.item stored = .ok item) (haddr : Addressed item id pk) :
      call.Alone stored (upsertItem container item (.str pk) call.throwIfNotSuccess) stored
  | failed {prog} (hend : prog.Ended) (hfail : ¬ ReportsSuccess prog)
      (hreason : call.CanFail Faults stored) : call.Alone stored prog stored
  | lost {prog item} (hitem : call.item stored = .ok item) (n : ℕ) (hend : prog.Ended)
      (hfail : ¬ ReportsSuccess prog) (hlost : ∃ f, Faults f ∧ f.carriedOut = true) :
      call.Alone stored prog (some (svc.stamp n (assignPartitionKey item (.str pk))))
  | done {prog item} (hitem : call.item stored = .ok item) (n : ℕ) (hdone : ReportsSuccess prog) :
      call.Alone stored prog (some (svc.stamp n (assignPartitionKey item (.str pk))))

variable {svc Faults container id pk} {call : MergeCall} {stored : Option Document}

theorem afterRead_ok (answer : Answer) (pk : String) :
    call.afterRead container pk (.ok answer) =
      mergeOrWrite container call.document.fields (.str pk) call.throwIfNotSuccess
        call.customMerge ⟨answer.resource, .undefined, answer.statusCode⟩ := by
  rw [MergeCall.afterRead, readResponse, Program.ofExcept_ok, pure_bind]

/-- What follows a read that fails with no status. -/
theorem afterRead_error {e : SdkError} (hcode : e.code = none) (pk : String) :
    call.afterRead container pk (.error e) = throw (.sdk e) := by
  have hread : readResponse (.error e) = .error (.sdk e) := by
    simp [readResponse, errorResponse, client.getErrorResponse, hcode]
  rw [MergeCall.afterRead, hread]
  rfl

/-- What follows a read: the upsert of the item, or the exception of the merge. -/
theorem afterRead_readAnswer (pk : String) (stored : Option Document) :
    call.afterRead container pk (.ok (readAnswer stored)) = match call.item stored with
      | .ok item => upsertItem container item (.str pk) call.throwIfNotSuccess
      | .error e => throw e := by
  rw [afterRead_ok]
  rcases stored with _ | S
  · have hstatus : (⟨.undefined, .undefined, .code 404⟩ : CosmosOperationResponse).statusCode =
        .code 404 := rfl
    exact mergeOrWrite_notFound hstatus _ _
  · have hstatus : (⟨S.val, .undefined, .code 200⟩ : CosmosOperationResponse).statusCode ≠
        .code 404 := by simp
    rcases hitem : call.item (some S) with e | item
    · exact mergeOrWrite_throws hstatus hitem _ _
    · exact mergeOrWrite_merged hstatus hitem _ _

/-- An item is about the same document, and carries the etag that is stored. -/
theorem MergeCall.Targets.item (h : call.Targets id pk)
    (hstored : ∀ d ∈ stored, d.key = (.str pk, .str id) ∧ ∃ n, d.get "_etag" = .str (svc.etag n))
    {item : Fields} (hitem : call.item stored = .ok item) : Addressed item id pk ∧
      ((stored = none → Fields.get call.document.fields "_etag" = .undefined) →
        Matches stored (getOptions (assignPartitionKey item (.str pk)))) := by
  rcases stored with _ | S
  · obtain rfl := Except.ok.inj hitem
    refine ⟨h.addressed, fun hetag => ?_⟩
    unfold getOptions
    rw [get_assignPartitionKey_ne (by decide), if_pos (hetag rfl)]
    nofun
  · obtain ⟨hkey, n, hetag⟩ := hstored S rfl
    obtain ⟨haddr, hoptions⟩ := h.merged hkey hetag hitem
    refine ⟨haddr, fun _ e he => ?_⟩
    rw [hoptions] at he
    obtain rfl := Option.some.inj he
    exact congrArg some hetag

/-- **A call keeps to its document.** -/
theorem MergeCall.Targets.guarantees (h : call.Targets id pk) :
    (call.program container).Guarantees (AnswersAbout svc)
      (Operation.about · = some (container, .str pk, .str id)) fun _ => True := by
  rw [MergeCall.program_eq h]
  refine ⟨rfl, fun answer hanswer => ?_⟩
  rcases answer with e | answer
  · rw [afterRead_error hanswer]
    trivial
  · obtain ⟨stored, rfl, hstored⟩ := hanswer
    rw [afterRead_readAnswer]
    rcases hitem : call.item stored with e | item
    · trivial
    · have haddr := (h.item hstored hitem).1
      dsimp only
      rw [MergeCall.upsertItem_eq_call]
      refine ⟨haddr.about, fun answer _ => ?_⟩
      rcases answer with e | answer
      · rcases handleFailedOperationResponse_cases "upsertItem" e call.throwIfNotSuccess
          (Fields.get (assignPartitionKey item (.str pk)) "id") with ⟨e', he⟩ | ⟨response, he, -⟩
        · rw [MergeCall.afterUpsert, he]
          trivial
        · rw [MergeCall.afterUpsert, he]
          trivial
      · trivial

/-- **One step** of a call with its document. -/
theorem MergeCall.Alone.step (htargets : call.Targets id pk)
    (hstored : ∀ d ∈ stored, d.key = (.str pk, .str id) ∧ ∃ n, d.get "_etag" = .str (svc.etag n))
    (hfaults : ∀ f, Faults f → ∀ status, f.error.code = some status →
      client.isSuccessStatusCode status = false)
    {op : Operation} {k : op.Result → Async CosmosOperationResponse} {d d' : Option Document}
    {r : op.Result} (h : call.Alone svc Faults container id pk stored (.call op k) d)
    (hstep : DocumentStep svc Faults op d r d') (hanswer : AnswersAbout svc op r) :
    call.Alone svc Faults container id pk stored (k r) d' := by
  generalize hprog : Program.call op k = prog at h
  cases h with
  | waiting =>
    rw [MergeCall.program_eq htargets] at hprog
    cases hprog
    cases hstep with
    | fault hf =>
      rw [afterRead_error hanswer]
      exact .failed trivial (not_reportsSuccess_throw _) (Or.inl ⟨_, hf⟩)
    | lost hf _ hserved =>
      -- to lose the answer to a read is to fail
      cases hserved
      rw [afterRead_error hanswer]
      exact .failed trivial (not_reportsSuccess_throw _) (Or.inl ⟨_, hf⟩)
    | served hserved =>
      cases hserved with
      | read =>
        -- nobody else has changed the document, so what is read is what was stored at first
        rw [afterRead_readAnswer]
        rcases hitem : call.item stored with e | item
        · exact .failed trivial (not_reportsSuccess_throw _) (Or.inr (Or.inl ⟨e, hitem⟩))
        · exact .writing hitem (htargets.item hstored hitem).1
  | writing hitem haddr =>
    rw [MergeCall.upsertItem_eq_call] at hprog
    cases hprog
    cases hstep with
    | fault hf =>
      have hfail := fun v => afterUpsert_error call v (hfaults _ hf)
      exact .failed (hfail _).1 (hfail _).2 (Or.inl ⟨_, hf⟩)
    | lost hf hcarried hserved =>
      have hfail := fun v => afterUpsert_error call v (hfaults _ hf)
      cases hserved with
      | upsert n => exact .lost hitem n (hfail _).1 (hfail _).2 ⟨_, hf, hcarried⟩
      | refused => exact .failed (hfail _).1 (hfail _).2 (Or.inl ⟨_, hf⟩)
    | served hserved =>
      cases hserved with
      | upsert n hmatches => exact .done hitem n (afterUpsert_ok _ _ _)
      | refused hmatches =>
        have hfail := fun v => @afterUpsert_error ⟨some (.code 412), "PreconditionFailed"⟩ call v
          (by rintro status hs; cases hs; rfl)
        refine .failed (hfail _).1 (hfail _).2 (Or.inr (Or.inr ?_))
        -- an etag that was read is still the stored one: only one that was sent along is refused
        by_contra hreason
        refine hmatches ((htargets.item hstored hitem).2 fun hnone => ?_)
        by_contra hetag
        exact hreason ⟨hnone, hetag⟩
  | failed hend =>
    rw [← hprog] at hend
    exact hend.elim
  | lost _ _ hend =>
    rw [← hprog] at hend
    exact hend.elim
  | done _ _ hdone =>
    obtain ⟨response, hresponse, -⟩ := hdone
    rw [hresponse] at hprog
    cases hprog

/-- **A call alone with its document.** -/
theorem MergeCall.alone (htargets : call.Targets id pk)
    (hstored : ∀ d ∈ stored, d.key = (.str pk, .str id) ∧ ∃ n, d.get "_etag" = .str (svc.etag n))
    (hfaults : ∀ f, Faults f → ∀ status, f.error.code = some status →
      client.isSuccessStatusCode status = false)
    {prog : Async CosmosOperationResponse} {d : Option Document}
    (h : Solo (DocumentStep svc Faults) (AnswersAbout svc) (call.program container) stored prog d) :
    call.Alone svc Faults container id pk stored prog d := by
  induction h with
  | refl => exact .waiting
  | step _ hstep hanswer ih => exact ih.step htargets hstored hfaults hstep hanswer

/-- A call has stored its item if it reports success, and nothing if it does not, unless its
response was lost. -/
theorem MergeCall.Alone.outcome (htargets : call.Targets id pk)
    {prog : Async CosmosOperationResponse} {d : Option Document}
    (h : call.Alone svc Faults container id pk stored prog d) :
    (ReportsSuccess prog → call.Makes svc pk stored d) ∧
    (¬ ReportsSuccess prog → d = stored ∨
      prog.Ended ∧ call.Makes svc pk stored d ∧ ∃ f, Faults f ∧ f.carriedOut = true) ∧
    (prog.Ended → ReportsSuccess prog ∨ call.CanFail Faults stored) := by
  cases h with
  | waiting =>
    rw [MergeCall.program_eq htargets]
    refine ⟨?_, fun _ => Or.inl rfl, fun hend => hend.elim⟩
    rintro ⟨response, hresponse, -⟩
    cases hresponse
  | writing hitem haddr =>
    rw [MergeCall.upsertItem_eq_call]
    refine ⟨?_, fun _ => Or.inl rfl, fun hend => hend.elim⟩
    rintro ⟨response, hresponse, -⟩
    cases hresponse
  | failed hend hfail hreason =>
    exact ⟨fun hdone => absurd hdone hfail, fun _ => Or.inl rfl, fun _ => Or.inr hreason⟩
  | lost hitem n hend hfail hlost =>
    exact ⟨fun hdone => absurd hdone hfail,
      fun _ => Or.inr ⟨hend, call.makes_item svc pk hitem n, hlost⟩,
      fun _ => Or.inr (Or.inl (hlost.imp fun _ hf => hf.1))⟩
  | done hitem n hdone =>
    exact ⟨fun _ => call.makes_item svc pk hitem n, fun hfail => absurd hdone hfail,
      fun _ => Or.inl hdone⟩

end Alone

/-! ## Many merges -/

/-- One of two documents of a partition. -/
def bulk (b : Bool) : MergeCall where
  document := ⟨[("id", .str (if b then "a" else "b")), ("partitionKey", .str "p"), ("x", .num 1)],
    by cases b <;> decide⟩
  partitionKey := .undefined
  throwIfNotSuccess := true
  customMerge := none

/-- The storage before them has one of the two. -/
def bulkWorld : World :=
  creationWorld.store Service.counting .websiteData
    [("id", .str "a"), ("partitionKey", .str "p"), ("y", .num 2)]

/-- Both read before one of them writes. -/
def bulkPool : MergePool Bool :=
  (Pool.start (fun b => (bulk b).program .websiteData) bulkWorld).play
    (World.handle Service.counting) [true, false, false, true]

theorem bulk_targets (b : Bool) : (bulk b).Targets (if b then "a" else "b") "p" where
  id_ne := by cases b <;> decide
  id_eq := rfl
  partitionKey_eq := rfl
  carries := Or.inl (by decide)
  leaves := by
    intro k _ f hf
    cases hf

end WebInsights.Cosmos.CosmosContainerClient
