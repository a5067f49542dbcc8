/-
Concurrent merges of one document.

Between its read and its upsert a merge is open to the writes of others. The
stored `_etag` survives the merge and becomes the condition of the upsert, so a
merge into a document that was there is admitted only over the version it was
computed from. A merge that found nothing has no etag to send: its upsert
replaces whatever was created in the meantime. `Careful` names the steps that do
not do that, and a run of such steps is serial.
-/
import WebInsights.Cosmos.ClientRuns
import WebInsights.Effect.Optimistic
import WebInsights.Effect.Pool

set_option autoImplicit false

namespace WebInsights.Cosmos.CosmosContainerClient

open Effect Js CosmosClientWrapper

/-! ## One call -/

/-- A call of `mergeOrWriteDocument`, by a caller or by `mergeOrWriteDocuments`. -/
structure MergeCall where
  document : Obj
  partitionKey : Val
  throwIfNotSuccess : Bool
  customMerge : Option CustomMerge

namespace MergeCall

variable (container : Container)

def program (call : MergeCall) : Async CosmosOperationResponse :=
  mergeOrWriteDocument container call.document.fields call.partitionKey call.throwIfNotSuccess
    call.customMerge

/-- The call is about the document `id` of the partition `pk`. -/
structure Targets (call : MergeCall) (id pk : String) : Prop where
  id_ne : id ≠ ""
  id_eq : Fields.get call.document.fields "id" = .str id
  partitionKey_eq : effectivePartitionKey call.document.fields call.partitionKey = .str pk
  /-- An empty partition key is not assigned, so the document has to carry it. -/
  carries : pk ≠ "" ∨ Fields.get call.document.fields "partitionKey" = .str pk
  leaves : ∀ k ∈ ["id", "partitionKey", "_etag"], LeavesAlone call.customMerge k

/-- What follows the read. -/
def afterRead (call : MergeCall) (pk : String) (answer : Except SdkError Answer) :
    Async CosmosOperationResponse :=
  Program.ofExcept (readResponse answer) >>= fun response =>
    mergeOrWrite container call.document.fields (.str pk) call.throwIfNotSuccess
      call.customMerge response

variable {container} {call : MergeCall} {id pk : String}

theorem program_eq (h : call.Targets id pk) :
    call.program container =
      .call (.cosmos container (.read (.str id) (.str pk))) (call.afterRead container pk) := by
  unfold program
  rw [mergeOrWriteDocument_eq (by rw [h.id_eq]; nofun) (by rw [h.partitionKey_eq]; nofun),
    h.id_eq, h.partitionKey_eq]
  rfl

/-- What follows the upsert. -/
def afterUpsert (call : MergeCall) (id : Val) :
    Except SdkError Answer → Async CosmosOperationResponse
  | .ok response => pure (upsertSuccess response)
  | .error error => handleFailedOperationResponse "upsertItem" error call.throwIfNotSuccess id

theorem upsertItem_eq_call (call : MergeCall) (item : Fields) (pk : String) :
    upsertItem container item (.str pk) call.throwIfNotSuccess =
      .call (.cosmos container (upsertRequest item (.str pk)))
        (call.afterUpsert (Fields.get (assignPartitionKey item (.str pk)) "id")) := by
  rw [upsertItem_eq]
  refine congrArg _ (funext fun a => ?_)
  cases a <;> rfl

end MergeCall

/-! ## Items that stay in their place -/

/-- The item goes to the partition `pk` and has the id `id`. -/
structure Addressed (item : Fields) (id pk : String) : Prop where
  id_ne : id ≠ ""
  id_eq : Fields.get item "id" = .str id
  carries : pk ≠ "" ∨ Fields.get item "partitionKey" = .str pk

/-- What is sent of an addressed item names its place. -/
theorem Addressed.sent {item : Fields} {id pk : String} (h : Addressed item id pk) :
    Fields.get (assignPartitionKey item (.str pk)) "id" = .str id ∧
      Fields.get (assignPartitionKey item (.str pk)) "partitionKey" = .str pk := by
  refine ⟨?_, get_assignPartitionKey_self (h.carries.imp isEmpty_str fun e => e)⟩
  rw [get_assignPartitionKey_ne (by decide), h.id_eq]

/-- The stored document of an addressed item has that key. -/
theorem Addressed.key_stamp {item : Fields} {id pk : String} (h : Addressed item id pk)
    (svc : Service) (n : ℕ) :
    (svc.stamp n (assignPartitionKey item (.str pk))).key = (.str pk, .str id) := by
  obtain ⟨hid, hpk⟩ := h.sent
  exact svc.key_stamp_str hid h.id_ne hpk n

theorem MergeCall.Targets.addressed {call : MergeCall} {id pk : String}
    (h : call.Targets id pk) : Addressed call.document.fields id pk where
  id_ne := h.id_ne
  id_eq := h.id_eq
  carries := h.carries

/-- The merge into a document of that key is addressed, and carries its etag. -/
theorem MergeCall.Targets.merged {call : MergeCall} {id pk : String} (h : call.Targets id pk)
    {S : Document} (hkey : S.key = (.str pk, .str id)) {etag : String}
    (hetag : S.get "_etag" = .str etag) {merged : Fields}
    (hmerged : mergedDocument S.val call.document.fields call.customMerge = .ok merged) :
    Addressed merged id pk ∧
      getOptions (assignPartitionKey merged (.str pk)) = some (.str etag) := by
  have hkey' := Prod.mk.inj hkey
  refine ⟨⟨h.id_ne, ?_, ?_⟩, ?_⟩
  · exact get_merged_str call.document.wf.1 hmerged (h.leaves _ (by decide)) hkey'.2
      (Or.inr h.id_eq)
  · refine h.carries.imp (fun e => e) fun hcarries => ?_
    exact get_merged_str call.document.wf.1 hmerged (h.leaves _ (by decide)) hkey'.1
      (Or.inr hcarries)
  · have hm := get_merged_str call.document.wf.1 hmerged (h.leaves _ (by decide)) hetag
      (Or.inl rfl)
    unfold getOptions
    rw [get_assignPartitionKey_ne (by decide), hm, if_neg nofun]

/-! ## A call on its own -/

/-- The call has returned a response that reports success. -/
def ReportsSuccess (p : Async CosmosOperationResponse) : Prop :=
  ∃ response, p = .pure response ∧ client.isSuccessStatusCode response.statusCode = true

/-- The world after the call ran on its own. -/
def MergeCall.apply (svc : Service) (container : Container) (call : MergeCall) (w : World) :
    World :=
  ((call.program container).run (World.handle svc) w).2

/-- A document's version and the versions writes make. -/
abbrev etagOf (d : Document) : Val := d.get "_etag"

abbrev etagStamp (svc : Service) (n : ℕ) : Val := .str (svc.etag n)

theorem etagStamp_injective (svc : Service) : Function.Injective (etagStamp svc) := by
  intro m n h
  exact svc.etag_injective (by simpa [etagStamp] using h)

section Alone

variable {svc : Service} {container : Container} {call : MergeCall} {id pk : String} {w : World}

/-- The world after item was written as the next document. -/
def written (svc : Service) (container : Container) (item : Fields) (pk : String) (w : World) :
    Container → Collection :=
  Function.update w.repo container ((w.repo container).put
    (svc.stamp (w.repo container).writes (assignPartitionKey item (.str pk))))

theorem upsertItem_repo {item : Fields} (hw : w.faults = [])
    (hcond : (w.repo container).Admits
      (svc.stamp (w.repo container).writes (assignPartitionKey item (.str pk))).key
      (getOptions (assignPartitionKey item (.str pk)))) (throwIfNotSuccess : Bool) :
    ((upsertItem container item (.str pk) throwIfNotSuccess).run (World.handle svc) w).2.repo =
      written svc container item pk w := by
  rw [run_upsertItem hw hcond]
  rfl

/-- Run alone, a call whose document is there writes the merge. -/
theorem apply_found (h : call.Targets id pk) (hw : w.faults = []) {S : Document}
    (hfind : (w.repo container).find (.str pk, .str id) = some S) {etag : String}
    (hetag : S.get "_etag" = .str etag) {merged : Fields}
    (hmerged : mergedDocument S.val call.document.fields call.customMerge = .ok merged) :
    (call.apply svc container w).repo = written svc container merged pk w := by
  obtain ⟨haddr, hoptions⟩ := h.merged (Collection.find_eq_some_iff.mp hfind).2 hetag hmerged
  have hread := Collection.serve_read_some svc hfind
  unfold MergeCall.apply
  rw [MergeCall.program_eq h, Program.run_call, World.handle_faultless svc hw, hread,
    World.withRepo_eq_self, MergeCall.afterRead, readResponse, Program.ofExcept_ok, pure_bind,
    mergeOrWrite_merged (by simp) hmerged, upsertItem_repo hw]
  rw [haddr.key_stamp, hoptions, Collection.admits_some]
  exact ⟨S, hfind, hetag⟩

/-- Run alone, a call whose document is not there writes its own document, unless
that asks for an etag. -/
theorem apply_absent (h : call.Targets id pk) (hw : w.faults = [])
    (hfind : (w.repo container).find (.str pk, .str id) = none)
    (hcond : (w.repo container).Admits (.str pk, .str id)
      (getOptions (assignPartitionKey call.document.fields (.str pk)))) :
    (call.apply svc container w).repo = written svc container call.document.fields pk w := by
  have hread := Collection.serve_read_none svc hfind
  unfold MergeCall.apply
  rw [MergeCall.program_eq h, Program.run_call, World.handle_faultless svc hw, hread,
    World.withRepo_eq_self, MergeCall.afterRead, readResponse, Program.ofExcept_ok, pure_bind,
    mergeOrWrite_notFound (by rfl), upsertItem_repo hw]
  rwa [h.addressed.key_stamp]

end Alone

/-! ## Interleaved merges -/

section Interleaved

variable {ι : Type} [DecidableEq ι]

/-- The merges in flight over one storage. -/
abbrev MergePool (ι : Type) : Type :=
  Pool ι Operation Operation.Result World JsError CosmosOperationResponse

/-- The answer to a read that the client takes for `404`. -/
def AnswersNotFound (answer : Except SdkError Answer) : Prop :=
  ∃ response, readResponse answer = .ok response ∧ response.statusCode = .code 404

/-- The caller's read was answered `404`. -/
def FoundNothing (seen : List (Sigma Operation.Result)) : Prop :=
  ∃ container id partitionKey answer,
    ⟨.cosmos container (.read id partitionKey), answer⟩ ∈ seen ∧ AnswersNotFound answer

/-- The caller's read failed, with a status that the client does not take for `404`. -/
def ReadFailed (seen : List (Sigma Operation.Result)) : Prop :=
  ∃ container id partitionKey error status,
    ⟨.cosmos container (.read id partitionKey), .error error⟩ ∈ seen ∧
      error.code = some status ∧ status ≠ .code 404

/-- The answer of an upsert that was accepted. -/
def Accepts : (op : Operation) → op.Result → Prop
  | .cosmos _ (.upsert _ _), .ok _ => True
  | _, _ => False

/-- An answer that ends a merge without success. A read that fails with a status does not. -/
def Refuses : (op : Operation) → op.Result → Prop
  | .cosmos _ (.upsert _ _), .error _ => True
  | .cosmos _ (.read _ _), .error error => error.code = none
  | _, _ => False

/-- The steps that lose nothing: an upsert by a caller that found nothing does not replace a
document, one by a caller whose read failed is not accepted, and none is carried out without
an answer. -/
structure Careful (svc : Service) (container : Container) (id pk : String) (p : MergePool ι)
    (i : ι) (op : Operation) : Prop where
  created : FoundNothing (p.threads i).seen → Accepts op (World.handle svc op p.shared).1 →
    (p.shared.repo container).find (.str pk, .str id) = none
  orphaned : ReadFailed (p.threads i).seen → ¬ Accepts op (World.handle svc op p.shared).1
  answered : Accepts op (World.handle svc op p.shared).1 ∨
    (World.handle svc op p.shared).2.repo = p.shared.repo

variable (svc : Service) (container : Container)

/-- Where a merge can be in a run, and whether it is committed there. -/
inductive Progress (call : MergeCall) (id pk : String) (repo : Collection) (committed : Prop) :
    Thread Operation Operation.Result JsError CosmosOperationResponse → Prop
  | waiting {seen} (h : ¬ committed) :
      Progress call id pk repo committed ⟨call.program container, seen⟩
  | merging {seen} (h : ¬ committed) {S : Document} {merged : Fields}
      (hkey : S.key = (.str pk, .str id))
      (hsnap : Snapshot etagOf (etagStamp svc) repo.writes (repo.find (.str pk, .str id)) S)
      (hmerged : mergedDocument S.val call.document.fields call.customMerge = .ok merged) :
      Progress call id pk repo committed
        ⟨upsertItem container merged (.str pk) call.throwIfNotSuccess, seen⟩
  | creating {seen} (h : ¬ committed) (hnothing : FoundNothing seen) :
      Progress call id pk repo committed
        ⟨upsertItem container call.document.fields (.str pk) call.throwIfNotSuccess, seen⟩
  | orphaning {item seen} (h : ¬ committed) (hread : ReadFailed seen) :
      Progress call id pk repo committed
        ⟨upsertItem container item (.str pk) call.throwIfNotSuccess, seen⟩
  | failed {prog seen} (h : ¬ committed) (hend : prog.Ended) (hfail : ¬ ReportsSuccess prog)
      (hthrows : call.throwIfNotSuccess = true → ∀ response, prog ≠ .pure response) :
      Progress call id pk repo committed ⟨prog, seen⟩
  | committed {prog seen} (h : committed) (hdone : ReportsSuccess prog) :
      Progress call id pk repo committed ⟨prog, seen⟩

/-- What holds of every pool a careful run reaches. -/
structure Committed (calls : ι → MergeCall) (id pk : String) (w : World) (p : MergePool ι)
    (order : List ι) : Prop where
  nodup : order.Nodup
  isSerial : p.shared.repo =
    (serial (fun i => (calls i).apply svc container) order { w with faults := [] }).repo
  stamped : (p.shared.repo container).Stamped svc
  faults : p.shared.ErrorsFail
  progress : ∀ i, Progress svc container (calls i) id pk (p.shared.repo container) (i ∈ order)
    (p.threads i)

variable {svc container} {calls : ι → MergeCall} {call : MergeCall} {id pk : String} {w : World}
  {p : MergePool ι} {order : List ι}

theorem throw_ne_pure (e : JsError) (response : CosmosOperationResponse) :
    (throw e : Async CosmosOperationResponse) ≠ .pure response := by
  intro h
  cases h

theorem not_reportsSuccess_throw (e : JsError) : ¬ ReportsSuccess (throw e) := by
  rintro ⟨response, hresponse, -⟩
  cases hresponse

theorem not_reportsSuccess_upsertItem (call : MergeCall) (item : Fields) (pk : String) :
    ¬ ReportsSuccess (upsertItem container item (.str pk) call.throwIfNotSuccess) := by
  rintro ⟨response, hresponse, -⟩
  rw [MergeCall.upsertItem_eq_call] at hresponse
  cases hresponse

theorem not_reportsSuccess_program (h : call.Targets id pk) :
    ¬ ReportsSuccess (call.program container) := by
  rintro ⟨response, hresponse, -⟩
  rw [MergeCall.program_eq h] at hresponse
  cases hresponse

/-- A committed merge is one that reports success. -/
theorem Progress.reportsSuccess_iff {repo : Collection} {committed : Prop}
    {t : Thread Operation Operation.Result JsError CosmosOperationResponse}
    (h : Progress svc container call id pk repo committed t) (htargets : call.Targets id pk) :
    committed ↔ ReportsSuccess t.prog := by
  cases h with
  | waiting h => exact iff_of_false h (not_reportsSuccess_program htargets)
  | merging h => exact iff_of_false h (not_reportsSuccess_upsertItem call _ pk)
  | creating h => exact iff_of_false h (not_reportsSuccess_upsertItem call _ pk)
  | orphaning h => exact iff_of_false h (not_reportsSuccess_upsertItem call _ pk)
  | failed h _ hfail => exact iff_of_false h hfail
  | committed h hdone => exact iff_of_true h hdone

/-- A merge that throws what is no success has returned only with success. -/
theorem Progress.of_pure {repo : Collection} {committed : Prop}
    {t : Thread Operation Operation.Result JsError CosmosOperationResponse}
    (h : Progress svc container call id pk repo committed t) (htargets : call.Targets id pk)
    (hthrow : call.throwIfNotSuccess = true) {response : CosmosOperationResponse}
    (hpure : t.prog = .pure response) : ReportsSuccess t.prog := by
  have hupsert : ∀ item, upsertItem container item (.str pk) call.throwIfNotSuccess ≠
      .pure response := by
    intro item hitem
    rw [MergeCall.upsertItem_eq_call] at hitem
    cases hitem
  cases h with
  | waiting =>
    dsimp only at hpure
    rw [MergeCall.program_eq htargets] at hpure
    cases hpure
  | merging => exact absurd hpure (hupsert _)
  | creating => exact absurd hpure (hupsert _)
  | orphaning => exact absurd hpure (hupsert _)
  | failed _ _ _ hthrows => exact absurd hpure (hthrows hthrow response)
  | committed _ hdone => exact hdone

theorem Progress.congr {repo : Collection} {c c' : Prop} (hc : c ↔ c')
    {t : Thread Operation Operation.Result JsError CosmosOperationResponse}
    (h : Progress svc container call id pk repo c t) :
    Progress svc container call id pk repo c' t := by
  rwa [← propext hc]

/-- A copy of a document is one after a write in its place. -/
theorem snapshot_put {repo : Collection} {S d : Document}
    (h : Snapshot etagOf (etagStamp svc) repo.writes (repo.find (.str pk, .str id)) S)
    (hkey : d.key = (.str pk, .str id)) (hetag : etagOf d = etagStamp svc repo.writes) :
    Snapshot etagOf (etagStamp svc) (repo.put d).writes ((repo.put d).find (.str pk, .str id))
      S := by
  have hfind : (repo.put d).find (.str pk, .str id) = some d := by
    rw [← hkey, Collection.find_put_self]
  rw [hfind, Collection.writes_put]
  exact h.write (etagStamp_injective svc) hetag

/-- A write of another caller under the same key leaves a merge where it is. -/
theorem Progress.write {repo : Collection} {committed : Prop}
    {t : Thread Operation Operation.Result JsError CosmosOperationResponse}
    (h : Progress svc container call id pk repo committed t) {d : Document}
    (hkey : d.key = (.str pk, .str id)) (hetag : etagOf d = etagStamp svc repo.writes) :
    Progress svc container call id pk (repo.put d) committed t := by
  cases h with
  | waiting h => exact .waiting h
  | merging h hS hsnap hmerged => exact .merging h hS (snapshot_put hsnap hkey hetag) hmerged
  | creating h hnothing => exact .creating h hnothing
  | orphaning h hread => exact .orphaning h hread
  | failed h hend hfail hthrows => exact .failed h hend hfail hthrows
  | committed h hdone => exact .committed h hdone

/-- A step that changes no document. -/
theorem Committed.of_unchanged (h : Committed svc container calls id pk w p order) {i : ι}
    {op : Operation} {k : op.Result → Async CosmosOperationResponse}
    (hrepo : (World.handle svc op p.shared).2.repo = p.shared.repo)
    (hprog : Progress svc container (calls i) id pk (p.shared.repo container) (i ∈ order)
      ⟨k (World.handle svc op p.shared).1,
        (p.threads i).seen ++ [⟨op, (World.handle svc op p.shared).1⟩]⟩) :
    Committed svc container calls id pk w (p.perform (World.handle svc) i op k) order where
  nodup := h.nodup
  isSerial := hrepo.trans h.isSerial
  stamped := by
    rw [Pool.perform, hrepo]
    exact h.stamped
  faults := h.faults.subset (World.handle_faults_subset svc op p.shared)
  progress := by
    intro j
    have hshared : (p.perform (World.handle svc) i op k).shared.repo = p.shared.repo := hrepo
    rw [hshared]
    by_cases hj : j = i
    · subst hj
      rw [Pool.perform_threads_self]
      exact hprog
    · rw [Pool.perform_threads_ne _ _ hj]
      exact h.progress j

/-- A step that commits a merge: it writes what the merge, run now on its own, would
write. -/
theorem Committed.of_written (h : Committed svc container calls id pk w p order) {i : ι}
    (hi : i ∉ order) {op : Operation} {k : op.Result → Async CosmosOperationResponse}
    {item : Fields} (haddr : Addressed item id pk)
    (hrepo : (World.handle svc op p.shared).2.repo = written svc container item pk p.shared)
    (happly : ∀ w' : World, w'.faults = [] → w'.repo = p.shared.repo →
      ((calls i).apply svc container w').repo = written svc container item pk w')
    (hdone : ReportsSuccess (k (World.handle svc op p.shared).1)) :
    Committed svc container calls id pk w (p.perform (World.handle svc) i op k)
      (order ++ [i]) where
  nodup := List.nodup_append.mpr ⟨h.nodup, List.nodup_singleton i, by
    rintro j hj l hl rfl
    exact hi (List.mem_singleton.mp hl ▸ hj)⟩
  isSerial := by
    have hfaults : ∀ l : List ι, (serial (fun i => (calls i).apply svc container) l
        { w with faults := [] }).faults = [] := by
      intro l
      induction l using List.reverseRecOn with
      | nil => rfl
      | append_singleton l j ih =>
        rw [serial_concat]
        exact World.run_faults svc _ ih
    have hshared : (p.perform (World.handle svc) i op k).shared.repo =
        written svc container item pk p.shared := hrepo
    rw [hshared, serial_concat, happly _ (hfaults order) h.isSerial.symm, written, written,
      h.isSerial]
  stamped := by
    have hshared : (p.perform (World.handle svc) i op k).shared.repo =
        written svc container item pk p.shared := hrepo
    rw [hshared, written, Function.update_self]
    exact h.stamped.put (assignPartitionKey item (.str pk))
  faults := h.faults.subset (World.handle_faults_subset svc op p.shared)
  progress := by
    intro j
    have hshared : (p.perform (World.handle svc) i op k).shared.repo =
        written svc container item pk p.shared := hrepo
    rw [hshared, written, Function.update_self]
    by_cases hj : j = i
    · subst hj
      rw [Pool.perform_threads_self]
      exact .committed (List.mem_append_right _ List.mem_cons_self) hdone
    · rw [Pool.perform_threads_ne _ _ hj]
      -- to the others it is a write of someone else
      have hmem : j ∈ order ↔ j ∈ order ++ [i] := by simp [hj]
      exact ((h.progress j).write (haddr.key_stamp svc _) (svc.get_stamp_etag _ _)).congr hmem

/-- An upsert that fails ends its merge without success. -/
theorem afterUpsert_error {error : SdkError} (call : MergeCall) (id : Val)
    (hcode : ∀ status, error.code = some status → client.isSuccessStatusCode status = false) :
    (call.afterUpsert id (.error error)).Ended ∧
      ¬ ReportsSuccess (call.afterUpsert id (.error error)) := by
  rcases handleFailedOperationResponse_cases "upsertItem" error call.throwIfNotSuccess id with
    ⟨e, he⟩ | ⟨response, hresponse, hstatus⟩
  · rw [MergeCall.afterUpsert, he]
    exact ⟨trivial, not_reportsSuccess_throw e⟩
  · rw [MergeCall.afterUpsert, hresponse]
    refine ⟨trivial, ?_⟩
    rintro ⟨response', hresponse', hs⟩
    cases hresponse'
    rw [hcode _ hstatus] at hs
    cases hs

theorem afterUpsert_ok (call : MergeCall) (id : Val) (answer : Answer) :
    ReportsSuccess (call.afterUpsert id (.ok answer)) :=
  ⟨upsertSuccess answer, rfl, rfl⟩

/-- A storage that does not fail answers what it carries out. -/
theorem answered_of_faultless (hw : w.faults = []) (item : Fields) (ifMatch : Option Val) :
    Accepts (.cosmos container (.upsert item ifMatch))
        (World.handle svc (.cosmos container (.upsert item ifMatch)) w).1 ∨
      (World.handle svc (.cosmos container (.upsert item ifMatch)) w).2.repo = w.repo := by
  rw [World.handle_faultless svc hw]
  by_cases hcond : (w.repo container).Admits
    (svc.stamp (w.repo container).writes item).key ifMatch
  · rw [Collection.serve_upsert svc hcond]
    exact Or.inl trivial
  · rw [Collection.serve_upsert_conflict svc hcond, World.withRepo_eq_self]
    exact Or.inr rfl

/-- The status of an upsert that fails is none of a success. -/
theorem upsert_error_code (hw : w.ErrorsFail) {item : Fields} {ifMatch : Option Val}
    {error : SdkError}
    (h : (World.handle svc (.cosmos container (.upsert item ifMatch)) w).1 = .error error) :
    ∀ status, error.code = some status → client.isSuccessStatusCode status = false := by
  rcases World.handle_answer_cases svc w container (.upsert item ifMatch) with
    ⟨f, hf, hanswer⟩ | hanswer
  · rw [hanswer] at h
    exact Except.error.inj h ▸ hw f hf
  · by_cases hcond : (w.repo container).Admits
      (svc.stamp (w.repo container).writes item).key ifMatch
    · rw [hanswer, Collection.serve_upsert svc hcond] at h
      cases h
    · rw [hanswer, Collection.serve_upsert_conflict svc hcond] at h
      cases h
      rintro status hstatus
      cases hstatus
      rfl

/-- **The read of a merge** ends it, or leaves it merging what it read, creating what it did
not find, or writing what it has made of a failure. -/
theorem Committed.read (h : Committed svc container calls id pk w p order) {i : ι}
    (hi : i ∉ order) :
    Committed svc container calls id pk w
      (p.perform (World.handle svc) i (.cosmos container (.read (.str id) (.str pk)))
        ((calls i).afterRead container pk)) order := by
  have hunchanged := @World.handle_readOnly svc
    (.cosmos container (.read (.str id) (.str pk))) trivial p.shared
  refine h.of_unchanged hunchanged ?_
  rcases World.handle_answer_cases svc p.shared container (.read (.str id) (.str pk)) with
    ⟨f, hf, hanswer⟩ | hanswer
  · rw [hanswer]
    have hseen := List.mem_append_right (p.threads i).seen
      (List.mem_singleton.mpr (rfl : (⟨.cosmos container (.read (.str id) (.str pk)),
        .error f.error⟩ : Sigma Operation.Result) = _))
    rcases hcode : f.error.code with _ | status
    · have hread : readResponse (.error f.error) = .error (.sdk f.error) := by
        simp [readResponse, errorResponse, client.getErrorResponse, hcode]
      rw [MergeCall.afterRead, hread]
      exact .failed hi trivial (not_reportsSuccess_throw _) fun _ => throw_ne_pure _
    · have hread : readResponse (.error f.error) =
          .ok ⟨.undefined, .str f.error.message, status⟩ := by
        simp [readResponse, errorResponse, client.getErrorResponse, hcode]
      rw [MergeCall.afterRead, hread, Program.ofExcept_ok, pure_bind]
      by_cases hstatus : status = .code 404
      · rw [mergeOrWrite_notFound hstatus]
        exact .creating hi ⟨container, .str id, .str pk, .error f.error, hseen, _, hread, hstatus⟩
      · -- what failed is merged into like a document that is there
        rcases hmerged : mergedDocument .undefined (calls i).document.fields
          (calls i).customMerge with e | merged
        · rw [mergeOrWrite_throws hstatus hmerged]
          exact .failed hi trivial (not_reportsSuccess_throw _) fun _ => throw_ne_pure _
        · rw [mergeOrWrite_merged hstatus hmerged]
          exact .orphaning hi
            ⟨container, .str id, .str pk, f.error, status, hseen, hcode, hstatus⟩
  · rcases hfind : (p.shared.repo container).find (.str pk, .str id) with _ | S
    · -- nothing is there, and the merge goes on to create its document
      rw [Collection.serve_read_none svc hfind] at hanswer
      rw [hanswer, MergeCall.afterRead, readResponse, Program.ofExcept_ok, pure_bind,
        mergeOrWrite_notFound rfl]
      refine .creating hi ⟨container, .str id, .str pk, .ok ⟨.undefined, .code 404⟩, ?_,
        _, rfl, rfl⟩
      exact List.mem_append_right _ List.mem_cons_self
    · rw [Collection.serve_read_some svc hfind] at hanswer
      rw [hanswer, MergeCall.afterRead, readResponse, Program.ofExcept_ok, pure_bind]
      have hmem := Collection.find_eq_some_iff.mp hfind
      rcases hmerged : mergedDocument S.val (calls i).document.fields (calls i).customMerge with
        e | merged
      · rw [mergeOrWrite_throws (by simp) hmerged]
        exact .failed hi trivial (not_reportsSuccess_throw _) fun _ => throw_ne_pure _
      · rw [mergeOrWrite_merged (by simp) hmerged]
        have hsnap : Snapshot etagOf (etagStamp svc) (p.shared.repo container).writes (some S) S :=
          .of_read (h.stamped S hmem.1)
        exact .merging hi hmem.2 (hfind ▸ hsnap) hmerged

/-- **An upsert that fails** and has written nothing. -/
theorem Committed.upsert_fails (h : Committed svc container calls id pk w p order) {i : ι}
    (hi : i ∉ order) {item : Fields} {error : SdkError}
    (hanswer : (World.handle svc (.cosmos container (upsertRequest item (.str pk)))
      p.shared).1 = .error error)
    (hrepo : (World.handle svc (.cosmos container (upsertRequest item (.str pk)))
      p.shared).2.repo = p.shared.repo) (v : Val) :
    Committed svc container calls id pk w
      (p.perform (World.handle svc) i (.cosmos container (upsertRequest item (.str pk)))
        ((calls i).afterUpsert v)) order := by
  have hcode := upsert_error_code h.faults hanswer
  have hfail := afterUpsert_error (calls i) v hcode
  refine h.of_unchanged hrepo ?_
  rw [hanswer]
  refine .failed hi hfail.1 hfail.2 fun hthrow response => ?_
  obtain ⟨e, he⟩ := handleFailedOperationResponse_throws hcode "upsertItem" v
  rw [MergeCall.afterUpsert, hthrow, he]
  nofun

/-- **An upsert that is accepted**, of an item that the merge, run now on its own, would
write. -/
theorem Committed.upsert_accepted (h : Committed svc container calls id pk w p order) {i : ι}
    (hi : i ∉ order) {item : Fields} (haddr : Addressed item id pk) {answer : Answer}
    (hanswer : (World.handle svc (.cosmos container (upsertRequest item (.str pk)))
      p.shared).1 = .ok answer)
    (happly : (p.shared.repo container).Admits (.str pk, .str id)
        (getOptions (assignPartitionKey item (.str pk))) →
      ∀ w' : World, w'.faults = [] → w'.repo = p.shared.repo →
        ((calls i).apply svc container w').repo = written svc container item pk w') (v : Val) :
    Committed svc container calls id pk w
      (p.perform (World.handle svc) i (.cosmos container (upsertRequest item (.str pk)))
        ((calls i).afterUpsert v)) (order ++ [i]) := by
  have hkey := haddr.key_stamp svc (p.shared.repo container).writes
  rcases World.handle_cosmos_cases svc p.shared container (upsertRequest item (.str pk)) with
    ⟨f, -, herror, -⟩ | ⟨f, -, -, herror, -⟩ | ⟨hserved, hrepo⟩
  · rw [hanswer] at herror
    cases herror
  · rw [hanswer] at herror
    cases herror
  · by_cases hcond : (p.shared.repo container).Admits (.str pk, .str id)
        (getOptions (assignPartitionKey item (.str pk)))
    · rw [upsertRequest, Collection.serve_upsert svc (hkey.symm ▸ hcond)] at hrepo
      refine h.of_written hi haddr hrepo (happly hcond) ?_
      rw [hanswer]
      exact afterUpsert_ok _ _ _
    · -- the document has changed since it was read
      rw [hanswer, upsertRequest,
        Collection.serve_upsert_conflict svc (hkey.symm ▸ hcond)] at hserved
      cases hserved

/-- **One careful step** keeps the merges that report success serial. -/
theorem Committed.step (h : Committed svc container calls id pk w p order)
    (htargets : ∀ i, (calls i).Targets id pk) {i : ι} {op : Operation}
    {k : op.Result → Async CosmosOperationResponse} (hk : (p.threads i).prog = .call op k)
    (hcareful : Careful svc container id pk p i op) :
    ∃ order', Committed svc container calls id pk w (p.perform (World.handle svc) i op k)
      order' := by
  -- an upsert is accepted, or it has written nothing
  have hupsert : ∀ {item : Fields} (v : Val), i ∉ order →
      Careful svc container id pk p i (.cosmos container (upsertRequest item (.str pk))) →
      (∀ answer, (World.handle svc (.cosmos container (upsertRequest item (.str pk)))
        p.shared).1 = .ok answer →
        ∃ order', Committed svc container calls id pk w (p.perform (World.handle svc) i
          (.cosmos container (upsertRequest item (.str pk))) ((calls i).afterUpsert v)) order') →
      ∃ order', Committed svc container calls id pk w (p.perform (World.handle svc) i
        (.cosmos container (upsertRequest item (.str pk))) ((calls i).afterUpsert v)) order' := by
    intro item v hi hcareful haccepted
    rcases hanswer : (World.handle svc (.cosmos container (upsertRequest item (.str pk)))
      p.shared).1 with error | answer
    · refine ⟨order, h.upsert_fails hi hanswer (hcareful.answered.resolve_left ?_) v⟩
      rw [hanswer]
      exact fun haccepts => haccepts
    · exact haccepted answer hanswer
  have hprogress := h.progress i
  generalize ht : p.threads i = t at hprogress hk
  cases hprogress with
  | waiting hi =>
    rw [MergeCall.program_eq (htargets i)] at hk
    cases hk
    exact ⟨order, h.read hi⟩
  | @merging seen hi S merged hkey hsnap hmerged =>
    rw [MergeCall.upsertItem_eq_call] at hk
    cases hk
    obtain ⟨n, -, hetag⟩ := hsnap.old
    obtain ⟨haddr, hoptions⟩ := (htargets i).merged hkey hetag hmerged
    refine hupsert _ hi hcareful fun answer hanswer =>
      ⟨_, h.upsert_accepted hi haddr hanswer ?_ _⟩
    intro hcond w' hw' hrepo
    -- the version that was read is still there, so what was read is
    rw [hoptions, Collection.admits_some] at hcond
    obtain ⟨d, hd, hversion⟩ := hcond
    have hfind := hsnap.eq_cell hd (hversion.trans hetag.symm)
    rw [← hrepo] at hfind
    exact apply_found (htargets i) hw' hfind hetag hmerged
  | @creating seen hi hnothing =>
    rw [MergeCall.upsertItem_eq_call] at hk
    cases hk
    refine hupsert _ hi hcareful fun answer hanswer =>
      ⟨_, h.upsert_accepted hi (htargets i).addressed hanswer ?_ _⟩
    intro hcond w' hw' hrepo
    -- a careful creation is accepted only where nothing is stored
    have hfind := hcareful.created (ht ▸ hnothing) (by rw [hanswer]; exact trivial)
    rw [← hrepo] at hfind hcond
    exact apply_absent (htargets i) hw' hfind hcond
  | orphaning hi hread =>
    rw [MergeCall.upsertItem_eq_call] at hk
    cases hk
    refine hupsert _ hi hcareful fun answer hanswer => ?_
    exact absurd (by rw [hanswer]; exact trivial) (hcareful.orphaned (ht ▸ hread))
  | failed _ hend _ =>
    dsimp only at hk
    rw [hk] at hend
    exact hend.elim
  | committed _ hdone =>
    obtain ⟨response, hresponse, -⟩ := hdone
    dsimp only at hk
    rw [hk] at hresponse
    cases hresponse

/-- A read does not end a merge with success, and without only if it fails with no status, or
the customizer throws. -/
theorem afterRead_ends (w : World) (call : MergeCall) (id pk : String) :
    ¬ ReportsSuccess (call.afterRead container pk
      (World.handle svc (.cosmos container (.read (.str id) (.str pk))) w).1) ∧
    ((call.afterRead container pk
        (World.handle svc (.cosmos container (.read (.str id) (.str pk))) w).1).Ended →
      call.customMerge = none → Refuses (.cosmos container (.read (.str id) (.str pk)))
        (World.handle svc (.cosmos container (.read (.str id) (.str pk))) w).1) := by
  -- every other answer leads to an upsert
  have hupsert : ∀ {answer item}, call.afterRead container pk answer =
      upsertItem container item (.str pk) call.throwIfNotSuccess →
      ¬ ReportsSuccess (call.afterRead container pk answer) ∧
        ((call.afterRead container pk answer).Ended → call.customMerge = none →
          Refuses (.cosmos container (.read (.str id) (.str pk))) answer) := by
    intro answer item hitem
    rw [hitem]
    refine ⟨not_reportsSuccess_upsertItem call item pk, fun hend => ?_⟩
    rw [MergeCall.upsertItem_eq_call] at hend
    exact hend.elim
  -- or to the exception of the customizer
  have hthrows : ∀ {answer e}, call.afterRead container pk answer = throw e →
      call.customMerge ≠ none →
      ¬ ReportsSuccess (call.afterRead container pk answer) ∧
        ((call.afterRead container pk answer).Ended → call.customMerge = none →
          Refuses (.cosmos container (.read (.str id) (.str pk))) answer) := by
    intro answer e he hcustom
    rw [he]
    exact ⟨not_reportsSuccess_throw e, fun _ hnone => absurd hnone hcustom⟩
  rcases World.handle_answer_cases svc w container (.read (.str id) (.str pk)) with
    ⟨f, -, hanswer⟩ | hanswer
  · rw [hanswer]
    rcases hcode : f.error.code with _ | status
    · have hread : readResponse (.error f.error) = .error (.sdk f.error) := by
        simp [readResponse, errorResponse, client.getErrorResponse, hcode]
      rw [MergeCall.afterRead, hread]
      exact ⟨not_reportsSuccess_throw _, fun _ _ => hcode⟩
    · have hafter : call.afterRead container pk (.error f.error) =
          mergeOrWrite container call.document.fields (.str pk) call.throwIfNotSuccess
            call.customMerge ⟨.undefined, .str f.error.message, status⟩ := by
        simp [MergeCall.afterRead, readResponse, errorResponse, client.getErrorResponse, hcode]
      by_cases hstatus : status = .code 404
      · exact hupsert (hafter.trans (mergeOrWrite_notFound hstatus _ _))
      · rcases hmerged : mergedDocument .undefined call.document.fields call.customMerge with
          e | merged
        · refine hthrows (hafter.trans (mergeOrWrite_throws hstatus hmerged _ _)) fun hnone => ?_
          rw [hnone, mergedDocument_undefined_none] at hmerged
          cases hmerged
        · exact hupsert (hafter.trans (mergeOrWrite_merged hstatus hmerged _ _))
  · rw [hanswer]
    have hafter : ∀ answer, call.afterRead container pk (.ok answer) =
        mergeOrWrite container call.document.fields (.str pk) call.throwIfNotSuccess
          call.customMerge ⟨answer.resource, .undefined, answer.statusCode⟩ := by
      intro answer
      rw [MergeCall.afterRead, readResponse, Program.ofExcept_ok, pure_bind]
    rcases hfind : (w.repo container).find (.str pk, .str id) with _ | S
    · rw [Collection.serve_read_none svc hfind]
      exact hupsert ((hafter _).trans (mergeOrWrite_notFound rfl _ _))
    · rw [Collection.serve_read_some svc hfind]
      rcases hmerged : mergedDocument S.val call.document.fields call.customMerge with e | merged
      · refine hthrows ((hafter _).trans (mergeOrWrite_throws (by simp) hmerged _ _))
          fun hnone => ?_
        obtain ⟨merged, hmerged'⟩ := exists_mergedDocument S call.document.fields
        rw [hnone, hmerged'] at hmerged
        cases hmerged
      · exact hupsert ((hafter _).trans (mergeOrWrite_merged (by simp) hmerged _ _))

omit [DecidableEq ι] in
/-- **What ends a merge**: its upsert is accepted, or an answer refuses it, or its customizer
throws. -/
theorem Committed.ends (h : Committed svc container calls id pk w p order)
    (htargets : ∀ i, (calls i).Targets id pk) {i : ι} {op : Operation}
    {k : op.Result → Async CosmosOperationResponse} (hk : (p.threads i).prog = .call op k) :
    (ReportsSuccess (k (World.handle svc op p.shared).1) →
      Accepts op (World.handle svc op p.shared).1) ∧
    ((k (World.handle svc op p.shared).1).Ended →
      ¬ ReportsSuccess (k (World.handle svc op p.shared).1) →
      (calls i).customMerge = none → Refuses op (World.handle svc op p.shared).1) := by
  have hupsert : ∀ (item : Fields) (v : Val),
      (ReportsSuccess ((calls i).afterUpsert v (World.handle svc
          (.cosmos container (upsertRequest item (.str pk))) p.shared).1) →
        Accepts (.cosmos container (upsertRequest item (.str pk))) (World.handle svc
          (.cosmos container (upsertRequest item (.str pk))) p.shared).1) ∧
      (((calls i).afterUpsert v (World.handle svc
          (.cosmos container (upsertRequest item (.str pk))) p.shared).1).Ended →
        ¬ ReportsSuccess ((calls i).afterUpsert v (World.handle svc
          (.cosmos container (upsertRequest item (.str pk))) p.shared).1) →
        (calls i).customMerge = none →
        Refuses (.cosmos container (upsertRequest item (.str pk))) (World.handle svc
          (.cosmos container (upsertRequest item (.str pk))) p.shared).1) := by
    intro item v
    rcases hanswer : (World.handle svc (.cosmos container (upsertRequest item (.str pk)))
      p.shared).1 with e | answer
    · have hfail := afterUpsert_error (calls i) v (upsert_error_code h.faults hanswer)
      exact ⟨fun hdone => absurd hdone hfail.2, fun _ _ _ => trivial⟩
    · exact ⟨fun _ => trivial, fun _ hfail => absurd (afterUpsert_ok _ _ _) hfail⟩
  have hprogress := h.progress i
  generalize ht : p.threads i = t at hprogress hk
  cases hprogress with
  | waiting hi =>
    rw [MergeCall.program_eq (htargets i)] at hk
    cases hk
    obtain ⟨hsuccess, hrefuses⟩ := afterRead_ends p.shared (calls i) id pk
    exact ⟨fun hdone => absurd hdone hsuccess, fun hend _ => hrefuses hend⟩
  | merging | creating | orphaning =>
    rw [MergeCall.upsertItem_eq_call] at hk
    cases hk
    exact hupsert _ _
  | failed _ hend _ =>
    dsimp only at hk
    rw [hk] at hend
    exact hend.elim
  | committed _ hdone =>
    obtain ⟨response, hresponse, -⟩ := hdone
    dsimp only at hk
    rw [hk] at hresponse
    cases hresponse

end Interleaved

end WebInsights.Cosmos.CosmosContainerClient
