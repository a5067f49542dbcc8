/-
What one call of the storage client does: the request it sends, and what it
makes of the answer.

`readItem` and `upsertItem` send one request each and turn its answer into a
response or an exception by a pure function (`readResponse`, `upsertSuccess`),
so `mergeOrWriteDocument` is a read, a pure merge and an upsert. Everything later
is proved from these forms and never opens the client again.
-/
import WebInsights.Cosmos.Client

set_option autoImplicit false

namespace WebInsights.Cosmos

open Effect Js CosmosClientWrapper

/-! ## Answers and responses -/

/-- The response for an error, where the caller asked for no exception. -/
def errorResponse (error : SdkError) : Except JsError CosmosOperationResponse :=
  match client.getErrorResponse error with
  | some response => .ok response
  | none => .error (.sdk error)

/-- What `readItem(.., throwIfNotSuccess = false)` makes of the SDK's answer. -/
def readResponse : Except SdkError Answer → Except JsError CosmosOperationResponse
  | .ok answer => .ok ⟨answer.resource, .undefined, answer.statusCode⟩
  | .error error => errorResponse error

/-- An upsert that succeeded. -/
def upsertSuccess (answer : Answer) : CosmosOperationResponse :=
  ⟨answer.resource, .undefined, .code 200⟩

namespace CosmosClientWrapper

theorem handleFailedOperationResponse_false (operation : String) (error : SdkError) (id : Val) :
    handleFailedOperationResponse operation error false id =
      Program.ofExcept (errorResponse error) := by
  unfold handleFailedOperationResponse errorResponse
  cases client.getErrorResponse error <;> rfl

/-- A failed operation never ends with a success, unless the error's own code is
one. -/
theorem handleFailedOperationResponse_cases (operation : String) (error : SdkError)
    (throwIfNotSuccess : Bool) (id : Val) :
    (∃ e, handleFailedOperationResponse operation error throwIfNotSuccess id = throw e) ∨
    ∃ response, handleFailedOperationResponse operation error throwIfNotSuccess id =
      pure response ∧ error.code = some response.statusCode := by
  unfold handleFailedOperationResponse client.getErrorResponse
  rcases hcode : error.code with _ | code
  · exact Or.inl ⟨_, rfl⟩
  · cases throwIfNotSuccess with
    | false => exact Or.inr ⟨_, rfl, rfl⟩
    | true =>
      by_cases hs : client.isSuccessStatusCode code = true
      · refine Or.inr ⟨⟨.undefined, .str error.message, code⟩, ?_, rfl⟩
        simp [throwIfNotSuccess, hs]
      · left
        simp only [Option.map_some, throwIfNotSuccess, hs]
        exact ⟨_, rfl⟩

theorem readItem_eq (container : Container) (id partitionKey : Val) :
    readItem container id partitionKey false =
      request container (.read id partitionKey) >>= fun a => Program.ofExcept (readResponse a) := by
  unfold readItem readResponse
  refine congrArg _ (funext fun a => ?_)
  cases a with
  | ok answer => rfl
  | error e => exact handleFailedOperationResponse_false "readItem" e id

/-- The request an upsert sends. -/
def upsertRequest (item : Fields) (partitionKey : Val) : Request :=
  .upsert (assignPartitionKey item partitionKey) (getOptions (assignPartitionKey item partitionKey))

theorem upsertItem_eq (container : Container) (item : Fields) (partitionKey : Val)
    (throwIfNotSuccess : Bool) :
    upsertItem container item partitionKey throwIfNotSuccess =
      request container (upsertRequest item partitionKey) >>= fun a =>
        match a with
        | .ok response => pure (upsertSuccess response)
        | .error error => handleFailedOperationResponse "upsertItem" error throwIfNotSuccess
            (Fields.get (assignPartitionKey item partitionKey) "id") := by
  unfold upsertItem upsertRequest
  refine congrArg _ (funext fun a => ?_)
  cases a <;> rfl

/-- Turning an error into a response or an exception sends no request. -/
theorem ops_handleFailedOperationResponse (svc : Service) (operation : String) (error : SdkError)
    (throwIfNotSuccess : Bool) (id : Val) (w : World) :
    (handleFailedOperationResponse operation error throwIfNotSuccess id).ops
      (World.handle svc) w = [] := by
  rcases handleFailedOperationResponse_cases operation error throwIfNotSuccess id with
    ⟨e, he⟩ | ⟨response, hresponse, -⟩
  · rw [he, Program.ops_throw]
  · rw [hresponse, Program.ops_pure]

/-- An upsert sends one request, whatever it is answered. -/
theorem ops_upsertItem (svc : Service) (container : Container) (item : Fields)
    (partitionKey : Val) (throwIfNotSuccess : Bool) (w : World) :
    (upsertItem container item partitionKey throwIfNotSuccess).ops (World.handle svc) w =
      [.cosmos container (upsertRequest item partitionKey)] := by
  rw [upsertItem_eq, World.ops_request_bind]
  refine congrArg _ ?_
  cases (World.handle svc (.cosmos container (upsertRequest item partitionKey)) w).1 with
  | ok response => exact Program.ops_pure _ _ _
  | error e => exact ops_handleFailedOperationResponse _ _ _ _ _ _

/-! The key a document lands under: its partition key is the one it was assigned. -/

theorem isEmpty_str {s : String} (h : s ≠ "") : isEmpty (.str s) = false := by
  simp [isEmpty, h]

theorem get_assignPartitionKey_ne {k : String} (h : k ≠ "partitionKey") (item : Fields)
    (partitionKey : Val) :
    Fields.get (assignPartitionKey item partitionKey) k = Fields.get item k := by
  unfold assignPartitionKey
  split
  · rfl
  · exact Fields.get_set_ne h.symm _

theorem get_assignPartitionKey_self {item : Fields} {partitionKey : Val}
    (h : isEmpty partitionKey = false ∨ Fields.get item "partitionKey" = partitionKey) :
    Fields.get (assignPartitionKey item partitionKey) "partitionKey" = partitionKey := by
  unfold assignPartitionKey
  by_cases hempty : isEmpty partitionKey = true
  · rw [if_pos hempty]
    exact h.resolve_left (by simp [hempty])
  · rw [if_neg hempty, Fields.get_set_self]

end CosmosClientWrapper

/-! ## `mergeOrWriteDocument` -/

namespace CosmosContainerClient

variable {container : Container} {document : Fields} {partitionKey : Val}
  {customMerge : Option CustomMerge}

/-- With an id and a partition key, a merge is a read and what follows its answer. -/
theorem mergeOrWriteDocument_eq (hid : Fields.get document "id" ≠ .undefined)
    (hpk : effectivePartitionKey document partitionKey ≠ .undefined)
    (throwIfNotSuccess : Bool) :
    mergeOrWriteDocument container document partitionKey throwIfNotSuccess customMerge =
      request container (.read (Fields.get document "id")
        (effectivePartitionKey document partitionKey)) >>= fun a =>
      Program.ofExcept (readResponse a) >>= fun response =>
      mergeOrWrite container document (effectivePartitionKey document partitionKey)
        throwIfNotSuccess customMerge response := by
  unfold mergeOrWriteDocument getEffectivePartitionKey
  rw [if_neg hid, if_neg hpk, pure_bind, readItem_eq, bind_assoc]

/-- The upsert of a merge whose read was answered 404: the document itself. -/
theorem mergeOrWrite_notFound {response : CosmosOperationResponse}
    (h : response.statusCode = .code 404) (epk : Val) (throwIfNotSuccess : Bool) :
    mergeOrWrite container document epk throwIfNotSuccess customMerge response =
      upsertItem container document epk throwIfNotSuccess := by
  unfold mergeOrWrite
  rw [if_pos h]

/-- The upsert of every other merge: the merged document. -/
theorem mergeOrWrite_merged {response : CosmosOperationResponse}
    (h : response.statusCode ≠ .code 404) {merged : Fields}
    (hmerged : mergedDocument response.item document customMerge = .ok merged) (epk : Val)
    (throwIfNotSuccess : Bool) :
    mergeOrWrite container document epk throwIfNotSuccess customMerge response =
      upsertItem container merged epk throwIfNotSuccess := by
  unfold mergeOrWrite
  rw [if_neg h, hmerged, Program.ofExcept_ok, pure_bind]

/-- A merge whose customizer throws writes nothing. -/
theorem mergeOrWrite_throws {response : CosmosOperationResponse}
    (h : response.statusCode ≠ .code 404) {e : JsError}
    (hmerged : mergedDocument response.item document customMerge = .error e) (epk : Val)
    (throwIfNotSuccess : Bool) :
    mergeOrWrite container document epk throwIfNotSuccess customMerge response = throw e := by
  unfold mergeOrWrite
  rw [if_neg h, hmerged]
  rfl

/-! ## The merged document -/

theorem keys_normalizeFields (fs : Fields) : Fields.keys (normalizeFields fs) = Fields.keys fs := by
  induction fs with
  | nil => rfl
  | cons p fs ih => exact congrArg (p.1 :: ·) ih

theorem get_normalizeFields (fs : Fields) (k : String) :
    Fields.get (normalizeFields fs) k = normalizeValue (Fields.get fs k) := by
  induction fs with
  | nil => rfl
  | cons p fs ih =>
    rw [normalizeFields, Fields.get_cons, Fields.get_cons, ih]
    split <;> rfl

/-- The document merged into a stored one. -/
theorem mergedDocument_obj (fs : Fields) :
    mergedDocument (.obj fs) document customMerge =
      (mergeFields (mergeCustomizer customMerge) fs document).map normalizeFields := by
  unfold mergedDocument mergeWith
  rcases h : mergeFields (mergeCustomizer customMerge) fs document with e | merged <;>
    simp [objectTarget, h, bind, Except.bind, pure, Except.pure, Except.map, mergedInPlace,
      getNormalizeMergedDocument]

/-- The document merged into nothing: the merge is lost. -/
theorem mergedDocument_undefined :
    mergedDocument .undefined document customMerge =
      (mergeFields (mergeCustomizer customMerge) [] document).map fun _ => [] := by
  unfold mergedDocument mergeWith
  rcases h : mergeFields (mergeCustomizer customMerge) [] document with e | merged <;>
    simp [objectTarget, h, bind, Except.bind, pure, Except.pure, Except.map, mergedInPlace,
      getNormalizeMergedDocument]

/-! What the customizer answers. -/

theorem mergeCustomizer_of_custom {f : CustomMerge} {target source r : Val} {key : String}
    (h : f source target key = .ok r) (hr : r ≠ .undefined) :
    mergeCustomizer (some f) target source key = .ok r := by
  simp [mergeCustomizer, h, hr, bind, Except.bind, pure, Except.pure]

theorem mergeCustomizer_of_throw {f : CustomMerge} {target source : Val} {key : String}
    {e : JsError} (h : f source target key = .error e) :
    mergeCustomizer (some f) target source key = .error e := by
  simp [mergeCustomizer, h, bind, Except.bind]

/-- Where the caller's merge has nothing to say, it is as if there were none. -/
theorem mergeCustomizer_of_undefined {f : CustomMerge} {target source : Val} {key : String}
    (h : f source target key = .ok .undefined) :
    mergeCustomizer (some f) target source key = mergeCustomizer none target source key := by
  simp [mergeCustomizer, h, bind, Except.bind, pure, Except.pure]

/-- The answer for the stored etag is the stored etag. -/
theorem mergeCustomizer_etag (target source : Val) :
    mergeCustomizer none target source "_etag" = .ok target := by
  simp [mergeCustomizer, bind, Except.bind, pure, Except.pure]

theorem mergeCustomizer_array {target source : Val} {key : String} (hkey : key ≠ "_etag")
    (h : isArray target = true) : mergeCustomizer none target source key = .ok (uniq source) := by
  simp [mergeCustomizer, hkey, h, bind, Except.bind, pure, Except.pure]

theorem mergeCustomizer_other {target source : Val} {key : String} (hkey : key ≠ "_etag")
    (h : isArray target = false) : mergeCustomizer none target source key = .ok .undefined := by
  simp [mergeCustomizer, hkey, h, bind, Except.bind, pure, Except.pure]

/-- About an absent target the client's own customizer has nothing to say. -/
theorem mergeCustomizer_absent (source : Val) (key : String) :
    mergeCustomizer none .undefined source key = .ok .undefined := by
  by_cases hkey : key = "_etag"
  · rw [hkey, mergeCustomizer_etag]
  · exact mergeCustomizer_other hkey rfl

/-- Without a merge of the caller, the customizer never throws. -/
theorem mergeCustomizer_total (t s : Val) (k : String) :
    ∃ r, mergeCustomizer none t s k = .ok r := by
  by_cases hkey : k = "_etag"
  · exact ⟨t, hkey ▸ mergeCustomizer_etag t s⟩
  · rcases h : isArray t with _ | _
    · exact ⟨_, mergeCustomizer_other hkey h⟩
    · exact ⟨_, mergeCustomizer_array hkey h⟩

/-! ## The properties of a merged document -/

/-- Without a merge of the caller, a document is merged into any object. -/
theorem exists_mergeFields_none (target document : Fields) :
    ∃ fs, mergeFields (mergeCustomizer none) target document = .ok fs :=
  exists_mergeFields (fun p (_ : p ∈ document) k v =>
    exists_mergeValue mergeCustomizer_total p.2 k v) target

/-- Without a merge of the caller, a document merged into nothing leaves no properties. -/
theorem mergedDocument_undefined_none (document : Fields) :
    mergedDocument .undefined document none = .ok [] := by
  obtain ⟨fs, hfs⟩ := exists_mergeFields_none [] document
  rw [mergedDocument_undefined, hfs]
  rfl

/-- Without a merge of the caller, the merged document exists. -/
theorem exists_mergedDocument (S : Document) (document : Fields) :
    ∃ merged, mergedDocument S.val document none = .ok merged := by
  obtain ⟨fs, hfs⟩ := exists_mergeFields_none S.fields document
  refine ⟨normalizeFields fs, ?_⟩
  rw [Document.val, mergedDocument_obj, hfs]
  rfl

/-- The caller's merge has nothing to say about the property `k`. -/
def LeavesAlone (customMerge : Option CustomMerge) (k : String) : Prop :=
  ∀ f, customMerge = some f → ∀ source target, f source target k = .ok .undefined

theorem mergeCustomizer_of_leavesAlone {customMerge : Option CustomMerge} {k : String}
    (h : LeavesAlone customMerge k) (target source : Val) :
    mergeCustomizer customMerge target source k = mergeCustomizer none target source k := by
  cases customMerge with
  | none => rfl
  | some f => exact mergeCustomizer_of_undefined (h f rfl source target)

theorem get_merged_of_notMem {ss document merged : Fields} {customMerge : Option CustomMerge}
    (hnd : (Fields.keys document).Nodup)
    (h : mergedDocument (.obj ss) document customMerge = .ok merged) {k : String}
    (hk : k ∉ Fields.keys document) :
    Fields.get merged k = normalizeValue (Fields.get ss k) := by
  rw [mergedDocument_obj] at h
  rcases hm : mergeFields (mergeCustomizer customMerge) ss document with e | fs
  · rw [hm] at h
    cases h
  · rw [hm] at h
    rw [← Except.ok.inj h, get_normalizeFields, get_mergeFields_of_notMem hnd hm hk]

theorem get_merged_of_mem {ss document merged : Fields} {customMerge : Option CustomMerge}
    (hnd : (Fields.keys document).Nodup)
    (h : mergedDocument (.obj ss) document customMerge = .ok merged) {k : String}
    (hk : k ∈ Fields.keys document) :
    ∃ v, mergeValue (mergeCustomizer customMerge) k (Fields.get ss k) (Fields.get document k) =
        .ok v ∧
      Fields.get merged k = normalizeValue (assigned (Fields.get ss k) v) := by
  rw [mergedDocument_obj] at h
  rcases hm : mergeFields (mergeCustomizer customMerge) ss document with e | fs
  · rw [hm] at h
    cases h
  · rw [hm] at h
    obtain ⟨v, hv, hget⟩ := get_mergeFields_of_mem hnd hm hk
    exact ⟨v, hv, by rw [← Except.ok.inj h, get_normalizeFields, hget]⟩

/-- A stored text stays, if the source has the same text or it is the etag. -/
theorem get_merged_str {ss document merged : Fields} {customMerge : Option CustomMerge}
    (hnd : (Fields.keys document).Nodup)
    (h : mergedDocument (.obj ss) document customMerge = .ok merged) {k : String}
    (hleave : LeavesAlone customMerge k) {s : String} (hstored : Fields.get ss k = .str s)
    (hsource : k = "_etag" ∨ Fields.get document k = .str s) :
    Fields.get merged k = .str s := by
  by_cases hk : k ∈ Fields.keys document
  · obtain ⟨v, hv, hget⟩ := get_merged_of_mem hnd h hk
    rw [hstored] at hv hget
    suffices hvs : v = .str s by
      rw [hget, hvs]
      rfl
    by_cases hetag : k = "_etag"
    · -- the customizer answers with the stored etag
      subst hetag
      have hcustom := (mergeCustomizer_of_leavesAlone hleave (.str s)
        (Fields.get document "_etag")).trans (mergeCustomizer_etag _ _)
      rw [mergeValue_of_custom hcustom nofun] at hv
      exact (Except.ok.inj hv).symm
    · -- nobody has anything to say about a text over a text
      have hdoc := hsource.resolve_left hetag
      have hsilent := (mergeCustomizer_of_leavesAlone hleave (.str s) (.str s)).trans
        (mergeCustomizer_other hetag rfl)
      rw [hdoc, mergeValue_scalar hsilent] at hv
      exact (Except.ok.inj hv).symm
  · rw [get_merged_of_notMem hnd h hk, hstored]
    rfl

end CosmosContainerClient

end WebInsights.Cosmos
