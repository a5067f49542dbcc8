/-
A merge whose initial read failed.

The read is asked not to throw, so a failure that has a status comes back as a
response with no item, and only the status 404 is looked at. Every other failed
read goes on to the merge: the document is merged into `undefined`, which leaves
nothing, and an item with no id is upserted. The one thing that stops the call
is an exception of the caller's own merge (`ThrowsOn`), as the one of
`updateWebsite` over a known list of pages.
-/
import WebInsights.Cosmos.MergeSemantics

set_option autoImplicit false

namespace WebInsights.Cosmos.CosmosContainerClient

open Effect Js CosmosClientWrapper

/-! ## Merges that throw over nothing -/

/-- The caller's merge throws when it is asked about the value, or about a part of
it that it is asked about, with nothing stored. -/
inductive ThrowsOn (f : CustomMerge) : String → Val → Prop
  | value {k : String} {v : Val} {e : JsError} (h : f v .undefined k = .error e) :
      ThrowsOn f k v
  | element {k : String} {vs : List Val} (h : f (.arr vs) .undefined k = .ok .undefined)
      {i : ℕ} {v : Val} (hv : vs[i]? = some v) (hthrows : ThrowsOn f (toString i) v) :
      ThrowsOn f k (.arr vs)
  | property {k : String} {fs : Fields} (h : f (.obj fs) .undefined k = .ok .undefined)
      {p : String × Val} (hp : p ∈ fs) (hthrows : ThrowsOn f p.1 p.2) :
      ThrowsOn f k (.obj fs)

/-- An array is merged into nothing element by element, until one throws. -/
theorem mergeElems_nil_error_iff {ε : Type} {c : Customizer ε} {vs : List Val} {i : ℕ} :
    (∃ e, mergeElems c [] i vs = .error e) ↔
      ∃ j v, vs[j]? = some v ∧ ∃ e, mergeValue c (toString (i + j)) .undefined v = .error e := by
  induction vs generalizing i with
  | nil => simp [mergeElems, pure, Except.pure]
  | cons v vs ih =>
    rcases hv : mergeValue c (toString i) .undefined v with e | r
    · constructor
      · intro _
        exact ⟨0, v, rfl, e, hv⟩
      · intro _
        refine ⟨e, ?_⟩
        rw [mergeElems, List.headD_nil, hv]
        rfl
    · have hrest : (∃ e, mergeElems c [] i (v :: vs) = .error e) ↔
          ∃ e, mergeElems c [] (i + 1) vs = .error e := by
        rw [mergeElems, List.headD_nil, hv, List.tail_nil]
        cases mergeElems c [] (i + 1) vs <;> simp [bind, Except.bind, pure, Except.pure]
      -- the first element does not throw, so the failing one is a later one
      rw [hrest, ih]
      constructor
      · rintro ⟨j, w, hj, e, he⟩
        refine ⟨j + 1, w, hj, e, ?_⟩
        rwa [show i + (j + 1) = i + 1 + j by omega]
      · rintro ⟨j, w, hj, e, he⟩
        cases j with
        | zero =>
          obtain rfl : v = w := Option.some.inj hj
          rw [Nat.add_zero, hv] at he
          cases he
        | succ j =>
          refine ⟨j, w, hj, e, ?_⟩
          rwa [show i + 1 + j = i + (j + 1) by omega]

/-- The merge of a value into nothing throws. -/
def MergeThrows (f : CustomMerge) (k : String) (v : Val) : Prop :=
  ∃ e, mergeValue (mergeCustomizer (some f)) k .undefined v = .error e

/-- Where the caller's merge has an answer, or throws, that decides. -/
theorem mergeThrows_iff_of_answer {f : CustomMerge} {k : String} {v : Val}
    (h : f v .undefined k ≠ .ok .undefined) : MergeThrows f k v ↔ ThrowsOn f k v := by
  rcases hf : f v .undefined k with e | r
  · exact ⟨fun _ => .value hf, fun _ => ⟨e, mergeValue_of_custom_error
      (mergeCustomizer_of_throw hf)⟩⟩
  · have hr : r ≠ .undefined := fun e => h (e ▸ hf)
    have hvalue := mergeValue_of_custom (mergeCustomizer_of_custom hf hr) hr
    constructor
    · rintro ⟨e, he⟩
      rw [hvalue] at he
      cases he
    · intro hthrows
      cases hthrows with
      | value h' =>
        rw [hf] at h'
        cases h'
      | element h' => exact absurd h' h
      | property h' => exact absurd h' h

/-- Where it has nothing to say about nothing, neither has the client. -/
theorem mergeCustomizer_absent_of_undefined {f : CustomMerge} {k : String} {v : Val}
    (h : f v .undefined k = .ok .undefined) :
    mergeCustomizer (some f) .undefined v k = .ok .undefined :=
  (mergeCustomizer_of_undefined h).trans (mergeCustomizer_absent v k)

/-- **A merge into nothing throws exactly where the caller's merge does.** -/
theorem mergeThrows_iff (f : CustomMerge) {v : Val} (hv : v.Wf) (k : String) :
    MergeThrows f k v ↔ ThrowsOn f k v := by
  -- a value the caller answers is not looked into; any other is merged part by part
  induction v generalizing k with
  | scalar s =>
    by_cases h : f (.scalar s) .undefined k = .ok .undefined
    · have hvalue := mergeValue_scalar (mergeCustomizer_absent_of_undefined h)
      constructor
      · rintro ⟨e, he⟩
        rw [hvalue] at he
        cases he
      · rintro (he | _ | _)
        rw [h] at he
        cases he
    · exact mergeThrows_iff_of_answer h
  | arr vs ih =>
    by_cases h : f (.arr vs) .undefined k = .ok .undefined
    · have helems : MergeThrows f k (.arr vs) ↔
          ∃ e, mergeElems (mergeCustomizer (some f)) [] 0 vs = .error e := by
        unfold MergeThrows
        rw [mergeValue_arr (mergeCustomizer_absent_of_undefined h), arrayTarget_undefined]
        cases mergeElems (mergeCustomizer (some f)) [] 0 vs <;> simp [Except.map]
      have hmem : ∀ {j : ℕ} {v : Val}, vs[j]? = some v →
          (MergeThrows f (toString j) v ↔ ThrowsOn f (toString j) v) := by
        intro j v hj
        have hv' := List.mem_of_getElem? hj
        exact ih v hv' (Val.wfElems_iff.mp hv v hv') _
      rw [helems, mergeElems_nil_error_iff]
      simp only [Nat.zero_add]
      constructor
      · rintro ⟨j, v, hj, he⟩
        exact .element h hj ((hmem hj).mp he)
      · rintro (he | ⟨-, hj, hthrows⟩ | _)
        · rw [h] at he
          cases he
        · exact ⟨_, _, hj, (hmem hj).mpr hthrows⟩
    · exact mergeThrows_iff_of_answer h
  | obj fs ih =>
    by_cases h : f (.obj fs) .undefined k = .ok .undefined
    · have hfields : MergeThrows f k (.obj fs) ↔
          ∃ e, mergeFields (mergeCustomizer (some f)) [] fs = .error e := by
        unfold MergeThrows
        rw [mergeValue_obj (mergeCustomizer_absent_of_undefined h) rfl, objectTarget_undefined]
        cases mergeFields (mergeCustomizer (some f)) [] fs <;> simp [Except.map]
      have hmem : ∀ p ∈ fs, (MergeThrows f p.1 p.2 ↔ ThrowsOn f p.1 p.2) :=
        fun p hp => ih p hp (Val.wfFields_iff.mp hv.2 p hp) _
      rw [hfields, mergeFields_error_iff hv.1]
      constructor
      · rintro ⟨p, hp, he⟩
        exact .property h hp ((hmem p hp).mp he)
      · rintro (he | _ | ⟨-, hp, hthrows⟩)
        · rw [h] at he
          cases he
        · exact ⟨_, hp, (hmem _ hp).mpr hthrows⟩
    · exact mergeThrows_iff_of_answer h

/-- The document of a failed read: none, unless the caller's merge throws. -/
theorem mergedDocument_undefined_error_iff {document : Fields} (hwf : (Val.obj document).Wf)
    (customMerge : Option CustomMerge) :
    (∃ e, mergedDocument .undefined document customMerge = .error e) ↔
      ∃ f, customMerge = some f ∧ ∃ p ∈ document, ThrowsOn f p.1 p.2 := by
  have hfields : (∃ e, mergedDocument .undefined document customMerge = .error e) ↔
      ∃ e, mergeFields (mergeCustomizer customMerge) [] document = .error e := by
    rw [mergedDocument_undefined]
    cases mergeFields (mergeCustomizer customMerge) [] document <;> simp [Except.map]
  rw [hfields]
  cases customMerge with
  | none =>
    obtain ⟨fs, hfs⟩ := exists_mergeFields_none [] document
    simp [hfs]
  | some f =>
    have hmem : ∀ p ∈ document, (MergeThrows f p.1 p.2 ↔ ThrowsOn f p.1 p.2) :=
      fun p hp => mergeThrows_iff f (Val.wfFields_iff.mp hwf.2 p hp) _
    rw [mergeFields_error_iff hwf.1]
    constructor
    · rintro ⟨p, hp, he⟩
      exact ⟨f, rfl, p, hp, (hmem p hp).mp he⟩
    · rintro ⟨g, hg, p, hp, hthrows⟩
      cases hg
      exact ⟨p, hp, (hmem p hp).mpr hthrows⟩

/-! ## Safety of a failed read -/

/-- The call leaves storage alone and does not report a success. -/
structure FailedReadSafe (svc : Service) (p : Async CosmosOperationResponse) (w : World) :
    Prop where
  noUpsert : ∀ container item ifMatch,
    Operation.cosmos container (.upsert item ifMatch) ∉ p.ops (World.handle svc) w
  unchanged : (p.run (World.handle svc) w).2.repo = w.repo
  notSuccess : ∀ response, (p.run (World.handle svc) w).1 = .ok response →
    client.isSuccessStatusCode response.statusCode = false

/-- With no partition key the call ends before it reads. -/
theorem mergeOrWriteDocument_noPartitionKey {document : Fields} {partitionKey : Val}
    (hid : Fields.get document "id" ≠ .undefined)
    (hpk : effectivePartitionKey document partitionKey = .undefined) (container : Container)
    (throwIfNotSuccess : Bool) (customMerge : Option CustomMerge) :
    ∃ e, mergeOrWriteDocument container document partitionKey throwIfNotSuccess customMerge =
      throw e := by
  unfold mergeOrWriteDocument getEffectivePartitionKey
  rw [if_neg hid, if_pos hpk]
  exact ⟨_, rfl⟩

theorem failedReadSafe_throw (svc : Service) (e : JsError) (w : World) :
    FailedReadSafe svc (throw e) w where
  noUpsert := by
    intro container item ifMatch
    rw [Program.ops_throw]
    exact List.not_mem_nil
  unchanged := by rw [Program.run_throw]
  notSuccess := by
    intro response h
    rw [Program.run_throw] at h
    cases h

/-- A call that throws after its read is safe. -/
theorem failedReadSafe_read_throw (svc : Service) (container : Container) (id epk : Val)
    {f : Except SdkError Answer → Async CosmosOperationResponse} {w : World} {e : JsError}
    (h : f (World.handle svc (.cosmos container (.read id epk)) w).1 = throw e) :
    FailedReadSafe svc (request container (.read id epk) >>= f) w where
  noUpsert := by
    intro container' item ifMatch
    rw [World.ops_request_bind, h, Program.ops_throw]
    simp
  unchanged := by
    rw [World.run_request_bind, h, Program.run_throw]
    exact @World.handle_readOnly svc (.cosmos container (.read id epk)) trivial w
  notSuccess := by
    intro response hr
    rw [World.run_request_bind, h, Program.run_throw] at hr
    cases hr

/-- **After a failed read the call is safe exactly when it does not get to its
upsert:** it has no partition key, or the caller's own merge throws. -/
theorem mergeOrWriteDocument_failedRead_iff (svc : Service) (container : Container) (w : World)
    (document : Obj) (partitionKey : Val) (throwIfNotSuccess : Bool)
    (customMerge : Option CustomMerge) {error : SdkError} {status : StatusCode}
    (hid : Fields.get document.fields "id" ≠ .undefined)
    (hread : (World.handle svc (.cosmos container (.read (Fields.get document.fields "id")
      (effectivePartitionKey document.fields partitionKey))) w).1 = .error error)
    (hcode : error.code = some status) (h404 : status ≠ .code 404) :
    FailedReadSafe svc
        (mergeOrWriteDocument container document.fields partitionKey throwIfNotSuccess customMerge)
        w ↔
      effectivePartitionKey document.fields partitionKey = .undefined ∨
        ∃ f, customMerge = some f ∧ ∃ p ∈ document.fields, ThrowsOn f p.1 p.2 := by
  by_cases hpk : effectivePartitionKey document.fields partitionKey = .undefined
  · obtain ⟨e, he⟩ := mergeOrWriteDocument_noPartitionKey hid hpk container throwIfNotSuccess
      customMerge
    rw [he]
    exact ⟨fun _ => Or.inl hpk, fun _ => failedReadSafe_throw svc e w⟩
  · rw [or_iff_right hpk, ← mergedDocument_undefined_error_iff document.wf customMerge,
      mergeOrWriteDocument_eq hid hpk]
    -- the wrapper turns the error into a response with no item
    have hresponse : readResponse (.error error) =
        .ok ⟨.undefined, .str error.message, status⟩ := by
      simp [readResponse, errorResponse, client.getErrorResponse, hcode]
    rcases hmerged : mergedDocument .undefined document.fields customMerge with e | merged
    · refine ⟨fun _ => ⟨e, rfl⟩, fun _ => failedReadSafe_read_throw (e := e) svc container _ _ ?_⟩
      rw [hread, hresponse, Program.ofExcept_ok, pure_bind]
      exact mergeOrWrite_throws h404 hmerged _ _
    · constructor
      · intro hsafe
        -- the merge into nothing goes on to upsert an item without an id
        have hupsert : mergeOrWrite container document.fields
            (effectivePartitionKey document.fields partitionKey) throwIfNotSuccess customMerge
            ⟨.undefined, .str error.message, status⟩ =
            upsertItem container merged (effectivePartitionKey document.fields partitionKey)
              throwIfNotSuccess := mergeOrWrite_merged h404 hmerged _ _
        refine absurd ?_ (hsafe.noUpsert container
          (assignPartitionKey merged (effectivePartitionKey document.fields partitionKey))
          (getOptions (assignPartitionKey merged
            (effectivePartitionKey document.fields partitionKey))))
        rw [World.ops_request_bind, hread, hresponse, Program.ofExcept_ok, pure_bind, hupsert,
          ops_upsertItem]
        exact List.mem_cons_of_mem _ (List.mem_singleton.mpr rfl)
      · rintro ⟨e, he⟩
        cases he

/-! A service that is out of order for one request. -/

/-- The first request is answered 503, the later ones are served. -/
def unavailableWorld : World where
  repo := taggedWorld.repo
  guids := taggedWorld.guids
  nextGuid := 0
  faults := [some ⟨⟨some (.code 503), "ServiceUnavailable"⟩, false⟩]

/-- The call goes on to upsert an item that has no id. -/
theorem mergeOrWriteDocument_unavailable :
    ¬ FailedReadSafe Service.counting
        (mergeOrWriteDocument .websiteData (taggedFields (.arr [.str "y"])) .undefined true none)
        unavailableWorld := by
  intro h
  refine h.noUpsert .websiteData [("partitionKey", .str "p")] none ?_
  exact List.mem_cons_of_mem _ List.mem_cons_self

/-- A merge of the caller that spreads a stored list throws when there is none. -/
theorem mergeOrWriteDocument_unavailable_throws :
    FailedReadSafe Service.counting
        (mergeOrWriteDocument .websiteData (taggedFields (.arr [.str "y"])) .undefined true
          (some fun _ target _ =>
            if isArray target then pure .undefined else throw (.typeError "not iterable")))
        unavailableWorld := by
  refine (mergeOrWriteDocument_failedRead_iff Service.counting .websiteData unavailableWorld
    ⟨taggedFields (.arr [.str "y"]), by decide⟩ .undefined true _ (by decide) rfl rfl
    (by decide)).mpr (Or.inr ⟨_, rfl, ("tags", .arr [.str "y"]), by decide, .value rfl⟩)

end WebInsights.Cosmos.CosmosContainerClient
