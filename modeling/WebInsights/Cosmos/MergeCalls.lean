/-
Concurrent calls of `mergeOrWriteDocument` and `mergeOrWriteDocuments`.

`mergeOrWriteDocuments` starts one merge for each of its documents and awaits all of them. It is
rejected when one of them fails, whatever the others have written. `Whole` names the steps that
leave no call half done; in a run of careful steps that do not, what is stored is what the calls
that report success make of the initial state, their merges one after another.
-/
import WebInsights.Cosmos.Concurrent

set_option autoImplicit false

namespace WebInsights.Cosmos.CosmosContainerClient

open Effect Js CosmosClientWrapper

/-- A call of the client that merges. -/
inductive Call where
  | mergeOrWriteDocument (merge : MergeCall)
  | mergeOrWriteDocuments (documents : List Obj) (partitionKey : Val)

namespace Call

/-- The merges a call performs. -/
def merges : Call → List MergeCall
  | .mergeOrWriteDocument merge => [merge]
  | .mergeOrWriteDocuments documents partitionKey =>
    documents.map fun document => ⟨document, partitionKey, true, none⟩

/-- What it starts. How many of them `pLimit` lets run at a time only leaves out some of the
interleavings. -/
def programs (container : Container) : Call → List (Async CosmosOperationResponse)
  | .mergeOrWriteDocument merge => [merge.program container]
  | .mergeOrWriteDocuments documents partitionKey =>
    CosmosContainerClient.mergeOrWriteDocuments container (documents.map Obj.fields) partitionKey

theorem programs_eq (container : Container) (call : Call) :
    call.programs container = call.merges.map (MergeCall.program container) := by
  cases call with
  | mergeOrWriteDocument merge => rfl
  | mergeOrWriteDocuments documents partitionKey =>
    simp only [programs, merges, CosmosContainerClient.mergeOrWriteDocuments, List.map_map]
    rfl

/-- The call has reported success: `mergeOrWriteDocument` by its response,
`mergeOrWriteDocuments` by the promise it awaits. -/
def ReportsSuccess : Call → List (Async CosmosOperationResponse) → Prop
  | .mergeOrWriteDocument _, progs => ∀ prog ∈ progs, CosmosContainerClient.ReportsSuccess prog
  | .mergeOrWriteDocuments _ _, progs =>
    Settlement.all (progs.map Program.settlement) = .fulfilled

end Call

section Calls

variable {ι : Type}

/-- The merges of all calls. -/
abbrev Merge (calls : ι → Call) : Type := (i : ι) × Fin (calls i).merges.length

def Merge.call {calls : ι → Call} (m : Merge calls) : MergeCall := (calls m.1).merges.get m.2

/-- The calls at their beginning. -/
def startCalls (container : Container) (calls : ι → Call) (w : World) :
    MergePool (Merge calls) :=
  Pool.start (fun m => ((calls m.1).programs container).get
    (m.2.cast (by rw [Call.programs_eq, List.length_map]))) w

/-- How far the merges of a call are. -/
def progsOf {calls : ι → Call} (q : MergePool (Merge calls)) (i : ι) :
    List (Async CosmosOperationResponse) :=
  List.ofFn fun j => (q.threads ⟨i, j⟩).prog

/-- What is stored is what the calls that report success make of the initial state, their
merges one after another in some order. -/
def Serializable (svc : Service) (container : Container) (calls : ι → Call) (w : World)
    (q : MergePool (Merge calls)) : Prop :=
  ∃ order : List (Merge calls), order.Nodup ∧
    (∀ m, m ∈ order ↔ (calls m.1).ReportsSuccess (progsOf q m.1)) ∧
    q.shared.repo =
      (serial (fun m : Merge calls => m.call.apply svc container) order
        { w with faults := [] }).repo

/-- The steps that leave no call half done: no merge is refused when another one of its call
has written, and none writes when another one has failed. -/
structure Whole (svc : Service) {calls : ι → Call} (p : MergePool (Merge calls))
    (m : Merge calls) (op : Operation) : Prop where
  refused : ∀ j, ReportsSuccess (p.threads ⟨m.1, j⟩).prog →
    ¬ Refuses op (World.handle svc op p.shared).1
  accepted : ∀ j, (p.threads ⟨m.1, j⟩).prog.Ended → ¬ ReportsSuccess (p.threads ⟨m.1, j⟩).prog →
    ¬ Accepts op (World.handle svc op p.shared).1

/-- No call is half done. -/
def Undivided {calls : ι → Call} (p : MergePool (Merge calls)) : Prop :=
  ∀ i j j', ReportsSuccess (p.threads ⟨i, j⟩).prog → (p.threads ⟨i, j'⟩).prog.Ended →
    ReportsSuccess (p.threads ⟨i, j'⟩).prog

variable {svc : Service} {container : Container} {calls : ι → Call} {id pk : String} {w : World}
  {p q : MergePool (Merge calls)} {order : List (Merge calls)}

theorem startCalls_eq (container : Container) (calls : ι → Call) (w : World) :
    startCalls container calls w =
      Pool.start (fun m : Merge calls => m.call.program container) w := by
  unfold startCalls Merge.call
  congr 1
  funext m
  simp [Call.programs_eq]

/-- A merge of `mergeOrWriteDocuments` has no customizer, and throws what is no success. -/
theorem Merge.call_mergeOrWriteDocuments {m : Merge calls} {documents : List Obj}
    {partitionKey : Val} (h : calls m.1 = .mergeOrWriteDocuments documents partitionKey) :
    m.call.customMerge = none ∧ m.call.throwIfNotSuccess = true := by
  have hmem : m.call ∈ (calls m.1).merges := List.get_mem _ _
  rw [h, Call.merges, List.mem_map] at hmem
  obtain ⟨document, -, hcall⟩ := hmem
  rw [← hcall]
  exact ⟨rfl, rfl⟩

/-- `mergeOrWriteDocument` is one merge. -/
theorem Merge.eq_of_mergeOrWriteDocument {m : Merge calls} {merge : MergeCall}
    (h : calls m.1 = .mergeOrWriteDocument merge) (j : Fin (calls m.1).merges.length) :
    j = m.2 := by
  have hlength : (calls m.1).merges.length = 1 := by
    rw [h]
    rfl
  have hj := j.isLt
  have hm := m.2.isLt
  exact Fin.ext (by omega)

variable [DecidableEq ι]

/-- **One step** that leaves no call half done. -/
theorem Undivided.step (h : Undivided p)
    (hcommitted : Committed svc container Merge.call id pk w p order)
    (htargets : ∀ m : Merge calls, m.call.Targets id pk) {m : Merge calls} {op : Operation}
    {k : op.Result → Async CosmosOperationResponse} (hk : (p.threads m).prog = .call op k)
    (hwhole : Whole svc p m op) : Undivided (p.perform (World.handle svc) m op k) := by
  obtain ⟨haccepts, hrefuses⟩ := hcommitted.ends htargets hk
  have hself : ((p.perform (World.handle svc) m op k).threads m).prog =
      k (World.handle svc op p.shared).1 := by
    rw [Pool.perform_threads_self]
  intro i j j' hdone hend
  by_cases hj : (⟨i, j⟩ : Merge calls) = m
  · by_cases hj' : (⟨i, j'⟩ : Merge calls) = m
    · rw [hj'] at hend ⊢
      rwa [hj] at hdone
    · -- the step has written: no other merge of the call has failed
      subst hj
      rw [hself] at hdone
      rw [Pool.perform_threads_ne _ _ hj'] at hend ⊢
      by_contra hfail
      exact hwhole.accepted j' hend hfail (haccepts hdone)
  · rw [Pool.perform_threads_ne _ _ hj] at hdone
    by_cases hj' : (⟨i, j'⟩ : Merge calls) = m
    · -- the step has ended a merge, and another one of the call has written
      subst hj'
      rw [hself] at hend ⊢
      by_contra hfail
      refine hwhole.refused j hdone (hrefuses hend hfail ?_)
      rcases hcall : calls i with merge | ⟨documents, partitionKey⟩
      · exact absurd (congrArg (Sigma.mk i)
          (Merge.eq_of_mergeOrWriteDocument (m := ⟨i, j'⟩) hcall j)) hj
      · exact (Merge.call_mergeOrWriteDocuments (m := ⟨i, j'⟩) hcall).1
    · rw [Pool.perform_threads_ne _ _ hj'] at hend ⊢
      exact h i j j' hdone hend

omit [DecidableEq ι] in
/-- A call that is over reports success exactly if one of its merges does. -/
theorem Undivided.reportsSuccess_iff (h : Undivided q)
    (hcommitted : Committed svc container Merge.call id pk w q order)
    (htargets : ∀ m : Merge calls, m.call.Targets id pk) (m : Merge calls)
    (hended : ∀ documents partitionKey,
      calls m.1 = .mergeOrWriteDocuments documents partitionKey →
      ∀ j, (q.threads ⟨m.1, j⟩).prog.Ended) :
    ReportsSuccess (q.threads m).prog ↔ (calls m.1).ReportsSuccess (progsOf q m.1) := by
  have hmem : (q.threads m).prog ∈ progsOf q m.1 := List.mem_ofFn.mpr ⟨m.2, rfl⟩
  rcases hcall : calls m.1 with merge | ⟨documents, partitionKey⟩
  · refine ⟨fun hdone prog hprog => ?_, fun hdone => hdone _ hmem⟩
    obtain ⟨j, rfl⟩ := List.mem_ofFn.mp hprog
    rw [Merge.eq_of_mergeOrWriteDocument hcall j]
    exact hdone
  · simp only [Call.ReportsSuccess]
    rw [Settlement.all_eq_fulfilled_iff, List.forall_mem_map]
    constructor
    · intro hdone prog hprog
      obtain ⟨j, rfl⟩ := List.mem_ofFn.mp hprog
      obtain ⟨response, hresponse, -⟩ := h m.1 m.2 j hdone (hended documents partitionKey hcall j)
      rw [hresponse]
      rfl
    · -- what has returned has returned with success
      intro hfulfilled
      have hsettled := hfulfilled _ hmem
      rcases hprog : (q.threads m).prog with response | e | ⟨op, k⟩
      · rw [← hprog]
        exact (hcommitted.progress m).of_pure (htargets m)
          (Merge.call_mergeOrWriteDocuments hcall).2 hprog
      · rw [hprog] at hsettled
        cases hsettled
      · rw [hprog] at hsettled
        cases hsettled

/-- **No lost update in a careful run.** Let calls merge one document, and an interleaving of
their merges take careful steps that leave no call half done. In every state it reaches in which
the calls of `mergeOrWriteDocuments` are over, the stored document is what the calls that report
success make of the initial one, their merges one after another in some order. -/
theorem mergeOrWriteDocument_serializable (svc : Service) (container : Container)
    (calls : ι → Call) {id pk : String}
    (htargets : ∀ i, ∀ merge ∈ (calls i).merges, merge.Targets id pk) (w : World)
    (hstamped : (w.repo container).Stamped svc) (hfaults : w.ErrorsFail)
    {q : MergePool (Merge calls)}
    (hrun : Pool.Runs (World.handle svc)
      (fun p m op => Careful svc container id pk p m op ∧ Whole svc p m op)
      (startCalls container calls w) q)
    (hended : ∀ i documents partitionKey,
      calls i = .mergeOrWriteDocuments documents partitionKey →
      ∀ j, (q.threads ⟨i, j⟩).prog.Ended) :
    Serializable svc container calls w q := by
  have htargets' : ∀ m : Merge calls, m.call.Targets id pk :=
    fun m => htargets m.1 _ (List.get_mem _ _)
  rw [startCalls_eq] at hrun
  have hinv : (∃ order, Committed svc container Merge.call id pk w q order) ∧ Undivided q := by
    refine hrun.invariant (I := fun p =>
      (∃ order, Committed svc container Merge.call id pk w p order) ∧ Undivided p) ⟨⟨[], ?_⟩, ?_⟩ ?_
    · exact {
        nodup := List.nodup_nil
        isSerial := rfl
        stamped := hstamped
        faults := hfaults
        progress := fun m => .waiting List.not_mem_nil }
    · intro i j j' hdone
      exact absurd hdone (not_reportsSuccess_program (htargets' _))
    · rintro p m op k ⟨⟨order, h⟩, hundivided⟩ ⟨hcareful, hwhole⟩ hk
      exact ⟨h.step htargets' hk hcareful, hundivided.step h htargets' hk hwhole⟩
  obtain ⟨⟨order, h⟩, hundivided⟩ := hinv
  refine ⟨order, h.nodup, fun m => ?_, h.isSerial⟩
  rw [(h.progress m).reportsSuccess_iff (htargets' m)]
  exact hundivided.reportsSuccess_iff h htargets' m (hended m.1)

end Calls

/-! ### Two calls that create the same document -/

/-- One of two merges that each bring a property of their own. -/
def creation (b : Bool) : MergeCall where
  document := ⟨[("id", .str "a"), ("partitionKey", .str "p"), (if b then "x" else "y", .num 1)],
    by cases b <;> decide⟩
  partitionKey := .undefined
  throwIfNotSuccess := true
  customMerge := none

/-- The storage before them. -/
def creationWorld : World := World.empty fun _ => Common.V6Guid.zero

def creations (b : Bool) : Call := .mergeOrWriteDocument (creation b)

/-- The merge of each call. -/
def creationMerge (b : Bool) : Merge creations := ⟨b, ⟨0, Nat.one_pos⟩⟩

theorem eq_creationMerge (m : Merge creations) : m = creationMerge m.1 :=
  congrArg (Sigma.mk m.1) (Merge.eq_of_mergeOrWriteDocument (m := creationMerge m.1) rfl m.2)

/-- Both read, and then both upsert. -/
def creationsPool : MergePool (Merge creations) :=
  (startCalls .websiteData creations creationWorld).play (World.handle Service.counting)
    [creationMerge false, creationMerge true, creationMerge false, creationMerge true]

/-- Both find nothing, and both report success: the property of the first one is gone,
whatever order one gives them. -/
theorem mergeOrWriteDocument_creations_lost :
    ∃ q, Pool.Runs (World.handle Service.counting) (fun _ _ _ => True)
        (startCalls .websiteData creations creationWorld) q ∧
      (∀ b, (creations b).ReportsSuccess (progsOf q b)) ∧
      ¬ Serializable Service.counting .websiteData creations creationWorld q := by
  have hdone : ∀ b, (creations b).ReportsSuccess (progsOf creationsPool b) := by
    intro b prog hprog
    obtain ⟨j, rfl⟩ := List.mem_ofFn.mp hprog
    have hj : (⟨b, j⟩ : Merge creations) = creationMerge b := eq_creationMerge ⟨b, j⟩
    rw [hj]
    cases b
    · exact ⟨_, rfl, rfl⟩
    · exact ⟨_, rfl, rfl⟩
  refine ⟨creationsPool, Pool.runs_play _ _ _, hdone, ?_⟩
  rintro ⟨order, hnd, hmem, hrepo⟩
  have hdocs := congrArg (fun r => (r .websiteData).docs.map Document.fields) hrepo
  -- both are in the order, so it is one of two, and neither gives what is stored
  obtain ⟨bs, rfl⟩ : ∃ bs : List Bool, order = bs.map creationMerge :=
    ⟨order.map Sigma.fst, by
      rw [List.map_map]
      exact (List.map_id _).symm.trans (List.map_congr_left fun m _ => eq_creationMerge m)⟩
  have hall : ∀ b, b ∈ bs := fun b => by
    obtain ⟨b', hb', hsame⟩ := List.mem_map.mp ((hmem (creationMerge b)).mpr (hdone b))
    have hb : b' = b := congrArg Sigma.fst hsame
    exact hb ▸ hb'
  have hperm : bs.Perm [false, true] :=
    (List.perm_ext_iff_of_nodup (hnd.of_map _) (by decide)).mpr fun b => by
      cases b <;> simp [hall]
  obtain ⟨a, b, rfl⟩ := List.length_eq_two.mp hperm.length_eq
  cases a <;> cases b
  · exact absurd hnd (by decide)
  · exact absurd hdocs (by decide)
  · exact absurd hdocs (by decide)
  · exact absurd hnd (by decide)

/-! ### A call that is overtaken -/

/-- One call adds a property to a document, and the other one two, in two documents. -/
def additions : Bool → Call
  | false => .mergeOrWriteDocument (creation false)
  | true => .mergeOrWriteDocuments [(creation true).document,
      ⟨[("id", .str "a"), ("partitionKey", .str "p"), ("z", .num 1)], by decide⟩] .undefined

/-- The storage that has the document. -/
def additionsWorld : World :=
  creationWorld.store Service.counting .websiteData [("id", .str "a"), ("partitionKey", .str "p")]

/-- The merges of the two calls. -/
def additionsMerge : Option Bool → Merge additions
  | none => ⟨false, ⟨0, by decide⟩⟩
  | some false => ⟨true, ⟨0, by decide⟩⟩
  | some true => ⟨true, ⟨1, by decide⟩⟩

theorem additions_targets (b : Bool) : ∀ merge ∈ (additions b).merges, merge.Targets "a" "p" := by
  have hleaves : ∀ k ∈ ["id", "partitionKey", "_etag"], LeavesAlone none k := by
    intro k _ f hf
    cases hf
  cases b with
  | false =>
    exact List.forall_mem_singleton.mpr ⟨by decide, rfl, rfl, Or.inl (by decide), hleaves⟩
  | true =>
    exact List.forall_mem_cons.mpr ⟨⟨by decide, rfl, rfl, Or.inl (by decide), hleaves⟩,
      List.forall_mem_singleton.mpr ⟨by decide, rfl, rfl, Or.inl (by decide), hleaves⟩⟩

theorem careful_additions {p : MergePool (Merge additions)} {m : Merge additions}
    {op : Operation} (hread : ∀ seen ∈ (p.threads m).seen, ∃ container id partitionKey d,
      seen = ⟨.cosmos container (.read id partitionKey), .ok ⟨.obj d, .code 200⟩⟩)
    (hanswered : Accepts op (World.handle Service.counting op p.shared).1 ∨
      (World.handle Service.counting op p.shared).2.repo = p.shared.repo) :
    Careful Service.counting .websiteData "a" "p" p m op where
  created := by
    rintro ⟨container, id, pk, answer, hmem, response, hresponse, hstatus⟩
    obtain ⟨_, _, _, d, hseen⟩ := hread _ hmem
    cases hseen
    cases hresponse
    cases hstatus
  orphaned := by
    rintro ⟨container, id, pk, error, status, hmem, -⟩
    obtain ⟨_, _, _, d, hseen⟩ := hread _ hmem
    cases hseen
  answered := hanswered

/-- A merge that begins with its read does no harm. -/
theorem careful_additions_read {p : MergePool (Merge additions)} {m : Merge additions}
    {container : Container} {id partitionKey : Val} (hseen : (p.threads m).seen = [])
    (hfaults : p.shared.faults = []) :
    Careful Service.counting .websiteData "a" "p" p m (.cosmos container (.read id partitionKey)) ∧
      Whole Service.counting p m (.cosmos container (.read id partitionKey)) := by
  refine ⟨careful_additions ?_ ?_, fun _ _ h => ?_, fun _ _ _ h => h⟩
  · rw [hseen]
    nofun
  · exact Or.inr (World.handle_readOnly _ (by trivial) _)
  · rw [World.handle_faultless Service.counting hfaults] at h
    rcases hfind : (p.shared.repo container).find (partitionKey, id) with _ | S
    · rw [Collection.serve_read_none Service.counting hfind] at h
      exact h
    · rw [Collection.serve_read_some Service.counting hfind] at h
      exact h

/-- The first call reads, then the merges of the other one read and write, and then the first
one is refused: the document has the two properties of the other one. -/
theorem mergeOrWriteDocument_additions_serializable :
    ∃ q, (additions true).ReportsSuccess (progsOf q true) ∧
      ¬ (additions false).ReportsSuccess (progsOf q false) ∧
      Serializable Service.counting .websiteData additions additionsWorld q := by
  have hrun : ∃ q, Pool.Runs (World.handle Service.counting) (fun p m op =>
        Careful Service.counting .websiteData "a" "p" p m op ∧ Whole Service.counting p m op)
        (startCalls .websiteData additions additionsWorld) q ∧
      (additions true).ReportsSuccess (progsOf q true) ∧
      ¬ (additions false).ReportsSuccess (progsOf q false) ∧
      ∀ j, (q.threads ⟨true, j⟩).prog.Ended := by
    refine ⟨_, .step (i := additionsMerge none) (.step (i := additionsMerge (some true))
      (.step (i := additionsMerge (some true)) (.step (i := additionsMerge (some false))
      (.step (i := additionsMerge (some false)) (.step (i := additionsMerge none) .refl
      (careful_additions_read rfl rfl) (.perform _ rfl))
      (careful_additions_read rfl rfl) (.perform _ rfl))
      ⟨careful_additions ?_ ?_, ?_⟩ (.perform _ rfl))
      (careful_additions_read rfl rfl) (.perform _ rfl))
      ⟨careful_additions ?_ ?_, ?_⟩ (.perform _ rfl))
      ⟨careful_additions ?_ ?_, ?_⟩ (.perform _ rfl), ?_, ?_, ?_⟩
    -- each merge finds the document before it writes
    · exact fun seen hseen => ⟨_, _, _, _, List.mem_singleton.mp hseen⟩
    · exact answered_of_faultless rfl _ _
    · refine ⟨fun _ _ h => h, fun j hend => ?_⟩
      match j with
      | ⟨0, _⟩ => exact hend.elim
      | ⟨1, _⟩ => exact hend.elim
    · exact fun seen hseen => ⟨_, _, _, _, List.mem_singleton.mp hseen⟩
    · exact answered_of_faultless rfl _ _
    · refine ⟨fun _ _ h => h, fun j hend hfail => ?_⟩
      match j with
      | ⟨0, _⟩ => exact absurd ⟨_, rfl, rfl⟩ hfail
      | ⟨1, _⟩ => exact hend.elim
    · exact fun seen hseen => ⟨_, _, _, _, List.mem_singleton.mp hseen⟩
    · exact answered_of_faultless rfl _ _
    · refine ⟨fun j hdone => ?_, fun _ _ _ h => h⟩
      match j with
      | ⟨0, _⟩ =>
        obtain ⟨response, hresponse, -⟩ := hdone
        cases hresponse
    · show Settlement.all _ = _
      decide
    · intro hdone
      obtain ⟨response, hresponse, -⟩ := hdone _ List.mem_cons_self
      cases hresponse
    · intro j
      match j with
      | ⟨0, _⟩ => trivial
      | ⟨1, _⟩ => trivial
  obtain ⟨q, hrun, hmany, hone, hended⟩ := hrun
  refine ⟨q, hmany, hone, mergeOrWriteDocument_serializable Service.counting .websiteData additions
    additions_targets additionsWorld ?_ (fun _ hf => absurd hf List.not_mem_nil) hrun ?_⟩
  · intro d hd
    obtain rfl := List.mem_singleton.mp hd
    exact ⟨0, by decide, rfl⟩
  · rintro (_ | _) documents partitionKey hcall j
    · cases hcall
    · exact hended j

end WebInsights.Cosmos.CosmosContainerClient
