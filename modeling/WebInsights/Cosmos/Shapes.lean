/-
A shape every stored document has, kept by a program that is never told more than
what it reads.

`Shape` says for each collection what its documents look like. A program relies on
a read being answered by a document of that shape, found under the key it asked
for, and guarantees that what it upserts gets a document of that shape, whatever
else its requests are answered. Then no run of it leaves the shape
(`shaped_run`). The rules are one for each method of the client.
-/
import WebInsights.Cosmos.ClientRuns
import WebInsights.Effect.Guarantee

set_option autoImplicit false

namespace WebInsights.Cosmos

open Effect Js CosmosClientWrapper CosmosContainerClient

section

variable (svc : Service) (Shape : Container → Document → Prop)

/-- All stored documents have the shape, and an etag of some write. -/
structure World.Shaped (w : World) : Prop where
  stamped : ∀ container, (w.repo container).Stamped svc
  shape : ∀ container, ∀ d ∈ (w.repo container).docs, Shape container d

/-- What a program is promised about the answers of its operations. -/
def Promised : (op : Operation) → op.Result → Prop
  | .cosmos container (.read id partitionKey), r => ∀ answer, r = .ok answer →
      answer.resource = .undefined ∨
      ∃ d, Shape container d ∧ d.key = (partitionKey, id) ∧ answer.resource = d.val
  | .cosmos _ (.upsert item _), r => ∀ answer, r = .ok answer →
      ∃ n, answer.resource = (svc.stamp n item).val
  | _, _ => True

/-- What it has to see to: an upsert stores a document of the shape, and nothing is
deleted. -/
def Keeping : Operation → Prop
  | .cosmos container (.upsert item _) => ∀ n, Shape container (svc.stamp n item)
  | .cosmos _ (.delete _ _) => False
  | _ => True

/-- A program that keeps the shape, and returns values in `Q`. -/
abbrev KeepsShape {α : Type} (Q : α → Prop) (p : Async α) : Prop :=
  p.Guarantees (Promised svc Shape) (Keeping svc Shape) Q

variable {svc Shape} {w : World}

/-- Nothing is stored at first, whatever is to fail. -/
theorem World.shaped_empty (guids : ℕ → Common.V6Guid) (faults : List (Option Fault)) :
    World.Shaped svc Shape { World.empty guids with faults := faults } :=
  ⟨fun _ => Collection.stamped_empty svc, fun _ _ hd => absurd hd List.not_mem_nil⟩

theorem World.Shaped.faultless (h : w.Shaped svc Shape) : w.faultless.Shaped svc Shape :=
  ⟨h.stamped, h.shape⟩

theorem World.Shaped.answer (h : w.Shaped svc Shape) (op : Operation) :
    Promised svc Shape op (World.handle svc op w).1 := by
  rcases op with ⟨container, r⟩ | _
  · rcases World.handle_answer_cases svc w container r with ⟨_, -, he⟩ | hserve
    · cases r with
      | read id partitionKey => exact fun answer hanswer => nomatch he.symm.trans hanswer
      | upsert item ifMatch => exact fun answer hanswer => nomatch he.symm.trans hanswer
      | query q => trivial
      | delete id partitionKey => trivial
    · cases r with
      | read id partitionKey =>
        intro answer hanswer
        rw [hserve] at hanswer
        rcases hfind : (w.repo container).find (partitionKey, id) with _ | d
        · rw [Collection.serve_read_none svc hfind] at hanswer
          exact Or.inl (Except.ok.inj hanswer ▸ rfl)
        · rw [Collection.serve_read_some svc hfind] at hanswer
          -- what is answered is a stored document
          obtain ⟨hd, hkey⟩ := Collection.find_eq_some_iff.mp hfind
          exact Or.inr ⟨d, h.shape _ d hd, hkey, Except.ok.inj hanswer ▸ rfl⟩
      | upsert item ifMatch =>
        intro answer hanswer
        rw [hserve] at hanswer
        by_cases hadmits : (w.repo container).Admits
          (svc.stamp (w.repo container).writes item).key ifMatch
        · rw [Collection.serve_upsert svc hadmits] at hanswer
          exact ⟨_, by rw [← Except.ok.inj hanswer]⟩
        · rw [Collection.serve_upsert_conflict svc hadmits] at hanswer
          cases hanswer
      | query q => trivial
      | delete id partitionKey => trivial
  · trivial

theorem World.Shaped.handle (h : w.Shaped svc Shape) {op : Operation}
    (hop : Keeping svc Shape op) : (World.handle svc op w).2.Shaped svc Shape := by
  rcases op with ⟨container, r⟩ | _
  · refine ⟨World.handle_repo svc (I := fun _ repo => repo.Stamped svc) h.stamped
      ((h.stamped container).serve r),
      World.handle_repo svc (I := fun c repo => ∀ d ∈ repo.docs, Shape c d) h.shape ?_⟩
    -- only an upsert brings a document that was not there
    rcases (w.repo container).serve_cases svc r with heq | ⟨item, ifMatch, rfl, heq⟩ |
      ⟨id, partitionKey, rfl, -⟩
    · rw [heq]
      exact h.shape container
    · rw [heq]
      intro d hd
      rcases Collection.mem_put_iff.mp hd with rfl | ⟨hd, -⟩
      · exact hop _
      · exact h.shape container d hd
    · exact hop.elim
  · exact ⟨h.stamped, h.shape⟩

/-- What is deleted was one of the documents of that shape. -/
theorem World.Shaped.handle_delete (h : w.Shaped svc Shape) (container : Container)
    (id partitionKey : Val) :
    (World.handle svc (.cosmos container (.delete id partitionKey)) w).2.Shaped svc Shape := by
  refine ⟨World.handle_repo svc (I := fun _ repo => repo.Stamped svc) h.stamped
    ((h.stamped container).serve _),
    World.handle_repo svc (I := fun c repo => ∀ d ∈ repo.docs, Shape c d) h.shape ?_⟩
  rcases (w.repo container).serve_cases svc (.delete id partitionKey) with
    heq | ⟨_, _, hupsert, -⟩ | ⟨_, _, -, heq⟩
  · rw [heq]
    exact h.shape container
  · cases hupsert
  · rw [heq]
    exact fun d hd => h.shape container d (List.mem_of_mem_filter hd)

/-- The documents of `w` are still stored in a later world, perhaps changed. -/
def StillStored (w w' : World) : Prop :=
  ∀ container, ∀ d ∈ (w.repo container).docs, ∃ d' ∈ (w'.repo container).docs, d'.key = d.key

theorem StillStored.handle {w' : World} (h : StillStored w w') {op : Operation}
    (hop : Keeping svc Shape op) : StillStored w (World.handle svc op w').2 := by
  rcases op with ⟨container, r⟩ | _
  · refine World.handle_repo svc (I := fun c repo => ∀ d ∈ (w.repo c).docs,
      ∃ d' ∈ repo.docs, d'.key = d.key) h fun d hd => ?_
    obtain ⟨e, he, hkey⟩ := h container d hd
    rcases (w'.repo container).serve_cases svc r with heq | ⟨item, ifMatch, rfl, heq⟩ |
      ⟨id, partitionKey, rfl, -⟩
    · rw [heq]
      exact ⟨e, he, hkey⟩
    · -- an upsert writes in the place of the document, or elsewhere
      rw [heq]
      by_cases hsame : e.key = (svc.stamp (w'.repo container).writes item).key
      · exact ⟨_, Collection.mem_put_iff.mpr (Or.inl rfl), hsame.symm.trans hkey⟩
      · exact ⟨e, Collection.mem_put_iff.mpr (Or.inr ⟨he, hsame⟩), hkey⟩
    · exact hop.elim
  · exact h

/-- **A program that keeps the shape** leaves a world of that shape, however its
requests end. -/
theorem shaped_run {α : Type} {Q : α → Prop} {p : Async α} (hp : KeepsShape svc Shape Q p)
    (h : w.Shaped svc Shape) : (p.run (World.handle svc) w).2.Shaped svc Shape :=
  (hp.run (fun _ _ hop hs => hs.handle hop) (fun op _ hs => hs.answer op) h).1

/-- And every document that was there is still stored. -/
theorem stillStored_run {α : Type} {Q : α → Prop} {p : Async α} (hp : KeepsShape svc Shape Q p)
    (h : w.Shaped svc Shape) : StillStored w (p.run (World.handle svc) w).2 := by
  have hkept : (p.run (World.handle svc) w).2.Shaped svc Shape ∧
      StillStored w (p.run (World.handle svc) w).2 :=
    (hp.run (I := fun w' => w'.Shaped svc Shape ∧ StillStored w w')
      (fun _ _ hop hs => ⟨hs.1.handle hop, hs.2.handle hop⟩) (fun op _ hs => hs.1.answer op)
      ⟨h, fun _ d hd => ⟨d, hd, rfl⟩⟩).1
  exact hkept.2

/-! ## The methods of the client -/

variable {container : Container}

/-- The item of a response: nothing, or a stored version of an item in `I`. -/
def StoredOf (svc : Service) (I : Fields → Prop) (v : Val) : Prop :=
  v = .undefined ∨ ∃ n item, I item ∧ v = (svc.stamp n item).val

/-- The item of a response: nothing, or the stored document that was asked for. -/
def FoundOf (Shape : Container → Document → Prop) (container : Container) (id partitionKey : Val)
    (v : Val) : Prop :=
  v = .undefined ∨ ∃ d, Shape container d ∧ d.key = (partitionKey, id) ∧ v = d.val

theorem keepsShape_request {r : Request} (h : Keeping svc Shape (.cosmos container r)) :
    KeepsShape svc Shape (Promised svc Shape (.cosmos container r)) (request container r) :=
  Program.guarantees_perform h

/-- A failed operation yields no item. -/
theorem keepsShape_handleFailed {Q : CosmosOperationResponse → Prop}
    (hQ : ∀ response : CosmosOperationResponse, response.item = .undefined → Q response)
    (operation : String) (error : SdkError) (throwIfNotSuccess : Bool) (id : Val) :
    KeepsShape svc Shape Q
      (handleFailedOperationResponse operation error throwIfNotSuccess id) := by
  unfold handleFailedOperationResponse
  rcases hresponse : client.getErrorResponse error with _ | response
  · exact Program.guarantees_throw _
  · have hitem : response.item = .undefined := by
      obtain ⟨code, -, rfl⟩ := Option.map_eq_some_iff.mp hresponse
      rfl
    have hthrow : KeepsShape svc Shape (fun _ => True)
        (CosmosClientWrapper.throwIfNotSuccess operation response id) := by
      unfold CosmosClientWrapper.throwIfNotSuccess
      split
      · trivial
      · exact Program.guarantees_throw _
    cases throwIfNotSuccess with
    | false => exact hQ response hitem
    | true => exact hthrow.bind fun _ _ => hQ response hitem

theorem keepsShape_readItem (id partitionKey : Val) (throwIfNotSuccess : Bool) :
    KeepsShape svc Shape (fun response => FoundOf Shape container id partitionKey response.item)
      (readItem container id partitionKey throwIfNotSuccess) := by
  have hread := @keepsShape_request svc Shape container (.read id partitionKey) trivial
  refine hread.bind fun answer hanswer => ?_
  cases answer with
  | ok answer => exact hanswer answer rfl
  | error e => exact keepsShape_handleFailed (fun _ h => Or.inl h) _ _ _ _

theorem keepsShape_upsertItem {I : Fields → Prop}
    (hI : ∀ item, I item → ∀ n, Shape container (svc.stamp n item)) {item : Fields}
    {partitionKey : Val} (h : I (assignPartitionKey item partitionKey))
    (throwIfNotSuccess : Bool) :
    KeepsShape svc Shape (fun response => StoredOf svc I response.item)
      (upsertItem container item partitionKey throwIfNotSuccess) := by
  have hupsert := @keepsShape_request svc Shape container (upsertRequest item partitionKey) (hI _ h)
  refine hupsert.bind fun answer hanswer => ?_
  cases answer with
  | ok answer =>
    obtain ⟨n, hn⟩ := hanswer answer rfl
    exact Or.inr ⟨n, _, h, hn⟩
  | error e => exact keepsShape_handleFailed (fun _ h => Or.inl h) _ _ _ _

theorem keepsShape_writeDocument {I : Fields → Prop}
    (hI : ∀ item, I item → ∀ n, Shape container (svc.stamp n item)) {document : Fields}
    {pk : String} (hpk : Fields.get document "partitionKey" = .str pk) (h : I document)
    (throwIfNotSuccess : Bool) :
    KeepsShape svc Shape (fun response => StoredOf svc I response.item)
      (writeDocument container document .undefined throwIfNotSuccess) := by
  have heff : effectivePartitionKey document .undefined = .str pk := hpk
  have hassign : assignPartitionKey document (.str pk) = document :=
    assignPartitionKey_eq_self nofun hpk
  unfold writeDocument getEffectivePartitionKey
  rw [heff, if_neg nofun, pure_bind]
  exact keepsShape_upsertItem hI (by rwa [hassign]) throwIfNotSuccess

/-- **A merge** keeps the shape if the document itself does, and if it does merged into
whatever the read may have found. -/
theorem keepsShape_mergeOrWriteDocument {I : Fields → Prop}
    (hI : ∀ item, I item → ∀ n, Shape container (svc.stamp n item)) {document : Fields}
    {partitionKey : Val} {pk : String} (hpk : Fields.get document "partitionKey" = .str pk)
    (heff : effectivePartitionKey document partitionKey = .str pk)
    {customMerge : Option CustomMerge} (hdocument : I document)
    (hmerged : ∀ item merged, FoundOf Shape container (Fields.get document "id") (.str pk) item →
      mergedDocument item document customMerge = .ok merged →
      I (assignPartitionKey merged (.str pk)))
    (throwIfNotSuccess : Bool) :
    KeepsShape svc Shape (fun response => StoredOf svc I response.item)
      (mergeOrWriteDocument container document partitionKey throwIfNotSuccess customMerge) := by
  have hassign : assignPartitionKey document (.str pk) = document :=
    assignPartitionKey_eq_self nofun hpk
  unfold mergeOrWriteDocument getEffectivePartitionKey
  split
  · exact Program.guarantees_throw _
  rw [heff, if_neg nofun, pure_bind]
  refine (keepsShape_readItem _ _ false).bind fun response hresponse => ?_
  unfold mergeOrWrite
  split
  · exact keepsShape_upsertItem hI (by rwa [hassign]) throwIfNotSuccess
  · refine (Program.guarantees_ofExcept fun merged h => h).bind fun merged h => ?_
    exact keepsShape_upsertItem hI (hmerged _ merged hresponse h) throwIfNotSuccess

theorem keepsShape_ensureSuccessStatusCode (response : CosmosOperationResponse) :
    KeepsShape svc Shape (fun _ => True) (client.ensureSuccessStatusCode response) := by
  unfold client.ensureSuccessStatusCode
  split
  · trivial
  · exact Program.guarantees_throw _

theorem keepsShape_queryDocuments (q : SqlQuerySpec) :
    KeepsShape svc Shape (fun _ => True) (queryDocuments container q) := by
  have hquery := @keepsShape_request svc Shape container (.query q) trivial
  refine hquery.bind fun answer _ => ?_
  split
  · trivial
  · trivial
  · exact keepsShape_handleFailed (fun _ _ => trivial) _ _ _ _

end

end WebInsights.Cosmos
