/-
Reads of a world whose next answers may be errors.

A world is calm for `n` requests if none of the next `n` answers is an error. A
calm world serves a read and goes on with one answer less (`World.next`); a read
that did return a document was served by a calm world. So whether a chain of
reads returns is a question about the answers to come and about what is stored.
-/
import WebInsights.Cosmos.ClientRuns

set_option autoImplicit false

namespace WebInsights.Cosmos

open Effect Js CosmosClientWrapper CosmosContainerClient

/-- None of the next `n` answers is an error. -/
def World.Calm (w : World) (n : ℕ) : Prop := ∀ e, some e ∉ w.faults.take n

/-- The world after one request that wrote nothing. -/
def World.next (w : World) : World := { w with faults := w.faults.tail }

theorem World.calm_succ {w : World} {n : ℕ} : w.Calm (n + 1) ↔ w.Calm 1 ∧ w.next.Calm n := by
  unfold World.Calm World.next
  rcases hf : w.faults with _ | ⟨f, faults⟩
  · simp
  · simp only [List.take_succ_cons, List.take_zero, List.mem_cons, List.not_mem_nil, or_false,
      not_or, List.tail_cons]
    exact forall_and

theorem World.calm_zero (w : World) : w.Calm 0 := fun _ => by
  rw [List.take_zero]
  exact List.not_mem_nil

/-- A world that is not calm answers the next request with an error. -/
theorem World.not_calm_one {w : World} :
    ¬ w.Calm 1 ↔ ∃ f faults, w.faults = some f :: faults := by
  unfold World.Calm
  rcases w.faults with _ | ⟨_ | f, faults⟩ <;> simp

variable {svc : Service} {container : Container} {w : World}

/-- A request meets an error, or is served by a calm world. -/
theorem World.handle_calm_cases (c : Container) (r : Request) :
    (∃ e, (World.handle svc (.cosmos c r) w).1 = .error e ∧ ¬ w.Calm 1) ∨
    (World.handle svc (.cosmos c r) w =
      (((w.repo c).serve svc r).1, w.next.withRepo c ((w.repo c).serve svc r).2) ∧ w.Calm 1) := by
  unfold World.Calm
  rcases hf : w.faults with _ | ⟨_ | f, faults⟩
  · right
    rw [World.handle_faultless svc hf]
    refine ⟨Prod.ext rfl ?_, fun f => by simp⟩
    simp [World.next, World.withRepo, hf]
  · right
    refine ⟨?_, fun f => by simp⟩
    simp [World.handle, hf, World.next, World.withRepo]
  · left
    rw [World.handle_fault svc hf]
    exact ⟨f.error, rfl, fun h => h f (by simp)⟩

/-- A read that meets an error, which to carry it out changes nothing. -/
theorem World.handle_read_fault {f : Fault} {faults : List (Option Fault)}
    (h : w.faults = some f :: faults) (id partitionKey : Val) :
    World.handle svc (.cosmos container (.read id partitionKey)) w = (.error f.error, w.next) := by
  have hread : ((w.repo container).serve svc (.read id partitionKey)).2 = w.repo container := by
    rcases hfind : (w.repo container).find (partitionKey, id) with _ | d
    · rw [Collection.serve_read_none svc hfind]
    · rw [Collection.serve_read_some svc hfind]
  rw [World.handle_fault svc h, hread, World.withRepo_eq_self, ite_self, World.next, h]
  rfl

/-- What comes of a failed operation has no item. -/
theorem CosmosClientWrapper.handleFailedOperationResponse_item {operation : String}
    {error : SdkError} {throwIfNotSuccess : Bool} {id : Val} {s s' : World}
    {response : CosmosOperationResponse}
    (h : (handleFailedOperationResponse operation error throwIfNotSuccess id).run
      (World.handle svc) s = (.ok response, s')) : response.item = .undefined := by
  unfold handleFailedOperationResponse client.getErrorResponse at h
  rcases hcode : error.code with _ | code
  · simp [hcode] at h
  · simp only [hcode, Option.map_some] at h
    by_cases hthrow : throwIfNotSuccess = true
    · rw [if_pos hthrow] at h
      obtain ⟨_, _, -, hreturn⟩ := Program.run_bind_eq_ok _ h
      cases hreturn
      rfl
    · rw [if_neg hthrow] at h
      cases h
      rfl

/-- A document that is there is read in a calm world. -/
theorem run_readItem_calm (hw : w.Calm 1) {id partitionKey : Val} {d : Document}
    (h : (w.repo container).find (partitionKey, id) = some d) (throwIfNotSuccess : Bool) :
    (readItem container id partitionKey throwIfNotSuccess).run (World.handle svc) w =
      (.ok ⟨d.val, .undefined, .code 200⟩, w.next) := by
  rcases @World.handle_calm_cases svc w container (.read id partitionKey) with
    ⟨e, -, hcalm⟩ | ⟨hserve, -⟩
  · exact absurd hw hcalm
  · have hrepo : w.next.repo container = w.repo container := rfl
    unfold readItem
    rw [World.run_request_bind, hserve, Collection.serve_read_some svc h, ← hrepo,
      World.withRepo_eq_self]
    rfl

/-- So is one that is not there. -/
theorem run_readItem_absent (hw : w.Calm 1) {id partitionKey : Val}
    (h : (w.repo container).find (partitionKey, id) = none) (throwIfNotSuccess : Bool) :
    (readItem container id partitionKey throwIfNotSuccess).run (World.handle svc) w =
      (.ok ⟨.undefined, .undefined, .code 404⟩, w.next) := by
  rcases @World.handle_calm_cases svc w container (.read id partitionKey) with
    ⟨e, -, hcalm⟩ | ⟨hserve, -⟩
  · exact absurd hw hcalm
  · have hrepo : w.next.repo container = w.repo container := rfl
    unfold readItem
    rw [World.run_request_bind, hserve, Collection.serve_read_none svc h, ← hrepo,
      World.withRepo_eq_self]
    rfl

/-- A read that returns an item is one of a document that is there, in a calm world. -/
theorem run_readItem_item {id partitionKey : Val} {throwIfNotSuccess : Bool}
    {response : CosmosOperationResponse} {w' : World}
    (h : (readItem container id partitionKey throwIfNotSuccess).run (World.handle svc) w =
      (.ok response, w')) (hitem : response.item ≠ .undefined) :
    w.Calm 1 ∧ w' = w.next ∧ ∃ d, (w.repo container).find (partitionKey, id) = some d ∧
      response = ⟨d.val, .undefined, .code 200⟩ := by
  have hrepo : w.next.repo container = w.repo container := rfl
  unfold readItem at h
  rw [World.run_request_bind] at h
  rcases @World.handle_calm_cases svc w container (.read id partitionKey) with
    ⟨e, he, -⟩ | ⟨hserve, hcalm⟩
  · rw [he] at h
    exact absurd (handleFailedOperationResponse_item h) hitem
  · rcases hfind : (w.repo container).find (partitionKey, id) with _ | d
    · rw [hserve, Collection.serve_read_none svc hfind] at h
      cases h
      exact absurd rfl hitem
    · rw [hserve, Collection.serve_read_some svc hfind, ← hrepo, World.withRepo_eq_self] at h
      cases h
      exact ⟨hcalm, rfl, d, rfl, rfl⟩

end WebInsights.Cosmos
