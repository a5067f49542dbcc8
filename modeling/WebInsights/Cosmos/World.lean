/-
What the storage code awaits: requests to one of the two collections, and fresh
UUIDs.

A world holds the two collections, the UUIDs that are still to come and the
faults that are still to come. A request that meets a fault is answered with
that error, whether it did nothing or was carried out and its response was lost;
every other request is served by its collection. Every list of faults is
possible, so a theorem about all worlds is about every outcome of every single
request.
-/
import Mathlib.Logic.Function.Basic
import WebInsights.Common.Guid
import WebInsights.Cosmos.Collection
import WebInsights.Effect.Program

set_option autoImplicit false

namespace WebInsights.Cosmos

open Common Effect Js

/-- The collections behind `websiteRepoContainerClient` and
`scanMetadataRepoContainerClient`. -/
inductive Container where
  | websiteData
  | scanMetadata
  deriving DecidableEq

inductive Operation where
  | cosmos (container : Container) (request : Request)
  | uuidV6

/-- What an operation is answered. -/
abbrev Operation.Result : Operation → Type
  | .cosmos _ _ => Except SdkError Answer
  | .uuidV6 => V6Guid

/-- The operation neither writes nor removes a document. -/
def Operation.ReadOnly : Operation → Prop
  | .cosmos _ (.upsert _ _) => False
  | .cosmos _ (.delete _ _) => False
  | _ => True

/-- What the client classes return instead of a value for the SDK's error
responses, and for its answers. -/
structure CosmosOperationResponse where
  item : Val
  response : Val
  statusCode : StatusCode

/-- What the storage and service code throws, or rejects with. -/
inductive JsError where
  /-- `new Error(message)`. -/
  | error (message : String)
  | typeError (message : String)
  /-- `Promise.reject(message)`. -/
  | reason (message : String)
  /-- An error of the SDK, thrown on. -/
  | sdk (e : SdkError)
  /-- ``new VError(`Failed request response - ${JSON.stringify(..)}`)`` -/
  | failedRequest (response : CosmosOperationResponse)

/-- `v.k`: reading a property of `undefined` or `null` throws. -/
def property (v : Val) (k : String) : Except JsError Val :=
  match v with
  | .undefined => .error (.typeError ("Cannot read property '" ++ k ++ "' of undefined"))
  | .null => .error (.typeError ("Cannot read property '" ++ k ++ "' of null"))
  | v => .ok (v.get k)

theorem property_eq_ok {v r : Val} {k : String} (h : property v k = .ok r) : v.get k = r := by
  unfold property at h
  split at h
  · cases h
  · cases h
  · exact Except.ok.inj h

theorem property_of_ne {v : Val} {k : String} (hundefined : v ≠ .undefined) (hnull : v ≠ .null) :
    property v k = .ok (v.get k) := by
  unfold property
  split
  · exact absurd rfl hundefined
  · exact absurd rfl hnull
  · rfl

@[simp] theorem property_obj (fs : Fields) (k : String) :
    property (.obj fs) k = .ok (Fields.get fs k) := rfl

/-- An `async` method of the storage and service code. -/
abbrev Async (α : Type) : Type := Program Operation Operation.Result JsError α

/-- Await a request to a collection. -/
def request (container : Container) (r : Request) : Async (Except SdkError Answer) :=
  Program.perform (Operation.cosmos container r)

/-- Await a fresh UUID. -/
def uuidV6 : Async V6Guid := Program.perform Operation.uuidV6

/-- A request that fails: with this error, and without effect unless it was carried out
all the same and only its response was lost. -/
structure Fault where
  error : SdkError
  carriedOut : Bool

/-- The outside world: the collections, the UUIDs and the faults to come. -/
structure World where
  repo : Container → Collection
  guids : ℕ → V6Guid
  nextGuid : ℕ
  faults : List (Option Fault)

namespace World

/-- A world with two empty collections and no faults. -/
def empty (guids : ℕ → V6Guid) : World where
  repo := fun _ => Collection.empty
  guids := guids
  nextGuid := 0
  faults := []

variable (svc : Service)

def withRepo (w : World) (c : Container) (repo : Collection) : World :=
  { w with repo := Function.update w.repo c repo }

/-- How the world answers an operation. -/
def handle : Handler Operation Operation.Result World
  | .cosmos c r, w =>
    match w.faults with
    | some f :: faults =>
      (.error f.error,
        { (if f.carriedOut then w.withRepo c ((w.repo c).serve svc r).2 else w) with
          faults := faults })
    | faults =>
      (((w.repo c).serve svc r).1,
        { w.withRepo c ((w.repo c).serve svc r).2 with faults := faults.tail })
  | .uuidV6, w => (w.guids w.nextGuid, { w with nextGuid := w.nextGuid + 1 })

@[simp] theorem withRepo_repo_self (w : World) (c : Container) (repo : Collection) :
    (w.withRepo c repo).repo c = repo := by
  unfold withRepo
  exact Function.update_self c repo w.repo

theorem withRepo_repo_ne (w : World) {c c' : Container} (h : c' ≠ c) (repo : Collection) :
    (w.withRepo c repo).repo c' = w.repo c' := by
  unfold withRepo
  exact Function.update_of_ne h repo w.repo

@[simp] theorem withRepo_eq_self (w : World) (c : Container) : w.withRepo c (w.repo c) = w := by
  rw [withRepo, Function.update_eq_self]

@[simp] theorem withRepo_faults (w : World) (c : Container) (repo : Collection) :
    (w.withRepo c repo).faults = w.faults := rfl

/-- A request that meets a fault. -/
theorem handle_fault {w : World} {f : Fault} {faults : List (Option Fault)}
    (h : w.faults = some f :: faults) (c : Container) (r : Request) :
    handle svc (.cosmos c r) w = (.error f.error,
      { (if f.carriedOut then w.withRepo c ((w.repo c).serve svc r).2 else w) with
        faults := faults }) := by
  simp only [handle, h]

/-- A request when no faults are to come. -/
theorem handle_faultless {w : World} (h : w.faults = []) (c : Container) (r : Request) :
    handle svc (.cosmos c r) w =
      (((w.repo c).serve svc r).1, w.withRepo c ((w.repo c).serve svc r).2) := by
  obtain ⟨repo, guids, nextGuid, faults⟩ := w
  obtain rfl : faults = [] := h
  rfl

@[simp] theorem run_uuidV6 (w : World) :
    uuidV6.run (handle svc) w =
      (.ok (w.guids w.nextGuid), { w with nextGuid := w.nextGuid + 1 }) := rfl

/-- A request comes first among the operations of what follows it. -/
theorem ops_request_bind {α : Type} (c : Container) (r : Request)
    (f : Except SdkError Answer → Async α) (w : World) :
    (request c r >>= f).ops (handle svc) w =
      .cosmos c r :: (f (handle svc (.cosmos c r) w).1).ops (handle svc)
        (handle svc (.cosmos c r) w).2 := rfl

theorem run_request_bind {α : Type} (c : Container) (r : Request)
    (f : Except SdkError Answer → Async α) (w : World) :
    (request c r >>= f).run (handle svc) w =
      (f (handle svc (.cosmos c r) w).1).run (handle svc) (handle svc (.cosmos c r) w).2 := rfl

/-- Everything a request can do to a world: fail, be carried out without an answer, or be
served. -/
theorem handle_cosmos_cases (w : World) (c : Container) (r : Request) :
    (∃ f, some f ∈ w.faults ∧ (handle svc (.cosmos c r) w).1 = .error f.error ∧
      (handle svc (.cosmos c r) w).2.repo = w.repo) ∨
    (∃ f, w.faults.head? = some (some f) ∧ f.carriedOut = true ∧
      (handle svc (.cosmos c r) w).1 = .error f.error ∧
      (handle svc (.cosmos c r) w).2.repo =
        Function.update w.repo c ((w.repo c).serve svc r).2) ∨
    ((handle svc (.cosmos c r) w).1 = ((w.repo c).serve svc r).1 ∧
      (handle svc (.cosmos c r) w).2.repo =
        Function.update w.repo c ((w.repo c).serve svc r).2) := by
  rcases hf : w.faults with _ | ⟨f | f, faults⟩
  · right; right
    rw [handle_faultless svc hf]
    exact ⟨rfl, rfl⟩
  · right; right
    simp only [handle, hf]
    exact ⟨trivial, rfl⟩
  · rw [handle_fault svc hf]
    rcases hcarried : f.carriedOut with _ | _
    · left
      exact ⟨f, List.mem_cons_self, rfl, by rw [if_neg Bool.false_ne_true]⟩
    · right; left
      exact ⟨f, rfl, hcarried, rfl, by rw [if_pos rfl]; rfl⟩

/-- What holds of every collection still does after a request, if the collection that
serves it keeps it. -/
theorem handle_repo {I : Container → Collection → Prop} {w : World} (h : ∀ c, I c (w.repo c))
    {container : Container} {r : Request}
    (hserve : I container ((w.repo container).serve svc r).2) (c : Container) :
    I c ((handle svc (.cosmos container r) w).2.repo c) := by
  have hupdate : I c (Function.update w.repo container ((w.repo container).serve svc r).2 c) := by
    by_cases hc : c = container
    · subst hc
      rw [Function.update_self]
      exact hserve
    · rw [Function.update_of_ne hc]
      exact h c
  rcases handle_cosmos_cases svc w container r with
    ⟨-, -, -, hrepo⟩ | ⟨-, -, -, -, hrepo⟩ | ⟨-, hrepo⟩
  · rw [hrepo]
    exact h c
  · rw [hrepo]
    exact hupdate
  · rw [hrepo]
    exact hupdate

/-- A request uses up one fault. -/
theorem handle_faults (c : Container) (r : Request) (w : World) :
    (handle svc (.cosmos c r) w).2.faults = w.faults.tail := by
  rcases hw : w.faults with _ | ⟨_ | _, faults⟩
  · rw [handle_faultless svc hw, withRepo_faults, hw]
    rfl
  · simp only [handle, hw]
  · rw [handle_fault svc hw]
    rfl

/-- Faults are used up, none is added. -/
theorem handle_faults_subset (op : Operation) (w : World) :
    (handle svc op w).2.faults ⊆ w.faults := by
  cases op with
  | uuidV6 => exact List.Subset.refl _
  | cosmos c r =>
    rw [handle_faults]
    exact (List.tail_sublist _).subset

/-- A run that meets no faults leaves none. -/
theorem run_faults {α : Type} (p : Async α) {w : World} (h : w.faults = []) :
    (p.run (handle svc) w).2.faults = [] := by
  induction p generalizing w with
  | pure a => exact h
  | throw e => exact h
  | call op k ih => exact ih _ (List.subset_nil.mp (h ▸ handle_faults_subset svc op w))

/-- An operation that writes nothing leaves both collections alone. -/
theorem handle_readOnly {op : Operation} (hop : op.ReadOnly) (w : World) :
    (handle svc op w).2.repo = w.repo := by
  cases op with
  | uuidV6 => rfl
  | cosmos c r =>
    have hserve : ((w.repo c).serve svc r).2 = w.repo c := by
      rcases (w.repo c).serve_cases svc r with h | ⟨item, ifMatch, rfl, -⟩ | ⟨id, pk, rfl, -⟩
      · exact h
      · exact hop.elim
      · exact hop.elim
    have hupdate : Function.update w.repo c ((w.repo c).serve svc r).2 = w.repo := by
      rw [hserve, Function.update_eq_self]
    rcases handle_cosmos_cases svc w c r with ⟨-, -, -, h⟩ | ⟨-, -, -, -, h⟩ | ⟨-, h⟩
    · exact h
    · exact h.trans hupdate
    · exact h.trans hupdate

/-- A request is answered with the error of a fault, or as it is served. -/
theorem handle_answer_cases (w : World) (c : Container) (r : Request) :
    (∃ f, some f ∈ w.faults ∧ (handle svc (.cosmos c r) w).1 = .error f.error) ∨
    (handle svc (.cosmos c r) w).1 = ((w.repo c).serve svc r).1 := by
  rcases handle_cosmos_cases svc w c r with ⟨f, hf, h, -⟩ | ⟨f, hf, -, h, -⟩ | ⟨h, -⟩
  · exact Or.inl ⟨f, hf, h⟩
  · exact Or.inl ⟨f, List.mem_of_head? hf, h⟩
  · exact Or.inr h

end World

end WebInsights.Cosmos
