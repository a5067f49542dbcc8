/-
The documents of a storage as cells.

A read, an upsert and a deletion are about one document of one collection. They change no other
document, so callers that are each about a document of their own do not meet, whatever else
the collections hold.
-/
import WebInsights.Cosmos.World
import WebInsights.Effect.Cells

set_option autoImplicit false

namespace WebInsights.Cosmos

open Effect Js

/-- Where a document is. -/
abbrev Place : Type := Container × Val × Val

def World.document (place : Place) (w : World) : Option Document :=
  (w.repo place.1).find place.2

/-- The place an operation is about. An item with no id gets one that nobody can tell. -/
def Operation.about : Operation → Option Place
  | .cosmos container (.read id partitionKey) => some (container, partitionKey, id)
  | .cosmos container (.upsert item _) =>
    if hasNoId item then none
    else some (container, (Fields.get item "partitionKey").toJson, (Fields.get item "id").toJson)
  | .cosmos container (.delete id partitionKey) => some (container, partitionKey, id)
  | .cosmos _ (.query _) => none
  | .uuidV6 => none

/-- The `IfMatch` condition of a write, where this document is stored. -/
def Matches (stored : Option Document) (ifMatch : Option Val) : Prop :=
  ∀ e ∈ ifMatch, stored.map (fun d => d.get "_etag") = some e

/-- What a read answers. -/
def readAnswer : Option Document → Answer
  | some d => ⟨d.val, .code 200⟩
  | none => ⟨.undefined, .code 404⟩

variable (svc : Service)

/-- What an operation that is carried out does to the document it is about. -/
inductive DocumentServed : (op : Operation) → Option Document → op.Result → Option Document → Prop
  | read {container id partitionKey stored} :
      DocumentServed (.cosmos container (.read id partitionKey)) stored
        (.ok (readAnswer stored)) stored
  | upsert {container item ifMatch stored} (n : ℕ) (h : Matches stored ifMatch) :
      DocumentServed (.cosmos container (.upsert item ifMatch)) stored
        (.ok ⟨(svc.stamp n item).val, .code 200⟩) (some (svc.stamp n item))
  | refused {container item ifMatch stored} (h : ¬ Matches stored ifMatch) :
      DocumentServed (.cosmos container (.upsert item ifMatch)) stored
        (.error ⟨some (.code 412), "PreconditionFailed"⟩) stored
  | delete {container id partitionKey d} :
      DocumentServed (.cosmos container (.delete id partitionKey)) (some d)
        (.ok ⟨.undefined, .code 204⟩) none
  | notFound {container id partitionKey} :
      DocumentServed (.cosmos container (.delete id partitionKey)) none
        (.error ⟨some (.code 404), "NotFound"⟩) none

/-- What an operation does to the document it is about, where requests meet `Faults`. -/
inductive DocumentStep (Faults : Fault → Prop) : (op : Operation) → Option Document →
    op.Result → Option Document → Prop
  | served {op stored r stored'} (h : DocumentServed svc op stored r stored') :
      DocumentStep Faults op stored r stored'
  | fault {container r stored f} (h : Faults f) :
      DocumentStep Faults (.cosmos container r) stored (.error f.error) stored
  | lost {container r stored stored' f answer} (h : Faults f) (hcarried : f.carriedOut = true)
      (hserved : DocumentServed svc (.cosmos container r) stored answer stored') :
      DocumentStep Faults (.cosmos container r) stored (.error f.error) stored'

/-- What an operation about a document can be answered: a read gives a document that is stored
at this place, or none, or fails with an error that tells no status. -/
def AnswersAbout : (op : Operation) → op.Result → Prop
  | .cosmos _ (.read id partitionKey), .ok answer => ∃ stored, answer = readAnswer stored ∧
      ∀ d ∈ stored, d.key = (partitionKey, id) ∧ ∃ n, d.get "_etag" = .str (svc.etag n)
  | .cosmos _ (.read _ _), .error e => e.code = none
  | _, _ => True

/-- A read is answered, or fails with an error that tells no status. -/
def ReadsAnswered (op : Operation) (w : World) : Prop :=
  ∀ container id partitionKey e, op = .cosmos container (.read id partitionKey) →
    (World.handle svc (.cosmos container (.read id partitionKey)) w).1 = .error e → e.code = none

/-- The faults to come are among these, and the documents have the etags of earlier writes. -/
structure World.Sound (Faults : Fault → Prop) (w : World) : Prop where
  faults : ∀ f, some f ∈ w.faults → Faults f
  stamped : ∀ container, (w.repo container).Stamped svc

variable {svc} {Faults : Fault → Prop} {w : World}

theorem World.Sound.handle (h : w.Sound svc Faults) (op : Operation) :
    (World.handle svc op w).2.Sound svc Faults := by
  refine ⟨fun f hf => h.faults f (World.handle_faults_subset svc op w hf), ?_⟩
  cases op with
  | uuidV6 => exact h.stamped
  | cosmos container r =>
    exact World.handle_repo svc h.stamped ((h.stamped container).serve r)

theorem Operation.about_upsert {container : Container} {item : Fields} {ifMatch : Option Val}
    (hid : ¬ hasNoId item) : (Operation.cosmos container (.upsert item ifMatch)).about =
      some (container, (Fields.get item "partitionKey").toJson, (Fields.get item "id").toJson) :=
  if_neg hid

/-- An item goes to the key it is stored under. -/
theorem Operation.about_upsert_eq_some (svc : Service) {container : Container} {item : Fields}
    {ifMatch : Option Val} {place : Place}
    (h : (Operation.cosmos container (.upsert item ifMatch)).about = some place) (n : ℕ) :
    place = (container, (svc.stamp n item).key) := by
  by_cases hid : hasNoId item
  · exact absurd ((if_pos hid).symm.trans h) nofun
  · rw [Operation.about_upsert hid] at h
    rw [svc.key_stamp hid]
    exact (Option.some.inj h).symm

theorem Operation.about_container {container : Container} {r : Request} {place : Place}
    (h : (Operation.cosmos container r).about = some place) : place.1 = container := by
  cases r with
  | read | delete =>
    cases h
    rfl
  | upsert item ifMatch => rw [Operation.about_upsert_eq_some .counting h 0]
  | query => cases h

theorem Collection.find_erase_self (c : Collection) (k : Val × Val) :
    (c.erase k).find k = none := by
  refine find_eq_none_iff.mpr fun d hd => ?_
  rw [erase, List.mem_filter] at hd
  exact of_decide_eq_true hd.2

theorem Collection.find_erase_ne {c : Collection} {k k' : Val × Val} (h : k' ≠ k) :
    (c.erase k).find k' = c.find k' := by
  refine Option.ext fun d => ?_
  rw [find_eq_some_iff, find_eq_some_iff, erase, List.mem_filter]
  refine and_congr_left fun hd => and_iff_left (decide_eq_true ?_)
  rw [hd]
  exact h

/-- What a request does to the documents of its collection that it is not about. -/
theorem Collection.find_serve_ne {c : Collection} {container : Container} {r : Request}
    {place : Place} (habout : (Operation.cosmos container r).about = some place) {k : Val × Val}
    (hk : k ≠ place.2) : (c.serve svc r).2.find k = c.find k := by
  rcases c.serve_cases svc r with hsame | ⟨item, ifMatch, rfl, hput⟩ | ⟨id, pk, rfl, herase⟩
  · rw [hsame]
  · rw [Operation.about_upsert_eq_some svc habout c.writes] at hk
    rw [hput, find_put_ne hk]
  · cases habout
    rw [herase, find_erase_ne hk]

/-- What a request does to the document that it is about. -/
theorem Collection.documentServed_serve {c : Collection} {container : Container} {r : Request}
    {place : Place} (habout : (Operation.cosmos container r).about = some place) :
    DocumentServed svc (.cosmos container r) (c.find place.2) (c.serve svc r).1
      ((c.serve svc r).2.find place.2) := by
  cases r with
  | read id pk =>
    cases habout
    rcases hfind : c.find (pk, id) with _ | d
    · rw [serve_read_none svc hfind, hfind]
      exact .read
    · rw [serve_read_some svc hfind, hfind]
      exact .read
  | upsert item ifMatch =>
    rw [Operation.about_upsert_eq_some svc habout c.writes]
    by_cases hadmits : c.Admits (svc.stamp c.writes item).key ifMatch
    · rw [serve_upsert svc hadmits, find_put_self]
      exact .upsert c.writes hadmits
    · rw [serve_upsert_conflict svc hadmits]
      exact .refused hadmits
  | query q => cases habout
  | delete id pk =>
    cases habout
    rcases hfind : c.find (pk, id) with _ | d
    · simp only [serve, hfind]
      exact .notFound
    · simp only [serve, hfind, find_erase_self]
      exact .delete

theorem World.document_handle_ne {op : Operation} {place place' : Place}
    (habout : op.about = some place) (hne : place' ≠ place) :
    (World.handle svc op w).2.document place' = w.document place' := by
  cases op with
  | uuidV6 => cases habout
  | cosmos container r =>
    unfold World.document
    have hserved : ((Function.update w.repo container
        ((w.repo container).serve svc r).2) place'.1).find place'.2 =
          (w.repo place'.1).find place'.2 := by
      by_cases hc : place'.1 = container
      · rw [hc, Function.update_self]
        refine Collection.find_serve_ne habout fun hk => hne ?_
        exact Prod.ext (hc.trans (Operation.about_container habout).symm) hk
      · rw [Function.update_of_ne hc]
    rcases World.handle_cosmos_cases svc w container r with
      ⟨-, -, -, hrepo⟩ | ⟨-, -, -, -, hrepo⟩ | ⟨-, hrepo⟩
    · rw [hrepo]
    · rw [hrepo, hserved]
    · rw [hrepo, hserved]

/-- **The documents are cells**: what a request does, it does to the document it is about. -/
theorem local_document : Local (World.handle svc) (World.Sound svc Faults) (ReadsAnswered svc)
    World.document Operation.about (DocumentStep svc Faults) (AnswersAbout svc) where
  keeps h := h.handle _
  own := by
    intro op w place h _ habout
    cases op with
    | uuidV6 => cases habout
    | cosmos container r =>
      have hcontainer := Operation.about_container habout
      unfold World.document
      -- if the request is carried out, the collection of the document serves it
      rcases World.handle_cosmos_cases svc w container r with ⟨f, hf, hanswer, hrepo⟩ |
        ⟨f, hf, hcarried, hanswer, hrepo⟩ | ⟨hanswer, hrepo⟩
      · rw [hanswer, hrepo]
        exact .fault (h.faults f hf)
      · rw [hanswer, hrepo, hcontainer, Function.update_self]
        exact .lost (h.faults f (List.mem_of_head? hf)) hcarried
          (Collection.documentServed_serve habout)
      · rw [hanswer, hrepo, hcontainer, Function.update_self]
        exact .served (Collection.documentServed_serve habout)
  answer := by
    intro op w place h hadmits habout
    cases op with
    | uuidV6 => trivial
    | cosmos container r =>
      cases r with
      | upsert | query | delete => trivial
      | read id pk =>
        rcases World.handle_answer_cases svc w container (.read id pk) with ⟨f, -, hanswer⟩ |
          hanswer
        · have hcode := hadmits _ _ _ f.error rfl hanswer
          rw [hanswer]
          exact hcode
        · rw [hanswer]
          rcases hfind : (w.repo container).find (pk, id) with _ | d
          · rw [Collection.serve_read_none svc hfind]
            exact ⟨none, rfl, nofun⟩
          · rw [Collection.serve_read_some svc hfind]
            refine ⟨some d, rfl, fun d' hd' => ?_⟩
            -- what is stored has the key it is read by, and an etag of the service
            obtain rfl := Option.some.inj hd'
            have hmem := Collection.find_eq_some_iff.mp hfind
            obtain ⟨n, -, hetag⟩ := h.stamped container d hmem.1
            exact ⟨hmem.2, n, hetag⟩
  frame _ habout hne := World.document_handle_ne habout hne

/-! ## Storages that do not fail -/

theorem readsAnswered_of_faultless (hw : w.faults = []) (op : Operation) :
    ReadsAnswered svc op w := by
  rintro container id pk e - he
  rw [World.handle_faultless svc hw] at he
  rcases hfind : (w.repo container).find (pk, id) with _ | d
  · rw [Collection.serve_read_none svc hfind] at he
    cases he
  · rw [Collection.serve_read_some svc hfind] at he
    cases he

/-- In a run over a storage that does not fail, every read is answered. -/
theorem runs_readsAnswered {ι ε α : Type} [DecidableEq ι]
    {G : Pool ι Operation Operation.Result World ε α → ι → Operation → Prop}
    {p q : Pool ι Operation Operation.Result World ε α} (hw : p.shared.faults = [])
    (hrun : Pool.Runs (World.handle svc) G p q) :
    Pool.Runs (World.handle svc) (fun p _ op => ReadsAnswered svc op p.shared) p q ∧
      q.shared.faults = [] := by
  induction hrun with
  | refl => exact ⟨.refl, hw⟩
  | @step p₁ q _ i op _ hstep ih =>
    refine ⟨.step ih.1 (readsAnswered_of_faultless ih.2 op) hstep, ?_⟩
    cases hstep with
    | perform k hk =>
      exact List.subset_nil.mp (ih.2 ▸ World.handle_faults_subset svc op p₁.shared)

end WebInsights.Cosmos
