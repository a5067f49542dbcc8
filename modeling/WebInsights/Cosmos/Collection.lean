/-
A Cosmos DB collection: the documents it holds and its answer to every request
the SDK sends it.

A document is found by its partition key and its id, and a collection holds at
most one document under both. A write stamps the document with a fresh `_etag`
and with the time, an upsert that carries an `IfMatch` condition fails with
status 412 unless the document stored under its key has that `_etag`, and an
upsert of a document with no id gets an id of its own. What the service picks
by itself (etags, times, ids) depends on the number of writes so far and is
otherwise free.
-/
import Mathlib.Data.List.Sort
import Mathlib.Data.Rat.Defs
import Mathlib.Algebra.Order.Ring.Rat
import WebInsights.Data.Keyed
import WebInsights.Js.Value

set_option autoImplicit false

namespace WebInsights.Cosmos

open Js

/-- `statusCode`, or `code` of an SDK error: a number, or the name of a network
error such as `ECONNREFUSED`. -/
inductive StatusCode where
  | code (n : ℤ)
  | name (s : String)
  deriving DecidableEq

/-- What the SDK rejects with. -/
structure SdkError where
  code : Option StatusCode
  message : String
  deriving DecidableEq

/-! ## Documents -/

/-- A stored document: a JSON object. -/
structure Document where
  fields : Fields
  isJson : (Val.obj fields).IsJson

namespace Document

def val (d : Document) : Val := .obj d.fields

/-- A property of the document. -/
def get (d : Document) (k : String) : Val := Fields.get d.fields k

/-- Where the document is: its partition key and its id. -/
def key (d : Document) : Val × Val := (d.get "partitionKey", d.get "id")

/-- `c._ts`. -/
def timestamp (d : Document) : ℚ :=
  match d.get "_ts" with
  | .num n => n
  | _ => 0

end Document

/-! ## Queries -/

/-- The queries of the data providers: a conjunction of `c.field = @parameter`
conditions, with the newest document first when they ask for it. -/
structure SqlQuerySpec where
  /-- `SELECT TOP 1 *` instead of `SELECT *`. -/
  top1 : Bool
  /-- The pairs of a field and the name of the parameter it has to equal. -/
  conditions : List (String × String)
  /-- `and (c.run.state == .. or c.run.state == ..)`, left out when empty. -/
  runStates : List String
  /-- `ORDER BY c._ts DESC`. -/
  orderByTimestamp : Bool
  parameters : List (String × Val)

namespace SqlQuerySpec

/-- A comparison with a property the document does not have is not true. -/
def compares (q : SqlQuerySpec) (d : Document) (c : String × String) : Bool :=
  d.get c.1 ≠ .undefined ∧ d.get c.1 = Fields.get q.parameters c.2

/-- The `WHERE` clause. -/
def selects (q : SqlQuerySpec) (d : Document) : Bool :=
  q.conditions.all (q.compares d) &&
    (q.runStates.isEmpty || q.runStates.any fun s => (d.get "run").get "state" = .str s)

/-- The order of `ORDER BY c._ts DESC`: later documents come first. -/
abbrev Newer (d e : Document) : Prop := e.timestamp ≤ d.timestamp

/-- The documents a query returns, all its pages together. -/
def results (q : SqlQuerySpec) (docs : List Document) : List Document :=
  let selected := docs.filter q.selects
  let ordered :=
    if q.orderByTimestamp then selected.insertionSort Newer else selected
  if q.top1 then ordered.take 1 else ordered

/-- A query with neither `TOP` nor `ORDER BY` lists what its condition selects. -/
theorem results_eq_filter {q : SqlQuerySpec} (htop : q.top1 = false)
    (horder : q.orderByTimestamp = false) (docs : List Document) :
    q.results docs = docs.filter q.selects := by
  simp [results, htop, horder]

/-- Whatever a query returns meets its condition. -/
theorem mem_of_mem_results {q : SqlQuerySpec} {docs : List Document} {d : Document}
    (h : d ∈ q.results docs) : d ∈ docs ∧ q.selects d = true := by
  unfold results at h
  have hordered : ∀ e, e ∈ (if q.orderByTimestamp then
      (docs.filter q.selects).insertionSort Newer else docs.filter q.selects) →
      e ∈ docs ∧ q.selects e = true := by
    intro e he
    by_cases horder : q.orderByTimestamp = true
    · rw [if_pos horder] at he
      exact List.mem_filter.mp ((List.mem_insertionSort _).mp he)
    · rw [if_neg horder] at he
      exact List.mem_filter.mp he
  by_cases htop : q.top1 = true
  · exact hordered d (List.mem_of_mem_take (by simpa only [htop, if_true] using h))
  · exact hordered d (by rwa [if_neg htop] at h)

instance : IsTrans Document Newer := ⟨fun _ _ _ h h' => h'.trans h⟩

instance : Std.Total Newer := ⟨fun d e => le_total e.timestamp d.timestamp⟩

/-- `SELECT TOP 1 .. ORDER BY c._ts DESC` returns the newest document that meets the
condition, and nothing only if none does. -/
theorem results_newest {q : SqlQuerySpec} (htop : q.top1 = true)
    (horder : q.orderByTimestamp = true) (docs : List Document) :
    (q.results docs = [] ∧ ∀ e ∈ docs, q.selects e = false) ∨
    ∃ d ∈ docs, q.results docs = [d] ∧ q.selects d = true ∧
      ∀ e ∈ docs, q.selects e = true → e.timestamp ≤ d.timestamp := by
  have hresults : q.results docs = ((docs.filter q.selects).insertionSort Newer).take 1 := by
    simp [results, htop, horder]
  have hsorted := List.pairwise_insertionSort Newer (docs.filter q.selects)
  have hmem : ∀ e, e ∈ (docs.filter q.selects).insertionSort Newer ↔
      e ∈ docs ∧ q.selects e = true := by
    intro e
    rw [List.mem_insertionSort, List.mem_filter]
  rw [hresults]
  rcases hl : (docs.filter q.selects).insertionSort Newer with _ | ⟨d, ds⟩
  · left
    refine ⟨rfl, fun e he => ?_⟩
    by_contra hsel
    have he' := (hmem e).mpr ⟨he, by simpa using hsel⟩
    rw [hl] at he'
    exact absurd he' List.not_mem_nil
  · right
    rw [hl] at hsorted hmem
    have hd := (hmem d).mp List.mem_cons_self
    -- the first of the sorted ones is the newest
    refine ⟨d, hd.1, rfl, hd.2, fun e he hsel => ?_⟩
    rcases List.mem_cons.mp ((hmem e).mpr ⟨he, hsel⟩) with rfl | he'
    · exact le_refl _
    · exact (List.pairwise_cons.mp hsorted).1 e he'

end SqlQuerySpec

/-! ## The service -/

/-- What Cosmos DB chooses when it stores a document: the `n`-th write of a
collection gets the etag `etag n`, no two writes the same one. -/
structure Service where
  etag : ℕ → String
  etag_injective : Function.Injective etag
  timestamp : ℕ → ℚ
  newId : ℕ → String

/-- A service to compute with: its etags count the writes in strokes. -/
def Service.counting : Service where
  etag := fun n => String.ofList (List.replicate n '|')
  etag_injective := by
    intro m n h
    have hlen := congrArg (fun s => s.toList.length) h
    simpa using hlen
  timestamp := fun n => n
  newId := fun n => String.ofList (List.replicate n '#')

/-- `body.id === undefined || body.id === ''`, when the SDK makes up an id. -/
def hasNoId (item : Fields) : Prop :=
  Fields.get item "id" = .undefined ∨ Fields.get item "id" = .str ""

instance (item : Fields) : Decidable (hasNoId item) :=
  inferInstanceAs (Decidable (_ ∨ _))

theorem not_hasNoId {item : Fields} {id : String} (hid : Fields.get item "id" = .str id)
    (hne : id ≠ "") : ¬ hasNoId item := by
  rintro (e | e)
  · rw [hid] at e
    cases e
  · rw [hid] at e
    exact hne (by simpa using e)

namespace Service

variable (svc : Service)

/-- What is sent: the JSON of the item, with an id. -/
def body (n : ℕ) (item : Fields) : Fields :=
  if hasNoId item then Fields.set (Val.toJsonFields item) "id" (.str (svc.newId n))
  else Val.toJsonFields item

theorem isJson_body (n : ℕ) (item : Fields) : (Val.obj (svc.body n item)).IsJson := by
  have hitem : (Val.obj (Val.toJsonFields item)).IsJson :=
    Val.isJson_toJson (v := .obj item) nofun
  unfold body
  split
  · exact Val.isJson_set hitem (Val.isJson_str _) _
  · exact hitem

/-- The document the `n`-th write stores for an item. -/
def stamp (n : ℕ) (item : Fields) : Document where
  fields := Fields.set (Fields.set (svc.body n item) "_etag" (.str (svc.etag n)))
    "_ts" (.num (svc.timestamp n))
  isJson := Val.isJson_set (Val.isJson_set (svc.isJson_body n item) (Val.isJson_str _) _)
    (Val.isJson_num _) _

@[simp] theorem get_stamp_etag (n : ℕ) (item : Fields) :
    (svc.stamp n item).get "_etag" = .str (svc.etag n) := by
  rw [Document.get, stamp, Fields.get_set_ne (by decide), Fields.get_set_self]

/-- Every property the item has is stored, but for the two stamps. -/
theorem get_stamp {item : Fields} (hid : ¬ hasNoId item) {k : String} (hetag : k ≠ "_etag")
    (hts : k ≠ "_ts") (n : ℕ) :
    (svc.stamp n item).get k = (Fields.get item k).toJson := by
  rw [Document.get, stamp, Fields.get_set_ne hts.symm, Fields.get_set_ne hetag.symm, body,
    if_neg hid, Val.get_toJsonFields]

/-- The same of an item with no id, but for the id. -/
theorem get_stamp_of_ne_id (n : ℕ) (item : Fields) {k : String} (hid : k ≠ "id")
    (hetag : k ≠ "_etag") (hts : k ≠ "_ts") :
    (svc.stamp n item).get k = (Fields.get item k).toJson := by
  by_cases hno : hasNoId item
  · rw [Document.get, stamp, Fields.get_set_ne hts.symm, Fields.get_set_ne hetag.symm, body,
      if_pos hno, Fields.get_set_ne hid.symm, Val.get_toJsonFields]
  · exact svc.get_stamp hno hetag hts n

/-- What is stored of an item with no id has one the SDK made up. -/
theorem get_stamp_id_of_hasNoId (n : ℕ) {item : Fields} (hno : hasNoId item) :
    (svc.stamp n item).get "id" = .str (svc.newId n) := by
  rw [Document.get, stamp, Fields.get_set_ne (by decide), Fields.get_set_ne (by decide), body,
    if_pos hno, Fields.get_set_self]

theorem key_stamp {item : Fields} (hid : ¬ hasNoId item) (n : ℕ) :
    (svc.stamp n item).key =
      ((Fields.get item "partitionKey").toJson, (Fields.get item "id").toJson) := by
  rw [Document.key, svc.get_stamp hid (by decide) (by decide),
    svc.get_stamp hid (by decide) (by decide)]

theorem key_stamp_str {item : Fields} {id pk : String} (hid : Fields.get item "id" = .str id)
    (hne : id ≠ "") (hpk : Fields.get item "partitionKey" = .str pk) (n : ℕ) :
    (svc.stamp n item).key = (.str pk, .str id) := by
  rw [svc.key_stamp (not_hasNoId hid hne), hid, hpk]
  rfl

end Service

/-! ## Collections -/

/-- The documents of a collection, one per key, and how often it was written. -/
structure Collection where
  docs : List Document
  nodup : (docs.map Document.key).Nodup
  writes : ℕ

/-- A request of the SDK. An upsert goes to the partition its body names. -/
inductive Request where
  | read (id partitionKey : Val)
  | upsert (item : Fields) (ifMatch : Option Val)
  | query (q : SqlQuerySpec)
  | delete (id partitionKey : Val)

/-- `ItemResponse` and `FeedResponse`. -/
structure Answer where
  resource : Val
  statusCode : StatusCode

namespace Collection

def empty : Collection where
  docs := []
  nodup := List.nodup_nil
  writes := 0

/-- The document under a key. -/
def find (c : Collection) (k : Val × Val) : Option Document := Keyed.lookup Document.key k c.docs

/-- The collection after a document was written. -/
def put (c : Collection) (d : Document) : Collection where
  docs := Keyed.put Document.key d c.docs
  nodup := Keyed.nodup_map_key_put _ c.nodup d
  writes := c.writes + 1

/-- The collection after the document under a key was removed. -/
def erase (c : Collection) (k : Val × Val) : Collection where
  docs := c.docs.filter fun d => d.key ≠ k
  nodup := c.nodup.sublist (List.filter_sublist.map _)
  writes := c.writes

/-- The `IfMatch` condition of a write to the key `k`. -/
def Admits (c : Collection) (k : Val × Val) (ifMatch : Option Val) : Prop :=
  ∀ e ∈ ifMatch, (c.find k).map (fun d => d.get "_etag") = some e

instance (c : Collection) (k : Val × Val) (ifMatch : Option Val) :
    Decidable (c.Admits k ifMatch) :=
  inferInstanceAs (Decidable (∀ e ∈ ifMatch, _))

variable (svc : Service)

/-- The answer to a request, and the collection it leaves. A read of a document
that is not there is an answer of its own, not an error. -/
def serve (c : Collection) : Request → Except SdkError Answer × Collection
  | .read id partitionKey =>
    match c.find (partitionKey, id) with
    | some d => (.ok ⟨d.val, .code 200⟩, c)
    | none => (.ok ⟨.undefined, .code 404⟩, c)
  | .upsert item ifMatch =>
    let d := svc.stamp c.writes item
    if c.Admits d.key ifMatch then (.ok ⟨d.val, .code 200⟩, c.put d)
    else (.error ⟨some (.code 412), "PreconditionFailed"⟩, c)
  | .query q => (.ok ⟨.arr ((q.results c.docs).map Document.val), .code 200⟩, c)
  | .delete id partitionKey =>
    match c.find (partitionKey, id) with
    | some _ => (.ok ⟨.undefined, .code 204⟩, c.erase (partitionKey, id))
    | none => (.error ⟨some (.code 404), "NotFound"⟩, c)

theorem find_eq_some_iff {c : Collection} {k : Val × Val} {d : Document} :
    c.find k = some d ↔ d ∈ c.docs ∧ d.key = k :=
  Keyed.lookup_eq_some_iff Document.key c.nodup

theorem find_eq_none_iff {c : Collection} {k : Val × Val} :
    c.find k = none ↔ ∀ d ∈ c.docs, d.key ≠ k :=
  Keyed.lookup_eq_none_iff Document.key

@[simp] theorem docs_put (c : Collection) (d : Document) :
    (c.put d).docs = Keyed.put Document.key d c.docs := rfl

@[simp] theorem writes_put (c : Collection) (d : Document) : (c.put d).writes = c.writes + 1 := rfl

theorem mem_put_iff {c : Collection} {d e : Document} :
    e ∈ (c.put d).docs ↔ e = d ∨ e ∈ c.docs ∧ e.key ≠ d.key :=
  Keyed.mem_put_iff Document.key c.nodup

@[simp] theorem find_put_self (c : Collection) (d : Document) : (c.put d).find d.key = some d :=
  Keyed.lookup_put_self Document.key c.nodup d

theorem find_put_ne {c : Collection} {d : Document} {k : Val × Val} (h : k ≠ d.key) :
    (c.put d).find k = c.find k :=
  Keyed.lookup_put_ne Document.key c.nodup h

/-- A write with no condition is always admitted. -/
@[simp] theorem admits_none (c : Collection) (k : Val × Val) : c.Admits k none := nofun

theorem admits_some {c : Collection} {k : Val × Val} {e : Val} :
    c.Admits k (some e) ↔ ∃ d, c.find k = some d ∧ d.get "_etag" = e := by
  simp [Admits]

theorem serve_read_some {c : Collection} {id partitionKey : Val} {d : Document}
    (h : c.find (partitionKey, id) = some d) :
    c.serve svc (.read id partitionKey) = (.ok ⟨d.val, .code 200⟩, c) := by
  simp only [serve, h]

theorem serve_read_none {c : Collection} {id partitionKey : Val}
    (h : c.find (partitionKey, id) = none) :
    c.serve svc (.read id partitionKey) = (.ok ⟨.undefined, .code 404⟩, c) := by
  simp only [serve, h]

theorem serve_upsert {c : Collection} {item : Fields} {ifMatch : Option Val}
    (h : c.Admits (svc.stamp c.writes item).key ifMatch) :
    c.serve svc (.upsert item ifMatch) =
      (.ok ⟨(svc.stamp c.writes item).val, .code 200⟩, c.put (svc.stamp c.writes item)) := by
  simp only [serve, if_pos h]

theorem serve_upsert_conflict {c : Collection} {item : Fields} {ifMatch : Option Val}
    (h : ¬ c.Admits (svc.stamp c.writes item).key ifMatch) :
    c.serve svc (.upsert item ifMatch) =
      (.error ⟨some (.code 412), "PreconditionFailed"⟩, c) := by
  simp only [serve, if_neg h]

/-- What a request can do to a collection: nothing, write the one document it
carries, or remove the one it names. -/
theorem serve_cases (c : Collection) (r : Request) :
    (c.serve svc r).2 = c ∨
    (∃ item ifMatch, r = .upsert item ifMatch ∧
      (c.serve svc r).2 = c.put (svc.stamp c.writes item)) ∨
    (∃ id partitionKey, r = .delete id partitionKey ∧
      (c.serve svc r).2 = c.erase (partitionKey, id)) := by
  cases r with
  | read id partitionKey =>
    left
    rcases h : c.find (partitionKey, id) with _ | d
    · rw [serve_read_none svc h]
    · rw [serve_read_some svc h]
  | upsert item ifMatch =>
    by_cases h : c.Admits (svc.stamp c.writes item).key ifMatch
    · right; left
      exact ⟨item, ifMatch, rfl, by rw [serve_upsert svc h]⟩
    · left
      rw [serve_upsert_conflict svc h]
  | query q => exact Or.inl rfl
  | delete id partitionKey =>
    rcases h : c.find (partitionKey, id) with _ | d
    · left
      simp only [serve, h]
    · right; right
      exact ⟨id, partitionKey, rfl, by simp only [serve, h]⟩

end Collection

/-! ## Etags of stored documents -/

/-- Every stored document has the etag of some earlier write. -/
def Collection.Stamped (svc : Service) (c : Collection) : Prop :=
  ∀ d ∈ c.docs, ∃ n < c.writes, d.get "_etag" = .str (svc.etag n)

theorem Collection.stamped_empty (svc : Service) : Collection.empty.Stamped svc := by
  intro d hd
  exact absurd hd List.not_mem_nil

/-- The document that is written has the newest etag. -/
theorem Collection.Stamped.put {svc : Service} {c : Collection} (h : c.Stamped svc)
    (item : Fields) : (c.put (svc.stamp c.writes item)).Stamped svc := by
  intro d hd
  rcases Collection.mem_put_iff.mp hd with rfl | ⟨hd, -⟩
  · exact ⟨c.writes, Nat.lt_succ_self _, svc.get_stamp_etag _ _⟩
  · obtain ⟨n, hn, hetag⟩ := h d hd
    exact ⟨n, Nat.lt_succ_of_lt hn, hetag⟩

/-- A request leaves a stamped collection stamped. -/
theorem Collection.Stamped.serve {svc : Service} {c : Collection} (h : c.Stamped svc)
    (r : Request) : (c.serve svc r).2.Stamped svc := by
  rcases c.serve_cases svc r with heq | ⟨item, ifMatch, -, heq⟩ | ⟨id, partitionKey, -, heq⟩
  · rw [heq]
    exact h
  · rw [heq]
    exact h.put item
  · rw [heq]
    intro d hd
    exact h d (List.mem_of_mem_filter hd)

end WebInsights.Cosmos
