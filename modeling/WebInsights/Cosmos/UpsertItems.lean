/-
`CosmosClientWrapper.upsertItems`: a list of items is upserted in chunks of ten.

The upserts of a chunk are sent together and complete in any order. The next chunk is
begun when all of them have completed. A response is added to the list of responses when its upsert
completes, so the list is in the order of completion, while its reader has nothing but
the order of the items to go by. Which of the two orders it is makes a difference exactly
where two upserts end differently (`upsertItems_promised_iff`); everything else the method
promises holds in every order.
-/
import Mathlib.Data.List.Nodup
import Mathlib.Data.List.Range
import WebInsights.Cosmos.ClientSpec
import WebInsights.Effect.Machine

set_option autoImplicit false

namespace WebInsights.Cosmos

open Effect Js CosmosClientWrapper

/-! ## Chunks -/

/-- `System.chunkArray`, with a chunk for every turn of its loop. -/
def System.chunkArray {α : Type} (sourceArray : List α) (chunkSize : ℕ) : List (List α) :=
  (List.range ((sourceArray.length + chunkSize - 1) / chunkSize)).map fun turn =>
    (sourceArray.drop (chunkSize * turn)).take chunkSize

section Chunks

variable {α : Type} {l chunk : List α} {chunks : List (List α)} {c : ℕ}

theorem System.length_chunkArray (l : List α) :
    (System.chunkArray l 10).length = (l.length + 9) / 10 := by
  rw [System.chunkArray, List.length_map, List.length_range]
  rfl

/-- The next chunk after `c` of them, and those after it. -/
theorem System.chunkArray_drop_cons (h : (System.chunkArray l 10).drop c = chunk :: chunks) :
    10 * c < l.length ∧ chunk = (l.drop (10 * c)).take 10 ∧
      chunks = (System.chunkArray l 10).drop (c + 1) := by
  have hlt : c < (System.chunkArray l 10).length := by
    by_contra hge
    rw [List.drop_eq_nil_of_le (by omega)] at h
    cases h
  rw [List.drop_eq_getElem_cons hlt, List.cons.injEq] at h
  obtain ⟨hchunk, hchunks⟩ := h
  rw [System.length_chunkArray] at hlt
  refine ⟨by omega, ?_, hchunks.symm⟩
  rw [← hchunk]
  simp [System.chunkArray]

theorem System.chunkArray_drop_nil (h : (System.chunkArray l 10).drop c = []) :
    l.length ≤ 10 * c := by
  rw [List.drop_eq_nil_iff, System.length_chunkArray] at h
  omega

end Chunks

/-! ## The method -/

/-- An item and its position in `items`. -/
abbrev Placed : Type := Fields × ℕ

/-- `upsertItems` after some upserts: the chunks that were not begun, the items of the chunk
that was whose upserts have not completed, the requests that were sent, `responses`, and what
was thrown first. -/
structure UpsertItems where
  chunks : List (List Placed)
  inFlight : List Placed
  requests : List Request
  responses : List CosmosOperationResponse
  thrown : Option JsError

inductive UpsertEvent where
  | nextChunk
  /-- The upsert of the item at a position completes. -/
  | completed (position : ℕ)
  deriving DecidableEq

def UpsertEvent.position : UpsertEvent → Option ℕ
  | .nextChunk => none
  | .completed position => some position

namespace UpsertItems

def start (items : List Fields) : UpsertItems where
  chunks := System.chunkArray items.zipIdx 10
  inFlight := []
  requests := []
  responses := []
  thrown := none

/-- What an upsert does once it is answered, up to the `push`. -/
def answered (throwIfNotSuccess : Bool) (item : Fields) :
    Except SdkError Answer → Async CosmosOperationResponse
  | .ok response => pure ⟨response.resource, .undefined, .code 200⟩
  | .error error =>
    handleFailedOperationResponse "upsertItems" error throwIfNotSuccess (Fields.get item "id")

section Steps

variable (partitionKey : Val) (throwIfNotSuccess : Bool) (answers : ℕ → Except SdkError Answer)

/-- The next turn of the loop: all upserts of the chunk are sent. -/
def nextChunk (s : UpsertItems) : Option UpsertItems :=
  match s.inFlight, s.thrown, s.chunks with
  | [], none, chunk :: chunks => some { s with
      chunks := chunks
      inFlight := chunk
      requests := s.requests ++ chunk.map fun item => upsertRequest item.1 partitionKey }
  | _, _, _ => none

/-- The upsert of an item completes. -/
def complete (s : UpsertItems) (item : Placed) : Option UpsertItems :=
  let rest := { s with inFlight := s.inFlight.filter fun other => other.2 ≠ item.2 }
  match answered throwIfNotSuccess item.1 (answers item.2) with
  | .pure response => some { rest with responses := s.responses ++ [response] }
  | .throw e => some { rest with thrown := s.thrown.or (some e) }
  -- nothing is awaited after the answer
  | .call _ _ => none

def step (s : UpsertItems) : UpsertEvent → Option UpsertItems
  | .nextChunk => s.nextChunk partitionKey
  | .completed position =>
    (s.inFlight.find? fun item => item.2 = position).bind
      (s.complete throwIfNotSuccess answers)

/-- `upsertItems(items, .., partitionKey, throwIfNotSuccess)` after these events. -/
def run (items : List Fields) (events : List UpsertEvent) : Option UpsertItems :=
  Machine.runs (step partitionKey throwIfNotSuccess answers) (start items) events

end Steps

/-- The promise of the method resolves, with `responses`. -/
def Resolved (s : UpsertItems) : Prop := s.chunks = [] ∧ s.inFlight = [] ∧ s.thrown = none

/-! ## What holds after every event -/

/-- What `upsertItems` adds to the responses for an answer, if the caller asked for no
exception. -/
def responseTo : Except SdkError Answer → Except JsError CosmosOperationResponse
  | .ok answer => .ok (upsertSuccess answer)
  | .error error => errorResponse error

/-- The positions of the items whose upserts completed, in that order. -/
def completions (events : List UpsertEvent) : List ℕ :=
  events.filterMap UpsertEvent.position

/-- How many chunks were begun. -/
def begun (events : List UpsertEvent) : ℕ := events.count .nextChunk

/-- After `c` chunks were begun and upserts completed in this order: what was sent and
answered, and where the upserts in flight belong. -/
structure Accounted (items : List Fields) (partitionKey : Val)
    (answers : ℕ → Except SdkError Answer) (c : ℕ) (order : List ℕ) (s : UpsertItems) :
    Prop where
  chunks : s.chunks = (System.chunkArray items.zipIdx 10).drop c
  thrown : s.thrown = none
  limited : s.inFlight.length ≤ 10
  /-- What completed and what is in flight are the items of the chunks that were begun. -/
  positions : (order ++ s.inFlight.map Prod.snd).Perm ((List.range items.length).take (10 * c))
  settled : 10 * (c - 1) ≤ order.length ∧ ∀ i ∈ s.inFlight.map Prod.snd, 10 * (c - 1) ≤ i
  requests : s.requests = (items.take (10 * c)).map fun item => upsertRequest item partitionKey
  responses : s.responses.map Except.ok = order.map fun i => responseTo (answers i)
  chunkwise : ∀ j i, order[j]? = some i → i / 10 = j / 10
  within : c ≤ (items.length + 9) / 10

section Accounts

variable {items : List Fields} {partitionKey : Val} {answers : ℕ → Except SdkError Answer}
  {c : ℕ} {order : List ℕ} {s s' : UpsertItems} {events : List UpsertEvent}

theorem accounted_start : Accounted items partitionKey answers 0 [] (start items) where
  chunks := rfl
  thrown := rfl
  limited := Nat.zero_le _
  positions := List.Perm.refl _
  settled := ⟨le_rfl, nofun⟩
  requests := rfl
  responses := rfl
  chunkwise := nofun
  within := Nat.zero_le _

/-- Of the items of the chunks that were begun, each has completed or is in flight. -/
theorem Accounted.length (h : Accounted items partitionKey answers c order s) :
    order.length + s.inFlight.length = min (10 * c) items.length := by
  have hlength := h.positions.length_eq
  simpa using hlength

theorem Accounted.nodup (h : Accounted items partitionKey answers c order s) :
    (order ++ s.inFlight.map Prod.snd).Nodup :=
  h.positions.nodup_iff.mpr (List.nodup_range.sublist (List.take_sublist _ _))

/-- All upserts of the chunks before the last one have completed. -/
theorem Accounted.mem_order (h : Accounted items partitionKey answers c order s) {i : ℕ}
    (hi : i < 10 * (c - 1)) (hlength : i < items.length) : i ∈ order := by
  have hmem : i ∈ order ++ s.inFlight.map Prod.snd := by
    rw [h.positions.mem_iff, List.mem_take_iff_getElem]
    exact ⟨i, by simp; omega, by simp⟩
  rcases List.mem_append.mp hmem with horder | hflight
  · exact horder
  · have hle := h.settled.2 i hflight
    omega

theorem Accounted.lt (h : Accounted items partitionKey answers c order s) {i : ℕ}
    (hi : i ∈ s.inFlight.map Prod.snd) : i < 10 * c := by
  have hmem := h.positions.mem_iff.mp (List.mem_append_right order hi)
  obtain ⟨k, hk, rfl⟩ := List.mem_take_iff_getElem.mp hmem
  rw [List.getElem_range]
  omega

/-- A chunk that is begun. -/
theorem Accounted.nextChunk (h : Accounted items partitionKey answers c order s)
    (hstep : s.nextChunk partitionKey = some s') :
    Accounted items partitionKey answers (c + 1) order s' := by
  unfold UpsertItems.nextChunk at hstep
  split at hstep
  case h_2 => cases hstep
  rename_i chunk chunks hflight hthrown hchunks
  obtain rfl := Option.some.inj hstep
  obtain ⟨hlt, rfl, rfl⟩ := System.chunkArray_drop_cons (h.chunks.symm.trans hchunks)
  rw [List.length_zipIdx] at hlt
  -- a chunk begins when all before it have completed
  have horder : order.length = 10 * c := by
    have hlength := h.length
    rw [hflight, List.length_nil] at hlength
    omega
  have hnext : 10 * (c + 1) = 10 * c + 10 := by omega
  have hpositions : ((items.zipIdx.drop (10 * c)).take 10).map Prod.snd =
      ((List.range items.length).drop (10 * c)).take 10 := by
    rw [List.map_take, List.map_drop, List.zipIdx_map_snd, List.range_eq_range']
  have hitems : ((items.zipIdx.drop (10 * c)).take 10).map Prod.fst =
      (items.drop (10 * c)).take 10 := by
    rw [List.map_take, List.map_drop, List.zipIdx_map_fst]
  refine ⟨rfl, h.thrown, List.length_take_le _ _, ?_, ⟨?_, ?_⟩, ?_, h.responses, h.chunkwise,
    by omega⟩
  · have hbefore := h.positions
    rw [hflight, List.map_nil, List.append_nil] at hbefore
    rw [hpositions, hnext, List.take_add]
    exact hbefore.append_right _
  · rw [horder, Nat.add_sub_cancel]
  · intro i hi
    rw [hpositions] at hi
    obtain ⟨k, hk, rfl⟩ := List.mem_iff_getElem.mp (List.mem_of_mem_take hi)
    simp
  · rw [hnext, List.take_add, List.map_append, ← hitems, List.map_map, ← h.requests]
    rfl

/-- An answer whose error, if it is one, has a code becomes a response. -/
theorem answered_eq {a : Except SdkError Answer} (hcode : ∀ e, a = .error e → e.code ≠ none)
    (item : Fields) :
    ∃ response, answered false item a = pure response ∧ responseTo a = .ok response := by
  rcases a with e | answer
  · obtain ⟨code, hsome⟩ := Option.ne_none_iff_exists'.mp (hcode e rfl)
    have herror : errorResponse e = .ok ⟨.undefined, .str e.message, code⟩ := by
      simp [errorResponse, client.getErrorResponse, hsome]
    refine ⟨⟨.undefined, .str e.message, code⟩, ?_, herror⟩
    rw [answered, handleFailedOperationResponse_false, herror]
    rfl
  · exact ⟨_, rfl, rfl⟩

/-- An upsert that completes. -/
theorem Accounted.complete (h : Accounted items partitionKey answers c order s)
    (hcodes : ∀ i e, answers i = .error e → e.code ≠ none) {item : Placed}
    (hmem : item ∈ s.inFlight) (hstep : s.complete false answers item = some s') :
    Accounted items partitionKey answers c (order ++ [item.2]) s' := by
  obtain ⟨response, hanswered, hresponse⟩ := answered_eq (hcodes item.2) item.1
  have hs' : s' = { s with
      inFlight := s.inFlight.filter fun other => other.2 ≠ item.2
      responses := s.responses ++ [response] } := by
    unfold UpsertItems.complete at hstep
    rw [hanswered] at hstep
    exact (Option.some.inj hstep).symm
  subst hs'
  have hposition : item.2 ∈ s.inFlight.map Prod.snd := List.mem_map_of_mem hmem
  -- the positions are distinct, so one of them is taken out
  have herase : (s.inFlight.filter fun other => other.2 ≠ item.2).map Prod.snd =
      (s.inFlight.map Prod.snd).erase item.2 := by
    rw [(List.nodup_append.mp h.nodup).2.1.erase_eq_filter, List.filter_map]
    exact congrArg (List.map Prod.snd) (List.filter_congr fun other _ => by
      rw [Function.comp_apply, bne, beq_eq_decide, decide_not])
  refine ⟨h.chunks, h.thrown, (List.length_filter_le _ _).trans h.limited, ?_, ⟨?_, ?_⟩,
    h.requests, ?_, ?_, h.within⟩
  · rw [herase, List.append_assoc, List.singleton_append]
    exact ((List.perm_cons_erase hposition).symm.append_left order).trans h.positions
  · rw [List.length_append]
    have hsettled := h.settled.1
    omega
  · intro i hi
    rw [herase] at hi
    exact h.settled.2 i (List.mem_of_mem_erase hi)
  · rw [List.map_append, List.map_append, h.responses, List.map_singleton, List.map_singleton,
      hresponse]
  · -- both the next place and the position are in the chunk that was begun last
    intro j i hj
    rcases Nat.lt_or_ge j order.length with hlt | hge
    · rw [List.getElem?_append_left hlt] at hj
      exact h.chunkwise j i hj
    · obtain ⟨rfl, rfl⟩ : j = order.length ∧ i = item.2 := by
        rw [List.getElem?_append_right hge, List.getElem?_singleton] at hj
        split at hj
        · exact ⟨by omega, (Option.some.inj hj).symm⟩
        · cases hj
      have hlength := h.length
      have hsettled := h.settled.1
      have hfrom := h.settled.2 _ hposition
      have hto := h.lt hposition
      have hflight : 0 < s.inFlight.length := List.length_pos_of_mem hmem
      omega

/-- **The accounts are right after every run**, whatever completes when. -/
theorem run_accounted (hcodes : ∀ i e, answers i = .error e → e.code ≠ none)
    (hrun : run partitionKey false answers items events = some s) :
    Accounted items partitionKey answers (begun events) (completions events) s := by
  refine Machine.runs_invariant
    (I := fun events s =>
      Accounted items partitionKey answers (begun events) (completions events) s)
    accounted_start ?_ hrun
  intro past before event after h hstep
  rw [begun, List.count_append, completions, List.filterMap_append]
  cases event with
  | nextChunk =>
    have hnext := h.nextChunk hstep
    rwa [List.count_singleton_self, List.filterMap_cons_none rfl, List.filterMap_nil,
      List.append_nil]
  | completed position =>
    obtain ⟨item, hfind, hcomplete⟩ := Option.bind_eq_some_iff.mp hstep
    obtain rfl : item.2 = position := by simpa using List.find?_some hfind
    exact h.complete hcodes (List.mem_of_find?_eq_some hfind) hcomplete

/-- While the promise is open something can happen. -/
theorem Accounted.progress (h : Accounted items partitionKey answers c order s)
    (hcodes : ∀ i e, answers i = .error e → e.code ≠ none) (hopen : ¬ Resolved s) :
    ∃ event s', step partitionKey false answers s event = some s' := by
  rcases hflight : s.inFlight with _ | ⟨item, inFlight⟩
  · rcases hchunks : s.chunks with _ | ⟨chunk, chunks⟩
    · exact absurd ⟨hchunks, hflight, h.thrown⟩ hopen
    · refine ⟨.nextChunk, Option.isSome_iff_exists.mp ?_⟩
      rw [step, UpsertItems.nextChunk, hflight, h.thrown, hchunks]
      rfl
  · obtain ⟨response, hanswered, -⟩ := answered_eq (hcodes item.2) item.1
    refine ⟨.completed item.2, Option.isSome_iff_exists.mp ?_⟩
    rw [step, hflight, List.find?_cons_of_pos (by simp), Option.bind_some, UpsertItems.complete,
      hanswered]
    rfl

theorem length_events (events : List UpsertEvent) :
    events.length = begun events + (completions events).length := by
  induction events with
  | nil => rfl
  | cons event events ih =>
    rw [begun, completions] at *
    cases event with
    | nextChunk =>
      rw [List.count_cons_self, List.filterMap_cons_none rfl, List.length_cons]
      omega
    | completed position =>
      have hposition : (UpsertEvent.completed position).position = some position := rfl
      rw [List.count_cons_of_ne (by simp), List.filterMap_cons_some hposition, List.length_cons,
        List.length_cons]
      omega

end Accounts

/-! ## The promise -/

/-- Two upserts end the same way: what was stored is the same, or the error is. -/
inductive SameOutcome : Except SdkError Answer → Except SdkError Answer → Prop
  | stored {a b : Answer} (h : a.resource = b.resource) : SameOutcome (.ok a) (.ok b)
  | failed (e : SdkError) : SameOutcome (.error e) (.error e)

/-- What `upsertItems` promises of a run of all its events. -/
structure Promised (items : List Fields) (partitionKey : Val)
    (answers : ℕ → Except SdkError Answer) (events : List UpsertEvent) : Prop where
  /-- At every moment there are at most ten upserts in flight, and an upsert was sent only when
  all upserts of the chunks before its own had completed. -/
  limited : ∀ past s, past <+: events → run partitionKey false answers items past = some s →
    s.inFlight.length ≤ 10 ∧
      ∀ i < s.requests.length, ∀ j, j / 10 < i / 10 → j ∈ completions past
  /-- Every item is upserted once, where the stored document has its own etag, if it has one. -/
  once : ∀ s, run partitionKey false answers items events = some s →
    s.requests = items.map fun item => .upsert (assignPartitionKey item partitionKey)
      (if Fields.get item "_etag" = .undefined then none else some (Fields.get item "_etag"))
  /-- There is a response for every item, at its position. -/
  attributed : ∀ s, run partitionKey false answers items events = some s →
    s.responses.map Except.ok = (List.range items.length).map fun i => responseTo (answers i)

section Promise

variable {items : List Fields} {partitionKey : Val} {answers : ℕ → Except SdkError Answer}
  {events : List UpsertEvent} {s : UpsertItems}

/-- The responses are the same exactly if the outcomes are. -/
theorem responseTo_eq_iff {a b : Except SdkError Answer}
    (ha : ∀ e, a = .error e → e.code ≠ none) (hb : ∀ e, b = .error e → e.code ≠ none) :
    responseTo a = responseTo b ↔ SameOutcome a b := by
  constructor
  · intro h
    rcases a with e | answer
    · obtain ⟨code, hcode⟩ := Option.ne_none_iff_exists'.mp (ha e rfl)
      rcases b with e' | answer'
      · obtain ⟨code', hcode'⟩ := Option.ne_none_iff_exists'.mp (hb e' rfl)
        -- a response to an error has its message and its status, which is all there is to it
        obtain ⟨hmessage, rfl⟩ : e.message = e'.message ∧ code = code' := by
          simpa [responseTo, errorResponse, client.getErrorResponse, hcode, hcode'] using h
        have he : e = e' := by
          cases e
          cases e'
          simp_all
        rw [he]
        exact .failed e'
      · simp [responseTo, errorResponse, client.getErrorResponse, hcode, upsertSuccess] at h
    · rcases b with e' | answer'
      · obtain ⟨code', hcode'⟩ := Option.ne_none_iff_exists'.mp (hb e' rfl)
        simp [responseTo, errorResponse, client.getErrorResponse, hcode', upsertSuccess] at h
      · exact .stored (by simpa [responseTo, upsertSuccess] using h)
  · rintro (h | e)
    · rw [responseTo, responseTo, upsertSuccess, upsertSuccess, h]
    · rfl

/-- The etag of an item is not changed by its partition key. -/
theorem getOptions_assignPartitionKey (item : Fields) (partitionKey : Val) :
    getOptions (assignPartitionKey item partitionKey) = getOptions item := by
  rw [getOptions, getOptions, get_assignPartitionKey_ne (by decide)]

/-- A list of all positions tells of each of them what is true of its place. -/
theorem map_eq_map_range_iff {β : Type} {order : List ℕ} {n : ℕ} (hlength : order.length = n)
    (f : ℕ → β) :
    order.map f = (List.range n).map f ↔ ∀ j i, order[j]? = some i → f i = f j := by
  subst hlength
  constructor
  · intro h j i hj
    have hplace := congrArg (·[j]?) h
    obtain ⟨hlt, rfl⟩ := List.getElem?_eq_some_iff.mp hj
    simpa [hlt] using hplace
  · intro h
    refine List.ext_getElem (by simp) fun j hj hj' => ?_
    rw [List.length_map] at hj
    rw [List.getElem_map, List.getElem_map, List.getElem_range]
    exact h j order[j] (List.getElem?_eq_getElem hj)

theorem Accounted.limited_requests {c : ℕ} {order : List ℕ}
    (h : Accounted items partitionKey answers c order s) {i j : ℕ} (hi : i < s.requests.length)
    (hj : j / 10 < i / 10) : j ∈ order := by
  rw [h.requests, List.length_map, List.length_take] at hi
  exact h.mem_order (by omega) (by omega)

/-- **Batch upserts**: the promise is open as long as something can happen, which is not for
long, and when it resolves everything promised holds exactly if each upsert ended as that of
the item at whose place it completed. -/
theorem upsertItems_promised_iff (hcodes : ∀ i e, answers i = .error e → e.code ≠ none) :
    (∀ events s, run partitionKey false answers items events = some s →
      events.length ≤ (items.length + 9) / 10 + items.length ∧
        (Resolved s ∨ ∃ event s', step partitionKey false answers s event = some s')) ∧
    ∀ events s, run partitionKey false answers items events = some s → Resolved s →
      (Promised items partitionKey answers events ↔
        ∀ j i, (completions events)[j]? = some i → SameOutcome (answers i) (answers j)) := by
  constructor
  · intro events s hrun
    have h := run_accounted hcodes hrun
    have hlength := h.length
    have hwithin := h.within
    refine ⟨?_, ?_⟩
    · rw [length_events events]
      omega
    · by_cases hresolved : Resolved s
      · exact Or.inl hresolved
      · exact Or.inr (h.progress hcodes hresolved)
  · intro events s hrun hresolved
    have h := run_accounted hcodes hrun
    -- no chunk is left and none is in flight, so every item has completed
    have hall : items.length ≤ 10 * begun events := by
      have hnil := System.chunkArray_drop_nil (h.chunks.symm.trans hresolved.1)
      rwa [List.length_zipIdx] at hnil
    have horder : (completions events).length = items.length := by
      have hlength := h.length
      rw [hresolved.2.1, List.length_nil] at hlength
      omega
    have hiff : s.responses.map Except.ok =
        ((List.range items.length).map fun i => responseTo (answers i)) ↔
          ∀ j i, (completions events)[j]? = some i → SameOutcome (answers i) (answers j) := by
      rw [h.responses, map_eq_map_range_iff horder]
      exact forall₂_congr fun j i => imp_congr_right fun _ =>
        responseTo_eq_iff (hcodes i) (hcodes j)
    constructor
    · exact fun hpromised => hiff.mp (hpromised.attributed s hrun)
    · intro hsame
      refine ⟨fun past s' _ hpast => ?_, fun s' hs' => ?_, fun s' hs' => ?_⟩
      · have hpast' := run_accounted hcodes hpast
        exact ⟨hpast'.limited, fun i hi j hj => hpast'.limited_requests hi hj⟩
      · obtain rfl := Option.some.inj (hrun.symm.trans hs')
        rw [h.requests, List.take_of_length_le hall]
        refine List.map_congr_left fun item _ => ?_
        rw [upsertRequest, getOptions_assignPartitionKey, getOptions]
      · obtain rfl := Option.some.inj (hrun.symm.trans hs')
        exact hiff.mpr hsame

/-! Two items, the second of which was changed by another writer. -/

def sampleItems : List Fields :=
  [[("id", .str "id-1"), ("_etag", .str "1")], [("id", .str "id-2"), ("_etag", .str "1")]]

def refusesSecond (i : ℕ) : Except SdkError Answer :=
  if i = 1 then .error ⟨some (.code 412), "One of the specified pre-condition is not met"⟩
  else .ok ⟨.obj [("id", .str "id-1")], .code 200⟩

theorem refusesSecond_code (i : ℕ) (e : SdkError) (h : refusesSecond i = .error e) :
    e.code ≠ none := by
  unfold refusesSecond at h
  split at h
  · obtain rfl := Except.error.inj h
    exact nofun
  · cases h

theorem upsertItems_promised_iff_sample :
    Promised sampleItems (.str "pk") refusesSecond [.nextChunk, .completed 0, .completed 1] := by
  obtain ⟨s, hrun⟩ : ∃ s, run (.str "pk") false refusesSecond sampleItems
      [.nextChunk, .completed 0, .completed 1] = some s := ⟨_, rfl⟩
  have hresolved : Resolved s := by
    obtain rfl := Option.some.inj hrun
    exact ⟨rfl, rfl, rfl⟩
  refine ((upsertItems_promised_iff refusesSecond_code).2 _ s hrun hresolved).mpr ?_
  rintro (_ | _ | j) i hj
  · obtain rfl := Option.some.inj hj
    exact .stored rfl
  · obtain rfl := Option.some.inj hj
    exact .failed _
  · cases hj

/-- When the second upsert completes first, the responses say that it succeeded, and that the
first one was refused. -/
theorem upsertItems_swapped :
    (run (.str "pk") false refusesSecond sampleItems
        [.nextChunk, .completed 1, .completed 0]).map
      (fun s => s.responses.map CosmosOperationResponse.statusCode) =
        some [.code 412, .code 200] ∧
    ¬ Promised sampleItems (.str "pk") refusesSecond [.nextChunk, .completed 1, .completed 0] := by
  refine ⟨rfl, fun hpromised => ?_⟩
  have hattributed := hpromised.attributed _ rfl
  have hfirst := congrArg (fun responses => responses[0]?) hattributed
  have hcode := congrArg (Option.map (Except.map CosmosOperationResponse.statusCode)) hfirst
  cases hcode

end Promise

end UpsertItems

end WebInsights.Cosmos
