/-
A paged query is complete and exact.

Whatever pages a server splits a result into, iterating the query and collecting it with
`executeQueryWithContinuationToken` both give the concatenation of the pages, and both
throw as soon as one fetch fails. The invariant of the two outer loops is that what has
been handed out and what lies after the continuation token make up the whole result; the
measure of all three loops is the number of pages still to come.
-/
import WebInsights.Cosmos.Paging
import WebInsights.Providers.ProviderSpec

set_option autoImplicit false

namespace WebInsights.Providers

open Cosmos CosmosClientWrapper Effect Js

variable {τ : Type}

/-! ## The server -/

/-- A query result split into pages, with the token that comes with each of them.

* `token i`: the token after page `i`; the page it leads back to is the next one.
* `tokenPastEnd`: what comes with the answer past the end, which has no resources.
-/
structure PagedQuery (τ : Type) where
  pages : List (List Val)
  token : ℕ → τ
  resume : τ → ℕ
  resume_token : ∀ i, resume (token i) = i + 1
  tokenPastEnd : Option τ

/-- The iterators that were started, the faults to come, and what the consumer was
handed. -/
structure PagingState where
  position : ℕ → ℕ
  nextIterator : ℕ
  faults : List (Option SdkError)
  /-- Some fetch was answered with an error. -/
  failed : Bool
  yielded : List Val

def PagingState.start (faults : List (Option SdkError)) : PagingState where
  position := fun _ => 0
  nextIterator := 0
  faults := faults
  failed := false
  yielded := []

namespace PagedQuery

variable (q : PagedQuery τ)

/-- The page an iterator that was started with this token hands out first. -/
def firstPage : Option τ → ℕ
  | none => 0
  | some token => q.resume token

def feedResponse (i : ℕ) : FeedResponse τ where
  resources := q.pages[i]?
  continuationToken :=
    if i + 1 < q.pages.length then some (q.token i)
    else if i < q.pages.length then none
    else q.tokenPastEnd

def handle : Handler (PagingOperation τ) PagingOperation.Result PagingState
  | .query token, s =>
    (s.nextIterator, { s with
      position := Function.update s.position s.nextIterator (q.firstPage token)
      nextIterator := s.nextIterator + 1 })
  | .fetchNext i, s =>
    match s.faults with
    | some e :: faults => (.error e, { s with faults := faults, failed := true })
    | faults =>
      (.ok (some (q.feedResponse (s.position i))), { s with
        position := Function.update s.position i (s.position i + 1)
        faults := faults.tail })
  | .yield item, s => ((), { s with yielded := s.yielded ++ [item] })

/-- The items from page `i` on. -/
def itemsFrom (i : ℕ) : List Val := (q.pages.drop i).flatten

theorem itemsFrom_zero : q.itemsFrom 0 = q.pages.flatten := by
  unfold itemsFrom
  rw [List.drop_zero]

theorem itemsFrom_page {i : ℕ} {items : List Val} (h : q.pages[i]? = some items) :
    q.itemsFrom i = items ++ q.itemsFrom (i + 1) := by
  obtain ⟨hlt, hget⟩ := List.getElem?_eq_some_iff.mp h
  unfold itemsFrom
  rw [List.drop_eq_getElem_cons hlt, List.flatten_cons, hget]

theorem itemsFrom_length {i : ℕ} (h : q.pages.length ≤ i) : q.itemsFrom i = [] := by
  unfold itemsFrom
  rw [List.drop_eq_nil_of_le h, List.flatten_nil]

/-! ## One fetch -/

/-- A fetch that is answered, or fails. -/
theorem run_fetchNext (i : ℕ) (s : PagingState) :
    (∃ e s', (fetchNext i : Paging τ _).run q.handle s = (.error (.sdk e), s') ∧
      s'.failed = true ∧ s'.yielded = s.yielded) ∨
    ∃ s', (fetchNext i : Paging τ _).run q.handle s =
        (.ok (some (q.feedResponse (s.position i))), s') ∧
      s'.position i = s.position i + 1 ∧ s'.failed = s.failed ∧ s'.yielded = s.yielded := by
  rcases hf : s.faults with _ | ⟨e | e, faults⟩
  · right
    refine ⟨(q.handle (.fetchNext i) s).2, ?_, ?_⟩
    · simp [fetchNext, handle, hf]
    · simp [handle, hf]
  · right
    refine ⟨(q.handle (.fetchNext i) s).2, ?_, ?_⟩
    · simp [fetchNext, handle, hf]
    · simp [handle, hf]
  · left
    refine ⟨e, (q.handle (.fetchNext i) s).2, ?_, ?_⟩
    · simp [fetchNext, handle, hf]
    · simp [handle, hf]

/-! ## The loop over empty pages -/

/-- What the loop over the empty pages from page `p` on ends with: the first page `j`
that is not empty, or the answer past the end, in either case with nothing skipped but
empty pages; or the error of a fetch. -/
def SkipsTo (p : ℕ) (s : PagingState) :
    Except JsError (Option (FeedResponse τ)) → PagingState → Prop
  | .ok r, s' => s'.failed = s.failed ∧ s'.yielded = s.yielded ∧
      ∃ j, p ≤ j ∧ q.itemsFrom p = q.itemsFrom j ∧ r = some (q.feedResponse j) ∧
        isEmptyPage r = false
  | .error e, s' => s'.failed = true ∧ s'.yielded = s.yielded ∧ ∃ error, e = .sdk error

theorem run_fetchNextNonEmpty (i : ℕ) (s : PagingState) {fuel : ℕ}
    (hfuel : q.pages.length < fuel) :
    ∃ r, ((fetchNextNonEmpty i fuel : Paging τ _).run q.handle s).1 = r.map some ∧
      q.SkipsTo (s.position i) s r ((fetchNextNonEmpty i fuel : Paging τ _).run q.handle s).2 := by
  unfold fetchNextNonEmpty
  refine Program.run_iterate q.handle
    (I := fun _ s₁ => s₁.failed = s.failed ∧ s₁.yielded = s.yielded ∧
      s.position i ≤ s₁.position i ∧ q.itemsFrom (s.position i) = q.itemsFrom (s₁.position i))
    (μ := fun _ s₁ => q.pages.length - s₁.position i) ?_ ⟨rfl, rfl, le_rfl, rfl⟩
    (lt_of_le_of_lt (Nat.sub_le _ _) hfuel)
  rintro ⟨⟩ s₁ ⟨hfailed, hyielded, hle, hitems⟩
  rcases q.run_fetchNext i s₁ with ⟨e, s₂, hrun, hfailed', hyielded'⟩ |
    ⟨s₂, hrun, hposition, hfailed', hyielded'⟩
  · rw [Program.run_bind_error _ hrun]
    exact ⟨hfailed', hyielded'.trans hyielded, e, rfl⟩
  · rw [Program.run_bind_ok _ hrun]
    by_cases hempty : isEmptyPage (some (q.feedResponse (s₁.position i))) = true
    · -- an empty page is a page, so there is one page less to come
      have hpage : q.pages[s₁.position i]? = some [] := by
        unfold isEmptyPage feedResponse at hempty
        split at hempty
        · rename_i heq
          simp only [Option.some.injEq, FeedResponse.mk.injEq] at heq
          exact heq.1
        · cases hempty
      have hlt : s₁.position i < q.pages.length := (List.getElem?_eq_some_iff.mp hpage).1
      rw [if_pos hempty]
      have hless : q.pages.length - s₂.position i < q.pages.length - s₁.position i := by omega
      refine ⟨⟨hfailed'.trans hfailed, hyielded'.trans hyielded, by omega, ?_⟩, hless⟩
      rw [hitems, q.itemsFrom_page hpage, List.nil_append, hposition]
    · rw [if_neg hempty]
      exact ⟨hfailed'.trans hfailed, hyielded'.trans hyielded, _, hle, hitems, rfl,
        Bool.eq_false_iff.mpr hempty⟩

/-! ## `readItems` -/

/-- The items that come after a response with this token. -/
def itemsAfter : Option τ → List Val
  | none => []
  | some token => q.itemsFrom (q.resume token)

/-- What `readItems` makes of a query from page `p` on. A response that was not made of
an error has the next items, and its token leads strictly on and to a page that there
is. -/
def Answers (p : ℕ) (s : PagingState) : Except JsError (QueryResponse τ) → PagingState → Prop
  | .ok r, s' => s'.yielded = s.yielded ∧
      ((s'.failed = true ∧ r.item = none) ∨
        (s'.failed = s.failed ∧ client.ensureSuccess r.toResponse = .ok () ∧
          ∃ items, r.item = some items ∧
            q.itemsFrom p = items ++ q.itemsAfter r.continuationToken ∧
            ∀ token, r.continuationToken = some token →
              p < q.resume token ∧ q.resume token < q.pages.length))
  | .error _, s' => s'.failed = true ∧ s'.yielded = s.yielded

/-- The page the loop ended with makes a response, which answers the query. -/
theorem queryResponse_answers {p : ℕ} {s s' : PagingState} {r : Option (FeedResponse τ)}
    (h : q.SkipsTo p s (.ok r) s') :
    ∃ response, queryResponse r = .ok response ∧ q.Answers p s (.ok response) s' := by
  obtain ⟨hfailed, hyielded, j, hle, hitems, rfl, hempty⟩ := h
  rcases hpage : q.pages[j]? with _ | items
  · -- past the end
    have hend : q.pages.length ≤ j := List.getElem?_eq_none_iff.mp hpage
    refine ⟨⟨some [], .undefined, .code 204, none⟩, by rw [feedResponse, hpage]; rfl, hyielded,
      Or.inr ⟨hfailed, rfl, [], rfl, ?_, fun _ => nofun⟩⟩
    rw [hitems, q.itemsFrom_length hend]
    rfl
  · have hlt : j < q.pages.length := (List.getElem?_eq_some_iff.mp hpage).1
    refine ⟨_, by rw [feedResponse, hpage]; rfl, hyielded,
      Or.inr ⟨hfailed, rfl, items, rfl, ?_, ?_⟩⟩
    · rw [hitems, q.itemsFrom_page hpage]
      congr 1
      by_cases hlast : j + 1 < q.pages.length
      · rw [if_pos hlast, itemsAfter, q.resume_token]
      · rw [if_neg hlast, if_pos hlt, itemsAfter]
        exact q.itemsFrom_length (by omega)
    · intro token htoken
      by_cases hlast : j + 1 < q.pages.length
      · simp only [if_pos hlast, Option.some.injEq] at htoken
        rw [← htoken, q.resume_token]
        omega
      · simp only [if_neg hlast, if_pos hlt] at htoken
        cases htoken

/-- What comes of a failed fetch has no items. -/
theorem handleFailedQuery_answers {p : ℕ} {s s' : PagingState} {e : JsError}
    (h : q.SkipsTo p s (.error e) s') (throwIfNotSuccess : Bool) :
    q.Answers p s (handleFailedQuery throwIfNotSuccess e) s' := by
  obtain ⟨hfailed, hyielded, error, rfl⟩ := h
  simp only [handleFailedQuery]
  rcases failedOperationResponse "queryItems" error throwIfNotSuccess .undefined with e | r
  · exact ⟨hfailed, hyielded⟩
  · exact ⟨hyielded, Or.inl ⟨hfailed, rfl⟩⟩

theorem run_readItemsPaged (token : Option τ) (throwIfNotSuccess : Bool) (s : PagingState)
    {fuel : ℕ} (hfuel : q.pages.length < fuel) :
    ∃ r, ((readItemsPaged token throwIfNotSuccess fuel).run q.handle s).1 = r.map some ∧
      q.Answers (q.firstPage token) s r
        ((readItemsPaged token throwIfNotSuccess fuel).run q.handle s).2 := by
  obtain ⟨s₁, hs₁⟩ : ∃ s₁, s₁ = (q.handle (.query token) s).2 := ⟨_, rfl⟩
  have hposition : s₁.position s.nextIterator = q.firstPage token := by
    rw [hs₁]
    exact Function.update_self _ _ _
  have hfailed₁ : s₁.failed = s.failed := by rw [hs₁]; rfl
  have hyielded₁ : s₁.yielded = s.yielded := by rw [hs₁]; rfl
  -- what the loop says of `s₁` it says of `s`
  have hskips : ∀ r s', q.SkipsTo (s₁.position s.nextIterator) s₁ r s' →
      q.SkipsTo (q.firstPage token) s r s' := by
    intro r s' h
    rw [hposition] at h
    cases r with
    | ok r => exact ⟨h.1.trans hfailed₁, h.2.1.trans hyielded₁, h.2.2⟩
    | error e => exact ⟨h.1, h.2.1.trans hyielded₁, h.2.2⟩
  obtain ⟨r, hr, hpost⟩ := q.run_fetchNextNonEmpty s.nextIterator s₁ hfuel
  rcases hloop : (fetchNextNonEmpty s.nextIterator fuel : Paging τ _).run q.handle s₁ with ⟨x, s'⟩
  rw [hloop] at hr hpost
  obtain rfl : x = r.map some := hr
  have hpost := hskips _ _ hpost
  have hquery : (Program.perform (PagingOperation.query token) : Paging τ ℕ).run q.handle s =
      (.ok s.nextIterator, s₁) := by
    rw [hs₁]
    rfl
  unfold readItemsPaged
  rw [Program.run_tryCatch, Program.run_bind_ok _ hquery]
  rcases r with e | page
  · -- the error of a fetch goes to the handler
    rw [Program.run_bind_error _ hloop]
    dsimp only
    rw [Program.run_map_ofExcept]
    exact ⟨_, rfl, q.handleFailedQuery_answers hpost throwIfNotSuccess⟩
  · rw [Program.run_bind_ok _ hloop]
    obtain ⟨response, hresponse, hanswers⟩ := q.queryResponse_answers hpost
    dsimp only
    rw [Program.run_map_ofExcept, hresponse]
    exact ⟨.ok response, rfl, hanswers⟩

/-! ## The two consumers -/

theorem run_yieldAll (items : List Val) (s : PagingState) :
    (yieldAll items : Paging τ Unit).run q.handle s =
      (.ok (), { s with yielded := s.yielded ++ items }) := by
  induction items generalizing s with
  | nil =>
    rw [List.append_nil]
    rfl
  | cons item items ih =>
    unfold yieldAll
    rw [Program.perform_bind, Program.run_call, ih]
    simp only [handle, List.append_assoc, List.singleton_append]

/-- The query of a turn fails, or answers what the consumers throw at after a failed
fetch, or answers the next items and a token that leads on to the rest. -/
theorem run_queryDocumentsPaged (token : Option τ) {s : PagingState} (hs : s.failed = false)
    {fuel : ℕ} (hfuel : q.pages.length < fuel) :
    (∃ e s', (queryDocumentsPaged fuel token).run q.handle s = (.error e, s') ∧
      s'.failed = true ∧ s'.yielded = s.yielded) ∨
    (∃ response e s', (queryDocumentsPaged fuel token).run q.handle s = (.ok (some response), s') ∧
      consumedItems response = .error e ∧ s'.failed = true ∧ s'.yielded = s.yielded) ∨
    ∃ response items s',
      (queryDocumentsPaged fuel token).run q.handle s = (.ok (some response), s') ∧
      consumedItems response = .ok items ∧ s'.failed = false ∧ s'.yielded = s.yielded ∧
      q.itemsFrom (q.firstPage token) = items ++ q.itemsAfter response.continuationToken ∧
      ∀ t, response.continuationToken = some t →
        q.firstPage token < q.resume t ∧ q.resume t < q.pages.length := by
  obtain ⟨r, hr, hanswers⟩ := q.run_readItemsPaged token true s hfuel
  unfold queryDocumentsPaged
  rcases hread : (readItemsPaged token true fuel).run q.handle s with ⟨x, s'⟩
  rw [hread] at hr hanswers
  obtain rfl : x = r.map some := hr
  rcases r with e | response
  · exact Or.inl ⟨e, s', rfl, hanswers.1, hanswers.2⟩
  · right
    obtain ⟨hyielded, ⟨hfailed, hitem⟩ | ⟨hfailed, hsuccess, items, hitem, hrest⟩⟩ := hanswers
    · -- the response was made of an error: it has nothing to iterate
      left
      have hthrows : ∃ e, consumedItems response = .error e := by
        unfold consumedItems iterableItems
        rw [hitem]
        rcases client.ensureSuccess response.toResponse with e | ⟨⟩
        · exact ⟨e, rfl⟩
        · exact ⟨_, rfl⟩
      obtain ⟨e, he⟩ := hthrows
      exact ⟨response, e, s', rfl, he, hfailed, hyielded⟩
    · right
      have hitems : consumedItems response = .ok items := by
        unfold consumedItems iterableItems
        rw [hsuccess, hitem]
        rfl
      exact ⟨response, items, s', rfl, hitems, hfailed.trans hs, hyielded, hrest⟩

/-- How iterating a query ends: with everything, or with an exception after a part of
it. -/
def Iterated (all : List Val) : Except JsError Unit → PagingState → Prop
  | .ok _, s => s.failed = false ∧ s.yielded = all
  | .error _, s => s.failed = true ∧ s.yielded <+: all

/-- **Iterating a query** with fuel for more turns than there are pages yields every page
in order, or throws at the first fetch that fails. -/
theorem run_queryCosmosDbGenerator {s : PagingState} (hs : s.failed = false) {fuel : ℕ}
    (hfuel : q.pages.length < fuel) :
    ∃ r, ((queryCosmosDbGenerator fuel).run q.handle s).1 = r.map some ∧
      Iterated (s.yielded ++ q.pages.flatten) r
        ((queryCosmosDbGenerator fuel).run q.handle s).2 := by
  unfold queryCosmosDbGenerator
  refine Program.run_iterate q.handle
    (I := fun token s₁ => s₁.failed = false ∧
      s₁.yielded ++ q.itemsFrom (q.firstPage token) = s.yielded ++ q.pages.flatten)
    (μ := fun token _ => q.pages.length - q.firstPage token) ?_
    ⟨hs, by rw [firstPage, q.itemsFrom_zero]⟩ (lt_of_le_of_lt (Nat.sub_le _ _) hfuel)
  rintro token s₁ ⟨hfailed, hyielded⟩
  -- what was yielded so far is the beginning of what there is
  have hprefix : s₁.yielded <+: s.yielded ++ q.pages.flatten := ⟨_, hyielded⟩
  rcases q.run_queryDocumentsPaged token hfailed hfuel with ⟨e, s₂, hrun, hfailed', hsame⟩ |
    ⟨response, e, s₂, hrun, hthrow, hfailed', hsame⟩ |
    ⟨response, items, s₂, hrun, hitems, hfailed', hsame, hrest, hleads⟩
  · rw [Program.run_bind_error _ hrun]
    exact ⟨hfailed', by rw [hsame]; exact hprefix⟩
  · rw [Program.run_bind_ok _ hrun]
    simp only [hthrow]
    exact ⟨hfailed', by rw [hsame]; exact hprefix⟩
  · -- the page came: its items are yielded, and the rest is still to come
    have hyield := q.run_yieldAll items s₂
    rw [Program.run_bind_ok _ hrun]
    simp only [hitems, Program.ofExcept_ok, pure_bind]
    rw [Program.run_bind_ok _ hyield]
    have hnow : (s₂.yielded ++ items) ++ q.itemsAfter response.continuationToken =
        s.yielded ++ q.pages.flatten := by
      rw [hsame, List.append_assoc, ← hrest, hyielded]
    rcases htoken : response.continuationToken with _ | t
    · rw [htoken] at hnow
      exact ⟨hfailed', by rw [← hnow]; exact (List.append_nil _).symm⟩
    · rw [htoken] at hnow
      -- a token leads to a later page
      obtain ⟨hlt, hlen⟩ := hleads t htoken
      have hless : q.pages.length - q.resume t < q.pages.length - q.firstPage token := by omega
      exact ⟨⟨hfailed', hnow⟩, hless⟩

/-- How collecting a query ends. -/
def Executed (all : List Val) : Except JsError (List Val) → PagingState → Prop
  | .ok result, s => s.failed = false ∧ result = all
  | .error _, s => s.failed = true

/-- **Collecting a query** returns the concatenation of its pages, or throws at the first
fetch that fails. -/
theorem run_executeQueryWithContinuationToken {s : PagingState} (hs : s.failed = false)
    {fuel : ℕ} (hfuel : q.pages.length < fuel) :
    ∃ r, ((executeQueryWithContinuationToken (queryDocumentsPaged fuel) fuel).run q.handle s).1 =
        r.map some ∧
      Executed q.pages.flatten r
        ((executeQueryWithContinuationToken (queryDocumentsPaged fuel) fuel).run q.handle s).2 := by
  unfold executeQueryWithContinuationToken
  refine Program.run_iterate q.handle
    (I := fun (b : Option τ × List Val) s₁ => s₁.failed = false ∧
      b.2 ++ q.itemsFrom (q.firstPage b.1) = q.pages.flatten)
    (μ := fun b _ => q.pages.length - q.firstPage b.1) ?_
    ⟨hs, by rw [firstPage, q.itemsFrom_zero, List.nil_append]⟩
    (lt_of_le_of_lt (Nat.sub_le _ _) hfuel)
  rintro ⟨token, result⟩ s₁ ⟨hfailed, hresult⟩
  rcases q.run_queryDocumentsPaged token hfailed hfuel with ⟨e, s₂, hrun, hfailed', -⟩ |
    ⟨response, e, s₂, hrun, hthrow, hfailed', -⟩ |
    ⟨response, items, s₂, hrun, hitems, hfailed', -, hrest, hleads⟩
  · dsimp only
    rw [Program.run_bind_error _ hrun]
    exact hfailed'
  · dsimp only
    rw [Program.run_bind_ok _ hrun]
    simp only [hthrow]
    exact hfailed'
  · dsimp only
    rw [Program.run_bind_ok _ hrun]
    simp only [hitems, Program.ofExcept_ok, pure_bind]
    -- the page came: what is collected and what is still to come are the whole
    have hnow : (result ++ items) ++ q.itemsAfter response.continuationToken =
        q.pages.flatten := by
      rw [List.append_assoc, ← hrest, hresult]
    rcases htoken : response.continuationToken with _ | t
    · rw [htoken] at hnow
      exact ⟨hfailed', by rw [← hnow]; exact (List.append_nil _).symm⟩
    · rw [htoken] at hnow
      obtain ⟨hlt, hlen⟩ := hleads t htoken
      have hless : q.pages.length - q.resume t < q.pages.length - q.firstPage token := by omega
      exact ⟨⟨hfailed', hnow⟩, hless⟩

/-! ## Whole runs -/

/-- Only a fault makes a fetch fail. -/
theorem handle_failed (op : PagingOperation τ) {s : PagingState} (hs : s.failed = false)
    (hfaults : ∀ e, some e ∉ s.faults) :
    (q.handle op s).2.failed = false ∧ ∀ e, some e ∉ (q.handle op s).2.faults := by
  cases op with
  | query token => exact ⟨hs, hfaults⟩
  | yield item => exact ⟨hs, hfaults⟩
  | fetchNext i =>
    rcases hf : s.faults with _ | ⟨_ | e, faults⟩
    · simp only [handle, hf]
      exact ⟨hs, fun _ => List.not_mem_nil⟩
    · simp only [handle, hf]
      refine ⟨hs, fun e he => hfaults e ?_⟩
      rw [hf]
      exact List.mem_cons_of_mem _ he
    · exact absurd (by rw [hf]; exact List.mem_cons_self) (hfaults e)

theorem run_failed {α : Type} (p : Paging τ α) {s : PagingState} (hs : s.failed = false)
    (hfaults : ∀ e, some e ∉ s.faults) : (p.run q.handle s).2.failed = false := by
  induction p generalizing s with
  | pure a => exact hs
  | throw e => exact hs
  | call op k ih =>
    have hnext := q.handle_failed op hs hfaults
    exact ih _ hnext.1 hnext.2

/-- **Paged queries are complete and exact.** Whatever the pages and whichever fetches
fail, both consumers end. If no fetch failed, the one has yielded the concatenation of the
pages and the other returns it; if one failed, both throw. -/
theorem consumers_exact (faults : List (Option SdkError)) {fuel : ℕ}
    (hfuel : q.pages.length < fuel) :
    let iterated := (queryCosmosDbGenerator fuel).run q.handle (.start faults)
    let executed := (executeQueryWithContinuationToken (queryDocumentsPaged fuel) fuel).run
      q.handle (.start faults)
    ((iterated.2.failed = false → iterated.1 = .ok (some ()) ∧
        iterated.2.yielded = q.pages.flatten) ∧
      (iterated.2.failed = true → ∃ e, iterated.1 = .error e)) ∧
    ((executed.2.failed = false → executed.1 = .ok (some q.pages.flatten)) ∧
      (executed.2.failed = true → ∃ e, executed.1 = .error e)) := by
  intro iterated executed
  obtain ⟨r, hr, hiterated⟩ := q.run_queryCosmosDbGenerator (s := .start faults) rfl hfuel
  obtain ⟨r', hr', hexecuted⟩ :=
    q.run_executeQueryWithContinuationToken (s := .start faults) rfl hfuel
  -- a consumer that failed threw, and one that did not has all items
  constructor
  · change iterated.1 = _ at hr
    rw [hr]
    cases r with
    | ok u =>
      obtain ⟨hfailed, hyielded⟩ := hiterated
      refine ⟨fun _ => ⟨rfl, hyielded⟩, fun h => ?_⟩
      exact absurd (hfailed.symm.trans h) Bool.false_ne_true
    | error e =>
      refine ⟨fun h => ?_, fun _ => ⟨e, rfl⟩⟩
      exact absurd (h.symm.trans hiterated.1) Bool.false_ne_true
  · change executed.1 = _ at hr'
    rw [hr']
    cases r' with
    | ok result =>
      obtain ⟨hfailed, hresult⟩ := hexecuted
      refine ⟨fun _ => by rw [hresult]; rfl, fun h => ?_⟩
      exact absurd (hfailed.symm.trans h) Bool.false_ne_true
    | error e =>
      refine ⟨fun h => ?_, fun _ => ⟨e, rfl⟩⟩
      exact absurd (h.symm.trans hexecuted) Bool.false_ne_true

/-- A server that splits three items into pages with empty ones before, between and after
them. -/
def sample : PagedQuery ℕ where
  pages := [[], [.str "a", .str "b"], [], [.str "c"], []]
  token := id
  resume := (· + 1)
  resume_token := fun _ => rfl
  tokenPastEnd := some 7

theorem consumers_exact_sample :
    ((queryCosmosDbGenerator 6).run sample.handle (.start [])).2.yielded =
        [.str "a", .str "b", .str "c"] ∧
      ∃ e, ((queryCosmosDbGenerator 6).run sample.handle
        (.start [none, none, some ⟨some (.code 429), "TooManyRequests"⟩])).1 = .error e :=
  ⟨((sample.consumers_exact [] (by decide)).1.1 (by decide +kernel)).2,
    (sample.consumers_exact [none, none, some ⟨some (.code 429), "TooManyRequests"⟩]
      (by decide)).1.2 (by decide +kernel)⟩

/-- What the providers read of a query at once is what iterating its pages yields,
however the server splits the result. -/
theorem getCosmosQueryResultsIterable_pages {svc : Service} {container : Container} {w : World}
    (hw : w.faults = []) (query : SqlQuerySpec)
    (hpages : q.pages.flatten = (query.results (w.repo container).docs).map Document.val)
    {fuel : ℕ} (hfuel : q.pages.length < fuel) :
    (getCosmosQueryResultsIterable container query).run (World.handle svc) w =
      (.ok ((queryCosmosDbGenerator fuel).run q.handle (.start [])).2.yielded, w) := by
  have hdone : ((queryCosmosDbGenerator fuel).run q.handle (.start [])).2.failed = false :=
    q.run_failed _ rfl fun _ => List.not_mem_nil
  rw [run_getCosmosQueryResultsIterable hw,
    ((q.consumers_exact [] hfuel).1.1 hdone).2, hpages]

end PagedQuery

end WebInsights.Providers
