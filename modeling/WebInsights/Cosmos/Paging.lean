/-
Queries page by page: `CosmosClientWrapper.readItems`, the asynchronous generator of
`CosmosQueryResultsIterable` and `executeQueryWithContinuationToken`.

The SDK answers a query in pages. An iterator over them is started at a continuation
token, or at the beginning, and hands out one page at each `fetchNext`. `readItems`
skips the empty pages of a new iterator and answers the first page that is not empty,
with its token; the two consumers call it again with that token until there is none.

A server is a list of pages with a token after each of them. Of its tokens only what the
SDK documents is used: a token leads back to the page after the one it came with, and
exactly the last page has none. Every fetch may fail. The three loops take as many
turns as they have fuel; fuel for two turns more than there are pages is always enough.
-/
import WebInsights.Effect.Loop
import WebInsights.Cosmos.Client

set_option autoImplicit false

namespace WebInsights.Cosmos

open Effect Js

/-! ## What the storage client awaits of the SDK -/

variable {τ : Type}

/-- What `fetchNext` resolves to. -/
structure FeedResponse (τ : Type) where
  resources : Option (List Val)
  continuationToken : Option τ

inductive PagingOperation (τ : Type) where
  /-- `container.items.query(query, { continuation })`: a new iterator. -/
  | query (continuation : Option τ)
  | fetchNext (queryIterator : ℕ)
  /-- Hand an item to whoever iterates. -/
  | yield (item : Val)

abbrev PagingOperation.Result : PagingOperation τ → Type
  | .query _ => ℕ
  | .fetchNext _ => Except SdkError (Option (FeedResponse τ))
  | .yield _ => Unit

abbrev Paging (τ α : Type) : Type := Program (PagingOperation τ) PagingOperation.Result JsError α

/-- A `CosmosOperationResponse<T[]>` with its continuation token. -/
structure QueryResponse (τ : Type) where
  item : Option (List Val)
  response : Val
  statusCode : StatusCode
  continuationToken : Option τ

def QueryResponse.toResponse (r : QueryResponse τ) : CosmosOperationResponse where
  item := r.item.elim .undefined .arr
  response := r.response
  statusCode := r.statusCode

/-- Await a page; a rejection is thrown. -/
def fetchNext (queryIterator : ℕ) : Paging τ (Option (FeedResponse τ)) := do
  match ← Program.perform (PagingOperation.fetchNext queryIterator) with
  | .ok response => pure response
  | .error error => throw (.sdk error)

/-! ## `client` and `handleFailedOperationResponse` as values -/

/-- What `ensureSuccessStatusCode` throws, if anything. -/
def client.ensureSuccess (response : CosmosOperationResponse) : Except JsError Unit :=
  if client.isSuccessStatusCode response.statusCode then .ok ()
  else .error (.failedRequest response)

namespace CosmosClientWrapper

/-- What `throwIfNotSuccess` throws, if anything. -/
def notSuccess (operation : String) (operationResponse : CosmosOperationResponse) (id : Val) :
    Except JsError Unit :=
  if client.isSuccessStatusCode operationResponse.statusCode then .ok ()
  else
    let failed := "The Cosmos DB '" ++ operation ++ "' operation failed."
    let documentId := if id = .undefined then "" else " Document Id: " ++ toStr id
    .error (.error (failed ++ documentId ++ " Response status code: " ++
      operationResponse.statusCode.toStr ++ " Response: " ++ toStr operationResponse.response))

/-- What `handleFailedOperationResponse` answers or throws. -/
def failedOperationResponse (operation : String) (error : SdkError) (throwIfNotSuccess : Bool)
    (id : Val) : Except JsError CosmosOperationResponse :=
  match client.getErrorResponse error with
  | some errorResponse => do
    if throwIfNotSuccess then notSuccess operation errorResponse id
    .ok errorResponse
  | none => .error (.sdk error)

/-- The `catch` of `readItems`. What is no error of the SDK has no `code`, and is
thrown on. -/
def handleFailedQuery (throwIfNotSuccess : Bool) : JsError → Except JsError (QueryResponse τ)
  | .sdk error => do
    let r ← failedOperationResponse "queryItems" error throwIfNotSuccess .undefined
    .ok ⟨none, r.response, r.statusCode, none⟩
  | error => .error error

/-! ## `readItems` -/

/-- The page is there and empty: `readItems` fetches the next one. -/
def isEmptyPage : Option (FeedResponse τ) → Bool
  | some ⟨some [], _⟩ => true
  | _ => false

/-- The `do .. while` of `readItems`. -/
def fetchNextNonEmpty (queryIterator fuel : ℕ) : Paging τ (Option (Option (FeedResponse τ))) :=
  Program.iterate (fun _ : Unit => do
    let partitionQueryResult ← fetchNext queryIterator
    if isEmptyPage partitionQueryResult then pure (some (.inl ()))
    else pure (some (.inr partitionQueryResult))) fuel ()

/-- The response `readItems` makes of the page its loop ended with. -/
def queryResponse : Option (FeedResponse τ) → Except JsError (QueryResponse τ)
  | none => .error (.typeError "Cannot read property 'resources' of undefined")
  | some ⟨none, _⟩ => .ok ⟨some [], .undefined, .code 204, none⟩
  | some ⟨some items, continuationToken⟩ =>
    .ok ⟨some items, .undefined, .code 200, continuationToken⟩

def readItemsPaged (continuationToken : Option τ) (throwIfNotSuccess : Bool) (fuel : ℕ) :
    Paging τ (Option (QueryResponse τ)) :=
  MonadExcept.tryCatch (do
    let queryIterator ← Program.perform (PagingOperation.query continuationToken)
    match ← fetchNextNonEmpty queryIterator fuel with
    | none => pure none
    | some partitionQueryResult =>
      some <$> Program.ofExcept (queryResponse partitionQueryResult))
    fun error => some <$> Program.ofExcept (handleFailedQuery throwIfNotSuccess error)

end CosmosClientWrapper

/-! ## The two consumers -/

/-- `queryDocuments` of the container client, for one query. -/
def queryDocumentsPaged (fuel : ℕ) (continuationToken : Option τ) :
    Paging τ (Option (QueryResponse τ)) :=
  CosmosClientWrapper.readItemsPaged continuationToken true fuel

/-- `yield* items` of an array. -/
def yieldAll : List Val → Paging τ Unit
  | [] => pure ()
  | item :: items => do
    let _ ← Program.perform (PagingOperation.yield item)
    yieldAll items

/-- The items of a response; `undefined` can neither be iterated nor spread. -/
def iterableItems (response : QueryResponse τ) : Except JsError (List Val) :=
  match response.item with
  | some items => .ok items
  | none => .error (.typeError "response.item is not iterable")

/-- What both consumers take from a response: its items, if it reports success. -/
def consumedItems (response : QueryResponse τ) : Except JsError (List Val) := do
  client.ensureSuccess response.toResponse
  iterableItems response

/-- `continuationToken !== undefined` at the end of a turn. -/
def continueWith {β α : Type} (continuationToken : Option τ) (go : Option τ → β) (stop : α) :
    Option (β ⊕ α) :=
  match continuationToken with
  | some token => some (.inl (go (some token)))
  | none => some (.inr stop)

def queryCosmosDbGenerator (fuel : ℕ) : Paging τ (Option Unit) :=
  Program.iterate (fun continuationToken => do
    match ← queryDocumentsPaged fuel continuationToken with
    | none => pure none
    | some response =>
      let items ← Program.ofExcept (consumedItems response)
      yieldAll items
      pure (continueWith response.continuationToken id ())) fuel none

def executeQueryWithContinuationToken
    (execute : Option τ → Paging τ (Option (QueryResponse τ))) (fuel : ℕ) :
    Paging τ (Option (List Val)) :=
  Program.iterate (fun (token, result) => do
    match ← execute token with
    | none => pure none
    | some response =>
      let items ← Program.ofExcept (consumedItems response)
      pure (continueWith response.continuationToken (fun token => (token, result ++ items))
        (result ++ items))) fuel (none, ([] : List Val))

end WebInsights.Cosmos
