/-
`CosmosClientWrapper` and `CosmosContainerClient`: the storage client of the
service.

The wrapper turns the SDK's errors into responses. An error with a `code`
becomes a response with that `statusCode` and no item, and is thrown only where
the caller asked for it; an error with no `code` is thrown on. A point read of
a document that is not there is no error for the SDK, so `readItem` answers 404
for it whatever the caller asked for. The container client adds the merge of a
document into the stored one.

The methods take the collection they work on where the source has the client of
that collection. Log lines are left out. `readItems` answers all pages of a
query together.
-/
import WebInsights.Cosmos.World
import WebInsights.Js.Merge

set_option autoImplicit false

namespace WebInsights.Cosmos

open Effect Js

/-! ## `client` -/

namespace client

/-- `statusCode >= 200 && statusCode <= 299`; the name of a network error is not a
number. -/
def isSuccessStatusCode : StatusCode → Bool
  | .code n => 200 ≤ n ∧ n ≤ 299
  | .name _ => false

def ensureSuccessStatusCode (response : CosmosOperationResponse) : Async Unit :=
  if isSuccessStatusCode response.statusCode then pure ()
  else throw (.failedRequest response)

def getErrorResponse (error : SdkError) : Option CosmosOperationResponse :=
  error.code.map fun code => ⟨.undefined, .str error.message, code⟩

end client

/-! ## `CosmosClientWrapper` -/

def StatusCode.toStr : StatusCode → String
  | .code n => toString n
  | .name s => s

namespace CosmosClientWrapper

def throwIfNotSuccess (operation : String) (operationResponse : CosmosOperationResponse)
    (id : Val) : Async Unit :=
  if client.isSuccessStatusCode operationResponse.statusCode then pure ()
  else
    let failed := "The Cosmos DB '" ++ operation ++ "' operation failed."
    let documentId := if id = .undefined then "" else " Document Id: " ++ toStr id
    throw (.error (failed ++ documentId ++ " Response status code: " ++
      operationResponse.statusCode.toStr ++ " Response: " ++ toStr operationResponse.response))

def handleFailedOperationResponse (operation : String) (error : SdkError)
    (throwIfNotSuccess : Bool) (id : Val) : Async CosmosOperationResponse :=
  match client.getErrorResponse error with
  | some errorResponse => do
    if throwIfNotSuccess then
      CosmosClientWrapper.throwIfNotSuccess operation errorResponse id
    pure errorResponse
  | none => throw (.sdk error)

/-- `item.partitionKey = partitionKey`, unless the key is empty. -/
def assignPartitionKey (item : Fields) (partitionKey : Val) : Fields :=
  if isEmpty partitionKey then item else Fields.set item "partitionKey" partitionKey

/-- The `IfMatch` condition: the item's own etag. -/
def getOptions (item : Fields) : Option Val :=
  if Fields.get item "_etag" = .undefined then none else some (Fields.get item "_etag")

def upsertItem (container : Container) (item : Fields) (partitionKey : Val)
    (throwIfNotSuccess : Bool) : Async CosmosOperationResponse := do
  let item := assignPartitionKey item partitionKey
  match ← request container (.upsert item (getOptions item)) with
  | .ok response => pure ⟨response.resource, .undefined, .code 200⟩
  | .error error =>
    handleFailedOperationResponse "upsertItem" error throwIfNotSuccess (Fields.get item "id")

def readItem (container : Container) (id partitionKey : Val) (throwIfNotSuccess : Bool) :
    Async CosmosOperationResponse := do
  match ← request container (.read id partitionKey) with
  | .ok response => pure ⟨response.resource, .undefined, response.statusCode⟩
  | .error error => handleFailedOperationResponse "readItem" error throwIfNotSuccess id

def readItems (container : Container) (query : SqlQuerySpec) (throwIfNotSuccess : Bool) :
    Async CosmosOperationResponse := do
  match ← request container (.query query) with
  -- the iterator skips empty pages, and runs out of pages when there is no other
  | .ok ⟨.arr [], _⟩ => pure ⟨.arr [], .undefined, .code 204⟩
  | .ok response => pure ⟨response.resource, .undefined, .code 200⟩
  | .error error => handleFailedOperationResponse "queryItems" error throwIfNotSuccess .undefined

def deleteItem (container : Container) (id partitionKey : Val) (throwIfNotSuccess : Bool) :
    Async CosmosOperationResponse := do
  match ← request container (.delete id partitionKey) with
  | .ok response => pure ⟨response.resource, .undefined, .code 200⟩
  | .error error => handleFailedOperationResponse "deleteItem" error throwIfNotSuccess id

end CosmosClientWrapper

/-! ## `CosmosContainerClient` -/

namespace CosmosContainerClient

open CosmosClientWrapper

variable (container : Container)

/-- The key a document is read and written under: the parameter if there is one,
else the document's own. -/
def effectivePartitionKey (document : Fields) (partitionKey : Val) : Val :=
  if partitionKey ≠ .undefined then partitionKey else Fields.get document "partitionKey"

def getEffectivePartitionKey (document : Fields) (partitionKey : Val) : Async Val :=
  if effectivePartitionKey document partitionKey = .undefined then
    throw (.error ("Storage operation require partition key defined either as part of the " ++
      "document or as an operation parameter."))
  else pure (effectivePartitionKey document partitionKey)

def readDocument (documentId partitionKey : Val) (throwIfNotSuccess : Bool) :
    Async CosmosOperationResponse :=
  readItem container documentId partitionKey throwIfNotSuccess

def queryDocuments (query : SqlQuerySpec) : Async CosmosOperationResponse :=
  readItems container query true

def deleteDocument (id partitionKey : Val) : Async Unit := do
  let _ ← deleteItem container id partitionKey true

def writeDocument (document : Fields) (partitionKey : Val) (throwIfNotSuccess : Bool) :
    Async CosmosOperationResponse := do
  let effectivePartitionKey ← getEffectivePartitionKey document partitionKey
  upsertItem container document effectivePartitionKey throwIfNotSuccess

/-- What `mergeOrWriteDocument` asks its caller about a property: source value,
stored value and key. The answer `undefined` leaves the property to it. -/
abbrev CustomMerge : Type := Customizer JsError

/-- The customizer `mergeOrWriteDocument` hands to `_.mergeWith`. -/
def mergeCustomizer (customMerge : Option CustomMerge) : Customizer JsError :=
  fun target source key => do
    let customMergeResult ← match customMerge with
      | some customMerge => customMerge source target key
      | none => pure .undefined
    if customMergeResult ≠ .undefined then pure customMergeResult
    -- preserve the storage document _etag value
    else if key = "_etag" then pure target
    -- deduplicate and overwrite array fields
    else if isArray target then pure (uniq source)
    else pure .undefined

mutual

/-- What normalization makes of one property. -/
def normalizeValue : Val → Val
  | .scalar .null => .undefined
  | .scalar s => .scalar s
  | .arr vs => .arr vs
  | .obj fs => .obj (normalizeFields fs)
termination_by structural v => v

def normalizeFields : List (String × Val) → List (String × Val)
  | [] => []
  | (k, v) :: fs => (k, normalizeValue v) :: normalizeFields fs
termination_by structural fs => fs

end

/-- `_.mapValues` of what is no object is an empty one. -/
def getNormalizeMergedDocument : Val → Fields
  | .obj fs => normalizeFields fs
  | _ => []

/-- `_.mergeWith(document, ..)` as a statement: an object is changed in place, and
`undefined` stays what it is. -/
def mergedInPlace (document merged : Val) : Val :=
  match document with
  | .obj _ => merged
  | document => document

/-- The document the merge branch hands to `upsertItem`, from the item that was
read. -/
def mergedDocument (item : Val) (document : Fields) (customMerge : Option CustomMerge) :
    Except JsError Fields := do
  let merged ← mergeWith item (.obj document) (mergeCustomizer customMerge)
  -- normalize document properties by converting from null to undefined
  pure (getNormalizeMergedDocument (mergedInPlace item merged))

/-- What `mergeOrWriteDocument` does with the answer to its read. -/
def mergeOrWrite (document : Fields) (effectivePartitionKey : Val) (throwIfNotSuccess : Bool)
    (customMerge : Option CustomMerge) (response : CosmosOperationResponse) :
    Async CosmosOperationResponse :=
  if response.statusCode = .code 404 then
    upsertItem container document effectivePartitionKey throwIfNotSuccess
  else do
    let normalizedDocument ←
      Program.ofExcept (mergedDocument response.item document customMerge)
    upsertItem container normalizedDocument effectivePartitionKey throwIfNotSuccess

def mergeOrWriteDocument (document : Fields) (partitionKey : Val) (throwIfNotSuccess : Bool)
    (customMerge : Option CustomMerge) : Async CosmosOperationResponse :=
  if Fields.get document "id" = .undefined then
    throw (.reason ("Document id property is undefined. Storage document merge operation " ++
      "must have a valid document id property value."))
  else do
    let effectivePartitionKey ← getEffectivePartitionKey document partitionKey
    let response ← readItem container (Fields.get document "id") effectivePartitionKey false
    mergeOrWrite container document effectivePartitionKey throwIfNotSuccess customMerge response

/-- The merges `mergeOrWriteDocuments` starts, at most `maxConcurrencyLimit` of
them at a time. -/
def mergeOrWriteDocuments (documents : List Fields) (partitionKey : Val) :
    List (Async CosmosOperationResponse) :=
  documents.map fun document => mergeOrWriteDocument container document partitionKey true none

end CosmosContainerClient

end WebInsights.Cosmos
