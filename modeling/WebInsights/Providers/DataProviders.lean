/-
The data providers: which documents the service keeps, and where it keeps them.

Four types of documents live in two collections. Websites share one partition;
a page, a website scan and a page scan each go to a bucket their own id decides,
by the node part of the id (`createPartitionKeyForDocument`). Ids of children are
made from the id of a parent, so a provider can compute the bucket of a listing
from the parent's id alone.

The three providers of bucketed documents differ in the type, the collection and
the text of one error; each keeps its own functions under the source's names. A
document iterator is the program that yields all its documents. `fnv1a` is the
hash function of the package of that name.
-/
import WebInsights.Common.Hash
import WebInsights.Cosmos.Client

set_option autoImplicit false

namespace WebInsights.Providers

open Common Cosmos Effect Js

/-! ## Item types and partition keys -/

/-- `itemTypes`. -/
inductive ItemType where
  | website
  | page
  | websiteScan
  | pageScan
  deriving DecidableEq

def ItemType.name : ItemType → String
  | .website => "website"
  | .page => "page"
  | .websiteScan => "websiteScan"
  | .pageScan => "pageScan"

/-- `PartitionKey.websiteDocuments`. -/
def websiteDocuments : String := "websiteDocuments"

section

variable (fnv1a : String → ℕ)

/-- `PartitionKeyFactory.createPartitionKeyForDocument`. -/
def createPartitionKeyForDocument (documentType : ItemType) (documentGuid : String) : String :=
  getDbHashBucket fnv1a documentType.name [getGuidNode documentGuid]

/-- The three `normalizeDbDocument` of the bucketed types: the type and the bucket
of the document, under what it says itself. -/
def normalizeBucketed (documentType : ItemType) (noId : String) (document : Fields) :
    Async Fields :=
  match Fields.get document "id" with
  | .undefined => throw (.error noId)
  | .str id => pure (Fields.spread
      [("itemType", .str documentType.name),
        ("partitionKey", .str (createPartitionKeyForDocument fnv1a documentType id))] document)
  | _ => throw (.typeError "guid.replace is not a function")

end

/-- Iterate the documents of a query. -/
def getCosmosQueryResultsIterable (container : Container) (query : SqlQuerySpec) :
    Async (List Val) := do
  let response ← CosmosContainerClient.queryDocuments container query
  client.ensureSuccessStatusCode response
  match response.item with
  | .arr documents => pure documents
  | _ => throw (.typeError "response.item is not iterable")

/-- The first document of a query, and `none` when there is none. -/
def firstQueryResult (container : Container) (query : SqlQuerySpec) (none : Val) : Async Val := do
  let response ← CosmosContainerClient.queryDocuments container query
  client.ensureSuccessStatusCode response
  match response.item with
  | .arr [] => pure none
  | .arr (document :: _) => pure document
  | _ => throw (.typeError "Cannot read property 'length' of undefined")

/-! ## `WebsiteProvider` -/

namespace WebsiteProvider

open CosmosContainerClient

def normalizeDbDocument (website : Fields) (id : Val) : Async Fields :=
  if id = .undefined ∧ Fields.get website "id" = .undefined then
    throw (.error "Website document has no associated id")
  else pure (Fields.spread
    [("id", id), ("itemType", .str ItemType.website.name), ("partitionKey", .str websiteDocuments)]
    website)

def createWebsite (websiteData : Fields) : Async Fields := do
  let guid ← uuidV6
  let websiteDoc ← normalizeDbDocument websiteData (.str guid.text)
  let _ ← writeDocument .websiteData websiteDoc .undefined true
  pure websiteDoc

def deleteWebsite (websiteId : String) : Async Unit :=
  deleteDocument .websiteData (.str websiteId) (.str websiteDocuments)

/-- `[...v]`: the elements of an array, the characters of a string. -/
def iterate : Val → Except JsError (List Val)
  | .arr vs => .ok vs
  | .str s => .ok (s.toList.map fun c => .str (String.singleton c))
  | _ => .error (.typeError "object is not iterable")

/-- The merge of `knownPages`: concat and deduplicate. -/
def mergeKnownPages : CustomMerge := fun target source key =>
  if key = "knownPages" then do
    let targets ← iterate target
    let sources ← iterate source
    pure (uniq (.arr (targets ++ sources)))
  else pure .undefined

def updateWebsite (website : Fields) : Async Val := do
  let websiteDoc ← normalizeDbDocument website .undefined
  let response ← mergeOrWriteDocument .websiteData websiteDoc
    (Fields.get websiteDoc "partitionKey") true (some mergeKnownPages)
  pure response.item

def readWebsite (id : Val) (throwIfNotSuccess : Bool) : Async CosmosOperationResponse :=
  readDocument .websiteData id (.str websiteDocuments) throwIfNotSuccess

end WebsiteProvider

variable (fnv1a : String → ℕ)

/-! ## `PageProvider` -/

namespace PageProvider

open CosmosContainerClient

def getPagePartitionKey (pageOrWebsiteId : String) : String :=
  createPartitionKeyForDocument fnv1a .page pageOrWebsiteId

def normalizeDbDocument (page : Fields) : Async Fields :=
  normalizeBucketed fnv1a .page "Page document has no associated id" page

def createPageForWebsite (pageUrl : Val) (websiteId : String) : Async Fields := do
  let guid ← uuidV6
  let pageDoc ← normalizeDbDocument fnv1a
    [("id", .str (createGuidFromBaseGuid guid.text websiteId)), ("websiteId", .str websiteId),
      ("url", pageUrl)]
  let _ ← writeDocument .websiteData pageDoc .undefined true
  pure pageDoc

def deletePage (pageId : String) : Async Unit :=
  deleteDocument .websiteData (.str pageId) (.str (getPagePartitionKey fnv1a pageId))

def updatePage (page : Fields) : Async Val := do
  let pageDoc ← normalizeDbDocument fnv1a page
  let response ← mergeOrWriteDocument .websiteData pageDoc .undefined true none
  pure response.item

def readPage (id : String) : Async Val := do
  let response ← readDocument .websiteData (.str id) (.str (getPagePartitionKey fnv1a id)) true
  client.ensureSuccessStatusCode response
  pure response.item

/-- `c.partitionKey = @partitionKey and c.websiteId = @websiteId and c.itemType = @itemType` -/
def pagesForWebsiteQuery (websiteId : String) : SqlQuerySpec where
  top1 := false
  conditions := [("partitionKey", "@partitionKey"), ("websiteId", "@websiteId"),
    ("itemType", "@itemType")]
  runStates := []
  orderByTimestamp := false
  parameters := [("@websiteId", .str websiteId),
    ("@partitionKey", .str (getPagePartitionKey fnv1a websiteId)),
    ("@itemType", .str ItemType.page.name)]

def getPagesForWebsite (websiteId : String) : Async (List Val) :=
  getCosmosQueryResultsIterable .websiteData (pagesForWebsiteQuery fnv1a websiteId)

end PageProvider

/-! ## `WebsiteScanProvider` -/

namespace WebsiteScanProvider

open CosmosContainerClient

def defaultPriority : Val := .num 0

def getWebsiteScanPartitionKey (scanOrWebsiteId : String) : String :=
  createPartitionKeyForDocument fnv1a .websiteScan scanOrWebsiteId

def normalizeDbDocument (websiteScan : Fields) : Async Fields :=
  normalizeBucketed fnv1a .websiteScan "Website scan document has no id" websiteScan

def createScanDocumentForWebsite (websiteId : String) (scanType frequency priority : Val) :
    Async Fields := do
  let guid ← uuidV6
  let websiteScanDoc ← normalizeDbDocument fnv1a
    [("id", .str (createGuidFromBaseGuid guid.text websiteId)), ("websiteId", .str websiteId),
      ("scanType", scanType), ("scanFrequency", frequency), ("scanStatus", .str "pending"),
      ("priority", priority.nullish defaultPriority)]
  let _ ← writeDocument .scanMetadata websiteScanDoc .undefined true
  pure websiteScanDoc

def updateWebsiteScan (websiteScan : Fields) : Async Val := do
  let websiteScanDoc ← normalizeDbDocument fnv1a websiteScan
  let response ← mergeOrWriteDocument .scanMetadata websiteScanDoc .undefined true none
  pure response.item

def readWebsiteScan (id : String) (throwIfNotSuccess : Bool) : Async CosmosOperationResponse :=
  readDocument .scanMetadata (.str id) (.str (getWebsiteScanPartitionKey fnv1a id))
    throwIfNotSuccess

/-- `c.partitionKey = @partitionKey and c.websiteId = @websiteId and c.itemType = @itemType` -/
def scansForWebsiteQuery (websiteId : String) : SqlQuerySpec where
  top1 := false
  conditions := [("partitionKey", "@partitionKey"), ("websiteId", "@websiteId"),
    ("itemType", "@itemType")]
  runStates := []
  orderByTimestamp := false
  parameters := [("@websiteId", .str websiteId),
    ("@partitionKey", .str (getWebsiteScanPartitionKey fnv1a websiteId)),
    ("@itemType", .str ItemType.websiteScan.name)]

def getScansForWebsite (websiteId : String) : Async (List Val) :=
  getCosmosQueryResultsIterable .scanMetadata (scansForWebsiteQuery fnv1a websiteId)

/-- The same, `and c.scanType = @scanType ORDER BY c._ts DESC`, the first one. -/
def latestScanForWebsiteQuery (websiteId : String) (scanType : Val) : SqlQuerySpec where
  top1 := true
  conditions := [("partitionKey", "@partitionKey"), ("websiteId", "@websiteId"),
    ("itemType", "@itemType"), ("scanType", "@scanType")]
  runStates := []
  orderByTimestamp := true
  parameters := [("@websiteId", .str websiteId),
    ("@partitionKey", .str (getWebsiteScanPartitionKey fnv1a websiteId)),
    ("@itemType", .str ItemType.websiteScan.name), ("@scanType", scanType)]

def getLatestScanForWebsite (websiteId : String) (scanType : Val) : Async Val :=
  firstQueryResult .scanMetadata (latestScanForWebsiteQuery fnv1a websiteId scanType) .null

end WebsiteScanProvider

/-! ## `PageScanProvider` -/

namespace PageScanProvider

open CosmosContainerClient

def getPageScanPartitionKey (guid : String) : String :=
  createPartitionKeyForDocument fnv1a .pageScan guid

def normalizeDbDocument (pageScan : Fields) : Async Fields :=
  normalizeBucketed fnv1a .pageScan "Page scan document has no id" pageScan

def createPageScan (pageId websiteScanId : String) (priority : Val) : Async Fields := do
  let guid ← uuidV6
  let pageScanDocument ← normalizeDbDocument fnv1a
    [("id", .str (createGuidFromBaseGuid guid.text pageId)), ("pageId", .str pageId),
      ("websiteScanId", .str websiteScanId), ("priority", priority),
      ("run", .obj [("state", .str "pending")])]
  -- the document is normalized once more before it is written
  let written ← normalizeDbDocument fnv1a pageScanDocument
  let _ ← writeDocument .scanMetadata written .undefined true
  pure pageScanDocument

def updatePageScan (pageScan : Fields) : Async Val := do
  let pageScanDoc ← normalizeDbDocument fnv1a pageScan
  let response ← mergeOrWriteDocument .scanMetadata pageScanDoc .undefined true none
  pure response.item

def readPageScan (id : String) : Async Val := do
  let response ← readDocument .scanMetadata (.str id) (.str (getPageScanPartitionKey fnv1a id))
    true
  client.ensureSuccessStatusCode response
  pure response.item

/-- `c.partitionKey = @partitionKey and c.itemType = @itemType
and c.websiteScanId = @websiteScanId` -/
def allPageScansQuery (websiteScanId : String) : SqlQuerySpec where
  top1 := false
  conditions := [("partitionKey", "@partitionKey"), ("itemType", "@itemType"),
    ("websiteScanId", "@websiteScanId")]
  runStates := []
  orderByTimestamp := false
  parameters := [("@partitionKey", .str (getPageScanPartitionKey fnv1a websiteScanId)),
    ("@itemType", .str ItemType.pageScan.name), ("@websiteScanId", .str websiteScanId)]

def getAllPageScansForWebsiteScan (websiteScanId : String) : Async (List Val) :=
  getCosmosQueryResultsIterable .scanMetadata (allPageScansQuery fnv1a websiteScanId)

/-- The same, `and c.pageId = @pageId`, of the completed runs only if asked, `ORDER BY
c._ts DESC`, the first one. -/
def latestPageScanQuery (websiteScanId pageId : String) (completed : Bool) : SqlQuerySpec where
  top1 := true
  conditions := [("partitionKey", "@partitionKey"), ("itemType", "@itemType"),
    ("websiteScanId", "@websiteScanId"), ("pageId", "@pageId")]
  runStates := if completed then ["completed", "failed"] else []
  orderByTimestamp := true
  parameters := [("@partitionKey", .str (getPageScanPartitionKey fnv1a websiteScanId)),
    ("@itemType", .str ItemType.pageScan.name), ("@websiteScanId", .str websiteScanId),
    ("@pageId", .str pageId)]

def getLatestPageScan (websiteScanId pageId : String) (completed : Bool) : Async Val :=
  firstQueryResult .scanMetadata (latestPageScanQuery fnv1a websiteScanId pageId completed)
    .undefined

end PageScanProvider

end WebInsights.Providers
