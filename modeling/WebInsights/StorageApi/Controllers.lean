/-
The controllers of the storage API and the validators in front of them.

A handler takes the request and `context.res` as validation left it, and returns
`context.res`. The route of a function binds its parameters, so `bindingData` has them; one that
is not bound is the empty text here. The parser of cron expressions is the one of
the package `cron-parser`, of which the validator asks only whether it throws.
Log lines are left out.
-/
import WebInsights.StorageApi.Converters
import WebInsights.WebApi.ApiRequest
import WebInsights.WebApi.Contracts
import WebInsights.WebApi.WebController

set_option autoImplicit false

namespace WebInsights.StorageApi

open Common Cosmos Effect Js Providers WebApi

/-- `restApiConfig`. -/
structure RestApiConfig where
  minScanPriorityValue : ℤ
  maxScanPriorityValue : ℤ
  defaultA11yScanFrequency : String

/-- What the code of the storage API uses of its surroundings: the hash of the partition
keys, the cron parser and the configuration. -/
structure Environment where
  fnv1a : String → ℕ
  /-- `cronParser.parseExpression(expression)` does not throw. -/
  parsesExpression : String → Bool
  restApiConfig : RestApiConfig

/-- `context.bindingData[name]`. -/
def bindingData (context : Context) (name : String) : String :=
  (context.bindingData.lookup name).getD ""

/-! ## Validators -/

/-- The request does not pass: the error it is answered with. -/
def refuse (error : WebApiErrorCode) : Bool × Option HttpResponse :=
  (false, some (getErrorResponse error))

/-- `super.validateRequest`, and then the checks of a validator. -/
def validateRequest (context : Context) (res : Option HttpResponse)
    (checks : Option HttpResponse → Bool × Option HttpResponse) : Bool × Option HttpResponse :=
  let base := ApiRequestValidator.validateRequest ["1.0"] context res
  if base.1 = false then base else checks base.2

/-- `guidGenerator.isValidV6Guid` of what may be no text. -/
def isValidV6GuidVal : Val → Bool
  | .str guid => isValidV6Guid guid
  | _ => false

def PostWebsiteRequestValidator.validateRequest (context : Context) (res : Option HttpResponse) :
    Bool × Option HttpResponse :=
  StorageApi.validateRequest context res fun res =>
    let payload := tryGetPayload context res
    -- existing page documents will not be updated through this endpoint
    if !isValidWebsiteObject payload.1 || payload.1.get "pages" ≠ .undefined then
      refuse WebApiErrorCodes.malformedRequest
    else if payload.1.get "id" ≠ .undefined && !isValidV6GuidVal (payload.1.get "id") then
      refuse WebApiErrorCodes.invalidResourceId
    else (true, payload.2)

def GetWebsiteRequestValidator.validateRequest (context : Context) (res : Option HttpResponse) :
    Bool × Option HttpResponse :=
  StorageApi.validateRequest context res fun res =>
    if bindingData context "websiteId" = "" ∨
        isValidV6Guid (bindingData context "websiteId") = false then
      refuse WebApiErrorCodes.invalidResourceId
    else (true, res)

namespace PostWebsiteScanRequestValidator

variable (env : Environment)

def hasInvalidFrequencyExpression (websiteScanRequest : Val) : Bool :=
  match websiteScanRequest.get "scanFrequency" with
  | .undefined => false
  | .str frequency => !env.parsesExpression frequency
  | _ => true

def isInvalidScanPriority (priority : Val) : Bool :=
  match priority with
  | .num n =>
    n < env.restApiConfig.minScanPriorityValue || n > env.restApiConfig.maxScanPriorityValue
  | _ => false

def validateRequest (context : Context) (res : Option HttpResponse) :
    Bool × Option HttpResponse :=
  StorageApi.validateRequest context res fun res =>
    let payload := tryGetPayload context res
    if !isValidWebsiteScanRequestObject payload.1 || payload.1.get "websiteId" = .undefined then
      refuse WebApiErrorCodes.malformedRequest
    else if !isValidV6GuidVal (payload.1.get "websiteId") then
      refuse WebApiErrorCodes.invalidResourceId
    else if hasInvalidFrequencyExpression env payload.1 then
      refuse WebApiErrorCodes.invalidFrequencyExpression
    else if isInvalidScanPriority env (payload.1.get "priority") then
      refuse WebApiErrorCodes.outOfRangePriority
    else (true, payload.2)

end PostWebsiteScanRequestValidator

namespace GetWebsiteScanRequestValidator

def latestScanTag : String := "latest"

def isInvalidWebsiteId (websiteId : String) : Bool :=
  websiteId = "" || !isValidV6Guid websiteId

def isInvalidScanTarget (scanIdOrLatest : String) : Bool :=
  scanIdOrLatest = "" || (!isValidV6Guid scanIdOrLatest && scanIdOrLatest ≠ latestScanTag)

def validateRequest (context : Context) (res : Option HttpResponse) :
    Bool × Option HttpResponse :=
  StorageApi.validateRequest context res fun res =>
    if isInvalidWebsiteId (bindingData context "websiteId") ||
        isInvalidScanTarget (bindingData context "scanIdOrLatest") then
      refuse WebApiErrorCodes.invalidResourceId
    else if !isValidScanType (.str (bindingData context "scanType")) then
      refuse WebApiErrorCodes.invalidScanType
    else (true, res)

end GetWebsiteScanRequestValidator

def PostPageRequestValidator.validateRequest (context : Context) (res : Option HttpResponse) :
    Bool × Option HttpResponse :=
  StorageApi.validateRequest context res fun res =>
    let payload := tryGetPayload context res
    if !isValidPageUpdateObject payload.1 then refuse WebApiErrorCodes.malformedRequest
    else if payload.1.get "pageId" = .undefined || !isValidV6GuidVal (payload.1.get "pageId") then
      refuse WebApiErrorCodes.invalidResourceId
    else (true, payload.2)

/-- `WebApiConfig`: the release of the service, where it is known. -/
structure WebApiConfig where
  releaseId : Option String

def GetHealthReportRequestValidator.validateRequest (webApiConfig : WebApiConfig)
    (context : Context) (res : Option HttpResponse) : Bool × Option HttpResponse :=
  StorageApi.validateRequest context res fun res =>
    match context.bindingData.lookup "target" with
    | none => (true, res)
    | some target =>
      if target ≠ "release" then refuse WebApiErrorCodes.resourceNotFound
      else if webApiConfig.releaseId = none ∧ context.bindingData.lookup "releaseId" = none then
        refuse WebApiErrorCodes.missingReleaseId
      else (true, res)

/-! ## Controllers -/

/-- An id on its way into a partition key: `guid.replace(..)` throws on what is no text. -/
def guidText (guid : Val) : Except JsError String := do
  let _ ← property guid "replace"
  match guid with
  | .str guid => pure guid
  | _ => throw (.typeError "guid.replace is not a function")

section

variable (env : Environment)

namespace PostWebsiteController

/-- The website document, and whether it was created. -/
def createOrUpdateWebsite (websiteRequest : Val) : Async (Val × Bool) := do
  let id ← Program.ofExcept (property websiteRequest "id")
  if id = .undefined then
    let websiteDoc ← WebsiteProvider.createWebsite (ownFields websiteRequest)
    pure (.obj websiteDoc, true)
  else
    let websiteDoc ← WebsiteProvider.updateWebsite (ownFields websiteRequest)
    pure (websiteDoc, false)

/-- Create a page document, and convert it. -/
def createNewPage (websiteId : String) (url : Val) : Async Fields := do
  let pageDoc ← PageProvider.createPageForWebsite env.fnv1a url websiteId
  Program.ofExcept (createPageApiObject (.obj pageDoc))

/-- The known pages of the response that have no page document yet. -/
def newPageUrls (websiteResponse : WebsiteResponse) : List Val :=
  difference (arrayTarget (Fields.get websiteResponse.website "knownPages"))
    (websiteResponse.pages.map fun page => Fields.get page "url")

/-- Create the page documents that are missing, and push them to the response. The source starts
all of them at once and pushes each as it is done; here one is created after another, in the order
of the urls. -/
def createNewPages (websiteId : String) (websiteResponse : WebsiteResponse) :
    Async (WebsiteResponse × Bool) := do
  let pages ← Program.all ((newPageUrls websiteResponse).map (createNewPage env websiteId))
  pure ({ websiteResponse with pages := websiteResponse.pages ++ pages },
    !(newPageUrls websiteResponse).isEmpty)

def handleRequest (context : Context) (res : Option HttpResponse) :
    Async (Option HttpResponse) := do
  let websiteRequest := (tryGetPayload context res).1
  let (websiteDocument, websiteCreated) ← createOrUpdateWebsite websiteRequest
  let websiteId ← Program.ofExcept (property websiteDocument "id")
  let websiteId ← Program.ofExcept (guidText websiteId)
  let websiteResponse ← createWebsiteApiResponse websiteDocument
    (PageProvider.getPagesForWebsite env.fnv1a websiteId)
  let (websiteResponse, pagesCreated) ← createNewPages env websiteId websiteResponse
  let status := if websiteCreated || pagesCreated then 201 else 200
  pure (some ⟨some status, none, websiteResponse.body⟩)

end PostWebsiteController

def GetWebsiteController.handleRequest (context : Context) (_ : Option HttpResponse) :
    Async (Option HttpResponse) := do
  let websiteId := bindingData context "websiteId"
  let websiteResponse ← WebsiteProvider.readWebsite (.str websiteId) false
  if websiteResponse.statusCode = .code 404 then
    pure (some (getErrorResponse WebApiErrorCodes.resourceNotFound))
  else if client.isSuccessStatusCode websiteResponse.statusCode = false then
    pure (some (getErrorResponse WebApiErrorCodes.internalError))
  else do
    let websiteResponseBody ← createWebsiteApiResponse websiteResponse.item
      (PageProvider.getPagesForWebsite env.fnv1a websiteId)
    pure (some ⟨some 200, none, websiteResponseBody.body⟩)

namespace PostWebsiteScanController

/-- The website document, or the response that says why there is none. -/
def tryReadWebsite (websiteId : Val) : Async (Except HttpResponse Val) := do
  let websiteResponse ← WebsiteProvider.readWebsite websiteId false
  if websiteResponse.statusCode = .code 404 then
    pure (.error (getErrorResponse WebApiErrorCodes.resourceNotFound))
  else if client.isSuccessStatusCode websiteResponse.statusCode = false then
    pure (.error (getErrorResponse WebApiErrorCodes.internalError))
  else pure (.ok websiteResponse.item)

/-- `restApiConfig[defaultFrequencyKeys[scanType]]`: only scans of accessibility have a
default. -/
def defaultScanFrequency (scanType : Val) : Option String :=
  if scanType = .str "a11y" then some env.restApiConfig.defaultA11yScanFrequency else none

def getScanFrequency (websiteScanRequest : Val) : Except JsError Val :=
  if websiteScanRequest.get "scanFrequency" ≠ .undefined then
    pure (websiteScanRequest.get "scanFrequency")
  else
    match defaultScanFrequency env (websiteScanRequest.get "scanType") with
    | some frequency => pure (.str frequency)
    | none => throw (.error ("No default scan frequency is implemented for scan type: " ++
        toStr (websiteScanRequest.get "scanType")))

/-- `websiteScanRequest.priority ?? website.priority`: the website is looked at only if the
request has no priority. -/
def getScanPriority (websiteScanRequest website : Val) : Except JsError Val :=
  match websiteScanRequest.get "priority" with
  | .undefined | .null => property website "priority"
  | priority => pure priority

def handleRequest (context : Context) (res : Option HttpResponse) :
    Async (Option HttpResponse) := do
  let websiteScanRequest := (tryGetPayload context res).1
  let websiteId ← Program.ofExcept (property websiteScanRequest "websiteId")
  match ← tryReadWebsite websiteId with
  | .error res => pure (some res)
  | .ok website => do
    let frequency ← Program.ofExcept (getScanFrequency env websiteScanRequest)
    let priority ← Program.ofExcept (getScanPriority websiteScanRequest website)
    let websiteId ← Program.ofExcept (guidText websiteId)
    let websiteScanDocument ← WebsiteScanProvider.createScanDocumentForWebsite env.fnv1a websiteId
      (websiteScanRequest.get "scanType") frequency priority
    let responseBody ← Program.ofExcept (createWebsiteScanApiObject (.obj websiteScanDocument))
    pure (some ⟨some 201, none, .obj responseBody⟩)

end PostWebsiteScanController

namespace GetWebsiteScanController

open GetWebsiteScanRequestValidator (latestScanTag)

/-- The scan document, or the response that says why there is none. -/
def getScanWithId (scanId : String) : Async (Except HttpResponse Val) := do
  let websiteDocumentResponse ← WebsiteScanProvider.readWebsiteScan env.fnv1a scanId false
  if client.isSuccessStatusCode websiteDocumentResponse.statusCode = true then
    pure (.ok websiteDocumentResponse.item)
  else if websiteDocumentResponse.statusCode = .code 404 then
    pure (.error (getErrorResponse WebApiErrorCodes.resourceNotFound))
  else pure (.error (getErrorResponse WebApiErrorCodes.internalError))

def getLatestWebsiteScan (websiteId scanType : String) : Async (Except HttpResponse Val) := do
  let websiteDocument ← WebsiteScanProvider.getLatestScanForWebsite env.fnv1a websiteId
    (.str scanType)
  match websiteDocument with
  | .undefined | .null => pure (.error (getErrorResponse WebApiErrorCodes.resourceNotFound))
  | websiteDocument => pure (.ok websiteDocument)

def getPageForScan (pageScan : Val) : Async Val := do
  let pageId ← Program.ofExcept (property pageScan "pageId")
  let pageId ← Program.ofExcept (guidText pageId)
  PageProvider.readPage env.fnv1a pageId

/-- The response for a scan document that was found. -/
def respond (websiteScanDocument : Val) : Async (Option HttpResponse) := do
  let scanId ← Program.ofExcept (property websiteScanDocument "id")
  let scanId ← Program.ofExcept (guidText scanId)
  let websiteScanResponseObj ← createWebsiteScanApiResponse websiteScanDocument
    (PageScanProvider.getAllPageScansForWebsiteScan env.fnv1a scanId) (getPageForScan env)
  pure (some ⟨some 200, none, .obj websiteScanResponseObj⟩)

/-- The latest scan of the website, or the scan with the id. -/
def getWebsiteScan (context : Context) : Async (Except HttpResponse Val) :=
  if bindingData context "scanIdOrLatest" = latestScanTag then
    getLatestWebsiteScan env (bindingData context "websiteId") (bindingData context "scanType")
  else getScanWithId env (bindingData context "scanIdOrLatest")

def handleRequest (context : Context) (_ : Option HttpResponse) : Async (Option HttpResponse) := do
  match ← getWebsiteScan env context with
  | .error res => pure (some res)
  | .ok websiteScanDocument => respond env websiteScanDocument

end GetWebsiteScanController

def PostPageController.handleRequest (context : Context) (res : Option HttpResponse) :
    Async (Option HttpResponse) := do
  let payload := (tryGetPayload context res).1
  let pageId ← Program.ofExcept (property payload "pageId")
  let pageUpdateData := Fields.without (ownFields payload) "pageId"
  let found ← tryCatch
    (do
      let pageId ← Program.ofExcept (guidText pageId)
      let _ ← PageProvider.readPage env.fnv1a pageId
      pure true)
    fun _ => pure false
  if found then
    let pageDoc ← PageProvider.updatePage env.fnv1a (Fields.spread [("id", pageId)] pageUpdateData)
    let body ← Program.ofExcept (createPageApiResponse pageDoc)
    pure (some ⟨some 200, none, .obj body⟩)
  else pure (some (getErrorResponse WebApiErrorCodes.resourceNotFound))

end

end WebInsights.StorageApi
