/-
The converters from documents to response bodies.

A converter copies the properties it lists, one by one; what a document does not
have comes out as `undefined` and is left out of the JSON that is sent. A website
and a website scan come with the documents of a query, converted while the query
is iterated.
-/
import WebInsights.Providers.DataProviders

set_option autoImplicit false

namespace WebInsights.StorageApi

open Cosmos Effect Js

/-- `{ k: document.k, .. }` for the listed properties. -/
def copyProperties (document : Val) (ks : List String) : Fields :=
  ks.map fun k => (k, document.get k)

/-- The same for what may be no document at all: the first property read is the id, and
reading it throws. -/
def convert (document : Val) (ks : List String) : Except JsError Fields := do
  let _ ← property document "id"
  pure (copyProperties document ks)

/-! ## Pages and page scans -/

def pageProperties : List String := ["id", "url", "lastScanTimestamp", "disabledScans"]

def createPageApiObject (pageDocument : Val) : Except JsError Fields :=
  convert pageDocument pageProperties

def createPageApiResponse (pageDocument : Val) : Except JsError Fields := do
  let page ← createPageApiObject pageDocument
  pure (Fields.spread page [("websiteId", pageDocument.get "websiteId")])

def createPageScanApiObject (pageScanDocument pageDocument : Val) : Except JsError Fields := do
  let id ← property pageScanDocument "id"
  let page ← createPageApiObject pageDocument
  pure ([("id", id), ("page", .obj page)] ++
    copyProperties pageScanDocument ["priority", "reports", "result", "run"])

/-! ## Websites -/

def websiteProperties : List String :=
  ["id", "name", "baseUrl", "priority", "discoveryPatterns", "knownPages", "scanners", "domainId",
    "owners", "orgCvp", "usingUhf", "compliant", "enableCrawler", "deleted", "divisionId",
    "stateId", "noBanner", "noBannerReasonId", "serviceTreeId", "notes", "alias",
    "organizationId", "celaAccessibilityContacts", "privacyEGRCExceptionId",
    "A11yEGRCExceptionId", "optOutSecurityReason", "isCustomBanner", "isMicrosoftOwned",
    "requireAuthentication", "manageCookieXpath", "isCookieManagable"]

/-- A website with the pages that were pushed to it so far. -/
structure WebsiteResponse where
  website : Fields
  pages : List Fields

def WebsiteResponse.body (response : WebsiteResponse) : Val :=
  .obj (response.website ++ [("pages", .arr (response.pages.map .obj))])

/-- Convert the documents of an iterable that are not `undefined`. -/
def convertAll (convertDocument : Val → Async Fields) (documents : List Val) :
    Async (List Fields) :=
  match documents with
  | [] => pure []
  | document :: documents =>
    if document = .undefined then convertAll convertDocument documents
    else do
      let object ← convertDocument document
      let objects ← convertAll convertDocument documents
      pure (object :: objects)

def createWebsiteApiResponse (websiteDocument : Val) (pagesIterable : Async (List Val)) :
    Async WebsiteResponse := do
  let website ← Program.ofExcept (convert websiteDocument websiteProperties)
  let pages ← convertAll (fun page => Program.ofExcept (createPageApiObject page))
    (← pagesIterable)
  pure ⟨website, pages⟩

/-! ## Website scans -/

def websiteScanProperties : List String :=
  ["id", "websiteId", "scanType", "scanFrequency", "scanStatus", "priority", "notificationUrl",
    "reports"]

/-- Without the page scans. -/
def createWebsiteScanApiObject (websiteScanDocument : Val) : Except JsError Fields :=
  convert websiteScanDocument websiteScanProperties

/-- With the page scans of the iterable, each with its page. -/
def createWebsiteScanApiResponse (websiteScanDocument : Val) (pageScansIterable : Async (List Val))
    (getPageForScan : Val → Async Val) : Async Fields := do
  let websiteScan ← Program.ofExcept (createWebsiteScanApiObject websiteScanDocument)
  let pageScans ← convertAll
    (fun pageScan => do
      let page ← getPageForScan pageScan
      Program.ofExcept (createPageScanApiObject pageScan page))
    (← pageScansIterable)
  pure (websiteScan ++ [("pageScans", .arr (pageScans.map .obj))])

end WebInsights.StorageApi
