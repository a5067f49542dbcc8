/-
`WebInsightsStorageClient` and `WebInsightsAPICredential`.

Every method of the client sends one request, and tries it again when something is thrown. A
try acquires a token first, which is itself tried several times, and signs the request with it;
what is thrown once these tries have run out is thrown by the try. The agents, the parsing of a
response, the certificate options and the repeats of a GET request are the business of `got`, one
call of which is one `send`, and left out, as are the id, the secret and the authority the
identity client is made with.
-/
import WebInsights.Common.Tries
import WebInsights.Js.Value

set_option autoImplicit false

namespace WebInsights.StorageApiClient

open Common Effect Js

/-! ## What is awaited -/

/-- `AuthenticationResult`, as far as it is read. -/
structure AuthenticationResult where
  tokenType : String
  accessToken : String
  deriving DecidableEq

inductive Method where
  | get
  | post
  deriving DecidableEq

/-- A request with the options `got` is given for it. -/
structure HttpRequest where
  method : Method
  url : String
  /-- The option `json`, if it is given. -/
  json : Option Val
  searchParams : List (String × String)
  headers : List (String × String)
  throwHttpErrors : Bool
  deriving DecidableEq

inductive ClientOperation where
  | acquireTokenByClientCredential (scopes : List String)
  | send (request : HttpRequest)
  | logError (message : String) (properties : List (String × String))
  | sleep (milliseconds : ℚ)

abbrev ClientOperation.Result : ClientOperation → Type
  /- The identity client may find no token. -/
  | .acquireTokenByClientCredential _ => Except Thrown (Option AuthenticationResult)
  | .send _ => Except Thrown Val
  | .logError _ _ => Unit
  | .sleep _ => Unit

/-- An `async` function that throws `ε`. -/
abbrev AsyncClient (ε α : Type) : Type := Program ClientOperation ClientOperation.Result ε α

/-- What the texts of errors are, with their stacks. -/
structure ErrorTexts where
  /-- `System.serializeError`. -/
  serializeError : LastError → String
  /-- `JSON.stringify({ name: 'RetryError', message, stack })`. -/
  retryErrorJson : Option String → String

variable (texts : ErrorTexts)

/-! ## The token -/

structure WebInsightsAPICredential where
  resourceClientId : String
  maxTokenAttempts : ℕ := 5
  msecBetweenRetries : ℚ := 1000

namespace WebInsightsAPICredential

variable (credential : WebInsightsAPICredential)

def tokenScope : String := "api://" ++ credential.resourceClientId ++ "/.default"

def retryHelper : RetryHelper ClientOperation ClientOperation.Result Thrown LastError where
  sleepFunction := fun milliseconds => Program.perform (ClientOperation.sleep milliseconds)
  undefined := .undefined
  asError := Thrown.asError

def acquireToken : AsyncClient Thrown (Option AuthenticationResult) := do
  Program.ofExcept (← Program.perform
    (ClientOperation.acquireTokenByClientCredential [credential.tokenScope]))

def onRetry (error : LastError) : AsyncClient LastError Unit :=
  Program.perform (ClientOperation.logError
    ("Error while acquiring Azure AD client token. " ++ texts.serializeError error) [])

def getToken : AsyncClient LastError (Option AuthenticationResult) :=
  retryHelper.executeWithRetries credential.acquireToken.attempt (onRetry texts)
    credential.maxTokenAttempts credential.msecBetweenRetries

end WebInsightsAPICredential

/-! ## A try of a request -/

/-- What is thrown in a try: by `got` or the code around it, or by `getToken`. -/
inductive RequestThrown where
  | thrown (error : Thrown)
  | lastError (error : LastError)

/-- `error instanceof Error ? error : { name: 'RetryError', .. }`. What `getToken` throws for
something that was no `Error` is none either. -/
def RequestThrown.asError : RequestThrown → Except LastError LastError
  | .thrown error => error.asError
  | .lastError .undefined => .ok (.retryError none)
  | .lastError (.error message) => .ok (.error message)
  | .lastError (.retryError message) => .ok (.retryError (some (texts.retryErrorJson message)))

/-- The request with the header that `signRequest` adds. -/
def HttpRequest.signed (request : HttpRequest) (accessToken : AuthenticationResult) :
    HttpRequest :=
  { request with headers := request.headers ++
      [("authorization", accessToken.tokenType ++ " " ++ accessToken.accessToken)] }

/-! ## The client -/

structure WebInsightsStorageClient where
  baseUrl : String
  credential : WebInsightsAPICredential
  throwOnRequestFailure : Bool := false
  apiVersion : String := "1.0"
  maxRetryCount : ℕ := 5
  msecBetweenRetries : ℚ := 1000

namespace WebInsightsStorageClient

variable (client : WebInsightsStorageClient)

/-- A request of `baseRequestObj`. -/
def baseRequest (method : Method) (path : String) (json : Option Val) : HttpRequest where
  method := method
  url := client.baseUrl ++ path
  json := json
  searchParams := [("api-version", client.apiVersion)]
  headers := [("Content-Type", "application/json")]
  throwHttpErrors := client.throwOnRequestFailure

def signRequest (request : HttpRequest) : AsyncClient RequestThrown HttpRequest := do
  let answer ← (client.credential.getToken texts).attempt
  match ← Program.ofExcept (answer.mapError .lastError) with
  | some accessToken => pure (request.signed accessToken)
  | none => throw (.thrown (.error "Cannot read property 'tokenType' of null"))

def executeRequest (request : HttpRequest) : AsyncClient RequestThrown Val := do
  let request ← client.signRequest texts request
  let answer ← Program.perform (ClientOperation.send request)
  Program.ofExcept (answer.mapError .thrown)

def retryHelper : RetryHelper ClientOperation ClientOperation.Result RequestThrown LastError where
  sleepFunction := fun milliseconds => Program.perform (ClientOperation.sleep milliseconds)
  undefined := .undefined
  asError := RequestThrown.asError texts

def onRetry (message url : String) (error : LastError) : AsyncClient LastError Unit :=
  Program.perform (ClientOperation.logError message
    [("url", url), ("error", texts.serializeError error)])

def executeRequestWithRetries (request : HttpRequest) (message : String) :
    AsyncClient LastError Val :=
  (retryHelper texts).executeWithRetries (client.executeRequest texts request).attempt
    (onRetry texts message request.url) client.maxRetryCount client.msecBetweenRetries

/-! ### Its methods -/

def postWebsite (website : Val) : AsyncClient LastError Val :=
  client.executeRequestWithRetries texts (client.baseRequest .post "/websites" (some website))
    "POST website REST API request failed. Retrying on error."

def getWebsite (websiteId : String) : AsyncClient LastError Val :=
  client.executeRequestWithRetries texts
    (client.baseRequest .get ("/websites/" ++ websiteId) none)
    "GET website REST API request failed. Retrying on error."

def postPage (pageUpdate : Val) : AsyncClient LastError Val :=
  client.executeRequestWithRetries texts (client.baseRequest .post "/pages" (some pageUpdate))
    "POST page REST API request failed. Retrying on error."

def postWebsiteScan (websiteScan : Val) : AsyncClient LastError Val :=
  client.executeRequestWithRetries texts
    (client.baseRequest .post "/websites/scans" (some websiteScan))
    "POST website scan REST API request failed. Retrying on error."

def getWebsiteImpl (websiteId scanType : String) (websiteScanId : Option String) :
    AsyncClient LastError Val :=
  client.executeRequestWithRetries texts
    (client.baseRequest .get ("/websites/" ++ websiteId ++ "/scans/" ++ scanType ++ "/" ++
      websiteScanId.getD "latest") none)
    "GET website scan REST API request failed. Retrying on error."

def getWebsiteScan (websiteId scanType websiteScanId : String) : AsyncClient LastError Val :=
  client.getWebsiteImpl texts websiteId scanType (some websiteScanId)

def getLatestWebsiteScan (websiteId scanType : String) : AsyncClient LastError Val :=
  client.getWebsiteImpl texts websiteId scanType none

def pingHealth : AsyncClient LastError Val :=
  client.executeRequestWithRetries texts (client.baseRequest .get "/health" none)
    "GET health ping REST API request failed. Retrying on error."

/-- An empty release is none. -/
def getHealthReport (releaseId : Option String) : AsyncClient LastError Val :=
  let path := match releaseId with
    | some releaseId => if releaseId = "" then "/health/release" else "/health/release/" ++ releaseId
    | none => "/health/release"
  client.executeRequestWithRetries texts (client.baseRequest .get path none)
    "GET health report REST API request failed. Retrying on error."

end WebInsightsStorageClient

/-! ## Its calls -/

/-- A call of a method of the client. -/
inductive Call where
  | postWebsite (website : Val)
  | getWebsite (websiteId : String)
  | postPage (pageUpdate : Val)
  | postWebsiteScan (websiteScan : Val)
  | getWebsiteScan (websiteId scanType websiteScanId : String)
  | getLatestWebsiteScan (websiteId scanType : String)
  | pingHealth
  | getHealthReport (releaseId : Option String)

namespace Call

variable (client : WebInsightsStorageClient)

def execute : Call → AsyncClient LastError Val
  | .postWebsite website => client.postWebsite texts website
  | .getWebsite websiteId => client.getWebsite texts websiteId
  | .postPage pageUpdate => client.postPage texts pageUpdate
  | .postWebsiteScan websiteScan => client.postWebsiteScan texts websiteScan
  | .getWebsiteScan websiteId scanType websiteScanId =>
    client.getWebsiteScan texts websiteId scanType websiteScanId
  | .getLatestWebsiteScan websiteId scanType => client.getLatestWebsiteScan texts websiteId scanType
  | .pingHealth => client.pingHealth texts
  | .getHealthReport releaseId => client.getHealthReport texts releaseId

/-- The method of a call, the path after the base url and the option `json`. -/
def line : Call → Method × String × Option Val
  | .postWebsite website => (.post, "/websites", some website)
  | .getWebsite websiteId => (.get, "/websites/" ++ websiteId, none)
  | .postPage pageUpdate => (.post, "/pages", some pageUpdate)
  | .postWebsiteScan websiteScan => (.post, "/websites/scans", some websiteScan)
  | .getWebsiteScan websiteId scanType websiteScanId =>
    (.get, "/websites/" ++ websiteId ++ "/scans/" ++ scanType ++ "/" ++ websiteScanId, none)
  | .getLatestWebsiteScan websiteId scanType =>
    (.get, "/websites/" ++ websiteId ++ "/scans/" ++ scanType ++ "/" ++ "latest", none)
  | .pingHealth => (.get, "/health", none)
  | .getHealthReport none => (.get, "/health/release", none)
  | .getHealthReport (some releaseId) =>
    (.get, if releaseId = "" then "/health/release" else "/health/release/" ++ releaseId, none)

/-- The request of a call, before it is signed. -/
def request (call : Call) : HttpRequest where
  method := call.line.1
  url := client.baseUrl ++ call.line.2.1
  json := call.line.2.2
  searchParams := [("api-version", client.apiVersion)]
  headers := [("Content-Type", "application/json")]
  throwHttpErrors := client.throwOnRequestFailure

/-- Every call is one request, tried again and again. -/
theorem exists_execute (call : Call) : ∃ message, call.execute texts client =
    client.executeRequestWithRetries texts (call.request client) message := by
  cases call with
  | getHealthReport releaseId => cases releaseId <;> exact ⟨_, rfl⟩
  | _ => exact ⟨_, rfl⟩

end Call

end WebInsights.StorageApiClient
