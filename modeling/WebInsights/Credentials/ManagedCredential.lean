/-
`AzureManagedCredential`: tokens of the instance metadata service, kept in a cache.

A call waits for the one mutex of the credential, looks the token of its resource up in the
cache and, on a miss, requests it and stores it. The cache and the mutex answer at once;
time passes while a call waits for the mutex or for the service. The parser of urls and
`JSON.parse` are parameters; of the token only what the class reads is modelled.
-/
import WebInsights.Data.TimedCache
import WebInsights.Effect.Mutex
import WebInsights.Js.Json

set_option autoImplicit false

namespace WebInsights.Credentials

open Data Effect Js

structure ImdsToken where
  access_token : String
  expires_in : ℕ
  expires_on : ℤ
  deriving DecidableEq

structure AccessToken where
  token : String
  expiresOnTimestamp : ℤ
  deriving DecidableEq

inductive CredentialError where
  | error (message : String)
  | typeError (message : String)
  | syntaxError (message : String)
  /-- The HTTP client rejected. -/
  | request (message : String)
  deriving DecidableEq

/-- `scopes: string | string[]` -/
inductive Scopes where
  | one (scope : String)
  | many (scopes : List String)

def Scopes.val : Scopes → Val
  | .one scope => .str scope
  | .many scopes => .arr (scopes.map .str)

/-- What the class uses of its platform.

* `hostname`: `nodeUrl.parse(scope).hostname`, which may be `null`.
* `parse`: `JSON.parse(body) as ImdsToken`.
* `principalId`: `process.env.AZURE_PRINCIPAL_ID`.
-/
structure Platform where
  hostname : String → Except CredentialError (Option String)
  parse : String → Except CredentialError ImdsToken
  principalId : Option String

inductive CredentialOperation where
  | acquire
  | release
  | cacheGet (key : String)
  | cacheSet (key : String) (value : ImdsToken) (ttl : ℤ)
  /-- `httpClient.get(url, { timeout })` -/
  | httpGet (url : String) (timeout : Option ℕ)

/-- What an operation is answered; a response of the service is its body. -/
abbrev CredentialOperation.Result : CredentialOperation → Type
  | .acquire => Unit
  | .release => Unit
  | .cacheGet _ => Option ImdsToken
  | .cacheSet _ _ _ => Unit
  | .httpGet _ _ => Except CredentialError (Option String)

abbrev Requests (α : Type) : Type :=
  Program CredentialOperation CredentialOperation.Result CredentialError α

/-! ## `encodeURI` -/

def hexDigitUpper (n : ℕ) : Char :=
  if n < 10 then Char.ofNat (48 + n) else Char.ofNat (55 + n)

def encodeURIChar (c : Char) : List Char :=
  if c.isAlphanum ∨ c ∈ ";/?:@&=+$,#-_.!~*'()".toList then [c]
  else (String.singleton c).toUTF8.toList.flatMap fun b =>
    ['%', hexDigitUpper (b.toNat / 16), hexDigitUpper (b.toNat % 16)]

def encodeURI (s : String) : String := String.ofList (s.toList.flatMap encodeURIChar)

/-! ## `AzureManagedCredential` -/

namespace AzureManagedCredential

variable (platform : Platform)

def imdsEndpoint : String :=
  "http://169.254.169.254/metadata/identity/oauth2/token?api-version=2019-08-01"

def cacheCheckPeriod : ℤ := 600

/-- A template literal shows a value that is not there as `undefined`. -/
def principal : String := platform.principalId.getD "undefined"

def firstScope : Scopes → Except CredentialError String
  | .one scope => .ok scope
  | .many (scope :: _) => .ok scope
  | .many [] => .error (.typeError "The \"url\" argument must be of type string")

def getRequestUrl (scopes : Scopes) : Except CredentialError String := do
  let scope ← firstScope scopes
  let hostname ← platform.hostname scope
  let resource := "https://" ++ hostname.getD "null"
  .ok (imdsEndpoint ++ "&resource=" ++ encodeURI resource ++ "&principal_id=" ++
    principal platform)

def getMsiToken (scopes : Scopes) (timeout : Option ℕ) : Requests ImdsToken := do
  let requestUrl ← Program.ofExcept (getRequestUrl platform scopes)
  -- try get token from the cache
  match ← Program.perform (CredentialOperation.cacheGet requestUrl) with
  | some cachedImdsToken => pure cachedImdsToken
  | none =>
    match ← Program.perform (CredentialOperation.httpGet requestUrl timeout) with
    | .error e => throw e
    | .ok none => throw (.error ("IMDS return no access token for " ++ principal platform ++
        " principal id and resource " ++ (stringify scopes.val).getD "undefined" ++ "."))
    | .ok (some body) => do
      let imdsToken ← Program.ofExcept (platform.parse body)
      -- the lifetime is reduced to have the item deleted before the token expires
      let _ ← Program.perform (CredentialOperation.cacheSet requestUrl imdsToken
        (imdsToken.expires_in - cacheCheckPeriod * 2))
      pure imdsToken

/-- What a call makes of the token. -/
def accessToken (token : ImdsToken) : AccessToken := ⟨token.access_token, token.expires_on⟩

def getToken (scopes : Scopes) (timeout : Option ℕ) : Requests AccessToken := do
  let token ← Program.runExclusive .acquire .release (getMsiToken platform scopes timeout)
  pure (accessToken token)

end AzureManagedCredential

/-! ## The cache, the mutex, the clock and the service -/

/-- An answered request; the service may have rejected it, or answered no token. -/
structure ImdsRequest where
  url : String
  answer : Except CredentialError (Option String)
  answeredAt : ℤ

/-- The state the callers of one credential share.

* `pauses n`: how long the `n`-th wait takes.
* `answers n url`: how the service answers its `n`-th request.
* `requests`: the answered requests, the last one first.
-/
structure CredentialState where
  cache : TimedCache String ImdsToken
  locked : Bool
  now : ℤ
  waits : ℕ
  pauses : ℕ → ℕ
  answers : ℕ → String → Except CredentialError (Option String)
  requests : List ImdsRequest

namespace CredentialState

/-- Time passes. -/
def wait (s : CredentialState) : CredentialState :=
  { s with now := s.now + s.pauses s.waits, waits := s.waits + 1 }

def handle : Handler CredentialOperation CredentialOperation.Result CredentialState
  | .acquire, s => ((), { s.wait with locked := true })
  | .release, s => ((), { s with locked := false })
  | .cacheGet key, s => (s.cache.get key s.now, s)
  | .cacheSet key value ttl, s => ((), { s with cache := s.cache.set key value ttl s.now })
  | .httpGet url _, s =>
    let answer := s.answers s.requests.length url
    (answer, { s.wait with requests := ⟨url, answer, s.wait.now⟩ :: s.requests })

/-- The mutex of a credential. -/
def mutex : Lock handle where
  sets
    | .acquire => some true
    | .release => some false
    | _ => none
  locked := locked
  locked_handle := by
    intro op s
    cases op <;> rfl

/-- A credential that was just made. -/
structure Fresh (s : CredentialState) : Prop where
  cache : ∀ url, s.cache url = none
  requests : s.requests = []

/-- The last answered request for a url. -/
def lastRequest (s : CredentialState) (url : String) : Option ImdsRequest :=
  s.requests.find? fun r => r.url = url

end CredentialState

end WebInsights.Credentials
