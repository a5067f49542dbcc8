/-
Access control: `WebControllerAuth`, `AzureAdAuth` and `AclProvider`.

A request is let in by the access control list its controller names. The list is
read from three secrets of the key vault and cached once it is valid; the token
of the request is verified against it by a package of its own. The mutex that
runs one read of the secrets at a time is left out: what it forbids is one of the
interleavings of the callers here. So are the log lines.
-/
import WebInsights.Cosmos.World
import WebInsights.Js.Lodash
import WebInsights.WebApi.HttpResponse

set_option autoImplicit false

namespace WebInsights.Auth

open Cosmos Effect Js WebApi

/-- `Acl`: what the secrets hold need not have the types the interface declares. -/
structure Acl where
  issuer : Val
  publicKeysUrl : Val
  audience : Val
  appIds : Val
  valid : Bool

/-- The value of a secret: no text, a text `JSON.parse` throws on, or the text of a
JSON value. -/
inductive Secret where
  | noValue
  | unparsable (text : String)
  | json (text : String) (value : Json)

def Secret.value : Secret → Val
  | .noValue => .undefined
  | .unparsable text => .str text
  | .json text _ => .str text

/-- `JSON.parse`. -/
def Secret.parse : Secret → Except JsError Val
  | .json _ value => .ok value.val
  | _ => .error (.error "SyntaxError: Unexpected token in JSON")

structure VerifyOptions where
  jwksUri : Val
  issuer : Val
  audience : Val

inductive Operation where
  | cacheGet (aclName : String)
  | cacheSet (aclName : String) (acl : Acl)
  | getSecret (name : String)
  | verifyToken (token : String) (options : VerifyOptions)

abbrev Operation.Result : Operation → Type
  | .cacheGet _ => Option Acl
  | .cacheSet _ _ => Unit
  | .getSecret _ => Except JsError Secret
  | .verifyToken _ _ => Except JsError Val

abbrev AsyncAuth (α : Type) : Type := Program Operation Operation.Result JsError α

/-- Await an operation that may be rejected. -/
def getSecret (name : String) : AsyncAuth Secret := do
  Program.ofExcept (← Program.perform (Operation.getSecret name))

def verifyToken (token : String) (options : VerifyOptions) : AsyncAuth Val := do
  Program.ofExcept (← Program.perform (Operation.verifyToken token options))

/-! ## `AclProvider` -/

namespace AclProvider

/-- `!values(acl).some(isEmpty)`. -/
def validateAcl (issuer publicKeysUrl audience appIds : Val) : Bool :=
  !([issuer, publicKeysUrl, audience, appIds].any isEmpty)

def getAclEntries (aclName : String) : AsyncAuth Val :=
  tryCatch
    (do
      let aclEntriesValue ← getSecret aclName
      Program.ofExcept aclEntriesValue.parse)
    fun _ => pure .undefined

def readAcl (aclName : String) : AsyncAuth Acl := do
  let issuer ← getSecret "aclIssuer"
  let publicKeysUrl ← getSecret "aclPublicKeysUrl"
  let aclEntries ← getAclEntries aclName
  let audience := aclEntries.get "audience"
  let appIds := aclEntries.get "appIds"
  pure ⟨issuer.value, publicKeysUrl.value, audience, appIds,
    validateAcl issuer.value publicKeysUrl.value audience appIds⟩

def getAclExclusive (aclName : String) : AsyncAuth Acl := do
  let acl ← readAcl aclName
  if acl.valid = true then
    Program.perform (Operation.cacheSet aclName acl)
  pure acl

def getAcl (aclName : String) : AsyncAuth Acl := do
  let cachedAcl ← Program.perform (Operation.cacheGet aclName)
  match cachedAcl with
  | some acl => pure acl
  | none => getAclExclusive aclName

end AclProvider

/-! ## `AzureAdAuth` -/

namespace AzureAdAuth

/-- What is asked of a payload that was verified against the list. `===` holds of two
scalars that are equal, and not of two objects. -/
def grants (acl : Acl) (aud appid : Val) : Bool :=
  !isEmpty aud && !isEmpty appid && sameValueZero aud acl.audience && includes acl.appIds appid

def authorize (token aclName : String) : AsyncAuth Bool := do
  let acl ← AclProvider.getAcl aclName
  if acl.valid = true then
    let options : VerifyOptions := ⟨acl.publicKeysUrl, acl.issuer, acl.audience⟩
    tryCatch
      (do
        let payload ← verifyToken token options
        let aud ← Program.ofExcept (property payload "aud")
        let appid ← Program.ofExcept (property payload "appid")
        pure (grants acl aud appid))
      fun _ => pure false
  else pure false

end AzureAdAuth

/-! ## `WebControllerAuth` -/

namespace WebControllerAuth

/-- The token behind `Bearer ` in the authorization header; `none` for `undefined`. -/
def getToken (authHeader : Option String) : Option String :=
  match authHeader with
  | none => none
  | some authHeader =>
    if authHeader ≠ "" ∧ "Bearer ".toList <+: authHeader.toList then
      some (String.ofList (authHeader.toList.drop 7))
    else none

/-- Whether the request is authorized, and what it leaves in `context.res`, which is
`res` before. -/
def authorize (authHeader : Option String) (aclName : String) (res : Option HttpResponse) :
    AsyncAuth (Bool × Option HttpResponse) := do
  let refused : Bool × Option HttpResponse :=
    (false, some (getErrorResponse WebApiErrorCodes.unauthorized))
  match getToken authHeader with
  | some token =>
    if token ≠ "" ∧ aclName ≠ "" then
      let authorized ← AzureAdAuth.authorize token aclName
      if authorized = true then pure (true, res) else pure refused
    else pure refused
  | none => pure refused

end WebControllerAuth

end WebInsights.Auth
