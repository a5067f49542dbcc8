/-
`WebController.invoke`: the stages of a web request.

A controller asks for authorization, then for validation, and only then handles
the request. Whether it asks for authorization at all is metadata of its class,
set by the decorator `authorize` on the class it wraps and found by walking up
from the wrapper. What the controllers do in their stages is left to the world
here, answer by answer; `WebControllerAuth` is the one of `Auth/AzureAdAuth.lean`.
The telemetry properties and the log line of the `catch` are left out.
-/
import WebInsights.Auth.AzureAdAuth
import WebInsights.Effect.Trace

set_option autoImplicit false

namespace WebInsights.WebApi

open Auth Effect Js
open Cosmos (JsError)

/-! ## Classes and their metadata -/

/-- A class: its own metadata, its own `aclName` field if it declares one, and the
class it extends. -/
inductive JsClass where
  | root (name : String) (metadata : List (String × Bool))
  | extending (name : String) (metadata : List (String × Bool)) (aclName : Option String)
      (parent : JsClass)

namespace JsClass

def name : JsClass → String
  | root name _ => name
  | extending name _ _ _ => name

/-- `Reflect.defineMetadata`. -/
def defineMetadata (key : String) (value : Bool) : JsClass → JsClass
  | root name metadata => root name ((key, value) :: metadata)
  | extending name metadata aclName parent =>
    extending name ((key, value) :: metadata) aclName parent

/-- `Reflect.getMetadata`: of the class itself, or of the class it extends. -/
def getMetadata (key : String) : JsClass → Option Bool
  | root _ metadata => metadata.lookup key
  | extending _ metadata _ parent => (metadata.lookup key).or (parent.getMetadata key)

/-- `this.aclName` of an instance: the field of the class nearest to it. -/
def aclName : JsClass → Option String
  | root _ _ => none
  | extending _ _ aclName parent => aclName.or parent.aclName

end JsClass

/-- The decorator `authorize`. -/
def authorize (aclName : String) (constructor : JsClass) : JsClass :=
  .extending constructor.name [] (some aclName) (constructor.defineMetadata "authorize" true)

def WebController : JsClass := .root "WebController" []

def ApiController : JsClass := .extending "ApiController" [] none WebController

/-! The controllers of the API. -/

def GetHealthReportController : JsClass :=
  authorize "aclApiReadAll" (.extending "GetHealthReportController" [] none ApiController)

def GetWebsiteController : JsClass :=
  authorize "aclApiReadAll" (.extending "GetWebsiteController" [] none ApiController)

def GetWebsiteScanController : JsClass :=
  authorize "aclApiReadAll" (.extending "GetWebsiteScanController" [] none ApiController)

def PostPageController : JsClass :=
  authorize "aclApiWriteAll" (.extending "PostPageController" [] none ApiController)

def PostWebsiteController : JsClass :=
  authorize "aclApiWriteAll" (.extending "PostWebsiteController" [] none ApiController)

def PostWebsiteScanController : JsClass :=
  authorize "aclApiWriteAll" (.extending "PostWebsiteScanController" [] none ApiController)

def apiControllers : List JsClass :=
  [GetHealthReportController, GetWebsiteController, GetWebsiteScanController, PostPageController,
    PostWebsiteController, PostWebsiteScanController]

/-! ## `invoke` -/

/-- What `invoke` calls out to. The validator and the handler see `context.res` as it is,
and leave it as they like. -/
inductive Stage where
  | setCommonProperties
  /-- `this.container.get(WebControllerAuth)`. -/
  | getWebControllerAuth
  /-- What `WebControllerAuth` awaits. -/
  | auth (op : Auth.Operation)
  | validateRequest (res : Option HttpResponse)
  | handleRequest (res : Option HttpResponse)

abbrev Stage.Result : Stage → Type
  | .setCommonProperties => Except JsError Unit
  | .getWebControllerAuth => Except JsError Unit
  | .auth op => op.Result
  | .validateRequest _ => Except JsError Bool × Option HttpResponse
  | .handleRequest _ => Except JsError Val × Option HttpResponse

abbrev AsyncStage (α : Type) : Type := Program Stage Stage.Result JsError α

/-- `WebControllerAuth` as a part of `invoke`. -/
def ofAuth {α : Type} : AsyncAuth α → AsyncStage α
  | .pure a => .pure a
  | .throw e => .throw e
  | .call op k => .call (.auth op) fun r => ofAuth (k r)

def jsonContentType : String := "application/json; charset=utf-8"

/-- The two headers of a JSON response. -/
def setJsonHeaders (headers : Fields) : Fields :=
  Fields.set (Fields.set headers "content-type" (.str jsonContentType)) "X-Content-Type-Options"
    (.str "nosniff")

/-- `setResponseContentTypeHeader`. -/
def setResponseContentTypeHeader (res : Option HttpResponse) : Option HttpResponse :=
  res.map fun res =>
    match res.headers with
    | none => { res with headers := some (setJsonHeaders []) }
    | some headers =>
      if Fields.get headers "content-type" = .undefined then
        { res with headers := some (setJsonHeaders headers) }
      else res

/-- A request: its authorization header, and `context.res` before anything happens. -/
structure WebRequest where
  authHeader : Option String
  res : Option HttpResponse

namespace WebController

/-- The private method `authorize`: whether the request may go on, and `context.res`. -/
def authorize (controller : JsClass) (request : WebRequest) :
    AsyncStage (Bool × Option HttpResponse) :=
  if controller.getMetadata "authorize" = some true then do
    Program.ofExcept (← Program.perform Stage.getWebControllerAuth)
    ofAuth (WebControllerAuth.authorize request.authHeader (controller.aclName.getD "") request.res)
  else pure (true, request.res)

/-- What comes before validation. -/
def enter (controller : JsClass) (request : WebRequest) :
    AsyncStage (Bool × Option HttpResponse) := do
  Program.ofExcept (← Program.perform Stage.setCommonProperties)
  authorize controller request

/-- Validation, and what comes after it. -/
def validateAndHandle (res : Option HttpResponse) : AsyncStage (Val × Option HttpResponse) := do
  let validated ← Program.perform (Stage.validateRequest res)
  if (← Program.ofExcept validated.1) = true then
    let handled ← Program.perform (Stage.handleRequest validated.2)
    let result ← Program.ofExcept handled.1
    pure (result, setResponseContentTypeHeader handled.2)
  else pure (.undefined, setResponseContentTypeHeader validated.2)

/-- `invoke`: the result and `context.res` at the end. -/
def invoke (controller : JsClass) (request : WebRequest) :
    AsyncStage (Val × Option HttpResponse) :=
  tryCatch
    (do
      let entered ← enter controller request
      if entered.1 = true then validateAndHandle entered.2
      else pure (.undefined, entered.2))
    throw

end WebController

end WebInsights.WebApi
