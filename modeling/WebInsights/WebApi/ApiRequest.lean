/-
`ApiRequestValidator` and `ApiController`: what every request of the API is asked
first.

A validator returns whether the request may be handled and leaves `context.res`
as the last check that failed set it; it is passed along here. The body of a
request is parsed anew wherever its payload is needed.
-/
import WebInsights.Js.Lodash
import WebInsights.WebApi.HttpResponse

set_option autoImplicit false

namespace WebInsights.WebApi

open Js

/-- `context.req.rawBody`: none, a text `JSON.parse` throws on, or the text of a JSON
value. -/
inductive RawBody where
  | noBody
  | unparsable
  | json (value : Json)

/-- `context.req` and `context.bindingData`. -/
structure Context where
  method : String
  headers : Option (List (String × String))
  query : Option (List (String × String))
  rawBody : RawBody
  bindingData : List (String × String)

/-- `tryGetPayload`: the payload, and `context.res`. -/
def tryGetPayload (context : Context) (res : Option HttpResponse) : Val × Option HttpResponse :=
  match context.rawBody with
  | .json value => (value.val, res)
  | _ => (.undefined, some (getErrorResponse WebApiErrorCodes.invalidJsonDocument))

namespace ApiRequestValidator

def hasPayload (context : Context) (res : Option HttpResponse) : Bool × Option HttpResponse :=
  match context.rawBody with
  | .noBody => (false, res)
  | _ =>
    let payload := tryGetPayload context res
    (!isEmpty payload.1, payload.2)

def validateContentType (context : Context) (res : Option HttpResponse) :
    Bool × Option HttpResponse :=
  if context.method ≠ "POST" ∧ context.method ≠ "PUT" then (true, res)
  else
    let payload := hasPayload context res
    if payload.1 = false then (false, some (payload.2.getD ⟨some 204, none, .undefined⟩))
    else
      match context.headers.bind (List.lookup "content-type") with
      | none => (false, some (getErrorResponse WebApiErrorCodes.missingContentTypeHeader))
      | some contentType =>
        if contentType ≠ "application/json" then
          (false, some (getErrorResponse WebApiErrorCodes.unsupportedContentType))
        else (true, payload.2)

def validateApiVersion (apiVersions : List String) (context : Context)
    (res : Option HttpResponse) : Bool × Option HttpResponse :=
  match context.query.bind (List.lookup "api-version") with
  | none => (false, some (getErrorResponse WebApiErrorCodes.missingApiVersionQueryParameter))
  | some apiVersion =>
    if apiVersion ∈ apiVersions then (true, res)
    else (false, some (getErrorResponse WebApiErrorCodes.unsupportedApiVersion))

def validateRequest (apiVersions : List String) (context : Context) (res : Option HttpResponse) :
    Bool × Option HttpResponse :=
  let version := validateApiVersion apiVersions context res
  if version.1 = false then version else validateContentType context version.2

end ApiRequestValidator

end WebInsights.WebApi
