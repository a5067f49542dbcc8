/-
The responses of the web API: a status, headers and a body, and the table of the
errors it answers with.
-/
import WebInsights.Js.Value

set_option autoImplicit false

namespace WebInsights.WebApi

open Js

structure WebApiError where
  code : String
  codeId : ℕ
  message : String

structure WebApiErrorCode where
  statusCode : ℕ
  error : WebApiError

/-! ## `WebApiErrorCodes` -/

namespace WebApiErrorCodes

def resourceNotFound : WebApiErrorCode where
  statusCode := 404
  error := ⟨"ResourceNotFound", 4001, "The specified resource does not exist."⟩

def invalidResourceId : WebApiErrorCode where
  statusCode := 400
  error := ⟨"InvalidResourceId", 4002, "The resource ID is not valid."⟩

def invalidJsonDocument : WebApiErrorCode where
  statusCode := 400
  error := ⟨"InvalidJsonDocument", 4004, "The specified JSON is not syntactically valid."⟩

def missingApiVersionQueryParameter : WebApiErrorCode where
  statusCode := 400
  error := ⟨"MissingApiVersionQueryParameter", 4005,
    "A required 'api-version' query parameter was not specified for this request."⟩

def unsupportedApiVersion : WebApiErrorCode where
  statusCode := 400
  error := ⟨"UnsupportedApiVersion", 4006, "The specified API version is not supported."⟩

def missingContentTypeHeader : WebApiErrorCode where
  statusCode := 400
  error := ⟨"MissingContentTypeHeader", 4007, "The 'Content-Type' header was not specified."⟩

def unsupportedContentType : WebApiErrorCode where
  statusCode := 415
  error := ⟨"UnsupportedContentType", 4008,
    "The specified request content type is not supported."⟩

def outOfRangePriority : WebApiErrorCode where
  statusCode := 400
  error := ⟨"OutOfRangePriority", 4010,
    "A priority specified in the request is outside the permissible range."⟩

def malformedRequest : WebApiErrorCode where
  statusCode := 400
  error := ⟨"MalformedBody", 4011,
    "The request body does not match the API schema for the given API version."⟩

def invalidFrequencyExpression : WebApiErrorCode where
  statusCode := 400
  error := ⟨"InvalidFrequencyExpression", 4012,
    "The frequency is not a valid cron expression."⟩

def invalidScanType : WebApiErrorCode where
  statusCode := 400
  error := ⟨"InvalidScanType", 4013,
    "The scan type must be either a11y, privacy, or security."⟩

def unauthorized : WebApiErrorCode where
  statusCode := 401
  error := ⟨"Unauthorized", 4014, "You do not have permission to access this resource."⟩

def internalError : WebApiErrorCode where
  statusCode := 500
  error := ⟨"InternalError", 5001,
    "The server encountered an internal error. Please retry the request."⟩

def missingReleaseId : WebApiErrorCode where
  statusCode := 500
  error := ⟨"MissingReleaseVersion", 5002, "The release ID was not found."⟩

end WebApiErrorCodes

/-- `context.res`. One controller names the status `statusCode`, which Azure Functions
takes as well. The object it is at first has no status. -/
structure HttpResponse where
  status : Option ℕ
  headers : Option Fields
  body : Val
  deriving DecidableEq

/-- What a response says of an error. -/
def WebApiErrorCode.body (webApiErrorCode : WebApiErrorCode) : Val :=
  .obj [("error", .obj [("code", .str webApiErrorCode.error.code),
    ("codeId", .num webApiErrorCode.error.codeId),
    ("message", .str webApiErrorCode.error.message)])]

def WebApiError.toVal (error : WebApiError) : Val :=
  .obj [("code", .str error.code), ("codeId", .num error.codeId), ("message", .str error.message)]

/-- `HttpResponse.getErrorResponse`. -/
def getErrorResponse (webApiErrorCode : WebApiErrorCode) : HttpResponse where
  status := some webApiErrorCode.statusCode
  headers := none
  body := .obj [("error", webApiErrorCode.error.toVal)]

end WebInsights.WebApi
