import PadlockCloud.Model.Storage

/-!
# Errors

`error.go`: the errors that a handler can return, with their codes, statuses
and messages. Errors that are no `ErrorResponse` are wrapped in a
`serverError`. A panic is kept apart, since it passes the places that inspect
returned errors, until `HandlePanic` turns it into one.
-/

namespace PadlockCloud

/-- What a `ServerError` wraps. -/
inductive Cause where
  | storage (e : StorageError)
  | readBody
  | template
  | random
  | unexpectedMethod (method : GoString)
  | panicked
  deriving DecidableEq

inductive HttpError where
  | badRequest (msg : GoString)
  | invalidAuthToken (email token : GoString)
  | expiredAuthToken (email token : GoString)
  | invalidCsrfToken
  | methodNotAllowed (method : GoString)
  | unsupportedEndpoint (path : GoString)
  | accountNotFound (email : GoString)
  | unsupportedApiVersion (found expected : Int)
  | rateLimitExceeded
  | serverError (cause : Cause)
  | panic
  deriving DecidableEq

namespace HttpError

def isPanic : HttpError → Bool
  | panic => true
  | _ => false

def code : HttpError → GoString
  | badRequest _ => lit "bad_request"
  | invalidAuthToken _ _ => lit "invalid_auth_token"
  | expiredAuthToken _ _ => lit "expired_auth_token"
  | invalidCsrfToken => lit "invalid_csrf_token"
  | methodNotAllowed _ => lit "method_not_allowed"
  | unsupportedEndpoint _ => lit "unsupported_endpoint"
  | accountNotFound _ => lit "account_not_found"
  | unsupportedApiVersion _ _ => lit "deprecated_api_version"
  | rateLimitExceeded => lit "rate_limit_exceeded"
  | serverError _ | panic => lit "internal_server_error"

def status : HttpError → Nat
  | badRequest _ => 400
  | invalidAuthToken _ _ | expiredAuthToken _ _ => 401
  | invalidCsrfToken => 403
  | methodNotAllowed _ => 405
  | unsupportedEndpoint _ | accountNotFound _ => 404
  | unsupportedApiVersion _ _ => 406
  | rateLimitExceeded => 429
  | serverError _ | panic => 500

/-- `http.StatusText` for the statuses above. -/
def statusText : Nat → GoString
  | 400 => lit "Bad Request"
  | 401 => lit "Unauthorized"
  | 403 => lit "Forbidden"
  | 404 => lit "Not Found"
  | 405 => lit "Method Not Allowed"
  | 429 => lit "Too Many Requests"
  | _ => []

def message (e : HttpError) : GoString :=
  match e with
  | badRequest msg => statusText e.status ++ lit ": " ++ msg
  | invalidAuthToken _ _ =>
    statusText e.status ++ lit " - " ++ lit "No valid authorization token provided"
  | expiredAuthToken _ _ =>
    statusText e.status ++ lit " - " ++ lit "The provided authorization token has expired"
  | invalidCsrfToken => statusText e.status ++ lit " - " ++ lit "Invalid CSRF Token"
  | unsupportedApiVersion found expected =>
    lit "The api version you are using (" ++ lit (toString found) ++
      lit ") is not supported. Please use version " ++ lit (toString expected)
  | methodNotAllowed _ | unsupportedEndpoint _ | accountNotFound _ | rateLimitExceeded =>
    statusText e.status
  | serverError _ | panic =>
    lit "Something went wrong on our side, sorry! Our team has been notified and will resolve " ++
      lit "the problem as soon as possible!"

/-- `JsonifyErrorResponse` -/
def jsonify (e : HttpError) : GoString :=
  lit "\x7b\"error\":\"" ++ e.code ++ lit "\",\"message\":\"" ++ e.message ++ lit "\"\x7d"

theorem status_ge (e : HttpError) : 400 ≤ e.status := by
  cases e <;> simp [status]

end HttpError

end PadlockCloud
