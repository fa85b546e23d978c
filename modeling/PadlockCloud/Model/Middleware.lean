import PadlockCloud.Model.Handler

/-!
# Middleware

`middleware.go` and `Server.WrapEndpoint`: what a request passes on its way to
the handler of an endpoint. A middleware takes the next handler and gives one,
so each of them is a function on `Handle Reply` here too. It may replace the
request, since the checks of the version and of the CSRF token can consume the
body.
-/

namespace PadlockCloud

open Process

namespace Server

variable (srv : Server)

/-! ## Errors -/

/-- `Server.HandleError`: the reply to an error, in the format that the client
accepts. -/
def handleError (r : Request) (e : HttpError) : Reply :=
  let accept := r.header .accept
  let response :=
    if accept = lit "application/json" ∨ (lit "application/vnd.padlock").isPrefixOf accept then
      e.jsonify
    else if r.acceptsHtml then (srv.templates.errorPage e.message).getD e.message
    else e.message
  { status := e.status, body := .bytes response }

/-- `HandleError.Wrap`, which leaves no error for its caller to look at. -/
def handleErrorWrap (h : Handle Reply) : Handle Reply := fun env r auth => do
  match ← (h env r auth).attempt fun _ => false with
  | .ok reply => .pure reply
  | .error e => .pure (srv.handleError r e)

/-- `HandlePanic.Wrap` -/
def handlePanicWrap (h : Handle Reply) : Handle Reply := fun env r auth => do
  match ← (h env r auth).attempt fun _ => false with
  | .ok reply => .pure reply
  | .error .panic => .fail (.serverError .panicked)
  | .error e => .fail e

/-! ## Checks -/

/-- `CheckMethod.Wrap` -/
def checkMethodWrap (endpoint : Endpoint) (h : Handle Reply) : Handle Reply := fun env r auth =>
  if (endpoint.handler r.method).isNone then .fail (.methodNotAllowed r.method) else h env r auth

/-- `LockAccount.Wrap`: the mutex is that of the email in the request's own
credential, and is given back however the request ends. -/
def lockAccountWrap (h : Handle Reply) : Handle Reply := fun env r auth =>
  match authTokenFromRequest r with
  | none => h env r auth
  | some t => do
    Program.request (Call.lock t.email)
    (h env r auth).ensure (Program.request (Call.unlock t.email))

/-- The check of the token type in `Authenticate.Wrap`. -/
def typeAllowed (authType : GoString) (t : AuthToken) : Bool :=
  authType = [] || authType = lit "universal" || t.type = authType || t.type = lit "skeleton"

/-- `Authenticate.Wrap`. An endpoint that requires no authentication gets the
token if there is one; its errors do not matter then. -/
def authenticateWrap (authType : GoString) (h : Handle Reply) : Handle Reply := fun env r _ => do
  match ← (srv.authenticate env r).attempt HttpError.isPanic with
  | .error e =>
    if authType = [] then h env r none
    else if authType = lit "web" then .pure (srv.redirect r (lit "/login/") {})
    else .fail e
  | .ok auth =>
    if typeAllowed authType auth.token then h env r (some auth)
    else .fail (.invalidAuthToken auth.token.email auth.token.token)

/-- `CheckEndpointVersion.Wrap` -/
def checkEndpointVersionWrap (version : Int) (h : Handle Reply) : Handle Reply := fun env r auth =>
  let depAuth := GoString.contains (r.header .authorization) (lit "ApiKey")
  let (found, r) := srv.versionFromRequest r
  if depAuth ∨ (version ≠ 0 ∧ found ≠ version) then do
    srv.sendDeprecatedVersionEmail env r
    .fail (.unsupportedApiVersion found version)
  else h env r auth

/-- `CSRF.Wrap`. A failed check is answered here and is no error for the
middleware outside. -/
def csrfWrap (h : Handle Reply) : Handle Reply := fun env r auth =>
  if auth.any fun a => a.token.type = lit "web" then
    let (passes, read) := srv.csrf.protect r
    if passes then h env read auth else .pure (srv.handleError r .invalidCsrfToken)
  else h env r auth

/-! ## The chain -/

/-- `Server.WrapEndpoint`, around any handler in the place of the endpoint. -/
def wrap (endpoint : Endpoint) (h : Handle Reply) : Handle Reply :=
  let h := if endpoint.authType ≠ [] then srv.csrfWrap h else h
  let h := srv.checkEndpointVersionWrap endpoint.version h
  let h := srv.authenticateWrap endpoint.authType h
  let h := lockAccountWrap h
  let h := checkMethodWrap endpoint h
  let h := handlePanicWrap h
  srv.handleErrorWrap h

/-- `Server.WrapEndpoint` -/
def wrapEndpoint (endpoint : Endpoint) : Handle Reply := srv.wrap endpoint (endpoint.handle srv)

/-- A request to an endpoint, from its arrival to its reply. -/
def serve (endpoint : Endpoint) (env : Env) (r : Request) : Serve Reply :=
  srv.wrapEndpoint endpoint env r none

end Server

end PadlockCloud
