import PadlockCloud.Model.Server

/-!
# Handlers

`handler.go`: what each endpoint does with a request that the middleware has
let through. A handler is a program that ends with a reply or with an error.
-/

namespace PadlockCloud

open Process Time

/-! ## Replies -/

/-- The cookie `auth` as `http.SetCookie` sends it. -/
structure Cookie where
  value : GoString
  maxAge : Int := 0
  secure : Bool
  deriving DecidableEq

inductive Body where
  | bytes (content : GoString)
  /-- A JSON object of strings. -/
  | json (fields : List (GoString × GoString))
  /-- `Account.ToMap` as JSON. -/
  | account (email : GoString) (devices : List (GoString × GoString))
  deriving DecidableEq

/-- The status, the headers `Location` and `Set-Cookie`, and the body. The short
note that `http.Redirect` puts into the body of a redirect is left out. -/
structure Reply where
  status : Nat := 200
  location : Option GoString := none
  cookie : Option Cookie := none
  body : Body := .bytes []
  deriving DecidableEq

/-- What the handlers of one request have in hand besides the server. -/
abbrev Handle (α : Type) := Env → Request → Option Auth → Serve α

namespace Request

/-- `strings.Contains(r.Header.Get("Accept"), "text/html")` -/
def acceptsHtml (r : Request) : Bool := GoString.contains (r.header .accept) (lit "text/html")

end Request

namespace Server

variable (srv : Server)

/-- `http.Redirect` with `http.StatusFound`, on a reply that may carry a cookie. -/
def redirect (r : Request) (target : GoString) (reply : Reply) : Reply :=
  { reply with
    status := 302
    location := some (redirectLocation srv.netUrl r.path target) }

/-! ## Requesting auth tokens -/

/-- The paths of `Server.Endpoints`. -/
def endpointPaths : List GoString :=
  [lit "/auth/", lit "/login/", lit "/activate/", lit "/a/", lit "/store/", lit "/deletestore/",
    lit "/deleteaccount/", lit "/dashboard/", lit "/logout/", lit "/revoke/", lit "/account/",
    lit "/static/", lit "/"]

/-- The check of the form value `redirect`. -/
def acceptsRedirect (redirect : GoString) : Bool :=
  redirect = [] ||
  match Url.parse srv.netUrl redirect with
  | some u => endpointPaths.contains u.path
  | none => false

/-- The form values of an auth request, and whether the client is already
authenticated for the email. -/
structure AuthForm where
  type : GoString
  actType : GoString
  email : GoString
  redirect : GoString
  preauth : Bool
  device : Option Device

def authForm (r : Request) (auth : Option Auth) : AuthForm :=
  let type := r.postFormValue srv.net (lit "type")
  let email := r.postFormValue srv.net (lit "email")
  { type := if type = [] then lit "api" else type
    actType := r.postFormValue srv.net (lit "actType")
    email
    redirect := r.postFormValue srv.net (lit "redirect")
    preauth := auth.any fun a => a.token.type = lit "api" ∧ a.token.email = email
    device := deviceFromRequest r }

/-- The checks of the form values, in the order of the source. -/
def AuthForm.check (f : AuthForm) : Except HttpError Unit :=
  if f.email = [] then .error (.badRequest (lit "no email provided"))
  else if !srv.isWhitelisted f.email then .error (.badRequest (lit "invalid email address"))
  else if f.type ≠ lit "api" ∧ f.type ≠ lit "web" then
    .error (.badRequest (lit "unsupported auth token type"))
  else if !srv.acceptsRedirect f.redirect then .error (.badRequest (lit "invalid redirect path"))
  else .ok ()

/-- Unless the client asks for a new account with a `POST`, there has to be an
account or a data store already. -/
def checkAccount (r : Request) (email : GoString) : Serve Unit :=
  if r.method = lit "POST" then .pure ()
  else do
    match ← store (.getAccount email) with
    | .ok _ => .pure ()
    | .error .notFound =>
      match ← store (.getDataStore { email }) with
      | .ok _ => .pure ()
      | .error .notFound => .fail (.accountNotFound email)
      | .error e => .fail (.serverError (.storage e))
    | .error e => .fail (.serverError (.storage e))

def activationLink (r : Request) (authRequest : AuthRequest) : GoString :=
  srv.baseUrlOf r ++ lit "/a/?t=" ++ authRequest.token

/-- The response to an auth request. -/
def authResponse (r : Request) (f : AuthForm) (authRequest : AuthRequest) : Serve Body :=
  if f.type = lit "api" ∨ f.preauth then
    let actUrl :=
      if f.preauth ∨ srv.test then [(lit "actUrl", srv.activationLink r authRequest)] else []
    .pure <| .json <| actUrl ++
      [(lit "email", authRequest.authToken.email), (lit "id", authRequest.authToken.id),
        (lit "token", authRequest.authToken.token)]
  else
    match srv.templates.loginPage (some f.email) with
    | some page => .pure (.bytes page)
    | none => .fail (.serverError .template)

/-- The subject of the activation mail. -/
def authSubject (f : AuthForm) (authRequest : AuthRequest) : List Piece :=
  if f.type = lit "api" ∨ f.preauth then
    if f.actType = lit "code" then
      [.text (lit "Your Padlock Login Code: "), .code authRequest.code]
    else [.text (lit "Connect to Padlock Cloud")]
  else [.text (lit "Your Padlock Login Link")]

/-- Sends the activation mail, unless the sender has been too busy. A client that
is authenticated already gets none. -/
def sendActivation (env : Env) (r : Request) (f : AuthForm) (authRequest : AuthRequest) :
    Serve Unit :=
  if f.preauth then .pure ()
  else if env.rateLimited (ipFromRequest r) f.email then .fail .rateLimitExceeded
  else
    match srv.templates.activateAuthTokenEmail (srv.activationLink r authRequest)
      authRequest.authToken authRequest.code with
    | some body => sendMail ⟨f.email, authSubject f authRequest, body⟩
    | none => .fail (.serverError .template)

/-- Creates the auth request and stores it. -/
def issueAuthRequest (env : Env) (f : AuthForm) : Serve AuthRequest :=
  match newAuthRequest env f.email f.type f.actType f.device with
  | none => .fail (.serverError .random)
  | some authRequest => do
    let authRequest := { authRequest with redirect := f.redirect }
    store (.putAuthRequest authRequest) >>= orFail
    .pure authRequest

/-- `RequestAuthToken.Handle` -/
def requestAuthToken : Handle Reply := fun env r auth =>
  let f := srv.authForm r auth
  match AuthForm.check srv f with
  | .error e => .fail e
  | .ok () => do
    checkAccount r f.email
    let authRequest ← issueAuthRequest env f
    let response ← srv.authResponse r f authRequest
    srv.sendActivation env r f authRequest
    .pure { status := 202, body := response }

/-! ## Activating auth tokens -/

/-- The pattern under which `GetAuthRequest` looks for the request. -/
def activationPattern (r : Request) : Except HttpError AuthRequest :=
  let token := r.query (lit "t")
  let email := r.postFormValue srv.net (lit "email")
  let code := r.postFormValue srv.net (lit "code")
  if token = [] ∧ (email = [] ∨ code = []) then
    .error (.badRequest (lit "no activation token or code provided"))
  else .ok { code, token, authToken := { email } }

/-- `ActivateAuthToken.GetAuthRequest` -/
def getAuthRequest (r : Request) : Serve AuthRequest :=
  match srv.activationPattern r with
  | .error e => .fail e
  | .ok pattern => do
    match ← store (.getAuthRequest pattern.key) with
    | .ok authRequest => .pure authRequest
    | .error .notFound => .fail (.badRequest (lit "invalid activation token"))
    | .error e => .fail (.serverError (.storage e))

/-- The tokens of the same type on the same device. -/
def devicePattern (t : AuthToken) : AuthToken :=
  { type := t.type, device := some { uuid := (t.device.map Device.uuid).getD [] } }

/-- The loop that revokes every token of the pattern. It ends since each round
makes the slice shorter. -/
def removeMatching (pattern : AuthToken) (acc : Account) : Account :=
  go acc.authTokens.length acc
where
  go : Nat → Account → Account
    | 0, acc => acc
    | n + 1, acc =>
      let (acc, removed) := acc.removeAuthToken pattern
      if removed then go n acc else acc

/-- The account that an activation writes: the tokens of the same device are
revoked and the new token is added. -/
def activated (acc : Account) (t : AuthToken) : Account :=
  let acc :=
    if t.device.any fun d => d.uuid ≠ [] then removeMatching (devicePattern t) acc else acc
  acc.addAuthToken t

/-- `ActivateAuthToken.Activate` -/
def activate (env : Env) (authRequest : AuthRequest) : Serve Unit := do
  let t := authRequest.authToken
  match ← store (.getAccount t.email) with
  | .error .storageClosed => .fail (.serverError (.storage .storageClosed))
  | .error .unregisteredStorable => .fail (.serverError (.storage .unregisteredStorable))
  | found =>
    let acc := found.toOption.getD { email := t.email }
    let _ ← store (.putAccount env.now (activated acc t)) >>= orFail
    store (.deleteAuthRequest authRequest.key) >>= orFail

/-- `ActivateAuthToken.SetAuthCookie` -/
def authCookie (t : AuthToken) : Cookie := { value := t.toGoString, secure := srv.secure }

/-- The redirect target with the query that tells the dashboard of the paired
device. -/
def pairedTarget (t : AuthToken) (target : GoString) : GoString :=
  match Url.parse srv.netUrl target with
  | none => target
  | some u =>
    let q := Url.parseQuery u.rawQuery
    let q := q.set (lit "action") (lit "paired")
    let q := q.set (lit "token-id") t.id
    { u with rawQuery := q.encode }.string srv.netUrl

/-- Activating an api token with a link also logs the browser in. -/
def loginsToo (authRequest : AuthRequest) : Bool :=
  authRequest.authToken.type = lit "api" ∧ authRequest.code = []

/-- `ActivateAuthToken.Success` -/
def success (env : Env) (r : Request) (authRequest : AuthRequest) : Serve Reply := do
  let t := authRequest.authToken
  let target := if authRequest.redirect = [] then lit "/dashboard/" else authRequest.redirect
  let finish (cookie : Option Cookie) (target : GoString) : Serve Reply :=
    let reply : Reply := { cookie }
    .pure (if r.acceptsHtml then srv.redirect r target reply else reply)
  if loginsToo authRequest then
    match newAuthRequest env t.email (lit "web") [] t.device with
    | none => .fail (.serverError .random)
    | some login =>
      activate env login
      finish (some (srv.authCookie login.authToken)) (srv.pairedTarget t target)
  else finish (if t.type = lit "web" then some (srv.authCookie t) else none) target

/-- `ActivateAuthToken.Handle`. A browser is sent to the dashboard when there is
no such request. -/
def activateAuthToken : Handle Reply := fun env r _ => do
  match ← (srv.getAuthRequest r).attempt HttpError.isPanic with
  | .error e => if r.acceptsHtml then .pure (srv.redirect r (lit "/dashboard/") {}) else .fail e
  | .ok authRequest =>
    activate env authRequest
    srv.success env r authRequest

/-! ## Data stores -/

/-- `ReadStore.Handle` -/
def readStore : Handle Reply := fun _ _ auth => do
  let auth ← orPanic auth
  match ← store (.getDataStore auth.account) with
  | .ok content => .pure { body := .bytes content }
  | .error .notFound => .pure {}
  | .error e => .fail (.serverError (.storage e))

/-- `WriteStore.Handle` -/
def writeStore : Handle Reply := fun _ r auth => do
  let auth ← orPanic auth
  if r.bodyFails then .fail (.serverError .readBody)
  else
    store (.putDataStore auth.account r.body) >>= orFail
    .pure { status := 204 }

/-- `DeleteStore.Handle` -/
def deleteStore : Handle Reply := fun _ r auth => do
  let auth ← orPanic auth
  store (.deleteDataStore auth.account.email) >>= orFail
  .pure (srv.redirect r (lit "/dashboard/?action=reset") {})

/-! ## Accounts -/

/-- `DeleteAccount.Handle` -/
def deleteAccountHandler : Handle Reply := fun _ _ auth => do
  let auth ← orPanic auth
  deleteAccount auth.token.email
  .pure {}

/-- `AccountInfo.Handle` -/
def accountInfo : Handle Reply := fun env _ auth => do
  let auth ← orPanic auth
  .pure { body := .account auth.account.email (auth.account.deviceList env.now) }

/-- `LoginPage.Handle` -/
def loginPage : Handle Reply := fun _ _ _ =>
  match srv.templates.loginPage none with
  | some page => .pure { body := .bytes page }
  | none => .fail (.serverError .template)

/-- `Dashboard.Handle` with the values of `DashboardParams`, except for the
tokens that the CSRF protection makes up for the page. -/
def dashboard : Handle Reply := fun env r auth => do
  let auth ← orPanic auth
  let token := auth.account.findAuthToken { id := r.query (lit "token-id") }
  let page := srv.templates.dashboard auth.token auth.account.email
    (auth.account.deviceList env.now) (r.query (lit "action"))
    (token.map fun (_, t) => (t.description, t.id))
  match page with
  | some page => .pure { body := .bytes page }
  | none => .fail (.serverError .template)

/-- `Logout.Handle`. The result of the removal is not looked at. -/
def logout : Handle Reply := fun env r auth => do
  let auth ← orPanic auth
  let (acc, _) := auth.account.removeAuthToken auth.token
  let _ ← store (.putAccount env.now acc) >>= orFail
  let reply : Reply := { cookie := some { value := [], maxAge := -1, secure := srv.secure } }
  .pure (if r.acceptsHtml then srv.redirect r (lit "/login/") reply else reply)

/-- The account after a revocation: the found token expires in place, and is
written once more to the first slot that it matches. -/
def revoked (now : Time) (acc : Account) (pattern : AuthToken) : Option (AuthToken × Account) :=
  (acc.findAuthToken pattern).map fun (i, t) =>
    let t := { t with expires := now - minute }
    (t, ({ acc with authTokens := acc.authTokens.set i (some t) }).updateAuthToken t)

/-- `Revoke.Handle` -/
def revoke : Handle Reply := fun env r auth => do
  let token := r.postFormValue srv.net (lit "token")
  let id := r.postFormValue srv.net (lit "id")
  if token = [] ∧ id = [] then .fail (.badRequest (lit "No token or id provided"))
  else
    let auth ← orPanic auth
    match revoked env.now auth.account { token, id } with
    | none => .fail (.badRequest (lit "No such token"))
    | some (t, acc) =>
      let _ ← store (.putAccount env.now acc) >>= orFail
      let target := lit "/dashboard/?action=revoked&token-id=" ++ t.id
      .pure (if r.acceptsHtml then srv.redirect r target {} else {})

/-! ## Other pages -/

/-- `StaticHandler.Handle` -/
def staticFile : Handle Reply := fun _ r _ =>
  let file := srv.static r
  .pure { status := file.status, location := file.location, body := .bytes file.content }

/-- `RootHandler.Handle` -/
def root : Handle Reply := fun _ r _ =>
  if r.path ≠ lit "/" then .fail (.unsupportedEndpoint r.path)
  else .pure (srv.redirect r (lit "/dashboard/") {})

end Server

/-! ## Endpoints -/

/-- The implementations of `Handler`. -/
inductive Handler where
  | requestAuthToken
  | activateAuthToken
  | readStore
  | writeStore
  | deleteStore
  | deleteAccount
  | loginPage
  | dashboard
  | logout
  | revoke
  | accountInfo
  | static
  | root
  | void
  deriving DecidableEq

def Handler.handle (srv : Server) : Handler → Handle Reply
  | .requestAuthToken => srv.requestAuthToken
  | .activateAuthToken => srv.activateAuthToken
  | .readStore => Server.readStore
  | .writeStore => Server.writeStore
  | .deleteStore => srv.deleteStore
  | .deleteAccount => Server.deleteAccountHandler
  | .loginPage => srv.loginPage
  | .dashboard => srv.dashboard
  | .logout => srv.logout
  | .revoke => srv.revoke
  | .accountInfo => Server.accountInfo
  | .static => srv.staticFile
  | .root => srv.root
  | .void => fun _ _ _ => .pure {}

structure Endpoint where
  handlers : List (GoString × Handler)
  version : Int := 0
  authType : GoString := []
  deriving DecidableEq

/-- The entry of `Endpoint.Handlers` for a method. -/
def Endpoint.handler (endpoint : Endpoint) (method : GoString) : Option Handler :=
  (endpoint.handlers.find? fun entry => entry.1 = method).map Prod.snd

/-- `Endpoint.Handle` -/
def Endpoint.handle (srv : Server) (endpoint : Endpoint) : Handle Reply := fun env r auth =>
  match endpoint.handler r.method with
  | some h => h.handle srv env r auth
  | none => .fail (.serverError (.unexpectedMethod r.method))

theorem Endpoint.handle_eq {srv : Server} {endpoint : Endpoint} {env : Env} {r : Request}
    {auth : Option Auth} {h : Handler} (hHandler : endpoint.handler r.method = some h) :
    endpoint.handle srv env r auth = h.handle srv env r auth := by
  rw [handle, hHandler]

namespace Server

def apiVersion : Int := 1

/-- `Server.InitEndpoints` -/
def endpoints : List (GoString × Endpoint) :=
  [(lit "/auth/",
      { handlers := [(lit "PUT", .requestAuthToken), (lit "POST", .requestAuthToken)]
        version := apiVersion }),
    (lit "/login/",
      { handlers := [(lit "GET", .loginPage), (lit "POST", .requestAuthToken)] }),
    (lit "/activate/",
      { handlers := [(lit "GET", .activateAuthToken), (lit "POST", .activateAuthToken)] }),
    (lit "/a/",
      { handlers := [(lit "GET", .activateAuthToken), (lit "POST", .activateAuthToken)] }),
    (lit "/store/",
      { handlers :=
          [(lit "GET", .readStore), (lit "HEAD", .readStore), (lit "PUT", .writeStore),
            (lit "POST", .writeStore)]
        version := apiVersion
        authType := lit "universal" }),
    (lit "/deletestore/",
      { handlers := [(lit "POST", .deleteStore)], authType := lit "web" }),
    (lit "/deleteaccount/",
      { handlers := [(lit "POST", .deleteAccount)], authType := lit "universal" }),
    (lit "/dashboard/",
      { handlers := [(lit "GET", .dashboard)], authType := lit "web" }),
    (lit "/logout/",
      { handlers := [(lit "GET", .logout)], authType := lit "universal" }),
    (lit "/revoke/",
      { handlers := [(lit "POST", .revoke)], authType := lit "universal" }),
    (lit "/account/",
      { handlers := [(lit "GET", .accountInfo)], authType := lit "universal" }),
    (lit "/static/",
      { handlers := [(lit "GET", .static)] }),
    (lit "/",
      { handlers := [(lit "GET", .root), (lit "PUT", .void)] })]

/-- A lookup in `Server.Endpoints`. -/
def endpointAt (path : GoString) : Option Endpoint := endpoints.lookup path

/-- The paths against which redirects are checked are those of the endpoints. -/
theorem endpointPaths_eq : endpointPaths = endpoints.map Prod.fst := by decide

end Server

end PadlockCloud
