import PadlockCloud.Go.Url
import PadlockCloud.Model.Error
import PadlockCloud.Model.Mail

/-!
# The server

`server.go`: the configuration, the calls that a request makes, and the
functions that the handlers and the middleware share. A request is a program
over calls: one call is one `Storage` operation, one operation on an account
mutex, or the start of the goroutine that sends a mail.

`LockAccount` and `UnlockAccount` look the mutex up in a map that nothing guards. One call
stands for all of their accesses, which is what they amount to as long as no two requests look
a mutex up at the same time: `Model/Mutexes` has the accesses, and `Request/Locking` the proof.
-/

namespace PadlockCloud

open Process Time

/-! ## Calls -/

inductive Call where
  | storage (c : StorageCall)
  | lock (email : GoString)
  | unlock (email : GoString)
  | send (mail : Mail)

abbrev Call.Resp : Call → Type
  | .storage c => c.Resp
  | .lock _ | .unlock _ | .send _ => Unit

/-- The state that the requests share: the storage, the mutexes that are held,
and the mails that are on their way, each in a goroutine of its own. -/
structure World (σ : Type) where
  storage : σ
  held : GoString → Bool := fun _ => false
  outbox : List Mail := []

def World.step {σ : Type} (S : Interp StorageCall.Resp σ) : Interp Call.Resp (World σ)
  | .storage c, w => ((S c w.storage).1, { w with storage := (S c w.storage).2 })
  | .lock email, w => ((), { w with held := Function.update w.held email true })
  | .unlock email, w => ((), { w with held := Function.update w.held email false })
  | .send mail, w => ((), { w with outbox := w.outbox ++ [mail] })

/-- A mutex that is held blocks the next `Lock`. -/
def Call.enabled {σ : Type} : Call → World σ → Bool
  | .lock email, w => !w.held email
  | _, _ => true

abbrev Serve (α : Type) := Program Call.Resp HttpError α

/-- A storage call, with its result or error. -/
def store (c : StorageCall) : Serve c.Resp := Program.request (Call.storage c)

/-- Starts the goroutine that sends the mail. Nobody waits for it, and it logs its errors. -/
def sendMail (mail : Mail) : Serve Unit := Program.request (Call.send mail)

/-- Returns the error of a storage call. -/
def orFail {α : Type} : Except StorageError α → Serve α
  | .ok a => .pure a
  | .error e => .fail (.serverError (.storage e))

/-- A dereferenced `nil` panics. -/
def orPanic {α : Type} : Option α → Serve α
  | some a => .pure a
  | none => .fail .panic

/-! ## Configuration -/

def safeMethods : List GoString := [lit "GET", lit "HEAD", lit "OPTIONS", lit "TRACE"]

instance (method : GoString) : Decidable (method ∈ safeMethods) :=
  List.instDecidableMemOfLawfulBEq method safeMethods

/-- The CSRF protection of `gorilla/csrf`: whether it lets a request pass, and
the request as it is afterwards. The fields state its documented behaviour: the
safe methods pass unseen, and for the others the token is looked up in the
header `X-CSRF-Token` first and in the form second. -/
structure Csrf (net : NetHttp) where
  protect : Request → Bool × Request
  safe : ∀ r, r.method ∈ safeMethods → protect r = (true, r)
  header_first : ∀ r, r.method ∉ safeMethods → r.header .csrfToken ≠ [] →
    (protect r).1 = true → (protect r).2 = r
  form_second : ∀ r, r.method ∉ safeMethods → r.header .csrfToken = [] →
    (protect r).1 = true → (protect r).2 = r.formParsed net

/-- The parsed templates. Executing one can fail. -/
structure Templates where
  loginPage : Option GoString → Option GoString
  dashboard : AuthToken → GoString → List (GoString × GoString) → GoString →
    Option (GoString × GoString) → Option GoString
  errorPage : GoString → Option GoString
  activateAuthTokenEmail : GoString → AuthToken → GoString → Option (List Piece)
  deprecatedVersionEmail : Option (List Piece)

/-- What `http.FileServer` sends: the content of a file or, with a status of its own, a redirect,
a note that the client's copy is up to date, or an error page. -/
structure FileReply where
  status : Nat := 200
  location : Option GoString := none
  content : GoString

structure Server where
  baseUrl : GoString := []
  test : Bool := false
  skeletonKey : GoString := []
  skeletonIP : GoString := []
  secure : Bool := false
  whitelist : Option (List GoString) := none
  net : NetHttp
  netUrl : NetUrl
  csrf : Csrf net
  templates : Templates
  /-- The file server behind `/static/`. -/
  static : Request → FileReply

namespace Server

variable (srv : Server)

/-- `Server.BaseUrl` -/
def baseUrlOf (r : Request) : GoString :=
  if srv.baseUrl ≠ [] then GoString.trimSlash srv.baseUrl
  else (if srv.secure then lit "https" else lit "http") ++ lit "://" ++ r.host

/-- `Whitelist.IsWhitelisted`, where no whitelist admits everyone. -/
def isWhitelisted (email : GoString) : Bool :=
  match srv.whitelist with
  | some emails => emails.contains email
  | none => true

/-! ## Requests and versions -/

/-- The submatch of `^application/vnd.padlock;version=(\d)$`. The dot of the
pattern matches any one rune. -/
def acceptVersion (accept : GoString) : Option GoString :=
  match GoString.stripPrefix (lit "application/vnd") accept with
  | none => none
  | some rest =>
    if rest.head? = none ∨ rest.head? = some 0x0A then none
    else
      match GoString.stripPrefix (lit "padlock;version=") (rest.drop (GoString.runeSize rest)) with
      | some [d] => if GoString.isDigit d then some [d] else none
      | _ => none

/-- `versionFromRequest`. Without a version in the `Accept` header the form is
parsed, which may consume the body. -/
def versionFromRequest (r : Request) : Int × Request :=
  let (vString, r) :=
    match acceptVersion (r.header .accept) with
    | some v => (v, r)
    | none => (r.postFormValue srv.net (lit "api_version"), r.formParsed srv.net)
  let vString := if vString = [] then r.query (lit "v") else vString
  (GoString.atoi vString, r)

/-- The email that `SendDeprecatedVersionEmail` finds in a request: in the
credential, in the path of a `DELETE`, or in the form. Slicing an empty path
panics. -/
def deprecatedVersionRecipient (r : Request) : Option GoString :=
  let email := ((authTokenFromRequest r).map AuthToken.email).getD []
  if email ≠ [] then some email
  else if r.method = lit "DELETE" then if r.path = [] then none else some (r.path.drop 1)
  else if r.method = lit "PUT" ∨ r.method = lit "POST" then
    some (r.postFormValue srv.net (lit "email"))
  else some []

/-- `Server.SendDeprecatedVersionEmail`. Its error is ignored by its caller. -/
def sendDeprecatedVersionEmail (env : Env) (r : Request) : Serve Unit := do
  let email ← orPanic (srv.deprecatedVersionRecipient r)
  if email ≠ [] ∧ !env.rateLimited (ipFromRequest r) email then
    match srv.templates.deprecatedVersionEmail with
    | some body =>
      sendMail ⟨email, [.text (lit "Please update your version of Padlock")], body⟩
    | none => .pure ()
  else .pure ()

/-! ## Authentication -/

/-- Identifies the presented token: the skeleton key, or the token of the
account that replaces it, with its slot. -/
def identify (r : Request) (authToken : AuthToken) (acc : Account) :
    Option (AuthToken × Option Nat) :=
  if authToken.type = lit "skeleton" then
    if srv.skeletonKey = [] ∨ (srv.skeletonIP ≠ [] ∧ srv.skeletonIP ≠ ipFromRequest r) ∨
        srv.skeletonKey ≠ authToken.token then none
    else some (authToken, none)
  else (authToken.validate acc).map fun (i, stored) => (stored, some i)

/-- Notes the use of a token. Where it has a device, the copy shares the pointer
with the token in the account, so that one is updated in place. -/
def noteUse (env : Env) (r : Request) (authToken : AuthToken) (slot : Option Nat) (acc : Account) :
    AuthToken × Account :=
  let authToken := { authToken with lastUsed := env.now }
  match authToken.device with
  | none => ({ authToken with device := deviceFromRequest r }, acc)
  | some d =>
    let d := d.updateFromRequest r
    let shared (t : AuthToken) : AuthToken := { t with device := some d }
    ({ authToken with device := some d },
      { acc with
        authTokens :=
          slot.elim acc.authTokens fun i => acc.authTokens.modify i (Option.map shared) })

/-- The body of `Authenticate` between `Storage.Get` and `Storage.Put`. -/
def acceptToken (env : Env) (r : Request) (authToken : AuthToken) (acc : Account) :
    Except HttpError Auth :=
  match (acc.expireUnusedAuthTokens env.now).bind fun acc => acc.removeExpiredAuthTokens env.now with
  | none => .error .panic
  | some acc =>
  match srv.identify r authToken acc with
  | none => .error (.invalidAuthToken authToken.email authToken.token)
  | some (authToken, slot) =>
    if authToken.expired env.now then
      .error (.expiredAuthToken authToken.email authToken.token)
    else
      let (authToken, acc) := noteUse env r authToken slot acc
      .ok ⟨authToken, acc.updateAuthToken authToken⟩

/-- `Server.Authenticate` -/
def authenticate (env : Env) (r : Request) : Serve Auth :=
  match authTokenFromRequest r with
  | none => .fail (.invalidAuthToken [] [])
  | some authToken => do
    match ← store (.getAccount authToken.email) with
    | .error .notFound => .fail (.invalidAuthToken authToken.email authToken.token)
    | .error e => .fail (.serverError (.storage e))
    | .ok acc =>
      match srv.acceptToken env r authToken acc with
      | .error e => .fail e
      | .ok auth =>
        let acc ← store (.putAccount env.now auth.account) >>= orFail
        .pure ⟨auth.token, acc⟩

/-- `Server.DeleteAccount` -/
def deleteAccount (email : GoString) : Serve Unit := do
  store (.deleteDataStore email) >>= orFail
  store (.deleteAccount email) >>= orFail

/-- The loop of the `cleanAuthRequests` job. The error of a deletion is only
logged. -/
def deleteOld (now : Time) : List AuthRequest → Serve Unit
  | [] => .pure ()
  | ar :: requests =>
    if ar.created < now - 24 * hour then
      (store (.deleteAuthRequest ar.key)).bind fun _ => deleteOld now requests
    else deleteOld now requests

/-- The action of the `cleanAuthRequests` job. -/
def cleanAuthRequests (now : Time) (keys : List GoString) : Serve Unit := do
  match ← store (.iterator keys) with
  | .error _ => .pure ()
  | .ok requests => deleteOld now requests

end Server

end PadlockCloud
