import PadlockCloud.Format.Json
import PadlockCloud.Go.Marshal
import PadlockCloud.Request.Region

/-!
# The replies to requests

How a request can end, whatever the storage answers: a handler replies with a status below
400 or fails with an error whose message needs no escapes, and such an error is answered by
`HandleError`. And the bytes that a reply is sent as.
-/

namespace PadlockCloud

open Process Format

/-! ## Bodies -/

namespace Body

/-- What the handler gives to `json.Marshal`, which puts the keys of a map in order. -/
def value : Body → Option (Value GoString)
  | bytes _ => none
  | json fields => some (.obj (fields.map fun (key, s) => (key, .str s)))
  | account email devices =>
    let device (description tokenId : GoString) : Value GoString :=
      .obj [(lit "description", .str description), (lit "tokenId", .str tokenId)]
    some (.obj [(lit "devices", .arr (devices.map fun (description, tokenId) =>
      device description tokenId)), (lit "email", .str email)])

/-- What the handler writes without `json.Marshal`. -/
def raw : Body → GoString
  | bytes content => content
  | _ => []

/-- The bytes that are sent. -/
def wire (body : Body) : GoString := body.value.elim body.raw (Value.print GoString.escape)

/-- JSON bodies are read back, except that invalid UTF-8 is replaced. -/
theorem parse_wire {body : Body} {v : Value GoString} (hValue : body.value = some v) :
    Value.parse body.wire = some (v.map GoString.toValid) := by
  rw [wire, hValue]
  exact Value.parse_print GoString.spells_escape v

end Body

namespace Request

/-- The client asks for errors in JSON. -/
def acceptsJson (r : Request) : Bool :=
  r.header .accept = lit "application/json" ||
    (lit "application/vnd.padlock").isPrefixOf (r.header .accept)

end Request

/-! ## Messages -/

/-- An ASCII byte that stands for itself in JSON. -/
def isText (c : UInt8) : Bool := isPlain c && c < 0x80

/-- The message needs no escapes. -/
def HttpError.Plain (e : HttpError) : Prop := ∀ c ∈ e.message, isText c = true

instance (e : HttpError) : Decidable e.Plain :=
  inferInstanceAs (Decidable (∀ c ∈ e.message, isText c = true))

/-- The digits of a number, and the sign before them. -/
theorem isText_toString (n : Int) : ∀ c ∈ lit (toString n), isText c = true := by
  have hDigit (c : Char) (hMem : c.isDigit = true) : isText c.val.toUInt8 = true := by
    simp only [Char.isDigit, ge_iff_le, Bool.and_eq_true, decide_eq_true_eq,
      UInt32.le_iff_toNat_le] at hMem
    have hRange : 0x30 ≤ c.val.toUInt8 ∧ c.val.toUInt8 ≤ 0x39 := by
      rw [UInt8.le_iff_toNat_le, UInt8.le_iff_toNat_le, UInt32.toNat_toUInt8]
      have hZero : '0'.val.toNat = 48 := rfl
      have hNine : '9'.val.toNat = 57 := rfl
      have hLow : (0x30 : UInt8).toNat = 48 := rfl
      have hHigh : (0x39 : UInt8).toNat = 57 := rfl
      omega
    exact forall_byte (P := fun b => 0x30 ≤ b ∧ b ≤ 0x39 → isText b = true) (by decide +kernel) _
      hRange
  have hDigits (m : Nat) : ∀ c ∈ (Nat.repr m).toList, isText c.val.toUInt8 = true := by
    intro c hc
    rw [Nat.toList_repr] at hc
    exact hDigit c (Nat.isDigit_of_mem_toDigits (by decide) (by decide) hc)
  intro c hc
  obtain ⟨d, hd, rfl⟩ := List.mem_map.mp hc
  cases n with
  | ofNat m => exact hDigits m d hd
  | negSucc m =>
    have hText : toString (Int.negSucc m) = "-" ++ Nat.repr (m + 1) := rfl
    rw [hText, String.toList_append, List.mem_append] at hd
    rcases hd with hSign | hRest
    · obtain rfl : d = '-' := List.mem_singleton.mp hSign
      decide
    · exact hDigits (m + 1) d hRest

namespace HttpError

/-- Only the message of a bad request has a text from the place where it comes up. -/
theorem plain {e : HttpError} (hText : ∀ msg, e = .badRequest msg → ∀ c ∈ msg, isText c = true) :
    e.Plain := by
  have hAppend {s t : GoString} (hs : ∀ c ∈ s, isText c = true) (ht : ∀ c ∈ t, isText c = true) :
      ∀ c ∈ s ++ t, isText c = true := by
    intro c hc
    rcases List.mem_append.mp hc with hLeft | hRight
    · exact hs c hLeft
    · exact ht c hRight
  cases e with
  | badRequest msg =>
    have hStatus : ∀ c ∈ statusText 400 ++ lit ": ", isText c = true := by decide +kernel
    exact hAppend hStatus (hText msg rfl)
  | unsupportedApiVersion found expected =>
    refine hAppend (hAppend (hAppend ?_ (isText_toString found)) ?_) (isText_toString expected)
    · decide +kernel
    · decide +kernel
  -- The other messages do not depend on what the error has with it.
  | invalidAuthToken => exact (show (invalidAuthToken [] []).Plain by decide +kernel)
  | expiredAuthToken => exact (show (expiredAuthToken [] []).Plain by decide +kernel)
  | invalidCsrfToken => exact (show invalidCsrfToken.Plain by decide +kernel)
  | methodNotAllowed => exact (show (methodNotAllowed []).Plain by decide +kernel)
  | unsupportedEndpoint => exact (show (unsupportedEndpoint []).Plain by decide +kernel)
  | accountNotFound => exact (show (accountNotFound []).Plain by decide +kernel)
  | rateLimitExceeded => exact (show rateLimitExceeded.Plain by decide +kernel)
  | serverError => exact (show (serverError .panicked).Plain by decide +kernel)
  | panic => exact (show panic.Plain by decide +kernel)

theorem plain_code (e : HttpError) : ∀ c ∈ e.code, isPlain c = true := by
  cases e <;> exact show ∀ c ∈ lit _, isPlain c = true by decide +kernel

/-- An error with a plain message is read as its code and its message. -/
theorem parse_jsonify {e : HttpError} (hPlain : e.Plain) :
    Value.parse e.jsonify =
      some (.obj [(lit "error", .str e.code), (lit "message", .str e.message)]) := by
  have hMessage : ∀ c ∈ e.message, isPlain c = true := fun c hc =>
    (Bool.and_eq_true_iff.mp (hPlain c hc)).1
  let v : Value { s : GoString // ∀ c ∈ s, isPlain c = true } :=
    .obj [(⟨lit "error", by decide +kernel⟩, .str ⟨e.code, e.plain_code⟩),
      (⟨lit "message", by decide +kernel⟩, .str ⟨e.message, hMessage⟩)]
  have hText : e.jsonify = v.print Subtype.val := by
    simp only [jsonify, v, Value.print, Value.printFields, List.append_assoc, List.cons_append,
      List.nil_append]
    rfl
  rw [hText, Value.parse_print (fun s => Spells.of_plain s.2) v]
  rfl

end HttpError

/-! ## Handlers -/

/-- The program ends with such a result or with an error whose message is plain. -/
abbrev Settles {α : Type} (post : α → Prop) (p : Serve α) : Prop := p.Ends post HttpError.Plain

/-- The reply tells of no error. -/
def Reply.Succeeds (reply : Reply) : Prop := reply.status < 400

namespace Settles

variable {α β : Type} {post : α → Prop} {f : α → Serve β} {post' : β → Prop}

theorem serverError (cause : Cause) : Settles post (.fail (.serverError cause)) :=
  HttpError.plain fun _ hText => by cases hText

theorem invalidAuthToken (email token : GoString) :
    Settles post (.fail (.invalidAuthToken email token)) :=
  HttpError.plain fun _ hText => by cases hText

theorem orFail {result : Except StorageError α} (hPost : ∀ a, post a) :
    Settles post (PadlockCloud.orFail result) := by
  cases result with
  | ok a => exact hPost a
  | error e => exact HttpError.plain fun _ hText => by cases hText

theorem orFail_bind {result : Except StorageError α} (hRest : ∀ a, Settles post' (f a)) :
    Settles post' ((PadlockCloud.orFail result).bind f) := by
  cases result with
  | ok a => exact hRest a
  | error e => exact HttpError.plain fun _ hText => by cases hText

theorem orPanic_bind {o : Option α} (hRest : ∀ a, Settles post' (f a)) :
    Settles post' ((PadlockCloud.orPanic o).bind f) := by
  cases o with
  | some a => exact hRest a
  | none => exact HttpError.plain fun _ hText => by cases hText

end Settles

namespace Server

variable {srv : Server} {env : Env} {r : Request} {auth : Option Auth} {endpoint : Endpoint}
  {h : Handle Reply}

/-! ### Requests for tokens -/

theorem plain_check {f : AuthForm} {e : HttpError} (hFails : f.check srv = .error e) :
    e.Plain := by
  unfold AuthForm.check at hFails
  have hEach {msg : GoString} (hText : (HttpError.badRequest msg).Plain)
      (hError : (.error (.badRequest msg) : Except HttpError Unit) = .error e) : e.Plain := by
    rwa [← Except.error.inj hError]
  split at hFails
  · exact hEach (by decide +kernel) hFails
  split at hFails
  · exact hEach (by decide +kernel) hFails
  split at hFails
  · exact hEach (by decide +kernel) hFails
  split at hFails
  · exact hEach (by decide +kernel) hFails
  · cases hFails

theorem settles_checkAccount (email : GoString) :
    Settles (fun _ => True) (checkAccount r email) := by
  unfold checkAccount
  split
  · trivial
  · intro found
    rcases found with (_ | _ | _) | acc
    · exact Settles.serverError _
    · intro data
      rcases data with (_ | _ | _) | content
      · exact Settles.serverError _
      · exact HttpError.plain fun _ hText => by cases hText
      · exact Settles.serverError _
      · trivial
    · exact Settles.serverError _
    · trivial

theorem settles_issueAuthRequest (f : AuthForm) :
    Settles (fun _ => True) (issueAuthRequest env f) := by
  unfold issueAuthRequest
  cases newAuthRequest env f.email f.type f.actType f.device with
  | none => exact Settles.serverError _
  | some ar => exact fun result => Settles.orFail_bind fun _ => trivial

theorem settles_authResponse (f : AuthForm) (ar : AuthRequest) :
    Settles (fun _ => True) (srv.authResponse r f ar) := by
  unfold authResponse
  dsimp only
  split
  · trivial
  · cases srv.templates.loginPage (some f.email) with
    | none => exact Settles.serverError _
    | some page => trivial

theorem settles_sendActivation (f : AuthForm) (ar : AuthRequest) :
    Settles (fun _ => True) (srv.sendActivation env r f ar) := by
  unfold sendActivation
  split
  · trivial
  · split
    · exact HttpError.plain fun _ hText => by cases hText
    · cases srv.templates.activateAuthTokenEmail (srv.activationLink r ar) ar.authToken ar.code with
      | none => exact Settles.serverError _
      | some body => exact fun _ => trivial

theorem settles_requestAuthToken : Settles Reply.Succeeds (srv.requestAuthToken env r auth) := by
  unfold requestAuthToken
  dsimp only
  cases hCheck : AuthForm.check srv (srv.authForm r auth) with
  | error e => exact plain_check hCheck
  | ok u =>
    apply (settles_checkAccount _).bind
    intro _ _
    apply (settles_issueAuthRequest _).bind
    intro ar _
    apply (settles_authResponse _ ar).bind
    intro response _
    apply (settles_sendActivation _ ar).bind
    intro _ _
    show 202 < 400
    omega

/-! ### Activations -/

theorem settles_activate (ar : AuthRequest) : Settles (fun _ => True) (activate env ar) := by
  unfold activate
  have hRest (acc : Account) : Settles (fun _ => True)
      ((store (.putAccount env.now acc)).bind fun result =>
        (orFail result).bind fun _ =>
          (store (.deleteAuthRequest ar.key)).bind fun result => orFail result) :=
    fun result => Settles.orFail_bind fun _ => fun result => Settles.orFail fun _ => trivial
  intro found
  rcases found with (_ | _ | _) | acc
  · exact Settles.serverError _
  · exact hRest _
  · exact Settles.serverError _
  · exact hRest _

theorem settles_getAuthRequest : Settles (fun _ => True) (srv.getAuthRequest r) := by
  have hNone : (HttpError.badRequest (lit "no activation token or code provided")).Plain := by
    decide +kernel
  have hInvalid : (HttpError.badRequest (lit "invalid activation token")).Plain := by
    decide +kernel
  unfold getAuthRequest
  cases hPattern : srv.activationPattern r with
  | error e =>
    unfold activationPattern at hPattern
    dsimp only at hPattern
    split at hPattern
    · obtain rfl := Except.error.inj hPattern
      exact hNone
    · cases hPattern
  | ok pattern =>
    intro found
    rcases found with (_ | _ | _) | ar
    · exact Settles.serverError _
    · exact hInvalid
    · exact Settles.serverError _
    · trivial

theorem settles_success (ar : AuthRequest) : Settles Reply.Succeeds (srv.success env r ar) := by
  have hFinish (cookie : Option Cookie) (target : GoString) : Settles Reply.Succeeds
      (.pure (if r.acceptsHtml then srv.redirect r target { cookie } else { cookie })) := by
    show Reply.Succeeds _
    split
    · exact show 302 < 400 by omega
    · exact show 200 < 400 by omega
  unfold success
  dsimp only
  split
  · cases newAuthRequest env ar.authToken.email (lit "web") [] ar.authToken.device with
    | none => exact Settles.serverError _
    | some login => exact (settles_activate login).bind fun _ _ => hFinish _ _
  · exact hFinish _ _

theorem settles_activateAuthToken (auth : Option Auth) :
    Settles Reply.Succeeds (srv.activateAuthToken env r auth) := by
  unfold activateAuthToken
  refine settles_getAuthRequest.attempt_bind (fun ar _ => ?_) (fun e hPlain _ => ?_)
    fun _ hPlain _ => hPlain
  · exact (settles_activate ar).bind fun _ _ => settles_success ar
  · dsimp only
    split
    · exact show 302 < 400 by omega
    · exact hPlain

/-! ### All handlers -/

/-- The endpoint serves files, and the reply is what the file server sends. -/
def SendsFile (endpoint : Endpoint) (reply : Reply) : Prop :=
  ∃ (method : GoString) (file : FileReply), endpoint.handler method = some .static ∧
    reply = { status := file.status, location := file.location, body := .bytes file.content }

theorem settles_handle {handler : Handler} (hStatic : handler ≠ .static) :
    Settles Reply.Succeeds (handler.handle srv env r auth) := by
  have hOk : Reply.Succeeds {} := show 200 < 400 by omega
  have hRedirect (target : GoString) (reply : Reply) :
      (srv.redirect r target reply).Succeeds := show 302 < 400 by omega
  cases handler with
  | requestAuthToken => exact settles_requestAuthToken
  | activateAuthToken => exact settles_activateAuthToken auth
  | readStore =>
    refine Settles.orPanic_bind fun a => fun found => ?_
    rcases found with (_ | _ | _) | content
    · exact Settles.serverError _
    · exact hOk
    · exact Settles.serverError _
    · exact hOk
  | writeStore =>
    refine Settles.orPanic_bind fun a => ?_
    split
    · exact Settles.serverError _
    · exact fun _ => Settles.orFail_bind fun _ => show 204 < 400 by omega
  | deleteStore =>
    exact Settles.orPanic_bind fun a => fun _ => Settles.orFail_bind fun _ => hRedirect _ _
  | deleteAccount =>
    refine Settles.orPanic_bind fun a => ?_
    have hDelete : Settles (fun _ => True) (deleteAccount a.token.email) :=
      fun _ => Settles.orFail_bind fun _ => fun _ => Settles.orFail fun _ => trivial
    exact hDelete.bind fun _ _ => hOk
  | loginPage =>
    rw [Handler.handle, loginPage]
    cases srv.templates.loginPage none with
    | none => exact Settles.serverError _
    | some page => exact hOk
  | dashboard =>
    refine Settles.orPanic_bind fun a => ?_
    dsimp only
    split
    · exact hOk
    · exact Settles.serverError _
  | logout =>
    refine Settles.orPanic_bind fun a => fun _ => Settles.orFail_bind fun _ => ?_
    show Reply.Succeeds _
    split
    · exact hRedirect _ _
    · exact hOk
  | revoke =>
    rw [Handler.handle, revoke]
    dsimp only
    split
    · exact show (HttpError.badRequest (lit "No token or id provided")).Plain by decide +kernel
    · refine Settles.orPanic_bind fun a => ?_
      split
      · exact show (HttpError.badRequest (lit "No such token")).Plain by decide +kernel
      · refine fun _ => Settles.orFail_bind fun _ => ?_
        show Reply.Succeeds _
        split
        · exact hRedirect _ _
        · exact hOk
  | accountInfo => exact Settles.orPanic_bind fun a => hOk
  | static => exact absurd rfl hStatic
  | root =>
    rw [Handler.handle, root]
    split
    · exact HttpError.plain fun _ hText => by cases hText
    · exact hRedirect _ _
  | void => exact hOk

theorem settles_endpoint :
    Settles (fun reply => reply.Succeeds ∨ SendsFile endpoint reply)
      (endpoint.handle srv env r auth) := by
  unfold Endpoint.handle
  cases hHandler : endpoint.handler r.method with
  | none => exact Settles.serverError _
  | some handler =>
    by_cases hStatic : handler = .static
    · subst hStatic
      exact .inr ⟨r.method, srv.static r, hHandler, rfl⟩
    · exact (settles_handle hStatic).mono (fun _ hSucceeds => .inl hSucceeds) fun _ hPlain => hPlain

/-! ## Middleware -/

/-- The reply is that of a handler, or it is the answer to an error with a plain message. -/
def Replied (srv : Server) (endpoint : Endpoint) (r : Request) (reply : Reply) : Prop :=
  reply.Succeeds ∨ SendsFile endpoint reply ∨
    ∃ e : HttpError, e.Plain ∧ reply = srv.handleError r e

theorem settles_sendDeprecatedVersionEmail :
    Settles (fun _ => True) (srv.sendDeprecatedVersionEmail env r) := by
  unfold sendDeprecatedVersionEmail
  refine Settles.orPanic_bind fun email => ?_
  split
  · cases srv.templates.deprecatedVersionEmail with
    | none => trivial
    | some body => exact fun _ => trivial
  · trivial

theorem plain_acceptToken {t : AuthToken} {acc : Account} {e : HttpError}
    (hFails : srv.acceptToken env r t acc = .error e) : e.Plain := by
  refine HttpError.plain fun msg hText => ?_
  subst hText
  unfold acceptToken at hFails
  split at hFails
  · cases hFails
  · split at hFails
    · cases hFails
    · split at hFails <;> cases hFails

theorem settles_authenticate : Settles (fun _ => True) (srv.authenticate env r) := by
  unfold authenticate
  cases authTokenFromRequest r with
  | none => exact Settles.invalidAuthToken _ _
  | some t =>
    intro found
    rcases found with (_ | _ | _) | acc
    · exact Settles.serverError _
    · exact Settles.invalidAuthToken _ _
    · exact Settles.serverError _
    · dsimp only
      rw [Program.pure_bind]
      dsimp only
      cases hAccept : srv.acceptToken env r t acc with
      | error e => exact plain_acceptToken hAccept
      | ok a => exact fun _ => Settles.orFail_bind fun _ => trivial

theorem header_version (srv : Server) (r : Request) :
    (srv.versionFromRequest r).2.header = r.header := by
  unfold versionFromRequest
  cases acceptVersion (r.header .accept) <;> rfl

/-- The reply to an error depends on the headers only. -/
theorem handleError_header {r' : Request} (hHeader : r'.header = r.header) (e : HttpError) :
    srv.handleError r' e = srv.handleError r e := by
  unfold handleError Request.acceptsHtml
  rw [hHeader]

theorem settles_csrfWrap (hHandle : ∀ r', Settles (srv.Replied endpoint r) (h env r' auth)) {r' : Request}
    (hHeader : r'.header = r.header) : Settles (srv.Replied endpoint r) (srv.csrfWrap h env r' auth) := by
  unfold csrfWrap
  split
  · dsimp only
    split
    · exact hHandle _
    · refine .inr (.inr ⟨.invalidCsrfToken, ?_, handleError_header hHeader _⟩)
      exact HttpError.plain fun _ hText => by cases hText
  · exact hHandle _

theorem settles_checksWrap :
    Settles (srv.Replied endpoint r) (srv.checksWrap endpoint (endpoint.handle srv) env r auth) := by
  have hHandle (r' : Request) : Settles (srv.Replied endpoint r) (endpoint.handle srv env r' auth) :=
    settles_endpoint.mono (fun _ hReply => hReply.imp id .inl) fun _ hPlain => hPlain
  unfold checksWrap checkEndpointVersionWrap
  dsimp only
  split
  · apply settles_sendDeprecatedVersionEmail.bind
    intro _ _
    exact HttpError.plain fun _ hText => by cases hText
  · split
    · exact settles_csrfWrap hHandle (header_version srv r)
    · exact hHandle _

theorem settles_authenticateWrap :
    Settles (srv.Replied endpoint r)
      (srv.authenticateWrap endpoint.authType (srv.checksWrap endpoint (endpoint.handle srv))
        env r auth) := by
  unfold authenticateWrap
  refine settles_authenticate.attempt_bind (fun a _ => ?_) (fun e hPlain _ => ?_)
    fun _ hPlain _ => hPlain
  · dsimp only
    split
    · exact settles_checksWrap
    · exact Settles.invalidAuthToken _ _
  · dsimp only
    split
    · exact settles_checksWrap
    · split
      · exact .inl (show 302 < 400 by omega)
      · exact hPlain

theorem settles_locked :
    Settles (srv.Replied endpoint r) (checkMethodWrap endpoint (lockAccountWrap
      (srv.authenticateWrap endpoint.authType (srv.checksWrap endpoint (endpoint.handle srv))))
        env r auth) := by
  unfold checkMethodWrap
  split
  · exact HttpError.plain fun _ hText => by cases hText
  · unfold lockAccountWrap
    cases authTokenFromRequest r with
    | none => exact settles_authenticateWrap
    | some t => exact fun _ => settles_authenticateWrap.ensure fun _ => trivial

/-- No error leaves the chain. -/
theorem replied_serve :
    (srv.serve endpoint env r).Ends (srv.Replied endpoint r) fun _ => False := by
  have hPanic : Settles (srv.Replied endpoint r) (handlePanicWrap (checkMethodWrap endpoint (lockAccountWrap
      (srv.authenticateWrap endpoint.authType (srv.checksWrap endpoint (endpoint.handle srv)))))
        env r none) := by
    unfold handlePanicWrap
    refine settles_locked.attempt_bind (fun reply hReplied => hReplied) (fun e hPlain _ => ?_)
      fun _ hPlain _ => hPlain
    cases e with
    | panic => exact Settles.serverError _
    | _ => exact hPlain
  rw [serve, wrapEndpoint, wrap_eq, handleErrorWrap]
  refine hPanic.attempt_bind (fun reply hReplied => hReplied) (fun e hPlain _ => ?_)
    fun _ _ hEscapes => Bool.false_ne_true hEscapes
  exact .inr (.inr ⟨e, hPlain, rfl⟩)

end Server

end PadlockCloud
