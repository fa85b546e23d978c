import PadlockCloud.Request.Acceptance
import PadlockCloud.Request.Bounds
import PadlockCloud.Request.Sound

/-!
# The scope of a request

Which records a request can write, whatever happens in between. It writes the account
and the data store of an email only when it has found an account or an auth request for
it: the handlers work on the account of the credential, an activation on the one of the
auth request. Only a request for a new token writes an auth request for an email that
it has from the client.
-/

namespace PadlockCloud

open Process

variable {b : Backend} {email : GoString}

/-- What a response is in sound tables. -/
def Call.sound (b : Backend) : (c : Call) → c.Resp → Prop
  | .storage (.getAccount key), answer => ∀ acc, answer = .ok acc → acc.Sound b.json key
  | .storage (.putAccount now acc), answer => ∀ acc', answer = .ok acc' → acc' = b.prepare now acc
  | .storage (.getAuthRequest _), answer => ∀ ar, answer = .ok ar →
    b.json.coerce ar.authToken.email = ar.authToken.email ∧ ar.authToken.Issued b.json
  | _, _ => True

namespace Tables

variable {T : Tables}

/-- A sound account keeps the tables sound. -/
theorem Sound.storeAccount (hSound : T.Sound b.json) (now : Time) {acc : Account}
    (hAccount : acc.Sound b.json acc.email) : (T.storeAccount b now acc).Sound b.json where
  toKept := hSound.toKept.storeAccount now hAccount.key
  tokens hFound := by
    rcases Tables.storeAccount_some hFound with ⟨rfl, rfl⟩ | hOld
    · have hStored := hAccount.stored_within (Account.Within.refl now acc) rfl now
      exact (hAccount.within hStored).tokens
    · exact hSound.tokens hOld
  issued hFound := hSound.issued hFound

theorem Sound.putAccount_none (hSound : T.Sound b.json) (k : GoString) :
    (T.putAccount k none).Sound b.json where
  toKept := hSound.toKept.putAccount_none k
  tokens hFound := by
    simp only [putAccount, Function.update_apply] at hFound
    split at hFound
    · cases hFound
    · exact hSound.tokens hFound
  issued := hSound.issued

theorem Sound.putDataStore (hSound : T.Sound b.json) (k : GoString) (content : Option GoString) :
    (T.putDataStore k content).Sound b.json :=
  ⟨hSound.toKept.putDataStore k content, hSound.tokens, hSound.issued⟩

theorem Sound.putAuthRequest (hSound : T.Sound b.json) (k : GoString) {found : Option AuthRequest}
    (hFound : ∀ ar, found = some ar → ar.marshal b.json = ar ∧ ar.authToken.Issued b.json) :
    (T.putAuthRequest k found).Sound b.json where
  toKept := hSound.toKept.putAuthRequest k fun ar hSome => (hFound ar hSome).1
  tokens := hSound.tokens
  issued hStored := by
    simp only [Tables.putAuthRequest, Function.update_apply] at hStored
    split at hStored
    · exact (hFound _ hStored).2
    · exact hSound.issued hStored

end Tables

namespace Call

variable {c : Call} {w : World Tables}

/-- Calls keep the tables sound that store only what is sound. -/
def keepsSound (b : Backend) : Call → Prop
  | .storage (.putAccount _ acc) => acc.Sound b.json acc.email
  | .storage (.putAuthRequest ar) => ar.authToken.Issued b.json
  | _ => True

theorem sound_exec (hSound : w.storage.Sound b.json) (hKeeps : c.keepsSound b) :
    (exec b c w).2.storage.Sound b.json := by
  rcases c with c | _ | _ | _
  · cases c with
    | putAccount now acc =>
      simp only [World.step, Tables.step, Backend.prepare_email]
      exact hSound.storeAccount now hKeeps
    | deleteAccount k => exact hSound.putAccount_none k
    | putAuthRequest ar =>
      apply hSound.putAuthRequest ar.key
      intro ar' hSome
      obtain rfl := Option.some.inj hSome
      exact ⟨AuthRequest.marshal_marshal ar, Server.marshal_issued hKeeps⟩
    | deleteAuthRequest k => exact hSound.putAuthRequest k fun _ hNone => by cases hNone
    | putDataStore acc content => exact hSound.putDataStore acc.email (some content)
    | deleteDataStore k => exact hSound.putDataStore k none
    | _ => exact hSound
  all_goals exact hSound

theorem sound_response (hSound : w.storage.Sound b.json) (c : Call) : c.sound b (exec b c w).1 := by
  rcases c with c | _ | _ | _
  · cases c with
    | getAccount k => exact fun acc hFound => hSound.soundAt (lookup_ok hFound)
    | putAccount now acc => exact fun acc' hStored => (Except.ok.inj hStored).symm
    | getAuthRequest k =>
      intro ar hFound
      have hStored := lookup_ok hFound
      exact ⟨hSound.request_email hStored, hSound.issued hStored⟩
    | _ => trivial
  all_goals trivial

/-- The call reads, or it does nothing to accounts and data stores. -/
def harmless : Call → Prop
  | .storage (.getAccount _) | .storage (.getDataStore _) | .storage (.getAuthRequest _)
  | .storage (.deleteAuthRequest _) | .storage (.iterator _) => True
  | .lock _ | .unlock _ => True
  | _ => False

end Call

/-- An activation keeps the account sound. -/
theorem Account.Sound.activated {acc : Account} {t : AuthToken} (hSound : acc.Sound b.json t.email)
    (hIssued : t.Issued b.json) : (Server.activated acc t).Sound b.json t.email := by
  have hExtended : (acc.extend [t]).Sound b.json t.email := by
    apply hSound.extend
    intro t' ht'
    rw [List.mem_singleton.mp ht']
    exact ⟨rfl, hIssued⟩
  exact hExtended.within (Account.activated_within acc t 0)

/-- The subject of the note on a deprecated version. -/
def deprecatedSubject : List Piece := [.text (lit "Please update your version of Padlock")]

/-! ## Handlers -/

/-- The calls that a request with a credential for the email may have to make, except that it
may read the data store. -/
structure Admits (b : Backend) (allowed : Call → Prop) (email : GoString) : Prop where
  get : allowed (.storage (.getAccount email))
  put : ∀ {now acc}, acc.Sound b.json email → allowed (.storage (.putAccount now acc))
  delete : allowed (.storage (.deleteAccount email))
  putData : ∀ {acc : Account} {content}, acc.email = email →
    allowed (.storage (.putDataStore acc content))
  deleteData : allowed (.storage (.deleteDataStore email))

/-- What a handler gets for a credential. -/
structure Auth.For (b : Backend) (email : GoString) (a : Auth) : Prop where
  account : a.account.Sound b.json email
  token : a.token.email = email

/-- What the responses say of the emails in reach, and which calls there are then. -/
structure Scope (srv : Server) (b : Backend) (reach : GoString → Prop)
    (known : (c : Call) → c.Resp → Prop) (allowed : Call → Prop) : Prop where
  sound : ∀ c answer, known c answer → c.sound b answer
  found : ∀ {key ar}, known (.storage (.getAuthRequest key)) (.ok ar) → reach ar.authToken.email
  admits : ∀ {email}, reach email → Admits b allowed email
  asks : ∀ ar : AuthRequest, ar.authToken.Issued b.json →
    srv.isWhitelisted ar.authToken.email = true → allowed (.storage (.putAuthRequest ar))
  mails : ∀ mail : Mail, srv.isWhitelisted mail.recipient = true → allowed (.send mail)
  notes : ∀ recipient body, allowed (.send ⟨recipient, deprecatedSubject, body⟩)
  harmless : ∀ c : Call, c.harmless → allowed c

namespace Server

variable {srv : Server} {env : Env} {r : Request} {auth : Option Auth} {endpoint : Endpoint}
  {known : (c : Call) → c.Resp → Prop} {allowed : Call → Prop} {α : Type} {post : α → Prop}

theorem stays_orFail {result : Except StorageError α} (hPost : ∀ a, result = .ok a → post a) :
    (orFail result).Stays known allowed post := by
  cases result with
  | ok a => exact hPost a rfl
  | error e => trivial

theorem stays_orPanic_bind {β : Type} {o : Option α} {f : α → Serve β} {post : β → Prop}
    (hRest : ∀ a, o = some a → (f a).Stays known allowed post) :
    ((orPanic o).bind f).Stays known allowed post := by
  cases o with
  | some a => exact hRest a rfl
  | none => trivial

/-- A storage call whose result is not looked at. -/
theorem stays_store {β : Type} {c : StorageCall} {k : c.Resp → Serve β}
    (hCall : allowed (.storage c)) (hRest : ∀ answer, known (.storage c) answer →
      (k answer).Stays known allowed fun _ => True) :
    ((store c).bind k).Stays known allowed fun _ => True := ⟨hCall, hRest⟩

/-- The handlers other than those for new tokens touch the records of the email only. -/
theorem stays_handle {handler : Handler}
    (hAdmits : ∀ a, auth = some a → ∃ email, Admits b allowed email ∧ a.For b email)
    (hReads : handler = .readStore → ∀ a, auth = some a →
      allowed (.storage (.getDataStore a.account)))
    (hRequests : handler ≠ .requestAuthToken)
    (hActivates : handler ≠ .activateAuthToken) :
    (handler.handle srv env r auth).Stays known allowed fun _ => True := by
  cases handler with
  | requestAuthToken => exact (hRequests rfl).elim
  | activateAuthToken => exact (hActivates rfl).elim
  | readStore =>
    refine stays_orPanic_bind fun a hSome => ?_
    refine stays_store (hReads rfl a hSome) fun found _ => ?_
    rcases found with (_ | _ | _) | content <;> trivial
  | writeStore =>
    refine stays_orPanic_bind fun a hSome => ?_
    obtain ⟨email, hAllowed, hFor⟩ := hAdmits a hSome
    split
    · trivial
    · refine stays_store (hAllowed.putData hFor.account.email) fun result _ => ?_
      exact (stays_orFail fun _ _ => trivial).bind fun _ _ => trivial
  | deleteStore =>
    refine stays_orPanic_bind fun a hSome => ?_
    obtain ⟨email, hAllowed, hFor⟩ := hAdmits a hSome
    rw [hFor.account.email]
    refine stays_store hAllowed.deleteData fun result _ => ?_
    exact (stays_orFail fun _ _ => trivial).bind fun _ _ => trivial
  | deleteAccount =>
    refine stays_orPanic_bind fun a hSome => ?_
    obtain ⟨email, hAllowed, hFor⟩ := hAdmits a hSome
    rw [hFor.token]
    have hDelete : (Server.deleteAccount email).Stays known allowed fun _ => True := by
      refine stays_store hAllowed.deleteData fun result _ => ?_
      refine (stays_orFail fun _ _ => trivial).bind fun _ _ => ?_
      exact stays_store hAllowed.delete fun result _ => stays_orFail fun _ _ => trivial
    exact hDelete.bind fun _ _ => trivial
  | loginPage =>
    rw [Handler.handle, loginPage]
    cases srv.templates.loginPage none <;> trivial
  | dashboard =>
    refine stays_orPanic_bind fun a _ => ?_
    dsimp only
    split <;> trivial
  | logout =>
    refine stays_orPanic_bind fun a hSome => ?_
    obtain ⟨email, hAllowed, hFor⟩ := hAdmits a hSome
    have hLeft := hFor.account.within (Account.within_removeAuthToken a.account a.token env.now)
    refine stays_store (hAllowed.put hLeft) fun result _ => ?_
    exact (stays_orFail fun _ _ => trivial).bind fun _ _ => trivial
  | revoke =>
    rw [Handler.handle, revoke]
    dsimp only
    split
    · trivial
    · refine stays_orPanic_bind fun a hSome => ?_
      obtain ⟨email, hAllowed, hFor⟩ := hAdmits a hSome
      split
      · trivial
      · rename_i t acc hRevoked
        obtain ⟨s, hs, -, -, -, -, -, hWithin⟩ := Account.revoked_eq env.now_epoch hRevoked
        have hLeft := hFor.account.within (hWithin (hFor.account.mem hs).2.token_ne_nil)
        refine stays_store (hAllowed.put hLeft) fun result _ => ?_
        exact (stays_orFail fun _ _ => trivial).bind fun _ _ => trivial
  | accountInfo => exact stays_orPanic_bind fun a _ => trivial
  | static => trivial
  | root =>
    rw [Handler.handle, root]
    split <;> trivial
  | void => trivial

/-! ### New tokens -/

theorem stays_checkAccount (hHarmless : ∀ c : Call, c.harmless → allowed c) (email : GoString) :
    (checkAccount r email).Stays known allowed fun _ => True := by
  unfold checkAccount
  split
  · trivial
  · refine stays_store (hHarmless _ trivial) fun found _ => ?_
    rcases found with (_ | _ | _) | acc
    · trivial
    · refine stays_store (hHarmless _ trivial) fun data _ => ?_
      rcases data with (_ | _ | _) | content <;> trivial
    · trivial
    · trivial

theorem stays_issueAuthRequest {f : AuthForm}
    (hPut : ∀ ar : AuthRequest, ar.authToken.Issued b.json →
      srv.isWhitelisted ar.authToken.email = true → allowed (.storage (.putAuthRequest ar)))
    (hListed : srv.isWhitelisted f.email = true) (hType : f.type = lit "api" ∨ f.type = lit "web") :
    (issueAuthRequest env f).Stays known allowed fun _ => True := by
  unfold issueAuthRequest
  cases hNew : newAuthRequest env f.email f.type f.actType f.device with
  | none => trivial
  | some ar =>
    have hIssued : ar.authToken.Issued b.json := newAuthRequest_issued hNew hType
    have hEmail : srv.isWhitelisted ar.authToken.email = true := by
      rwa [newAuthRequest_email hNew]
    refine stays_store (hPut { ar with redirect := f.redirect } hIssued hEmail) fun result _ => ?_
    exact (stays_orFail fun _ _ => trivial).bind fun _ _ => trivial

/-- What a request for a new token does once it has found the account. -/
theorem stays_grantToken {f : AuthForm}
    (hPut : ∀ ar : AuthRequest, ar.authToken.Issued b.json →
      srv.isWhitelisted ar.authToken.email = true → allowed (.storage (.putAuthRequest ar)))
    (hSend : ∀ mail : Mail, srv.isWhitelisted mail.recipient = true → allowed (.send mail))
    (hCheck : f.check srv = .ok ()) :
    ((issueAuthRequest env f).bind fun ar => (srv.authResponse r f ar).bind fun response =>
      (srv.sendActivation env r f ar).bind fun _ =>
        .pure { status := 202, body := response : Reply }).Stays known allowed fun _ => True := by
  obtain ⟨-, hListed, hType, -⟩ := AuthForm.check_ok hCheck
  refine (stays_issueAuthRequest hPut hListed hType).bind fun ar _ => ?_
  have hResponse : (srv.authResponse r f ar).Stays known allowed fun _ => True := by
    unfold authResponse
    dsimp only
    split
    · trivial
    · cases srv.templates.loginPage (some f.email) <;> trivial
  refine hResponse.bind fun response _ => ?_
  have hMail : (srv.sendActivation env r f ar).Stays known allowed fun _ => True := by
    unfold sendActivation
    split
    · trivial
    · split
      · trivial
      · cases srv.templates.activateAuthTokenEmail (srv.activationLink r ar) ar.authToken ar.code
        · trivial
        · exact ⟨hSend _ hListed, fun _ _ => trivial⟩
  exact hMail.bind fun _ _ => trivial

/-- A request for a new token looks for the records of the email that it names, and
stores the auth request. -/
theorem stays_requestAuthToken
    (hCheck : ∀ email, (checkAccount r email).Stays known allowed fun _ => True)
    (hPut : ∀ ar : AuthRequest, ar.authToken.Issued b.json →
      srv.isWhitelisted ar.authToken.email = true → allowed (.storage (.putAuthRequest ar)))
    (hSend : ∀ mail : Mail, srv.isWhitelisted mail.recipient = true → allowed (.send mail)) :
    (srv.requestAuthToken env r auth).Stays known allowed fun _ => True := by
  unfold requestAuthToken
  dsimp only
  cases hForm : AuthForm.check srv (srv.authForm r auth) with
  | error e => trivial
  | ok u => exact (hCheck _).bind fun _ _ => stays_grantToken hPut hSend hForm

/-! ## Middleware -/

/-- A request accepted for an account gets this account, and a token for it. -/
theorem stays_authenticate {t : AuthToken} (hToken : authTokenFromRequest r = some t)
    (hSound : ∀ c answer, known c answer → c.sound b answer)
    (hGet : allowed (.storage (.getAccount t.email)))
    (hAdmits : ∀ acc, known (.storage (.getAccount t.email)) (.ok acc) →
      Admits b allowed t.email) :
    (srv.authenticate env r).Stays known allowed fun a => a.For b t.email ∧
      Admits b allowed t.email := by
  unfold authenticate
  rw [hToken]
  refine ⟨hGet, fun found hFound => ?_⟩
  rcases found with (_ | _ | _) | acc
  · trivial
  · trivial
  · trivial
  · dsimp only [Program.pure_bind]
    have hStored := hSound _ _ hFound acc rfl
    have hAllowed := hAdmits acc hFound
    cases hAccept : srv.acceptToken env r t acc with
    | error e => trivial
    | ok a =>
      obtain ⟨hSecret, -, hDevice, -⟩ := authTokenFromString_some hToken
      have hAccepted := accepted_of_acceptToken hDevice hAccept
      have hWithin := hAccepted.within hSecret fun s hs => (hStored.mem hs).2.type_ne_skeleton
      have hAccount := hStored.within hWithin
      have hOwner : a.token.email = t.email := by
        rcases hAccepted.token with ⟨-, -, -, hEq⟩ | ⟨-, s, hs, -, -, hEq⟩
        · rw [hEq]
          rfl
        · rw [hEq]
          exact (hStored.mem hs).1
      refine ⟨hAllowed.put hAccount, fun result hResult => ?_⟩
      have hPrepared : (orFail result : Serve Account).Stays known allowed fun acc' =>
          acc' = b.prepare env.now a.account := stays_orFail (hSound _ _ hResult)
      refine hPrepared.bind fun acc' hPrepared => ?_
      have hKept := hAccount.within ((Account.Within.refl env.now a.account).prepare b env.now)
      exact ⟨⟨hPrepared ▸ hKept, hOwner⟩, hAllowed⟩

theorem stays_sendDeprecatedVersionEmail
    (hSend : ∀ recipient body, allowed (.send ⟨recipient, deprecatedSubject, body⟩)) :
    (srv.sendDeprecatedVersionEmail env r).Stays known allowed fun _ => True := by
  unfold sendDeprecatedVersionEmail
  refine stays_orPanic_bind fun recipient _ => ?_
  split
  · cases srv.templates.deprecatedVersionEmail with
    | none => trivial
    | some body => exact ⟨hSend _ _, fun _ _ => trivial⟩
  · trivial

/-- A request without a credential makes the calls of its handler, and may send a note on a
deprecated version. -/
theorem stays_anonymous {h : Handle Reply} (hToken : authTokenFromRequest r = none)
    (hSend : ∀ recipient body, allowed (.send ⟨recipient, deprecatedSubject, body⟩))
    (hHandle : ∀ r', srv.checked endpoint r none = some r' →
      (h env r' none).Stays known allowed fun _ => True) :
    (srv.wrap endpoint h env r none).Stays known allowed fun _ => True := by
  have hChecks : (srv.checksWrap endpoint h env r none).Stays known allowed fun _ => True := by
    rcases checksWrap_cases srv endpoint r none with ⟨r', hChecked, hEq⟩ | ⟨e, hEq⟩ | ⟨reply, hEq⟩
    · rw [hEq]
      exact hHandle r' hChecked
    · rw [hEq]
      exact (stays_sendDeprecatedVersionEmail hSend).bind fun _ _ => trivial
    · rw [hEq]
      trivial
  have hInner : (srv.authenticateWrap endpoint.authType (srv.checksWrap endpoint h) env r
      none).Stays known allowed fun _ => True := by
    have hFails : srv.authenticate env r = .fail (.invalidAuthToken [] []) := by
      rw [authenticate, hToken]
    rw [authenticateWrap, hFails]
    show (if endpoint.authType = [] then _ else _ : Serve Reply).Stays known allowed _
    split
    · exact hChecks
    · split <;> trivial
  obtain ⟨f, g, hf, hg, hEq⟩ := wrapped_eq srv endpoint h env r
  rw [hEq]
  have hMethod : (checkMethodWrap endpoint (lockAccountWrap (srv.authenticateWrap endpoint.authType
      (srv.checksWrap endpoint h))) env r none).Stays known allowed fun _ => True := by
    unfold checkMethodWrap lockAccountWrap
    split
    · trivial
    · rw [hToken]
      exact hInner
  have hPanics := (hMethod.attempt fun _ => false).bind fun result _ => (hf result).stays
  exact (hPanics.attempt fun _ => false).bind fun result _ => (hg result).stays

/-- The cleanup job deletes auth requests only. -/
theorem stays_cleanAuthRequests (hWalk : ∀ keys, allowed (.storage (.iterator keys)))
    (hDelete : ∀ key, allowed (.storage (.deleteAuthRequest key))) (now : Time)
    (keys : List GoString) : (cleanAuthRequests now keys).Stays known allowed fun _ => True := by
  have hRest (requests : List AuthRequest) :
      (deleteOld now requests).Stays known allowed fun _ => True := by
    induction requests with
    | nil => trivial
    | cons ar requests ih =>
      rw [deleteOld]
      split
      · exact ⟨hDelete ar.key, fun _ _ => ih⟩
      · exact ih
  refine ⟨hWalk keys, fun answer _ => ?_⟩
  cases answer with
  | error e => trivial
  | ok requests => exact hRest requests

end Server

/-! ## Whole requests -/

namespace Scope

open Server

variable {srv : Server} {env : Env} {r : Request} {auth : Option Auth} {endpoint : Endpoint}
  {known : (c : Call) → c.Resp → Prop} {allowed : Call → Prop} {reach : GoString → Prop}
  (hScope : Scope srv b reach known allowed)

include hScope

theorem requestAuthToken :
    (srv.requestAuthToken env r auth).Stays known allowed fun _ => True :=
  stays_requestAuthToken (stays_checkAccount hScope.harmless) hScope.asks hScope.mails

theorem activate {ar : AuthRequest} (hReach : reach ar.authToken.email)
    (hCoerce : b.json.coerce ar.authToken.email = ar.authToken.email)
    (hIssued : ar.authToken.Issued b.json) :
    (Server.activate env ar).Stays known allowed fun _ => True := by
  have hRest {acc : Account} (hSound : acc.Sound b.json ar.authToken.email) :
      ((store (.putAccount env.now (activated acc ar.authToken))).bind fun result =>
        (orFail result).bind fun _ =>
          (store (.deleteAuthRequest ar.key)).bind fun result => orFail result).Stays
            known allowed fun _ => True := by
    refine stays_store ((hScope.admits hReach).put (hSound.activated hIssued)) fun result _ => ?_
    refine (stays_orFail fun _ _ => trivial).bind fun _ _ => ?_
    exact stays_store (hScope.harmless _ trivial) fun result _ => stays_orFail fun _ _ => trivial
  unfold Server.activate
  refine stays_store (hScope.harmless _ trivial) fun found hFound => ?_
  rcases found with (_ | _ | _) | acc
  · trivial
  · exact hRest (.empty hCoerce)
  · trivial
  · exact hRest (hScope.sound _ _ hFound acc rfl)

theorem success {ar : AuthRequest} (hReach : reach ar.authToken.email)
    (hCoerce : b.json.coerce ar.authToken.email = ar.authToken.email) :
    (srv.success env r ar).Stays known allowed fun _ => True := by
  unfold Server.success
  dsimp only
  split
  · cases hNew : newAuthRequest env ar.authToken.email (lit "web") [] ar.authToken.device with
    | none => trivial
    | some login =>
      have hEmail := newAuthRequest_email hNew
      have hLogin : (Server.activate env login).Stays known allowed fun _ => True := by
        apply hScope.activate
        · rwa [hEmail]
        · rwa [hEmail]
        · exact newAuthRequest_issued hNew (.inr rfl)
      exact hLogin.bind fun _ _ => trivial
  · trivial

/-- An activation writes the account of the auth request that it finds. -/
theorem activateAuthToken (auth : Option Auth) :
    (srv.activateAuthToken env r auth).Stays known allowed fun _ => True := by
  have hFound : (srv.getAuthRequest r).Stays known allowed fun ar =>
      reach ar.authToken.email ∧ b.json.coerce ar.authToken.email = ar.authToken.email ∧
        ar.authToken.Issued b.json := by
    unfold getAuthRequest
    cases srv.activationPattern r with
    | error e => trivial
    | ok pattern =>
      refine ⟨hScope.harmless _ trivial, fun answer hAnswer => ?_⟩
      rcases answer with (_ | _ | _) | ar
      · trivial
      · trivial
      · trivial
      · exact ⟨hScope.found hAnswer, hScope.sound _ _ hAnswer ar rfl⟩
  refine (hFound.attempt HttpError.isPanic).bind fun result hResult => ?_
  cases result with
  | error e =>
    dsimp only
    split <;> trivial
  | ok ar =>
    obtain ⟨hReach, hCoerce, hIssued⟩ := hResult ar rfl
    exact (hScope.activate hReach hCoerce hIssued).bind fun _ _ => hScope.success hReach hCoerce

theorem handle (hAuth : ∀ a, auth = some a → ∃ other, Admits b allowed other ∧ a.For b other) :
    (endpoint.handle srv env r auth).Stays known allowed fun _ => True := by
  unfold Endpoint.handle
  cases endpoint.handler r.method with
  | none => trivial
  | some handler =>
    by_cases hActivates : handler = .activateAuthToken
    · subst hActivates
      exact hScope.activateAuthToken auth
    · by_cases hRequests : handler = .requestAuthToken
      · subst hRequests
        exact hScope.requestAuthToken
      · exact stays_handle hAuth (fun _ _ _ => hScope.harmless _ trivial) hRequests hActivates

theorem checksWrap (hAuth : ∀ a, auth = some a → ∃ other, Admits b allowed other ∧ a.For b other) :
    (srv.checksWrap endpoint (endpoint.handle srv) env r auth).Stays known allowed
      fun _ => True := by
  rcases checksWrap_cases srv endpoint r auth with
    ⟨r', -, hEq⟩ | ⟨e, hEq⟩ | ⟨reply, hEq⟩
  · rw [hEq]
    exact hScope.handle hAuth
  · rw [hEq]
    exact (stays_sendDeprecatedVersionEmail hScope.notes).bind fun _ _ => trivial
  · rw [hEq]
    trivial

/-- Past the mutex: what is found for the credential is in reach. -/
theorem inner (endpoint : Endpoint) (env : Env)
    (hFound : ∀ t acc, authTokenFromRequest r = some t →
      known (.storage (.getAccount t.email)) (.ok acc) → reach t.email) :
    (srv.authenticateWrap endpoint.authType (srv.checksWrap endpoint (endpoint.handle srv)) env r
      none).Stays known allowed fun _ => True := by
  have hAuthenticate : (srv.authenticate env r).Stays known allowed fun a =>
      ∃ other, Admits b allowed other ∧ a.For b other := by
    cases hToken : authTokenFromRequest r with
    | none =>
      unfold authenticate
      rw [hToken]
      trivial
    | some t =>
      refine (stays_authenticate hToken hScope.sound (hScope.harmless _ trivial) ?_).mono ?_
      · exact fun acc hAccount => hScope.admits (hFound t acc hToken hAccount)
      · exact fun a hFor => ⟨t.email, hFor.2, hFor.1⟩
  refine (hAuthenticate.attempt HttpError.isPanic).bind fun result hResult => ?_
  cases result with
  | error e =>
    dsimp only
    split
    · exact hScope.checksWrap fun _ hNone => by cases hNone
    · split <;> trivial
  | ok a =>
    dsimp only
    split
    · refine hScope.checksWrap fun a' hSome => ?_
      rw [← Option.some.inj hSome]
      exact hResult a rfl
    · trivial

/-- A request stays in its scope. -/
theorem serve (hFound : ∀ t acc, authTokenFromRequest r = some t →
      known (.storage (.getAccount t.email)) (.ok acc) → reach t.email) :
    (srv.serve endpoint env r).Stays known allowed fun _ => True := by
  obtain ⟨f, g, hf, hg, hEq⟩ := wrapped_eq srv endpoint (endpoint.handle srv) env r
  rw [Server.serve, wrapEndpoint, hEq]
  have hInner := hScope.inner endpoint env hFound
  have hLocked : (checkMethodWrap endpoint (lockAccountWrap (srv.authenticateWrap endpoint.authType
      (srv.checksWrap endpoint (endpoint.handle srv)))) env r none).Stays known allowed
        fun _ => True := by
    unfold checkMethodWrap
    split
    · trivial
    · unfold lockAccountWrap
      cases authTokenFromRequest r with
      | none => exact hInner
      | some t =>
        have hUnlock : (Program.request (Call.unlock t.email) : Serve Unit).Stays known allowed
            fun _ => True := ⟨hScope.harmless _ trivial, fun _ _ => trivial⟩
        exact ⟨hScope.harmless _ trivial, fun _ _ => hInner.ensure hUnlock⟩
  have hPanics := (hLocked.attempt fun _ => false).bind fun result _ => (hf result).stays
  exact (hPanics.attempt fun _ => false).bind fun result _ => (hg result).stays

/-- An action stays in its scope. -/
theorem program {action : Action} (hFound : ∀ email acc, action.mutex = some email →
      known (.storage (.getAccount email)) (.ok acc) → reach email) :
    (action.program srv).Stays known allowed fun _ => True := by
  cases action with
  | clean now keys =>
    have hClean : (cleanAuthRequests now keys).Stays known allowed fun _ => True :=
      stays_cleanAuthRequests (fun _ => hScope.harmless _ trivial)
        (fun _ => hScope.harmless _ trivial) now keys
    exact hClean.bind fun _ _ => trivial
  | serve endpoint env r =>
    have hServe : (srv.serve endpoint env r).Stays known allowed fun _ => True := by
      refine hScope.serve fun t acc hToken => hFound t.email acc ?_
      rw [Action.mutex, hToken, Option.map_some]
    exact hServe.bind fun _ _ => trivial

end Scope

end PadlockCloud
