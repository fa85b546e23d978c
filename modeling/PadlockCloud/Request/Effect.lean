import PadlockCloud.Request.Acceptance

/-!
# What a request writes

`Effect` lists the writes of each handler, guards included: there is one
constructor for every way in which a handler changes the tables. A whole
request is the write-back of `Authenticate`, if there is one, followed by the
effect of its handler (`serve_effect`). The invariants of the server are proved
from these cases and never look at the programs again.
-/

namespace PadlockCloud

open Process Time

/-- Stores an account the way `Storage.Put` does. -/
def Tables.storeAccount (T : Tables) (b : Backend) (now : Time) (acc : Account) : Tables :=
  T.putAccount acc.email (some ((b.prepare now acc).marshal b.json))

theorem Tables.step_putAccount (b : Backend) (now : Time) (acc : Account) (T : Tables) :
    Tables.step b (.putAccount now acc) T = (.ok (b.prepare now acc), T.storeAccount b now acc) := by
  simp [Tables.step, Tables.storeAccount]

theorem Tables.storeAccount_self (T : Tables) (b : Backend) (now : Time) (acc : Account) :
    (T.storeAccount b now acc).accounts acc.email = some ((b.prepare now acc).marshal b.json) :=
  Function.update_self _ _ _

theorem Tables.storeAccount_of_ne {T : Tables} {b : Backend} {now : Time} {acc : Account}
    {k : GoString} (hOther : k ≠ acc.email) :
    (T.storeAccount b now acc).accounts k = T.accounts k := Function.update_of_ne hOther _ _

/-- An account that is found was stored now or before. -/
theorem Tables.storeAccount_some {T : Tables} {b : Backend} {now : Time} {k : GoString}
    {acc acc' : Account} (hFound : (T.storeAccount b now acc).accounts k = some acc') :
    k = acc.email ∧ acc' = (b.prepare now acc).marshal b.json ∨ T.accounts k = some acc' := by
  by_cases hKey : k = acc.email
  · rw [hKey, storeAccount_self] at hFound
    exact .inl ⟨hKey, (Option.some.inj hFound).symm⟩
  · rw [storeAccount_of_ne hKey] at hFound
    exact .inr hFound

namespace Server

variable {srv : Server} {b : Backend} {env : Env} {r : Request} {auth : Option Auth}
  {w : World Tables}

/-- The account that an activation starts from. -/
def accountAt (T : Tables) (email : GoString) : Account := (T.accounts email).getD { email }

theorem mem_accountAt {email : GoString} {o : Option AuthToken}
    (ho : o ∈ (accountAt T email).authTokens) :
    ∃ acc, T.accounts email = some acc ∧ o ∈ acc.authTokens := by
  unfold accountAt at ho
  cases hFound : T.accounts email with
  | none =>
    rw [hFound] at ho
    cases ho
  | some acc =>
    rw [hFound] at ho
    exact ⟨acc, rfl, ho⟩

/-- The tables after `Activate`. -/
def activateTables (b : Backend) (env : Env) (ar : AuthRequest) (T : Tables) : Tables :=
  (T.storeAccount b env.now
    (activated (accountAt T ar.authToken.email) ar.authToken)).putAuthRequest ar.key none

/-- The writes of the handlers. -/
inductive Effect (srv : Server) (b : Backend) (env : Env) (r : Request) (auth : Option Auth)
    (T : Tables) : Handler → Tables → Prop where
  | unchanged (h : Handler) : Effect srv b env r auth T h T
  | requested (ar : AuthRequest) (hCheck : AuthForm.check srv (srv.authForm r auth) = .ok ())
      (hNew : newAuthRequest env (srv.authForm r auth).email (srv.authForm r auth).type
        (srv.authForm r auth).actType (srv.authForm r auth).device = some ar) :
      Effect srv b env r auth T .requestAuthToken
        (T.putAuthRequest ar.key
          (some (({ ar with redirect := (srv.authForm r auth).redirect } : AuthRequest).marshal
            b.json)))
  | activated (pattern ar : AuthRequest) (hPattern : srv.activationPattern r = .ok pattern)
      (hFound : T.authRequests pattern.key = some ar) :
      Effect srv b env r auth T .activateAuthToken (activateTables b env ar T)
  | paired (pattern ar login : AuthRequest) (hPattern : srv.activationPattern r = .ok pattern)
      (hFound : T.authRequests pattern.key = some ar) (hLogin : loginsToo ar = true)
      (hNew : newAuthRequest env ar.authToken.email (lit "web") [] ar.authToken.device =
        some login) :
      Effect srv b env r auth T .activateAuthToken
        (activateTables b env login (activateTables b env ar T))
  | written (a : Auth) (hAuth : auth = some a) (hBody : r.bodyFails = false) :
      Effect srv b env r auth T .writeStore (T.putDataStore a.account.email (some r.body))
  | reset (a : Auth) (hAuth : auth = some a) :
      Effect srv b env r auth T .deleteStore (T.putDataStore a.account.email none)
  | deleted (a : Auth) (hAuth : auth = some a) :
      Effect srv b env r auth T .deleteAccount
        ((T.putDataStore a.token.email none).putAccount a.token.email none)
  | loggedOut (a : Auth) (hAuth : auth = some a) :
      Effect srv b env r auth T .logout
        (T.storeAccount b env.now (a.account.removeAuthToken a.token).1)
  | revoked (a : Auth) (pattern t : AuthToken) (acc : Account) (hAuth : auth = some a)
      (hRevoked : Server.revoked env.now a.account pattern = some (t, acc)) :
      Effect srv b env r auth T .revoke (T.storeAccount b env.now acc)

/-! ## Requests for auth tokens -/

/-- What the checks of an auth request let through. -/
theorem AuthForm.check_ok {f : AuthForm} (hCheck : AuthForm.check srv f = .ok ()) :
    f.email ≠ [] ∧ srv.isWhitelisted f.email = true ∧
      (f.type = lit "api" ∨ f.type = lit "web") ∧ srv.acceptsRedirect f.redirect := by
  unfold AuthForm.check at hCheck
  split at hCheck
  · cases hCheck
  rename_i hEmail
  split at hCheck
  · cases hCheck
  rename_i hListed
  split at hCheck
  · cases hCheck
  rename_i hType
  split at hCheck
  · cases hCheck
  rename_i hRedirect
  refine ⟨hEmail, by simpa using hListed, ?_, by simpa using hRedirect⟩
  by_cases hApi : f.type = lit "api"
  · exact .inl hApi
  · exact .inr (not_not.mp fun hWeb => hType ⟨hApi, hWeb⟩)

/-- The fields of a new request: the code of the activation type `code`, or else
the token. -/
theorem newAuthRequest_key {email tType actType : GoString} {device : Option Device}
    {ar : AuthRequest} (hNew : newAuthRequest env email tType actType device = some ar)
    (hType : tType ≠ []) :
    ar.authToken.email = email ∧ ar.authToken.type = tType ∧
      ar.token.all urlSafe = true ∧ ar.code.all urlSafe = true ∧
      (ar.code ≠ [] ↔ actType = lit "code") ∧ (ar.token ≠ [] ↔ actType ≠ lit "code") := by
  obtain ⟨token, random, hToken, -, rfl⟩ := newAuthRequest_eq_some.mp hNew
  obtain ⟨-, -, rfl⟩ := newAuthToken_eq_some.mp hToken
  have hCode : encodeHex random.code.toList ≠ [] := by
    apply encodeHex_ne_nil
    intro hNil
    have hLength := congrArg List.length hNil
    simp at hLength
  by_cases hActType : actType = lit "code"
  · rw [if_pos hActType]
    exact ⟨rfl, if_neg hType, rfl, encodeHex_urlSafe _, by simp [hCode, hActType],
      by simp [hActType]⟩
  · rw [if_neg hActType]
    exact ⟨rfl, if_neg hType, tokenString_urlSafe _, rfl, by simp [hActType],
      by simp [hActType, tokenString_ne_nil]⟩

/-- The program does not write to the storage. -/
abbrev Quiet {α : Type} (b : Backend) (p : Serve α) : Prop := p.Keeps (exec b) World.storage

theorem quiet_sendMail (mail : Mail) : Quiet b (sendMail mail) := fun _ => rfl

/-- The look-up of an account changes nothing at all. -/
theorem keeps_checkAccount (email : GoString) : (checkAccount r email).Keeps (exec b) id := by
  unfold checkAccount
  split
  · exact .pure _
  · refine .bind (fun _ => rfl) fun found => ?_
    cases found with
    | ok acc => exact .pure _
    | error e =>
      cases e with
      | notFound =>
        refine .bind (fun _ => rfl) fun data => ?_
        cases data with
        | ok content => exact .pure _
        | error e => cases e <;> exact .fail _
      | _ => exact .fail _

theorem keeps_authResponse (f : AuthForm) (ar : AuthRequest) :
    (srv.authResponse r f ar).Keeps (exec b) id := by
  unfold authResponse
  dsimp only
  split
  · exact .pure _
  · cases srv.templates.loginPage (some f.email)
    · exact .fail _
    · exact .pure _

theorem quiet_sendActivation (f : AuthForm) (ar : AuthRequest) :
    Quiet b (srv.sendActivation env r f ar) := by
  unfold sendActivation
  split
  · exact .pure _
  · split
    · exact .fail _
    · cases srv.templates.activateAuthTokenEmail (srv.activationLink r ar) ar.authToken ar.code
      · exact .fail _
      · exact quiet_sendMail _

theorem run_issueAuthRequest (f : AuthForm) :
    (issueAuthRequest env f).run (exec b) w =
      match newAuthRequest env f.email f.type f.actType f.device with
      | none => (.error (.serverError .random), w)
      | some ar =>
        (.ok { ar with redirect := f.redirect },
          { w with
            storage := w.storage.putAuthRequest ar.key
              (some (({ ar with redirect := f.redirect } : AuthRequest).marshal b.json)) }) := by
  unfold issueAuthRequest
  cases newAuthRequest env f.email f.type f.actType f.device <;> rfl

theorem effect_requestAuthToken :
    Effect srv b env r auth w.storage .requestAuthToken
      ((srv.requestAuthToken env r auth).run (exec b) w).2.storage := by
  unfold requestAuthToken
  dsimp only
  cases hCheck : AuthForm.check srv (srv.authForm r auth) with
  | error e => exact .unchanged _
  | ok u =>
    have hQuiet : ((checkAccount r (srv.authForm r auth).email).run (exec b) w).2 = w :=
      keeps_checkAccount _ w
    simp only [Program.bind_eq]
    rw [Program.run_bind]
    cases ((checkAccount r (srv.authForm r auth).email).run (exec b) w).1 with
    | error e =>
      rw [hQuiet]
      exact .unchanged _
    | ok u =>
      dsimp only
      rw [Program.view_run_bind World.storage, run_issueAuthRequest]
      · cases hNew : newAuthRequest env (srv.authForm r auth).email (srv.authForm r auth).type
          (srv.authForm r auth).actType (srv.authForm r auth).device with
        | none =>
          rw [hQuiet]
          exact .unchanged _
        | some ar =>
          dsimp only
          rw [hQuiet]
          exact .requested ar hCheck hNew
      · intro ar
        exact (Program.Keeps.of_id (keeps_authResponse _ ar) _).bind fun response =>
          (quiet_sendActivation _ ar).bind fun _ => .pure _

/-! ## Activations -/

theorem run_activate (ar : AuthRequest) :
    (activate env ar).run (exec b) w =
      (.ok (), { w with storage := activateTables b env ar w.storage }) := by
  unfold activate activateTables accountAt
  simp only [Program.bind_eq, store, Program.request_bind, Program.run_call, World.step,
    Tables.step, lookup]
  cases w.storage.accounts ar.authToken.email <;>
    simp [World.step, Tables.step, Tables.storeAccount, Except.toOption]

theorem run_getAuthRequest :
    (srv.getAuthRequest r).run (exec b) w =
      match srv.activationPattern r with
      | .error e => (.error e, w)
      | .ok pattern =>
        match w.storage.authRequests pattern.key with
        | some ar => (.ok ar, w)
        | none => (.error (.badRequest (lit "invalid activation token")), w) := by
  unfold getAuthRequest
  cases srv.activationPattern r with
  | error e => rfl
  | ok pattern =>
    simp only [Program.bind_eq, store, Program.request_bind, Program.run_call, World.step,
      Tables.step, lookup]
    cases w.storage.authRequests pattern.key <;> rfl

theorem quiet_getAuthRequest (srv : Server) (b : Backend) (r : Request) :
    Quiet b (srv.getAuthRequest r) := by
  intro w
  rw [run_getAuthRequest]
  cases srv.activationPattern r with
  | error e => rfl
  | ok pattern =>
    dsimp only
    cases w.storage.authRequests pattern.key <;> rfl

/-- What a successful look-up of an auth request finds. -/
theorem getAuthRequest_ok {ar : AuthRequest} {w' : World Tables}
    (hRun : (srv.getAuthRequest r).run (exec b) w = (.ok ar, w')) :
    w' = w ∧ ∃ pattern, srv.activationPattern r = .ok pattern ∧
      w.storage.authRequests pattern.key = some ar := by
  rw [run_getAuthRequest] at hRun
  cases hPattern : srv.activationPattern r with
  | error e => simp [hPattern] at hRun
  | ok pattern =>
    simp only [hPattern] at hRun
    cases hFound : w.storage.authRequests pattern.key with
    | none => simp [hFound] at hRun
    | some found =>
      simp only [hFound, Prod.mk.injEq, Except.ok.injEq] at hRun
      obtain ⟨rfl, rfl⟩ := hRun
      exact ⟨rfl, pattern, rfl, hFound⟩

theorem success_storage (ar : AuthRequest) :
    ((srv.success env r ar).run (exec b) w).2.storage =
      if loginsToo ar then
        match newAuthRequest env ar.authToken.email (lit "web") [] ar.authToken.device with
        | none => w.storage
        | some login => activateTables b env login w.storage
      else w.storage := by
  unfold success
  dsimp only
  split
  · cases newAuthRequest env ar.authToken.email (lit "web") [] ar.authToken.device with
    | none => rfl
    | some login =>
      dsimp only
      rw [Program.bind_eq, Program.run_bind_ok (run_activate login)]
      rfl
  · rfl

theorem effect_activateAuthToken :
    Effect srv b env r auth w.storage .activateAuthToken
      ((srv.activateAuthToken env r auth).run (exec b) w).2.storage := by
  unfold activateAuthToken
  rw [Program.bind_eq, Program.run_attempt_bind]
  rcases hRun : (srv.getAuthRequest r).run (exec b) w with ⟨e | ar, w'⟩
  · have hQuiet := quiet_getAuthRequest srv b r w
    rw [hRun] at hQuiet
    have hSame : Effect srv b env r auth w.storage .activateAuthToken w'.storage := by
      rw [hQuiet]
      exact .unchanged _
    dsimp only
    split
    · exact hSame
    · split <;> exact hSame
  · obtain ⟨rfl, pattern, hPattern, hFound⟩ := getAuthRequest_ok hRun
    dsimp only
    rw [Program.bind_eq, Program.run_bind_ok (run_activate ar), success_storage]
    split
    · rename_i hLogin
      cases hNew : newAuthRequest env ar.authToken.email (lit "web") [] ar.authToken.device with
      | none => exact .activated pattern ar hPattern hFound
      | some login => exact .paired pattern ar login hPattern hFound hLogin hNew
    · exact .activated pattern ar hPattern hFound

/-! ## The other handlers -/

theorem run_logout (srv : Server) (b : Backend) (env : Env) (r : Request) (w : World Tables)
    (a : Auth) :
    ∃ reply, (srv.logout env r (some a)).run (exec b) w =
      (.ok reply, { w with
        storage := w.storage.storeAccount b env.now (a.account.removeAuthToken a.token).1 }) := by
  unfold logout
  simp only [orPanic, Program.bind_eq, Program.pure_bind, store, Program.request_bind,
    Program.call_bind, Program.run_call, World.step, Tables.step_putAccount, orFail]
  exact ⟨_, rfl⟩

theorem run_revoke (a : Auth) :
    (srv.revoke env r (some a)).run (exec b) w =
      if r.postFormValue srv.net (lit "token") = [] ∧ r.postFormValue srv.net (lit "id") = [] then
        (.error (.badRequest (lit "No token or id provided")), w)
      else
        match revoked env.now a.account
          { token := r.postFormValue srv.net (lit "token")
            id := r.postFormValue srv.net (lit "id") } with
        | none => (.error (.badRequest (lit "No such token")), w)
        | some (t, acc) =>
          (.ok (if r.acceptsHtml then
              srv.redirect r (lit "/dashboard/?action=revoked&token-id=" ++ t.id) {} else {}),
            { w with storage := w.storage.storeAccount b env.now acc }) := by
  unfold revoke
  dsimp only
  split
  · rfl
  · simp only [orPanic, Program.bind_eq, Program.pure_bind]
    cases hRevoked : revoked env.now a.account
      { token := r.postFormValue srv.net (lit "token")
        id := r.postFormValue srv.net (lit "id") } with
    | none => rfl
    | some found =>
      simp only [store, Program.request_bind, Program.call_bind, Program.run_call, World.step,
        Tables.step_putAccount, orFail, Program.pure_bind]
      rfl

theorem run_writeStore (a : Auth) :
    (writeStore env r (some a)).run (exec b) w =
      if r.bodyFails then (.error (.serverError .readBody), w)
      else
        (.ok { status := 204 },
          { w with storage := w.storage.putDataStore a.account.email (some r.body) }) := by
  unfold writeStore
  simp only [orPanic, Program.bind_eq, Program.pure_bind]
  split <;> rfl

theorem run_readStore (a : Auth) :
    (readStore env r (some a)).run (exec b) w =
      (.ok { body := .bytes ((w.storage.dataStores a.account.email).getD []) }, w) := by
  unfold readStore
  simp only [orPanic, Program.bind_eq, Program.pure_bind, store, Program.request_bind,
    Program.run_call, World.step, Tables.step, lookup]
  cases w.storage.dataStores a.account.email <;> rfl

theorem quiet_dashboard : Quiet b (srv.dashboard env r auth) := by
  unfold dashboard
  cases auth with
  | none => exact .fail _
  | some a =>
    simp only [orPanic, Program.bind_eq, Program.pure_bind]
    split
    · exact .pure _
    · exact .fail _

/-- Every handler changes the tables in one of the ways listed, or not at all. -/
theorem effect_handle (h : Handler) :
    Effect srv b env r auth w.storage h ((h.handle srv env r auth).run (exec b) w).2.storage := by
  cases h with
  | requestAuthToken => exact effect_requestAuthToken
  | activateAuthToken => exact effect_activateAuthToken
  | readStore =>
    cases auth with
    | none => exact .unchanged _
    | some a =>
      rw [Handler.handle, run_readStore]
      exact .unchanged _
  | writeStore =>
    cases auth with
    | none => exact .unchanged _
    | some a =>
      rw [Handler.handle, run_writeStore]
      split
      · exact .unchanged _
      · rename_i hBody
        exact .written a rfl (by simpa using hBody)
  | deleteStore =>
    cases auth with
    | none => exact .unchanged _
    | some a => exact .reset a rfl
  | deleteAccount =>
    cases auth with
    | none => exact .unchanged _
    | some a => exact .deleted a rfl
  | loginPage =>
    rw [Handler.handle, loginPage]
    cases srv.templates.loginPage none <;> exact .unchanged _
  | dashboard =>
    rw [Handler.handle, quiet_dashboard w]
    exact .unchanged _
  | logout =>
    cases auth with
    | none => exact .unchanged _
    | some a =>
      obtain ⟨reply, hRun⟩ := run_logout srv b env r w a
      rw [Handler.handle, hRun]
      exact .loggedOut a rfl
  | revoke =>
    cases auth with
    | none =>
      rw [Handler.handle, revoke]
      dsimp only
      split <;> exact .unchanged _
    | some a =>
      rw [Handler.handle, run_revoke]
      split
      · exact .unchanged _
      · split
        · exact .unchanged _
        · rename_i t acc hRevoked
          exact .revoked a _ t acc rfl hRevoked
  | accountInfo => cases auth <;> exact .unchanged _
  | static => exact .unchanged _
  | root =>
    rw [Handler.handle, root]
    split <;> exact .unchanged _
  | void => exact .unchanged _

/-! ## Whole requests -/

/-- What a request does to the tables: nothing, the write-back of `Authenticate`
alone, or that followed by the effect of the handler that the request was
admitted to. -/
theorem serve_effect (srv : Server) (b : Backend) (endpoint : Endpoint) (env : Env) (r : Request)
    (w : World Tables) :
    ∃ T, (T = w.storage ∨ T = authTables b w.storage (srv.authenticated b env r w.storage)) ∧
      (((srv.serve endpoint env r).run (exec b) w).2.storage = T ∨
        ∃ r' auth h, srv.admitted b endpoint env r w.storage = some (r', auth) ∧
          endpoint.handler r.method = some h ∧
          T = authTables b w.storage (srv.authenticated b env r w.storage) ∧
          Effect srv b env r' auth T h ((srv.serve endpoint env r).run (exec b) w).2.storage) := by
  rw [serve, wrapEndpoint]
  cases hAdmitted : srv.admitted b endpoint env r w.storage with
  | none =>
    obtain ⟨reply, w', hRun, -, hStorage⟩ := run_wrap_rejected hAdmitted
    rw [hRun]
    exact ⟨w'.storage, hStorage, .inl rfl⟩
  | some pair =>
    obtain ⟨r', auth⟩ := pair
    obtain ⟨h, hHandler, hMethod⟩ := admitted_handler hAdmitted
    rw [run_wrap_admitted hAdmitted, locking_storage, Endpoint.handle_eq (by rwa [hMethod])]
    exact ⟨_, .inr rfl, .inr ⟨r', auth, h, rfl, hHandler, rfl,
      effect_handle (w := srv.entered b env r w) h⟩⟩

end Server

end PadlockCloud
