import PadlockCloud.Model.Standard
import PadlockCloud.Properties.Authentication
import PadlockCloud.Properties.Delivery
import PadlockCloud.Request.Credentials
import PadlockCloud.Request.Origin

/-!
# The credential of an activated token

A token gets its time of creation, its time of use and its expiry when it is
asked for, and nothing renews them when it is activated. So the activation of an
old request reports success and hands out a credential that the next request is
rejected with.
-/

namespace PadlockCloud

open Process Time

namespace Server

variable {srv : Server} {b : Backend} {env env₀ : Env} {r r₀ : Request} {auth auth₀ : Option Auth}
  {w w₀ w' : World Tables} {k : GoString} {ar : AuthRequest} {s t : AuthToken} {reply : Reply}
  {T : Tables} {now created : Time}

/-- A call of `RequestAuthToken` stores `ar` under the key `k`. -/
def Creates (srv : Server) (b : Backend) (env : Env) (r : Request) (auth : Option Auth)
    (w : World Tables) (k : GoString) (ar : AuthRequest) : Prop :=
  w.storage.authRequests k ≠ some ar ∧
    ((srv.requestAuthToken env r auth).run (exec b) w).2.storage.authRequests k = some ar

/-- The token is activated before it expires, and before it counts as unused. -/
def InTime (created now : Time) (t : AuthToken) : Prop :=
  (t.type = lit "web" → now < created + hour) ∧ (t.type = lit "api" → now < created + 30 * day)

/-- What the client has in hand: the cookie of a web token that has just been set,
the email and the secret of an api token in the response to its auth request. -/
structure HandedOut (srv : Server) (b : Backend) (env : Env) (r : Request) (auth : Option Auth)
    (w : World Tables) (reply : Reply) (t : AuthToken) : Prop where
  web : t.type = lit "web" → reply.cookie.map Cookie.value = some t.toGoString
  api : t.type = lit "api" → ∀ response,
    ((srv.requestAuthToken env r auth).run (exec b) w).1 = .ok response →
      ∃ fields email, response.body = .json fields ∧ fields.lookup (lit "email") = some email ∧
        b.json.coerce email = t.email ∧ fields.lookup (lit "token") = some t.token

/-! ## The stored request -/

theorem issues_of_creates (hCreates : Creates srv b env r auth w k ar) :
    ∃ new, Issues srv env r auth new ∧ ar = new.marshal b.json := by
  obtain ⟨hBefore, hAfter⟩ := hCreates
  rcases effect_requestAuthToken.request hAfter with hOld | ⟨-, new, hIssues, -, rfl⟩
  · exact absurd hOld hBefore
  · exact ⟨new, hIssues, rfl⟩

/-- A stored token that has not been used since it was asked for. -/
structure Unused (J : Json) (created : Time) (t : AuthToken) : Prop where
  issued : t.Issued J
  fixed : t.marshal J = t
  email : (∀ s, J.coerce s = [] → s = []) → t.email ≠ []
  safe : t.token.all urlSafe = true
  lastUsed : t.lastUsed = created
  web : t.type = lit "web" → t.expires = created + hour
  api : t.type = lit "api" → t.expires = 0

theorem newAuthRequest_authToken {email type actType : GoString} {device : Option Device}
    {new : AuthRequest} (hNew : newAuthRequest env email type actType device = some new) :
    newAuthToken env email type device = some new.authToken := by
  obtain ⟨token, random, hToken, -, rfl⟩ := newAuthRequest_eq_some.mp hNew
  rw [hToken]
  split <;> rfl

theorem unused_newAuthToken {J : Json} {email type : GoString} {device : Option Device}
    (hNew : newAuthToken env email type device = some t) (hEmail : email ≠ [])
    (hType : type = lit "api" ∨ type = lit "web") : Unused J env.now (t.marshal J) := by
  have hIssued : t.Issued J := newAuthToken_issued hNew hType
  have hCoerce : (t.marshal J).type = t.type := hIssued.coerce_type
  obtain ⟨random, -, rfl⟩ := newAuthToken_eq_some.mp hNew
  refine ⟨marshal_issued hIssued, AuthToken.marshal_marshal _, ?_, ?_, rfl, ?_, ?_⟩
  · intro hJson hEmpty
    exact hEmail (hJson _ hEmpty)
  · show (J.coerce _).all urlSafe = true
    rw [hIssued.token]
    exact tokenString_urlSafe _
  · intro hWeb
    have hHour : hour ≠ 0 := by decide
    rw [hCoerce] at hWeb
    dsimp only at hWeb
    simp [AuthToken.marshal, hWeb, authMaxAge, hHour]
  · intro hApi
    have hOther : lit "api" ≠ lit "web" := by decide
    rw [hCoerce] at hApi
    dsimp only at hApi
    simp [AuthToken.marshal, hApi, authMaxAge, hOther]

theorem Issues.unused {new : AuthRequest} (hIssues : Issues srv env r auth new) (J : Json) :
    Unused J env.now (new.marshal J).authToken := by
  obtain ⟨hEmail, -, hType, -⟩ := AuthForm.check_ok hIssues.check
  obtain ⟨first, hFirst, rfl⟩ := Option.map_eq_some_iff.mp hIssues.new
  have hToken := newAuthRequest_authToken hFirst
  exact unused_newAuthToken hToken hEmail hType

/-- An unused token is accepted until its time is over. -/
theorem Unused.valid_iff {J : Json} (hUnused : Unused J created t)
    (hCreated : unixEpoch ≤ created) : Valid now t ↔ InTime created now t := by
  have hHour : (0 : Int) < hour ∧ hour < 30 * day ∧ (0 : Int) < unixEpoch := by decide
  have hApart : lit "api" ≠ lit "web" := by decide
  rw [Valid, InTime, hUnused.lastUsed]
  rcases hUnused.issued.type with hApi | hWeb
  · rw [hUnused.api hApi]
    simp only [hApi, hApart, true_or, and_true, false_implies, true_and, true_implies]
    constructor <;> intro hLater <;> lia
  · rw [hUnused.web hWeb]
    simp only [hWeb, hApart.symm, true_implies, false_implies, and_true, false_and, false_or,
      ne_eq, not_false_eq_true, true_and]
    constructor
    · rintro ⟨-, hNever | hLater⟩
      · lia
      · exact hLater
    · intro hLater
      exact ⟨by lia, .inr hLater⟩

/-! ## The account after the activation -/

/-- The account has the token, and no other one with its secret. -/
structure Has (acc : Account) (t : AuthToken) : Prop where
  mem : some t ∈ acc.authTokens
  nils : none ∉ acc.authTokens
  only : ∀ s, some s ∈ acc.authTokens → s.token = t.token → s = t

/-- An activation of a fresh token. -/
theorem activateTables_has (env : Env) (hKept : T.Kept b.json)
    (hFixed : ar.authToken.marshal b.json = ar.authToken)
    (hFresh : ∀ acc, T.accounts ar.authToken.email = some acc →
      none ∉ acc.authTokens ∧ ar.authToken.token ∉ acc.secrets) :
    ∃ acc, (activateTables b env ar T).accounts ar.authToken.email = some acc ∧
      Has acc ar.authToken := by
  obtain ⟨acc, hFound, hPerm⟩ := activateTables_tokens env ar hKept
  have hOld {o : Option AuthToken} (ho : o ∈ (accountAt T ar.authToken.email).authTokens) :
      ∃ s, o = some s ∧ s.token ≠ ar.authToken.token := by
    unfold accountAt at ho
    cases hStored : T.accounts ar.authToken.email with
    | none =>
      rw [hStored] at ho
      cases ho
    | some stored =>
      obtain ⟨hNil, hSecret⟩ := hFresh stored hStored
      rw [hStored, Option.getD_some] at ho
      cases o with
      | none => exact absurd ho hNil
      | some s =>
        refine ⟨s, rfl, fun hSame => ?_⟩
        exact hSecret (Account.mem_secrets.mpr ⟨s, ho, hSame⟩)
  refine ⟨acc, hFound, ?_, ?_, ?_⟩
  · rw [hPerm.mem_iff, hFixed]
    exact List.mem_append_right _ (List.mem_singleton.mpr rfl)
  · rw [hPerm.mem_iff, List.mem_append]
    rintro (hNone | hNone)
    · obtain ⟨s, hs, -⟩ := hOld (List.mem_filter.mp hNone).1
      cases hs
    · cases List.mem_singleton.mp hNone
  · intro s hs hSame
    rw [hPerm.mem_iff, List.mem_append] at hs
    rcases hs with hs | hs
    · obtain ⟨u, hu, hOther⟩ := hOld (List.mem_filter.mp hs).1
      obtain rfl := Option.some.inj hu
      exact absurd hSame hOther
    · rw [hFixed] at hs
      exact Option.some.inj (List.mem_singleton.mp hs)

/-- An activation of another token, which does not revoke the one that is there. -/
theorem has_activateTables (env : Env) (hKept : T.Kept b.json)
    (hHas : Has (accountAt T ar.authToken.email) t)
    (hRevokes : Account.revokes ar.authToken t = false)
    (hOther : (ar.authToken.marshal b.json).token ≠ t.token) :
    ∃ acc, (activateTables b env ar T).accounts ar.authToken.email = some acc ∧ Has acc t := by
  obtain ⟨acc, hFound, hPerm⟩ := activateTables_tokens env ar hKept
  refine ⟨acc, hFound, ?_, ?_, ?_⟩
  · rw [hPerm.mem_iff]
    exact List.mem_append_left _ (List.mem_filter.mpr ⟨hHas.mem, by simp [hRevokes]⟩)
  · rw [hPerm.mem_iff, List.mem_append]
    rintro (hNone | hNone)
    · exact hHas.nils (List.mem_filter.mp hNone).1
    · cases List.mem_singleton.mp hNone
  · intro s hs hSame
    rw [hPerm.mem_iff, List.mem_append] at hs
    rcases hs with hs | hs
    · exact hHas.only s (List.mem_filter.mp hs).1 hSame
    · obtain rfl := Option.some.inj (List.mem_singleton.mp hs)
      exact absurd hSame hOther

/-- The run of an activation that finds its request. -/
theorem run_activateAuthToken
    (hPending : ((srv.getAuthRequest r).run (exec b) w).1 = .ok ar) :
    (srv.activateAuthToken env r auth).run (exec b) w =
      (srv.success env r ar).run (exec b)
        { w with storage := activateTables b env ar w.storage } := by
  obtain ⟨hSame, -⟩ := getAuthRequest_ok (Program.run_eq hPending)
  have hRun : (srv.getAuthRequest r).run (exec b) w = (.ok ar, w) := by
    rw [Program.run_eq hPending, hSame]
  unfold activateAuthToken
  rw [Program.bind_eq, Program.run_attempt_bind, hRun]
  dsimp only
  rw [Program.bind_eq, Program.run_bind_ok (run_activate ar)]

/-- What a successful activation replies and stores. -/
theorem success_ok (hRun : (srv.success env r ar).run (exec b) w = (.ok reply, w')) :
    (ar.authToken.type = lit "web" →
        reply.cookie.map Cookie.value = some ar.authToken.toGoString) ∧
      (w'.storage = w.storage ∨
        ∃ login, loginsToo ar = true ∧ newAuthRequest env ar.authToken.email (lit "web") []
            ar.authToken.device = some login ∧
          w'.storage = activateTables b env login w.storage) := by
  have hStorage : ((srv.success env r ar).run (exec b) w).2.storage = _ := success_storage ar
  rw [hRun] at hStorage
  cases hLogin : loginsToo ar with
  | true =>
    have hApi : ar.authToken.type = lit "api" ∧ ar.code = [] := by
      simpa [loginsToo] using hLogin
    refine ⟨fun hWeb => ?_, ?_⟩
    · rw [hApi.1] at hWeb
      exact absurd hWeb (by decide)
    · rw [hLogin, if_pos rfl] at hStorage
      cases hNew : newAuthRequest env ar.authToken.email (lit "web") [] ar.authToken.device with
      | none =>
        rw [hNew] at hStorage
        exact .inl hStorage
      | some login =>
        rw [hNew] at hStorage
        exact .inr ⟨login, rfl, rfl, hStorage⟩
  | false =>
    rw [hLogin, if_neg Bool.false_ne_true] at hStorage
    refine ⟨fun hWeb => ?_, .inl hStorage⟩
    unfold success at hRun
    dsimp only at hRun
    rw [hLogin, if_neg Bool.false_ne_true, if_pos hWeb, Program.run_pure] at hRun
    obtain ⟨hReply, -⟩ := Prod.mk.inj hRun
    rw [← Except.ok.inj hReply]
    split <;> rfl

/-! ## The credential -/

/-- The response to an auth request for an api token names the token. -/
theorem response_of_issues {new : AuthRequest} (hIssues : Issues srv env r auth new)
    (hApi : new.authToken.type = lit "api")
    (hRun : ((srv.requestAuthToken env r auth).run (exec b) w).1 = .ok reply) :
    ∃ fields, reply.body = .json fields ∧
      fields.lookup (lit "email") = some new.authToken.email ∧
      fields.lookup (lit "token") = some new.authToken.token := by
  obtain ⟨first, ar, mails, hCheck, hNew, rfl, -, hResponse, -⟩ :=
    requestAuthToken_ok (Program.run_eq hRun)
  have hSame := hIssues.new
  rw [hNew, Option.map_some, Option.some.injEq] at hSame
  subst hSame
  have hNil : (srv.authForm r auth).type ≠ [] := by
    rcases (AuthForm.check_ok hCheck).2.2.1 with hType | hType
    · rw [hType]
      decide
    · rw [hType]
      decide
  have hType : (srv.authForm r auth).type = lit "api" :=
    (newAuthRequest_key hNew hNil).2.1.symm.trans hApi
  rw [authResponse, if_pos (.inl hType)] at hResponse
  refine ⟨_, (Program.pure.inj hResponse).symm, ?_, ?_⟩
  · split <;> rfl
  · split <;> rfl

/-- A request with the credential of a token that the account has is accepted
exactly if the token is valid. -/
theorem accepts_iff {acc : Account} (hKept : w.storage.Kept b.json) (hIssued : t.Issued b.json)
    (hEmail : t.email ≠ []) (hSafe : t.token.all urlSafe = true)
    (hFound : w.storage.accounts t.email = some acc) (hHas : Has acc t)
    (hCarries : r.carries t.toGoString) :
    (∃ a, ((srv.authenticate env r).run (exec b) w).1 = .ok a ∧ a.account.email = t.email) ↔
      Valid env.now t := by
  have hToken : authTokenFromRequest r = some { email := t.email, token := t.token } :=
    authTokenFromRequest_toGoString hCarries hEmail hIssued.token_ne_nil hSafe
  have hPresented {s : AuthToken}
      (hs : Presented w.storage { email := t.email, token := t.token } s) : s = t := by
    obtain ⟨acc', hAcc, hMem, hSame⟩ := hs
    rw [hFound, Option.some.injEq] at hAcc
    subst hAcc
    exact hHas.only s hMem hSame
  have hSelf : Presented w.storage { email := t.email, token := t.token } t :=
    ⟨acc, hFound, hHas.mem, rfl⟩
  have hRefused {e : HttpError} (hError : srv.authenticated b env r w.storage = .error e) :
      ¬∃ a, ((srv.authenticate env r).run (exec b) w).1 = .ok a ∧ a.account.email = t.email := by
    rintro ⟨a, hOk, -⟩
    rw [run_authenticate] at hOk
    cases hError.symm.trans hOk
  rcases authenticated_verdict srv b env hToken (show [] ≠ lit "skeleton" by decide) (fun acc' hAcc => by
      rw [hFound, Option.some.injEq] at hAcc
      subst hAcc
      exact hHas.nils) with ⟨s, a, hs, hValid, hOk⟩ | ⟨s, hs, hRecent, hError⟩ | ⟨hNone, hError⟩
  · obtain rfl := hPresented hs
    refine iff_of_true ⟨a, by rw [run_authenticate, hOk], ?_⟩ hValid
    obtain ⟨t', acc', hToken', -, -, -, hAccount, -⟩ := authenticated_kept hKept hOk
    obtain rfl := Option.some.inj (hToken.symm.trans hToken')
    exact hAccount
  · obtain rfl := hPresented hs
    refine iff_of_false (hRefused hError) fun hValid => ?_
    rw [valid_iff] at hValid
    rw [recentlyExpired_iff env.now_epoch, hValid.2] at hRecent
    cases hRecent.2
  · exact iff_of_false (hRefused hError) (hNone t hSelf).1

/-- A login takes nothing from an api token: it does not revoke it, and its own secret
is another one. -/
theorem has_login {login : AuthRequest} {email : GoString}
    {device : Option Device} (hKept : T.Kept b.json)
    (hNew : newAuthRequest env email (lit "web") [] device = some login)
    (hApi : t.type = lit "api")
    (hRandom : ∀ random, env.random = some random → Random.tokenString random.secret ≠ t.token)
    (hThere : Has (accountAt T login.authToken.email) t) :
    ∃ acc, (activateTables b env login T).accounts login.authToken.email = some acc ∧ Has acc t := by
  have hWeb : login.authToken.type = lit "web" := (newAuthRequest_key hNew (by decide)).2.1
  have hIssued : login.authToken.Issued b.json := newAuthRequest_issued hNew (.inr rfl)
  obtain ⟨random, hBytes, hLoginToken⟩ := newAuthToken_eq_some.mp (newAuthRequest_authToken hNew)
  have hOther : (login.authToken.marshal b.json).token ≠ t.token := by
    show b.json.coerce login.authToken.token ≠ _
    rw [hIssued.token, hLoginToken]
    exact hRandom random hBytes
  have hKeeps : Account.revokes login.authToken t = false := by
    rw [Bool.eq_false_iff]
    intro hRevokes
    have hType := (Account.revokes_iff.mp hRevokes).1
    rw [hWeb, hApi] at hType
    revert hType
    decide
  exact has_activateTables env hKept hThere hKeeps hOther

/-- A successful activation hands out a credential, and the credential works
exactly if the token has been activated in time. -/
theorem activation_yields_credential (hJson : ∀ s, b.json.coerce s = [] → s = [])
    (hCreates : Creates srv b env₀ r₀ auth₀ w₀ k ar) (hKept : w.storage.Kept b.json)
    (hFresh : ∀ acc, w.storage.accounts ar.authToken.email = some acc →
      none ∉ acc.authTokens ∧ ar.authToken.token ∉ acc.secrets)
    (hRandom : ∀ random, env.random = some random →
      Random.tokenString random.secret ≠ ar.authToken.token)
    (hPending : ((srv.getAuthRequest r).run (exec b) w).1 = .ok ar)
    (hRun : (srv.activateAuthToken env r auth).run (exec b) w = (.ok reply, w')) :
    HandedOut srv b env₀ r₀ auth₀ w₀ reply ar.authToken ∧
      ∀ later r', later.now = env.now → r'.carries ar.authToken.toGoString →
        ((∃ a, ((srv.authenticate later r').run (exec b) w').1 = .ok a ∧
            a.account.email = ar.authToken.email) ↔
          InTime env₀.now env.now ar.authToken) := by
  obtain ⟨new, hIssues, rfl⟩ := issues_of_creates hCreates
  have hUnused := hIssues.unused b.json
  have hEmail : b.json.coerce (new.marshal b.json).authToken.email =
      (new.marshal b.json).authToken.email := b.json.coerce_coerce _
  rw [run_activateAuthToken hPending] at hRun
  obtain ⟨hCookie, hStored⟩ := success_ok hRun
  constructor
  · refine ⟨hCookie, fun hApi response hResponse => ?_⟩
    have hIssued : new.authToken.Issued b.json := hIssues.issued
    have hType : new.authToken.type = lit "api" := hIssued.coerce_type.symm.trans hApi
    obtain ⟨fields, hBody, hAddress, hSecret⟩ := response_of_issues hIssues hType hResponse
    exact ⟨fields, _, hBody, hAddress, rfl, hSecret.trans (congrArg some hIssued.token.symm)⟩
  · intro later r' hNow hCarries
    have hFirst : (activateTables b env (new.marshal b.json) w.storage).Kept b.json :=
      kept_activateTables hKept hEmail
    obtain ⟨acc, hFound, hHas⟩ := activateTables_has env hKept hUnused.fixed hFresh
    have hEnd : ∃ acc, w'.storage.accounts (new.marshal b.json).authToken.email = some acc ∧
        Has acc (new.marshal b.json).authToken ∧ w'.storage.Kept b.json := by
      rcases hStored with hSame | ⟨login, hLogin, hNew, hSame⟩
      · rw [hSame]
        exact ⟨acc, hFound, hHas, hFirst⟩
      · -- The login is another token of another type.
        have hLoginEmail := newAuthRequest_email hNew
        have hApi : (new.marshal b.json).authToken.type = lit "api" := by
          have hBoth := hLogin
          simp only [loginsToo, Bool.decide_and, Bool.and_eq_true, decide_eq_true_eq] at hBoth
          exact hBoth.1
        have hThere : Has (accountAt (activateTables b env (new.marshal b.json) w.storage)
            login.authToken.email) (new.marshal b.json).authToken := by
          rw [hLoginEmail, accountAt, hFound, Option.getD_some]
          exact hHas
        obtain ⟨acc', hFound', hHas'⟩ := has_login hFirst hNew hApi hRandom hThere
        rw [hSame]
        rw [hLoginEmail] at hFound'
        exact ⟨acc', hFound', hHas', kept_activateTables hFirst (by rw [hLoginEmail, hEmail])⟩
    obtain ⟨acc', hFound', hHas', hKept'⟩ := hEnd
    rw [accepts_iff hKept' hUnused.issued (hUnused.email hJson) hUnused.safe hFound' hHas' hCarries,
      hNow]
    exact hUnused.valid_iff env₀.now_epoch

/-! ## A login link that is followed too late -/

/-- An auth request of a new client. -/
def askRequest (type : GoString) : Request :=
  clientRequest (lit "POST") [] [] (lit "type=" ++ type ++ lit "&email=e@x.io")

def askRun (type : GoString) : Except HttpError Reply × World Tables :=
  (standard.requestAuthToken (.after 0 (.constant 0)) (askRequest type) none).run (exec .levelDB)
    freshWorld

/-- What the request stores, with random bytes that are zero. -/
def askedRequest (type : GoString) (expires : Time) : AuthRequest :=
  { token := Random.tokenString (Random.constant 0).token
    created := unixEpoch
    authToken :=
      { email := lit "e@x.io"
        token := Random.tokenString (Random.constant 0).secret
        type
        id := Random.tokenString (Random.constant 0).id
        created := unixEpoch
        lastUsed := unixEpoch
        expires } }

/-- The link of the mail is opened. -/
def linkRequest : Request :=
  clientRequest (lit "GET") [] (lit "t=" ++ Random.tokenString (Random.constant 0).token) []

def linkRun (type : GoString) (age : Nat) : Except HttpError Reply × World Tables :=
  (standard.activateAuthToken (.after age (.constant 1)) linkRequest none).run (exec .levelDB)
    (askRun type).2

theorem askRun_creates {type : GoString} {expires : Time}
    (hStored : (askRun type).2.storage.authRequests (askedRequest type expires).key =
      some (askedRequest type expires)) :
    Creates standard .levelDB (.after 0 (.constant 0)) (askRequest type) none freshWorld
      (askedRequest type expires).key (askedRequest type expires) := ⟨nofun, hStored⟩

/-- A request for a token leaves the accounts alone. -/
theorem requestAuthToken_accounts (srv : Server) (b : Backend) (env : Env) (r : Request)
    (auth : Option Auth) (w : World Tables) :
    ((srv.requestAuthToken env r auth).run (exec b) w).2.storage.accounts =
      w.storage.accounts := by
  have hEffect : Effect srv b env r auth w.storage .requestAuthToken _ := effect_requestAuthToken
  generalize ((srv.requestAuthToken env r auth).run (exec b) w).2.storage = T at hEffect ⊢
  cases hEffect <;> rfl

theorem askRun_accounts (type : GoString) :
    (askRun type).2.storage.accounts = fun _ => none :=
  requestAuthToken_accounts standard .levelDB _ (askRequest type) none freshWorld

theorem askRun_kept (type : GoString) : (askRun type).2.storage.Kept Json.identity where
  key hFound := by
    rw [askRun_accounts] at hFound
    cases hFound
  account hFound := by
    rw [askRun_accounts] at hFound
    cases hFound
  authRequest _ := AuthRequest.marshal_of_lossless Json.identity_lossless _

/-- A request that carries the credential of a token. -/
def useToken (t : AuthToken) : Request := clientRequest (lit "GET") t.toGoString [] []

/-- A device is paired as soon as its owner has read the mail. -/
theorem activation_yields_credential_paired :
    ∃ reply w', linkRun (lit "api") 1 = (.ok reply, w') ∧
      HandedOut standard .levelDB (.after 0 (.constant 0)) (askRequest (lit "api")) none freshWorld
        reply (askedRequest (lit "api") 0).authToken ∧
      ∀ later r', later.now = unixEpoch + 1 →
        r'.carries (askedRequest (lit "api") 0).authToken.toGoString →
          ((∃ a, ((standard.authenticate later r').run (exec .levelDB) w').1 = .ok a ∧
              a.account.email = lit "e@x.io") ↔
            InTime unixEpoch (unixEpoch + 1) (askedRequest (lit "api") 0).authToken) := by
  obtain ⟨reply, hReply, -⟩ := ok_of_map
    (show (linkRun (lit "api") 1).1.map (fun reply => reply.status) = .ok 200 by decide +kernel)
  refine ⟨reply, _, Program.run_eq hReply, ?_⟩
  exact activation_yields_credential (fun s hNil => hNil)
    (askRun_creates (by decide +kernel)) (askRun_kept _)
    (fun acc hFound => by
      rw [askRun_accounts] at hFound
      cases hFound)
    (fun random hSome => by
      obtain rfl : Random.constant 1 = random := Option.some.inj hSome
      decide +kernel)
    (by decide +kernel) (Program.run_eq hReply)

/-- An activation can report success and hand out a credential that does not work. -/
theorem activation_comes_too_late :
    ¬∀ (srv : Server) (b : Backend) (env₀ env : Env) (r₀ r : Request) (auth₀ auth : Option Auth)
      (w₀ w w' : World Tables) (k : GoString) (ar : AuthRequest) (reply : Reply),
      (∀ s, b.json.coerce s = [] → s = []) → Creates srv b env₀ r₀ auth₀ w₀ k ar →
      w.storage.Kept b.json →
      (∀ acc, w.storage.accounts ar.authToken.email = some acc →
        none ∉ acc.authTokens ∧ ar.authToken.token ∉ acc.secrets) →
      (∀ random, env.random = some random →
        Random.tokenString random.secret ≠ ar.authToken.token) →
      env₀.now ≤ env.now → ((srv.getAuthRequest r).run (exec b) w).1 = .ok ar →
      (srv.activateAuthToken env r auth).run (exec b) w = (.ok reply, w') →
      ∀ later r', later.now = env.now → r'.carries ar.authToken.toGoString →
        ∃ a, ((srv.authenticate later r').run (exec b) w').1 = .ok a ∧
          a.account.email = ar.authToken.email := by
  intro hAll
  obtain ⟨reply, hReply, -⟩ := ok_of_map
    (show (linkRun (lit "web") 3600000000000).1.map (fun reply => reply.status) = .ok 200 by
      decide +kernel)
  obtain ⟨a, hAccepted, -⟩ := hAll standard .levelDB (.after 0 (.constant 0))
    (.after 3600000000000 (.constant 1)) (askRequest (lit "web")) linkRequest none none freshWorld
    (askRun (lit "web")).2 _ _ (askedRequest (lit "web") (unixEpoch + hour)) reply
    (fun s hNil => hNil) (askRun_creates (by decide +kernel)) (askRun_kept _)
    (fun acc hFound => by
      rw [askRun_accounts] at hFound
      cases hFound)
    (fun random hSome => by
      obtain rfl : Random.constant 1 = random := Option.some.inj hSome
      decide +kernel)
    (by decide +kernel) (by decide +kernel) (Program.run_eq hReply)
    (.after 3600000000000 (.constant 2))
    (useToken (askedRequest (lit "web") (unixEpoch + hour)).authToken) rfl (.inl rfl)
  have hRejected : ((standard.authenticate (.after 3600000000000 (.constant 2))
      (useToken (askedRequest (lit "web") (unixEpoch + hour)).authToken)).run (exec .levelDB)
        (linkRun (lit "web") 3600000000000).2).1.toOption.isNone = true := by
    decide +kernel
  have hNone : (Except.ok a : Except HttpError Auth).toOption.isNone = true :=
    hAccepted ▸ hRejected
  cases hNone

end Server

end PadlockCloud
