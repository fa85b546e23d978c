import PadlockCloud.Model.Standard
import PadlockCloud.Request.Origin

/-!
# What CSRF protection covers

The protection looks at requests with a web token only, and lets the safe methods
pass. The handlers that the endpoints register under a safe method change nothing,
except for `Logout`: the dashboard logs out with a plain link.
-/

namespace PadlockCloud

open Process

namespace Server

variable {srv : Server} {b : Backend} {endpoint : Endpoint} {env : Env} {r r' : Request}
  {w : World Tables} {T T' : Tables} {a : Auth} {h : Handler} {acc : Account}

/-- The request has no valid CSRF token, neither as it arrives nor after its form
has been parsed. -/
def LacksCsrfToken (srv : Server) (r : Request) : Prop :=
  r.method ∉ safeMethods →
    (srv.csrf.protect r).1 = false ∧ (srv.csrf.protect (r.formParsed srv.net)).1 = false

/-- `T'` is `T`, up to one token with the presented secret that the account of the
request may have lost. -/
structure LosesToken (J : Json) (a : Auth) (T T' : Tables) : Prop where
  authRequests : T'.authRequests = T.authRequests
  dataStores : T'.dataStores = T.dataStores
  others : ∀ k, k ≠ a.account.email → T'.accounts k = T.accounts k
  account : ∃ acc l, T.accounts a.account.email = some acc ∧
    T'.accounts a.account.email = some { acc with authTokens := l } ∧
      (l = acc.authTokens ∨
        ∃ s, s.token = J.coerce a.token.token ∧ acc.authTokens.Perm (some s :: l))

/-! ## Safe methods -/

/-- The handlers that change nothing. -/
def Reads (h : Handler) : Prop := h = .readStore ∨ h = .dashboard ∨ h = .accountInfo

instance : DecidablePred Reads := fun h =>
  inferInstanceAs (Decidable (h = .readStore ∨ h = .dashboard ∨ h = .accountInfo))

/-- Behind authentication, a safe method reads, or it is the `GET` of a logout. -/
theorem safe_handler (hRoute : endpoint ∈ endpoints.map Prod.snd) (hType : endpoint.authType ≠ [])
    {method : GoString} (hSafe : method ∈ safeMethods) (hHandler : endpoint.handler method = some h) :
    Reads h ∨ h = .logout ∧ method = lit "GET" ∧ endpoint = servedAt (lit "/logout/") := by
  have hTable : ∀ endpoint ∈ endpoints.map Prod.snd, endpoint.authType ≠ [] →
      ∀ method ∈ safeMethods, ∀ h ∈ endpoint.handler method,
        Reads h ∨ h = .logout ∧ method = lit "GET" ∧ endpoint = servedAt (lit "/logout/") := by
    decide +kernel
  exact hTable endpoint hRoute hType method hSafe h hHandler

theorem Effect.reads {auth : Option Auth} (hEffect : Effect srv b env r auth T h T')
    (hReads : Reads h) : T' = T := by
  rcases hReads with rfl | rfl | rfl
  · cases hEffect
    rfl
  · cases hEffect
    rfl
  · cases hEffect
    rfl

/-! ## Logout -/

/-- An account that has been prepared for storing is not stamped again. -/
theorem prepare_prepared (b : Backend) (now : Time) (acc : Account)
    (l : List (Option AuthToken)) :
    b.prepare now { b.prepare now acc with authTokens := l } =
      { b.prepare now acc with authTokens := l } := by
  unfold Backend.prepare
  cases b.stamps with
  | false => rfl
  | true =>
    by_cases hNew : acc.created = 0
    · by_cases hNow : now = 0
      · simp [hNew, hNow]
      · simp [hNew, hNow]
    · simp [hNew]

/-- What a logout writes on top of the write-back of `Authenticate`. -/
theorem losesToken_logout (hAuth : srv.authenticated b env r T = .ok a) :
    LosesToken b.json a (authTables b T (.ok a))
      ((authTables b T (.ok a)).storeAccount b env.now
        (a.account.removeAuthToken a.token).1) := by
  obtain ⟨t, acc, a', hToken, -, hAccepted, rfl⟩ := authenticated_ok hAuth
  have hSecretNe : a'.token.token ≠ [] := by
    have hPresented := (authTokenFromString_some hToken).1
    rcases hAccepted.token with ⟨-, -, -, hEq⟩ | ⟨-, s, -, hSame, -, hEq⟩
    · rw [hEq]
      exact hPresented
    · rw [hEq]
      exact hSame ▸ hPresented
  have hPrepared (l : List (Option AuthToken)) :
      b.prepare env.now { b.prepare env.now a'.account with authTokens := l } =
        { b.prepare env.now a'.account with authTokens := l } := prepare_prepared b env.now _ l
  generalize b.prepare env.now a'.account = acc at hPrepared ⊢
  obtain ⟨l, hRemove, hLost⟩ : ∃ l,
      (acc.removeAuthToken a'.token).1 = { acc with authTokens := l } ∧
        (l = acc.authTokens ∨
          ∃ s, s.token = a'.token.token ∧ acc.authTokens.Perm (some s :: l)) := by
    rcases acc.removeAuthToken_cases a'.token with ⟨-, hNone⟩ | ⟨l, s, hRemove, hCovers, hPerm⟩
    · exact ⟨_, by rw [hNone], .inl rfl⟩
    · exact ⟨l, by rw [hRemove], .inr ⟨s, Account.token_of_covers hCovers hSecretNe, hPerm⟩⟩
  rw [hRemove, Tables.storeAccount, hPrepared]
  refine ⟨rfl, rfl, fun k hOther => ?_, ?_⟩
  · exact Function.update_of_ne hOther _ _
  · refine ⟨_, l.map (Option.map (AuthToken.marshal b.json)), Function.update_self ..,
      Function.update_self .., ?_⟩
    rcases hLost with rfl | ⟨s, hSecret, hPerm⟩
    · exact .inl rfl
    · exact .inr ⟨s.marshal b.json, congrArg b.json.coerce hSecret, hPerm.map _⟩

/-! ## Requests without a CSRF token -/

/-- Without a valid CSRF token a web client is admitted with a safe method only. -/
theorem safe_of_admitted {auth : Option Auth}
    (hAdmitted : srv.admitted b endpoint env r T = some (r', auth))
    (hAuth : srv.authenticated b env r T = .ok a) (hWeb : a.token.type = lit "web")
    (hType : endpoint.authType ≠ []) (hCsrf : LacksCsrfToken srv r) :
    r.method ∈ safeMethods := by
  by_contra hUnsafe
  obtain ⟨hPlain, hParsed⟩ := hCsrf hUnsafe
  obtain ⟨a', rfl, hAuth', -, hChecked⟩ := admitted_auth hAdmitted hType
  obtain rfl := Except.ok.inj (hAuth.symm.trans hAuth')
  have hRequest : (srv.versionFromRequest r).2 = r ∨
      (srv.versionFromRequest r).2 = r.formParsed srv.net := by
    unfold versionFromRequest
    cases acceptVersion (r.header .accept)
    · exact .inr rfl
    · exact .inl rfl
  have hFails : (srv.csrf.protect (srv.versionFromRequest r).2).1 = false := by
    rcases hRequest with hSame | hSame
    · rw [hSame, hPlain]
    · rw [hSame, hParsed]
  unfold checked at hChecked
  dsimp only at hChecked
  split at hChecked
  · cases hChecked
  · simp [hType, hWeb, hFails] at hChecked

/-- A web client without a CSRF token changes nothing but what `Authenticate`
writes, and with a logout its own session. -/
theorem csrf_covers_changes (hRoute : endpoint ∈ endpoints.map Prod.snd)
    (hType : endpoint.authType ≠ [])
    (hAuth : ((srv.authenticate env r).run (exec b) w).1 = .ok a)
    (hWeb : a.token.type = lit "web") (hCsrf : LacksCsrfToken srv r) :
    ((srv.serve endpoint env r).run (exec b) w).2.storage = w.storage ∨
      ((srv.serve endpoint env r).run (exec b) w).2.storage =
        ((srv.authenticate env r).run (exec b) w).2.storage ∨
      (r.method = lit "GET" ∧ endpoint = servedAt (lit "/logout/") ∧
        LosesToken b.json a ((srv.authenticate env r).run (exec b) w).2.storage
          ((srv.serve endpoint env r).run (exec b) w).2.storage) := by
  rw [run_authenticate] at hAuth ⊢
  dsimp only at hAuth ⊢
  obtain ⟨T, hT, hEnd⟩ := serve_effect srv b endpoint env r w
  rcases hEnd with hSame | ⟨r', auth, h, hAdmitted, hHandler, rfl, hEffect⟩
  · rw [hSame]
    rcases hT with rfl | rfl
    · exact .inl rfl
    · exact .inr (.inl rfl)
  · have hSafe := safe_of_admitted hAdmitted hAuth hWeb hType hCsrf
    rcases safe_handler hRoute hType hSafe hHandler with hReads | ⟨rfl, hGet, hLogout⟩
    · exact .inr (.inl (hEffect.reads hReads))
    · obtain ⟨a', rfl, hAuth', -⟩ := admitted_auth hAdmitted hType
      obtain rfl := Except.ok.inj (hAuth.symm.trans hAuth')
      generalize ((srv.serve endpoint env r).run (exec b) w).2.storage = T' at hEffect ⊢
      cases hEffect with
      | unchanged => exact .inr (.inl rfl)
      | loggedOut a' hSome =>
        obtain rfl := Option.some.inj hSome
        rw [hAuth]
        exact .inr (.inr ⟨hGet, hLogout, losesToken_logout hAuth⟩)

/-! ## A link that logs out -/

/-- An account with a browser that is logged in. -/
def browserWorld : World Tables :=
  { storage := .ofAccount
      { email := lit "e@x.io"
        authTokens :=
          [some
            { email := lit "e@x.io"
              token := lit "secret"
              type := lit "web"
              lastUsed := Time.unixEpoch
              expires := Time.unixEpoch + Time.hour }] } }

def browserGet : Request :=
  clientRequest (lit "GET") (lit "AuthToken e@x.io:secret") [] []

/-- The browser follows a link to `/logout/`. -/
def linkLogout : Except HttpError Reply × World Tables :=
  (standard.serve (servedAt (lit "/logout/")) (.after 0 (.constant 0)) browserGet).run
    (exec .levelDB) browserWorld

def browserAuth : Except HttpError Auth × World Tables :=
  (standard.authenticate (.after 0 (.constant 0)) browserGet).run (exec .levelDB) browserWorld

/-- The tokens that the account has. -/
def browserTokens (T : Tables) : Option Nat :=
  (T.accounts (lit "e@x.io")).map fun acc => acc.authTokens.length

theorem browserGet_lacks : LacksCsrfToken standard browserGet := by
  intro hUnsafe
  exact absurd hUnsafe (by decide)

/-- A page of another site sends the form that deletes the data store. -/
def forgedPost : Request :=
  clientRequest (lit "POST") (lit "AuthToken e@x.io:secret") [] (lit "gorilla.csrf.Token=guess")

/-- The account has a data store. -/
def storeWorld : World Tables :=
  { browserWorld with
    storage := { browserWorld.storage with
      dataStores := Function.update (fun _ => none) (lit "e@x.io") (some (lit "data")) } }

def forgedDelete : Except HttpError Reply × World Tables :=
  (standard.serve (servedAt (lit "/deletestore/")) (.after 0 (.constant 0)) forgedPost).run
    (exec .levelDB) storeWorld

def forgedAuth : Except HttpError Auth × World Tables :=
  (standard.authenticate (.after 0 (.constant 0)) forgedPost).run (exec .levelDB) storeWorld

theorem forgedPost_lacks : LacksCsrfToken standard forgedPost := fun _ =>
  ⟨by decide +kernel, by decide +kernel⟩

/-- A link to `/logout/`, and a form that is not sent from the dashboard. -/
theorem csrf_covers_changes_forged :
    (∃ a, browserAuth.1 = .ok a ∧
      (linkLogout.2.storage = browserWorld.storage ∨
        linkLogout.2.storage = browserAuth.2.storage ∨
        (browserGet.method = lit "GET" ∧
          servedAt (lit "/logout/") = servedAt (lit "/logout/") ∧
            LosesToken .identity a browserAuth.2.storage linkLogout.2.storage))) ∧
    ∃ a, forgedAuth.1 = .ok a ∧ forgedPost.method ∉ safeMethods ∧
      (forgedDelete.2.storage = storeWorld.storage ∨
        forgedDelete.2.storage = forgedAuth.2.storage ∨
        (forgedPost.method = lit "GET" ∧
          servedAt (lit "/deletestore/") = servedAt (lit "/logout/") ∧
            LosesToken .identity a forgedAuth.2.storage forgedDelete.2.storage)) := by
  constructor
  · obtain ⟨a, hAuth, hWeb⟩ := ok_of_map
      (show browserAuth.1.map (fun a => a.token.type) = .ok (lit "web") by decide +kernel)
    unfold browserAuth at hAuth
    unfold linkLogout browserAuth
    exact ⟨a, hAuth, csrf_covers_changes (by decide +kernel) (by decide +kernel) hAuth hWeb
      browserGet_lacks⟩
  · obtain ⟨a, hAuth, hWeb⟩ := ok_of_map
      (show forgedAuth.1.map (fun a => a.token.type) = .ok (lit "web") by decide +kernel)
    unfold forgedAuth at hAuth
    unfold forgedDelete forgedAuth
    exact ⟨a, hAuth, by decide, csrf_covers_changes (by decide +kernel) (by decide +kernel) hAuth
      hWeb forgedPost_lacks⟩

/-- A change that CSRF protection does not cover. -/
theorem csrf_misses_logout :
    ¬∀ (srv : Server) (b : Backend) (endpoint : Endpoint) (env : Env) (r : Request)
      (w : World Tables) (a : Auth), endpoint ∈ endpoints.map Prod.snd → endpoint.authType ≠ [] →
      ((srv.authenticate env r).run (exec b) w).1 = .ok a → a.token.type = lit "web" →
      LacksCsrfToken srv r →
      ((srv.serve endpoint env r).run (exec b) w).2.storage = w.storage ∨
        ((srv.serve endpoint env r).run (exec b) w).2.storage =
          ((srv.authenticate env r).run (exec b) w).2.storage := by
  intro hAll
  obtain ⟨a, hAuth, hWeb⟩ := ok_of_map
    (show browserAuth.1.map (fun a => a.token.type) = .ok (lit "web") by decide +kernel)
  have hOut : browserTokens linkLogout.2.storage = some 0 := by decide +kernel
  have hBefore : browserTokens browserWorld.storage = some 1 := by decide +kernel
  have hMiddle : browserTokens browserAuth.2.storage = some 1 := by decide +kernel
  have hEnd : linkLogout.2.storage = browserWorld.storage ∨
      linkLogout.2.storage = browserAuth.2.storage := by
    unfold linkLogout browserAuth
    exact hAll standard .levelDB (servedAt (lit "/logout/")) (.after 0 (.constant 0)) browserGet
      browserWorld a (by decide +kernel) (by decide +kernel) hAuth hWeb browserGet_lacks
  rcases hEnd with hSame | hSame
  · have hTokens : some 0 = some 1 := hOut.symm.trans (hSame ▸ hBefore)
    cases hTokens
  · have hTokens : some 0 = some 1 := hOut.symm.trans (hSame ▸ hMiddle)
    cases hTokens

end Server

end PadlockCloud
