import PadlockCloud.Model.Standard
import PadlockCloud.Request.Secrets

/-!
# Logging out

`Logout` removes the token that it finds under the authenticated token, and does
not look at whether there was one. `Authenticate` has changed that token before:
where the stored one has no device, the copy has the device of the request, and
with its UUID the search finds nothing any more. So the session ends unless the
stored token has no device and the request brings a UUID.
-/

namespace PadlockCloud

open Process

namespace Server

variable {srv : Server} {b : Backend} {env : Env} {r : Request} {w w' : World Tables}
  {endpoint : Endpoint} {reply : Reply} {t : AuthToken} {acc : Account}

/-- The secret of a credential is gone from the account, and no later request
with it is accepted in any run without an activation. -/
def SessionEnded (srv : Server) (b : Backend) (w : World Tables) (t : AuthToken) : Prop :=
  (∀ acc, w.storage.accounts t.email = some acc → t.token ∉ acc.secrets) ∧
    ∀ past history w', srv.Runs b (fun _ action => ¬action.activates) past w history w' →
      ∀ env r t', authTokenFromRequest r = some t' → t'.email = t.email → t'.token = t.token →
        t'.type ≠ lit "skeleton" → ∃ e, srv.authenticated b env r w'.storage = .error e

theorem sessionEnded_iff (hKept : w.storage.Kept b.json) :
    SessionEnded srv b w t ↔
      ∀ acc, w.storage.accounts t.email = some acc → t.token ∉ acc.secrets := by
  refine ⟨And.left, fun hGone => ⟨hGone, ?_⟩⟩
  intro past history w' hRun env r t' hToken hEmail hSecret hType
  have hNone := runs_secrets hRun (fun _ _ h => h) hKept hGone
  refine authenticated_of_no_secret hToken hType fun acc hFound => ?_
  rw [hSecret]
  exact hNone acc (by rwa [← hEmail])

/-! ## What is written -/

/-- The account that `Logout` writes has the secret exactly if the devices do
not agree. -/
theorem mem_loggedOut (b : Backend) (env : Env) (r : Request) {base : Account} {i : Nat}
    {s : AuthToken} (hDistinct : base.secrets.Nodup) (hAt : base.authTokens[i]? = some (some s))
    (hToken : s.token ≠ []) :
    s.token ∈ ((b.prepare env.now ((base.touched r i s).updateAuthToken
        (s.refreshed env r))).removeAuthToken (s.refreshed env r)).1.secrets ↔
      ¬SameDevice r s := by
  have hRefreshed : (s.refreshed env r).token ≠ [] := hToken
  have hTouched := within_touched (r := r) hAt env.now
  constructor
  · intro hMem hSame
    refine Account.removeAuthToken_gone ?_ hRefreshed ?_ (Account.covers_self _) hMem
    · rw [Account.secrets_prepare, Account.updateAuthToken_secrets _ hRefreshed]
      exact hTouched.nodup hDistinct
    · rw [Backend.prepare_authTokens]
      exact Account.mem_updateAuthToken_self hRefreshed (mem_touched hAt) (covers_touched hSame)
  · intro hOther
    have hNone := not_covers_touched env hDistinct hAt hToken hOther
    rw [Account.updateAuthToken_of_not_covers hNone, Account.removeAuthToken_of_not_covers
      (by rwa [Backend.prepare_authTokens]), Account.secrets_prepare]
    exact Account.mem_secrets.mpr ⟨_, mem_touched hAt, rfl⟩

/-- What a logout stores of an account whose secrets were stored before. -/
theorem storeAccount_loggedOut {T : Tables} {base : Account} (env : Env) (pattern : AuthToken)
    (hFixed : acc.marshal b.json = acc) (hSubset : base.secrets ⊆ acc.secrets) :
    ∃ stored, (T.storeAccount b env.now (base.removeAuthToken pattern).1).accounts base.email =
        some stored ∧
      stored.secrets = (base.removeAuthToken pattern).1.secrets := by
  have hWithin := base.within_removeAuthToken pattern env.now
  have hKnown := List.Subset.trans hWithin.secrets.subset hSubset
  rw [← hWithin.email, Tables.storeAccount_self]
  exact ⟨_, rfl, Account.secrets_stored hFixed hKnown⟩

/-! ## The request -/

/-- A successful logout ends the session exactly if the stored token has a device
or the request brings no device UUID. -/
theorem logout_ends_session (hRoute : endpointAt (lit "/logout/") = some endpoint)
    (hKept : w.storage.Kept b.json) (hToken : authTokenFromRequest r = some t)
    (hType : t.type ≠ lit "skeleton") (hStored : w.storage.accounts t.email = some acc)
    (hDistinct : acc.secrets.Nodup)
    (hRun : (srv.serve endpoint env r).run (exec b) w = (.ok reply, w'))
    (hReply : reply.status < 400) :
    ∃ s, some s ∈ acc.authTokens ∧ s.token = t.token ∧
      (SessionEnded srv b w' t ↔ SameDevice r s) := by
  have hSame : ∀ entry ∈ endpoint.handlers, entry.2 = .logout := by
    cases hRoute
    simp
  obtain ⟨r', a, -, hAuth, -, hStorage⟩ := served_universal (by cases hRoute; rfl) hSame hRun hReply
  have hKeptEnd : w'.storage.Kept b.json := by
    have hEnd : ((Action.serve endpoint env r).perform srv b w).storage.Kept b.json :=
      kept_perform _ hKept
    rwa [Action.perform, hRun] at hEnd
  obtain ⟨t', acc', a', hToken', hStored', hAccepted, rfl⟩ := authenticated_ok hAuth
  rw [hToken, Option.some.injEq] at hToken'
  subst hToken'
  rw [hStored, Option.some.injEq] at hStored'
  subst hStored'
  have hSecretNe := (authTokenFromString_some hToken).1
  have hSubset := (hAccepted.secrets hSecretNe).subset
  have hEmail := hAccepted.email.trans (hKept.key hStored)
  cases hAccepted with
  | skeleton base hPruned hSkeleton => exact absurd hSkeleton hType
  | stored base i s hPruned _ hFind hSecret hExpired =>
    obtain ⟨hAt, -⟩ := Account.findAuthToken_eq_some hFind
    have hBase := Account.within_pruned hPruned env.now
    refine ⟨s, ?_, hSecret, ?_⟩
    · obtain ⟨-, rfl⟩ := Account.pruned_eq_some.mp hPruned
      exact (List.mem_filter.mp (List.mem_of_getElem? hAt)).1
    have hMem := mem_loggedOut b env r (hBase.nodup hDistinct) hAt (by rwa [hSecret])
    -- What `Authenticate` has written, and what the logout stores in its place.
    obtain ⟨reply', hLogout⟩ := run_logout srv b env r' (srv.entered b env r w)
      ⟨s.refreshed env r, b.prepare env.now
        ((base.touched r i s).updateAuthToken (s.refreshed env r))⟩
    rw [Handler.handle, hLogout] at hStorage
    generalize (base.touched r i s).updateAuthToken (s.refreshed env r) = touched at *
    obtain ⟨stored, hFound, hSecrets⟩ : ∃ stored, w'.storage.accounts t.email = some stored ∧
        stored.secrets =
          ((b.prepare env.now touched).removeAuthToken (s.refreshed env r)).1.secrets := by
      rw [hStorage, ← hEmail, ← b.prepare_email env.now touched]
      exact storeAccount_loggedOut env _ (hKept.account hStored) (by rwa [Account.secrets_prepare])
    rw [sessionEnded_iff hKeptEnd, ← hSecret, hFound]
    simp only [Option.some.injEq, forall_eq', hSecrets, hMem, not_not]

/-! ## A session that outlives its logout

The token was activated by a client that sent no device data, and the logout
comes with a device UUID. -/

def sessionAccount : Account :=
  { email := lit "e@x.io"
    authTokens :=
      [some
        { email := lit "e@x.io", token := lit "secret", type := lit "api"
          lastUsed := Time.unixEpoch }] }

def sessionWorld : World Tables := { storage := Tables.ofAccount sessionAccount }

theorem sessionWorld_kept : sessionWorld.storage.Kept Json.identity :=
  .ofAccount (Account.marshal_of_lossless Json.identity_lossless _)

def logoutRequest (uuid : GoString) : Request :=
  { method := lit "GET"
    header := fun h =>
      match h with
      | .authorization => lit "AuthToken e@x.io:secret"
      | .devicePlatform => lit "android"
      | .deviceUUID => uuid
      | _ => [] }

def sessionToken : AuthToken := { email := lit "e@x.io", token := lit "secret" }

def logoutEndpoint : Endpoint := (endpointAt (lit "/logout/")).getD { handlers := [] }

def logoutRun (uuid : GoString) : Except HttpError Reply × World Tables :=
  (standard.serve logoutEndpoint (.after 0 (.constant 0)) (logoutRequest uuid)).run
    (exec .levelDB) sessionWorld

/-- The reply to a logout of a client that does not accept HTML. -/
def loggedOutReply : Reply := { cookie := some { value := [], maxAge := -1, secure := false } }

theorem logout_ends_session_without_uuid :
    ∃ s, some s ∈ sessionAccount.authTokens ∧ s.token = sessionToken.token ∧
      (SessionEnded standard .levelDB (logoutRun []).2 sessionToken ↔
        SameDevice (logoutRequest []) s) := by
  have hResult : (logoutRun []).1 = .ok loggedOutReply := by decide +kernel
  have hToken : authTokenFromRequest (logoutRequest []) = some sessionToken := by decide +kernel
  exact logout_ends_session (by decide +kernel) sessionWorld_kept hToken (by decide +kernel)
    (show sessionWorld.storage.accounts sessionToken.email = some sessionAccount by decide +kernel)
    (by decide +kernel) (Program.run_eq hResult) (by decide +kernel)

/-- Not every successful logout ends the session. -/
theorem logout_keeps_session :
    ¬∀ (srv : Server) (b : Backend) (endpoint : Endpoint) (env : Env) (r : Request)
      (w w' : World Tables) (reply : Reply) (t : AuthToken) (acc : Account),
      endpointAt (lit "/logout/") = some endpoint → w.storage.Kept b.json →
      authTokenFromRequest r = some t → t.type ≠ lit "skeleton" →
      w.storage.accounts t.email = some acc → acc.secrets.Nodup →
      (srv.serve endpoint env r).run (exec b) w = (.ok reply, w') → reply.status < 400 →
      SessionEnded srv b w' t := by
  intro hAll
  have hResult : (logoutRun (lit "phone")).1 = .ok loggedOutReply := by decide +kernel
  have hToken : authTokenFromRequest (logoutRequest (lit "phone")) = some sessionToken := by
    decide +kernel
  have hEnded := hAll standard .levelDB logoutEndpoint _ _ _ _ _ _ _ (by decide +kernel)
    sessionWorld_kept hToken (by decide +kernel)
    (show sessionWorld.storage.accounts sessionToken.email = some sessionAccount by decide +kernel)
    (by decide +kernel) (Program.run_eq hResult) (by decide +kernel)
  have hKept : ((logoutRun (lit "phone")).2.storage.accounts (lit "e@x.io")).any
      (fun acc => lit "secret" ∈ acc.secrets) = true := by
    decide +kernel
  rw [Option.any_eq_true] at hKept
  obtain ⟨acc, hFound, hSecret⟩ := hKept
  exact hEnded.1 acc hFound (of_decide_eq_true hSecret)

end Server

end PadlockCloud
