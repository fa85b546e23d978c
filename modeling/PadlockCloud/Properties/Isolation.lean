import PadlockCloud.Model.Standard
import PadlockCloud.Request.Origin

/-!
# Accounts are kept apart

The email that a handler uses as a key is that of the parsed credential, that of
the stored account, that of the token that `Validate` has copied, or that of the
activated request. In sound tables they are one for each request, so a request
reaches no other account than its own and the one that it activates a token for.
-/

namespace PadlockCloud

open Process

namespace Server

variable {srv : Server} {b : Backend} {endpoint : Endpoint} {env : Env} {r : Request}
  {auth : Option Auth} {T T' : Tables} {w w' : World Tables} {k : GoString} {h : Handler}

/-- The account of the request: its credential names it and is accepted. -/
def OwnAccount (srv : Server) (b : Backend) (env : Env) (r : Request) (w : World Tables)
    (k : GoString) : Prop :=
  ∃ t a, authTokenFromRequest r = some t ∧ ((srv.authenticate env r).run (exec b) w).1 = .ok a ∧
    k = t.email

/-- The account that the request activates a token for. -/
def ActivatedAccount (srv : Server) (b : Backend) (endpoint : Endpoint) (r : Request)
    (w : World Tables) (k : GoString) : Prop :=
  endpoint.handler r.method = some .activateAuthToken ∧
    ∃ ar, ((srv.getAuthRequest r).run (exec b) w).1 = .ok ar ∧ k = ar.authToken.email

/-- The handlers that change the content of a data store. -/
def ChangesData (h : Handler) : Prop := h = .writeStore ∨ h = .deleteStore ∨ h = .deleteAccount

/-- Every account lies under its email and holds tokens of that email, and no
request changes another account or other data than its own. -/
structure Isolated (srv : Server) (b : Backend) (w : World Tables) : Prop where
  account : ∀ k acc, w.storage.accounts k = some acc →
    acc.email = k ∧ ∀ o ∈ acc.authTokens, ∃ t, o = some t ∧ t.email = k
  accounts_changes : ∀ endpoint env r, (Action.serve endpoint env r).routed → ∀ k,
    ((srv.serve endpoint env r).run (exec b) w).2.storage.accounts k ≠ w.storage.accounts k →
      OwnAccount srv b env r w k ∨ ActivatedAccount srv b endpoint r w k
  data_changes : ∀ endpoint env r, (Action.serve endpoint env r).routed → ∀ k,
    ((srv.serve endpoint env r).run (exec b) w).2.storage.dataStores k ≠ w.storage.dataStores k →
      OwnAccount srv b env r w k ∧ ∃ h, endpoint.handler r.method = some h ∧ ChangesData h

/-! ## What a handler leaves alone -/

theorem storeAccount_changes {acc : Account} {now : Time}
    (hChange : (T.storeAccount b now acc).accounts k ≠ T.accounts k) : k = acc.email := by
  by_contra hOther
  exact hChange (Tables.storeAccount_of_ne hOther)

theorem activateTables_changes {ar : AuthRequest} (hKept : T.Kept b.json)
    (hChange : (activateTables b env ar T).accounts k ≠ T.accounts k) :
    k = ar.authToken.email := by
  have hKey := storeAccount_changes hChange
  rwa [activated_accountAt_email ar hKept] at hKey

theorem Effect.accounts_changes (hEffect : Effect srv b env r auth T h T')
    (hSound : T.Sound b.json) (hAuth : ∀ a, auth = some a → a.Sound b.json)
    (hChange : T'.accounts k ≠ T.accounts k) :
    (∃ a, auth = some a ∧ k = a.account.email) ∨
      h = .activateAuthToken ∧ ∃ pattern ar, srv.activationPattern r = .ok pattern ∧
        T.authRequests pattern.key = some ar ∧ k = ar.authToken.email := by
  cases hEffect with
  | activated pattern ar hPattern hFound =>
    have hKey := activateTables_changes hSound.toKept hChange
    exact .inr ⟨rfl, pattern, ar, hPattern, hFound, hKey⟩
  | paired pattern ar login hPattern hFound hLogin hNew =>
    refine .inr ⟨rfl, pattern, ar, hPattern, hFound, ?_⟩
    by_cases hFirst : (activateTables b env ar T).accounts k = T.accounts k
    · have hKept : (activateTables b env ar T).Kept b.json :=
        kept_activateTables hSound.toKept (hSound.request_email hFound)
      rw [← hFirst] at hChange
      rw [← newAuthRequest_email hNew]
      exact activateTables_changes hKept hChange
    · exact activateTables_changes hSound.toKept hFirst
  | deleted a hSome =>
    refine .inl ⟨a, hSome, ?_⟩
    by_contra hOther
    rw [← (hAuth a hSome).token] at hOther
    exact hChange (Function.update_of_ne hOther _ _)
  | loggedOut a hSome =>
    have hKey := storeAccount_changes hChange
    rw [(Account.within_removeAuthToken a.account a.token 0).email] at hKey
    exact .inl ⟨a, hSome, hKey⟩
  | revoked a pattern t acc hSome hRevoked =>
    obtain ⟨-, -, -, -, -, -, hEmail, -⟩ := Account.revoked_eq env.now_epoch hRevoked
    exact .inl ⟨a, hSome, (storeAccount_changes hChange).trans hEmail⟩
  | _ => exact absurd rfl hChange

theorem Effect.data_changes (hEffect : Effect srv b env r auth T h T')
    (hAuth : ∀ a, auth = some a → a.Sound b.json) (hChange : T'.dataStores k ≠ T.dataStores k) :
    ChangesData h ∧ ∃ a, auth = some a ∧ k = a.account.email := by
  cases hEffect with
  | written a hSome =>
    refine ⟨.inl rfl, a, hSome, ?_⟩
    by_contra hOther
    exact hChange (Function.update_of_ne hOther _ _)
  | reset a hSome =>
    refine ⟨.inr (.inl rfl), a, hSome, ?_⟩
    by_contra hOther
    exact hChange (Function.update_of_ne hOther _ _)
  | deleted a hSome =>
    refine ⟨.inr (.inr rfl), a, hSome, ?_⟩
    by_contra hOther
    rw [← (hAuth a hSome).token] at hOther
    exact hChange (Function.update_of_ne hOther _ _)
  | _ => exact absurd rfl hChange

/-! ## What a request leaves alone -/

theorem ownAccount_of_authenticated {a : Auth} (hSound : w.storage.Sound b.json)
    (hAuth : srv.authenticated b env r w.storage = .ok a) (hKey : k = a.account.email) :
    OwnAccount srv b env r w k := by
  obtain ⟨t, acc, hToken, -, -, hEmail, -⟩ := authenticated_within hSound hAuth
  exact ⟨t, a, hToken, by rw [run_authenticate, hAuth], hKey.trans hEmail⟩

theorem serve_accounts_changes (hSound : w.storage.Sound b.json)
    (hChange : ((srv.serve endpoint env r).run (exec b) w).2.storage.accounts k ≠
      w.storage.accounts k) :
    OwnAccount srv b env r w k ∨ ActivatedAccount srv b endpoint r w k := by
  obtain ⟨T, hT, hEnd⟩ := serve_effect srv b endpoint env r w
  by_cases hFirst : T.accounts k = w.storage.accounts k
  · rw [← hFirst] at hChange
    rcases hEnd with hSame | ⟨r', auth, h, hAdmitted, hHandler, rfl, hEffect⟩
    · exact absurd (congrFun (congrArg Tables.accounts hSame) k) hChange
    · rcases hEffect.accounts_changes (sound_authTables hSound) (fun a hSome => by
        subst hSome
        exact authenticated_sound hSound (admitted_some hAdmitted)) hChange with
        ⟨a, rfl, hKey⟩ | ⟨rfl, pattern, ar, hPattern, hFound, hKey⟩
      · exact .inl (ownAccount_of_authenticated hSound (admitted_some hAdmitted) hKey)
      · rw [admitted_pattern hAdmitted] at hPattern
        rw [authTables_authRequests] at hFound
        refine .inr ⟨hHandler, ar, ?_, hKey⟩
        rw [run_getAuthRequest]
        simp only [hPattern, hFound]
  · -- The write-back of `Authenticate` has changed the account.
    rcases hT with rfl | rfl
    · exact absurd rfl hFirst
    · cases hAuth : srv.authenticated b env r w.storage with
      | error e =>
        rw [hAuth] at hFirst
        exact absurd rfl hFirst
      | ok a =>
        refine .inl (ownAccount_of_authenticated hSound hAuth ?_)
        by_contra hOther
        rw [hAuth] at hFirst
        exact hFirst (Function.update_of_ne hOther _ _)

theorem serve_data_changes (hSound : w.storage.Sound b.json)
    (hChange : ((srv.serve endpoint env r).run (exec b) w).2.storage.dataStores k ≠
      w.storage.dataStores k) :
    OwnAccount srv b env r w k ∧ ∃ h, endpoint.handler r.method = some h ∧ ChangesData h := by
  obtain ⟨T, hT, hEnd⟩ := serve_effect srv b endpoint env r w
  have hFirst : T.dataStores = w.storage.dataStores := by
    rcases hT with rfl | rfl
    · rfl
    · exact authTables_dataStores _ _
  rw [← hFirst] at hChange
  rcases hEnd with hSame | ⟨r', auth, h, hAdmitted, hHandler, rfl, hEffect⟩
  · exact absurd (congrFun (congrArg Tables.dataStores hSame) k) hChange
  · obtain ⟨hChanges, a, rfl, hKey⟩ := hEffect.data_changes (fun a hSome => by
      subst hSome
      exact authenticated_sound hSound (admitted_some hAdmitted)) hChange
    exact ⟨ownAccount_of_authenticated hSound (admitted_some hAdmitted) hKey, h, hHandler, hChanges⟩

/-! ## Runs -/

/-- Accounts are isolated in every state that requests can lead to. -/
theorem accounts_isolated {history : List Action} {start : World Tables}
    (hStart : start.storage = .empty)
    (hRun : srv.Runs b (fun _ action => action.routed) [] start history w) :
    Isolated srv b w := by
  have hSound : w.storage.Sound b.json := sound_runs hRun (hStart ▸ .empty)
  refine ⟨fun k acc hFound => ?_, fun endpoint env r _ k => serve_accounts_changes hSound,
    fun endpoint env r _ k => serve_data_changes hSound⟩
  have hAccount := hSound.soundAt hFound
  refine ⟨hAccount.email, fun o ho => ?_⟩
  obtain ⟨t, ht, hEmail, -⟩ := hAccount.tokens o ho
  exact ⟨t, ht, hEmail⟩

/-- A client asks for an api token. -/
def clientAsks : Action :=
  .serve (servedAt (lit "/auth/")) (.after 0 (.constant 0))
    (clientRequest (lit "POST") [] [] (lit "type=api&email=e@x.io"))

/-- The activation link is followed. -/
def clientPairs : Action :=
  .serve (servedAt (lit "/activate/")) (.after 1 (.constant 1))
    (clientRequest (lit "GET") [] (lit "t=" ++ (Random.tokenString (Random.constant 0).token)) [])

theorem accounts_isolated_paired : Isolated standard .levelDB
    (clientPairs.perform standard .levelDB (clientAsks.perform standard .levelDB freshWorld)) :=
  accounts_isolated rfl (.step (.step .refl (by decide +kernel)) (by decide +kernel))

end Server

end PadlockCloud
