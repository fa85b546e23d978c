import PadlockCloud.Request.Sound

/-!
# Where the records come from

The sources of a handler's writes, for whole requests and for runs. In sound
tables the account that a handler gets is within the stored one, so that after
any action each account is within the one before, up to the tokens of an
activation, and each auth request was there before or has just been issued.
-/

namespace PadlockCloud

open Process Time

namespace Server

variable {srv : Server} {b : Backend} {endpoint : Endpoint} {env : Env} {r r' : Request}
  {auth : Option Auth} {T T' : Tables} {w w' : World Tables} {k : GoString}
  {acc acc' base : Account} {a : Auth} {ar : AuthRequest} {action : Action}

/-! ## The request behind the checks -/

/-- The handler gets the request, or the request with its form parsed. -/
theorem admitted_request (hAdmitted : srv.admitted b endpoint env r T = some (r', auth)) :
    r' = r ∨ r' = r.formParsed srv.net := by
  have hOf {auth : Option Auth} (hChecked : srv.checked endpoint r auth = some r') :
      r' = r ∨ r' = r.formParsed srv.net := by
    rw [checked_eq hChecked]
    split
    · exact .inr rfl
    · exact .inl rfl
  unfold admitted at hAdmitted
  split at hAdmitted
  · cases hAdmitted
  · split at hAdmitted
    · split at hAdmitted
      · cases hAdmitted
      · obtain ⟨r'', hChecked, hPair⟩ := Option.map_eq_some_iff.mp hAdmitted
        cases hPair
        exact hOf hChecked
    · split at hAdmitted
      · obtain ⟨r'', hChecked, hPair⟩ := Option.map_eq_some_iff.mp hAdmitted
        cases hPair
        exact hOf hChecked
      · cases hAdmitted

theorem admitted_pattern (hAdmitted : srv.admitted b endpoint env r T = some (r', auth)) :
    srv.activationPattern r' = srv.activationPattern r := by
  rcases admitted_request hAdmitted with rfl | rfl <;> rfl

theorem admitted_authForm (hAdmitted : srv.admitted b endpoint env r T = some (r', auth))
    (auth' : Option Auth) : srv.authForm r' auth' = srv.authForm r auth' := by
  rcases admitted_request hAdmitted with rfl | rfl <;> rfl

/-! ## Authentication in sound tables -/

/-- An accepted request gets an account within the stored one, and a token for
it. -/
theorem authenticated_within (hSound : T.Sound b.json)
    (hAuth : srv.authenticated b env r T = .ok a) :
    ∃ t acc, authTokenFromRequest r = some t ∧ T.accounts t.email = some acc ∧
      a.account.Within env.now acc ∧ a.account.email = t.email ∧ a.token.email = t.email := by
  obtain ⟨t, acc, a', hToken, hFound, hAccepted, rfl⟩ := authenticated_ok hAuth
  have hAccount := hSound.soundAt hFound
  have hWithin := hAccepted.within (authTokenFromString_some hToken).1
    fun s hs => (hAccount.mem hs).2.type_ne_skeleton
  refine ⟨t, acc, hToken, hFound, hWithin.prepare b env.now, ?_, ?_⟩
  · rw [Backend.prepare_email, hWithin.email, hAccount.email]
  · rcases hAccepted.token with ⟨-, -, -, hEq⟩ | ⟨-, s, hs, -, -, hEq⟩
    · rw [hEq]
      rfl
    · rw [hEq]
      exact (hAccount.mem hs).1

theorem authenticated_sound (hSound : T.Sound b.json)
    (hAuth : srv.authenticated b env r T = .ok a) : a.Sound b.json := by
  obtain ⟨t, acc, -, hFound, hWithin, hEmail, hToken⟩ := authenticated_within hSound hAuth
  refine ⟨?_, hToken.trans hEmail.symm⟩
  rw [hEmail]
  exact (hSound.soundAt hFound).within hWithin

theorem authTables_within (hSound : T.Sound b.json)
    (hFound : (authTables b T (srv.authenticated b env r T)).accounts k = some acc') :
    ∃ acc, T.accounts k = some acc ∧ acc'.Within env.now acc := by
  cases hAuth : srv.authenticated b env r T with
  | error e =>
    rw [hAuth] at hFound
    exact ⟨acc', hFound, .refl env.now acc'⟩
  | ok a =>
    obtain ⟨t, acc, -, hStored, hWithin, hEmail, -⟩ := authenticated_within hSound hAuth
    rw [hAuth] at hFound
    simp only [authTables, Tables.putAccount, Function.update_apply] at hFound
    split at hFound
    · rename_i hKey
      obtain rfl := Option.some.inj hFound
      rw [hKey, hEmail]
      have hAccount := (hSound.soundAt hStored).within hWithin
      exact ⟨acc, hStored, hAccount.marshal_within.trans (Int.le_refl _) hWithin⟩
    · exact ⟨acc', hFound, .refl env.now acc'⟩

@[simp] theorem authTables_authRequests (T : Tables) (result : Except HttpError Auth) :
    (authTables b T result).authRequests = T.authRequests := by
  cases result <;> rfl

@[simp] theorem authTables_dataStores (T : Tables) (result : Except HttpError Auth) :
    (authTables b T result).dataStores = T.dataStores := by
  cases result <;> rfl

theorem sound_authTables (hSound : T.Sound b.json) :
    (authTables b T (srv.authenticated b env r T)).Sound b.json where
  toKept := kept_authTables hSound.toKept
  tokens hFound := by
    obtain ⟨acc, hStored, hWithin⟩ := authTables_within hSound hFound
    exact ((hSound.soundAt hStored).within hWithin).tokens
  issued hFound := by
    rw [authTables_authRequests] at hFound
    exact hSound.issued hFound

/-- The account that a handler starts from is within the one before the request. -/
theorem accountAt_authTables (hSound : T.Sound b.json) (k : GoString) :
    (accountAt (authTables b T (srv.authenticated b env r T)) k).Within env.now
      (accountAt T k) := by
  cases hFound : (authTables b T (srv.authenticated b env r T)).accounts k with
  | none =>
    have hNone : T.accounts k = none := by
      cases hAuth : srv.authenticated b env r T with
      | error e => rwa [hAuth] at hFound
      | ok a =>
        rw [hAuth] at hFound
        simp only [authTables, Tables.putAccount, Function.update_apply] at hFound
        split at hFound
        · cases hFound
        · exact hFound
    rw [accountAt, accountAt, hFound, hNone]
    exact .refl env.now _
  | some acc' =>
    obtain ⟨acc, hStored, hWithin⟩ := authTables_within hSound hFound
    rw [accountAt, accountAt, hFound, hStored]
    exact hWithin

/-! ## Whole actions -/

/-- What an account under `k` is within after an action. -/
inductive Grown (srv : Server) (T : Tables) (k : GoString) : Action → Account → Prop where
  | stored (action : Action) (acc : Account) (hFound : T.accounts k = some acc) :
      Grown srv T k action acc
  | added (endpoint : Endpoint) (env : Env) (r : Request) (added : List AuthToken)
      (hHandler : endpoint.handler r.method = some .activateAuthToken)
      (hAdds : Adds srv env r T k .activateAuthToken added) :
      Grown srv T k (.serve endpoint env r) ((accountAt T k).extend added)

/-- A request that is served by `RequestAuthToken` and asks for `ar`. -/
inductive Issuing (srv : Server) (b : Backend) (T : Tables) : Action → AuthRequest → Prop where
  | mk (endpoint : Endpoint) (env : Env) (r r' : Request) (auth : Option Auth) (ar : AuthRequest)
      (hAdmitted : srv.admitted b endpoint env r T = some (r', auth))
      (hHandler : endpoint.handler r.method = some .requestAuthToken)
      (hIssues : Issues srv env r auth ar) : Issuing srv b T (.serve endpoint env r) ar

theorem Adds.congr {h : Handler} {added : List AuthToken} (hAdds : Adds srv env r T k h added)
    (hPattern : srv.activationPattern r' = srv.activationPattern r)
    (hRequests : T'.authRequests = T.authRequests) : Adds srv env r' T' k h added := by
  cases hAdds with
  | activated pattern ar hOwn hFound hKey =>
    exact .activated pattern ar (hPattern.trans hOwn) (by rwa [hRequests]) hKey
  | paired pattern ar login hOwn hFound hKey hLogin hNew =>
    exact .paired pattern ar login (hPattern.trans hOwn) (by rwa [hRequests]) hKey hLogin hNew

/-- The account that an action leaves is within the one before, or within it
together with activated tokens. -/
theorem perform_account (hSound : w.storage.Sound b.json)
    (hFound : (action.perform srv b w).storage.accounts k = some acc') :
    ∃ base, Grown srv w.storage k action base ∧ acc'.Within action.time base := by
  cases action with
  | clean now keys =>
    rw [(clean_effect srv b now keys w).1] at hFound
    exact ⟨acc', .stored _ acc' hFound, .refl _ acc'⟩
  | serve endpoint env r =>
    obtain ⟨T, hT, hEnd⟩ := serve_effect srv b endpoint env r w
    have hFirst {acc : Account} (hAcc : T.accounts k = some acc) :
        ∃ acc₀, w.storage.accounts k = some acc₀ ∧ acc.Within env.now acc₀ := by
      rcases hT with rfl | rfl
      · exact ⟨acc, hAcc, .refl env.now acc⟩
      · exact authTables_within hSound hAcc
    have hFound' : ((srv.serve endpoint env r).run (exec b) w).2.storage.accounts k = some acc' :=
      hFound
    rcases hEnd with hSame | ⟨r', auth, h, hAdmitted, hHandler, rfl, hEffect⟩
    · rw [hSame] at hFound'
      obtain ⟨acc₀, hStored, hWithin⟩ := hFirst hFound'
      exact ⟨acc₀, .stored _ acc₀ hStored, hWithin⟩
    · obtain ⟨base, hSource, hWithin⟩ := hEffect.source (sound_authTables hSound)
        (fun a hSome => by
          subst hSome
          exact authenticated_sound hSound (admitted_some hAdmitted)) hFound'
      cases hSource with
      | stored acc hAcc =>
        obtain ⟨acc₀, hStored, hWithin₀⟩ := hFirst hAcc
        exact ⟨acc₀, .stored _ acc₀ hStored, hWithin.trans (Int.le_refl _) hWithin₀⟩
      | handed a hSome hKey =>
        subst hSome
        obtain ⟨t, acc, -, hStored, hWithin₀, hEmail, -⟩ :=
          authenticated_within hSound (admitted_some hAdmitted)
        rw [← hEmail, ← hKey] at hStored
        exact ⟨acc, .stored _ acc hStored, hWithin.trans (Int.le_refl _) hWithin₀⟩
      | added added hAdds =>
        have hActivates : h = .activateAuthToken := by
          cases hAdds <;> rfl
        subst hActivates
        exact ⟨_, .added endpoint env r added hHandler
            (hAdds.congr (admitted_pattern hAdmitted).symm (authTables_authRequests _ _).symm),
          hWithin.trans (Int.le_refl _) ((accountAt_authTables hSound k).extend added)⟩

/-- An auth request that an action leaves was there before, or it is the one
that was asked for. -/
theorem perform_request (hFound : (action.perform srv b w).storage.authRequests k = some ar) :
    w.storage.authRequests k = some ar ∨
      ∃ new, Issuing srv b w.storage action new ∧ k = new.key ∧ ar = new.marshal b.json := by
  cases action with
  | clean now keys =>
    rcases (clean_effect srv b now keys w).2.2 k with hSame | hNone
    · exact .inl (hSame.symm.trans hFound)
    · rw [hNone] at hFound
      cases hFound
  | serve endpoint env r =>
    obtain ⟨T, hT, hEnd⟩ := serve_effect srv b endpoint env r w
    have hFound' : ((srv.serve endpoint env r).run (exec b) w).2.storage.authRequests k = some ar :=
      hFound
    have hFirst : T.authRequests = w.storage.authRequests := by
      rcases hT with rfl | rfl
      · rfl
      · exact authTables_authRequests _ _
    rcases hEnd with hSame | ⟨r', auth, h, hAdmitted, hHandler, -, hEffect⟩
    · rw [hSame, hFirst] at hFound'
      exact .inl hFound'
    · rcases hEffect.request hFound' with hOld | ⟨rfl, new, hIssues, hKey, hStored⟩
      · rw [hFirst] at hOld
        exact .inl hOld
      · refine .inr ⟨new, .mk endpoint env r r' auth new hAdmitted hHandler ?_, hKey, hStored⟩
        have hForm := admitted_authForm hAdmitted auth
        exact ⟨by rw [← hForm]; exact hIssues.check, by rw [← hForm]; exact hIssues.new⟩

theorem sound_perform (action : Action) (hSound : w.storage.Sound b.json) :
    (action.perform srv b w).storage.Sound b.json where
  toKept := kept_perform action hSound.toKept
  tokens {k acc'} hFound := by
    obtain ⟨base, hGrown, hWithin⟩ := perform_account hSound hFound
    refine (Account.Sound.within ?_ hWithin).tokens
    cases hGrown with
    | stored _ _ hStored => exact hSound.soundAt hStored
    | added endpoint env r added hHandler hAdds =>
      obtain ⟨hKey, hIssued⟩ := hAdds.issued hSound
      exact (hSound.accountAt hKey).extend hIssued
  issued hFound := by
    rcases perform_request hFound with hOld | ⟨new, hIssuing, -, rfl⟩
    · exact hSound.issued hOld
    · cases hIssuing with
      | mk endpoint env r r' auth new hAdmitted hHandler hIssues =>
        exact marshal_issued hIssues.issued

/-- The tables are sound in every run from sound tables. -/
theorem sound_runs {allowed : List Action → Action → Prop} {past history : List Action}
    (hRun : srv.Runs b allowed past w history w') (hSound : w.storage.Sound b.json) :
    w'.storage.Sound b.json :=
  Run.invariant (I := fun _ w => w.storage.Sound b.json) hRun hSound
    fun _ _ action hSound _ => sound_perform action hSound

end Server

end PadlockCloud
