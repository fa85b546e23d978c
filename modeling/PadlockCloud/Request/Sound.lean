import PadlockCloud.Request.Runs

/-!
# Sound tables

The tables are *sound* when every record lies under its own key and every token
is one that the server has issued for the account that it lies in: an api or a
web token with a secret. Each handler writes accounts that come from a sound
account, possibly with the tokens of an activated request (`Source`), so the
tables stay sound, also if a handler gets an account that was read some time ago.
-/

namespace PadlockCloud

open Process Time

/-! ## Issued tokens -/

/-- A token as `NewAuthToken` makes it, which JSON does not change. -/
structure AuthToken.Issued (J : Json) (t : AuthToken) : Prop where
  type : t.type = lit "api" ∨ t.type = lit "web"
  token_ne_nil : t.token ≠ []
  token : J.coerce t.token = t.token
  id : J.coerce t.id = t.id

/-- An account under the key `k` with issued tokens only. -/
structure Account.Sound (J : Json) (k : GoString) (acc : Account) : Prop where
  email : acc.email = k
  key : J.coerce k = k
  tokens : ∀ o ∈ acc.authTokens, ∃ t, o = some t ∧ t.email = k ∧ t.Issued J

/-- The tokens of a new activation at the end of an account. -/
def Account.extend (acc : Account) (added : List AuthToken) : Account :=
  { acc with authTokens := acc.authTokens ++ added.map some }

namespace AuthToken.Issued

variable {J : Json} {s t : AuthToken} {now : Time}

theorem type_ne_skeleton (hIssued : t.Issued J) : t.type ≠ lit "skeleton" := by
  rcases hIssued.type with hType | hType <;> rw [hType] <;> decide

theorem type_ne_nil (hIssued : t.Issued J) : t.type ≠ [] := by
  rcases hIssued.type with hType | hType <;> rw [hType] <;> decide

theorem coerce_type (hIssued : t.Issued J) : J.coerce t.type = t.type := by
  refine J.coerce_ascii _ ?_
  rcases hIssued.type with hType | hType <;> rw [hType] <;> decide +kernel

theorem of_refreshes (hIssued : t.Issued J) (hRefreshes : s.Refreshes now t) : s.Issued J where
  type := hRefreshes.type ▸ hIssued.type
  token_ne_nil := hRefreshes.token ▸ hIssued.token_ne_nil
  token := hRefreshes.token ▸ hIssued.token
  id := hRefreshes.id ▸ hIssued.id

/-- A stored token refreshes the token that it was before. -/
theorem marshal_refreshes (hIssued : t.Issued J) (hEmail : J.coerce t.email = t.email) :
    (t.marshal J).Refreshes now t :=
  ⟨hEmail, hIssued.token, hIssued.coerce_type, hIssued.id, .inl rfl⟩

end AuthToken.Issued

theorem Json.coerce_urlSafe (J : Json) {s : GoString} (hSafe : s.all urlSafe = true) :
    J.coerce s = s := by
  refine J.coerce_ascii s fun c hc => ?_
  have hAscii := forall_byte (P := fun c => urlSafe c = true → c < 0x80) (by decide +kernel) c
  exact hAscii (List.all_eq_true.mp hSafe c hc)

theorem newAuthToken_issued {J : Json} {env : Env} {email type : GoString} {device : Option Device}
    {t : AuthToken} (hNew : newAuthToken env email type device = some t)
    (hType : type = lit "api" ∨ type = lit "web") : t.Issued J := by
  obtain ⟨random, -, rfl⟩ := newAuthToken_eq_some.mp hNew
  have hNil : type ≠ [] := by
    rcases hType with rfl | rfl <;> decide
  refine ⟨?_, tokenString_ne_nil _, J.coerce_urlSafe (tokenString_urlSafe _),
    J.coerce_urlSafe (tokenString_urlSafe _)⟩
  dsimp only
  rwa [if_neg hNil]

theorem newAuthRequest_issued {J : Json} {env : Env} {email type actType : GoString}
    {device : Option Device} {ar : AuthRequest}
    (hNew : newAuthRequest env email type actType device = some ar)
    (hType : type = lit "api" ∨ type = lit "web") : ar.authToken.Issued J := by
  obtain ⟨token, random, hToken, -, rfl⟩ := newAuthRequest_eq_some.mp hNew
  have hIssued := newAuthToken_issued (J := J) hToken hType
  split <;> exact hIssued

/-! ## Sound accounts -/

namespace Account

variable {J : Json} {k : GoString} {acc acc' base : Account} {now : Time} {s t : AuthToken}

theorem Sound.mem (hSound : acc.Sound J k) (ht : some t ∈ acc.authTokens) :
    t.email = k ∧ t.Issued J := by
  obtain ⟨u, hu, hEmail, hIssued⟩ := hSound.tokens _ ht
  obtain rfl := Option.some.inj hu
  exact ⟨hEmail, hIssued⟩

theorem Sound.empty (hKey : J.coerce k = k) : Account.Sound J k { email := k } :=
  ⟨rfl, hKey, nofun⟩

/-- What is within a sound account is sound. -/
theorem Sound.within (hSound : base.Sound J k) (hWithin : acc.Within now base) : acc.Sound J k where
  email := hWithin.email.trans hSound.email
  key := hSound.key
  tokens o ho := by
    cases o with
    | none =>
      obtain ⟨t, ht, -⟩ := hSound.tokens _ (hWithin.nils ho)
      cases ht
    | some s =>
      obtain ⟨t, ht, hRefreshes⟩ := hWithin.tokens s ho
      obtain ⟨hEmail, hIssued⟩ := hSound.mem ht
      exact ⟨s, rfl, hRefreshes.email.trans hEmail, hIssued.of_refreshes hRefreshes⟩

theorem Sound.extend (hSound : acc.Sound J k) {added : List AuthToken}
    (hAdded : ∀ t ∈ added, t.email = k ∧ t.Issued J) : (acc.extend added).Sound J k where
  email := hSound.email
  key := hSound.key
  tokens o ho := by
    rcases List.mem_append.mp ho with hOld | hNew
    · exact hSound.tokens o hOld
    · obtain ⟨t, ht, rfl⟩ := List.mem_map.mp hNew
      exact ⟨t, rfl, hAdded t ht⟩

theorem Sound.secret_fixed (hSound : acc.Sound J k) {secret : GoString}
    (hSecret : secret ∈ acc.secrets) : J.coerce secret = secret := by
  obtain ⟨t, ht, rfl⟩ := Account.mem_secrets.mp hSecret
  exact (hSound.mem ht).2.token

theorem Sound.secrets_marshal (hSound : acc.Sound J k) : (acc.marshal J).secrets = acc.secrets := by
  rw [Account.secrets_marshal]
  refine (List.map_congr_left fun secret hSecret => ?_).trans (List.map_id _)
  exact hSound.secret_fixed hSecret

/-- A sound account is stored as it is, up to its devices. -/
theorem Sound.marshal_within (hSound : acc.Sound J k) : (acc.marshal J).Within now acc where
  email := by
    show J.coerce acc.email = acc.email
    rw [hSound.email, hSound.key]
  tokens s hs := by
    obtain ⟨o, ho, hMarshal⟩ := List.mem_map.mp hs
    obtain ⟨t, rfl, rfl⟩ := Option.map_eq_some_iff.mp hMarshal
    obtain ⟨hEmail, hIssued⟩ := hSound.mem ho
    exact ⟨t, ho, hIssued.marshal_refreshes (by rw [hEmail, hSound.key])⟩
  secrets := by rw [hSound.secrets_marshal]
  nils hNone := by
    obtain ⟨o, ho, hMarshal⟩ := List.mem_map.mp hNone
    rw [Option.map_eq_none_iff] at hMarshal
    rwa [← hMarshal]

/-- The account that is stored for one within a sound account. -/
theorem Sound.stored_within (hSound : base.Sound J k) (hWithin : acc.Within now base) {b : Backend}
    (hJson : b.json = J) (time : Time) : ((b.prepare time acc).marshal b.json).Within now base := by
  subst hJson
  have hPrepared := hWithin.prepare b time
  exact (hSound.within hPrepared).marshal_within.trans (Int.le_refl now) hPrepared

/-- Adding the same tokens to both accounts. -/
theorem Within.extend (hWithin : acc'.Within now acc) (added : List AuthToken) :
    (acc'.extend added).Within now (acc.extend added) where
  email := hWithin.email
  tokens s hs := by
    rcases List.mem_append.mp hs with hOld | hNew
    · obtain ⟨t, ht, hRefreshes⟩ := hWithin.tokens s hOld
      exact ⟨t, List.mem_append_left _ ht, hRefreshes⟩
    · exact ⟨s, List.mem_append_right _ hNew, .refl now s⟩
  secrets := by
    simp only [Account.secrets, Account.extend, List.reduceOption_append, List.map_append]
    exact (List.subperm_append_right _).mpr hWithin.secrets
  nils hNone := by
    rcases List.mem_append.mp hNone with hOld | hNew
    · exact List.mem_append_left _ (hWithin.nils hOld)
    · exact List.mem_append_right _ hNew

theorem secrets_extend (acc : Account) (added : List AuthToken) :
    (acc.extend added).secrets = acc.secrets ++ added.map AuthToken.token := by
  simp [Account.secrets, Account.extend, List.reduceOption]

theorem extend_extend (acc : Account) (added later : List AuthToken) :
    (acc.extend added).extend later = acc.extend (added ++ later) := by
  simp [Account.extend]

/-- An activation stays within the account with the new token. -/
theorem activated_within (acc : Account) (t : AuthToken) (now : Time) :
    (Server.activated acc t).Within now (acc.extend [t]) := by
  obtain ⟨rest, hRest, hEq⟩ := activated_eq acc t now
  rw [hEq]
  exact hRest.extend [t]

end Account

/-! ## Sound tables -/

/-- Records under their keys, with issued tokens only. -/
structure Tables.Sound (J : Json) (T : Tables) : Prop extends T.Kept J where
  tokens : ∀ {k acc}, T.accounts k = some acc →
    ∀ o ∈ acc.authTokens, ∃ t, o = some t ∧ t.email = k ∧ t.Issued J
  issued : ∀ {k ar}, T.authRequests k = some ar → ar.authToken.Issued J

/-- What a handler may get: a sound account and a token for it. -/
structure Auth.Sound (J : Json) (a : Auth) : Prop where
  account : a.account.Sound J a.account.email
  token : a.token.email = a.account.email

namespace Tables.Sound

variable {J : Json} {T : Tables} {k : GoString} {acc : Account} {ar : AuthRequest}

theorem empty : Tables.empty.Sound J := ⟨.empty, nofun, nofun⟩

theorem soundAt (hSound : T.Sound J) (hFound : T.accounts k = some acc) : acc.Sound J k :=
  ⟨hSound.key hFound, hSound.coerce_key hFound, hSound.tokens hFound⟩

theorem accountAt (hSound : T.Sound J) (hKey : J.coerce k = k) :
    (Server.accountAt T k).Sound J k := by
  unfold Server.accountAt
  cases hFound : T.accounts k with
  | none => exact .empty hKey
  | some acc => exact hSound.soundAt hFound

theorem request_email (hSound : T.Sound J) (hFound : T.authRequests k = some ar) :
    J.coerce ar.authToken.email = ar.authToken.email :=
  congrArg (fun ar => ar.authToken.email) (hSound.authRequest hFound)

end Tables.Sound

namespace Server

variable {srv : Server} {b : Backend} {env : Env} {r : Request} {auth : Option Auth}
  {T T' : Tables} {k : GoString} {acc acc' base : Account} {ar : AuthRequest} {h : Handler}

/-! ## Where an account comes from -/

/-- The tokens that a handler adds to the account under `k`. -/
inductive Adds (srv : Server) (env : Env) (r : Request) (T : Tables) (k : GoString) :
    Handler → List AuthToken → Prop where
  | activated (pattern ar : AuthRequest) (hPattern : srv.activationPattern r = .ok pattern)
      (hFound : T.authRequests pattern.key = some ar) (hKey : ar.authToken.email = k) :
      Adds srv env r T k .activateAuthToken [ar.authToken]
  | paired (pattern ar login : AuthRequest) (hPattern : srv.activationPattern r = .ok pattern)
      (hFound : T.authRequests pattern.key = some ar) (hKey : ar.authToken.email = k)
      (hLogin : loginsToo ar = true)
      (hNew : newAuthRequest env ar.authToken.email (lit "web") [] ar.authToken.device =
        some login) :
      Adds srv env r T k .activateAuthToken [ar.authToken, login.authToken]

/-- What the account that a handler leaves under `k` is within: the one that was
there, the one that the handler got, or an account with the tokens of an
activation. -/
inductive Source (srv : Server) (env : Env) (r : Request) (auth : Option Auth) (T : Tables)
    (k : GoString) (h : Handler) : Account → Prop where
  | stored (acc : Account) (hFound : T.accounts k = some acc) : Source srv env r auth T k h acc
  | handed (a : Auth) (hAuth : auth = some a) (hKey : k = a.account.email) :
      Source srv env r auth T k h a.account
  | added (added : List AuthToken) (hAdds : Adds srv env r T k h added) :
      Source srv env r auth T k h ((accountAt T k).extend added)

theorem Adds.issued {added : List AuthToken} (hAdds : Adds srv env r T k h added)
    (hSound : T.Sound b.json) :
    b.json.coerce k = k ∧ ∀ t ∈ added, t.email = k ∧ t.Issued b.json := by
  cases hAdds with
  | activated pattern ar hPattern hFound hKey =>
    subst hKey
    refine ⟨hSound.request_email hFound, fun t ht => ?_⟩
    obtain rfl := List.mem_singleton.mp ht
    exact ⟨rfl, hSound.issued hFound⟩
  | paired pattern ar login hPattern hFound hKey hLogin hNew =>
    subst hKey
    refine ⟨hSound.request_email hFound, fun t ht => ?_⟩
    rcases List.mem_cons.mp ht with rfl | hLast
    · exact ⟨rfl, hSound.issued hFound⟩
    · obtain rfl := List.mem_singleton.mp hLast
      exact ⟨newAuthRequest_email hNew, newAuthRequest_issued hNew (.inr rfl)⟩

theorem Source.sound (hSource : Source srv env r auth T k h base) (hSound : T.Sound b.json)
    (hAuth : ∀ a, auth = some a → a.Sound b.json) : base.Sound b.json k := by
  cases hSource with
  | stored acc hFound => exact hSound.soundAt hFound
  | handed a hSome hKey =>
    subst hKey
    exact (hAuth a hSome).account
  | added added hAdds =>
    obtain ⟨hKey, hIssued⟩ := hAdds.issued hSound
    exact (hSound.accountAt hKey).extend hIssued

/-- The account that an activation leaves under the email of its token. -/
theorem accountAt_activateTables (env : Env) (hSound : T.Sound b.json)
    (hEmail : b.json.coerce ar.authToken.email = ar.authToken.email)
    (hIssued : ar.authToken.Issued b.json) :
    (accountAt (activateTables b env ar T) ar.authToken.email).Within env.now
      ((accountAt T ar.authToken.email).extend [ar.authToken]) := by
  have hExtended : ((accountAt T ar.authToken.email).extend [ar.authToken]).Sound b.json
      ar.authToken.email :=
    (hSound.accountAt hEmail).extend fun t ht => by
      obtain rfl := List.mem_singleton.mp ht
      exact ⟨rfl, hIssued⟩
  rw [accountAt, activateTables_self hSound.toKept, Option.getD_some]
  exact hExtended.stored_within (Account.activated_within _ _ env.now) rfl env.now

/-- What an activation leaves under a key. -/
theorem activateTables_some (hSound : T.Sound b.json)
    (hEmail : b.json.coerce ar.authToken.email = ar.authToken.email)
    (hIssued : ar.authToken.Issued b.json)
    (hFound : (activateTables b env ar T).accounts k = some acc') :
    k = ar.authToken.email ∧ acc'.Within env.now ((accountAt T k).extend [ar.authToken]) ∨
      k ≠ ar.authToken.email ∧ T.accounts k = some acc' := by
  by_cases hSame : k = ar.authToken.email
  · subst hSame
    have hWithin := accountAt_activateTables env hSound hEmail hIssued
    rw [accountAt, hFound, Option.getD_some] at hWithin
    exact .inl ⟨rfl, hWithin⟩
  · refine .inr ⟨hSame, ?_⟩
    rcases Tables.storeAccount_some hFound with ⟨hOwn, -⟩ | hOld
    · rw [activated_accountAt_email ar hSound.toKept] at hOwn
      exact absurd hOwn hSame
    · exact hOld

theorem sound_activateTables (env : Env) (hSound : T.Sound b.json)
    (hEmail : b.json.coerce ar.authToken.email = ar.authToken.email)
    (hIssued : ar.authToken.Issued b.json) : (activateTables b env ar T).Sound b.json where
  toKept := kept_activateTables hSound.toKept hEmail
  tokens hFound := by
    rcases activateTables_some hSound hEmail hIssued hFound with ⟨rfl, hWithin⟩ | ⟨-, hOld⟩
    · refine (Account.Sound.within ?_ hWithin).tokens
      exact (hSound.accountAt hEmail).extend fun t ht => by
        obtain rfl := List.mem_singleton.mp ht
        exact ⟨rfl, hIssued⟩
    · exact hSound.tokens hOld
  issued hFound := by
    simp only [activateTables, Tables.putAuthRequest, Function.update_apply] at hFound
    split at hFound
    · cases hFound
    · exact hSound.issued hFound

/-- Every account that a handler leaves comes from a source. -/
theorem Effect.source (hEffect : Effect srv b env r auth T h T') (hSound : T.Sound b.json)
    (hAuth : ∀ a, auth = some a → a.Sound b.json) (hFound : T'.accounts k = some acc') :
    ∃ base, Source srv env r auth T k h base ∧ acc'.Within env.now base := by
  have hOld (hSame : T.accounts k = some acc') :
      ∃ base, Source srv env r auth T k h base ∧ acc'.Within env.now base :=
    ⟨acc', .stored acc' hSame, .refl env.now acc'⟩
  cases hEffect with
  | unchanged => exact hOld hFound
  | requested => exact hOld hFound
  | written => exact hOld hFound
  | reset => exact hOld hFound
  | activated pattern ar hPattern hPending =>
    rcases activateTables_some hSound (hSound.request_email hPending) (hSound.issued hPending)
      hFound with ⟨rfl, hWithin⟩ | ⟨-, hSame⟩
    · exact ⟨_, .added _ (.activated pattern ar hPattern hPending rfl), hWithin⟩
    · exact hOld hSame
  | paired pattern ar login hPattern hPending hLogin hNew =>
    have hEmail := hSound.request_email hPending
    have hLoginEmail := newAuthRequest_email hNew
    have hFirst := sound_activateTables env hSound hEmail (hSound.issued hPending)
    rcases activateTables_some hFirst (by rwa [hLoginEmail])
      (newAuthRequest_issued hNew (.inr rfl)) hFound with ⟨rfl, hWithin⟩ | ⟨hOther, hFound₁⟩
    · refine ⟨_, .added _ (.paired pattern ar login hPattern hPending hLoginEmail.symm hLogin hNew),
        ?_⟩
      -- The second activation starts from the account that the first one has left.
      have hMiddle := accountAt_activateTables env hSound hEmail (hSound.issued hPending)
      rw [← hLoginEmail] at hMiddle
      have hBoth := hWithin.trans (Int.le_refl _) (hMiddle.extend [login.authToken])
      rwa [Account.extend_extend] at hBoth
    · rcases activateTables_some hSound hEmail (hSound.issued hPending) hFound₁ with
        ⟨hSame, -⟩ | ⟨-, hSame⟩
      · exact absurd (hSame.trans hLoginEmail.symm) hOther
      · exact hOld hSame
  | deleted a hSome =>
    simp only [Tables.putAccount, Tables.putDataStore, Function.update_apply] at hFound
    split at hFound
    · cases hFound
    · exact hOld hFound
  | loggedOut a hSome =>
    have hWithin := Account.within_removeAuthToken a.account a.token env.now
    rcases Tables.storeAccount_some hFound with ⟨hKey, rfl⟩ | hSame
    · exact ⟨_, .handed a hSome (hKey.trans hWithin.email),
        (hAuth a hSome).account.stored_within hWithin rfl env.now⟩
    · exact hOld hSame
  | revoked a pattern t acc hSome hRevoked =>
    obtain ⟨s, hs, -, -, -, -, hEmail, hWithin⟩ := Account.revoked_eq env.now_epoch hRevoked
    have hSecret := ((hAuth a hSome).account.mem hs).2.token_ne_nil
    rcases Tables.storeAccount_some hFound with ⟨hKey, rfl⟩ | hSame
    · exact ⟨_, .handed a hSome (hKey.trans hEmail),
        (hAuth a hSome).account.stored_within (hWithin hSecret) rfl env.now⟩
    · exact hOld hSame

/-! ## Where an auth request comes from -/

/-- The auth request that `RequestAuthToken` makes. -/
structure Issues (srv : Server) (env : Env) (r : Request) (auth : Option Auth)
    (ar : AuthRequest) : Prop where
  check : AuthForm.check srv (srv.authForm r auth) = .ok ()
  new : (newAuthRequest env (srv.authForm r auth).email (srv.authForm r auth).type
    (srv.authForm r auth).actType (srv.authForm r auth).device).map
      (fun new => { new with redirect := (srv.authForm r auth).redirect }) = some ar

theorem Issues.issued {J : Json} (hIssues : Issues srv env r auth ar) : ar.authToken.Issued J := by
  obtain ⟨new, hNew, rfl⟩ := Option.map_eq_some_iff.mp hIssues.new
  show new.authToken.Issued J
  exact newAuthRequest_issued hNew (AuthForm.check_ok hIssues.check).2.2.1

/-- An auth request in the tables was there before, or is the one that was asked
for. -/
theorem Effect.request (hEffect : Effect srv b env r auth T h T')
    (hFound : T'.authRequests k = some ar) :
    T.authRequests k = some ar ∨
      h = .requestAuthToken ∧ ∃ new, Issues srv env r auth new ∧ k = new.key ∧
        ar = new.marshal b.json := by
  have hGone {T : Tables} {key : GoString}
      (hLeft : (T.putAuthRequest key none).authRequests k = some ar) :
      T.authRequests k = some ar := by
    simp only [Tables.putAuthRequest, Function.update_apply] at hLeft
    split at hLeft
    · cases hLeft
    · exact hLeft
  cases hEffect with
  | requested new hCheck hNew =>
    simp only [Tables.putAuthRequest, Function.update_apply] at hFound
    split at hFound
    · rename_i hKey
      have hIssues : Issues srv env r auth
          { new with redirect := (srv.authForm r auth).redirect } :=
        ⟨hCheck, by rw [hNew, Option.map_some]⟩
      exact .inr ⟨rfl, _, hIssues, hKey, (Option.some.inj hFound).symm⟩
    · exact .inl hFound
  | activated => exact .inl (hGone hFound)
  | paired =>
    exact .inl (hGone (hGone hFound))
  | _ => exact .inl hFound

theorem marshal_issued {J : Json} {t : AuthToken} (hIssued : t.Issued J) :
    (t.marshal J).Issued J where
  type := by
    show J.coerce t.type = _ ∨ J.coerce t.type = _
    rw [hIssued.coerce_type]
    exact hIssued.type
  token_ne_nil := by
    show J.coerce t.token ≠ []
    rw [hIssued.token]
    exact hIssued.token_ne_nil
  token := J.coerce_coerce _
  id := J.coerce_coerce _

/-- A handler keeps the tables sound. -/
theorem Effect.sound (hEffect : Effect srv b env r auth T h T') (hSound : T.Sound b.json)
    (hAuth : ∀ a, auth = some a → a.Sound b.json) : T'.Sound b.json where
  toKept := hEffect.kept hSound.toKept fun a hSome => (hAuth a hSome).account.key
  tokens hFound := by
    obtain ⟨base, hSource, hWithin⟩ := hEffect.source hSound hAuth hFound
    exact ((hSource.sound hSound hAuth).within hWithin).tokens
  issued hFound := by
    rcases hEffect.request hFound with hOld | ⟨-, new, hIssues, -, rfl⟩
    · exact hSound.issued hOld
    · exact marshal_issued hIssues.issued

end Server

end PadlockCloud
