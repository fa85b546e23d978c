import PadlockCloud.Request.Custody
import PadlockCloud.Request.Region

/-!
# Lifetimes of tokens

A token is *dated* by the actions of the past: one of them has drawn its secret or has
presented it, and the token has not been used later than that. A web token expires within
an hour of the action that has drawn it. A request may store dated tokens only, where it
counts among the actions itself, and it gets dated tokens in return.
-/

namespace PadlockCloud

open Process Time

/-! ## Dated tokens -/

/-- The credential of the request is the secret of the token. -/
def Action.presents (t : AuthToken) : Action → Prop
  | .serve _ _ r => ∃ c, authTokenFromRequest r = some c ∧ c.email = t.email ∧ c.token = t.token
  | .clean _ _ => False

namespace AuthToken

/-- One of the actions has drawn the token, and it has not been used since. -/
def Drawn (past : Action → Prop) (t : AuthToken) : Prop :=
  ∃ action, past action ∧ action.secret = some t.token ∧ t.lastUsed = action.time ∧
    (t.type = lit "web" → t.expires = action.time + hour)

structure Dated (past : Action → Prop) (t : AuthToken) : Prop where
  used : ∃ action, past action ∧ (action.secret = some t.token ∨ action.presents t) ∧
    t.lastUsed ≤ action.time
  login : t.type = lit "web" → t.expires ≠ 0 ∧
    ∃ action, past action ∧ action.secret = some t.token ∧ t.expires ≤ action.time + hour

variable {past : Action → Prop} {s t : AuthToken} {endpoint : Endpoint} {env : Env} {r : Request}

theorem Drawn.mono {later : Action → Prop} (hDrawn : t.Drawn past)
    (hMono : ∀ action, past action → later action) : t.Drawn later := by
  obtain ⟨action, hPast, hRest⟩ := hDrawn
  exact ⟨action, hMono action hPast, hRest⟩

theorem Dated.mono {later : Action → Prop} (hDated : t.Dated past)
    (hMono : ∀ action, past action → later action) : t.Dated later where
  used := by
    obtain ⟨action, hPast, hRest⟩ := hDated.used
    exact ⟨action, hMono action hPast, hRest⟩
  login hWeb := by
    obtain ⟨hExpires, action, hPast, hRest⟩ := hDated.login hWeb
    exact ⟨hExpires, action, hMono action hPast, hRest⟩

/-- An action that has drawn something is a request, and its time is not zero. -/
theorem Drawn.dated (hDrawn : t.Drawn past) : t.Dated past := by
  obtain ⟨action, hPast, hSecret, hUsed, hWeb⟩ := hDrawn
  refine ⟨⟨action, hPast, .inl hSecret, Int.le_of_eq hUsed⟩, fun hType => ?_⟩
  refine ⟨?_, action, hPast, hSecret, Int.le_of_eq (hWeb hType)⟩
  rw [hWeb hType]
  cases action with
  | serve endpoint env r =>
    have hEpoch := env.now_epoch
    have hPositive : (0 : Int) < unixEpoch ∧ (0 : Int) < hour := by decide
    show env.now + hour ≠ 0
    lia
  | clean now keys => cases hSecret

/-- Nothing else of a token matters. -/
theorem Dated.of_same (hDated : t.Dated past) (hEmail : s.email = t.email)
    (hToken : s.token = t.token) (hType : s.type = t.type) (hUsed : s.lastUsed = t.lastUsed)
    (hExpires : s.expires = t.expires) : s.Dated past where
  used := by
    obtain ⟨action, hPast, hFrom, hTime⟩ := hDated.used
    refine ⟨action, hPast, ?_, hUsed ▸ hTime⟩
    cases action with
    | serve endpoint env r =>
      rw [hToken]
      refine hFrom.imp_right ?_
      rintro ⟨c, hc, hSame⟩
      exact ⟨c, hc, by rwa [hEmail, hToken]⟩
    | clean now keys =>
      rw [hToken]
      exact hFrom
  login hWeb := by
    rw [hType] at hWeb
    rw [hExpires, hToken]
    exact hDated.login hWeb

/-- A token that a request uses is dated by this request. -/
theorem Dated.refreshed (hDated : t.Dated past) (hPast : past (.serve endpoint env r))
    (hPresents : (Action.serve endpoint env r).presents t) : (t.refreshed env r).Dated past where
  used := ⟨_, hPast, .inr hPresents, Int.le_refl _⟩
  login := hDated.login

/-- A token that is revoked before it expires. -/
theorem Dated.revoked (hDated : t.Dated past) (hLive : t.type = lit "web" → env.now < t.expires) :
    ({ t with expires := env.now - minute } : AuthToken).Dated past where
  used := hDated.used
  login hWeb := by
    obtain ⟨-, action, hPast, hSecret, hHour⟩ := hDated.login hWeb
    have hEpoch := env.now_epoch
    have hMinute : (0 : Int) < minute ∧ minute < unixEpoch := by decide
    have hLater := hLive hWeb
    refine ⟨?_, action, hPast, hSecret, ?_⟩
    · show env.now - minute ≠ 0
      lia
    · show env.now - minute ≤ action.time + hour
      lia

end AuthToken

theorem newAuthRequest_dated {past : Action → Prop} {endpoint : Endpoint} {env : Env} {r : Request}
    {email tType actType : GoString} {device : Option Device} {ar : AuthRequest}
    (hNew : newAuthRequest env email tType actType device = some ar)
    (hPast : past (.serve endpoint env r)) : ar.authToken.Drawn past := by
  obtain ⟨token, random, hToken, -, rfl⟩ := newAuthRequest_eq_some.mp hNew
  obtain ⟨ρ, hRandom, rfl⟩ := newAuthToken_eq_some.mp hToken
  have hDrawn : (Action.serve endpoint env r).secret = some (Random.tokenString ρ.secret) := by
    show env.random.map (fun ρ => Random.tokenString ρ.secret) = _
    rw [hRandom, Option.map_some]
  have hHour : hour ≠ 0 := by decide
  refine ⟨_, hPast, ?_⟩
  split
  all_goals
    refine ⟨hDrawn, rfl, fun hWeb => ?_⟩
    dsimp only at hWeb ⊢
    rw [hWeb, authMaxAge, if_pos rfl, if_pos hHour]
    rfl

theorem newAuthRequest_issued_of_type {J : Json} {env : Env} {email tType actType : GoString}
    {device : Option Device} {ar : AuthRequest}
    (hNew : newAuthRequest env email tType actType device = some ar)
    (hType : ar.authToken.type = lit "api" ∨ ar.authToken.type = lit "web") :
    ar.authToken.Issued J := by
  obtain ⟨ρ, -, hToken, hId⟩ := newAuthRequest_drawn hNew
  refine ⟨hType, ?_, ?_, ?_⟩
  · rw [hToken]
    exact tokenString_ne_nil _
  · rw [hToken]
    exact J.coerce_urlSafe (tokenString_urlSafe _)
  · rw [hId]
    exact J.coerce_urlSafe (tokenString_urlSafe _)

/-! ## Dated accounts -/

namespace Account

variable {past : Action → Prop} {acc acc' : Account} {pattern s t : AuthToken}

/-- The removal of a token brings no other. -/
theorem mem_removeAuthToken (hMem : some s ∈ (acc.removeAuthToken pattern).1.authTokens) :
    some s ∈ acc.authTokens := by
  rcases removeAuthToken_cases acc pattern with ⟨-, hSame⟩ | ⟨l, t, hRemove, -, hPerm⟩
  · rwa [hSame] at hMem
  · rw [hRemove] at hMem
    exact hPerm.mem_iff.mpr (List.mem_cons_of_mem _ hMem)

theorem mem_activated (hMem : some s ∈ (Server.activated acc t).authTokens) :
    some s ∈ acc.authTokens ∨ s = t := by
  rw [(activated_perm acc t).mem_iff, List.mem_append, List.mem_singleton] at hMem
  rcases hMem with hOld | hNew
  · exact .inl (List.mem_filter.mp hOld).1
  · exact .inr (Option.some.inj hNew)

def Dated (past : Action → Prop) (acc : Account) : Prop :=
  ∀ s, some s ∈ acc.authTokens → s.Dated past

/-- No web token of the account has expired. -/
def Current (now : Time) (acc : Account) : Prop :=
  ∀ s, some s ∈ acc.authTokens → s.type = lit "web" → now < s.expires

/-- What survives the pruning has been used in the last thirty days, and the web tokens
among it have not expired. -/
theorem mem_pruned {now : Time} (hPruned : acc.pruned now = some acc')
    (hMem : some s ∈ acc'.authTokens) :
    some s ∈ acc.authTokens ∧ now - 30 * day < s.lastUsed ∧
      (s.type = lit "web" → s.expires ≠ 0 → now < s.expires) := by
  obtain ⟨-, rfl⟩ := pruned_eq_some.mp hPruned
  obtain ⟨hOld, hKept⟩ := List.mem_filter.mp hMem
  simp only [Option.any_some, keepsUnused, keepsExpired, Bool.and_eq_true, Bool.or_eq_true,
    decide_eq_true_eq] at hKept
  refine ⟨hOld, hKept.1, fun hWeb hExpires => ?_⟩
  have hLater := hKept.2.resolve_left hExpires
  rw [if_neg (by rw [hWeb]; decide)] at hLater
  lia

end Account

namespace Server

variable {past : Action → Prop} {srv : Server} {b : Backend} {endpoint : Endpoint} {env : Env}
  {r : Request} {auth : Option Auth} {acc : Account} {t u : AuthToken} {a : Auth}

/-- The tokens of the account that an accepted request writes: those that survive, one of
them refreshed, some of them with newer device data. -/
theorem Accepted.mem (hAccepted : srv.Accepted env r t acc a) (hToken : t.token ≠ [])
    (hTypes : ∀ s, some s ∈ acc.authTokens → s.type ≠ lit "skeleton")
    (hMem : some u ∈ a.account.authTokens) :
    ∃ base s, acc.pruned env.now = some base ∧ some s ∈ base.authTokens ∧
      (u = s.refreshed env r ∧ s.token = t.token ∨ u = { s with device := u.device }) := by
  have hWithin := hAccepted.within hToken hTypes
  cases hAccepted with
  | skeleton base hPruned hType =>
    rcases Account.mem_updateAuthToken hMem with hOld | rfl
    · exact ⟨base, u, hPruned, hOld, .inr rfl⟩
    · obtain ⟨v, hv, hRefreshes⟩ := hWithin.tokens _ hMem
      exact absurd (hRefreshes.type.symm.trans hType) (hTypes v hv)
  | stored base i s hPruned hType hFind hSecret hExpired =>
    have hAt := (Account.findAuthToken_eq_some hFind).1
    have hOwn : some s ∈ base.authTokens := List.mem_of_getElem? hAt
    rcases Account.mem_updateAuthToken hMem with hOld | rfl
    · rcases List.mem_or_eq_of_mem_set hOld with hOther | hSame
      · exact ⟨base, u, hPruned, hOther, .inr rfl⟩
      · obtain rfl := Option.some.inj hSame
        exact ⟨base, s, hPruned, hOwn, .inr rfl⟩
    · exact ⟨base, s, hPruned, hOwn, .inl ⟨rfl, hSecret⟩⟩

/-- An accepted request writes dated tokens, and no web token that has expired. -/
theorem Accepted.dated (hAccepted : srv.Accepted env r t acc a)
    (hToken : authTokenFromRequest r = some t) (hSound : acc.Sound b.json t.email)
    (hDated : acc.Dated past) (hPast : past (.serve endpoint env r)) :
    a.account.Dated past ∧ a.account.Current env.now := by
  have hSecret : t.token ≠ [] := (authTokenFromString_some hToken).1
  have hTypes (s : AuthToken) (hs : some s ∈ acc.authTokens) : s.type ≠ lit "skeleton" :=
    (hSound.mem hs).2.type_ne_skeleton
  have hFrom {u : AuthToken} (hu : some u ∈ a.account.authTokens) := hAccepted.mem hSecret hTypes hu
  constructor
  · intro u hu
    obtain ⟨base, s, hPruned, hs, hSame⟩ := hFrom hu
    obtain ⟨hOld, -⟩ := Account.mem_pruned hPruned hs
    rcases hSame with ⟨rfl, hPresented⟩ | hSame
    · refine (hDated s hOld).refreshed hPast ⟨t, hToken, ?_, hPresented.symm⟩
      exact (hSound.mem hOld).1.symm
    · rw [hSame]
      exact (hDated s hOld).of_same rfl rfl rfl rfl rfl
  · intro u hu hWeb
    obtain ⟨base, s, hPruned, hs, hSame⟩ := hFrom hu
    obtain ⟨hOld, -, hLater⟩ := Account.mem_pruned hPruned hs
    have hBoth : u.type = s.type ∧ u.expires = s.expires := by
      rcases hSame with ⟨rfl, -⟩ | hSame
      · exact ⟨rfl, rfl⟩
      · rw [hSame]
        exact ⟨rfl, rfl⟩
    rw [hBoth.1] at hWeb
    rw [hBoth.2]
    exact hLater hWeb ((hDated s hOld).login hWeb).1

/-- So does a revocation. -/
theorem revoked_dated {pattern : AuthToken} {acc' : Account} (hDated : acc.Dated past)
    (hCurrent : acc.Current env.now) (hRevoked : revoked env.now acc pattern = some (t, acc')) :
    acc'.Dated past := by
  obtain ⟨⟨i, s⟩, hFind, hPair⟩ := Option.map_eq_some_iff.mp hRevoked
  have hs : some s ∈ acc.authTokens := List.mem_of_getElem? (Account.findAuthToken_eq_some hFind).1
  simp only [Prod.mk.injEq] at hPair
  obtain ⟨rfl, rfl⟩ := hPair
  have hNew := (hDated s hs).revoked (hCurrent s hs)
  intro u hu
  rcases Account.mem_updateAuthToken hu with hOld | rfl
  · rcases List.mem_or_eq_of_mem_set hOld with hOther | hSame
    · exact hDated u hOther
    · obtain rfl := Option.some.inj hSame
      exact hNew
  · exact hNew

/-! ## The contract -/

/-- What an action stores is dated by the past and by the action itself. -/
def datedCall (b : Backend) (past : Action → Prop) : Call → Prop
  | .storage (.putAccount _ acc) => acc.Sound b.json acc.email ∧ acc.Dated past
  | .storage (.putAuthRequest ar) => ar.authToken.Issued b.json ∧ ar.authToken.Drawn past
  | _ => True

def datedResponse (b : Backend) (past : Action → Prop) : (c : Call) → c.Resp → Prop
  | .storage (.getAccount key), answer => ∀ acc, answer = .ok acc → acc.Sound b.json key ∧
    acc.Dated past
  | .storage (.putAccount now acc), answer => ∀ acc', answer = .ok acc' → acc' = b.prepare now acc
  | .storage (.getAuthRequest _), answer => ∀ ar, answer = .ok ar →
    b.json.coerce ar.authToken.email = ar.authToken.email ∧ ar.authToken.Issued b.json ∧
      ar.authToken.Drawn past
  | _, _ => True

def datedContract (b : Backend) (past : Action → Prop) : Contract Call.Resp where
  call _ := datedCall b past
  response _ := datedResponse b past

/-- What a handler gets when the request is accepted. -/
structure Entitled (b : Backend) (past : Action → Prop) (now : Time) (a : Auth) : Prop where
  sound : a.account.Sound b.json a.account.email
  dated : a.account.Dated past
  current : a.account.Current now

theorem lenient_datedContract : Lenient (datedContract b past) := by
  intro log c hOther
  rcases c with c | email | email | mail
  · cases c <;> first | trivial | exact absurd trivial hOther
  all_goals trivial

/-! ## The requests meet the contract -/

theorem dated_authenticate (hPast : past (.serve endpoint env r)) :
    Obeys (datedContract b past) (Entitled b past env.now) (srv.authenticate env r) := by
  unfold authenticate
  cases hToken : authTokenFromRequest r with
  | none => exact .fail _
  | some t =>
    intro log
    refine .call trivial fun found hFound => ?_
    rcases found with (_ | _ | _) | acc
    · trivial
    · trivial
    · trivial
    · dsimp only [Program.pure_bind]
      cases hAccept : srv.acceptToken env r t acc with
      | error e => trivial
      | ok a =>
        obtain ⟨hSound, hDated⟩ := hFound acc rfl
        obtain ⟨hSecret, -, hDevice, -⟩ := authTokenFromString_some hToken
        have hAccepted := accepted_of_acceptToken hDevice hAccept
        obtain ⟨hWritten, hCurrent⟩ := hAccepted.dated hToken hSound hDated hPast
        have hAccount : a.account.Sound b.json a.account.email := by
          have hWithin := hAccepted.within hSecret fun s hs => (hSound.mem hs).2.type_ne_skeleton
          rw [hAccepted.email, hSound.email]
          exact hSound.within hWithin
        refine .call ⟨hAccount, hWritten⟩ fun result hResult => ?_
        cases result with
        | error e => trivial
        | ok acc' =>
          obtain rfl := hResult acc' rfl
          refine ⟨?_, ?_, ?_⟩
          · rw [Backend.prepare_email]
            exact hAccount.within ((Account.Within.refl env.now a.account).prepare b env.now)
          · simpa only [Account.Dated, Backend.prepare_authTokens] using hWritten
          · simpa only [Account.Current, Backend.prepare_authTokens] using hCurrent

/-- An activation of a dated token. -/
theorem dated_activate {ar : AuthRequest} (hEmail : b.json.coerce ar.authToken.email =
    ar.authToken.email) (hIssued : ar.authToken.Issued b.json) (hDrawn : ar.authToken.Drawn past) :
    Complies (datedContract b past) (activate env ar) := by
  have hWrite {acc : Account} (hSound : acc.Sound b.json ar.authToken.email)
      (hDated : acc.Dated past) : Complies (datedContract b past)
        (store (.putAccount env.now (activated acc ar.authToken)) >>= orFail >>= fun _ =>
          store (.deleteAuthRequest ar.key) >>= orFail) := by
    intro log
    refine .call ⟨?_, fun s hs => ?_⟩ fun result _ => ?_
    · rw [Account.activated_email, hSound.email]
      have hAdded : ∀ t ∈ [ar.authToken], t.email = ar.authToken.email ∧ t.Issued b.json := by
        intro t ht
        obtain rfl := List.mem_singleton.mp ht
        exact ⟨rfl, hIssued⟩
      exact (hSound.extend hAdded).within (Account.activated_within acc ar.authToken env.now)
    · rcases Account.mem_activated hs with hOld | rfl
      · exact hDated s hOld
      · exact hDrawn.dated
    · refine (complies_orFail.bind fun _ _ => ?_) _
      exact .call lenient_datedContract id fun _ => complies_orFail
  unfold activate
  intro log
  refine .call trivial fun found hFound => ?_
  rcases found with (_ | _ | _) | acc
  · trivial
  · exact hWrite (.empty hEmail) (fun _ hs => by cases hs) _
  · trivial
  · obtain ⟨hSound, hDated⟩ := hFound acc rfl
    exact hWrite hSound hDated _

theorem dated_activateAuthToken (hPast : past (.serve endpoint env r)) (r' : Request)
    (auth : Option Auth) : Complies (datedContract b past) (srv.activateAuthToken env r' auth) := by
  have hGet : Obeys (datedContract b past) (fun ar => b.json.coerce ar.authToken.email =
      ar.authToken.email ∧ ar.authToken.Issued b.json ∧ ar.authToken.Drawn past)
        (srv.getAuthRequest r') := by
    unfold getAuthRequest
    cases srv.activationPattern r' with
    | error e => exact .fail _
    | ok pattern =>
      intro log
      refine .call trivial fun found hFound => ?_
      rcases found with (_ | _ | _) | ar
      · trivial
      · trivial
      · trivial
      · exact hFound ar rfl
  unfold activateAuthToken
  refine .bind (hGet.attempt _) fun result hResult => ?_
  cases result with
  | error e =>
    dsimp only
    split
    · exact .pure trivial
    · exact .fail _
  | ok ar =>
    obtain ⟨hEmail, hIssued, hDrawn⟩ := hResult ar rfl
    refine .bind (dated_activate hEmail hIssued hDrawn) fun _ _ => ?_
    unfold success
    dsimp only
    split
    · cases hNew : newAuthRequest env ar.authToken.email (lit "web") [] ar.authToken.device with
      | none => exact .fail _
      | some login =>
        have hLogin : Complies (datedContract b past) (activate env login) :=
          dated_activate (by rwa [newAuthRequest_email hNew]) (newAuthRequest_issued hNew (.inr rfl))
            (newAuthRequest_dated hNew hPast)
        exact .bind hLogin fun _ _ => .pure trivial
    · exact .pure trivial

theorem dated_logout (hAuth : ∀ a, auth = some a → Entitled b past env.now a) (r' : Request) :
    Complies (datedContract b past) (srv.logout env r' auth) := by
  refine .bind (.orPanic hAuth) fun a hEntitled log => ?_
  have hWithin := a.account.within_removeAuthToken a.token env.now
  have hSound : (a.account.removeAuthToken a.token).1.Sound b.json
      (a.account.removeAuthToken a.token).1.email := by
    rw [hWithin.email]
    exact hEntitled.sound.within hWithin
  refine .call ⟨hSound, fun s hs => ?_⟩ fun result _ => ?_
  · exact hEntitled.dated s (Account.mem_removeAuthToken hs)
  · exact (complies_orFail.bind fun _ _ => .pure trivial) _

theorem dated_revoke (hAuth : ∀ a, auth = some a → Entitled b past env.now a) (r' : Request) :
    Complies (datedContract b past) (srv.revoke env r' auth) := by
  unfold revoke
  dsimp only
  split
  · exact .fail _
  · refine .bind (.orPanic hAuth) fun a hEntitled => ?_
    split
    · exact .fail _
    · rename_i t acc hRevoked
      obtain ⟨s, hs, -, -, -, -, hEmail, hWithin⟩ := Account.revoked_eq env.now_epoch hRevoked
      have hSecret := (hEntitled.sound.mem hs).2.token_ne_nil
      intro log
      refine .call ⟨?_, revoked_dated hEntitled.dated hEntitled.current hRevoked⟩ fun result _ => ?_
      · rw [hEmail]
        exact hEntitled.sound.within (hWithin hSecret)
      · exact (complies_orFail.bind fun _ _ => .pure trivial) _

/-- Every action meets the contract if it counts among the actions of the past. -/
theorem dated_program (srv : Server) (b : Backend) {action : Action} (hPast : past action) :
    Complies (datedContract b past) (action.program srv) := by
  cases action with
  | clean now keys =>
    have hClean : Complies (datedContract b past) (cleanAuthRequests now keys) :=
      complies_cleanAuthRequests lenient_datedContract (fun _ _ => trivial) now keys
    exact hClean.bind fun _ _ => .pure trivial
  | serve endpoint env r =>
    have hServe : Complies (datedContract b past) (srv.serve endpoint env r) := by
      refine complies_serve lenient_datedContract (dated_authenticate hPast) ?_
      intro h r' auth hAuth hStores
      rcases hStores with rfl | rfl | rfl | rfl
      · intro log
        refine meets_requestAuthToken (I := fun _ => True) lenient_datedContract
          (fun _ _ _ _ _ => trivial) trivial fun log f new _ hNew hType => ?_
        have hIssued : new.authToken.Issued b.json := newAuthRequest_issued_of_type hNew hType
        have hDrawn : new.authToken.Drawn past := newAuthRequest_dated hNew hPast
        exact ⟨hIssued, hDrawn⟩
      · exact dated_activateAuthToken hPast r' auth
      · exact dated_logout hAuth r'
      · exact dated_revoke hAuth r'
    exact hServe.bind fun _ _ => .pure trivial

end Server

/-! ## Dated tables -/

/-- Every token in the tables is dated. -/
structure Tables.Dated (past : Action → Prop) (T : Tables) : Prop where
  accounts : ∀ {k acc}, T.accounts k = some acc → acc.Dated past
  authRequests : ∀ {k ar}, T.authRequests k = some ar → ar.authToken.Drawn past

namespace Tables.Dated

variable {past : Action → Prop} {T : Tables}

theorem empty (past : Action → Prop) : Tables.empty.Dated past where
  accounts hFound := by cases hFound
  authRequests hFound := by cases hFound

theorem mono {later : Action → Prop} (hDated : T.Dated past)
    (hMono : ∀ action, past action → later action) : T.Dated later where
  accounts hFound s hs := (hDated.accounts hFound s hs).mono hMono
  authRequests hFound := (hDated.authRequests hFound).mono hMono

end Tables.Dated

section Tables

variable {past : Action → Prop} {b : Backend} {c : Call} {w : World Tables} {J : Json}

/-- What the storage makes of an account stays dated. -/
theorem Account.Dated.stored {acc : Account} {k : GoString} (hDated : acc.Dated past)
    (hSound : acc.Sound b.json k) (now : Time) : ((b.prepare now acc).marshal b.json).Dated past := by
  intro s hs
  obtain ⟨o, ho, hMarshal⟩ := List.mem_map.mp hs
  obtain ⟨t, rfl, rfl⟩ := Option.map_eq_some_iff.mp hMarshal
  rw [Backend.prepare_authTokens] at ho
  obtain ⟨hEmail, hIssued⟩ := hSound.mem ho
  refine (hDated t ho).of_same ?_ hIssued.token hIssued.coerce_type rfl rfl
  show b.json.coerce t.email = t.email
  rw [hEmail, hSound.key]

theorem AuthToken.Drawn.stored {t : AuthToken} (hDrawn : t.Drawn past) (hIssued : t.Issued J) :
    (t.marshal J).Drawn past := by
  obtain ⟨action, hPast, hSecret, hUsed, hWeb⟩ := hDrawn
  have hType := hIssued.coerce_type
  refine ⟨action, hPast, hSecret.trans (congrArg some hIssued.token.symm), hUsed, fun hType' => ?_⟩
  exact hWeb (hType.symm.trans hType')

theorem keepsSound_of_dated (hCall : Server.datedCall b past c) : c.keepsSound b := by
  rcases c with c | _ | _ | _
  · cases c with
    | putAccount now acc => exact hCall.1
    | putAuthRequest ar => exact hCall.1
    | _ => trivial
  all_goals trivial

theorem dated_exec (hDated : w.storage.Dated past) (hCall : Server.datedCall b past c) :
    (exec b c w).2.storage.Dated past where
  accounts hFound := by
    rcases accounts_exec hFound with hOld | ⟨now, put, rfl, -, rfl⟩
    · exact hDated.accounts hOld
    · exact hCall.2.stored hCall.1 now
  authRequests hFound := by
    rcases authRequests_exec hFound with hOld | ⟨new, rfl, -, rfl⟩
    · exact hDated.authRequests hOld
    · exact hCall.2.stored hCall.1

theorem dated_response (hSound : w.storage.Sound b.json) (hDated : w.storage.Dated past)
    (c : Call) : Server.datedResponse b past c (exec b c w).1 := by
  have hAnswer := Call.sound_response hSound c
  rcases c with c | _ | _ | _
  · cases c with
    | getAccount k => exact fun acc hFound => ⟨hAnswer acc hFound, hDated.accounts (lookup_ok hFound)⟩
    | putAccount now acc => exact hAnswer
    | getAuthRequest k =>
      intro ar hFound
      obtain ⟨hEmail, hIssued⟩ := hAnswer ar hFound
      exact ⟨hEmail, hIssued, hDated.authRequests (lookup_ok hFound)⟩
    | _ => trivial
  all_goals trivial

end Tables

/-! ## All interleavings -/

namespace Server

variable {srv : Server} {b : Backend} {starts : ServerPool → Action → Prop} {start : World Tables}
  {P : ServerPool}

/-- The action is under way, or it has ended. -/
def Happened (P : ServerPool) (action : Action) : Prop := ∃ t ∈ P.threads, t.label = action

/-- Under every interleaving the tokens in the tables are dated by the actions, and by
those of before. -/
theorem dated_steps {before : Action → Prop} (hSound : start.storage.Sound b.json)
    (hDated : start.storage.Dated before)
    (hSteps : srv.Interleaves b starts { state := start } P) :
    P.state.storage.Sound b.json ∧
      P.state.storage.Dated fun action => before action ∨ Happened P action := by
  let known (action : Action) : Prop := before action ∨ Happened P action
  let reached (Q : ServerPool) : Prop := (Q.state.storage.Sound b.json ∧
    Q.state.storage.Dated known) ∧ ∀ t ∈ Q.threads, Happened P t.label
  have hProgram (action : Action) : (action.program srv).Meets
      (datedContract b fun past => known past ∨ past = action) (fun _ _ => True) [] :=
    dated_program srv b (.inr rfl) []
  refine (Pool.meets (I := reached) (Pool.steps_labelled hSteps) ?_ (fun _ ht => by cases ht)
    hProgram ?_ ?_).1.1
  · exact ⟨⟨hSound, hDated.mono fun _ => .inl⟩, fun _ ht => by cases ht⟩
  · intro Q action hReached hStarts
    refine ⟨hReached.1, fun t ht => ?_⟩
    rcases List.mem_append.mp ht with hOld | hNew
    · exact hReached.2 t hOld
    · obtain rfl := List.mem_singleton.mp hNew
      exact hStarts.2
  · intro Q i t c k hReached hAt hRest _ hCall
    obtain ⟨⟨hSound, hDated⟩, hLabels⟩ := hReached
    have hOwn := hLabels t (List.mem_of_getElem? hAt)
    have hSame : (fun past => known past ∨ past = t.label) = known := by
      ext action
      exact or_iff_left_of_imp fun hEq => .inr (hEq ▸ hOwn)
    have hCall' : datedCall b known c := hSame ▸ hCall
    have hResponse := dated_response hSound hDated c
    rw [← hSame] at hResponse
    refine ⟨hResponse, ?_, fun u hu => ?_⟩
    · exact ⟨Call.sound_exec hSound (keepsSound_of_dated hCall'), dated_exec hDated hCall'⟩
    · rcases List.mem_or_eq_of_mem_set hu with hOld | rfl
      · exact hLabels u hOld
      · exact hOwn

/-- From empty storage there is nothing of before. -/
theorem dated_interleaved (hStart : start.storage = .empty)
    (hSteps : srv.Interleaves b starts { state := start } P) :
    P.state.storage.Sound b.json ∧ P.state.storage.Dated (Happened P) := by
  have hEmpty : start.storage.Sound b.json ∧ start.storage.Dated fun _ => False := by
    rw [hStart]
    exact ⟨.empty, .empty _⟩
  obtain ⟨hSound, hDated⟩ := dated_steps hEmpty.1 hEmpty.2 hSteps
  exact ⟨hSound, hDated.mono fun _ hKnown => hKnown.resolve_left id⟩

end Server

end PadlockCloud
