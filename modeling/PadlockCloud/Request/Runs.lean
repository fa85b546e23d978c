import PadlockCloud.Process.Run
import PadlockCloud.Request.Effect

/-!
# Runs of the server

A run is a sequence of requests and of cleanup jobs, each performed without
interruption. The tables stay `Kept` in every run: each record lies under its
own key, and it is what JSON makes of it.
-/

namespace PadlockCloud

open Process Time

/-- What the server does next: it serves a request at an endpoint, or it cleans
up the auth requests, which it walks in some order. -/
inductive Action where
  | serve (endpoint : Endpoint) (env : Env) (r : Request)
  | clean (now : Time) (keys : List GoString)

def Action.time : Action → Time
  | .serve _ env _ => env.now
  | .clean now _ => now

/-- The program of an action. The reply of a request goes to its client. -/
def Action.perform (srv : Server) (b : Backend) : Action → World Tables → World Tables
  | .serve endpoint env r, w => ((srv.serve endpoint env r).run (exec b) w).2
  | .clean now keys, w => ((Server.cleanAuthRequests now keys).run (exec b) w).2

/-- Requests are served by the endpoints of the server. -/
def Action.routed : Action → Prop
  | .serve endpoint _ _ => endpoint ∈ Server.endpoints.map Prod.snd
  | .clean _ _ => True

instance : DecidablePred Action.routed
  | .serve endpoint _ _ =>
    inferInstanceAs (Decidable (endpoint ∈ Server.endpoints.map Prod.snd))
  | .clean _ _ => inferInstanceAs (Decidable True)

namespace Server

variable {srv : Server} {b : Backend}

/-- The runs of the server from given tables. -/
abbrev Runs (srv : Server) (b : Backend) (allowed : List Action → Action → Prop) :=
  Run (Action.perform srv b) allowed

/-! ## The cleanup job -/

/-- The tables differ in auth requests that are gone at most. -/
def Deletes (T T' : Tables) : Prop :=
  T'.accounts = T.accounts ∧ T'.dataStores = T.dataStores ∧
    ∀ k, T'.authRequests k = T.authRequests k ∨ T'.authRequests k = none

theorem run_deleteOld (now : Time) (requests : List AuthRequest) (w : World Tables) :
    Deletes w.storage ((deleteOld now requests).run (exec b) w).2.storage := by
  induction requests generalizing w with
  | nil => exact ⟨rfl, rfl, fun k => .inl rfl⟩
  | cons ar requests ih =>
    rw [deleteOld]
    split
    · obtain ⟨hAccounts, hData, hRequests⟩ :=
        ih { w with storage := w.storage.putAuthRequest ar.key none }
      refine ⟨hAccounts, hData, fun k => ?_⟩
      rcases hRequests k with hSame | hNone
      · by_cases hKey : k = ar.key
        · exact .inr (hSame.trans (by simp [Tables.putAuthRequest, hKey]))
        · exact .inl (hSame.trans (by simp [Tables.putAuthRequest, hKey]))
      · exact .inr hNone
    · exact ih w

/-- The cleanup job only deletes auth requests. -/
theorem clean_effect (srv : Server) (b : Backend) (now : Time) (keys : List GoString)
    (w : World Tables) :
    Deletes w.storage (Action.perform srv b (.clean now keys) w).storage :=
  run_deleteOld now _ w

/-! ## Records under their keys -/

end Server

/-- Every record lies under its key and has been through JSON. -/
structure Tables.Kept (J : Json) (T : Tables) : Prop where
  key : ∀ {k acc}, T.accounts k = some acc → acc.email = k
  account : ∀ {k acc}, T.accounts k = some acc → acc.marshal J = acc
  authRequest : ∀ {k ar}, T.authRequests k = some ar → ar.marshal J = ar

namespace Tables.Kept

variable {J : Json} {b : Backend} {T : Tables}

theorem empty : Tables.empty.Kept J := ⟨nofun, nofun, nofun⟩

theorem ofAccount {acc : Account} (hFixed : acc.marshal J = acc) :
    (Tables.ofAccount acc).Kept J := by
  have hOnly {k : GoString} {found : Account}
      (hFound : (Tables.ofAccount acc).accounts k = some found) : k = acc.email ∧ found = acc := by
    simp only [Tables.ofAccount, Tables.putAccount, Function.update_apply] at hFound
    split at hFound
    · exact ⟨‹_›, (Option.some.inj hFound).symm⟩
    · cases hFound
  refine ⟨fun hFound => ?_, fun hFound => ?_, nofun⟩
  · obtain ⟨rfl, rfl⟩ := hOnly hFound
    rfl
  · obtain ⟨-, rfl⟩ := hOnly hFound
    exact hFixed

theorem coerce_key (hKept : T.Kept J) {k : GoString} {acc : Account}
    (hFound : T.accounts k = some acc) : J.coerce k = k := by
  rw [← hKept.key hFound]
  exact congrArg Account.email (hKept.account hFound)

theorem putAccount_none (hKept : T.Kept J) (k : GoString) : (T.putAccount k none).Kept J where
  key hFound := by
    simp only [Tables.putAccount, Function.update_apply] at hFound
    split at hFound
    · cases hFound
    · exact hKept.key hFound
  account hFound := by
    simp only [Tables.putAccount, Function.update_apply] at hFound
    split at hFound
    · cases hFound
    · exact hKept.account hFound
  authRequest := hKept.authRequest

theorem storeAccount (hKept : T.Kept b.json) (now : Time) {acc : Account}
    (hEmail : b.json.coerce acc.email = acc.email) : (T.storeAccount b now acc).Kept b.json where
  key hFound := by
    rcases Tables.storeAccount_some hFound with ⟨hKey, rfl⟩ | hOld
    · simp [Account.marshal, hEmail, hKey]
    · exact hKept.key hOld
  account hFound := by
    rcases Tables.storeAccount_some hFound with ⟨-, rfl⟩ | hOld
    · exact Account.marshal_marshal _
    · exact hKept.account hOld
  authRequest := hKept.authRequest

theorem putDataStore (hKept : T.Kept J) (k : GoString) (content : Option GoString) :
    (T.putDataStore k content).Kept J := ⟨hKept.key, hKept.account, hKept.authRequest⟩

theorem putAuthRequest (hKept : T.Kept J) (k : GoString) {found : Option AuthRequest}
    (hFixed : ∀ ar, found = some ar → ar.marshal J = ar) :
    (T.putAuthRequest k found).Kept J where
  key := hKept.key
  account := hKept.account
  authRequest hFound := by
    simp only [Tables.putAuthRequest, Function.update_apply] at hFound
    split at hFound
    · exact hFixed _ hFound
    · exact hKept.authRequest hFound

end Tables.Kept

namespace Server

variable {srv : Server} {b : Backend} {env : Env} {r : Request} {auth : Option Auth} {T T' : Tables}

theorem authTables_ok (T : Tables) (a : Auth) :
    authTables b T (.ok ⟨a.token, b.prepare env.now a.account⟩) =
      T.storeAccount b env.now a.account := by
  simp [authTables, Tables.storeAccount]

/-- An accepted request is accepted for the account that lies under the email of
its credential. -/
theorem authenticated_kept (hKept : T.Kept b.json) {a : Auth}
    (hAuth : srv.authenticated b env r T = .ok a) :
    ∃ t acc, authTokenFromRequest r = some t ∧ T.accounts t.email = some acc ∧
      acc.marshal b.json = acc ∧ acc.email = t.email ∧ a.account.email = t.email ∧
        b.json.coerce t.email = t.email := by
  obtain ⟨t, acc, a', hToken, hFound, hAccepted, rfl⟩ := authenticated_ok hAuth
  refine ⟨t, acc, hToken, hFound, hKept.account hFound, hKept.key hFound, ?_,
    hKept.coerce_key hFound⟩
  rw [Backend.prepare_email, hAccepted.email, hKept.key hFound]

theorem kept_authTables (hKept : T.Kept b.json) :
    (authTables b T (srv.authenticated b env r T)).Kept b.json := by
  cases hAuth : srv.authenticated b env r T with
  | error e => exact hKept
  | ok a =>
    obtain ⟨t, acc, hToken, hFound, -, -, hEmail, hCoerce⟩ := authenticated_kept hKept hAuth
    obtain ⟨-, -, a', -, -, -, rfl⟩ := authenticated_ok hAuth
    rw [authTables_ok]
    rw [Backend.prepare_email] at hEmail
    exact hKept.storeAccount env.now (by rw [hEmail, hCoerce])

theorem accountAt_email (hKept : T.Kept b.json) (email : GoString) :
    (accountAt T email).email = email := by
  unfold accountAt
  cases hFound : T.accounts email with
  | none => rfl
  | some acc => exact hKept.key hFound

/-- An activation writes the account of its email. -/
theorem activated_accountAt_email (ar : AuthRequest) (hKept : T.Kept b.json) :
    (activated (accountAt T ar.authToken.email) ar.authToken).email = ar.authToken.email := by
  rw [Account.activated_email, accountAt_email hKept]

theorem activateTables_self {ar : AuthRequest} (hKept : T.Kept b.json) :
    (activateTables b env ar T).accounts ar.authToken.email =
      some ((b.prepare env.now (activated (accountAt T ar.authToken.email)
        ar.authToken)).marshal b.json) := by
  have hStored := T.storeAccount_self b env.now
    (activated (accountAt T ar.authToken.email) ar.authToken)
  rwa [activated_accountAt_email ar hKept] at hStored

theorem activateTables_of_ne {ar : AuthRequest} {k : GoString} (hKept : T.Kept b.json)
    (hOther : k ≠ ar.authToken.email) :
    (activateTables b env ar T).accounts k = T.accounts k := by
  apply Tables.storeAccount_of_ne
  rwa [activated_accountAt_email ar hKept]

/-- The tokens of a stored account are stored as they are. -/
theorem accountAt_fixed (hKept : T.Kept b.json) {email : GoString} {o : Option AuthToken}
    (ho : o ∈ (accountAt T email).authTokens) : o.map (AuthToken.marshal b.json) = o := by
  obtain ⟨acc, hFound, hMem⟩ := mem_accountAt ho
  cases o with
  | none => rfl
  | some t => rw [Option.map_some, Account.marshal_token (hKept.account hFound) hMem]

/-- The tokens that an activation leaves: those that it does not revoke, and the
activated one. -/
theorem activateTables_tokens (env : Env) (ar : AuthRequest) (hKept : T.Kept b.json) :
    ∃ acc', (activateTables b env ar T).accounts ar.authToken.email = some acc' ∧
      acc'.authTokens.Perm ((accountAt T ar.authToken.email).authTokens.filter
          (fun o => !o.any (Account.revokes ar.authToken)) ++
        [some (ar.authToken.marshal b.json)]) := by
  refine ⟨_, activateTables_self hKept, ?_⟩
  have hPerm := (Account.activated_perm (accountAt T ar.authToken.email) ar.authToken).map
    (Option.map (AuthToken.marshal b.json))
  rw [List.map_append] at hPerm
  have hOld : ((accountAt T ar.authToken.email).authTokens.filter
        (fun o => !o.any (Account.revokes ar.authToken))).map
          (Option.map (AuthToken.marshal b.json)) =
      (accountAt T ar.authToken.email).authTokens.filter
        (fun o => !o.any (Account.revokes ar.authToken)) :=
    (List.map_congr_left fun o ho =>
      accountAt_fixed hKept (List.mem_filter.mp ho).1).trans (List.map_id _)
  rw [hOld] at hPerm
  rw [Account.marshal]
  dsimp only
  rw [Backend.prepare_authTokens]
  exact hPerm

theorem kept_activateTables (hKept : T.Kept b.json) {ar : AuthRequest}
    (hEmail : b.json.coerce ar.authToken.email = ar.authToken.email) :
    (activateTables b env ar T).Kept b.json := by
  refine Tables.Kept.putAuthRequest (hKept.storeAccount env.now ?_) _ nofun
  rw [activated_accountAt_email ar hKept, hEmail]

theorem newAuthRequest_email {email tType actType : GoString} {device : Option Device}
    {ar : AuthRequest} (hNew : newAuthRequest env email tType actType device = some ar) :
    ar.authToken.email = email := by
  obtain ⟨token, random, hToken, -, rfl⟩ := newAuthRequest_eq_some.mp hNew
  obtain ⟨-, -, rfl⟩ := newAuthToken_eq_some.mp hToken
  split <;> rfl

theorem Effect.kept {h : Handler} (hEffect : Effect srv b env r auth T h T')
    (hKept : T.Kept b.json)
    (hAuth : ∀ a, auth = some a → b.json.coerce a.account.email = a.account.email) :
    T'.Kept b.json := by
  cases hEffect with
  | unchanged => exact hKept
  | requested ar hCheck hNew =>
    refine hKept.putAuthRequest _ fun ar' hSome => ?_
    obtain rfl := Option.some.inj hSome
    exact AuthRequest.marshal_marshal _
  | activated pattern ar hPattern hFound =>
    have hFixed := hKept.authRequest hFound
    exact kept_activateTables hKept (congrArg (fun ar => ar.authToken.email) hFixed)
  | paired pattern ar login hPattern hFound hLogin hNew =>
    have hFixed := hKept.authRequest hFound
    have hEmail : b.json.coerce ar.authToken.email = ar.authToken.email :=
      congrArg (fun ar => ar.authToken.email) hFixed
    exact kept_activateTables (kept_activateTables hKept hEmail)
      (by rw [newAuthRequest_email hNew, hEmail])
  | written a => exact hKept.putDataStore _ _
  | reset a => exact hKept.putDataStore _ _
  | deleted a => exact (hKept.putDataStore _ _).putAccount_none _
  | loggedOut a hSome =>
    refine hKept.storeAccount env.now ?_
    rw [(Account.within_removeAuthToken a.account a.token 0).email, hAuth a hSome]
  | revoked a pattern t acc hSome hRevoked =>
    refine hKept.storeAccount env.now ?_
    obtain ⟨-, -, -, -, -, -, hEmail, -⟩ := Account.revoked_eq env.now_epoch hRevoked
    rw [hEmail, hAuth a hSome]

/-- The tables stay kept. -/
theorem kept_perform (action : Action) {w : World Tables} (hKept : w.storage.Kept b.json) :
    (action.perform srv b w).storage.Kept b.json := by
  cases action with
  | clean now keys =>
    obtain ⟨hAccounts, -, hRequests⟩ := clean_effect srv b now keys w
    refine ⟨fun hFound => hKept.key (by rwa [hAccounts] at hFound),
      fun hFound => hKept.account (by rwa [hAccounts] at hFound), fun {k ar} hFound => ?_⟩
    rcases hRequests k with hSame | hNone
    · exact hKept.authRequest (hSame.symm.trans hFound)
    · rw [hNone] at hFound
      cases hFound
  | serve endpoint env r =>
    obtain ⟨T, hT, hEnd⟩ := serve_effect srv b endpoint env r w
    have hKeptT : T.Kept b.json := by
      rcases hT with rfl | rfl
      · exact hKept
      · exact kept_authTables hKept
    rcases hEnd with hSame | ⟨r', auth, h, hAdmitted, -, rfl, hEffect⟩
    · show ((srv.serve endpoint env r).run (exec b) w).2.storage.Kept b.json
      rw [hSame]
      exact hKeptT
    · refine hEffect.kept hKeptT fun a hSome => ?_
      subst hSome
      obtain ⟨t, -, -, -, -, -, hEmail, hCoerce⟩ :=
        authenticated_kept hKept (admitted_some hAdmitted)
      rw [hEmail, hCoerce]

theorem kept_runs {allowed : List Action → Action → Prop} {past history : List Action}
    {w w' : World Tables} (hRun : srv.Runs b allowed past w history w')
    (hKept : w.storage.Kept b.json) : w'.storage.Kept b.json :=
  Run.invariant (I := fun _ w => w.storage.Kept b.json) hRun hKept
    fun _ _ action hKept _ => kept_perform action hKept

end Server

end PadlockCloud
