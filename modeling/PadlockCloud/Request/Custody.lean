import PadlockCloud.Request.Freshness
import PadlockCloud.Request.Pools

/-!
# Custody of secrets

What a request does with secrets can be told from its log. It brings a secret into
an account in two ways: it has taken an auth request from the storage, or it has
drawn the secret for a login. All other secrets of an account that it stores were
in an account that it has seen.

The contract asks for just that, and for accounts without a repeated secret. What
it promises in return is that an account does not yet hold the secrets that the
request is about to bring.
-/

namespace PadlockCloud

open Process

/-- The calls of a request so far, the latest one first. -/
abbrev Log := List (Event Call.Resp)

/-! ## What a log tells -/

/-- The account that a call stores. -/
def Call.puts : Call → Option Account
  | .storage (.putAccount _ acc) => some acc
  | _ => none

/-- The auth request that a call stores. -/
def Call.issues : Call → Option AuthRequest
  | .storage (.putAuthRequest ar) => some ar
  | _ => none

/-- The key under which a call deletes an auth request. -/
def Call.discards : Call → Option GoString
  | .storage (.deleteAuthRequest key) => some key
  | _ => none

theorem Call.puts_eq_some {c : Call} {acc : Account} (hPuts : c.puts = some acc) :
    ∃ now, c = .storage (.putAccount now acc) := by
  rcases c with c | email | email | mail
  · cases c <;> cases hPuts
    exact ⟨_, rfl⟩
  all_goals cases hPuts

theorem Call.issues_eq_some {c : Call} {ar : AuthRequest} (hIssues : c.issues = some ar) :
    c = .storage (.putAuthRequest ar) := by
  rcases c with c | email | email | mail
  · cases c <;> cases hIssues
    rfl
  all_goals cases hIssues

/-- The auth request that a call has found. -/
def taken : Event Call.Resp → Option AuthRequest
  | ⟨.storage (.getAuthRequest _), .ok ar⟩ => some ar
  | _ => none

/-- The secrets in the account that a call has returned. -/
def shown : Event Call.Resp → List GoString
  | ⟨.storage (.getAccount _), .ok acc⟩ => acc.secrets
  | ⟨.storage (.putAccount _ _), .ok acc⟩ => acc.secrets
  | _ => []

namespace Log

def got (log : Log) : List AuthRequest := log.filterMap taken

/-- The auth requests that were got since an account was stored. -/
def inHand (log : Log) : List AuthRequest := got (log.takeWhile fun e => e.1.puts.isNone)

/-- The auth request was got and has not been deleted since. -/
def Holds (log : Log) (ar : AuthRequest) : Prop :=
  ar ∈ got (log.takeWhile fun e => e.1.discards ≠ some ar.key)

def issued (log : Log) : List AuthRequest := log.filterMap fun e => e.1.issues

def seen (log : Log) : List GoString := log.flatMap shown

/-- The secret that the request has drawn has not left it: no auth request has been
stored, and no account with the secret. -/
def Unspent (own : Option GoString) (log : Log) : Prop :=
  issued log = [] ∧ ∀ e ∈ log, ∀ acc, e.1.puts = some acc → ∀ s, own = some s → s ∉ acc.secrets

/-- The secret is that of an auth request in hand or has been drawn for a login. -/
def Carries (own : Option GoString) (log : Log) (s : GoString) : Prop :=
  (∃ ar ∈ inHand log, ar.authToken.token = s) ∨ (own = some s ∧ Unspent own log)

/-- The account has been put together from what the log shows. -/
structure Shows (log : Log) (acc : Account) : Prop where
  nodup : acc.secrets.Nodup
  nonempty : [] ∉ acc.secrets
  seen : acc.secrets ⊆ seen log

variable {own : Option GoString} {log : Log} {acc acc' : Account} {ar : AuthRequest} {s : GoString}

theorem unspent_cons {e : Event Call.Resp} (hIssues : e.1.issues = none)
    (hPuts : ∀ acc, e.1.puts = some acc → ∀ s, own = some s → s ∉ acc.secrets)
    (hUnspent : Unspent own log) : Unspent own (e :: log) := by
  refine ⟨?_, fun e' he' => ?_⟩
  · simp only [issued, List.filterMap_cons, hIssues]
    exact hUnspent.1
  · rcases List.mem_cons.mp he' with rfl | hOld
    · exact hPuts
    · exact hUnspent.2 e' hOld

theorem ignores_unspent : Server.Ignores (Unspent own) := by
  intro log c r hOther hUnspent
  have hNone : c.issues = none ∧ c.puts = none := by
    rcases c with c | email | email | mail
    · cases c <;> first | exact ⟨rfl, rfl⟩ | exact absurd trivial hOther
    all_goals exact ⟨rfl, rfl⟩
  refine unspent_cons hNone.1 (fun acc hPuts => ?_) hUnspent
  rw [hNone.2] at hPuts
  cases hPuts

/-- A call that stores no account leaves everything in hand. -/
theorem carries_cons {e : Event Call.Resp} (hPuts : e.1.puts = none) (hIssues : e.1.issues = none)
    (hCarries : Carries own log s) : Carries own (e :: log) s := by
  rcases hCarries with ⟨ar, har, hSecret⟩ | ⟨hOwn, hUnspent⟩
  · refine .inl ⟨ar, ?_, hSecret⟩
    rw [inHand, List.takeWhile_cons_of_pos (by rw [hPuts]; rfl), got, List.filterMap_cons]
    split
    · exact har
    · exact List.mem_cons_of_mem _ har
  · refine .inr ⟨hOwn, unspent_cons hIssues (fun acc hSome => ?_) hUnspent⟩
    rw [hPuts] at hSome
    cases hSome

theorem Shows.cons (hShows : Shows log acc) (e : Event Call.Resp) : Shows (e :: log) acc where
  nodup := hShows.nodup
  nonempty := hShows.nonempty
  seen := List.Subset.trans hShows.seen (List.subset_append_right _ _)

theorem Shows.subperm (hShows : Shows log acc) (hSecrets : acc'.secrets.Subperm acc.secrets) :
    Shows log acc' where
  nodup := by
    obtain ⟨l, hPerm, hSublist⟩ := hSecrets
    exact hPerm.nodup_iff.mp (hSublist.nodup hShows.nodup)
  nonempty hNil := hShows.nonempty (hSecrets.subset hNil)
  seen := List.Subset.trans hSecrets.subset hShows.seen

end Log

open Log

/-! ## The contract -/

def custodyCall (own : Option GoString) (log : Log) : Call → Prop
  | .storage (.putAccount _ acc) =>
    acc.secrets.Nodup ∧ ∀ s ∈ acc.secrets, s ∈ seen log ∨ Carries own log s
  | .storage (.putAuthRequest ar) => own = some ar.authToken.token ∧ Unspent own log
  | _ => True

def custodyResponse (own : Option GoString) (log : Log) : (c : Call) → c.Resp → Prop
  | .storage (.getAccount _), result => ∀ acc, result = .ok acc →
    acc.secrets.Nodup ∧ [] ∉ acc.secrets ∧ ∀ s, Carries own log s → s ∉ acc.secrets
  | .storage (.putAccount _ acc), result => ∀ acc', result = .ok acc' → acc'.secrets = acc.secrets
  | .storage (.getAuthRequest _), result => ∀ ar, result = .ok ar → Unspent own log →
    own ≠ some ar.authToken.token
  | _, _ => True

def custodyContract (own : Option GoString) : Contract Call.Resp where
  call := custodyCall own
  response := custodyResponse own

/-- The secret that an action draws. -/
def Action.secret (action : Action) : Option GoString :=
  action.random.map fun ρ => Random.tokenString ρ.secret

namespace Server

variable {srv : Server} {env : Env} {r : Request} {auth : Option Auth} {own : Option GoString}
  {log : Log} {acc acc' : Account} {ar : AuthRequest}

theorem lenient_custodyContract : Lenient (custodyContract own) := by
  intro log c hOther
  rcases c with c | email | email | mail
  · cases c <;> first | trivial | exact absurd trivial hOther
  · trivial
  · trivial
  · trivial

/-! ## The requests meet the contract -/

/-- A stored account that shows goes on showing. -/
theorem meets_putAccount {α : Type} {post : Log → α → Prop}
    {k : Except StorageError Account → Serve α} (hShows : Shows log acc)
    (hRest : ∀ result log', (∀ acc', result = .ok acc' → Shows log' acc') →
      (Unspent own log → (∀ s, own = some s → s ∉ acc.secrets) → Unspent own log') →
        (k result).Meets (custodyContract own) post log') :
    (Program.call (Call.storage (.putAccount env.now acc)) k).Meets (custodyContract own) post
      log := by
  refine .call ⟨hShows.nodup, fun s hs => .inl (hShows.seen hs)⟩ fun result hResult => ?_
  refine hRest result _ (fun acc' hOk => ?_) fun hUnspent hApart => ?_
  · refine (hShows.cons _).subperm ?_
    rw [hResult acc' hOk]
  · refine unspent_cons rfl (fun acc'' hPuts => ?_) hUnspent
    obtain rfl := Option.some.inj hPuts
    exact hApart

theorem meets_authenticate (hUnspent : Unspent own log) :
    ((srv.authenticate env r).attempt HttpError.isPanic).Meets (custodyContract own)
      (fun log result => Unspent own log ∧ ∀ a, result = .ok a → Shows log a.account) log := by
  unfold authenticate
  cases hToken : authTokenFromRequest r with
  | none => exact .attempt_fail ⟨hUnspent, nofun⟩
  | some t =>
    refine .call trivial fun found hFound => ?_
    have hUnspent' := ignores_unspent log _ found id hUnspent
    rcases found with (_ | _ | _) | acc
    · exact .attempt_fail ⟨hUnspent', nofun⟩
    · exact .attempt_fail ⟨hUnspent', nofun⟩
    · exact .attempt_fail ⟨hUnspent', nofun⟩
    · dsimp only [Program.pure_bind]
      cases hAccept : srv.acceptToken env r t acc with
      | error e => exact .attempt_fail ⟨hUnspent', nofun⟩
      | ok a =>
        obtain ⟨hDistinct, hNonempty, hApart⟩ := hFound acc rfl
        obtain ⟨hSecret, -, hDevice, -⟩ := authTokenFromString_some hToken
        have hSecrets := (accepted_of_acceptToken hDevice hAccept).secrets hSecret
        have hShows : Shows (⟨.storage (.getAccount t.email), .ok acc⟩ :: log) acc :=
          ⟨hDistinct, hNonempty, List.subset_append_left _ _⟩
        refine meets_putAccount (hShows.subperm hSecrets) fun result log' hStored hKeeps => ?_
        have hUnspent'' := hKeeps hUnspent' fun s hOwn hs =>
          hApart s (.inr ⟨hOwn, hUnspent⟩) (hSecrets.subset hs)
        cases result with
        | error e => exact .attempt_fail ⟨hUnspent'', nofun⟩
        | ok acc' =>
          refine ⟨hUnspent'', fun a' hSame => ?_⟩
          obtain rfl := Except.ok.inj hSame
          exact hStored acc' rfl

theorem activated_secrets (acc : Account) (t : AuthToken) (now : Time) :
    ∃ rest : Account, rest.Within now acc ∧
      (activated acc t).secrets = rest.secrets ++ [t.token] := by
  obtain ⟨rest, hWithin, hActivated⟩ := acc.activated_eq t now
  refine ⟨rest, hWithin, ?_⟩
  rw [hActivated]
  simp [Account.secrets, Account.addAuthToken, List.reduceOption]

/-- The account that an activation stores: the secret that the request carries comes to
those that were there. -/
theorem custodyCall_activated (env : Env) (hCarries : Carries own log ar.authToken.token)
    (hDistinct : acc.secrets.Nodup) (hSeen : acc.secrets ⊆ seen log)
    (hApart : ar.authToken.token ∉ acc.secrets) :
    custodyCall own log (.storage (.putAccount env.now (activated acc ar.authToken))) := by
  obtain ⟨rest, hWithin, hSecrets⟩ := activated_secrets acc ar.authToken env.now
  refine ⟨?_, fun s hs => ?_⟩
  · rw [hSecrets]
    refine (hWithin.nodup hDistinct).append (List.nodup_singleton _) ?_
    intro s hs hNew
    obtain rfl := List.mem_singleton.mp hNew
    exact hApart (hWithin.mem_secrets hs)
  · rw [hSecrets] at hs
    rcases List.mem_append.mp hs with hOld | hNew
    · exact .inl (hSeen (hWithin.mem_secrets hOld))
    · obtain rfl := List.mem_singleton.mp hNew
      exact .inr hCarries

/-- It does not spend another secret. -/
theorem unspent_activated {result : Except StorageError Account} (hUnspent : Unspent own log)
    (hApart : ∀ s, own = some s → s ∉ acc.secrets) (hOther : own ≠ some ar.authToken.token) :
    Unspent own
      (⟨.storage (.putAccount env.now (activated acc ar.authToken)), result⟩ :: log) := by
  obtain ⟨rest, hWithin, hSecrets⟩ := activated_secrets acc ar.authToken env.now
  refine unspent_cons rfl (fun stored hPuts s hOwn hs => ?_) hUnspent
  obtain rfl := Option.some.inj hPuts
  rw [hSecrets] at hs
  rcases List.mem_append.mp hs with hOld | hNew
  · exact hApart s hOwn (hWithin.mem_secrets hOld)
  · exact hOther (by rw [hOwn, List.mem_singleton.mp hNew])

/-- An activation adds the secret that the request carries. -/
theorem meets_activate (hCarries : Carries own log ar.authToken.token) :
    (activate env ar).Meets (custodyContract own) (fun log' _ => Unspent own log →
      own ≠ some ar.authToken.token → Unspent own log') log := by
  have hWrite {acc : Account} {result : Except StorageError Account}
      (hDistinct : acc.secrets.Nodup)
      (hSeen : acc.secrets ⊆ shown ⟨.storage (.getAccount ar.authToken.email), result⟩)
      (hApart : ∀ s, Carries own log s → s ∉ acc.secrets) :
      (store (.putAccount env.now (activated acc ar.authToken)) >>= orFail >>= fun _ =>
        store (.deleteAuthRequest ar.key) >>= orFail).Meets (custodyContract own)
          (fun log' _ => Unspent own log → own ≠ some ar.authToken.token → Unspent own log')
            (⟨.storage (.getAccount ar.authToken.email), result⟩ :: log) := by
    refine .call (custodyCall_activated env (carries_cons rfl rfl hCarries) hDistinct
      (List.Subset.trans hSeen (List.subset_append_left _ _)) (hApart _ hCarries))
      fun stored _ => ?_
    cases stored with
    | error e => trivial
    | ok acc' =>
      refine .call trivial fun deleted _ => ?_
      cases deleted with
      | error e => trivial
      | ok u =>
        intro hUnspent hOther
        exact ignores_unspent _ _ _ id (unspent_activated (ignores_unspent _ _ _ id hUnspent)
          (fun s hOwn => hApart s (.inr ⟨hOwn, hUnspent⟩)) hOther)
  unfold activate
  refine .call trivial fun found hFound => ?_
  rcases found with (_ | _ | _) | acc
  · trivial
  · exact hWrite List.nodup_nil (List.nil_subset _) fun _ _ => List.not_mem_nil
  · trivial
  · obtain ⟨hDistinct, -, hApart⟩ := hFound acc rfl
    exact hWrite hDistinct (List.Subset.refl _) hApart

theorem meets_activateAuthToken (auth : Option Auth)
    (hOwn : own = env.random.map fun ρ => Random.tokenString ρ.secret)
    (hUnspent : Unspent own log) :
    (srv.activateAuthToken env r auth).Meets (custodyContract own) (fun _ _ => True) log := by
  have hGet : ((srv.getAuthRequest r).attempt HttpError.isPanic).Meets (custodyContract own)
      (fun log' result => ∀ ar, result = .ok ar → Unspent own log' ∧ ar ∈ inHand log' ∧
        own ≠ some ar.authToken.token) log := by
    unfold getAuthRequest
    cases srv.activationPattern r with
    | error e => exact .attempt_fail nofun
    | ok pattern =>
      refine .call trivial fun found hFound => ?_
      rcases found with (_ | _ | _) | ar
      · exact .attempt_fail nofun
      · exact .attempt_fail nofun
      · exact .attempt_fail nofun
      · intro ar' hSame
        obtain rfl := Except.ok.inj hSame
        refine ⟨ignores_unspent log _ _ id hUnspent, ?_, hFound ar rfl hUnspent⟩
        exact List.mem_cons_self
  unfold activateAuthToken
  refine hGet.bind fun log' result hResult => ?_
  cases result with
  | error e =>
    dsimp only
    split <;> trivial
  | ok ar =>
    obtain ⟨hUnspent', hHand, hOther⟩ := hResult ar rfl
    refine (meets_activate (.inl ⟨ar, hHand, rfl⟩)).bind fun log'' _ hActivated => ?_
    have hUnspent'' := hActivated hUnspent' hOther
    unfold success
    dsimp only
    split
    · cases hNew : newAuthRequest env ar.authToken.email (lit "web") [] ar.authToken.device with
      | none => trivial
      | some login =>
        obtain ⟨ρ, hRandom, hDrawn⟩ := newAuthRequest_drawn hNew
        have hSecret : own = some login.authToken.token := by
          rw [hOwn, hRandom, hDrawn.token, Option.map_some]
        exact (meets_activate (.inr ⟨hSecret, hUnspent''⟩)).bind fun _ _ _ => trivial
    · trivial

theorem meets_logout (hAuth : ∀ a, auth = some a → Shows log a.account) :
    (srv.logout env r auth).Meets (custodyContract own) (fun _ _ => True) log := by
  cases auth with
  | none => trivial
  | some a =>
    have hWithin := a.account.within_removeAuthToken a.token env.now
    refine meets_putAccount ((hAuth a rfl).subperm hWithin.secrets) fun result _ _ _ => ?_
    exact (complies_orFail.bind fun _ _ => .pure trivial) _

theorem meets_revoke (hAuth : ∀ a, auth = some a → Shows log a.account) :
    (srv.revoke env r auth).Meets (custodyContract own) (fun _ _ => True) log := by
  unfold revoke
  dsimp only
  split
  · trivial
  · cases auth with
    | none => trivial
    | some a =>
      cases hRevoked : revoked env.now a.account
        { token := r.postFormValue srv.net (lit "token")
          id := r.postFormValue srv.net (lit "id") } with
      | none =>
        simp only [orPanic, Program.pure_bind, Program.bind_eq, hRevoked]
        trivial
      | some pair =>
        obtain ⟨t, ht, -, -, -, -, -, hWithin⟩ := Account.revoked_eq env.now_epoch hRevoked
        have hShows := hAuth a rfl
        have hSecret : t.token ≠ [] := fun hNil =>
          hShows.nonempty (Account.mem_secrets.mpr ⟨t, ht, hNil⟩)
        simp only [orPanic, Program.pure_bind, Program.bind_eq, hRevoked]
        refine meets_putAccount (hShows.subperm (hWithin hSecret).secrets) fun result _ _ _ => ?_
        exact (complies_orFail.bind fun _ _ => .pure trivial) _

/-- Every action meets the contract for the secret that it draws. -/
theorem program_meets_custody (srv : Server) (action : Action) :
    (action.program srv).Meets (custodyContract action.secret) (fun _ _ => True) [] := by
  cases action with
  | clean now keys =>
    exact ((complies_cleanAuthRequests lenient_custodyContract (fun _ _ => trivial) now keys).bind
      fun _ _ => .pure trivial) []
  | serve endpoint env r =>
    have hServe : (srv.serve endpoint env r).Meets
        (custodyContract (Action.serve endpoint env r).secret) (fun _ _ => True) [] := by
      refine meets_serve (B := fun log a => Shows log a.account) lenient_custodyContract
        ignores_unspent ⟨rfl, nofun⟩ (fun _ => meets_authenticate) ?_
      intro log h r' auth hUnspent hAuth hStores
      rcases hStores with rfl | rfl | rfl | rfl
      · refine meets_requestAuthToken lenient_custodyContract ignores_unspent hUnspent
          fun log f new hUnspent hNew _ => ⟨?_, hUnspent⟩
        obtain ⟨ρ, hRandom, hDrawn⟩ := newAuthRequest_drawn hNew
        show env.random.map (fun ρ => Random.tokenString ρ.secret) = some new.authToken.token
        rw [hRandom, hDrawn.token, Option.map_some]
      · exact meets_activateAuthToken auth rfl hUnspent
      · exact meets_logout hAuth
      · exact meets_revoke hAuth
    exact hServe.bind fun _ _ _ => trivial

end Server

end PadlockCloud
