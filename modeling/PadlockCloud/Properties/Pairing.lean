import Mathlib.Data.Multiset.Filter
import PadlockCloud.Properties.Activation
import PadlockCloud.Request.Keys
import PadlockCloud.Request.Succession

/-!
# The effect of pairing

An activation removes the tokens of the same type and the same device one by one, each time
with the last entry moved into the gap, until none is found. Up to the order, this is one
step on the multiset of the tokens: the new token takes the place of all those that it
shares type and device with. A link for an api token does two such steps, the second one
for the token of the login.
-/

namespace PadlockCloud

open Process

/-! ## Pairing as a step on multisets -/

/-- The tokens have one type, and one device that is known by its UUID. -/
def AuthToken.sameDevice (t s : AuthToken) : Bool :=
  t.deviceUUID ≠ [] && s.type = t.type && s.deviceUUID = t.deviceUUID

/-- The tokens of an account in no order, where `none` is a nil entry. -/
def Account.tokens (acc : Account) : Multiset (Option AuthToken) := acc.authTokens

/-- A token takes the place of those with its type and device. -/
def paired (t : AuthToken) (tokens : Multiset (Option AuthToken)) : Multiset (Option AuthToken) :=
  tokens.filter (fun o => !o.any t.sameDevice) + {some t}

variable {t : AuthToken} {acc : Account} {tokens : Multiset (Option AuthToken)}

theorem sameDevice_eq_revokes (hType : t.type ≠ []) : t.sameDevice = Account.revokes t := by
  funext s
  rw [Bool.eq_iff_iff, Account.revokes_iff_device]
  simp [AuthToken.sameDevice, hType, and_assoc, and_left_comm]

/-- No nil entry comes in. -/
theorem none_mem_of_paired (hNil : none ∈ paired t tokens) : none ∈ tokens := by
  rw [paired, Multiset.mem_add, Multiset.mem_singleton] at hNil
  rcases hNil with hOld | hNew
  · exact Multiset.mem_of_mem_filter hOld
  · cases hNew

namespace Server

variable {srv : Server} {b : Backend} {env : Env} {r : Request} {auth : Option Auth}
  {w : World Tables} {T : Tables} {ar login : AuthRequest}

/-! ## One step -/

/-- The stored tokens after an activation of a token that is stored as it is. -/
theorem tokens_activateTables (env : Env) (hKept : T.Kept b.json)
    (hFixed : ar.authToken.marshal b.json = ar.authToken) (hType : ar.authToken.type ≠ []) :
    ∃ acc, (activateTables b env ar T).accounts ar.authToken.email = some acc ∧
      acc.tokens = paired ar.authToken (accountAt T ar.authToken.email).tokens := by
  obtain ⟨acc, hFound, hPerm⟩ := activateTables_tokens env ar hKept
  refine ⟨acc, hFound, ?_⟩
  rw [hFixed] at hPerm
  rw [paired, sameDevice_eq_revokes hType]
  refine Multiset.coe_eq_coe.mpr ?_
  simp only [Bool.decide_eq_true]
  exact hPerm

/-- The token of a login for a stored token is stored as it is. -/
theorem marshal_login {J : Json} (hFixed : t.marshal J = t)
    (hNew : newAuthRequest env t.email (lit "web") [] t.device = some login) :
    login.authToken.marshal J = login.authToken := by
  have hIssued : login.authToken.Issued J := newAuthRequest_issued hNew (.inr rfl)
  have hType := hIssued.coerce_type
  have hToken := hIssued.token
  have hId := hIssued.id
  have hEmail : J.coerce t.email = t.email := congrArg AuthToken.email hFixed
  have hDevice : t.device.map (Device.marshal J) = t.device := congrArg AuthToken.device hFixed
  have hNil : J.coerce [] = [] := J.coerce_ascii [] nofun
  obtain ⟨random, -, hLogin⟩ := newAuthToken_eq_some.mp (newAuthRequest_authToken hNew)
  rw [hLogin] at hType hToken hId ⊢
  dsimp only at hType hToken hId
  simp only [AuthToken.marshal, hType, hToken, hId, hEmail, hDevice, hNil]

/-! ## The whole activation -/

/-- The token of the login that follows an activation. -/
def loginToken (env : Env) (ar : AuthRequest) : Option AuthToken :=
  if loginsToo ar then
    (newAuthRequest env ar.authToken.email (lit "web") [] ar.authToken.device).map
      AuthRequest.authToken
  else none

/-- The account of a request has these tokens, and nil entries only from before. -/
def StoresTokens (T T' : Tables) (ar : AuthRequest)
    (tokens : Multiset (Option AuthToken) → Multiset (Option AuthToken)) : Prop :=
  ∃ acc, T'.accounts ar.authToken.email = some acc ∧
    acc.tokens = tokens (accountAt T ar.authToken.email).tokens ∧
    (none ∈ acc.authTokens → none ∈ (accountAt T ar.authToken.email).authTokens)

theorem StoresTokens.of_tokens {tokens : Multiset (Option AuthToken) → Multiset (Option AuthToken)}
    {T' : Tables} (hFound : T'.accounts ar.authToken.email = some acc)
    (hTokens : acc.tokens = tokens (accountAt T ar.authToken.email).tokens)
    (hNils : ∀ old, none ∈ tokens old → none ∈ old) : StoresTokens T T' ar tokens := by
  refine ⟨acc, hFound, hTokens, fun hNil => ?_⟩
  have hMem : none ∈ acc.tokens := hNil
  rw [hTokens] at hMem
  exact hNils _ hMem

/-- What the activation of a pending request does to the account. -/
structure Pairs (srv : Server) (b : Backend) (env : Env) (r : Request) (auth : Option Auth)
    (w : World Tables) (ar : AuthRequest) : Prop where
  loop : ∃! acc, Account.RemovalLoop (devicePattern ar.authToken)
    (accountAt w.storage ar.authToken.email) acc
  activate : StoresTokens w.storage ((activate env ar).run (exec b) w).2.storage ar
    (paired ar.authToken)
  handle : StoresTokens w.storage ((srv.activateAuthToken env r auth).run (exec b) w).2.storage ar
    fun tokens => (loginToken env ar).elim (paired ar.authToken tokens) fun login =>
      paired login (paired ar.authToken tokens)

/-- What is stored by an activation and, as the case may be, by the login after it. -/
theorem activateAuthToken_storage
    (hPending : ((srv.getAuthRequest r).run (exec b) w).1 = .ok ar) :
    ((srv.activateAuthToken env r auth).run (exec b) w).2.storage =
      if loginsToo ar then
        match newAuthRequest env ar.authToken.email (lit "web") [] ar.authToken.device with
        | none => activateTables b env ar w.storage
        | some login => activateTables b env login (activateTables b env ar w.storage)
      else activateTables b env ar w.storage := by
  rw [run_activateAuthToken hPending]
  exact success_storage ar

/-- A pending request has a token of a type, stored as it is. -/
theorem pending_token (hKept : T.Kept b.json) (hAsked : T.AskedFor b.json) {k : GoString}
    (hFound : T.authRequests k = some ar) :
    ar.authToken.marshal b.json = ar.authToken ∧ ar.authToken.type ≠ [] := by
  refine ⟨congrArg AuthRequest.authToken (hKept.authRequest hFound), ?_⟩
  obtain ⟨srv, env, r, auth, new, hIssues, -, rfl⟩ := hAsked hFound
  have hIssued : (new.marshal b.json).authToken.Issued b.json := (hIssues.unused b.json).issued
  rcases hIssued.type with hApi | hWeb
  · rw [hApi]
    decide
  · rw [hWeb]
    decide

/-- The activation of a pending request pairs its token, and then that of the login. -/
theorem activation_pairs (hKept : w.storage.Kept b.json) (hAsked : w.storage.AskedFor b.json)
    (hPending : ((srv.getAuthRequest r).run (exec b) w).1 = .ok ar) :
    srv.Pairs b env r auth w ar := by
  obtain ⟨-, pattern, -, hFound⟩ := getAuthRequest_ok (Program.run_eq hPending)
  obtain ⟨hFixed, hType⟩ := pending_token hKept hAsked hFound
  obtain ⟨acc, hStored, hTokens⟩ := tokens_activateTables env hKept hFixed hType
  have hFirst : StoresTokens w.storage (activateTables b env ar w.storage) ar
      (paired ar.authToken) := .of_tokens hStored hTokens fun _ => none_mem_of_paired
  refine ⟨?_, ?_, ?_⟩
  · have hLoop := Account.removalLoop_removeMatching (devicePattern ar.authToken)
      (accountAt w.storage ar.authToken.email)
    exact ⟨_, hLoop, fun other hOther => hOther.unique hLoop⟩
  · rw [run_activate]
    exact hFirst
  · rw [activateAuthToken_storage hPending]
    unfold loginToken
    by_cases hLogin : loginsToo ar = true
    · rw [if_pos hLogin, if_pos hLogin]
      cases hNew : newAuthRequest env ar.authToken.email (lit "web") [] ar.authToken.device with
      | none => exact hFirst
      | some login =>
        -- The second step starts from the account that the first one has stored.
        have hEmail := newAuthRequest_email hNew
        have hWeb : login.authToken.type ≠ [] := by
          rw [(newAuthRequest_key hNew (by decide)).2.1]
          decide
        have hSame : b.json.coerce ar.authToken.email = ar.authToken.email :=
          congrArg AuthToken.email hFixed
        have hNext : (activateTables b env ar w.storage).Kept b.json :=
          kept_activateTables hKept hSame
        obtain ⟨acc', hStored', hTokens'⟩ :=
          tokens_activateTables env hNext (marshal_login hFixed hNew) hWeb
        rw [hEmail, accountAt, hStored, Option.getD_some, hTokens] at hTokens'
        rw [hEmail] at hStored'
        exact .of_tokens hStored' hTokens' fun _ hNil =>
          none_mem_of_paired (none_mem_of_paired hNil)
    · rw [if_neg hLogin, if_neg hLogin]
      exact hFirst

/-! ## A phone that is paired once more -/

/-- A token of a device. -/
def deviceToken (secret type uuid : String) : AuthToken :=
  { email := lit "e@x.io"
    token := lit secret
    type := lit type
    lastUsed := Time.unixEpoch
    device := some { platform := lit "ios", uuid := lit uuid } }

/-- The phone has three tokens for the api, two of them next to each other and one at the end,
and the login of its browser. -/
def crowded : Account :=
  { email := lit "e@x.io"
    authTokens :=
      [some (deviceToken "one" "api" "phone"), some (deviceToken "two" "api" "phone"),
        some (deviceToken "laptop" "api" "laptop"), some (deviceToken "login" "web" "phone"),
        some (deviceToken "none" "api" ""), some (deviceToken "three" "api" "phone")] }

def crowdedWorld : World Tables := { storage := .ofAccount crowded }

/-- The phone asks for an api token. -/
def phoneRun : Except HttpError Reply × World Tables :=
  (standard.requestAuthToken (.after 0 (.constant 0))
    ((askRequest (lit "api")).fromDevice (lit "phone")) none).run (exec .levelDB) crowdedWorld

theorem phoneRun_asked : phoneRun.2.storage.AskedFor Json.identity := by
  have hStart : crowdedWorld.storage.AskedFor Backend.levelDB.json :=
    fun _ _ hFound => nomatch hFound
  unfold phoneRun
  exact askedFor_requestAuthToken hStart

theorem phoneRun_kept : phoneRun.2.storage.Kept Json.identity := by
  have hStart : crowdedWorld.storage.Kept Json.identity :=
    .ofAccount (Account.marshal_of_lossless Json.identity_lossless _)
  have hAccounts : phoneRun.2.storage.accounts = crowdedWorld.storage.accounts := by
    unfold phoneRun
    exact requestAuthToken_accounts _ _ _ _ _ _
  refine ⟨fun hFound => ?_, fun hFound => ?_,
    fun _ => AuthRequest.marshal_of_lossless Json.identity_lossless _⟩
  · rw [hAccounts] at hFound
    exact hStart.key hFound
  · rw [hAccounts] at hFound
    exact hStart.account hFound

/-- What its request has stored. -/
def phoneRequest : AuthRequest :=
  { askedRequest (lit "api") 0 with
    authToken :=
      { (askedRequest (lit "api") 0).authToken with
        device := some { platform := lit "ios", uuid := lit "phone" } } }

/-- The secrets of the account after the link has been opened. -/
def secretsPaired : Option (List GoString) :=
  (((standard.activateAuthToken (.after 1 (.constant 1)) linkRequest none).run (exec .levelDB)
    phoneRun.2).2.storage.accounts (lit "e@x.io")).map Account.secrets

/-- All tokens of the phone are replaced, by its new one and by that of the new login. -/
theorem activation_pairs_phone :
    standard.Pairs .levelDB (.after 1 (.constant 1)) linkRequest none phoneRun.2 phoneRequest ∧
      secretsPaired = some [lit "none", Random.tokenString (Random.constant 0).secret,
        lit "laptop", Random.tokenString (Random.constant 1).secret] := by
  have hPending : ((standard.getAuthRequest linkRequest).run (exec .levelDB) phoneRun.2).1 =
      .ok phoneRequest := by decide +kernel
  exact ⟨activation_pairs phoneRun_kept phoneRun_asked hPending, by decide +kernel⟩

end Server

end PadlockCloud
