import PadlockCloud.Model.Standard
import PadlockCloud.Process.Apart
import PadlockCloud.Request.Scope

/-!
# Two requests at once

The requests of an account are kept apart by its mutex, but the mutex is taken
for the email in a request's own credential, so an activation without one takes
none. Its read and its write of the account are then two steps that any other
request may come between.

What has to be met in each step is what the mutex is there for: nobody makes a call on
the account while the other one is amid its calls on it. If the other request also leaves
the auth requests of the activation alone, the two end as if one had been served after
the other (`activation_serial`).
-/

namespace PadlockCloud

open Process

/-! ## The records that a call uses -/

/-- The cells of the shared state. -/
inductive Cell where
  | account (email : GoString)
  | authRequest (key : GoString)
  | dataStore (email : GoString)
  | mutex (email : GoString)
  | outbox
  deriving DecidableEq

/-- What a cell holds. -/
inductive Content where
  | account (acc : Option Account)
  | authRequest (ar : Option AuthRequest)
  | dataStore (content : Option GoString)
  | mutex (held : Bool)
  | outbox (mails : List Mail)

def World.cell (w : World Tables) : Cell → Content
  | .account email => .account (w.storage.accounts email)
  | .authRequest key => .authRequest (w.storage.authRequests key)
  | .dataStore email => .dataStore (w.storage.dataStores email)
  | .mutex email => .mutex (w.held email)
  | .outbox => .outbox w.outbox

/-- The mails are written for nobody to read here, see `quiet`. -/
def Call.uses : Call → List Cell
  | .storage (.getAccount email) | .storage (.deleteAccount email) => [.account email]
  | .storage (.putAccount _ acc) => [.account acc.email]
  | .storage (.getAuthRequest key) | .storage (.deleteAuthRequest key) => [.authRequest key]
  | .storage (.putAuthRequest ar) => [.authRequest ar.key]
  | .storage (.getDataStore acc) | .storage (.putDataStore acc _) => [.dataStore acc.email]
  | .storage (.deleteDataStore email) => [.dataStore email]
  | .storage (.iterator keys) => keys.map .authRequest
  | .lock email | .unlock email => [.mutex email]
  | .send _ => []

def Call.writes : Call → List Cell
  | .storage (.getAccount _) | .storage (.getAuthRequest _) | .storage (.getDataStore _)
  | .storage (.iterator _) => []
  | c => c.uses

theorem World.cell_ext {w v : World Tables} (hCells : ∀ x, w.cell x = v.cell x) : w = v := by
  obtain ⟨⟨accounts, authRequests, dataStores⟩, held, outbox⟩ := w
  obtain ⟨⟨accounts', authRequests', dataStores'⟩, held', outbox'⟩ := v
  obtain rfl : accounts = accounts' := funext fun k => Content.account.inj (hCells (.account k))
  obtain rfl : authRequests = authRequests' :=
    funext fun k => Content.authRequest.inj (hCells (.authRequest k))
  obtain rfl : dataStores = dataStores' :=
    funext fun k => Content.dataStore.inj (hCells (.dataStore k))
  obtain rfl : held = held' := funext fun k => Content.mutex.inj (hCells (.mutex k))
  obtain rfl : outbox = outbox' := Content.outbox.inj (hCells .outbox)
  rfl

theorem Call.writes_subset (c : Call) : c.writes ⊆ c.uses := by
  rcases c with c | email | email | mail <;> (try cases c) <;> simp [writes, uses]

/-- The calls without the mails, which no call reads. -/
def quiet (b : Backend) : Interp Call.Resp (World Tables)
  | .send _, w => ((), w)
  | c, w => exec b c w

/-- The worlds are equal but for the mails. -/
structure World.Alike (w v : World Tables) : Prop where
  storage : w.storage = v.storage
  held : w.held = v.held

theorem quiet_simulates (b : Backend) :
    Simulates (exec b) (quiet b) (fun _ _ => True) World.Alike := by
  rintro c w v ⟨hStorage, hHeld⟩ -
  cases c with
  | storage c => exact ⟨by simp only [World.step, quiet, hStorage],
      by simp only [World.step, quiet, hStorage], hHeld⟩
  | lock email => exact ⟨rfl, hStorage, by simp only [World.step, quiet, hHeld]⟩
  | unlock email => exact ⟨rfl, hStorage, by simp only [World.step, quiet, hHeld]⟩
  | send mail => exact ⟨rfl, hStorage, hHeld⟩

theorem World.Alike.enabled (c : Call) {w v : World Tables} (hAlike : w.Alike v)
    (hEnabled : c.enabled w = true) : c.enabled v = true := by
  cases c with
  | lock email => rwa [Call.enabled, ← hAlike.held]
  | _ => rfl

theorem Call.frame (b : Backend) (c : Call) (w : World Tables) (x : Cell) (hFrame : x ∉ c.writes) :
    (quiet b c w).2.cell x = w.cell x := by
  rcases c with c | email | email | mail <;> (try cases c) <;> cases x <;>
    simp_all [writes, uses, quiet, World.step, World.cell, Tables.step, Tables.putAccount,
      Tables.putAuthRequest, Tables.putDataStore]

theorem Call.response (b : Backend) (c : Call) (w v : World Tables)
    (hUses : ∀ x ∈ c.uses, w.cell x = v.cell x) : (quiet b c w).1 = (quiet b c v).1 := by
  rcases c with c | email | email | mail
  · cases c with
    | iterator keys =>
      have hKeys : ∀ k ∈ keys, w.storage.authRequests k = v.storage.authRequests k := by
        intro k hk
        exact Content.authRequest.inj (hUses _ (List.mem_map_of_mem hk))
      simp only [quiet, World.step, Tables.step, Except.ok.injEq]
      exact List.filterMap_congr hKeys
    | _ => simp_all [uses, quiet, World.step, World.cell, Tables.step, lookup]
  all_goals rfl

theorem Call.written (b : Backend) (c : Call) (w v : World Tables)
    (hUses : ∀ x ∈ c.uses, w.cell x = v.cell x) :
    ∀ x ∈ c.writes, (quiet b c w).2.cell x = (quiet b c v).2.cell x := by
  rcases c with c | email | email | mail <;> (try cases c) <;>
    simp_all [writes, uses, quiet, World.step, World.cell, Tables.step, Tables.putAccount,
      Tables.putAuthRequest, Tables.putDataStore]

def Call.footprint (b : Backend) : Footprint (quiet b) Cell Content where
  read := World.cell
  read_ext _ _ := World.cell_ext
  uses := uses
  writes := writes
  writes_subset := writes_subset
  frame := frame b
  response := response b
  written := written b

/-- Calls on different cells are independent. -/
theorem Call.independent_of_uses {b : Backend} {c d : Call} (hUses : ∀ x ∈ c.uses, x ∉ d.uses) :
    Independent (quiet b) c d := by
  apply Footprint.independent (F := Call.footprint b)
  refine ⟨fun x hx => hUses x (c.writes_subset hx), fun x hx hUsed => ?_⟩
  exact hUses x hUsed (d.writes_subset hx)

/-! ## The calls of an activation -/

namespace Call

/-- The calls that an activation makes on the account and on its auth requests. -/
def ofActivation (email : GoString) (keys : List GoString) : Call → Prop
  | .storage (.getAccount k) => k = email
  | .storage (.putAccount _ acc) => acc.email = email
  | .storage (.getAuthRequest k) | .storage (.deleteAuthRequest k) => k ∈ keys
  | .send _ => True
  | _ => False

/-- What the responses say as long as `Awaits` holds. -/
def tells (key : GoString) (ar : AuthRequest) : (c : Call) → c.Resp → Prop
  | .storage (.getAccount k), answer =>
    k = ar.authToken.email → ∀ acc, answer = .ok acc → acc.email = ar.authToken.email
  | .storage (.getAuthRequest k), answer => k = key → ∀ found, answer = .ok found → found = ar
  | _, _ => True

/-- The call is one on the account. -/
def onAccount (email : GoString) (c : Call) : Prop := .account email ∈ c.uses

end Call

/-- Under the key there is no other auth request, and its account lies under its email. -/
structure Awaits (key : GoString) (ar : AuthRequest) (w : World Tables) : Prop where
  account : ∀ acc, w.storage.accounts ar.authToken.email = some acc →
    acc.email = ar.authToken.email
  request : ∀ found, w.storage.authRequests key = some found → found = ar

namespace Awaits

variable {b : Backend} {key : GoString} {ar : AuthRequest} {w : World Tables} {c : Call}

theorem tells (hAwaits : Awaits key ar w) (c : Call) : c.tells key ar (exec b c w).1 := by
  rcases c with c | email | email | mail
  · cases c with
    | getAccount k =>
      rintro rfl acc hFound
      exact hAwaits.account acc (lookup_ok hFound)
    | getAuthRequest k =>
      rintro rfl found hFound
      exact hAwaits.request found (lookup_ok hFound)
    | _ => trivial
  all_goals trivial

/-- Only another auth request under the key does any harm. -/
theorem step (hAwaits : Awaits key ar w)
    (hCoerce : b.json.coerce ar.authToken.email = ar.authToken.email)
    (hOther : ∀ other, c = .storage (.putAuthRequest other) → other.key ≠ key) :
    Awaits key ar (exec b c w).2 := by
  rcases c with c | email | email | mail
  · cases c with
    | putAccount now acc =>
      refine ⟨fun found hFound => ?_, hAwaits.request⟩
      simp only [World.step, Tables.step, Tables.putAccount, Function.update_apply] at hFound
      split at hFound
      · rename_i hKey
        obtain rfl := Option.some.inj hFound
        show b.json.coerce (b.prepare now acc).email = _
        rw [← hKey, hCoerce]
      · exact hAwaits.account found hFound
    | deleteAccount k =>
      refine ⟨fun found hFound => ?_, hAwaits.request⟩
      simp only [World.step, Tables.step, Tables.putAccount, Function.update_apply] at hFound
      split at hFound
      · cases hFound
      · exact hAwaits.account found hFound
    | putAuthRequest other =>
      refine ⟨hAwaits.account, fun found hFound => ?_⟩
      simp only [World.step, Tables.step, Tables.putAuthRequest, Function.update_apply,
        if_neg (hOther other rfl).symm] at hFound
      exact hAwaits.request found hFound
    | deleteAuthRequest k =>
      refine ⟨hAwaits.account, fun found hFound => ?_⟩
      simp only [World.step, Tables.step, Tables.putAuthRequest, Function.update_apply] at hFound
      split at hFound
      · cases hFound
      · exact hAwaits.request found hFound
    | _ => exact ⟨hAwaits.account, hAwaits.request⟩
  all_goals exact ⟨hAwaits.account, hAwaits.request⟩

end Awaits

namespace Server

variable {srv : Server} {b : Backend} {endpoint endpoint' : Endpoint} {env env' : Env}
  {r r' : Request} {w : World Tables} {sched : List Side} {pattern ar : AuthRequest}

/-- The login that the activation of an auth request may bring along. -/
def loginOf (env : Env) (ar : AuthRequest) : Option AuthRequest :=
  newAuthRequest env ar.authToken.email (lit "web") [] ar.authToken.device

/-- The keys under which an activation looks for auth requests, or deletes them. -/
def activationKeys (env : Env) (pattern ar : AuthRequest) : List GoString :=
  pattern.key :: ar.key :: ((loginOf env ar).map AuthRequest.key).toList

section Stays

variable {key : GoString} {keys : List GoString}

theorem activate_stays {request : AuthRequest}
    (hEmail : request.authToken.email = ar.authToken.email) (hKey : request.key ∈ keys) :
    (activate env request).Stays (Call.tells key ar) (Call.ofActivation ar.authToken.email keys)
      fun _ => True := by
  have hRest {acc : Account} (hAccount : acc.email = ar.authToken.email) :
      ((store (.putAccount env.now (activated acc request.authToken))).bind fun result =>
        (orFail result).bind fun _ =>
          (store (.deleteAuthRequest request.key)).bind fun result => orFail result).Stays
            (Call.tells key ar) (Call.ofActivation ar.authToken.email keys) fun _ => True := by
    refine stays_store ((Account.activated_email ..).trans hAccount) fun result _ => ?_
    refine (stays_orFail fun _ _ => trivial).bind fun _ _ => ?_
    exact stays_store hKey fun result _ => stays_orFail fun _ _ => trivial
  unfold activate
  refine stays_store hEmail fun found hFound => ?_
  rcases found with (_ | _ | _) | acc
  · trivial
  · exact hRest hEmail
  · trivial
  · exact hRest (hFound hEmail acc rfl)

/-- An activation stays among the calls on its account and its auth requests. -/
theorem activateAuthToken_stays (hPattern : srv.activationPattern r = .ok pattern) :
    (srv.activateAuthToken env r none).Stays (Call.tells pattern.key ar)
      (Call.ofActivation ar.authToken.email (activationKeys env pattern ar)) fun _ => True := by
  have hLook : (srv.getAuthRequest r).Stays (Call.tells pattern.key ar)
      (Call.ofActivation ar.authToken.email (activationKeys env pattern ar)) (· = ar) := by
    rw [getAuthRequest, hPattern]
    refine ⟨List.mem_cons_self .., fun answer hAnswer => ?_⟩
    rcases answer with (_ | _ | _) | found
    · trivial
    · trivial
    · trivial
    · exact hAnswer rfl found rfl
  have hSuccess : (srv.success env r ar).Stays (Call.tells pattern.key ar)
      (Call.ofActivation ar.authToken.email (activationKeys env pattern ar)) fun _ => True := by
    unfold success
    dsimp only
    split
    · cases hLogin : newAuthRequest env ar.authToken.email (lit "web") [] ar.authToken.device with
      | none => trivial
      | some login =>
        have hKey : login.key ∈ activationKeys env pattern ar := by
          simp [activationKeys, loginOf, hLogin]
        exact (activate_stays (newAuthRequest_email hLogin) hKey).bind fun _ _ => trivial
    · trivial
  refine (hLook.attempt HttpError.isPanic).bind fun result hResult => ?_
  cases result with
  | error e =>
    dsimp only
    split <;> trivial
  | ok found =>
    obtain rfl := hResult found rfl
    have hKey : found.key ∈ activationKeys env pattern found := by simp [activationKeys]
    exact (activate_stays rfl hKey).bind fun _ _ => hSuccess

theorem activation_stays (hHandler : endpoint.handler r.method = some .activateAuthToken)
    (hToken : authTokenFromRequest r = none) (hPattern : srv.activationPattern r = .ok pattern) :
    (srv.serve endpoint env r).Stays (Call.tells pattern.key ar)
      (Call.ofActivation ar.authToken.email (activationKeys env pattern ar)) fun _ => True := by
  refine stays_anonymous hToken (fun _ _ => trivial) fun r' hChecked => ?_
  have hSame : srv.activationPattern r' = srv.activationPattern r := by
    rw [checked_eq hChecked]
    split <;> rfl
  rw [Endpoint.handle_eq (h := .activateAuthToken) (by rwa [checked_method hChecked])]
  exact activateAuthToken_stays (hSame.trans hPattern)

end Stays

/-! ## Steps without harm -/

/-- What is met in each step: the call is none on the account while the other request is amid
such calls, and the other request leaves the auth requests of the activation alone. -/
structure InTurn (email : GoString) (keys : List GoString) (place : Process.Place Call) (x : Side)
    (c : Call) : Prop where
  account : c.onAccount email → ¬place.Amid (Call.onAccount email) x.swap
  requests : x = .right → ∀ key ∈ keys, .authRequest key ∉ c.uses

/-- What an activation calls is independent of the calls of another request in turn, unless
both are on the account. -/
theorem independent_of_inTurn {email : GoString} {keys : List GoString} {c d : Call}
    {place : Process.Place Call} (hCall : c.ofActivation email keys)
    (hInTurn : InTurn email keys place .right d)
    (hNot : ¬(c.onAccount email ∧ d.onAccount email)) : Independent (quiet b) c d := by
  apply Call.independent_of_uses
  intro x hx hUsed
  rcases c with c | _ | _ | _
  · cases c with
    | getAccount k =>
      obtain rfl : k = email := hCall
      obtain rfl := List.mem_singleton.mp hx
      exact hNot ⟨hx, hUsed⟩
    | putAccount now acc =>
      obtain rfl : acc.email = email := hCall
      obtain rfl := List.mem_singleton.mp hx
      exact hNot ⟨hx, hUsed⟩
    | getAuthRequest k =>
      obtain rfl := List.mem_singleton.mp hx
      exact hInTurn.requests rfl k hCall hUsed
    | deleteAuthRequest k =>
      obtain rfl := List.mem_singleton.mp hx
      exact hInTurn.requests rfl k hCall hUsed
    | _ => exact hCall
  · exact hCall
  · exact hCall
  · cases hx

/-- An activation without a credential and any other request, whose steps are in turn, leave
the storage that one of them followed by the other leaves. -/
theorem activation_serial {v : Program.Woven Call HttpError Reply Reply (World Tables)}
    (hHandler : endpoint.handler r.method = some .activateAuthToken)
    (hToken : authTokenFromRequest r = none) (hPattern : srv.activationPattern r = .ok pattern)
    (hKept : w.storage.Kept b.json) (hFound : w.storage.authRequests pattern.key = some ar)
    (hWeave : Program.weave (exec b) Call.enabled sched (srv.serve endpoint env r)
      (srv.serve endpoint' env' r') w = some v)
    (hMeets : Program.StepsMeet (exec b)
      (InTurn ar.authToken.email (activationKeys env pattern ar)) sched []
        (srv.serve endpoint env r) (srv.serve endpoint' env' r') w) :
    v.state.storage = ((srv.serve endpoint' env' r').run (exec b)
        ((srv.serve endpoint env r).run (exec b) w).2).2.storage ∨
      v.state.storage = ((srv.serve endpoint env r).run (exec b)
        ((srv.serve endpoint' env' r').run (exec b) w).2).2.storage := by
  have hCoerce : b.json.coerce ar.authToken.email = ar.authToken.email :=
    congrArg (fun ar => ar.authToken.email) (hKept.authRequest hFound)
  have hAwaits : Awaits pattern.key ar w :=
    ⟨fun _ hAccount => hKept.key hAccount,
      fun _ hOther => Option.some.inj (hOther.symm.trans hFound)⟩
  have hPlaced := hMeets.placed hWeave
  have hCalls : ∀ c, (.left, c) ∈ v.log →
      c.ofActivation ar.authToken.email (activationKeys env pattern ar) := by
    apply (activation_stays hHandler hToken hPattern).weave hWeave hMeets hAwaits
    · exact fun c w hAwaits => hAwaits.tells c
    · refine fun c w hAwaits hCall => hAwaits.step hCoerce ?_
      rintro other rfl
      exact hCall.elim
    · refine fun place c w hInTurn hAwaits => hAwaits.step hCoerce ?_
      rintro other rfl hKey
      apply hInTurn.requests rfl pattern.key (List.mem_cons_self ..)
      simp [Call.uses, hKey]
  have hApart : Program.KeepsApart (Call.onAccount ar.authToken.email)
      (InTurn ar.authToken.email (activationKeys env pattern ar)) :=
    fun _ _ _ hInTurn => hInTurn.account
  -- The same run without the mails.
  obtain ⟨u, hQuiet, -, -, hLog, hEnd⟩ :=
    (quiet_simulates b).weave World.Alike.enabled hWeave ⟨rfl, rfl⟩
  have hSerial := Program.weave_apart hQuiet (hLog ▸ hPlaced) hApart fun c d hc hd hNot => by
    rw [hLog] at hc hd
    obtain ⟨place, hInTurn⟩ := hPlaced.of_mem hd
    exact independent_of_inTurn (hCalls c hc) hInTurn hNot
  have hRun (p : Serve Reply) {w w' : World Tables} (hAlike : w.Alike w') :
      (p.run (exec b) w).2.Alike (p.run (quiet b) w').2 :=
    ((quiet_simulates b).run p hAlike (p.always_of_forall (fun _ _ => trivial) w')).2.2
  rcases hSerial with ⟨-, hLast⟩ | ⟨-, hLast⟩
  · left
    rw [hEnd.storage, (hRun _ (hRun _ ⟨rfl, rfl⟩)).storage, ← hLast]
  · right
    rw [hEnd.storage, (hRun _ (hRun _ ⟨rfl, rfl⟩)).storage, ← hLast]

/-! ## A revocation is undone

The activation reads the account, the revocation runs from its lock to its
unlock, and the activation writes back the account that it has read. -/

def sharedAccount : Account :=
  { email := lit "e@x.io"
    authTokens :=
      [some
        { email := lit "e@x.io", token := lit "laptop-secret", type := lit "api"
          lastUsed := Time.unixEpoch },
        some
        { email := lit "e@x.io", token := lit "phone-secret", type := lit "api"
          lastUsed := Time.unixEpoch }] }

def pendingRequest : AuthRequest :=
  { token := lit "key"
    authToken :=
      { email := lit "e@x.io", token := lit "new-secret", type := lit "web"
        lastUsed := Time.unixEpoch }
    created := Time.unixEpoch }

def sharedWorld : World Tables :=
  { storage := (Tables.ofAccount sharedAccount).putAuthRequest (lit "key") (some pendingRequest) }

def anonymousActivation : Request :=
  { method := lit "GET"
    query := fun key => if key = lit "t" then lit "key" else [] }

def revocation : Request :=
  { method := lit "POST"
    header := fun h =>
      match h with
      | .authorization => lit "AuthToken e@x.io:laptop-secret"
      | .contentType => lit "application/x-www-form-urlencoded"
      | _ => []
    body := lit "token=phone-secret" }

def activateEndpoint : Endpoint := (endpointAt (lit "/activate/")).getD { handlers := [] }

def revokeEndpoint : Endpoint := (endpointAt (lit "/revoke/")).getD { handlers := [] }

def activationProgram : Serve Reply :=
  standard.serve activateEndpoint (.after 0 (.constant 0)) anonymousActivation

def revocationProgram : Serve Reply :=
  standard.serve revokeEndpoint (.after 0 (.constant 0)) revocation

def sharedAccountIn (w : World Tables) : Option Account := w.storage.accounts (lit "e@x.io")

/-- The revocation runs between the read and the write of the activation. -/
def overtaken : Option (Program.Woven Call HttpError Reply Reply (World Tables)) :=
  Program.weave (exec .levelDB) Call.enabled
    [.left, .left, .right, .right, .right, .right, .right, .left, .left]
    activationProgram revocationProgram sharedWorld

/-- The activation has found its auth request when the revocation goes on, which has taken its
mutex before. -/
def passed : List Side :=
  [.right, .left, .right, .right, .right, .right, .left, .left, .left]

theorem sharedWorld_kept : sharedWorld.storage.Kept Json.identity :=
  (Tables.Kept.ofAccount (Account.marshal_of_lossless Json.identity_lossless _)).putAuthRequest _
    fun _ hSome => Option.some.inj hSome ▸ AuthRequest.marshal_of_lossless Json.identity_lossless _

instance (email : GoString) (c : Call) : Decidable (c.onAccount email) :=
  inferInstanceAs (Decidable (_ ∈ _))

/-- A call on the account is made while the other request has made none yet, or has ended. -/
def checkInTurn (email : GoString) (keys : List GoString) (past : List (Side × Call))
    (ended : Side → Bool) (x : Side) (c : Call) : Bool :=
  (!decide (c.onAccount email) || ended x.swap ||
    past.all fun e => e.1 = x || !decide (e.2.onAccount email)) &&
  (x = .left || keys.all fun key => decide (.authRequest key ∉ c.uses))

theorem inTurn_of_check {email : GoString} {keys : List GoString} {place : Process.Place Call}
    {ended : Side → Bool} {x : Side} {c : Call}
    (hCheck : checkInTurn email keys place.past ended x c = true)
    (hEnded : ∀ y, ended y = true → ∀ d, ¬place.ahead y d) : InTurn email keys place x c := by
  simp only [checkInTurn, Bool.and_eq_true, Bool.or_eq_true, Bool.not_eq_true',
    decide_eq_false_iff_not, decide_eq_true_eq, List.all_eq_true] at hCheck
  obtain ⟨hAccount, hRequests⟩ := hCheck
  constructor
  · rintro hCall ⟨⟨d, hPast, hd⟩, d', hAhead, -⟩
    rcases hAccount with (hNot | hEnd) | hFresh
    · exact hNot hCall
    · exact hEnded _ hEnd d' hAhead
    · rcases hFresh _ hPast with hSame | hOther
      · cases x <;> cases hSame
      · exact hOther hd
  · rintro rfl
    rcases hRequests with hSide | hKeys
    · cases hSide
    · exact hKeys

/-- The pattern under which the activation looks. -/
def sharedPattern : AuthRequest := { token := lit "key", authToken := {} }

theorem activationPattern_shared :
    standard.activationPattern anonymousActivation = .ok sharedPattern := by decide +kernel

theorem sharedWorld_pending :
    sharedWorld.storage.authRequests sharedPattern.key = some pendingRequest := by decide +kernel

theorem activation_serial_passed :
    ∃ v, Program.weave (exec .levelDB) Call.enabled passed activationProgram revocationProgram
        sharedWorld = some v ∧
      (v.state.storage = (revocationProgram.run (exec .levelDB)
          (activationProgram.run (exec .levelDB) sharedWorld).2).2.storage ∨
        v.state.storage = (activationProgram.run (exec .levelDB)
          (revocationProgram.run (exec .levelDB) sharedWorld).2).2.storage) := by
  have hRun : (Program.weave (exec .levelDB) Call.enabled passed activationProgram
      revocationProgram sharedWorld).isSome = true := by decide +kernel
  have hCheck : Program.checkSteps (exec .levelDB) (checkInTurn (lit "e@x.io")
      (activationKeys (.after 0 (.constant 0)) sharedPattern pendingRequest)) passed []
        activationProgram revocationProgram sharedWorld = true := by decide +kernel
  have hHandler : activateEndpoint.handler anonymousActivation.method =
      some .activateAuthToken := by decide +kernel
  obtain ⟨v, hWeave⟩ := Option.isSome_iff_exists.mp hRun
  refine ⟨v, hWeave, ?_⟩
  unfold activationProgram revocationProgram at hWeave hCheck ⊢
  exact activation_serial hHandler (by decide +kernel) activationPattern_shared sharedWorld_kept
    sharedWorld_pending hWeave (.of_check (fun _ _ _ _ => inTurn_of_check) hCheck)

/-- Interleavings that the mutexes permit can lose an update. -/
theorem interleaved_loses_update :
    ¬∀ (srv : Server) (b : Backend) (endpoint endpoint' : Endpoint) (env env' : Env)
      (r r' : Request) (w : World Tables) (sched : List Side) (pattern ar : AuthRequest)
      (auth : Auth) (v : Program.Woven Call HttpError Reply Reply (World Tables)),
      endpointAt (lit "/activate/") = some endpoint → authTokenFromRequest r = none →
      srv.activationPattern r = .ok pattern → w.storage.authRequests pattern.key = some ar →
      srv.authenticated b env' r' w.storage = .ok auth →
      ar.authToken.email = auth.account.email →
      Program.weave (exec b) Call.enabled sched (srv.serve endpoint env r)
        (srv.serve endpoint' env' r') w = some v →
      (v.state.storage.accounts = ((srv.serve endpoint' env' r').run (exec b)
          ((srv.serve endpoint env r).run (exec b) w).2).2.storage.accounts ∨
        v.state.storage.accounts = ((srv.serve endpoint env r).run (exec b)
          ((srv.serve endpoint' env' r').run (exec b) w).2).2.storage.accounts) := by
  intro hAll
  -- In both serial orders the phone is revoked.
  have hRun : overtaken.map (fun v => decide
      (sharedAccountIn v.state ≠ sharedAccountIn (revocationProgram.run (exec .levelDB)
          (activationProgram.run (exec .levelDB) sharedWorld).2).2 ∧
        sharedAccountIn v.state ≠ sharedAccountIn (activationProgram.run (exec .levelDB)
          (revocationProgram.run (exec .levelDB) sharedWorld).2).2)) = some true := by
    decide +kernel
  obtain ⟨v, hWeave, hLost⟩ := Option.map_eq_some_iff.mp hRun
  obtain ⟨hFirst, hSecond⟩ := of_decide_eq_true hLost
  obtain ⟨auth, hAuth, hEmail⟩ := ok_of_map
    (show (standard.authenticated .levelDB (.after 0 (.constant 0)) revocation
      sharedWorld.storage).map (fun a => a.account.email) = .ok (lit "e@x.io") by decide +kernel)
  have hSerial := hAll standard .levelDB activateEndpoint revokeEndpoint (.after 0 (.constant 0))
    (.after 0 (.constant 0)) anonymousActivation revocation sharedWorld _ _ pendingRequest auth v
    (by decide +kernel) (by decide +kernel) activationPattern_shared sharedWorld_pending hAuth
    hEmail.symm hWeave
  rcases hSerial with hSerial | hSerial
  · apply hFirst
    simp only [sharedAccountIn, hSerial, revocationProgram, activationProgram]
  · apply hSecond
    simp only [sharedAccountIn, hSerial, revocationProgram, activationProgram]

end Server

end PadlockCloud
