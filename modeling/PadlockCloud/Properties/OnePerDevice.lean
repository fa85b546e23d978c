import PadlockCloud.Properties.Isolation
import PadlockCloud.Request.DeviceKeys
import PadlockCloud.Request.Pools

/-!
# One token for each device

A request takes its accounts from the storage, maybe long before it puts them back,
and whatever it puts back comes from an account that it got. So the property that an
account has at most one token of a type on a device is passed from one stored
account to the next, under every interleaving.
-/

namespace PadlockCloud

open Process

namespace Server

variable {srv : Server} {b : Backend} {env : Env} {r : Request} {auth : Option Auth}
  {ar : AuthRequest} {J : Json} {w : World Tables}

/-- What is asked of the calls of a request. -/
def deviceCall (J : Json) : Call → Prop
  | .storage (.putAccount _ acc) => acc.OneEach J
  | .storage (.putAuthRequest ar) => ar.authToken.type = lit "api" ∨ ar.authToken.type = lit "web"
  | _ => True

/-- What it can rely on. -/
def deviceResponse (J : Json) : (c : Call) → c.Resp → Prop
  | .storage (.getAccount _), result => ∀ acc, result = .ok acc → acc.OneEach J
  | .storage (.putAccount _ _), result => ∀ acc, result = .ok acc → acc.OneEach J
  | .storage (.getAuthRequest _), result => ∀ ar, result = .ok ar → ar.authToken.Plain J
  | _, _ => True

def deviceContract (J : Json) : Contract Call.Resp where
  call _ c := deviceCall J c
  response _ c r := deviceResponse J c r

/-- The invariant of the tables. -/
structure PlainTables (J : Json) (T : Tables) : Prop where
  account : ∀ {k acc}, T.accounts k = some acc → acc.OneEach J
  authRequest : ∀ {k ar}, T.authRequests k = some ar → ar.authToken.Plain J

theorem lenient_deviceContract : Lenient (deviceContract J) := by
  intro log c hOther
  rcases c with c | email | email | mail
  · cases c <;> first | trivial | exact absurd trivial hOther
  · trivial
  · trivial
  · trivial

/-! ## The requests meet the contract -/

theorem obeys_authenticate :
    Obeys (deviceContract J) (fun a => a.account.OneEach J) (srv.authenticate env r) := by
  unfold authenticate
  cases hToken : authTokenFromRequest r with
  | none => exact .fail _
  | some t =>
    intro log
    refine .call trivial fun found hFound => ?_
    rcases found with (_ | _ | _) | acc
    · trivial
    · trivial
    · trivial
    · dsimp only [Program.pure_bind]
      cases hAccept : srv.acceptToken env r t acc with
      | error e => trivial
      | ok a =>
        have hDevice : t.device = none := (authTokenFromString_some hToken).2.2.1
        have hAccepted := (hFound acc rfl).accepted (accepted_of_acceptToken hDevice hAccept)
        refine ⟨hAccepted, fun result hResult => ?_⟩
        cases result with
        | error e => trivial
        | ok acc' => exact hResult acc' rfl

theorem complies_activate (hPlain : ar.authToken.Plain J) :
    Complies (deviceContract J) (activate env ar) := by
  have hWrite (acc : Account) (hOne : acc.OneEach J) : Complies (deviceContract J)
      (store (.putAccount env.now (activated acc ar.authToken)) >>= orFail >>= fun _ =>
        store (.deleteAuthRequest ar.key) >>= orFail) := by
    intro log
    refine .call (hOne.activated hPlain) fun result _ => ?_
    exact (complies_orFail.bind fun _ _ => .call lenient_deviceContract id fun _ => complies_orFail) _
  unfold activate
  intro log
  refine .call trivial fun found hFound => ?_
  rcases found with (_ | _ | _) | acc
  · trivial
  · exact hWrite _ (.empty _) _
  · trivial
  · exact hWrite _ (hFound acc rfl) _

theorem complies_success (hPlain : ar.authToken.Plain J) :
    Complies (deviceContract J) (srv.success env r ar) := by
  unfold success
  dsimp only
  split
  · cases hNew : newAuthRequest env ar.authToken.email (lit "web") [] ar.authToken.device with
    | none => exact .fail _
    | some login =>
      have hLogin := plain_newAuthRequest hPlain hNew (.inr rfl)
      exact (complies_activate hLogin).bind fun _ _ => .pure trivial
  · exact .pure trivial

theorem complies_activateAuthToken (auth : Option Auth) :
    Complies (deviceContract J) (srv.activateAuthToken env r auth) := by
  have hGet : Obeys (deviceContract J) (fun ar => ar.authToken.Plain J) (srv.getAuthRequest r) := by
    unfold getAuthRequest
    cases srv.activationPattern r with
    | error e => exact .fail _
    | ok pattern =>
      intro log
      refine .call trivial fun found hFound => ?_
      rcases found with (_ | _ | _) | ar
      · trivial
      · trivial
      · trivial
      · exact hFound ar rfl
  unfold activateAuthToken
  refine .bind (hGet.attempt _) fun result hResult => ?_
  cases result with
  | error e =>
    dsimp only
    split
    · exact .pure trivial
    · exact .fail _
  | ok ar =>
    have hPlain := hResult ar rfl
    exact (complies_activate hPlain).bind fun _ _ => complies_success hPlain

/-- Every action meets the contract. -/
theorem program_meets (srv : Server) (J : Json) (action : Action) :
    (action.program srv).Meets (deviceContract J) (fun _ _ => True) [] := by
  refine complies_program lenient_deviceContract (fun _ _ => trivial) (fun endpoint env r => ?_)
    action []
  refine complies_serve lenient_deviceContract obeys_authenticate fun h r' auth hAuth hStores => ?_
  rcases hStores with rfl | rfl | rfl | rfl
  · exact complies_requestAuthToken lenient_deviceContract fun log ar hType => hType
  · exact complies_activateAuthToken auth
  · refine .bind (.orPanic hAuth) fun a hOne => fun log => ?_
    refine .call (hOne.removeAuthToken a.token) fun result _ => ?_
    exact (complies_orFail.bind fun _ _ => .pure trivial) _
  · rw [Handler.handle, revoke]
    dsimp only
    split
    · exact .fail _
    · refine .bind (.orPanic hAuth) fun a hOne => ?_
      cases hRevoked : revoked env.now a.account
        { token := r'.postFormValue srv.net (lit "token")
          id := r'.postFormValue srv.net (lit "id") } with
      | none => exact .fail _
      | some found =>
        intro log
        refine .call (hOne.revoked hRevoked) fun result _ => ?_
        exact (complies_orFail.bind fun _ _ => .pure trivial) _

/-! ## The calls keep the contract -/

theorem plainTables_exec (hPlain : PlainTables b.json w.storage) {c : Call}
    (hCall : deviceCall b.json c) : PlainTables b.json (exec b c w).2.storage where
  account {k acc} hFound := by
    rcases accounts_exec hFound with hOld | ⟨now, put, rfl, -, rfl⟩
    · exact hPlain.account hOld
    · have hOne : put.OneEach b.json := hCall
      exact (hOne.prepare now).stored
  authRequest {k ar} hFound := by
    rcases authRequests_exec hFound with hOld | ⟨new, rfl, -, rfl⟩
    · exact hPlain.authRequest hOld
    · have hAscii : b.json.coerce new.authToken.type = new.authToken.type := by
        refine b.json.coerce_ascii _ ?_
        rcases hCall with hType | hType <;> rw [hType] <;> decide +kernel
      have hType : new.authToken.type ≠ [] := by
        rcases hCall with hType | hType <;> rw [hType] <;> decide
      refine ⟨?_, b.json.coerce_coerce _, ?_⟩
      · show b.json.coerce new.authToken.type ≠ []
        rwa [hAscii]
      · show b.json.coerce (new.authToken.marshal b.json).deviceUUID = _
        rw [AuthToken.deviceUUID_marshal, b.json.coerce_coerce]
        exact (AuthToken.deviceUUID_marshal new.authToken).symm

/-- A call of the contract gets what is promised. -/
theorem deviceResponse_exec (hPlain : PlainTables b.json w.storage) {c : Call}
    (hCall : deviceCall b.json c) : deviceResponse b.json c (exec b c w).1 := by
  rcases c with c | email | email | mail
  · cases c with
    | getAccount email => exact fun acc hFound => hPlain.account (lookup_ok hFound)
    | getAuthRequest key => exact fun ar hFound => hPlain.authRequest (lookup_ok hFound)
    | putAccount now acc =>
      have hOne : acc.OneEach b.json := hCall
      intro acc' hStored
      obtain rfl := Except.ok.inj hStored
      exact hOne.prepare now
    | _ => trivial
  all_goals trivial

/-- From empty storage, under every interleaving of any requests, each account has at
most one token of a type on a device with a UUID. -/
theorem one_token_per_device {start : World Tables} (hStart : start.storage = .empty)
    {starts : ServerPool → Action → Prop} {P : ServerPool}
    (hSteps : srv.Interleaves b starts { state := start } P) {k : GoString} {acc : Account}
    (hFound : P.state.storage.accounts k = some acc) (type uuid : GoString) (hUUID : uuid ≠ []) :
    acc.authTokens.countP (fun o => o.any fun t =>
      t.type = type && t.device.any fun d => d.uuid = uuid) ≤ 1 := by
  have hEmpty : PlainTables b.json start.storage := by
    rw [hStart]
    exact ⟨nofun, nofun⟩
  have hPlain := (Pool.meets (K := fun _ => deviceContract b.json) (I := fun P : ServerPool =>
    PlainTables b.json P.state.storage) hSteps hEmpty nofun (program_meets srv b.json)
    (fun P l hPlain _ => hPlain) fun P i t c k hPlain hAt hRest hEnabled hCall =>
      ⟨deviceResponse_exec hPlain hCall, plainTables_exec hPlain hCall⟩).1
  exact (hPlain.account hFound).count_le_one type hUUID

/-! ## A phone that is paired again -/

/-- A device asks for an api token. -/
def deviceAsks (uuid : GoString) (age : Nat) (byte : UInt8) : Action :=
  .serve (servedAt (lit "/auth/")) (.after age (.constant byte))
    ((clientRequest (lit "POST") [] [] (lit "type=api&email=e@x.io")).fromDevice uuid)

/-- The link that it was sent is followed, which logs the browser in, too. -/
def devicePairs (age : Nat) (byte : UInt8) : Action :=
  .serve (servedAt (lit "/activate/")) (.after age (.constant (byte + 16)))
    (clientRequest (lit "GET") [] (lit "t=" ++ Random.tokenString (Random.constant byte).token) [])

/-- The secret of a token that was made from these random bytes. -/
def secretOf (byte : UInt8) : GoString := Random.tokenString (Random.constant byte).secret

/-- A phone and a laptop are paired, and the phone asks for another token while the
laptop's link is served. -/
def phonePaired : List (Pool.Move Action) :=
  [.start (deviceAsks (lit "phone") 0 0), .call 0, .call 0, .start (devicePairs 1 0), .call 1,
    .call 1, .call 1, .call 1, .call 1, .call 1, .call 1, .start (deviceAsks (lit "laptop") 2 1),
    .call 2, .call 2, .start (devicePairs 3 1), .call 3, .start (deviceAsks (lit "phone") 4 2),
    .call 4, .call 3, .call 4, .call 3, .call 3, .call 3, .call 3, .call 3]

/-- The phone's second link is followed. -/
def phonePairedAgain : List (Pool.Move Action) :=
  phonePaired ++ [.start (devicePairs 5 2), .call 5, .call 5, .call 5, .call 5, .call 5, .call 5,
    .call 5]

/-- The secrets of the account after a schedule. -/
def secretsAfter (moves : List (Pool.Move Action)) : Option (List GoString) :=
  (Pool.play (exec .levelDB) (Action.program standard) (fun _ _ => true)
    (fun P c => c.enabled P.state) moves { state := freshWorld }).bind fun P : ServerPool =>
      (P.state.storage.accounts (lit "e@x.io")).map Account.secrets

/-- The phone's first token and the login that came with it are replaced. -/
theorem one_token_per_device_replaced :
    secretsAfter phonePaired = some ([0, 16, 1, 17].map secretOf) ∧
      ∃ P : ServerPool, ∃ acc, P.state.storage.accounts (lit "e@x.io") = some acc ∧
        acc.secrets = [17, 2, 1, 18].map secretOf ∧
        acc.authTokens.countP (fun o => o.any fun t =>
          t.type = lit "api" && t.device.any fun d => d.uuid = lit "phone") ≤ 1 := by
  refine ⟨by decide +kernel, ?_⟩
  have hPlays : secretsAfter phonePairedAgain = some ([17, 2, 1, 18].map secretOf) := by
    decide +kernel
  obtain ⟨P, hPlay, hSecrets⟩ := Option.bind_eq_some_iff.mp hPlays
  obtain ⟨acc, hFound, hSecrets⟩ := Option.map_eq_some_iff.mp hSecrets
  have hSteps : standard.Interleaves .levelDB (fun _ _ => True) { state := freshWorld } P :=
    Pool.steps_of_play (fun _ _ _ => trivial) (fun _ _ _ => id) hPlay
  exact ⟨P, acc, hFound, hSecrets,
    one_token_per_device rfl hSteps hFound (lit "api") (lit "phone") (by decide)⟩

end Server

end PadlockCloud
