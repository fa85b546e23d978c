import PadlockCloud.Properties.Isolation
import PadlockCloud.Request.Custodians

/-!
# An auth request is consumed once

An activation gets the auth request, stores the account with its token and deletes
the auth request. An activation without a credential does so without any mutex, so
two of them can get the same auth request, and both bring its token into the
account.

This is the only way in which it goes wrong. All other interleavings, of whatever
requests, are harmless.
-/

namespace PadlockCloud

open Process Log

namespace Server

variable {srv : Server} {b : Backend} {P : ServerPool} {action : Action} {i : Nat}
  {t : Thread Action Call.Resp HttpError (Option Reply)} {c : Call}
  {k : c.Resp → Serve (Option Reply)}

/-! ## Consumption -/

/-- The request has got the auth request and stored an account with its token. -/
def Brings (t : Thread Action Call.Resp HttpError (Option Reply)) (ar : AuthRequest) : Prop :=
  ar ∈ got t.log ∧ ∃ e ∈ t.log, ∃ acc, e.1.puts = some acc ∧ some ar.authToken ∈ acc.authTokens

/-- The request has got the auth request and ends with a reply that is no error. -/
def Succeeds (t : Thread Action Call.Resp HttpError (Option Reply)) (ar : AuthRequest) : Prop :=
  ar ∈ got t.log ∧ ∃ reply, t.rest = .pure (some reply) ∧ reply.status < 400

/-- Each auth request is added to an account by one request at most, one at most
succeeds with it, and no account holds a secret twice. -/
structure ConsumedOnce (P : ServerPool) : Prop where
  added : ∀ {i j : Nat} {t u ar}, P.threads[i]? = some t → P.threads[j]? = some u →
    Brings t ar → Brings u ar → i = j
  succeeded : ∀ {i j : Nat} {t u ar}, P.threads[i]? = some t → P.threads[j]? = some u →
    Succeeds t ar → Succeeds u ar → i = j
  nodup : ∀ {k acc}, P.state.storage.accounts k = some acc → acc.secrets.Nodup

/-! ## The conditions -/

/-- The secret that the action draws has not been drawn before. -/
def drawsAnew (P : ServerPool) (action : Action) : Bool :=
  action.secret.all fun s => P.threads.all fun t => t.label.secret ≠ some s

instance (log : Log) (ar : AuthRequest) : Decidable (Holds log ar) :=
  inferInstanceAs (Decidable (ar ∈ got _))

/-- The call does not get an auth request that a request has got and not deleted. -/
def takesUnheld (P : ServerPool) : Call → Bool
  | .storage (.getAuthRequest key) =>
    (P.state.storage.authRequests key).all fun ar => P.threads.all fun t => !decide (Holds t.log ar)
  | _ => true

/-! ## The requests of a pool -/

def owns (P : ServerPool) (i : Nat) : Option GoString := P.threads[i]?.bind fun t => t.label.secret

def logs (P : ServerPool) (i : Nat) : Log := (P.threads[i]?.map Thread.log).getD []

theorem logs_eq (hAt : P.threads[i]? = some t) : logs P i = t.log := by
  rw [logs, hAt]
  rfl

theorem owns_eq (hAt : P.threads[i]? = some t) : owns P i = t.label.secret := by
  rw [owns, hAt]
  rfl

theorem logs_start : logs (P.start (Action.program srv) action) = logs P := by
  funext i
  unfold logs Pool.start
  rcases Nat.lt_or_ge i P.threads.length with hOld | hNew
  · rw [List.getElem?_append_left hOld]
  · rw [List.getElem?_append_right hNew, List.getElem?_eq_none hNew]
    cases hIndex : i - P.threads.length with
    | zero => rfl
    | succ n => rfl

theorem owns_start : owns (P.start (Action.program srv) action) =
    Function.update (owns P) P.threads.length action.secret := by
  funext i
  unfold owns Pool.start
  rw [Function.update_apply]
  rcases Nat.lt_or_ge i P.threads.length with hOld | hNew
  · rw [List.getElem?_append_left hOld, if_neg (by omega)]
  · rw [List.getElem?_append_right hNew, List.getElem?_eq_none hNew]
    cases hIndex : i - P.threads.length with
    | zero =>
      rw [if_pos (by omega)]
      rfl
    | succ n =>
      rw [if_neg (by omega)]
      rfl

theorem logs_advance (hAt : P.threads[i]? = some t) :
    logs (P.advance (exec b) i t c k) = record (logs P) i ⟨c, (exec b c P.state).1⟩ := by
  funext j
  unfold logs Pool.advance
  rcases record_cases (logs P) i j ⟨c, (exec b c P.state).1⟩ with ⟨hSame, hOther⟩ | ⟨hLonger, rfl⟩
  · rw [List.getElem?_set_ne (Ne.symm hOther)]
    exact hSame.symm
  · have hBound := (List.getElem?_eq_some_iff.mp hAt).1
    rw [List.getElem?_set_self hBound]
    refine Eq.trans ?_ hLonger.symm
    rw [logs_eq hAt]
    rfl

theorem owns_advance (hAt : P.threads[i]? = some t) :
    owns (P.advance (exec b) i t c k) = owns P := by
  funext j
  unfold owns Pool.advance
  by_cases hSame : i = j
  · subst hSame
    have hBound := (List.getElem?_eq_some_iff.mp hAt).1
    rw [List.getElem?_set_self hBound, hAt]
    rfl
  · rw [List.getElem?_set_ne hSame]

/-! ## Runs -/

theorem secret_ne_nil (action : Action) : action.secret ≠ some [] := by
  intro hNil
  obtain ⟨ρ, -, hSecret⟩ := Option.map_eq_some_iff.mp hNil
  exact tokenString_ne_nil _ hSecret

/-- An action that draws anew may start. -/
theorem custody_start (hCustody : Custody P.state.storage (owns P) (logs P))
    (hDraws : drawsAnew P action = true) :
    Custody P.state.storage (owns (P.start (Action.program srv) action))
      (logs (P.start (Action.program srv) action)) := by
  rw [logs_start, owns_start]
  refine hCustody.draw ?_ (fun s hOwn j hOther => ?_) (secret_ne_nil action)
  · rw [owns, List.getElem?_eq_none (Nat.le_refl _), Option.bind_none]
  · obtain ⟨t, hAt, hSecret⟩ := Option.bind_eq_some_iff.mp hOther
    simp only [drawsAnew, hOwn, Option.all_some, List.all_eq_true, decide_eq_true_eq] at hDraws
    exact hDraws t (List.mem_of_getElem? hAt) hSecret

theorem custody_advance (hCustody : Custody P.state.storage (owns P) (logs P))
    (hJ : b.json.Lossless) (hAt : P.threads[i]? = some t) (hUnheld : takesUnheld P c = true)
    (hCall : custodyCall t.label.secret t.log c) :
    Custody (P.advance (exec b) i t c k).state.storage (owns (P.advance (exec b) i t c k))
      (logs (P.advance (exec b) i t c k)) := by
  rw [logs_advance hAt, owns_advance hAt]
  refine hCustody.step hJ (by rwa [owns_eq hAt, logs_eq hAt]) ?_
  rintro key ar rfl hFound j hHolds
  simp only [takesUnheld, hFound, Option.all_some, List.all_eq_true, Bool.not_eq_true',
    decide_eq_false_iff_not] at hUnheld
  cases hOther : P.threads[j]? with
  | none =>
    rw [logs, hOther] at hHolds
    cases hHolds
  | some u =>
    rw [logs_eq hOther] at hHolds
    exact hUnheld u (List.mem_of_getElem? hOther) hHolds

/-- Under every interleaving in which no request gets an auth request that another one
holds, each auth request is consumed once. -/
theorem consumed_once (hJ : b.json.Lossless) {start : World Tables}
    (hStart : start.storage = .empty) {P : ServerPool}
    (hSteps : Pool.Steps (exec b) (Action.program srv) (fun P action => drawsAnew P action = true)
      (fun P _ c => c.enabled P.state = true ∧ takesUnheld P c = true) { state := start } P) :
    ConsumedOnce P := by
  have hCustody := (Pool.meets (K := fun action => custodyContract action.secret)
    (I := fun P : ServerPool => Custody P.state.storage (owns P) (logs P)) hSteps
    (hStart ▸ .empty) nofun (program_meets_custody srv)
    (fun P action hCustody hDraws => custody_start hCustody hDraws)
    fun P i t c k hCustody hAt hRest hEnabled hCall => by
      refine ⟨?_, custody_advance hCustody hJ hAt hEnabled.2 hCall⟩
      rw [← owns_eq hAt, ← logs_eq hAt]
      exact hCustody.response c).1
  have hOne {i j : Nat} {t u : Thread Action Call.Resp HttpError (Option Reply)}
      {ar : AuthRequest} (hAt : P.threads[i]? = some t) (hAt' : P.threads[j]? = some u)
      (hGot : ar ∈ got t.log) (hGot' : ar ∈ got u.log) : i = j := by
    rw [← logs_eq hAt] at hGot
    rw [← logs_eq hAt'] at hGot'
    exact hCustody.holder hGot hGot'
  exact ⟨fun hAt hAt' hBrings hBrings' => hOne hAt hAt' hBrings.1 hBrings'.1,
    fun hAt hAt' hSucceeds hSucceeds' => hOne hAt hAt' hSucceeds.1 hSucceeds'.1, hCustody.nodup⟩

/-! ## A link that is followed twice -/

/-- The link is followed once more. -/
def clientPairsAgain : Action :=
  .serve (servedAt (lit "/activate/")) (.after 2 (.constant 2))
    (clientRequest (lit "GET") [] (lit "t=" ++ (Random.tokenString (Random.constant 0).token)) [])

/-- The second request for the link comes when the first one has been served. -/
def followedTwice : List (Pool.Move Action) :=
  [.start clientAsks, .call 0, .call 0, .start clientPairs, .call 1, .call 1, .call 1, .call 1,
    .call 1, .call 1, .call 1, .start clientPairsAgain, .call 2, .start (.clean 0 []), .call 3]

theorem consumed_once_twice : ∃ P : ServerPool, ∃ acc,
    P.state.storage.accounts (lit "e@x.io") = some acc ∧ acc.secrets.length = 2 ∧
      ConsumedOnce P := by
  have hPlays : ((Pool.play (exec .levelDB) (Action.program standard) drawsAnew
      (fun P c => c.enabled P.state && takesUnheld P c) followedTwice
      { state := freshWorld }).bind fun P : ServerPool =>
        (P.state.storage.accounts (lit "e@x.io")).map fun acc => acc.secrets.length) = some 2 := by
    decide +kernel
  obtain ⟨P, hPlay, hLength⟩ := Option.bind_eq_some_iff.mp hPlays
  obtain ⟨acc, hFound, hTwo⟩ := Option.map_eq_some_iff.mp hLength
  refine ⟨P, acc, hFound, hTwo, consumed_once (b := .levelDB) Json.identity_lossless rfl
    (Pool.steps_of_play (fun _ _ => id) (fun P _ c hMay => ?_) hPlay)⟩
  simpa using hMay

/-- What may overlap with activations: other activations and the cleanup job. -/
def consumes : Action → Bool
  | .serve endpoint _ r => endpoint.handler r.method = some .activateAuthToken
  | .clean _ _ => true

def ended (t : Thread Action Call.Resp HttpError (Option Reply)) : Bool :=
  match t.rest with
  | .pure _ => true
  | _ => false

/-- Everything else is served alone. -/
def overlapsConsuming (P : ServerPool) (action : Action) : Bool :=
  P.threads.all fun t => ended t || (consumes t.label && consumes action)

/-- Both get the auth request before one of them has deleted it. -/
def followedAtOnce : List (Pool.Move Action) :=
  [.start clientAsks, .call 0, .call 0, .start clientPairs, .start clientPairsAgain, .call 1,
    .call 2, .call 1, .call 1, .call 2, .call 2]

/-- Two activations of one auth request bring its token into the account twice. -/
theorem consumed_twice :
    ¬∀ (srv : Server) (b : Backend) (start : World Tables) (P : ServerPool), b.json.Lossless →
      start.storage = .empty →
      srv.Interleaves b
        (fun P action => (drawsAnew P action && overlapsConsuming P action) = true)
        { state := start } P → ConsumedOnce P := by
  intro hAll
  have hPlays : ((Pool.play (exec .levelDB) (Action.program standard)
      (fun P action => drawsAnew P action && overlapsConsuming P action)
      (fun P c => c.enabled P.state) followedAtOnce { state := freshWorld }).bind
        fun P : ServerPool => (P.state.storage.accounts (lit "e@x.io")).map
          fun acc => decide acc.secrets.Nodup) = some false := by
    decide +kernel
  obtain ⟨P, hPlay, hAccount⟩ := Option.bind_eq_some_iff.mp hPlays
  obtain ⟨acc, hFound, hTwice⟩ := Option.map_eq_some_iff.mp hAccount
  have hSteps := Pool.steps_of_play (fun _ _ => id) (fun _ _ _ => id) hPlay
  have hConsumed := hAll standard .levelDB freshWorld P Json.identity_lossless rfl hSteps
  exact absurd (hConsumed.nodup hFound) (of_decide_eq_false hTwice)

end Server

end PadlockCloud
