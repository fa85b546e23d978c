import PadlockCloud.Properties.Isolation
import PadlockCloud.Request.Freshness

/-!
# Revocation

`Revoke` leaves the token in the account, with a time of expiry in the past, and
it stays there for another week. Nothing sets the time back: every later write
keeps the token as it is, with other data about its use, or drops it. And since
its secret is nowhere else and is not drawn again, it is never accepted again.
-/

namespace PadlockCloud

open Process Time

namespace Server

variable {srv : Server} {b : Backend} {endpoint : Endpoint} {env : Env} {r : Request}
  {start w w' : World Tables} {history future : List Action} {action : Action} {reply : Reply}
  {t : AuthToken} {e secret : GoString} {acc : Account}

/-- The request names the token by its `token`, its `id` or both. -/
structure Names (srv : Server) (r : Request) (t : AuthToken) : Prop where
  named : r.postFormValue srv.net (lit "token") ≠ [] ∨ r.postFormValue srv.net (lit "id") ≠ []
  token : r.postFormValue srv.net (lit "token") = [] ∨ r.postFormValue srv.net (lit "token") = t.token
  id : r.postFormValue srv.net (lit "id") = [] ∨ r.postFormValue srv.net (lit "id") = t.id

/-- No request with the secret is accepted, now or after any further actions. -/
def NeverAccepted (srv : Server) (b : Backend) (history : List Action) (w : World Tables)
    (secret : GoString) : Prop :=
  ∀ future w', srv.Runs b (Action.Follows srv) history w future w' →
    ∀ endpoint env r, (Action.serve endpoint env r).Follows srv future →
      ∀ t, authTokenFromRequest r = some t → t.token = secret →
        ∃ e, ((srv.authenticate env r).run (exec b) w').1 = .error e

/-! ## A dead secret -/

/-- The secret has been drawn, and the tokens that have it lie in accounts and
have expired. -/
structure Dead (history : List Action) (w : World Tables) (secret : GoString) : Prop where
  drawn : ∃ ρ ∈ drawn history, secret = Random.tokenString ρ.secret
  expired : ∀ {p t}, w.storage.Has p t → t.token = secret →
    (∃ k, p = .account k) ∧ ∃ past ∈ history, t.expired past.time = true

theorem dead_perform (hJ : b.json.Lossless) (hOrderly : Orderly srv b history w)
    (hDead : Dead history w secret) (hFollows : action.Follows srv history) :
    Dead (action :: history) (action.perform srv b w) secret where
  drawn := by
    obtain ⟨ρ, hρ, hSecret⟩ := hDead.drawn
    exact ⟨ρ, drawn_mono hρ, hSecret⟩
  expired {p t} ht hSecret := by
    obtain ⟨s, hRefreshes, hFrom⟩ := perform_has hJ hOrderly.sound hOrderly.filed ht
    have hSame : s.token = secret := by rw [← hRefreshes.token, hSecret]
    rcases hFrom with hOld | hNew
    · obtain ⟨hPlace, past, hPast, hExpired⟩ := hDead.expired hOld hSame
      refine ⟨hPlace, action, List.mem_cons_self, hRefreshes.expired ?_⟩
      exact AuthToken.Refreshes.expired_mono (hFollows.clock past hPast) hExpired
    · exfalso
      rcases hNew.origin with ⟨ρ, hRandom, hDrawn⟩ | ⟨k, hPending, -⟩
      · obtain ⟨σ, hσ, hOwn⟩ := hDead.drawn
        refine (hFollows.fresh ρ hRandom σ hσ).secret (Random.tokenString_inj.mp ?_)
        rw [← hDrawn.token, ← hOwn, hSame]
      · obtain ⟨⟨k', hPlace⟩, -⟩ := hDead.expired hPending hSame
        cases hPlace

theorem neverAccepted_of_dead (hJ : b.json.Lossless) (hOrderly : Orderly srv b history w)
    (hDead : Dead history w secret) : NeverAccepted srv b history w secret := by
  intro future w' hRun endpoint env r hFollows t hToken hSecret
  have hBoth := Run.invariant (I := fun history w => Orderly srv b history w ∧ Dead history w secret)
    hRun ⟨hOrderly, hDead⟩ fun _ _ _ hBoth hFollows =>
      ⟨orderly_perform hJ hBoth.1 hFollows, dead_perform hJ hBoth.1 hBoth.2 hFollows⟩
  obtain ⟨hOrderly', hDead'⟩ := hBoth
  rw [run_authenticate]
  cases hAuth : srv.authenticated b env r w'.storage with
  | error e => exact ⟨e, rfl⟩
  | ok a =>
    exfalso
    obtain ⟨t', acc, a', hToken', hFound, hAccepted, -⟩ := authenticated_ok hAuth
    rw [hToken, Option.some.injEq] at hToken'
    subst hToken'
    rcases hAccepted.token with ⟨-, -, hKey, -⟩ | ⟨-, s, hs, hSame, hLive, -⟩
    · obtain ⟨ρ, hρ, hOwn⟩ := hDead'.drawn
      refine hOrderly'.unguessed ρ hρ ?_
      rw [← hOwn, ← hSecret, hKey]
    · obtain ⟨-, past, hPast, hExpired⟩ :=
        hDead'.expired (.account hFound hs) (hSame.trans hSecret)
      have hStill := AuthToken.Refreshes.expired_mono (hFollows.clock past hPast) hExpired
      rw [show (Action.serve endpoint env r).time = env.now from rfl, hLive] at hStill
      cases hStill

/-! ## The revocation -/

/-- A successful revocation leaves the token that it has found in the account, and
expired. -/
theorem revoke_expires (hJ : b.json.Lossless) (hSound : w.storage.Sound b.json)
    (hRoute : endpointAt (lit "/revoke/") = some endpoint)
    (hRun : (srv.serve endpoint env r).run (exec b) w = (.ok reply, w'))
    (hReply : reply.status < 400) :
    ∃ k s u, w.storage.Has (.account k) s ∧ w'.storage.Has (.account k) u ∧
      u.Refreshes env.now s ∧ u.expired env.now = true ∧
      (r.postFormValue srv.net (lit "token") = [] ∨
        r.postFormValue srv.net (lit "token") = s.token) ∧
      (r.postFormValue srv.net (lit "id") = [] ∨ r.postFormValue srv.net (lit "id") = s.id) := by
  have hSame : ∀ entry ∈ endpoint.handlers, entry.2 = .revoke := by
    cases hRoute
    simp
  obtain ⟨r', a, hAdmitted, hAuth, hHandled, hStorage⟩ :=
    served_universal (by cases hRoute; rfl) hSame hRun hReply
  have hForm (key : GoString) : r'.postFormValue srv.net key = r.postFormValue srv.net key := by
    rcases admitted_request hAdmitted with rfl | rfl <;> rfl
  rw [Handler.handle, run_revoke, hForm, hForm] at hHandled hStorage
  split at hHandled
  · cases hHandled
  rename_i hNamed
  rw [if_neg hNamed] at hStorage
  cases hRevoked : revoked env.now a.account
      { token := r.postFormValue srv.net (lit "token"), id := r.postFormValue srv.net (lit "id") } with
  | none =>
    rw [hRevoked] at hHandled
    cases hHandled
  | some found =>
    obtain ⟨u, acc'⟩ := found
    rw [hRevoked] at hStorage
    obtain ⟨t, acc, -, hFound, hWithin, hEmail, -⟩ := authenticated_within hSound hAuth
    obtain ⟨s, hs, hCovers, hExpires, hRefreshes, hu, hKey, -⟩ :=
      Account.revoked_eq env.now_epoch hRevoked
    obtain ⟨s₀, hs₀, hRefreshes₀⟩ := hWithin.tokens s hs
    have hStored : w'.storage.accounts t.email = some (b.prepare env.now acc') := by
      rw [hStorage, ← hEmail, ← hKey, ← Account.marshal_of_lossless hJ (b.prepare env.now acc')]
      exact Tables.storeAccount_self _ _ _ _
    obtain ⟨-, hToken, hId, -⟩ := Account.covers_iff.mp hCovers
    refine ⟨t.email, s₀, u, .account hFound hs₀,
      .account hStored (by rwa [Backend.prepare_authTokens]), hRefreshes.trans (Int.le_refl _)
        hRefreshes₀, ?_, ?_, ?_⟩
    · rw [hExpires]
      exact Account.revoked_expired env.now_epoch s
    · exact hToken.imp id fun hSame => by rw [← hRefreshes₀.token, hSame]
    · exact hId.imp id fun hSame => by rw [← hRefreshes₀.id, hSame]

/-- Once a token has been revoked, its secret is not accepted again in any run. -/
theorem revocation_permanent (hJ : b.json.Lossless) (hStart : start.storage = .empty)
    (hRun : srv.Runs b (Action.Follows srv) [] start history w)
    (hRoute : endpointAt (lit "/revoke/") = some endpoint)
    (hFollows : (Action.serve endpoint env r).Follows srv history)
    (hStored : w.storage.accounts e = some acc) (ht : some t ∈ acc.authTokens)
    (hNames : Names srv r t)
    (hServed : (srv.serve endpoint env r).run (exec b) w = (.ok reply, w'))
    (hReply : reply.status < 400) :
    NeverAccepted srv b (.serve endpoint env r :: history) w' t.token := by
  have hOrderly := orderly_runs hJ hRun (orderly_empty hStart)
  have hAfter : w' = (Action.serve endpoint env r).perform srv b w := by
    rw [Action.perform, hServed]
  have hOrderly' := orderly_perform hJ hOrderly hFollows
  rw [← hAfter] at hOrderly'
  obtain ⟨k, s, u, hs, hu, hRefreshes, hExpired, hToken, hId⟩ :=
    revoke_expires hJ hOrderly.sound hRoute hServed hReply
  have hHas : w.storage.Has (.account e) t := .account hStored ht
  have hSame : s.token = t.token := by
    rcases hNames.named with hByToken | hById
    · rw [← hToken.resolve_left hByToken, hNames.token.resolve_left hByToken]
    · refine hOrderly.eq_of_id hs hHas ?_
      rw [← hId.resolve_left hById, hNames.id.resolve_left hById]
  refine neverAccepted_of_dead hJ hOrderly' ⟨?_, ?_⟩
  · obtain ⟨ρ, hρ, hDrawn⟩ := hOrderly.drawn hHas
    exact ⟨ρ, drawn_mono hρ, hDrawn.token⟩
  · intro p v hv hSecret
    have hOwn : v.token = u.token := by rw [hSecret, ← hSame, hRefreshes.token]
    obtain rfl := hOrderly'.distinct.eq hv hu hOwn
    exact ⟨⟨k, hOrderly'.distinct.place hv hu rfl⟩, _, List.mem_cons_self, hExpired⟩

/-! ## A client that revokes its own token -/

instance : DecidableRel Random.Unlike := fun ρ σ =>
  decidable_of_iff (ρ.secret ≠ σ.secret ∧ ρ.id ≠ σ.id)
    ⟨fun h => ⟨h.1, h.2⟩, fun h => ⟨h.secret, h.id⟩⟩

theorem follows_standard {age : Nat} {random : Random}
    (hClock : ∀ past ∈ history, past.time ≤ unixEpoch + age)
    (hFresh : ∀ σ ∈ drawn history, random.Unlike σ) :
    (Action.serve endpoint (.after age random) r).Follows standard history where
  clock := hClock
  fresh ρ hRandom := by
    obtain rfl := Option.some.inj hRandom
    exact hFresh
  unguessed ρ hRandom hNil := tokenString_ne_nil _ hNil

def revokeRequest : Request :=
  clientRequest (lit "POST")
    (lit "AuthToken e@x.io:" ++ Random.tokenString (Random.constant 0).secret) []
    (lit "id=" ++ Random.tokenString (Random.constant 0).id)

def pairedHistory : List Action := [clientPairs, clientAsks]

def pairedRun : World Tables :=
  clientPairs.perform standard .levelDB (clientAsks.perform standard .levelDB freshWorld)

/-- The request of the client names the token, by its id. -/
def isRevoked (t : AuthToken) : Bool :=
  decide (revokeRequest.postFormValue standard.net (lit "token") = [] ∧
    revokeRequest.postFormValue standard.net (lit "id") ≠ [] ∧
    revokeRequest.postFormValue standard.net (lit "id") = t.id)

theorem revocation_permanent_paired : ∃ acc t reply w',
    pairedRun.storage.accounts (lit "e@x.io") = some acc ∧ some t ∈ acc.authTokens ∧
    (standard.serve (servedAt (lit "/revoke/")) (.after 2 (.constant 2)) revokeRequest).run
      (exec .levelDB) pairedRun = (.ok reply, w') ∧
    NeverAccepted standard .levelDB
      (.serve (servedAt (lit "/revoke/")) (.after 2 (.constant 2)) revokeRequest :: pairedHistory)
      w' t.token := by
  obtain ⟨acc, hFound, hHead⟩ := Option.map_eq_some_iff.mp
    (show (pairedRun.storage.accounts (lit "e@x.io")).map
      (fun acc => acc.authTokens.any fun o => o.any isRevoked) = some true by decide +kernel)
  obtain ⟨o, ho, hNamed⟩ := List.any_eq_true.mp hHead
  rw [Option.any_eq_true] at hNamed
  obtain ⟨t, rfl, hRevoked⟩ := hNamed
  obtain ⟨hToken, hSome, hId⟩ := of_decide_eq_true hRevoked
  obtain ⟨reply, hResult, hReply⟩ := ok_of_map
    (show ((standard.serve (servedAt (lit "/revoke/")) (.after 2 (.constant 2))
      revokeRequest).run (exec .levelDB) pairedRun).1.map Reply.status = .ok 200 by decide +kernel)
  have hAsks : clientAsks.Follows standard [] := follows_standard (by decide) (by decide)
  have hPairs : clientPairs.Follows standard [clientAsks] :=
    follows_standard (by decide +kernel) (by decide +kernel)
  have hRun : standard.Runs .levelDB (Action.Follows standard) [] freshWorld pairedHistory
      pairedRun := .step (.step .refl hAsks) hPairs
  have hFollows : (Action.serve (servedAt (lit "/revoke/")) (.after 2 (.constant 2))
      revokeRequest).Follows standard pairedHistory :=
    follows_standard (by decide +kernel) (by decide +kernel)
  have hServed := Program.run_eq hResult
  refine ⟨acc, t, reply, _, hFound, ho, hServed, ?_⟩
  exact revocation_permanent Json.identity_lossless rfl hRun (by decide +kernel) hFollows hFound ho
    ⟨.inr hSome, .inl hToken, .inr hId⟩ hServed (by rw [hReply]; decide)

end Server

end PadlockCloud
