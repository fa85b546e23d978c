import PadlockCloud.Properties.Isolation
import PadlockCloud.Request.Lifetimes

/-!
# Sessions lapse

However the requests are interleaved, a token is accepted only while one of them has
drawn its secret or has come with it in the last thirty days. A browser stays logged in
for one hour after the request that has drawn its token, whatever it does in between.
-/

namespace PadlockCloud

open Process Time

namespace Server

variable {srv : Server} {b : Backend} {starts : ServerPool → Action → Prop} {start : World Tables}
  {P : ServerPool} {env : Env} {r : Request} {a : Auth}

/-- What the accepted token is a refreshed copy of. -/
theorem authenticated_token {T : Tables} (hAuth : srv.authenticated b env r T = .ok a)
    (hType : a.token.type ≠ lit "skeleton") :
    ∃ k acc s, T.accounts k = some acc ∧ some s ∈ acc.authTokens ∧ a.token = s.refreshed env r ∧
      env.now - 30 * day < s.lastUsed ∧
      (s.type = lit "web" → s.expires ≠ 0 → env.now < s.expires) := by
  obtain ⟨t, acc, a', -, hFound, hAccepted, rfl⟩ := authenticated_ok hAuth
  cases hAccepted with
  | skeleton base hPruned hSkeleton => exact absurd hSkeleton hType
  | stored base i s hPruned _ hFind =>
    have hMem : some s ∈ base.authTokens :=
      List.mem_of_getElem? (Account.findAuthToken_eq_some hFind).1
    obtain ⟨hOld, hUsed, hLater⟩ := Account.mem_pruned hPruned hMem
    exact ⟨t.email, acc, s, hFound, hOld, rfl, hUsed, hLater⟩

/-- Among dated tables an accepted token has been used in the last thirty days, and a
login is not older than an hour. -/
theorem lapses_of_dated {past : Action → Prop} {T : Tables} (hDated : T.Dated past)
    (hAuth : srv.authenticated b env r T = .ok a) (hType : a.token.type ≠ lit "skeleton") :
    (∃ action, past action ∧ (action.secret = some a.token.token ∨ action.presents a.token) ∧
        env.now - 30 * day < action.time) ∧
      (a.token.type = lit "web" → ∃ action, past action ∧
        action.secret = some a.token.token ∧ env.now < action.time + hour) := by
  obtain ⟨k, acc, s, hFound, hs, hToken, hUsed, hLater⟩ := authenticated_token hAuth hType
  have hOwn := hDated.accounts hFound s hs
  rw [hToken]
  constructor
  · obtain ⟨action, hPast, hFrom, hTime⟩ := hOwn.used
    refine ⟨action, hPast, ?_, Int.lt_of_lt_of_le hUsed hTime⟩
    cases action <;> exact hFrom
  · intro hWeb
    obtain ⟨hExpires, action, hPast, hSecret, hHour⟩ := hOwn.login hWeb
    exact ⟨action, hPast, hSecret, Int.lt_of_lt_of_le (hLater hWeb hExpires) hHour⟩

/-- A token that nobody has used for thirty days is no longer accepted, and a login lasts
for an hour. -/
theorem sessions_lapse (hStart : start.storage = .empty)
    (hSteps : srv.Interleaves b starts { state := start } P)
    (hAuth : srv.authenticated b env r P.state.storage = .ok a)
    (hType : a.token.type ≠ lit "skeleton") :
    (∃ action, Happened P action ∧
        (action.secret = some a.token.token ∨ action.presents a.token) ∧
        env.now - 30 * day < action.time) ∧
      (a.token.type = lit "web" → ∃ action, Happened P action ∧
        action.secret = some a.token.token ∧ env.now < action.time + hour) := by
  obtain ⟨-, hDated⟩ := dated_interleaved hStart hSteps
  exact lapses_of_dated hDated hAuth hType

/-- The browser that has followed the activation link comes back. -/
def browserReturns : Request :=
  clientRequest (lit "GET") (lit "AuthToken e@x.io:" ++
    Random.tokenString (Random.constant 1).secret) [] []

def asksAndPairs : List (Pool.Move Action) :=
  [.start clientAsks, .call 0, .call 0, .start clientPairs, .call 1, .call 1, .call 1, .call 1,
    .call 1, .call 1, .call 1]

theorem sessions_lapse_returned :
    ∃ (P : ServerPool) (a : Auth), a.token.type = lit "web" ∧
      standard.authenticated .levelDB (.after 2 (.constant 2)) browserReturns P.state.storage =
        .ok a ∧
      ∃ action, Happened P action ∧ action.secret = some a.token.token := by
  have hPlays : ((Pool.play (exec .levelDB) (Action.program standard) (fun _ _ => true)
      (fun P c => c.enabled P.state) asksAndPairs { state := freshWorld }).bind fun P : ServerPool =>
        (standard.authenticated .levelDB (.after 2 (.constant 2)) browserReturns
          P.state.storage).toOption.map fun a => a.token.type) = some (lit "web") := by
    decide +kernel
  obtain ⟨P, hPlay, hMap⟩ := Option.bind_eq_some_iff.mp hPlays
  obtain ⟨a, hSome, hWeb⟩ := Option.map_eq_some_iff.mp hMap
  have hAuth : standard.authenticated .levelDB (.after 2 (.constant 2)) browserReturns
      P.state.storage = .ok a := by
    cases hResult : standard.authenticated .levelDB (.after 2 (.constant 2)) browserReturns
      P.state.storage with
    | error e => simp [hResult, Except.toOption] at hSome
    | ok a' =>
      rw [hResult] at hSome
      rw [Option.some.inj hSome]
  have hSteps : standard.Interleaves .levelDB (fun _ _ => True) { state := freshWorld } P :=
    Pool.steps_of_play (fun _ _ _ => trivial) (fun _ _ _ hMay => hMay) hPlay
  have hLapse := sessions_lapse rfl hSteps hAuth (by rw [hWeb]; decide)
  obtain ⟨action, hHappened, hSecret, -⟩ := hLapse.2 hWeb
  exact ⟨P, a, hWeb, hAuth, action, hHappened, hSecret⟩

end Server

end PadlockCloud
