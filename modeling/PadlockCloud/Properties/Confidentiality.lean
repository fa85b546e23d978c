import PadlockCloud.Properties.Concealment
import PadlockCloud.Properties.SerialOrder
import PadlockCloud.Request.Veiled

/-!
# Records are confidential

What is in an account and in a data store is nobody else's business. Change the accounts of
some emails and the contents of some data stores: under the same interleaving, every request
without a credential for one of these accounts gets the same reply and every mail is the
same, except that a request that reads a data store with a credential for it gets its
content. Nor does anything move into the records of other emails.
-/

namespace PadlockCloud

open Process

namespace Server

variable {srv : Server} {b : Backend} {V : Veil} {w w' : World Tables} {P : ServerPool}

/-- The interleavings of requests without a credential for a hidden account. -/
abbrev InterleavesBlind (srv : Server) (b : Backend) (V : Veil) : ServerPool → ServerPool → Prop :=
  srv.Interleaves b fun _ action => action.blind V

/-- What others see of two worlds. -/
structure Confidential (V : Veil) (b : Backend) (P P' : ServerPool) : Prop where
  world : P.state.Veiled V b P'.state
  labels : P'.threads.map Thread.label = P.threads.map Thread.label
  replies : ∀ {i : Nat} {t : Thread Action Call.Resp HttpError (Option Reply)} {reply : Reply},
    P.threads[i]? = some t → t.rest = .pure (some reply) →
      ∃ t' reply', P'.threads[i]? = some t' ∧ t'.rest = .pure (some reply') ∧
        reply.Veiled (t.label.reads V) reply'

/-- Nothing shows what is in hidden records. -/
theorem records_confidential (hVeiled : w.Veiled V b w')
    (hSteps : srv.InterleavesBlind b V { state := w } P) :
    ∃ P', srv.InterleavesBlind b V { state := w' } P' ∧ Confidential V b P P' := by
  have hEmpty : Pool.Twins (Call.veil V b)
      (fun action => Option.Rel (Reply.Veiled (Action.reads V action))) id (World.Veiled V b)
      ({ state := w } : ServerPool) { state := w' } :=
    ⟨hVeiled, rfl, fun hAt _ => by cases hAt⟩
  obtain ⟨P', hReplayed, hTwins⟩ := Pool.replay hSteps hEmpty
    (fun Q Q' action _ hBlind => ⟨hBlind, veiled_program srv hBlind⟩)
    fun Q Q' i c c' hTwins hCalls hEnabled =>
      ⟨hCalls.enabled hTwins.state.held hEnabled, hTwins.state.step hCalls⟩
  refine ⟨P', hReplayed, hTwins.state, ?_, ?_⟩
  · rw [hTwins.labels, List.map_id]
  · intro i t reply hAt hEnd
    obtain ⟨t', hAt', hLike⟩ := hTwins.at_twin hAt
    have hRest := hLike.rest
    rw [hEnd] at hRest
    obtain ⟨found, hEnd', hRel⟩ := hRest.result
    cases hRel with
    | some hReply => exact ⟨t', _, hAt', hEnd', hReply⟩

/-- The laptop's account with a data store. -/
def laptopStores (content : GoString) : World Tables :=
  { laptopWorld with storage := laptopWorld.storage.putDataStore (lit "e@x.io") (some content) }

/-- The content of the data store is hidden, the account is not. -/
def hidesContent : Veil := ⟨fun _ => False, fun email => email = lit "e@x.io"⟩

theorem veiled_laptopStores (content content' : GoString) :
    (laptopStores content).Veiled hidesContent .levelDB (laptopStores content') where
  sound := sound_laptopWorld.putDataStore _ _
  sound' := sound_laptopWorld.putDataStore _ _
  accounts := .refl _
  dataStores := (Hides.refl _).update _ _ _ rfl fun hShown => absurd rfl hShown
  authRequests := rfl
  held := rfl
  outbox := rfl

/-- The laptop reads the data store while somebody asks for a token of an existing account. -/
def readsAndAsks : List (Pool.Move Action) :=
  [.start (.serve (servedAt (lit "/store/")) (.after 1 (.constant 0))
      (clientRequest (lit "GET") (lit "AuthToken e@x.io:secret") [] [])),
    .start (.serve (servedAt (lit "/auth/")) (.after 1 (.constant 1))
      (clientRequest (lit "PUT") [] [] (lit "type=api&email=e@x.io"))),
    .call 0, .call 0, .call 1, .call 0, .call 1, .call 0, .call 1, .call 0]

theorem records_confidential_read : ∃ P P' : ServerPool,
    replyAt P 0 = some { body := .bytes (lit "old") } ∧
      (replyAt P 1).map Reply.status = some 202 ∧
      standard.InterleavesBlind .levelDB hidesContent { state := laptopStores (lit "new") } P' ∧
      Confidential hidesContent .levelDB P P' := by
  have hPlays : ((Pool.play (exec .levelDB) (Action.program standard) (fun _ _ => true)
      (fun P c => c.enabled P.state) readsAndAsks { state := laptopStores (lit "old") }).map
        fun P : ServerPool => (replyAt P 0, (replyAt P 1).map Reply.status)) =
      some (some { body := .bytes (lit "old") }, some 202) := by
    decide +kernel
  obtain ⟨P, hPlay, hResult⟩ := Option.map_eq_some_iff.mp hPlays
  have hSteps : standard.InterleavesBlind .levelDB hidesContent
      { state := laptopStores (lit "old") } P :=
    Pool.steps_of_play (fun _ _ _ _ _ hHidden => hHidden) (fun _ _ _ hMay => hMay) hPlay
  obtain ⟨P', hReplayed, hConfidential⟩ :=
    records_confidential (veiled_laptopStores (lit "old") (lit "new")) hSteps
  exact ⟨P, P', (Prod.mk.inj hResult).1, (Prod.mk.inj hResult).2, hReplayed, hConfidential⟩

end Server

end PadlockCloud
