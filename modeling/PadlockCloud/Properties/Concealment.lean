import PadlockCloud.Properties.Isolation
import PadlockCloud.Request.Concealed

/-!
# Activations stay concealed

Whoever does not get the mail learns nothing about an activation token or a code. Draw
them anew: under the same interleaving every other request gets the same reply, the
accounts and the data stores are the same, and as many mails go to the same recipients. The
one that asked for the token gets the same reply too, unless the server is in test mode or
the request comes with a credential; then the replies differ in the link at most. This holds
until somebody looks up one of the auth requests.
-/

namespace PadlockCloud

open Process

namespace Server

variable {srv : Server} {b : Backend} {hidden : GoString → Prop} {w w' : World Tables}
  {P : ServerPool}

/-- The interleavings in which nobody comes upon a concealed auth request. -/
abbrev InterleavesUnseen (srv : Server) (b : Backend) (hidden : GoString → Prop) :
    ServerPool → ServerPool → Prop :=
  Pool.Steps (exec b) (Action.program srv) (fun _ _ => True)
    fun P _ c => c.enabled P.state = true ∧ c.avoids hidden

/-- What the requests come to with other activation tokens and codes. -/
structure Unaffected (srv : Server) (hidden : GoString → Prop) (redraw : Action → Action)
    (P P' : ServerPool) : Prop where
  world : P.state.Apart hidden P'.state
  labels : P'.threads.map Thread.label = (P.threads.map Thread.label).map redraw
  replies : ∀ {i : Nat} {t : Thread Action Call.Resp HttpError (Option Reply)} {reply},
    P.threads[i]? = some t → t.rest = .pure reply →
      ∃ t' reply', P'.threads[i]? = some t' ∧ t'.rest = .pure reply' ∧
        reply'.map Reply.masked = reply.map Reply.masked ∧
          (redraw t.label = t.label ∨ ¬t.label.discloses srv → reply' = reply)

/-- Nothing depends on concealed activation tokens and codes. -/
theorem activations_concealed (hTemplate : srv.templates.Steady) {redraw : Action → Action}
    (hRedraw : ∀ action : Action, action.Redrawn hidden (redraw action)) (hApart : w.Apart hidden w')
    (hSteps : srv.InterleavesUnseen b hidden { state := w } P) :
    ∃ P', srv.InterleavesUnseen b hidden { state := w' } P' ∧
      Unaffected srv hidden redraw P P' := by
  let ends (action : Action) (reply reply' : Option Reply) : Prop :=
    reply'.map Reply.masked = reply.map Reply.masked ∧
      (redraw action = action ∨ ¬action.discloses srv → reply' = reply)
  have hEmpty : Pool.Twins (Call.likeness hidden) ends redraw (World.Apart hidden)
      ({ state := w } : ServerPool) { state := w' } :=
    ⟨hApart, rfl, fun hAt _ => by cases hAt⟩
  have hReplay : ∃ P', srv.InterleavesUnseen b hidden { state := w' } P' ∧
      Pool.Twins (Call.likeness hidden) ends redraw (World.Apart hidden) P P' := by
    refine Pool.replay hSteps hEmpty (fun Q Q' action _ _ => ?_) fun Q Q' i c c' hTwins hLike hMay => ?_
    · exact ⟨trivial, like_program hTemplate (hRedraw action)⟩
    · obtain ⟨hEnabled, hAvoids⟩ := hMay
      obtain ⟨hState, hResponse⟩ := hTwins.state.step (b := b) hLike hAvoids
      refine ⟨⟨hLike.enabled hTwins.state.held hEnabled, ?_⟩, hState, hResponse⟩
      cases hLike with
      | same => exact hAvoids
      | stores => trivial
      | sends => trivial
  obtain ⟨P', hReplayed, hTwins⟩ := hReplay
  refine ⟨P', hReplayed, hTwins.state, hTwins.labels, ?_⟩
  intro i t reply hAt hEnd
  obtain ⟨t', hAt', hLike⟩ := hTwins.at_twin hAt
  have hRest := hLike.rest
  rw [hEnd] at hRest
  obtain ⟨reply', hEnd', hMasked, hSame⟩ := hRest.result
  exact ⟨t', reply', hAt', hEnd', hMasked, hSame⟩

/-! ## A request that draws another token -/

/-- The random bytes with another activation token and another code. -/
def Random.withActivation (ρ : Random) (byte : UInt8) : Random :=
  { ρ with token := Vector.replicate 16 byte, code := Vector.replicate 3 byte }

/-- Draws the activation of the byte `9` where a request for an api token has drawn that of
the byte `0`. -/
def drawsNine : Action → Action
  | .serve endpoint env r =>
    match env.random with
    | some ρ =>
      if endpoint = servedAt (lit "/auth/") ∧ ρ.token = (Random.constant 0).token ∧
          ρ.code = (Random.constant 0).code then
        .serve endpoint (env.redraw (Random.withActivation ρ 9)) r
      else .serve endpoint env r
    | none => .serve endpoint env r
  | .clean now keys => .clean now keys

/-- The keys of auth requests with the activations of these two bytes. -/
def zeroOrNine (key : GoString) : Prop :=
  ∃ byte : UInt8, (byte = 0 ∨ byte = 9) ∧
    (key = Random.tokenString (Random.constant byte).token ∨
      ∃ email, key = email ++ lit "-" ++ encodeHex (Random.constant byte).code.toList)

theorem conceals_zeroOrNine {ρ : Random} {byte : UInt8} (hByte : byte = 0 ∨ byte = 9)
    (hToken : ρ.token = (Random.constant byte).token) (hCode : ρ.code = (Random.constant byte).code) :
    ρ.Conceals zeroOrNine where
  link := ⟨byte, hByte, .inl (by rw [hToken])⟩
  code email := ⟨byte, hByte, .inr ⟨email, by rw [hCode]⟩⟩

theorem redrawn_drawsNine (action : Action) : action.Redrawn zeroOrNine (drawsNine action) := by
  cases action with
  | clean now keys => exact .same _
  | serve endpoint env r =>
    cases hRandom : env.random with
    | none =>
      simp only [drawsNine, hRandom]
      exact .same _
    | some ρ =>
      simp only [drawsNine, hRandom]
      split
      · rename_i hDraws
        obtain ⟨hEndpoint, hToken, hCode⟩ := hDraws
        have hOther : ∀ entry ∈ endpoint.handlers, entry.2 ≠ .activateAuthToken := by
          rw [hEndpoint]
          decide
        refine .redrawn _ env r ρ _ (fun method hActivates => ?_) hRandom rfl rfl
          (conceals_zeroOrNine (.inl rfl) hToken hCode) (conceals_zeroOrNine (.inr rfl) rfl rfl)
        obtain ⟨entry, hEntry, hHandler⟩ := Option.map_eq_some_iff.mp hActivates
        exact hOther entry (List.mem_of_find?_eq_some hEntry) hHandler
      · exact .same _

/-- The reply of the request in slot `i`, if there is one already. -/
def replyAt (P : ServerPool) (i : Nat) : Option Reply :=
  P.threads[i]?.bind fun t =>
    match t.rest with
    | .pure reply => reply
    | _ => none

/-- The call looks up no auth request. -/
def looksAway : Call → Bool
  | .storage (.getAuthRequest _) | .storage (.iterator _) => false
  | _ => true

theorem activations_concealed_nine :
    ∃ (P' : ServerPool) (reply : Reply), reply.status = 202 ∧
      standard.InterleavesUnseen .levelDB zeroOrNine { state := freshWorld } P' ∧
        P'.threads.map Thread.label = [drawsNine clientAsks] ∧ replyAt P' 0 = some reply := by
  have hPlays : ((Pool.play (exec .levelDB) (Action.program standard) (fun _ _ => true)
      (fun P c => c.enabled P.state && looksAway c) [.start clientAsks, .call 0, .call 0]
      { state := freshWorld }).bind fun P : ServerPool =>
        (replyAt P 0).map fun reply => (reply.status, P.threads.length)) = some (202, 1) := by
    decide +kernel
  obtain ⟨P, hPlay, hMap⟩ := Option.bind_eq_some_iff.mp hPlays
  obtain ⟨reply, hReply, hBoth⟩ := Option.map_eq_some_iff.mp hMap
  have hLabels : P.threads.map Thread.label = [clientAsks] := Pool.labels_of_play hPlay
  have hSteps : standard.InterleavesUnseen .levelDB zeroOrNine { state := freshWorld } P := by
    refine Pool.steps_of_play (fun _ _ _ => trivial) (fun P i c hMay => ?_) hPlay
    obtain ⟨hEnabled, hAway⟩ := Bool.and_eq_true_iff.mp hMay
    refine ⟨hEnabled, ?_⟩
    unfold Call.avoids
    split
    · cases hAway
    · cases hAway
    · trivial
  have hApart : freshWorld.Apart zeroOrNine freshWorld := ⟨rfl, rfl, fun _ _ => rfl, rfl, rfl⟩
  obtain ⟨P', hReplayed, hUnaffected⟩ :=
    activations_concealed (fun _ _ _ _ _ => rfl) redrawn_drawsNine hApart hSteps
  obtain ⟨t, hAt, hEnd⟩ := Option.bind_eq_some_iff.mp hReply
  have hLabel : t.label = clientAsks := by
    have hFirst := congrArg List.head? hLabels
    rw [List.head?_map, List.head?_eq_getElem?, hAt] at hFirst
    exact Option.some.inj hFirst
  have hConceals : ¬clientAsks.discloses standard := by
    unfold clientAsks Action.discloses
    decide +kernel
  cases hRest : t.rest with
  | pure ended =>
    simp only [hRest] at hEnd
    subst hEnd
    obtain ⟨t', reply', hAt', hEnd', -, hSame⟩ := hUnaffected.replies hAt hRest
    obtain rfl := hSame (.inr (by rwa [hLabel]))
    refine ⟨P', reply, (Prod.mk.inj hBoth).1, hReplayed, ?_, ?_⟩
    · rw [hUnaffected.labels, hLabels]
      rfl
    · simp only [replyAt, hAt', Option.bind_some, hEnd']
  | fail e =>
    simp only [hRest] at hEnd
    cases hEnd
  | call c k =>
    simp only [hRest] at hEnd
    cases hEnd

end Server

end PadlockCloud
