import PadlockCloud.Properties.Isolation
import PadlockCloud.Request.Replies

/-!
# Replies are read as what they say

However the requests interleave, each one ends with a reply, and what is sent for it is
read back: a JSON document as the values that the handler has put into it, whatever the
strings in them, and an error as its code and its message. An email or a description of a
device can have quotes, line breaks or invalid UTF-8 in it; only the last is replaced.
-/

namespace PadlockCloud

open Process Format

namespace Server

variable {srv : Server} {b : Backend} {starts : ServerPool → Action → Prop} {P Q : ServerPool}
  {endpoint : Endpoint} {env : Env} {r : Request}

/-- What a client can make of the reply to its request. The file server has errors of its own,
and `net/http` sends no body to a `HEAD` request. -/
structure Readable (srv : Server) (endpoint : Endpoint) (r : Request) (reply : Reply) : Prop where
  document : ∀ v, reply.body.value = some v →
    reply.status < 400 ∧ Value.parse reply.body.wire = some (v.map GoString.toValid)
  error : 400 ≤ reply.status → (∀ method, endpoint.handler method ≠ some .static) →
    ∃ e : HttpError, e.Plain ∧ reply = srv.handleError r e ∧
      (r.acceptsJson = true → r.method ≠ lit "HEAD" → Value.parse reply.body.wire =
        some (.obj [(lit "error", .str e.code), (lit "message", .str e.message)]))

theorem wire_handleError (hJson : r.acceptsJson = true) (e : HttpError) :
    (srv.handleError r e).body.wire = e.jsonify := by
  have hAccept : r.header .accept = lit "application/json" ∨
      (lit "application/vnd.padlock").isPrefixOf (r.header .accept) := by
    simpa [Request.acceptsJson] using hJson
  unfold handleError
  dsimp only
  rw [if_pos hAccept]
  rfl

theorem readable_of_replied {reply : Reply} (hReplied : srv.Replied endpoint r reply) :
    srv.Readable endpoint r reply := by
  constructor
  · intro v hValue
    refine ⟨?_, Body.parse_wire hValue⟩
    rcases hReplied with hSucceeds | ⟨method, file, -, rfl⟩ | ⟨e, -, rfl⟩
    · exact hSucceeds
    · cases hValue
    · cases hValue
  · intro hStatus hFiles
    rcases hReplied with hSucceeds | ⟨method, file, hStatic, -⟩ | ⟨e, hPlain, rfl⟩
    · exact absurd hSucceeds (Nat.not_lt.mpr hStatus)
    · exact absurd hStatic (hFiles method)
    · refine ⟨e, hPlain, rfl, fun hJson _ => ?_⟩
      rw [wire_handleError hJson]
      exact HttpError.parse_jsonify hPlain

/-- What is left of a request ends with a readable reply. -/
theorem readable_program (action : Action) :
    (action.program srv).Answers fun reply => ∀ endpoint env r, action = .serve endpoint env r →
      ∃ reply', reply = some reply' ∧ srv.Readable endpoint r reply' := by
  cases action with
  | serve endpoint env r =>
    refine replied_serve.bind fun reply hReplied => ?_
    intro endpoint' env' r' hEq
    obtain ⟨rfl, -, rfl⟩ := Action.serve.inj hEq
    exact ⟨reply, rfl, readable_of_replied hReplied⟩
  | clean now keys =>
    have hAnswers : (Action.program srv (.clean now keys)).Answers _ := Action.answers_program _
    refine hAnswers.mono ?_ fun _ hNone => hNone
    intro reply _ endpoint env r hEq
    cases hEq

/-- A request that has ended has ended with a readable reply. -/
theorem replies_readable (hFresh : P.threads = []) (hSteps : srv.Interleaves b starts P Q) {i : Nat}
    {t : Thread Action Call.Resp HttpError (Option Reply)} (hAt : Q.threads[i]? = some t)
    (hLabel : t.label = .serve endpoint env r) (hEnded : t.rest.Ended) :
    ∃ reply, t.rest = .pure (some reply) ∧ srv.Readable endpoint r reply := by
  have hAnswers := Pool.rests hSteps hFresh readable_program
    (fun _ _ _ answer hRest => hRest answer) t (List.mem_of_getElem? hAt)
  obtain ⟨result, hResult, hPost⟩ := hAnswers.result hEnded
  obtain ⟨reply, rfl, hReadable⟩ := hPost endpoint env r hLabel
  exact ⟨reply, hResult, hReadable⟩

/-- A client fills in the form for an api token. -/
def formRequest (form : GoString) : Request := clientRequest (lit "POST") [] [] form

/-- Somebody asks for a token with a quote in the email, and somebody for another type. -/
def asksOddly : List (Pool.Move Action) :=
  [.start (.serve (servedAt (lit "/auth/")) (.after 0 (.constant 0))
      (formRequest (lit "type=api&email=%22@x.io"))),
    .start (.serve (servedAt (lit "/auth/")) (.after 0 (.constant 0))
      (formRequest (lit "type=any&email=e@x.io"))),
    .call 0, .call 0]

def endsWith (status : Nat) (t : Thread Action Call.Resp HttpError (Option Reply)) : Bool :=
  match t.rest with
  | .pure (some reply) => reply.status = status
  | _ => false

theorem replies_readable_oddly : ∃ granted refused : Reply,
    standard.Readable (servedAt (lit "/auth/")) (formRequest (lit "type=api&email=%22@x.io")) granted ∧
      granted.status = 202 ∧
    standard.Readable (servedAt (lit "/auth/")) (formRequest (lit "type=any&email=e@x.io")) refused ∧
      refused.status = 400 := by
  have hPlays : ((Pool.play (exec .levelDB) (Action.program standard) (fun _ _ => true)
      (fun P c => c.enabled P.state) asksOddly { state := freshWorld }).map fun P : ServerPool =>
        (P.threads[0]?.any (endsWith 202), P.threads[1]?.any (endsWith 400))) =
      some (true, true) := by
    decide +kernel
  obtain ⟨Q, hPlay, hResult⟩ := Option.map_eq_some_iff.mp hPlays
  have hSteps : standard.Interleaves .levelDB (fun _ _ => True) { state := freshWorld } Q :=
    Pool.steps_of_play (fun _ _ _ => trivial) (fun _ _ _ hMay => hMay) hPlay
  have hLabels : Q.threads.map Thread.label = asksOddly.filterMap Pool.Move.started :=
    Pool.labels_of_play hPlay
  have hEach {i status : Nat} {r : Request}
      (hAction : (asksOddly.filterMap Pool.Move.started)[i]? =
        some (.serve (servedAt (lit "/auth/")) (.after 0 (.constant 0)) r))
      (hEnds : Q.threads[i]?.any (endsWith status) = true) :
      ∃ reply, standard.Readable (servedAt (lit "/auth/")) r reply ∧ reply.status = status := by
    obtain ⟨t, hAt, hStatus⟩ := (Option.any_eq_true _ _).mp hEnds
    have hLabel := hAction
    rw [← hLabels, List.getElem?_map, hAt] at hLabel
    have hEnded : t.rest.Ended := by
      unfold endsWith at hStatus
      split at hStatus
      · rename_i reply hRest
        rw [hRest]
        trivial
      · cases hStatus
    obtain ⟨reply, hRest, hReadable⟩ :=
      replies_readable rfl hSteps hAt (Option.some.inj hLabel) hEnded
    refine ⟨reply, hReadable, ?_⟩
    rw [endsWith, hRest] at hStatus
    exact of_decide_eq_true hStatus
  obtain ⟨hGranted, hRefused⟩ := Prod.mk.inj hResult
  obtain ⟨granted, hGranted, hAccepted⟩ := hEach rfl hGranted
  obtain ⟨refused, hRefused, hRejected⟩ := hEach rfl hRefused
  exact ⟨granted, refused, hGranted, hAccepted, hRefused, hRejected⟩

end Server

end PadlockCloud
