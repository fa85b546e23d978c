import PadlockCloud.Request.Region
import PadlockCloud.Request.Sound

/-!
# The mails of a request

A request hands over one mail at most, and only after the limiter has let it through
for the address of the client and the email of the recipient: either the activation
mail or, in the place of the handler, the note on a deprecated version. Nothing else
sends a mail.
-/

namespace PadlockCloud

open Process

/-- The call hands a mail over. -/
def Call.mails : Call → Bool
  | .send _ => true
  | _ => false

/-- The mails that there are. -/
inductive Server.Writes (srv : Server) (env : Env) : Mail → Prop where
  /-- The activation mail, to the email of an auth request that the form asks for. -/
  | activation {r : Request} {auth : Option Auth} {ar : AuthRequest} {body : List Piece}
      (hIssues : Issues srv env r auth ar)
      (hBody : srv.templates.activateAuthTokenEmail (srv.activationLink r ar) ar.authToken ar.code =
        some body) :
      srv.Writes env ⟨ar.authToken.email, authSubject (srv.authForm r auth) ar, body⟩
  /-- The note on a deprecated version. -/
  | deprecated {email : GoString} {body : List Piece}
      (hBody : srv.templates.deprecatedVersionEmail = some body) :
      srv.Writes env ⟨email, [.text (lit "Please update your version of Padlock")], body⟩

/-- The mail is one of these and has been let through for the address. -/
def Call.granted (srv : Server) (env : Env) (ip : GoString) : Call → Prop
  | .send mail => env.rateLimited ip mail.recipient = false ∧ srv.Writes env mail
  | _ => False

/-- What an action may send. -/
def Action.grants (action : Action) (srv : Server) : Call → Prop :=
  match action with
  | .serve _ env r => Call.granted srv env (ipFromRequest r)
  | .clean _ _ => fun _ => False

/-- At most `n` mails, each let through for the address. -/
abbrev Posts {α : Type} (srv : Server) (env : Env) (ip : GoString) (n : Nat) (p : Serve α) : Prop :=
  p.Sparing Call.mails (Call.granted srv env ip) n

namespace Posts

variable {α β : Type} {srv : Server} {env : Env} {ip : GoString} {n : Nat} {f : α → Serve β}

theorem orFail (result : Except StorageError α) :
    Posts srv env ip n (PadlockCloud.orFail result) := by
  cases result with
  | ok a => exact .pure n a
  | error e => exact .fail n _

theorem orPanic_bind {o : Option α} (hRest : ∀ a, Posts srv env ip n (f a)) :
    Posts srv env ip n ((PadlockCloud.orPanic o).bind f) := by
  cases o with
  | some a => exact hRest a
  | none => exact .fail n _

theorem orFail_bind {result : Except StorageError α} (hRest : ∀ a, Posts srv env ip n (f a)) :
    Posts srv env ip n ((PadlockCloud.orFail result).bind f) := by
  cases result with
  | ok a => exact hRest a
  | error e => exact .fail n _

end Posts

namespace Server

variable {srv : Server} {env : Env} {r : Request} {auth : Option Auth} {endpoint : Endpoint}
  {h : Handle Reply} {ip : GoString} {n : Nat}

/-! ## The activation mail -/

theorem posts_checkAccount (email : GoString) : Posts srv env ip 0 (checkAccount r email) := by
  unfold checkAccount
  split
  · exact .pure _ _
  · refine .call rfl fun found => ?_
    rcases found with (_ | _ | _) | acc
    · exact .fail _ _
    · refine .call rfl fun data => ?_
      rcases data with (_ | _ | _) | content
      · exact .fail _ _
      · exact .fail _ _
      · exact .fail _ _
      · exact .pure _ _
    · exact .fail _ _
    · exact .pure _ _

theorem posts_authResponse (f : AuthForm) (ar : AuthRequest) :
    Posts srv env ip 0 (srv.authResponse r f ar) := by
  unfold authResponse
  dsimp only
  split
  · exact .pure _ _
  · cases srv.templates.loginPage (some f.email)
    · exact .fail _ _
    · exact .pure _ _

theorem Issues.email {ar : AuthRequest} (hIssues : Issues srv env r auth ar) :
    ar.authToken.email = (srv.authForm r auth).email := by
  obtain ⟨new, hNew, rfl⟩ := Option.map_eq_some_iff.mp hIssues.new
  show new.authToken.email = _
  exact newAuthRequest_email hNew

/-- The activation mail goes out only where the limiter lets it through. -/
theorem posts_sendActivation {ar : AuthRequest} (hIssues : Issues srv env r auth ar) :
    Posts srv env (ipFromRequest r) 1 (srv.sendActivation env r (srv.authForm r auth) ar) := by
  unfold sendActivation
  split
  · exact .pure _ _
  · split
    · exact .fail _ _
    · rename_i hFree
      cases hBody : srv.templates.activateAuthTokenEmail (srv.activationLink r ar) ar.authToken
        ar.code with
      | none => exact .fail _ _
      | some body =>
        refine .spend ⟨Bool.eq_false_iff.mpr hFree, ?_⟩ fun _ => .pure _ _
        rw [← hIssues.email]
        exact .activation hIssues hBody

theorem posts_requestAuthToken :
    Posts srv env (ipFromRequest r) 1 (srv.requestAuthToken env r auth) := by
  unfold requestAuthToken
  dsimp only
  cases hCheck : AuthForm.check srv (srv.authForm r auth) with
  | error e => exact .fail _ _
  | ok u =>
    apply (posts_checkAccount _).quiet_bind
    intro _
    unfold issueAuthRequest
    cases hNew : newAuthRequest env (srv.authForm r auth).email (srv.authForm r auth).type
      (srv.authForm r auth).actType (srv.authForm r auth).device with
    | none => exact .fail _ _
    | some new =>
      refine .call rfl fun result => ?_
      cases result with
      | error e => exact .fail _ _
      | ok u =>
      apply (posts_authResponse _ _).quiet_bind
      intro response
      exact (posts_sendActivation ⟨hCheck, by rw [hNew]; rfl⟩).bind (n := 0) fun _ => .pure _ _

/-! ## The other handlers -/

theorem posts_activate (ar : AuthRequest) : Posts srv env ip n (activate env ar) := by
  unfold activate
  have hRest (acc : Account) : Posts srv env ip n ((store (.putAccount env.now acc)).bind fun result =>
      (orFail result).bind fun _ =>
        (store (.deleteAuthRequest ar.key)).bind fun result => orFail result) :=
    .call rfl fun result => Posts.orFail_bind fun _ => .call rfl fun result => Posts.orFail _
  refine .call rfl fun found => ?_
  rcases found with (_ | _ | _) | acc
  · exact .fail _ _
  · exact hRest _
  · exact .fail _ _
  · exact hRest _

theorem posts_getAuthRequest : Posts srv env ip n (srv.getAuthRequest r) := by
  unfold getAuthRequest
  cases srv.activationPattern r with
  | error e => exact .fail _ _
  | ok pattern =>
    refine .call rfl fun found => ?_
    rcases found with (_ | _ | _) | ar
    · exact .fail _ _
    · exact .fail _ _
    · exact .fail _ _
    · exact .pure _ _

theorem posts_success (ar : AuthRequest) : Posts srv env ip 0 (srv.success env r ar) := by
  unfold success
  dsimp only
  split
  · cases newAuthRequest env ar.authToken.email (lit "web") [] ar.authToken.device with
    | none => exact .fail _ _
    | some login => exact (posts_activate login).quiet_bind fun _ => .pure _ _
  · exact .pure _ _

theorem posts_activateAuthToken (auth : Option Auth) :
    Posts srv env ip 0 (srv.activateAuthToken env r auth) := by
  unfold activateAuthToken
  have hFound : Posts srv env ip 0 ((srv.getAuthRequest r).attempt HttpError.isPanic) :=
    posts_getAuthRequest.attempt _
  apply hFound.quiet_bind
  intro result
  cases result with
  | error e =>
    dsimp only
    split
    · exact .pure _ _
    · exact .fail _ _
  | ok ar => exact (posts_activate ar).quiet_bind fun _ => posts_success ar

/-- No handler but the one for auth requests sends a mail. -/
theorem posts_other {handler : Handler} (hOther : handler ≠ .requestAuthToken) :
    Posts srv env ip 0 (handler.handle srv env r auth) := by
  cases handler with
  | requestAuthToken => exact absurd rfl hOther
  | activateAuthToken => exact posts_activateAuthToken auth
  | readStore =>
    refine Posts.orPanic_bind fun a => .call rfl fun found => ?_
    rcases found with (_ | _ | _) | content
    · exact .fail _ _
    · exact .pure _ _
    · exact .fail _ _
    · exact .pure _ _
  | writeStore =>
    refine Posts.orPanic_bind fun a => ?_
    split
    · exact .fail _ _
    · exact .call rfl fun _ => Posts.orFail_bind fun _ => .pure _ _
  | deleteStore =>
    exact Posts.orPanic_bind fun a => .call rfl fun _ => Posts.orFail_bind fun _ => .pure _ _
  | deleteAccount =>
    refine Posts.orPanic_bind fun a => ?_
    have hDelete : Posts srv env ip 0 (deleteAccount a.token.email) :=
      .call rfl fun _ => Posts.orFail_bind fun _ => .call rfl fun _ => Posts.orFail _
    exact hDelete.quiet_bind fun _ => .pure _ _
  | loginPage =>
    rw [Handler.handle, loginPage]
    cases srv.templates.loginPage none
    · exact .fail _ _
    · exact .pure _ _
  | dashboard =>
    refine Posts.orPanic_bind fun a => ?_
    dsimp only
    split
    · exact .pure _ _
    · exact .fail _ _
  | logout =>
    exact Posts.orPanic_bind fun a => .call rfl fun _ => Posts.orFail_bind fun _ => .pure _ _
  | revoke =>
    rw [Handler.handle, revoke]
    dsimp only
    split
    · exact .fail _ _
    · refine Posts.orPanic_bind fun a => ?_
      split
      · exact .fail _ _
      · exact .call rfl fun _ => Posts.orFail_bind fun _ => .pure _ _
  | accountInfo => exact Posts.orPanic_bind fun a => .pure _ _
  | static => exact .pure _ _
  | root =>
    rw [Handler.handle, root]
    split
    · exact .fail _ _
    · exact .pure _ _
  | void => exact .pure _ _

theorem posts_endpoint : Posts srv env (ipFromRequest r) 1 (endpoint.handle srv env r auth) := by
  unfold Endpoint.handle
  cases endpoint.handler r.method with
  | none => exact .fail _ _
  | some handler =>
    by_cases hRequests : handler = .requestAuthToken
    · subst hRequests
      exact posts_requestAuthToken
    · exact (posts_other hRequests).mono (Nat.zero_le _)

/-! ## Middleware -/

theorem posts_sendDeprecatedVersionEmail :
    Posts srv env (ipFromRequest r) 1 (srv.sendDeprecatedVersionEmail env r) := by
  unfold sendDeprecatedVersionEmail
  refine Posts.orPanic_bind fun email => ?_
  split
  · rename_i hSends
    cases hBody : srv.templates.deprecatedVersionEmail with
    | none => exact .pure _ _
    | some body =>
      refine .spend ?_ fun _ => .pure _ _
      exact ⟨(Bool.not_eq_true' _).mp hSends.2, .deprecated hBody⟩
  · exact .pure _ _

theorem posts_authenticate : Posts srv env ip 0 (srv.authenticate env r) := by
  unfold authenticate
  cases authTokenFromRequest r with
  | none => exact .fail _ _
  | some t =>
    refine .call rfl fun found => ?_
    rcases found with (_ | _ | _) | acc
    · exact .fail _ _
    · exact .fail _ _
    · exact .fail _ _
    · rw [Program.pure_bind]
      dsimp only
      cases srv.acceptToken env r t acc with
      | error e => exact .fail _ _
      | ok a => exact .call rfl fun _ => Posts.orFail_bind fun _ => .pure _ _

/-- Reading the version or the form leaves the address as it is. -/
theorem ipFromRequest_version (srv : Server) (r : Request) :
    ipFromRequest (srv.versionFromRequest r).2 = ipFromRequest r := by
  unfold versionFromRequest
  cases acceptVersion (r.header .accept) <;> rfl

theorem ipFromRequest_checked {r' : Request} (hChecked : srv.checked endpoint r auth = some r') :
    ipFromRequest r' = ipFromRequest r := by
  rw [checked_eq hChecked]
  split <;> rfl

theorem posts_checksWrap :
    Posts srv env (ipFromRequest r) 1
      (srv.checksWrap endpoint (endpoint.handle srv) env r auth) := by
  rcases checksWrap_cases srv endpoint r auth with
    ⟨r', hChecked, hEq⟩ | ⟨e, hEq⟩ | ⟨reply, hEq⟩
  · rw [hEq, ← ipFromRequest_checked hChecked]
    exact posts_endpoint
  · rw [hEq, ← ipFromRequest_version srv r]
    exact posts_sendDeprecatedVersionEmail.bind (n := 0) fun _ => .fail _ _
  · rw [hEq]
    exact .pure _ _

theorem posts_authenticateWrap (authType : GoString)
    (hHandle : ∀ auth, Posts srv env ip n (h env r auth)) :
    Posts srv env ip n (srv.authenticateWrap authType h env r auth) := by
  unfold authenticateWrap
  have hAuthenticate : Posts srv env ip 0 ((srv.authenticate env r).attempt HttpError.isPanic) :=
    posts_authenticate.attempt _
  apply hAuthenticate.quiet_bind
  intro result
  cases result with
  | error e =>
    dsimp only
    split
    · exact hHandle none
    · split
      · exact .pure _ _
      · exact .fail _ _
  | ok a =>
    dsimp only
    split
    · exact hHandle (some a)
    · exact .fail _ _

/-- A request sends one mail at most. -/
theorem posts_serve : Posts srv env (ipFromRequest r) 1 (srv.serve endpoint env r) := by
  obtain ⟨f, g, hf, hg, hEq⟩ := wrapped_eq srv endpoint (endpoint.handle srv) env r
  have hInner : Posts srv env (ipFromRequest r) 1 (srv.authenticateWrap endpoint.authType
      (srv.checksWrap endpoint (endpoint.handle srv)) env r none) :=
    posts_authenticateWrap _ fun auth => posts_checksWrap
  have hLocked : Posts srv env (ipFromRequest r) 1 (checkMethodWrap endpoint (lockAccountWrap
      (srv.authenticateWrap endpoint.authType (srv.checksWrap endpoint (endpoint.handle srv))))
        env r none) := by
    unfold checkMethodWrap
    split
    · exact .fail _ _
    · unfold lockAccountWrap
      cases authTokenFromRequest r with
      | none => exact hInner
      | some t => exact .call rfl fun _ => hInner.ensure (.call rfl fun _ => .pure _ _)
  rw [serve, wrapEndpoint, hEq]
  have hAnswered := (hLocked.attempt fun _ => false).bind (n := 0) fun a => (hf a).sparing
  exact (hAnswered.attempt fun _ => false).bind (n := 0) fun a => (hg a).sparing

theorem posts_cleanAuthRequests {allowed : Call → Prop} (now : Time) (keys : List GoString) :
    (cleanAuthRequests now keys).Sparing Call.mails allowed 0 := by
  refine .call rfl fun answer => ?_
  cases answer with
  | error e => exact .pure _ _
  | ok requests =>
    show (deleteOld now requests).Sparing Call.mails allowed 0
    induction requests with
    | nil => exact .pure _ _
    | cons ar requests ih =>
      rw [deleteOld]
      split
      · exact .call rfl fun _ => ih
      · exact ih

/-- An action sends one mail at most. -/
theorem posts_program (srv : Server) (action : Action) :
    (action.program srv).Sparing Call.mails (action.grants srv) 1 := by
  cases action with
  | serve endpoint env r => exact posts_serve.bind (n := 0) fun reply => .pure _ _
  | clean now keys =>
    exact ((posts_cleanAuthRequests now keys).quiet_bind fun _ => .pure _ _).mono (Nat.zero_le 1)

end Server

/-! ## The outbox of a pool -/

/-- The mails that a pool has sent, with the threads that have sent them, and what these
may still send. -/
structure Posted (srv : Server) (outbox : List Mail) (sent : List (Nat × Mail)) (P : ServerPool) : Prop where
  outbox : P.state.outbox = outbox ++ sent.map Prod.snd
  once : (sent.map Prod.fst).Nodup
  logged : ∀ {i : Nat} {mail : Mail}, (i, mail) ∈ sent ↔
    ∃ t, P.threads[i]? = some t ∧ ⟨.send mail, ()⟩ ∈ t.log
  granted : ∀ {i : Nat} {mail : Mail} {t : Thread Action Call.Resp HttpError (Option Reply)},
    (i, mail) ∈ sent → P.threads[i]? = some t → t.label.grants srv (.send mail)
  sparing : ∀ {i : Nat} {t : Thread Action Call.Resp HttpError (Option Reply)},
    P.threads[i]? = some t →
      t.rest.Sparing Call.mails (t.label.grants srv) (if i ∈ sent.map Prod.fst then 0 else 1)

namespace Posted

variable {srv : Server} {b : Backend} {outbox : List Mail} {sent : List (Nat × Mail)}
  {P Q : ServerPool}

theorem lt_length {i : Nat} (hPosted : Posted srv outbox sent P) (hSent : i ∈ sent.map Prod.fst) :
    i < P.threads.length := by
  obtain ⟨⟨j, mail⟩, hMem, rfl⟩ := List.mem_map.mp hSent
  obtain ⟨t, hAt, -⟩ := hPosted.logged.mp hMem
  exact (List.getElem?_eq_some_iff.mp hAt).1

/-- A thread that starts has sent nothing. -/
theorem start (hPosted : Posted srv outbox sent P) (action : Action) :
    Posted srv outbox sent (P.start (Action.program srv) action) := by
  have hKept {i : Nat} (hOld : i < P.threads.length) :
      (P.start (Action.program srv) action).threads[i]? = P.threads[i]? := by
    rw [Pool.start, List.getElem?_append_left hOld]
  constructor
  · exact hPosted.outbox
  · exact hPosted.once
  · intro i mail
    rw [hPosted.logged]
    constructor
    · rintro ⟨t, hAt, hLog⟩
      exact ⟨t, (hKept (List.getElem?_eq_some_iff.mp hAt).1).trans hAt, hLog⟩
    · rintro ⟨t, hAt, hLog⟩
      rcases Pool.at_start hAt with hOld | rfl
      · exact ⟨t, hOld, hLog⟩
      · cases hLog
  · intro i mail t hMem hAt
    have hOld := hPosted.lt_length (List.mem_map_of_mem hMem)
    exact hPosted.granted hMem ((hKept hOld).symm.trans hAt)
  · intro i t hAt
    by_cases hOld : i < P.threads.length
    · exact hPosted.sparing ((hKept hOld).symm.trans hAt)
    · rw [if_neg fun hSent => hOld (hPosted.lt_length hSent)]
      rcases Pool.at_start hAt with hFound | rfl
      · exact absurd (List.getElem?_eq_some_iff.mp hFound).1 hOld
      · exact Server.posts_program srv action

/-- A call that is no mail changes nothing. -/
theorem advance_quiet (hPosted : Posted srv outbox sent P) {i : Nat}
    {t : Thread Action Call.Resp HttpError (Option Reply)} {c : Call}
    {k : c.Resp → Serve (Option Reply)} (hAt : P.threads[i]? = some t) (hRest : t.rest = .call c k)
    (hQuiet : c.mails = false)
    (hNext : ∀ r, (k r).Sparing Call.mails (t.label.grants srv)
      (if i ∈ sent.map Prod.fst then 0 else 1)) :
    Posted srv outbox sent (P.advance (exec b) i t c k) := by
  have hOutbox : (exec b c P.state).2.outbox = P.state.outbox := by
    cases c with
    | send mail => cases hQuiet
    | storage c => rfl
    | lock email => rfl
    | unlock email => rfl
  have hLater {mail : Mail} (answer : c.Resp) :
      (⟨.send mail, ()⟩ : Event Call.Resp) ∈ ⟨c, answer⟩ :: t.log ↔
        (⟨.send mail, ()⟩ : Event Call.Resp) ∈ t.log := by
    rw [List.mem_cons, or_iff_right]
    rintro hEq
    cases hEq
    cases hQuiet
  constructor
  · exact hOutbox.trans hPosted.outbox
  · exact hPosted.once
  · intro j mail
    rw [hPosted.logged]
    constructor
    · rintro ⟨u, hFound, hLog⟩
      by_cases hSame : j = i
      · subst hSame
        obtain rfl := Option.some.inj (hAt.symm.trans hFound)
        exact ⟨_, (Pool.at_advance hAt).mpr (.inr ⟨rfl, rfl⟩), (hLater _).mpr hLog⟩
      · exact ⟨u, (Pool.at_advance hAt).mpr (.inl ⟨hSame, hFound⟩), hLog⟩
    · rintro ⟨u, hFound, hLog⟩
      rcases (Pool.at_advance hAt).mp hFound with ⟨-, hOld⟩ | ⟨rfl, rfl⟩
      · exact ⟨u, hOld, hLog⟩
      · exact ⟨t, hAt, (hLater _).mp hLog⟩
  · intro j mail u hMem hFound
    rcases (Pool.at_advance hAt).mp hFound with ⟨-, hOld⟩ | ⟨rfl, rfl⟩
    · exact hPosted.granted hMem hOld
    · exact hPosted.granted (t := t) hMem hAt
  · intro j u hFound
    rcases (Pool.at_advance hAt).mp hFound with ⟨-, hOld⟩ | ⟨rfl, rfl⟩
    · exact hPosted.sparing hOld
    · exact hNext _

section Send

variable {i : Nat} {t : Thread Action Call.Resp HttpError (Option Reply)} {mail : Mail}
  {k : Unit → Serve (Option Reply)}

/-- The mails of the other threads are as before. -/
theorem mem_sent_other {j : Nat} {mail' : Mail} (hSame : j ≠ i) :
    (j, mail') ∈ sent ++ [(i, mail)] ↔ (j, mail') ∈ sent := by
  rw [List.mem_append, or_iff_left]
  intro hLast
  exact hSame (Prod.mk.inj (List.mem_singleton.mp hLast)).1

theorem mem_sent_own {mail' : Mail} (hFirst : i ∉ sent.map Prod.fst) :
    (i, mail') ∈ sent ++ [(i, mail)] ↔ mail' = mail := by
  rw [List.mem_append, or_iff_right fun hMem => hFirst (List.mem_map_of_mem hMem),
    List.mem_singleton, Prod.mk.injEq, and_iff_right rfl]

theorem logged_send (hPosted : Posted srv outbox sent P) (hAt : P.threads[i]? = some t)
    (hFirst : i ∉ sent.map Prod.fst) {j : Nat} {mail' : Mail} :
    (j, mail') ∈ sent ++ [(i, mail)] ↔
      ∃ u, (P.advance (exec b) i t (.send mail) k).threads[j]? = some u ∧
        ⟨.send mail', ()⟩ ∈ u.log := by
  have hNone (mail' : Mail) : (⟨.send mail', ()⟩ : Event Call.Resp) ∉ t.log := fun hLog =>
    hFirst (List.mem_map_of_mem (hPosted.logged.mpr ⟨t, hAt, hLog⟩))
  by_cases hSame : j = i
  · subst hSame
    rw [mem_sent_own hFirst]
    constructor
    · rintro rfl
      exact ⟨_, (Pool.at_advance hAt).mpr (.inr ⟨rfl, rfl⟩), List.mem_cons_self⟩
    · rintro ⟨u, hFound, hLog⟩
      rcases (Pool.at_advance hAt).mp hFound with ⟨hNe, -⟩ | ⟨-, rfl⟩
      · exact absurd rfl hNe
      · rcases List.mem_cons.mp hLog with hEq | hOld
        · cases hEq
          rfl
        · exact absurd hOld (hNone mail')
  · rw [mem_sent_other hSame, hPosted.logged]
    constructor
    · rintro ⟨u, hFound, hLog⟩
      exact ⟨u, (Pool.at_advance hAt).mpr (.inl ⟨hSame, hFound⟩), hLog⟩
    · rintro ⟨u, hFound, hLog⟩
      rcases (Pool.at_advance hAt).mp hFound with ⟨-, hOld⟩ | ⟨rfl, -⟩
      · exact ⟨u, hOld, hLog⟩
      · exact absurd rfl hSame

/-- A mail is the first one of its thread. -/
theorem advance_send (hPosted : Posted srv outbox sent P) (hAt : P.threads[i]? = some t)
    (hFirst : i ∉ sent.map Prod.fst) (hGranted : t.label.grants srv (.send mail))
    (hNext : ∀ r, (k r).Sparing Call.mails (t.label.grants srv) 0) :
    Posted srv outbox (sent ++ [(i, mail)]) (P.advance (exec b) i t (.send mail) k) := by
  have hSent : (sent ++ [(i, mail)]).map Prod.fst = sent.map Prod.fst ++ [i] := List.map_append
  constructor
  · show P.state.outbox ++ [mail] = outbox ++ (sent ++ [(i, mail)]).map Prod.snd
    rw [hPosted.outbox, List.map_append, List.append_assoc]
    rfl
  · rw [hSent]
    refine List.nodup_append.mpr ⟨hPosted.once, List.nodup_singleton i, ?_⟩
    intro j hj j' hj'
    rw [List.mem_singleton.mp hj']
    rintro rfl
    exact hFirst hj
  · exact fun {j mail'} => hPosted.logged_send hAt hFirst
  · intro j mail' u hMem hFound
    rcases (Pool.at_advance hAt).mp hFound with ⟨hSame, hOld⟩ | ⟨rfl, rfl⟩
    · exact hPosted.granted ((mem_sent_other hSame).mp hMem) hOld
    · rw [(mem_sent_own hFirst).mp hMem]
      exact hGranted
  · intro j u hFound
    rw [hSent]
    rcases (Pool.at_advance hAt).mp hFound with ⟨hSame, hOld⟩ | ⟨rfl, rfl⟩
    · have hBefore : j ∈ sent.map Prod.fst ++ [i] ↔ j ∈ sent.map Prod.fst := by
        simp only [List.mem_append, List.mem_singleton, hSame, or_false]
      simp only [hBefore]
      exact hPosted.sparing hOld
    · rw [if_pos (by simp)]
      exact hNext _

end Send

/-- Whatever the interleaving, each thread sends one mail at most. -/
theorem of_interleaves {starts : ServerPool → Action → Prop}
    (hSteps : srv.Interleaves b starts P Q) (hFresh : P.threads = []) :
    ∃ sent, Posted srv P.state.outbox sent Q := by
  refine Pool.invariant (I := fun Q => ∃ sent, Posted srv P.state.outbox sent Q) hSteps ?_ ?_ ?_
  · refine ⟨[], (List.append_nil _).symm, List.nodup_nil, ?_, ?_, ?_⟩
    · intro i mail
      simp [hFresh]
    · intro i mail t hMem
      cases hMem
    · intro i t hAt
      simp [hFresh] at hAt
  · rintro P' action ⟨sent, hPosted⟩ -
    exact ⟨sent, hPosted.start action⟩
  · rintro P' i t c k ⟨sent, hPosted⟩ hAt hRest -
    have hSparing := hPosted.sparing hAt
    rw [hRest] at hSparing
    rcases hSparing.next with ⟨hQuiet, hNext⟩ | ⟨hGranted, m, hBudget, hNext⟩
    · exact ⟨sent, hPosted.advance_quiet hAt hRest hQuiet hNext⟩
    · have hFirst : i ∉ sent.map Prod.fst := by
        intro hSent
        rw [if_pos hSent] at hBudget
        cases hBudget
      obtain rfl : m = 0 := by
        rw [if_neg hFirst] at hBudget
        omega
      have hMail : ∃ mail, c = .send mail := by
        cases hLabel : t.label with
        | serve endpoint env r =>
          rw [hLabel] at hGranted
          cases c with
          | send mail => exact ⟨mail, rfl⟩
          | storage c => exact hGranted.elim
          | lock email => exact hGranted.elim
          | unlock email => exact hGranted.elim
        | clean now keys =>
          rw [hLabel] at hGranted
          exact hGranted.elim
      obtain ⟨mail, rfl⟩ := hMail
      exact ⟨_, hPosted.advance_send hAt hFirst hGranted hNext⟩

end Posted

end PadlockCloud
