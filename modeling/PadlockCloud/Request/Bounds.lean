import PadlockCloud.Process.Mutex
import PadlockCloud.Request.Pools

/-!
# The calls of a request

How many calls a request makes at most, and where it touches the mutexes: a request
with a credential takes the mutex of the email in it first and gives it back last,
and a request without one takes none. Nothing between the two depends on a mutex,
whatever the storage answers.
-/

namespace PadlockCloud

open Process

/-- An iterator over some keys returns one record for each at most. -/
def Call.known : (c : Call) → c.Resp → Prop
  | .storage (.iterator keys), answer => ∀ records, answer = .ok records → records.length ≤ keys.length
  | _, _ => True

theorem Call.known_exec (b : Backend) (c : Call) (w : World Tables) : c.known (exec b c w).1 := by
  rcases c with c | email | email | mail
  · cases c with
    | iterator keys =>
      intro records hRecords
      obtain rfl := Except.ok.inj hRecords
      exact List.length_filterMap_le _ _
    | _ => trivial
  all_goals trivial

def Call.mutexOp : Call → MutexOp GoString
  | .lock email => .lock email
  | .unlock email => .unlock email
  | _ => .other

/-- The mutexes of the accounts. -/
def World.mutexes {σ : Type} (S : Interp StorageCall.Resp σ) :
    Mutexes (World.step S) GoString where
  op := Call.mutexOp
  held := World.held
  held_step c w := by cases c <;> rfl

theorem World.free_iff {σ : Type} {S : Interp StorageCall.Resp σ} {w : World σ} {c : Call} :
    (World.mutexes S).Free w c ↔ c.enabled w = true := by
  cases c <;> simp [Mutexes.Free, World.mutexes, Call.mutexOp, Call.enabled]

/-- At most `n` calls, none of which is one on a mutex. -/
abbrev Modest {α : Type} (n : Nat) (p : Serve α) : Prop :=
  p.Bounded Call.known (fun c => c.mutexOp = .other) n

namespace Modest

variable {α β : Type} {n : Nat} {f : α → Serve β}

/-- A call to the storage or to the sender, and what follows it. -/
theorem call {c : Call} {k : c.Resp → Serve α} (hCall : c.mutexOp = .other)
    (hRest : ∀ r, Modest n (k r)) : Modest (n + 1) (.call c k) :=
  Program.Bounded.call hCall fun r _ => hRest r

theorem orFail (result : Except StorageError α) : Modest n (PadlockCloud.orFail result) := by
  cases result with
  | ok a => exact .pure a
  | error e => exact .fail _

theorem orFail_bind {result : Except StorageError α} (hRest : ∀ a, Modest n (f a)) :
    Modest n ((PadlockCloud.orFail result).bind f) := by
  cases result with
  | ok a => exact hRest a
  | error e => exact .fail _

theorem orPanic_bind {o : Option α} (hRest : ∀ a, Modest n (f a)) :
    Modest n ((PadlockCloud.orPanic o).bind f) := by
  cases o with
  | some a => exact hRest a
  | none => exact .fail _

end Modest

namespace Server

variable {srv : Server} {env : Env} {r : Request} {auth : Option Auth} {endpoint : Endpoint}
  {h : Handle Reply} {n : Nat}

/-! ## Handlers -/

theorem modest_checkAccount (email : GoString) : Modest 2 (checkAccount r email) := by
  unfold checkAccount
  split
  · exact .pure _
  · refine .call rfl fun found => ?_
    rcases found with (_ | _ | _) | acc
    · exact .fail _
    · refine .call rfl fun data => ?_
      rcases data with (_ | _ | _) | content
      · exact .fail _
      · exact .fail _
      · exact .fail _
      · exact .pure _
    · exact .fail _
    · exact .pure _

theorem modest_issueAuthRequest (f : AuthForm) : Modest 1 (issueAuthRequest env f) := by
  unfold issueAuthRequest
  cases newAuthRequest env f.email f.type f.actType f.device with
  | none => exact .fail _
  | some ar => exact .call rfl fun result => Modest.orFail_bind fun _ => .pure _

theorem modest_authResponse (f : AuthForm) (ar : AuthRequest) :
    Modest 0 (srv.authResponse r f ar) := by
  unfold authResponse
  dsimp only
  split
  · exact .pure _
  · cases srv.templates.loginPage (some f.email)
    · exact .fail _
    · exact .pure _

theorem modest_sendActivation (f : AuthForm) (ar : AuthRequest) :
    Modest 1 (srv.sendActivation env r f ar) := by
  unfold sendActivation
  split
  · exact .pure _
  · split
    · exact .fail _
    · cases srv.templates.activateAuthTokenEmail (srv.activationLink r ar) ar.authToken ar.code
      · exact .fail _
      · exact .call rfl fun _ => .pure _

theorem modest_requestAuthToken : Modest 4 (srv.requestAuthToken env r auth) := by
  unfold requestAuthToken
  dsimp only
  cases AuthForm.check srv (srv.authForm r auth) with
  | error e => exact .fail _
  | ok u =>
    have hSend (ar : AuthRequest) (response : Body) :
        Modest 1 ((srv.sendActivation env r (srv.authForm r auth) ar).bind fun _ =>
          Program.pure ({ status := 202, body := response } : Reply)) :=
      (modest_sendActivation _ ar).bind_ended fun _ => .pure _
    have hResponse (ar : AuthRequest) : Modest 0 (srv.authResponse r (srv.authForm r auth) ar) :=
      modest_authResponse _ ar
    have hIssue : Modest 1 (issueAuthRequest env (srv.authForm r auth)) :=
      modest_issueAuthRequest _
    have hAnswer := hIssue.bind fun ar => (hResponse ar).bind (hSend ar)
    exact (modest_checkAccount _).bind fun _ => hAnswer

theorem modest_activate (ar : AuthRequest) : Modest 3 (activate env ar) := by
  unfold activate
  refine .call rfl fun found => ?_
  have hRest (acc : Account) : Modest 2 ((store (.putAccount env.now acc)).bind fun result =>
      (orFail result).bind fun _ =>
        (store (.deleteAuthRequest ar.key)).bind fun result => orFail result) :=
    .call rfl fun result => Modest.orFail_bind fun _ => .call rfl fun result => Modest.orFail _
  rcases found with (_ | _ | _) | acc
  · exact .fail _
  · exact hRest _
  · exact .fail _
  · exact hRest _

theorem modest_getAuthRequest : Modest 1 (srv.getAuthRequest r) := by
  unfold getAuthRequest
  cases srv.activationPattern r with
  | error e => exact .fail _
  | ok pattern =>
    refine .call rfl fun found => ?_
    rcases found with (_ | _ | _) | ar
    · exact .fail _
    · exact .fail _
    · exact .fail _
    · exact .pure _

theorem modest_success (ar : AuthRequest) : Modest 3 (srv.success env r ar) := by
  unfold success
  dsimp only
  split
  · cases newAuthRequest env ar.authToken.email (lit "web") [] ar.authToken.device with
    | none => exact .fail _
    | some login => exact (modest_activate login).bind_ended fun _ => .pure _
  · exact .pure _

theorem modest_activateAuthToken (auth : Option Auth) :
    Modest 7 (srv.activateAuthToken env r auth) := by
  unfold activateAuthToken
  have hFound : Modest 1 ((srv.getAuthRequest r).attempt HttpError.isPanic) :=
    modest_getAuthRequest.attempt _
  refine hFound.bind (n := 6) fun result => ?_
  cases result with
  | error e =>
    dsimp only
    split
    · exact .pure _
    · exact .fail _
  | ok ar => exact (modest_activate ar).bind fun _ => modest_success ar

theorem modest_deleteAccount (email : GoString) : Modest 2 (deleteAccount email) :=
  .call rfl fun _ => Modest.orFail_bind fun _ => .call rfl fun _ => Modest.orFail _

/-- No handler makes more calls than an activation. -/
theorem modest_handle (handler : Handler) : Modest 7 (handler.handle srv env r auth) := by
  cases handler with
  | requestAuthToken => exact modest_requestAuthToken.mono (by omega)
  | activateAuthToken => exact modest_activateAuthToken auth
  | readStore =>
    refine Modest.orPanic_bind fun a => .call rfl fun found => ?_
    rcases found with (_ | _ | _) | content
    · exact .fail _
    · exact .pure _
    · exact .fail _
    · exact .pure _
  | writeStore =>
    refine Modest.orPanic_bind fun a => ?_
    split
    · exact .fail _
    · exact .call rfl fun _ => Modest.orFail_bind fun _ => .pure _
  | deleteStore =>
    exact Modest.orPanic_bind fun a => .call rfl fun _ => Modest.orFail_bind fun _ => .pure _
  | deleteAccount =>
    refine Modest.orPanic_bind fun a => ?_
    exact ((modest_deleteAccount _).bind_ended fun _ => .pure _).mono (by omega)
  | loginPage =>
    rw [Handler.handle, loginPage]
    cases srv.templates.loginPage none
    · exact .fail _
    · exact .pure _
  | dashboard =>
    refine Modest.orPanic_bind fun a => ?_
    dsimp only
    split
    · exact .pure _
    · exact .fail _
  | logout =>
    exact Modest.orPanic_bind fun a => .call rfl fun _ => Modest.orFail_bind fun _ => .pure _
  | revoke =>
    rw [Handler.handle, revoke]
    dsimp only
    split
    · exact .fail _
    · refine Modest.orPanic_bind fun a => ?_
      split
      · exact .fail _
      · exact .call rfl fun _ => Modest.orFail_bind fun _ => .pure _
  | accountInfo => exact Modest.orPanic_bind fun a => .pure _
  | static => exact .pure _
  | root =>
    rw [Handler.handle, root]
    split
    · exact .fail _
    · exact .pure _
  | void => exact .pure _

/-! ## Middleware -/

theorem modest_authenticate : Modest 2 (srv.authenticate env r) := by
  unfold authenticate
  cases authTokenFromRequest r with
  | none => exact .fail _
  | some t =>
    refine .call rfl fun found => ?_
    rcases found with (_ | _ | _) | acc
    · exact .fail _
    · exact .fail _
    · exact .fail _
    · rw [Program.pure_bind]
      dsimp only
      cases srv.acceptToken env r t acc with
      | error e => exact .fail _
      | ok a => exact .call rfl fun _ => Modest.orFail_bind fun _ => .pure _

theorem modest_sendDeprecatedVersionEmail : Modest 1 (srv.sendDeprecatedVersionEmail env r) := by
  unfold sendDeprecatedVersionEmail
  refine Modest.orPanic_bind fun email => ?_
  split
  · cases srv.templates.deprecatedVersionEmail with
    | none => exact .pure _
    | some body => exact .call rfl fun _ => .pure _
  · exact .pure _

theorem modest_checksWrap (hHandle : ∀ r', Modest (n + 1) (h env r' auth)) :
    Modest (n + 1) (srv.checksWrap endpoint h env r auth) := by
  have hCsrf (r' : Request) :
      Modest (n + 1) ((if endpoint.authType ≠ [] then srv.csrfWrap h else h) env r' auth) := by
    split
    · unfold csrfWrap
      split
      · dsimp only
        split
        · exact hHandle _
        · exact .pure _
      · exact hHandle _
    · exact hHandle _
  unfold checksWrap checkEndpointVersionWrap
  dsimp only
  split
  · exact (modest_sendDeprecatedVersionEmail.bind_ended fun _ => .fail _).mono (by omega)
  · exact hCsrf _

/-- The checks hand a request on, or answer it without regard to the handler. -/
theorem checksWrap_cases (srv : Server) (endpoint : Endpoint) (r : Request) (auth : Option Auth) :
    (∃ r', srv.checked endpoint r auth = some r' ∧
      ∀ h env, srv.checksWrap endpoint h env r auth = h env r' auth) ∨
    (∃ e, ∀ h env, srv.checksWrap endpoint h env r auth =
      (srv.sendDeprecatedVersionEmail env (srv.versionFromRequest r).2).bind fun _ => .fail e) ∨
    ∃ reply, ∀ h env, srv.checksWrap endpoint h env r auth = .pure reply := by
  unfold checksWrap checkEndpointVersionWrap checked
  dsimp only
  split
  · exact .inr (.inl ⟨_, fun _ _ => rfl⟩)
  · by_cases hCsrf : endpoint.authType ≠ [] ∧ auth.any fun a => a.token.type = lit "web"
    · simp only [if_pos hCsrf, if_pos hCsrf.1, csrfWrap, if_pos hCsrf.2]
      split
      · exact .inl ⟨_, rfl, fun _ _ => rfl⟩
      · exact .inr (.inr ⟨_, fun _ _ => rfl⟩)
    · rw [if_neg hCsrf]
      refine .inl ⟨_, rfl, fun h env => ?_⟩
      by_cases hType : endpoint.authType ≠ []
      · rw [if_pos hType, csrfWrap, if_neg fun hWeb => hCsrf ⟨hType, hWeb⟩]
      · rw [if_neg hType]

theorem modest_authenticateWrap (authType : GoString) (hHandle : ∀ auth, Modest n (h env r auth)) :
    Modest (2 + n) (srv.authenticateWrap authType h env r auth) := by
  refine (modest_authenticate.attempt HttpError.isPanic).bind fun result => ?_
  cases result with
  | error e =>
    dsimp only
    split
    · exact hHandle none
    · split
      · exact .pure _
      · exact .fail _
  | ok a =>
    dsimp only
    split
    · exact hHandle (some a)
    · exact .fail _

/-- What happens between the two calls on the mutex. -/
theorem modest_inner (handler : Handle Reply) (hHandle : ∀ r' auth, Modest 7 (handler env r' auth)) :
    Modest 9 (srv.authenticateWrap endpoint.authType (srv.checksWrap endpoint handler) env r auth) :=
  modest_authenticateWrap _ fun auth => modest_checksWrap fun r' => hHandle r' auth

theorem modest_endpoint (endpoint : Endpoint) (r : Request) (auth : Option Auth) :
    Modest 7 (endpoint.handle srv env r auth) := by
  unfold Endpoint.handle
  cases endpoint.handler r.method with
  | none => exact .fail _
  | some handler => exact modest_handle handler

end Server

/-! ## Whole actions -/

/-- The mutex that an action takes. -/
def Action.mutex : Action → Option GoString
  | .serve _ _ r => (authTokenFromRequest r).map AuthToken.email
  | .clean _ _ => none

/-- The most calls that an action can make. -/
def Action.bound : Action → Nat
  | .serve _ _ _ => 11
  | .clean _ keys => keys.length + 1

namespace Server

variable {srv : Server} {env : Env} {r : Request} {endpoint : Endpoint}

theorem ended_handleErrorWrap_rest (result : Except HttpError Reply) :
    Program.Ended (R := Call.Resp) (ε := HttpError) (match result with
      | .ok reply => .pure reply
      | .error e => .pure (srv.handleError r e)) := by
  cases result with
  | ok reply => exact .pure _
  | error e => exact .pure _

theorem ended_handlePanicWrap_rest (result : Except HttpError Reply) :
    Program.Ended (R := Call.Resp) (match result with
      | .ok reply => (.pure reply : Serve Reply)
      | .error .panic => .fail (.serverError .panicked)
      | .error e => .fail e) := by
  rcases result with e | reply
  · cases e <;> exact .fail _
  · exact .pure _

/-- The two outermost wrappers only look at how the rest ends. -/
theorem wrapped_eq (srv : Server) (endpoint : Endpoint) (h : Handle Reply) (env : Env) (r : Request) :
    ∃ f g, (∀ result, (f result : Serve Reply).Ended) ∧ (∀ result, (g result : Serve Reply).Ended) ∧
      srv.wrap endpoint h env r none =
        ((((checkMethodWrap endpoint (lockAccountWrap
          (srv.authenticateWrap endpoint.authType (srv.checksWrap endpoint h))) env r none).attempt
            fun _ => false).bind f).attempt fun _ => false).bind g :=
  ⟨_, _, ended_handlePanicWrap_rest, ended_handleErrorWrap_rest, rfl⟩

theorem keeps_lockAccountWrap {σ : Type} {S : Interp StorageCall.Resp σ} {h : Handle Reply} {n : Nat}
    (hHandle : Modest n (h env r none)) :
    (World.mutexes S).Keeps Call.known ((authTokenFromRequest r).map AuthToken.email)
      (lockAccountWrap h env r none) := by
  unfold lockAccountWrap
  cases authTokenFromRequest r with
  | none => exact ⟨n, hHandle⟩
  | some t => exact ⟨rfl, fun _ _ => Mutexes.releases_ensure hHandle rfl fun r => .pure r⟩

/-- A request takes the mutex of its credential first and gives it back last. -/
theorem keeps_serve {σ : Type} (S : Interp StorageCall.Resp σ) :
    (World.mutexes S).Keeps Call.known ((authTokenFromRequest r).map AuthToken.email)
      (srv.serve endpoint env r) := by
  obtain ⟨f, g, hf, hg, hEq⟩ := wrapped_eq srv endpoint (endpoint.handle srv) env r
  rw [serve, wrapEndpoint, hEq]
  apply Mutexes.Keeps.bind _ hg
  apply Mutexes.Keeps.attempt
  apply Mutexes.Keeps.bind _ hf
  apply Mutexes.Keeps.attempt
  unfold checkMethodWrap
  split
  · exact Mutexes.Keeps.of_ended (.fail _)
  · exact keeps_lockAccountWrap (modest_inner _ (modest_endpoint endpoint))

theorem bounded_serve :
    (srv.serve endpoint env r).Bounded Call.known (fun _ => True) 11 := by
  obtain ⟨f, g, hf, hg, hEq⟩ := wrapped_eq srv endpoint (endpoint.handle srv) env r
  have hInner : (srv.authenticateWrap endpoint.authType (srv.checksWrap endpoint
      (endpoint.handle srv)) env r none).Bounded Call.known (fun _ => True) 9 :=
    (modest_inner _ (modest_endpoint endpoint)).weaken fun _ _ => trivial
  rw [serve, wrapEndpoint, hEq]
  refine .bind_ended (.attempt _ (.bind_ended (.attempt _ ?_) fun a => (hf a).bounded))
    fun a => (hg a).bounded
  unfold checkMethodWrap
  split
  · exact .fail _
  · unfold lockAccountWrap
    cases authTokenFromRequest r with
    | none => exact hInner.mono (by omega)
    | some t => exact .call trivial fun _ _ => hInner.ensure (n := 1) (.request trivial)

/-- Every request gets a reply. -/
theorem answers_serve : (srv.serve endpoint env r).Answers fun _ => True := by
  refine (Program.Answers.attempt _).bind fun result _ => ?_
  cases result with
  | ok reply => trivial
  | error e => trivial

theorem modest_deleteOld (now : Time) (requests : List AuthRequest) :
    Modest requests.length (deleteOld now requests) := by
  induction requests with
  | nil => exact .pure _
  | cons ar requests ih =>
    rw [deleteOld]
    split
    · exact .call rfl fun _ => ih
    · exact ih.mono (Nat.le_succ _)

theorem modest_cleanAuthRequests (now : Time) (keys : List GoString) :
    Modest (keys.length + 1) (cleanAuthRequests now keys) := by
  refine ⟨rfl, ?_⟩
  intro answer hKnown
  rcases answer with e | records
  · exact .pure _
  · exact (modest_deleteOld now records).mono (hKnown records rfl)

theorem answers_deleteOld (now : Time) (requests : List AuthRequest) :
    (deleteOld now requests).Answers fun _ => True := by
  induction requests with
  | nil => trivial
  | cons ar requests ih =>
    rw [deleteOld]
    split
    · exact fun _ => ih
    · exact ih

end Server

namespace Action

variable {srv : Server}

theorem keeps_program {σ : Type} (S : Interp StorageCall.Resp σ) (action : Action) :
    (World.mutexes S).Keeps Call.known action.mutex (action.program srv) := by
  cases action with
  | serve endpoint env r =>
    exact (Server.keeps_serve S).bind fun reply => Program.Ended.pure (some reply)
  | clean now keys =>
    have hModest := (Server.modest_cleanAuthRequests now keys).bind_ended fun _ =>
      .pure (none : Option Reply)
    exact ⟨_, hModest⟩

theorem bounded_program (action : Action) :
    (action.program srv).Bounded Call.known (fun _ => True) action.bound := by
  cases action with
  | serve endpoint env r => exact Server.bounded_serve.bind_ended fun reply => .pure (some reply)
  | clean now keys =>
    exact ((Server.modest_cleanAuthRequests now keys).weaken fun _ _ => trivial).bind_ended
      fun _ => .pure none

/-- Requests end with a reply. -/
theorem answers_program (action : Action) :
    (action.program srv).Answers fun reply =>
      (∃ endpoint env r, action = .serve endpoint env r) → reply.isSome := by
  cases action with
  | serve endpoint env r => exact Server.answers_serve.bind fun reply _ _ => rfl
  | clean now keys =>
    have hEnds : (Server.cleanAuthRequests now keys).Answers fun _ => True := by
      intro answer
      cases answer with
      | error e => trivial
      | ok records => exact Server.answers_deleteOld now records
    refine hEnds.bind fun _ _ => ?_
    rintro ⟨endpoint, env, r, hEq⟩
    cases hEq

end Action

end PadlockCloud
