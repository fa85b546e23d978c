import PadlockCloud.Model.Middleware

/-!
# Admission

What the middleware does with a request, said once for every endpoint and for
every handler. `authenticated` and `admitted` are functions of the tables: the
outcome of `Authenticate`, and the arguments with which the handler is called
if it is called at all. The two theorems about `wrap` reduce a whole request to
the run of its handler, or to a reply that no handler had a part in.
-/

namespace PadlockCloud

open Process

/-- The calls of the server over tables. -/
abbrev exec (b : Backend) : Interp Call.Resp (World Tables) := World.step (Tables.step b)

@[simp] theorem orFail_ok {α : Type} (a : α) : orFail (.ok a : Except StorageError α) = .pure a :=
  rfl

@[simp] theorem orFail_error {α : Type} (e : StorageError) :
    orFail (.error e : Except StorageError α) = .fail (.serverError (.storage e)) := rfl

namespace Server

variable {srv : Server} {b : Backend} {env : Env} {r : Request}

/-! ## Authentication -/

/-- The outcome of `Authenticate`. -/
def authenticated (srv : Server) (b : Backend) (env : Env) (r : Request) (T : Tables) :
    Except HttpError Auth :=
  match authTokenFromRequest r with
  | none => .error (.invalidAuthToken [] [])
  | some t =>
    match T.accounts t.email with
    | none => .error (.invalidAuthToken t.email t.token)
    | some acc =>
      (srv.acceptToken env r t acc).map fun auth => ⟨auth.token, b.prepare env.now auth.account⟩

/-- The tables after `Authenticate`: an accepted token has been written back. -/
def authTables (b : Backend) (T : Tables) : Except HttpError Auth → Tables
  | .ok auth => T.putAccount auth.account.email (some (auth.account.marshal b.json))
  | .error _ => T

theorem run_authenticate (w : World Tables) :
    (srv.authenticate env r).run (exec b) w =
      (srv.authenticated b env r w.storage,
        { w with storage := authTables b w.storage (srv.authenticated b env r w.storage) }) := by
  unfold authenticate authenticated
  cases authTokenFromRequest r with
  | none => rfl
  | some t =>
    simp only [Program.bind_eq, store, Program.request_bind, Program.run_call, World.step,
      Tables.step]
    cases hFound : w.storage.accounts t.email with
    | none => simp [lookup, hFound, authTables]
    | some acc =>
      simp only [lookup, hFound]
      cases srv.acceptToken env r t acc with
      | error e => rfl
      | ok auth => rfl

/-! ## The other checks -/

/-- The request that the checks of the version and of the CSRF token hand on. -/
def checked (srv : Server) (endpoint : Endpoint) (r : Request) (auth : Option Auth) :
    Option Request :=
  let (found, r') := srv.versionFromRequest r
  if GoString.contains (r.header .authorization) (lit "ApiKey") ∨
      (endpoint.version ≠ 0 ∧ found ≠ endpoint.version) then none
  else if endpoint.authType ≠ [] ∧ auth.any (fun a => a.token.type = lit "web") then
    if (srv.csrf.protect r').1 then some (srv.csrf.protect r').2 else none
  else some r'

/-- The arguments of the handler, if the request gets as far as that. -/
def admitted (srv : Server) (b : Backend) (endpoint : Endpoint) (env : Env) (r : Request)
    (T : Tables) : Option (Request × Option Auth) :=
  if (endpoint.handler r.method).isNone then none
  else
    match srv.authenticated b env r T with
    | .error e =>
      if e.isPanic ∨ endpoint.authType ≠ [] then none
      else (srv.checked endpoint r none).map fun r' => (r', none)
    | .ok auth =>
      if typeAllowed endpoint.authType auth.token then
        (srv.checked endpoint r (some auth)).map fun r' => (r', some auth)
      else none

/-- The checks parse the form of a request without a version in its `Accept`
header, and that of a web client that does not send its CSRF token in the
header. -/
def parsesForm (endpoint : Endpoint) (r : Request) (auth : Option Auth) : Bool :=
  (acceptVersion (r.header .accept)).isNone ||
    endpoint.authType ≠ [] && auth.any (fun a => a.token.type = lit "web") &&
      r.method ∉ safeMethods && r.header .csrfToken = []

/-- What the checks hand on is the request itself or the request with its form
parsed. -/
theorem checked_eq {endpoint : Endpoint} {auth : Option Auth} {r' : Request}
    (hChecked : srv.checked endpoint r auth = some r') :
    r' = if parsesForm endpoint r auth then r.formParsed srv.net else r := by
  have hVersion : (srv.versionFromRequest r).2 =
      if (acceptVersion (r.header .accept)).isNone then r.formParsed srv.net else r := by
    unfold versionFromRequest
    cases acceptVersion (r.header .accept) <;> rfl
  have hHeader : ((srv.versionFromRequest r).2).header = r.header := by
    rw [hVersion]
    split <;> rfl
  have hMethod : ((srv.versionFromRequest r).2).method = r.method := by
    rw [hVersion]
    split <;> rfl
  have hParsed : ((srv.versionFromRequest r).2).formParsed srv.net = r.formParsed srv.net := by
    rw [hVersion]
    split
    · exact Request.formParsed_formParsed _ _
    · rfl
  unfold checked at hChecked
  dsimp only at hChecked
  split at hChecked
  · cases hChecked
  split at hChecked
  · rename_i hCsrf
    simp only [Option.ite_none_right_eq_some, Option.some.injEq] at hChecked
    obtain ⟨hPasses, rfl⟩ := hChecked
    -- The protection is one of three cases: unseen, by header, or by form.
    by_cases hSafe : r.method ∈ safeMethods
    · rw [srv.csrf.safe _ (by rwa [hMethod]), hVersion]
      simp [parsesForm, hSafe]
    · by_cases hToken : r.header .csrfToken = []
      · rw [srv.csrf.form_second _ (by rwa [hMethod]) (by rwa [hHeader]) hPasses, hParsed]
        simp [parsesForm, hSafe, hToken, hCsrf]
      · rw [srv.csrf.header_first _ (by rwa [hMethod]) (by rwa [hHeader]) hPasses, hVersion]
        simp [parsesForm, hToken]
  · rename_i hCsrf
    cases hChecked
    rw [hVersion]
    have hFree :
        (endpoint.authType ≠ [] && auth.any (fun a => a.token.type = lit "web")) = false := by
      simpa using hCsrf
    simp only [parsesForm, hFree, Bool.false_and, Bool.or_false]

theorem checked_method {endpoint : Endpoint} {auth : Option Auth} {r' : Request}
    (hChecked : srv.checked endpoint r auth = some r') : r'.method = r.method := by
  rw [checked_eq hChecked]
  split <;> rfl

/-! ## The chain -/

/-- The mutex of the request's credential is taken, or given back. -/
def locking (r : Request) (held : Bool) (w : World Tables) : World Tables :=
  match authTokenFromRequest r with
  | some t => { w with held := Function.update w.held t.email held }
  | none => w

/-- The reply for what a handler ends with. -/
def settle (srv : Server) (r : Request) : Except HttpError Reply → Reply
  | .ok reply => reply
  | .error e => srv.handleError r (if e.isPanic then .serverError .panicked else e)

/-- The world in which the handler of an admitted request starts. -/
def entered (srv : Server) (b : Backend) (env : Env) (r : Request) (w : World Tables) :
    World Tables :=
  { locking r true w with
    storage := authTables b w.storage (srv.authenticated b env r w.storage) }

theorem run_handleErrorWrap (h : Handle Reply) (auth : Option Auth) (w : World Tables) :
    (srv.handleErrorWrap (handlePanicWrap h) env r auth).run (exec b) w =
      (.ok (srv.settle r ((h env r auth).run (exec b) w).1), ((h env r auth).run (exec b) w).2) := by
  simp only [handleErrorWrap, handlePanicWrap, Program.bind_eq, Program.run_bind,
    Program.run_attempt, Bool.false_eq_true, if_false]
  rcases (h env r auth).run (exec b) w with ⟨e | reply, w'⟩
  · cases e <;> rfl
  · rfl

theorem run_lockAccountWrap (h : Handle Reply) (auth : Option Auth) (w : World Tables) :
    (lockAccountWrap h env r auth).run (exec b) w =
      (((h env r auth).run (exec b) (locking r true w)).1,
        locking r false ((h env r auth).run (exec b) (locking r true w)).2) := by
  unfold lockAccountWrap locking
  cases authTokenFromRequest r with
  | none => rfl
  | some t =>
    simp only [Program.bind_eq, Program.request_bind, Program.run_call, Program.run_ensure]
    rfl

/-- A reply that the middleware gives by itself: an error, or the redirect of an
endpoint for web clients to the login page. -/
def Rejected (endpoint : Endpoint) (reply : Reply) : Prop :=
  400 ≤ reply.status ∨ (endpoint.authType = lit "web" ∧ reply.status = 302)

theorem settle_error_status (srv : Server) (r : Request) (e : HttpError) :
    400 ≤ (srv.settle r (.error e)).status :=
  HttpError.status_ge _

theorem rejected_error (endpoint : Endpoint) (e : HttpError) :
    Rejected endpoint (srv.settle r (.error e)) :=
  .inl (settle_error_status srv r e)

theorem run_sendDeprecatedVersionEmail (srv : Server) (b : Backend) (env : Env) (r : Request)
    (w : World Tables) :
    ∃ result outbox, (srv.sendDeprecatedVersionEmail env r).run (exec b) w =
      (result, { w with outbox }) := by
  unfold sendDeprecatedVersionEmail
  cases srv.deprecatedVersionRecipient r with
  | none => exact ⟨_, _, rfl⟩
  | some email =>
    simp only [orPanic, Program.bind_eq, Program.pure_bind]
    split
    · cases srv.templates.deprecatedVersionEmail <;> exact ⟨_, _, rfl⟩
    · exact ⟨_, _, rfl⟩

/-- The chain inside of `Authenticate`. -/
def checksWrap (srv : Server) (endpoint : Endpoint) (h : Handle Reply) : Handle Reply :=
  srv.checkEndpointVersionWrap endpoint.version
    (if endpoint.authType ≠ [] then srv.csrfWrap h else h)

theorem run_checksWrap_some {endpoint : Endpoint} {auth : Option Auth} {r' : Request}
    (hChecked : srv.checked endpoint r auth = some r') (h : Handle Reply) (w : World Tables) :
    (srv.checksWrap endpoint h env r auth).run (exec b) w = (h env r' auth).run (exec b) w := by
  unfold checked at hChecked
  unfold checksWrap checkEndpointVersionWrap
  dsimp only at hChecked ⊢
  split at hChecked
  · cases hChecked
  · rename_i hVersion
    rw [if_neg hVersion]
    split at hChecked
    · rename_i hCsrf
      simp only [Option.ite_none_right_eq_some, Option.some.injEq] at hChecked
      obtain ⟨hPasses, rfl⟩ := hChecked
      rw [if_pos hCsrf.1, csrfWrap, if_pos hCsrf.2]
      dsimp only
      rw [if_pos hPasses]
    · rename_i hCsrf
      cases hChecked
      by_cases hType : endpoint.authType ≠ []
      · rw [if_pos hType, csrfWrap, if_neg fun hWeb => hCsrf ⟨hType, hWeb⟩]
      · rw [if_neg hType]

/-- A request that fails a check is answered without regard to the handler. -/
theorem run_checksWrap_none {endpoint : Endpoint} {auth : Option Auth}
    (hChecked : srv.checked endpoint r auth = none) (w : World Tables) :
    ∃ result outbox, (∀ h, (srv.checksWrap endpoint h env r auth).run (exec b) w =
      (result, { w with outbox })) ∧ Rejected endpoint (srv.settle r result) := by
  unfold checked at hChecked
  unfold checksWrap checkEndpointVersionWrap
  dsimp only at hChecked ⊢
  split at hChecked
  · rename_i hVersion
    simp only [if_pos hVersion]
    obtain ⟨result, outbox, hRun⟩ :=
      run_sendDeprecatedVersionEmail srv b env (srv.versionFromRequest r).2 w
    simp only [Program.bind_eq, Program.run_bind, hRun]
    cases result with
    | error e => exact ⟨_, _, fun _ => rfl, rejected_error endpoint e⟩
    | ok u => exact ⟨_, _, fun _ => rfl, rejected_error endpoint _⟩
  · rename_i hVersion
    simp only [if_neg hVersion]
    split at hChecked
    · rename_i hCsrf
      split at hChecked
      · cases hChecked
      · rename_i hFails
        refine ⟨.ok (srv.handleError (srv.versionFromRequest r).2 .invalidCsrfToken), w.outbox,
          fun h => ?_, .inl ?_⟩
        · rw [if_pos hCsrf.1, csrfWrap, if_pos hCsrf.2]
          dsimp only
          rw [if_neg hFails]
          rfl
        · exact HttpError.status_ge .invalidCsrfToken
    · cases hChecked

theorem wrap_eq (endpoint : Endpoint) (h : Handle Reply) :
    srv.wrap endpoint h =
      srv.handleErrorWrap (handlePanicWrap (checkMethodWrap endpoint (lockAccountWrap
        (srv.authenticateWrap endpoint.authType (srv.checksWrap endpoint h))))) := rfl

@[simp] theorem locking_storage (r : Request) (held : Bool) (w : World Tables) :
    (locking r held w).storage = w.storage := by
  unfold locking
  split <;> rfl

section Inner

variable {endpoint : Endpoint} {w : World Tables} {r' : Request} {auth : Option Auth}

/-- `Authenticate` and the checks hand an admitted request on to the handler. -/
theorem run_authenticateWrap_admitted
    (hAdmitted : srv.admitted b endpoint env r w.storage = some (r', auth)) (h : Handle Reply) :
    (srv.authenticateWrap endpoint.authType (srv.checksWrap endpoint h) env r none).run (exec b)
      (locking r true w) = (h env r' auth).run (exec b) (srv.entered b env r w) := by
  rw [authenticateWrap, Program.bind_eq, Program.run_attempt_bind, run_authenticate,
    locking_storage]
  rw [admitted, Option.ite_none_left_eq_some] at hAdmitted
  replace hAdmitted := hAdmitted.2
  cases hAuth : srv.authenticated b env r w.storage with
  | error e =>
    simp only [hAuth] at hAdmitted
    split at hAdmitted
    · cases hAdmitted
    · rename_i hOpen
      simp only [Option.map_eq_some_iff, Prod.mk.injEq] at hAdmitted
      obtain ⟨r'', hChecked, rfl, rfl⟩ := hAdmitted
      have hType : endpoint.authType = [] := by
        by_contra hNe
        exact hOpen (.inr hNe)
      simp only [if_neg fun hPanic => hOpen (.inl hPanic), if_pos hType]
      rw [run_checksWrap_some hChecked, entered, hAuth]
  | ok auth' =>
    simp only [hAuth, Option.ite_none_right_eq_some, Option.map_eq_some_iff,
      Prod.mk.injEq] at hAdmitted
    obtain ⟨hType, r'', hChecked, rfl, rfl⟩ := hAdmitted
    simp only [if_pos hType]
    rw [run_checksWrap_some hChecked, entered, hAuth]

/-- They turn every other request away, unless there is no handler for its method. -/
theorem run_authenticateWrap_rejected (hMethod : ¬(endpoint.handler r.method).isNone)
    (hAdmitted : srv.admitted b endpoint env r w.storage = none) :
    ∃ result w', (∀ h, (srv.authenticateWrap endpoint.authType (srv.checksWrap endpoint h) env r
      none).run (exec b) (locking r true w) = (result, w')) ∧
      Rejected endpoint (srv.settle r result) ∧
      w'.storage = authTables b w.storage (srv.authenticated b env r w.storage) := by
  rw [admitted, if_neg hMethod] at hAdmitted
  simp only [authenticateWrap, Program.bind_eq, Program.run_attempt_bind, run_authenticate,
    locking_storage]
  cases hAuth : srv.authenticated b env r w.storage with
  | error e =>
    simp only [hAuth] at hAdmitted
    by_cases hPanic : e.isPanic
    · simp only [if_pos hPanic]
      exact ⟨_, _, fun _ => rfl, rejected_error endpoint _, rfl⟩
    · simp only [if_neg hPanic]
      by_cases hType : endpoint.authType = []
      · rw [if_neg (by simp [hPanic, hType]), Option.map_eq_none_iff] at hAdmitted
        simp only [if_pos hType]
        obtain ⟨result, outbox, hRun, hResult⟩ := run_checksWrap_none hAdmitted _
        exact ⟨_, _, hRun, hResult, rfl⟩
      · simp only [if_neg hType]
        split
        · rename_i hWeb
          exact ⟨_, _, fun _ => rfl, .inr ⟨hWeb, rfl⟩, rfl⟩
        · exact ⟨_, _, fun _ => rfl, rejected_error endpoint _, rfl⟩
  | ok auth' =>
    simp only [hAuth] at hAdmitted
    split at hAdmitted
    · rename_i hType
      rw [Option.map_eq_none_iff] at hAdmitted
      simp only [if_pos hType]
      obtain ⟨result, outbox, hRun, hResult⟩ := run_checksWrap_none hAdmitted _
      exact ⟨_, _, hRun, hResult, rfl⟩
    · rename_i hType
      simp only [if_neg hType]
      exact ⟨_, _, fun _ => rfl, rejected_error endpoint _, rfl⟩

end Inner

/-- The handler of an admitted request decides how the request ends. -/
theorem run_wrap_admitted {endpoint : Endpoint} {w : World Tables} {r' : Request}
    {auth : Option Auth} (hAdmitted : srv.admitted b endpoint env r w.storage = some (r', auth))
    (h : Handle Reply) :
    (srv.wrap endpoint h env r none).run (exec b) w =
      (.ok (srv.settle r ((h env r' auth).run (exec b) (srv.entered b env r w)).1),
        locking r false ((h env r' auth).run (exec b) (srv.entered b env r w)).2) := by
  have hMethod : ¬(endpoint.handler r.method).isNone := by
    intro hNone
    rw [admitted, if_pos hNone] at hAdmitted
    cases hAdmitted
  rw [wrap_eq, run_handleErrorWrap, checkMethodWrap, if_neg hMethod, run_lockAccountWrap,
    run_authenticateWrap_admitted hAdmitted]

/-- A request that is not admitted gets an error or a redirect, whatever the
handler is, and the most that it changes is what `Authenticate` writes back. -/
theorem run_wrap_rejected {endpoint : Endpoint} {w : World Tables}
    (hAdmitted : srv.admitted b endpoint env r w.storage = none) :
    ∃ reply w', (∀ h, (srv.wrap endpoint h env r none).run (exec b) w = (.ok reply, w')) ∧
      Rejected endpoint reply ∧
      (w'.storage = w.storage ∨
        w'.storage = authTables b w.storage (srv.authenticated b env r w.storage)) := by
  simp only [wrap_eq, run_handleErrorWrap]
  by_cases hMethod : (endpoint.handler r.method).isNone
  · simp only [checkMethodWrap, if_pos hMethod]
    exact ⟨_, _, fun _ => rfl, rejected_error endpoint _, .inl rfl⟩
  · obtain ⟨result, w', hRun, hResult, hStorage⟩ := run_authenticateWrap_rejected hMethod hAdmitted
    simp only [checkMethodWrap, if_neg hMethod, run_lockAccountWrap, hRun]
    exact ⟨_, _, fun _ => rfl, hResult, .inr (by rw [locking_storage, hStorage])⟩

/-- A request depends on nothing but what the handler does with the arguments
that it is admitted with. -/
theorem run_wrap_congr {endpoint : Endpoint} {w : World Tables} {h h' : Handle Reply}
    (hSame : ∀ r' auth, srv.admitted b endpoint env r w.storage = some (r', auth) →
      h env r' auth = h' env r' auth) :
    (srv.wrap endpoint h env r none).run (exec b) w =
      (srv.wrap endpoint h' env r none).run (exec b) w := by
  cases hAdmitted : srv.admitted b endpoint env r w.storage with
  | none =>
    obtain ⟨reply, w', hRun, -⟩ := run_wrap_rejected hAdmitted
    rw [hRun, hRun]
  | some pair =>
    obtain ⟨r', auth⟩ := pair
    rw [run_wrap_admitted hAdmitted, run_wrap_admitted hAdmitted, hSame r' auth hAdmitted]

/-! ## Served requests -/

/-- A request that was not turned away reached its handler, with the reply and
the tables that the handler gave. -/
theorem admitted_of_serve {endpoint : Endpoint} {w w' : World Tables} {reply : Reply}
    (hRun : (srv.serve endpoint env r).run (exec b) w = (.ok reply, w'))
    (hReply : ¬Rejected endpoint reply) :
    ∃ r' auth, srv.admitted b endpoint env r w.storage = some (r', auth) ∧
      ((endpoint.handle srv env r' auth).run (exec b) (srv.entered b env r w)).1 = .ok reply ∧
      w'.storage =
        ((endpoint.handle srv env r' auth).run (exec b) (srv.entered b env r w)).2.storage := by
  rw [serve, wrapEndpoint] at hRun
  cases hAdmitted : srv.admitted b endpoint env r w.storage with
  | none =>
    obtain ⟨rejection, u, hRejected, hRejection, -⟩ :=
      run_wrap_rejected hAdmitted
    rw [hRejected] at hRun
    cases hRun
    exact absurd hRejection hReply
  | some pair =>
    obtain ⟨r', auth⟩ := pair
    rw [run_wrap_admitted hAdmitted, Prod.mk.injEq, Except.ok.injEq] at hRun
    obtain ⟨hSettled, rfl⟩ := hRun
    refine ⟨r', auth, rfl, ?_, locking_storage _ _ _⟩
    cases hResult : ((endpoint.handle srv env r' auth).run (exec b) (srv.entered b env r w)).1 with
    | error e =>
      rw [hResult] at hSettled
      subst hSettled
      exact absurd (rejected_error endpoint e) hReply
    | ok a =>
      rw [hResult] at hSettled
      exact congrArg _ hSettled

/-- An admitted request has a method of the endpoint. -/
theorem admitted_handler {endpoint : Endpoint} {r' : Request} {auth : Option Auth} {T : Tables}
    (hAdmitted : srv.admitted b endpoint env r T = some (r', auth)) :
    ∃ h, endpoint.handler r.method = some h ∧ r'.method = r.method := by
  unfold admitted at hAdmitted
  split at hAdmitted
  · cases hAdmitted
  · rename_i hMethod
    rw [Option.isNone_iff_eq_none] at hMethod
    obtain ⟨h, hHandler⟩ := Option.ne_none_iff_exists'.mp hMethod
    refine ⟨h, hHandler, ?_⟩
    cases hAuth : srv.authenticated b env r T with
    | error e =>
      simp only [hAuth] at hAdmitted
      split at hAdmitted
      · cases hAdmitted
      · simp only [Option.map_eq_some_iff, Prod.mk.injEq] at hAdmitted
        obtain ⟨r'', hChecked, rfl, -⟩ := hAdmitted
        exact checked_method hChecked
    | ok a =>
      simp only [hAuth, Option.ite_none_right_eq_some, Option.map_eq_some_iff,
        Prod.mk.injEq] at hAdmitted
      obtain ⟨-, r'', hChecked, rfl, -⟩ := hAdmitted
      exact checked_method hChecked

/-- The token that an admitted request carries is the authenticated one. -/
theorem admitted_some {endpoint : Endpoint} {r' : Request} {a : Auth} {T : Tables}
    (hAdmitted : srv.admitted b endpoint env r T = some (r', some a)) :
    srv.authenticated b env r T = .ok a := by
  unfold admitted at hAdmitted
  split at hAdmitted
  · cases hAdmitted
  · cases hAuth : srv.authenticated b env r T with
    | error e =>
      simp only [hAuth] at hAdmitted
      split at hAdmitted
      · cases hAdmitted
      · simp at hAdmitted
    | ok a' =>
      simp only [hAuth, Option.ite_none_right_eq_some, Option.map_eq_some_iff, Prod.mk.injEq,
        Option.some.injEq] at hAdmitted
      obtain ⟨-, r'', -, -, rfl⟩ := hAdmitted
      rfl

/-- What a handler of an endpoint with authentication gets. -/
theorem admitted_auth {endpoint : Endpoint} {r' : Request} {auth : Option Auth} {T : Tables}
    (hAdmitted : srv.admitted b endpoint env r T = some (r', auth))
    (hType : endpoint.authType ≠ []) :
    ∃ a, auth = some a ∧ srv.authenticated b env r T = .ok a ∧
      typeAllowed endpoint.authType a.token = true ∧
      srv.checked endpoint r (some a) = some r' := by
  unfold admitted at hAdmitted
  split at hAdmitted
  · cases hAdmitted
  · cases hAuth : srv.authenticated b env r T with
    | error e => simp [hAuth, hType] at hAdmitted
    | ok a =>
      simp only [hAuth, Option.ite_none_right_eq_some, Option.map_eq_some_iff,
        Prod.mk.injEq] at hAdmitted
      obtain ⟨hAllowed, r'', hChecked, rfl, rfl⟩ := hAdmitted
      exact ⟨a, rfl, rfl, hAllowed, hChecked⟩

/-- An endpoint may have the same handler for every method that it has one for. -/
theorem handler_of_same {endpoint : Endpoint} {method : GoString} {g h : Handler}
    (hSame : ∀ entry ∈ endpoint.handlers, entry.2 = h)
    (hHandler : endpoint.handler method = some g) : g = h := by
  obtain ⟨entry, hFind, rfl⟩ := Option.map_eq_some_iff.mp hHandler
  exact hSame entry (List.mem_of_find?_eq_some hFind)

/-- A request that succeeds at an endpoint for universal tokens has been authenticated,
and the handler has given the reply. -/
theorem served_universal {endpoint : Endpoint} {w w' : World Tables} {reply : Reply} {h : Handler}
    (hAuthType : endpoint.authType = lit "universal")
    (hSame : ∀ entry ∈ endpoint.handlers, entry.2 = h)
    (hRun : (srv.serve endpoint env r).run (exec b) w = (.ok reply, w'))
    (hReply : reply.status < 400) :
    ∃ r' a, srv.admitted b endpoint env r w.storage = some (r', some a) ∧
      srv.authenticated b env r w.storage = .ok a ∧
      ((h.handle srv env r' (some a)).run (exec b) (srv.entered b env r w)).1 = .ok reply ∧
      w'.storage =
        ((h.handle srv env r' (some a)).run (exec b) (srv.entered b env r w)).2.storage := by
  have hServed : ¬Rejected endpoint reply := by
    rw [Rejected, hAuthType]
    rintro (hError | ⟨hWeb, -⟩)
    · omega
    · revert hWeb
      decide
  obtain ⟨r', auth, hAdmitted, hHandled, hStorage⟩ := admitted_of_serve hRun hServed
  obtain ⟨a, rfl, hAuth, -, -⟩ := admitted_auth hAdmitted (by rw [hAuthType]; decide)
  obtain ⟨g, hHandler, hMethod⟩ := admitted_handler hAdmitted
  obtain rfl := handler_of_same hSame hHandler
  rw [Endpoint.handle_eq (by rwa [hMethod])] at hHandled hStorage
  exact ⟨r', a, hAdmitted, hAuth, hHandled, hStorage⟩

end Server

end PadlockCloud
