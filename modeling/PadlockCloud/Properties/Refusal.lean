import PadlockCloud.Model.Standard
import PadlockCloud.Request.Origin

/-!
# What a refused auth request leaves

`RequestAuthToken` refuses a request before or after it has stored the record. The
checks of the form and of the account come before, so such a request leaves nothing
behind. The rate limiter and the templates come after: a request that they refuse
leaves a record that can be activated.
-/

namespace PadlockCloud

open Process

namespace Server

variable {srv : Server} {b : Backend} {env : Env} {r : Request} {auth : Option Auth}
  {w : World Tables} {f : AuthForm} {ar : AuthRequest} {T : Tables} {k email : GoString}

/-- An auth request may be made for the email: it asks for a new account, or there
is one, or at least a data store. -/
def MayRequest (r : Request) (T : Tables) (email : GoString) : Prop :=
  r.method = lit "POST" ∨ (T.accounts email).isSome ∨ (T.dataStores email).isSome

/-- What can go wrong when the record has been stored: the login page, the rate
limiter and the mail. A client that is authenticated already needs none of them. -/
def FailsLater (srv : Server) (env : Env) (r : Request) (f : AuthForm) (ar : AuthRequest) : Prop :=
  f.preauth = false ∧
    (f.type ≠ lit "api" ∧ srv.templates.loginPage (some f.email) = none ∨
      env.rateLimited (ipFromRequest r) f.email = true ∨
      srv.templates.activateAuthTokenEmail (srv.activationLink r ar) ar.authToken ar.code = none)

/-- The request gets as far as storing its record, and is refused then. -/
def RefusedLate (srv : Server) (env : Env) (r : Request) (auth : Option Auth) (T : Tables)
    (ar : AuthRequest) : Prop :=
  Issues srv env r auth ar ∧ MayRequest r T (srv.authForm r auth).email ∧
    FailsLater srv env r (srv.authForm r auth) ar

/-! ## Before the record is stored -/

theorem run_checkAccount_ok (hMay : MayRequest r w.storage email) :
    (checkAccount r email).run (exec b) w = (.ok (), w) := by
  unfold checkAccount
  by_cases hPost : r.method = lit "POST"
  · rw [if_pos hPost, Program.run_pure]
  · rw [if_neg hPost]
    simp only [Program.bind_eq, store, Program.request_bind, Program.run_call, World.step,
      Tables.step, lookup]
    cases hAccount : w.storage.accounts email with
    | some acc => rfl
    | none =>
      obtain ⟨content, hData⟩ : ∃ content, w.storage.dataStores email = some content := by
        rcases hMay with hMethod | hSome | hSome
        · exact absurd hMethod hPost
        · simp [hAccount] at hSome
        · exact Option.isSome_iff_exists.mp hSome
      simp [World.step, Tables.step, lookup, hData]

theorem run_checkAccount_error (hMay : ¬MayRequest r w.storage email) :
    (checkAccount r email).run (exec b) w = (.error (.accountNotFound email), w) := by
  simp only [MayRequest, not_or, Option.not_isSome_iff_eq_none] at hMay
  obtain ⟨hPost, hAccount, hData⟩ := hMay
  unfold checkAccount
  rw [if_neg hPost]
  simp [store, World.step, Tables.step, lookup, hAccount, hData]

/-- A request that does not come to the record changes nothing. -/
theorem refused_early (hNone : ¬∃ ar, Issues srv env r auth ar ∧
    MayRequest r w.storage (srv.authForm r auth).email) :
    ∃ e, (srv.requestAuthToken env r auth).run (exec b) w = (.error e, w) := by
  unfold requestAuthToken
  dsimp only
  cases hCheck : AuthForm.check srv (srv.authForm r auth) with
  | error e => exact ⟨e, rfl⟩
  | ok u =>
    simp only [Program.bind_eq]
    by_cases hMay : MayRequest r w.storage (srv.authForm r auth).email
    · rw [Program.run_bind_ok (run_checkAccount_ok hMay), Program.run_bind, run_issueAuthRequest]
      cases hNew : newAuthRequest env (srv.authForm r auth).email (srv.authForm r auth).type
          (srv.authForm r auth).actType (srv.authForm r auth).device with
      | none => exact ⟨_, rfl⟩
      | some new =>
        exact absurd ⟨_, ⟨hCheck, by rw [hNew, Option.map_some]⟩, hMay⟩ hNone
    · rw [Program.run_bind_error (run_checkAccount_error hMay)]
      exact ⟨_, rfl⟩

/-! ## After the record has been stored -/

/-- The rest of the handler: the response and the mail. -/
def announce (srv : Server) (env : Env) (r : Request) (f : AuthForm) (ar : AuthRequest) :
    Serve Reply := do
  let response ← srv.authResponse r f ar
  srv.sendActivation env r f ar
  .pure { status := 202, body := response }

theorem announce_storage :
    ((announce srv env r f ar).run (exec b) w).2.storage = w.storage := by
  have hQuiet : Quiet b (announce srv env r f ar) :=
    (Program.Keeps.of_id (keeps_authResponse f ar) _).bind fun response =>
      (quiet_sendActivation f ar).bind fun _ => .pure _
  exact hQuiet w

theorem sendActivation_fails (hPreauth : f.preauth = false) :
    (∃ e, ((srv.sendActivation env r f ar).run (exec b) w).1 = .error e) ↔
      env.rateLimited (ipFromRequest r) f.email = true ∨
        srv.templates.activateAuthTokenEmail (srv.activationLink r ar) ar.authToken ar.code =
          none := by
  unfold sendActivation
  rw [if_neg (by simp [hPreauth])]
  cases hLimited : env.rateLimited (ipFromRequest r) f.email with
  | true => simp
  | false =>
    cases hMail : srv.templates.activateAuthTokenEmail (srv.activationLink r ar) ar.authToken
      ar.code with
    | none => simp
    | some body => simp [sendMail, Program.request]

/-- The rest of the handler fails for the reasons listed. -/
theorem announce_fails :
    (∃ e, ((announce srv env r f ar).run (exec b) w).1 = .error e) ↔
      FailsLater srv env r f ar := by
  unfold announce FailsLater
  simp only [Program.bind_eq]
  cases hPreauth : f.preauth with
  | true =>
    rw [authResponse, if_pos (.inr hPreauth), sendActivation, if_pos hPreauth]
    simp
  | false =>
    by_cases hApi : f.type = lit "api"
    · rw [authResponse, if_pos (.inl hApi), ← sendActivation_fails (b := b) (w := w) hPreauth]
      simp only [Program.pure_bind, Program.run_bind, Program.run_pure, hApi]
      cases ((srv.sendActivation env r f ar).run (exec b) w).1 <;> simp
    · rw [authResponse, if_neg (by simp [hApi, hPreauth]),
        ← sendActivation_fails (b := b) (w := w) hPreauth]
      cases srv.templates.loginPage (some f.email) with
      | none => simp [hApi]
      | some page =>
        simp only [Program.pure_bind, Program.run_bind, Program.run_pure]
        cases ((srv.sendActivation env r f ar).run (exec b) w).1 <;> simp

/-- A request that comes to the record stores it, and then goes on. -/
theorem run_requestAuthToken (hIssues : Issues srv env r auth ar)
    (hMay : MayRequest r w.storage (srv.authForm r auth).email) :
    (srv.requestAuthToken env r auth).run (exec b) w =
      (announce srv env r (srv.authForm r auth) ar).run (exec b)
        { w with storage := w.storage.putAuthRequest ar.key (some (ar.marshal b.json)) } := by
  obtain ⟨new, hNew, rfl⟩ := Option.map_eq_some_iff.mp hIssues.new
  unfold requestAuthToken
  dsimp only
  rw [hIssues.check]
  simp only [Program.bind_eq]
  have hIssue : (issueAuthRequest env (srv.authForm r auth)).run (exec b) w = _ :=
    run_issueAuthRequest _
  rw [hNew] at hIssue
  rw [Program.run_bind_ok (run_checkAccount_ok hMay), Program.run_bind_ok hIssue]
  rfl

/-! ## The refusals that leave something -/

theorem putAuthRequest_eq_self {found : Option AuthRequest} :
    T.putAuthRequest k found = T ↔ T.authRequests k = found := by
  constructor
  · intro hSame
    rw [← hSame]
    simp [Tables.putAuthRequest]
  · rintro rfl
    rw [Tables.putAuthRequest, Function.update_eq_self]

/-- A refused request leaves the tables alone, unless it was refused after its
record had been stored and this is a new record. -/
theorem refusal_leaves_nothing :
    ((∃ e, ((srv.requestAuthToken env r auth).run (exec b) w).1 = .error e) →
        ((srv.requestAuthToken env r auth).run (exec b) w).2.storage = w.storage) ↔
      ∀ ar, RefusedLate srv env r auth w.storage ar →
        w.storage.authRequests ar.key = some (ar.marshal b.json) := by
  by_cases hSome : ∃ ar, Issues srv env r auth ar ∧
      MayRequest r w.storage (srv.authForm r auth).email
  · obtain ⟨ar, hIssues, hMay⟩ := hSome
    have hOne {other : AuthRequest} (hOther : Issues srv env r auth other) : other = ar :=
      Option.some.inj (hOther.new.symm.trans hIssues.new)
    rw [run_requestAuthToken hIssues hMay, announce_fails, announce_storage]
    dsimp only
    rw [putAuthRequest_eq_self]
    constructor
    · rintro hThere other ⟨hOther, -, hFails⟩
      obtain rfl := hOne hOther
      exact hThere hFails
    · intro hThere hFails
      exact hThere ar ⟨hIssues, hMay, hFails⟩
  · obtain ⟨e, hRun⟩ := refused_early (b := b) hSome
    rw [hRun]
    refine iff_of_true (fun _ => rfl) ?_
    rintro ar ⟨hIssues, hMay, -⟩
    exact absurd ⟨ar, hIssues, hMay⟩ hSome

/-! ## A client that has sent too much -/

/-- The rate limiter refuses every mail. -/
def limitedEnv : Env := { Env.after 0 (.constant 0) with rateLimited := fun _ _ => true }

def limitedRequest : Request :=
  clientRequest (lit "POST") [] [] (lit "type=api&actType=code&email=e@x.io")

def limitedRun : Except HttpError Reply × World Tables :=
  (standard.requestAuthToken limitedEnv limitedRequest none).run (exec .levelDB) freshWorld

/-- A request that the rate limiter refuses leaves a code for the email. -/
theorem refusal_leaves_request :
    ¬∀ (srv : Server) (b : Backend) (env : Env) (r : Request) (auth : Option Auth)
      (w : World Tables) (e : HttpError),
      ((srv.requestAuthToken env r auth).run (exec b) w).1 = .error e →
      ((srv.requestAuthToken env r auth).run (exec b) w).2.storage = w.storage := by
  intro hAll
  have hRefused : limitedRun.1 = .error .rateLimitExceeded := by decide +kernel
  have hLeft : (limitedRun.2.storage.authRequests (lit "e@x.io-000000")).isSome = true := by
    decide +kernel
  have hSame : limitedRun.2.storage = freshWorld.storage := by
    unfold limitedRun at hRefused ⊢
    exact hAll standard .levelDB limitedEnv limitedRequest none freshWorld _ hRefused
  have hNone : (freshWorld.storage.authRequests (lit "e@x.io-000000")).isSome = true :=
    hSame ▸ hLeft
  cases hNone

end Server

end PadlockCloud
