import PadlockCloud.Process.Contract
import PadlockCloud.Request.Effect

/-!
# Requests as programs under a contract

The middleware and most of the handlers store neither accounts nor auth requests.
Under a contract that asks nothing of the other calls they are gone through once
here, so that a particular contract has to be checked for `Authenticate` and for
the handlers that store such a record.
-/

namespace PadlockCloud

open Process

/-- The call walks the auth requests. -/
def Call.walks : Call → Prop
  | .storage (.iterator _) => True
  | _ => False

/-- The call stores an account or an auth request, or walks the auth requests. -/
def Call.special : Call → Prop
  | .storage (.putAccount _ _) | .storage (.putAuthRequest _) => True
  | c => c.walks

/-- A call that stores an account or an auth request is what changes the tables. -/
theorem accounts_exec {b : Backend} {c : Call} {w : World Tables} {k : GoString} {acc : Account}
    (hFound : (exec b c w).2.storage.accounts k = some acc) :
    w.storage.accounts k = some acc ∨ ∃ now put, c = .storage (.putAccount now put) ∧
      k = put.email ∧ acc = (b.prepare now put).marshal b.json := by
  rcases c with c | email | email | mail
  · cases c with
    | putAccount now put =>
      simp only [World.step, Tables.step, Tables.putAccount, Function.update_apply,
        Backend.prepare_email] at hFound
      split at hFound
      · rename_i hKey
        exact .inr ⟨now, put, rfl, hKey, (Option.some.inj hFound).symm⟩
      · exact .inl hFound
    | deleteAccount email =>
      simp only [World.step, Tables.step, Tables.putAccount, Function.update_apply] at hFound
      split at hFound
      · cases hFound
      · exact .inl hFound
    | _ => exact .inl hFound
  all_goals exact .inl hFound

theorem authRequests_exec {b : Backend} {c : Call} {w : World Tables} {k : GoString}
    {ar : AuthRequest} (hFound : (exec b c w).2.storage.authRequests k = some ar) :
    w.storage.authRequests k = some ar ∨ ∃ new, c = .storage (.putAuthRequest new) ∧
      k = new.key ∧ ar = new.marshal b.json := by
  rcases c with c | email | email | mail
  · cases c with
    | putAuthRequest new =>
      simp only [World.step, Tables.step, Tables.putAuthRequest, Function.update_apply] at hFound
      split at hFound
      · rename_i hKey
        exact .inr ⟨new, rfl, hKey, (Option.some.inj hFound).symm⟩
      · exact .inl hFound
    | deleteAuthRequest key =>
      simp only [World.step, Tables.step, Tables.putAuthRequest, Function.update_apply] at hFound
      split at hFound
      · cases hFound
      · exact .inl hFound
    | _ => exact .inl hFound
  all_goals exact .inl hFound

/-- Nothing is asked of the other calls. -/
def Lenient (K : Contract Call.Resp) : Prop := ∀ log c, ¬c.special → K.call log c

/-- After any log, the program meets the contract. -/
def Obeys {α : Type} (K : Contract Call.Resp) (post : α → Prop) (p : Serve α) : Prop :=
  ∀ log, p.Meets K (fun _ a => post a) log

namespace Obeys

variable {α β : Type} {K : Contract Call.Resp} {post : α → Prop} {post' : β → Prop} {p : Serve α}

theorem pure {a : α} (hPost : post a) : Obeys K post (.pure a) := fun _ => hPost

theorem fail (e : HttpError) : Obeys K post (.fail e : Serve α) := fun _ => trivial

theorem bind {f : α → Serve β} (hFirst : Obeys K post p)
    (hSecond : ∀ a, post a → Obeys K post' (f a)) : Obeys K post' (p.bind f) := fun log => (hFirst log).bind fun log a hPost => hSecond a hPost log

/-- A call and what follows it, whatever it answers. -/
theorem call {c : Call} {k : c.Resp → Serve α} (hLenient : Lenient K) (hCall : ¬c.special)
    (hRest : ∀ r, Obeys K post (k r)) : Obeys K post (.call c k) :=
  fun log => .call (hLenient log c hCall) fun r _ => hRest r _

theorem attempt (escapes : HttpError → Bool) (hObeys : Obeys K post p) :
    Obeys K (fun result => ∀ a, result = .ok a → post a) (p.attempt escapes) :=
  fun log => (hObeys log).attempt escapes

theorem orFail {result : Except StorageError α} (hPost : ∀ a, result = .ok a → post a) :
    Obeys K post (PadlockCloud.orFail result) := by
  cases result with
  | ok a => exact .pure (hPost a rfl)
  | error e => exact .fail _

theorem orPanic {o : Option α} (hPost : ∀ a, o = some a → post a) :
    Obeys K post (PadlockCloud.orPanic o) := by
  cases o with
  | some a => exact .pure (hPost a rfl)
  | none => exact .fail _

end Obeys

/-- The program meets the contract, and nothing is said of its result. -/
abbrev Complies {α : Type} (K : Contract Call.Resp) (p : Serve α) : Prop :=
  Obeys K (fun _ => True) p

theorem complies_orFail {α : Type} {K : Contract Call.Resp} {result : Except StorageError α} :
    Complies K (orFail result) := .orFail fun _ _ => trivial

theorem complies_orPanic {α : Type} {K : Contract Call.Resp} {o : Option α} :
    Complies K (orPanic o) := .orPanic fun _ _ => trivial

namespace Server

variable {srv : Server} {K : Contract Call.Resp} {A : Auth → Prop} {env : Env} {r : Request}
  {auth : Option Auth} {endpoint : Endpoint} {h : Handle Reply}

/-! ## Middleware -/

theorem complies_sendDeprecatedVersionEmail (hLenient : Lenient K) :
    Complies K (srv.sendDeprecatedVersionEmail env r) := by
  unfold sendDeprecatedVersionEmail
  refine .bind complies_orPanic fun email _ => ?_
  split
  · cases srv.templates.deprecatedVersionEmail with
    | none => exact .pure trivial
    | some body => exact .call hLenient id fun _ => .pure trivial
  · exact .pure trivial

theorem meets_handleErrorWrap {log : List (Event Call.Resp)}
    (hHandle : (h env r auth).Meets K (fun _ _ => True) log) :
    (srv.handleErrorWrap (handlePanicWrap h) env r auth).Meets K (fun _ _ => True) log := by
  have hPanic : (handlePanicWrap h env r auth).Meets K (fun _ _ => True) log := by
    refine (hHandle.attempt _).bind fun log result _ => ?_
    rcases result with (_ | _) | reply <;> trivial
  refine (hPanic.attempt _).bind fun log result _ => ?_
  cases result with
  | ok reply => trivial
  | error e => trivial

section Chain

variable {I : List (Event Call.Resp) → Prop} {B : List (Event Call.Resp) → Auth → Prop}
  {log : List (Event Call.Resp)}

/-- Calls that are not special do not matter for what is known of the log. -/
def Ignores (I : List (Event Call.Resp) → Prop) : Prop :=
  ∀ log c r, ¬c.special → I log → I (⟨c, r⟩ :: log)

theorem meets_lockAccountWrap (hLenient : Lenient K) (hIgnores : Ignores I) (hI : I log)
    (hHandle : ∀ log, I log → (h env r auth).Meets K (fun _ _ => True) log) :
    (lockAccountWrap h env r auth).Meets K (fun _ _ => True) log := by
  unfold lockAccountWrap
  cases authTokenFromRequest r with
  | none => exact hHandle log hI
  | some t =>
    have hUnlock : Complies K (Program.request (Call.unlock t.email) : Serve Unit) :=
      .call hLenient id fun _ => .pure trivial
    refine .call (hLenient log _ id) fun result _ => ?_
    exact (hHandle _ (hIgnores log _ result id hI)).ensure hUnlock

theorem meets_checksWrap (hLenient : Lenient K)
    (hHandle : ∀ r', (h env r' auth).Meets K (fun _ _ => True) log) (protects : Bool)
    (version : Int) :
    (srv.checkEndpointVersionWrap version
      (if protects then srv.csrfWrap h else h) env r auth).Meets K (fun _ _ => True) log := by
  have hCsrf (r' : Request) :
      ((if protects then srv.csrfWrap h else h) env r' auth).Meets K (fun _ _ => True) log := by
    split
    · unfold csrfWrap
      split
      · dsimp only
        split
        · exact hHandle _
        · trivial
      · exact hHandle _
    · exact hHandle _
  unfold checkEndpointVersionWrap
  dsimp only
  split
  · exact (complies_sendDeprecatedVersionEmail hLenient log).bind fun _ _ _ => trivial
  · exact hCsrf _

/-- A request meets a contract if `Authenticate` and the handler do. The handler can
rely on what was known of the log before and on what `Authenticate` ensures. -/
theorem meets_wrap (hLenient : Lenient K) (hIgnores : Ignores I) (hI : I log)
    (hAuthenticate : ∀ log, I log → ((srv.authenticate env r).attempt HttpError.isPanic).Meets K
      (fun log result => I log ∧ ∀ a, result = .ok a → B log a) log)
    (hHandle : ∀ log r' auth, I log → (∀ a, auth = some a → B log a) →
      (h env r' auth).Meets K (fun _ _ => True) log) :
    (srv.wrap endpoint h env r none).Meets K (fun _ _ => True) log := by
  have hInner {log : List (Event Call.Resp)} (hI : I log) (auth : Option Auth)
      (hAuth : ∀ a, auth = some a → B log a) :
      (srv.checkEndpointVersionWrap endpoint.version
        (if endpoint.authType ≠ [] then srv.csrfWrap h else h) env r auth).Meets K
          (fun _ _ => True) log := by
    have hChecks : (srv.checkEndpointVersionWrap endpoint.version
        (if decide (endpoint.authType ≠ []) = true then srv.csrfWrap h else h) env r auth).Meets K
          (fun _ _ => True) log :=
      meets_checksWrap hLenient (fun r' => hHandle log r' auth hI hAuth) _ endpoint.version
    simpa only [decide_eq_true_eq] using hChecks
  refine meets_handleErrorWrap ?_
  unfold checkMethodWrap
  split
  · trivial
  · refine meets_lockAccountWrap hLenient hIgnores hI fun _ hI => ?_
    refine (hAuthenticate _ hI).bind fun _ result hBoth => ?_
    obtain ⟨hI, hResult⟩ := hBoth
    cases result with
    | error e =>
      dsimp only
      split
      · exact hInner hI none nofun
      · split <;> trivial
    | ok a =>
      dsimp only
      split
      · exact hInner hI (some a) fun a' hSome => hResult a' (by rw [Option.some.inj hSome])
      · trivial

end Chain

/-! ## Handlers -/

theorem meets_checkAccount {I : List (Event Call.Resp) → Prop} {log : List (Event Call.Resp)}
    (hReads : ∀ log c, ¬(Call.storage c).special → K.call log (.storage c)) (hIgnores : Ignores I)
    (hI : I log) (email : GoString) :
    (checkAccount r email).Meets K (fun log _ => I log) log := by
  unfold checkAccount
  split
  · exact hI
  · refine .call (hReads log _ id) fun found _ => ?_
    have hI := hIgnores log _ found id hI
    rcases found with (_ | _ | _) | acc
    · trivial
    · refine .call (hReads _ _ id) fun data _ => ?_
      have hI := hIgnores _ _ data id hI
      rcases data with (_ | _ | _) | content <;> first | exact hI | trivial
    · trivial
    · exact hI

theorem complies_authResponse (f : AuthForm) (ar : AuthRequest) :
    Complies K (srv.authResponse r f ar) := by
  unfold authResponse
  dsimp only
  split
  · exact .pure trivial
  · cases srv.templates.loginPage (some f.email)
    · exact .fail _
    · exact .pure trivial

theorem complies_sendActivation (hLenient : Lenient K) (f : AuthForm) (ar : AuthRequest) :
    Complies K (srv.sendActivation env r f ar) := by
  unfold sendActivation
  split
  · exact .pure trivial
  · split
    · exact .fail _
    · cases srv.templates.activateAuthTokenEmail (srv.activationLink r ar) ar.authToken ar.code
      · exact .fail _
      · exact .call hLenient id fun _ => .pure trivial

/-- The stored auth request is new, and it is for a token of a known type. -/
theorem meets_requestAuthToken {I : List (Event Call.Resp) → Prop}
    {log : List (Event Call.Resp)} (hLenient : Lenient K) (hIgnores : Ignores I) (hI : I log)
    (hPut : ∀ log (f : AuthForm) new, I log →
      newAuthRequest env f.email f.type f.actType f.device = some new →
      new.authToken.type = lit "api" ∨ new.authToken.type = lit "web" →
      K.call log (.storage (.putAuthRequest { new with redirect := f.redirect }))) :
    (srv.requestAuthToken env r auth).Meets K (fun _ _ => True) log := by
  unfold requestAuthToken
  dsimp only
  cases hCheck : AuthForm.check srv (srv.authForm r auth) with
  | error e => trivial
  | ok u =>
    have hReads (log : List (Event Call.Resp)) (c : StorageCall) := hLenient log (.storage c)
    refine (meets_checkAccount hReads hIgnores hI _).bind fun log _ hI => ?_
    have hIssue : (issueAuthRequest env (srv.authForm r auth)).Meets K (fun _ _ => True) log := by
      unfold issueAuthRequest
      cases hNew : newAuthRequest env (srv.authForm r auth).email (srv.authForm r auth).type
        (srv.authForm r auth).actType (srv.authForm r auth).device with
      | none => trivial
      | some new =>
        have hType := (AuthForm.check_ok hCheck).2.2.1
        have hSame := (newAuthRequest_key hNew (by rcases hType with h | h <;> rw [h] <;> decide)).2.1
        refine .call (hPut log _ new hI hNew (by rwa [← hSame] at hType)) fun result _ => ?_
        exact complies_orFail.bind (fun _ _ => .pure trivial) _
    refine hIssue.bind fun _ ar _ => ?_
    refine Obeys.bind (complies_authResponse _ ar) (fun response _ => ?_) _
    exact .bind (complies_sendActivation hLenient _ ar) fun _ _ => .pure trivial

theorem complies_requestAuthToken (hLenient : Lenient K)
    (hPut : ∀ log ar, ar.authToken.type = lit "api" ∨ ar.authToken.type = lit "web" →
      K.call log (.storage (.putAuthRequest ar))) :
    Complies K (srv.requestAuthToken env r auth) := fun _ =>
  meets_requestAuthToken (I := fun _ => True) hLenient (fun _ _ _ _ _ => trivial) trivial
    fun log _ _ _ _ hType => hPut log _ hType

/-- The handlers that store no account and no auth request. -/
theorem complies_handle (hLenient : Lenient K) {handler : Handler}
    (hOther : handler ≠ .requestAuthToken ∧ handler ≠ .activateAuthToken ∧ handler ≠ .logout ∧
      handler ≠ .revoke) : Complies K (handler.handle srv env r auth) := by
  cases handler with
  | requestAuthToken => exact absurd rfl hOther.1
  | activateAuthToken => exact absurd rfl hOther.2.1
  | logout => exact absurd rfl hOther.2.2.1
  | revoke => exact absurd rfl hOther.2.2.2
  | readStore =>
    refine .bind complies_orPanic fun a _ => ?_
    refine .call hLenient id fun found => ?_
    rcases found with (_ | _ | _) | content <;> first | exact .pure trivial | exact .fail _
  | writeStore =>
    refine .bind complies_orPanic fun a _ => ?_
    split
    · exact .fail _
    · refine .call hLenient id fun result => ?_
      exact .bind complies_orFail fun _ _ => .pure trivial
  | deleteStore =>
    refine .bind complies_orPanic fun a _ => ?_
    refine .call hLenient id fun result => ?_
    exact .bind complies_orFail fun _ _ => .pure trivial
  | deleteAccount =>
    refine .bind complies_orPanic fun a _ => ?_
    have hDelete : Complies K (deleteAccount a.token.email) :=
      .call hLenient id fun _ => .bind complies_orFail fun _ _ =>
        .call hLenient id fun _ => complies_orFail
    exact .bind hDelete fun _ _ => .pure trivial
  | loginPage =>
    rw [Handler.handle, loginPage]
    cases srv.templates.loginPage none
    · exact .fail _
    · exact .pure trivial
  | dashboard =>
    refine .bind complies_orPanic fun a _ => ?_
    dsimp only
    split
    · exact .pure trivial
    · exact .fail _
  | accountInfo =>
    exact .bind complies_orPanic fun a _ => .pure trivial
  | static => exact .pure trivial
  | root =>
    rw [Handler.handle, root]
    split
    · exact .fail _
    · exact .pure trivial
  | void => exact .pure trivial

/-! ## The cleanup job -/

theorem complies_cleanAuthRequests (hLenient : Lenient K)
    (hWalk : ∀ log keys, K.call log (.storage (.iterator keys))) (now : Time)
    (keys : List GoString) : Complies K (cleanAuthRequests now keys) := by
  have hDelete (requests : List AuthRequest) : Complies K (deleteOld now requests) := by
    induction requests with
    | nil => exact .pure trivial
    | cons ar requests ih =>
      unfold deleteOld
      split
      · exact .call hLenient id fun _ => ih
      · exact ih
  intro log
  refine .call (hWalk log keys) fun found _ => ?_
  cases found with
  | error e => exact trivial
  | ok requests => exact hDelete requests _

end Server

end PadlockCloud
