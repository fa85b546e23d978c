import PadlockCloud.Process.Pool
import PadlockCloud.Request.Contracts
import PadlockCloud.Request.Runs

/-!
# Interleaved requests

Requests and cleanup jobs as the programs of a pool. A call can be performed when
it is not blocked by a mutex that is held; apart from that every order of the calls
is possible.
-/

namespace PadlockCloud

open Process

/-- The program of an action, which ends with the reply of a request. -/
def Action.program (srv : Server) : Action → Serve (Option Reply)
  | .serve endpoint env r => (srv.serve endpoint env r).bind fun reply => .pure (some reply)
  | .clean now keys => (Server.cleanAuthRequests now keys).bind fun _ => .pure none

abbrev ServerPool := Pool Action Call.Resp HttpError (Option Reply) (World Tables)

namespace Server

/-- All interleavings of any number of actions that may start. -/
abbrev Interleaves (srv : Server) (b : Backend) (starts : ServerPool → Action → Prop) :
    ServerPool → ServerPool → Prop :=
  Pool.Steps (exec b) (Action.program srv) starts fun P _ c => c.enabled P.state = true

variable {srv : Server} {K : Contract Call.Resp} {A : Auth → Prop} {env : Env} {r : Request}
  {endpoint : Endpoint}

/-- A request meets a contract if `Authenticate` and the handlers that store
accounts and auth requests do. -/
theorem meets_serve {I : List (Event Call.Resp) → Prop} {B : List (Event Call.Resp) → Auth → Prop}
    {log : List (Event Call.Resp)} (hLenient : Lenient K) (hIgnores : Ignores I) (hI : I log)
    (hAuthenticate : ∀ log, I log → ((srv.authenticate env r).attempt HttpError.isPanic).Meets K
      (fun log result => I log ∧ ∀ a, result = .ok a → B log a) log)
    (hHandle : ∀ log h r' auth, I log → (∀ a, auth = some a → B log a) →
      (h = .requestAuthToken ∨ h = .activateAuthToken ∨ h = .logout ∨ h = .revoke) →
        (Handler.handle srv h env r' auth).Meets K (fun _ _ => True) log) :
    (srv.serve endpoint env r).Meets K (fun _ _ => True) log := by
  refine meets_wrap hLenient hIgnores hI hAuthenticate fun log r' auth hI hAuth => ?_
  unfold Endpoint.handle
  cases endpoint.handler r'.method with
  | none => trivial
  | some h =>
    by_cases hStores : h = .requestAuthToken ∨ h = .activateAuthToken ∨ h = .logout ∨ h = .revoke
    · exact hHandle log h r' auth hI hAuth hStores
    · push Not at hStores
      exact complies_handle hLenient hStores log

/-- The same where nothing has to be known of the log. -/
theorem complies_serve (hLenient : Lenient K) (hAuthenticate : Obeys K A (srv.authenticate env r))
    (hHandle : ∀ h r' auth, (∀ a, auth = some a → A a) →
      (h = .requestAuthToken ∨ h = .activateAuthToken ∨ h = .logout ∨ h = .revoke) →
        Complies K (Handler.handle srv h env r' auth)) :
    Complies K (srv.serve endpoint env r) := fun _ =>
  meets_serve (I := fun _ => True) (B := fun _ => A) hLenient (fun _ _ _ _ _ => trivial) trivial
    (fun log _ => (hAuthenticate.attempt _ log).mono fun _ _ hResult => ⟨trivial, hResult⟩)
    fun log h r' auth _ hAuth hStores => hHandle h r' auth hAuth hStores log

theorem complies_program (hLenient : Lenient K)
    (hWalk : ∀ log keys, K.call log (.storage (.iterator keys)))
    (hServe : ∀ endpoint env r, Complies K (srv.serve endpoint env r)) (action : Action) :
    Complies K (action.program srv) := by
  cases action with
  | serve endpoint env r => exact (hServe endpoint env r).bind fun _ _ => .pure trivial
  | clean now keys =>
    exact (complies_cleanAuthRequests hLenient hWalk now keys).bind fun _ _ => .pure trivial

end Server

end PadlockCloud
