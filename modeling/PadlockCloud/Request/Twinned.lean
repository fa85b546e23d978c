import PadlockCloud.Process.Twins
import PadlockCloud.Request.Bounds

/-!
# Twin requests

The middleware around a handler is like the middleware around its twin: where
authentication comes to the same result, a request and its twin do alike as soon as the
handlers do.
-/

namespace PadlockCloud

open Process

namespace Server

variable {srv : Server} {endpoint : Endpoint} {env env' : Env} {r : Request} {auth : Option Auth}
  {h : Handle Reply} {K : Likeness Call.Resp} {good : Auth → Prop} {post : Reply → Reply → Prop}

/-- The two requests make alike calls and get related replies. -/
abbrev Twinned (K : Likeness Call.Resp) (post : Reply → Reply → Prop) (env env' : Env)
    (h : Handle Reply) (r : Request) (auth : Option Auth) : Prop :=
  (h env r auth).Like K post (h env' r auth)

theorem twinned_handlePanicWrap (hHandle : Twinned K post env env' h r auth) :
    Twinned K post env env' (handlePanicWrap h) r auth := by
  refine (hHandle.attempt _).bind ?_
  rintro _ _ (⟨reply, reply', rfl, rfl, hLike⟩ | ⟨e, rfl, rfl⟩)
  · exact .pure hLike
  · cases e <;> exact .fail _

theorem twinned_handleErrorWrap (hRefl : ∀ reply, post reply reply)
    (hHandle : Twinned K post env env' h r auth) :
    Twinned K post env env' (srv.handleErrorWrap h) r auth := by
  refine (hHandle.attempt _).bind ?_
  rintro _ _ (⟨reply, reply', rfl, rfl, hLike⟩ | ⟨e, rfl, rfl⟩)
  · exact .pure hLike
  · exact .pure (hRefl _)

theorem twinned_lockAccountWrap (hLock : ∀ email, K.call (.lock email) (.lock email))
    (hUnlock : ∀ email, K.call (.unlock email) (.unlock email))
    (hHandle : Twinned K post env env' h r auth) :
    Twinned K post env env' (lockAccountWrap h) r auth := by
  unfold Twinned lockAccountWrap
  cases authTokenFromRequest r with
  | none => exact hHandle
  | some t =>
    refine .call (hLock t.email) fun _ _ _ => hHandle.ensure ?_
    exact .call (hUnlock t.email) fun _ _ _ => .pure trivial

theorem twinned_checksWrap (hRefl : ∀ reply, post reply reply)
    (hMail : ∀ r', (srv.sendDeprecatedVersionEmail env r').Like K (fun _ _ => True)
      (srv.sendDeprecatedVersionEmail env' r'))
    (hHandle : ∀ r', srv.checked endpoint r auth = some r' → Twinned K post env env' h r' auth) :
    Twinned K post env env' (srv.checksWrap endpoint h) r auth := by
  unfold Twinned
  rcases checksWrap_cases srv endpoint r auth with
    ⟨r', hChecked, hEq⟩ | ⟨e, hEq⟩ | ⟨reply, hEq⟩
  · rw [hEq, hEq]
    exact hHandle r' hChecked
  · rw [hEq, hEq]
    exact (hMail _).bind fun _ _ _ => .fail e
  · rw [hEq, hEq]
    exact .pure (hRefl reply)

theorem twinned_authenticateWrap (hRefl : ∀ reply, post reply reply)
    (hAuthenticate : (srv.authenticate env r).Like K (fun a a' => a' = a ∧ good a)
      (srv.authenticate env' r))
    (hHandle : ∀ auth, (∀ a, auth = some a → good a) → Twinned K post env env' h r auth) :
    Twinned K post env env' (srv.authenticateWrap endpoint.authType h) r none := by
  refine (hAuthenticate.attempt _).bind ?_
  rintro _ _ (⟨a, _, rfl, rfl, rfl, hGood⟩ | ⟨e, rfl, rfl⟩)
  · dsimp only
    split
    · apply hHandle
      intro a' hSome
      rwa [← Option.some.inj hSome]
    · exact .fail _
  · dsimp only
    split
    · exact hHandle none fun _ hNone => by cases hNone
    · split
      · exact .pure (hRefl _)
      · exact .fail e

/-- A request is like its twin if its handler is. -/
theorem twinned_wrap (hRefl : ∀ reply, post reply reply)
    (hLock : ∀ email, K.call (.lock email) (.lock email))
    (hUnlock : ∀ email, K.call (.unlock email) (.unlock email))
    (hMail : ∀ r', (srv.sendDeprecatedVersionEmail env r').Like K (fun _ _ => True)
      (srv.sendDeprecatedVersionEmail env' r'))
    (hAuthenticate : (srv.authenticate env r).Like K (fun a a' => a' = a ∧ good a)
      (srv.authenticate env' r))
    (hHandle : ∀ r' auth, srv.checked endpoint r auth = some r' → (∀ a, auth = some a → good a) →
      Twinned K post env env' h r' auth) :
    Twinned K post env env' (srv.wrap endpoint h) r none := by
  have hInner : Twinned K post env env'
      (srv.authenticateWrap endpoint.authType (srv.checksWrap endpoint h)) r none := by
    apply twinned_authenticateWrap hRefl hAuthenticate
    intro auth hGood
    apply twinned_checksWrap hRefl hMail
    intro r' hChecked
    exact hHandle r' auth hChecked hGood
  rw [wrap_eq]
  apply twinned_handleErrorWrap hRefl
  apply twinned_handlePanicWrap
  unfold Twinned checkMethodWrap
  split
  · exact .fail _
  · exact twinned_lockAccountWrap hLock hUnlock hInner

end Server

end PadlockCloud
