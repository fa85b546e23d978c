import PadlockCloud.Properties.Isolation

/-!
# Where access comes from

Every token of a stored account can be traced back to the request that issued it
and to the activation that put it into the account. The handlers of the
protected endpoints run for such tokens only, or for the skeleton key.
-/

namespace PadlockCloud

open Process

namespace Server

variable {srv : Server} {b : Backend} {endpoint : Endpoint} {env : Env} {r : Request}
  {start w : World Tables} {history : List Action} {action : Action} {k e : GoString}
  {s t : AuthToken} {ar : AuthRequest}

/-- One token at two times: what tells tokens apart does not change. -/
structure SameToken (s t : AuthToken) : Prop where
  email : s.email = t.email
  token : s.token = t.token
  type : s.type = t.type
  id : s.id = t.id

/-- `RequestAuthToken` is called for exactly the email `e`, which is on the
whitelist if there is one, and stores `ar` under its key. -/
structure Requested (srv : Server) (b : Backend) (w : World Tables) (endpoint : Endpoint)
    (env : Env) (r : Request) (e : GoString) (ar : AuthRequest) : Prop where
  handler : endpoint.handler r.method = some .requestAuthToken
  issues : ∃ r' auth, srv.admitted b endpoint env r w.storage = some (r', auth) ∧
    Issues srv env r auth ar
  email : r.postFormValue srv.net (lit "email") = e
  listed : ∀ emails, srv.whitelist = some emails → e ∈ emails
  stored : ((srv.serve endpoint env r).run (exec b) w).2.storage.authRequests ar.key = some ar

/-- `ActivateAuthToken` is called and finds `ar` under its key. -/
structure Activated (srv : Server) (w : World Tables) (endpoint : Endpoint) (r : Request)
    (ar : AuthRequest) : Prop where
  handler : endpoint.handler r.method = some .activateAuthToken
  found : ∃ pattern, srv.activationPattern r = .ok pattern ∧ pattern.key = ar.key ∧
    w.storage.authRequests pattern.key = some ar

/-- The auth request `ar` has been requested for the email of its token. -/
def HasRequest (srv : Server) (b : Backend) (start : World Tables) (history : List Action)
    (e : GoString) (ar : AuthRequest) : Prop :=
  ∃ endpoint env r past, Action.serve endpoint env r :: past <:+ history ∧
    Requested srv b (Run.after (Action.perform srv b) start past) endpoint env r e ar

/-- The token is that of an auth request for `e` that has been activated later, or
the web token for the login that came with the activation of an api token. -/
def HasProvenance (srv : Server) (b : Backend) (start : World Tables) (history : List Action)
    (e : GoString) (t : AuthToken) : Prop :=
  ∃ endpoint env r past ar, Action.serve endpoint env r :: past <:+ history ∧
    Activated srv (Run.after (Action.perform srv b) start past) endpoint r ar ∧
    HasRequest srv b start past e ar ∧
    (SameToken t ar.authToken ∨
      ar.authToken.type = lit "api" ∧ ∃ login,
        newAuthRequest env e (lit "web") [] ar.authToken.device = some login ∧
          SameToken t login.authToken)

/-- The handler of the endpoint is run with a `P` only: it makes no difference what it
would do with any other authentication, or without one. -/
def RunsOnlyWith (srv : Server) (b : Backend) (endpoint : Endpoint) (env : Env) (r : Request)
    (w : World Tables) (P : Auth → Prop) : Prop :=
  ∀ h h' : Handle Reply, (∀ r' a, P a → h env r' (some a) = h' env r' (some a)) →
    (srv.wrap endpoint h env r none).run (exec b) w =
      (srv.wrap endpoint h' env r none).run (exec b) w

/-- The request presents the skeleton key that the server is configured with. -/
def PresentsSkeleton (srv : Server) (r : Request) : Prop :=
  srv.skeletonKey ≠ [] ∧ ∃ t, authTokenFromRequest r = some t ∧ t.type = lit "skeleton" ∧
    t.token = srv.skeletonKey

/-- What an endpoint lets through for an account. -/
structure Permitted (srv : Server) (b : Backend) (start : World Tables) (history : List Action)
    (endpoint : Endpoint) (r : Request) (a : Auth) : Prop where
  provenance : a.token.type ≠ lit "skeleton" →
    HasProvenance srv b start history a.account.email a.token
  web : endpoint.authType = lit "web" → a.token.type ≠ lit "api"
  skeleton : a.token.type = lit "skeleton" → PresentsSkeleton srv r

/-- Every stored token has been issued and activated for its account, and a
protected endpoint runs its handler for such a token or for the skeleton key. -/
structure AccessTraced (srv : Server) (b : Backend) (start : World Tables) (history : List Action)
    (w : World Tables) : Prop where
  token : ∀ k acc, w.storage.accounts k = some acc → ∀ o ∈ acc.authTokens, ∃ t, o = some t ∧
    (t.type = lit "api" ∨ t.type = lit "web") ∧ HasProvenance srv b start history k t
  handler : ∀ endpoint env r, (Action.serve endpoint env r).routed → endpoint.authType ≠ [] →
    RunsOnlyWith srv b endpoint env r w (Permitted srv b start history endpoint r)

/-! ## One action -/

theorem SameToken.of_refreshes {now : Time} (hRefreshes : s.Refreshes now t) : SameToken s t :=
  ⟨hRefreshes.email, hRefreshes.token, hRefreshes.type, hRefreshes.id⟩

theorem SameToken.trans {u : AuthToken} (hFirst : SameToken s t) (hSecond : SameToken t u) :
    SameToken s u where
  email := hFirst.email.trans hSecond.email
  token := hFirst.token.trans hSecond.token
  type := hFirst.type.trans hSecond.type
  id := hFirst.id.trans hSecond.id

theorem HasRequest.mono (hRequest : HasRequest srv b start history e ar) (action : Action) :
    HasRequest srv b start (action :: history) e ar := by
  obtain ⟨endpoint, env, r, past, hPast, hRequested⟩ := hRequest
  exact ⟨endpoint, env, r, past, hPast.trans (List.suffix_cons _ _), hRequested⟩

theorem HasProvenance.mono (hProvenance : HasProvenance srv b start history e t)
    (action : Action) : HasProvenance srv b start (action :: history) e t := by
  obtain ⟨endpoint, env, r, past, ar, hPast, hRest⟩ := hProvenance
  exact ⟨endpoint, env, r, past, ar, hPast.trans (List.suffix_cons _ _), hRest⟩

theorem HasProvenance.of_same (hProvenance : HasProvenance srv b start history e t)
    (hSame : SameToken s t) : HasProvenance srv b start history e s := by
  obtain ⟨endpoint, env, r, past, ar, hPast, hActivated, hRequest, hToken⟩ := hProvenance
  refine ⟨endpoint, env, r, past, ar, hPast, hActivated, hRequest, ?_⟩
  rcases hToken with hOwn | ⟨hApi, login, hNew, hLogin⟩
  · exact .inl (hSame.trans hOwn)
  · exact .inr ⟨hApi, login, hNew, hSame.trans hLogin⟩

/-- Everything in the tables has a history. -/
structure Traced (srv : Server) (b : Backend) (start : World Tables) (history : List Action)
    (w : World Tables) : Prop where
  sound : w.storage.Sound b.json
  world : w = Run.after (Action.perform srv b) start history
  token : ∀ {k acc t}, w.storage.accounts k = some acc → some t ∈ acc.authTokens →
    HasProvenance srv b start history k t
  request : ∀ {k ar}, w.storage.authRequests k = some ar →
    ar.key = k ∧ HasRequest srv b start history ar.authToken.email ar

/-- The tokens that an activation adds. -/
theorem provenance_of_adds {added : List AuthToken} (hTraced : Traced srv b start history w)
    (hHandler : endpoint.handler r.method = some .activateAuthToken)
    (hAdds : Adds srv env r w.storage k .activateAuthToken added) (ht : t ∈ added) :
    HasProvenance srv b start (.serve endpoint env r :: history) k t := by
  have hFrom {pattern ar : AuthRequest} (hPattern : srv.activationPattern r = .ok pattern)
      (hFound : w.storage.authRequests pattern.key = some ar) :
      Activated srv (Run.after (Action.perform srv b) start history) endpoint r ar := by
    rw [← hTraced.world]
    exact ⟨hHandler, pattern, hPattern, (hTraced.request hFound).1.symm, hFound⟩
  cases hAdds with
  | activated pattern ar hPattern hFound hKey =>
    subst hKey
    obtain rfl := List.mem_singleton.mp ht
    exact ⟨endpoint, env, r, history, ar, List.suffix_refl _, hFrom hPattern hFound,
      (hTraced.request hFound).2, .inl ⟨rfl, rfl, rfl, rfl⟩⟩
  | paired pattern ar login hPattern hFound hKey hLogin hNew =>
    subst hKey
    refine ⟨endpoint, env, r, history, ar, List.suffix_refl _, hFrom hPattern hFound,
      (hTraced.request hFound).2, ?_⟩
    rcases List.mem_cons.mp ht with rfl | hLast
    · exact .inl ⟨rfl, rfl, rfl, rfl⟩
    · obtain rfl := List.mem_singleton.mp hLast
      have hApi : ar.authToken.type = lit "api" ∧ ar.code = [] := by
        simpa [loginsToo] using hLogin
      exact .inr ⟨hApi.1, login, hNew, ⟨rfl, rfl, rfl, rfl⟩⟩

/-- The auth request that an action issues. -/
theorem requested_of_issuing {new : AuthRequest} (hTraced : Traced srv b start history w)
    (hIssuing : Issuing srv b w.storage action new)
    (hStored : (action.perform srv b w).storage.authRequests new.key = some new) :
    HasRequest srv b start (action :: history) new.authToken.email new := by
  cases hIssuing with
  | mk endpoint env r r' auth new hAdmitted hHandler hIssues =>
    refine ⟨endpoint, env, r, history, List.suffix_refl _, ?_⟩
    rw [← hTraced.world]
    obtain ⟨first, hNew, rfl⟩ := Option.map_eq_some_iff.mp hIssues.new
    have hEmail : first.authToken.email = r.postFormValue srv.net (lit "email") :=
      newAuthRequest_email hNew
    refine ⟨hHandler, ⟨r', auth, hAdmitted, hIssues⟩, hEmail.symm, ?_, hStored⟩
    intro emails hList
    have hListed := (AuthForm.check_ok hIssues.check).2.1
    rw [isWhitelisted, hList] at hListed
    have hMem : r.postFormValue srv.net (lit "email") ∈ emails := List.contains_iff_mem.mp hListed
    rwa [← hEmail] at hMem

theorem traced_perform (hJ : b.json.Lossless) (action : Action)
    (hTraced : Traced srv b start history w) :
    Traced srv b start (action :: history) (action.perform srv b w) where
  sound := sound_perform action hTraced.sound
  world := by rw [hTraced.world, Run.after, Run.after, List.foldr_cons]
  token {k acc' t} hFound ht := by
    obtain ⟨base, hGrown, hWithin⟩ := perform_account hTraced.sound hFound
    obtain ⟨s, hs, hRefreshes⟩ := hWithin.tokens t ht
    refine HasProvenance.of_same ?_ (.of_refreshes hRefreshes)
    cases hGrown with
    | stored _ _ hStored => exact (hTraced.token hStored hs).mono _
    | added endpoint env r added hHandler hAdds =>
      rcases List.mem_append.mp hs with hOld | hNew
      · obtain ⟨acc, hStored, hMem⟩ := mem_accountAt hOld
        exact (hTraced.token hStored hMem).mono _
      · obtain ⟨u, hu, hEq⟩ := List.mem_map.mp hNew
        obtain rfl := Option.some.inj hEq
        exact provenance_of_adds hTraced hHandler hAdds hu
  request {k ar} hFound := by
    rcases perform_request hFound with hOld | ⟨new, hIssuing, rfl, hEq⟩
    · obtain ⟨hKey, hRequest⟩ := hTraced.request hOld
      exact ⟨hKey, hRequest.mono _⟩
    · rw [AuthRequest.marshal_of_lossless hJ] at hEq
      subst hEq
      exact ⟨rfl, requested_of_issuing hTraced hIssuing hFound⟩

/-! ## Runs -/

theorem traced_runs {allowed : List Action → Action → Prop} (hJ : b.json.Lossless)
    (hStart : start.storage = .empty) (hRun : srv.Runs b allowed [] start history w) :
    Traced srv b start history w := by
  refine Run.invariant (I := Traced srv b start) hRun ?_
    fun _ _ action hTraced _ => traced_perform hJ action hTraced
  refine ⟨hStart ▸ .empty, rfl, ?_, ?_⟩
  · intro k acc t hFound
    rw [hStart] at hFound
    cases hFound
  · intro k ar hFound
    rw [hStart] at hFound
    cases hFound

theorem permitted_of_admitted {r' : Request} {a : Auth} (hTraced : Traced srv b start history w)
    (hAdmitted : srv.admitted b endpoint env r w.storage = some (r', some a))
    (hType : endpoint.authType ≠ []) : Permitted srv b start history endpoint r a := by
  obtain ⟨a', hSome, hAuth, hAllowed, -⟩ := admitted_auth hAdmitted hType
  obtain rfl := Option.some.inj hSome
  obtain ⟨t, acc, a', hToken, hFound, hAccepted, rfl⟩ := authenticated_ok hAuth
  have hAccount := hTraced.sound.soundAt hFound
  refine ⟨?_, ?_, ?_⟩
  · intro hOther
    rw [Backend.prepare_email, hAccepted.email, hAccount.email]
    rcases hAccepted.token with ⟨hSkeleton, -, -, hEq⟩ | ⟨-, s, hs, -, -, hEq⟩
    · rw [hEq] at hOther
      exact absurd hSkeleton hOther
    · rw [hEq]
      exact (hTraced.token hFound hs).of_same
        (.of_refreshes (s.refreshed_refreshes env r env.now))
  · intro hWeb hApi
    rw [hWeb, typeAllowed, hApi] at hAllowed
    revert hAllowed
    decide
  · intro hSkeleton
    rcases hAccepted.token with ⟨hType', hKey, hSame, -⟩ | ⟨-, s, hs, -, -, hEq⟩
    · exact ⟨hKey, t, hToken, hType', hSame.symm⟩
    · rw [hEq] at hSkeleton
      exact absurd hSkeleton (hAccount.mem hs).2.type_ne_skeleton

/-- Access is traced in every run from empty storage. -/
theorem access_traced (hJ : b.json.Lossless) (hStart : start.storage = .empty)
    (hRun : srv.Runs b (fun _ action => action.routed) [] start history w) :
    AccessTraced srv b start history w := by
  have hTraced := traced_runs hJ hStart hRun
  refine ⟨?_, ?_⟩
  · intro k acc hFound o ho
    obtain ⟨t, rfl, -, hIssued⟩ := hTraced.sound.tokens hFound o ho
    exact ⟨t, rfl, hIssued.type, hTraced.token hFound ho⟩
  · intro endpoint env r _ hType h h' hSame
    refine run_wrap_congr fun r' auth hAdmitted => ?_
    obtain ⟨a, rfl, -⟩ := admitted_auth hAdmitted hType
    exact hSame r' a (permitted_of_admitted hTraced hAdmitted hType)

theorem access_traced_paired : AccessTraced standard .levelDB freshWorld [clientPairs, clientAsks]
    (clientPairs.perform standard .levelDB (clientAsks.perform standard .levelDB freshWorld)) :=
  access_traced Json.identity_lossless rfl
    (.step (.step .refl (by decide +kernel)) (by decide +kernel))

end Server

end PadlockCloud
