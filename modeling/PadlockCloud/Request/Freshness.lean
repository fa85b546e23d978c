import Mathlib.Data.List.Pairwise
import PadlockCloud.Request.Origin

/-!
# Fresh secrets

Every secret that is in the tables has been drawn by one request, and it is in
one place: in an account, or in an auth request that has not been activated yet.
An activation moves the token from the one to the other. So no two tokens share a
secret, as long as requests are performed one after the other.
-/

namespace PadlockCloud

open Process Time

/-! ## Random values -/

/-- Two requests draw different secrets and different ids. -/
structure Random.Unlike (ρ σ : Random) : Prop where
  secret : ρ.secret ≠ σ.secret
  id : ρ.id ≠ σ.id

instance : Std.Symm Random.Unlike := ⟨fun _ _ hUnlike => ⟨hUnlike.secret.symm, hUnlike.id.symm⟩⟩

theorem Random.tokenString_inj {n : Nat} {x y : Vector UInt8 n} :
    Random.tokenString x = Random.tokenString y ↔ x = y := by
  refine ⟨fun hEq => ?_, congrArg _⟩
  have hBytes : some x.toList = some y.toList := by
    rw [← decodeBase64_encodeBase64, ← decodeBase64_encodeBase64 y.toList]
    exact congrArg decodeBase64 hEq
  exact Vector.toList_inj.mp (Option.some.inj hBytes)

/-- The secret and the id of the token are those that a request has drawn. -/
structure AuthToken.DrawnFrom (t : AuthToken) (ρ : Random) : Prop where
  token : t.token = Random.tokenString ρ.secret
  id : t.id = Random.tokenString ρ.id

theorem AuthToken.DrawnFrom.of_refreshes {s t : AuthToken} {ρ : Random} {now : Time}
    (hDrawn : t.DrawnFrom ρ) (hRefreshes : s.Refreshes now t) : s.DrawnFrom ρ :=
  ⟨hRefreshes.token.trans hDrawn.token, hRefreshes.id.trans hDrawn.id⟩

def Action.random : Action → Option Random
  | .serve _ env _ => env.random
  | .clean _ _ => none

/-- What has been drawn so far. -/
def drawn (history : List Action) : List Random := history.filterMap Action.random

/-- The clock does not go back, and what a request draws has not been drawn
before and is not the skeleton key. -/
structure Action.Follows (srv : Server) (history : List Action) (action : Action) : Prop where
  clock : ∀ past ∈ history, past.time ≤ action.time
  fresh : ∀ ρ, action.random = some ρ → ∀ σ ∈ drawn history, ρ.Unlike σ
  unguessed : ∀ ρ, action.random = some ρ → Random.tokenString ρ.secret ≠ srv.skeletonKey

theorem newAuthRequest_drawn {env : Env} {email tType actType : GoString} {device : Option Device}
    {ar : AuthRequest} (hNew : newAuthRequest env email tType actType device = some ar) :
    ∃ ρ, env.random = some ρ ∧ ar.authToken.DrawnFrom ρ := by
  obtain ⟨token, random, hToken, -, rfl⟩ := newAuthRequest_eq_some.mp hNew
  obtain ⟨ρ, hRandom, rfl⟩ := newAuthToken_eq_some.mp hToken
  refine ⟨ρ, hRandom, ?_⟩
  split <;> exact ⟨rfl, rfl⟩

/-! ## Places -/

/-- Where a token can be. -/
inductive Place where
  | account (key : GoString)
  | request (key : GoString)
  deriving DecidableEq

namespace Tables

inductive Has (T : Tables) : Place → AuthToken → Prop where
  | account {k : GoString} {acc : Account} {t : AuthToken} (hFound : T.accounts k = some acc)
      (ht : some t ∈ acc.authTokens) : T.Has (.account k) t
  | request {k : GoString} {ar : AuthRequest} (hFound : T.authRequests k = some ar) :
      T.Has (.request k) ar.authToken

/-- Every auth request lies under its key. -/
def Filed (T : Tables) : Prop := ∀ {k ar}, T.authRequests k = some ar → ar.key = k

/-- No two tokens share a secret. -/
structure Distinct (T : Tables) : Prop where
  nodup : ∀ {k acc}, T.accounts k = some acc → acc.secrets.Nodup
  place : ∀ {p q s t}, T.Has p s → T.Has q t → s.token = t.token → p = q

variable {T : Tables}

theorem Distinct.eq {p q : Place} {s t : AuthToken} (hDistinct : T.Distinct)
    (hs : T.Has p s) (ht : T.Has q t) (hSame : s.token = t.token) : s = t := by
  have hPlace := hDistinct.place hs ht hSame
  subst hPlace
  cases hs with
  | account hFound hMem =>
    cases ht with
    | account hFound' hMem' =>
      rw [hFound, Option.some.injEq] at hFound'
      subst hFound'
      exact Account.eq_of_secret (hDistinct.nodup hFound) hMem hMem' hSame
  | request hFound =>
    cases ht with
    | request hFound' =>
      rw [hFound, Option.some.injEq] at hFound'
      rw [hFound']

end Tables

namespace Server

variable {srv : Server} {b : Backend} {endpoint : Endpoint} {env : Env} {r r' : Request}
  {auth : Option Auth} {T T' : Tables} {w w' : World Tables} {k : GoString} {acc acc' : Account}
  {ar pattern : AuthRequest} {action : Action} {p q : Place} {s t : AuthToken}

/-! ## What an action adds -/

/-- The token that an action puts into a place: that of the activated request,
which is gone then, that of the login that comes with it, or that of a new
request. -/
inductive Receives (srv : Server) (b : Backend) (w : World Tables) :
    Action → Place → AuthToken → Prop where
  | activated (endpoint : Endpoint) (env : Env) (r : Request) (pattern ar : AuthRequest)
      (hHandler : endpoint.handler r.method = some .activateAuthToken)
      (hPattern : srv.activationPattern r = .ok pattern)
      (hFound : w.storage.authRequests pattern.key = some ar)
      (hGone : ((Action.serve endpoint env r).perform srv b w).storage.authRequests pattern.key =
        none) :
      Receives srv b w (.serve endpoint env r) (.account ar.authToken.email) ar.authToken
  | login (endpoint : Endpoint) (env : Env) (r : Request) (pattern ar login : AuthRequest)
      (hHandler : endpoint.handler r.method = some .activateAuthToken)
      (hPattern : srv.activationPattern r = .ok pattern)
      (hFound : w.storage.authRequests pattern.key = some ar)
      (hNew : newAuthRequest env ar.authToken.email (lit "web") [] ar.authToken.device =
        some login) :
      Receives srv b w (.serve endpoint env r) (.account ar.authToken.email) login.authToken
  | issued (action : Action) (new : AuthRequest) (hIssuing : Issuing srv b w.storage action new) :
      Receives srv b w action (.request new.key) new.authToken

theorem Issuing.unique {new new' : AuthRequest} (hIssuing : Issuing srv b T action new)
    (hIssuing' : Issuing srv b T action new') : new = new' := by
  cases hIssuing with
  | mk endpoint env r r' auth _ hAdmitted hHandler hIssues =>
    cases hIssuing' with
    | mk _ _ _ r'' auth' _ hAdmitted' hHandler' hIssues' =>
      rw [hAdmitted, Option.some.injEq, Prod.mk.injEq] at hAdmitted'
      obtain ⟨-, rfl⟩ := hAdmitted'
      exact Option.some.inj (hIssues.new.symm.trans hIssues'.new)

/-- An action puts tokens into one place only. -/
theorem Receives.place (hs : Receives srv b w action p s) (ht : Receives srv b w action q t) :
    p = q := by
  have hOne {endpoint : Endpoint} {env : Env} {r : Request} {q : Place} {t : AuthToken}
      {pattern ar : AuthRequest} (hHandler : endpoint.handler r.method = some .activateAuthToken)
      (hPattern : srv.activationPattern r = .ok pattern)
      (hFound : w.storage.authRequests pattern.key = some ar)
      (ht : Receives srv b w (.serve endpoint env r) q t) : .account ar.authToken.email = q := by
    have hSame {pattern' ar' : AuthRequest} (hPattern' : srv.activationPattern r = .ok pattern')
        (hFound' : w.storage.authRequests pattern'.key = some ar') : ar = ar' := by
      rw [hPattern, Except.ok.injEq] at hPattern'
      subst hPattern'
      exact Option.some.inj (hFound.symm.trans hFound')
    cases ht with
    | activated _ _ _ pattern' ar' _ hPattern' hFound' => rw [hSame hPattern' hFound']
    | login _ _ _ pattern' ar' _ _ hPattern' hFound' => rw [hSame hPattern' hFound']
    | issued _ new hIssuing =>
      cases hIssuing with
      | mk _ _ _ _ _ _ _ hOther =>
        rw [hHandler] at hOther
        cases hOther
  cases hs with
  | activated endpoint env r pattern ar hHandler hPattern hFound =>
    exact hOne hHandler hPattern hFound ht
  | login endpoint env r pattern ar login hHandler hPattern hFound =>
    exact hOne hHandler hPattern hFound ht
  | issued _ new hIssuing =>
    cases ht with
    | activated endpoint env r pattern ar hHandler hPattern hFound =>
      exact (hOne hHandler hPattern hFound (.issued _ new hIssuing)).symm
    | login endpoint env r pattern ar login hHandler hPattern hFound =>
      exact (hOne hHandler hPattern hFound (.issued _ new hIssuing)).symm
    | issued _ new' hIssuing' => rw [hIssuing.unique hIssuing']

/-- After an activation the request is gone, unless nothing was added to any
account. -/
theorem perform_spends (hSound : w.storage.Sound b.json) (hFiled : w.storage.Filed)
    (hHandler : endpoint.handler r.method = some .activateAuthToken)
    (hPattern : srv.activationPattern r = .ok pattern)
    (hFound : w.storage.authRequests pattern.key = some ar) :
    ((Action.serve endpoint env r).perform srv b w).storage.authRequests pattern.key = none ∨
      ∀ k acc', ((Action.serve endpoint env r).perform srv b w).storage.accounts k = some acc' →
        ∃ acc, w.storage.accounts k = some acc ∧ acc'.Within env.now acc := by
  obtain ⟨T, hT, hEnd⟩ := serve_effect srv b endpoint env r w
  have hFirst {k : GoString} {acc' : Account} (hAcc : T.accounts k = some acc') :
      ∃ acc, w.storage.accounts k = some acc ∧ acc'.Within env.now acc := by
    rcases hT with rfl | rfl
    · exact ⟨acc', hAcc, .refl env.now acc'⟩
    · exact authTables_within hSound hAcc
  rcases hEnd with hSame | ⟨r', auth, h, hAdmitted, hHandler', rfl, hEffect⟩
  · refine .inr fun k acc' hAcc => hFirst ?_
    rw [← hSame]
    exact hAcc
  rw [hHandler, Option.some.injEq] at hHandler'
  subst hHandler'
  have hOne {pattern' ar' : AuthRequest} (hPattern' : srv.activationPattern r' = .ok pattern')
      (hFound' : (authTables b w.storage (srv.authenticated b env r w.storage)).authRequests
        pattern'.key = some ar') : ar' = ar := by
    rw [admitted_pattern hAdmitted, hPattern, Except.ok.injEq] at hPattern'
    subst hPattern'
    rw [authTables_authRequests, hFound] at hFound'
    exact (Option.some.inj hFound').symm
  have hKey := hFiled hFound
  show ((srv.serve endpoint env r).run (exec b) w).2.storage.authRequests pattern.key = none ∨
    ∀ k acc', ((srv.serve endpoint env r).run (exec b) w).2.storage.accounts k = some acc' →
      ∃ acc, w.storage.accounts k = some acc ∧ acc'.Within env.now acc
  generalize ((srv.serve endpoint env r).run (exec b) w).2.storage = T' at hEffect ⊢
  cases hEffect with
  | unchanged => exact .inr fun k acc' hAcc => hFirst hAcc
  | activated pattern' ar' hPattern' hFound' =>
    obtain rfl := hOne hPattern' hFound'
    rw [← hKey]
    exact .inl (Function.update_self _ _ _)
  | paired pattern' ar' login hPattern' hFound' =>
    obtain rfl := hOne hPattern' hFound'
    rw [← hKey]
    refine .inl ?_
    simp only [activateTables, Tables.putAuthRequest, Tables.storeAccount, Tables.putAccount,
      Function.update_apply, if_true, ite_self]

/-- Every token after an action was in its place before, or the action has put
it there. -/
theorem perform_has (hJ : b.json.Lossless) (hSound : w.storage.Sound b.json)
    (hFiled : w.storage.Filed) (ht : (action.perform srv b w).storage.Has p t) :
    ∃ s, t.Refreshes action.time s ∧
      (w.storage.Has p s ∨ Receives srv b w action p s) := by
  cases ht with
  | @account k acc' _ hFound hMem =>
    obtain ⟨base, hGrown, hWithin⟩ := perform_account hSound hFound
    obtain ⟨s, hs, hRefreshes⟩ := hWithin.tokens t hMem
    cases hGrown with
    | stored _ _ hStored => exact ⟨s, hRefreshes, .inl (.account hStored hs)⟩
    | added endpoint env r added hHandler hAdds =>
      rcases List.mem_append.mp hs with hOld | hNew
      · obtain ⟨acc, hStored, hOwn⟩ := mem_accountAt hOld
        exact ⟨s, hRefreshes, .inl (.account hStored hOwn)⟩
      · obtain ⟨u, hu, hEq⟩ := List.mem_map.mp hNew
        obtain rfl := Option.some.inj hEq
        -- Where the request is left, the handler has not added anything.
        have hEarlier (hWas : ∀ k acc',
            ((Action.serve endpoint env r).perform srv b w).storage.accounts k = some acc' →
              ∃ acc, w.storage.accounts k = some acc ∧ acc'.Within env.now acc) :
            ∃ s, t.Refreshes env.now s ∧ (w.storage.Has (.account k) s ∨
              Receives srv b w (.serve endpoint env r) (.account k) s) := by
          obtain ⟨acc, hStored, hOld⟩ := hWas k acc' hFound
          obtain ⟨s, hs, hRefreshes⟩ := hOld.tokens t hMem
          exact ⟨s, hRefreshes, .inl (.account hStored hs)⟩
        cases hAdds with
        | activated pattern ar hPattern hPending hKey =>
          subst hKey
          rcases perform_spends hSound hFiled hHandler hPattern hPending with hGone | hWas
          · obtain rfl := List.mem_singleton.mp hu
            exact ⟨_, hRefreshes,
              .inr (.activated endpoint env r pattern ar hHandler hPattern hPending hGone)⟩
          · exact hEarlier hWas
        | paired pattern ar login hPattern hPending hKey hLogin hDrawn =>
          subst hKey
          rcases perform_spends hSound hFiled hHandler hPattern hPending with hGone | hWas
          · rcases List.mem_cons.mp hu with rfl | hLast
            · exact ⟨_, hRefreshes,
                .inr (.activated endpoint env r pattern ar hHandler hPattern hPending hGone)⟩
            · obtain rfl := List.mem_singleton.mp hLast
              exact ⟨_, hRefreshes,
                .inr (.login endpoint env r pattern ar login hHandler hPattern hPending hDrawn)⟩
          · exact hEarlier hWas
  | @request k ar hFound =>
    rcases perform_request hFound with hOld | ⟨new, hIssuing, rfl, rfl⟩
    · exact ⟨ar.authToken, .refl _ _, .inl (.request hOld)⟩
    · rw [AuthRequest.marshal_of_lossless hJ]
      exact ⟨new.authToken, .refl _ _, .inr (.issued action new hIssuing)⟩

theorem Issuing.drawn {new : AuthRequest} (hIssuing : Issuing srv b T action new) :
    ∃ ρ, action.random = some ρ ∧ new.authToken.DrawnFrom ρ := by
  cases hIssuing with
  | mk endpoint env r r' auth _ hAdmitted hHandler hIssues =>
    obtain ⟨first, hNew, rfl⟩ := Option.map_eq_some_iff.mp hIssues.new
    obtain ⟨ρ, hRandom, hDrawn⟩ := newAuthRequest_drawn hNew
    exact ⟨ρ, hRandom, hDrawn⟩

/-- A token that is put somewhere has just been drawn, or is taken from a request. -/
theorem Receives.origin (hReceives : Receives srv b w action p s) :
    (∃ ρ, action.random = some ρ ∧ s.DrawnFrom ρ) ∨
      ∃ k, w.storage.Has (.request k) s ∧
        (action.perform srv b w).storage.authRequests k = none := by
  cases hReceives with
  | activated endpoint env r pattern ar hHandler hPattern hFound hGone =>
    exact .inr ⟨pattern.key, .request hFound, hGone⟩
  | login endpoint env r pattern ar login hHandler hPattern hFound hNew =>
    exact .inl (newAuthRequest_drawn hNew)
  | issued _ new hIssuing => exact .inl hIssuing.drawn

/-! ## Runs -/

/-- All secrets have been drawn, each by a request of its own, and each is in one
place. -/
structure Orderly (srv : Server) (b : Backend) (history : List Action) (w : World Tables) :
    Prop where
  sound : w.storage.Sound b.json
  filed : w.storage.Filed
  distinct : w.storage.Distinct
  drawn : ∀ {p t}, w.storage.Has p t → ∃ ρ ∈ drawn history, t.DrawnFrom ρ
  unlike : (PadlockCloud.drawn history).Pairwise Random.Unlike
  unguessed : ∀ ρ ∈ PadlockCloud.drawn history, Random.tokenString ρ.secret ≠ srv.skeletonKey

variable {history : List Action}

theorem filed_perform (hJ : b.json.Lossless) (hFiled : w.storage.Filed) :
    (action.perform srv b w).storage.Filed := by
  intro k ar hFound
  rcases perform_request hFound with hOld | ⟨new, -, rfl, rfl⟩
  · exact hFiled hOld
  · rw [AuthRequest.marshal_of_lossless hJ]

/-- What a request draws is nowhere in the tables. -/
theorem Orderly.fresh_ne (hOrderly : Orderly srv b history w) (hFollows : action.Follows srv history)
    {ρ : Random} (hRandom : action.random = some ρ) (hDrawn : s.DrawnFrom ρ)
    (ht : w.storage.Has q t) : s.token ≠ t.token := by
  intro hSame
  obtain ⟨σ, hσ, hOld⟩ := hOrderly.drawn ht
  have hUnlike := hFollows.fresh ρ hRandom σ hσ
  refine hUnlike.secret (Random.tokenString_inj.mp ?_)
  rw [← hDrawn.token, ← hOld.token, hSame]

theorem Orderly.nodup_perform (hOrderly : Orderly srv b history w)
    (hFollows : action.Follows srv history)
    (hFound : (action.perform srv b w).storage.accounts k = some acc') : acc'.secrets.Nodup := by
  obtain ⟨base, hGrown, hWithin⟩ := perform_account hOrderly.sound hFound
  refine hWithin.nodup ?_
  cases hGrown with
  | stored _ _ hStored => exact hOrderly.distinct.nodup hStored
  | added endpoint env r added hHandler hAdds =>
    rw [Account.secrets_extend]
    have hOld : (accountAt w.storage k).secrets.Nodup := by
      unfold accountAt
      cases hStored : w.storage.accounts k with
      | none => exact List.nodup_nil
      | some acc => exact hOrderly.distinct.nodup hStored
    have hApart {t : AuthToken} (ht : ∀ s, w.storage.Has (.account k) s → s.token ≠ t.token) :
        t.token ∉ (accountAt w.storage k).secrets := by
      intro hSecret
      obtain ⟨s, hs, hSame⟩ := Account.mem_secrets.mp hSecret
      obtain ⟨acc, hStored, hMem⟩ := mem_accountAt hs
      exact ht s (.account hStored hMem) hSame
    have hPendingApart {pattern ar : AuthRequest}
        (hPending : w.storage.authRequests pattern.key = some ar) :
        ar.authToken.token ∉ (accountAt w.storage k).secrets := by
      refine hApart fun s hs hSame => ?_
      have hPlace := hOrderly.distinct.place hs (.request hPending) hSame
      cases hPlace
    cases hAdds with
    | activated pattern ar hPattern hPending hKey =>
      refine hOld.append (List.nodup_singleton _) ?_
      intro secret hSecret hNew
      obtain rfl := List.mem_singleton.mp hNew
      exact hPendingApart hPending hSecret
    | paired pattern ar login hPattern hPending hKey hLogin hNew =>
      obtain ⟨ρ, hRandom, hDrawn⟩ := newAuthRequest_drawn hNew
      have hRandom : (Action.serve endpoint env r).random = some ρ := hRandom
      have hOther := hOrderly.fresh_ne hFollows hRandom hDrawn (.request hPending)
      refine hOld.append ?_ ?_
      · simpa using hOther.symm
      · intro secret hSecret hLater
        rcases List.mem_cons.mp hLater with rfl | hLast
        · exact hPendingApart hPending hSecret
        · obtain rfl := List.mem_singleton.mp hLast
          exact hApart (fun s hs => (hOrderly.fresh_ne hFollows hRandom hDrawn hs).symm) hSecret

theorem Orderly.place_perform (hJ : b.json.Lossless) (hOrderly : Orderly srv b history w)
    (hFollows : action.Follows srv history) (hs : (action.perform srv b w).storage.Has p s)
    (ht : (action.perform srv b w).storage.Has q t) (hSame : s.token = t.token) : p = q := by
  obtain ⟨s₀, hs₀, hsFrom⟩ := perform_has hJ hOrderly.sound hOrderly.filed hs
  obtain ⟨t₀, ht₀, htFrom⟩ := perform_has hJ hOrderly.sound hOrderly.filed ht
  have hSame₀ : s₀.token = t₀.token := by rw [← hs₀.token, ← ht₀.token, hSame]
  -- A token that has been put somewhere is not that of a place that was left alone.
  have hMoved {p q : Place} {s t : AuthToken} (hReceives : Receives srv b w action p s)
      (hOld : w.storage.Has q t) (hLeft : ∃ u, (action.perform srv b w).storage.Has q u)
      (hSame : s.token = t.token) : False := by
    rcases hReceives.origin with ⟨ρ, hRandom, hDrawn⟩ | ⟨k, hPending, hGone⟩
    · exact hOrderly.fresh_ne hFollows hRandom hDrawn hOld hSame
    · obtain rfl := hOrderly.distinct.place hPending hOld hSame
      obtain ⟨u, hu⟩ := hLeft
      cases hu with
      | request hFound =>
        rw [hGone] at hFound
        cases hFound
  rcases hsFrom with hsOld | hsNew
  · rcases htFrom with htOld | htNew
    · exact hOrderly.distinct.place hsOld htOld hSame₀
    · exact (hMoved htNew hsOld ⟨s, hs⟩ hSame₀.symm).elim
  · rcases htFrom with htOld | htNew
    · exact (hMoved hsNew htOld ⟨t, ht⟩ hSame₀).elim
    · exact hsNew.place htNew

theorem drawn_cons (history : List Action) (action : Action) :
    drawn (action :: history) = action.random.toList ++ drawn history := by
  unfold drawn
  cases hRandom : action.random <;> simp [hRandom]

theorem drawn_mono {ρ : Random} (hDrawn : ρ ∈ drawn history) : ρ ∈ drawn (action :: history) := by
  rw [drawn_cons]
  exact List.mem_append_right _ hDrawn

theorem mem_drawn_self {ρ : Random} (hRandom : action.random = some ρ) :
    ρ ∈ drawn (action :: history) := by
  rw [drawn_cons, hRandom]
  exact List.mem_append_left _ (List.mem_singleton_self ρ)

/-- Where requests come one after the other and draw fresh values, the tables stay
orderly. -/
theorem orderly_perform (hJ : b.json.Lossless) (hOrderly : Orderly srv b history w)
    (hFollows : action.Follows srv history) :
    Orderly srv b (action :: history) (action.perform srv b w) where
  sound := sound_perform action hOrderly.sound
  filed := filed_perform hJ hOrderly.filed
  distinct := ⟨fun hFound => hOrderly.nodup_perform hFollows hFound,
    fun hs ht hSame => hOrderly.place_perform hJ hFollows hs ht hSame⟩
  drawn {p t} ht := by
    obtain ⟨s, hRefreshes, hOld | hNew⟩ := perform_has hJ hOrderly.sound hOrderly.filed ht
    · obtain ⟨ρ, hρ, hDrawn⟩ := hOrderly.drawn hOld
      exact ⟨ρ, drawn_mono hρ, hDrawn.of_refreshes hRefreshes⟩
    · rcases hNew.origin with ⟨ρ, hRandom, hDrawn⟩ | ⟨k, hPending, -⟩
      · exact ⟨ρ, mem_drawn_self hRandom, hDrawn.of_refreshes hRefreshes⟩
      · obtain ⟨ρ, hρ, hDrawn⟩ := hOrderly.drawn hPending
        exact ⟨ρ, drawn_mono hρ, hDrawn.of_refreshes hRefreshes⟩
  unlike := by
    rw [drawn_cons]
    cases hRandom : action.random with
    | none => exact hOrderly.unlike
    | some ρ => exact List.pairwise_cons.mpr ⟨hFollows.fresh ρ hRandom, hOrderly.unlike⟩
  unguessed ρ hρ := by
    rw [drawn_cons] at hρ
    rcases List.mem_append.mp hρ with hNew | hOld
    · exact hFollows.unguessed ρ (Option.mem_toList.mp hNew)
    · exact hOrderly.unguessed ρ hOld

theorem orderly_empty {w : World Tables} (hStart : w.storage = .empty) : Orderly srv b [] w where
  sound := hStart ▸ .empty
  filed := by
    intro k ar hFound
    rw [hStart] at hFound
    cases hFound
  distinct := by
    rw [hStart]
    exact ⟨nofun, fun hs => nomatch hs⟩
  drawn ht := by
    rw [hStart] at ht
    cases ht <;> contradiction
  unlike := .nil
  unguessed := nofun

theorem orderly_runs (hJ : b.json.Lossless) {past : List Action}
    (hRun : srv.Runs b (Action.Follows srv) past w history w') (hOrderly : Orderly srv b past w) :
    Orderly srv b history w' :=
  Run.invariant (I := Orderly srv b) hRun hOrderly
    fun _ _ _ hOrderly hFollows => orderly_perform hJ hOrderly hFollows

/-- In orderly tables a token is told by its id as well as by its secret. -/
theorem Orderly.eq_of_id (hOrderly : Orderly srv b history w) (hs : w.storage.Has p s)
    (ht : w.storage.Has q t) (hSame : s.id = t.id) : s.token = t.token := by
  obtain ⟨ρ, hρ, hsDrawn⟩ := hOrderly.drawn hs
  obtain ⟨σ, hσ, htDrawn⟩ := hOrderly.drawn ht
  have hId : ρ.id = σ.id := by
    rw [← Random.tokenString_inj, ← hsDrawn.id, ← htDrawn.id, hSame]
  have hEq : ρ = σ := by
    by_contra hOther
    exact (hOrderly.unlike.forall hρ hσ hOther).id hId
  rw [hsDrawn.token, htDrawn.token, hEq]

end Server

end PadlockCloud
