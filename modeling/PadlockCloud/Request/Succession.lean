import PadlockCloud.Request.Origin

/-!
# What becomes of a token

A token that an account holds before a request *succeeds* to one that it holds
afterwards, unless the request prunes, removes or revokes it. The operations on
accounts are gone through once, each with the tokens that it does not hand on.
-/

namespace PadlockCloud

open Process Time

/-! ## Successors -/

/-- The UUID of the device of a token, empty if it has none. -/
def AuthToken.deviceUUID (t : AuthToken) : GoString := (t.device.map Device.uuid).getD []

/-- `s` is what `t` has become: the same token, on the same device or on none. -/
structure AuthToken.Succeeds (s t : AuthToken) : Prop where
  email : s.email = t.email
  token : s.token = t.token
  type : s.type = t.type
  id : s.id = t.id
  device : s.deviceUUID = t.deviceUUID ∨ s.deviceUUID = []

namespace AuthToken.Succeeds

variable {s t u : AuthToken} {J : Json}

theorem refl (t : AuthToken) : t.Succeeds t := ⟨rfl, rfl, rfl, rfl, .inl rfl⟩

theorem trans (hSecond : s.Succeeds t) (hFirst : t.Succeeds u) : s.Succeeds u where
  email := hSecond.email.trans hFirst.email
  token := hSecond.token.trans hFirst.token
  type := hSecond.type.trans hFirst.type
  id := hSecond.id.trans hFirst.id
  device := by
    rcases hSecond.device with hSame | hNone
    · rw [hSame]
      exact hFirst.device
    · exact .inr hNone

end AuthToken.Succeeds

theorem AuthToken.deviceUUID_marshal {J : Json} (t : AuthToken) :
    (t.marshal J).deviceUUID = J.coerce t.deviceUUID := by
  have hNil : J.coerce [] = [] := J.coerce_ascii [] nofun
  cases hDevice : t.device <;> simp [deviceUUID, marshal, hDevice, Device.marshal, hNil]

/-- Storing a successor of a stored token. -/
theorem AuthToken.Succeeds.marshal {s t : AuthToken} {J : Json} (hSucceeds : s.Succeeds t)
    (hFixed : t.marshal J = t) : (s.marshal J).Succeeds t where
  email := by
    show J.coerce s.email = t.email
    rw [hSucceeds.email]
    exact congrArg AuthToken.email hFixed
  token := by
    show J.coerce s.token = t.token
    rw [hSucceeds.token]
    exact congrArg AuthToken.token hFixed
  type := by
    show J.coerce s.type = t.type
    rw [hSucceeds.type]
    exact congrArg AuthToken.type hFixed
  id := by
    show J.coerce s.id = t.id
    rw [hSucceeds.id]
    exact congrArg AuthToken.id hFixed
  device := by
    rw [deviceUUID_marshal]
    rcases hSucceeds.device with hSame | hNone
    · refine .inl ?_
      rw [hSame, ← deviceUUID_marshal, hFixed]
    · exact .inr (by rw [hNone, J.coerce_ascii [] nofun])

namespace Account

variable {acc acc' base : Account} {pattern s t u : AuthToken} {now : Time} {i : Nat}

/-- The account holds what has become of `t`. -/
def Holds (acc : Account) (t : AuthToken) : Prop := ∃ s, some s ∈ acc.authTokens ∧ s.Succeeds t

theorem Holds.of_mem (ht : some t ∈ acc.authTokens) : acc.Holds t := ⟨t, ht, .refl t⟩

/-- Every token of `acc` has a successor in `acc'`. -/
def HandsOn (acc acc' : Account) : Prop := ∀ t, some t ∈ acc.authTokens → acc'.Holds t

theorem Holds.handsOn (hHolds : acc.Holds t) (hHandsOn : acc.HandsOn acc') : acc'.Holds t := by
  obtain ⟨s, hs, hst⟩ := hHolds
  obtain ⟨u, hu, hus⟩ := hHandsOn s hs
  exact ⟨u, hu, hus.trans hst⟩

theorem HandsOn.refl (acc : Account) : acc.HandsOn acc := fun _ ht => .of_mem ht

/-! ## Revocation by an activation -/

/-- The same type, and the same nonempty device UUID. -/
theorem revokes_iff_device :
    revokes t s = true ↔
      (t.type = [] ∨ s.type = t.type) ∧ t.deviceUUID ≠ [] ∧ s.deviceUUID = t.deviceUUID := by
  rw [revokes_iff]
  refine and_congr_right fun _ => ?_
  constructor
  · rintro ⟨d, other, hDevice, hUUID, hOther, hSame⟩
    simpa [AuthToken.deviceUUID, hDevice, hOther, hSame] using hUUID
  · rintro ⟨hUUID, hSame⟩
    cases hDevice : t.device with
    | none => simp [AuthToken.deviceUUID, hDevice] at hUUID
    | some d =>
      cases hOther : s.device with
      | none =>
        rw [← hSame] at hUUID
        simp [AuthToken.deviceUUID, hOther] at hUUID
      | some other =>
        simp only [AuthToken.deviceUUID, hDevice, hOther, Option.map_some, Option.getD_some]
          at hUUID hSame
        exact ⟨d, other, rfl, hUUID, rfl, hSame⟩

/-- What revokes a successor would have revoked the token itself. -/
theorem revokes_of_succeeds (hSucceeds : s.Succeeds u) (hRevokes : revokes t s = true) :
    revokes t u = true := by
  obtain ⟨hType, hUUID, hSame⟩ := revokes_iff_device.mp hRevokes
  refine revokes_iff_device.mpr ⟨by rwa [← hSucceeds.type], hUUID, ?_⟩
  rcases hSucceeds.device with hDevice | hNone
  · rw [← hDevice]
    exact hSame
  · rw [← hSame] at hUUID
    exact absurd hNone hUUID

/-! ## The operations on an account -/

/-- Writing a successor over a token. -/
theorem handsOn_set (hAt : acc.authTokens[i]? = some (some t)) (hSucceeds : s.Succeeds t) :
    acc.HandsOn { acc with authTokens := acc.authTokens.set i (some s) } := by
  intro u hu
  obtain ⟨j, hj⟩ := List.mem_iff_getElem?.mp hu
  by_cases hSlot : i = j
  · subst hSlot
    obtain rfl := Option.some.inj (Option.some.inj (hAt.symm.trans hj))
    have hLength := (List.getElem?_eq_some_iff.mp hAt).1
    exact ⟨s, List.mem_set hLength _, hSucceeds⟩
  · refine .of_mem (List.mem_of_getElem? (i := j) ?_)
    rw [List.getElem?_set_ne hSlot]
    exact hj

/-- What a named token covers, it can stand in for. -/
theorem succeeds_of_covers (hCovers : pattern.covers t = true) (hEmail : pattern.email = t.email)
    (hToken : pattern.token ≠ []) (hType : pattern.type ≠ []) (hId : pattern.id ≠ []) :
    pattern.Succeeds t := by
  obtain ⟨hSameType, hSameToken, hSameId, hDevice⟩ := covers_iff.mp hCovers
  refine ⟨hEmail, (hSameToken.resolve_left hToken).symm, (hSameType.resolve_left hType).symm,
    (hSameId.resolve_left hId).symm, ?_⟩
  cases hOwn : pattern.device with
  | none => exact .inr (by simp [AuthToken.deviceUUID, hOwn])
  | some d =>
    by_cases hUUID : d.uuid = []
    · exact .inr (by simp [AuthToken.deviceUUID, hOwn, hUUID])
    · obtain ⟨other, hOther, hSame⟩ := hDevice d hOwn hUUID
      exact .inl (by simp [AuthToken.deviceUUID, hOwn, hOther, hSame])

theorem handsOn_updateAuthToken
    (hCovered : ∀ t, some t ∈ acc.authTokens → pattern.covers t = true → pattern.Succeeds t) :
    acc.HandsOn (acc.updateAuthToken pattern) := by
  rcases acc.updateAuthToken_eq pattern with hSame | ⟨i, old, hFind, hUpdate⟩
  · rw [hSame]
    exact .refl acc
  · obtain ⟨hAt, hCovers, -⟩ := findAuthToken_eq_some hFind
    rw [hUpdate]
    exact handsOn_set hAt (hCovered old (List.mem_of_getElem? hAt) hCovers)

/-- A removal takes a token that the pattern covers. -/
theorem holds_removeAuthToken (ht : some t ∈ acc.authTokens) :
    pattern.covers t = true ∨ (acc.removeAuthToken pattern).1.Holds t := by
  rcases removeAuthToken_cases acc pattern with ⟨-, hRemove⟩ | ⟨l, u, hRemove, hCovers, hPerm⟩
  · rw [hRemove]
    exact .inr (.of_mem ht)
  · rw [hRemove]
    rcases List.mem_cons.mp (hPerm.mem_iff.mp ht) with hFound | hKept
    · obtain rfl := Option.some.inj hFound
      exact .inl hCovers
    · exact .inr (.of_mem hKept)

/-- The token is pruned: it has not been used for 30 days, or it has expired. -/
def Outdated (now : Time) (t : AuthToken) : Prop :=
  t.lastUsed ≤ now - 30 * day ∨ t.expires ≠ 0 ∧ t.expires ≤ now

theorem holds_pruned (hPruned : acc.pruned now = some acc') (ht : some t ∈ acc.authTokens) :
    Outdated now t ∨ acc'.Holds t := by
  obtain ⟨-, rfl⟩ := pruned_eq_some.mp hPruned
  cases hKeeps : keepsUnused now t && keepsExpired now t with
  | true => exact .inr (.of_mem (List.mem_filter.mpr ⟨ht, hKeeps⟩))
  | false =>
    refine .inl ?_
    rcases Bool.and_eq_false_iff.mp hKeeps with hUnused | hExpired
    · exact .inl (Int.not_lt.mp (of_decide_eq_false hUnused))
    · have hWeek : (0 : Int) ≤ 7 * day := by decide
      simp only [keepsExpired, Bool.or_eq_false_iff, decide_eq_false_iff_not] at hExpired
      refine .inr ⟨hExpired.1, ?_⟩
      have hDue := hExpired.2
      split at hDue <;> lia

/-- What an account hands on, it hands on through JSON. -/
theorem Holds.stored {b : Backend} (hHolds : acc.Holds t) (hFixed : t.marshal b.json = t)
    (time : Time) : ((b.prepare time acc).marshal b.json).Holds t := by
  obtain ⟨s, hs, hSucceeds⟩ := hHolds
  refine ⟨s.marshal b.json, ?_, hSucceeds.marshal hFixed⟩
  refine List.mem_map.mpr ⟨some s, ?_, rfl⟩
  rwa [Backend.prepare_authTokens]

end Account

/-! ## Tokens with an id -/

/-- Every token has an id, as `NewAuthToken` gives it one. -/
structure Tables.Identified (T : Tables) : Prop where
  account : ∀ {k acc t}, T.accounts k = some acc → some t ∈ acc.authTokens → t.id ≠ []
  request : ∀ {k ar}, T.authRequests k = some ar → ar.authToken.id ≠ []

theorem Tables.Identified.empty : Tables.empty.Identified := ⟨nofun, nofun⟩

namespace Server

variable {srv : Server} {b : Backend} {endpoint : Endpoint} {env : Env} {r r' : Request}
  {auth : Option Auth} {a : Auth} {T T' : Tables} {w w' : World Tables} {k : GoString}
  {acc acc' : Account} {ar : AuthRequest} {action : Action} {s t u : AuthToken}

theorem newAuthRequest_id {email tType actType : GoString} {device : Option Device}
    (hNew : newAuthRequest env email tType actType device = some ar) : ar.authToken.id ≠ [] := by
  obtain ⟨token, random, hToken, -, rfl⟩ := newAuthRequest_eq_some.mp hNew
  obtain ⟨random', -, rfl⟩ := newAuthToken_eq_some.mp hToken
  split <;> exact tokenString_ne_nil _

theorem Adds.identified {h : Handler} {added : List AuthToken}
    (hAdds : Adds srv env r T k h added) (hIds : T.Identified) : ∀ t ∈ added, t.id ≠ [] := by
  intro t ht
  cases hAdds with
  | activated pattern ar hPattern hFound hKey =>
    obtain rfl := List.mem_singleton.mp ht
    exact hIds.request hFound
  | paired pattern ar login hPattern hFound hKey hLogin hNew =>
    rcases List.mem_cons.mp ht with rfl | hLast
    · exact hIds.request hFound
    · obtain rfl := List.mem_singleton.mp hLast
      exact newAuthRequest_id hNew

theorem identified_perform (action : Action) (hSound : w.storage.Sound b.json)
    (hIds : w.storage.Identified) : (action.perform srv b w).storage.Identified where
  account {k acc' t} hFound ht := by
    obtain ⟨base, hGrown, hWithin⟩ := perform_account hSound hFound
    obtain ⟨s, hs, hRefreshes⟩ := hWithin.tokens t ht
    rw [hRefreshes.id]
    cases hGrown with
    | stored _ _ hStored => exact hIds.account hStored hs
    | added endpoint env r added hHandler hAdds =>
      rcases List.mem_append.mp hs with hOld | hNew
      · obtain ⟨acc, hStored, hMem⟩ := mem_accountAt hOld
        exact hIds.account hStored hMem
      · obtain ⟨u, hu, hEq⟩ := List.mem_map.mp hNew
        obtain rfl := Option.some.inj hEq
        exact hAdds.identified hIds _ hu
  request {k ar} hFound := by
    rcases perform_request hFound with hOld | ⟨new, hIssuing, -, rfl⟩
    · exact hIds.request hOld
    · cases hIssuing with
      | mk endpoint env r r' auth new hAdmitted hHandler hIssues =>
        have hIssued := hIssues.issued (J := b.json)
        obtain ⟨first, hNew, rfl⟩ := Option.map_eq_some_iff.mp hIssues.new
        have hId : first.authToken.id ≠ [] := newAuthRequest_id hNew
        show b.json.coerce first.authToken.id ≠ []
        rwa [hIssued.id]

/-! ## Authentication -/

/-- `Authenticate` hands on every token that it does not prune. -/
theorem Accepted.holds {J : Json} (hAccepted : srv.Accepted env r t acc a)
    (hAccount : acc.Sound J k) (hIds : ∀ s, some s ∈ acc.authTokens → s.id ≠ [])
    (hu : some u ∈ acc.authTokens) : Account.Outdated env.now u ∨ a.account.Holds u := by
  cases hAccepted with
  | skeleton base hPruned hType hKey hIP hSkeleton =>
    refine (Account.holds_pruned hPruned hu).imp id fun hHolds => hHolds.handsOn ?_
    refine Account.handsOn_updateAuthToken fun s hs hCovers => ?_
    have hOld := (Account.covers_iff.mp hCovers).1
    simp only [AuthToken.refreshed, hType] at hOld
    have hBase := hAccount.within (Account.within_pruned hPruned env.now)
    exact absurd (hOld.resolve_left (by decide)) (hBase.mem hs).2.type_ne_skeleton
  | stored base i s hPruned hType hFind hSecret hExpired =>
    have hBase := hAccount.within (Account.within_pruned hPruned env.now)
    obtain ⟨hAt, -⟩ := Account.findAuthToken_eq_some hFind
    obtain ⟨hEmail, hIssued⟩ := hBase.mem (List.mem_of_getElem? hAt)
    have hId : s.id ≠ [] := by
      obtain ⟨-, rfl⟩ := Account.pruned_eq_some.mp hPruned
      exact hIds s (List.mem_filter.mp (List.mem_of_getElem? hAt)).1
    have hTouched : base.HandsOn (base.touched r i s) := by
      refine Account.handsOn_set hAt ⟨rfl, rfl, rfl, rfl, .inl ?_⟩
      cases hDevice : s.device <;> simp [AuthToken.deviceUUID, hDevice]
    refine (Account.holds_pruned hPruned hu).imp id fun hHolds => ?_
    refine (hHolds.handsOn hTouched).handsOn (Account.handsOn_updateAuthToken fun v hv hCovers => ?_)
    have hSame := (hBase.within (within_touched (r := r) hAt env.now)).mem hv
    exact Account.succeeds_of_covers hCovers (hEmail.trans hSame.1.symm) hIssued.token_ne_nil
      hIssued.type_ne_nil hId

/-- The account that a handler gets. -/
theorem authenticated_holds (hSound : T.Sound b.json) (hIds : T.Identified)
    (hAuth : srv.authenticated b env r T = .ok a) (hFound : T.accounts a.account.email = some acc)
    (hu : some u ∈ acc.authTokens) : Account.Outdated env.now u ∨ a.account.Holds u := by
  obtain ⟨t, acc₀, a₀, hToken, hStored, hAccepted, rfl⟩ := authenticated_ok hAuth
  have hAccount := hSound.soundAt hStored
  rw [Backend.prepare_email, hAccepted.email, hAccount.email, hStored] at hFound
  obtain rfl := Option.some.inj hFound
  refine (hAccepted.holds hAccount (fun s hs => hIds.account hStored hs) hu).imp id ?_
  rintro ⟨s, hs, hSucceeds⟩
  exact ⟨s, by rwa [Backend.prepare_authTokens], hSucceeds⟩

/-- The account that is written back. -/
theorem authTables_holds (hSound : T.Sound b.json) (hIds : T.Identified)
    (hFound : T.accounts k = some acc) (hu : some u ∈ acc.authTokens) :
    (∃ a, srv.authenticated b env r T = .ok a ∧ a.account.email = k ∧
        Account.Outdated env.now u) ∨
      ∃ acc', (authTables b T (srv.authenticated b env r T)).accounts k = some acc' ∧
        acc'.Holds u := by
  cases hAuth : srv.authenticated b env r T with
  | error e => exact .inr ⟨acc, hFound, .of_mem hu⟩
  | ok a =>
    by_cases hKey : k = a.account.email
    · subst hKey
      rcases authenticated_holds hSound hIds hAuth hFound hu with hPruned | hHolds
      · exact .inl ⟨a, rfl, rfl, hPruned⟩
      · refine .inr ⟨a.account.marshal b.json, Function.update_self _ _ _, ?_⟩
        obtain ⟨s, hs, hSucceeds⟩ := hHolds
        have hFixed := Account.marshal_token (hSound.account hFound) hu
        exact ⟨s.marshal b.json, List.mem_map.mpr ⟨some s, hs, rfl⟩, hSucceeds.marshal hFixed⟩
    · exact .inr ⟨acc, (Function.update_of_ne hKey _ _).trans hFound, .of_mem hu⟩

/-! ## Activation -/

/-- An activation hands on every token of every account but those that it revokes. -/
theorem activateTables_holds (hKept : T.Kept b.json) (hFound : T.accounts k = some acc)
    (ht : acc.Holds t) :
    (k = ar.authToken.email ∧ Account.revokes ar.authToken t = true) ∨
      ∃ acc', (activateTables b env ar T).accounts k = some acc' ∧ acc'.Holds t := by
  by_cases hKey : k = ar.authToken.email
  · subst hKey
    obtain ⟨s, hs, hSucceeds⟩ := ht
    obtain ⟨acc', hFound', hPerm⟩ := activateTables_tokens env ar hKept
    rw [accountAt, hFound, Option.getD_some] at hPerm
    cases hRevokes : Account.revokes ar.authToken s with
    | true => exact .inl ⟨rfl, Account.revokes_of_succeeds hSucceeds hRevokes⟩
    | false =>
      refine .inr ⟨acc', hFound', s, hPerm.mem_iff.mpr (List.mem_append_left _ ?_), hSucceeds⟩
      exact List.mem_filter.mpr ⟨hs, by rw [Option.any_some, hRevokes, Bool.not_false]⟩
  · refine .inr ⟨acc, ?_, ht⟩
    rw [activateTables_of_ne hKept hKey]
    exact hFound

end Server

end PadlockCloud
