import PadlockCloud.Request.Contracts
import PadlockCloud.Request.Succession

/-!
# Devices of an account

A token on a device with a UUID has a *key*, which is its type and the UUID. The
operations on accounts keep the keys of an account distinct: pruning and removals
only drop keys, a token is written over one with the same key, and an activation
first removes the tokens with the key of the new one.
-/

namespace PadlockCloud

open Process

/-- The type and the UUID of a token on a device with a UUID. -/
def AuthToken.deviceKey (t : AuthToken) : Option (GoString × GoString) :=
  if t.deviceUUID = [] then none else some (t.type, t.deviceUUID)

/-- A token of some type with a device, as JSON stores it. -/
structure AuthToken.Plain (J : Json) (t : AuthToken) : Prop where
  type_ne_nil : t.type ≠ []
  type : J.coerce t.type = t.type
  device : J.coerce t.deviceUUID = t.deviceUUID

theorem newAuthRequest_device {env : Env} {email tType actType : GoString}
    {device : Option Device} {ar : AuthRequest}
    (hNew : newAuthRequest env email tType actType device = some ar) :
    ar.authToken.device = device := by
  obtain ⟨token, random, hToken, -, rfl⟩ := newAuthRequest_eq_some.mp hNew
  obtain ⟨-, -, rfl⟩ := newAuthToken_eq_some.mp hToken
  split <;> rfl

/-- A new token for a device that is stored already. -/
theorem plain_newAuthRequest {J : Json} {env : Env} {email tType actType : GoString}
    {t : AuthToken} {ar : AuthRequest} (hPlain : t.Plain J)
    (hNew : newAuthRequest env email tType actType t.device = some ar)
    (hType : tType = lit "api" ∨ tType = lit "web") : ar.authToken.Plain J := by
  have hIssued : ar.authToken.Issued J := newAuthRequest_issued hNew hType
  refine ⟨hIssued.type_ne_nil, hIssued.coerce_type, ?_⟩
  rw [AuthToken.deviceUUID, newAuthRequest_device hNew]
  exact hPlain.device

namespace Account

variable {J : Json} {acc acc' : Account} {pattern s t : AuthToken} {i : Nat} {now : Time}
  {l : List (Option AuthToken)}

/-- The keys of the tokens of a list. -/
def deviceKeys (l : List (Option AuthToken)) : List (GoString × GoString) :=
  l.filterMap fun o => o.bind AuthToken.deviceKey

/-- No two tokens have the same key. -/
structure OneEach (J : Json) (acc : Account) : Prop where
  distinct : (deviceKeys acc.authTokens).Nodup
  plain : ∀ t, some t ∈ acc.authTokens → t.Plain J

namespace OneEach

theorem empty (email : GoString) : Account.OneEach J { email } := ⟨List.nodup_nil, nofun⟩

/-- At most one token of each type on each device. -/
theorem count_le_one (hOne : acc.OneEach J) (type : GoString) {uuid : GoString} (hUUID : uuid ≠ []) :
    acc.authTokens.countP (fun o => o.any fun t =>
      t.type = type && t.device.any fun d => d.uuid = uuid) ≤ 1 := by
  have hCount := List.nodup_iff_count_le_one.mp hOne.distinct (type, uuid)
  rw [deviceKeys, List.count_filterMap] at hCount
  refine Nat.le_trans (Nat.le_of_eq ?_) hCount
  refine List.countP_congr fun o _ => ?_
  cases o with
  | none => simp
  | some t =>
    cases hDevice : t.device with
    | none => simp [AuthToken.deviceKey, AuthToken.deviceUUID, hDevice]
    | some d =>
      by_cases hNil : d.uuid = []
      · simp [AuthToken.deviceKey, AuthToken.deviceUUID, hDevice, hNil, hUUID.symm]
      · simp [AuthToken.deviceKey, AuthToken.deviceUUID, hDevice, hNil]

/-- Tokens can be dropped and reordered. -/
theorem subperm (hOne : acc.OneEach J) (hSubperm : l.Subperm acc.authTokens) (email : GoString)
    (created : Time) : Account.OneEach J { email, created, authTokens := l } where
  distinct := by
    obtain ⟨l', hPerm, hSublist⟩ := hSubperm
    refine (hPerm.filterMap _).nodup_iff.mp ?_
    exact hOne.distinct.sublist (hSublist.filterMap _)
  plain t ht := hOne.plain t (hSubperm.subset ht)

/-- A token is written over another one, with the same key or without one. -/
theorem set (hOne : acc.OneEach J) (hAt : acc.authTokens[i]? = some (some t)) (hPlain : s.Plain J)
    (hKey : s.deviceKey = t.deviceKey ∨ s.deviceKey = none) :
    Account.OneEach J { acc with authTokens := acc.authTokens.set i (some s) } where
  distinct := by
    obtain ⟨hLength, hGet⟩ := List.getElem?_eq_some_iff.mp hAt
    have hOld := (List.getElem_cons_eraseIdx_perm hLength).filterMap fun o =>
      o.bind AuthToken.deviceKey
    have hNew := (List.set_perm_cons_eraseIdx hLength (some s)).filterMap
      fun o => o.bind AuthToken.deviceKey
    have hRest := hOld.nodup_iff.mpr hOne.distinct
    refine hNew.nodup_iff.mpr ?_
    rw [hGet] at hRest
    simp only [List.filterMap_cons, Option.bind_some] at hRest ⊢
    rcases hKey with hSame | hNone
    · rw [hSame]
      exact hRest
    · rw [hNone]
      cases hOwn : t.deviceKey with
      | none =>
        rw [hOwn] at hRest
        exact hRest
      | some key =>
        rw [hOwn] at hRest
        exact (List.nodup_cons.mp hRest).2
  plain u hu := by
    rcases List.mem_or_eq_of_mem_set hu with hOld | hNew
    · exact hOne.plain u hOld
    · obtain rfl := Option.some.inj hNew
      exact hPlain

/-- Storing the account changes no key. -/
theorem stored {b : Backend} (hOne : acc.OneEach b.json) :
    (acc.marshal b.json).OneEach b.json where
  distinct := by
    have hSame : deviceKeys (acc.marshal b.json).authTokens = deviceKeys acc.authTokens := by
      rw [deviceKeys, deviceKeys, Account.marshal, List.filterMap_map]
      refine List.filterMap_congr fun o ho => ?_
      cases o with
      | none => rfl
      | some t =>
        have hPlain := hOne.plain t ho
        have hUUID : (t.marshal b.json).deviceUUID = t.deviceUUID := by
          rw [AuthToken.deviceUUID_marshal, hPlain.device]
        have hType : (t.marshal b.json).type = t.type := hPlain.type
        simp [AuthToken.deviceKey, hUUID, hType]
    rw [hSame]
    exact hOne.distinct
  plain s hs := by
    obtain ⟨o, ho, hMarshal⟩ := List.mem_map.mp hs
    obtain ⟨t, rfl, rfl⟩ := Option.map_eq_some_iff.mp hMarshal
    have hPlain := hOne.plain t ho
    refine ⟨?_, b.json.coerce_coerce _, ?_⟩
    · show b.json.coerce t.type ≠ []
      rw [hPlain.type]
      exact hPlain.type_ne_nil
    · rw [AuthToken.deviceUUID_marshal, b.json.coerce_coerce]

theorem prepare {b : Backend} (hOne : acc.OneEach J) (time : Time) :
    (b.prepare time acc).OneEach J := by
  refine ⟨?_, ?_⟩
  · rw [Backend.prepare_authTokens]
    exact hOne.distinct
  · rw [Backend.prepare_authTokens]
    exact hOne.plain

/-! ## The operations on an account -/

theorem pruned (hOne : acc.OneEach J) (hPruned : acc.pruned now = some acc') : acc'.OneEach J := by
  obtain ⟨-, rfl⟩ := pruned_eq_some.mp hPruned
  exact hOne.subperm List.filter_sublist.subperm _ _

theorem removeAuthToken (hOne : acc.OneEach J) (pattern : AuthToken) :
    (acc.removeAuthToken pattern).1.OneEach J := by
  rcases removeAuthToken_cases acc pattern with ⟨-, hRemove⟩ | ⟨l, t, hRemove, -, hPerm⟩
  · rw [hRemove]
    exact hOne
  · rw [hRemove]
    exact hOne.subperm ((List.sublist_cons_self _ _).subperm.trans hPerm.symm.subperm) _ _

/-- What a token covers has its key, if it has one itself. -/
theorem plain_of_covers (hOne : acc.OneEach J) (ht : some t ∈ acc.authTokens)
    (hCovers : pattern.covers t = true) (hType : pattern.type ≠ []) :
    pattern.Plain J ∧ (pattern.deviceKey = t.deviceKey ∨ pattern.deviceKey = none) := by
  obtain ⟨hSameType, -, -, hDevice⟩ := covers_iff.mp hCovers
  have hSame := hSameType.resolve_left hType
  have hPlain := hOne.plain t ht
  have hUUID : pattern.deviceUUID = [] ∨ pattern.deviceUUID = t.deviceUUID := by
    cases hOwn : pattern.device with
    | none => exact .inl (by simp [AuthToken.deviceUUID, hOwn])
    | some d =>
      by_cases hNil : d.uuid = []
      · exact .inl (by simp [AuthToken.deviceUUID, hOwn, hNil])
      · obtain ⟨other, hOther, hSameUUID⟩ := hDevice d hOwn hNil
        exact .inr (by simp [AuthToken.deviceUUID, hOwn, hOther, hSameUUID])
  rcases hUUID with hNil | hSameUUID
  · refine ⟨⟨hType, by rw [← hSame, hPlain.type], ?_⟩, .inr (if_pos hNil)⟩
    rw [hNil, J.coerce_ascii [] (List.forall_mem_nil _)]
  · refine ⟨⟨hType, by rw [← hSame, hPlain.type], by rw [hSameUUID, hPlain.device]⟩, .inl ?_⟩
    rw [AuthToken.deviceKey, AuthToken.deviceKey, hSameUUID, hSame]

theorem updateAuthToken (hOne : acc.OneEach J) (hType : t.type ≠ []) :
    (acc.updateAuthToken t).OneEach J := by
  rcases acc.updateAuthToken_eq t with hSame | ⟨i, old, hFind, hUpdate⟩
  · rw [hSame]
    exact hOne
  · obtain ⟨hAt, hCovers, -⟩ := findAuthToken_eq_some hFind
    obtain ⟨hPlain, hKey⟩ := hOne.plain_of_covers (List.mem_of_getElem? hAt) hCovers hType
    rw [hUpdate]
    exact hOne.set hAt hPlain hKey

/-- A token is replaced by itself with other data. -/
theorem set_same (hOne : acc.OneEach J) (hAt : acc.authTokens[i]? = some (some t))
    (hType : s.type = t.type) (hDevice : s.deviceUUID = t.deviceUUID) :
    Account.OneEach J { acc with authTokens := acc.authTokens.set i (some s) } := by
  have hPlain := hOne.plain t (List.mem_of_getElem? hAt)
  refine hOne.set hAt ⟨hType ▸ hPlain.type_ne_nil, by rw [hType, hPlain.type],
    by rw [hDevice, hPlain.device]⟩ (.inl ?_)
  rw [AuthToken.deviceKey, AuthToken.deviceKey, hType, hDevice]

theorem accepted {srv : Server} {env : Env} {r : Request} {a : Auth} (hOne : acc.OneEach J)
    (hAccepted : srv.Accepted env r t acc a) : a.account.OneEach J := by
  cases hAccepted with
  | skeleton base hPruned hType =>
    refine (hOne.pruned hPruned).updateAuthToken ?_
    show t.type ≠ []
    rw [hType]
    decide
  | stored base i s hPruned hType hFind =>
    have hBase := hOne.pruned hPruned
    obtain ⟨hAt, -⟩ := findAuthToken_eq_some hFind
    have hTouched : (base.touched r i s).OneEach J := by
      refine hBase.set_same hAt rfl ?_
      cases hDevice : s.device <;> simp [AuthToken.deviceUUID, hDevice]
    exact hTouched.updateAuthToken (hBase.plain s (List.mem_of_getElem? hAt)).type_ne_nil

theorem revoked (hOne : acc.OneEach J) (hRevoked : Server.revoked now acc pattern = some (t, acc')) :
    acc'.OneEach J := by
  obtain ⟨⟨i, s⟩, hFind, hPair⟩ := Option.map_eq_some_iff.mp hRevoked
  obtain ⟨rfl, rfl⟩ := Prod.mk.inj hPair
  obtain ⟨hAt, -⟩ := findAuthToken_eq_some hFind
  have hSet : Account.OneEach J
      { acc with authTokens := acc.authTokens.set i (some { s with expires := now - Time.minute }) } :=
    hOne.set_same hAt rfl rfl
  have hType : s.type ≠ [] := (hOne.plain s (List.mem_of_getElem? hAt)).type_ne_nil
  exact hSet.updateAuthToken hType

/-- A token with the same key is revoked. -/
theorem revokes_of_deviceKey {key : GoString × GoString} (hOwn : t.deviceKey = some key)
    (hOther : s.deviceKey = some key) : revokes t s = true := by
  simp only [AuthToken.deviceKey, Option.ite_none_left_eq_some, Option.some.injEq] at hOwn hOther
  obtain ⟨hUUID, rfl⟩ := hOwn
  obtain ⟨-, hSame⟩ := hOther
  obtain ⟨hType, hDevice⟩ := Prod.mk.inj hSame
  exact revokes_iff_device.mpr ⟨.inr hType, hUUID, hDevice⟩

/-- An activation removes the tokens that have the key of the new one. -/
theorem activated (hOne : acc.OneEach J) (hPlain : t.Plain J) :
    (Server.activated acc t).OneEach J := by
  have hPerm := (activated_perm acc t).trans List.perm_append_comm
  have hRest : Account.OneEach J
      { acc with authTokens := acc.authTokens.filter fun o => !o.any (revokes t) } :=
    hOne.subperm List.filter_sublist.subperm _ _
  refine ⟨(hPerm.filterMap _).nodup_iff.mpr ?_, fun u hu => ?_⟩
  · rw [List.singleton_append, List.filterMap_cons, Option.bind_some]
    cases hOwn : t.deviceKey with
    | none => exact hRest.distinct
    | some key =>
      refine List.nodup_cons.mpr ⟨fun hMem => ?_, hRest.distinct⟩
      obtain ⟨o, ho, hKey⟩ := List.mem_filterMap.mp hMem
      obtain ⟨u, rfl, hOther⟩ := Option.bind_eq_some_iff.mp hKey
      have hKept := (List.mem_filter.mp ho).2
      rw [Option.any_some, revokes_of_deviceKey hOwn hOther] at hKept
      cases hKept
  · rcases List.mem_append.mp (hPerm.mem_iff.mp hu) with hNew | hOld
    · obtain rfl := Option.some.inj (List.mem_singleton.mp hNew)
      exact hPlain
    · exact hRest.plain u hOld

end OneEach

end Account

end PadlockCloud
