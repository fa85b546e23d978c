import PadlockCloud.Request.Admission
import PadlockCloud.Request.Tokens

/-!
# Accepted credentials

What it means that `Authenticate` accepts a credential: it is the skeleton key,
or the secret of a token that the account still has after pruning and that has
not expired. The account that is written back is within the stored one.
-/

namespace PadlockCloud

open Time

/-- The token of a request as the handlers get it: with the time of its use,
and with the data that the request has about the device. -/
def AuthToken.refreshed (env : Env) (r : Request) (t : AuthToken) : AuthToken :=
  { t with
    lastUsed := env.now
    device :=
      match t.device with
      | none => deviceFromRequest r
      | some d => some (d.updateFromRequest r) }

theorem AuthToken.refreshed_refreshes (env : Env) (r : Request) (t : AuthToken) (now : Time) :
    (t.refreshed env r).Refreshes now t := ⟨rfl, rfl, rfl, rfl, .inl rfl⟩

/-- The slot `i` with the device of its token updated in place. -/
def Account.touched (acc : Account) (r : Request) (i : Nat) (t : AuthToken) : Account :=
  { acc with
    authTokens := acc.authTokens.set i
      (some { t with device := t.device.map fun d => d.updateFromRequest r }) }

namespace Server

variable {srv : Server} {env : Env} {r : Request} {acc : Account} {t : AuthToken} {auth : Auth}

/-- The two ways in which a credential is accepted. -/
inductive Accepted (srv : Server) (env : Env) (r : Request) (t : AuthToken) (acc : Account) :
    Auth → Prop where
  | skeleton (base : Account) (hPruned : acc.pruned env.now = some base)
      (hType : t.type = lit "skeleton") (hKey : srv.skeletonKey ≠ [])
      (hIP : srv.skeletonIP = [] ∨ srv.skeletonIP = ipFromRequest r)
      (hToken : srv.skeletonKey = t.token) :
      Accepted srv env r t acc
        ⟨t.refreshed env r, base.updateAuthToken (t.refreshed env r)⟩
  | stored (base : Account) (i : Nat) (s : AuthToken) (hPruned : acc.pruned env.now = some base)
      (hType : t.type ≠ lit "skeleton") (hFind : base.findAuthToken t = some (i, s))
      (hToken : s.token = t.token) (hExpired : s.expired env.now = false) :
      Accepted srv env r t acc
        ⟨s.refreshed env r, (base.touched r i s).updateAuthToken (s.refreshed env r)⟩

theorem noteUse_none (base : Account) (hDevice : t.device = none) :
    noteUse env r t none base = (t.refreshed env r, base) := by
  simp [noteUse, AuthToken.refreshed, hDevice]

theorem noteUse_some {base : Account} {i : Nat} (hAt : base.authTokens[i]? = some (some t)) :
    noteUse env r t (some i) base = (t.refreshed env r, base.touched r i t) := by
  obtain ⟨hBound, hGet⟩ := List.getElem?_eq_some_iff.mp hAt
  cases hDevice : t.device with
  | none =>
    have hSame : base.authTokens.set i (some t) = base.authTokens := by
      rw [← hGet, List.set_getElem_self]
    have hToken : ({ t with device := none } : AuthToken) = t := by rw [← hDevice]
    simp [noteUse, AuthToken.refreshed, Account.touched, hDevice, hToken, hSame]
  | some d =>
    simp [noteUse, AuthToken.refreshed, Account.touched, hDevice,
      List.modify_eq_set, hAt]

theorem accepted_of_acceptToken (hDevice : t.device = none)
    (hAccept : srv.acceptToken env r t acc = .ok auth) : srv.Accepted env r t acc auth := by
  unfold acceptToken at hAccept
  cases hPruned : acc.pruned env.now with
  | none =>
    rw [Account.pruned] at hPruned
    simp [hPruned] at hAccept
  | some base =>
    have hBase := hPruned
    rw [Account.pruned] at hBase
    simp only [hBase] at hAccept
    unfold identify at hAccept
    by_cases hType : t.type = lit "skeleton"
    · rw [if_pos hType] at hAccept
      by_cases hKey : srv.skeletonKey = [] ∨
          (srv.skeletonIP ≠ [] ∧ srv.skeletonIP ≠ ipFromRequest r) ∨ srv.skeletonKey ≠ t.token
      · simp [if_pos hKey] at hAccept
      · simp only [if_neg hKey, noteUse_none base hDevice] at hAccept
        push Not at hKey
        obtain ⟨hKey, hIP, hToken⟩ := hKey
        split at hAccept
        · cases hAccept
        · cases hAccept
          refine .skeleton base hPruned hType hKey ?_ hToken
          by_cases hNone : srv.skeletonIP = []
          · exact .inl hNone
          · exact .inr (hIP hNone)
    · rw [if_neg hType] at hAccept
      cases hFind : base.findAuthToken t with
      | none => simp [AuthToken.validate, hFind] at hAccept
      | some found =>
        obtain ⟨i, s⟩ := found
        by_cases hToken : s.token = t.token
        · simp only [AuthToken.validate, hFind, hToken, if_true, Option.map_some,
            noteUse_some (Account.findAuthToken_eq_some hFind).1] at hAccept
          split at hAccept
          · cases hAccept
          · rename_i hExpired
            cases hAccept
            exact .stored base i s hPruned hType hFind hToken (by simpa using hExpired)
        · simp [AuthToken.validate, hFind, hToken] at hAccept

/-! ## The written account -/

/-- Updating a device in place touches nothing else. -/
theorem within_touched {base : Account} {i : Nat} (hAt : base.authTokens[i]? = some (some t))
    (now : Time) : (base.touched r i t).Within now base :=
  Account.within_set hAt rfl ⟨t, List.mem_of_getElem? hAt, ⟨rfl, rfl, rfl, rfl, .inl rfl⟩⟩

theorem mem_touched {base : Account} {i : Nat} (hAt : base.authTokens[i]? = some (some t)) :
    some { t with device := t.device.map fun d => d.updateFromRequest r } ∈
      (base.touched r i t).authTokens :=
  List.mem_set (List.getElem?_eq_some_iff.mp hAt).1 _

/-- The written account holds no secret that the stored one did not. -/
theorem Accepted.secrets (hAccepted : srv.Accepted env r t acc auth) (hToken : t.token ≠ []) :
    auth.account.secrets.Subperm acc.secrets := by
  cases hAccepted with
  | skeleton base hPruned hType hKey hIP hSkeleton =>
    have hSecretNe : (t.refreshed env r).token ≠ [] := hToken
    rw [Account.updateAuthToken_secrets _ hSecretNe]
    exact (Account.within_pruned hPruned 0).secrets
  | stored base i s hPruned hType hFind hSecret hExpired =>
    have hSecretNe : (s.refreshed env r).token ≠ [] := by rwa [← hSecret] at hToken
    rw [Account.updateAuthToken_secrets _ hSecretNe]
    exact (within_touched (Account.findAuthToken_eq_some hFind).1 0).secrets.trans
      (Account.within_pruned hPruned 0).secrets

theorem Accepted.email (hAccepted : srv.Accepted env r t acc auth) :
    auth.account.email = acc.email := by
  cases hAccepted with
  | skeleton base hPruned =>
    rw [Account.updateAuthToken_email]
    exact (Account.within_pruned hPruned 0).email
  | stored base i s hPruned =>
    rw [Account.updateAuthToken_email]
    exact (Account.within_pruned hPruned 0).email

/-- The written account is within the stored one, unless the skeleton key is
written over a token that claims to be one. -/
theorem Accepted.within (hAccepted : srv.Accepted env r t acc auth) (hToken : t.token ≠ [])
    (hTypes : ∀ s, some s ∈ acc.authTokens → s.type ≠ lit "skeleton") :
    auth.account.Within env.now acc := by
  cases hAccepted with
  | skeleton base hPruned hType hKey hIP hSkeleton =>
    have hWithin := Account.within_pruned hPruned env.now
    rcases base.updateAuthToken_eq (t.refreshed env r) with hSame | ⟨i, old, hFind, -⟩
    · rw [hSame]
      exact hWithin
    · obtain ⟨hAt, hCovers, -⟩ := Account.findAuthToken_eq_some hFind
      have hOld : old.type = lit "skeleton" := by
        have hType' := (Account.covers_iff.mp hCovers).1
        simp only [AuthToken.refreshed, hType] at hType'
        exact hType'.resolve_left (by decide)
      obtain ⟨u, hu, hRefreshes⟩ := hWithin.tokens old (List.mem_of_getElem? hAt)
      exact absurd (hRefreshes.type.symm.trans hOld) (hTypes u hu)
  | stored base i s hPruned hType hFind hSecret hExpired =>
    obtain ⟨hAt, -⟩ := Account.findAuthToken_eq_some hFind
    have hSecretNe : (s.refreshed env r).token ≠ [] := by rwa [← hSecret] at hToken
    have hFrom : ∃ u, some u ∈ (base.touched r i s).authTokens ∧
        (s.refreshed env r).Refreshes env.now u :=
      ⟨_, mem_touched hAt, ⟨rfl, rfl, rfl, rfl, .inl rfl⟩⟩
    have hUpdate := Account.within_updateAuthToken hSecretNe hFrom
    have hTouched := within_touched (r := r) hAt env.now
    exact (hUpdate.trans (Int.le_refl _) hTouched).trans (Int.le_refl _)
      (Account.within_pruned hPruned env.now)

/-- The token that the handlers get is the skeleton key or a stored token. -/
theorem Accepted.token (hAccepted : srv.Accepted env r t acc auth) :
    (t.type = lit "skeleton" ∧ srv.skeletonKey ≠ [] ∧ srv.skeletonKey = t.token ∧
        auth.token = t.refreshed env r) ∨
      (t.type ≠ lit "skeleton" ∧ ∃ s, some s ∈ acc.authTokens ∧ s.token = t.token ∧
        s.expired env.now = false ∧ auth.token = s.refreshed env r) := by
  cases hAccepted with
  | skeleton base hPruned hType hKey hIP hSkeleton => exact .inl ⟨hType, hKey, hSkeleton, rfl⟩
  | stored base i s hPruned hType hFind hSecret hExpired =>
    have hMem : some s ∈ base.authTokens :=
      List.mem_of_getElem? (Account.findAuthToken_eq_some hFind).1
    obtain ⟨-, rfl⟩ := Account.pruned_eq_some.mp hPruned
    exact .inr ⟨hType, s, (List.mem_filter.mp hMem).1, hSecret, hExpired, rfl⟩

/-- An accepted request has a credential for a stored account. -/
theorem authenticated_ok {b : Backend} {T : Tables}
    (hAuth : srv.authenticated b env r T = .ok auth) :
    ∃ t acc a, authTokenFromRequest r = some t ∧ T.accounts t.email = some acc ∧
      srv.Accepted env r t acc a ∧ auth = ⟨a.token, b.prepare env.now a.account⟩ := by
  unfold authenticated at hAuth
  cases hToken : authTokenFromRequest r with
  | none => simp [hToken] at hAuth
  | some t =>
    simp only [hToken] at hAuth
    cases hAccount : T.accounts t.email with
    | none => simp [hAccount] at hAuth
    | some acc =>
      simp only [hAccount] at hAuth
      cases hAccept : srv.acceptToken env r t acc with
      | error e => simp [hAccept, Except.map] at hAuth
      | ok a =>
        rw [hAccept] at hAuth
        have hDevice : t.device = none := (authTokenFromString_some hToken).2.2.1
        exact ⟨t, acc, a, rfl, hAccount, accepted_of_acceptToken hDevice hAccept,
          (Except.ok.inj hAuth).symm⟩

/-! ## The search for the refreshed token -/

/-- Neither the stored token nor the request has a device with a UUID that the
other one lacks. -/
def SameDevice (r : Request) (s : AuthToken) : Prop :=
  s.device.isSome ∨ ∀ d, deviceFromRequest r = some d → d.uuid = []

/-- The copy of a token with another device is found at its own slot, if the
devices agree. -/
theorem covers_touched {s : AuthToken} (hSame : SameDevice r s) :
    (s.refreshed env r).covers
      { s with device := s.device.map fun d => d.updateFromRequest r } = true := by
  refine Account.covers_iff.mpr ⟨.inr rfl, .inr rfl, .inr rfl, ?_⟩
  intro d hDevice hUUID
  cases hStored : s.device with
  | some stored =>
    simp only [AuthToken.refreshed, hStored, Option.some.injEq] at hDevice
    exact ⟨_, rfl, by rw [← hDevice]⟩
  | none =>
    simp only [AuthToken.refreshed, hStored] at hDevice
    rcases hSame with hSome | hEmpty
    · simp [hStored] at hSome
    · exact absurd (hEmpty d hDevice) hUUID

/-- Without agreement on the device nothing is found. -/
theorem not_covers_touched (env : Env) {base : Account} {i : Nat} {s : AuthToken}
    (hDistinct : base.secrets.Nodup) (hAt : base.authTokens[i]? = some (some s))
    (hToken : s.token ≠ []) (hOther : ¬SameDevice r s) :
    ∀ u, some u ∈ (base.touched r i s).authTokens → (s.refreshed env r).covers u = false := by
  simp only [SameDevice, not_or, Option.not_isSome_iff_eq_none, not_forall] at hOther
  obtain ⟨hNoDevice, d, hDevice, hUUID⟩ := hOther
  have hRefreshed : (s.refreshed env r).device = some d := by
    simp only [AuthToken.refreshed, hNoDevice, hDevice]
  have hTouched := within_touched (r := r) hAt env.now
  intro u hu
  by_contra hCovers
  have hCovers := Account.covers_iff.mp (Bool.not_eq_false _ ▸ hCovers)
  have hSecret : u.token = s.token := hCovers.2.1.resolve_left hToken
  have hSlot : u = { s with device := s.device.map fun d => d.updateFromRequest r } :=
    Account.eq_of_secret (hTouched.nodup hDistinct) hu (mem_touched hAt) hSecret
  obtain ⟨other, hOther, -⟩ := hCovers.2.2.2 d hRefreshed hUUID
  rw [hSlot, hNoDevice] at hOther
  cases hOther

end Server

end PadlockCloud
