import PadlockCloud.Model.Standard
import PadlockCloud.Request.Runs

/-!
# What `Authenticate` accepts and what it records

The verdict comes out of two pruning passes, a search with wildcards and an
expiry test. For an account with distinct secrets it depends on the one token
with the presented secret only, and on three of its fields.

The use of an accepted token is written back by a second search, with the copy
that has the device of the request by then. Where the stored token has no device
and the request brings a UUID, this search finds nothing and nothing is recorded.
-/

namespace PadlockCloud

open Process Time

namespace Server

variable {srv : Server} {b : Backend} {env : Env} {r : Request} {w : World Tables}
  {acc base : Account} {s t : AuthToken} {now : Time}

/-! ## The verdict on one token -/

/-- A token that is accepted: used in the last thirty days, and not expired. -/
def Valid (now : Time) (s : AuthToken) : Prop :=
  now - 30 * day < s.lastUsed ∧
    (s.expires = 0 ∨ s.type = lit "api" ∧ now ≤ s.expires ∨ s.type ≠ lit "api" ∧ now < s.expires)

/-- An api token that has expired in the last seven days. -/
def RecentlyExpired (now : Time) (s : AuthToken) : Prop :=
  s.type = lit "api" ∧ now - 30 * day < s.lastUsed ∧ now - 7 * day < s.expires ∧ s.expires < now

/-- The token survives both pruning passes. -/
def survives (now : Time) (s : AuthToken) : Bool :=
  Account.keepsUnused now s && Account.keepsExpired now s

theorem valid_iff (s : AuthToken) :
    Valid now s ↔ survives now s = true ∧ s.expired now = false := by
  simp only [Valid, survives, Account.keepsUnused, Account.keepsExpired, AuthToken.expired,
    Bool.and_eq_true, Bool.or_eq_true, Bool.and_eq_false_iff, decide_eq_true_eq,
    decide_eq_false_iff_not, ne_eq]
  by_cases hApi : s.type = lit "api"
  · have hWeek : (0 : Int) < 7 * day := by decide
    simp only [hApi, true_and, not_true_eq_false, false_and, or_false, if_true, and_assoc,
      and_congr_right_iff]
    intro _
    constructor
    · rintro (hNever | hLater)
      · exact ⟨.inl hNever, .inl (not_not_intro hNever)⟩
      · exact ⟨.inr (by lia), .inr (by lia)⟩
    · rintro ⟨hNever | hKept, hDue | hLater⟩
      · exact .inl hNever
      · exact .inl hNever
      · exact .inl (not_not.mp hDue)
      · exact .inr (by lia)
  · simp only [hApi, false_and, not_false_eq_true, true_and, false_or, if_false, and_assoc,
      and_congr_right_iff]
    intro _
    constructor
    · rintro (hNever | hLater)
      · exact ⟨.inl hNever, .inl (not_not_intro hNever)⟩
      · exact ⟨.inr (by lia), .inr (by lia)⟩
    · rintro ⟨hNever | hKept, -⟩
      · exact .inl hNever
      · exact .inr (by lia)

theorem recentlyExpired_iff (hNow : unixEpoch ≤ now) (s : AuthToken) :
    RecentlyExpired now s ↔ survives now s = true ∧ s.expired now = true := by
  have hWeek : 7 * day < unixEpoch := by decide
  have hDay : (0 : Int) < 7 * day := by decide
  simp only [RecentlyExpired, survives, Account.keepsUnused, Account.keepsExpired,
    AuthToken.expired, Bool.and_eq_true, Bool.or_eq_true, decide_eq_true_eq, ne_eq]
  constructor
  · rintro ⟨hApi, hUsed, hKept, hDue⟩
    rw [if_pos hApi]
    exact ⟨⟨hUsed, .inr hKept⟩, by simpa using fun hNever : s.expires = 0 => by lia, hDue⟩
  · rintro ⟨⟨hUsed, hKept⟩, hSome, hDue⟩
    have hNever : ¬s.expires = 0 := by simpa using hSome
    have hKept := hKept.resolve_left hNever
    by_cases hApi : s.type = lit "api"
    · rw [if_pos hApi] at hKept
      exact ⟨hApi, hUsed, hKept, hDue⟩
    · rw [if_neg hApi] at hKept
      exact absurd hKept (by lia)

/-! ## The search -/

/-- A credential finds the tokens with its secret. -/
theorem covers_credential (hToken : authTokenFromRequest r = some t)
    (hType : t.type ≠ lit "skeleton") : t.covers s = true ↔ s.token = t.token := by
  obtain ⟨hSecret, hId, hDevice, -, hScheme⟩ := authTokenFromString_some hToken
  have hAny := hScheme.resolve_left hType
  simp [Account.covers_iff, hSecret, hId, hDevice, hAny]

/-- What the credential finds after pruning: a token that survives it. -/
theorem validate_eq (hToken : authTokenFromRequest r = some t) (hType : t.type ≠ lit "skeleton")
    (hPruned : acc.pruned now = some base) :
    (∃ i s, t.validate base = some (i, s) ∧ some s ∈ acc.authTokens ∧ s.token = t.token ∧
        survives now s = true) ∨
      t.validate base = none ∧
        ∀ s, some s ∈ acc.authTokens → s.token = t.token → survives now s = false := by
  have hSecret := (authTokenFromString_some hToken).1
  obtain ⟨-, hBase⟩ := Account.pruned_eq_some.mp hPruned
  cases hFind : base.findAuthToken t with
  | some found =>
    obtain ⟨i, s⟩ := found
    obtain ⟨hAt, hCovers, -⟩ := Account.findAuthToken_eq_some hFind
    have hSame := (covers_credential hToken hType).mp hCovers
    have hMem : some s ∈ base.authTokens := List.mem_of_getElem? hAt
    rw [hBase, List.mem_filter] at hMem
    exact .inl ⟨i, s, by simp [AuthToken.validate, hFind, hSame], hMem.1, hSame, hMem.2⟩
  | none =>
    refine .inr ⟨by simp [AuthToken.validate, hFind], fun s hs hSame => ?_⟩
    rcases Account.findAuthToken_eq_none.mp hFind with hBlank | hNone
    · simp [AuthToken.isBlank, hSecret] at hBlank
    · by_contra hSurvives
      have hMem : some s ∈ base.authTokens := by
        rw [hBase, List.mem_filter]
        exact ⟨hs, Bool.not_eq_false _ ▸ hSurvives⟩
      have hCovers := (covers_credential hToken hType).mpr hSame
      rw [hNone s hMem] at hCovers
      cases hCovers

/-! ## The verdict on a request -/

/-- The token of the account under the email of the credential with its secret. -/
def Presented (T : Tables) (t s : AuthToken) : Prop :=
  ∃ acc, T.accounts t.email = some acc ∧ some s ∈ acc.authTokens ∧ s.token = t.token

/-- The three verdicts on a token. -/
theorem authenticated_verdict (srv : Server) (b : Backend) (env : Env) {T : Tables}
    (hToken : authTokenFromRequest r = some t)
    (hType : t.type ≠ lit "skeleton")
    (hStored : ∀ acc, T.accounts t.email = some acc → none ∉ acc.authTokens) :
    (∃ s a, Presented T t s ∧ Valid env.now s ∧ srv.authenticated b env r T = .ok a) ∨
      (∃ s, Presented T t s ∧ RecentlyExpired env.now s ∧
        srv.authenticated b env r T = .error (.expiredAuthToken s.email s.token)) ∨
      (∀ s, Presented T t s → ¬Valid env.now s ∧ ¬RecentlyExpired env.now s) ∧
        srv.authenticated b env r T = .error (.invalidAuthToken t.email t.token) := by
  unfold authenticated
  simp only [hToken]
  cases hFound : T.accounts t.email with
  | none =>
    refine .inr (.inr ⟨?_, rfl⟩)
    rintro s ⟨acc, hAcc, -⟩
    rw [hFound] at hAcc
    cases hAcc
  | some acc =>
    have hNil := hStored acc hFound
    have hPresented {s : AuthToken} :
        Presented T t s ↔ some s ∈ acc.authTokens ∧ s.token = t.token := by
      constructor
      · rintro ⟨acc', hAcc, hs⟩
        rw [hFound, Option.some.injEq] at hAcc
        subst hAcc
        exact hs
      · exact fun hs => ⟨acc, hFound, hs⟩
    have hPruned : acc.pruned env.now = some _ := Account.pruned_eq_some.mpr ⟨hNil, rfl⟩
    have hPasses := hPruned
    rw [Account.pruned] at hPasses
    simp only [acceptToken, hPasses, identify, if_neg hType]
    rcases validate_eq hToken hType hPruned with
      ⟨i, s, hFind, hs, hSame, hSurvives⟩ | ⟨hFind, hGone⟩
    · simp only [hFind, Option.map_some]
      cases hExpired : s.expired env.now with
      | true =>
        have hRecent := (recentlyExpired_iff env.now_epoch s).mpr ⟨hSurvives, hExpired⟩
        exact .inr (.inl ⟨s, hPresented.mpr ⟨hs, hSame⟩, hRecent, rfl⟩)
      | false =>
        have hValid := (valid_iff s).mpr ⟨hSurvives, hExpired⟩
        exact .inl ⟨s, _, hPresented.mpr ⟨hs, hSame⟩, hValid, rfl⟩
    · simp only [hFind, Option.map_none]
      refine .inr (.inr ⟨fun s hs => ?_, rfl⟩)
      obtain ⟨hs, hSame⟩ := hPresented.mp hs
      have hDropped := hGone s hs hSame
      rw [valid_iff, recentlyExpired_iff env.now_epoch, hDropped]
      exact ⟨by simp, by simp⟩

/-- At most one token of the account can be meant. -/
theorem presented_unique {T : Tables} {u : AuthToken}
    (hStored : ∀ acc, T.accounts t.email = some acc →
      acc.secrets.Nodup ∧ none ∉ acc.authTokens)
    (hs : Presented T t s) (hu : Presented T t u) : s = u := by
  obtain ⟨acc, hAcc, hs, hSame⟩ := hs
  obtain ⟨acc', hAcc', hu, hSame'⟩ := hu
  rw [hAcc, Option.some.injEq] at hAcc'
  subst hAcc'
  exact Account.eq_of_secret (hStored acc hAcc).1 hs hu (hSame.trans hSame'.symm)

/-- The skeleton key is accepted for every account that there is. -/
theorem authenticated_skeleton (srv : Server) (b : Backend) (env : Env) {T : Tables}
    (hToken : authTokenFromRequest r = some t)
    (hType : t.type = lit "skeleton")
    (hStored : ∀ acc, T.accounts t.email = some acc → none ∉ acc.authTokens) :
    (∃ a, srv.authenticated b env r T = .ok a) ∧ (∃ acc, T.accounts t.email = some acc) ∧
        srv.skeletonKey ≠ [] ∧ srv.skeletonKey = t.token ∧
          (srv.skeletonIP = [] ∨ srv.skeletonIP = ipFromRequest r) ∨
      srv.authenticated b env r T = .error (.invalidAuthToken t.email t.token) ∧
        ¬((∃ acc, T.accounts t.email = some acc) ∧ srv.skeletonKey ≠ [] ∧
          srv.skeletonKey = t.token ∧
            (srv.skeletonIP = [] ∨ srv.skeletonIP = ipFromRequest r)) := by
  have hNever : t.expired env.now = false := by
    simp [AuthToken.expired, (authTokenFromString_some hToken).2.2.2.1]
  unfold authenticated
  simp only [hToken]
  cases hFound : T.accounts t.email with
  | none => exact .inr ⟨rfl, fun h => by simp at h⟩
  | some acc =>
    have hPruned : acc.pruned env.now = some _ :=
      Account.pruned_eq_some.mpr ⟨hStored acc hFound, rfl⟩
    rw [Account.pruned] at hPruned
    simp only [acceptToken, hPruned, identify, if_pos hType]
    by_cases hKey : srv.skeletonKey = [] ∨
        (srv.skeletonIP ≠ [] ∧ srv.skeletonIP ≠ ipFromRequest r) ∨ srv.skeletonKey ≠ t.token
    · rw [if_pos hKey]
      refine .inr ⟨rfl, ?_⟩
      rintro ⟨-, hSome, hSame, hIP⟩
      rcases hKey with hNone | ⟨hSet, hOther⟩ | hOther
      · exact hSome hNone
      · exact hIP.elim hSet hOther
      · exact hOther hSame
    · rw [if_neg hKey]
      push Not at hKey
      obtain ⟨hSome, hIP, hSame⟩ := hKey
      refine .inl ⟨?_, ⟨acc, rfl⟩, hSome, hSame, ?_⟩
      · simp only [hNever]
        exact ⟨_, rfl⟩
      · by_cases hNone : srv.skeletonIP = []
        · exact .inl hNone
        · exact .inr (hIP hNone)

/-! ## Exact acceptance -/

/-- When a credential is accepted and which error a rejected one gets. -/
structure ExactVerdict (srv : Server) (b : Backend) (env : Env) (r : Request) (w : World Tables)
    (t : AuthToken) : Prop where
  accepted : t.type ≠ lit "skeleton" →
    ((∃ a, ((srv.authenticate env r).run (exec b) w).1 = .ok a) ↔
      ∃ s, Presented w.storage t s ∧ Valid env.now s)
  expired : t.type ≠ lit "skeleton" →
    ((∃ email token, ((srv.authenticate env r).run (exec b) w).1 =
        .error (.expiredAuthToken email token)) ↔
      ∃ s, Presented w.storage t s ∧ RecentlyExpired env.now s)
  invalid : t.type ≠ lit "skeleton" →
    (((srv.authenticate env r).run (exec b) w).1 = .error (.invalidAuthToken t.email t.token) ↔
      ¬∃ s, Presented w.storage t s ∧ (Valid env.now s ∨ RecentlyExpired env.now s))
  skeleton : t.type = lit "skeleton" →
    ((∃ a, ((srv.authenticate env r).run (exec b) w).1 = .ok a) ↔
      (∃ acc, w.storage.accounts t.email = some acc) ∧ srv.skeletonKey ≠ [] ∧
        srv.skeletonKey = t.token ∧ (srv.skeletonIP = [] ∨ srv.skeletonIP = ipFromRequest r))
  unchanged : ∀ e, ((srv.authenticate env r).run (exec b) w).1 = .error e →
    ((srv.authenticate env r).run (exec b) w).2.storage = w.storage

/-- Without the skeleton key, the token that is presented decides. -/
theorem authenticated_iff (hToken : authTokenFromRequest r = some t)
    (hType : t.type ≠ lit "skeleton")
    (hStored : ∀ acc, w.storage.accounts t.email = some acc →
      acc.secrets.Nodup ∧ none ∉ acc.authTokens) :
    ((∃ a, srv.authenticated b env r w.storage = .ok a) ↔
      ∃ s, Presented w.storage t s ∧ Valid env.now s) ∧
    ((∃ email token, srv.authenticated b env r w.storage =
        .error (.expiredAuthToken email token)) ↔
      ∃ s, Presented w.storage t s ∧ RecentlyExpired env.now s) ∧
    (srv.authenticated b env r w.storage = .error (.invalidAuthToken t.email t.token) ↔
      ¬∃ s, Presented w.storage t s ∧ (Valid env.now s ∨ RecentlyExpired env.now s)) := by
  have hOne {s u : AuthToken} (hs : Presented w.storage t s) (hu : Presented w.storage t u) :
      s = u := presented_unique hStored hs hu
  have hApart {s : AuthToken} (hValid : Valid env.now s) (hRecent : RecentlyExpired env.now s) :
      False := by
    rw [valid_iff] at hValid
    rw [recentlyExpired_iff env.now_epoch, hValid.2] at hRecent
    cases hRecent.2
  rcases authenticated_verdict srv b env hToken hType fun acc hAcc => (hStored acc hAcc).2 with
    ⟨s, a, hs, hValid, hResult⟩ | ⟨s, hs, hRecent, hResult⟩ | ⟨hNone, hResult⟩
  · refine ⟨iff_of_true ⟨a, hResult⟩ ⟨s, hs, hValid⟩, iff_of_false ?_ ?_, iff_of_false ?_ ?_⟩
    · rintro ⟨email, token, hError⟩
      cases hResult.symm.trans hError
    · rintro ⟨u, hu, hRecent⟩
      exact hApart (hOne hu hs ▸ hValid) hRecent
    · intro hError
      cases hResult.symm.trans hError
    · exact fun hNone => hNone ⟨s, hs, .inl hValid⟩
  · refine ⟨iff_of_false ?_ ?_, iff_of_true ⟨_, _, hResult⟩ ⟨s, hs, hRecent⟩,
      iff_of_false ?_ ?_⟩
    · rintro ⟨a, hOk⟩
      cases hResult.symm.trans hOk
    · rintro ⟨u, hu, hValid⟩
      exact hApart hValid (hOne hu hs ▸ hRecent)
    · intro hError
      cases hResult.symm.trans hError
    · exact fun hNone => hNone ⟨s, hs, .inr hRecent⟩
  · refine ⟨iff_of_false ?_ ?_, iff_of_false ?_ ?_, iff_of_true hResult ?_⟩
    · rintro ⟨a, hOk⟩
      cases hResult.symm.trans hOk
    · rintro ⟨s, hs, hValid⟩
      exact (hNone s hs).1 hValid
    · rintro ⟨email, token, hError⟩
      cases hResult.symm.trans hError
    · rintro ⟨s, hs, hRecent⟩
      exact (hNone s hs).2 hRecent
    · rintro ⟨s, hs, hValid | hRecent⟩
      · exact (hNone s hs).1 hValid
      · exact (hNone s hs).2 hRecent

/-- The verdict of `Authenticate` is the one that the token deserves. A stored account has
no `nil` among its tokens: `Account.Sound` holds of all accounts that requests store. -/
theorem authenticate_exact (hToken : authTokenFromRequest r = some t)
    (hStored : ∀ acc, w.storage.accounts t.email = some acc →
      acc.secrets.Nodup ∧ none ∉ acc.authTokens) :
    ExactVerdict srv b env r w t := by
  constructor
  case accepted =>
    intro hType
    rw [run_authenticate]
    exact (authenticated_iff hToken hType hStored).1
  case expired =>
    intro hType
    rw [run_authenticate]
    exact (authenticated_iff hToken hType hStored).2.1
  case invalid =>
    intro hType
    rw [run_authenticate]
    exact (authenticated_iff hToken hType hStored).2.2
  case skeleton =>
    intro hType
    rw [run_authenticate]
    rcases authenticated_skeleton srv b env hToken hType fun acc hAcc => (hStored acc hAcc).2 with
      ⟨hOk, hKey⟩ | ⟨hError, hNot⟩
    · exact iff_of_true hOk hKey
    · refine iff_of_false ?_ hNot
      rintro ⟨a, hOk⟩
      cases hError.symm.trans hOk
  case unchanged =>
    intro e hError
    rw [run_authenticate] at hError ⊢
    dsimp only at hError ⊢
    rw [hError]
    rfl

/-! ## The recorded use -/

/-- What one header says, or the other one where the first is missing. -/
def eitherHeader (r : Request) (h h' : Header) : GoString :=
  if r.header h ≠ [] then r.header h else r.header h'

/-- A header replaces what was stored, unless the request does not send it. -/
def replaced (J : Json) (sent old : GoString) : GoString := if sent = [] then old else J.coerce sent

/-- The device holds the device headers of the request. -/
structure SentDevice (J : Json) (r : Request) (d : Device) : Prop where
  known : eitherHeader r .devicePlatform .clientPlatform ≠ []
  platform : d.platform = J.coerce (eitherHeader r .devicePlatform .clientPlatform)
  uuid : d.uuid = J.coerce (r.header .deviceUUID)
  manufacturer : d.manufacturer = J.coerce (r.header .deviceManufacturer)
  model : d.model = J.coerce (r.header .deviceModel)
  osVersion : d.osVersion = J.coerce (r.header .deviceOSVersion)
  hostName : d.hostName = J.coerce (r.header .deviceHostname)
  appVersion : d.appVersion = J.coerce (eitherHeader r .deviceAppVersion .clientAppVersion)

/-- The device is the stored one with what the request sends of the versions and
the host name. -/
structure UpdatedDevice (J : Json) (r : Request) (old d : Device) : Prop where
  platform : d.platform = old.platform
  uuid : d.uuid = old.uuid
  manufacturer : d.manufacturer = old.manufacturer
  model : d.model = old.model
  osVersion : d.osVersion = replaced J (r.header .deviceOSVersion) old.osVersion
  hostName : d.hostName = replaced J (r.header .deviceHostname) old.hostName
  appVersion : d.appVersion =
    replaced J (eitherHeader r .deviceAppVersion .clientAppVersion) old.appVersion

/-- What becomes of the device of a token. A request without a platform has none. -/
def DeviceAfter (J : Json) (r : Request) : Option Device → Option Device → Prop
  | some old, some d => UpdatedDevice J r old d
  | some _, none => False
  | none, some d => SentDevice J r d
  | none, none => eitherHeader r .devicePlatform .clientPlatform = []

/-- The account has the token with the time of its use and the device data of the
request. Nothing prunes it in the thirty days that follow. -/
def Recorded (J : Json) (env : Env) (r : Request) (s : AuthToken) (acc : Account) : Prop :=
  ∃ u, some u ∈ acc.authTokens ∧ u.token = s.token ∧ u.lastUsed = env.now ∧
    DeviceAfter J r s.device u.device ∧
      ∀ later : Time, later - 30 * day < env.now → Account.keepsUnused later u = true

theorem deviceFromRequest_eq (r : Request) :
    deviceFromRequest r =
      if eitherHeader r .devicePlatform .clientPlatform = [] then none
      else some
        { platform := eitherHeader r .devicePlatform .clientPlatform
          uuid := r.header .deviceUUID
          manufacturer := r.header .deviceManufacturer
          model := r.header .deviceModel
          osVersion := r.header .deviceOSVersion
          hostName := r.header .deviceHostname
          appVersion := eitherHeader r .deviceAppVersion .clientAppVersion } := by
  have hHeader (s : GoString) : (if s = [] then [] else s) = s := by
    split
    · exact Eq.symm ‹_›
    · rfl
  simp only [deviceFromRequest, Device.updateFromRequest, eitherHeader, ne_eq, ite_not, hHeader]

theorem sentDevice_iff (J : Json) (r : Request) (d : Device) :
    SentDevice J r d ↔ some d = (deviceFromRequest r).map (Device.marshal J) := by
  rw [deviceFromRequest_eq]
  constructor
  · intro hSent
    rw [if_neg hSent.known, Option.map_some, Option.some.injEq]
    apply Device.ext
    case platform => exact hSent.platform
    case uuid => exact hSent.uuid
    case manufacturer => exact hSent.manufacturer
    case model => exact hSent.model
    case osVersion => exact hSent.osVersion
    case hostName => exact hSent.hostName
    case appVersion => exact hSent.appVersion
  · intro hDevice
    split at hDevice
    · cases hDevice
    · obtain rfl := Option.some.inj hDevice
      exact ⟨‹_›, rfl, rfl, rfl, rfl, rfl, rfl, rfl⟩

theorem replaced_eq {J : Json} {old : GoString} (hFixed : J.coerce old = old) (sent : GoString) :
    J.coerce (if sent ≠ [] then sent else old) = replaced J sent old := by
  by_cases hSent : sent = []
  · rw [if_neg (not_not_intro hSent), replaced, if_pos hSent, hFixed]
  · rw [if_pos hSent, replaced, if_neg hSent]

/-- The stored fields have been through JSON already, so those that stay are the same. -/
theorem updatedDevice_iff {J : Json} {old : Device} (hFixed : old.marshal J = old) (r : Request)
    (d : Device) : UpdatedDevice J r old d ↔ d = (old.updateFromRequest r).marshal J := by
  obtain ⟨hPlatform, hUUID, hManufacturer, hModel, hVersion, hName, hApp⟩ :=
    Device.mk.inj hFixed
  have hApp' := replaced_eq hApp (eitherHeader r .deviceAppVersion .clientAppVersion)
  simp only [eitherHeader, ne_eq, ite_not] at hApp'
  have hUpdated : (old.updateFromRequest r).marshal J =
      { platform := old.platform
        uuid := old.uuid
        manufacturer := old.manufacturer
        model := old.model
        osVersion := replaced J (r.header .deviceOSVersion) old.osVersion
        hostName := replaced J (r.header .deviceHostname) old.hostName
        appVersion :=
          replaced J (eitherHeader r .deviceAppVersion .clientAppVersion) old.appVersion } := by
    simp only [Device.marshal, Device.updateFromRequest, hPlatform, hUUID, hManufacturer, hModel,
      replaced_eq hVersion, replaced_eq hName]
    rw [replaced_eq hApp]
    simp only [eitherHeader, ne_eq, ite_not]
  rw [hUpdated]
  constructor
  · intro hNew
    apply Device.ext
    case platform => exact hNew.platform
    case uuid => exact hNew.uuid
    case manufacturer => exact hNew.manufacturer
    case model => exact hNew.model
    case osVersion => exact hNew.osVersion
    case hostName => exact hNew.hostName
    case appVersion => exact hNew.appVersion
  · rintro rfl
    exact ⟨rfl, rfl, rfl, rfl, rfl, rfl, rfl⟩

/-- The device of a refreshed token, as it is stored. -/
theorem deviceAfter_iff {J : Json} (hFixed : s.marshal J = s) (env : Env) (r : Request)
    (device : Option Device) :
    DeviceAfter J r s.device device ↔
      device = (s.refreshed env r).device.map (Device.marshal J) := by
  have hDevice : s.device.map (Device.marshal J) = s.device := congrArg AuthToken.device hFixed
  unfold AuthToken.refreshed
  cases hOld : s.device with
  | some old =>
    rw [hOld, Option.map_some, Option.some.injEq] at hDevice
    cases device with
    | some d => simp [DeviceAfter, updatedDevice_iff hDevice]
    | none => simp [DeviceAfter]
  | none =>
    cases device with
    | some d => exact sentDevice_iff J r d
    | none => simp [DeviceAfter, deviceFromRequest_eq]

/-- The account that is written back has the refreshed token exactly if the
devices agree. -/
theorem recorded_iff (env : Env) {i : Nat} (hDistinct : base.secrets.Nodup)
    (hFixed : ∀ u, some u ∈ base.authTokens → u.marshal b.json = u)
    (hAt : base.authTokens[i]? = some (some s)) (hToken : s.token ≠ []) :
    Recorded b.json env r s ((b.prepare env.now
        ((base.touched r i s).updateAuthToken (s.refreshed env r))).marshal b.json) ↔
      SameDevice r s := by
  have hRefreshed : (s.refreshed env r).token ≠ [] := hToken
  have hSame := hFixed s (List.mem_of_getElem? hAt)
  have hSecret : b.json.coerce s.token = s.token := congrArg AuthToken.token hSame
  constructor
  · rintro ⟨u, hu, hSecret, -, hDevice, -⟩
    rw [deviceAfter_iff hSame env] at hDevice
    by_contra hOther
    have hNone := not_covers_touched env hDistinct hAt hToken hOther
    rw [Account.updateAuthToken_of_not_covers hNone] at hu
    obtain ⟨o, ho, hMarshal⟩ := List.mem_map.mp hu
    obtain ⟨v, rfl, rfl⟩ := Option.map_eq_some_iff.mp hMarshal
    rw [Backend.prepare_authTokens] at ho
    have hTouched := within_touched (r := r) hAt env.now
    have hv : v.token ∈ (base.touched r i s).secrets := Account.mem_secrets.mpr ⟨v, ho, rfl⟩
    have hToken' : v.token = s.token := by
      obtain ⟨t, ht, hBefore⟩ := Account.mem_secrets.mp (hTouched.mem_secrets hv)
      have hKept : b.json.coerce t.token = t.token := congrArg AuthToken.token (hFixed t ht)
      rw [hBefore] at hKept
      rw [← hKept]
      exact hSecret
    obtain rfl : v = { s with device := s.device.map fun d => d.updateFromRequest r } :=
      Account.eq_of_secret (hTouched.nodup hDistinct) ho (mem_touched hAt) hToken'
    -- The slot still has no device, and the request has one.
    simp only [SameDevice, not_or, Option.not_isSome_iff_eq_none, not_forall] at hOther
    obtain ⟨hNoDevice, d, hRequest, -⟩ := hOther
    simp [AuthToken.marshal, AuthToken.refreshed, hNoDevice, hRequest] at hDevice
  · intro hDevices
    have hMem : some (s.refreshed env r) ∈
        ((base.touched r i s).updateAuthToken (s.refreshed env r)).authTokens :=
      Account.mem_updateAuthToken_self hRefreshed (mem_touched hAt) (covers_touched hDevices)
    refine ⟨(s.refreshed env r).marshal b.json, ?_, hSecret, rfl,
      (deviceAfter_iff hSame env r _).mpr rfl, ?_⟩
    · refine List.mem_map.mpr ⟨some (s.refreshed env r), ?_, rfl⟩
      rwa [Backend.prepare_authTokens]
    · intro later hLater
      exact decide_eq_true hLater

/-- The use of an accepted token is recorded exactly if the stored token has a
device or the request brings no device UUID. -/
theorem authenticate_records {a : Auth} (hKept : w.storage.Kept b.json)
    (hToken : authTokenFromRequest r = some t) (hType : t.type ≠ lit "skeleton")
    (hStored : w.storage.accounts t.email = some acc) (hDistinct : acc.secrets.Nodup)
    (hAuth : ((srv.authenticate env r).run (exec b) w).1 = .ok a) :
    ∃ s, some s ∈ acc.authTokens ∧ s.token = t.token ∧
      ((∃ acc', ((srv.authenticate env r).run (exec b) w).2.storage.accounts t.email = some acc' ∧
        Recorded b.json env r s acc') ↔ SameDevice r s) := by
  rw [run_authenticate] at hAuth ⊢
  dsimp only at hAuth ⊢
  rw [hAuth]
  obtain ⟨t', acc₁, a', hToken', hStored', hAccepted, rfl⟩ := authenticated_ok hAuth
  rw [hToken, Option.some.injEq] at hToken'
  subst hToken'
  rw [hStored, Option.some.injEq] at hStored'
  subst hStored'
  have hSecretNe := (authTokenFromString_some hToken).1
  have hEmail := hAccepted.email.trans (hKept.key hStored)
  cases hAccepted with
  | skeleton base hPruned hSkeleton => exact absurd hSkeleton hType
  | stored base i s hPruned _ hFind hSecret hExpired =>
    have hBase := Account.within_pruned hPruned env.now
    obtain ⟨hAt, -⟩ := Account.findAuthToken_eq_some hFind
    refine ⟨s, ?_, hSecret, ?_⟩
    · obtain ⟨-, rfl⟩ := Account.pruned_eq_some.mp hPruned
      exact (List.mem_filter.mp (List.mem_of_getElem? hAt)).1
    have hFixed (u : AuthToken) (hu : some u ∈ base.authTokens) : u.marshal b.json = u := by
      obtain ⟨-, rfl⟩ := Account.pruned_eq_some.mp hPruned
      exact Account.marshal_token (hKept.account hStored) (List.mem_filter.mp hu).1
    rw [← recorded_iff env (hBase.nodup hDistinct) hFixed hAt (by rwa [hSecret])]
    have hFound : (authTables b w.storage (.ok ⟨s.refreshed env r, b.prepare env.now
        ((base.touched r i s).updateAuthToken (s.refreshed env r))⟩)).accounts t.email =
          some ((b.prepare env.now
            ((base.touched r i s).updateAuthToken (s.refreshed env r))).marshal b.json) := by
      simp only [authTables, Tables.putAccount, Backend.prepare_email]
      dsimp only at hEmail
      rw [hEmail, Function.update_self]
    rw [hFound]
    simp only [Option.some.injEq, exists_eq_left']

/-! ## An account with several tokens -/

def deviceless : AuthToken :=
  { email := lit "e@x.io", token := lit "secret", type := lit "api", lastUsed := unixEpoch }

def onPhone : AuthToken :=
  { deviceless with
    token := lit "phone-secret"
    device := some
      { platform := lit "android", uuid := lit "phone", model := lit "m", osVersion := lit "8",
        hostName := lit "h" } }

/-- It has expired one nanosecond ago. -/
def outdated : AuthToken :=
  { deviceless with token := lit "old-secret", expires := unixEpoch - 1 }

def severalTokens : Account :=
  { email := lit "e@x.io", authTokens := [some deviceless, some outdated, some onPhone] }

def severalWorld : World Tables := { storage := .ofAccount severalTokens }

/-- A read of the store with a token, from another device. -/
def tokenRequest (secret : GoString) : Request :=
  { method := lit "GET"
    header := fun h =>
      match h with
      | .authorization => lit "AuthToken e@x.io:" ++ secret
      | .devicePlatform => lit "ios"
      | .deviceUUID => lit "tablet"
      | .deviceOSVersion => lit "9"
      | .clientAppVersion => lit "3"
      | _ => [] }

theorem severalWorld_accounts : severalWorld.storage.accounts (lit "e@x.io") = some severalTokens :=
  by decide +kernel

/-- Of the tokens with these secrets one is valid, one has expired, and one does not exist. -/
theorem authenticate_exact_several :
    ExactVerdict standard .levelDB (.after 0 (.constant 0)) (tokenRequest (lit "phone-secret"))
        severalWorld { email := lit "e@x.io", token := lit "phone-secret" } ∧
      ExactVerdict standard .levelDB (.after 0 (.constant 0)) (tokenRequest (lit "old-secret"))
        severalWorld { email := lit "e@x.io", token := lit "old-secret" } ∧
      ExactVerdict standard .levelDB (.after 0 (.constant 0)) (tokenRequest (lit "no-secret"))
        severalWorld { email := lit "e@x.io", token := lit "no-secret" } := by
  have hStored : ∀ acc, severalWorld.storage.accounts (lit "e@x.io") = some acc →
      acc.secrets.Nodup ∧ none ∉ acc.authTokens := by
    intro acc hFound
    obtain rfl : severalTokens = acc := Option.some.inj (severalWorld_accounts.symm.trans hFound)
    exact ⟨by decide +kernel, by decide +kernel⟩
  exact ⟨authenticate_exact (by decide +kernel) hStored,
    authenticate_exact (by decide +kernel) hStored, authenticate_exact (by decide +kernel) hStored⟩

theorem severalWorld_kept : severalWorld.storage.Kept Json.identity :=
  .ofAccount (Account.marshal_of_lossless Json.identity_lossless _)

/-- The token is on another device, with a UUID of its own. -/
theorem authenticate_records_update :
    ∃ acc, ((standard.authenticate (.after 0 (.constant 0)) (tokenRequest (lit "phone-secret"))).run
        (exec .levelDB) severalWorld).2.storage.accounts (lit "e@x.io") = some acc ∧
      Recorded .identity (.after 0 (.constant 0)) (tokenRequest (lit "phone-secret")) onPhone acc := by
  obtain ⟨a, hAuth, -⟩ := ok_of_map
    (show ((standard.authenticate (.after 0 (.constant 0)) (tokenRequest (lit "phone-secret"))).run
      (exec .levelDB) severalWorld).1.map (fun a => a.token.token) = .ok (lit "phone-secret") by
        decide +kernel)
  have hToken : authTokenFromRequest (tokenRequest (lit "phone-secret")) =
      some { email := lit "e@x.io", token := lit "phone-secret" } := by decide +kernel
  have hDistinct : severalTokens.secrets.Nodup := by decide +kernel
  obtain ⟨s, hs, hSecret, hRecorded⟩ := authenticate_records severalWorld_kept hToken
    (by decide +kernel) severalWorld_accounts hDistinct hAuth
  obtain rfl : s = onPhone := Account.eq_of_secret hDistinct hs (by decide +kernel) hSecret
  exact hRecorded.mpr (.inl rfl)

/-! ## A device that is never recorded

The token was activated by a client without device data, and is used by one that
sends a UUID. -/

def devicelessWorld : World Tables :=
  { storage := .ofAccount { email := lit "e@x.io", authTokens := [some deviceless] } }

/-- A read of the store with the token. -/
def useRequest (uuid : GoString) : Request :=
  { method := lit "GET"
    header := fun h =>
      match h with
      | .authorization => lit "AuthToken e@x.io:secret"
      | .devicePlatform => lit "android"
      | .deviceUUID => uuid
      | _ => [] }

theorem devicelessWorld_kept : devicelessWorld.storage.Kept Json.identity :=
  .ofAccount (Account.marshal_of_lossless Json.identity_lossless _)

def useRun (uuid : GoString) : Except HttpError Auth × World Tables :=
  (standard.authenticate (.after 0 (.constant 0)) (useRequest uuid)).run (exec .levelDB)
    devicelessWorld

/-- Not every use is recorded. -/
theorem authenticate_forgets :
    ¬∀ (srv : Server) (b : Backend) (env : Env) (r : Request) (w : World Tables) (t : AuthToken)
      (acc : Account) (a : Auth), w.storage.Kept b.json → authTokenFromRequest r = some t →
      t.type ≠ lit "skeleton" → w.storage.accounts t.email = some acc → acc.secrets.Nodup →
      ((srv.authenticate env r).run (exec b) w).1 = .ok a →
      ∃ s, some s ∈ acc.authTokens ∧ s.token = t.token ∧
        ∃ acc', ((srv.authenticate env r).run (exec b) w).2.storage.accounts t.email = some acc' ∧
          Recorded b.json env r s acc' := by
  intro hAll
  obtain ⟨a, hAuth, -⟩ := ok_of_map
    (show (useRun (lit "phone")).1.map (fun a => a.token.token) = .ok (lit "secret") by
      decide +kernel)
  have hToken : authTokenFromRequest (useRequest (lit "phone")) =
      some { email := lit "e@x.io", token := lit "secret" } := by decide +kernel
  obtain ⟨s, -, -, acc', hFound, u, hu, -, -, hDevice, -⟩ := hAll standard .levelDB
    (.after 0 (.constant 0)) _ _ _ _ _ devicelessWorld_kept hToken (by decide +kernel)
    (show devicelessWorld.storage.accounts (lit "e@x.io") =
      some { email := lit "e@x.io", authTokens := [some deviceless] } by decide +kernel)
    (by decide +kernel) hAuth
  have hNone : ((useRun (lit "phone")).2.storage.accounts (lit "e@x.io")).any
      (fun acc => acc.authTokens.all fun o => o.all fun u => u.device.isNone) = true := by
    decide +kernel
  rw [Option.any_eq_true] at hNone
  obtain ⟨acc, hAcc, hAll'⟩ := hNone
  obtain rfl : acc = acc' := Option.some.inj (hAcc.symm.trans hFound)
  have hNoDevice : u.device = none := by
    simpa using List.all_eq_true.mp hAll' (some u) hu
  rw [hNoDevice] at hDevice
  cases hStored : s.device with
  | some d =>
    rw [hStored] at hDevice
    exact hDevice
  | none =>
    rw [hStored] at hDevice
    -- The request has a platform, and thus a device.
    have hPlatform : eitherHeader (useRequest (lit "phone")) .devicePlatform .clientPlatform ≠ [] :=
      by decide +kernel
    exact hPlatform hDevice

end Server

end PadlockCloud
