import Mathlib.Data.List.Nodup
import Mathlib.Data.List.Perm.Subperm
import Mathlib.Data.List.ReduceOption
import PadlockCloud.Model.Middleware

/-!
# The tokens of an account

Every handler that writes an account takes its tokens through a few operations:
the two pruning passes, the refreshing of the presented token, a removal, a
revocation, and the addition of an activated token. All but the last leave an
account *within* the one before: its tokens are refreshed versions of tokens
that were there, and no secret occurs more often than before.
-/

namespace PadlockCloud

open Time

/-! ## Refreshed tokens -/

/-- `s` is `t` after some requests up to the instant `now`: the same token, with
new data about its use, and possibly revoked. -/
structure AuthToken.Refreshes (now : Time) (s t : AuthToken) : Prop where
  email : s.email = t.email
  token : s.token = t.token
  type : s.type = t.type
  id : s.id = t.id
  expires : s.expires = t.expires ∨ s.expired now = true

namespace AuthToken.Refreshes

variable {now later : Time} {s t u : AuthToken}

theorem refl (now : Time) (t : AuthToken) : t.Refreshes now t := ⟨rfl, rfl, rfl, rfl, .inl rfl⟩

theorem expired_mono (hTime : now ≤ later) (hExpired : t.expired now = true) :
    t.expired later = true := by
  simp only [expired, ne_eq, decide_not, Bool.and_eq_true, Bool.not_eq_true', decide_eq_false_iff_not,
    decide_eq_true_eq] at hExpired ⊢
  exact ⟨hExpired.1, Int.lt_of_lt_of_le hExpired.2 hTime⟩

theorem expired_congr (hExpires : s.expires = t.expires) (now : Time) :
    s.expired now = t.expired now := by
  rw [expired, expired, hExpires]

/-- A refreshed token of an expired one is expired. -/
theorem expired (hRefreshes : s.Refreshes now t) (hExpired : t.expired now = true) :
    s.expired now = true := by
  rcases hRefreshes.expires with hSame | hRevoked
  · rw [expired_congr hSame]
    exact hExpired
  · exact hRevoked

theorem trans (hTime : now ≤ later) (hFirst : s.Refreshes later t) (hSecond : t.Refreshes now u) :
    s.Refreshes later u where
  email := hFirst.email.trans hSecond.email
  token := hFirst.token.trans hSecond.token
  type := hFirst.type.trans hSecond.type
  id := hFirst.id.trans hSecond.id
  expires := by
    rcases hSecond.expires with hSame | hRevoked
    · rw [← hSame]
      exact hFirst.expires
    · exact .inr (hFirst.expired (expired_mono hTime hRevoked))

end AuthToken.Refreshes

namespace Account

variable {acc acc' acc'' : Account} {now later : Time} {pattern s t : AuthToken}

/-! ## Accounts within accounts -/

/-- The secrets of the tokens of an account. -/
def secrets (acc : Account) : List GoString := acc.authTokens.reduceOption.map AuthToken.token

theorem mem_secrets {secret : GoString} :
    secret ∈ acc.secrets ↔ ∃ t, some t ∈ acc.authTokens ∧ t.token = secret := by
  simp [secrets, List.reduceOption_mem_iff]

/-- Everything in `acc'` was in `acc` already. -/
structure Within (now : Time) (acc' acc : Account) : Prop where
  email : acc'.email = acc.email
  tokens : ∀ s, some s ∈ acc'.authTokens → ∃ t, some t ∈ acc.authTokens ∧ s.Refreshes now t
  secrets : acc'.secrets.Subperm acc.secrets
  nils : none ∈ acc'.authTokens → none ∈ acc.authTokens

namespace Within

theorem refl (now : Time) (acc : Account) : acc.Within now acc where
  email := rfl
  tokens s hs := ⟨s, hs, .refl now s⟩
  secrets := List.Subperm.refl _
  nils := id

theorem trans (hTime : now ≤ later) (hSecond : acc''.Within later acc')
    (hFirst : acc'.Within now acc) : acc''.Within later acc where
  email := hSecond.email.trans hFirst.email
  tokens s hs := by
    obtain ⟨t, ht, hst⟩ := hSecond.tokens s hs
    obtain ⟨u, hu, htu⟩ := hFirst.tokens t ht
    exact ⟨u, hu, hst.trans hTime htu⟩
  secrets := hSecond.secrets.trans hFirst.secrets
  nils h := hFirst.nils (hSecond.nils h)

theorem nodup (hWithin : acc'.Within now acc) (hDistinct : acc.secrets.Nodup) :
    acc'.secrets.Nodup := by
  obtain ⟨l, hPerm, hSublist⟩ := hWithin.secrets
  exact hPerm.nodup_iff.mp (hSublist.nodup hDistinct)

theorem mem_secrets (hWithin : acc'.Within now acc) {secret : GoString}
    (hSecret : secret ∈ acc'.secrets) : secret ∈ acc.secrets :=
  hWithin.secrets.subset hSecret

end Within

/-! ## Pruning -/

theorem filterTokens_eq_some {keep : AuthToken → Bool} {l l' : List (Option AuthToken)} :
    filterTokens keep l = some l' ↔ none ∉ l ∧ l' = l.filter (Option.any keep) := by
  induction l generalizing l' with
  | nil => simp [filterTokens, eq_comm]
  | cons o l ih =>
    cases o with
    | none => simp [filterTokens]
    | some t =>
      simp only [filterTokens, Option.map_eq_some_iff, ih]
      constructor
      · rintro ⟨kept, ⟨hNil, rfl⟩, rfl⟩
        refine ⟨by simpa using hNil, ?_⟩
        cases hKeep : keep t <;> simp [hKeep]
      · rintro ⟨hNil, rfl⟩
        refine ⟨_, ⟨by simpa using hNil, rfl⟩, ?_⟩
        cases hKeep : keep t <;> simp [hKeep]

theorem secrets_filter_subperm (keep : AuthToken → Bool) (l : List (Option AuthToken)) :
    ((l.filter (Option.any keep)).reduceOption.map AuthToken.token).Subperm
      (l.reduceOption.map AuthToken.token) :=
  ((List.filter_sublist.filterMap id).map AuthToken.token).subperm

/-- A pruning pass keeps some of the tokens as they are. -/
theorem within_filterTokens {keep : AuthToken → Bool} {l : List (Option AuthToken)}
    (hFilter : filterTokens keep acc.authTokens = some l) (now : Time) :
    Account.Within now { acc with authTokens := l } acc := by
  obtain ⟨hNil, rfl⟩ := filterTokens_eq_some.mp hFilter
  refine ⟨rfl, ?_, secrets_filter_subperm keep acc.authTokens, ?_⟩
  · intro s hs
    exact ⟨s, (List.mem_filter.mp hs).1, .refl now s⟩
  · intro hNone
    exact (List.mem_filter.mp hNone).1

/-- The account after both pruning passes. -/
def pruned (now : Time) (acc : Account) : Option Account :=
  (acc.expireUnusedAuthTokens now).bind fun acc => acc.removeExpiredAuthTokens now

theorem pruned_eq_some :
    acc.pruned now = some acc' ↔
      none ∉ acc.authTokens ∧
        acc' = { acc with
          authTokens := acc.authTokens.filter (Option.any fun t =>
            keepsUnused now t && keepsExpired now t) } := by
  simp only [pruned, expireUnusedAuthTokens, removeExpiredAuthTokens, Option.bind_eq_some_iff,
    Option.map_eq_some_iff, filterTokens_eq_some]
  have hBoth : acc.authTokens.filter (Option.any fun t => keepsUnused now t && keepsExpired now t) =
      (acc.authTokens.filter (Option.any (keepsUnused now))).filter
        (Option.any (keepsExpired now)) := by
    rw [List.filter_filter]
    congr 1
    funext o
    cases o <;> simp [Bool.and_comm]
  rw [hBoth]
  constructor
  · rintro ⟨_, ⟨_, ⟨hNil, rfl⟩, rfl⟩, ⟨_, ⟨-, rfl⟩, rfl⟩⟩
    exact ⟨hNil, rfl⟩
  · rintro ⟨hNil, rfl⟩
    refine ⟨_, ⟨_, ⟨hNil, rfl⟩, rfl⟩, _, ⟨?_, rfl⟩, rfl⟩
    intro hNone
    exact hNil (List.mem_filter.mp hNone).1

theorem within_pruned (hPruned : acc.pruned now = some acc') (later : Time) :
    acc'.Within later acc := by
  obtain ⟨acc₁, hUnused, hExpired⟩ := Option.bind_eq_some_iff.mp hPruned
  obtain ⟨l₁, hFilter₁, rfl⟩ := Option.map_eq_some_iff.mp hUnused
  obtain ⟨l₂, hFilter₂, rfl⟩ := Option.map_eq_some_iff.mp hExpired
  have hSecond : Account.Within later { acc with authTokens := l₂ }
      { acc with authTokens := l₁ } := within_filterTokens hFilter₂ later
  exact hSecond.trans (Int.le_refl later) (within_filterTokens hFilter₁ later)

/-! ## Finding a token -/

theorem findFrom_none {l : List (Option AuthToken)} {start : Nat} :
    findFrom pattern start l = none ↔ ∀ t, some t ∈ l → pattern.covers t = false := by
  induction l generalizing start with
  | nil => simp [findFrom]
  | cons o l ih =>
    cases o with
    | none => simp [findFrom, ih]
    | some s =>
      cases hCovers : pattern.covers s <;> simp [findFrom, hCovers, ih]

theorem findFrom_some {l : List (Option AuthToken)} {start i : Nat}
    (hFind : findFrom pattern start l = some (i, t)) :
    ∃ j, i = start + j ∧ l[j]? = some (some t) ∧ pattern.covers t = true ∧
      ∀ k < j, ∀ s, l[k]? = some (some s) → pattern.covers s = false := by
  induction l generalizing start with
  | nil => cases hFind
  | cons o l ih =>
    have hLater (hRest : findFrom pattern (start + 1) l = some (i, t))
        (hHead : ∀ s, o = some s → pattern.covers s = false) :
        ∃ j, i = start + j ∧ (o :: l)[j]? = some (some t) ∧ pattern.covers t = true ∧
          ∀ k < j, ∀ s, (o :: l)[k]? = some (some s) → pattern.covers s = false := by
      obtain ⟨j, rfl, hAt, hCovers, hFirst⟩ := ih hRest
      refine ⟨j + 1, by omega, hAt, hCovers, ?_⟩
      intro k hk s hs
      cases k with
      | zero => exact hHead s (Option.some.inj hs)
      | succ k => exact hFirst k (by omega) s hs
    cases o with
    | none => exact hLater hFind nofun
    | some s =>
      simp only [findFrom] at hFind
      split at hFind
      · rename_i hCovers
        cases hFind
        exact ⟨0, rfl, rfl, hCovers, nofun⟩
      · rename_i hCovers
        refine hLater hFind fun u hu => ?_
        cases hu
        simpa using hCovers

theorem findAuthToken_eq_none :
    acc.findAuthToken pattern = none ↔
      pattern.isBlank = true ∨ ∀ t, some t ∈ acc.authTokens → pattern.covers t = false := by
  unfold findAuthToken
  cases hBlank : pattern.isBlank <;> simp [findFrom_none]

/-- What a search finds is the first token that the pattern covers. -/
theorem findAuthToken_eq_some {i : Nat} (hFind : acc.findAuthToken pattern = some (i, t)) :
    acc.authTokens[i]? = some (some t) ∧ pattern.covers t = true ∧ pattern.isBlank = false ∧
      ∀ k < i, ∀ s, acc.authTokens[k]? = some (some s) → pattern.covers s = false := by
  unfold findAuthToken at hFind
  split at hFind
  · cases hFind
  · rename_i hBlank
    obtain ⟨j, rfl, hAt, hCovers, hFirst⟩ := findFrom_some hFind
    rw [Nat.zero_add]
    exact ⟨hAt, hCovers, by simpa using hBlank, hFirst⟩

theorem covers_iff :
    pattern.covers t = true ↔
      (pattern.type = [] ∨ t.type = pattern.type) ∧ (pattern.token = [] ∨ t.token = pattern.token) ∧
        (pattern.id = [] ∨ t.id = pattern.id) ∧
          ∀ d, pattern.device = some d → d.uuid ≠ [] →
            ∃ other, t.device = some other ∧ other.uuid = d.uuid := by
  unfold AuthToken.covers
  cases pattern.device with
  | none => simp [and_assoc]
  | some d =>
    by_cases hUUID : d.uuid = []
    · simp [hUUID, and_assoc]
    · simp [hUUID, Option.any_eq_true, and_assoc]

theorem covers_self (t : AuthToken) : t.covers t = true :=
  covers_iff.mpr ⟨.inr rfl, .inr rfl, .inr rfl, fun d hDevice _ => ⟨d, hDevice, rfl⟩⟩

theorem token_of_covers (hCovers : pattern.covers t = true) (hToken : pattern.token ≠ []) :
    t.token = pattern.token :=
  (covers_iff.mp hCovers).2.1.resolve_left hToken

/-! ## Writing a token -/

theorem secrets_eq (acc : Account) :
    acc.secrets = (acc.authTokens.map (Option.map AuthToken.token)).reduceOption := by
  simp [secrets, List.reduceOption_map]

/-- Writing a token over one with the same secret leaves the secrets alone. -/
theorem secrets_set {i : Nat} (hAt : acc.authTokens[i]? = some (some t))
    (hSecret : s.token = t.token) :
    ({ acc with authTokens := acc.authTokens.set i (some s) } : Account).secrets = acc.secrets := by
  rw [secrets_eq, secrets_eq]
  congr 1
  simp only [List.map_set, Option.map_some, hSecret]
  apply List.ext_getElem?
  intro j
  rw [List.getElem?_set]
  split
  · rename_i hEq
    subst hEq
    have hLength : i < acc.authTokens.length := (List.getElem?_eq_some_iff.mp hAt).1
    rw [List.length_map, if_pos hLength, List.getElem?_map, hAt]
    rfl
  · rfl

theorem within_set {i : Nat} (hAt : acc.authTokens[i]? = some (some t))
    (hSecret : s.token = t.token)
    (hFrom : ∃ u, some u ∈ acc.authTokens ∧ s.Refreshes now u) :
    Account.Within now { acc with authTokens := acc.authTokens.set i (some s) } acc where
  email := rfl
  tokens u hu := by
    rcases List.mem_or_eq_of_mem_set hu with hOld | hNew
    · exact ⟨u, hOld, .refl now u⟩
    · cases hNew
      exact hFrom
  secrets := by rw [secrets_set hAt hSecret]
  nils hNone := (List.mem_or_eq_of_mem_set hNone).resolve_right nofun

theorem updateAuthToken_eq (acc : Account) (t : AuthToken) :
    acc.updateAuthToken t = acc ∨
      ∃ i old, acc.findAuthToken t = some (i, old) ∧
        acc.updateAuthToken t = { acc with authTokens := acc.authTokens.set i (some t) } := by
  unfold updateAuthToken
  cases hFind : acc.findAuthToken t with
  | none => exact .inl rfl
  | some found => exact .inr ⟨found.1, found.2, rfl, rfl⟩

/-- Writing back a refreshed token. -/
theorem within_updateAuthToken (hToken : t.token ≠ [])
    (hFrom : ∃ u, some u ∈ acc.authTokens ∧ t.Refreshes now u) :
    (acc.updateAuthToken t).Within now acc := by
  rcases acc.updateAuthToken_eq t with hSame | ⟨i, old, hFind, hSet⟩
  · rw [hSame]
    exact .refl now acc
  · obtain ⟨hAt, hCovers, -⟩ := findAuthToken_eq_some hFind
    rw [hSet]
    exact within_set hAt (token_of_covers hCovers hToken).symm hFrom

theorem updateAuthToken_secrets (acc : Account) (hToken : t.token ≠ []) :
    (acc.updateAuthToken t).secrets = acc.secrets := by
  rcases acc.updateAuthToken_eq t with hSame | ⟨i, old, hFind, hSet⟩
  · rw [hSame]
  · obtain ⟨hAt, hCovers, -⟩ := findAuthToken_eq_some hFind
    rw [hSet, secrets_set hAt (token_of_covers hCovers hToken).symm]

@[simp] theorem updateAuthToken_email (acc : Account) (t : AuthToken) :
    (acc.updateAuthToken t).email = acc.email := by
  rcases acc.updateAuthToken_eq t with hSame | ⟨i, old, -, hSet⟩
  · rw [hSame]
  · rw [hSet]

theorem updateAuthToken_of_not_covers
    (hNone : ∀ s, some s ∈ acc.authTokens → t.covers s = false) : acc.updateAuthToken t = acc := by
  rw [updateAuthToken, findAuthToken_eq_none.mpr (.inr hNone)]

/-- A token that covers one of the account is written into it. -/
theorem mem_updateAuthToken_self (hToken : t.token ≠ []) (hs : some s ∈ acc.authTokens)
    (hCovers : t.covers s = true) : some t ∈ (acc.updateAuthToken t).authTokens := by
  cases hFind : acc.findAuthToken t with
  | none =>
    rcases findAuthToken_eq_none.mp hFind with hBlank | hNone
    · simp [AuthToken.isBlank, hToken] at hBlank
    · rw [hNone s hs] at hCovers
      cases hCovers
  | some found =>
    rw [updateAuthToken, hFind]
    exact List.mem_set (List.getElem?_eq_some_iff.mp (findAuthToken_eq_some hFind).1).1 _

theorem mem_updateAuthToken (hMem : some s ∈ (acc.updateAuthToken t).authTokens) :
    some s ∈ acc.authTokens ∨ s = t := by
  rcases acc.updateAuthToken_eq t with hSame | ⟨i, old, -, hSet⟩
  · exact .inl (hSame ▸ hMem)
  · rw [hSet] at hMem
    exact (List.mem_or_eq_of_mem_set hMem).imp id Option.some.inj

/-! ## Removing a token -/

/-- Filling a slot with the last entry and dropping the last one removes the
slot, up to the order. -/
theorem swapRemove_perm {α : Type} {l : List α} {i : Nat} (hLength : i < l.length) (d e : α) :
    (((l.set i (l.getD (l.length - 1) d)).set (l.length - 1) e).take (l.length - 1)).Perm
      (l.eraseIdx i) := by
  obtain ⟨front, last, rfl⟩ :=
    (List.eq_nil_or_concat l).resolve_left (by rintro rfl; simp at hLength)
  rw [List.concat_eq_append] at hLength ⊢
  have hLast : (front ++ [last]).length - 1 = front.length := by simp
  rw [hLast, List.take_set_of_le (Nat.le_refl _)]
  have hGet : (front ++ [last]).getD front.length d = last := by simp [List.getD]
  rw [hGet]
  rcases Nat.lt_or_ge i front.length with hFront | hBack
  · rw [List.set_append_left _ _ hFront, List.take_append_of_le_length (by simp),
      List.eraseIdx_append_of_lt_length hFront, List.take_of_length_le (by simp)]
    exact (List.set_perm_cons_eraseIdx hFront last).trans (List.perm_append_singleton _ _).symm
  · have hEnd : i = front.length := by
      simp at hLength
      omega
    subst hEnd
    rw [List.set_append_right _ _ (Nat.le_refl _), List.eraseIdx_append_of_length_le (Nat.le_refl _)]
    simp

/-- A removal takes the first token that the pattern covers. -/
theorem removeAuthToken_eq {i : Nat} (hFind : acc.findAuthToken pattern = some (i, t)) :
    ∃ l, acc.removeAuthToken pattern = ({ acc with authTokens := l }, true) ∧
      l.Perm (acc.authTokens.eraseIdx i) := by
  obtain ⟨hAt, -⟩ := findAuthToken_eq_some hFind
  have hLength : i < acc.authTokens.length := (List.getElem?_eq_some_iff.mp hAt).1
  unfold removeAuthToken
  rw [hFind]
  refine ⟨_, rfl, ?_⟩
  simp only [List.length_set]
  exact swapRemove_perm hLength none none

theorem reduceOption_eraseIdx_secrets {i : Nat} (hAt : acc.authTokens[i]? = some (some t)) :
    acc.secrets.Perm
      (t.token :: (acc.authTokens.eraseIdx i).reduceOption.map AuthToken.token) := by
  obtain ⟨hLength, hGet⟩ := List.getElem?_eq_some_iff.mp hAt
  have hPerm := List.getElem_cons_eraseIdx_perm hLength
  rw [hGet] at hPerm
  exact ((hPerm.filterMap id).map AuthToken.token).symm

/-- A removal takes one secret, that of the found token. -/
theorem removeAuthToken_secrets {i : Nat} (hFind : acc.findAuthToken pattern = some (i, t)) :
    acc.secrets.Perm (t.token :: (acc.removeAuthToken pattern).1.secrets) := by
  obtain ⟨l, hRemove, hPerm⟩ := removeAuthToken_eq hFind
  rw [hRemove]
  refine (reduceOption_eraseIdx_secrets (findAuthToken_eq_some hFind).1).trans ?_
  exact (((hPerm.filterMap id).map AuthToken.token).cons t.token).symm

theorem removeAuthToken_of_not_covers
    (hNone : ∀ t, some t ∈ acc.authTokens → pattern.covers t = false) :
    acc.removeAuthToken pattern = (acc, false) := by
  rw [removeAuthToken, findAuthToken_eq_none.mpr (.inr hNone)]

/-- A removal that finds a token takes its secret away, if no other token has it. -/
theorem removeAuthToken_gone (hDistinct : acc.secrets.Nodup) (hToken : pattern.token ≠ [])
    (ht : some t ∈ acc.authTokens) (hCovers : pattern.covers t = true) :
    pattern.token ∉ (acc.removeAuthToken pattern).1.secrets := by
  cases hFind : acc.findAuthToken pattern with
  | none =>
    rcases findAuthToken_eq_none.mp hFind with hBlank | hNone
    · simp [AuthToken.isBlank, hToken] at hBlank
    · rw [hNone t ht] at hCovers
      cases hCovers
  | some found =>
    obtain ⟨i, u⟩ := found
    have hSecret := token_of_covers (findAuthToken_eq_some hFind).2.1 hToken
    rw [← hSecret]
    exact (List.nodup_cons.mp ((removeAuthToken_secrets hFind).nodup hDistinct)).1

theorem within_removeAuthToken (acc : Account) (pattern : AuthToken) (now : Time) :
    (acc.removeAuthToken pattern).1.Within now acc := by
  cases hFind : acc.findAuthToken pattern with
  | none =>
    rw [removeAuthToken, hFind]
    exact .refl now acc
  | some found =>
    obtain ⟨i, t⟩ := found
    obtain ⟨l, hRemove, hPerm⟩ := removeAuthToken_eq hFind
    have hSecrets := (removeAuthToken_secrets hFind).symm.subperm
    rw [hRemove] at hSecrets ⊢
    have hMem : ∀ o ∈ l, o ∈ acc.authTokens := fun o ho =>
      List.mem_of_mem_eraseIdx (hPerm.mem_iff.mp ho)
    refine ⟨rfl, ?_, (List.sublist_cons_self _ _).subperm.trans hSecrets, hMem none⟩
    intro s hs
    exact ⟨s, hMem _ hs, .refl now s⟩

/-- Whether the pattern covers an entry of the slice. -/
def coveredBy (pattern : AuthToken) (o : Option AuthToken) : Bool := o.any pattern.covers

/-- A removal takes one covered token, or it finds none. -/
theorem removeAuthToken_cases (acc : Account) (pattern : AuthToken) :
    (acc.findAuthToken pattern = none ∧ acc.removeAuthToken pattern = (acc, false)) ∨
      ∃ l t, acc.removeAuthToken pattern = ({ acc with authTokens := l }, true) ∧
        pattern.covers t = true ∧ acc.authTokens.Perm (some t :: l) := by
  cases hFind : acc.findAuthToken pattern with
  | none => exact .inl ⟨rfl, by rw [removeAuthToken, hFind]⟩
  | some found =>
    obtain ⟨i, t⟩ := found
    obtain ⟨l, hRemove, hPerm⟩ := removeAuthToken_eq hFind
    obtain ⟨hAt, hCovers, -⟩ := findAuthToken_eq_some hFind
    obtain ⟨hLength, hGet⟩ := List.getElem?_eq_some_iff.mp hAt
    have hErase := List.getElem_cons_eraseIdx_perm hLength
    rw [hGet] at hErase
    exact .inr ⟨l, t, hRemove, hCovers, hErase.symm.trans (hPerm.symm.cons _)⟩

/-! ## Removing all tokens of a pattern -/

/-- `for acc.RemoveAuthToken(t) {}`, from the account before the loop to the one after it. -/
inductive RemovalLoop (pattern : AuthToken) : Account → Account → Prop where
  | done {acc acc' : Account} (hRemove : acc.removeAuthToken pattern = (acc', false)) :
      RemovalLoop pattern acc acc'
  | round {acc next acc' : Account} (hRemove : acc.removeAuthToken pattern = (next, true))
      (rest : RemovalLoop pattern next acc') : RemovalLoop pattern acc acc'

/-- The loop ends: each round makes the slice shorter. -/
theorem removalLoop_removeMatching (pattern : AuthToken) (acc : Account) :
    RemovalLoop pattern acc (Server.removeMatching pattern acc) := by
  have hGo (n : Nat) (acc : Account) (hLength : acc.authTokens.length ≤ n) :
      RemovalLoop pattern acc (Server.removeMatching.go pattern n acc) := by
    induction n generalizing acc with
    | zero =>
      have hNil : acc.authTokens = [] := List.length_eq_zero_iff.mp (by omega)
      refine .done (removeAuthToken_of_not_covers ?_)
      intro t ht
      rw [hNil] at ht
      cases ht
    | succ n ih =>
      rw [Server.removeMatching.go]
      rcases removeAuthToken_cases acc pattern with ⟨-, hRemove⟩ | ⟨l, t, hRemove, -, hPerm⟩
      · rw [hRemove]
        exact .done hRemove
      · have hShorter : l.length ≤ n := by
          have hSame := hPerm.length_eq
          rw [List.length_cons] at hSame
          omega
        rw [hRemove]
        exact .round hRemove (ih { acc with authTokens := l } hShorter)
  exact hGo _ acc (Nat.le_refl _)

namespace RemovalLoop

theorem unique (hFirst : RemovalLoop pattern acc acc') (hSecond : RemovalLoop pattern acc acc'') :
    acc' = acc'' := by
  induction hFirst with
  | done hRemove =>
    cases hSecond with
    | done hOther => exact congrArg Prod.fst (hRemove.symm.trans hOther)
    | round hOther _ => cases congrArg Prod.snd (hRemove.symm.trans hOther)
  | round hRemove _ ih =>
    cases hSecond with
    | done hOther => cases congrArg Prod.snd (hRemove.symm.trans hOther)
    | round hOther rest =>
      obtain rfl := congrArg Prod.fst (hRemove.symm.trans hOther)
      exact ih rest

theorem within (hLoop : RemovalLoop pattern acc acc') (now : Time) : acc'.Within now acc := by
  induction hLoop with
  | @done acc acc' hRemove =>
    have hWithin := within_removeAuthToken acc pattern now
    rwa [hRemove] at hWithin
  | @round acc next _ hRemove _ ih =>
    have hWithin := within_removeAuthToken acc pattern now
    rw [hRemove] at hWithin
    exact ih.trans (Int.le_refl now) hWithin

/-- The loop removes what the pattern covers and nothing else. -/
theorem perm (hPattern : pattern.isBlank = false) (hLoop : RemovalLoop pattern acc acc') :
    acc'.authTokens.Perm (acc.authTokens.filter fun o => !coveredBy pattern o) := by
  induction hLoop with
  | @done acc acc' hRemove =>
    rcases removeAuthToken_cases acc pattern with ⟨hFind, hSame⟩ | ⟨l, t, hOther, -⟩
    · obtain rfl := congrArg Prod.fst (hSame.symm.trans hRemove)
      have hNone := (findAuthToken_eq_none.mp hFind).resolve_left (by simp [hPattern])
      have hAll : acc.authTokens.filter (fun o => !coveredBy pattern o) = acc.authTokens :=
        List.filter_eq_self.mpr fun o ho => by
          cases o with
          | none => rfl
          | some t => rw [coveredBy, Option.any_some, hNone t ho, Bool.not_false]
      rw [hAll]
    · cases congrArg Prod.snd (hOther.symm.trans hRemove)
  | @round acc next acc' hRemove _ ih =>
    rcases removeAuthToken_cases acc pattern with ⟨-, hSame⟩ | ⟨l, t, hOther, hCovers, hPerm⟩
    · cases congrArg Prod.snd (hSame.symm.trans hRemove)
    · obtain rfl := congrArg Prod.fst (hOther.symm.trans hRemove)
      have hFilter := hPerm.filter fun o => !coveredBy pattern o
      rw [List.filter_cons_of_neg (by simp [coveredBy, hCovers])] at hFilter
      exact ih.trans hFilter.symm

end RemovalLoop

/-! ## Activation and revocation -/

/-- An activation adds one token to what is left of the account. -/
theorem activated_eq (acc : Account) (t : AuthToken) (now : Time) :
    ∃ rest : Account, rest.Within now acc ∧ Server.activated acc t = rest.addAuthToken t := by
  unfold Server.activated
  dsimp only
  split
  · exact ⟨_, (removalLoop_removeMatching _ acc).within now, rfl⟩
  · exact ⟨acc, .refl now acc, rfl⟩

/-- The activation of `t` revokes `s`: it has the same type and the same device. -/
def revokes (t s : AuthToken) : Bool :=
  (t.device.any fun d => d.uuid ≠ []) && (Server.devicePattern t).covers s

/-- What an activation leaves: the tokens that are not revoked, and the new one. -/
theorem activated_perm (acc : Account) (t : AuthToken) :
    (Server.activated acc t).authTokens.Perm
      (acc.authTokens.filter (fun o => !o.any (revokes t)) ++ [some t]) := by
  unfold Server.activated addAuthToken
  dsimp only
  cases hDevice : t.device.any fun d => d.uuid ≠ [] with
  | false =>
    have hAll : acc.authTokens.filter (fun o => !o.any (revokes t)) = acc.authTokens :=
      List.filter_eq_self.mpr fun o _ => by
        cases o with
        | none => rfl
        | some s => rw [Option.any_some, revokes, hDevice, Bool.false_and, Bool.not_false]
    rw [if_neg Bool.false_ne_true, hAll]
  | true =>
    obtain ⟨d, hSome, hUUID⟩ := Option.any_eq_true _ _ |>.mp hDevice
    have hPattern : (Server.devicePattern t).isBlank = false := by
      simpa [AuthToken.isBlank, Server.devicePattern, hSome] using hUUID
    have hSame : (fun o : Option AuthToken => !o.any (revokes t)) =
        fun o => !coveredBy (Server.devicePattern t) o := by
      funext o
      cases o with
      | none => rfl
      | some s => rw [coveredBy, Option.any_some, Option.any_some, revokes, hDevice, Bool.true_and]
    rw [if_pos rfl, hSame]
    exact ((removalLoop_removeMatching _ acc).perm hPattern).append_right _

/-- A token is revoked by an activation for the same type and the same device. -/
theorem revokes_iff :
    revokes t s = true ↔ (t.type = [] ∨ s.type = t.type) ∧
      ∃ d other, t.device = some d ∧ d.uuid ≠ [] ∧ s.device = some other ∧ other.uuid = d.uuid := by
  unfold revokes Server.devicePattern
  rw [Bool.and_eq_true, covers_iff]
  cases hDevice : t.device with
  | none => simp
  | some d =>
    by_cases hUUID : d.uuid = []
    · simp [hUUID]
    · simp [hUUID]

@[simp] theorem activated_email (acc : Account) (t : AuthToken) :
    (Server.activated acc t).email = acc.email := by
  obtain ⟨rest, hWithin, hEq⟩ := activated_eq acc t 0
  rw [hEq]
  exact hWithin.email

theorem eq_of_secret (hDistinct : acc.secrets.Nodup) (hs : some s ∈ acc.authTokens)
    (ht : some t ∈ acc.authTokens) (hSecret : s.token = t.token) : s = t := by
  have hInjective := List.inj_on_of_nodup_map hDistinct
  exact hInjective (List.reduceOption_mem_iff.mpr hs) (List.reduceOption_mem_iff.mpr ht) hSecret

theorem revoked_expired (hNow : unixEpoch ≤ now) (t : AuthToken) :
    ({ t with expires := now - minute } : AuthToken).expired now = true := by
  have hMinute : (0 : Int) < minute ∧ minute < unixEpoch := by decide
  simp only [AuthToken.expired, ne_eq, decide_not, Bool.and_eq_true, Bool.not_eq_true',
    decide_eq_false_iff_not, decide_eq_true_eq]
  constructor <;> lia

/-- A revocation finds a token and leaves it expired in the account. -/
theorem revoked_eq (hNow : unixEpoch ≤ now)
    (hRevoked : Server.revoked now acc pattern = some (s, acc')) :
    ∃ t, some t ∈ acc.authTokens ∧ pattern.covers t = true ∧
      s = { t with expires := now - minute } ∧ s.Refreshes now t ∧ some s ∈ acc'.authTokens ∧
        acc'.email = acc.email ∧ (t.token ≠ [] → acc'.Within now acc) := by
  obtain ⟨⟨i, t⟩, hFind, hPair⟩ := Option.map_eq_some_iff.mp hRevoked
  obtain ⟨hAt, hCovers, -⟩ := findAuthToken_eq_some hFind
  have hMem : some t ∈ acc.authTokens := List.mem_of_getElem? hAt
  simp only [Prod.mk.injEq] at hPair
  obtain ⟨hToken, hAccount⟩ := hPair
  have hRefreshes : s.Refreshes now t := by
    subst hToken
    exact ⟨rfl, rfl, rfl, rfl, .inr (revoked_expired hNow t)⟩
  have hSet : Account.Within now { acc with authTokens := acc.authTokens.set i (some s) } acc :=
    within_set hAt hRefreshes.token ⟨t, hMem, hRefreshes⟩
  have hLength : i < acc.authTokens.length := (List.getElem?_eq_some_iff.mp hAt).1
  have hSelf : some s ∈ acc.authTokens.set i (some s) := List.mem_set hLength _
  rw [hToken] at hAccount
  have hKept : some s ∈ acc'.authTokens := by
    rw [← hAccount]
    rcases updateAuthToken_eq { acc with authTokens := acc.authTokens.set i (some s) } s with
      hSame | ⟨j, old, hFound, hUpdate⟩
    · rw [hSame]
      exact hSelf
    · rw [hUpdate]
      exact List.mem_set (List.getElem?_eq_some_iff.mp (findAuthToken_eq_some hFound).1).1 _
  refine ⟨t, hMem, hCovers, hToken.symm, hRefreshes, hKept, ?_, ?_⟩
  · rw [← hAccount, updateAuthToken_email]
  · intro hSecret
    rw [← hAccount]
    exact (within_updateAuthToken (by rwa [hRefreshes.token]) ⟨s, hSelf, .refl now s⟩).trans
      (Int.le_refl now) hSet

/-! ## Stored accounts

A stored account has been through JSON already, so storing what is within it
changes nothing but device data. -/

theorem marshal_token {J : Json} (hFixed : acc.marshal J = acc) (ht : some t ∈ acc.authTokens) :
    t.marshal J = t := by
  have hMap : acc.authTokens.map (Option.map (AuthToken.marshal J)) = acc.authTokens :=
    congrArg Account.authTokens hFixed
  have hToken : Option.map (AuthToken.marshal J) (some t) = some t :=
    List.map_inj_left.mp (hMap.trans (List.map_id _).symm) (some t) ht
  exact Option.some.inj hToken

theorem secrets_marshal (J : Json) (acc : Account) :
    (acc.marshal J).secrets = acc.secrets.map J.coerce := by
  simp only [secrets, marshal, List.reduceOption_map, List.map_map]
  rfl

theorem secrets_prepare (b : Backend) (time : Time) (acc : Account) :
    (b.prepare time acc).secrets = acc.secrets := by
  simp [secrets]

theorem Within.prepare (b : Backend) (time : Time) (hWithin : acc'.Within now acc) :
    (b.prepare time acc').Within now acc where
  email := (b.prepare_email time acc').trans hWithin.email
  tokens s hs := hWithin.tokens s (by rwa [b.prepare_authTokens] at hs)
  secrets := by
    rw [secrets_prepare]
    exact hWithin.secrets
  nils hNone := hWithin.nils (by rwa [b.prepare_authTokens] at hNone)

/-- Storing does not change secrets that were stored before. -/
theorem secrets_marshal_of_subset {J : Json} (hFixed : acc.marshal J = acc)
    (hSubset : acc'.secrets ⊆ acc.secrets) : (acc'.marshal J).secrets = acc'.secrets := by
  have hCoerce : acc.secrets.map J.coerce = acc.secrets.map id := by
    rw [← secrets_marshal, hFixed, List.map_id]
  rw [secrets_marshal]
  refine (List.map_congr_left fun secret hSecret => ?_).trans (List.map_id _)
  exact List.map_inj_left.mp hCoerce secret (hSubset hSecret)

theorem secrets_stored {b : Backend} {time : Time} (hFixed : acc.marshal b.json = acc)
    (hSubset : acc'.secrets ⊆ acc.secrets) :
    ((b.prepare time acc').marshal b.json).secrets = acc'.secrets := by
  rw [secrets_marshal_of_subset hFixed (by rwa [secrets_prepare]), secrets_prepare]

/-- A revocation adds no secret. -/
theorem revoked_secrets (hRevoked : Server.revoked now acc pattern = some (s, acc')) :
    acc'.secrets ⊆ acc.secrets := by
  obtain ⟨⟨i, t⟩, hFind, hPair⟩ := Option.map_eq_some_iff.mp hRevoked
  have hMem : some t ∈ acc.authTokens := List.mem_of_getElem? (findAuthToken_eq_some hFind).1
  simp only [Prod.mk.injEq] at hPair
  obtain ⟨-, rfl⟩ := hPair
  intro secret hSecret
  obtain ⟨u, hu, rfl⟩ := mem_secrets.mp hSecret
  rcases mem_updateAuthToken hu with hOld | rfl
  · rcases List.mem_or_eq_of_mem_set hOld with hOld | hNew
    · exact mem_secrets.mpr ⟨u, hOld, rfl⟩
    · obtain rfl := Option.some.inj hNew
      exact mem_secrets.mpr ⟨t, hMem, rfl⟩
  · exact mem_secrets.mpr ⟨t, hMem, rfl⟩

end Account

/-! ## Presented tokens -/

theorem splitCredential_token {str email token : GoString}
    (hSplit : splitCredential str = some (email, token)) : token ≠ [] := by
  obtain ⟨i, hFind, hPair⟩ := Option.map_eq_some_iff.mp hSplit
  have hColon := List.find?_some hFind
  simp only [Bool.and_eq_true, decide_eq_true_eq] at hColon
  cases hPair
  intro hNil
  rw [List.drop_eq_nil_iff] at hNil
  omega

/-- A credential names a nonempty secret, and nothing else but a skeleton key. -/
theorem authTokenFromString_some {str : GoString} {t : AuthToken}
    (hToken : authTokenFromString str = some t) :
    t.token ≠ [] ∧ t.id = [] ∧ t.device = none ∧ t.expires = 0 ∧
      (t.type = lit "skeleton" ∨ t.type = []) := by
  obtain ⟨⟨scheme, email, token⟩, hMatch, rfl⟩ := Option.map_eq_some_iff.mp hToken
  refine ⟨?_, rfl, rfl, rfl, ?_⟩
  · obtain ⟨_, -, hScheme⟩ := List.exists_of_findSome?_eq_some hMatch
    split at hScheme
    · cases hScheme
    · split at hScheme
      · cases hScheme
      · obtain ⟨⟨email', token'⟩, hSplit, hPair⟩ := Option.map_eq_some_iff.mp hScheme
        cases hPair
        exact splitCredential_token hSplit
  · dsimp only
    split
    · exact .inl rfl
    · exact .inr rfl

end PadlockCloud
