import PadlockCloud.Request.Runs

/-!
# Secrets

Without an activation no stored account gains a secret. A secret that is gone
from an account therefore stays rejected until a token with it is activated.
-/

namespace PadlockCloud

open Process Time

/-- The handler of the request, if it is one, is that of the activations. -/
def Action.activates : Action → Prop
  | .serve endpoint _ r => endpoint.handler r.method = some .activateAuthToken
  | .clean _ _ => False

namespace Server

variable {srv : Server} {b : Backend} {env : Env} {r : Request} {auth : Option Auth}
  {T T' : Tables} {k : GoString} {acc' : Account}

/-- The account of an accepted request holds secrets of the stored account only,
and they are stored as they are. -/
theorem authenticated_secrets (hKept : T.Kept b.json) {a : Auth}
    (hAuth : srv.authenticated b env r T = .ok a) :
    ∃ acc, T.accounts a.account.email = some acc ∧ acc.marshal b.json = acc ∧
      a.account.secrets ⊆ acc.secrets := by
  obtain ⟨t, acc, hToken, hFound, hFixed, -, hEmail, -⟩ := authenticated_kept hKept hAuth
  obtain ⟨t', acc', a', hToken', hFound', hAccepted, rfl⟩ := authenticated_ok hAuth
  rw [hToken, Option.some.injEq] at hToken'
  subst hToken'
  rw [hFound, Option.some.injEq] at hFound'
  subst hFound'
  refine ⟨acc, by rw [hEmail, hFound], hFixed, ?_⟩
  rw [Account.secrets_prepare]
  exact (hAccepted.secrets (authTokenFromString_some hToken).1).subset

theorem storeAccount_secrets {acc₀ : Account} (hFixed : acc₀.marshal b.json = acc₀) {acc : Account}
    (hFound₀ : T.accounts acc.email = some acc₀) (hSubset : acc.secrets ⊆ acc₀.secrets)
    (hFound : (T.storeAccount b env.now acc).accounts k = some acc') :
    ∃ acc, T.accounts k = some acc ∧ acc'.secrets ⊆ acc.secrets := by
  rcases Tables.storeAccount_some hFound with ⟨hKey, rfl⟩ | hOld
  · refine ⟨acc₀, by rw [hKey, hFound₀], ?_⟩
    rw [Account.secrets_stored hFixed hSubset]
    exact hSubset
  · exact ⟨acc', hOld, List.Subset.refl _⟩

theorem authTables_secrets (hKept : T.Kept b.json)
    (hFound : (authTables b T (srv.authenticated b env r T)).accounts k = some acc') :
    ∃ acc, T.accounts k = some acc ∧ acc'.secrets ⊆ acc.secrets := by
  cases hAuth : srv.authenticated b env r T with
  | error e =>
    rw [hAuth] at hFound
    exact ⟨acc', hFound, List.Subset.refl _⟩
  | ok a =>
    obtain ⟨acc, hStored, hFixed, hSubset⟩ := authenticated_secrets hKept hAuth
    rw [hAuth] at hFound
    obtain ⟨-, -, a', -, -, -, rfl⟩ := authenticated_ok hAuth
    rw [authTables_ok] at hFound
    rw [Backend.prepare_email] at hStored
    rw [Account.secrets_prepare] at hSubset
    exact storeAccount_secrets hFixed hStored hSubset hFound

/-- The account that a handler gets lies in the tables that it starts from. -/
theorem authTables_stored (hKept : T.Kept b.json) {a : Auth}
    (hAuth : srv.authenticated b env r T = .ok a) :
    (authTables b T (.ok a)).accounts a.account.email = some (a.account.marshal b.json) ∧
      (a.account.marshal b.json).secrets = a.account.secrets := by
  obtain ⟨acc, -, hFixed, hSubset⟩ := authenticated_secrets hKept hAuth
  exact ⟨by simp [authTables, Tables.putAccount], Account.secrets_marshal_of_subset hFixed hSubset⟩

theorem Effect.secrets {h : Handler} (hEffect : Effect srv b env r auth T h T')
    (hHandler : h ≠ .activateAuthToken)
    (hAuth : ∀ a, auth = some a → ∃ acc, T.accounts a.account.email = some acc ∧
      acc.marshal b.json = acc ∧ a.account.secrets ⊆ acc.secrets)
    (hFound : T'.accounts k = some acc') :
    ∃ acc, T.accounts k = some acc ∧ acc'.secrets ⊆ acc.secrets := by
  cases hEffect with
  | activated => exact absurd rfl hHandler
  | paired => exact absurd rfl hHandler
  | deleted a =>
    simp only [Tables.putAccount, Tables.putDataStore, Function.update_apply] at hFound
    split at hFound
    · cases hFound
    · exact ⟨acc', hFound, List.Subset.refl _⟩
  | loggedOut a hSome =>
    obtain ⟨acc, hStored, hFixed, hSubset⟩ := hAuth a hSome
    have hWithin := Account.within_removeAuthToken a.account a.token 0
    exact storeAccount_secrets hFixed (by rw [hWithin.email, hStored])
      (List.Subset.trans hWithin.secrets.subset hSubset) hFound
  | revoked a pattern t acc hSome hRevoked =>
    obtain ⟨acc₀, hStored, hFixed, hSubset⟩ := hAuth a hSome
    obtain ⟨-, -, -, -, -, -, hEmail, -⟩ := Account.revoked_eq env.now_epoch hRevoked
    exact storeAccount_secrets hFixed (by rw [hEmail, hStored])
      (List.Subset.trans (Account.revoked_secrets hRevoked) hSubset) hFound
  | _ => exact ⟨acc', hFound, List.Subset.refl _⟩

/-- An action that activates nothing adds no secret to any account. -/
theorem perform_secrets {action : Action} (hAction : ¬action.activates) {w : World Tables}
    (hKept : w.storage.Kept b.json)
    (hFound : (action.perform srv b w).storage.accounts k = some acc') :
    ∃ acc, w.storage.accounts k = some acc ∧ acc'.secrets ⊆ acc.secrets := by
  cases action with
  | clean now keys =>
    rw [(clean_effect srv b now keys w).1] at hFound
    exact ⟨acc', hFound, List.Subset.refl _⟩
  | serve endpoint env r =>
    obtain ⟨T, hT, hEnd⟩ := serve_effect srv b endpoint env r w
    have hFirst {acc : Account} (hAcc : T.accounts k = some acc) :
        ∃ acc₀, w.storage.accounts k = some acc₀ ∧ acc.secrets ⊆ acc₀.secrets := by
      rcases hT with rfl | rfl
      · exact ⟨acc, hAcc, List.Subset.refl _⟩
      · exact authTables_secrets hKept hAcc
    have hFound' : ((srv.serve endpoint env r).run (exec b) w).2.storage.accounts k = some acc' :=
      hFound
    rcases hEnd with hSame | ⟨r', auth, h, hAdmitted, hHandler, rfl, hEffect⟩
    · rw [hSame] at hFound'
      exact hFirst hFound'
    · have hOther : h ≠ .activateAuthToken := by
        rintro rfl
        exact hAction hHandler
      obtain ⟨acc, hAcc, hSubset⟩ := hEffect.secrets hOther (fun a hSome => by
        subst hSome
        have hAuth := admitted_some hAdmitted
        obtain ⟨hStored, hSecrets⟩ := authTables_stored hKept hAuth
        rw [hAuth]
        exact ⟨_, hStored, Account.marshal_marshal _, by rw [hSecrets]; exact List.Subset.refl _⟩)
        hFound'
      obtain ⟨acc₀, hAcc₀, hSubset₀⟩ := hFirst hAcc
      exact ⟨acc₀, hAcc₀, List.Subset.trans hSubset hSubset₀⟩

/-- A secret that an account does not have is not accepted for it. -/
theorem authenticated_of_no_secret {t : AuthToken}
    (hToken : authTokenFromRequest r = some t) (hType : t.type ≠ lit "skeleton")
    (hNone : ∀ acc, T.accounts t.email = some acc → t.token ∉ acc.secrets) :
    ∃ e, srv.authenticated b env r T = .error e := by
  cases hAuth : srv.authenticated b env r T with
  | error e => exact ⟨e, rfl⟩
  | ok a =>
    obtain ⟨t', acc, a', hToken', hFound, hAccepted, -⟩ := authenticated_ok hAuth
    rw [hToken, Option.some.injEq] at hToken'
    subst hToken'
    rcases hAccepted.token with ⟨hSkeleton, -⟩ | ⟨-, s, hs, hSecret, -⟩
    · exact absurd hSkeleton hType
    · exact absurd (Account.mem_secrets.mpr ⟨s, hs, hSecret⟩) (hNone acc hFound)

/-- No account gains a secret in a run without activations. -/
theorem runs_secrets {allowed : List Action → Action → Prop} {past history : List Action}
    {w w' : World Tables} {secret : GoString} (hRun : srv.Runs b allowed past w history w')
    (hAllowed : ∀ history action, allowed history action → ¬action.activates)
    (hKept : w.storage.Kept b.json)
    (hNone : ∀ acc, w.storage.accounts k = some acc → secret ∉ acc.secrets) :
    ∀ acc, w'.storage.accounts k = some acc → secret ∉ acc.secrets := by
  have hBoth := Run.invariant (I := fun _ w => w.storage.Kept b.json ∧
      ∀ acc, w.storage.accounts k = some acc → secret ∉ acc.secrets) hRun ⟨hKept, hNone⟩
    fun _ w action hInv hAction => by
      refine ⟨kept_perform action hInv.1, fun acc hFound hSecret => ?_⟩
      obtain ⟨acc₀, hFound₀, hSubset⟩ := perform_secrets (hAllowed _ _ hAction) hInv.1 hFound
      exact hInv.2 acc₀ hFound₀ (hSubset hSecret)
  exact hBoth.2

end Server

end PadlockCloud
