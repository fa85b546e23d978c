import PadlockCloud.Model.Standard
import PadlockCloud.Model.Storages
import PadlockCloud.Process.Contract
import PadlockCloud.Process.Simulation

/-!
# The in-memory storage as a stand-in

`LevelDBStorage` stores what `Serialize` gives, and `MemoryStorage` the JSON of the
whole object. So they can be told apart in two ways: only LevelDB stamps an account
without a creation time, and only the memory returns the account that a data store
was put with. A client that gives rise to neither gets the same from both.
-/

namespace PadlockCloud

open Process

/-- An account has a creation time. -/
def Storable.hasCreation : (τ : StorableType) → Storable τ → Prop
  | .account, acc => acc.created ≠ 0
  | .authRequest, _ | .dataStore, _ => True

/-- Two data stores point to equal accounts. -/
def Storable.SameAccount : (τ : StorableType) → Storable τ → Storable τ → Prop
  | .dataStore, d, d' => d.account = d'.account
  | .account, _, _ | .authRequest, _, _ => True

namespace Storages

variable {J : Json} {L : LevelDBStorage} {M : MemoryStorage} {τ : StorableType} {ε α : Type}

/-- An account that is put has a creation time, and a data store that is got and found
is passed with the account that it was put with. -/
def Alike : StorableCall → MemoryStorage → Prop
  | .put _ τ t, _ => Storable.hasCreation τ t
  | .get τ t, M => ∀ store found, M.store = some store →
      MemoryStorage.find store τ (Storable.key τ t) = some found → Storable.SameAccount τ found t
  | .delete _ _, _ => True

/-- Both storages are open and hold the same data. -/
def Related (L : LevelDBStorage) (M : MemoryStorage) : Prop :=
  L.isOpen = true ∧ ∃ store, M.store = some store ∧
    ∀ τ k, L.files τ k = (MemoryStorage.find store τ k).map (Storable.kept τ)

/-! ## The simulation -/

/-- What `Get` makes of the object. -/
theorem deserialize_kept {t found : Storable τ} (hAlike : Storable.SameAccount τ found t) :
    Storable.deserialize τ (Storable.kept τ found) t = found := by
  cases τ with
  | account => rfl
  | authRequest => rfl
  | dataStore =>
    have hAccount : found.account = t.account := hAlike
    show ({ account := t.account, content := found.content } : DataStore) = found
    rw [← hAccount]

/-- What `Put` stores, and the object afterwards. -/
theorem serialize_kept {t : Storable τ} (hAlike : Storable.hasCreation τ t) (now : Time) :
    Storable.serialize J now τ t = (Storable.kept τ (Storable.marshal J τ t), t) := by
  cases τ with
  | account =>
    have hCreated : t.created ≠ 0 := hAlike
    have hSame : (if t.created = 0 then { t with created := now } else t : Account) = t :=
      if_neg hCreated
    show (Account.marshal J (if t.created = 0 then { t with created := now } else t : Account),
      (if t.created = 0 then { t with created := now } else t : Account)) = _
    rw [hSame]
    rfl
  | authRequest => rfl
  | dataStore => rfl

theorem fetch_related (hRelated : Related L M) (τ : StorableType) (key : GoString) :
    L.fetch τ key = (M.fetch τ key).map (Storable.kept τ) := by
  obtain ⟨hOpen, store, hStore, hData⟩ := hRelated
  simp only [LevelDBStorage.fetch, MemoryStorage.fetch, hOpen, hStore, hData, Bool.not_true,
    Bool.false_eq_true, if_false]
  cases MemoryStorage.find store τ key <;> rfl

theorem write_related (hRelated : Related L M) (τ : StorableType) (key : GoString)
    (data : Storable τ) :
    (L.write τ key (some (Storable.kept τ data))).1 = (M.write τ key data).1 ∧
      Related (L.write τ key (some (Storable.kept τ data))).2 (M.write τ key data).2 := by
  obtain ⟨hOpen, store, hStore, hData⟩ := hRelated
  obtain ⟨store', hWrite, hFind⟩ := write_eq hStore key data
  rw [hWrite, LevelDBStorage.write, hOpen]
  refine ⟨rfl, rfl, store', rfl, fun σ k => ?_⟩
  rw [hFind]
  exact set_eq hData τ key (some data) σ k

theorem remove_related (hRelated : Related L M) (τ : StorableType) (key : GoString) :
    (L.write τ key none).1 = (M.remove τ key).1 ∧
      Related (L.write τ key none).2 (M.remove τ key).2 := by
  obtain ⟨hOpen, store, hStore, hData⟩ := hRelated
  obtain ⟨store', hRemove, hFind⟩ := remove_eq hStore τ key
  rw [hRemove, LevelDBStorage.write, hOpen]
  refine ⟨rfl, rfl, store', rfl, fun σ k => ?_⟩
  rw [hFind]
  exact set_eq hData τ key none σ k

theorem simulates (J : Json) :
    Simulates (LevelDBStorage.step J) (MemoryStorage.step J) Alike Related := by
  intro c L M hRelated hAlike
  cases c with
  | get τ t =>
    rw [LevelDBStorage.step, MemoryStorage.step, fetch_related hRelated]
    cases hFetch : M.fetch τ (Storable.key τ t) with
    | error e => exact ⟨rfl, hRelated⟩
    | ok found =>
      obtain ⟨store, hStore, -⟩ := hRelated.2
      have hFound : MemoryStorage.find store τ (Storable.key τ t) = some found := by
        simp only [MemoryStorage.fetch, hStore] at hFetch
        split at hFetch
        · cases hFetch
        · rename_i data hData
          rw [hData, Except.ok.inj hFetch]
      have hObject := deserialize_kept (hAlike store found hStore hFound)
      exact ⟨congrArg (fun object => Outcome.mk none object) hObject, hRelated⟩
  | put now τ t =>
    have hOpen := hRelated.1
    obtain ⟨hResult, hNext⟩ :=
      write_related hRelated τ (Storable.key τ t) (Storable.marshal J τ t)
    rw [LevelDBStorage.step, MemoryStorage.step, serialize_kept hAlike now]
    simp only [hOpen, Bool.not_true, Bool.false_eq_true, if_false]
    exact ⟨congrArg (Outcome.of · t) hResult, hNext⟩
  | delete τ t =>
    obtain ⟨hResult, hNext⟩ := remove_related hRelated τ (Storable.key τ t)
    exact ⟨congrArg (Outcome.of · t) hResult, hNext⟩

/-- The same goes for the calls that the handlers make, by `call_toCall`. -/
theorem simulates_calls (J : Json) :
    Simulates (LevelDBStorage.call J) (MemoryStorage.call J)
      (fun c M => ∃ o : StorableCall, o.toCall = c ∧ Alike o M) Related := by
  rintro c L M hRelated ⟨o, rfl, hAlike⟩
  obtain ⟨hOutcome, hNext⟩ := simulates J o L M hRelated hAlike
  rw [LevelDBStorage.call_toCall, MemoryStorage.call_toCall]
  exact ⟨congrArg o.answer hOutcome, hNext⟩

/-! ## Clients -/

/-- A client that meets the condition at each of its calls, which may depend on what it
got before, has the same errors and the same objects after each of them. -/
theorem storages_agree (J : Json) (p : Program StorableCall.Resp ε α)
    (hAlike : p.Always (MemoryStorage.step J) Alike (MemoryStorage.openStore {})) :
    p.trace (LevelDBStorage.step J) (LevelDBStorage.openFiles {}) =
      p.trace (MemoryStorage.step J) (MemoryStorage.openStore {}) := by
  have hOpened : Related (LevelDBStorage.openFiles {}) (MemoryStorage.openStore {}) :=
    ⟨rfl, _, rfl, fun _ _ => rfl⟩
  exact ((simulates J).run p hOpened hAlike).2.1

/-- An account that has been created before. -/
def savedAccount : Account := { email := lit "e@x.io", created := 5 }

/-- A client that saves an account and its data and looks both up. -/
def saver : Program StorableCall.Resp Unit Unit :=
  .call (.put 6 .account savedAccount) fun _ =>
  .call (.get .account { email := lit "e@x.io" }) fun _ =>
  .call (.put 6 .dataStore { account := savedAccount, content := lit "data" }) fun _ =>
  .call (.get .dataStore { account := savedAccount }) fun _ =>
  .call (.delete .account savedAccount) fun _ => .pure ()

theorem storages_agree_saver :
    saver.trace (LevelDBStorage.step .identity) (LevelDBStorage.openFiles {}) =
      saver.trace (MemoryStorage.step .identity) (MemoryStorage.openStore {}) := by
  have hCreated : savedAccount.created ≠ 0 := by decide
  refine storages_agree .identity saver
    ⟨hCreated, fun _ _ _ _ => trivial, trivial, ?_, trivial, trivial⟩
  intro store found hStore hFound
  obtain rfl := Option.some.inj hStore
  have hData : MemoryStorage.find _ .dataStore (lit "e@x.io") = some found := hFound
  have hSaved := hData.symm.trans
    (show _ = some ({ account := savedAccount, content := lit "data" } : DataStore) by
      decide +kernel)
  obtain rfl := Option.some.inj hSaved
  rfl

/-! ## Two differences

A new account is put and got, and its creation time is that of the call in one storage
and missing in the other. Then its data is got by a client that has only the email. -/

def newcomer : Program StorableCall.Resp Unit Unit :=
  .call (.put 6 .account { email := lit "e@x.io" }) fun _ =>
  .call (.get .account { email := lit "e@x.io" }) fun _ =>
  .call (.put 6 .dataStore { account := savedAccount, content := lit "data" }) fun _ =>
  .call (.get .dataStore { account := { email := lit "e@x.io" } }) fun _ => .pure ()

/-- The creation times that the client is shown by `Get`. -/
def shownCreation : Event StorableCall.Resp → Option Time
  | ⟨.get .account _, r⟩ => some (Account.created r.object)
  | ⟨.get .dataStore _, r⟩ => some (DataStore.account r.object).created
  | _ => none

theorem storages_differ :
    ¬∀ (J : Json) (p : Program StorableCall.Resp Unit Unit), J.Lossless →
      p.trace (LevelDBStorage.step J) (LevelDBStorage.openFiles {}) =
        p.trace (MemoryStorage.step J) (MemoryStorage.openStore {}) := by
  intro hAll
  have hShown := congrArg (List.filterMap shownCreation)
    (hAll .identity newcomer Json.identity_lossless)
  have hLevelDB : (newcomer.trace (LevelDBStorage.step .identity)
      (LevelDBStorage.openFiles {})).filterMap shownCreation = [6, 0] := by decide +kernel
  have hMemory : (newcomer.trace (MemoryStorage.step .identity)
      (MemoryStorage.openStore {})).filterMap shownCreation = [0, 5] := by decide +kernel
  rw [hLevelDB, hMemory] at hShown
  exact absurd hShown (by decide)

end Storages

end PadlockCloud
