import PadlockCloud.Model.Storages
import PadlockCloud.Process.Simulation
import PadlockCloud.Request.Contracts

/-!
# The storages as backends

Both storages behave like the tables for the calls of the server: LevelDB like those
that stamp accounts, the memory like those that do not. The one exception is the
iterator of the memory, which skips a record, and only the cleanup job uses it.
-/

namespace PadlockCloud

open Process

/-! ## The tables of a storage -/

namespace Tables

def ofStores (S : Stores Storable.Serialized) : Tables := ⟨S .account, S .authRequest, S .dataStore⟩

def put (T : Tables) : (τ : StorableType) → GoString → Option (Storable.Serialized τ) → Tables
  | .account, key, acc => T.putAccount key acc
  | .authRequest, key, ar => T.putAuthRequest key ar
  | .dataStore, key, content => T.putDataStore key content

theorem ofStores_set (S : Stores Storable.Serialized) (τ : StorableType) (key : GoString)
    (data : Option (Storable.Serialized τ)) :
    ofStores (S.set τ key data) = (ofStores S).put τ key data := by
  have hOwn : S.set τ key data τ = Function.update (S τ) key data := Function.update_self _ _ _
  have hOther (σ : StorableType) (hOther : σ ≠ τ) : S.set τ key data σ = S σ :=
    Function.update_of_ne hOther _ _
  cases τ with
  | account =>
    rw [ofStores, hOwn, hOther .authRequest (by decide), hOther .dataStore (by decide)]
    rfl
  | authRequest =>
    rw [ofStores, hOwn, hOther .account (by decide), hOther .dataStore (by decide)]
    rfl
  | dataStore =>
    rw [ofStores, hOwn, hOther .account (by decide), hOther .authRequest (by decide)]
    rfl

end Tables

/-! ## LevelDB -/

namespace LevelDBStorage

variable {L : LevelDBStorage} {T : Tables}

/-- The storage is open and has the data of the tables. -/
structure Holds (L : LevelDBStorage) (T : Tables) : Prop where
  isOpen : L.isOpen = true
  tables : T = .ofStores L.files

theorem fetch_eq (hOpen : L.isOpen = true) (τ : StorableType) (key : GoString) :
    L.fetch τ key = lookup (L.files τ) key := by
  unfold fetch lookup
  rw [hOpen]
  cases L.files τ key <;> rfl

theorem holds_write (hHolds : L.Holds T) (τ : StorableType) (key : GoString)
    (data : Option (Storable.Serialized τ)) :
    (L.write τ key data).1 = .ok () ∧ (L.write τ key data).2.Holds (T.put τ key data) := by
  obtain ⟨hOpen, rfl⟩ := hHolds
  rw [write, hOpen]
  exact ⟨rfl, rfl, (Tables.ofStores_set _ _ _ _).symm⟩

/-- LevelDB stamps accounts. -/
theorem simulates (J : Json) :
    Simulates (call J) (Tables.step ⟨J, true⟩) (fun _ _ => True) Holds := by
  intro c L T hHolds _
  cases c with
  | getAccount email =>
    obtain ⟨hOpen, rfl⟩ := hHolds
    exact ⟨fetch_eq hOpen .account email, hOpen, rfl⟩
  | getAuthRequest key =>
    obtain ⟨hOpen, rfl⟩ := hHolds
    exact ⟨fetch_eq hOpen .authRequest key, hOpen, rfl⟩
  | getDataStore acc =>
    obtain ⟨hOpen, rfl⟩ := hHolds
    exact ⟨fetch_eq hOpen .dataStore acc.email, hOpen, rfl⟩
  | putAccount now acc =>
    have hPrepared : Backend.prepare ⟨J, true⟩ now acc =
        if acc.created = 0 then { acc with created := now } else acc := by
      simp [Backend.prepare]
    have hWrite := holds_write hHolds .account (Backend.prepare ⟨J, true⟩ now acc).email
      (some (Account.marshal J (Backend.prepare ⟨J, true⟩ now acc)))
    rw [call, Storable.serialize, Tables.step, ← hPrepared]
    exact ⟨congrArg (Except.map fun _ => Backend.prepare ⟨J, true⟩ now acc) hWrite.1, hWrite.2⟩
  | deleteAccount email => exact holds_write hHolds .account email none
  | putAuthRequest ar => exact holds_write hHolds .authRequest ar.key _
  | deleteAuthRequest key => exact holds_write hHolds .authRequest key none
  | putDataStore acc content => exact holds_write hHolds .dataStore acc.email _
  | deleteDataStore email => exact holds_write hHolds .dataStore email none
  | iterator keys =>
    obtain ⟨hOpen, rfl⟩ := hHolds
    refine ⟨?_, hOpen, rfl⟩
    rw [call, iterate, if_pos hOpen]
    rfl

end LevelDBStorage

/-! ## Memory -/

namespace MemoryStorage

variable {M : MemoryStorage} {T : Tables}

/-- The memory is open and has the data of the tables. -/
def Holds (M : MemoryStorage) (T : Tables) : Prop :=
  ∃ store, M.store = some store ∧
    T = .ofStores fun τ key => (find store τ key).map (Storable.kept τ)

theorem fetch_eq {store : (τ : StorableType) → Option (GoString → Option (Storable τ))}
    (hStore : M.store = some store) (τ : StorableType) (key : GoString) :
    (M.fetch τ key).map (Storable.kept τ) =
      lookup (fun key => (find store τ key).map (Storable.kept τ)) key := by
  unfold fetch lookup
  rw [hStore]
  cases hFound : find store τ key <;> simp only [hFound] <;> rfl

theorem holds_write (hHolds : M.Holds T) (τ : StorableType) (key : GoString) (data : Storable τ) :
    (M.write τ key data).1 = .ok () ∧
      (M.write τ key data).2.Holds (T.put τ key (some (Storable.kept τ data))) := by
  obtain ⟨store, hStore, rfl⟩ := hHolds
  obtain ⟨store', hWrite, hFind⟩ := Storages.write_eq hStore key data
  rw [hWrite, ← Tables.ofStores_set]
  refine ⟨rfl, store', rfl, congrArg Tables.ofStores ?_⟩
  funext σ k
  rw [hFind]
  exact Storages.set_eq (fun _ _ => rfl) τ key (some data) σ k

theorem holds_remove (hHolds : M.Holds T) (τ : StorableType) (key : GoString) :
    (M.remove τ key).1 = .ok () ∧ (M.remove τ key).2.Holds (T.put τ key none) := by
  obtain ⟨store, hStore, rfl⟩ := hHolds
  obtain ⟨store', hRemove, hFind⟩ := Storages.remove_eq hStore τ key
  rw [hRemove, ← Tables.ofStores_set]
  refine ⟨rfl, store', rfl, congrArg Tables.ofStores ?_⟩
  funext σ k
  rw [hFind]
  exact Storages.set_eq (fun _ _ => rfl) τ key none σ k

/-- The memory does not stamp accounts. -/
theorem simulates (J : Json) :
    Simulates (call J) (Tables.step ⟨J, false⟩) (fun c _ => ¬(Call.storage c).walks) Holds := by
  intro c M T hHolds hCall
  have hMap {α : Type} (result : Except StorageError α) : result.map (fun a => a) = result := by
    cases result <;> rfl
  cases c with
  | getAccount email =>
    obtain ⟨store, hStore, rfl⟩ := hHolds
    exact ⟨(hMap _).symm.trans (fetch_eq hStore .account email), store, hStore, rfl⟩
  | getAuthRequest key =>
    obtain ⟨store, hStore, rfl⟩ := hHolds
    exact ⟨(hMap _).symm.trans (fetch_eq hStore .authRequest key), store, hStore, rfl⟩
  | getDataStore acc =>
    obtain ⟨store, hStore, rfl⟩ := hHolds
    exact ⟨fetch_eq hStore .dataStore acc.email, store, hStore, rfl⟩
  | putAccount now acc =>
    have hPrepared : Backend.prepare ⟨J, false⟩ now acc = acc := by simp [Backend.prepare]
    have hWrite := holds_write hHolds .account acc.email (acc.marshal J)
    rw [call, Tables.step, hPrepared]
    exact ⟨congrArg (Except.map fun _ => acc) hWrite.1, hWrite.2⟩
  | deleteAccount email => exact holds_remove hHolds .account email
  | putAuthRequest ar => exact holds_write hHolds .authRequest ar.key _
  | deleteAuthRequest key => exact holds_remove hHolds .authRequest key
  | putDataStore acc content => exact holds_write hHolds .dataStore acc.email _
  | deleteDataStore email => exact holds_remove hHolds .dataStore email
  | iterator keys => exact absurd trivial hCall

end MemoryStorage

/-! ## Worlds -/

/-- The storages are related, and all else is equal. -/
structure World.Related {σ τ : Type} (related : σ → τ → Prop) (w : World σ) (w' : World τ) :
    Prop where
  storage : related w.storage w'.storage
  held : w.held = w'.held
  outbox : w.outbox = w'.outbox

/-- The same calls are blocked. -/
theorem World.Related.enabled {σ τ : Type} {related : σ → τ → Prop} {w : World σ} {w' : World τ}
    (hRelated : World.Related related w w') (c : Call) : c.enabled w = c.enabled w' := by
  cases c with
  | lock email => simp only [Call.enabled, hRelated.held]
  | _ => rfl

theorem World.simulates_allowed {σ τ : Type} {S : Interp StorageCall.Resp σ}
    {S' : Interp StorageCall.Resp τ} {related : σ → τ → Prop} (allowed : Call → Prop)
    (hSimulates : Simulates S S' (fun c _ => allowed (.storage c)) related) :
    Simulates (World.step S) (World.step S') (fun c _ => allowed c) (World.Related related) := by
  intro c w w' hRelated hCall
  obtain ⟨hStorage, hHeld, hOutbox⟩ := hRelated
  cases c with
  | storage c =>
    obtain ⟨hSame, hNext⟩ := hSimulates c _ _ hStorage hCall
    exact ⟨hSame, hNext, hHeld, hOutbox⟩
  | lock email => exact ⟨rfl, hStorage, by simp only [World.step, hHeld], hOutbox⟩
  | unlock email => exact ⟨rfl, hStorage, by simp only [World.step, hHeld], hOutbox⟩
  | send mail => exact ⟨rfl, hStorage, hHeld, by simp only [World.step, hOutbox]⟩

theorem World.simulates {σ τ : Type} {S : Interp StorageCall.Resp σ}
    {S' : Interp StorageCall.Resp τ} {related : σ → τ → Prop}
    (hSimulates : Simulates S S' (fun c _ => ¬(Call.storage c).walks) related) :
    Simulates (World.step S) (World.step S') (fun c _ => ¬c.walks) (World.Related related) :=
  World.simulates_allowed (fun c => ¬c.walks) hSimulates

/-! ## Requests do not walk -/

/-- Nothing is asked but that the auth requests are not walked. -/
def noWalk : Contract Call.Resp where
  call _ c := ¬c.walks
  response _ _ _ := True

theorem lenient_noWalk : Lenient noWalk := by
  intro log c hOther hWalks
  rcases c with c | email | email | mail
  · cases c <;> first | exact hOther trivial | exact hWalks
  · exact hWalks
  · exact hWalks
  · exact hWalks

theorem complies_store {c : StorageCall} (hCall : ¬(Call.storage c).walks) :
    Complies noWalk (store c) := fun _ => .call hCall fun _ _ => trivial

namespace Server

variable {srv : Server} {env : Env} {r : Request} {auth : Option Auth}

theorem noWalk_authenticate : Complies noWalk (srv.authenticate env r) := by
  unfold authenticate
  cases authTokenFromRequest r with
  | none => exact .fail _
  | some t =>
    refine (complies_store id).bind fun found _ => ?_
    rcases found with (_ | _ | _) | acc
    · exact .fail _
    · exact .fail _
    · exact .fail _
    · dsimp only
      cases srv.acceptToken env r t acc with
      | error e => exact .fail _
      | ok a =>
        exact ((complies_store id).bind fun _ _ => complies_orFail).bind fun _ _ => .pure trivial

theorem noWalk_activate (ar : AuthRequest) : Complies noWalk (activate env ar) := by
  have hWrite (acc : Account) : Complies noWalk
      (store (.putAccount env.now (activated acc ar.authToken)) >>= orFail >>= fun _ =>
        store (.deleteAuthRequest ar.key) >>= orFail) :=
    ((complies_store id).bind fun _ _ => complies_orFail).bind fun _ _ =>
      (complies_store id).bind fun _ _ => complies_orFail
  unfold activate
  refine (complies_store id).bind fun found _ => ?_
  rcases found with (_ | _ | _) | acc
  · exact .fail _
  · exact hWrite _
  · exact .fail _
  · exact hWrite _

theorem noWalk_activateAuthToken (auth : Option Auth) :
    Complies noWalk (srv.activateAuthToken env r auth) := by
  have hGet : Complies noWalk (srv.getAuthRequest r) := by
    unfold getAuthRequest
    cases srv.activationPattern r with
    | error e => exact .fail _
    | ok pattern =>
      refine (complies_store id).bind fun found _ => ?_
      rcases found with (_ | _ | _) | ar <;> first | exact .pure trivial | exact .fail _
  have hSuccess (ar : AuthRequest) : Complies noWalk (srv.success env r ar) := by
    unfold success
    dsimp only
    split
    · cases newAuthRequest env ar.authToken.email (lit "web") [] ar.authToken.device with
      | none => exact .fail _
      | some login => exact (noWalk_activate login).bind fun _ _ => .pure trivial
    · exact .pure trivial
  unfold activateAuthToken
  refine .bind (hGet.attempt _) fun result _ => ?_
  cases result with
  | error e =>
    dsimp only
    split
    · exact .pure trivial
    · exact .fail _
  | ok ar => exact (noWalk_activate ar).bind fun _ _ => hSuccess ar

/-- No handler walks the auth requests. -/
theorem noWalk_handle (h : Handler) : Complies noWalk (h.handle srv env r auth) := by
  by_cases hStores : h = .requestAuthToken ∨ h = .activateAuthToken ∨ h = .logout ∨ h = .revoke
  · rcases hStores with rfl | rfl | rfl | rfl
    · exact complies_requestAuthToken lenient_noWalk fun _ _ _ => id
    · exact noWalk_activateAuthToken auth
    · refine .bind complies_orPanic fun a _ => ?_
      exact ((complies_store id).bind fun _ _ => complies_orFail).bind fun _ _ => .pure trivial
    · rw [Handler.handle, revoke]
      dsimp only
      split
      · exact .fail _
      · refine .bind complies_orPanic fun a _ => ?_
        cases revoked env.now a.account { token := r.postFormValue srv.net (lit "token")
                                          id := r.postFormValue srv.net (lit "id") } with
        | none => exact .fail _
        | some found =>
          exact ((complies_store id).bind fun _ _ => complies_orFail).bind fun _ _ => .pure trivial
  · push Not at hStores
    exact complies_handle lenient_noWalk hStores

end Server

end PadlockCloud
