import PadlockCloud.Model.Storage

/-!
# The two storages

`LevelDBStorage` and `MemoryStorage` of `storage.go`, call by call. An object is
passed by its pointer, so each call also says what the object is afterwards:
`Serialize` can change it, and `Get` fills it in. LevelDB is a map from keys to
data for each registered type. JSON text is represented by what it decodes to.
-/

namespace PadlockCloud

open Process

/-! ## Storable objects -/

/-- The types that are registered with `RegisterStorable`. -/
inductive StorableType where
  | account
  | authRequest
  | dataStore
  deriving DecidableEq

/-- The data of an account, with a pointer to the account. -/
structure DataStore where
  account : Account
  content : GoString := []
  deriving DecidableEq

/-- The objects of a type. -/
abbrev Storable : StorableType → Type
  | .account => Account
  | .authRequest => AuthRequest
  | .dataStore => DataStore

namespace Storable

/-- `Key` -/
def key : (τ : StorableType) → Storable τ → GoString
  | .account, acc => acc.email
  | .authRequest, ar => AuthRequest.key ar
  | .dataStore, d => d.account.email

/-- What `Serialize` gives: JSON text, or the raw content of a data store. -/
abbrev Serialized : StorableType → Type
  | .account => Account
  | .authRequest => AuthRequest
  | .dataStore => GoString

/-- `Serialize`, with the object afterwards: an account without a creation time
gets one. -/
def serialize (J : Json) (now : Time) : (τ : StorableType) → Storable τ → Serialized τ × Storable τ
  | .account, acc =>
    let acc := if acc.created = 0 then { acc with created := now } else acc
    (Account.marshal J acc, acc)
  | .authRequest, ar => (AuthRequest.marshal J ar, ar)
  | .dataStore, d => (d.content, d)

/-- `Deserialize`, with the object before. The JSON text of a record has all of its
fields. -/
def deserialize : (τ : StorableType) → Serialized τ → Storable τ → Storable τ
  | .account, data, _ => data
  | .authRequest, data, _ => data
  | .dataStore, data, d => { d with content := data }

/-- `json.Marshal` of the whole object. -/
def marshal (J : Json) : (τ : StorableType) → Storable τ → Storable τ
  | .account, acc => Account.marshal J acc
  | .authRequest, ar => AuthRequest.marshal J ar
  | .dataStore, d => { account := d.account.marshal J, content := d.content }

end Storable

/-! ## Calls -/

inductive StorableCall where
  | get (τ : StorableType) (t : Storable τ)
  | put (now : Time) (τ : StorableType) (t : Storable τ)
  | delete (τ : StorableType) (t : Storable τ)

def StorableCall.type : StorableCall → StorableType
  | .get τ _ | .put _ τ _ | .delete τ _ => τ

/-- The error of a call, and the object that was passed to it. -/
structure Outcome (τ : StorableType) where
  error : Option StorageError
  object : Storable τ

/-- An outcome that leaves the object alone. -/
def Outcome.of {τ : StorableType} (result : Except StorageError Unit) (t : Storable τ) : Outcome τ :=
  match result with
  | .ok _ => ⟨none, t⟩
  | .error e => ⟨some e, t⟩

/-- The object, or the error. -/
def Outcome.result {τ : StorableType} (o : Outcome τ) : Except StorageError (Storable τ) :=
  match o.error with
  | none => .ok o.object
  | some e => .error e

abbrev StorableCall.Resp (c : StorableCall) : Type := Outcome c.type

/-- Data for each type and key. -/
abbrev Stores (D : StorableType → Type) := (τ : StorableType) → GoString → Option (D τ)

def Stores.set {D : StorableType → Type} (S : Stores D) (τ : StorableType) (key : GoString)
    (data : Option (D τ)) : Stores D :=
  Function.update S τ (Function.update (S τ) key data)

/-! ## LevelDB -/

/-- The files of the databases, and whether they are open. -/
structure LevelDBStorage where
  files : Stores Storable.Serialized := fun _ _ => none
  isOpen : Bool := false

namespace LevelDBStorage

def openFiles (s : LevelDBStorage) : LevelDBStorage := { s with isOpen := true }

/-- The data under a key. -/
def fetch (s : LevelDBStorage) (τ : StorableType) (key : GoString) :
    Except StorageError (Storable.Serialized τ) :=
  if !s.isOpen then .error .storageClosed
  else
    match s.files τ key with
    | none => .error .notFound
    | some data => .ok data

/-- Writes or deletes the data under a key. -/
def write (s : LevelDBStorage) (τ : StorableType) (key : GoString)
    (data : Option (Storable.Serialized τ)) : Except StorageError Unit × LevelDBStorage :=
  if !s.isOpen then (.error .storageClosed, s)
  else (.ok (), { s with files := s.files.set τ key data })

def step (J : Json) : Interp StorableCall.Resp LevelDBStorage
  | .get τ t, s =>
    match s.fetch τ (Storable.key τ t) with
    | .error e => (⟨some e, t⟩, s)
    | .ok data => (⟨none, Storable.deserialize τ data t⟩, s)
  | .put now τ t, s =>
    if !s.isOpen then (⟨some .storageClosed, t⟩, s)
    else
      let (data, t) := Storable.serialize J now τ t
      let (result, s) := s.write τ (Storable.key τ t) (some data)
      (.of result t, s)
  | .delete τ t, s =>
    let (result, s) := s.write τ (Storable.key τ t) none
    (.of result t, s)

/-- `Iterator`, and the records that it walks, which lie under the given keys. -/
def iterate (s : LevelDBStorage) (τ : StorableType) (keys : List GoString) :
    Except StorageError (List (Storable.Serialized τ)) :=
  if s.isOpen then .ok (keys.filterMap (s.files τ)) else .error .unregisteredStorable

end LevelDBStorage

/-! ## Memory -/

/-- The map of maps: the inner ones are made when a type is first put. -/
structure MemoryStorage where
  store : Option ((τ : StorableType) → Option (GoString → Option (Storable τ))) := none

namespace MemoryStorage

def openStore (_ : MemoryStorage) : MemoryStorage := { store := some fun _ => none }

/-- The look-up in both maps. -/
def find (store : (τ : StorableType) → Option (GoString → Option (Storable τ)))
    (τ : StorableType) (key : GoString) : Option (Storable τ) :=
  (store τ).bind fun table => table key

/-- The data under a key. -/
def fetch (s : MemoryStorage) (τ : StorableType) (key : GoString) :
    Except StorageError (Storable τ) :=
  match s.store with
  | none => .error .storageClosed
  | some store =>
    match find store τ key with
    | none => .error .notFound
    | some data => .ok data

/-- Writes the data under a key. -/
def write (s : MemoryStorage) (τ : StorableType) (key : GoString) (data : Storable τ) :
    Except StorageError Unit × MemoryStorage :=
  match s.store with
  | none => (.error .storageClosed, s)
  | some store =>
    let table := (store τ).getD fun _ => none
    let table := Function.update table key (some data)
    (.ok (), { store := some (Function.update store τ (some table)) })

/-- Deletes the data under a key. -/
def remove (s : MemoryStorage) (τ : StorableType) (key : GoString) :
    Except StorageError Unit × MemoryStorage :=
  match s.store with
  | none => (.error .storageClosed, s)
  | some store =>
    match store τ with
    | none => (.ok (), s)
    | some table =>
      (.ok (), { store := some (Function.update store τ (some (Function.update table key none))) })

def step (J : Json) : Interp StorableCall.Resp MemoryStorage
  | .get τ t, s =>
    match s.fetch τ (Storable.key τ t) with
    | .error e => (⟨some e, t⟩, s)
    | .ok data => (⟨none, data⟩, s)
  | .put _ τ t, s =>
    let (result, s) := s.write τ (Storable.key τ t) (Storable.marshal J τ t)
    (.of result t, s)
  | .delete τ t, s =>
    let (result, s) := s.remove τ (Storable.key τ t)
    (.of result t, s)

/-- `Iterator` collects the records in some order, and the first `Next` skips the
first one. -/
def iterate (s : MemoryStorage) (τ : StorableType) (keys : List GoString) :
    Except StorageError (List (Storable τ)) :=
  match s.store with
  | none => .error .storageClosed
  | some store =>
    match store τ with
    | none => .error .unregisteredStorable
    | some table => .ok ((keys.filterMap table).drop 1)

end MemoryStorage

/-! ## Calls by their keys

The server makes its calls with objects that it has filled in, and looks at no more
of them than a `StorageCall` returns. -/

namespace StorableCall

/-- The call of the server. -/
def toCall : StorableCall → StorageCall
  | .get .account acc => .getAccount (Account.email acc)
  | .get .authRequest ar => .getAuthRequest (AuthRequest.key ar)
  | .get .dataStore d => .getDataStore (DataStore.account d)
  | .put now .account acc => .putAccount now acc
  | .put _ .authRequest ar => .putAuthRequest ar
  | .put _ .dataStore d => .putDataStore (DataStore.account d) (DataStore.content d)
  | .delete .account acc => .deleteAccount (Account.email acc)
  | .delete .authRequest ar => .deleteAuthRequest (AuthRequest.key ar)
  | .delete .dataStore d => .deleteDataStore (DataStore.account d).email

/-- What the server looks at. -/
def answer : (c : StorableCall) → c.Resp → c.toCall.Resp
  | .get .account _, o => o.result
  | .get .authRequest _, o => o.result
  | .get .dataStore _, o => o.result.map DataStore.content
  | .put _ .account _, o => o.result
  | .put _ .authRequest _, o | .put _ .dataStore _, o => o.result.map fun _ => ()
  | .delete .account _, o | .delete .authRequest _, o | .delete .dataStore _, o =>
    o.result.map fun _ => ()

end StorableCall

namespace LevelDBStorage

def call (J : Json) : Interp StorageCall.Resp LevelDBStorage
  | .getAccount email, s => (s.fetch .account email, s)
  | .putAccount now acc, s =>
    let (data, acc) := Storable.serialize J now .account acc
    let (result, s) := s.write .account (Account.email acc) (some data)
    (result.map fun _ => acc, s)
  | .deleteAccount email, s => s.write .account email none
  | .getAuthRequest key, s => (s.fetch .authRequest key, s)
  | .putAuthRequest ar, s => s.write .authRequest ar.key (some (ar.marshal J))
  | .deleteAuthRequest key, s => s.write .authRequest key none
  | .getDataStore acc, s => (s.fetch .dataStore acc.email, s)
  | .putDataStore acc content, s => s.write .dataStore acc.email (some content)
  | .deleteDataStore email, s => s.write .dataStore email none
  | .iterator keys, s => (s.iterate .authRequest keys, s)

/-- It is the call with the object. -/
theorem call_toCall (J : Json) (c : StorableCall) (s : LevelDBStorage) :
    call J c.toCall s = (c.answer (step J c s).1, (step J c s).2) := by
  cases c with
  | get τ t =>
    cases hFetch : s.fetch τ (Storable.key τ t) <;> cases τ <;> simp only [Storable.key] at hFetch <;>
      simp only [StorableCall.toCall, call, step, Storable.key, hFetch] <;> rfl
  | put now τ t =>
    cases hOpen : s.isOpen <;> cases τ <;>
      simp only [StorableCall.toCall, call, step, write, hOpen, Storable.serialize,
        Storable.key] <;> rfl
  | delete τ t =>
    cases hOpen : s.isOpen <;> cases τ <;>
      simp only [StorableCall.toCall, call, step, write, hOpen, Storable.key] <;> rfl

end LevelDBStorage

namespace MemoryStorage

def call (J : Json) : Interp StorageCall.Resp MemoryStorage
  | .getAccount email, s => (s.fetch .account email, s)
  | .putAccount _ acc, s =>
    let (result, s) := s.write .account acc.email (acc.marshal J)
    (result.map fun _ => acc, s)
  | .deleteAccount email, s => s.remove .account email
  | .getAuthRequest key, s => (s.fetch .authRequest key, s)
  | .putAuthRequest ar, s => s.write .authRequest ar.key (ar.marshal J)
  | .deleteAuthRequest key, s => s.remove .authRequest key
  | .getDataStore acc, s => ((s.fetch .dataStore acc.email).map DataStore.content, s)
  | .putDataStore acc content, s =>
    s.write .dataStore acc.email (Storable.marshal J .dataStore { account := acc, content })
  | .deleteDataStore email, s => s.remove .dataStore email
  | .iterator keys, s => (s.iterate .authRequest keys, s)

theorem call_toCall (J : Json) (c : StorableCall) (s : MemoryStorage) :
    call J c.toCall s = (c.answer (step J c s).1, (step J c s).2) := by
  cases c with
  | get τ t =>
    cases hFetch : s.fetch τ (Storable.key τ t) <;> cases τ <;> simp only [Storable.key] at hFetch <;>
      simp only [StorableCall.toCall, call, step, Storable.key, hFetch] <;> rfl
  | put now τ t =>
    cases hStore : s.store <;> cases τ <;>
      simp only [StorableCall.toCall, call, step, write, hStore, Storable.marshal,
        Storable.key] <;> rfl
  | delete τ t =>
    cases hResult : s.remove τ (Storable.key τ t) with
    | mk result s' =>
      cases result <;> cases τ <;> simp only [Storable.key] at hResult <;>
        simp only [StorableCall.toCall, call, step, Storable.key, hResult] <;> rfl

end MemoryStorage

/-- The part of a record of `MemoryStorage` that LevelDB has as well. -/
def Storable.kept : (τ : StorableType) → Storable τ → Storable.Serialized τ
  | .account, acc => acc
  | .authRequest, ar => ar
  | .dataStore, d => d.content

namespace Storages

/-! ## Writing into the maps -/

variable {store : (τ : StorableType) → Option (GoString → Option (Storable τ))}
  {τ : StorableType}

/-- Putting into the inner map, which may have to be made. -/
theorem find_update (key : GoString) (data : Option (Storable τ)) :
    MemoryStorage.find (Function.update store τ
        (some (Function.update ((store τ).getD fun _ => none) key data))) =
      Stores.set (MemoryStorage.find store) τ key data := by
  have hTable : ((store τ).getD fun _ => none) = MemoryStorage.find store τ := by
    funext k
    rw [MemoryStorage.find]
    cases store τ <;> rfl
  funext σ k
  rw [MemoryStorage.find, Stores.set]
  by_cases hType : σ = τ
  · subst hType
    rw [Function.update_self, Function.update_self, Option.bind_some, hTable]
  · rw [Function.update_of_ne hType, Function.update_of_ne hType]
    rfl

theorem set_eq {D D' : StorableType → Type} {S : Stores D} {S' : Stores D'}
    {f : (τ : StorableType) → D' τ → D τ} (hSame : ∀ τ k, S τ k = (S' τ k).map (f τ))
    (τ : StorableType) (key : GoString) (data : Option (D' τ)) (σ : StorableType) (k : GoString) :
    S.set τ key (data.map (f τ)) σ k = (S'.set τ key data σ k).map (f σ) := by
  unfold Stores.set
  by_cases hType : σ = τ
  · subst hType
    rw [Function.update_self, Function.update_self]
    by_cases hKey : k = key
    · subst hKey
      rw [Function.update_self, Function.update_self]
    · rw [Function.update_of_ne hKey, Function.update_of_ne hKey]
      exact hSame σ k
  · rw [Function.update_of_ne hType, Function.update_of_ne hType]
    exact hSame σ k

variable {M : MemoryStorage}

/-- A write puts the data under the key. -/
theorem write_eq (hStore : M.store = some store) (key : GoString) (data : Storable τ) :
    ∃ store', M.write τ key data = (.ok (), { store := some store' }) ∧
      MemoryStorage.find store' = Stores.set (MemoryStorage.find store) τ key (some data) := by
  refine ⟨_, ?_, find_update key (some data)⟩
  rw [MemoryStorage.write, hStore]

theorem remove_eq (hStore : M.store = some store) (τ : StorableType) (key : GoString) :
    ∃ store', M.remove τ key = (.ok (), { store := some store' }) ∧
      MemoryStorage.find store' = Stores.set (MemoryStorage.find store) τ key none := by
  obtain rfl : M = { store := some store } := by
    cases M
    exact congrArg MemoryStorage.mk hStore
  cases hTable : store τ with
  | none =>
    refine ⟨store, by simp only [MemoryStorage.remove, hTable], ?_⟩
    -- There is no inner map, so nothing is found under any key of the type.
    have hNone : MemoryStorage.find store τ = fun _ => none := by
      funext k
      rw [MemoryStorage.find, hTable, Option.bind_none]
    rw [Stores.set, hNone, Function.update_eq_self_iff.mpr rfl, ← hNone, Function.update_eq_self]
  | some table =>
    refine ⟨Function.update store τ (some (Function.update table key none)),
      by simp only [MemoryStorage.remove, hTable], ?_⟩
    rw [← find_update, hTable, Option.getD_some]

end Storages

end PadlockCloud
