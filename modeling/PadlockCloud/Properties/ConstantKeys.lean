import PadlockCloud.Model.Standard
import PadlockCloud.Model.Storages
import PadlockCloud.Request.Keys

/-!
# Keys through storage

`Put` files a record under the key of the object in memory, while the object that
`Get` returns has been through JSON and computes its key anew. The two keys are the
same as long as JSON leaves the email alone, which it does not do to an email that
is not valid UTF-8. A link is safe, since its key is the token, and so is a data
store in LevelDB, whose account is no part of the stored data.
-/

namespace PadlockCloud

open Process AuthRequest

namespace Storages

variable {σ : Type} {J : Json} {L : LevelDBStorage} {M : MemoryStorage} {τ : StorableType}
  {email : GoString} {now : Time} {x y : Storable τ}

/-- The objects that the server makes for an email. -/
inductive Built (email : GoString) : (τ : StorableType) → Storable τ → Prop where
  | account (acc : Account) (hEmail : acc.email = email) : Built email .account acc
  | authRequest (new : AuthRequest) (redirect : GoString) {env : Env} {tType actType : GoString}
      {device : Option Device} (hNew : newAuthRequest env email tType actType device = some new) :
      Built email .authRequest ({ new with redirect } : AuthRequest)
  | dataStore (d : DataStore) (hEmail : d.account.email = email) : Built email .dataStore d

/-- After `Put` of `x`, a `Get` through `y` succeeds and gives an object with the key of
`x`, and once that object is deleted, a `Get` through `y` finds nothing. The handlers make
these calls by `StorableCall.toCall`, see `found_by_call`. -/
def KeyIsConstant (step : Interp StorableCall.Resp σ) (s : σ) (now : Time) (τ : StorableType)
    (x y : Storable τ) : Prop :=
  let s := (step (.put now τ x) s).2
  let found : Outcome τ := (step (.get τ y) s).1
  let left : Outcome τ := (step (.get τ y) (step (.delete τ found.object) s).2).1
  found.error = none ∧ Storable.key τ found.object = Storable.key τ x ∧
    left.error = some .notFound

/-- What a handler finds is the object that the storage gives. -/
theorem found_by_call (J : Json) (L : LevelDBStorage) (M : MemoryStorage) (τ : StorableType)
    (y : Storable τ) :
    (LevelDBStorage.call J (StorableCall.get τ y).toCall L).1 =
        (StorableCall.get τ y).answer (LevelDBStorage.step J (.get τ y) L).1 ∧
      (MemoryStorage.call J (StorableCall.get τ y).toCall M).1 =
        (StorableCall.get τ y).answer (MemoryStorage.step J (.get τ y) M).1 := by
  rw [LevelDBStorage.call_toCall, MemoryStorage.call_toCall]
  exact ⟨rfl, rfl⟩

inductive Implementation where
  | levelDB
  | memory

/-- The key does not depend on the email as JSON has it, or JSON leaves the email alone. -/
def KeySurvives (J : Json) : Implementation → (τ : StorableType) → Storable τ → Prop
  | _, .account, acc => J.coerce (Account.email acc) = Account.email acc
  | _, .authRequest, ar =>
    AuthRequest.token ar ≠ [] ∨
      J.coerce (AuthRequest.authToken ar).email = (AuthRequest.authToken ar).email
  | .levelDB, .dataStore, _ => True
  | .memory, .dataStore, d =>
    J.coerce (DataStore.account d).email = (DataStore.account d).email

/-! ## Keys and JSON -/

/-- `Serialize` leaves the key of the object alone. -/
theorem key_serialize (J : Json) (now : Time) (τ : StorableType) (x : Storable τ) :
    Storable.key τ (Storable.serialize J now τ x).2 = Storable.key τ x := by
  cases τ with
  | account =>
    show Account.email (if Account.created x = 0 then { x with created := now } else x) = _
    split <;> rfl
  | authRequest => rfl
  | dataStore => rfl

theorem key_marshal_authRequest {ar : AuthRequest} (hKind : ar.IsLink ∨ ar.IsCode) (J : Json) :
    (ar.marshal J).key = ar.key ↔
      ar.token ≠ [] ∨ J.coerce ar.authToken.email = ar.authToken.email := by
  rcases hKind with hLink | hCode
  · have hSame : (ar.marshal J).key = ar.key := by
      rw [(hLink.marshal J).key, hLink.key, hLink.marshal_token]
    exact iff_of_true hSame (.inl hLink.token_ne_nil)
  · rw [(hCode.marshal J).key, hCode.key, hCode.marshal_code]
    constructor
    · intro hKey
      exact .inr (List.append_cancel_right (List.append_cancel_right hKey))
    · rintro (hToken | hEmail)
      · exact absurd hCode.token hToken
      · exact congrArg (fun email => email ++ lit "-" ++ ar.code) hEmail

theorem Built.kind {ar : AuthRequest} (hBuilt : Built email .authRequest ar) :
    ar.IsLink ∨ ar.IsCode := by
  cases hBuilt with
  | @authRequest new redirect env tType actType device hNew =>
    by_cases hType : actType = lit "code"
    · have hCode := newAuthRequest_code hNew hType
      exact .inr ⟨hCode.token, hCode.code⟩
    · have hLink := newAuthRequest_link hNew hType
      exact .inl ⟨hLink.code, hLink.token⟩

/-! ## Put, Get and Delete -/

theorem set_self {D : StorableType → Type} (S : Stores D) (τ : StorableType) (key : GoString)
    (data : Option (D τ)) : S.set τ key data τ key = data := by
  rw [Stores.set, Function.update_self, Function.update_self]

/-- What `Get` leaves of the object, when this data was found. -/
def loaded {D : StorableType → Type} (decode : (τ : StorableType) → D τ → Storable τ → Storable τ)
    (t : Storable τ) (data : Option (D τ)) : Outcome τ :=
  match data with
  | none => ⟨some .notFound, t⟩
  | some data => ⟨none, decode τ data t⟩

/-- A storage that files encoded records under the keys of the objects. The relation
`Holds` says which records a state of the storage has. -/
structure Files {D : StorableType → Type} (step : Interp StorableCall.Resp σ)
    (encode : Time → (τ : StorableType) → Storable τ → D τ)
    (decode : (τ : StorableType) → D τ → Storable τ → Storable τ)
    (Holds : σ → Stores D → Prop) : Prop where
  put {s : σ} {S : Stores D} (hHolds : Holds s S) (now : Time) (τ : StorableType) (t : Storable τ) :
    Holds (step (.put now τ t) s).2 (S.set τ (Storable.key τ t) (some (encode now τ t)))
  get {s : σ} {S : Stores D} (hHolds : Holds s S) (τ : StorableType) (t : Storable τ) :
    (step (.get τ t) s).1 = loaded decode t (S τ (Storable.key τ t))
  delete {s : σ} {S : Stores D} (hHolds : Holds s S) (τ : StorableType) (t : Storable τ) :
    Holds (step (.delete τ t) s).2 (S.set τ (Storable.key τ t) none)

/-- The key is constant exactly if the object that is got has it. -/
theorem Files.keyIsConstant_iff {D : StorableType → Type} {step : Interp StorableCall.Resp σ}
    {encode : Time → (τ : StorableType) → Storable τ → D τ}
    {decode : (τ : StorableType) → D τ → Storable τ → Storable τ} {Holds : σ → Stores D → Prop}
    (hFiles : Files step encode decode Holds) {s : σ} {S : Stores D} (hHolds : Holds s S)
    (hKey : Storable.key τ y = Storable.key τ x) :
    KeyIsConstant step s now τ x y ↔
      Storable.key τ (decode τ (encode now τ x) y) = Storable.key τ x := by
  have hPut := hFiles.put hHolds now τ x
  have hFound : (step (.get τ y) (step (.put now τ x) s).2).1 =
      (⟨none, decode τ (encode now τ x) y⟩ : Outcome τ) := by
    rw [hFiles.get hPut, hKey, set_self]
    rfl
  have hLeft := hFiles.get (hFiles.delete hPut τ (decode τ (encode now τ x) y)) τ y
  unfold KeyIsConstant
  dsimp only
  rw [hFound]
  dsimp only
  rw [hLeft, hKey]
  constructor
  · rintro ⟨-, hSame, -⟩
    exact hSame
  · intro hSame
    refine ⟨rfl, hSame, ?_⟩
    rw [hSame, set_self]
    rfl

theorem levelDB_files (J : Json) :
    Files (LevelDBStorage.step J) (fun now τ t => (Storable.serialize J now τ t).1)
      Storable.deserialize fun L S => L.isOpen = true ∧ L.files = S where
  put {L S} hHolds now τ t := by
    obtain ⟨hOpen, rfl⟩ := hHolds
    simp only [LevelDBStorage.step, LevelDBStorage.write, hOpen, Bool.not_true, Bool.false_eq_true,
      if_false, key_serialize, and_self]
  get {L S} hHolds τ t := by
    obtain ⟨hOpen, rfl⟩ := hHolds
    simp only [LevelDBStorage.step, LevelDBStorage.fetch, hOpen, Bool.not_true, Bool.false_eq_true,
      if_false, loaded]
    cases L.files τ (Storable.key τ t) <;> rfl
  delete {L S} hHolds τ t := by
    obtain ⟨hOpen, rfl⟩ := hHolds
    simp only [LevelDBStorage.step, LevelDBStorage.write, hOpen, Bool.not_true, Bool.false_eq_true,
      if_false, and_self]

theorem memory_files (J : Json) :
    Files (MemoryStorage.step J) (fun _ => Storable.marshal J) (fun _ data _ => data)
      fun M S => ∃ store, M.store = some store ∧ MemoryStorage.find store = S where
  put {M S} hHolds now τ t := by
    obtain ⟨store, hStore, rfl⟩ := hHolds
    obtain ⟨store', hWrite, hFind⟩ := write_eq hStore (Storable.key τ t) (Storable.marshal J τ t)
    simp only [MemoryStorage.step, hWrite]
    exact ⟨store', rfl, hFind⟩
  get {M S} hHolds τ t := by
    obtain ⟨store, hStore, rfl⟩ := hHolds
    simp only [MemoryStorage.step, MemoryStorage.fetch, hStore, loaded]
    cases MemoryStorage.find store τ (Storable.key τ t) <;> rfl
  delete {M S} hHolds τ t := by
    obtain ⟨store, hStore, rfl⟩ := hHolds
    obtain ⟨store', hRemove, hFind⟩ := remove_eq hStore τ (Storable.key τ t)
    simp only [MemoryStorage.step, hRemove]
    exact ⟨store', rfl, hFind⟩

/-! ## Constant keys -/

/-- When the key of a record outlives storing it. -/
theorem key_constant_iff (hBuilt : Built email τ x)
    (hKey : Storable.key τ y = Storable.key τ x) (now : Time) :
    (∀ L : LevelDBStorage, L.isOpen = true →
      (KeyIsConstant (LevelDBStorage.step J) L now τ x y ↔ KeySurvives J .levelDB τ x)) ∧
    ∀ M : MemoryStorage, M.store ≠ none →
      (KeyIsConstant (MemoryStorage.step J) M now τ x y ↔ KeySurvives J .memory τ x) := by
  constructor
  · intro L hOpen
    rw [(levelDB_files J).keyIsConstant_iff ⟨hOpen, rfl⟩ hKey]
    cases τ with
    | account =>
      have hStamp := key_serialize J now .account x
      show J.coerce (Storable.key .account (Storable.serialize J now .account x).2) = _ ↔ _
      rw [hStamp]
      rfl
    | authRequest => exact key_marshal_authRequest hBuilt.kind J
    | dataStore => exact iff_of_true hKey trivial
  · intro M hOpen
    obtain ⟨store, hStore⟩ := Option.ne_none_iff_exists'.mp hOpen
    rw [(memory_files J).keyIsConstant_iff ⟨store, hStore, rfl⟩ hKey]
    cases τ with
    | account => exact Iff.rfl
    | authRequest => exact key_marshal_authRequest hBuilt.kind J
    | dataStore => exact Iff.rfl

/-- A link is found again and gone after it has been deleted, whatever JSON does. -/
theorem key_constant_iff_link :
    ∃ ar, newAuthRequest (.after 0 (.constant 0)) [0xFF] (lit "api") [] none = some ar ∧
      KeyIsConstant (LevelDBStorage.step .utf8) (LevelDBStorage.openFiles {}) 0 .authRequest
        ({ ar with redirect := [] } : AuthRequest) ({ ar with redirect := [] } : AuthRequest) := by
  obtain ⟨ar, hNew⟩ := Option.isSome_iff_exists.mp
    (show (newAuthRequest (.after 0 (.constant 0)) [0xFF] (lit "api") [] none).isSome by
      decide +kernel)
  have hLink := newAuthRequest_link hNew (by decide)
  refine ⟨ar, hNew, ?_⟩
  exact ((key_constant_iff (.authRequest ar [] hNew) rfl 0).1 _ rfl).mpr (.inl hLink.token_ne_nil)

/-! ## An email that is not valid UTF-8 -/

/-- The form of a client that asks for a code for the email of the single byte `FF`. -/
def invalidForm : Server.AuthForm :=
  Server.standard.authForm
    (clientRequest (lit "POST") [] [] (lit "type=api&actType=code&email=%FF")) none

theorem invalidForm_accepted :
    Server.AuthForm.check Server.standard invalidForm = .ok () ∧ invalidForm.email = [0xFF] :=
  ⟨by decide +kernel, by decide +kernel⟩

/-- The request for a code lies under the key with the byte `FF`, and what is got has the
replacement character in its place. -/
theorem key_changes :
    ¬∀ (J : Json) (srv : Server) (f : Server.AuthForm) (now : Time) (L : LevelDBStorage)
      (M : MemoryStorage) (τ : StorableType) (x y : Storable τ),
      Server.AuthForm.check srv f = .ok () → Built f.email τ x →
      Storable.key τ y = Storable.key τ x → L.isOpen = true → M.store ≠ none →
        KeyIsConstant (LevelDBStorage.step J) L now τ x y ∧
          KeyIsConstant (MemoryStorage.step J) M now τ x y := by
  intro hAll
  obtain ⟨ar, hNew⟩ := Option.isSome_iff_exists.mp
    (show (newAuthRequest (.after 0 (.constant 0)) invalidForm.email (lit "api") (lit "code")
      none).isSome by decide +kernel)
  have hCode := newAuthRequest_code hNew rfl
  have hEmail : ar.authToken.email = invalidForm.email := Server.newAuthRequest_email hNew
  obtain ⟨hConstant, -⟩ := hAll .utf8 Server.standard invalidForm 0 (LevelDBStorage.openFiles {})
    (MemoryStorage.openStore {}) .authRequest ({ ar with redirect := [] } : AuthRequest)
    ({ ar with redirect := [] } : AuthRequest) invalidForm_accepted.1 (.authRequest ar [] hNew) rfl
    rfl (Option.some_ne_none _)
  rw [(levelDB_files .utf8).keyIsConstant_iff ⟨rfl, rfl⟩ rfl] at hConstant
  rcases (key_marshal_authRequest (.inr ⟨hCode.token, hCode.code⟩) .utf8).mp hConstant with
    hToken | hSame
  · exact hToken hCode.token
  · have hBytes : Json.utf8.coerce ar.authToken.email = ar.authToken.email := hSame
    rw [hEmail, invalidForm_accepted.2] at hBytes
    exact absurd hBytes (by decide +kernel)

end Storages

end PadlockCloud
