import PadlockCloud.Model.Server
import PadlockCloud.Model.Storages

/-!
# Walking a storage

The iterators of `storage.go` and the loop of the cleanup job over them. `Next` moves
the cursor and reports whether there is a record at it. LevelDB starts in front of the
first record, and `SliceIterator` on it, so that its first `Next` moves to the second.
-/

namespace PadlockCloud

open Process Time

/-- What the methods of a `StorageIterator` do to its state. The loop over `Next` ends,
since there is less left after each record, and `Get` finds data in it. -/
structure StorageIterator (ι D : Type) where
  next : ι → Bool × ι
  /-- The data that `Get` deserializes. -/
  value : ι → Option D
  left : ι → Nat
  left_next : ∀ it, (next it).1 = true → left (next it).2 < left it
  value_next : ∀ it, (next it).1 = true → (value (next it).2).isSome

/-! ## The two iterators -/

/-- The iterator of `MemoryStorage`: the data and the index of the current one. -/
structure SliceIterator (D : Type) where
  s : List D
  i : Nat := 0

/-- The iterator of LevelDB: the snapshot from behind the cursor on, and the data at it. -/
structure LevelDBIterator (D : Type) where
  ahead : List D
  current : Option D := none

namespace SliceIterator

variable {D : Type}

def next (it : SliceIterator D) : Bool × SliceIterator D :=
  if it.i + 1 < it.s.length then (true, { it with i := it.i + 1 }) else (false, it)

def methods : StorageIterator (SliceIterator D) D where
  next := next
  value it := it.s[it.i]?
  left it := it.s.length - it.i
  left_next it hNext := by
    unfold next at hNext ⊢
    split
    · dsimp only
      omega
    · rename_i hEnd
      rw [if_neg hEnd] at hNext
      cases hNext
  value_next it hNext := by
    unfold next at hNext ⊢
    split
    · rename_i hIndex
      rw [List.getElem?_eq_getElem hIndex]
      rfl
    · rename_i hEnd
      rw [if_neg hEnd] at hNext
      cases hNext

end SliceIterator

namespace LevelDBIterator

variable {D : Type}

def next (it : LevelDBIterator D) : Bool × LevelDBIterator D :=
  match it.ahead with
  | [] => (false, { it with current := none })
  | d :: ahead => (true, { ahead, current := some d })

def methods : StorageIterator (LevelDBIterator D) D where
  next := next
  value := LevelDBIterator.current
  left it := it.ahead.length
  left_next it hNext := by
    unfold next at hNext ⊢
    split
    · rename_i hEnd
      rw [hEnd] at hNext
      cases hNext
    · rename_i hAhead
      rw [hAhead]
      exact Nat.lt_succ_self _
  value_next it hNext := by
    unfold next at hNext ⊢
    split
    · rename_i hEnd
      rw [hEnd] at hNext
      cases hNext
    · rfl

end LevelDBIterator

namespace StorageIterator

variable {ι D : Type} (I : StorageIterator ι D)

/-- The data that a loop over `Next` sees. -/
def walk (it : ι) : List D :=
  match hNext : I.next it with
  | (false, _) => []
  | (true, it') =>
    have : I.left it' < I.left it := by
      have hLeft := I.left_next it
      rw [hNext] at hLeft
      exact hLeft rfl
    (I.value it').toList ++ walk it'
termination_by I.left it

theorem walk_end {it it' : ι} (hNext : I.next it = (false, it')) : I.walk it = [] := by
  rw [walk]
  split
  · rfl
  · rename_i hOther
    rw [hNext] at hOther
    cases hOther

theorem walk_next {it it' : ι} (hNext : I.next it = (true, it')) :
    I.walk it = (I.value it').toList ++ I.walk it' := by
  rw [walk]
  split
  · rename_i hOther
    rw [hNext] at hOther
    cases hOther
  · rename_i hOther
    rw [hNext] at hOther
    cases hOther
    rfl

end StorageIterator

/-- LevelDB is walked from the first record on. -/
theorem LevelDBIterator.walk_eq {D : Type} (ahead : List D) (current : Option D) :
    methods.walk { ahead, current } = ahead := by
  induction ahead generalizing current with
  | nil =>
    have hNext : methods.next (D := D) { ahead := [], current } = (false, { ahead := [] }) := rfl
    exact methods.walk_end hNext
  | cons d ahead ih =>
    have hNext : methods.next { ahead := d :: ahead, current } =
        (true, { ahead, current := some d }) := rfl
    rw [methods.walk_next hNext, ih]
    rfl

/-- A slice is walked from behind the cursor on. -/
theorem SliceIterator.walk_eq {D : Type} (s : List D) (i : Nat) :
    methods.walk { s, i } = s.drop (i + 1) := by
  induction hLeft : s.length - i generalizing i with
  | zero =>
    have hNext : methods.next { s, i } = (false, ({ s, i } : SliceIterator D)) :=
      if_neg (by dsimp only; omega)
    rw [methods.walk_end hNext, List.drop_of_length_le (by omega)]
  | succ n ih =>
    by_cases hEnd : i + 1 < s.length
    · have hNext : methods.next { s, i } = (true, ({ s, i := i + 1 } : SliceIterator D)) :=
        if_pos hEnd
      rw [methods.walk_next hNext, ih (i + 1) (by omega), List.drop_eq_getElem_cons hEnd]
      show s[i + 1]?.toList ++ _ = _
      rw [List.getElem?_eq_getElem hEnd]
      rfl
    · have hNext : methods.next { s, i } = (false, ({ s, i } : SliceIterator D)) := if_neg hEnd
      rw [methods.walk_end hNext, List.drop_of_length_le (by omega)]

/-! ## The cleanup job -/

namespace Server

variable {ι : Type}

/-- The loop of the `cleanAuthRequests` action. All records are got through one object. -/
def cleanLoop (I : StorageIterator ι AuthRequest) (now : Time) (it : ι) (ar : AuthRequest) :
    Serve Unit :=
  match hNext : I.next it with
  | (false, _) => .pure ()
  | (true, it') =>
    have : I.left it' < I.left it := by
      have hLeft := I.left_next it
      rw [hNext] at hLeft
      exact hLeft rfl
    match I.value it' with
    | none => .fail .panic
    | some data =>
      let ar : AuthRequest := Storable.deserialize .authRequest data ar
      if ar.created < now - 24 * hour then
        (store (.deleteAuthRequest ar.key)).bind fun _ => cleanLoop I now it' ar
      else cleanLoop I now it' ar
termination_by I.left it

/-- The object that the records are got through does not matter, since the text of each
has all fields. -/
theorem cleanLoop_eq (I : StorageIterator ι AuthRequest) (now : Time) (it : ι) (ar : AuthRequest) :
    cleanLoop I now it ar = deleteOld now (I.walk it) := by
  induction hLeft : I.left it using Nat.strongRecOn generalizing it ar with
  | ind n ih =>
    subst hLeft
    rw [cleanLoop]
    split
    · rename_i it' hNext
      rw [I.walk_end hNext, deleteOld]
    · rename_i it' hNext
      have hLess : I.left it' < I.left it := by
        have hLeft := I.left_next it
        rw [hNext] at hLeft
        exact hLeft rfl
      have hValue : (I.value it').isSome := by
        have hValue := I.value_next it
        rw [hNext] at hValue
        exact hValue rfl
      obtain ⟨data, hData⟩ := Option.isSome_iff_exists.mp hValue
      have hRest := ih (I.left it') hLess it' data rfl
      rw [I.walk_next hNext, hData, Option.toList_some, List.singleton_append, deleteOld]
      dsimp only [Storable.deserialize]
      rw [hRest]

/-- The `cleanAuthRequests` action, once the storage was asked for an iterator. -/
def cleanAction (I : StorageIterator ι AuthRequest) (now : Time) (found : Except StorageError ι) :
    Serve Unit :=
  match found with
  | .error _ => .pure ()
  | .ok it => cleanLoop I now it { authToken := {} }

end Server

/-- `LevelDBStorage.Iterator`, for the records under the given keys. -/
def LevelDBStorage.iterator (s : LevelDBStorage) (τ : StorableType) (keys : List GoString) :
    Except StorageError (LevelDBIterator (Storable.Serialized τ)) :=
  if s.isOpen then .ok { ahead := keys.filterMap (s.files τ) } else .error .unregisteredStorable

/-- `MemoryStorage.Iterator`, for the records under the given keys. -/
def MemoryStorage.iterator (s : MemoryStorage) (τ : StorableType) (keys : List GoString) :
    Except StorageError (SliceIterator (Storable τ)) :=
  match s.store with
  | none => .error .storageClosed
  | some store =>
    match store τ with
    | none => .error .unregisteredStorable
    | some table => .ok { s := keys.filterMap table }

/-- The action over LevelDB. -/
def LevelDBStorage.clean (J : Json) (now : Time) (keys : List GoString) (s : LevelDBStorage) :
    LevelDBStorage :=
  ((Server.cleanAction LevelDBIterator.methods now (s.iterator .authRequest keys)).run
    (World.step (call J)) { storage := s }).2.storage

/-- The action over the memory. -/
def MemoryStorage.clean (J : Json) (now : Time) (keys : List GoString) (s : MemoryStorage) :
    MemoryStorage :=
  ((Server.cleanAction SliceIterator.methods now (s.iterator .authRequest keys)).run
    (World.step (call J)) { storage := s }).2.storage

/-! ## The job of the server -/

/-- The job with the records that the call for an iterator returns. -/
theorem Server.run_cleanAuthRequests {σ : Type} (S : Interp StorageCall.Resp σ) (now : Time)
    (keys : List GoString) (w : World σ) :
    (cleanAuthRequests now keys).run (World.step S) w =
      match (S (.iterator keys) w.storage).1 with
      | .error _ => (.ok (), { w with storage := (S (.iterator keys) w.storage).2 })
      | .ok records =>
        (deleteOld now records).run (World.step S)
          { w with storage := (S (.iterator keys) w.storage).2 } := by
  rw [cleanAuthRequests, Program.bind_eq, store, Program.request_bind, Program.run_call]
  show Program.run (World.step S) (match (S (.iterator keys) w.storage).1 with
    | .error _ => .pure ()
    | .ok records => deleteOld now records) _ = _
  cases (S (.iterator keys) w.storage).1 <;> rfl

/-- The loop over the iterator does what the job does with the records. -/
theorem LevelDBStorage.clean_eq (J : Json) (now : Time) (keys : List GoString)
    (s : LevelDBStorage) :
    s.clean J now keys =
      ((Server.cleanAuthRequests now keys).run (World.step (call J)) { storage := s }).2.storage := by
  rw [Server.run_cleanAuthRequests]
  simp only [clean, iterator, call, iterate]
  cases hOpen : s.isOpen with
  | false => rfl
  | true => simp only [if_true, Server.cleanAction, Server.cleanLoop_eq, LevelDBIterator.walk_eq]

theorem MemoryStorage.clean_eq (J : Json) (now : Time) (keys : List GoString)
    (s : MemoryStorage) :
    s.clean J now keys =
      ((Server.cleanAuthRequests now keys).run (World.step (call J)) { storage := s }).2.storage := by
  rw [Server.run_cleanAuthRequests]
  simp only [clean, iterator, call, iterate]
  cases hStore : s.store with
  | none => rfl
  | some found =>
    cases hTable : found .authRequest with
    | none =>
      simp only [hTable, Server.cleanAction]
      rfl
    | some table =>
      simp only [hTable, Server.cleanAction, Server.cleanLoop_eq, SliceIterator.walk_eq]

end PadlockCloud
