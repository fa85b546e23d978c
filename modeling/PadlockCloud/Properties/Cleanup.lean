import Mathlib.Data.List.Nodup
import PadlockCloud.Model.Iterators
import PadlockCloud.Model.Standard
import PadlockCloud.Request.Backends
import PadlockCloud.Request.Keys

/-!
# The cleanup job

The job deletes the auth requests that are older than a day. Over LevelDB it deletes
exactly those. The iterator of the memory skips the first record, so there the job is
exact as long as that one is to be kept.
-/

namespace PadlockCloud

open Process Time

/-- Created more than a day ago. -/
def AuthRequest.isOld (now : Time) (ar : AuthRequest) : Bool := ar.created < now - 24 * hour

/-- The keys of the stored auth requests, in some order. -/
structure Tables.Enumerates (T : Tables) (keys : List GoString) : Prop where
  nodup : keys.Nodup
  mem_iff : ∀ k, k ∈ keys ↔ T.authRequests k ≠ none

/-- The auth requests that are left are those that are not old, each as it was. -/
def Tables.IsCleaned (now : Time) (T T' : Tables) : Prop :=
  ∀ k, T'.authRequests k = (T.authRequests k).filter fun ar => !ar.isOld now

/-- The tables without the old ones among some records. -/
def Tables.withoutOld (now : Time) (records : List AuthRequest) (T : Tables) : Tables :=
  { T with
    authRequests := fun k =>
      if records.any (fun ar => ar.isOld now && ar.key = k) then none else T.authRequests k }

namespace Server

variable {σ : Type} {J : Json} {T : Tables} {keys : List GoString} {now : Time}
  {ar new : AuthRequest} {k : GoString}

/-! ## What the loop deletes -/

theorem withoutOld_cons (records : List AuthRequest) (T : Tables) :
    T.withoutOld now (ar :: records) =
      if ar.isOld now then (T.putAuthRequest ar.key none).withoutOld now records
      else T.withoutOld now records := by
  cases hOld : ar.isOld now with
  | false => simp [Tables.withoutOld, hOld]
  | true =>
    simp only [Tables.withoutOld, Tables.putAuthRequest, List.any_cons, hOld, Bool.true_and,
      if_true, Function.update_apply, Tables.mk.injEq, and_true, true_and]
    funext k
    by_cases hKey : k = ar.key
    · simp [hKey]
    · simp [hKey, Ne.symm hKey]

/-- For a storage that deletes as the tables do, the loop leaves the tables without the
old ones among its records. -/
theorem holds_deleteOld {S : Interp StorageCall.Resp σ} {Holds : σ → Tables → Prop}
    (hDelete : ∀ s T key, Holds s T →
      Holds (S (.deleteAuthRequest key) s).2 (T.putAuthRequest key none))
    (records : List AuthRequest) {w : World σ} (hHolds : Holds w.storage T) :
    Holds ((deleteOld now records).run (World.step S) w).2.storage (T.withoutOld now records) := by
  induction records generalizing w T with
  | nil => exact hHolds
  | cons ar records ih =>
    rw [withoutOld_cons, deleteOld]
    by_cases hOld : ar.created < now - 24 * hour
    · rw [if_pos hOld, if_pos (by simpa [AuthRequest.isOld] using hOld)]
      exact ih (hDelete _ _ ar.key hHolds)
    · rw [if_neg hOld, if_neg (by simpa [AuthRequest.isOld] using hOld)]
      exact ih hHolds

/-! ## When that is exact -/

variable (hKeys : T.Enumerates keys) (hKey : ∀ ⦃k ar⦄, T.authRequests k = some ar → ar.key = k)

include hKey in
theorem stored_of_mem (hMem : ar ∈ keys.filterMap T.authRequests) :
    T.authRequests ar.key = some ar := by
  obtain ⟨k, -, hStored⟩ := List.mem_filterMap.mp hMem
  rwa [hKey hStored]

include hKeys in
theorem mem_of_stored (hStored : T.authRequests k = some ar) :
    ar ∈ keys.filterMap T.authRequests := by
  refine List.mem_filterMap.mpr ⟨k, (hKeys.mem_iff k).mpr ?_, hStored⟩
  rw [hStored]
  exact Option.some_ne_none ar

include hKeys hKey in
theorem nodup_records : (keys.filterMap T.authRequests).Nodup := by
  refine hKeys.nodup.filterMap ?_
  intro k k' ar hStored hStored'
  exact (hKey hStored).symm.trans (hKey hStored')

include hKey in
/-- A stored record is gone if it is old and was walked. -/
theorem withoutOld_stored {records : List AuthRequest}
    (hRecords : ∀ other ∈ records, T.authRequests other.key = some other)
    (hStored : T.authRequests k = some ar) :
    (T.withoutOld now records).authRequests k =
      if ar.isOld now = true ∧ ar ∈ records then none else some ar := by
  have hGone : records.any (fun other => other.isOld now && other.key = k) = true ↔
      ar.isOld now = true ∧ ar ∈ records := by
    rw [List.any_eq_true]
    constructor
    · rintro ⟨other, hOther, hBoth⟩
      rw [Bool.and_eq_true, decide_eq_true_eq] at hBoth
      have hSame := hRecords other hOther
      rw [hBoth.2, hStored, Option.some.injEq] at hSame
      subst hSame
      exact ⟨hBoth.1, hOther⟩
    · rintro ⟨hOld, hMem⟩
      exact ⟨ar, hMem, by simp [hOld, hKey hStored]⟩
  simp only [Tables.withoutOld, hGone, hStored]

include hKeys hKey in
/-- A walk that leaves out some records at the front is exact if none of them is old. -/
theorem isCleaned_iff (n : Nat) :
    T.IsCleaned now (T.withoutOld now ((keys.filterMap T.authRequests).drop n)) ↔
      ∀ ar ∈ (keys.filterMap T.authRequests).take n, ar.isOld now = false := by
  have hSplit := List.take_append_drop n (keys.filterMap T.authRequests)
  have hWalked : ∀ other ∈ (keys.filterMap T.authRequests).drop n,
      T.authRequests other.key = some other := fun _ hOther =>
    stored_of_mem hKey (List.mem_of_mem_drop hOther)
  constructor
  · intro hCleaned ar hFront
    have hStored := stored_of_mem hKey (List.mem_of_mem_take hFront)
    have hLeft := hCleaned ar.key
    by_contra hOld
    rw [Bool.not_eq_false] at hOld
    rw [withoutOld_stored hKey hWalked hStored, hStored, Option.filter_some, hOld] at hLeft
    -- An old record that was left out would have been walked, too, but it stands in the list once.
    have hBack : ar ∈ (keys.filterMap T.authRequests).drop n := by
      by_contra hNone
      simp [hNone] at hLeft
    have hNodup := nodup_records hKeys hKey
    rw [← hSplit] at hNodup
    exact (List.nodup_append.mp hNodup).2.2 ar hFront ar hBack rfl
  · intro hRecent k
    cases hStored : T.authRequests k with
    | none => simp [Tables.withoutOld, hStored]
    | some ar =>
      rw [withoutOld_stored hKey hWalked hStored, Option.filter_some]
      cases hOld : ar.isOld now with
      | false => simp
      | true =>
        have hMem := mem_of_stored hKeys hStored
        rw [← hSplit, List.mem_append] at hMem
        rcases hMem with hFront | hBack
        · rw [hRecent ar hFront] at hOld
          cases hOld
        · simp [hBack]

/-! ## The two storages -/

theorem holds_clean_levelDB {L : LevelDBStorage} (hHolds : L.Holds T) :
    (L.clean J now keys).Holds (T.withoutOld now (keys.filterMap T.authRequests)) := by
  have hRecords : (LevelDBStorage.call J (.iterator keys) L).1 =
      .ok (keys.filterMap T.authRequests) := by
    obtain ⟨hOpen, rfl⟩ := hHolds
    exact if_pos hOpen
  rw [LevelDBStorage.clean_eq, run_cleanAuthRequests]
  dsimp only
  rw [hRecords]
  refine holds_deleteOld (S := LevelDBStorage.call J) ?_ _ hHolds
  intro L T key hHolds
  exact (LevelDBStorage.holds_write hHolds .authRequest key none).2

theorem holds_clean_memory {M : MemoryStorage} (hHolds : M.Holds T) :
    (M.clean J now keys).Holds (T.withoutOld now ((keys.filterMap T.authRequests).drop 1)) := by
  have hDelete (M : MemoryStorage) (T : Tables) (key : GoString) (hHolds : M.Holds T) :
      (MemoryStorage.call J (.deleteAuthRequest key) M).2.Holds (T.putAuthRequest key none) :=
    (MemoryStorage.holds_remove hHolds .authRequest key).2
  obtain ⟨store, hStore, hTables⟩ := hHolds
  have hRequests : T.authRequests = fun key => MemoryStorage.find store .authRequest key := by
    rw [hTables]
    funext key
    exact Option.map_id_apply
  rw [MemoryStorage.clean_eq, run_cleanAuthRequests]
  dsimp only
  cases hTable : store .authRequest with
  | none =>
    have hRecords : (MemoryStorage.call J (.iterator keys) M).1 =
        .error .unregisteredStorable := by
      simp only [MemoryStorage.call, MemoryStorage.iterate, hStore, hTable]
    have hNone : T.authRequests = fun _ => none := by
      rw [hRequests]
      funext key
      rw [MemoryStorage.find, hTable, Option.bind_none]
    have hNothing : (keys.filterMap T.authRequests).drop 1 = [] := by
      rw [hNone]
      simp
    rw [hRecords, hNothing]
    exact ⟨store, hStore, hTables⟩
  | some table =>
    have hSame : T.authRequests = table := by
      rw [hRequests]
      funext key
      rw [MemoryStorage.find, hTable, Option.bind_some]
    have hRecords : (MemoryStorage.call J (.iterator keys) M).1 =
        .ok ((keys.filterMap T.authRequests).drop 1) := by
      rw [hSame]
      simp only [MemoryStorage.call, MemoryStorage.iterate, hStore, hTable]
    rw [hRecords]
    exact holds_deleteOld hDelete _ ⟨store, hStore, hTables⟩

/-- A memory holds one set of tables. -/
theorem memory_holds_unique {M : MemoryStorage} {T T' : Tables} (hHolds : M.Holds T)
    (hHolds' : M.Holds T') : T = T' := by
  obtain ⟨store, hStore, rfl⟩ := hHolds
  obtain ⟨store', hStore', rfl⟩ := hHolds'
  rw [hStore, Option.some.injEq] at hStore'
  rw [hStore']

include hKeys hKey in
theorem levelDB_cleaned {L : LevelDBStorage} (hHolds : L.Holds T) :
    ∃ T', (L.clean J now keys).Holds T' ∧ T.IsCleaned now T' := by
  refine ⟨_, holds_clean_levelDB hHolds, ?_⟩
  have hNone : ∀ ar ∈ (keys.filterMap T.authRequests).take 0, ar.isOld now = false := nofun
  exact (isCleaned_iff hKeys hKey 0).mpr hNone

include hKeys hKey in
theorem memory_cleaned_iff {M : MemoryStorage} (hHolds : M.Holds T) :
    (∃ T', (M.clean J now keys).Holds T' ∧ T.IsCleaned now T') ↔
      ∀ ar ∈ (keys.filterMap T.authRequests).take 1, ar.isOld now = false := by
  rw [← isCleaned_iff hKeys hKey 1]
  constructor
  · rintro ⟨T', hHolds', hCleaned⟩
    rwa [memory_holds_unique hHolds' (holds_clean_memory hHolds)] at hCleaned
  · intro hCleaned
    exact ⟨_, holds_clean_memory hHolds, hCleaned⟩

/-- The job is exact over LevelDB, and over the memory if and only if the first record of
the walk is not an old one. -/
theorem cleanup_exact_iff (hAsked : T.AskedFor J) (hJ : J.Lossless) (hKeys : T.Enumerates keys)
    (now : Time) :
    (∀ L : LevelDBStorage, L.Holds T →
      ∃ T', (L.clean J now keys).Holds T' ∧ T.IsCleaned now T') ∧
    ∀ M : MemoryStorage, M.Holds T →
      ((∃ T', (M.clean J now keys).Holds T' ∧ T.IsCleaned now T') ↔
        ∀ ar, (keys.filterMap T.authRequests).head? = some ar → now - 24 * hour ≤ ar.created) := by
  have hKey : ∀ ⦃k ar⦄, T.authRequests k = some ar → ar.key = k := fun _ _ hFound =>
    hAsked.key hJ hFound
  refine ⟨fun L hHolds => levelDB_cleaned hKeys hKey hHolds, fun M hHolds => ?_⟩
  rw [memory_cleaned_iff hKeys hKey hHolds]
  cases keys.filterMap T.authRequests with
  | nil => simp
  | cons first records =>
    simp [AuthRequest.isOld]

/-! ## Stored auth requests

An old one that is behind another one in the memory, and one that is alone. -/

/-- The database with the data of some tables. -/
def levelDBOf (T : Tables) : LevelDBStorage where
  files τ :=
    match τ with
    | .account => T.accounts
    | .authRequest => T.authRequests
    | .dataStore => T.dataStores
  isOpen := true

theorem levelDBOf_holds (T : Tables) : (levelDBOf T).Holds T := ⟨rfl, rfl⟩

/-- The memory with the data of some tables. -/
def memoryOf (T : Tables) : MemoryStorage where
  store := some fun τ =>
    match τ with
    | .account => some T.accounts
    | .authRequest => some T.authRequests
    | .dataStore => some fun k => (T.dataStores k).map (DataStore.mk { email := k })

theorem memoryOf_holds (T : Tables) : (memoryOf T).Holds T := by
  refine ⟨_, rfl, ?_⟩
  rw [Tables.ofStores, Tables.mk.injEq]
  refine ⟨?_, ?_, ?_⟩
  · funext k
    exact Option.map_id_apply.symm
  · funext k
    exact Option.map_id_apply.symm
  · funext k
    show T.dataStores k = ((T.dataStores k).map (DataStore.mk { email := k })).map DataStore.content
    rw [Option.map_map]
    exact Option.map_id_apply.symm

/-- The tables with some auth requests. -/
def requestTables (records : List AuthRequest) : Tables :=
  records.foldr (fun ar T => T.putAuthRequest ar.key (some ar)) .empty

theorem requestTables_found {records : List AuthRequest}
    (hFound : (requestTables records).authRequests k = some ar) : ar ∈ records ∧ ar.key = k := by
  induction records with
  | nil => cases hFound
  | cons first records ih =>
    by_cases hKey : k = first.key
    · subst hKey
      have hFirst : (requestTables (first :: records)).authRequests first.key = some first :=
        Function.update_self _ _ _
      obtain rfl : first = ar := Option.some.inj (hFirst.symm.trans hFound)
      exact ⟨List.mem_cons_self, rfl⟩
    · have hLater : (requestTables (first :: records)).authRequests k =
          (requestTables records).authRequests k := Function.update_of_ne hKey _ _
      rw [hLater] at hFound
      exact ⟨List.mem_cons_of_mem _ (ih hFound).1, (ih hFound).2⟩

theorem requestTables_mem {records : List AuthRequest}
    (hDistinct : (records.map AuthRequest.key).Nodup) (hMem : ar ∈ records) :
    (requestTables records).authRequests ar.key = some ar := by
  induction records with
  | nil => cases hMem
  | cons first records ih =>
    rw [List.map_cons, List.nodup_cons] at hDistinct
    rcases List.mem_cons.mp hMem with rfl | hLater
    · exact Function.update_self _ _ _
    · have hKey : ar.key ≠ first.key := by
        intro hSame
        exact hDistinct.1 (hSame ▸ List.mem_map_of_mem hLater)
      exact (Function.update_of_ne hKey _ _).trans (ih hDistinct.2 hLater)

theorem requestTables_enumerates {records : List AuthRequest}
    (hDistinct : (records.map AuthRequest.key).Nodup) :
    (requestTables records).Enumerates (records.map AuthRequest.key) where
  nodup := hDistinct
  mem_iff k := by
    constructor
    · intro hMem
      obtain ⟨ar, hAr, rfl⟩ := List.mem_map.mp hMem
      rw [requestTables_mem hDistinct hAr]
      exact Option.some_ne_none ar
    · intro hSome
      obtain ⟨ar, hFound⟩ := Option.ne_none_iff_exists'.mp hSome
      obtain ⟨hMem, rfl⟩ := requestTables_found hFound
      exact List.mem_map_of_mem hMem

theorem requestTables_askedFor {records : List AuthRequest}
    (hIssues : ∀ ar ∈ records, ∃ srv env r auth, Issues srv env r auth ar) :
    (requestTables records).AskedFor Json.identity := by
  intro k ar hFound
  obtain ⟨hMem, rfl⟩ := requestTables_found hFound
  obtain ⟨srv, env, r, auth, hIssued⟩ := hIssues ar hMem
  exact ⟨srv, env, r, auth, ar, hIssued, rfl,
    (AuthRequest.marshal_of_lossless Json.identity_lossless ar).symm⟩

/-- The request of a client for a link. -/
def askLink : Request := clientRequest (lit "POST") [] [] (lit "type=api&email=e@x.io")

/-- What it makes. -/
def linkAsked (age : Nat) (byte : UInt8) : AuthRequest where
  token := Random.tokenString (Random.constant byte).token
  created := unixEpoch + age
  authToken :=
    { email := lit "e@x.io"
      token := Random.tokenString (Random.constant byte).secret
      type := lit "api"
      id := Random.tokenString (Random.constant byte).id
      created := unixEpoch + age
      lastUsed := unixEpoch + age }

/-- The request of the first moment. -/
def oldRequest : AuthRequest := linkAsked 0 0

/-- A request one day later. -/
def recentRequest : AuthRequest := linkAsked 86400000000000 1

theorem issues_oldRequest : Issues standard (.after 0 (.constant 0)) askLink none oldRequest :=
  ⟨by decide +kernel, by decide +kernel⟩

theorem issues_recentRequest :
    Issues standard (.after 86400000000000 (.constant 1)) askLink none recentRequest :=
  ⟨by decide +kernel, by decide +kernel⟩

def bothRequests : Tables := requestTables [recentRequest, oldRequest]

def bothKeys : List GoString := [recentRequest, oldRequest].map AuthRequest.key

theorem bothRequests_askedFor : bothRequests.AskedFor Json.identity := by
  refine requestTables_askedFor fun ar hMem => ?_
  rcases List.mem_cons.mp hMem with rfl | hMem
  · exact ⟨_, _, _, _, issues_recentRequest⟩
  · obtain rfl := List.mem_singleton.mp hMem
    exact ⟨_, _, _, _, issues_oldRequest⟩

/-- The one at the front is recent, and the job deletes the old one behind it. -/
theorem cleanup_exact_iff_behind :
    ((∃ T', ((levelDBOf bothRequests).clean .identity (unixEpoch + 25 * hour) bothKeys).Holds T' ∧
          bothRequests.IsCleaned (unixEpoch + 25 * hour) T') ∧
        ∃ T', ((memoryOf bothRequests).clean .identity (unixEpoch + 25 * hour) bothKeys).Holds T' ∧
          bothRequests.IsCleaned (unixEpoch + 25 * hour) T') ∧
      bothRequests.authRequests recentRequest.key = some recentRequest ∧
      recentRequest.isOld (unixEpoch + 25 * hour) = false ∧
      bothRequests.authRequests oldRequest.key = some oldRequest ∧
      oldRequest.isOld (unixEpoch + 25 * hour) = true := by
  have hDistinct : ([recentRequest, oldRequest].map AuthRequest.key).Nodup := by decide +kernel
  have hRecent : bothRequests.authRequests recentRequest.key = some recentRequest :=
    requestTables_mem hDistinct List.mem_cons_self
  have hOld : bothRequests.authRequests oldRequest.key = some oldRequest :=
    requestTables_mem hDistinct (List.mem_cons_of_mem _ List.mem_cons_self)
  obtain ⟨hLevelDB, hMemory⟩ := cleanup_exact_iff bothRequests_askedFor Json.identity_lossless
    (requestTables_enumerates hDistinct) (unixEpoch + 25 * hour)
  refine ⟨⟨hLevelDB _ (levelDBOf_holds _), (hMemory _ (memoryOf_holds _)).mpr fun ar hFirst => ?_⟩,
    hRecent, by decide, hOld, by decide⟩
  obtain rfl : recentRequest = ar := by
    simpa only [List.map_cons, List.filterMap_cons, hRecent, List.head?_cons,
      Option.some.injEq] using hFirst
  decide

/-- An old auth request that is the only one in the memory is skipped and stays. -/
theorem cleanup_skips :
    ¬∀ (J : Json) (T : Tables) (keys : List GoString) (now : Time) (M : MemoryStorage),
      T.AskedFor J → J.Lossless → T.Enumerates keys → M.Holds T →
        ∃ T', (M.clean J now keys).Holds T' ∧ T.IsCleaned now T' := by
  intro hAll
  have hDistinct : ([oldRequest].map AuthRequest.key).Nodup := List.nodup_singleton _
  have hAsked : (requestTables [oldRequest]).AskedFor Json.identity := by
    refine requestTables_askedFor fun ar hMem => ?_
    obtain rfl := List.mem_singleton.mp hMem
    exact ⟨_, _, _, _, issues_oldRequest⟩
  have hKeys := requestTables_enumerates hDistinct
  have hStored : (requestTables [oldRequest]).authRequests oldRequest.key = some oldRequest :=
    requestTables_mem hDistinct (List.mem_singleton_self _)
  have hOld := (memory_cleaned_iff hKeys (fun _ _ hFound => (requestTables_found hFound).2)
    (memoryOf_holds _)).mp (hAll .identity (requestTables [oldRequest]) [oldRequest.key]
      (unixEpoch + 25 * hour) (memoryOf (requestTables [oldRequest])) hAsked
      Json.identity_lossless hKeys (memoryOf_holds _)) oldRequest (by simp [hStored])
  exact absurd hOld (by decide)

end Server

end PadlockCloud
