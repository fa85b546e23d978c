import PadlockCloud.Properties.Isolation
import PadlockCloud.Request.Backends

/-!
# The store of an account

For each account the data store is a register: it is read as it has last been
written. Between two turns of the server any account can be written, reset or
deleted and signed up again, and the turns of the others can fail. This holds for
both storages, although they do not keep the content in the same form.
-/

namespace PadlockCloud

open Process Time

/-! ## Sessions -/

/-- What the server does without interruption: it authenticates a request, it calls a
handler, or it cleans up. -/
inductive Turn where
  | authenticate (env : Env) (r : Request)
  | handle (h : Handler) (env : Env) (r : Request) (auth : Option Auth)
  | clean (now : Time) (keys : List GoString)

/-- A call of a handler with its result. -/
structure Record where
  handler : Handler
  auth : Option Auth
  body : GoString
  result : Except HttpError Reply

/-- A storage in use, what `Authenticate` has returned so far, and the calls of
handlers, the latest one first. -/
structure Session (σ : Type) where
  world : World σ
  auths : List Auth := []
  log : List Record := []

section

variable {σ : Type}

/-- A session with a storage that has just been opened. -/
def Session.opened (storage : σ) : Session σ := { world := { storage } }

/-- A handler gets what `Authenticate` has returned, maybe long ago. -/
def Turn.allowed (s : Session σ) : Turn → Prop
  | .handle _ _ _ (some a) => a ∈ s.auths
  | _ => True

def Turn.perform (srv : Server) (S : Interp StorageCall.Resp σ) (s : Session σ) : Turn → Session σ
  | .authenticate env r =>
    match (srv.authenticate env r).run (World.step S) s.world with
    | (.ok a, w) => { s with world := w, auths := a :: s.auths }
    | (.error _, w) => { s with world := w }
  | .handle h env r auth =>
    let (result, w) := (h.handle srv env r auth).run (World.step S) s.world
    { s with world := w, log := ⟨h, auth, r.body, result⟩ :: s.log }
  | .clean now keys =>
    { s with world := ((Server.cleanAuthRequests now keys).run (World.step S) s.world).2 }

/-- Any turns, one after the other. -/
inductive Session.Reaches (srv : Server) (S : Interp StorageCall.Resp σ) (start : Session σ) :
    Session σ → Prop where
  | refl : Reaches srv S start start
  | turn {s : Session σ} (hReaches : Reaches srv S start s) (turn : Turn)
      (hAllowed : turn.allowed s) : Reaches srv S start (turn.perform srv S s)

/-! ## The register -/

/-- What a call leaves in the store of an account, if it changes it. -/
def Record.leaves (e : GoString) (record : Record) : Option GoString :=
  match record.auth, record.result with
  | some a, .ok _ =>
    if a.account.email ≠ e then none
    else
      match record.handler with
      | .writeStore => some record.body
      | .deleteStore | .deleteAccount => some []
      | _ => none
  | _, _ => none

/-- The content that was last written to the store of an account and not deleted. -/
def latest (e : GoString) : List Record → GoString
  | [] => []
  | record :: log => (record.leaves e).getD (latest e log)

/-- The content that `Get` finds. -/
def storedContent (S : Interp StorageCall.Resp σ) (e : GoString) (s : σ) : GoString :=
  (S (.getDataStore { email := e }) s).1.toOption.getD []

/-- The account that a handler is called for. -/
def Turn.account : Turn → Option GoString
  | .handle _ _ _ (some a) => some a.account.email
  | _ => none

/-- What is read is what was written last, and neither a call that fails nor a turn
for another account changes what is stored. -/
structure IsRegister (srv : Server) (S : Interp StorageCall.Resp σ) (s : Session σ) : Prop where
  reads : ∀ record earlier, record :: earlier <:+ s.log → record.handler = .readStore →
    ∀ a reply, record.auth = some a → record.result = .ok reply →
      reply.body = .bytes (latest a.account.email earlier)
  stored : ∀ e, storedContent S e s.world.storage = latest e s.log
  failed : ∀ h env r auth, (Turn.handle h env r auth).allowed s → ∀ error w',
    (Handler.handle srv h env r auth).run (World.step S) s.world = (.error error, w') →
      ∀ e, storedContent S e w'.storage = storedContent S e s.world.storage
  others : ∀ turn : Turn, turn.allowed s → ∀ e, turn.account ≠ some e →
    storedContent S e (turn.perform srv S s).world.storage = storedContent S e s.world.storage

end

namespace Server

variable {srv : Server} {b : Backend} {env : Env} {r : Request} {auth : Option Auth}
  {T T' : Tables} {w : World Tables} {h : Handler}

/-! ## One turn on the tables -/

theorem Record.leaves_of_ne {record : Record} {e : GoString}
    (hOther : ∀ a, record.auth = some a → a.account.email ≠ e) : record.leaves e = none := by
  unfold Record.leaves
  split
  · rename_i a _ hAuth _
    exact if_pos (hOther a hAuth)
  · rfl

theorem Record.leaves_of_handler {record : Record} {e : GoString}
    (hHandler : ¬ChangesData record.handler) : record.leaves e = none := by
  unfold Record.leaves
  split
  · split
    · rfl
    · split <;> first | rfl | (rename_i hSame; exact absurd (by simp [ChangesData, hSame]) hHandler)
  · rfl

/-- What a handler leaves in the store of each account. -/
theorem handle_dataStores (hSound : ∀ a, auth = some a → a.Sound b.json) (e : GoString) :
    (((h.handle srv env r auth).run (exec b) w).2.storage.dataStores e).getD [] =
      (Record.leaves e ⟨h, auth, r.body, ((h.handle srv env r auth).run (exec b) w).1⟩).getD
        ((w.storage.dataStores e).getD []) := by
  by_cases hChanges : ChangesData h
  · cases auth with
    | none =>
      rw [Record.leaves_of_ne fun a hSome => by cases hSome]
      rcases hChanges with rfl | rfl | rfl <;> rfl
    | some a =>
      have hPut {key : GoString} (hOwn : key = a.account.email) (content : Option GoString) :
          (Function.update w.storage.dataStores key content e).getD [] =
            (if a.account.email ≠ e then none else some (content.getD [])).getD
              ((w.storage.dataStores e).getD []) := by
        subst hOwn
        by_cases hKey : a.account.email = e
        · subst hKey
          rw [Function.update_self, if_neg (not_not_intro rfl), Option.getD_some]
        · rw [Function.update_of_ne (Ne.symm hKey), if_pos hKey, Option.getD_none]
      rcases hChanges with rfl | rfl | rfl
      · rw [Handler.handle, run_writeStore]
        cases hBody : r.bodyFails with
        | true => rfl
        | false => exact hPut rfl (some r.body)
      · exact hPut rfl none
      · exact hPut (hSound a rfl).token none
  · rw [Record.leaves_of_handler hChanges, Option.getD_none]
    have hSame : ((h.handle srv env r auth).run (exec b) w).2.storage.dataStores e =
        w.storage.dataStores e := by
      by_contra hChange
      exact hChanges ((effect_handle h).data_changes hSound hChange).1
    rw [hSame]

/-- What `ReadStore` returns. -/
theorem readStore_body {a : Auth} {reply : Reply}
    (hRun : ((Handler.handle srv .readStore env r (some a)).run (exec b) w).1 = .ok reply) :
    reply.body = .bytes ((w.storage.dataStores a.account.email).getD []) := by
  rw [Handler.handle, run_readStore] at hRun
  rw [← Except.ok.inj hRun]

theorem Deletes.sound {J : Json} (hDeletes : Deletes T T') (hSound : T.Sound J) : T'.Sound J := by
  obtain ⟨hAccounts, -, hRequests⟩ := hDeletes
  have hAccount {k : GoString} {acc : Account} (hFound : T'.accounts k = some acc) :
      T.accounts k = some acc := by rwa [hAccounts] at hFound
  have hRequest {k : GoString} {ar : AuthRequest} (hFound : T'.authRequests k = some ar) :
      T.authRequests k = some ar := by
    rcases hRequests k with hSame | hNone
    · exact hSame.symm.trans hFound
    · rw [hNone] at hFound
      cases hFound
  exact ⟨⟨fun hFound => hSound.key (hAccount hFound), fun hFound => hSound.account (hAccount hFound),
    fun hFound => hSound.authRequest (hRequest hFound)⟩, fun hFound => hSound.tokens (hAccount hFound),
    fun hFound => hSound.issued (hRequest hFound)⟩

/-! ## Any storage that behaves like the tables -/

section

variable {σ : Type} {S : Interp StorageCall.Resp σ} {related : σ → Tables → Prop} {s : Session σ}

/-- The storage of the session behaves like sound tables that have the latest
content of each account. -/
structure Tracks (srv : Server) (b : Backend) (related : σ → Tables → Prop) (s : Session σ)
    (w : World Tables) : Prop where
  world : World.Related related s.world w
  sound : w.storage.Sound b.json
  auths : ∀ a ∈ s.auths, a.Sound b.json
  stored : ∀ e, (w.storage.dataStores e).getD [] = latest e s.log
  reads : ∀ record earlier, record :: earlier <:+ s.log → record.handler = .readStore →
    ∀ a reply, record.auth = some a → record.result = .ok reply →
      reply.body = .bytes (latest a.account.email earlier)

variable (hSimulates : Simulates S (Tables.step b) (fun c _ => ¬(Call.storage c).walks) related)
  (hWalk : ∀ keys s, (S (.iterator keys) s).2 = s)

include hSimulates

/-- A program that does not walk the auth requests does on the storage what it does on
the tables. -/
theorem same_run {α : Type} {p : Serve α} {v : World σ} (hNoWalk : Complies noWalk p)
    (hRelated : World.Related related v w) :
    (p.run (World.step S) v).1 = (p.run (exec b) w).1 ∧
      World.Related related (p.run (World.step S) v).2 (p.run (exec b) w).2 := by
  have hAlways : p.Always (exec b) (fun c _ => ¬c.walks) w :=
    (hNoWalk []).always (fun _ _ _ => trivial) fun _ _ _ hCall => hCall
  obtain ⟨hResult, -, hNext⟩ := (World.simulates hSimulates).run p hRelated hAlways
  exact ⟨hResult, hNext⟩

theorem tracks_authenticate (hTracks : Tracks srv b related s w) (env : Env) (r : Request) :
    ∃ w', Tracks srv b related (Turn.perform srv S s (.authenticate env r)) w' := by
  have hNoWalk : Complies noWalk (srv.authenticate env r) := noWalk_authenticate
  obtain ⟨hResult, hNext⟩ := same_run hSimulates hNoWalk hTracks.world
  rw [run_authenticate] at hResult hNext
  have hSound := hTracks.sound
  have hStored (e : GoString) : ((authTables b w.storage
      (srv.authenticated b env r w.storage)).dataStores e).getD [] = latest e s.log := by
    rw [authTables_dataStores]
    exact hTracks.stored e
  refine ⟨{ w with storage := authTables b w.storage (srv.authenticated b env r w.storage) }, ?_⟩
  rw [Turn.perform]
  cases hRun : (srv.authenticate env r).run (World.step S) s.world with
  | mk result v =>
    rw [hRun] at hResult hNext
    cases result with
    | error e => exact ⟨hNext, sound_authTables hSound, hTracks.auths, hStored, hTracks.reads⟩
    | ok a =>
      refine ⟨hNext, sound_authTables hSound, fun a' ha' => ?_, hStored, hTracks.reads⟩
      rcases List.mem_cons.mp ha' with rfl | hOld
      · exact authenticated_sound hSound hResult.symm
      · exact hTracks.auths a' hOld

theorem tracks_handle (hTracks : Tracks srv b related s w) (h : Handler) (env : Env) (r : Request)
    {auth : Option Auth} (hAllowed : (Turn.handle h env r auth).allowed s) :
    ∃ w', Tracks srv b related (Turn.perform srv S s (.handle h env r auth)) w' := by
  have hNoWalk : Complies noWalk (h.handle srv env r auth) := noWalk_handle h
  obtain ⟨hResult, hNext⟩ := same_run hSimulates hNoWalk hTracks.world
  have hAuth (a : Auth) (hSome : auth = some a) : a.Sound b.json := by
    subst hSome
    exact hTracks.auths a hAllowed
  refine ⟨_, hNext, (effect_handle h).sound hTracks.sound hAuth, hTracks.auths, fun e => ?_, ?_⟩
  · rw [handle_dataStores hAuth e, hTracks.stored e]
    show _ = (Record.leaves e ⟨h, auth, r.body, _⟩).getD (latest e s.log)
    rw [hResult]
  · intro record earlier hSuffix hHandler a reply hSome hReply
    rcases List.suffix_cons_iff.mp hSuffix with hLast | hEarlier
    · obtain ⟨rfl, rfl⟩ := List.cons.inj hLast
      dsimp only at hHandler hSome hReply
      subst hHandler hSome
      rw [hResult] at hReply
      rw [readStore_body hReply, hTracks.stored]
    · exact hTracks.reads record earlier hEarlier hHandler a reply hSome hReply

include hWalk in
theorem tracks_clean (hTracks : Tracks srv b related s w) (now : Time) (keys : List GoString) :
    ∃ w', Tracks srv b related (Turn.perform srv S s (.clean now keys)) w' := by
  -- The iterator leaves the storage alone, and the rest deletes auth requests.
  have hDelete (requests : List AuthRequest) : Complies noWalk (deleteOld now requests) := by
    induction requests with
    | nil => exact .pure trivial
    | cons ar requests ih =>
      unfold deleteOld
      split
      · exact (complies_store id).bind fun _ _ => ih
      · exact ih
  have hRun : ∃ requests, ((cleanAuthRequests now keys).run (World.step S) s.world).2 =
      ((deleteOld now requests).run (World.step S) s.world).2 := by
    have hSame : (World.step S (.storage (.iterator keys)) s.world).2 = s.world := by
      rw [World.step, hWalk]
    unfold cleanAuthRequests
    simp only [Program.bind_eq, store, Program.request_bind, Program.run_call, hSame]
    cases (World.step S (.storage (.iterator keys)) s.world).1 with
    | error e => exact ⟨[], rfl⟩
    | ok requests => exact ⟨requests, rfl⟩
  obtain ⟨requests, hRun⟩ := hRun
  obtain ⟨-, hNext⟩ := same_run hSimulates (hDelete requests) hTracks.world
  have hDeletes := run_deleteOld (b := b) now requests w
  refine ⟨_, by rw [Turn.perform, hRun]; exact hNext, hDeletes.sound hTracks.sound, hTracks.auths,
    fun e => ?_, hTracks.reads⟩
  rw [hDeletes.2.1]
  exact hTracks.stored e

include hWalk

theorem tracks_turn (hTracks : Tracks srv b related s w) {turn : Turn}
    (hAllowed : turn.allowed s) : ∃ w', Tracks srv b related (turn.perform srv S s) w' := by
  cases turn with
  | authenticate env r => exact tracks_authenticate hSimulates hTracks env r
  | handle h env r auth => exact tracks_handle hSimulates hTracks h env r hAllowed
  | clean now keys => exact tracks_clean hSimulates hWalk hTracks now keys

theorem tracks_reaches {start : Session σ} (hReaches : Session.Reaches srv S start s)
    (hTracks : Tracks srv b related start w) : ∃ w', Tracks srv b related s w' := by
  induction hReaches with
  | refl => exact ⟨w, hTracks⟩
  | turn hReaches turn hAllowed ih =>
    obtain ⟨w', hTracks'⟩ := ih
    exact tracks_turn hSimulates hWalk hTracks' hAllowed

omit hWalk in
theorem storedContent_tracks (hTracks : Tracks srv b related s w) (e : GoString) :
    storedContent S e s.world.storage = latest e s.log := by
  obtain ⟨hSame, -⟩ := hSimulates (.getDataStore { email := e }) _ _ hTracks.world.storage id
  rw [storedContent, hSame, ← hTracks.stored, Tables.step, lookup]
  cases w.storage.dataStores e <;> rfl

theorem isRegister_of_tracks (hTracks : Tracks srv b related s w) : IsRegister srv S s := by
  refine ⟨hTracks.reads, storedContent_tracks hSimulates hTracks, ?_, ?_⟩
  · intro h env r auth hAllowed error w' hRun e
    obtain ⟨v, hNext⟩ := tracks_handle hSimulates hTracks h env r hAllowed
    have hAfter := storedContent_tracks hSimulates hNext e
    rw [Turn.perform, hRun] at hAfter
    rw [storedContent_tracks hSimulates hTracks]
    refine hAfter.trans ?_
    show (Record.leaves e ⟨h, auth, r.body, .error error⟩).getD (latest e s.log) = latest e s.log
    cases auth <;> rfl
  · intro turn hAllowed e hOther
    obtain ⟨v, hNext⟩ := tracks_turn hSimulates hWalk hTracks hAllowed
    rw [storedContent_tracks hSimulates hNext, storedContent_tracks hSimulates hTracks]
    cases turn with
    | authenticate env r =>
      rw [Turn.perform]
      split <;> rfl
    | clean now keys => rfl
    | handle h env r auth =>
      show (Record.leaves e ⟨h, auth, r.body, _⟩).getD (latest e s.log) = latest e s.log
      rw [Record.leaves_of_ne, Option.getD_none]
      intro a hSome hSame
      obtain rfl : auth = some a := hSome
      exact hOther (congrArg some hSame)

end

/-! ## The two storages -/

theorem tracks_opened {σ : Type} {related : σ → Tables → Prop} {storage : σ}
    (hRelated : related storage .empty) :
    Tracks srv b related (Session.opened storage) { storage := .empty } where
  world := ⟨hRelated, rfl, rfl⟩
  sound := .empty
  auths a ha := by cases ha
  stored e := rfl
  reads record earlier hSuffix := by
    have hLength := hSuffix.length_le
    cases hLength

/-- In every session, on either storage, the store of each account is a register. -/
theorem store_register (srv : Server) (J : Json) :
    (∀ s, Session.Reaches srv (LevelDBStorage.call J) (.opened (LevelDBStorage.openFiles {})) s →
      IsRegister srv (LevelDBStorage.call J) s) ∧
    (∀ s, Session.Reaches srv (MemoryStorage.call J) (.opened (MemoryStorage.openStore {})) s →
      IsRegister srv (MemoryStorage.call J) s) := by
  constructor
  · intro s hReaches
    have hSimulates : Simulates (LevelDBStorage.call J) (Tables.step ⟨J, true⟩)
        (fun c _ => ¬(Call.storage c).walks) LevelDBStorage.Holds :=
      fun c L T hHolds _ => LevelDBStorage.simulates J c L T hHolds trivial
    have hStart : LevelDBStorage.Holds (LevelDBStorage.openFiles {}) .empty := ⟨rfl, rfl⟩
    obtain ⟨w, hTracks⟩ :=
      tracks_reaches hSimulates (fun _ _ => rfl) hReaches (tracks_opened hStart)
    exact isRegister_of_tracks hSimulates (fun _ _ => rfl) hTracks
  · intro s hReaches
    have hStart : MemoryStorage.Holds (MemoryStorage.openStore {}) .empty := ⟨_, rfl, rfl⟩
    obtain ⟨w, hTracks⟩ := tracks_reaches (MemoryStorage.simulates J) (fun _ _ => rfl) hReaches
      (tracks_opened hStart)
    exact isRegister_of_tracks (MemoryStorage.simulates J) (fun _ _ => rfl) hTracks

/-! ## A client that writes and reads -/

def asksTurn : Turn :=
  .handle .requestAuthToken (.after 0 (.constant 0))
    (clientRequest (lit "POST") [] [] (lit "type=api&email=e@x.io")) none

def followsTurn : Turn :=
  .handle .activateAuthToken (.after 1 (.constant 1))
    (clientRequest (lit "GET") [] (lit "t=" ++ Random.tokenString (Random.constant 0).token) []) none

def returnsTurn : Turn :=
  .authenticate (.after 2 (.constant 2))
    (clientRequest (lit "GET")
      (lit "AuthToken e@x.io:" ++ Random.tokenString (Random.constant 0).secret) [] [])

def writesTurn (a : Auth) : Turn :=
  .handle .writeStore (.after 3 (.constant 3)) (clientRequest (lit "PUT") [] [] (lit "data")) (some a)

def readsTurn (a : Auth) : Turn :=
  .handle .readStore (.after 4 (.constant 4)) (clientRequest (lit "GET") [] [] []) (some a)

section

variable {σ : Type} (S : Interp StorageCall.Resp σ) (storage : σ)

/-- A client has asked for a token, followed the link and come back with the token. -/
def signedUp : Session σ :=
  [asksTurn, followsTurn, returnsTurn].foldl (Turn.perform standard S) (.opened storage)

/-- Then it has written its store and read it. -/
def writtenBy (a : Auth) : Session σ :=
  [writesTurn a, readsTurn a].foldl (Turn.perform standard S) (signedUp S storage)

theorem reaches_writtenBy {a : Auth} (ha : a ∈ (signedUp S storage).auths) :
    Session.Reaches standard S (.opened storage) (writtenBy S storage a) := by
  have hSignedUp : Session.Reaches standard S (.opened storage) (signedUp S storage) :=
    .turn (.turn (.turn .refl asksTurn trivial) followsTurn trivial) returnsTurn trivial
  exact .turn (.turn hSignedUp (writesTurn a) ha) (readsTurn a) ha

end

theorem store_register_written :
    (∃ a, IsRegister standard (LevelDBStorage.call .identity)
      (writtenBy (LevelDBStorage.call .identity) (LevelDBStorage.openFiles {}) a)) ∧
    (∃ a, IsRegister standard (MemoryStorage.call .identity)
      (writtenBy (MemoryStorage.call .identity) (MemoryStorage.openStore {}) a)) := by
  have hLevelDB : (signedUp (LevelDBStorage.call .identity)
      (LevelDBStorage.openFiles {})).auths.head?.isSome = true := by decide +kernel
  have hMemory : (signedUp (MemoryStorage.call .identity)
      (MemoryStorage.openStore {})).auths.head?.isSome = true := by decide +kernel
  obtain ⟨a, ha⟩ := Option.isSome_iff_exists.mp hLevelDB
  obtain ⟨a', ha'⟩ := Option.isSome_iff_exists.mp hMemory
  exact ⟨⟨a, (store_register standard .identity).1 _
      (reaches_writtenBy _ _ (List.mem_of_mem_head? ha))⟩,
    ⟨a', (store_register standard .identity).2 _
      (reaches_writtenBy _ _ (List.mem_of_mem_head? ha'))⟩⟩

end Server

end PadlockCloud
