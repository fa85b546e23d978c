import PadlockCloud.Model.Standard
import PadlockCloud.Properties.Mutexes
import PadlockCloud.Request.Region
import PadlockCloud.Request.Secrets

/-!
# The requests of an account in serial order

Under every interleaving of requests and cleanup jobs in which no two requests are in the
middle of `GetAccountMutex` the account and the data store of an email are what the requests
with a credential for it make of them, served one after the other in the order in which they
took the mutex. The exception are activations: these write the account of the auth request,
whatever credential they come with.
-/

namespace PadlockCloud

open Process

instance : DecidablePred Action.activates
  | .serve endpoint _ r =>
    inferInstanceAs (Decidable (endpoint.handler r.method = some .activateAuthToken))
  | .clean _ _ => inferInstanceAs (Decidable False)

/-- The action asks for a new token for an account that has to exist. -/
def Action.looksUp : Action → Bool
  | .serve endpoint _ r =>
    endpoint.handler r.method = some .requestAuthToken && r.method ≠ lit "POST"
  | .clean _ _ => false

/-- The action is not an activation with a credential for the email. -/
def Action.spares (email : GoString) (action : Action) : Prop :=
  action.mutex = some email → ¬action.activates

instance (email : GoString) : DecidablePred (Action.spares email) := fun action =>
  inferInstanceAs (Decidable (action.mutex = some email → ¬action.activates))

/-- No auth request for the email is found. -/
def StorageCall.findsOther (email : GoString) : StorageCall → Tables → Bool
  | .getAuthRequest key, T => (T.authRequests key).all fun ar => ar.authToken.email ≠ email
  | _, _ => true

namespace Server

variable {srv : Server} {b : Backend} {T : Tables} {start : World Tables} {P Q : ServerPool}
  {F G : AccessPool} {email : GoString}

/-- The interleavings without an activation of a token for the email. -/
abbrev InterleavesSparing (srv : Server) (b : Backend) (email : GoString) :
    AccessPool → AccessPool → Prop :=
  srv.InterleavesUnraced b (Action.spares email) (StorageCall.findsOther email)

/-- The requests with a credential for the email, by their slots, the latest one first, and
what they have come to. -/
structure SerialOrder (srv : Server) (b : Backend) (T : Tables) (email : GoString)
    (F : AccessPool) (order : List (Nat × Action)) : Prop where
  once : (order.map Prod.fst).Nodup
  /-- These are all that have taken the mutex. -/
  mem : ∀ {i action}, (i, action) ∈ order ↔ ∃ t, F.threads[i]? = some t ∧ t.label = action ∧
    action.mutex = some email ∧ ∃ e ∈ t.log, e.1.mutexOp = .lock email
  account : F.state.storage.accounts email =
    (Run.after (Action.perform srv b) { storage := T } (order.map Prod.snd)).storage.accounts email
  dataStore : F.state.storage.dataStores email =
    (Run.after (Action.perform srv b) { storage := T } (order.map Prod.snd)).storage.dataStores
      email
  /-- The replies are those of the serial run, except where another account matters. -/
  replies : ∀ {newer older : List (Nat × Action)} {i action},
    order = newer ++ (i, action) :: older → action.looksUp = false →
    ∃ t endpoint env r reply, F.threads[i]? = some t ∧ action = .serve endpoint env r ∧
      t.rest = .pure (some reply) ∧
      ((srv.serve endpoint env r).run (exec b)
        (Run.after (Action.perform srv b) { storage := T } (older.map Prod.snd))).1 = .ok reply

/-! ## Actions and their programs -/

theorem perform_eq (srv : Server) (b : Backend) :
    (fun action w => ((Action.program srv action).run (exec b) w).2) = Action.perform srv b := by
  funext action w
  cases action with
  | serve endpoint env r => exact Program.view_run_bind id (fun _ => .pure _) w
  | clean now keys => exact Program.view_run_bind id (fun _ => .pure _) w

theorem attends_program {action : Action} (hMutex : action.mutex = some email)
    (hActivates : ¬action.activates) :
    (World.region b email).Attends (action.looksUp = true) (action.program srv) := by
  cases action with
  | clean now keys => cases hMutex
  | serve endpoint env r =>
    obtain ⟨t, hToken, hEmail⟩ := Option.map_eq_some_iff.mp hMutex
    refine Region.Attends.bind_ended (attends_serve hToken hEmail ?_ ?_) fun _ => .pure _
    · exact hActivates
    · intro hRequests hMethod
      rw [Action.looksUp, decide_eq_true hRequests, decide_eq_true hMethod]
      rfl

theorem heard_exec {w : World Tables} {c : Call} (hSound : w.storage.Sound b.json)
    (hOther : c.allowed (StorageCall.findsOther email) w.storage = true) :
    heard b email c (exec b c w).1 := by
  refine ⟨Call.sound_response hSound c, ?_⟩
  split
  · rename_i key
    intro ar hFound
    rw [Call.allowed, StorageCall.findsOther, lookup_ok hFound, Option.all_some] at hOther
    exact of_decide_eq_true hOther
  · trivial

/-! ## The order -/

/-- The invariant of the library for the records of an email. -/
abbrev ServedFor (srv : Server) (b : Backend) (start : World Tables) (email : GoString) :=
  (World.region b email).Served (World.mutexes (Tables.step b)) email (Action.program srv)
    Action.mutex (fun action => action.looksUp = true) (heard b email) start

theorem servedFor_steps {order : List (Nat × Thread Action Call.Resp HttpError (Option Reply))}
    (hServed : ServedFor srv b start email P order) (hUnderway : Underway srv b P)
    (hSteps : srv.InterleavesAllowed b (Action.spares email) (StorageCall.findsOther email) P Q) :
    ∃ order', ServedFor srv b start email Q order' ∧ order <:+ order' :=
  hServed.steps hUnderway.exclusive (Call.known_exec b) (fun action => action.keeps_program _)
    (fun _ _ hSpares hMutex => attends_program hMutex (hSpares hMutex)) (fun _ => leaves_program)
    (fun _ _ _ hSound hMay => ⟨World.free_iff.mpr hMay.1, heard_exec hSound hMay.2⟩) hSteps

/-- The requests of the order by their slots. -/
def slots (order : List (Nat × Thread Action Call.Resp HttpError (Option Reply))) :
    List (Nat × Action) := order.map fun e => (e.1, e.2.label)

theorem serial_slots (older : List (Nat × Thread Action Call.Resp HttpError (Option Reply))) :
    Region.serial (exec b) (Action.program srv) start older =
      Run.after (Action.perform srv b) start ((slots older).map Prod.snd) := by
  rw [Region.serial, perform_eq, slots, List.map_map]
  rfl

/-- A request of the order has the reply of the serial run. -/
theorem replies_of_served
    {newer older : List (Nat × Thread Action Call.Resp HttpError (Option Reply))} {i : Nat}
    {t : Thread Action Call.Resp HttpError (Option Reply)}
    (hServed : ServedFor srv b start email P (newer ++ (i, t) :: older))
    (hLooks : t.label.looksUp = false) :
    ∃ endpoint env r reply, t.label = .serve endpoint env r ∧ t.rest = .pure (some reply) ∧
      ((srv.serve endpoint env r).run (exec b)
        (Run.after (Action.perform srv b) start ((slots older).map Prod.snd))).1 = .ok reply := by
  have hResult := hServed.results rfl (by rw [hLooks]; decide)
  rw [serial_slots] at hResult
  obtain ⟨-, hMutex, -⟩ := hServed.mem.mp (List.mem_append_right newer (List.mem_cons_self ..))
  cases hLabel : t.label with
  | clean now keys =>
    rw [hLabel] at hMutex
    cases hMutex
  | serve endpoint env r =>
    rw [hLabel] at hResult
    have hAnswers : (srv.serve endpoint env r).Answers fun _ => True := answers_serve
    obtain ⟨reply, hRun, -⟩ := hAnswers.run (h := exec b)
      (Run.after (Action.perform srv b) start ((slots older).map Prod.snd))
    rw [Action.program, Program.run_bind_ok hRun] at hResult
    refine ⟨endpoint, env, r, reply, rfl, ?_, congrArg Prod.fst hRun⟩
    cases hRest : t.rest with
    | pure a =>
      rw [hRest] at hResult
      exact congrArg Program.pure (Except.ok.inj (Option.some.inj hResult))
    | fail e =>
      rw [hRest] at hResult
      cases Option.some.inj hResult
    | call c k =>
      rw [hRest] at hResult
      cases hResult

/-- While nobody has the mutex, the order has all who have taken it. -/
theorem mem_slots {order : List (Nat × Thread Action Call.Resp HttpError (Option Reply))}
    {i : Nat} {action : Action} (hServed : ServedFor srv b start email P order)
    (hUnderway : Underway srv b P) (hRefines : Pool.Refines (mutexMap b) P F)
    (hFree : P.state.held email = false) : (i, action) ∈ slots order ↔
      ∃ t, F.threads[i]? = some t ∧ t.label = action ∧ action.mutex = some email ∧
        ∃ e ∈ t.log, e.1.mutexOp = .lock email := by
  have hExclusive := hUnderway.exclusive
  constructor
  · intro hMem
    obtain ⟨⟨j, t⟩, hIn, hPair⟩ := List.mem_map.mp hMem
    obtain ⟨rfl, rfl⟩ := Prod.mk.inj hPair
    obtain ⟨hAt, hMutex, hLog, -⟩ := hServed.mem.mp hIn
    obtain ⟨u, hAt', hBeside⟩ := hRefines.below hAt
    have hStage := hExclusive.stage t (List.mem_of_getElem? hAt)
    rw [hMutex] at hStage
    have hTaken := hStage.locked_iff.mp hLog
    rw [hBeside.log] at hTaken
    exact ⟨u, hAt', hBeside.label, hMutex, (mem_shown (.lock email) nofun).mp hTaken⟩
  · rintro ⟨u, hAt, rfl, hMutex, hTaken⟩
    obtain ⟨t, hAt', hBeside⟩ := hRefines.above hAt
    have hTaken' : ∃ e ∈ t.log, e.1.mutexOp = .lock email := by
      rw [hBeside.log]
      exact (mem_shown (.lock email) nofun).mpr hTaken
    rw [hBeside.label] at hMutex ⊢
    refine List.mem_map.mpr ⟨(i, t), hServed.mem.mpr ⟨hAt', hMutex, ?_, ?_⟩, rfl⟩
    · have hStage := hExclusive.stage t (List.mem_of_getElem? hAt')
      rw [hMutex] at hStage
      exact hStage.locked_iff.mpr hTaken'
    · intro hHolding
      have hHeld := (hExclusive.held email).mpr ⟨i, t, hAt', hHolding⟩
      cases hFree.symm.trans hHeld

/-- While nobody has the mutex, the invariant gives the serial order. -/
theorem serialOrder_of_served
    {order : List (Nat × Thread Action Call.Resp HttpError (Option Reply))}
    (hServed : ServedFor srv b { storage := T } email P order) (hUnderway : Underway srv b P)
    (hRefines : Pool.Refines (mutexMap b) P F)
    (hNow : (F.state.accountMutexes email).any F.state.locked = false) :
    SerialOrder srv b T email F (slots order) := by
  have hFree : P.state.held email = false := by rw [hRefines.state.held, hNow]
  have hSame := (hServed.idle hFree).view
  rw [serial_slots] at hSame
  obtain ⟨hAccount, hData⟩ := Prod.mk.inj hSame
  refine ⟨?_, mem_slots hServed hUnderway hRefines hFree, ?_, ?_,
    fun {newer older i action} hOrder hLooks => ?_⟩
  · rw [slots, List.map_map]
    exact hServed.once
  · rw [← hRefines.state.storage]
    exact hAccount
  · rw [← hRefines.state.storage]
    exact hData
  · obtain ⟨newer', rest, rfl, rfl, hRest⟩ := List.map_eq_append_iff.mp hOrder
    obtain ⟨⟨j, t⟩, older', rfl, hPair, rfl⟩ := List.map_eq_cons_iff.mp hRest
    obtain ⟨rfl, rfl⟩ := Prod.mk.inj hPair
    obtain ⟨endpoint, env, r, reply, hLabel, hReply, hRun⟩ := replies_of_served hServed hLooks
    obtain ⟨hAt, -⟩ := hServed.mem.mp (List.mem_append_right newer' (List.mem_cons_self ..))
    obtain ⟨u, hAt', hBeside⟩ := hRefines.below hAt
    have hBeneath := hBeside.rest
    rw [hReply] at hBeneath
    exact ⟨u, endpoint, env, r, reply, hAt', hLabel, hBeneath.pure_left, hRun⟩

/-- A server with one account, which has one token. -/
def laptopWorld : World Tables where
  storage :=
    .ofAccount
      { email := lit "e@x.io"
        authTokens :=
          [some
            { email := lit "e@x.io", token := lit "secret", type := lit "api", id := lit "laptop"
              lastUsed := Time.unixEpoch }] }

theorem sound_laptopWorld : laptopWorld.storage.Sound Json.identity where
  toKept := .ofAccount (Account.marshal_of_lossless Json.identity_lossless _)
  tokens {k acc} hFound := by
    simp only [laptopWorld, Tables.ofAccount, Tables.putAccount, Function.update_apply] at hFound
    split at hFound
    · rename_i hKey
      obtain rfl := Option.some.inj hFound
      subst hKey
      intro o ho
      obtain rfl := List.mem_singleton.mp ho
      exact ⟨_, rfl, rfl, .inl rfl, by decide, rfl, rfl⟩
    · cases hFound
  issued := nofun

/-- The client writes its data store. -/
def laptopWrites (content : GoString) : Action :=
  .serve (servedAt (lit "/store/")) (.after 1 (.constant 0))
    (clientRequest (lit "PUT") (lit "AuthToken e@x.io:secret") [] content)

/-- The second request comes before the first one has got to its end. -/
def writesFirst : List (Pool.Move Action) :=
  [.start (laptopWrites (lit "old")), .call 0, .call 0, .call 0, .call 0,
    .start (laptopWrites (lit "new")), .call 1, .call 1, .call 0, .call 0, .call 0, .call 0,
    .call 0, .call 0]

def writesSecond : List (Pool.Move Action) :=
  [.call 1, .call 1, .call 1, .call 1, .call 1, .call 1, .call 1]

def playSparing (moves : List (Pool.Move Action)) (F : AccessPool) : Option AccessPool :=
  Pool.play (Shared.step (Tables.step .levelDB)) standard.accesses
    (fun _ action => decide (action.spares (lit "e@x.io")))
    (fun F d => d.enabled F.state && (d.unraced F &&
      d.allowed (StorageCall.findsOther (lit "e@x.io")) F.state.storage)) moves F

theorem sparing_of_play {moves : List (Pool.Move Action)} (hPlay : playSparing moves F = some G) :
    standard.InterleavesSparing .levelDB (lit "e@x.io") F G :=
  Pool.steps_of_play (fun _ _ hMay => of_decide_eq_true hMay)
    (fun _ _ _ hMay => by simpa only [Bool.and_eq_true] using hMay) hPlay

/-- The data store of the account, and whether its mutex is locked. -/
def laptopStore (F : AccessPool) : Option GoString × Bool :=
  (F.state.storage.dataStores (lit "e@x.io"),
    (F.state.accountMutexes (lit "e@x.io")).any F.state.locked)

end Server

end PadlockCloud
