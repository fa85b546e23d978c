import PadlockCloud.Model.Standard
import PadlockCloud.Request.Locking

/-!
# The mutexes of the accounts

`LockAccount` around every endpoint, with its accesses to the map of the mutexes. Whatever
the interleaving, the requests of an account come one after the other from their first
storage call to their last one, no request waits for ever, and each of them is answered.

All of this holds as long as no request begins `GetAccountMutex` while another one is in the
middle of it, which nothing in the source prevents (`raced`).
-/

namespace PadlockCloud

open Process

/-- A storage call, or the start of the goroutine that sends a mail. -/
def Access.works : Access → Bool
  | .storage _ | .send _ => true
  | _ => false

/-- What the access does with the mutexes of the accounts. -/
def Access.mutexOp : Access → MutexOp GoString
  | .lock email _ => .lock email
  | .unlock email _ => .unlock email
  | _ => .other

namespace Server

variable {srv : Server} {b : Backend} {starts : Action → Prop}
  {allows : StorageCall → Tables → Bool} {T : Tables} {P Q : ServerPool} {F G : AccessPool}
  {t : Thread Action Call.Resp HttpError (Option Reply)} {email : GoString}

/-! ## Every reachable pool -/

/-- What holds of the requests under way. -/
structure Underway (srv : Server) (b : Backend) (P : ServerPool) : Prop where
  exclusive : (World.mutexes (Tables.step b)).Exclusive Call.known Action.mutex P
  bounds : P.WithinBounds Call.known Action.bound
  answers : ∀ t ∈ P.threads, t.rest.Answers fun reply =>
    (∃ endpoint env r, t.label = .serve endpoint env r) → reply.isSome

theorem underway_start (action : Action) (hUnderway : Underway srv b P) :
    Underway srv b (P.start (Action.program srv) action) where
  exclusive := hUnderway.exclusive.start (Action.keeps_program _ action)
  bounds := hUnderway.bounds.start (Action.bounded_program action)
  answers t ht := by
    rcases List.mem_append.mp ht with hOld | hNew
    · exact hUnderway.answers t hOld
    · obtain rfl := List.mem_singleton.mp hNew
      exact Action.answers_program action

theorem underway_advance {i : Nat} {c : Call} {k : c.Resp → Serve (Option Reply)}
    (hUnderway : Underway srv b P) (hAt : P.threads[i]? = some t) (hRest : t.rest = .call c k)
    (hEnabled : c.enabled P.state = true) :
    Underway srv b (P.advance (exec b) i t c k) where
  exclusive := hUnderway.exclusive.advance (Call.known_exec b) hAt hRest (World.free_iff.mpr hEnabled)
  bounds := hUnderway.bounds.advance (Call.known_exec b) hAt hRest
  answers u hu := by
    rcases List.mem_or_eq_of_mem_set hu with hOld | rfl
    · exact hUnderway.answers u hOld
    · have hAnswers := hUnderway.answers t (List.mem_of_getElem? hAt)
      rw [hRest] at hAnswers
      exact hAnswers _

theorem underway_init {start : World Tables} (hFree : ∀ email, start.held email = false) :
    Underway srv b { state := start } := ⟨.empty hFree, nofun, nofun⟩

theorem underway_steps {starts : ServerPool → Action → Prop}
    {enabled : ServerPool → Nat → Call → Prop} (hUnderway : Underway srv b P)
    (hSteps : Pool.Steps (exec b) (Action.program srv) starts enabled P Q)
    (hEnabled : ∀ P i c, enabled P i c → c.enabled P.state = true) : Underway srv b Q :=
  Pool.invariant (I := Underway srv b) hSteps hUnderway
    (fun _ action hUnderway _ => underway_start action hUnderway)
    fun P i _ c _ hUnderway hAt hRest hMay =>
      underway_advance hUnderway hAt hRest (hEnabled P i c hMay)

/-- No request makes more accesses than its calls need. -/
abbrev WithinAccesses (F : AccessPool) : Prop :=
  F.WithinBounds Access.known fun action => 4 * action.bound

/-- What holds of the accesses of the requests under way. -/
structure Locking (srv : Server) (b : Backend) (F : AccessPool) : Prop where
  oneMutex : OneMutex F
  bounds : WithinAccesses F
  above : ∃ P, Underway srv b P ∧ Pool.Refines (mutexMap b) P F

theorem bounded_program (action : Action) :
    (srv.accesses action).Bounded Access.known (fun _ => True) (4 * action.bound) :=
  Program.Bounded.implement bounded_accesses (Action.bounded_program action)

theorem locking_steps (hLocking : Locking srv b F)
    (hSteps : srv.InterleavesUnraced b starts allows F G) : Locking srv b G := by
  obtain ⟨hOneMutex, hBounds, P, hUnderway, hRefines⟩ := hLocking
  obtain ⟨Q, hAbove, hRefines', hOneMutex'⟩ := refines_accesses hRefines hOneMutex hSteps
  refine ⟨hOneMutex', ?_, Q, underway_steps hUnderway hAbove fun _ _ _ hMay => hMay.1, hRefines'⟩
  apply Pool.invariant (I := WithinAccesses) hSteps hBounds
  · exact fun _ action hBounds _ => hBounds.start (bounded_program action)
  · exact fun _ _ _ _ _ hBounds hAt hRest _ => hBounds.advance (known_step b) hAt hRest

theorem locking_init (T : Tables) : Locking srv b { state := { storage := T } } where
  oneMutex := oneMutex_init T
  bounds t ht := by cases ht
  above := ⟨_, underway_init fun _ => rfl, refines_init T⟩

/-! ## One request at a time -/

/-- The request is between its `Lock` and its `Unlock` for the email. -/
def Inside (log : List (Event Access.Resp)) (email : GoString) : Prop :=
  (∃ e ∈ log, e.1.mutexOp = .lock email) ∧ ∀ e ∈ log, e.1.mutexOp ≠ .unlock email

instance (log : List (Event Access.Resp)) (email : GoString) : Decidable (Inside log email) :=
  inferInstanceAs (Decidable (_ ∧ _))

theorem op_of_shows {e : Event Access.Resp} {e' : Event Call.Resp}
    (hShows : Access.shows e = some e') : e'.1.mutexOp = e.1.mutexOp := by
  obtain ⟨d, r⟩ := e
  cases d <;> cases hShows <;> rfl

theorem shows_of_op {e : Event Access.Resp} (hOp : e.1.mutexOp ≠ .other) :
    ∃ e', Access.shows e = some e' := by
  obtain ⟨d, r⟩ := e
  cases d with
  | lock email mutex => exact ⟨_, rfl⟩
  | unlock email mutex => exact ⟨_, rfl⟩
  | _ => exact (hOp rfl).elim

/-- What the accesses show of the mutexes. -/
theorem mem_shown {log : List (Event Access.Resp)} (op : MutexOp GoString) (hOp : op ≠ .other) :
    (∃ e' ∈ log.filterMap Access.shows, e'.1.mutexOp = op) ↔ ∃ e ∈ log, e.1.mutexOp = op := by
  constructor
  · rintro ⟨e', hShown, hSame⟩
    obtain ⟨e, he, hShows⟩ := List.mem_filterMap.mp hShown
    exact ⟨e, he, (op_of_shows hShows).symm.trans hSame⟩
  · rintro ⟨e, he, hSame⟩
    obtain ⟨e', hShows⟩ := shows_of_op (hSame ▸ hOp)
    exact ⟨e', List.mem_filterMap.mpr ⟨e, he, hShows⟩, (op_of_shows hShows).trans hSame⟩

theorem holding_iff {σ : Type} {S : Interp StorageCall.Resp σ}
    {log : List (Event Access.Resp)} :
    (World.mutexes S).Holding email (log.filterMap Access.shows) ↔ Inside log email := by
  refine and_congr (mem_shown (.lock email) nofun) ?_
  have hGiven : _ ↔ ∃ e ∈ log, e.1.mutexOp = _ := mem_shown (.unlock email) nofun
  constructor
  · intro hKept e he hOp
    obtain ⟨e', he', hOp'⟩ := hGiven.mpr ⟨e, he, hOp⟩
    exact hKept e' he' hOp'
  · intro hKept e' he' hOp
    obtain ⟨e, he, hOp'⟩ := hGiven.mp ⟨e', he', hOp⟩
    exact hKept e he hOp'

/-- The requests of an account exclude each other. -/
structure Exclusion (F : AccessPool) : Prop where
  /-- Two requests are not inside for the same email. -/
  one : ∀ {i j : Nat} {t u email}, F.threads[i]? = some t → F.threads[j]? = some u →
    Inside t.log email → Inside u.log email → i = j
  /-- All requests take and give back the mutex that the map has for their email. -/
  same : ∀ t ∈ F.threads, ∀ e ∈ t.log, ∀ email mutex, e.1.method = some (email, mutex) →
    F.state.accountMutexes email = some mutex
  /-- The mutex of an email is locked while a request is inside. -/
  held : ∀ email, (F.state.accountMutexes email).any F.state.locked = true ↔
    ∃ t ∈ F.threads, Inside t.log email
  /-- A request is inside for the email of its own credential only. -/
  own : ∀ t ∈ F.threads, ∀ email, Inside t.log email → t.label.mutex = some email
  /-- A request with a credential makes every storage call inside, and starts the sending of
  every mail there. -/
  within : ∀ t ∈ F.threads, ∀ email, t.label.mutex = some email →
    ∀ newer older e, t.log = newer ++ e :: older → e.1.works = true → Inside older email

section Below

variable {u : Thread Action Access.Resp HttpError (Option Reply)}

/-- Who is inside holds the mutex. -/
theorem holds_of_inside {i : Nat} (hRefines : Pool.Refines (mutexMap b) P F)
    (hAt : F.threads[i]? = some u) (hInside : Inside u.log email) :
    (World.mutexes (Tables.step b)).Holds P i email := by
  obtain ⟨t, hAt', hBeside⟩ := hRefines.above hAt
  refine ⟨t, hAt', ?_⟩
  rw [hBeside.log]
  exact holding_iff.mpr hInside

/-- How far a request is with its mutex, by what its accesses show. -/
theorem stage_of_mem (hUnderway : Underway srv b P) (hRefines : Pool.Refines (mutexMap b) P F)
    (hu : u ∈ F.threads) : ∃ p : Serve (Option Reply), (World.mutexes (Tables.step b)).Stage
      Call.known u.label.mutex (u.log.filterMap Access.shows) p := by
  obtain ⟨i, hAt⟩ := List.mem_iff_getElem?.mp hu
  obtain ⟨t, hAt', hBeside⟩ := hRefines.above hAt
  have hStage := hUnderway.exclusive.stage t (List.mem_of_getElem? hAt')
  rw [hBeside.log, ← hBeside.label] at hStage
  exact ⟨t.rest, hStage⟩

end Below

/-- What works shows a call that is not one on a mutex. -/
theorem shows_of_works {e : Event Access.Resp} (hWorks : e.1.works = true) :
    ∃ e', Access.shows e = some e' ∧ e'.1.mutexOp = .other := by
  obtain ⟨d, r⟩ := e
  cases d with
  | storage c => exact ⟨_, rfl, rfl⟩
  | send mail => exact ⟨_, rfl, rfl⟩
  | _ => cases hWorks

theorem exclusion_of_locking (hLocking : Locking srv b F) : Exclusion F := by
  obtain ⟨hOneMutex, -, P, hUnderway, hRefines⟩ := hLocking
  have hExclusive := hUnderway.exclusive
  refine ⟨fun hAt hAt' hInside hInside' => ?_, hOneMutex.same, fun email => ?_,
    fun t ht email hInside => ?_, fun t ht email hMutex newer older e hLog hWorks => ?_⟩
  · apply hExclusive.one
    · exact holds_of_inside hRefines hAt hInside
    · exact holds_of_inside hRefines hAt' hInside'
  · rw [← hRefines.state.held email]
    refine (hExclusive.held email).trans ?_
    constructor
    · rintro ⟨i, t, hAt, hHolding⟩
      obtain ⟨u, hAt', hBeside⟩ := hRefines.below hAt
      rw [hBeside.log] at hHolding
      exact ⟨u, List.mem_of_getElem? hAt', holding_iff.mp hHolding⟩
    · rintro ⟨u, hu, hInside⟩
      obtain ⟨i, hAt⟩ := List.mem_iff_getElem?.mp hu
      exact ⟨i, holds_of_inside hRefines hAt hInside⟩
  · obtain ⟨p, hStage⟩ := stage_of_mem hUnderway hRefines ht
    exact hStage.eq_of_holding (holding_iff.mpr hInside)
  · obtain ⟨p, hStage⟩ := stage_of_mem hUnderway hRefines ht
    rw [hMutex] at hStage
    obtain ⟨e', hShows, hOther⟩ := shows_of_works hWorks
    have hSplit : t.log.filterMap Access.shows =
        newer.filterMap Access.shows ++ e' :: older.filterMap Access.shows := by
      rw [hLog, List.filterMap_append, List.filterMap_cons_some hShows]
    exact holding_iff.mp (hStage.holding_at hSplit hOther)

/-- The requests of an account are served one at a time, if no two of them are in the middle of
`GetAccountMutex`. -/
theorem accounts_exclude
    (hSteps : srv.InterleavesUnraced b starts allows { state := { storage := T } } F) :
    Exclusion F := exclusion_of_locking (locking_steps (locking_init T) hSteps)

/-- A device that is not paired reads the data store. -/
def strangerReads : Action :=
  .serve (servedAt (lit "/store/")) (.after 1 (.constant 0))
    (clientRequest (lit "GET") (lit "AuthToken e@x.io:guess") [] [])

/-- The second request waits for the mutex while the first one is inside. -/
def readTwice : List (Pool.Move Action) :=
  [.start strangerReads, .start strangerReads, .call 0, .call 0, .call 0, .call 0, .call 1, .call 1]

def playUnraced (moves : List (Pool.Move Action)) : Option AccessPool :=
  Pool.play (Shared.step (Tables.step .levelDB)) standard.accesses (fun _ _ => true)
    (fun F d => d.enabled F.state && d.unraced F) moves { state := { storage := .empty } }

theorem unraced_of_play {moves : List (Pool.Move Action)} (hPlay : playUnraced moves = some F) :
    standard.InterleavesUnraced .levelDB (fun _ => True) (fun _ _ => true)
      { state := { storage := .empty } } F := by
  refine Pool.steps_of_play (fun _ _ _ => trivial) (fun F _ d hMay => ?_) hPlay
  obtain ⟨hEnabled, hUnraced⟩ := Bool.and_eq_true_iff.mp hMay
  exact ⟨hEnabled, hUnraced, by cases d <;> rfl⟩

theorem accounts_exclude_read_twice : ∃ F : AccessPool,
    F.threads.map (fun t => (t.log.length, decide (Inside t.log (lit "e@x.io")))) =
      [(4, true), (2, false)] ∧ Exclusion F := by
  have hPlays : (playUnraced readTwice).map (fun F =>
      F.threads.map fun t => (t.log.length, decide (Inside t.log (lit "e@x.io")))) =
        some [(4, true), (2, false)] := by
    decide +kernel
  obtain ⟨F, hPlay, hLogs⟩ := Option.map_eq_some_iff.mp hPlays
  exact ⟨F, hLogs, accounts_exclude (unraced_of_play hPlay)⟩

/-- Both requests find that there is no mutex, and each of them makes one. -/
def bothMake : List (Pool.Move Action) :=
  [.start strangerReads, .start strangerReads, .call 0, .call 1, .call 0, .call 0, .call 0,
    .call 1, .call 1, .call 1]

/-- Two requests are inside at once when both are in the middle of `GetAccountMutex`. -/
theorem raced : ∃ F : AccessPool,
    Pool.Steps (Shared.step (Tables.step .levelDB)) standard.accesses (fun _ _ => True)
      (fun F _ d => d.enabled F.state = true) { state := { storage := .empty } } F ∧
    ¬Exclusion F := by
  have hPlays : (Pool.play (Shared.step (Tables.step .levelDB)) standard.accesses
      (fun _ _ => true) (fun F d => d.enabled F.state) bothMake
      { state := { storage := .empty } }).map (fun F =>
        F.threads.map fun t => decide (Inside t.log (lit "e@x.io"))) = some [true, true] := by
    decide +kernel
  obtain ⟨F, hPlay, hBoth⟩ := Option.map_eq_some_iff.mp hPlays
  refine ⟨F, Pool.steps_of_play (fun _ _ _ => trivial) (fun _ _ _ hMay => hMay) hPlay, ?_⟩
  intro hExclusion
  have hInside (i : Nat) (hi : i < 2) : ∃ t, F.threads[i]? = some t ∧ Inside t.log (lit "e@x.io") := by
    have hAt : (F.threads.map fun t => decide (Inside t.log (lit "e@x.io")))[i]? = some true := by
      rw [hBoth]
      interval_cases i <;> rfl
    rw [List.getElem?_map] at hAt
    obtain ⟨t, hAt, hInside⟩ := Option.map_eq_some_iff.mp hAt
    exact ⟨t, hAt, of_decide_eq_true hInside⟩
  obtain ⟨t, hAt, hInside₀⟩ := hInside 0 (by omega)
  obtain ⟨u, hAt', hInside₁⟩ := hInside 1 (by omega)
  cases hExclusion.one hAt hAt' hInside₀ hInside₁

/-! ## Every request is answered -/

/-- Unless all requests have ended, one of them can go on. -/
theorem Locking.next (hLocking : Locking srv b F) : (∀ t ∈ F.threads, t.rest.Ended) ∨
    ∃ (i : Nat) (t : Thread Action Access.Resp HttpError (Option Reply)) (d : Access)
      (f : d.Resp → Accesses (Option Reply)), F.threads[i]? = some t ∧ t.rest = .call d f ∧
        d.enabled F.state = true ∧ d.unraced F = true := by
  obtain ⟨-, -, P, hUnderway, hRefines⟩ := hLocking
  by_cases hBusy : ∃ t ∈ F.threads, amid t.log = true
  · obtain ⟨u, hu, hAmid⟩ := hBusy
    obtain ⟨i, hAt⟩ := List.mem_iff_getElem?.mp hu
    obtain ⟨t, -, hBeside⟩ := hRefines.above hAt
    obtain ⟨d, f, hRest, hEnabled, hUnraced⟩ := next_of_amid hBeside.rest hAmid
    exact .inr ⟨i, u, d, f, hAt, hRest, hEnabled, hUnraced F⟩
  · have hDone (u : Thread Action Access.Resp HttpError (Option Reply)) (hu : u ∈ F.threads) :
        amid u.log = false := Bool.eq_false_iff.mpr fun hAmid => hBusy ⟨u, hu, hAmid⟩
    rcases hUnderway.exclusive.next with hEnded | ⟨i, t, c, k, hAt, hRest, hFree⟩
    · left
      intro u hu
      obtain ⟨i, hAt⟩ := List.mem_iff_getElem?.mp hu
      obtain ⟨t, hAt', hBeside⟩ := hRefines.above hAt
      exact hBeside.rest.ended_iff.mpr (hEnded t (List.mem_of_getElem? hAt'))
    · right
      obtain ⟨u, hAt', hBeside⟩ := hRefines.below hAt
      have hBeneath := hBeside.rest
      rw [hRest] at hBeneath
      obtain ⟨d, f, hRest', hEnabled⟩ := next_of_call hBeneath
        (hDone u (List.mem_of_getElem? hAt')) hRefines.state (World.free_iff.mp hFree)
      refine ⟨i, u, d, f, hAt', hRest', hEnabled, ?_⟩
      cases d with
      | isNil email => exact List.all_eq_true.mpr fun v hv => by rw [hDone v hv]; rfl
      | _ => rfl

/-- When all have ended, all mutexes are free. -/
theorem Locking.released (hLocking : Locking srv b F) (hEnded : ∀ t ∈ F.threads, t.rest.Ended)
    (mutex : Nat) : F.state.locked mutex = false := by
  obtain ⟨-, -, P, hUnderway, hRefines⟩ := hLocking
  rw [← Bool.not_eq_true]
  intro hLocked
  obtain ⟨email, hSome⟩ := hRefines.state.named hLocked
  have hHeld : P.state.held email = true := by
    rw [hRefines.state.held, hSome, Option.any_some, hLocked]
  have hFree : P.state.held email = false := by
    refine hUnderway.exclusive.released (fun t ht => ?_) email
    obtain ⟨i, hAt⟩ := List.mem_iff_getElem?.mp ht
    obtain ⟨u, hAt', hBeside⟩ := hRefines.below hAt
    exact hBeside.rest.ended_iff.mp (hEnded u (List.mem_of_getElem? hAt'))
  rw [hFree] at hHeld
  cases hHeld

/-- Who has ended has a result, which is a reply for a request. -/
theorem Locking.result (hLocking : Locking srv b F)
    {u : Thread Action Access.Resp HttpError (Option Reply)} (hu : u ∈ F.threads)
    (hEnded : u.rest.Ended) : ∃ reply, u.rest = .pure reply ∧
      ((∃ endpoint env r, u.label = .serve endpoint env r) → reply.isSome) := by
  obtain ⟨-, -, P, hUnderway, hRefines⟩ := hLocking
  obtain ⟨i, hAt⟩ := List.mem_iff_getElem?.mp hu
  obtain ⟨t, hAt', hBeside⟩ := hRefines.above hAt
  obtain ⟨reply, hRest, hSome⟩ := (hUnderway.answers t (List.mem_of_getElem? hAt')).result
    (hBeside.rest.ended_iff.mp hEnded)
  refine ⟨reply, ?_, hBeside.label ▸ hSome⟩
  have hBeneath := hBeside.rest
  rw [hRest] at hBeneath
  exact hBeneath.pure_left

theorem Locking.completes (hLocking : Locking srv b F) :
    ∃ G, srv.InterleavesUnraced b (fun _ => False) (fun _ _ => true) F G ∧ Locking srv b G ∧
      (∀ t ∈ G.threads, t.rest.Ended) ∧
      G.threads.map Thread.label = F.threads.map Thread.label := by
  refine Pool.completes (I := Locking srv b) srv.accesses hLocking hLocking.bounds (known_step b)
    ?_ ?_
  · intro F hLocking
    refine hLocking.next.imp_right ?_
    rintro ⟨i, t, d, f, hAt, hRest, hEnabled, hUnraced⟩
    exact ⟨i, t, d, f, hAt, hRest, hEnabled, hUnraced, by cases d <;> rfl⟩
  · intro F i t d f hLocking hAt hRest hMay
    have hStep : srv.InterleavesUnraced b (fun _ => False) (fun _ _ => true) F
        (F.advance (Shared.step (Tables.step b)) i t d f) :=
      .single (.call i t d f hAt hRest hMay)
    exact locking_steps hLocking hStep

/-- No interleaving gets stuck in which no two requests are in the middle of
`GetAccountMutex`: the accesses of each request are bounded, as long as one has not ended one of
them can go on, and all of them can be brought to a reply with all mutexes free. -/
theorem requests_answered
    (hSteps : srv.InterleavesUnraced b starts allows { state := { storage := T } } F) :
    (∀ t ∈ F.threads, t.log.length ≤ 4 * t.label.bound) ∧
      ((∀ t ∈ F.threads, t.rest.Ended) ∨
        ∃ (i : Nat) (t : Thread Action Access.Resp HttpError (Option Reply)) (d : Access)
          (f : d.Resp → Accesses (Option Reply)), F.threads[i]? = some t ∧ t.rest = .call d f ∧
            d.enabled F.state = true ∧ d.unraced F = true) ∧
      ∃ G, srv.InterleavesUnraced b (fun _ => False) (fun _ _ => true) F G ∧
        G.threads.map Thread.label = F.threads.map Thread.label ∧
        (∀ mutex, G.state.locked mutex = false) ∧
        ∀ t ∈ G.threads, ∃ reply, t.rest = .pure reply ∧
          ((∃ endpoint env r, t.label = .serve endpoint env r) → reply.isSome) := by
  have hLocking := locking_steps (locking_init T) hSteps
  refine ⟨fun t ht => ?_, hLocking.next, ?_⟩
  · obtain ⟨n, hLe, -⟩ := hLocking.bounds t ht
    exact le_trans (Nat.le_add_right _ n) hLe
  · obtain ⟨G, hRest, hEnd, hEnded, hLabels⟩ := hLocking.completes
    exact ⟨G, hRest, hLabels, hEnd.released hEnded, fun t ht => hEnd.result ht (hEnded t ht)⟩

theorem requests_answered_read_twice : ∃ F : AccessPool,
    F.threads.map (fun t => (t.log.length, decide (Inside t.log (lit "e@x.io")))) =
      [(4, true), (2, false)] ∧
    ∃ G, standard.InterleavesUnraced .levelDB (fun _ => False) (fun _ _ => true) F G ∧
      G.threads.length = 2 ∧ (∀ mutex, G.state.locked mutex = false) ∧
      ∀ t ∈ G.threads, t.rest.Ended := by
  have hPlays : (playUnraced readTwice).map (fun F =>
      F.threads.map fun t => (t.log.length, decide (Inside t.log (lit "e@x.io")))) =
        some [(4, true), (2, false)] := by
    decide +kernel
  obtain ⟨F, hPlay, hLogs⟩ := Option.map_eq_some_iff.mp hPlays
  obtain ⟨-, -, G, hRest, hSame, hFree, hReplies⟩ := requests_answered (unraced_of_play hPlay)
  refine ⟨F, hLogs, G, hRest, ?_, hFree, fun t ht => ?_⟩
  · have hLengths := congrArg List.length hSame
    have hTwo := congrArg List.length hLogs
    simp only [List.length_map] at hLengths hTwo
    exact hLengths.trans hTwo
  · obtain ⟨reply, hReply, -⟩ := hReplies t ht
    rw [hReply]
    exact .pure reply

end Server

end PadlockCloud
