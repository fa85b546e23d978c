import PadlockCloud.Model.Mutexes
import PadlockCloud.Request.Bounds

/-!
# Locks from the map of the mutexes

Requests that use the map of the mutexes access by access do what the calls `Lock` and
`Unlock` say, as long as none of them begins `GetAccountMutex` while another one is in the
middle of it (`refines_accesses`). The map then has one mutex for each account at most, and
a request that has looked one up has the one that is in the map.
-/

namespace PadlockCloud

open Process

/-- The state of the mutexes, and what can be seen of it. -/
structure Shared.Under (v : Shared Tables) (w : World Tables) : Prop where
  storage : w.storage = v.storage
  outbox : w.outbox = v.outbox
  held : ∀ email, w.held email = (v.accountMutexes email).any v.locked
  apart : ∀ {email email' mutex}, v.accountMutexes email = some mutex →
    v.accountMutexes email' = some mutex → email = email'
  made : ∀ {email mutex}, v.accountMutexes email = some mutex → mutex < v.made
  named : ∀ {mutex}, v.locked mutex = true → ∃ email, v.accountMutexes email = some mutex

/-- How far a request is in `LockAccount` or `UnlockAccount`. -/
inductive OnMutex (mutexes : GoString → Option Nat) (email : GoString)
    (method : Nat → Accesses Unit) : List (Event Access.Resp) → Accesses Unit → Prop where
  | missing {log : List (Event Access.Resp)} (hAmid : amid log = true)
      (hNone : mutexes email = none) :
      OnMutex mutexes email method log
        (.call (.make email) fun _ => .call (.look email) (deref method))
  | found {log : List (Event Access.Resp)} {mutex : Nat} (hAmid : amid log = true)
      (hSome : mutexes email = some mutex) :
      OnMutex mutexes email method log (.call (.look email) (deref method))
  | has {log : List (Event Access.Resp)} {mutex : Nat} (hDone : amid log = false)
      (hSome : mutexes email = some mutex) : OnMutex mutexes email method log (method mutex)

def Call.within (v : Shared Tables) (log : List (Event Access.Resp)) :
    (c : Call) → Accesses c.Resp → Prop
  | .lock email, q =>
    OnMutex v.accountMutexes email (fun mutex => Program.request (Access.lock email mutex)) log q
  | .unlock email, q =>
    OnMutex v.accountMutexes email (fun mutex => Program.request (Access.unlock email mutex)) log q
  | _, _ => False

/-- The account and the mutex of `Lock` and `Unlock`. -/
def Access.method : Access → Option (GoString × Nat)
  | .lock email mutex | .unlock email mutex => some (email, mutex)
  | _ => none

/-- What can be seen of the accesses. -/
def Access.shows : Event Access.Resp → Option (Event Call.Resp)
  | ⟨.storage c, r⟩ => some ⟨.storage c, r⟩
  | ⟨.send mail, _⟩ => some ⟨.send mail, ()⟩
  | ⟨.lock email _, _⟩ => some ⟨.lock email, ()⟩
  | ⟨.unlock email _, _⟩ => some ⟨.unlock email, ()⟩
  | _ => none

/-- The calls of the requests, by the accesses that they consist of. -/
def mutexMap (b : Backend) : Implementation HttpError (exec b) (Shared.step (Tables.step b)) where
  impl := Call.accesses
  shows := Access.shows
  sim w v := v.Under w
  between log := amid log = false
  within := Call.within
  first c := by
    cases c with
    | storage c => exact ⟨.storage c, .pure, rfl⟩
    | send mail => exact ⟨.send mail, .pure, rfl⟩
    | lock email => exact ⟨_, _, onMutex_eq ..⟩
    | unlock email => exact ⟨_, _, onMutex_eq ..⟩
  next {s log c q} hWithin := by
    cases c with
    | storage c => exact hWithin.elim
    | send mail => exact hWithin.elim
    | lock email => cases hWithin <;> exact ⟨_, _, rfl⟩
    | unlock email => cases hWithin <;> exact ⟨_, _, rfl⟩

variable {b : Backend} {v v' : Shared Tables} {w : World Tables} {email : GoString} {mutex : Nat}
  {log : List (Event Access.Resp)} {c : Call} {d : Access} {k : d.Resp → Accesses c.Resp}

/-! ## The state -/

namespace Shared.Under

theorem made_free (hUnder : v.Under w) : v.locked v.made = false := by
  rw [← Bool.not_eq_true]
  intro hLocked
  obtain ⟨email, hSome⟩ := hUnder.named hLocked
  exact Nat.lt_irrefl _ (hUnder.made hSome)

/-- What a method of the mutex of one account does to another one. -/
theorem any_update (hUnder : v.Under w) (hSome : v.accountMutexes email = some mutex)
    (email' : GoString) (locked : Bool) :
    (v.accountMutexes email').any (Function.update v.locked mutex locked) =
      Function.update w.held email locked email' := by
  by_cases hSame : email' = email
  · subst hSame
    rw [hSome, Option.any_some, Function.update_self, Function.update_self]
  · rw [Function.update_of_ne hSame, hUnder.held email']
    cases hOther : v.accountMutexes email' with
    | none => rfl
    | some mutex' =>
      rw [Option.any_some, Option.any_some, Function.update_of_ne]
      rintro rfl
      exact hSame (hUnder.apart hOther hSome)

theorem lock (hUnder : v.Under w) (hSome : v.accountMutexes email = some mutex) :
    Shared.Under { v with locked := Function.update v.locked mutex true }
      { w with held := Function.update w.held email true } where
  storage := hUnder.storage
  outbox := hUnder.outbox
  held email' := (hUnder.any_update hSome email' true).symm
  apart := hUnder.apart
  made := hUnder.made
  named {mutex'} hLocked := by
    dsimp only at hLocked
    rw [Function.update_apply] at hLocked
    split at hLocked
    · rename_i hSame
      exact ⟨email, hSame ▸ hSome⟩
    · exact hUnder.named hLocked

theorem unlock (hUnder : v.Under w) (hSome : v.accountMutexes email = some mutex) :
    Shared.Under { v with locked := Function.update v.locked mutex false }
      { w with held := Function.update w.held email false } where
  storage := hUnder.storage
  outbox := hUnder.outbox
  held email' := (hUnder.any_update hSome email' false).symm
  apart := hUnder.apart
  made := hUnder.made
  named {mutex'} hLocked := by
    dsimp only at hLocked
    rw [Function.update_apply] at hLocked
    split at hLocked
    · cases hLocked
    · exact hUnder.named hLocked

/-- A mutex that is made is free, and no account has it. -/
theorem make (hUnder : v.Under w) (hNone : v.accountMutexes email = none) :
    Shared.Under
      { v with
        accountMutexes := Function.update v.accountMutexes email (some v.made)
        made := v.made + 1 } w where
  storage := hUnder.storage
  outbox := hUnder.outbox
  held email' := by
    dsimp only
    rw [hUnder.held email', Function.update_apply]
    split
    · rename_i hSame
      rw [hSame, hNone, Option.any_some, hUnder.made_free]
      rfl
    · rfl
  apart {email₁ email₂ mutex} h₁ h₂ := by
    dsimp only at h₁ h₂
    rw [Function.update_apply] at h₁ h₂
    split at h₁ <;> split at h₂
    · rename_i hFirst hSecond
      rw [hFirst, hSecond]
    · obtain rfl := Option.some.inj h₁
      exact absurd (hUnder.made h₂) (Nat.lt_irrefl _)
    · obtain rfl := Option.some.inj h₂
      exact absurd (hUnder.made h₁) (Nat.lt_irrefl _)
    · exact hUnder.apart h₁ h₂
  made {email' mutex} hSome := by
    dsimp only at hSome ⊢
    rw [Function.update_apply] at hSome
    split at hSome
    · obtain rfl := Option.some.inj hSome
      exact Nat.lt_succ_self _
    · exact Nat.lt_succ_of_lt (hUnder.made hSome)
  named {mutex} hLocked := by
    obtain ⟨email', hSome⟩ := hUnder.named hLocked
    refine ⟨email', ?_⟩
    dsimp only
    rw [Function.update_of_ne, hSome]
    rintro rfl
    rw [hNone] at hSome
    cases hSome

end Shared.Under

/-! ## The accesses of a call -/

namespace OnMutex

variable {mutexes mutexes' : GoString → Option Nat} {method : Nat → Accesses Unit}
  {q : Accesses Unit} {email' : GoString}

/-- How a request goes on that knows whether its account has a mutex. -/
theorem first (log : List (Event Access.Resp)) (method : Nat → Accesses Unit)
    (mutexes : GoString → Option Nat) (email : GoString) :
    OnMutex mutexes email method (⟨.isNil email, (mutexes email).isNone⟩ :: log)
      (if (mutexes email).isNone then
        .call (.make email) fun _ => .call (.look email) (deref method)
      else .call (.look email) (deref method)) := by
  cases hMutex : mutexes email with
  | none => exact .missing rfl hMutex
  | some mutex => exact .found rfl hMutex

theorem of_make {k : (Access.make email').Resp → Accesses Unit}
    (hOn : OnMutex mutexes email method log q) (hMake : q = .call (.make email') k)
    (hMethod : ∀ mutex, method mutex ≠ .call (.make email') k) :
    amid log = true ∧ mutexes email' = none := by
  cases hOn with
  | missing hAmid hNone =>
    cases hMake
    exact ⟨hAmid, hNone⟩
  | found hAmid hSome => cases hMake
  | has hDone hSome => exact (hMethod _ hMake).elim

theorem of_method {k : d.Resp → Accesses Unit} (hOn : OnMutex mutexes email method log q)
    (hCall : q = .call d k) (hMethod : d.method = some (email', mutex))
    (hOwn : ∀ mutex', method mutex' = .call d k → d.method = some (email, mutex')) :
    mutexes email' = some mutex := by
  cases hOn with
  | missing hAmid hNone =>
    cases hCall
    cases hMethod
  | found hAmid hSome =>
    cases hCall
    cases hMethod
  | has hDone hSome =>
    obtain ⟨rfl, rfl⟩ := Prod.mk.inj (Option.some.inj (hMethod.symm.trans (hOwn _ hCall)))
    exact hSome

/-- Only a request that is in the middle of `GetAccountMutex` is disturbed by a new mutex, or
one whose account has none. -/
theorem update (hOn : OnMutex mutexes email method log q) (hNone : mutexes email' = none)
    (hDone : amid log = false) (mutex' : Nat) :
    OnMutex (Function.update mutexes email' (some mutex')) email method log q := by
  cases hOn with
  | missing hAmid hMissing =>
    rw [hDone] at hAmid
    cases hAmid
  | found hAmid hSome =>
    rw [hDone] at hAmid
    cases hAmid
  | has hDone hSome =>
    refine .has hDone ?_
    rw [Function.update_of_ne, hSome]
    rintro rfl
    rw [hNone] at hSome
    cases hSome

end OnMutex

/-- Who makes a mutex is in the middle of `GetAccountMutex`, for an account that has none. -/
theorem amid_of_make {k : (Access.make email).Resp → Accesses c.Resp}
    (hWhere : c.accesses = .call (.make email) k ∨ c.within v log (.call (.make email) k)) :
    amid log = true ∧ v.accountMutexes email = none := by
  rcases hWhere with hFirst | hWithin
  · cases c with
    | storage c => cases hFirst
    | send mail => cases hFirst
    | lock email' => cases (onMutex_eq email' _).symm.trans hFirst
    | unlock email' => cases (onMutex_eq email' _).symm.trans hFirst
  · cases c with
    | storage c => exact hWithin.elim
    | send mail => exact hWithin.elim
    | lock email' => exact OnMutex.of_make hWithin rfl fun mutex hMethod => by cases hMethod
    | unlock email' => exact OnMutex.of_make hWithin rfl fun mutex hMethod => by cases hMethod

/-- Who calls a method of a mutex has the one that is in the map. -/
theorem mutex_of_method {k : d.Resp → Accesses c.Resp}
    (hWhere : c.accesses = .call d k ∨ c.within v log (.call d k))
    (hMethod : d.method = some (email, mutex)) : v.accountMutexes email = some mutex := by
  rcases hWhere with hFirst | hWithin
  · cases c with
    | storage c => cases hFirst; cases hMethod
    | send mail => cases hFirst; cases hMethod
    | lock email' => cases (onMutex_eq email' _).symm.trans hFirst; cases hMethod
    | unlock email' => cases (onMutex_eq email' _).symm.trans hFirst; cases hMethod
  · cases c with
    | storage c => exact hWithin.elim
    | send mail => exact hWithin.elim
    | lock email' =>
      exact OnMutex.of_method hWithin rfl hMethod fun mutex' hCall => by cases hCall; rfl
    | unlock email' =>
      exact OnMutex.of_method hWithin rfl hMethod fun mutex' hCall => by cases hCall; rfl

theorem within_step {q : Accesses c.Resp} (hWithin : c.within v log q)
    (hMake : ∀ email, d = .make email → v.accountMutexes email = none ∧ amid log = false) :
    c.within (Shared.step (Tables.step b) d v).2 log q := by
  cases d with
  | make email =>
    obtain ⟨hNone, hDone⟩ := hMake email rfl
    cases c with
    | storage c => exact hWithin.elim
    | send mail => exact hWithin.elim
    | lock email' => exact OnMutex.update hWithin hNone hDone v.made
    | unlock email' => exact OnMutex.update hWithin hNone hDone v.made
  | _ => cases c <;> exact hWithin

/-- The next access is one of `GetAccountMutex`, or the method of the mutex of the account. -/
theorem OnMutex.step {method : Nat → Accesses Unit} {k : d.Resp → Accesses Unit}
    (hUnder : v.Under w) (hOn : onMutex email method = .call d k ∨
      OnMutex v.accountMutexes email method log (.call d k)) :
    ((Shared.step (Tables.step b) d v).2.Under w ∧
        Access.shows ⟨d, (Shared.step (Tables.step b) d v).1⟩ = none ∧
        OnMutex (Shared.step (Tables.step b) d v).2.accountMutexes email method
          (⟨d, (Shared.step (Tables.step b) d v).1⟩ :: log)
          (k (Shared.step (Tables.step b) d v).1)) ∨
      ∃ mutex, v.accountMutexes email = some mutex ∧ method mutex = .call d k := by
  rcases hOn with hFirst | hOn
  · rw [onMutex_eq] at hFirst
    cases hFirst
    exact .inl ⟨hUnder, rfl, .first log method v.accountMutexes email⟩
  · generalize hRest : Program.call d k = q at hOn
    cases hOn with
    | missing hAmid hNone =>
      cases hRest
      exact .inl ⟨hUnder.make hNone, rfl, .found rfl (Function.update_self ..)⟩
    | @found mutex hAmid hSome =>
      cases hRest
      refine .inl ⟨hUnder, rfl, ?_⟩
      have hLooked : deref method (v.accountMutexes email) = method mutex := by
        rw [hSome]
        rfl
      exact hLooked ▸ .has rfl hSome
    | has hDone hSome => exact .inr ⟨_, hSome, rfl⟩

/-- A condition on the storage calls. -/
def Call.allowed (allows : StorageCall → Tables → Bool) : Call → Tables → Bool
  | .storage c, T => allows c T
  | _, _ => true

/-- The call is not blocked, and it meets the condition. -/
def Call.may (allows : StorageCall → Tables → Bool) (w : World Tables) (c : Call) : Prop :=
  c.enabled w = true ∧ c.allowed allows w.storage = true

def Access.allowed (allows : StorageCall → Tables → Bool) : Access → Tables → Bool
  | .storage c, T => allows c T
  | _, _ => true

/-- Each access is one of `GetAccountMutex`, or it is the call itself. -/
theorem progress {allows : StorageCall → Tables → Bool} (hUnder : v.Under w)
    (hEnabled : d.enabled v = true) (hAllowed : d.allowed allows v.storage = true)
    (hWhere : c.accesses = .call d k ∨ c.within v log (.call d k)) :
    (mutexMap b).Progress (Call.may allows) w v log c d k := by
  cases c with
  | storage c =>
    rcases hWhere with hFirst | hWithin
    · cases hFirst
      refine .last ⟨rfl, hUnder.storage ▸ hAllowed⟩ ?_ ?_ ?_ rfl
      · exact { hUnder with storage := by simp [World.step, Shared.step, hUnder.storage] }
      · simp [World.step, Shared.step, hUnder.storage, Access.shows, mutexMap]
      · simp [World.step, Shared.step, hUnder.storage]
    · exact hWithin.elim
  | send mail =>
    rcases hWhere with hFirst | hWithin
    · cases hFirst
      refine .last ⟨rfl, rfl⟩ ?_ rfl rfl rfl
      exact { hUnder with outbox := by simp [World.step, Shared.step, hUnder.outbox] }
    · exact hWithin.elim
  | lock email =>
    rcases OnMutex.step (b := b) hUnder hWhere with
      ⟨hSim, hShows, hWithin⟩ | ⟨mutex, hSome, hMethod⟩
    · exact .inner hSim hShows hWithin
    · cases hMethod
      refine .last ⟨?_, rfl⟩ (hUnder.lock hSome) rfl rfl rfl
      rw [Call.enabled, hUnder.held, hSome, Option.any_some]
      exact hEnabled
  | unlock email =>
    rcases OnMutex.step (b := b) hUnder hWhere with
      ⟨hSim, hShows, hWithin⟩ | ⟨mutex, hSome, hMethod⟩
    · exact .inner hSim hShows hWithin
    · cases hMethod
      exact .last ⟨rfl, rfl⟩ (hUnder.unlock hSome) rfl rfl rfl

/-! ## Runs -/

abbrev AccessPool := Pool Action Access.Resp HttpError (Option Reply) (Shared Tables)

/-- Nobody is in the middle of `GetAccountMutex` when a request begins it. -/
def Access.unraced (F : AccessPool) : Access → Bool
  | .isNil _ => F.threads.all fun t => !amid t.log
  | _ => true

/-- What `GetAccountMutex` is for. -/
structure OneMutex (F : AccessPool) : Prop where
  /-- One request at most is in the middle of it. -/
  alone : ∀ {i j : Nat} {t u : Thread Action Access.Resp HttpError (Option Reply)},
    F.threads[i]? = some t → F.threads[j]? = some u → amid t.log = true → amid u.log = true → i = j
  /-- The mutex of an account is the same for all requests. -/
  same : ∀ t ∈ F.threads, ∀ e ∈ t.log, ∀ email mutex, e.1.method = some (email, mutex) →
    F.state.accountMutexes email = some mutex

namespace Server

/-- The accesses of an action. -/
abbrev accesses (srv : Server) (action : Action) : Accesses (Option Reply) :=
  (action.program srv).implement Call.accesses

/-- All interleavings of the accesses of any number of actions in which `GetAccountMutex` is
not begun while a request is in the middle of it. -/
abbrev InterleavesUnraced (srv : Server) (b : Backend) (starts : Action → Prop)
    (allows : StorageCall → Tables → Bool) : AccessPool → AccessPool → Prop :=
  Pool.Steps (Shared.step (Tables.step b)) srv.accesses (fun _ action => starts action)
    fun F _ d => d.enabled F.state = true ∧ d.unraced F = true ∧
      d.allowed allows F.state.storage = true

/-- The interleavings of the calls, with the same conditions. -/
abbrev InterleavesAllowed (srv : Server) (b : Backend) (starts : Action → Prop)
    (allows : StorageCall → Tables → Bool) : ServerPool → ServerPool → Prop :=
  Pool.Steps (exec b) (Action.program srv) (fun _ action => starts action)
    fun P _ c => Call.may allows P.state c

variable {srv : Server} {starts : Action → Prop} {allows : StorageCall → Tables → Bool}
  {P : ServerPool} {F G : AccessPool} {i : Nat}
  {u : Thread Action Access.Resp HttpError (Option Reply)}

theorem oneMutex_start (hOneMutex : OneMutex F) (action : Action) :
    OneMutex (F.start srv.accesses action) where
  alone hAt hAt' hAmid hAmid' := by
    rcases Pool.at_start hAt with hAt | rfl
    · rcases Pool.at_start hAt' with hAt' | rfl
      · exact hOneMutex.alone hAt hAt' hAmid hAmid'
      · cases hAmid'
    · cases hAmid
  same t ht e he := by
    rcases List.mem_append.mp ht with hOld | hNew
    · exact hOneMutex.same t hOld e he
    · obtain rfl := List.mem_singleton.mp hNew
      cases he

theorem alone_advance {k : d.Resp → Accesses c.Resp} {f : d.Resp → Accesses (Option Reply)}
    (hOneMutex : OneMutex F) (hAt : F.threads[i]? = some u) (hUnraced : d.unraced F = true)
    (hWhere : c.accesses = .call d k ∨ c.within F.state u.log (.call d k)) {j₁ j₂ : Nat}
    {t₁ t₂ : Thread Action Access.Resp HttpError (Option Reply)}
    (h₁ : (F.advance (Shared.step (Tables.step b)) i u d f).threads[j₁]? = some t₁)
    (h₂ : (F.advance (Shared.step (Tables.step b)) i u d f).threads[j₂]? = some t₂)
    (hAmid₁ : amid t₁.log = true) (hAmid₂ : amid t₂.log = true) : j₁ = j₂ := by
  -- Who is in the middle of it now has begun it when nobody else was, or has been before.
  have hOthers (r : d.Resp) (hAmid : amid (⟨d, r⟩ :: u.log) = true) (j : Nat)
      (t : Thread Action Access.Resp HttpError (Option Reply)) (hAt' : F.threads[j]? = some t)
      (hAmid' : amid t.log = true) : j = i := by
    cases d with
    | isNil email =>
      have hNone := List.all_eq_true.mp hUnraced t (List.mem_of_getElem? hAt')
      rw [hAmid'] at hNone
      cases hNone
    | make email => exact hOneMutex.alone hAt' hAt hAmid' (amid_of_make hWhere).1
    | _ => cases hAmid
  rcases (Pool.at_advance hAt).mp h₁ with ⟨hOther₁, hStill₁⟩ | ⟨rfl, rfl⟩ <;>
    rcases (Pool.at_advance hAt).mp h₂ with ⟨hOther₂, hStill₂⟩ | ⟨rfl, rfl⟩
  · exact hOneMutex.alone hStill₁ hStill₂ hAmid₁ hAmid₂
  · exact (hOther₁ (hOthers _ hAmid₂ j₁ t₁ hStill₁ hAmid₁)).elim
  · exact (hOther₂ (hOthers _ hAmid₁ j₂ t₂ hStill₂ hAmid₂)).elim
  · rfl

/-- An account that has a mutex keeps it. -/
theorem mutex_kept {k : d.Resp → Accesses c.Resp}
    (hWhere : c.accesses = .call d k ∨ c.within v log (.call d k))
    (hSome : v.accountMutexes email = some mutex) :
    (Shared.step (Tables.step b) d v).2.accountMutexes email = some mutex := by
  cases d with
  | make email' =>
    show Function.update v.accountMutexes email' (some v.made) email = some mutex
    rw [Function.update_of_ne, hSome]
    rintro rfl
    rw [(amid_of_make hWhere).2] at hSome
    cases hSome
  | _ => exact hSome

theorem oneMutex_advance {k : d.Resp → Accesses c.Resp} {f : d.Resp → Accesses (Option Reply)}
    (hOneMutex : OneMutex F) (hAt : F.threads[i]? = some u) (hUnraced : d.unraced F = true)
    (hWhere : c.accesses = .call d k ∨ c.within F.state u.log (.call d k)) :
    OneMutex (F.advance (Shared.step (Tables.step b)) i u d f) where
  alone := alone_advance hOneMutex hAt hUnraced hWhere
  same t ht e he email mutex hMethod := by
    apply mutex_kept hWhere
    rcases List.mem_or_eq_of_mem_set ht with hOld | rfl
    · exact hOneMutex.same t hOld e he email mutex hMethod
    · rcases List.mem_cons.mp he with rfl | hOld
      · exact mutex_of_method hWhere hMethod
      · exact hOneMutex.same u (List.mem_of_getElem? hAt) e hOld email mutex hMethod

/-- The accesses of the requests do what their calls say. -/
theorem refines_accesses (hRefines : Pool.Refines (mutexMap b) P F) (hOneMutex : OneMutex F)
    (hSteps : srv.InterleavesUnraced b starts allows F G) :
    ∃ Q, srv.InterleavesAllowed b starts allows P Q ∧ Pool.Refines (mutexMap b) Q G ∧ OneMutex G := by
  refine Pool.Refines.steps (M := mutexMap b) hRefines hOneMutex hSteps rfl ?_ ?_ ?_
  · exact fun _ _ _ _ hStarts => hStarts
  · exact fun F action hOneMutex => oneMutex_start hOneMutex action
  · intro P F i u d f hRefines hOneMutex hAt hMay c k hWhere
    obtain ⟨hEnabled, hUnraced, hAllowed⟩ := hMay
    refine ⟨⟨progress hRefines.state hEnabled hAllowed hWhere, ?_⟩,
      oneMutex_advance hOneMutex hAt hUnraced hWhere⟩
    intro j v hOther hAt' c' q hWithin
    refine within_step hWithin fun email hMake => ?_
    subst hMake
    obtain ⟨hAmid, hNone⟩ := amid_of_make hWhere
    refine ⟨hNone, Bool.eq_false_iff.mpr fun hAmid' => ?_⟩
    exact hOther (hOneMutex.alone hAt' hAt hAmid' hAmid)

/-- The start of the server, with records of any kind. -/
theorem refines_init (T : Tables) :
    Pool.Refines (mutexMap b) ({ state := { storage := T } } : ServerPool)
      ({ state := { storage := T } } : AccessPool) :=
  Pool.Refines.empty
    { storage := rfl
      outbox := rfl
      held := fun _ => rfl
      apart := fun h => by cases h
      made := fun h => by cases h
      named := fun h => by cases h }

theorem oneMutex_init (T : Tables) : OneMutex ({ state := { storage := T } } : AccessPool) where
  alone hAt := by cases hAt
  same t ht := by cases ht

/-! ## The next access -/

section Next

variable {α : Type} {p : Serve α} {q : Accesses α}

/-- Who is in the middle of `GetAccountMutex` can go on with it. -/
theorem next_of_amid (hBeneath : (mutexMap b).Beneath v log p q) (hAmid : amid log = true) :
    ∃ d f, q = .call d f ∧ d.enabled v = true ∧ ∀ F, d.unraced F = true := by
  have hOn {email : GoString} {method : Nat → Accesses Unit} {g : Unit → Accesses α}
      {q' : Accesses Unit} (hOn : OnMutex v.accountMutexes email method log q') :
      ∃ d f, q'.bind g = .call d f ∧ d.enabled v = true ∧ ∀ F, d.unraced F = true := by
    cases hOn with
    | missing hAmid hNone => exact ⟨_, _, rfl, rfl, fun _ => rfl⟩
    | found hAmid hSome => exact ⟨_, _, rfl, rfl, fun _ => rfl⟩
    | has hDone hSome =>
      rw [hDone] at hAmid
      cases hAmid
  cases hBeneath with
  | between p hBetween =>
    cases hAmid.symm.trans hBetween
  | @within c q' k hWithin =>
    cases c with
    | storage c => exact hWithin.elim
    | send mail => exact hWithin.elim
    | lock email => exact hOn hWithin
    | unlock email => exact hOn hWithin

/-- Who is not waits for its mutex at most. -/
theorem next_of_call {k : c.Resp → Serve α} (hBeneath : (mutexMap b).Beneath v log (.call c k) q)
    (hDone : amid log = false) (hUnder : v.Under w) (hEnabled : c.enabled w = true) :
    ∃ d f, q = .call d f ∧ d.enabled v = true := by
  generalize hCall : Program.call c k = p at hBeneath
  cases hBeneath with
  | between p hBetween =>
    subst hCall
    cases c with
    | storage c => exact ⟨_, _, rfl, rfl⟩
    | send mail => exact ⟨_, _, rfl, rfl⟩
    | lock email => exact ⟨.isNil email, _, rfl, rfl⟩
    | unlock email => exact ⟨.isNil email, _, rfl, rfl⟩
  | @within c q' k hWithin =>
    cases hCall
    cases c with
    | storage c => exact hWithin.elim
    | send mail => exact hWithin.elim
    | lock email =>
      cases hWithin with
      | missing hAmid hNone => cases hDone.symm.trans hAmid
      | found hAmid hSome => cases hDone.symm.trans hAmid
      | has hDone hSome =>
        refine ⟨_, _, rfl, ?_⟩
        rw [Call.enabled, hUnder.held, hSome] at hEnabled
        exact hEnabled
    | unlock email =>
      cases hWithin with
      | missing hAmid hNone => cases hDone.symm.trans hAmid
      | found hAmid hSome => cases hDone.symm.trans hAmid
      | has hDone hSome => exact ⟨_, _, rfl, rfl⟩

end Next

/-! ## The number of accesses -/

/-- What is known of the call that is made. -/
def Access.known : (d : Access) → d.Resp → Prop
  | .storage c, r => (Call.storage c).known r
  | _, _ => True

theorem known_step (b : Backend) (d : Access) (v : Shared Tables) :
    Access.known d (Shared.step (Tables.step b) d v).1 := by
  cases d with
  | storage c => exact Call.known_exec b (.storage c) { storage := v.storage }
  | _ => trivial

theorem bounded_onMutex {β : Type} {email : GoString} {method : Nat → Accesses Unit}
    {f : Unit → Accesses β} {n : Nat}
    (hMethod : ∀ mutex, ((method mutex).bind f).Bounded Access.known (fun _ => True) n) :
    ((onMutex email method).bind f).Bounded Access.known (fun _ => True) (n + 3) := by
  have hLook (mutex : Option Nat) :
      ((deref method mutex).bind f).Bounded Access.known (fun _ => True) n := by
    cases mutex with
    | none => exact .fail _
    | some mutex => exact hMethod mutex
  rw [onMutex_eq]
  refine .call trivial fun missing _ => ?_
  cases missing with
  | true => exact .call trivial fun _ _ => .call trivial fun mutex _ => hLook mutex
  | false =>
    exact Program.Bounded.mono (m := n + 1) (.call trivial fun mutex _ => hLook mutex) (by omega)

/-- A call takes four accesses at most. -/
theorem bounded_accesses (c : Call) {β : Type} (f : c.Resp → Accesses β) (n : Nat)
    (hRest : ∀ r, c.known r → (f r).Bounded Access.known (fun _ => True) n) :
    (c.accesses.bind f).Bounded Access.known (fun _ => True) (4 + n) := by
  rw [Nat.add_comm]
  cases c with
  | storage c => exact Program.Bounded.mono (m := n + 1) (.call trivial hRest) (by omega)
  | send mail =>
    exact Program.Bounded.mono (m := n + 1) (.call trivial fun r _ => hRest r trivial) (by omega)
  | lock email => exact bounded_onMutex fun mutex => .call trivial fun r _ => hRest r trivial
  | unlock email => exact bounded_onMutex fun mutex => .call trivial fun r _ => hRest r trivial

end Server

end PadlockCloud
