import PadlockCloud.Model.Middleware
import PadlockCloud.Process.Refinement

/-!
# The map of the mutexes

`GetAccountMutex`, `LockAccount` and `UnlockAccount` of `server.go`, access by access. The
mutexes lie in a Go map that nothing guards: `GetAccountMutex` looks whether the account has
one, makes one if not, and looks it up again, while other requests do the same. A
`Call.lock` or a `Call.unlock` is such a sequence of accesses.

Two goroutines that use the map at the same time, one of them to write, race. Then the Go
runtime may stop the process, and what is modelled here is the best that can happen: the
accesses come one after the other. Even so a request can get a mutex that another one replaces
in the map.
-/

namespace PadlockCloud

open Process

/-- What a request does, one access at a time. A mutex is known by its number. -/
inductive Access where
  | storage (c : StorageCall)
  /-- The start of the goroutine that sends a mail. -/
  | send (mail : Mail)
  /-- `server.accountMutexes[email] == nil` -/
  | isNil (email : GoString)
  /-- `server.accountMutexes[email] = &sync.Mutex{}` -/
  | make (email : GoString)
  /-- `server.accountMutexes[email]` -/
  | look (email : GoString)
  /-- `Lock` of a mutex, for an account. -/
  | lock (email : GoString) (mutex : Nat)
  /-- `Unlock` of a mutex, for an account. -/
  | unlock (email : GoString) (mutex : Nat)

abbrev Access.Resp : Access → Type
  | .storage c => c.Resp
  | .isNil _ => Bool
  | .look _ => Option Nat
  | .send _ | .make _ | .lock _ _ | .unlock _ _ => Unit

/-- The state that the requests share, with the map as it is. -/
structure Shared (σ : Type) where
  storage : σ
  outbox : List Mail := []
  accountMutexes : GoString → Option Nat := fun _ => none
  /-- How many mutexes have been made. -/
  made : Nat := 0
  locked : Nat → Bool := fun _ => false

def Shared.step {σ : Type} (S : Interp StorageCall.Resp σ) : Interp Access.Resp (Shared σ)
  | .storage c, w => ((S c w.storage).1, { w with storage := (S c w.storage).2 })
  | .send mail, w => ((), { w with outbox := w.outbox ++ [mail] })
  | .isNil email, w => ((w.accountMutexes email).isNone, w)
  | .make email, w =>
    ((), { w with
      accountMutexes := Function.update w.accountMutexes email (some w.made)
      made := w.made + 1 })
  | .look email, w => (w.accountMutexes email, w)
  | .lock _ mutex, w => ((), { w with locked := Function.update w.locked mutex true })
  | .unlock _ mutex, w => ((), { w with locked := Function.update w.locked mutex false })

/-- `Lock` waits for the mutex. -/
def Access.enabled {σ : Type} : Access → Shared σ → Bool
  | .lock _ mutex, w => !w.locked mutex
  | _, _ => true

abbrev Accesses (α : Type) := Program Access.Resp HttpError α

/-- `Server.GetAccountMutex` -/
def getAccountMutex (email : GoString) : Accesses (Option Nat) := do
  let missing : Bool ← Program.request (Access.isNil email)
  if missing then Program.request (Access.make email)
  Program.request (Access.look email)

/-- Calls a method of a mutex. One of `nil` panics. -/
def deref (method : Nat → Accesses Unit) : Option Nat → Accesses Unit
  | none => .fail .panic
  | some mutex => method mutex

def onMutex (email : GoString) (method : Nat → Accesses Unit) : Accesses Unit := do
  deref method (← getAccountMutex email)

/-- The accesses before a method is called: two if there is a mutex, three if not. -/
theorem onMutex_eq (email : GoString) (method : Nat → Accesses Unit) :
    onMutex email method = .call (.isNil email) fun missing =>
      if missing then .call (.make email) fun _ => .call (.look email) (deref method)
      else .call (.look email) (deref method) := by
  apply congrArg (Program.call (Access.isNil email))
  funext missing
  cases missing
  · rfl
  · rfl

/-- `Server.LockAccount` -/
def lockAccount (email : GoString) : Accesses Unit :=
  onMutex email fun mutex => Program.request (Access.lock email mutex)

/-- `Server.UnlockAccount` -/
def unlockAccount (email : GoString) : Accesses Unit :=
  onMutex email fun mutex => Program.request (Access.unlock email mutex)

/-- A call of a request, as the accesses that it consists of. -/
def Call.accesses : (c : Call) → Accesses c.Resp
  | .storage c => Program.request (Access.storage c)
  | .send mail => Program.request (Access.send mail)
  | .lock email => lockAccount email
  | .unlock email => unlockAccount email

/-! ## Races -/

/-- Who has made these accesses, the latest one first, is in the middle of
`GetAccountMutex`. -/
def amid : List (Event Access.Resp) → Bool
  | ⟨.isNil _, _⟩ :: _ | ⟨.make _, _⟩ :: _ => true
  | _ => false

end PadlockCloud
