import PadlockCloud.Model.Storage

/-!
# The command line

`cli.go`: the account commands of an operator. Each checks its argument, opens
the storage, makes its calls and closes the storage again. The missing argument
of a command is the empty string.
-/

namespace PadlockCloud

open Process

inductive CliError where
  /-- `Please provide an email address!` -/
  | noEmail
  | storage (e : StorageError)
  deriving DecidableEq

/-- What a command prints: nothing, a line for each account, or one account as
YAML. -/
inductive CliOutput where
  | nothing
  | lines (text : GoString)
  | yaml (acc : Account)
  deriving DecidableEq

/-- The calls of the commands. `accounts` walks an iterator over the accounts,
which lie under the given keys. -/
inductive CliCall where
  | openStorage
  | closeStorage
  | storage (c : StorageCall)
  | accounts (keys : List GoString)

abbrev CliCall.Resp : CliCall → Type
  | .openStorage | .closeStorage => Except StorageError Unit
  | .storage c => c.Resp
  | .accounts _ => Except StorageError (List Account)

/-- The calls over tables, where all of them succeed but a look-up. -/
def CliCall.step (b : Backend) : Interp CliCall.Resp Tables
  | .openStorage, T => (.ok (), T)
  | .closeStorage, T => (.ok (), T)
  | .storage c, T => Tables.step b c T
  | .accounts keys, T => (.ok (keys.filterMap T.accounts), T)

abbrev Cli (α : Type) := Program CliCall.Resp CliError α

namespace Cli

def orFail {α : Type} : Except StorageError α → Cli α
  | .ok a => .pure a
  | .error e => .fail (.storage e)

/-- Runs the body between `Storage.Open` and the deferred `Storage.Close`, whose
error is dropped. -/
def withStorage {α : Type} (body : Cli α) : Cli α := do
  Program.request .openStorage >>= orFail
  body.ensure ((Program.request .closeStorage).bind fun _ => .pure ())

/-- The first argument of a command. -/
def requireEmail {α : Type} (email : GoString) (command : Cli α) : Cli α :=
  if email = [] then .fail .noEmail else command

/-- `CliApp.ListAccounts` -/
def listAccounts (keys : List GoString) : Cli CliOutput :=
  withStorage do
    let accounts ← Program.request (.accounts keys) >>= orFail
    .pure (.lines (accounts.flatMap fun acc => acc.email ++ lit "\n"))

/-- `CliApp.CreateAccount` -/
def createAccount (now : Time) (email : GoString) : Cli CliOutput :=
  requireEmail email <| withStorage do
    let _ ← Program.request (.storage (.putAccount now { email })) >>= orFail
    .pure .nothing

/-- `CliApp.DisplayAccount` -/
def displayAccount (email : GoString) : Cli CliOutput :=
  requireEmail email <| withStorage do
    let acc ← Program.request (.storage (.getAccount email)) >>= orFail
    .pure (.yaml acc)

/-- `CliApp.DeleteAccount` -/
def deleteAccount (email : GoString) : Cli CliOutput :=
  requireEmail email <| withStorage do
    Program.request (.storage (.deleteAccount email)) >>= orFail
    .pure .nothing

end Cli

/-- The subcommands of `accounts`. -/
inductive CliCommand where
  | list (keys : List GoString)
  | create (now : Time) (email : GoString)
  | display (email : GoString)
  | delete (email : GoString)

def CliCommand.program : CliCommand → Cli CliOutput
  | .list keys => Cli.listAccounts keys
  | .create now email => Cli.createAccount now email
  | .display email => Cli.displayAccount email
  | .delete email => Cli.deleteAccount email

namespace Cli

variable {α : Type} {b : Backend} {T : Tables} {email : GoString}

/-- Opening and closing leave the tables as the body does. -/
theorem run_withStorage (body : Cli α) (T : Tables) :
    (withStorage body).run (CliCall.step b) T = body.run (CliCall.step b) T := by
  have hBody : (withStorage body).run (CliCall.step b) T =
      (body.ensure ((Program.request .closeStorage).bind fun _ => .pure ())).run
        (CliCall.step b) T := rfl
  rw [hBody, Program.run_ensure]
  rfl

theorem run_requireEmail (hEmail : email ≠ []) (command : Cli α) :
    (requireEmail email command).run (CliCall.step b) T = command.run (CliCall.step b) T := by
  rw [requireEmail, if_neg hEmail]

/-- What the commands write: a blank account, or none. -/
theorem run_createAccount (hEmail : email ≠ []) (now : Time) (T : Tables) :
    (createAccount now email).run (CliCall.step b) T =
      (.ok .nothing,
        T.putAccount email (some ((b.prepare now { email }).marshal b.json))) := by
  rw [createAccount, run_requireEmail hEmail, run_withStorage]
  show (_, T.putAccount (b.prepare now { email }).email _) = _
  rw [Backend.prepare_email]

theorem run_deleteAccount (hEmail : email ≠ []) (T : Tables) :
    (deleteAccount email).run (CliCall.step b) T = (.ok .nothing, T.putAccount email none) := by
  rw [deleteAccount, run_requireEmail hEmail, run_withStorage]
  rfl

/-- Listing and displaying write nothing. -/
theorem run_listAccounts (keys : List GoString) (T : Tables) :
    ((listAccounts keys).run (CliCall.step b) T).2 = T := by
  rw [listAccounts, run_withStorage]
  rfl

theorem run_displayAccount (email : GoString) (T : Tables) :
    ((displayAccount email).run (CliCall.step b) T).2 = T := by
  unfold displayAccount requireEmail
  split
  · rfl
  · rw [run_withStorage]
    simp only [Program.bind_eq, Program.request_bind, Program.call_bind, Program.run_call,
      CliCall.step, Tables.step, lookup]
    cases T.accounts email <;> rfl

end Cli

end PadlockCloud
