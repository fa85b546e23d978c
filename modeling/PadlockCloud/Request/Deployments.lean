import PadlockCloud.Model.Cli
import PadlockCloud.Request.Backends
import PadlockCloud.Request.Pools

/-!
# Deployments

The databases of a deployment outlive its processes. A server process opens them in
`Server.Init` and serves requests until it is stopped (`Server.CleanUp` closes them) or
killed. What it has in memory is gone then, the mutexes included, and requests are cut
off wherever they are. `LevelDBStorage` does not sync its writes: if the machine goes
down with the process, each database may have lost the latest ones, on its own. Between
the processes the operator runs commands. Databases that are open are locked, so there
is one process at a time.
-/

namespace PadlockCloud

open Process

namespace LevelDBStorage

/-- `Close` -/
def closeFiles (s : LevelDBStorage) : LevelDBStorage := { s with isOpen := false }

/-- The calls of a command. -/
def cliCall (J : Json) : Interp CliCall.Resp LevelDBStorage
  | .openStorage, s => (.ok (), s.openFiles)
  | .closeStorage, s => (.ok (), s.closeFiles)
  | .storage c, s => call J c s
  | .accounts keys, s => (s.iterate .account keys, s)

end LevelDBStorage

/-- The requests and cleanup jobs of a server process. -/
abbrev ServerProcess := Pool Action Call.Resp HttpError (Option Reply) (World LevelDBStorage)

namespace ServerProcess

/-- `Server.Init` opens the databases and makes a new map of mutexes. -/
def init (L : LevelDBStorage) : ServerProcess := { state := { storage := L.openFiles } }

def files (P : ServerProcess) : Stores Storable.Serialized := P.state.storage.files

def actions (P : ServerProcess) : List Action := P.threads.map Thread.label

end ServerProcess

/-- All interleavings of any requests and cleanup jobs. -/
abbrev Server.Serves (srv : Server) (J : Json) : ServerProcess → ServerProcess → Prop :=
  Pool.Steps (World.step (LevelDBStorage.call J)) (Action.program srv) (fun _ _ => True)
    fun P _ c => c.enabled P.state = true

/-- The databases of a deployment while no process has them open, after the given
actions. A process leaves each of them as it was at some point. -/
inductive Deploys (J : Json) : List Action → LevelDBStorage → Prop where
  | installed : Deploys J [] {}
  | served (past : List Action) (L : LevelDBStorage) (srv : Server) (Q : ServerProcess)
      (files : Stores Storable.Serialized) (hDeploys : Deploys J past L)
      (hFiles : ∀ τ, ∃ P, srv.Serves J (.init L) P ∧ srv.Serves J P Q ∧ files τ = P.files τ) :
      Deploys J (past ++ Q.actions) { files }
  | commanded (past : List Action) (L : LevelDBStorage) (command : CliCommand)
      (hDeploys : Deploys J past L)
      (hEmail : ∀ now email, command = .create now email → J.coerce email = email) :
      Deploys J past (command.program.run (LevelDBStorage.cliCall J) L).2

/-! ## Processes over tables -/

section Processes

variable {J : Json} {srv : Server} {L : LevelDBStorage} {P Q : ServerProcess} {α : Type}

/-- The process is a pool over the tables. -/
theorem Server.Serves.interleaves (hServes : srv.Serves J (.init L) Q) :
    ∃ Q' : ServerPool, srv.Interleaves ⟨J, true⟩ (fun _ _ => True)
        { state := { storage := .ofStores L.files } } Q' ∧
      World.Related LevelDBStorage.Holds Q.state Q'.state ∧ Q'.threads = Q.threads := by
  refine Simulates.steps (World.simulates_allowed (fun _ => True) (LevelDBStorage.simulates J))
    (fun _ _ _ _ _ => id) ?_ hServes ⟨⟨rfl, rfl⟩, rfl, rfl⟩ rfl
  intro P P' i c hRelated _ hEnabled
  rwa [← hRelated.enabled]

/-- A program does the same over the tables. -/
theorem LevelDBStorage.run_related {w : World LevelDBStorage} {w' : World Tables}
    (hRelated : World.Related LevelDBStorage.Holds w w') (p : Serve α) :
    (p.run (World.step (LevelDBStorage.call J)) w).1 = (p.run (exec ⟨J, true⟩) w').1 := by
  have hSimulates : Simulates (World.step (LevelDBStorage.call J)) (exec ⟨J, true⟩)
      (fun _ _ => True) (World.Related LevelDBStorage.Holds) :=
    World.simulates_allowed (fun _ => True) (LevelDBStorage.simulates J)
  exact (hSimulates.run p hRelated (p.always_of_forall (fun _ _ => trivial) w')).1

end Processes

/-! ## Commands over tables -/

namespace Cli

variable {J : Json} {L : LevelDBStorage} {T : Tables} {α : Type}

/-- The calls of a command while it has the storage open. -/
def Within : CliCall → Tables → Prop
  | .storage _, _ | .accounts _, _ => True
  | .openStorage, _ | .closeStorage, _ => False

theorem simulates_within : Simulates (LevelDBStorage.cliCall J) (CliCall.step ⟨J, true⟩) Within
    LevelDBStorage.Holds := by
  intro c L T hHolds hWithin
  cases c with
  | storage c => exact LevelDBStorage.simulates J c L T hHolds trivial
  | accounts keys =>
    obtain ⟨hOpen, rfl⟩ := hHolds
    refine ⟨?_, hOpen, rfl⟩
    rw [LevelDBStorage.cliCall, LevelDBStorage.iterate, if_pos hOpen]
    rfl
  | openStorage => exact hWithin.elim
  | closeStorage => exact hWithin.elim

/-- What a command does between opening and closing. -/
theorem files_withStorage {body : Cli α}
    (hBody : ∀ T, body.Always (CliCall.step ⟨J, true⟩) Within T) (L : LevelDBStorage) :
    Tables.ofStores ((withStorage body).run (LevelDBStorage.cliCall J) L).2.files =
      ((withStorage body).run (CliCall.step ⟨J, true⟩) (.ofStores L.files)).2 := by
  have hClosed : ((withStorage body).run (LevelDBStorage.cliCall J) L).2 =
      (body.run (LevelDBStorage.cliCall J) L.openFiles).2.closeFiles := by
    show ((body.ensure _).run (LevelDBStorage.cliCall J) L.openFiles).2 = _
    rw [Program.run_ensure]
    rfl
  have hOpened : L.openFiles.Holds (.ofStores L.files) := ⟨rfl, rfl⟩
  obtain ⟨-, -, -, hTables⟩ := simulates_within.run body hOpened (hBody _)
  rw [hClosed, run_withStorage, hTables]
  rfl

theorem files_requireEmail {command : Cli α} {email : GoString}
    (hFiles : Tables.ofStores (command.run (LevelDBStorage.cliCall J) L).2.files =
      (command.run (CliCall.step ⟨J, true⟩) (.ofStores L.files)).2) :
    Tables.ofStores ((requireEmail email command).run (LevelDBStorage.cliCall J) L).2.files =
      ((requireEmail email command).run (CliCall.step ⟨J, true⟩) (.ofStores L.files)).2 := by
  unfold requireEmail
  split
  · rfl
  · exact hFiles

end Cli

/-- A command leaves in the databases what it leaves in the tables. -/
theorem CliCommand.files_run (command : CliCommand) (J : Json) (L : LevelDBStorage) :
    Tables.ofStores (command.program.run (LevelDBStorage.cliCall J) L).2.files =
      (command.program.run (CliCall.step ⟨J, true⟩) (.ofStores L.files)).2 := by
  cases command with
  | list keys =>
    apply Cli.files_withStorage
    exact fun T => ⟨trivial, trivial⟩
  | create now email =>
    apply Cli.files_requireEmail
    apply Cli.files_withStorage
    exact fun T => ⟨trivial, trivial⟩
  | display email =>
    apply Cli.files_requireEmail
    apply Cli.files_withStorage
    refine fun T => ⟨trivial, ?_⟩
    dsimp only [CliCall.step, Tables.step]
    cases lookup T.accounts email <;> trivial
  | delete email =>
    apply Cli.files_requireEmail
    apply Cli.files_withStorage
    exact fun T => ⟨trivial, trivial⟩

end PadlockCloud
