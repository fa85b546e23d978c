import PadlockCloud.Properties.Lifetimes
import PadlockCloud.Properties.LiveTokens
import PadlockCloud.Properties.Mutexes
import PadlockCloud.Properties.OnePerDevice
import PadlockCloud.Request.Deployments

/-!
# Crashes and restarts

Each invariant of the tables is about one record at a time, so it can be split among
the databases: what it says of the accounts holds of any accounts that a process has
had, and what it says of the auth requests holds of any auth requests, even if they are
from another moment. A process that starts on such databases finds the invariants as it
would have left them itself.
-/

namespace PadlockCloud

open Process Time

namespace Server

variable {J : Json} {srv : Server} {b : Backend} {past : List Action} {L : LevelDBStorage}
  {Q : ServerProcess} {known : Action → Prop} {T : Tables}

/-- What every process keeps, with the actions that have happened. -/
structure Lasting (J : Json) (known : Action → Prop) (T : Tables) : Prop where
  sound : T.Sound J
  plain : PlainTables J T
  dated : T.Dated known

namespace Lasting

theorem empty (known : Action → Prop) : Lasting J known .empty where
  sound := .empty
  plain := ⟨fun hFound => (by cases hFound), fun hFound => (by cases hFound)⟩
  dated := .empty known

theorem mono {later : Action → Prop} (hLasting : Lasting J known T)
    (hMono : ∀ action, known action → later action) : Lasting J later T where
  sound := hLasting.sound
  plain := hLasting.plain
  dated := hLasting.dated.mono hMono

/-- Each database may be from another moment. -/
theorem mix {S : Stores Storable.Serialized}
    (hEach : ∀ τ, ∃ S' : Stores Storable.Serialized, S τ = S' τ ∧ Lasting J known (.ofStores S')) :
    Lasting J known (.ofStores S) := by
  obtain ⟨A, hAccounts, hA⟩ := hEach .account
  obtain ⟨R, hRequests, hR⟩ := hEach .authRequest
  have hAccount {k : GoString} {acc : Account} (hFound : S .account k = some acc) :
      A .account k = some acc := by rwa [← hAccounts]
  have hRequest {k : GoString} {ar : AuthRequest} (hFound : S .authRequest k = some ar) :
      R .authRequest k = some ar := by rwa [← hRequests]
  exact {
    sound := {
      key := fun hFound => hA.sound.key (hAccount hFound)
      account := fun hFound => hA.sound.account (hAccount hFound)
      authRequest := fun hFound => hR.sound.authRequest (hRequest hFound)
      tokens := fun hFound => hA.sound.tokens (hAccount hFound)
      issued := fun hFound => hR.sound.issued (hRequest hFound) }
    plain := {
      account := fun hFound => hA.plain.account (hAccount hFound)
      authRequest := fun hFound => hR.plain.authRequest (hRequest hFound) }
    dated := {
      accounts := fun hFound => hA.dated.accounts (hAccount hFound)
      authRequests := fun hFound => hR.dated.authRequests (hRequest hFound) } }

/-! ## Processes and commands -/

/-- A pool keeps the invariants, and its own actions become known. -/
theorem interleaved {starts : ServerPool → Action → Prop} {start : World Tables} {P : ServerPool}
    (hLasting : Lasting b.json known start.storage)
    (hSteps : srv.Interleaves b starts { state := start } P) :
    Lasting b.json (fun action => known action ∨ Happened P action) P.state.storage := by
  obtain ⟨hSound, hDated⟩ := dated_steps hLasting.sound hLasting.dated hSteps
  refine ⟨hSound, ?_, hDated⟩
  exact (Pool.meets (K := fun _ => deviceContract b.json) (I := fun P : ServerPool =>
    PlainTables b.json P.state.storage) hSteps hLasting.plain (fun _ ht => by cases ht)
    (program_meets srv b.json) (fun _ _ hPlain _ => hPlain) fun _ _ _ _ _ hPlain _ _ _ hCall =>
      ⟨deviceResponse_exec hPlain hCall, plainTables_exec hPlain hCall⟩).1

/-- So does a process, at every point. -/
theorem served {P : ServerProcess} (hLasting : Lasting J known (.ofStores L.files))
    (hServes : srv.Serves J (.init L) P) :
    Lasting J (fun action => known action ∨ action ∈ P.actions) (.ofStores P.files) := by
  obtain ⟨P', hSteps, hRelated, hThreads⟩ := hServes.interleaves
  have hLater := interleaved (b := ⟨J, true⟩) hLasting hSteps
  rw [hRelated.storage.tables] at hLater
  refine hLater.mono fun action hKnown => hKnown.imp_right ?_
  rintro ⟨t, ht, rfl⟩
  rw [hThreads] at ht
  exact List.mem_map_of_mem ht

/-- The tokens after a command have been there before. -/
theorem commanded {command : CliCommand} (hLasting : Lasting J known T)
    (hPlain : (Operation.cli command).plain ⟨J, true⟩) :
    Lasting J known (command.program.run (CliCall.step ⟨J, true⟩) T).2 where
  sound := sound_command hPlain hLasting.sound
  plain := by
    refine ⟨fun hFound => ?_, fun hFound => ?_⟩
    · rcases command_stored hPlain hFound with hOld | ⟨hNil, -, -⟩
      · exact hLasting.plain.account hOld
      · refine ⟨?_, fun t ht => ?_⟩
        · rw [hNil]
          exact List.nodup_nil
        · rw [hNil] at ht
          cases ht
    · rw [command_authRequests] at hFound
      exact hLasting.plain.authRequest hFound
  dated := by
    refine ⟨fun hFound s hs => ?_, fun hFound => ?_⟩
    · rcases command_stored hPlain hFound with hOld | ⟨hNil, -, -⟩
      · exact hLasting.dated.accounts hOld s hs
      · rw [hNil] at hs
        cases hs
    · rw [command_authRequests] at hFound
      exact hLasting.dated.authRequests hFound

/-- The databases of every deployment have the invariants. -/
theorem deployed (hDeploys : Deploys J past L) : Lasting J (· ∈ past) (.ofStores L.files) := by
  induction hDeploys with
  | installed => exact .empty _
  | served past L srv Q files hDeploys hFiles ih =>
    refine .mix fun τ => ?_
    obtain ⟨P, hServes, hRest, hSame⟩ := hFiles τ
    refine ⟨P.files, hSame, (ih.served hServes).mono fun action hKnown => ?_⟩
    refine List.mem_append.mpr (hKnown.imp_right fun hMem => ?_)
    exact (Pool.labels_mono hRest).subset hMem
  | commanded past L command hDeploys hEmail ih =>
    rw [CliCommand.files_run]
    refine ih.commanded ?_
    cases command with
    | create now email => exact hEmail now email rfl
    | _ => trivial

end Lasting

/-! ## All deployments -/

/-- The databases of a process that runs after any processes and commands: each account
is under its email with tokens of its own only, and with one token of a type on a device.
A token that is accepted has been drawn or presented by a request of some process in the
last thirty days, and a login is at most an hour old. And nothing that a process has left
behind stops the requests. -/
theorem invariants_survive (hDeploys : Deploys J past L) (hServes : srv.Serves J (.init L) Q) :
    (∀ k acc, Q.files .account k = some acc → acc.email = k ∧
      (∀ t, some t ∈ acc.authTokens → t.email = k) ∧
      ∀ type uuid, uuid ≠ [] → acc.authTokens.countP (fun o => o.any fun t =>
        t.type = type && t.device.any fun d => d.uuid = uuid) ≤ 1) ∧
    (∀ env r a, ((srv.authenticate env r).run (World.step (LevelDBStorage.call J)) Q.state).1 =
        .ok a → a.token.type ≠ lit "skeleton" →
      (∃ action ∈ past ++ Q.actions, (action.secret = some a.token.token ∨
        action.presents a.token) ∧ env.now - 30 * day < action.time) ∧
      (a.token.type = lit "web" → ∃ action ∈ past ++ Q.actions,
        action.secret = some a.token.token ∧ env.now < action.time + hour)) ∧
    ((∀ t ∈ Q.threads, t.rest.Ended) ∨
      ∃ (i : Nat) (t : Thread Action Call.Resp HttpError (Option Reply)) (c : Call)
        (k : c.Resp → Serve (Option Reply)),
        Q.threads[i]? = some t ∧ t.rest = .call c k ∧ c.enabled Q.state = true) := by
  have hLasting : Lasting J (· ∈ past ++ Q.actions) (.ofStores Q.files) :=
    ((Lasting.deployed hDeploys).served hServes).mono fun _ => List.mem_append.mpr
  obtain ⟨Q', hSteps, hRelated, hThreads⟩ := hServes.interleaves
  refine ⟨fun k acc hFound => ⟨?_, fun t ht => ?_, fun type uuid hUUID => ?_⟩,
    fun env r a hAuth hType => ?_, ?_⟩
  · exact hLasting.sound.key hFound
  · exact ((hLasting.sound.soundAt hFound).mem ht).1
  · exact (hLasting.plain.account hFound).count_le_one type hUUID
  · rw [LevelDBStorage.run_related hRelated, run_authenticate, hRelated.storage.tables] at hAuth
    exact lapses_of_dated hLasting.dated hAuth hType
  · have hUnderway : Underway srv ⟨J, true⟩ Q' :=
      underway_steps (underway_init fun _ => rfl) hSteps fun _ _ _ hMay => hMay
    rw [← hThreads]
    refine hUnderway.exclusive.next.imp id ?_
    rintro ⟨i, t, c, k, hAt, hRest, hNext⟩
    refine ⟨i, t, c, k, hAt, hRest, ?_⟩
    rw [hRelated.enabled]
    exact World.free_iff.mp hNext

/-- A browser follows the activation link, and the machine goes down before the request
has ended: the accounts are as at the end, the auth requests as at the beginning. -/
def pairingBegins : List (Pool.Move Action) :=
  [.start clientAsks, .call 0, .call 0, .start clientPairs, .call 1, .call 1, .call 1]

def pairingGoesOn : List (Pool.Move Action) := [.call 1, .call 1, .call 1]

def playProcess (moves : List (Pool.Move Action)) (P : ServerProcess) : Option ServerProcess :=
  Pool.play (World.step (LevelDBStorage.call .identity)) (Action.program standard)
    (fun _ _ => true) (fun P c => c.enabled P.state) moves P

theorem serves_of_play {moves : List (Pool.Move Action)} {P Q : ServerProcess}
    (hPlay : playProcess moves P = some Q) : standard.Serves .identity P Q :=
  Pool.steps_of_play (fun _ _ _ => trivial) (fun _ _ _ hMay => hMay) hPlay

/-- The account of one process and the auth requests of the other. -/
def accountsAhead (P Q : ServerProcess) : Stores Storable.Serialized
  | .authRequest => P.files .authRequest
  | .account => Q.files .account
  | .dataStore => Q.files .dataStore

/-- What the next process answers to the browser. -/
def returnsTo (files : Stores Storable.Serialized) : Except HttpError Auth :=
  ((standard.authenticate (.after 2 (.constant 2)) browserReturns).run
    (World.step (LevelDBStorage.call .identity)) (ServerProcess.init { files }).state).1

theorem invariants_survive_machine_down :
    ∃ (past : List Action) (L : LevelDBStorage) (a : Auth), Deploys .identity past L ∧
      returnsTo L.files = .ok a ∧ a.token.type = lit "web" ∧
      ∃ action ∈ past, action.secret = some a.token.token := by
  have hPlays : ((playProcess pairingBegins (.init {})).bind fun P =>
      (playProcess pairingGoesOn P).bind fun Q =>
        (returnsTo (accountsAhead P Q)).toOption.map fun a => a.token.type) = some (lit "web") := by
    decide +kernel
  obtain ⟨P, hBegins, hPlays⟩ := Option.bind_eq_some_iff.mp hPlays
  obtain ⟨Q, hGoesOn, hMap⟩ := Option.bind_eq_some_iff.mp hPlays
  obtain ⟨a, hSome, hWeb⟩ := Option.map_eq_some_iff.mp hMap
  have hAuth : returnsTo (accountsAhead P Q) = .ok a := by
    cases hResult : returnsTo (accountsAhead P Q) with
    | error e => simp [hResult, Except.toOption] at hSome
    | ok a' =>
      rw [hResult] at hSome
      rw [Option.some.inj hSome]
  have hFirst := serves_of_play hBegins
  have hSecond := serves_of_play hGoesOn
  have hDeploys : Deploys .identity ([] ++ Q.actions) { files := accountsAhead P Q } := by
    refine .served [] {} standard Q (accountsAhead P Q) .installed fun τ => ?_
    cases τ with
    | authRequest => exact ⟨P, hFirst, hSecond, rfl⟩
    | account => exact ⟨Q, hFirst.trans hSecond, .refl, rfl⟩
    | dataStore => exact ⟨Q, hFirst.trans hSecond, .refl, rfl⟩
  have hServes : standard.Serves .identity (.init { files := accountsAhead P Q })
    (.init { files := accountsAhead P Q }) := .refl
  obtain ⟨-, hLapse, -⟩ := invariants_survive hDeploys hServes
  have hLogin := hLapse (.after 2 (.constant 2)) browserReturns a hAuth (by rw [hWeb]; decide)
  obtain ⟨action, hMem, hSecret, -⟩ := hLogin.2 hWeb
  -- The second process has not served anything yet.
  have hPast : action ∈ [] ++ Q.actions := by
    rwa [show (ServerProcess.init { files := accountsAhead P Q }).actions = [] from rfl,
      List.append_nil] at hMem
  exact ⟨[] ++ Q.actions, _, a, hDeploys, hAuth, hWeb, action, hPast, hSecret⟩

end Server

end PadlockCloud
