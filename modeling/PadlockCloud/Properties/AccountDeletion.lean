import PadlockCloud.Model.Cli
import PadlockCloud.Properties.Isolation

/-!
# Two ways to delete an account

`Server.DeleteAccount` deletes the data store and the account, and the command
`accounts delete` deletes the account alone. So the two agree exactly if there is
no data store. One that is left behind is handed to whoever registers the email
next.
-/

namespace PadlockCloud

open Process

namespace Server

variable {srv : Server} {b : Backend} {endpoint : Endpoint} {env : Env} {r r' : Request}
  {auth : Option Auth} {a : Auth} {T T' : Tables} {start w : World Tables} {e : GoString}
  {h : Handler} {history : List Action}

/-- `WriteStore` is called for the account `e`. -/
def WritesStore (srv : Server) (b : Backend) (start : World Tables) (e : GoString)
    (history : List Action) : Action → Prop
  | .serve endpoint env r => endpoint.handler r.method = some .writeStore ∧
      ∃ r' a, srv.admitted b endpoint env r
          (Run.after (Action.perform srv b) start history).storage = some (r', some a) ∧
        a.account.email = e
  | .clean _ _ => False

/-- Until the next write for `e`, whatever else happens, each `ReadStore` that is
called for `e` replies with the empty content. -/
def ReadsEmpty (srv : Server) (b : Backend) (start : World Tables) (e : GoString) : Prop :=
  ∀ history w,
    srv.Runs b (fun history action => ¬WritesStore srv b start e history action) [] start
      history w →
    ∀ endpoint env r r' a, endpoint.handler r.method = some .readStore →
      srv.admitted b endpoint env r w.storage = some (r', some a) → a.account.email = e →
      ((srv.serve endpoint env r).run (exec b) w).1 = .ok { body := .bytes [] }

/-- The command `accounts delete`. -/
def cliDeletion (b : Backend) (w : World Tables) (e : GoString) :
    Except CliError CliOutput × World Tables :=
  let (result, T) := (CliCommand.delete e).program.run (CliCall.step b) w.storage
  (result, { w with storage := T })

/-- `Server.DeleteAccount` -/
def serverDeletion (b : Backend) (w : World Tables) (e : GoString) :
    Except HttpError Unit × World Tables := (deleteAccount e).run (exec b) w

/-- Both deletions succeed, leave the same accounts and data stores, and make the
reads for a later account of that email empty. -/
structure DeletionsAgree (srv : Server) (b : Backend) (w : World Tables) (e : GoString) :
    Prop where
  cliResult : (cliDeletion b w e).1 = .ok .nothing
  serverResult : (serverDeletion b w e).1 = .ok ()
  accounts : (cliDeletion b w e).2.storage.accounts = (serverDeletion b w e).2.storage.accounts
  dataStores : (cliDeletion b w e).2.storage.dataStores =
    (serverDeletion b w e).2.storage.dataStores
  cliReads : ReadsEmpty srv b (cliDeletion b w e).2 e
  serverReads : ReadsEmpty srv b (serverDeletion b w e).2 e

/-! ## The deletions -/

theorem cliDeletion_eq (hEmail : e ≠ []) (w : World Tables) :
    cliDeletion b w e = (.ok .nothing, { w with storage := w.storage.putAccount e none }) := by
  rw [cliDeletion, CliCommand.program, Cli.run_deleteAccount hEmail]

theorem serverDeletion_eq (w : World Tables) (e : GoString) :
    serverDeletion b w e =
      (.ok (), { w with storage := (w.storage.putDataStore e none).putAccount e none }) := rfl

/-! ## Nothing comes back without a write -/

theorem Effect.data_none (hEffect : Effect srv b env r auth T h T')
    (hNone : T.dataStores e = none)
    (hWrite : h = .writeStore → ∀ a, auth = some a → a.account.email ≠ e) :
    T'.dataStores e = none := by
  cases hEffect with
  | written a hAuth =>
    have hOther : e ≠ a.account.email := fun hSame => hWrite rfl a hAuth hSame.symm
    exact (Function.update_of_ne hOther _ _).trans hNone
  | reset a =>
    by_cases hSame : e = a.account.email
    · subst hSame
      exact Function.update_self _ _ _
    · exact (Function.update_of_ne hSame _ _).trans hNone
  | deleted a =>
    by_cases hSame : e = a.token.email
    · subst hSame
      exact Function.update_self _ _ _
    · exact (Function.update_of_ne hSame _ _).trans hNone
  | _ => exact hNone

theorem perform_data_none {action : Action} (hNone : w.storage.dataStores e = none)
    (hWorld : w = Run.after (Action.perform srv b) start history)
    (hWrite : ¬WritesStore srv b start e history action) :
    (action.perform srv b w).storage.dataStores e = none := by
  cases action with
  | clean now keys =>
    rw [(clean_effect srv b now keys w).2.1]
    exact hNone
  | serve endpoint env r =>
    obtain ⟨T, hT, hEnd⟩ := serve_effect srv b endpoint env r w
    have hFirst : T.dataStores e = none := by
      rcases hT with rfl | rfl
      · exact hNone
      · rwa [authTables_dataStores]
    show ((srv.serve endpoint env r).run (exec b) w).2.storage.dataStores e = none
    rcases hEnd with hSame | ⟨r', auth, h, hAdmitted, hHandler, -, hEffect⟩
    · rw [hSame]
      exact hFirst
    · refine hEffect.data_none hFirst ?_
      rintro rfl a rfl hKey
      exact hWrite ⟨hHandler, r', a, hWorld ▸ hAdmitted, hKey⟩

/-- A read of a missing data store is empty. -/
theorem read_missing (hHandler : endpoint.handler r.method = some .readStore)
    (hAdmitted : srv.admitted b endpoint env r w.storage = some (r', some a))
    (hNone : w.storage.dataStores a.account.email = none) :
    ((srv.serve endpoint env r).run (exec b) w).1 = .ok { body := .bytes [] } := by
  obtain ⟨h, hFound, hMethod⟩ := admitted_handler hAdmitted
  have hMissing : (srv.entered b env r w).storage.dataStores a.account.email = none := by
    rw [entered]
    dsimp only
    rw [authTables_dataStores, hNone]
  rw [serve, wrapEndpoint, run_wrap_admitted hAdmitted,
    Endpoint.handle_eq (h := .readStore) (by rwa [hMethod]), Handler.handle, run_readStore,
    hMissing]
  rfl

theorem readsEmpty_of_none (hNone : start.storage.dataStores e = none) :
    ReadsEmpty srv b start e := by
  intro history w hRun endpoint env r r' a hHandler hAdmitted hKey
  have hKeep : w = Run.after (Action.perform srv b) start history ∧
      w.storage.dataStores e = none := by
    refine Run.invariant (I := fun history w => w = Run.after (Action.perform srv b) start history ∧
      w.storage.dataStores e = none) hRun ⟨rfl, hNone⟩ ?_
    rintro history w action ⟨hWorld, hNone⟩ hWrite
    refine ⟨?_, perform_data_none hNone hWorld hWrite⟩
    rw [hWorld, Run.after, Run.after, List.foldr_cons]
  exact read_missing hHandler hAdmitted (hKey ▸ hKeep.2)

/-- The two deletions agree exactly if the email has no data store. -/
theorem deletions_agree_iff (srv : Server) (b : Backend) (w : World Tables) (hEmail : e ≠ []) :
    DeletionsAgree srv b w e ↔ w.storage.dataStores e = none := by
  constructor
  · intro hAgree
    have hSame := congrFun hAgree.dataStores e
    rw [cliDeletion_eq hEmail, serverDeletion_eq] at hSame
    exact hSame.trans (Function.update_self _ _ _)
  · intro hNone
    have hData : (w.storage.putDataStore e none).dataStores = w.storage.dataStores := by
      rw [Tables.putDataStore, ← hNone, Function.update_eq_self]
    refine ⟨?_, rfl, ?_, ?_, ?_, ?_⟩
    · rw [cliDeletion_eq hEmail]
    · rw [cliDeletion_eq hEmail]
      rfl
    · rw [cliDeletion_eq hEmail]
      exact hData.symm
    · rw [cliDeletion_eq hEmail]
      exact readsEmpty_of_none hNone
    · exact readsEmpty_of_none (Function.update_self _ _ _)

/-- A user without a data store. -/
def emptyHanded : World Tables := { storage := Tables.ofAccount { email := lit "e@x.io" } }

theorem deletions_agree_emptyHanded : DeletionsAgree standard .levelDB emptyHanded (lit "e@x.io") :=
  (deletions_agree_iff standard .levelDB emptyHanded (by decide)).mpr rfl

/-! ## The data of a deleted user

The operator deletes an account that has data. The next one to register the email
reads that data. -/

def withData : World Tables :=
  { storage := (Tables.ofAccount { email := lit "e@x.io" }).putDataStore (lit "e@x.io")
      (some (lit "data")) }

def readData : Request :=
  clientRequest (lit "GET")
    ({ email := lit "e@x.io", token := Random.tokenString (Random.constant 0).secret } :
      AuthToken).toGoString [] []

/-- The world in which the email has been registered anew. -/
def registeredAnew : World Tables :=
  Run.after (Action.perform standard .levelDB) (cliDeletion .levelDB withData (lit "e@x.io")).2
    [clientPairs, clientAsks]

theorem deletions_disagree :
    ¬∀ (srv : Server) (b : Backend) (w : World Tables) (e : GoString), e ≠ [] →
      DeletionsAgree srv b w e := by
  intro hAll
  have hReads := (hAll standard .levelDB withData (lit "e@x.io") (by decide)).cliReads
  have hRun := hReads [clientPairs, clientAsks] registeredAnew
    (.step (.step .refl fun hWrite => absurd hWrite.1 (by decide))
      fun hWrite => absurd hWrite.1 (by decide))
  have hAdmitted : (standard.admitted .levelDB (servedAt (lit "/store/")) (.after 2 (.constant 2))
      readData registeredAnew.storage).map (fun p => p.2.map fun a => a.account.email) =
        some (some (lit "e@x.io")) := by decide +kernel
  obtain ⟨⟨r', auth⟩, hSome, hAuth⟩ := Option.map_eq_some_iff.mp hAdmitted
  obtain ⟨a, rfl, hEmail⟩ := Option.map_eq_some_iff.mp hAuth
  have hReply := hRun _ _ _ r' a (by decide) hSome hEmail
  have hData : ((standard.serve (servedAt (lit "/store/")) (.after 2 (.constant 2)) readData).run
      (exec .levelDB) registeredAnew).1 = .ok { body := .bytes (lit "data") } := by decide +kernel
  rw [hData] at hReply
  revert hReply
  decide

end Server

end PadlockCloud
