import PadlockCloud.Model.Cli
import PadlockCloud.Properties.Provenance
import PadlockCloud.Request.Succession

/-!
# Live tokens

Every operation that writes an account writes the whole record. Of the tokens
that were in it, a request takes away the one that logs out, those that an
activation replaces, and those that have become outdated. The command
`accounts create` writes a blank account, so it takes away all of them if the
account exists already.
-/

namespace PadlockCloud

open Process

/-- A request, a cleanup job, or a command of the operator. -/
inductive Operation where
  | http (action : Action)
  | cli (command : CliCommand)

def Operation.perform (srv : Server) (b : Backend) : Operation → World Tables → World Tables
  | .http action, w => action.perform srv b w
  | .cli command, w =>
    { w with storage := (command.program.run (CliCall.step b) w.storage).2 }

/-- No account is created for an email that JSON does not store as it is. -/
def Operation.plain (b : Backend) : Operation → Prop
  | .cli (.create _ email) => b.json.coerce email = email
  | _ => True

/-- And none where there is one that has tokens. -/
def Operation.spares (srv : Server) (b : Backend) (start : World Tables)
    (history : List Operation) (op : Operation) : Prop :=
  op.plain b ∧ ∀ now email acc, op = .cli (.create now email) →
    (Run.after (Operation.perform srv b) start history).storage.accounts email = some acc →
      acc.authTokens = []

namespace Server

variable {srv : Server} {b : Backend} {endpoint : Endpoint} {env : Env} {r r' : Request}
  {auth : Option Auth} {a : Auth} {T T' : Tables} {w w' start : World Tables} {e k : GoString}
  {acc acc' : Account} {ar : AuthRequest} {op : Operation} {past history : List Operation}
  {s t u pattern : AuthToken} {h : Handler}

/-- The reasons for which an operation takes the token `t` from the account `e`. -/
inductive Loses (srv : Server) (b : Backend) (w : World Tables) (e : GoString) (t : AuthToken) :
    Operation → Prop where
  | loggedOut (endpoint : Endpoint) (env : Env) (r r' : Request) (a : Auth)
      (hHandler : endpoint.handler r.method = some .logout)
      (hAdmitted : srv.admitted b endpoint env r w.storage = some (r', some a))
      (hAccount : a.account.email = e) (hToken : SameToken a.token t) :
      Loses srv b w e t (.http (.serve endpoint env r))
  | replaced (endpoint : Endpoint) (env : Env) (r r' : Request) (auth : Option Auth)
      (added : List AuthToken) (new : AuthToken)
      (hHandler : endpoint.handler r.method = some .activateAuthToken)
      (hAdmitted : srv.admitted b endpoint env r w.storage = some (r', auth))
      (hAdds : Adds srv env r w.storage e .activateAuthToken added) (hNew : new ∈ added)
      (hType : t.type = new.type) (hDevice : t.deviceUUID ≠ [])
      (hSame : t.deviceUUID = new.deviceUUID) :
      Loses srv b w e t (.http (.serve endpoint env r))
  | pruned (endpoint : Endpoint) (env : Env) (r : Request) (a : Auth)
      (hAuth : srv.authenticated b env r w.storage = .ok a) (hAccount : a.account.email = e)
      (hOutdated : Account.Outdated env.now t) :
      Loses srv b w e t (.http (.serve endpoint env r))
  | deleted (endpoint : Endpoint) (env : Env) (r r' : Request) (a : Auth)
      (hHandler : endpoint.handler r.method = some .deleteAccount)
      (hAdmitted : srv.admitted b endpoint env r w.storage = some (r', some a))
      (hAccount : a.token.email = e) : Loses srv b w e t (.http (.serve endpoint env r))
  | erased : Loses srv b w e t (.cli (.delete e))

/-- The token `t` of the account `e` has been taken away by an operation that was
performed after `past`. -/
def LostSince (srv : Server) (b : Backend) (start : World Tables) (past history : List Operation)
    (e : GoString) (t : AuthToken) : Prop :=
  ∃ op before acc s, op :: before <:+ history ∧ past <:+ before ∧
    (Run.after (Operation.perform srv b) start before).storage.accounts e = some acc ∧
    some s ∈ acc.authTokens ∧ SameToken s t ∧
    Loses srv b (Run.after (Operation.perform srv b) start before) e s op

/-- The account `e` still has the token. -/
def StillHas (w : World Tables) (e : GoString) (t : AuthToken) : Prop :=
  ∃ acc s, w.storage.accounts e = some acc ∧ some s ∈ acc.authTokens ∧ SameToken s t

/-! ## The handlers -/

/-- The token that a logout removes is the one that it is authenticated with. -/
theorem succeeds_of_authenticated (hSound : T.Sound b.json) (hIds : T.Identified)
    (hAuth : srv.authenticated b env r T = .ok a) (hs : some s ∈ a.account.authTokens)
    (hCovers : a.token.covers s = true) : a.token.Succeeds s := by
  obtain ⟨hEmail, hIssued⟩ := (authenticated_sound hSound hAuth).account.mem hs
  have hTokenEmail := (authenticated_sound hSound hAuth).token
  obtain ⟨t, acc, a₀, -, hFound, hAccepted, rfl⟩ := authenticated_ok hAuth
  rcases hAccepted.token with ⟨hSkeleton, -, -, hEq⟩ | ⟨-, u, hu, -, -, hEq⟩
  · have hType := (Account.covers_iff.mp hCovers).1
    simp only [hEq, AuthToken.refreshed, hSkeleton] at hType
    exact absurd (hType.resolve_left (by decide)) hIssued.type_ne_skeleton
  · have hStored := ((hSound.soundAt hFound).mem hu).2
    refine Account.succeeds_of_covers hCovers (hTokenEmail.trans hEmail.symm) ?_ ?_ ?_
    · rw [hEq]
      exact hStored.token_ne_nil
    · rw [hEq]
      exact hStored.type_ne_nil
    · have hId : u.id ≠ [] := hIds.account hFound hu
      rw [hEq]
      exact hId

/-- A revocation hands on every token. -/
theorem handsOn_revoked {now : Time} {J : Json} (hAccount : acc.Sound J k)
    (hIds : ∀ s, some s ∈ acc.authTokens → s.id ≠ [])
    (hRevoked : Server.revoked now acc pattern = some (t, acc')) : acc.HandsOn acc' := by
  obtain ⟨⟨i, s⟩, hFind, hPair⟩ := Option.map_eq_some_iff.mp hRevoked
  obtain ⟨rfl, rfl⟩ := Prod.mk.inj hPair
  obtain ⟨hAt, -⟩ := Account.findAuthToken_eq_some hFind
  have hMem := List.mem_of_getElem? hAt
  obtain ⟨hEmail, hIssued⟩ := hAccount.mem hMem
  have hSet : acc.HandsOn
      { acc with authTokens := acc.authTokens.set i (some { s with expires := now - Time.minute }) } :=
    Account.handsOn_set hAt ⟨rfl, rfl, rfl, rfl, .inl rfl⟩
  intro u hu
  refine (hSet u hu).handsOn (Account.handsOn_updateAuthToken fun v hv hCovers => ?_)
  refine Account.succeeds_of_covers hCovers ?_ hIssued.token_ne_nil hIssued.type_ne_nil (hIds s hMem)
  rcases List.mem_or_eq_of_mem_set hv with hOld | hNew
  · exact hEmail.trans (hAccount.mem hOld).1.symm
  · rw [Option.some.inj hNew]

theorem holds_storeAccount {now : Time} (hHolds : acc.Holds t) (hKey : acc.email = k)
    (hFixed : t.marshal b.json = t) :
    ∃ acc', (T.storeAccount b now acc).accounts k = some acc' ∧ acc'.Holds t :=
  ⟨_, hKey ▸ T.storeAccount_self b now acc, hHolds.stored hFixed now⟩

/-! ## One operation -/

theorem SameToken.of_succeeds (hSucceeds : s.Succeeds t) : SameToken s t :=
  ⟨hSucceeds.email, hSucceeds.token, hSucceeds.type, hSucceeds.id⟩

section Handling

variable (hSound : w.storage.Sound b.json) (hIds : w.storage.Identified)
  (hFound : w.storage.accounts e = some acc) (ht : some t ∈ acc.authTokens)

include hSound hIds hFound ht

/-- What `Authenticate` leaves of the token `t`. -/
theorem left_holds : Loses srv b w e t (.http (.serve endpoint env r)) ∨
    ∃ acc', (authTables b w.storage (srv.authenticated b env r w.storage)).accounts e =
      some acc' ∧ acc'.Holds t := by
  refine (authTables_holds hSound hIds hFound ht).imp ?_ id
  rintro ⟨a, hAuth, hKey, hOutdated⟩
  exact .pruned endpoint env r a hAuth hKey hOutdated

/-- The account that a handler gets has the token too. -/
theorem own_holds {a : Auth} (hAuth : srv.authenticated b env r w.storage = .ok a)
    (hKey : e = a.account.email) :
    Loses srv b w e t (.http (.serve endpoint env r)) ∨ a.account.Holds t := by
  rw [hKey] at hFound
  refine (authenticated_holds hSound hIds hAuth hFound ht).imp (fun hOutdated => ?_) id
  exact .pruned endpoint env r a hAuth hKey.symm hOutdated

/-- What is left after the handler has stored its account with another content. -/
theorem storeAccount_holds {a : Auth} {acc' : Account}
    (hAuth : srv.authenticated b env r w.storage = .ok a) (hEmail : acc'.email = a.account.email)
    (hKeeps : e = a.account.email → a.account.Holds t →
      Loses srv b w e t (.http (.serve endpoint env r)) ∨ acc'.Holds t) :
    Loses srv b w e t (.http (.serve endpoint env r)) ∨
      ∃ acc'', ((authTables b w.storage (srv.authenticated b env r w.storage)).storeAccount b env.now
        acc').accounts e = some acc'' ∧ acc''.Holds t := by
  have hFixed := Account.marshal_token (hSound.account hFound) ht
  by_cases hKey : e = a.account.email
  · have hOwn : Loses srv b w e t (.http (.serve endpoint env r)) ∨ a.account.Holds t :=
      own_holds hSound hIds hFound ht hAuth hKey
    rcases hOwn with hLost | hHolds
    · exact .inl hLost
    · exact (hKeeps hKey hHolds).imp id fun hStill =>
        holds_storeAccount hStill (hEmail.trans hKey.symm) hFixed
  · refine (left_holds hSound hIds hFound ht).imp id ?_
    rintro ⟨acc₁, hFound₁, hHolds₁⟩
    exact ⟨acc₁, (Tables.storeAccount_of_ne (hEmail ▸ hKey)).trans hFound₁, hHolds₁⟩

omit hIds hFound ht in
/-- An activation that revokes the token is an excuse. -/
theorem loses_of_revokes {added : List AuthToken} {new : AuthToken}
    (hAdmitted : srv.admitted b endpoint env r w.storage = some (r', auth))
    (hHandler : endpoint.handler r.method = some .activateAuthToken)
    (hAdds : Adds srv env r w.storage e .activateAuthToken added) (hNew : new ∈ added)
    (hRevokes : Account.revokes new t = true) :
    Loses srv b w e t (.http (.serve endpoint env r)) := by
  obtain ⟨hType, hUUID, hSame⟩ := Account.revokes_iff_device.mp hRevokes
  have hIssued := ((hAdds.issued hSound).2 new hNew).2
  exact .replaced endpoint env r r' auth added new hHandler hAdmitted hAdds hNew
    (hType.resolve_left hIssued.type_ne_nil) (hSame ▸ hUUID) hSame

omit hIds hFound ht in
/-- What one activation leaves of the token, if it was left till then. -/
theorem activation_holds {T : Tables} {ar : AuthRequest} {added : List AuthToken}
    (hAdmitted : srv.admitted b endpoint env r w.storage = some (r', auth))
    (hHandler : endpoint.handler r.method = some .activateAuthToken)
    (hAdds : e = ar.authToken.email → Adds srv env r w.storage e .activateAuthToken added)
    (hNew : ar.authToken ∈ added) (hKept : T.Kept b.json)
    (hBefore : Loses srv b w e t (.http (.serve endpoint env r)) ∨
      ∃ acc₁, T.accounts e = some acc₁ ∧ acc₁.Holds t) :
    Loses srv b w e t (.http (.serve endpoint env r)) ∨
      ∃ acc', (activateTables b env ar T).accounts e = some acc' ∧ acc'.Holds t := by
  rcases hBefore with hLost | ⟨acc₁, hFound₁, hHolds₁⟩
  · exact .inl hLost
  refine (activateTables_holds hKept hFound₁ hHolds₁).imp ?_ id
  rintro ⟨hKey, hRevokes⟩
  exact loses_of_revokes hSound hAdmitted hHandler (hAdds hKey) hNew hRevokes

/-- A logout takes away the token that it is authenticated with. -/
theorem loggedOut_holds {a : Auth}
    (hAdmitted : srv.admitted b endpoint env r w.storage = some (r', some a))
    (hHandler : endpoint.handler r.method = some .logout) :
    Loses srv b w e t (.http (.serve endpoint env r)) ∨
      ∃ acc', ((authTables b w.storage (srv.authenticated b env r w.storage)).storeAccount b env.now
        (a.account.removeAuthToken a.token).1).accounts e = some acc' ∧ acc'.Holds t := by
  have hAuth := admitted_some hAdmitted
  refine storeAccount_holds hSound hIds hFound ht hAuth
    (Account.within_removeAuthToken a.account a.token 0).email fun hKey hHolds => ?_
  obtain ⟨s, hs, hSucceeds⟩ := hHolds
  have hRemove : a.token.covers s = true ∨ (a.account.removeAuthToken a.token).1.Holds s :=
    Account.holds_removeAuthToken hs
  rcases hRemove with hCovers | ⟨u, hu, hus⟩
  · have hToken := succeeds_of_authenticated hSound hIds hAuth hs hCovers
    exact .inl (.loggedOut endpoint env r r' a hHandler hAdmitted hKey.symm
      (.of_succeeds (hToken.trans hSucceeds)))
  · exact .inr ⟨u, hu, hus.trans hSucceeds⟩

/-- A revocation takes no token away. -/
theorem revoked_holds {a : Auth} {pattern v : AuthToken} {acc' : Account}
    (hAdmitted : srv.admitted b endpoint env r w.storage = some (r', some a))
    (hRevoked : Server.revoked env.now a.account pattern = some (v, acc')) :
    Loses srv b w e t (.http (.serve endpoint env r)) ∨
      ∃ acc'', ((authTables b w.storage (srv.authenticated b env r w.storage)).storeAccount b
        env.now acc').accounts e = some acc'' ∧ acc''.Holds t := by
  have hAuth := admitted_some hAdmitted
  obtain ⟨-, -, -, -, -, -, hEmail, -⟩ := Account.revoked_eq env.now_epoch hRevoked
  refine storeAccount_holds hSound hIds hFound ht hAuth hEmail fun hKey hHolds => ?_
  refine .inr (hHolds.handsOn (handsOn_revoked (authenticated_sound hSound hAuth).account
    (fun s hs => ?_) hRevoked))
  obtain ⟨t, acc₀, -, hStored, hWithin, -⟩ := authenticated_within hSound hAuth
  obtain ⟨u, hu, hRefreshes⟩ := hWithin.tokens s hs
  rw [hRefreshes.id]
  exact hIds.account hStored hu

/-- What a handler leaves of the token `t`, from the tables `w.storage` before
`Authenticate`. -/
theorem Effect.holds
    (hEffect : Effect srv b env r' auth
      (authTables b w.storage (srv.authenticated b env r w.storage)) h T')
    (hAdmitted : srv.admitted b endpoint env r w.storage = some (r', auth))
    (hHandler : endpoint.handler r.method = some h) :
    Loses srv b w e t (.http (.serve endpoint env r)) ∨
      ∃ acc', T'.accounts e = some acc' ∧ acc'.Holds t := by
  have hFirst : Loses srv b w e t (.http (.serve endpoint env r)) ∨
      ∃ acc', (authTables b w.storage (srv.authenticated b env r w.storage)).accounts e =
        some acc' ∧ acc'.Holds t := left_holds hSound hIds hFound ht
  have hKept : (authTables b w.storage (srv.authenticated b env r w.storage)).Kept b.json :=
    kept_authTables hSound.toKept
  cases hEffect with
  | activated pattern ar hPattern hPending =>
    rw [admitted_pattern hAdmitted] at hPattern
    rw [authTables_authRequests] at hPending
    exact activation_holds hSound hAdmitted hHandler
      (fun hKey => .activated pattern ar hPattern hPending hKey.symm) List.mem_cons_self hKept hFirst
  | paired pattern ar login hPattern hPending hLogin hNew =>
    rw [admitted_pattern hAdmitted] at hPattern
    rw [authTables_authRequests] at hPending
    have hAdds {k : GoString} (hKey : k = ar.authToken.email) :
        Adds srv env r w.storage k .activateAuthToken [ar.authToken, login.authToken] :=
      .paired pattern ar login hPattern hPending hKey.symm hLogin hNew
    have hSecond := activation_holds hSound hAdmitted hHandler hAdds List.mem_cons_self hKept hFirst
    exact activation_holds hSound hAdmitted hHandler
      (fun hKey => hAdds (hKey.trans (newAuthRequest_email hNew)))
      (List.mem_cons_of_mem _ List.mem_cons_self)
      (kept_activateTables hKept (hSound.request_email hPending)) hSecond
  | deleted a hSome =>
    subst hSome
    by_cases hKey : e = a.token.email
    · exact .inl (.deleted endpoint env r r' a hHandler hAdmitted hKey.symm)
    · refine hFirst.imp id ?_
      rintro ⟨acc₁, hFound₁, hHolds₁⟩
      exact ⟨acc₁, (Function.update_of_ne hKey _ _).trans hFound₁, hHolds₁⟩
  | loggedOut a hSome =>
    subst hSome
    exact loggedOut_holds hSound hIds hFound ht hAdmitted hHandler
  | revoked a pattern v acc' hSome hRevoked =>
    subst hSome
    exact revoked_holds hSound hIds hFound ht hAdmitted hRevoked
  | _ => exact hFirst

end Handling

theorem perform_holds {action : Action} (hSound : w.storage.Sound b.json)
    (hIds : w.storage.Identified) (hFound : w.storage.accounts e = some acc)
    (ht : some t ∈ acc.authTokens) :
    Loses srv b w e t (.http action) ∨
      ∃ acc', (action.perform srv b w).storage.accounts e = some acc' ∧ acc'.Holds t := by
  cases action with
  | clean now keys =>
    refine .inr ⟨acc, ?_, .of_mem ht⟩
    rw [(clean_effect srv b now keys w).1]
    exact hFound
  | serve endpoint env r =>
    obtain ⟨T, hT, hEnd⟩ := serve_effect srv b endpoint env r w
    have hLeft : Loses srv b w e t (.http (.serve endpoint env r)) ∨
        ∃ acc', ((srv.serve endpoint env r).run (exec b) w).2.storage.accounts e = some acc' ∧
          acc'.Holds t := by
      rcases hEnd with hSame | ⟨r', auth, h, hAdmitted, hHandler, rfl, hEffect⟩
      · rw [hSame]
        rcases hT with rfl | rfl
        · exact .inr ⟨acc, hFound, .of_mem ht⟩
        · exact left_holds hSound hIds hFound ht
      · exact hEffect.holds hSound hIds hFound ht hAdmitted hHandler
    exact hLeft

/-! ## Commands -/

/-- What a command does to the tables: nothing, or it puts a blank account, or it
deletes one. -/
theorem command_tables (command : CliCommand) (T : Tables) :
    (command.program.run (CliCall.step b) T).2 = T ∨
      (∃ now email, command = .create now email ∧
        (command.program.run (CliCall.step b) T).2 =
          T.putAccount email (some ((b.prepare now { email }).marshal b.json))) ∨
      ∃ email, command = .delete email ∧
        (command.program.run (CliCall.step b) T).2 = T.putAccount email none := by
  cases command with
  | list keys => exact .inl (by rw [CliCommand.program, Cli.run_listAccounts])
  | display email => exact .inl (by rw [CliCommand.program, Cli.run_displayAccount])
  | create now email =>
    by_cases hEmail : email = []
    · exact .inl (by simp [CliCommand.program, Cli.createAccount, Cli.requireEmail, hEmail])
    · rw [CliCommand.program, Cli.run_createAccount hEmail]
      exact .inr (.inl ⟨now, email, rfl, rfl⟩)
  | delete email =>
    by_cases hEmail : email = []
    · exact .inl (by simp [CliCommand.program, Cli.deleteAccount, Cli.requireEmail, hEmail])
    · rw [CliCommand.program, Cli.run_deleteAccount hEmail]
      exact .inr (.inr ⟨email, rfl, rfl⟩)

/-- The account after a command: it is as before, or blank, or deleted. -/
theorem command_account (command : CliCommand) (T : Tables) (e : GoString) :
    (command.program.run (CliCall.step b) T).2.accounts e = T.accounts e ∨
      (∃ now, command = .create now e ∧
        (command.program.run (CliCall.step b) T).2.accounts e =
          some ((b.prepare now { email := e }).marshal b.json)) ∨
      (command = .delete e ∧ (command.program.run (CliCall.step b) T).2.accounts e = none) := by
  rcases command_tables (b := b) command T with hSame | ⟨now, email, rfl, hPut⟩ |
    ⟨email, rfl, hDeleted⟩
  · exact .inl (by rw [hSame])
  · rw [hPut]
    by_cases hKey : e = email
    · subst hKey
      exact .inr (.inl ⟨now, rfl, Function.update_self _ _ _⟩)
    · exact .inl (Function.update_of_ne hKey _ _)
  · rw [hDeleted]
    by_cases hKey : e = email
    · subst hKey
      exact .inr (.inr ⟨rfl, Function.update_self _ _ _⟩)
    · exact .inl (Function.update_of_ne hKey _ _)

/-- A command changes nothing but accounts. -/
theorem command_authRequests (command : CliCommand) (T : Tables) :
    (command.program.run (CliCall.step b) T).2.authRequests = T.authRequests := by
  rcases command_tables (b := b) command T with hSame | ⟨now, email, -, hPut⟩ | ⟨email, -, hDeleted⟩
  · rw [hSame]
  · rw [hPut]
    rfl
  · rw [hDeleted]
    rfl

/-- An account after a command was there before, or it has no tokens. -/
theorem command_stored {command : CliCommand} {T : Tables} (hPlain : (Operation.cli command).plain b)
    (hFound : (command.program.run (CliCall.step b) T).2.accounts k = some acc) :
    T.accounts k = some acc ∨
      (acc.authTokens = [] ∧ acc.email = k ∧ acc.marshal b.json = acc) := by
  rcases command_account command T k with hSame | ⟨now, rfl, hCreated⟩ | ⟨-, hDeleted⟩
  · exact .inl (hSame ▸ hFound)
  · obtain rfl := Option.some.inj (hCreated.symm.trans hFound)
    have hEmail : b.json.coerce k = k := hPlain
    refine .inr ⟨by simp [Account.marshal], ?_, Account.marshal_marshal _⟩
    rw [Account.marshal]
    dsimp only
    rw [Backend.prepare_email, hEmail]
  · rw [hDeleted] at hFound
    cases hFound

theorem sound_command {command : CliCommand} {T : Tables} (hPlain : (Operation.cli command).plain b)
    (hSound : T.Sound b.json) :
    (command.program.run (CliCall.step b) T).2.Sound b.json where
  key hFound := by
    rcases command_stored hPlain hFound with hOld | ⟨-, hKey, -⟩
    · exact hSound.key hOld
    · exact hKey
  account hFound := by
    rcases command_stored hPlain hFound with hOld | ⟨-, -, hFixed⟩
    · exact hSound.account hOld
    · exact hFixed
  authRequest hFound := by
    rw [command_authRequests] at hFound
    exact hSound.authRequest hFound
  tokens hFound o ho := by
    rcases command_stored hPlain hFound with hOld | ⟨hNil, -, -⟩
    · exact hSound.tokens hOld o ho
    · rw [hNil] at ho
      cases ho
  issued hFound := by
    rw [command_authRequests] at hFound
    exact hSound.issued hFound

theorem identified_command {command : CliCommand} {T : Tables}
    (hPlain : (Operation.cli command).plain b) (hIds : T.Identified) :
    (command.program.run (CliCall.step b) T).2.Identified where
  account hFound ht := by
    rcases command_stored hPlain hFound with hOld | ⟨hNil, -, -⟩
    · exact hIds.account hOld ht
    · rw [hNil] at ht
      cases ht
  request hFound := by
    rw [command_authRequests] at hFound
    exact hIds.request hFound

/-! ## Runs -/

/-- What is needed of the tables holds in every run with plain commands. -/
theorem sound_operations {allowed : List Operation → Operation → Prop}
    (hPlain : ∀ history op, allowed history op → op.plain b)
    (hRun : Run (Operation.perform srv b) allowed past w history w')
    (hSound : w.storage.Sound b.json ∧ w.storage.Identified) :
    w'.storage.Sound b.json ∧ w'.storage.Identified := by
  refine Run.invariant (I := fun _ w => w.storage.Sound b.json ∧ w.storage.Identified) hRun hSound ?_
  rintro history w op ⟨hSound, hIds⟩ hAllowed
  cases op with
  | http action => exact ⟨sound_perform action hSound, identified_perform action hSound hIds⟩
  | cli command =>
    have hCommand := hPlain _ _ hAllowed
    exact ⟨sound_command hCommand hSound, identified_command hCommand hIds⟩

/-- An operation keeps a token or has a reason to take it. -/
theorem operation_holds (hSound : w.storage.Sound b.json) (hIds : w.storage.Identified)
    (hSpares : ∀ now email acc, op = .cli (.create now email) →
      w.storage.accounts email = some acc → acc.authTokens = [])
    (hFound : w.storage.accounts e = some acc) (ht : some t ∈ acc.authTokens) :
    Loses srv b w e t op ∨
      ∃ acc', (op.perform srv b w).storage.accounts e = some acc' ∧ acc'.Holds t := by
  cases op with
  | http action => exact perform_holds hSound hIds hFound ht
  | cli command =>
    rcases command_account (b := b) command w.storage e with hSame | ⟨now, rfl, -⟩ | ⟨rfl, -⟩
    · exact .inr ⟨acc, hSame.trans hFound, .of_mem ht⟩
    · rw [hSpares now e acc rfl hFound] at ht
      cases ht
    · exact .inl .erased

/-- In every run from reachable storage, a token of an account stays in it unless an
operation has taken it for one of the reasons. The commands must not create an
account that has tokens already. -/
theorem token_kept (hStart : start.storage = .empty)
    (hReach : Run (Operation.perform srv b) (fun _ op => op.plain b) [] start past w)
    (hRun : Run (Operation.perform srv b) (Operation.spares srv b start) past w history w')
    (hFound : w.storage.accounts e = some acc) (ht : some t ∈ acc.authTokens) :
    StillHas w' e t ∨ LostSince srv b start past history e t := by
  have hEmpty : start.storage.Sound b.json ∧ start.storage.Identified := by
    rw [hStart]
    exact ⟨.empty, .empty⟩
  have hWorld := sound_operations (fun _ _ hPlain => hPlain) hReach hEmpty
  induction hRun with
  | refl => exact .inl ⟨acc, t, hFound, ht, rfl, rfl, rfl, rfl⟩
  | @step history v op hRun hSpares ih =>
    have hAll : Run (Operation.perform srv b) (fun _ op => op.plain b) [] start history v :=
      hReach.trans (hRun.mono fun _ _ h => h.1)
    obtain ⟨hSound, hIds⟩ := sound_operations (fun _ _ hPlain => hPlain) hAll hEmpty
    have hAfter := hAll.eq_after
    rcases ih with ⟨acc₁, s, hFound₁, hs, hSame⟩ | ⟨op', before, acc₁, s, hSuffix, hRest⟩
    · rcases operation_holds hSound hIds (hAfter ▸ hSpares.2) hFound₁ hs with
        hLoses | ⟨acc₂, hFound₂, u, hu, hSucceeds⟩
      · rw [hAfter] at hFound₁ hLoses
        exact .inr ⟨op, history, acc₁, s, List.suffix_refl _, hRun.suffix, hFound₁, hs, hSame, hLoses⟩
      · exact .inl ⟨acc₂, u, hFound₂, hu, (SameToken.of_succeeds hSucceeds).trans hSame⟩
    · exact .inr ⟨op', before, acc₁, s, hSuffix.trans (List.suffix_cons _ _), hRest⟩

/-- The client has asked for a token and followed the link. -/
def pairing : List Operation := [.http clientPairs, .http clientAsks]

def clientPaired : World Tables := Run.after (Operation.perform standard .levelDB) freshWorld pairing

/-- The account of the paired client. -/
theorem paired_token : ∃ acc t, clientPaired.storage.accounts (lit "e@x.io") = some acc ∧
    some t ∈ acc.authTokens := by
  obtain ⟨acc, hFound, hHead⟩ := Option.map_eq_some_iff.mp
    (show (clientPaired.storage.accounts (lit "e@x.io")).map
      (fun acc => acc.authTokens.head?.join.isSome) = some true by decide +kernel)
  obtain ⟨t, ht⟩ := Option.isSome_iff_exists.mp hHead
  exact ⟨acc, t, hFound, List.mem_of_mem_head? (Option.join_eq_some_iff.mp ht)⟩

/-- Every string is stored as it is. -/
theorem plain_levelDB (op : Operation) : op.plain .levelDB := by
  rcases op with action | command
  · trivial
  · cases command <;> trivial

/-- The operator creates an account for someone else. -/
def createsOther : Operation := .cli (.create 2 (lit "f@x.io"))

theorem token_kept_created : ∃ acc t, clientPaired.storage.accounts (lit "e@x.io") = some acc ∧
    some t ∈ acc.authTokens ∧
    (StillHas (createsOther.perform standard .levelDB clientPaired) (lit "e@x.io") t ∨
      LostSince standard .levelDB freshWorld pairing (createsOther :: pairing) (lit "e@x.io") t) := by
  obtain ⟨acc, t, hFound, ht⟩ := paired_token
  refine ⟨acc, t, hFound, ht, ?_⟩
  have hPaired : Run (Operation.perform standard .levelDB) (fun _ op => op.plain .levelDB) []
      freshWorld pairing clientPaired :=
    Run.to_after (fun _ op => plain_levelDB op) freshWorld pairing
  refine token_kept rfl hPaired (.step .refl ⟨rfl, ?_⟩) hFound ht
  intro now email acc hOp hOther
  obtain ⟨-, rfl⟩ := CliCommand.create.inj (Operation.cli.inj hOp)
  have hNone : ((Run.after (Operation.perform standard .levelDB) freshWorld
      pairing).storage.accounts (lit "f@x.io")).isNone = true := by decide +kernel
  rw [hOther] at hNone
  cases hNone

/-! ## A reset account

The operator creates the account of a paired client once more, and the client is
disconnected. -/

def recreates : Operation := .cli (.create 2 (lit "e@x.io"))

theorem token_lost :
    ¬∀ (srv : Server) (b : Backend) (start w w' : World Tables) (past history : List Operation)
      (e : GoString) (acc : Account) (t : AuthToken), start.storage = .empty →
      Run (Operation.perform srv b) (fun _ _ => True) [] start past w →
      Run (Operation.perform srv b) (fun _ _ => True) past w history w' →
      w.storage.accounts e = some acc → some t ∈ acc.authTokens →
      StillHas w' e t ∨ LostSince srv b start past history e t := by
  intro hAll
  obtain ⟨acc, t, hFound, ht⟩ := paired_token
  have hKept := hAll standard .levelDB freshWorld clientPaired
    (recreates.perform standard .levelDB clientPaired) pairing (recreates :: pairing)
    (lit "e@x.io") acc t rfl (Run.to_after (fun _ _ => trivial) freshWorld pairing)
    (.step .refl trivial) hFound ht
  rcases hKept with ⟨acc', s, hBlank, hs, -⟩ | ⟨op, before, acc', s, hSuffix, hPast, -, -, -, hLoses⟩
  · have hTokens : ((recreates.perform standard .levelDB clientPaired).storage.accounts
        (lit "e@x.io")).map Account.authTokens = some [] := by decide +kernel
    rw [hBlank, Option.map_some, Option.some.injEq] at hTokens
    rw [hTokens] at hs
    cases hs
  · rcases List.suffix_cons_iff.mp hSuffix with hLast | hEarlier
    · obtain ⟨rfl, -⟩ := List.cons.inj hLast
      cases hLoses
    · have hShort := hEarlier.length_le
      have hLong := hPast.length_le
      rw [List.length_cons] at hShort
      omega

end Server

end PadlockCloud
