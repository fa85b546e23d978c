import PadlockCloud.Model.Standard
import PadlockCloud.Process.Faults
import PadlockCloud.Request.Runs

/-!
# Retrying an activation

`Activate` stores the account first and deletes the auth request second. If the
deletion fails, the credential can be presented again, and the token is added
again. Whether this repairs the account or leaves the token in it twice depends on
the device: the loop that revokes the tokens of the same device finds the token of
the earlier attempt, if it has a device UUID.
-/

namespace PadlockCloud

open Process

/-- What a storage call answers that fails. -/
def StorageCall.failure : (c : StorageCall) → c.Resp
  | .getAccount _ => .error .storageClosed
  | .putAccount _ _ => .error .storageClosed
  | .deleteAccount _ => .error .storageClosed
  | .getAuthRequest _ => .error .storageClosed
  | .putAuthRequest _ => .error .storageClosed
  | .deleteAuthRequest _ => .error .storageClosed
  | .getDataStore _ => .error .storageClosed
  | .putDataStore _ _ => .error .storageClosed
  | .deleteDataStore _ => .error .storageClosed
  | .iterator _ => .error .storageClosed

/-- Only storage calls can fail. -/
def Call.failure : (c : Call) → Option c.Resp
  | .storage c => some c.failure
  | .lock _ | .unlock _ | .send _ => none

namespace Server

variable {srv : Server} {b : Backend} {env : Env} {r : Request} {w w' : World Tables}
  {ar : AuthRequest} {fails : Nat → Bool} {T T' : Tables} {k : GoString}

/-- The credential is looked up and its auth request activated. -/
def activation (srv : Server) (env : Env) (r : Request) : Serve Unit := do
  let authRequest ← srv.getAuthRequest r
  activate env authRequest

/-- One attempt: its instant, and which of its storage calls fail. -/
structure Attempt where
  env : Env
  fails : Nat → Bool

def attempt (srv : Server) (b : Backend) (r : Request) (a : Attempt) (w : World Tables) :
    Except HttpError Unit × World Tables :=
  let out := (activation srv a.env r).run (faulty (exec b) Call.failure a.fails) (w, 0)
  (out.1, out.2.1)

/-- Of the four storage calls of an attempt, the `Delete` is the first that fails. -/
def Attempt.failsAtDelete (a : Attempt) : Bool :=
  !a.fails 0 && !a.fails 1 && !a.fails 2 && a.fails 3

/-- The token is bound to a device with a UUID. -/
def hasDevice (t : AuthToken) : Bool := t.device.any fun d => d.uuid ≠ []

/-- Both times the account has the same tokens as often, and the auth requests are
the same. -/
structure SameOutcome (k : GoString) (T T' : Tables) : Prop where
  authRequests : T.authRequests = T'.authRequests
  tokens : ∃ acc acc', T.accounts k = some acc ∧ T'.accounts k = some acc' ∧
    acc.authTokens.Perm acc'.authTokens

/-! ## One attempt -/

/-- What a failing storage call makes of a request. -/
def storageFailed {α : Type} : Except HttpError α :=
  .error (.serverError (.storage .storageClosed))

theorem storage_failure (c : StorageCall) : Call.failure (.storage c) = some c.failure := rfl

/-- The two writes of `Activate`. -/
theorem run_writes (a : Attempt) (acc : Account) (key : GoString) (w : World Tables) :
    (((Program.call (Call.storage (.putAccount a.env.now acc)) orFail).bind fun _ =>
        Program.call (Call.storage (.deleteAuthRequest key)) orFail : Serve Unit).run
      (faulty (exec b) Call.failure a.fails) (w, 2)) =
      if a.fails 2 then (storageFailed, w, 3)
      else if a.fails 3 then
        (storageFailed, { w with storage := w.storage.storeAccount b a.env.now acc }, 4)
      else
        (.ok (), { w with
          storage := (w.storage.storeAccount b a.env.now acc).putAuthRequest key none }, 4) := by
  simp only [Program.call_bind, Program.run_call]
  cases hPut : a.fails 2 with
  | true =>
    rw [faulty_fails (storage_failure _) w hPut]
    rfl
  | false =>
    rw [faulty_works (storage_failure _) w hPut]
    simp only [World.step, Tables.step_putAccount, orFail_ok, Program.pure_bind, Program.run_call,
      Bool.false_eq_true, if_false]
    cases hDelete : a.fails 3 with
    | true =>
      rw [faulty_fails (storage_failure _) _ hDelete]
      rfl
    | false =>
      rw [faulty_works (storage_failure _) _ hDelete]
      rfl

/-- The outcome of an attempt, by the first storage call that fails. -/
theorem attempt_eq (hPending : ((srv.getAuthRequest r).run (exec b) w).1 = .ok ar) (a : Attempt) :
    attempt srv b r a w =
      if a.fails 0 || a.fails 1 || a.fails 2 then (storageFailed, w)
      else if a.fails 3 then
        (storageFailed, { w with
          storage := w.storage.storeAccount b a.env.now
            (activated (accountAt w.storage ar.authToken.email) ar.authToken) })
      else (.ok (), { w with storage := activateTables b a.env ar w.storage }) := by
  obtain ⟨-, pattern, hPattern, hFound⟩ := getAuthRequest_ok (Program.run_eq hPending)
  unfold attempt activation getAuthRequest
  simp only [hPattern, Program.bind_eq, store, Program.request_bind, Program.call_bind,
    Program.run_call]
  cases hFirst : a.fails 0 with
  | true =>
    rw [faulty_fails (storage_failure _) w hFirst]
    rfl
  | false =>
    rw [faulty_works (storage_failure _) w hFirst]
    simp only [World.step, Tables.step, lookup, hFound, Program.pure_bind, activate,
      Program.bind_eq, store, Program.request_bind, Program.run_call, Bool.false_or]
    cases hSecond : a.fails 1 with
    | true =>
      rw [faulty_fails (storage_failure _) w hSecond]
      rfl
    | false =>
      rw [faulty_works (storage_failure _) w hSecond]
      rw [activateTables]
      cases hStored : w.storage.accounts ar.authToken.email with
      | none =>
        have hAccount : accountAt w.storage ar.authToken.email =
            { email := ar.authToken.email } := by
          rw [accountAt, hStored, Option.getD_none]
        simp only [World.step, Tables.step, lookup, hStored, hAccount]
        refine (congrArg (fun out => (out.1, out.2.1)) (run_writes a _ ar.key w)).trans ?_
        cases a.fails 2 <;> cases a.fails 3 <;> rfl
      | some acc =>
        have hAccount : accountAt w.storage ar.authToken.email = acc := by
          rw [accountAt, hStored, Option.getD_some]
        simp only [World.step, Tables.step, lookup, hStored, hAccount]
        refine (congrArg (fun out => (out.1, out.2.1)) (run_writes a _ ar.key w)).trans ?_
        cases a.fails 2 <;> cases a.fails 3 <;> rfl

/-- A successful attempt has activated the token. -/
theorem attempt_ok (hPending : ((srv.getAuthRequest r).run (exec b) w).1 = .ok ar) {a : Attempt}
    {u : Unit} (hOk : attempt srv b r a w = (.ok u, w')) :
    w'.storage = activateTables b a.env ar w.storage ∧ a.failsAtDelete = false := by
  rw [attempt_eq hPending] at hOk
  unfold Attempt.failsAtDelete
  split at hOk
  · cases hOk
  split at hOk
  · cases hOk
  · rename_i hDelete
    obtain ⟨-, rfl⟩ := Prod.mk.inj hOk
    exact ⟨rfl, by rw [Bool.not_eq_true _ |>.mp hDelete, Bool.and_false]⟩

/-- A failed attempt has changed nothing, or it has stored the account. -/
theorem attempt_error (hPending : ((srv.getAuthRequest r).run (exec b) w).1 = .ok ar) {a : Attempt}
    {e : HttpError} (hError : attempt srv b r a w = (.error e, w')) :
    w' = w ∧ a.failsAtDelete = false ∨
      w'.storage = w.storage.storeAccount b a.env.now
          (activated (accountAt w.storage ar.authToken.email) ar.authToken) ∧
        a.failsAtDelete = true := by
  rw [attempt_eq hPending] at hError
  unfold Attempt.failsAtDelete
  split at hError
  · rename_i hEarly
    obtain ⟨-, rfl⟩ := Prod.mk.inj hError
    refine .inl ⟨rfl, ?_⟩
    rcases Bool.or_eq_true _ _ |>.mp hEarly with hEarly | hEarly
    · rcases Bool.or_eq_true _ _ |>.mp hEarly with hEarly | hEarly <;> simp [hEarly]
    · simp [hEarly]
  rename_i hLate
  split at hError
  · rename_i hDelete
    obtain ⟨-, rfl⟩ := Prod.mk.inj hError
    refine .inr ⟨rfl, ?_⟩
    simp only [Bool.or_eq_true, not_or, Bool.not_eq_true] at hLate
    simp [hLate, hDelete]
  · cases hError

/-! ## Repeated attempts -/

/-- An activation revokes its own token, if that is bound to a device. -/
theorem revokes_self (t : AuthToken) : Account.revokes t t = hasDevice t := by
  cases hDevice : hasDevice t with
  | false =>
    unfold hasDevice at hDevice
    rw [Account.revokes, hDevice, Bool.false_and]
  | true =>
    obtain ⟨d, hSome, hUUID⟩ := Option.any_eq_true _ _ |>.mp hDevice
    exact Account.revokes_iff.mpr ⟨.inr rfl, d, d, hSome, by simpa using hUUID, hSome, rfl⟩

/-- The tokens of the account under `k` that an activation of `t` does not revoke. -/
def spared (T : Tables) (k : GoString) (t : AuthToken) : List (Option AuthToken) :=
  (accountAt T k).authTokens.filter fun o => !o.any (Account.revokes t)

/-- How often the token is in the account in the end. -/
def copies (t : AuthToken) (attempts : List Attempt) : Nat :=
  if hasDevice t then 1 else attempts.countP Attempt.failsAtDelete + 1

/-- The tokens that a further activation spares, after one that has stored the account. -/
theorem spared_again {t : AuthToken} {acc : Account} (hFound : T'.accounts k = some acc)
    (hPerm : acc.authTokens.Perm (spared T k t ++ [some t])) :
    (spared T' k t).Perm (spared T k t ++ if hasDevice t then [] else [some t]) := by
  have hAll : (spared T k t).filter (fun o => !o.any (Account.revokes t)) = spared T k t :=
    List.filter_eq_self.mpr fun o ho => (List.mem_filter.mp ho).2
  have hFilter := hPerm.filter fun o => !o.any (Account.revokes t)
  rw [List.filter_append, hAll, List.filter_singleton, Option.any_some, revokes_self] at hFilter
  rw [spared, accountAt, hFound, Option.getD_some]
  cases hDevice : hasDevice t with
  | false =>
    rw [hDevice] at hFilter
    exact hFilter
  | true =>
    rw [hDevice] at hFilter
    exact hFilter

/-- After an attempt that has stored the account only, the request is still pending. -/
theorem pending_again {now : Time} (hKept : w.storage.Kept b.json)
    (hPending : ((srv.getAuthRequest r).run (exec b) w).1 = .ok ar)
    (hStorage : w'.storage = w.storage.storeAccount b now
      (activated (accountAt w.storage ar.authToken.email) ar.authToken)) :
    w'.storage.Kept b.json ∧ w'.storage.authRequests = w.storage.authRequests ∧
      ((srv.getAuthRequest r).run (exec b) w').1 = .ok ar := by
  obtain ⟨-, pattern, hPattern, hFound⟩ := getAuthRequest_ok (Program.run_eq hPending)
  have hEmail : b.json.coerce ar.authToken.email = ar.authToken.email :=
    congrArg (fun ar => ar.authToken.email) (hKept.authRequest hFound)
  have hRequests : w'.storage.authRequests = w.storage.authRequests := by
    rw [hStorage]
    rfl
  refine ⟨?_, hRequests, ?_⟩
  · rw [hStorage]
    refine hKept.storeAccount now ?_
    rw [activated_accountAt_email ar hKept, hEmail]
  · rw [run_getAuthRequest]
    simp only [hPattern, hRequests, hFound]

/-- Without a device, an attempt that fails at the deletion leaves one more copy. -/
theorem copies_cons {t : AuthToken} {a : Attempt} {rest : List Attempt}
    (hDelete : a.failsAtDelete = true) :
    (if hasDevice t then [] else [some t]) ++ List.replicate (copies t rest) (some t) =
      List.replicate (copies t (a :: rest)) (some t) := by
  cases hDevice : hasDevice t with
  | true => simp [copies, hDevice]
  | false =>
    simp only [copies, hDevice, List.countP_cons_of_pos hDelete, Bool.false_eq_true, if_false,
      List.singleton_append]
    rfl

/-- What is stored when an attempt has succeeded. -/
theorem retried_tokens {attempts : List Attempt}
    (hRetried : Retried (attempt srv b r) attempts w w') (hKept : w.storage.Kept b.json)
    (hPending : ((srv.getAuthRequest r).run (exec b) w).1 = .ok ar) :
    w'.storage.authRequests = (w.storage.putAuthRequest ar.key none).authRequests ∧
      ∃ acc, w'.storage.accounts ar.authToken.email = some acc ∧
        acc.authTokens.Perm (spared w.storage ar.authToken.email ar.authToken ++
          List.replicate (copies ar.authToken attempts) (some ar.authToken)) := by
  have hFixed : ar.authToken.marshal b.json = ar.authToken := by
    obtain ⟨-, pattern, -, hFound⟩ := getAuthRequest_ok (Program.run_eq hPending)
    exact congrArg AuthRequest.authToken (hKept.authRequest hFound)
  induction hRetried with
  | @succeeded a w w' u hOk =>
    obtain ⟨hStorage, hDelete⟩ := attempt_ok hPending hOk
    obtain ⟨acc, hFound, hPerm⟩ := activateTables_tokens a.env ar hKept
    have hOnce : copies ar.authToken [a] = 1 := by simp [copies, hDelete]
    rw [hStorage, hOnce, List.replicate_one]
    rw [hFixed] at hPerm
    exact ⟨rfl, acc, hFound, hPerm⟩
  | @failed a rest w w₁ w' e hError hRest ih =>
    rcases attempt_error hPending hError with ⟨rfl, hDelete⟩ | ⟨hStorage, hDelete⟩
    · have hSame : copies ar.authToken (a :: rest) = copies ar.authToken rest := by
        simp [copies, hDelete]
      rw [hSame]
      exact ih hKept hPending
    · obtain ⟨acc, hFound, hPerm⟩ := activateTables_tokens a.env ar hKept
      have hStored : w₁.storage.accounts ar.authToken.email = some acc := by
        rw [hStorage]
        exact hFound
      obtain ⟨hKept₁, hRequests, hPending₁⟩ := pending_again hKept hPending hStorage
      obtain ⟨hEnd, acc', hFound', hPerm'⟩ := ih hKept₁ hPending₁
      rw [hFixed] at hPerm
      refine ⟨?_, acc', hFound', hPerm'.trans ?_⟩
      · rw [hEnd, Tables.putAuthRequest, Tables.putAuthRequest, hRequests]
      · rw [← copies_cons hDelete, ← List.append_assoc]
        exact (spared_again hStored hPerm).append_right _

/-- After retries the outcome is that of one successful activation exactly if the
token is bound to a device or no attempt has failed between the two writes. -/
theorem activation_retry {attempts : List Attempt} (hKept : w.storage.Kept b.json)
    (hPending : ((srv.getAuthRequest r).run (exec b) w).1 = .ok ar)
    (hRetried : Retried (attempt srv b r) attempts w w') :
    SameOutcome ar.authToken.email w'.storage ((activate env ar).run (exec b) w).2.storage ↔
      hasDevice ar.authToken = true ∨ ∀ a ∈ attempts, a.failsAtDelete = false := by
  obtain ⟨hRequests, acc, hFound, hPerm⟩ := retried_tokens hRetried hKept hPending
  obtain ⟨acc', hFound', hPerm'⟩ := activateTables_tokens env ar hKept
  have hFixed : ar.authToken.marshal b.json = ar.authToken := by
    obtain ⟨-, pattern, -, hPattern⟩ := getAuthRequest_ok (Program.run_eq hPending)
    exact congrArg AuthRequest.authToken (hKept.authRequest hPattern)
  have hCopies : copies ar.authToken attempts = 1 ↔
      hasDevice ar.authToken = true ∨ ∀ a ∈ attempts, a.failsAtDelete = false := by
    unfold copies
    cases hasDevice ar.authToken with
    | true => simp
    | false => simp [List.countP_eq_zero]
  rw [run_activate, ← hCopies]
  rw [hFixed] at hPerm'
  constructor
  · rintro ⟨-, first, second, hFirst, hSecond, hSame⟩
    obtain rfl := Option.some.inj (hFound.symm.trans hFirst)
    obtain rfl := Option.some.inj (hFound'.symm.trans hSecond)
    have hLength := (hPerm.symm.trans (hSame.trans hPerm')).length_eq
    rw [List.length_append, List.length_append, List.length_replicate] at hLength
    exact Nat.add_left_cancel hLength
  · intro hOnce
    rw [hOnce, List.replicate_one] at hPerm
    exact ⟨hRequests, acc, acc', hFound, hFound', hPerm.trans hPerm'.symm⟩

/-! ## A token that is added twice -/

/-- A pending request for a token on the given device. -/
def pairRequest (device : Option Device) : AuthRequest :=
  { token := lit "key"
    authToken := { email := lit "e@x.io", token := lit "secret", type := lit "api", device } }

def pairWorld (device : Option Device) : World Tables :=
  { storage := Tables.empty.putAuthRequest (lit "key") (some (pairRequest device)) }

def pairLink : Request := clientRequest (lit "GET") [] (lit "t=key") []

/-- The `Delete` fails. -/
def brokenAttempt : Attempt := ⟨.after 0 (.constant 0), fun n => n = 3⟩

/-- Nothing fails. -/
def cleanAttempt : Attempt := ⟨.after 1 (.constant 1), fun _ => false⟩

/-- The world after the broken attempt, and that after the second one. -/
def brokenWorld (device : Option Device) : World Tables :=
  (attempt standard .levelDB pairLink brokenAttempt (pairWorld device)).2

def pairedWorld (device : Option Device) : World Tables :=
  (attempt standard .levelDB pairLink cleanAttempt (brokenWorld device)).2

theorem pairWorld_kept (device : Option Device) :
    (pairWorld device).storage.Kept Json.identity where
  key := nofun
  account := nofun
  authRequest _ := AuthRequest.marshal_of_lossless Json.identity_lossless _

theorem pairWorld_retried {device : Option Device}
    (hFirst : (attempt standard .levelDB pairLink brokenAttempt (pairWorld device)).1 =
      storageFailed)
    (hSecond : (attempt standard .levelDB pairLink cleanAttempt (brokenWorld device)).1 = .ok ()) :
    Retried (attempt standard .levelDB pairLink) [brokenAttempt, cleanAttempt] (pairWorld device)
      (pairedWorld device) :=
  .failed (Program.run_eq hFirst) (.succeeded (Program.run_eq hSecond))

theorem activation_retry_phone :
    SameOutcome (lit "e@x.io") (pairedWorld (some { uuid := lit "phone" })).storage
        ((activate (.after 1 (.constant 1)) (pairRequest (some { uuid := lit "phone" }))).run
          (exec .levelDB) (pairWorld (some { uuid := lit "phone" }))).2.storage ↔
      hasDevice (pairRequest (some { uuid := lit "phone" })).authToken = true ∨
        ∀ a ∈ [brokenAttempt, cleanAttempt], a.failsAtDelete = false :=
  activation_retry (pairWorld_kept _)
    (show ((standard.getAuthRequest pairLink).run (exec .levelDB)
      (pairWorld (some { uuid := lit "phone" }))).1 =
        .ok (pairRequest (some { uuid := lit "phone" })) by decide +kernel)
    (pairWorld_retried (by decide +kernel) (by decide +kernel))

/-- The tokens that the account has. -/
def pairedTokens (T : Tables) : Option Nat :=
  (T.accounts (lit "e@x.io")).map fun acc => acc.authTokens.length

/-- A retry can leave the token in the account twice. -/
theorem activation_retry_duplicates :
    ¬∀ (srv : Server) (b : Backend) (env : Env) (r : Request) (w w' : World Tables)
      (ar : AuthRequest) (attempts : List Attempt), w.storage.Kept b.json →
      ((srv.getAuthRequest r).run (exec b) w).1 = .ok ar →
      Retried (attempt srv b r) attempts w w' →
      SameOutcome ar.authToken.email w'.storage
        ((activate env ar).run (exec b) w).2.storage := by
  intro hAll
  have hPending : ((standard.getAuthRequest pairLink).run (exec .levelDB) (pairWorld none)).1 =
      .ok (pairRequest none) := by decide +kernel
  obtain ⟨-, acc, acc', hFound, hFound', hPerm⟩ := hAll standard .levelDB
    (.after 1 (.constant 1)) pairLink (pairWorld none) (pairedWorld none) (pairRequest none) _
    (pairWorld_kept _) hPending (pairWorld_retried (by decide +kernel) (by decide +kernel))
  have hTwice : pairedTokens (pairedWorld none).storage = some 2 := by decide +kernel
  have hOnce : pairedTokens ((activate (.after 1 (.constant 1)) (pairRequest none)).run
      (exec .levelDB) (pairWorld none)).2.storage = some 1 := by decide +kernel
  have hTwo : acc.authTokens.length = 2 := by
    rw [pairedTokens] at hTwice
    exact Option.some.inj ((congrArg _ hFound).symm.trans hTwice)
  have hOne : acc'.authTokens.length = 1 := by
    rw [pairedTokens] at hOnce
    exact Option.some.inj ((congrArg _ hFound').symm.trans hOnce)
  have hLength := hPerm.length_eq
  omega

end Server

end PadlockCloud
