import PadlockCloud.Model.Standard
import PadlockCloud.Request.Admission

/-!
# What a store write stores

`WriteStore` stores what is left of the request body when the handler runs.
The version check and the CSRF check run before it, and both may parse the form
of the request, which reads a form body to its end. So the stored content is the
body that the client sent, except where the content type is that of a form and
one of the two checks had to look into the form.
-/

namespace PadlockCloud

open Process

namespace Server

variable {srv : Server} {b : Backend} {env : Env} {r : Request} {w w' : World Tables}
  {endpoint : Endpoint} {reply : Reply}

/-- The body that the checks leave of a request that comes in unread. -/
theorem checked_body {auth : Option Auth} {r' : Request} (hFresh : r.postForm = none)
    (hMethod : r.method = lit "PUT" ∨ r.method = lit "POST")
    (hChecked : srv.checked endpoint r auth = some r') :
    r'.body =
      if parsesForm endpoint r auth ∧ srv.net.formType (r.header .contentType) then []
      else r.body := by
  have hReads : srv.net.readsBody r.method (r.header .contentType) =
      srv.net.formType (r.header .contentType) := by
    rcases hMethod with h | h <;> simp [NetHttp.readsBody, NetHttp.formType, h, Bool.or_comm]
  rw [checked_eq hChecked]
  by_cases hParses : parsesForm endpoint r auth
  · simp only [hParses, if_true, Request.formParsed_body hFresh, hReads, true_and]
  · simp [hParses]

theorem parsesForm_iff {a : Auth} (hType : endpoint.authType ≠ [])
    (hUnsafe : r.method ∉ safeMethods) :
    parsesForm endpoint r (some a) = true ↔
      ¬((acceptVersion (r.header .accept)).isSome ∧
        (a.token.type ≠ lit "web" ∨ r.header .csrfToken ≠ [])) := by
  cases hAccept : acceptVersion (r.header .accept) with
  | none => simp [parsesForm, hAccept]
  | some v => simp [parsesForm, hAccept, hType, hUnsafe]

/-- The stored content of an accepted write is the body of the request exactly
if the body is empty, or no form, or neither check looked into the form. -/
theorem storeWrite_exact (hRoute : endpointAt (lit "/store/") = some endpoint)
    (hMethod : r.method = lit "PUT" ∨ r.method = lit "POST") (hFresh : r.postForm = none)
    (hRun : (srv.serve endpoint env r).run (exec b) w = (.ok reply, w'))
    (hStatus : reply.status = 204) :
    ∃ auth, srv.authenticated b env r w.storage = .ok auth ∧
      (w'.storage.dataStores auth.account.email = some r.body ↔
        r.body = [] ∨ srv.net.formType (r.header .contentType) = false ∨
          ((acceptVersion (r.header .accept)).isSome ∧
            (auth.token.type ≠ lit "web" ∨ r.header .csrfToken ≠ []))) := by
  have hType : endpoint.authType ≠ [] := by
    cases hRoute
    decide
  have hHandler : endpoint.handler r.method = some .writeStore := by
    cases hRoute
    rcases hMethod with h | h <;> rw [h] <;> rfl
  have hSafe : r.method ∉ safeMethods := by
    rcases hMethod with h | h <;> rw [h] <;> decide
  have hServed : ¬Rejected endpoint reply := by
    simp [Rejected, hStatus]
  obtain ⟨r', auth, hAdmitted, hReply, hStorage⟩ := admitted_of_serve hRun hServed
  obtain ⟨a, rfl, hAuth, -, hChecked⟩ := admitted_auth hAdmitted hType
  rw [← checked_method hChecked] at hHandler
  rw [Endpoint.handle_eq hHandler] at hReply hStorage
  refine ⟨a, hAuth, ?_⟩
  have hContent : w'.storage.dataStores a.account.email = some r'.body := by
    rw [hStorage]
    cases hFails : r'.bodyFails with
    | true => simp [Handler.handle, writeStore, orPanic, hFails] at hReply
    | false =>
      simp [Handler.handle, writeStore, orPanic, hFails, store, World.step, Tables.step,
        Tables.putDataStore]
  rw [hContent, checked_body hFresh hMethod hChecked, Option.some.injEq]
  simp only [parsesForm_iff hType hSafe]
  split
  · rename_i hConsumed
    obtain ⟨hParses, hForm⟩ := hConsumed
    constructor
    · intro hEmpty
      exact .inl hEmpty.symm
    · rintro (hEmpty | hNoForm | hUnparsed)
      · exact hEmpty.symm
      · rw [hForm] at hNoForm
        cases hNoForm
      · exact absurd hUnparsed hParses
  · rename_i hKept
    refine iff_of_true rfl (.inr ?_)
    cases hForm : srv.net.formType (r.header .contentType) with
    | false => exact .inl rfl
    | true => exact .inr (not_not.mp fun hParses => hKept ⟨hParses, hForm⟩)

/-! ## A form body is lost

A client that asks for JSON, names the version in the query and sends its data
under a form content type gets the answer 204, and its store is emptied. -/

def writerAccount : Account :=
  { email := lit "e@x.io"
    authTokens :=
      [some
        { email := lit "e@x.io", token := lit "secret", type := lit "api"
          lastUsed := Time.unixEpoch }] }

def writerWorld : World Tables := { storage := Tables.ofAccount writerAccount }

def storeEndpoint : Endpoint := (endpointAt (lit "/store/")).getD { handlers := [] }

def writeRequest (accept contentType : GoString) : Request :=
  { method := lit "PUT"
    path := lit "/store/"
    query := fun key => if key = lit "v" then lit "1" else []
    header := fun h =>
      match h with
      | .accept => accept
      | .authorization => lit "AuthToken e@x.io:secret"
      | .contentType => contentType
      | _ => []
    body := lit "data" }

def writeRun (accept contentType : GoString) : Except HttpError Reply × World Tables :=
  (standard.serve storeEndpoint (.after 0 (.constant 0)) (writeRequest accept contentType)).run
    (exec .levelDB) writerWorld

theorem storeWrite_exact_versioned :
    ∃ auth,
      standard.authenticated .levelDB (.after 0 (.constant 0))
        (writeRequest (lit "application/vnd.padlock;version=1") (lit "text/plain"))
        writerWorld.storage = .ok auth ∧
      ((writeRun (lit "application/vnd.padlock;version=1")
          (lit "text/plain")).2.storage.dataStores auth.account.email = some (lit "data") ↔
        lit "data" = [] ∨ standard.net.formType (lit "text/plain") = false ∨
          ((acceptVersion (lit "application/vnd.padlock;version=1")).isSome ∧
            (auth.token.type ≠ lit "web" ∨ ([] : GoString) ≠ []))) :=
  have hResult : (writeRun (lit "application/vnd.padlock;version=1") (lit "text/plain")).1 =
      .ok { status := 204 } := by decide +kernel
  storeWrite_exact (by decide +kernel) (.inl rfl) rfl (Program.run_eq hResult) rfl

/-- Not every accepted write stores the body that was sent. -/
theorem storeWrite_loses_form :
    ¬∀ (srv : Server) (b : Backend) (endpoint : Endpoint) (env : Env) (r : Request)
      (w w' : World Tables) (reply : Reply), endpointAt (lit "/store/") = some endpoint →
      (r.method = lit "PUT" ∨ r.method = lit "POST") → r.postForm = none →
      (srv.serve endpoint env r).run (exec b) w = (.ok reply, w') → reply.status = 204 →
      ∃ auth, srv.authenticated b env r w.storage = .ok auth ∧
        w'.storage.dataStores auth.account.email = some r.body := by
  intro hAll
  have hResult : (writeRun (lit "application/json")
      (lit "application/x-www-form-urlencoded")).1 = .ok { status := 204 } := by decide +kernel
  obtain ⟨auth, hAuth, hStored⟩ :=
    hAll _ _ storeEndpoint _ _ _ _ _ (by decide +kernel) (.inl rfl) rfl (Program.run_eq hResult) rfl
  obtain ⟨auth', hAuth', hEmail⟩ := ok_of_map
    (show (standard.authenticated .levelDB (.after 0 (.constant 0))
      (writeRequest (lit "application/json") (lit "application/x-www-form-urlencoded"))
      writerWorld.storage).map (fun a => a.account.email) = .ok (lit "e@x.io") by decide +kernel)
  rw [hAuth, Except.ok.injEq] at hAuth'
  rw [hAuth', hEmail] at hStored
  revert hStored
  decide +kernel

end Server

end PadlockCloud
