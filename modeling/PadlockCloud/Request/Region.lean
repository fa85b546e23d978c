import PadlockCloud.Process.Serial
import PadlockCloud.Request.Scope

/-!
# The records of an email

The account and the data store under one email are a region of the storage. The
requests with a credential for the email work inside of it, except that a `PUT` for a
new token may look for other accounts, and the other requests leave it as it is, except
for the activation of a token for the email.
-/

namespace PadlockCloud

open Process

variable {b : Backend} {email : GoString}

/-- The call reads and writes the records of the email only, apart from auth requests,
which it does not read. -/
def Call.inside (b : Backend) (email : GoString) : Call → Prop
  | .storage (.getAccount key) | .storage (.deleteAccount key)
  | .storage (.deleteDataStore key) => key = email
  | .storage (.putAccount _ acc) => acc.Sound b.json email
  | .storage (.getDataStore acc) | .storage (.putDataStore acc _) => acc.email = email
  | .storage (.putAuthRequest ar) => ar.authToken.Issued b.json
  | .storage (.getAuthRequest _) | .storage (.iterator _) => False
  | _ => True

/-- The call writes no record of the email. -/
def Call.outside (b : Backend) (email : GoString) : Call → Prop
  | .storage (.deleteAccount key) | .storage (.deleteDataStore key) => key ≠ email
  | .storage (.putAccount _ acc) => acc.email ≠ email ∧ acc.Sound b.json acc.email
  | .storage (.putDataStore acc _) => acc.email ≠ email
  | .storage (.putAuthRequest ar) => ar.authToken.Issued b.json
  | _ => True

namespace Call

variable {c : Call} {w v : World Tables}

theorem keepsSound_inside (hInside : c.inside b email) : c.keepsSound b := by
  rcases c with c | _ | _ | _
  · cases c with
    | putAccount now acc =>
      have hEmail : acc.email = email := hInside.email
      subst hEmail
      exact hInside
    | putAuthRequest ar => exact hInside
    | _ => trivial
  all_goals trivial

theorem keepsSound_outside (hOutside : c.outside b email) : c.keepsSound b := by
  rcases c with c | _ | _ | _
  · cases c with
    | putAccount now acc => exact hOutside.2
    | putAuthRequest ar => exact hOutside
    | _ => trivial
  all_goals trivial

/-- What can be seen of the storage under an email. -/
def records (email : GoString) (w : World Tables) : Option Account × Option GoString :=
  (w.storage.accounts email, w.storage.dataStores email)

theorem records_inside (hSame : records email w = records email v) (hInside : c.inside b email) :
    (exec b c w).1 = (exec b c v).1 ∧ records email (exec b c w).2 = records email (exec b c v).2 := by
  obtain ⟨hAccount, hData⟩ := Prod.mk.inj hSame
  rcases c with c | _ | _ | _
  · cases c with
    | getAccount k =>
      obtain rfl : k = email := hInside
      exact ⟨by simp only [World.step, Tables.step, lookup, hAccount], hSame⟩
    | putAccount now acc =>
      have hEmail : acc.email = email := hInside.email
      simp [World.step, Tables.step, records, Tables.putAccount, hEmail, hData]
    | deleteAccount k =>
      obtain rfl : k = email := hInside
      simp [World.step, Tables.step, records, Tables.putAccount, hData]
    | getAuthRequest k => exact hInside.elim
    | putAuthRequest ar => exact ⟨rfl, hSame⟩
    | deleteAuthRequest k => exact ⟨rfl, hSame⟩
    | getDataStore acc =>
      obtain rfl : acc.email = email := hInside
      exact ⟨by simp only [World.step, Tables.step, lookup, hData], hSame⟩
    | putDataStore acc content =>
      obtain rfl : acc.email = email := hInside
      simp [World.step, Tables.step, records, Tables.putDataStore, hAccount]
    | deleteDataStore k =>
      obtain rfl : k = email := hInside
      simp [World.step, Tables.step, records, Tables.putDataStore, hAccount]
    | iterator keys => exact hInside.elim
  all_goals exact ⟨rfl, hSame⟩

theorem records_outside (hOutside : c.outside b email) :
    records email (exec b c w).2 = records email w := by
  rcases c with c | _ | _ | _
  · cases c with
    | putAccount now acc =>
      have hOther : email ≠ acc.email := Ne.symm hOutside.1
      simp [World.step, Tables.step, records, Tables.putAccount, hOther]
    | deleteAccount k =>
      have hOther : email ≠ k := Ne.symm hOutside
      simp [World.step, Tables.step, records, Tables.putAccount, hOther]
    | putDataStore acc content =>
      have hOther : email ≠ acc.email := Ne.symm hOutside
      simp [World.step, Tables.step, records, Tables.putDataStore, hOther]
    | deleteDataStore k =>
      have hOther : email ≠ k := Ne.symm hOutside
      simp [World.step, Tables.step, records, Tables.putDataStore, hOther]
    | _ => rfl
  all_goals rfl

end Call

/-- The records of an email, in sound tables. -/
def World.region (b : Backend) (email : GoString) :
    Region (exec b) (Option Account × Option GoString) where
  view := Call.records email
  good w := w.storage.Sound b.json
  known := Call.sound b
  inside := Call.inside b email
  outside := Call.outside b email
  known_step hSound := Call.sound_response hSound _
  good_inside hSound hInside := Call.sound_exec hSound (Call.keepsSound_inside hInside)
  good_outside hSound hOutside := Call.sound_exec hSound (Call.keepsSound_outside hOutside)
  response_inside _ _ hSame hInside := (Call.records_inside hSame hInside).1
  view_inside _ _ hSame hInside := (Call.records_inside hSame hInside).2
  view_outside hOutside := Call.records_outside hOutside

/-! ## Handlers -/

theorem admits_inside : Admits b (Call.inside b email) email :=
  ⟨rfl, id, rfl, id, rfl⟩

theorem admits_outside {other : GoString} (hOther : other ≠ email) :
    Admits b (Call.outside b email) other where
  get := trivial
  put hSound := by
    rw [Call.outside, hSound.email]
    exact ⟨hOther, hSound⟩
  delete := hOther
  putData hEmail := by
    rw [Call.outside, hEmail]
    exact hOther
  deleteData := hOther

namespace Server

variable {srv : Server} {env : Env} {r : Request} {auth : Option Auth} {endpoint : Endpoint}
  {allowed : Call → Prop} {α : Type} {post : α → Prop}

/-! ### Other requests -/

/-- The response, and that no auth request for the email is found. -/
def heard (b : Backend) (email : GoString) (c : Call) (answer : c.Resp) : Prop :=
  c.sound b answer ∧ match c, answer with
    | .storage (.getAuthRequest _), answer => ∀ ar, answer = .ok ar → ar.authToken.email ≠ email
    | _, _ => True

theorem harmless_outside (c : Call) (hHarmless : c.harmless) : c.outside b email := by
  rcases c with c | _ | _ | _
  · cases c with
    | getAccount k => trivial
    | getDataStore acc => trivial
    | getAuthRequest k => trivial
    | deleteAuthRequest k => trivial
    | iterator keys => trivial
    | _ => exact hHarmless.elim
  all_goals trivial

/-- Away from an email, everything else is in reach. -/
theorem scope_outside (srv : Server) (b : Backend) (email : GoString) :
    Scope srv b (· ≠ email) (heard b email) (Call.outside b email) where
  sound _ _ hHeard := hHeard.1
  found hHeard := hHeard.2 _ rfl
  admits := admits_outside
  asks _ hIssued _ := hIssued
  mails _ _ := trivial
  notes _ _ := trivial
  harmless := harmless_outside

/-- An action without a credential for the email leaves its records as they are. -/
theorem leaves_program {action : Action} (hMutex : action.mutex ≠ some email) :
    (action.program srv).Stays (heard b email) (Call.outside b email) fun _ => True := by
  refine (scope_outside srv b email).program ?_
  rintro other - hOther - rfl
  exact hMutex hOther

theorem leaves_requestAuthToken :
    (srv.requestAuthToken env r auth).Stays (Call.sound b) (Call.outside b email) fun _ => True :=
  stays_requestAuthToken (stays_checkAccount harmless_outside) (fun _ hIssued _ => hIssued)
    fun _ _ => trivial

/-! ### Requests with a credential for the email -/

/-- A `POST` for a new token looks for no account. -/
theorem inside_requestAuthToken (hMethod : r.method = lit "POST") :
    (srv.requestAuthToken env r auth).Stays (Call.sound b) (Call.inside b email) fun _ => True := by
  refine stays_requestAuthToken (fun other => ?_) (fun _ hIssued _ => hIssued) fun _ _ => trivial
  rw [checkAccount, if_pos hMethod]
  trivial

theorem attends_handle {loose : Prop} (hAuth : ∀ a, auth = some a → a.For b email)
    (hActivates : endpoint.handler r.method ≠ some .activateAuthToken)
    (hLoose : endpoint.handler r.method = some .requestAuthToken → r.method ≠ lit "POST" → loose) :
    (World.region b email).Attends loose (endpoint.handle srv env r auth) := by
  unfold Endpoint.handle
  cases hHandler : endpoint.handler r.method with
  | none => trivial
  | some handler =>
    by_cases hRequests : handler = .requestAuthToken
    · subst hRequests
      by_cases hMethod : r.method = lit "POST"
      · exact .stays (inside_requestAuthToken hMethod)
      · exact .leaves (hLoose hHandler hMethod) leaves_requestAuthToken
    · have hOther : handler ≠ .activateAuthToken := by
        rintro rfl
        exact hActivates hHandler
      exact .stays (stays_handle (fun a hSome => ⟨email, admits_inside, hAuth a hSome⟩)
        (fun _ a hSome => (hAuth a hSome).account.email) hRequests hOther)

theorem attends_checksWrap {loose : Prop} (hAuth : ∀ a, auth = some a → a.For b email)
    (hActivates : endpoint.handler r.method ≠ some .activateAuthToken)
    (hLoose : endpoint.handler r.method = some .requestAuthToken → r.method ≠ lit "POST" → loose) :
    (World.region b email).Attends loose
      (srv.checksWrap endpoint (endpoint.handle srv) env r auth) := by
  rcases checksWrap_cases srv endpoint r auth with
    ⟨r', hChecked, hEq⟩ | ⟨e, hEq⟩ | ⟨reply, hEq⟩
  · rw [hEq]
    have hMethod := checked_method hChecked
    apply attends_handle hAuth
    · rwa [hMethod]
    · rwa [hMethod]
  · rw [hEq]
    have hMail (r' : Request) : (srv.sendDeprecatedVersionEmail env r').Stays (Call.sound b)
        (Call.inside b email) fun _ => True := stays_sendDeprecatedVersionEmail fun _ _ => trivial
    exact .bind (hMail _) fun _ _ => trivial
  · rw [hEq]
    trivial

/-- A request with a credential for the email works inside of its records. -/
theorem attends_serve {loose : Prop} {t : AuthToken} (hToken : authTokenFromRequest r = some t)
    (hEmail : t.email = email) (hActivates : endpoint.handler r.method ≠ some .activateAuthToken)
    (hLoose : endpoint.handler r.method = some .requestAuthToken → r.method ≠ lit "POST" → loose) :
    (World.region b email).Attends loose (srv.serve endpoint env r) := by
  subst hEmail
  obtain ⟨f, g, hf, hg, hEq⟩ := wrapped_eq srv endpoint (endpoint.handle srv) env r
  rw [serve, wrapEndpoint, hEq]
  apply Region.Attends.bind_ended _ hg
  apply Region.Attends.attempt
  apply Region.Attends.bind_ended _ hf
  apply Region.Attends.attempt
  unfold checkMethodWrap
  split
  · trivial
  · unfold lockAccountWrap
    rw [hToken]
    refine .inl ⟨trivial, fun _ _ => ?_⟩
    refine .ensure ?_ ⟨trivial, fun _ _ => trivial⟩ ⟨trivial, fun _ _ => trivial⟩
    have hAuthenticate : (srv.authenticate env r).Stays (Call.sound b) (Call.inside b t.email)
        (Auth.For b t.email) := by
      have hGet : Call.inside b t.email (.storage (.getAccount t.email)) := rfl
      exact (stays_authenticate hToken (fun _ _ hSound => hSound) hGet fun _ _ =>
        admits_inside).mono fun a hFor => hFor.1
    refine .bind (hAuthenticate.attempt HttpError.isPanic) fun result hResult => ?_
    cases result with
    | error e =>
      dsimp only
      split
      · exact attends_checksWrap (fun _ hNone => by cases hNone) hActivates hLoose
      · split <;> trivial
    | ok a =>
      dsimp only
      split
      · refine attends_checksWrap (fun a' hSome => ?_) hActivates hLoose
        rw [← Option.some.inj hSome]
        exact hResult a rfl
      · trivial

end Server

end PadlockCloud
