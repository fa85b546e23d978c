import PadlockCloud.Model.Standard
import PadlockCloud.Request.Effect

/-!
# What an auth request delivers

An auth request is stored under its activation token or, for the activation type
`code`, under the email and a code. What reaches the client is put together in
three other places: the activation link, the mail template and the subject. They
agree except for codes that nobody shows: the template has no code for web
tokens, and a client that is authenticated already gets a link without a token.
-/

namespace PadlockCloud

open Process

/-- What a client can activate a token with. -/
inductive Credential where
  | link (url : GoString)
  | code (email code : GoString)
  deriving DecidableEq

/-- The links and codes of a mail. -/
def Mail.credentials (mail : Mail) : List Credential :=
  (mail.subject ++ mail.body).filterMap fun piece =>
    match piece with
    | .text _ => none
    | .link url => some (.link url)
    | .code code => some (.code mail.recipient code)

/-- The activation link of a JSON response. -/
def Reply.credentials (reply : Reply) : List Credential :=
  match reply.body with
  | .json fields => (fields.lookup (lit "actUrl")).toList.map .link
  | _ => []

namespace Server

variable {srv : Server} {b : Backend} {env : Env} {r : Request} {auth : Option Auth}
  {w w' : World Tables} {reply : Reply}

/-- What an accepted auth request delivers: the link of the response for a
client that is authenticated, else what the mails say. -/
def delivered (f : AuthForm) (reply : Reply) (mails : List Mail) : List Credential :=
  if f.preauth then reply.credentials else mails.flatMap Mail.credentials

/-- The requests that bring a credential back. A token of the URL alphabet is
not changed by the query of the link. -/
def Presents (srv : Server) (r : Request) : Credential → Prop
  | .link url =>
    (r.query (lit "t")).all urlSafe = true ∧
      ∃ base, url = base ++ lit "/a/?t=" ++ r.query (lit "t")
  | .code email code =>
    r.query (lit "t") = [] ∧ r.postFormValue srv.net (lit "email") = email ∧
      r.postFormValue srv.net (lit "code") = code

/-- Every request with the credential makes `GetAuthRequest` return `stored`. -/
def Completes (srv : Server) (b : Backend) (w : World Tables) (stored : AuthRequest)
    (c : Credential) : Prop :=
  ∀ r, srv.Presents r c → (srv.getAuthRequest r).run (exec b) w = (.ok stored, w)

/-- Something was delivered, and all of it leads to the stored request. -/
def Completable (srv : Server) (b : Backend) (w : World Tables) (stored : AuthRequest)
    (credentials : List Credential) : Prop :=
  credentials ≠ [] ∧ ∀ c ∈ credentials, srv.Completes b w stored c

/-! ## Links and codes -/

/-- The token of a link is what follows its last equals sign. -/
theorem link_token_unique {base base' token token' : GoString}
    (hToken : token.all urlSafe = true) (hToken' : token'.all urlSafe = true)
    (hLinks : base ++ lit "/a/?t=" ++ token = base' ++ lit "/a/?t=" ++ token') :
    token = token' := by
  have hSafe {s : GoString} (hs : s.all urlSafe = true) :
      ∀ c ∈ s.reverse, decide (c ≠ byte '=') = true := by
    intro c hc
    have hSafe := List.all_eq_true.mp hs c (List.mem_reverse.mp hc)
    rw [decide_eq_true_eq]
    rintro rfl
    revert hSafe
    decide
  have hTail (base s : GoString) (hs : s.all urlSafe = true) :
      ((base ++ lit "/a/?t=" ++ s).reverse.takeWhile (fun c => c ≠ byte '=')).reverse = s := by
    rw [List.reverse_append, List.takeWhile_append_of_pos (hSafe hs)]
    have hSign : (base ++ lit "/a/?t=").reverse = byte '=' :: (base ++ lit "/a/?t").reverse := by
      show (base ++ (lit "/a/?t" ++ [byte '='])).reverse = _
      rw [← List.append_assoc, List.reverse_append]
      rfl
    rw [hSign, List.takeWhile_cons_of_neg (by simp), List.append_nil, List.reverse_reverse]
  rw [← hTail base token hToken, hLinks, hTail base' token' hToken']

theorem escapeHtml_activationLink {ar : AuthRequest} (hToken : ar.token.all urlSafe = true) :
    escapeHtml (srv.activationLink r ar) =
      escapeHtml (srv.baseUrlOf r) ++ lit "/a/?t=" ++ ar.token := by
  have hPath : escapeHtml (lit "/a/?t=") = lit "/a/?t=" := by decide
  rw [activationLink, escapeHtml_append, escapeHtml_append, escapeHtml_urlSafe hToken, hPath]

/-- A link with a token leads to what is stored under the token. -/
theorem completes_link {stored : AuthRequest} {token : GoString} (base : GoString)
    (hToken : token ≠ []) (hSafe : token.all urlSafe = true)
    (hStored : w.storage.authRequests token = some stored) :
    srv.Completes b w stored (.link (base ++ lit "/a/?t=" ++ token)) := by
  rintro r ⟨hQuery, base', hLink⟩
  obtain rfl := link_token_unique hSafe hQuery hLink
  have hPattern : srv.activationPattern r =
      .ok { code := r.postFormValue srv.net (lit "code"), token := r.query (lit "t")
            authToken := { email := r.postFormValue srv.net (lit "email") } } := by
    rw [activationPattern, if_neg fun hBad => hToken hBad.1]
  simp [run_getAuthRequest, hPattern, AuthRequest.key, hToken, hStored]

/-- A link without a token leads nowhere. -/
theorem not_completes_link (stored : AuthRequest) (base : GoString) :
    ¬srv.Completes b w stored (.link (base ++ lit "/a/?t=")) := by
  intro hCompletes
  have hRun := hCompletes { method := lit "GET", postForm := some fun _ => [] }
    ⟨rfl, base, by rw [List.append_nil]⟩
  rw [run_getAuthRequest] at hRun
  cases hRun

/-- A delivered link completes the request that it was made for exactly if that
request has a token. -/
theorem completable_link {ar stored : AuthRequest} (base : GoString)
    (hSafe : ar.token.all urlSafe = true) (hStored : w.storage.authRequests ar.key = some stored) :
    srv.Completable b w stored [.link (base ++ lit "/a/?t=" ++ ar.token)] ↔ ar.token ≠ [] := by
  simp only [Completable, ne_eq, List.cons_ne_nil, not_false_eq_true, true_and,
    List.mem_singleton, forall_eq]
  constructor
  · intro hCompletes hToken
    rw [hToken, List.append_nil] at hCompletes
    exact not_completes_link stored base hCompletes
  · intro hToken
    rw [AuthRequest.key, if_pos hToken] at hStored
    exact completes_link base hToken hSafe hStored

/-- A code leads to what is stored under the email and the code. -/
theorem completes_code {stored : AuthRequest} {email code : GoString} (hEmail : email ≠ [])
    (hCode : code ≠ []) (hStored : w.storage.authRequests (email ++ lit "-" ++ code) = some stored) :
    srv.Completes b w stored (.code email code) := by
  rintro r ⟨hQuery, rfl, rfl⟩
  have hPattern : srv.activationPattern r =
      .ok { code := r.postFormValue srv.net (lit "code"), token := r.query (lit "t")
            authToken := { email := r.postFormValue srv.net (lit "email") } } := by
    rw [activationPattern, if_neg fun hBad => hBad.2.elim hEmail hCode]
  simp only [run_getAuthRequest, hPattern, AuthRequest.key, hQuery, ne_eq, not_true_eq_false,
    if_false, hStored]

/-! ## What an accepted request leaves -/

/-- The mails that announce an auth request. A client that is authenticated
already gets none. -/
def Mailed (srv : Server) (r : Request) (f : AuthForm) (ar : AuthRequest) (mails : List Mail) :
    Prop :=
  if f.preauth then mails = []
  else
    ∃ body, mails = [⟨f.email, authSubject f ar, body⟩] ∧
      srv.templates.activateAuthTokenEmail (srv.activationLink r ar) ar.authToken ar.code =
        some body

theorem sendActivation_ok {f : AuthForm} {ar : AuthRequest}
    (hRun : (srv.sendActivation env r f ar).run (exec b) w = (.ok (), w')) :
    ∃ mails, srv.Mailed r f ar mails ∧ w' = { w with outbox := w.outbox ++ mails } := by
  unfold sendActivation at hRun
  unfold Mailed
  split at hRun
  · rename_i hPreauth
    obtain ⟨-, rfl⟩ := Prod.mk.inj hRun
    exact ⟨[], by rw [if_pos hPreauth], by simp⟩
  · rename_i hPreauth
    split at hRun
    · cases hRun
    · split at hRun
      · rename_i body hBody
        obtain ⟨-, rfl⟩ := Prod.mk.inj hRun
        exact ⟨_, by rw [if_neg hPreauth]; exact ⟨body, rfl, hBody⟩, rfl⟩
      · cases hRun

/-- The response is made up without any call. -/
theorem authResponse_ok {f : AuthForm} {ar : AuthRequest} {body : Body}
    (hRun : (srv.authResponse r f ar).run (exec b) w = (.ok body, w')) :
    srv.authResponse r f ar = .pure body ∧ w' = w := by
  unfold authResponse at hRun ⊢
  dsimp only at hRun ⊢
  split at hRun
  · rename_i hJson
    obtain ⟨hBody, rfl⟩ := Prod.mk.inj hRun
    rw [if_pos hJson, Except.ok.inj hBody]
    exact ⟨rfl, rfl⟩
  · rename_i hPage
    rw [if_neg hPage]
    split at hRun
    · obtain ⟨hBody, rfl⟩ := Prod.mk.inj hRun
      rw [Except.ok.inj hBody]
      exact ⟨rfl, rfl⟩
    · cases hRun

/-- An auth request that is answered has been stored, and announced. -/
theorem requestAuthToken_ok
    (hRun : (srv.requestAuthToken env r auth).run (exec b) w = (.ok reply, w')) :
    ∃ new ar mails, AuthForm.check srv (srv.authForm r auth) = .ok () ∧
      newAuthRequest env (srv.authForm r auth).email (srv.authForm r auth).type
        (srv.authForm r auth).actType (srv.authForm r auth).device = some new ∧
      ar = { new with redirect := (srv.authForm r auth).redirect } ∧
      srv.Mailed r (srv.authForm r auth) ar mails ∧
      srv.authResponse r (srv.authForm r auth) ar = .pure reply.body ∧
      w' =
        { w with
          storage := w.storage.putAuthRequest ar.key (some (ar.marshal b.json))
          outbox := w.outbox ++ mails } := by
  unfold requestAuthToken at hRun
  dsimp only at hRun
  split at hRun
  · cases hRun
  rename_i hCheck
  obtain ⟨_, w₁, hAccount, hIssued⟩ := Program.run_bind_eq_ok hRun
  obtain rfl : w₁ = w := by
    have hKeeps := keeps_checkAccount (b := b) (r := r) (srv.authForm r auth).email w
    rwa [hAccount] at hKeeps
  obtain ⟨ar, w₂, hIssue, hAnswered⟩ := Program.run_bind_eq_ok hIssued
  rw [run_issueAuthRequest] at hIssue
  split at hIssue
  · cases hIssue
  rename_i new hNew
  obtain ⟨hRequest, rfl⟩ := Prod.mk.inj hIssue
  obtain rfl := Except.ok.inj hRequest
  obtain ⟨body, w₃, hResponse, hSent⟩ := Program.run_bind_eq_ok hAnswered
  obtain ⟨hBody, rfl⟩ := authResponse_ok hResponse
  obtain ⟨_, w₄, hSend, hEnd⟩ := Program.run_bind_eq_ok hSent
  obtain ⟨mails, hMailed, rfl⟩ := sendActivation_ok hSend
  obtain ⟨hReply, rfl⟩ := Prod.mk.inj hEnd
  obtain rfl := Except.ok.inj hReply
  exact ⟨new, _, mails, hCheck, hNew, rfl, hMailed, hBody, rfl⟩

/-! ## What is delivered -/

/-- A client that is authenticated gets the activation link. -/
theorem credentials_reply {f : AuthForm} {ar : AuthRequest} (hPreauth : f.preauth = true)
    (hBody : srv.authResponse r f ar = .pure reply.body) :
    reply.credentials = [.link (srv.activationLink r ar)] := by
  simp only [authResponse, hPreauth, or_true, true_or, if_true] at hBody
  rw [Reply.credentials, ← Program.pure.inj hBody]
  rfl

/-- The mail to other clients has the code of a request for an api token, and
the link of every other request. -/
theorem credentials_mail {f : AuthForm} {ar : AuthRequest} {link : GoString}
    (hType : ar.authToken.type = f.type) (hApi : f.type = lit "api" ∨ f.type = lit "web")
    (hPreauth : f.preauth = false) (hCode : ar.code ≠ [] ↔ f.actType = lit "code") :
    Mail.credentials ⟨f.email, authSubject f ar, activateAuthTokenEmail link ar.authToken ar.code⟩ =
      if f.type = lit "api" ∧ f.actType = lit "code" then
        [.code f.email ar.code, .code f.email (escapeHtml ar.code)]
      else [.link (escapeHtml link)] := by
  have hNe : ¬lit "api" = lit "web" := by decide
  have hNe' : ¬lit "web" = lit "api" := by decide
  rcases hApi with hApi | hWeb
  · by_cases hActType : f.actType = lit "code"
    · have hSome := hCode.mpr hActType
      simp [Mail.credentials, authSubject, activateAuthTokenEmail, baseEmail, hType, hApi, hNe,
        hActType, hSome]
    · have hNone : ar.code = [] := not_not.mp fun hSome => hActType (hCode.mp hSome)
      simp [Mail.credentials, authSubject, activateAuthTokenEmail, baseEmail, hType, hApi, hNe,
        hActType, hNone]
  · simp [Mail.credentials, authSubject, activateAuthTokenEmail, baseEmail, hType, hWeb, hNe',
      hPreauth]

/-- An accepted auth request can be completed from what was delivered exactly if
its activation type is not `code`, or the code goes out in a mail for an api
token. -/
theorem requestAuthToken_completable
    (hMail : ∀ link t code body, srv.templates.activateAuthTokenEmail link t code = some body →
      body = activateAuthTokenEmail link t code)
    (hRun : (srv.requestAuthToken env r auth).run (exec b) w = (.ok reply, w')) :
    ∃ key stored mails, w'.storage = w.storage.putAuthRequest key (some stored) ∧
      w'.outbox = w.outbox ++ mails ∧
      (srv.Completable b w' stored (delivered (srv.authForm r auth) reply mails) ↔
        (srv.authForm r auth).actType ≠ lit "code" ∨
          (srv.authForm r auth).type = lit "api" ∧ (srv.authForm r auth).preauth = false) := by
  obtain ⟨new, ar, mails, hCheck, hNew, rfl, hMailed, hBody, rfl⟩ := requestAuthToken_ok hRun
  generalize srv.authForm r auth = f at *
  obtain ⟨hEmail, -, hApi, -⟩ := AuthForm.check_ok hCheck
  have hType : f.type ≠ [] := by
    rcases hApi with hApi | hApi <;> rw [hApi] <;> decide
  have hFields := newAuthRequest_key hNew hType
  refine ⟨_, _, mails, rfl, rfl, ?_⟩
  generalize hRequest : ({ new with redirect := f.redirect } : AuthRequest) = ar at *
  obtain ⟨hArEmail, hArType, hSafe, hCodeSafe, hCode, hToken⟩ :
      ar.authToken.email = f.email ∧ ar.authToken.type = f.type ∧ ar.token.all urlSafe = true ∧
        ar.code.all urlSafe = true ∧ (ar.code ≠ [] ↔ f.actType = lit "code") ∧
        (ar.token ≠ [] ↔ f.actType ≠ lit "code") := by
    subst hRequest
    exact hFields
  have hLookup : (w.storage.putAuthRequest ar.key (some (ar.marshal b.json))).authRequests ar.key =
      some (ar.marshal b.json) := by
    simp [Tables.putAuthRequest]
  cases hPreauth : f.preauth with
  | true =>
    rw [delivered, if_pos hPreauth, credentials_reply hPreauth hBody, activationLink,
      completable_link _ hSafe hLookup, hToken]
    simp
  | false =>
    rw [Mailed, if_neg (by simp [hPreauth])] at hMailed
    obtain ⟨body, rfl, hRendered⟩ := hMailed
    obtain rfl := hMail _ _ _ _ hRendered
    rw [delivered, if_neg (by simp [hPreauth]), List.flatMap_singleton,
      credentials_mail hArType hApi hPreauth hCode]
    split
    · rename_i hShown
      have hSome := hCode.mpr hShown.2
      have hKey : ar.key = f.email ++ lit "-" ++ ar.code := by
        rw [AuthRequest.key, if_neg (by simpa [hShown.2] using hToken), hArEmail]
      simp only [Completable, ne_eq, List.cons_ne_nil, not_false_eq_true, true_and,
        escapeHtml_urlSafe hCodeSafe, List.mem_cons, List.not_mem_nil, or_false, or_self,
        forall_eq, hShown.1, and_self, or_true, iff_true]
      exact completes_code hEmail hSome (by rw [← hKey]; exact hLookup)
    · rename_i hShown
      rw [escapeHtml_activationLink hSafe, completable_link _ hSafe hLookup, hToken]
      constructor
      · exact .inl
      · rintro (hActType | ⟨hType, -⟩)
        · exact hActType
        · exact fun hActType => hShown ⟨hType, hActType⟩

/-! ## A login code that nobody is told -/

/-- An auth request of a new client for a token of the given type, with a code. -/
def codeRequest (type : GoString) : Request :=
  { method := lit "POST"
    header := fun h =>
      match h with
      | .contentType => lit "application/x-www-form-urlencoded"
      | _ => []
    body := lit "type=" ++ type ++ lit "&actType=code&email=e@x.io" }

def codeRun (type : GoString) : Except HttpError Reply × World Tables :=
  (standard.requestAuthToken (.after 0 (.constant 0)) (codeRequest type) none).run
    (exec .levelDB) { storage := Tables.empty }

theorem standard_template (link : GoString) (t : AuthToken) (code : GoString) (body : List Piece)
    (hBody : standard.templates.activateAuthTokenEmail link t code = some body) :
    body = activateAuthTokenEmail link t code := (Option.some.inj hBody).symm

/-- The response for an api token, with the id and the secret of zero bytes. -/
def codeReply : Reply :=
  { status := 202
    body := .json
      [(lit "email", lit "e@x.io"), (lit "id", lit "AAAAAAAA"),
        (lit "token", lit "AAAAAAAAAAAAAAAAAAAAAA")] }

theorem requestAuthToken_completable_api :
    ∃ key stored mails, (codeRun (lit "api")).2.storage =
        Tables.empty.putAuthRequest key (some stored) ∧
      (codeRun (lit "api")).2.outbox = [] ++ mails ∧
      (Completable standard .levelDB (codeRun (lit "api")).2 stored
        (delivered (standard.authForm (codeRequest (lit "api")) none) codeReply mails) ↔
          (standard.authForm (codeRequest (lit "api")) none).actType ≠ lit "code" ∨
            (standard.authForm (codeRequest (lit "api")) none).type = lit "api" ∧
              (standard.authForm (codeRequest (lit "api")) none).preauth = false) := by
  have hResult : (codeRun (lit "api")).1 = .ok codeReply := by decide +kernel
  exact requestAuthToken_completable (w := { storage := Tables.empty }) standard_template
    (Program.run_eq hResult)

/-- Not every accepted auth request can be completed: the mail for a web token
has a link where the code should be. -/
theorem requestAuthToken_hides_code :
    ¬∀ (srv : Server) (b : Backend) (env : Env) (r : Request) (auth : Option Auth)
      (w w' : World Tables) (reply : Reply),
      (∀ link t code body, srv.templates.activateAuthTokenEmail link t code = some body →
        body = activateAuthTokenEmail link t code) →
      (srv.requestAuthToken env r auth).run (exec b) w = (.ok reply, w') → reply.status = 202 →
      ∃ key stored mails, w'.storage = w.storage.putAuthRequest key (some stored) ∧
        w'.outbox = w.outbox ++ mails ∧
        srv.Completable b w' stored (delivered (srv.authForm r auth) reply mails) := by
  intro hAll
  have hResult : (codeRun (lit "web")).1 = .ok { status := 202 } := by decide +kernel
  obtain ⟨key, stored, mails, -, hOutbox, -, hCompletes⟩ :=
    hAll standard .levelDB (.after 0 (.constant 0)) (codeRequest (lit "web")) none
      { storage := Tables.empty } (codeRun (lit "web")).2 { status := 202 } standard_template
      (Program.run_eq hResult) rfl
  rw [List.nil_append] at hOutbox
  subst hOutbox
  have hDelivered : delivered (standard.authForm (codeRequest (lit "web")) none) { status := 202 }
      (codeRun (lit "web")).2.outbox = [.link (lit "http://" ++ lit "/a/?t=")] := by
    decide +kernel
  rw [hDelivered] at hCompletes
  exact not_completes_link stored _ (hCompletes _ (List.mem_singleton.mpr rfl))

end Server

end PadlockCloud
