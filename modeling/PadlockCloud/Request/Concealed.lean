import PadlockCloud.Request.Twinned

/-!
# Requests with other activation tokens

A request for an auth token draws an activation token and a code. Drawn anew, they change
the stored auth request, its key and the content of the mail, and nothing else: the request
makes alike calls and gets a reply that is the same up to the link of the JSON response.
-/

namespace PadlockCloud

open Process

/-! ## What is concealed -/

/-- The activation token and the code of the random bytes are keys of concealed auth
requests only. -/
structure Random.Conceals (hidden : GoString → Prop) (ρ : Random) : Prop where
  link : hidden (Random.tokenString ρ.token)
  code : ∀ email, hidden (email ++ lit "-" ++ encodeHex ρ.code.toList)

/-- The request draws another activation token and another code. -/
def Env.redraw (env : Env) (ρ : Random) : Env := { env with random := some ρ }

/-- Two actions that differ in concealed activation tokens and codes at most. -/
inductive Action.Redrawn (hidden : GoString → Prop) : Action → Action → Prop where
  | same (action : Action) : Redrawn hidden action action
  | redrawn (endpoint : Endpoint) (env : Env) (r : Request) (ρ ρ' : Random)
      (hEndpoint : ∀ method, endpoint.handler method ≠ some .activateAuthToken)
      (hRandom : env.random = some ρ) (hSecret : ρ'.secret = ρ.secret) (hId : ρ'.id = ρ.id)
      (hConceals : ρ.Conceals hidden) (hConceals' : ρ'.Conceals hidden) :
      Redrawn hidden (.serve endpoint env r) (.serve endpoint (env.redraw ρ') r)

/-- The body without the activation link. -/
def Body.masked : Body → Body
  | .json fields => .json (fields.filter fun field => field.1 ≠ lit "actUrl")
  | body => body

def Reply.masked (reply : Reply) : Reply := { reply with body := reply.body.masked }

/-- The reply may contain the activation link: the server is in test mode, or the client is
authenticated already. -/
def Action.discloses (srv : Server) : Action → Prop
  | .serve _ _ r => srv.test = true ∨ (authTokenFromRequest r).isSome
  | .clean _ _ => False

/-- The replies of two actions are the same, up to the link where it may be disclosed. -/
structure Reply.Like (discloses : Prop) (reply reply' : Reply) : Prop where
  masked : reply'.masked = reply.masked
  same : ¬discloses → reply' = reply

/-- Whether the mail can be made does not depend on the link and on the code. -/
def Templates.Steady (templates : Templates) : Prop :=
  ∀ link link' t code code', (templates.activateAuthTokenEmail link t code).isSome =
    (templates.activateAuthTokenEmail link' t code').isSome

/-- Calls that differ in concealed auth requests and in the content of mails. -/
inductive Call.Like (hidden : GoString → Prop) : Call → Call → Prop where
  | same (c : Call) : Like hidden c c
  | stores (ar ar' : AuthRequest) (hHidden : hidden ar.key) (hHidden' : hidden ar'.key) :
      Like hidden (.storage (.putAuthRequest ar)) (.storage (.putAuthRequest ar'))
  | sends (mail mail' : Mail) (hRecipient : mail'.recipient = mail.recipient) :
      Like hidden (.send mail) (.send mail')

def Call.likeness (hidden : GoString → Prop) : Likeness Call.Resp where
  call := Call.Like hidden
  response _ _ r r' := HEq r r'

theorem Call.plain_likeness {hidden : GoString → Prop} (c : Call) : (Call.likeness hidden).Plain (fun _ _ => True) c :=
  ⟨.same c, eq_of_heq, fun _ => trivial⟩

/-- The call does not come upon a concealed auth request. -/
def Call.avoids (hidden : GoString → Prop) : Call → Prop
  | .storage (.getAuthRequest key) => ¬hidden key
  | .storage (.iterator keys) => ∀ key ∈ keys, ¬hidden key
  | _ => True

/-- Two worlds that differ in concealed auth requests and in the content of mails. -/
structure World.Apart (hidden : GoString → Prop) (w w' : World Tables) : Prop where
  accounts : w'.storage.accounts = w.storage.accounts
  dataStores : w'.storage.dataStores = w.storage.dataStores
  authRequests : ∀ key, ¬hidden key → w'.storage.authRequests key = w.storage.authRequests key
  held : w'.held = w.held
  recipients : w'.outbox.map Mail.recipient = w.outbox.map Mail.recipient

variable {hidden : GoString → Prop}

/-- Worlds that are apart answer alike calls alike, unless a call comes upon a concealed
auth request. -/
theorem World.Apart.step {b : Backend} {w w' : World Tables} {c c' : Call}
    (hApart : w.Apart hidden w') (hLike : c.Like hidden c') (hAvoids : c.avoids hidden) :
    (exec b c w).2.Apart hidden (exec b c' w').2 ∧ HEq (exec b c w).1 (exec b c' w').1 := by
  have hUpdate {k : GoString} {found : Option AuthRequest} (key : GoString) (hShown : ¬hidden key) :
      Function.update w'.storage.authRequests k found key =
        Function.update w.storage.authRequests k found key := by
    simp only [Function.update_apply, hApart.authRequests key hShown]
  cases hLike with
  | same =>
    rcases c with c | email | email | mail
    · cases c with
      | getAccount email =>
        refine ⟨hApart, heq_of_eq ?_⟩
        show lookup w.storage.accounts email = lookup w'.storage.accounts email
        rw [hApart.accounts]
      | putAccount now acc =>
        refine ⟨{ hApart with accounts := ?_ }, HEq.rfl⟩
        exact congrArg (Function.update · _ _) hApart.accounts
      | deleteAccount email =>
        refine ⟨{ hApart with accounts := ?_ }, HEq.rfl⟩
        exact congrArg (Function.update · _ _) hApart.accounts
      | getAuthRequest key =>
        refine ⟨hApart, heq_of_eq ?_⟩
        show lookup w.storage.authRequests key = lookup w'.storage.authRequests key
        unfold lookup
        rw [hApart.authRequests key hAvoids]
      | putAuthRequest ar => exact ⟨{ hApart with authRequests := hUpdate }, HEq.rfl⟩
      | deleteAuthRequest key => exact ⟨{ hApart with authRequests := hUpdate }, HEq.rfl⟩
      | getDataStore acc =>
        refine ⟨hApart, heq_of_eq ?_⟩
        show lookup w.storage.dataStores acc.email = lookup w'.storage.dataStores acc.email
        rw [hApart.dataStores]
      | putDataStore acc content =>
        refine ⟨{ hApart with dataStores := ?_ }, HEq.rfl⟩
        exact congrArg (Function.update · _ _) hApart.dataStores
      | deleteDataStore email =>
        refine ⟨{ hApart with dataStores := ?_ }, HEq.rfl⟩
        exact congrArg (Function.update · _ _) hApart.dataStores
      | iterator keys =>
        refine ⟨hApart, heq_of_eq ?_⟩
        show Except.ok (keys.filterMap w.storage.authRequests) =
          Except.ok (keys.filterMap w'.storage.authRequests)
        rw [List.filterMap_congr fun key hKey => hApart.authRequests key (hAvoids key hKey)]
    · refine ⟨{ hApart with held := ?_ }, HEq.rfl⟩
      exact congrArg (Function.update · _ _) hApart.held
    · refine ⟨{ hApart with held := ?_ }, HEq.rfl⟩
      exact congrArg (Function.update · _ _) hApart.held
    · refine ⟨{ hApart with recipients := ?_ }, HEq.rfl⟩
      simp only [World.step, List.map_append, hApart.recipients]
  | stores ar ar' hHidden hHidden' =>
    refine ⟨{ hApart with authRequests := fun key hShown => ?_ }, HEq.rfl⟩
    have hOther : key ≠ ar.key := fun hSame => hShown (hSame ▸ hHidden)
    have hOther' : key ≠ ar'.key := fun hSame => hShown (hSame ▸ hHidden')
    simp only [World.step, Tables.step, Tables.putAuthRequest, Function.update_of_ne hOther,
      Function.update_of_ne hOther', hApart.authRequests key hShown]
  | sends mail mail' hRecipient =>
    refine ⟨{ hApart with recipients := ?_ }, HEq.rfl⟩
    simp only [World.step, List.map_append, List.map_cons, List.map_nil, hApart.recipients,
      hRecipient]

theorem Call.Like.enabled {σ : Type} {c c' : Call} {w w' : World σ} (hLike : c.Like hidden c')
    (hHeld : w'.held = w.held) (hEnabled : c.enabled w = true) : c'.enabled w' = true := by
  cases hLike with
  | same =>
    cases c with
    | lock email =>
      simp only [Call.enabled, hHeld]
      exact hEnabled
    | _ => rfl
  | stores => rfl
  | sends => rfl

/-! ## The handlers -/

theorem Reply.Like.refl {discloses : Prop} (reply : Reply) : Reply.Like discloses reply reply :=
  ⟨rfl, fun _ => rfl⟩

namespace Server

variable {srv : Server} {endpoint : Endpoint} {env : Env} {r : Request} {auth : Option Auth}
  {discloses : Prop} {ρ ρ' : Random}

theorem like_same {α : Type} (p : Serve α) :
    p.Like (Call.likeness hidden) (fun a a' => a' = a) p := .refl Call.plain_likeness p

/-- With other random bytes for the activation, the auth request is for the same token. -/
theorem newAuthRequest_redraw (hRandom : env.random = some ρ) (hSecret : ρ'.secret = ρ.secret)
    (hId : ρ'.id = ρ.id) (hConceals : ρ.Conceals hidden) (hConceals' : ρ'.Conceals hidden)
    (email tType actType : GoString) (device : Option Device) :
    ∃ ar ar', newAuthRequest env email tType actType device = some ar ∧
      newAuthRequest (env.redraw ρ') email tType actType device = some ar' ∧
      ar'.authToken = ar.authToken ∧ hidden ar.key ∧ hidden ar'.key := by
  have hLink (σ : Random) (t : AuthToken) (created : Time) :
      ({ authToken := t, created, token := Random.tokenString σ.token } : AuthRequest).key =
        Random.tokenString σ.token := by
    rw [AuthRequest.key, if_pos (tokenString_ne_nil _)]
  have hToken : newAuthToken (env.redraw ρ') email tType device =
      newAuthToken env email tType device := by
    simp only [newAuthToken, Env.redraw, hRandom, Option.map_some, hSecret, hId]
  cases hNew : newAuthToken env email tType device with
  | none =>
    rw [newAuthToken, hRandom] at hNew
    cases hNew
  | some t =>
    have hDrawn : (env.redraw ρ').random = some ρ' := rfl
    simp only [newAuthRequest, hToken, hNew, hRandom, hDrawn, Option.bind_eq_bind,
      Option.bind_some]
    by_cases hCode : actType = lit "code"
    · simp only [if_pos hCode]
      exact ⟨_, _, rfl, rfl, rfl, hConceals.code t.email, hConceals'.code t.email⟩
    · simp only [if_neg hCode]
      refine ⟨_, _, rfl, rfl, rfl, ?_, ?_⟩
      · rw [hLink]
        exact hConceals.link
      · rw [hLink]
        exact hConceals'.link

/-- The response shows the link only where it may be disclosed. -/
theorem like_authResponse {f : AuthForm} {ar ar' : AuthRequest}
    (hToken : ar'.authToken = ar.authToken)
    (hDiscloses : ¬discloses → srv.test = false ∧ f.preauth = false) :
    (srv.authResponse r f ar).Like (Call.likeness hidden)
      (fun body body' => body'.masked = body.masked ∧ (¬discloses → body' = body))
        (srv.authResponse r f ar') := by
  unfold authResponse
  dsimp only
  split
  · rw [hToken]
    refine .pure ⟨?_, fun hKeeps => ?_⟩
    · simp only [Body.masked]
      split <;> simp
    · obtain ⟨hTest, hNone⟩ := hDiscloses hKeeps
      simp [hTest, hNone]
  · cases srv.templates.loginPage (some f.email) with
    | none => exact .fail _
    | some page => exact .pure ⟨rfl, fun _ => rfl⟩

/-- The mail goes to the same recipient. -/
theorem like_sendActivation (hTemplate : srv.templates.Steady)
    {f : AuthForm} {ar ar' : AuthRequest} (hToken : ar'.authToken = ar.authToken) :
    (srv.sendActivation env r f ar).Like (Call.likeness hidden) (fun _ _ => True)
      (srv.sendActivation (env.redraw ρ') r f ar') := by
  have hLimit : (env.redraw ρ').rateLimited = env.rateLimited := rfl
  unfold sendActivation
  rw [hLimit]
  split
  · exact .pure trivial
  · split
    · exact .fail _
    · have hBoth := hTemplate (srv.activationLink r ar) (srv.activationLink r ar') ar.authToken
        ar.code ar'.code
      rw [hToken]
      cases hMail : srv.templates.activateAuthTokenEmail (srv.activationLink r ar) ar.authToken
        ar.code with
      | none =>
        rw [hMail, Option.isSome_none, eq_comm, Option.isSome_eq_false_iff,
          Option.isNone_iff_eq_none] at hBoth
        rw [hBoth]
        exact .fail _
      | some body =>
        rw [hMail, Option.isSome_some, eq_comm, Option.isSome_iff_exists] at hBoth
        obtain ⟨body', hMail'⟩ := hBoth
        rw [hMail']
        exact .call (.sends _ _ rfl) fun _ _ _ => .pure trivial

theorem conceals_requestAuthToken (hTemplate : srv.templates.Steady)
    (hRandom : env.random = some ρ) (hSecret : ρ'.secret = ρ.secret) (hId : ρ'.id = ρ.id)
    (hConceals : ρ.Conceals hidden) (hConceals' : ρ'.Conceals hidden)
    (hDiscloses : ¬discloses → srv.test = false ∧ auth = none) :
    Twinned (Call.likeness hidden) (Reply.Like discloses) env (env.redraw ρ') srv.requestAuthToken
      r auth := by
  unfold Twinned requestAuthToken
  dsimp only
  cases AuthForm.check srv (srv.authForm r auth) with
  | error e => exact .fail e
  | ok u =>
    refine .bind_same (like_same _) fun _ => ?_
    have hIssue : (issueAuthRequest env (srv.authForm r auth)).Like (Call.likeness hidden)
        (fun ar ar' => ar'.authToken = ar.authToken)
          (issueAuthRequest (env.redraw ρ') (srv.authForm r auth)) := by
      obtain ⟨ar, ar', hNew, hNew', hToken, hKey, hKey'⟩ :=
        newAuthRequest_redraw hRandom hSecret hId hConceals hConceals' (srv.authForm r auth).email
          (srv.authForm r auth).type (srv.authForm r auth).actType (srv.authForm r auth).device
      unfold issueAuthRequest
      rw [hNew, hNew']
      refine .call (.stores _ _ hKey hKey') fun result result' hSame => ?_
      obtain rfl := eq_of_heq hSame
      cases result with
      | error e => exact .fail _
      | ok u => exact .pure hToken
    refine hIssue.bind fun ar ar' hToken => ?_
    have hResponse : (srv.authResponse r (srv.authForm r auth) ar).Like (Call.likeness hidden)
        (fun body body' => body'.masked = body.masked ∧ (¬discloses → body' = body))
          (srv.authResponse r (srv.authForm r auth) ar') := by
      refine like_authResponse hToken fun hKeeps => ?_
      obtain ⟨hTest, rfl⟩ := hDiscloses hKeeps
      exact ⟨hTest, rfl⟩
    refine hResponse.bind fun body body' hBody => ?_
    refine (like_sendActivation hTemplate hToken).bind fun _ _ _ => .pure ⟨?_, fun hKeeps => ?_⟩
    · simp only [Reply.masked, hBody.1]
    · rw [hBody.2 hKeeps]

/-- Every handler but the one for activations conceals the activation. -/
theorem conceals_handle (hTemplate : srv.templates.Steady)
    (hEndpoint : ∀ method, endpoint.handler method ≠ some .activateAuthToken)
    (hRandom : env.random = some ρ) (hSecret : ρ'.secret = ρ.secret) (hId : ρ'.id = ρ.id)
    (hConceals : ρ.Conceals hidden) (hConceals' : ρ'.Conceals hidden)
    (hDiscloses : ¬discloses → srv.test = false ∧ auth = none) :
    Twinned (Call.likeness hidden) (Reply.Like discloses) env (env.redraw ρ')
      (endpoint.handle srv) r auth := by
  unfold Twinned Endpoint.handle
  have hOther := hEndpoint r.method
  cases hHandler : endpoint.handler r.method with
  | none => exact .fail _
  | some handler =>
    cases handler with
    | requestAuthToken =>
      exact conceals_requestAuthToken hTemplate hRandom hSecret hId hConceals hConceals' hDiscloses
    | activateAuthToken => exact absurd hHandler hOther
    | _ =>
      refine (like_same _).mono fun reply reply' hSame => ?_
      rw [hSame]
      exact .refl reply

/-- An action and the same action with other concealed tokens and codes. -/
theorem like_program (hTemplate : srv.templates.Steady)
    {action action' : Action} (hRedrawn : action.Redrawn hidden action') :
    (action.program srv).Like (Call.likeness hidden)
      (fun reply reply' => reply'.map Reply.masked = reply.map Reply.masked ∧
        (action' = action ∨ ¬action.discloses srv → reply' = reply)) (action'.program srv) := by
  by_cases hSame : action' = action
  · subst hSame
    refine (like_same _).mono fun reply reply' hSame => ?_
    rw [hSame]
    exact ⟨rfl, fun _ => rfl⟩
  cases hRedrawn with
  | same => exact absurd rfl hSame
  | redrawn endpoint env r ρ ρ' hEndpoint hRandom hSecret hId hConceals hConceals' =>
    -- Authentication does not depend on the random bytes.
    have hAuthenticate : (srv.authenticate env r).Like (Call.likeness hidden)
        (fun a a' => a' = a ∧ (authTokenFromRequest r).isSome)
          (srv.authenticate (env.redraw ρ') r) := by
      show (srv.authenticate env r).Like _ _ (srv.authenticate env r)
      cases hToken : authTokenFromRequest r with
      | none =>
        unfold authenticate
        rw [hToken]
        exact .fail _
      | some t => exact (like_same _).mono fun _ _ hSame => ⟨hSame, rfl⟩
    have hServe : Twinned (Call.likeness hidden)
        (Reply.Like ((Action.serve endpoint env r).discloses srv)) env (env.redraw ρ')
          (srv.wrap endpoint (endpoint.handle srv)) r none := by
      apply twinned_wrap Reply.Like.refl (fun _ => Call.Like.same _) (fun _ => Call.Like.same _) _
        hAuthenticate
      · intro r' auth _ hAuth
        apply conceals_handle hTemplate hEndpoint hRandom hSecret hId hConceals hConceals'
        intro hKeeps
        rw [Action.discloses, not_or, Bool.not_eq_true, Option.not_isSome_iff_eq_none] at hKeeps
        refine ⟨hKeeps.1, Option.eq_none_iff_forall_ne_some.mpr fun a hSome => ?_⟩
        have hCredential := hAuth a hSome
        rw [hKeeps.2] at hCredential
        cases hCredential
      · exact fun r' => (like_same _).mono fun _ _ _ => trivial
    refine hServe.bind fun reply reply' hLike => .pure ⟨?_, fun hShown => ?_⟩
    · rw [Option.map_some, Option.map_some, hLike.masked]
    · rw [hLike.same (hShown.resolve_left hSame)]

end Server

end PadlockCloud
