import PadlockCloud.Request.Scope
import PadlockCloud.Request.Twinned

/-!
# Requests that do not see some records

Two worlds differ under a veil: in the accounts of some emails and in what is in the data
stores of some emails, but not in which of them there are. A request without a credential
for one of these accounts does the same in both worlds, except that the owner of a data
store reads its content. The accounts and the data stores still differ under the veil only.
-/

namespace PadlockCloud

open Process

/-! ## What is hidden -/

/-- The emails whose accounts may differ, and those whose data stores may have another
content. -/
structure Veil where
  accounts : GoString → Prop
  contents : GoString → Prop

/-- Two tables with the same keys that differ in what is hidden only. -/
def Hides {α : Type} (hidden : GoString → Prop) (f f' : GoString → Option α) : Prop :=
  ∀ k, (f' k).isSome = (f k).isSome ∧ (¬hidden k → f' k = f k)

/-- Two results of a look-up: the same error, or two values. -/
inductive Results {α : Type} (hidden : Prop) (good : α → Prop) :
    Except StorageError α → Except StorageError α → Prop where
  | error (e : StorageError) : Results hidden good (.error e) (.error e)
  | ok {a a' : α} (hSame : ¬hidden → a' = a) (hGood : good a) (hGood' : good a') :
      Results hidden good (.ok a) (.ok a')

section Hides

variable {α : Type} {hidden : GoString → Prop} {f f' : GoString → Option α}

theorem Hides.refl (f : GoString → Option α) : Hides hidden f f := fun _ => ⟨rfl, fun _ => rfl⟩

theorem Hides.update (hHides : Hides hidden f f') (k : GoString) (o o' : Option α)
    (hExists : o'.isSome = o.isSome) (hSame : ¬hidden k → o' = o) :
    Hides hidden (Function.update f k o) (Function.update f' k o') := by
  intro key
  simp only [Function.update_apply]
  split
  · rename_i hKey
    rw [hKey]
    exact ⟨hExists, hSame⟩
  · exact hHides key

theorem Hides.update_same (hHides : Hides hidden f f') (k : GoString) (o : Option α) :
    Hides hidden (Function.update f k o) (Function.update f' k o) :=
  hHides.update k o o rfl fun _ => rfl

theorem Hides.lookup {good : α → Prop} (hHides : Hides hidden f f') (k : GoString)
    (hGood : ∀ a, f k = some a → good a) (hGood' : ∀ a, f' k = some a → good a) :
    Results (hidden k) good (lookup f k) (lookup f' k) := by
  obtain ⟨hExists, hSame⟩ := hHides k
  unfold PadlockCloud.lookup
  cases hFound : f k with
  | none =>
    rw [hFound, Option.isSome_none, Option.isSome_eq_false_iff, Option.isNone_iff_eq_none] at hExists
    rw [hExists]
    exact .error _
  | some a =>
    rw [hFound, Option.isSome_some, Option.isSome_iff_exists] at hExists
    obtain ⟨a', hFound'⟩ := hExists
    rw [hFound']
    refine .ok (fun hShown => ?_) (hGood a hFound) (hGood' a' hFound')
    have hEq := hSame hShown
    rw [hFound, hFound'] at hEq
    exact Option.some.inj hEq

theorem Results.same {hidden : Prop} {good : α → Prop} {r r' : Except StorageError α}
    (hResults : Results hidden good r r') (hShown : ¬hidden) : r = r' := by
  cases hResults with
  | error e => rfl
  | ok hSame => rw [hSame hShown]

theorem Results.good {hidden : Prop} {good : α → Prop} {r r' : Except StorageError α}
    (hResults : Results hidden good r r') : ∀ a, r = .ok a → good a := by
  intro a hOk
  cases hResults with
  | error e => cases hOk
  | ok _ hGood => rwa [← Except.ok.inj hOk]

end Hides

variable {V : Veil} {b : Backend}

/-- Two worlds that differ under the veil. -/
structure World.Veiled (V : Veil) (b : Backend) (w w' : World Tables) : Prop where
  sound : w.storage.Sound b.json
  sound' : w'.storage.Sound b.json
  accounts : Hides V.accounts w.storage.accounts w'.storage.accounts
  dataStores : Hides V.contents w.storage.dataStores w'.storage.dataStores
  authRequests : w'.storage.authRequests = w.storage.authRequests
  held : w'.held = w.held
  outbox : w'.outbox = w.outbox

/-! ## Calls -/

namespace Call

/-- The same call, or two accounts that are stored for a hidden email. -/
inductive Veiled (V : Veil) (b : Backend) : Call → Call → Prop where
  | same (c : Call) (hKeeps : c.keepsSound b) : Veiled V b c c
  | writes (now : Time) {acc acc' : Account} (hHidden : V.accounts acc.email)
      (hEmail : acc'.email = acc.email) (hSound : acc.Sound b.json acc.email)
      (hSound' : acc'.Sound b.json acc.email) :
      Veiled V b (.storage (.putAccount now acc)) (.storage (.putAccount now acc'))

/-- What two worlds answer to such calls. -/
def answers (V : Veil) (b : Backend) : (c c' : Call) → c.Resp → c'.Resp → Prop
  | .storage (.getAccount k), .storage (.getAccount _), r, r' =>
    Results (V.accounts k) (fun acc => acc.Sound b.json k) r r'
  | .storage (.getDataStore acc), .storage (.getDataStore _), r, r' =>
    Results (V.contents acc.email) (fun _ => True) r r'
  | .storage (.putAccount now acc), .storage (.putAccount now' acc'), r, r' =>
    r = .ok (b.prepare now acc) ∧ r' = .ok (b.prepare now' acc')
  | c, _, r, r' => HEq r r' ∧ c.sound b r

abbrev veil (V : Veil) (b : Backend) : Likeness Call.Resp := ⟨Veiled V b, answers V b⟩

/-- The call does not look under the veil. -/
def plain (V : Veil) (b : Backend) : Call → Prop
  | .storage (.getAccount k) => ¬V.accounts k
  | .storage (.getDataStore acc) => ¬V.contents acc.email
  | c => c.keepsSound b

theorem plain_veil {c : Call} (hPlain : c.plain V b) : (veil V b).Plain (Call.sound b) c := by
  rcases c with c | email | email | mail
  · cases c with
    | getAccount k => exact ⟨.same _ trivial, fun h => h.same hPlain, fun h => h.good⟩
    | getDataStore acc => exact ⟨.same _ trivial, fun h => h.same hPlain, fun _ => trivial⟩
    | putAccount now acc =>
      refine ⟨.same _ hPlain, fun h => h.1.trans h.2.symm, fun h acc' hStored => ?_⟩
      exact (Except.ok.inj (h.1.symm.trans hStored)).symm
    | _ => exact ⟨.same _ hPlain, fun h => eq_of_heq h.1, fun h => h.2⟩
  all_goals exact ⟨.same _ hPlain, fun h => eq_of_heq h.1, fun h => h.2⟩

theorem Veiled.keeps {c c' : Call} (hVeiled : c.Veiled V b c') :
    c.keepsSound b ∧ c'.keepsSound b := by
  cases hVeiled with
  | same _ hKeeps => exact ⟨hKeeps, hKeeps⟩
  | writes _ _ hEmail hSound hSound' =>
    refine ⟨hSound, ?_⟩
    rw [← hEmail] at hSound'
    exact hSound'

theorem Veiled.enabled {σ : Type} {c c' : Call} {w w' : World σ} (hVeiled : c.Veiled V b c')
    (hHeld : w'.held = w.held) (hEnabled : c.enabled w = true) : c'.enabled w' = true := by
  cases hVeiled with
  | same =>
    cases c with
    | lock email =>
      simp only [Call.enabled, hHeld]
      exact hEnabled
    | _ => rfl
  | writes => rfl

end Call

theorem exec_putAccount (b : Backend) (now : Time) (acc : Account) (w : World Tables) :
    exec b (.storage (.putAccount now acc)) w =
      (.ok (b.prepare now acc), { w with storage := w.storage.storeAccount b now acc }) := by
  simp only [World.step, Tables.step_putAccount]

/-- The worlds answer as they should, and differ under the veil as before. -/
theorem World.Veiled.step {w w' : World Tables} {c c' : Call} (hWorlds : w.Veiled V b w')
    (hCalls : c.Veiled V b c') :
    (exec b c w).2.Veiled V b (exec b c' w').2 ∧
      Call.answers V b c c' (exec b c w).1 (exec b c' w').1 := by
  obtain ⟨hKeeps, hKeeps'⟩ := hCalls.keeps
  have hSound := Call.sound_exec hWorlds.sound hKeeps
  have hSound' := Call.sound_exec hWorlds.sound' hKeeps'
  cases hCalls with
  | same =>
    rcases c with c | email | email | mail
    · cases c with
      | getAccount k =>
        refine ⟨hWorlds, hWorlds.accounts.lookup k ?_ ?_⟩
        · exact fun acc hFound => hWorlds.sound.soundAt hFound
        · exact fun acc hFound => hWorlds.sound'.soundAt hFound
      | putAccount now acc =>
        rw [exec_putAccount] at hSound hSound' ⊢
        rw [exec_putAccount]
        have hAccounts := hWorlds.accounts.update_same acc.email
          (some ((b.prepare now acc).marshal b.json))
        exact ⟨{ hWorlds with sound := hSound, sound' := hSound', accounts := hAccounts }, rfl, rfl⟩
      | deleteAccount k =>
        have hAccounts := hWorlds.accounts.update_same k none
        refine ⟨{ hWorlds with sound := hSound, sound' := hSound', accounts := hAccounts }, ?_⟩
        exact ⟨HEq.rfl, trivial⟩
      | getAuthRequest key =>
        refine ⟨hWorlds, heq_of_eq ?_, Call.sound_response hWorlds.sound _⟩
        show lookup w.storage.authRequests key = lookup w'.storage.authRequests key
        rw [hWorlds.authRequests]
      | putAuthRequest ar =>
        refine ⟨{ hWorlds with sound := hSound, sound' := hSound', authRequests := ?_ }, ?_⟩
        · exact congrArg (Function.update · _ _) hWorlds.authRequests
        · exact ⟨HEq.rfl, trivial⟩
      | deleteAuthRequest key =>
        refine ⟨{ hWorlds with sound := hSound, sound' := hSound', authRequests := ?_ }, ?_⟩
        · exact congrArg (Function.update · _ _) hWorlds.authRequests
        · exact ⟨HEq.rfl, trivial⟩
      | getDataStore acc =>
        refine ⟨hWorlds, hWorlds.dataStores.lookup acc.email ?_ ?_⟩
        · exact fun _ _ => trivial
        · exact fun _ _ => trivial
      | putDataStore acc content =>
        have hStores := hWorlds.dataStores.update_same acc.email (some content)
        refine ⟨{ hWorlds with sound := hSound, sound' := hSound', dataStores := hStores }, ?_⟩
        exact ⟨HEq.rfl, trivial⟩
      | deleteDataStore k =>
        have hStores := hWorlds.dataStores.update_same k none
        refine ⟨{ hWorlds with sound := hSound, sound' := hSound', dataStores := hStores }, ?_⟩
        exact ⟨HEq.rfl, trivial⟩
      | iterator keys =>
        refine ⟨hWorlds, heq_of_eq ?_, trivial⟩
        show Except.ok (keys.filterMap w.storage.authRequests) =
          Except.ok (keys.filterMap w'.storage.authRequests)
        rw [hWorlds.authRequests]
    · refine ⟨{ hWorlds with held := ?_ }, HEq.rfl, trivial⟩
      exact congrArg (Function.update · _ _) hWorlds.held
    · refine ⟨{ hWorlds with held := ?_ }, HEq.rfl, trivial⟩
      exact congrArg (Function.update · _ _) hWorlds.held
    · refine ⟨{ hWorlds with outbox := ?_ }, HEq.rfl, trivial⟩
      exact congrArg (· ++ [mail]) hWorlds.outbox
  | @writes now acc acc' hHidden hEmail =>
    rw [exec_putAccount] at hSound hSound' ⊢
    rw [exec_putAccount]
    have hAccounts : Hides V.accounts (w.storage.storeAccount b now acc).accounts
        (w'.storage.storeAccount b now acc').accounts := by
      unfold Tables.storeAccount
      rw [hEmail]
      exact hWorlds.accounts.update _ _ _ rfl fun hShown => absurd hHidden hShown
    exact ⟨{ hWorlds with sound := hSound, sound' := hSound', accounts := hAccounts }, rfl, rfl⟩

/-! ## Handlers -/

/-- The same reply, or two replies with the content of a data store. -/
def Reply.Veiled (reads : Prop) (reply reply' : Reply) : Prop :=
  reply' = reply ∨ reads ∧ ∃ content content',
    reply = { body := .bytes content } ∧ reply' = { body := .bytes content' }

theorem Reply.Veiled.refl {reads : Prop} (reply : Reply) : reply.Veiled reads reply := .inl rfl

/-- A request without a credential for a hidden account has all its calls but the look-up
of its data store. -/
theorem admits_plain {email : GoString} (hShown : ¬V.accounts email) :
    Admits b (Call.plain V b) email where
  get := hShown
  put hSound := by
    rw [← hSound.email] at hSound
    exact hSound
  delete := trivial
  putData _ := trivial
  deleteData := trivial

namespace Server

variable {srv : Server} {env : Env} {r : Request} {auth : Option Auth} {endpoint : Endpoint}
  {α : Type} {post : α → Prop} {reads : Prop}

/-- What does not look under the veil does the same. -/
theorem like_plain {p : Serve α} (hStays : p.Stays (Call.sound b) (Call.plain V b) post) :
    p.Like (Call.veil V b) (fun a a' => a' = a ∧ post a) p :=
  .of_stays hStays fun _ => Call.plain_veil

/-- A request for a new token sees which accounts there are, and not what is in them. -/
theorem like_checkAccount (email : GoString) :
    (checkAccount r email).Like (Call.veil V b) (fun _ _ => True) (checkAccount r email) := by
  unfold checkAccount
  split
  · exact .pure trivial
  · refine .call (.same _ trivial) fun found found' hFound => ?_
    cases (hFound : Results _ _ found found') with
    | ok => exact .pure trivial
    | error e =>
      cases e with
      | notFound =>
        refine .call (.same _ trivial) fun data data' hData => ?_
        cases (hData : Results _ _ data data') with
        | ok => exact .pure trivial
        | error e => cases e <;> exact .fail _
      | _ => exact .fail _

theorem twinned_requestAuthToken :
    Twinned (Call.veil V b) (fun reply reply' => reply' = reply) env env srv.requestAuthToken
      r auth := by
  unfold Twinned requestAuthToken
  dsimp only
  cases hForm : AuthForm.check srv (srv.authForm r auth) with
  | error e => exact .fail e
  | ok u =>
    refine (like_checkAccount _).bind fun _ _ _ => ?_
    have hMails (mail : Mail) (_ : srv.isWhitelisted mail.recipient = true) :
        Call.plain V b (.send mail) := trivial
    exact (like_plain (stays_grantToken (fun _ hIssued _ => hIssued) hMails hForm)).mono
      fun _ _ hSame => hSame.1

/-- An activation writes a hidden account without looking at it. -/
theorem like_activate {ar : AuthRequest}
    (hCoerce : b.json.coerce ar.authToken.email = ar.authToken.email)
    (hIssued : ar.authToken.Issued b.json) :
    (activate env ar).Like (Call.veil V b) (fun u u' => u' = u) (activate env ar) := by
  have hRest {acc acc' : Account} (hSame : ¬V.accounts ar.authToken.email → acc' = acc)
      (hSound : acc.Sound b.json ar.authToken.email)
      (hSound' : acc'.Sound b.json ar.authToken.email) :
      ((store (.putAccount env.now (activated acc ar.authToken))).bind fun result =>
        (orFail result).bind fun _ =>
          (store (.deleteAuthRequest ar.key)).bind fun result => orFail result).Like
            (Call.veil V b) (fun u u' => u' = u)
        ((store (.putAccount env.now (activated acc' ar.authToken))).bind fun result =>
          (orFail result).bind fun _ =>
            (store (.deleteAuthRequest ar.key)).bind fun result => orFail result) := by
    have hKept := hSound.activated hIssued
    have hKept' := hSound'.activated hIssued
    have hCall : Call.Veiled V b (.storage (.putAccount env.now (activated acc ar.authToken)))
        (.storage (.putAccount env.now (activated acc' ar.authToken))) := by
      by_cases hHidden : V.accounts ar.authToken.email
      · refine .writes env.now ?_ ?_ ?_ ?_
        · rwa [hKept.email]
        · rw [hKept.email, hKept'.email]
        · rwa [hKept.email]
        · rwa [hKept.email]
      · rw [hSame hHidden]
        rw [← hKept.email] at hKept
        exact .same _ hKept
    refine .call hCall fun result result' hStored => ?_
    obtain ⟨rfl, rfl⟩ : _ ∧ _ := hStored
    refine .call (.same _ trivial) fun deleted deleted' hDeleted => ?_
    obtain rfl := eq_of_heq hDeleted.1
    cases deleted with
    | error e => exact .fail _
    | ok u => exact .pure rfl
  unfold activate
  refine .call (.same _ trivial) fun found found' hFound => ?_
  cases (hFound : Results _ _ found found') with
  | ok hSame hSound hSound' => exact hRest hSame hSound hSound'
  | error e =>
    cases e with
    | notFound => exact hRest (fun _ => rfl) (.empty hCoerce) (.empty hCoerce)
    | _ => exact .fail _

theorem twinned_activateAuthToken (auth : Option Auth) :
    Twinned (Call.veil V b) (fun reply reply' => reply' = reply) env env srv.activateAuthToken
      r auth := by
  have hFound : (srv.getAuthRequest r).Like (Call.veil V b) (fun ar ar' => ar' = ar ∧
      b.json.coerce ar.authToken.email = ar.authToken.email ∧ ar.authToken.Issued b.json)
        (srv.getAuthRequest r) := by
    unfold getAuthRequest
    cases srv.activationPattern r with
    | error e => exact .fail e
    | ok pattern =>
      refine .call (.same _ trivial) fun answer answer' hAnswer => ?_
      obtain ⟨hSame, hSound⟩ : _ ∧ _ := hAnswer
      obtain rfl := eq_of_heq hSame
      rcases answer with (_ | _ | _) | ar
      · exact .fail _
      · exact .fail _
      · exact .fail _
      · exact .pure ⟨rfl, hSound ar rfl⟩
  have hSuccess {ar : AuthRequest}
      (hCoerce : b.json.coerce ar.authToken.email = ar.authToken.email) :
      (srv.success env r ar).Like (Call.veil V b) (fun reply reply' => reply' = reply)
        (srv.success env r ar) := by
    unfold success
    dsimp only
    split
    · cases hNew : newAuthRequest env ar.authToken.email (lit "web") [] ar.authToken.device with
      | none => exact .fail _
      | some login =>
        have hEmail := newAuthRequest_email hNew
        have hIssued : login.authToken.Issued b.json := newAuthRequest_issued hNew (.inr rfl)
        rw [← hEmail] at hCoerce
        exact (like_activate hCoerce hIssued).bind_same fun _ => .pure rfl
    · exact .pure rfl
  refine (hFound.attempt HttpError.isPanic).bind ?_
  rintro _ _ (⟨ar, _, rfl, rfl, rfl, hCoerce, hIssued⟩ | ⟨e, rfl, rfl⟩)
  · exact (like_activate hCoerce hIssued).bind_same fun _ => hSuccess hCoerce
  · dsimp only
    split
    · exact .pure rfl
    · exact .fail e

/-- The reply of a handler depends on the content of the data store of its credential at
most. -/
theorem twinned_handle {handler : Handler}
    (hAuth : ∀ a, auth = some a → ∃ email, ¬V.accounts email ∧ a.For b email ∧
      (handler = .readStore → V.contents email → reads)) :
    Twinned (Call.veil V b) (Reply.Veiled reads) env env (handler.handle srv) r auth := by
  by_cases hRead : handler = .readStore
  · subst hRead
    show Program.Like _ _ (readStore env r auth) (readStore env r auth)
    unfold readStore
    cases auth with
    | none => exact .fail _
    | some a =>
      obtain ⟨email, -, hFor, hReads⟩ := hAuth a rfl
      refine .call (.same _ trivial) fun found found' hFound => ?_
      cases (hFound : Results _ _ found found') with
      | error e =>
        cases e with
        | notFound => exact .pure (.refl _)
        | _ => exact .fail _
      | @ok content content' hSame =>
        rw [hFor.account.email] at hSame
        by_cases hHidden : V.contents email
        · exact .pure (.inr ⟨hReads rfl hHidden, content, content', rfl, rfl⟩)
        · rw [hSame hHidden]
          exact .pure (.refl _)
  · have hSame : Twinned (Call.veil V b) (fun reply reply' => reply' = reply) env env
        (handler.handle srv) r auth := by
      by_cases hRequests : handler = .requestAuthToken
      · subst hRequests
        exact twinned_requestAuthToken
      · by_cases hActivates : handler = .activateAuthToken
        · subst hActivates
          exact twinned_activateAuthToken auth
        · have hAdmits (a : Auth) (hSome : auth = some a) :
              ∃ email, Admits b (Call.plain V b) email ∧ a.For b email := by
            obtain ⟨email, hShown, hFor, -⟩ := hAuth a hSome
            exact ⟨email, admits_plain hShown, hFor⟩
          exact (like_plain (stays_handle hAdmits (fun hStore => absurd hStore hRead) hRequests
            hActivates)).mono fun _ _ hSame => hSame.1
    exact hSame.mono fun _ _ hEq => .inl hEq

/-! ## Whole requests -/

end Server

/-- The request reads a data store whose content is hidden. -/
def Action.reads (V : Veil) : Action → Prop
  | .serve endpoint _ r => endpoint.handler r.method = some .readStore ∧
    ∃ t, authTokenFromRequest r = some t ∧ V.contents t.email
  | .clean _ _ => False

/-- The action comes without a credential for a hidden account. -/
def Action.blind (V : Veil) (action : Action) : Prop :=
  ∀ email, action.mutex = some email → ¬V.accounts email

namespace Server

variable {srv : Server} {env : Env} {r : Request} {endpoint : Endpoint} {action : Action}

/-- A request without a credential for a hidden account does the same in both worlds. -/
theorem twinned_serve (hBlind : (Action.serve endpoint env r).blind V) :
    Twinned (Call.veil V b) (Reply.Veiled ((Action.serve endpoint env r).reads V)) env env
      (srv.wrap endpoint (endpoint.handle srv)) r none := by
  have hCredential {t : AuthToken} (hToken : authTokenFromRequest r = some t) :
      ¬V.accounts t.email := by
    apply hBlind
    rw [Action.mutex, hToken, Option.map_some]
  have hAuthenticate : (srv.authenticate env r).Like (Call.veil V b)
      (fun a a' => a' = a ∧ ∃ t, authTokenFromRequest r = some t ∧ a.For b t.email)
        (srv.authenticate env r) := by
    cases hToken : authTokenFromRequest r with
    | none =>
      unfold authenticate
      rw [hToken]
      exact .fail _
    | some t =>
      have hAdmits : Admits b (Call.plain V b) t.email := admits_plain (hCredential hToken)
      refine (like_plain (stays_authenticate hToken (fun _ _ hSound => hSound) hAdmits.get
        fun _ _ => hAdmits)).mono fun a a' hSame => ?_
      exact ⟨hSame.1, t, rfl, hSame.2.1⟩
  have hMail (r' : Request) : (srv.sendDeprecatedVersionEmail env r').Like (Call.veil V b)
      (fun _ _ => True) (srv.sendDeprecatedVersionEmail env r') :=
    (like_plain (stays_sendDeprecatedVersionEmail fun _ _ => trivial)).mono fun _ _ _ => trivial
  have hLock (email : GoString) : Call.Veiled V b (.lock email) (.lock email) := .same _ trivial
  have hUnlock (email : GoString) : Call.Veiled V b (.unlock email) (.unlock email) :=
    .same _ trivial
  apply twinned_wrap Reply.Veiled.refl hLock hUnlock hMail hAuthenticate
  intro r' auth hChecked hGood
  unfold Twinned Endpoint.handle
  have hMethod := checked_method hChecked
  cases hHandler : endpoint.handler r'.method with
  | none => exact .fail _
  | some handler =>
    refine twinned_handle fun a hSome => ?_
    obtain ⟨t, hToken, hFor⟩ := hGood a hSome
    refine ⟨t.email, hCredential hToken, hFor, ?_⟩
    rintro rfl hHidden
    rw [hMethod] at hHandler
    exact ⟨hHandler, t, hToken, hHidden⟩

/-- An action does the same, except that it may read another content. -/
theorem veiled_program (srv : Server) (hBlind : action.blind V) :
    (action.program srv).Like (Call.veil V b) (Option.Rel (Reply.Veiled (action.reads V)))
      (action.program srv) := by
  cases action with
  | serve endpoint env r =>
    exact (twinned_serve hBlind).bind fun _ _ hVeiled => .pure (.some hVeiled)
  | clean now keys =>
    have hClean : (cleanAuthRequests now keys).Stays (Call.sound b) (Call.plain V b)
        fun _ => True :=
      stays_cleanAuthRequests (fun _ => trivial) (fun _ => trivial) now keys
    exact (like_plain hClean).bind fun _ _ _ => .pure .none

end Server

end PadlockCloud
