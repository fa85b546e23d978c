import PadlockCloud.Model.Standard
import PadlockCloud.Request.Keys

/-!
# Looking up auth requests

No two auth requests get one key unless they are for the same link, or for the same
email with the same code. The look-up of an activation is another matter: it compares
the key as a whole, and the record that it finds replaces what was submitted. So the
submitted parts need not be those of the record.
-/

namespace PadlockCloud

open Process AuthRequest

/-! ## Distinct keys -/

/-- When two new auth requests have the same key. -/
theorem newAuthRequest_key_eq_iff {env₁ env₂ : Env}
    {email₁ email₂ type₁ type₂ actType₁ actType₂ : GoString} {device₁ device₂ : Option Device}
    {first second : AuthRequest}
    (hFirst : newAuthRequest env₁ email₁ type₁ actType₁ device₁ = some first)
    (hSecond : newAuthRequest env₂ email₂ type₂ actType₂ device₂ = some second) :
    first.key = second.key ↔
      first.IsLink ∧ second.IsLink ∧ first.token = second.token ∨
        first.IsCode ∧ second.IsCode ∧
          first.authToken.email = second.authToken.email ∧ first.code = second.code := by
  constructor
  · intro hKey
    by_cases hType₁ : actType₁ = lit "code" <;> by_cases hType₂ : actType₂ = lit "code"
    · have hCode₁ := newAuthRequest_code hFirst hType₁
      have hCode₂ := newAuthRequest_code hSecond hType₂
      rw [hCode₂.key] at hKey
      exact .inr ⟨hCode₁, hCode₂, hCode₁.parts_of_key hKey hCode₂.length_code⟩
    · have hLink₂ := newAuthRequest_link hSecond hType₂
      exact absurd hKey.symm (hLink₂.key_ne (newAuthRequest_code hFirst hType₁))
    · have hLink₁ := newAuthRequest_link hFirst hType₁
      exact absurd hKey (hLink₁.key_ne (newAuthRequest_code hSecond hType₂))
    · have hLink₁ := newAuthRequest_link hFirst hType₁
      have hLink₂ := newAuthRequest_link hSecond hType₂
      rw [hLink₁.key, hLink₂.key] at hKey
      exact .inl ⟨hLink₁, hLink₂, hKey⟩
  · rintro (⟨hLink₁, hLink₂, hToken⟩ | ⟨hCode₁, hCode₂, hEmail, hCode⟩)
    · rw [hLink₁.key, hLink₂.key, hToken]
    · rw [hCode₁.key, hCode₂.key, hEmail, hCode]

/-- A link with random bytes that are zero, and the code of the same bytes for an email that
looks like that link. -/
theorem newAuthRequest_key_eq_iff_lookalike :
    ∃ link code,
      newAuthRequest (.after 0 (.constant 0)) (lit "e@x.io") (lit "api") [] none = some link ∧
      newAuthRequest (.after 0 (.constant 0)) (lit "AAAAAAAAAAAAAAA") (lit "api") (lit "code")
        none = some code ∧
      (link.key = code.key ↔
        link.IsLink ∧ code.IsLink ∧ link.token = code.token ∨
          link.IsCode ∧ code.IsCode ∧
            link.authToken.email = code.authToken.email ∧ link.code = code.code) := by
  obtain ⟨link, hLink⟩ := Option.isSome_iff_exists.mp
    (show (newAuthRequest (.after 0 (.constant 0)) (lit "e@x.io") (lit "api") [] none).isSome by
      decide +kernel)
  obtain ⟨code, hCode⟩ := Option.isSome_iff_exists.mp
    (show (newAuthRequest (.after 0 (.constant 0)) (lit "AAAAAAAAAAAAAAA") (lit "api")
      (lit "code") none).isSome by decide +kernel)
  exact ⟨link, code, hLink, hCode, newAuthRequest_key_eq_iff hLink hCode⟩

namespace Server

variable {srv : Server} {b : Backend} {r : Request} {w : World Tables} {T : Tables} {k : GoString}
  {ar : AuthRequest}

/-! ## What a key leads to -/

/-- What is found under a key: the link with this token, or a code, whose email and
digits make up the key. -/
inductive Found (J : Json) (k : GoString) (ar : AuthRequest) : Prop where
  | link (hLink : ar.IsLink) (hToken : ar.token = k)
  | code (email : GoString) (hCode : ar.IsCode) (hKey : k = email ++ lit "-" ++ ar.code)
      (hEmail : ar.authToken.email = J.coerce email)

theorem found_of_askedFor {J : Json} (hAsked : T.AskedFor J)
    (hFound : T.authRequests k = some ar) : Found J k ar := by
  obtain ⟨srv, env, r, auth, new, hIssues, rfl, rfl⟩ := hAsked hFound
  rcases hIssues.kind with hLink | hCode
  · exact .link (hLink.marshal J) ((hLink.marshal_token J).trans hLink.key.symm)
  · refine .code new.authToken.email (hCode.marshal J) ?_ rfl
    rw [hCode.marshal_code, hCode.key]

/-! ## The look-up of an activation -/

/-- The auth request is the one that was asked for: the link with the submitted
token, or the submitted code for the submitted email. -/
structure IsWanted (srv : Server) (r : Request) (ar : AuthRequest) : Prop where
  link : r.query (lit "t") ≠ [] → ar.IsLink ∧ ar.token = r.query (lit "t")
  code : r.query (lit "t") = [] →
    ar.IsCode ∧ ar.authToken.email = r.postFormValue srv.net (lit "email") ∧
      ar.code = r.postFormValue srv.net (lit "code")

/-- What is submitted has the form that it should have: the token does not end like a
code; the code is one of six digits, for an email that JSON leaves alone. -/
structure WellFormed (srv : Server) (J : Json) (r : Request) : Prop where
  link : r.query (lit "t") ≠ [] → (r.query (lit "t")).getLast?.any isLowerHex = false
  code : r.query (lit "t") = [] →
    (r.postFormValue srv.net (lit "code")).length = 6 ∧
      (r.postFormValue srv.net (lit "code")).all isLowerHex = true ∧
        J.coerce (r.postFormValue srv.net (lit "email")) = r.postFormValue srv.net (lit "email")

theorem activationPattern_ok {pattern : AuthRequest}
    (hPattern : srv.activationPattern r = .ok pattern) :
    pattern =
      { code := r.postFormValue srv.net (lit "code")
        token := r.query (lit "t")
        authToken := { email := r.postFormValue srv.net (lit "email") } } := by
  unfold activationPattern at hPattern
  dsimp only at hPattern
  split at hPattern
  · cases hPattern
  · exact (Except.ok.inj hPattern).symm

/-- With a token: the record under it is the link unless the token ends like a code. -/
theorem Found.link_iff {J : Json} (hFound : Found J k ar) :
    ar.IsLink ∧ ar.token = k ↔ k.getLast?.any isLowerHex = false := by
  cases hFound with
  | link hLink hToken =>
    obtain ⟨c, hLast, hOther⟩ := hLink.getLast_key
    rw [hLink.key, hToken] at hLast
    simp only [hLink, hToken, and_self, hLast, Option.any_some, hOther]
  | code email hCode hKey hEmail =>
    have hLast : k.getLast?.any isLowerHex = true := by
      rw [hKey, List.getLast?_append_of_ne_nil _ hCode.code_ne_nil,
        List.getLast?_eq_some_getLast hCode.code_ne_nil, Option.any_some]
      exact List.all_eq_true.mp hCode.all_code _ (List.getLast_mem _)
    constructor
    · rintro ⟨hLink, -⟩
      exact absurd hCode.token hLink.token_ne_nil
    · intro hOther
      rw [hLast] at hOther
      cases hOther

/-- Without a token: the parts are those of the record if the code has its form. -/
theorem Found.code_iff {J : Json} {email code : GoString}
    (hFound : Found J (email ++ lit "-" ++ code) ar) :
    ar.IsCode ∧ ar.authToken.email = email ∧ ar.code = code ↔
      code.length = 6 ∧ code.all isLowerHex = true ∧ J.coerce email = email := by
  cases hFound with
  | link hLink hToken =>
    constructor
    · rintro ⟨hCode, -⟩
      exact absurd hCode.token hLink.token_ne_nil
    · rintro ⟨hLength, hDigits, -⟩
      have hNonempty : code ≠ [] := List.ne_nil_of_length_pos (by omega)
      obtain ⟨c, hLast, hOther⟩ := hLink.getLast_key
      rw [hLink.key, hToken, List.getLast?_append_of_ne_nil _ hNonempty,
        List.getLast?_eq_some_getLast hNonempty, Option.some.injEq] at hLast
      have hDigit := List.all_eq_true.mp hDigits _ (List.getLast_mem hNonempty)
      rw [hLast, hOther] at hDigit
      cases hDigit
  | code stored hCode hKey hEmail =>
    constructor
    · rintro ⟨-, hSame, rfl⟩
      obtain rfl : email = stored := List.append_cancel_right (List.append_cancel_right hKey)
      exact ⟨hCode.length_code, hCode.all_code, hEmail.symm.trans hSame⟩
    · rintro ⟨hLength, -, hFixed⟩
      obtain ⟨hFront, hBack⟩ := List.append_inj' hKey (hLength.trans hCode.length_code.symm)
      have hStored : email = stored := List.append_cancel_right hFront
      exact ⟨hCode, by rw [hEmail, ← hStored, hFixed], hBack.symm⟩

/-- A look-up that succeeds finds what was asked for exactly if what is submitted has
its form. -/
theorem getAuthRequest_wanted_iff (hAsked : w.storage.AskedFor b.json)
    (hRun : ((srv.getAuthRequest r).run (exec b) w).1 = .ok ar) :
    IsWanted srv r ar ↔ WellFormed srv b.json r := by
  obtain ⟨-, pattern, hPattern, hStored⟩ := getAuthRequest_ok (Program.run_eq hRun)
  have hFound := found_of_askedFor hAsked hStored
  rw [activationPattern_ok hPattern, AuthRequest.key] at hFound
  dsimp only at hFound
  by_cases hToken : r.query (lit "t") = []
  · rw [if_neg (not_not_intro hToken)] at hFound
    constructor
    · intro hWanted
      exact ⟨fun hLink => absurd hToken hLink, fun _ => hFound.code_iff.mp (hWanted.code hToken)⟩
    · intro hForm
      exact ⟨fun hLink => absurd hToken hLink, fun _ => hFound.code_iff.mpr (hForm.code hToken)⟩
  · rw [if_pos hToken] at hFound
    constructor
    · intro hWanted
      exact ⟨fun _ => hFound.link_iff.mp (hWanted.link hToken), fun hCode => absurd hCode hToken⟩
    · intro hForm
      exact ⟨fun _ => hFound.link_iff.mpr (hForm.link hToken), fun hCode => absurd hCode hToken⟩

/-! ## A code of somebody else -/

/-- The request of a client for a code. -/
def askCodeRun (email : GoString) : Except HttpError Reply × World Tables :=
  (standard.requestAuthToken (.after 0 (.constant 0))
    (clientRequest (lit "POST") [] [] (lit "type=api&actType=code&email=" ++ email)) none).run
      (exec .levelDB) freshWorld

/-- The request of a client that enters its code. -/
def enterCode (email code : GoString) : Request :=
  clientRequest (lit "POST") [] [] (lit "email=" ++ email ++ lit "&code=" ++ code)

theorem askCodeRun_askedFor (email : GoString) :
    (askCodeRun email).2.storage.AskedFor Backend.levelDB.json :=
  askedFor_requestAuthToken askedFor_empty

/-- The right code of the right email. -/
theorem getAuthRequest_wanted_iff_entered :
    ∃ ar, ((standard.getAuthRequest (enterCode (lit "x-y") (lit "000000"))).run (exec .levelDB)
        (askCodeRun (lit "x-y")).2).1 = .ok ar ∧
      (IsWanted standard (enterCode (lit "x-y") (lit "000000")) ar ↔
        WellFormed standard Backend.levelDB.json (enterCode (lit "x-y") (lit "000000"))) := by
  obtain ⟨ar, hFound, -⟩ := ok_of_map
    (show ((standard.getAuthRequest (enterCode (lit "x-y") (lit "000000"))).run (exec .levelDB)
      (askCodeRun (lit "x-y")).2).1.map AuthRequest.code = .ok (lit "000000") by decide +kernel)
  exact ⟨ar, hFound, getAuthRequest_wanted_iff (askCodeRun_askedFor _) hFound⟩

/-- With the email cut short at its dash, and the rest of it put before the code, the
look-up finds the code of the whole email. -/
theorem getAuthRequest_unwanted :
    ¬∀ (srv : Server) (b : Backend) (w : World Tables) (r : Request) (ar : AuthRequest),
      w.storage.AskedFor b.json → ((srv.getAuthRequest r).run (exec b) w).1 = .ok ar →
        IsWanted srv r ar := by
  intro hAll
  obtain ⟨ar, hFound, hEmail⟩ := ok_of_map
    (show ((standard.getAuthRequest (enterCode (lit "x") (lit "y-000000"))).run (exec .levelDB)
      (askCodeRun (lit "x-y")).2).1.map (fun ar => ar.authToken.email) = .ok (lit "x-y") by
        decide +kernel)
  have hBoth := hAll _ _ _ _ ar (askCodeRun_askedFor _) hFound
  obtain ⟨-, hWanted, -⟩ := hBoth.code (by decide +kernel)
  have hSubmitted : (enterCode (lit "x") (lit "y-000000")).postFormValue standard.net
      (lit "email") = lit "x" := by decide +kernel
  rw [hEmail, hSubmitted] at hWanted
  exact absurd hWanted (by decide)

end Server

end PadlockCloud
