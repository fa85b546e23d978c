import PadlockCloud.Model.Standard
import PadlockCloud.Request.Credentials

/-!
# The deprecated scheme

`CheckEndpointVersion` searches the header for `ApiKey`, wherever it stands, and does not
look at the cookie. The parser takes the scheme from the start of the header, or from the
start of the cookie if there is no header. The two agree on a request exactly if the
header has the word only as its scheme, and the cookie does not have that scheme in place
of a header.
-/

namespace PadlockCloud

open Process

/-- The string that `AuthTokenFromRequest` parses. -/
def Request.authString (r : Request) : GoString :=
  if r.header .authorization = [] then r.cookie.getD [] else r.header .authorization

/-- The credential that is parsed from a request is written in the scheme `ApiKey`. -/
def Request.UsesApiKey (r : Request) : Prop :=
  ∃ email token, matchAuthString r.authString = some (lit "ApiKey", email, token)

namespace Server

/-- A request is turned away as deprecated, whatever the handler is. -/
def Rejects (srv : Server) (version : Int) (r : Request) : Prop :=
  ∀ h env auth, srv.checkEndpointVersionWrap version h env r auth =
    (srv.sendDeprecatedVersionEmail env (srv.versionFromRequest r).2).bind fun _ =>
      .fail (.unsupportedApiVersion (srv.versionFromRequest r).1 version)

/-- A request reaches the handler. -/
def Forwards (srv : Server) (version : Int) (r : Request) : Prop :=
  ∀ h env auth, srv.checkEndpointVersionWrap version h env r auth =
    h env (srv.versionFromRequest r).2 auth

/-- The middleware and the parser have the same view of a request. -/
structure Agrees (srv : Server) (version : Int) (r : Request) : Prop where
  rejects : srv.Rejects version r ↔ r.UsesApiKey
  forwards : srv.Forwards version r ↔ ¬r.UsesApiKey

variable {srv : Server} {version : Int} {r : Request}

/-! ## The middleware -/

/-- What is turned away ends with an error, so it does not reach every handler. -/
theorem Rejects.not_forwards (hRejects : srv.Rejects version r) : ¬srv.Forwards version r := by
  intro hForwards
  have hSame := hRejects (fun _ _ _ => .pure {}) (.after 0 (.constant 0)) none
  rw [hForwards] at hSame
  generalize srv.sendDeprecatedVersionEmail _ _ = mail at hSame
  cases mail <;> cases hSame

variable (hVersion : version = 0 ∨ (srv.versionFromRequest r).1 = version)

include hVersion in
/-- With the right version, only the search in the header decides. -/
theorem rejects_or_forwards :
    GoString.contains (r.header .authorization) (lit "ApiKey") = true ∧ srv.Rejects version r ∨
      GoString.contains (r.header .authorization) (lit "ApiKey") = false ∧
        srv.Forwards version r := by
  have hCurrent : ¬(version ≠ 0 ∧ (srv.versionFromRequest r).1 ≠ version) := by
    rintro ⟨hVersioned, hOther⟩
    exact hVersion.elim hVersioned hOther
  cases hSearch : GoString.contains (r.header .authorization) (lit "ApiKey") with
  | true =>
    refine .inl ⟨rfl, fun h env auth => ?_⟩
    unfold checkEndpointVersionWrap
    simp only [hSearch, true_or, if_true, Program.bind_eq]
  | false =>
    refine .inr ⟨rfl, fun h env auth => ?_⟩
    unfold checkEndpointVersionWrap
    simp only [hSearch, Bool.false_eq_true, false_or, if_neg hCurrent]

include hVersion in
theorem agrees_iff :
    srv.Agrees version r ↔
      (GoString.contains (r.header .authorization) (lit "ApiKey") = true ↔ r.UsesApiKey) := by
  rcases rejects_or_forwards hVersion with ⟨hSearch, hRejects⟩ | ⟨hSearch, hForwards⟩
  · rw [hSearch, iff_true_left rfl]
    constructor
    · intro hAgrees
      exact hAgrees.rejects.mp hRejects
    · intro hUses
      exact ⟨iff_of_true hRejects hUses, iff_of_false hRejects.not_forwards (not_not_intro hUses)⟩
  · rw [hSearch, iff_false_left Bool.false_ne_true]
    constructor
    · intro hAgrees
      exact hAgrees.forwards.mp hForwards
    · intro hOther
      exact ⟨iff_of_false (fun hRejects => hRejects.not_forwards hForwards) hOther,
        iff_of_true hForwards hOther⟩

end Server

/-! ## The parser -/

variable {r : Request}

theorem Request.usesApiKey_iff :
    r.UsesApiKey ↔ ∃ email token, MatchesAs r.authString (lit "ApiKey") email token := by
  simp only [Request.UsesApiKey, matchAuthString_eq_some]

/-- The scheme of a credential is found in it. -/
theorem MatchesAs.contains {s scheme email token : GoString}
    (hMatches : MatchesAs s scheme email token) : GoString.contains s scheme = true := by
  rw [GoString.contains, decide_eq_true_eq, hMatches.text, List.append_assoc]
  exact (List.prefix_append scheme _).isInfix

theorem contains_nil : GoString.contains [] (lit "ApiKey") = false := by decide

/-- The word stands in the header only as its scheme, and where there is no header, the
cookie has another scheme. -/
structure SchemeOnly (r : Request) : Prop where
  header : GoString.contains (r.header .authorization) (lit "ApiKey") = true →
    ∃ email token, MatchesAs (r.header .authorization) (lit "ApiKey") email token
  cookie : r.header .authorization = [] → ∀ credential, r.cookie = some credential →
    ∀ email token, ¬MatchesAs credential (lit "ApiKey") email token

theorem schemeOnly_iff :
    SchemeOnly r ↔
      (GoString.contains (r.header .authorization) (lit "ApiKey") = true ↔ r.UsesApiKey) := by
  rw [Request.usesApiKey_iff]
  by_cases hHeader : r.header .authorization = []
  · have hString : r.authString = r.cookie.getD [] := if_pos hHeader
    rw [hHeader, contains_nil, hString, iff_false_left Bool.false_ne_true]
    constructor
    · rintro ⟨-, hCookie⟩ ⟨email, token, hMatches⟩
      cases hValue : r.cookie with
      | none =>
        rw [hValue] at hMatches
        cases hMatches.contains
      | some credential =>
        rw [hValue] at hMatches
        exact hCookie hHeader credential hValue email token hMatches
    · intro hNone
      constructor
      · intro hSearch
        rw [hHeader, contains_nil] at hSearch
        cases hSearch
      · intro _ credential hValue email token hMatches
        apply hNone
        rw [hValue]
        exact ⟨email, token, hMatches⟩
  · have hString : r.authString = r.header .authorization := if_neg hHeader
    rw [hString]
    constructor
    · rintro ⟨hFound, -⟩
      refine ⟨hFound, ?_⟩
      rintro ⟨email, token, hMatches⟩
      exact hMatches.contains
    · intro hSame
      exact ⟨hSame.mp, fun hNone => absurd hNone hHeader⟩

namespace Server

variable {srv : Server} {version : Int}

/-- With the right version, the middleware and the parser agree exactly on these
requests. -/
theorem agrees_iff_schemeOnly (hVersion : version = 0 ∨ (srv.versionFromRequest r).1 = version) :
    srv.Agrees version r ↔ SchemeOnly r := by
  rw [agrees_iff hVersion, schemeOnly_iff]

/-- A request with a key of the first version. -/
def apiKeyRequest : Request where
  method := lit "GET"
  header h := if h = .authorization then lit "ApiKey e@x.io:key" else []

theorem agrees_iff_schemeOnly_apiKey : standard.Agrees 0 apiKeyRequest := by
  refine (agrees_iff_schemeOnly (.inl rfl)).mpr ⟨?_, ?_⟩
  · intro _
    exact ⟨lit "e@x.io", lit "key", matchAuthString_eq_some.mp (by decide +kernel)⟩
  · intro hNone
    exact absurd hNone (by decide)

/-- A client with the current scheme, whose email starts like the old one. -/
def lockedOut : Request where
  method := lit "GET"
  header h := if h = .authorization then lit "AuthToken ApiKey@x.io:key" else []

theorem lockedOut_disagrees :
    ¬∀ (srv : Server) (version : Int) (r : Request),
      version = 0 ∨ (srv.versionFromRequest r).1 = version → srv.Agrees version r := by
  intro hAll
  have hAgrees := hAll standard 0 lockedOut (.inl rfl)
  have hUses := ((agrees_iff (.inl rfl)).mp hAgrees).mp (by decide +kernel)
  obtain ⟨email, token, hMatch⟩ := hUses
  have hParsed : matchAuthString lockedOut.authString =
      some (lit "AuthToken", lit "ApiKey@x.io", lit "key") := by decide +kernel
  rw [hParsed, Option.some.injEq, Prod.mk.injEq] at hMatch
  exact absurd hMatch.1 (by decide)

end Server

end PadlockCloud
