import PadlockCloud.Request.Tokens

/-!
# Credentials

`AuthToken.String` and `AuthTokenFromString` are inverse to each other: the email
goes through base64, so that the only colon is the one between the parts.
-/

namespace PadlockCloud

variable {r : Request} {s t : AuthToken} {email token : GoString}

/-- The string that a request has as its credential: the header, or else the
cookie. -/
def Request.carries (r : Request) (credential : GoString) : Prop :=
  r.header .authorization = credential ∨
    r.header .authorization = [] ∧ r.cookie = some credential

theorem authTokenFromRequest_carries {credential : GoString} (hCarries : r.carries credential)
    (hNonempty : credential ≠ []) :
    authTokenFromRequest r = authTokenFromString credential := by
  unfold authTokenFromRequest
  rcases hCarries with hHeader | ⟨hHeader, hCookie⟩
  · dsimp only
    rw [hHeader, if_neg hNonempty]
  · dsimp only
    rw [if_pos hHeader, hCookie, Option.getD_some]

/-! ## The last colon -/

theorem find?_reverse_range {p : Nat → Bool} {i n : Nat} :
    (List.range n).reverse.find? p = some i ↔
      i < n ∧ p i = true ∧ ∀ j, i < j → j < n → p j = false := by
  induction n with
  | zero => simp
  | succ n ih =>
    rw [List.range_succ, List.reverse_append, List.reverse_singleton, List.singleton_append,
      List.find?_cons]
    cases hLast : p n with
    | true =>
      constructor
      · intro hFound
        obtain rfl : n = i := Option.some.inj hFound
        exact ⟨by omega, hLast, fun j hj hn => by omega⟩
      · rintro ⟨hLength, -, hLater⟩
        by_cases hEq : n = i
        · exact congrArg some hEq
        · have hFalse := hLater n (by omega) (by omega)
          rw [hLast] at hFalse
          cases hFalse
    | false =>
      simp only [ih]
      constructor
      · rintro ⟨hLength, hHere, hLater⟩
        refine ⟨by omega, hHere, fun j hj hn => ?_⟩
        by_cases hEq : j = n
        · rw [hEq, hLast]
        · exact hLater j hj (by omega)
      · rintro ⟨hLength, hHere, hLater⟩
        have hNe : i ≠ n := by
          intro hEq
          rw [hEq, hLast] at hHere
          cases hHere
        exact ⟨by omega, hHere, fun j hj hn => hLater j hj (by omega)⟩

/-- A split at the last colon that has text on both sides: behind it, there can be a
colon at the very end only. -/
structure SplitsAt (s email token : GoString) : Prop where
  text : s = email ++ 0x3A :: token
  email_ne_nil : email ≠ []
  token_ne_nil : token ≠ []
  colon : (0x3A : UInt8) ∉ token.dropLast

theorem splitCredential_eq_some {s : GoString} :
    splitCredential s = some (email, token) ↔ SplitsAt s email token := by
  rw [splitCredential, Option.map_eq_some_iff]
  constructor
  · rintro ⟨i, hFind, hParts⟩
    obtain ⟨hLength, hHere, hLater⟩ := find?_reverse_range.mp hFind
    obtain ⟨rfl, rfl⟩ := Prod.mk.inj hParts
    simp only [Bool.and_eq_true, decide_eq_true_eq] at hHere
    obtain ⟨⟨hColon, hLeft⟩, hRight⟩ := hHere
    have hGet : s[i] = 0x3A := Option.some.inj ((List.getElem?_eq_getElem hLength).symm.trans hColon)
    refine ⟨?_, ?_, ?_, ?_⟩
    · rw [← hGet, ← List.drop_eq_getElem_cons hLength, List.take_append_drop]
    · rw [ne_eq, List.take_eq_nil_iff, not_or]
      exact ⟨by omega, List.ne_nil_of_length_pos (by omega)⟩
    · rw [ne_eq, List.drop_eq_nil_iff]
      omega
    · intro hMem
      obtain ⟨j, hj, hAt⟩ := List.mem_iff_getElem.mp hMem
      rw [List.length_dropLast, List.length_drop] at hj
      rw [List.getElem_dropLast, List.getElem_drop] at hAt
      have hFalse := hLater (i + 1 + j) (by omega) (by omega)
      rw [List.getElem?_eq_getElem (by omega), hAt] at hFalse
      simp at hFalse
      omega
  · rintro ⟨rfl, hEmail, hToken, hColon⟩
    have hEmailLength : 0 < email.length := List.length_pos_of_ne_nil hEmail
    have hTokenLength : 0 < token.length := List.length_pos_of_ne_nil hToken
    refine ⟨email.length, find?_reverse_range.mpr ⟨by simp, ?_, ?_⟩, ?_⟩
    · simp [hEmailLength, hTokenLength]
    · intro j hj hn
      rw [List.length_append, List.length_cons] at hn ⊢
      by_cases hLast : j + 1 < email.length + (token.length + 1)
      · have hAt : (email ++ (0x3A : UInt8) :: token)[j]? = token.dropLast[j - email.length - 1]? := by
          rw [List.getElem?_append_right (by omega), List.getElem?_cons, if_neg (by omega),
            List.getElem?_dropLast, if_pos (by omega)]
        rw [hAt, Bool.and_eq_false_iff, Bool.and_eq_false_iff]
        refine .inl (.inl (decide_eq_false ?_))
        intro hSome
        exact hColon (List.mem_of_getElem? hSome)
      · rw [decide_eq_false hLast, Bool.and_false]
    · rw [List.take_left]
      simp

/-! ## The pattern -/

/-- The first group of `authStringPattern`. -/
def authSchemes : List GoString := [lit "AuthToken", lit "ApiKey", lit "SkeletonKey"]

/-- The groups of a string that matches `authStringPattern`. -/
structure MatchesAs (s scheme email token : GoString) : Prop where
  scheme_mem : scheme ∈ authSchemes
  text : s = scheme ++ lit " " ++ (email ++ 0x3A :: token)
  email_ne_nil : email ≠ []
  token_ne_nil : token ≠ []
  colon : (0x3A : UInt8) ∉ token.dropLast
  email_line : (0x0A : UInt8) ∉ email
  token_line : (0x0A : UInt8) ∉ token

/-- No scheme with its blank is a prefix of another one. -/
theorem stripPrefix_scheme {scheme other : GoString} (hScheme : scheme ∈ authSchemes)
    (hOther : other ∈ authSchemes) (rest : GoString) :
    GoString.stripPrefix (other ++ lit " ") (scheme ++ lit " " ++ rest) =
      if other = scheme then some rest else none := by
  by_cases hEq : other = scheme
  · rw [if_pos hEq, hEq]
    exact GoString.stripPrefix_eq_some.mpr rfl
  · rw [if_neg hEq]
    simp only [authSchemes, List.mem_cons, List.not_mem_nil, or_false] at hScheme hOther
    rcases hScheme with rfl | rfl | rfl <;> rcases hOther with rfl | rfl | rfl <;>
      first | rfl | exact absurd rfl hEq

theorem matchAuthString_eq_some {s scheme : GoString} :
    matchAuthString s = some (scheme, email, token) ↔ MatchesAs s scheme email token := by
  constructor
  · intro hMatch
    obtain ⟨found, hFound, hHere⟩ := List.exists_of_findSome?_eq_some hMatch
    split at hHere
    · cases hHere
    · rename_i rest hRest
      split at hHere
      · cases hHere
      · rename_i hLine
        obtain ⟨⟨email', token'⟩, hSplit, hParts⟩ := Option.map_eq_some_iff.mp hHere
        cases hParts
        obtain ⟨rfl, hEmail, hToken, hColon⟩ := splitCredential_eq_some.mp hSplit
        rw [List.mem_append, List.mem_cons, not_or, not_or] at hLine
        exact ⟨hFound, GoString.stripPrefix_eq_some.mp hRest, hEmail, hToken, hColon, hLine.1,
          hLine.2.2⟩
  · rintro ⟨hScheme, rfl, hEmail, hToken, hColon, hEmailLine, hTokenLine⟩
    have hLine : (0x0A : UInt8) ∉ email ++ 0x3A :: token := by
      rw [List.mem_append, List.mem_cons]
      rintro (hMem | hMem | hMem)
      · exact hEmailLine hMem
      · cases hMem
      · exact hTokenLine hMem
    have hSplit : splitCredential (email ++ 0x3A :: token) = some (email, token) :=
      splitCredential_eq_some.mpr ⟨rfl, hEmail, hToken, hColon⟩
    have hStrip := fun other (hOther : other ∈ authSchemes) =>
      stripPrefix_scheme hScheme hOther (email ++ 0x3A :: token)
    simp only [authSchemes, List.mem_cons, List.not_mem_nil, or_false] at hScheme
    rw [matchAuthString, List.findSome?_cons, hStrip _ (by simp [authSchemes]),
      List.findSome?_cons, hStrip _ (by simp [authSchemes]), List.findSome?_cons,
      hStrip _ (by simp [authSchemes])]
    rcases hScheme with rfl | rfl | rfl
    · rw [if_pos rfl]
      simp only [if_neg hLine, hSplit, Option.map_some]
    · rw [if_neg (by decide), if_pos rfl]
      simp only [if_neg hLine, hSplit, Option.map_some]
    · rw [if_neg (by decide), if_neg (by decide), if_pos rfl]
      simp only [if_neg hLine, hSplit, Option.map_some]

/-- What is parsed from a string with these groups. -/
theorem authTokenFromString_eq_some {s : GoString} :
    authTokenFromString s = some t ↔
      ∃ scheme email token, MatchesAs s scheme email token ∧
        t = { email := (decodeBase64 email).getD email
              token
              type := if scheme = lit "SkeletonKey" then lit "skeleton" else [] } := by
  rw [authTokenFromString, Option.map_eq_some_iff]
  constructor
  · rintro ⟨⟨scheme, email, token⟩, hMatch, rfl⟩
    exact ⟨scheme, email, token, matchAuthString_eq_some.mp hMatch, rfl⟩
  · rintro ⟨scheme, email, token, hMatch, rfl⟩
    exact ⟨(scheme, email, token), matchAuthString_eq_some.mpr hMatch, rfl⟩

/-! ## The round trip -/

theorem urlSafe_ne {c : UInt8} (hSafe : urlSafe c = true) : c ≠ 0x3A ∧ c ≠ 0x0A :=
  forall_byte (P := fun c => urlSafe c = true → c ≠ 0x3A ∧ c ≠ 0x0A) (by decide +kernel) c hSafe

theorem not_mem_of_urlSafe (hSafe : token.all urlSafe = true) :
    (0x3A : UInt8) ∉ token ∧ (0x0A : UInt8) ∉ token :=
  ⟨fun hMem => (urlSafe_ne (List.all_eq_true.mp hSafe _ hMem)).1 rfl,
    fun hMem => (urlSafe_ne (List.all_eq_true.mp hSafe _ hMem)).2 rfl⟩

/-- The groups of the string of a token. -/
theorem matchesAs_toGoString (hEmail : t.email ≠ []) (hToken : t.token ≠ [])
    (hColon : (0x3A : UInt8) ∉ t.token.dropLast) (hLine : (0x0A : UInt8) ∉ t.token) :
    MatchesAs t.toGoString (lit "AuthToken") (encodeBase64 t.email) t.token where
  scheme_mem := by simp [authSchemes]
  text := by
    have hMark : lit ":" = [0x3A] := by decide
    have hSpace : lit "AuthToken " = lit "AuthToken" ++ lit " " := by decide
    rw [AuthToken.toGoString, hMark, hSpace]
    simp only [List.append_assoc, List.singleton_append]
  email_ne_nil := encodeBase64_ne_nil hEmail
  token_ne_nil := hToken
  colon := hColon
  email_line := (not_mem_of_urlSafe (encodeBase64_urlSafe t.email)).2
  token_line := hLine

/-- A token is found again in its string, if no colon but a last one and no line feed
is in its secret. -/
theorem authTokenFromString_toGoString (hEmail : t.email ≠ []) (hToken : t.token ≠ [])
    (hColon : (0x3A : UInt8) ∉ t.token.dropLast) (hLine : (0x0A : UInt8) ∉ t.token) :
    authTokenFromString t.toGoString = some { email := t.email, token := t.token } := by
  have hScheme : ¬lit "AuthToken" = lit "SkeletonKey" := by decide
  refine authTokenFromString_eq_some.mpr ⟨_, _, _,
    matchesAs_toGoString hEmail hToken hColon hLine, ?_⟩
  rw [decodeBase64_encodeBase64, Option.getD_some, if_neg hScheme]

theorem toGoString_ne_nil (t : AuthToken) : t.toGoString ≠ [] := by
  simp [AuthToken.toGoString, lit]

/-- A request with the credential of a token presents its email and its secret. -/
theorem authTokenFromRequest_toGoString (hCarries : r.carries t.toGoString) (hEmail : t.email ≠ [])
    (hToken : t.token ≠ []) (hSafe : t.token.all urlSafe = true) :
    authTokenFromRequest r = some { email := t.email, token := t.token } := by
  have hColon : (0x3A : UInt8) ∉ t.token.dropLast := fun hMem =>
    (not_mem_of_urlSafe hSafe).1 (List.dropLast_subset _ hMem)
  rw [authTokenFromRequest_carries hCarries (toGoString_ne_nil t),
    authTokenFromString_toGoString hEmail hToken hColon (not_mem_of_urlSafe hSafe).2]

end PadlockCloud
