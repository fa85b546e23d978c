import PadlockCloud.Request.Credentials

/-!
# Printing and parsing credentials

`AuthToken.String` writes the email in base64, and `AuthTokenFromString` reads the
email in base64 or as it is. The parser splits at the last colon that has text on
both sides, so a colon in the email does not matter and one in the token does,
unless it comes last.
-/

namespace PadlockCloud

variable {s email token : GoString} {t : AuthToken}

/-- A string is accepted as a credential with this email and this secret. -/
def ParsesTo (s email token : GoString) : Prop :=
  ∃ t, authTokenFromString s = some t ∧ t.email = email ∧ t.token = token

/-- A secret as the clients have it: neither empty nor with a colon or a line feed. -/
structure PlainToken (token : GoString) : Prop where
  ne_nil : token ≠ []
  colon : byte ':' ∉ token
  line : byte '\n' ∉ token

/-- The credential with the email as it is. -/
def plainForm (email token : GoString) : GoString :=
  lit "AuthToken " ++ email ++ lit ":" ++ token

namespace ParsesTo

/-- The base64 form of any email is accepted, a last colon of the secret included. -/
theorem toGoString (hEmail : t.email ≠ []) (hToken : t.token ≠ [])
    (hColon : byte ':' ∉ t.token.dropLast) (hLine : byte '\n' ∉ t.token) :
    ParsesTo t.toGoString t.email t.token :=
  ⟨_, authTokenFromString_toGoString hEmail hToken hColon hLine, rfl, rfl⟩

theorem toGoString_of_plain (hEmail : t.email ≠ []) (hToken : PlainToken t.token) :
    ParsesTo t.toGoString t.email t.token := by
  refine toGoString hEmail hToken.ne_nil ?_ hToken.line
  intro hMem
  exact hToken.colon (List.dropLast_subset _ hMem)

/-- An email with an `@` is no base64 text, so it is taken as it is. -/
theorem plain (hAt : byte '@' ∈ email) (hLine : byte '\n' ∉ email) (hToken : PlainToken token) :
    ParsesTo (plainForm email token) email token := by
  have hEmail : email ≠ [] := List.ne_nil_of_mem hAt
  have hText : plainForm email token = lit "AuthToken" ++ lit " " ++ (email ++ 0x3A :: token) := by
    have hMark : lit ":" = [0x3A] := by decide
    have hSpace : lit "AuthToken " = lit "AuthToken" ++ lit " " := by decide
    rw [plainForm, hMark, hSpace]
    simp only [List.append_assoc, List.singleton_append]
  have hColon : (0x3A : UInt8) ∉ token.dropLast := fun hMem =>
    hToken.colon (List.dropLast_subset _ hMem)
  have hMatches : MatchesAs (plainForm email token) (lit "AuthToken") email token :=
    ⟨by simp [authSchemes], hText, hEmail, hToken.ne_nil, hColon, hLine, hToken.line⟩
  refine ⟨_, authTokenFromString_eq_some.mpr ⟨_, _, _, hMatches, rfl⟩, ?_, rfl⟩
  rw [decodeBase64_eq_none hAt (by decide) (by decide), Option.getD_none]

/-- The email of an accepted string without line breaks is not empty: what is there
to decode has at least one byte. -/
theorem email_ne_nil (hReturn : byte '\r' ∉ s) (hLine : byte '\n' ∉ s)
    (hParse : authTokenFromString s = some t) : t.email ≠ [] := by
  obtain ⟨scheme, email, token, hMatches, rfl⟩ := authTokenFromString_eq_some.mp hParse
  have hBreaks : ∀ c ∈ email, c ≠ 0x0A ∧ c ≠ 0x0D := by
    intro c hc
    have hMem : c ∈ s := by
      rw [hMatches.text]
      exact List.mem_append_right _ (List.mem_append_left _ hc)
    refine ⟨?_, ?_⟩
    · rintro rfl
      exact hLine hMem
    · rintro rfl
      exact hReturn hMem
  cases hDecode : decodeBase64 email with
  | none => exact hMatches.email_ne_nil
  | some bytes => exact decodeBase64_ne_nil hMatches.email_ne_nil hBreaks hDecode

/-- What was parsed once is parsed again from its printed form. -/
theorem reparse (hReturn : byte '\r' ∉ s) (hLine : byte '\n' ∉ s)
    (hParse : authTokenFromString s = some t) : ParsesTo t.toGoString t.email t.token := by
  have hEmail : t.email ≠ [] := email_ne_nil hReturn hLine hParse
  obtain ⟨scheme, email, token, hMatches, rfl⟩ := authTokenFromString_eq_some.mp hParse
  exact toGoString hEmail hMatches.token_ne_nil hMatches.colon hMatches.token_line

end ParsesTo

/-- Credentials survive printing, the two ways to write one say the same, and what is
accepted is accepted again as it is printed. -/
theorem credential_round_trip :
    (∀ t : AuthToken, t.email ≠ [] → PlainToken t.token →
      ParsesTo t.toGoString t.email t.token) ∧
    (∀ t : AuthToken, byte '@' ∈ t.email → byte '\n' ∉ t.email → PlainToken t.token →
      ParsesTo (plainForm t.email t.token) t.email t.token ∧
        ParsesTo t.toGoString t.email t.token) ∧
    ∀ (s : GoString) (t : AuthToken), byte '\r' ∉ s → byte '\n' ∉ s →
      authTokenFromString s = some t → ParsesTo t.toGoString t.email t.token := by
  refine ⟨?_, ?_, ?_⟩
  · intro t hEmail hToken
    exact .toGoString_of_plain hEmail hToken
  · intro t hAt hLine hToken
    exact ⟨.plain hAt hLine hToken, .toGoString_of_plain (List.ne_nil_of_mem hAt) hToken⟩
  · intro s t hReturn hLine hParse
    exact .reparse hReturn hLine hParse

/-- An email with a colon in it, in the plain form. -/
theorem credential_round_trip_colon :
    ParsesTo (plainForm (lit "a:b@c.d") (lit "xyz")) (lit "a:b@c.d") (lit "xyz") ∧
      ParsesTo (AuthToken.toGoString { email := lit "a:b@c.d", token := lit "xyz" })
        (lit "a:b@c.d") (lit "xyz") :=
  credential_round_trip.2.1 { email := lit "a:b@c.d", token := lit "xyz" } (by decide) (by decide)
    ⟨by decide, by decide, by decide⟩

end PadlockCloud
