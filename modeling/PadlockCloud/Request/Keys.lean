import PadlockCloud.Request.Origin

/-!
# The keys of auth requests

A request for a link lies under its token and a request for a code under email and
code, without anything that tells the two apart but the last character: that of a
code is a hexadecimal digit, and that of a token has only two of its six bits set
by the last byte, which leaves `A`, `Q`, `g` and `w`.
-/

namespace PadlockCloud

variable {ar ar' : AuthRequest} {env : Env} {email tType actType : GoString}
  {device : Option Device} {J : Json}

/-! ## The last character -/

/-- A digit that `hex.EncodeToString` writes. -/
def isLowerHex (c : UInt8) : Bool := (0x30 ≤ c && c ≤ 0x39) || (0x61 ≤ c && c ≤ 0x66)

theorem isLowerHex_hexChar_high (b : UInt8) : isLowerHex (hexChar (b >>> 4)) = true :=
  forall_byte (P := fun b => isLowerHex (hexChar (b >>> 4)) = true) (by decide +kernel) b

theorem isLowerHex_hexChar_low (b : UInt8) : isLowerHex (hexChar (b &&& 0x0F)) = true :=
  forall_byte (P := fun b => isLowerHex (hexChar (b &&& 0x0F)) = true) (by decide +kernel) b

theorem isLowerHex_padded (b : UInt8) : isLowerHex (base64Char ((b &&& 0x03) <<< 4)) = false :=
  forall_byte (P := fun b => isLowerHex (base64Char ((b &&& 0x03) <<< 4)) = false)
    (by decide +kernel) b

theorem encodeHex_length (bytes : List UInt8) : (encodeHex bytes).length = 2 * bytes.length := by
  induction bytes with
  | nil => rfl
  | cons b bytes ih =>
    have hCons : encodeHex (b :: bytes) =
        hexChar (b >>> 4) :: hexChar (b &&& 0x0F) :: encodeHex bytes := rfl
    rw [hCons, List.length_cons, List.length_cons, List.length_cons, ih]
    omega

theorem encodeHex_isLowerHex (bytes : List UInt8) : (encodeHex bytes).all isLowerHex = true := by
  simp [encodeHex, isLowerHex_hexChar_high, isLowerHex_hexChar_low]

/-- One byte that is left over fills two characters, the second one with two bits. -/
theorem encodeBase64_getLast {bytes : List UInt8} (hLength : bytes.length % 3 = 1) :
    ∃ b : UInt8, (encodeBase64 bytes).getLast? = some (base64Char ((b &&& 0x03) <<< 4)) := by
  fun_induction encodeBase64 bytes with
  | case1 => simp at hLength
  | case2 a => exact ⟨a, rfl⟩
  | case3 a b => simp at hLength
  | case4 a b c rest ih =>
    simp only [List.length_cons] at hLength
    obtain ⟨d, hLast⟩ := ih (by omega)
    refine ⟨d, ?_⟩
    simp only [List.getLast?_cons, hLast, Option.getD_some]

/-! ## Links and codes -/

namespace AuthRequest

/-- Activated through a link with the token. -/
structure IsLink (ar : AuthRequest) : Prop where
  code : ar.code = []
  token : ∃ bytes : Vector UInt8 16, ar.token = Random.tokenString bytes

/-- Activated by entering the code. -/
structure IsCode (ar : AuthRequest) : Prop where
  token : ar.token = []
  code : ∃ bytes : Vector UInt8 3, ar.code = encodeHex bytes.toList

namespace IsLink

theorem token_ne_nil (hLink : ar.IsLink) : ar.token ≠ [] := by
  obtain ⟨bytes, hToken⟩ := hLink.token
  rw [hToken]
  exact tokenString_ne_nil bytes

theorem key (hLink : ar.IsLink) : ar.key = ar.token := if_pos hLink.token_ne_nil

/-- The key ends with none of the digits of a code. -/
theorem getLast_key (hLink : ar.IsLink) :
    ∃ c, ar.key.getLast? = some c ∧ isLowerHex c = false := by
  obtain ⟨bytes, hToken⟩ := hLink.token
  have hLength : bytes.toList.length % 3 = 1 := by rw [Vector.length_toList]
  obtain ⟨b, hLast⟩ := encodeBase64_getLast hLength
  refine ⟨_, ?_, isLowerHex_padded b⟩
  rw [hLink.key, hToken]
  exact hLast

theorem marshal (hLink : ar.IsLink) (J : Json) : (ar.marshal J).IsLink where
  code := (congrArg J.coerce hLink.code).trans (J.coerce_ascii [] nofun)
  token := by
    obtain ⟨bytes, hToken⟩ := hLink.token
    refine ⟨bytes, (congrArg J.coerce hToken).trans ?_⟩
    exact J.coerce_urlSafe (tokenString_urlSafe bytes)

theorem marshal_token (hLink : ar.IsLink) (J : Json) : (ar.marshal J).token = ar.token := by
  obtain ⟨bytes, hToken⟩ := hLink.token
  show J.coerce ar.token = ar.token
  rw [hToken]
  exact J.coerce_urlSafe (tokenString_urlSafe bytes)

end IsLink

namespace IsCode

theorem key (hCode : ar.IsCode) : ar.key = ar.authToken.email ++ lit "-" ++ ar.code :=
  if_neg (not_not_intro hCode.token)

theorem length_code (hCode : ar.IsCode) : ar.code.length = 6 := by
  obtain ⟨bytes, hBytes⟩ := hCode.code
  rw [hBytes, encodeHex_length, Vector.length_toList]

theorem all_code (hCode : ar.IsCode) : ar.code.all isLowerHex = true := by
  obtain ⟨bytes, hBytes⟩ := hCode.code
  rw [hBytes]
  exact encodeHex_isLowerHex _

theorem code_ne_nil (hCode : ar.IsCode) : ar.code ≠ [] := by
  intro hNil
  have hLength := hCode.length_code
  rw [hNil] at hLength
  cases hLength

/-- The key ends with the last digit of the code. -/
theorem getLast_key (hCode : ar.IsCode) :
    ∃ c, ar.key.getLast? = some c ∧ isLowerHex c = true := by
  refine ⟨ar.code.getLast hCode.code_ne_nil, ?_, ?_⟩
  · rw [hCode.key, List.getLast?_append_of_ne_nil _ hCode.code_ne_nil,
      List.getLast?_eq_some_getLast hCode.code_ne_nil]
  · exact List.all_eq_true.mp hCode.all_code _ (List.getLast_mem _)

theorem marshal_code (hCode : ar.IsCode) (J : Json) : (ar.marshal J).code = ar.code := by
  obtain ⟨bytes, hBytes⟩ := hCode.code
  show J.coerce ar.code = ar.code
  rw [hBytes]
  exact J.coerce_urlSafe (encodeHex_urlSafe _)

theorem marshal (hCode : ar.IsCode) (J : Json) : (ar.marshal J).IsCode where
  token := (congrArg J.coerce hCode.token).trans (J.coerce_ascii [] nofun)
  code := by
    obtain ⟨bytes, hBytes⟩ := hCode.code
    exact ⟨bytes, (hCode.marshal_code J).trans hBytes⟩

end IsCode

/-- The key of a link is never that of a code. -/
theorem IsLink.key_ne (hLink : ar.IsLink) (hCode : ar'.IsCode) : ar.key ≠ ar'.key := by
  intro hKey
  obtain ⟨c, hLast, hOther⟩ := hLink.getLast_key
  obtain ⟨d, hLast', hDigit⟩ := hCode.getLast_key
  rw [hKey, hLast', Option.some.injEq] at hLast
  rw [← hLast, hDigit] at hOther
  cases hOther

/-- The code is the last six characters of the key. -/
theorem IsCode.parts_of_key {email code : GoString} (hCode : ar.IsCode)
    (hKey : ar.key = email ++ lit "-" ++ code) (hLength : code.length = 6) :
    ar.authToken.email = email ∧ ar.code = code := by
  rw [hCode.key] at hKey
  obtain ⟨hFront, hBack⟩ := List.append_inj' hKey (hCode.length_code.trans hLength.symm)
  exact ⟨List.append_cancel_right hFront, hBack⟩

end AuthRequest

open Process AuthRequest

theorem newAuthRequest_link (hNew : newAuthRequest env email tType actType device = some ar)
    (hType : actType ≠ lit "code") : ar.IsLink := by
  obtain ⟨token, random, -, -, rfl⟩ := newAuthRequest_eq_some.mp hNew
  rw [if_neg hType]
  exact ⟨rfl, random.token, rfl⟩

theorem newAuthRequest_code (hNew : newAuthRequest env email tType actType device = some ar)
    (hType : actType = lit "code") : ar.IsCode := by
  obtain ⟨token, random, -, -, rfl⟩ := newAuthRequest_eq_some.mp hNew
  rw [if_pos hType]
  exact ⟨rfl, random.code, rfl⟩

/-! ## Stored auth requests -/

/-- Every auth request of the tables was stored by `RequestAuthToken`. -/
def Tables.AskedFor (J : Json) (T : Tables) : Prop :=
  ∀ ⦃k ar⦄, T.authRequests k = some ar →
    ∃ srv env r auth new, Server.Issues srv env r auth new ∧ k = new.key ∧ ar = new.marshal J

namespace Server

variable {srv : Server} {b : Backend} {env : Env} {r : Request} {auth : Option Auth}
  {w w' : World Tables} {T : Tables} {k : GoString} {ar new : AuthRequest}

theorem Issues.kind (hIssues : Issues srv env r auth new) : new.IsLink ∨ new.IsCode := by
  obtain ⟨first, hNew, rfl⟩ := Option.map_eq_some_iff.mp hIssues.new
  by_cases hType : (srv.authForm r auth).actType = lit "code"
  · have hCode := newAuthRequest_code hNew hType
    exact .inr ⟨hCode.token, hCode.code⟩
  · have hLink := newAuthRequest_link hNew hType
    exact .inl ⟨hLink.code, hLink.token⟩

theorem askedFor_empty {J : Json} : Tables.empty.AskedFor J := fun _ _ hFound => nomatch hFound

theorem askedFor_requestAuthToken (hAsked : w.storage.AskedFor b.json) :
    ((srv.requestAuthToken env r auth).run (exec b) w).2.storage.AskedFor b.json := by
  intro k ar hFound
  rcases effect_requestAuthToken.request hFound with hOld | ⟨-, new, hIssues, hKey, hStored⟩
  · exact hAsked hOld
  · exact ⟨srv, env, r, auth, new, hIssues, hKey, hStored⟩

/-- It is so in every run from tables without auth requests. -/
theorem askedFor_runs {allowed : List Action → Action → Prop} {past history : List Action}
    (hRun : srv.Runs b allowed past w history w') (hStart : w.storage.AskedFor b.json) :
    w'.storage.AskedFor b.json := by
  refine Run.invariant (I := fun _ w => w.storage.AskedFor b.json) hRun hStart ?_
  intro _ w action hAsked _ k ar hFound
  rcases perform_request hFound with hOld | ⟨new, hIssuing, hKey, hStored⟩
  · exact hAsked hOld
  · cases hIssuing with
    | mk endpoint env r r' auth new hAdmitted hHandler hIssues =>
      exact ⟨srv, env, r, auth, new, hIssues, hKey, hStored⟩

end Server

/-- Where JSON loses nothing, they lie under their keys. -/
theorem Tables.AskedFor.key {T : Tables} {k : GoString} (hAsked : T.AskedFor J) (hJ : J.Lossless)
    (hFound : T.authRequests k = some ar) : ar.key = k := by
  obtain ⟨srv, env, r, auth, new, -, rfl, rfl⟩ := hAsked hFound
  rw [AuthRequest.marshal_of_lossless hJ]

end PadlockCloud
