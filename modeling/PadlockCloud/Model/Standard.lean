import PadlockCloud.Go.UrlPrint
import PadlockCloud.Go.Utf8
import PadlockCloud.Model.Middleware

/-!
# Standard parameters

Executable stand-ins for what the model takes as parameters, in the simplest
form that behaves like the libraries: forms are urlencoded, an authority is a
host with optional user info, the CSRF token is a fixed string, and the mail
templates are those of the repository.
-/

namespace PadlockCloud

/-- Every string is valid UTF-8. -/
def Json.identity : Json where
  coerce := id
  coerce_coerce _ := rfl
  coerce_ascii _ _ := rfl

theorem Json.identity_lossless : Json.identity.Lossless := fun _ => rfl

/-- Each invalid byte is replaced by U+FFFD. -/
def Json.utf8 : Json where
  coerce := GoString.toValid
  coerce_coerce := GoString.toValid_toValid
  coerce_ascii _ := GoString.toValid_ascii

def Backend.levelDB : Backend := { json := .identity, stamps := true }

def NetHttp.standard : NetHttp where
  urlencoded contentType := contentType = lit "application/x-www-form-urlencoded"
  multipart _ := false
  parseForm _ body key :=
    (((Url.parseQuery body).lookup key).bind List.head?).getD []

/-- An authority is split at its last at sign. -/
def NetUrl.standard : NetUrl where
  parseAuthority authority :=
    let host := (authority.reverse.takeWhile (· ≠ byte '@')).reverse
    if byte '@' ∈ authority then
      some (some (authority.take (authority.length - host.length - 1)), host)
    else some (none, authority)
  printAuthority user host := user.elim [] (· ++ lit "@") ++ host

/-- The two kinds of authority. -/
theorem NetUrl.parseAuthority_standard (a : GoString) :
    byte '@' ∉ a ∧ NetUrl.standard.parseAuthority a = some (none, a) ∨
      ∃ info host, a = info ++ byte '@' :: host ∧ byte '@' ∉ host ∧
        NetUrl.standard.parseAuthority a = some (some info, host) := by
  by_cases hSign : byte '@' ∈ a
  · right
    obtain ⟨before, behind, hReverse, hBefore⟩ :=
      List.eq_append_cons_of_mem (List.mem_reverse.mpr hSign)
    obtain rfl : a = behind.reverse ++ byte '@' :: before.reverse := by
      rw [← List.reverse_inj, hReverse]
      simp
    refine ⟨behind.reverse, before.reverse, rfl, by simpa using hBefore, ?_⟩
    have hHost : ((behind.reverse ++ byte '@' :: before.reverse).reverse.takeWhile
        (· ≠ byte '@')).reverse = before.reverse := by
      rw [hReverse, Url.takeWhile_opens hBefore (Url.opens_cons _ _)]
    simp only [NetUrl.standard, hHost, hSign, if_true]
    congr 3
    rw [List.length_append, List.length_cons,
      show behind.reverse.length + (before.reverse.length + 1) - before.reverse.length - 1 =
        behind.reverse.length by omega, List.take_left]
  · exact .inl ⟨hSign, by simp [NetUrl.standard, hSign]⟩

theorem NetUrl.printAuthority_standard (info host : GoString) :
    NetUrl.standard.printAuthority (some info) host = info ++ byte '@' :: host := by
  show info ++ [byte '@'] ++ host = _
  simp

theorem NetUrl.standard_lawful : NetUrl.standard.Lawful where
  host_nil {a user host} hParse := by
    rcases NetUrl.parseAuthority_standard a with ⟨hSign, hFound⟩ | ⟨info, host', rfl, hSign, hFound⟩
    · obtain ⟨rfl, rfl⟩ := Prod.mk.inj (Option.some.inj (hParse.symm.trans hFound))
      exact ⟨.inl, fun h => h.elim id fun hLast => absurd (List.mem_of_getLast? hLast) hSign⟩
    · obtain ⟨rfl, rfl⟩ := Prod.mk.inj (Option.some.inj (hParse.symm.trans hFound))
      constructor
      · rintro rfl
        exact .inr List.getLast?_concat
      · rintro (hNil | hLast)
        · simp at hNil
        · by_contra hHost
          rw [List.getLast?_append_of_ne_nil _ (List.cons_ne_nil _ _), List.getLast?_cons,
            List.getLast?_eq_some_getLast hHost, Option.getD_some] at hLast
          exact hSign (Option.some.inj hLast ▸ List.getLast_mem hHost)
  user_none {a user} hParse := by
    rcases NetUrl.parseAuthority_standard a with ⟨-, hFound⟩ | ⟨info, host, rfl, -, hFound⟩
    · obtain ⟨rfl, hHost⟩ := Prod.mk.inj (Option.some.inj (hParse.symm.trans hFound))
      exact ⟨fun _ => hHost.symm, fun _ => rfl⟩
    · obtain ⟨rfl, -⟩ := Prod.mk.inj (Option.some.inj (hParse.symm.trans hFound))
      simp
  reparse {a user host} hParse := by
    rcases NetUrl.parseAuthority_standard a with ⟨-, hFound⟩ | ⟨info, host', rfl, -, hFound⟩
    · obtain ⟨rfl, rfl⟩ := Prod.mk.inj (Option.some.inj (hParse.symm.trans hFound))
      exact hFound
    · obtain ⟨rfl, rfl⟩ := Prod.mk.inj (Option.some.inj (hParse.symm.trans hFound))
      rwa [← NetUrl.printAuthority_standard] at hFound
  print_bytes {a user host} hParse hBytes := by
    rcases NetUrl.parseAuthority_standard a with ⟨-, hFound⟩ | ⟨info, host', rfl, -, hFound⟩
    · obtain ⟨rfl, rfl⟩ := Prod.mk.inj (Option.some.inj (hParse.symm.trans hFound))
      exact hBytes
    · obtain ⟨rfl, rfl⟩ := Prod.mk.inj (Option.some.inj (hParse.symm.trans hFound))
      rwa [← NetUrl.printAuthority_standard] at hBytes

/-- The CSRF token of `Csrf.standard`. -/
def csrfToken : GoString := lit "csrf-token"

def Csrf.standard (net : NetHttp) : Csrf net where
  protect r :=
    if r.method ∈ safeMethods then (true, r)
    else if r.header .csrfToken ≠ [] then (r.header .csrfToken = csrfToken, r)
    else (r.postFormValue net (lit "gorilla.csrf.Token") = csrfToken, r.formParsed net)
  safe r hSafe := if_pos hSafe
  header_first r hUnsafe hToken _ := by rw [if_neg hUnsafe, if_pos hToken]
  form_second r hUnsafe hToken _ := by rw [if_neg hUnsafe, if_neg (not_not_intro hToken)]

/-- The mail templates of the repository, and pages without content. -/
def Templates.standard : Templates where
  loginPage _ := some []
  dashboard _ _ _ _ _ := some []
  errorPage _ := some []
  activateAuthTokenEmail link token code :=
    some (PadlockCloud.activateAuthTokenEmail link token code)
  deprecatedVersionEmail := some PadlockCloud.deprecatedVersionEmail

def Server.standard : Server where
  net := .standard
  netUrl := .standard
  csrf := .standard _
  templates := .standard
  static _ := { content := [] }

/-- The surroundings of a request some nanoseconds after the
Unix epoch, with the given random bytes. -/
def Env.after (age : Nat) (random : Random) : Env where
  now := Time.unixEpoch + age
  now_epoch := Int.le_add_of_nonneg_right (Int.natCast_nonneg age)
  random := some random
  rateLimited _ _ := false

/-- Random bytes that are all the same. -/
def Random.constant (byte : UInt8) : Random where
  secret := Vector.replicate 16 byte
  id := Vector.replicate 6 byte
  token := Vector.replicate 16 byte
  code := Vector.replicate 3 byte

/-! ## A client -/

/-- The endpoint of a path. -/
def servedAt (path : GoString) : Endpoint := (Server.endpointAt path).getD { handlers := [] }

/-- A request of a client that speaks version 1 of the API and sends forms. -/
def clientRequest (method authorization query body : GoString) : Request where
  method
  query key := (((Url.parseQuery query).lookup key).bind List.head?).getD []
  header h :=
    match h with
    | .accept => lit "application/vnd.padlock;version=1"
    | .authorization => authorization
    | .contentType => lit "application/x-www-form-urlencoded"
    | _ => []
  body

/-- The same request, sent from an iOS device. -/
def Request.fromDevice (r : Request) (uuid : GoString) : Request :=
  { r with
    header h :=
      match h with
      | .devicePlatform => lit "ios"
      | .deviceUUID => uuid
      | _ => r.header h }

/-- A server without any record. -/
def freshWorld : World Tables := { storage := .empty }

end PadlockCloud
