import PadlockCloud.Go.Encoding
import PadlockCloud.Model.Device

/-!
# Accounts, auth tokens and auth requests

`auth.go`. An account holds a slice of pointers to auth tokens; a `nil` entry
is `none` here, and the filters that dereference every entry stop on it as the
source does (`none` stands for the panic).
-/

namespace PadlockCloud

open Time

structure AuthToken where
  email : GoString := []
  token : GoString := []
  type : GoString := []
  id : GoString := []
  created : Time := 0
  lastUsed : Time := 0
  expires : Time := 0
  clientVersion : GoString := []
  clientPlatform : GoString := []
  device : Option Device := none
  deriving DecidableEq

structure Account where
  email : GoString
  created : Time := 0
  authTokens : List (Option AuthToken) := []
  deriving DecidableEq

structure AuthRequest where
  code : GoString := []
  token : GoString := []
  authToken : AuthToken
  created : Time := 0
  redirect : GoString := []
  deriving DecidableEq

/-- What a handler receives: the authenticated token together with the account
that its unexported field `account` points to. -/
structure Auth where
  token : AuthToken
  account : Account
  deriving DecidableEq

/-! ## Auth tokens -/

namespace AuthToken

/-- `AuthToken.String` -/
def toGoString (t : AuthToken) : GoString :=
  lit "AuthToken " ++ encodeBase64 t.email ++ lit ":" ++ t.token

def expired (now : Time) (t : AuthToken) : Bool := t.expires ≠ 0 && t.expires < now

def description (t : AuthToken) : GoString :=
  match t.device with
  | some d => d.description
  | none =>
    if t.clientPlatform ≠ [] then platformDisplayName t.clientPlatform ++ lit " Device"
    else lit "Mobile Device"

/-- The comparison in the loop of `findAuthToken`: an empty field of the
pattern is not compared. -/
def covers (pattern t : AuthToken) : Bool :=
  (pattern.type = [] || t.type = pattern.type) &&
  (pattern.token = [] || t.token = pattern.token) &&
  (pattern.id = [] || t.id = pattern.id) &&
  match pattern.device with
  | none => true
  | some d => d.uuid = [] || t.device.any fun other => other.uuid = d.uuid

/-- The pattern names nothing that could be compared. -/
def isBlank (pattern : AuthToken) : Bool :=
  pattern.token = [] && pattern.id = [] &&
  match pattern.device with
  | none => true
  | some d => d.uuid = []

end AuthToken

/-! ## Credentials -/

/-- The split of `(.+):(.+)$`: the last colon that has text on both sides. -/
def splitCredential (s : GoString) : Option (GoString × GoString) :=
  ((List.range s.length).reverse.find? fun i =>
      s[i]? = some 0x3A && 0 < i && i + 1 < s.length).map fun i => (s.take i, s.drop (i + 1))

/-- The submatches of `^(AuthToken|ApiKey|SkeletonKey) (.+):(.+)$`. The dot does
not match a line feed. -/
def matchAuthString (s : GoString) : Option (GoString × GoString × GoString) :=
  [lit "AuthToken", lit "ApiKey", lit "SkeletonKey"].findSome? fun scheme =>
    match GoString.stripPrefix (scheme ++ lit " ") s with
    | none => none
    | some rest =>
      if (0x0A : UInt8) ∈ rest then none
      else (splitCredential rest).map fun (email, token) => (scheme, email, token)

/-- `AuthTokenFromString`, with `none` for the error. -/
def authTokenFromString (s : GoString) : Option AuthToken :=
  (matchAuthString s).map fun (scheme, email, token) =>
    { email := (decodeBase64 email).getD email
      token
      type := if scheme = lit "SkeletonKey" then lit "skeleton" else [] }

/-- `AuthTokenFromRequest`: the header, or else the cookie. -/
def authTokenFromRequest (r : Request) : Option AuthToken :=
  let authString := r.header .authorization
  authTokenFromString (if authString = [] then r.cookie.getD [] else authString)

/-! ## Accounts -/

namespace Account

/-- The loop of `findAuthToken` from index `i` on. -/
def findFrom (pattern : AuthToken) : Nat → List (Option AuthToken) → Option (Nat × AuthToken)
  | _, [] => none
  | i, none :: ts => findFrom pattern (i + 1) ts
  | i, some t :: ts => if pattern.covers t then some (i, t) else findFrom pattern (i + 1) ts

def findAuthToken (a : Account) (pattern : AuthToken) : Option (Nat × AuthToken) :=
  if pattern.isBlank then none else findFrom pattern 0 a.authTokens

def addAuthToken (a : Account) (t : AuthToken) : Account :=
  { a with authTokens := a.authTokens ++ [some t] }

def updateAuthToken (a : Account) (t : AuthToken) : Account :=
  match a.findAuthToken t with
  | some (i, _) => { a with authTokens := a.authTokens.set i (some t) }
  | none => a

/-- Overwrites the found slot with the last one, then drops the last one. The
flag is the result of the source. -/
def removeAuthToken (a : Account) (pattern : AuthToken) : Account × Bool :=
  match a.findAuthToken pattern with
  | some (i, _) =>
    let s := a.authTokens
    let s := s.set i (s.getD (s.length - 1) none)
    let s := s.set (s.length - 1) none
    ({ a with authTokens := s.take (s.length - 1) }, true)
  | none => (a, false)

/-- The in-place filter that both pruning passes are. A `nil` entry panics. -/
def filterTokens (keep : AuthToken → Bool) :
    List (Option AuthToken) → Option (List (Option AuthToken))
  | [] => some []
  | none :: _ => none
  | some t :: ts =>
    (filterTokens keep ts).map fun kept => if keep t then some t :: kept else kept

/-- The test of `RemoveExpiredAuthTokens`: expired api tokens are kept around
for seven days. -/
def keepsExpired (now : Time) (t : AuthToken) : Bool :=
  let maxAge : Time := if t.type = lit "api" then 7 * day else 0
  t.expires = 0 || now - maxAge < t.expires

/-- The test of `ExpireUnusedAuthTokens`. -/
def keepsUnused (now : Time) (t : AuthToken) : Bool := now - 30 * day < t.lastUsed

def removeExpiredAuthTokens (now : Time) (a : Account) : Option Account :=
  (filterTokens (keepsExpired now) a.authTokens).map fun s => { a with authTokens := s }

def expireUnusedAuthTokens (now : Time) (a : Account) : Option Account :=
  (filterTokens (keepsUnused now) a.authTokens).map fun s => { a with authTokens := s }

def authTokensByType (a : Account) (typ : GoString) : List AuthToken :=
  a.authTokens.reduceOption.filter fun t => t.type = typ

def devices (now : Time) (a : Account) : List AuthToken :=
  (a.authTokensByType (lit "api")).filter fun t => !t.expired now

/-- The `devices` of `Account.ToMap`: description and token id of each. -/
def deviceList (now : Time) (a : Account) : List (GoString × GoString) :=
  (a.devices now).map fun t => (t.description, t.id)

end Account

/-- `AuthToken.Validate`: the stored token that replaces the presented one, with
its index. -/
def AuthToken.validate (t : AuthToken) (a : Account) : Option (Nat × AuthToken) :=
  match a.findAuthToken t with
  | some (i, stored) => if stored.token = t.token then some (i, stored) else none
  | none => none

/-- `AuthRequest.Key` -/
def AuthRequest.key (ar : AuthRequest) : GoString :=
  if ar.token ≠ [] then ar.token else ar.authToken.email ++ lit "-" ++ ar.code

/-! ## New tokens and requests -/

/-- What `crypto/rand` yields to one request: the bytes of the secret and of the
id of a new auth token, and those of an activation token or code. -/
structure Random where
  secret : Vector UInt8 16
  id : Vector UInt8 6
  token : Vector UInt8 16
  code : Vector UInt8 3

/-- `token()`, that is `randomBase64(16)`. -/
def Random.tokenString (bytes : Vector UInt8 n) : GoString := encodeBase64 bytes.toList

/-- The surroundings of one request: its instant on the server's clock, its
random bytes (`none` when the system has none to give) and the answers of the
mail rate limiter. -/
structure Env where
  now : Time
  now_epoch : unixEpoch ≤ now
  random : Option Random
  rateLimited : GoString → GoString → Bool

/-- `authMaxAge` -/
def authMaxAge (authType : GoString) : Time := if authType = lit "web" then hour else 0

/-- `NewAuthToken`; `none` is a failure of the random source. -/
def newAuthToken (env : Env) (email t : GoString) (device : Option Device) : Option AuthToken :=
  env.random.map fun random =>
    let t := if t = [] then lit "api" else t
    let maxAge := authMaxAge t
    { email
      token := Random.tokenString random.secret
      type := t
      id := Random.tokenString random.id
      created := env.now
      lastUsed := env.now
      expires := if maxAge ≠ 0 then env.now + maxAge else 0
      device }

/-- `NewAuthRequest` -/
def newAuthRequest (env : Env) (email tType actType : GoString) (device : Option Device) :
    Option AuthRequest := do
  let authToken ← newAuthToken env email tType device
  let random ← env.random
  if actType = lit "code" then
    some { authToken, created := env.now, code := encodeHex random.code.toList }
  else
    some { authToken, created := env.now, token := Random.tokenString random.token }

theorem newAuthToken_eq_some {env : Env} {email t : GoString} {device : Option Device}
    {token : AuthToken} :
    newAuthToken env email t device = some token ↔
      ∃ random, env.random = some random ∧
        token =
          { email
            token := Random.tokenString random.secret
            type := if t = [] then lit "api" else t
            id := Random.tokenString random.id
            created := env.now
            lastUsed := env.now
            expires :=
              if authMaxAge (if t = [] then lit "api" else t) ≠ 0 then
                env.now + authMaxAge (if t = [] then lit "api" else t)
              else 0
            device } := by
  unfold newAuthToken
  rw [Option.map_eq_some_iff]
  constructor
  · rintro ⟨random, hRandom, rfl⟩
    exact ⟨random, hRandom, rfl⟩
  · rintro ⟨random, hRandom, rfl⟩
    exact ⟨random, hRandom, rfl⟩

theorem newAuthRequest_eq_some {env : Env} {email tType actType : GoString}
    {device : Option Device} {ar : AuthRequest} :
    newAuthRequest env email tType actType device = some ar ↔
      ∃ authToken random, newAuthToken env email tType device = some authToken ∧
        env.random = some random ∧
        ar =
          if actType = lit "code" then
            { authToken, created := env.now, code := encodeHex random.code.toList }
          else { authToken, created := env.now, token := Random.tokenString random.token } := by
  unfold newAuthRequest
  cases newAuthToken env email tType device with
  | none => simp
  | some authToken =>
    cases env.random with
    | none => simp
    | some random =>
      by_cases hCode : actType = lit "code" <;> simp [hCode, eq_comm]

theorem tokenString_ne_nil (bytes : Vector UInt8 (n + 1)) : Random.tokenString bytes ≠ [] := by
  apply encodeBase64_ne_nil
  intro hNil
  have hLength := congrArg List.length hNil
  simp at hLength

theorem tokenString_urlSafe (bytes : Vector UInt8 n) :
    (Random.tokenString bytes).all urlSafe = true := encodeBase64_urlSafe _

end PadlockCloud
