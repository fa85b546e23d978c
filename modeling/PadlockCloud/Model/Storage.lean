import Mathlib.Logic.Function.Basic
import PadlockCloud.Model.Auth
import PadlockCloud.Process.Program

/-!
# Storage

`storage.go`. Records are stored as JSON text, which is represented by the
record that it decodes to: the only loss of `json.Marshal` is what it does to
strings that are not valid UTF-8 (`Json`). The two implementations differ in
more than the medium. `LevelDBStorage` goes through the `Serialize` methods, so
it stamps the creation time of an account and keeps the raw content of a data
store; `MemoryStorage` marshals the whole object, so it does not stamp, and the
record of a data store embeds the account.
-/

namespace PadlockCloud

open Process

/-! ## JSON -/

/-- What a string is after `json.Marshal` and `json.Unmarshal`: invalid bytes
are replaced, and what is valid stays. -/
structure Json where
  coerce : GoString → GoString
  coerce_coerce : ∀ s, coerce (coerce s) = coerce s
  coerce_ascii : ∀ s, (∀ b ∈ s, b < 0x80) → coerce s = s

/-- Storing loses nothing, as for strings that are valid UTF-8. -/
def Json.Lossless (J : Json) : Prop := ∀ s, J.coerce s = s

def Device.marshal (J : Json) (d : Device) : Device :=
  { platform := J.coerce d.platform
    uuid := J.coerce d.uuid
    manufacturer := J.coerce d.manufacturer
    model := J.coerce d.model
    osVersion := J.coerce d.osVersion
    hostName := J.coerce d.hostName
    appVersion := J.coerce d.appVersion }

def AuthToken.marshal (J : Json) (t : AuthToken) : AuthToken :=
  { t with
    email := J.coerce t.email
    token := J.coerce t.token
    type := J.coerce t.type
    id := J.coerce t.id
    clientVersion := J.coerce t.clientVersion
    clientPlatform := J.coerce t.clientPlatform
    device := t.device.map (Device.marshal J) }

def Account.marshal (J : Json) (a : Account) : Account :=
  { a with
    email := J.coerce a.email
    authTokens := a.authTokens.map (Option.map (AuthToken.marshal J)) }

def AuthRequest.marshal (J : Json) (ar : AuthRequest) : AuthRequest :=
  { ar with
    code := J.coerce ar.code
    token := J.coerce ar.token
    authToken := ar.authToken.marshal J
    redirect := J.coerce ar.redirect }

section Marshal

variable {J : Json}

@[simp] theorem Device.marshal_marshal (d : Device) : (d.marshal J).marshal J = d.marshal J := by
  simp [Device.marshal, J.coerce_coerce]

@[simp] theorem AuthToken.marshal_marshal (t : AuthToken) :
    (t.marshal J).marshal J = t.marshal J := by
  cases hDevice : t.device <;> simp [AuthToken.marshal, J.coerce_coerce, hDevice]

@[simp] theorem Account.marshal_marshal (a : Account) : (a.marshal J).marshal J = a.marshal J := by
  have hToken : AuthToken.marshal J ∘ AuthToken.marshal J = AuthToken.marshal J :=
    funext AuthToken.marshal_marshal
  simp [Account.marshal, J.coerce_coerce, hToken]

@[simp] theorem AuthRequest.marshal_marshal (ar : AuthRequest) :
    (ar.marshal J).marshal J = ar.marshal J := by
  simp [AuthRequest.marshal, J.coerce_coerce]

theorem Device.marshal_of_lossless (hJ : J.Lossless) (d : Device) : d.marshal J = d := by
  simp [Device.marshal, hJ _]

theorem AuthToken.marshal_of_lossless (hJ : J.Lossless) (t : AuthToken) : t.marshal J = t := by
  have hDevice : Device.marshal J = fun d => d := funext (Device.marshal_of_lossless hJ)
  simp [AuthToken.marshal, hJ _, hDevice]

theorem Account.marshal_of_lossless (hJ : J.Lossless) (a : Account) : a.marshal J = a := by
  have hToken : AuthToken.marshal J = fun t => t := funext (AuthToken.marshal_of_lossless hJ)
  simp [Account.marshal, hJ _, hToken]

theorem AuthRequest.marshal_of_lossless (hJ : J.Lossless) (ar : AuthRequest) :
    ar.marshal J = ar := by
  simp [AuthRequest.marshal, hJ _, AuthToken.marshal_of_lossless hJ]

end Marshal

/-! ## The calls of the `Storage` interface -/

inductive StorageError where
  | unregisteredStorable
  | notFound
  | storageClosed
  deriving DecidableEq

/-- The calls that the server makes. A record is looked up and deleted under
its key; the data store of an account is an object that points to the account.
`iterator` reads the auth requests under the given keys: the order in which an
iterator walks the store is not fixed. -/
inductive StorageCall where
  | getAccount (email : GoString)
  | putAccount (now : Time) (acc : Account)
  | deleteAccount (email : GoString)
  | getAuthRequest (key : GoString)
  | putAuthRequest (ar : AuthRequest)
  | deleteAuthRequest (key : GoString)
  | getDataStore (acc : Account)
  | putDataStore (acc : Account) (content : GoString)
  | deleteDataStore (email : GoString)
  | iterator (keys : List GoString)

/-- The object that a call leaves, or its error. `putAccount` returns the
account since `Serialize` may have changed it. -/
abbrev StorageCall.Resp : StorageCall → Type
  | .getAccount _ => Except StorageError Account
  | .putAccount _ _ => Except StorageError Account
  | .getAuthRequest _ => Except StorageError AuthRequest
  | .getDataStore _ => Except StorageError GoString
  | .iterator _ => Except StorageError (List AuthRequest)
  | _ => Except StorageError Unit

/-! ## Tables

What the interface promises: three maps from keys to records. This is the
state that the results about the server are about, and both implementations
are shown below to behave like it. -/

structure Tables where
  accounts : GoString → Option Account
  authRequests : GoString → Option AuthRequest
  dataStores : GoString → Option GoString

def Tables.empty : Tables := ⟨fun _ => none, fun _ => none, fun _ => none⟩

/-- The two respects in which the implementations can be told apart through the
interface: what JSON does to strings, and whether accounts are stamped. -/
structure Backend where
  json : Json
  stamps : Bool

/-- `Account.Serialize` stamps the creation time of a new account. -/
def Backend.prepare (b : Backend) (now : Time) (acc : Account) : Account :=
  if b.stamps && acc.created = 0 then { acc with created := now } else acc

@[simp] theorem Backend.prepare_email (b : Backend) (now : Time) (acc : Account) :
    (b.prepare now acc).email = acc.email := by
  unfold prepare
  split <;> rfl

@[simp] theorem Backend.prepare_authTokens (b : Backend) (now : Time) (acc : Account) :
    (b.prepare now acc).authTokens = acc.authTokens := by
  unfold prepare
  split <;> rfl

def lookup {ν : Type} (table : GoString → Option ν) (key : GoString) : Except StorageError ν :=
  match table key with
  | some v => .ok v
  | none => .error .notFound

theorem lookup_ok {ν : Type} {table : GoString → Option ν} {k : GoString} {v : ν}
    (hFound : lookup table k = .ok v) : table k = some v := by
  unfold lookup at hFound
  split at hFound
  · rename_i hSome
    rw [hSome, Except.ok.inj hFound]
  · cases hFound

namespace Tables

def putAccount (T : Tables) (key : GoString) (acc : Option Account) : Tables :=
  { T with accounts := Function.update T.accounts key acc }

def putAuthRequest (T : Tables) (key : GoString) (ar : Option AuthRequest) : Tables :=
  { T with authRequests := Function.update T.authRequests key ar }

def putDataStore (T : Tables) (key : GoString) (content : Option GoString) : Tables :=
  { T with dataStores := Function.update T.dataStores key content }

/-- The tables with one account. -/
def ofAccount (acc : Account) : Tables := empty.putAccount acc.email (some acc)

def step (b : Backend) : Interp StorageCall.Resp Tables
  | .getAccount email, T => (lookup T.accounts email, T)
  | .putAccount now acc, T =>
    let acc := b.prepare now acc
    (.ok acc, T.putAccount acc.email (some (acc.marshal b.json)))
  | .deleteAccount email, T => (.ok (), T.putAccount email none)
  | .getAuthRequest key, T => (lookup T.authRequests key, T)
  | .putAuthRequest ar, T => (.ok (), T.putAuthRequest ar.key (some (ar.marshal b.json)))
  | .deleteAuthRequest key, T => (.ok (), T.putAuthRequest key none)
  | .getDataStore acc, T => (lookup T.dataStores acc.email, T)
  | .putDataStore acc content, T => (.ok (), T.putDataStore acc.email (some content))
  | .deleteDataStore email, T => (.ok (), T.putDataStore email none)
  | .iterator keys, T => (.ok (keys.filterMap T.authRequests), T)

end Tables

end PadlockCloud
