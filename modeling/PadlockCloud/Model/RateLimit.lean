import PadlockCloud.Go.Url
import PadlockCloud.Throttling.Limiter

/-!
# Rate limits

`ratelimit.go`: the limits on the mails that are sent and the limits on the routes of
a handler. The limiters of the package `throttled` are a parameter, and their stores
are large enough to lose nothing.
-/

namespace PadlockCloud

open Throttling

variable {Q S : Type}

/-! ## Mails -/

/-- The two limiters, which share a store. -/
structure EmailRateLimiter (Q S : Type) where
  ipQuota : Q
  emailQuota : Q
  store : Store GoString S := fun _ => none

/-- `NewEmailRateLimiter`; `none` is the error for a quota that is not valid. -/
def newEmailRateLimiter (L : Limiter Q S) (ipQuota emailQuota : Q) :
    Option (EmailRateLimiter Q S) :=
  if L.accepts ipQuota && L.accepts emailQuota then some { ipQuota, emailQuota } else none

/-- `EmailRateLimiter.RateLimit` -/
def EmailRateLimiter.rateLimit (L : Limiter Q S) (erl : EmailRateLimiter Q S) (now : Time)
    (ip email : GoString) : Bool × EmailRateLimiter Q S :=
  let (ipLimited, store) := L.call erl.ipQuota now ip erl.store
  -- The source asks the limiter of the addresses here, too.
  let (emailLimited, store) := L.call erl.ipQuota now email store
  (ipLimited || emailLimited, { erl with store })

/-! ## Routes -/

structure Route where
  url : GoString
  method : GoString
  deriving DecidableEq

/-- A request with its whole URL. Blanks end the method and the URL in the first line of a
request, so neither has one. -/
structure RoutedRequest (net : NetUrl) extends Request where
  fullUrl : Url
  path_eq : path = fullUrl.path
  method_blank : byte ' ' ∉ method
  url_blank : byte ' ' ∉ fullUrl.string net

/-- `FormatRequest`, which is the key of the limiters (`VaryBy.Key`). -/
def formatRequest {net : NetUrl} (r : RoutedRequest net) : GoString :=
  ipFromRequest r.toRequest ++ lit " " ++ r.method ++ lit " " ++ r.fullUrl.string net

/-- The handler that `RateLimit` returns: whether it forwards the request to the wrapped
handler, or else to the one for denied requests. All limiters share a store. -/
def rateLimit (L : Limiter Q S) {net : NetUrl} (quotas : Route → Option Q) (now : Time)
    (r : RoutedRequest net) (store : Store GoString S) : Bool × Store GoString S :=
  -- The method comes first, as in the composite literal of the source.
  let route : Route := ⟨r.method, r.path⟩
  match quotas route with
  | some quota =>
    let (limited, store) := L.call quota now (formatRequest r) store
    (!limited, store)
  | none => (true, store)

end PadlockCloud
