import PadlockCloud.Go.UrlParse
import PadlockCloud.Model.RateLimit
import PadlockCloud.Model.Standard
import PadlockCloud.Throttling.Gcra
import PadlockCloud.Throttling.Traffic

/-!
# The limits of the routes

The handler looks up its quota under the method and the path in each other's place, and
counts under a key that has the port of the client and the query of the request in it. The
limit of a route holds where neither makes a difference.
-/

namespace PadlockCloud

open Throttling Time

variable {Q S : Type} {L : Limiter Q S} {net : NetUrl} {quotas : Route → Option Q} {now : Time}
  {r r' : RoutedRequest net} {reqs : List (RoutedRequest net)} {store : Store GoString S}

/-- The entry for the requests to a path by a method. -/
def RoutedRequest.route (r : RoutedRequest net) : Route := { url := r.path, method := r.method }

/-- The address of a client without its port. -/
def clientAddress (r : Request) : GoString :=
  let ip := r.header .realIP
  if ip = [] then
    if byte ':' ∈ r.remoteAddr then
      ((r.remoteAddr.reverse.dropWhile (· ≠ byte ':')).drop 1).reverse
    else r.remoteAddr
  else ip

/-- The requests, each with whether it reached the wrapped handler. -/
def decisions (L : Limiter Q S) (quotas : Route → Option Q) (now : Time) :
    List (RoutedRequest net) → Store GoString S → List (RoutedRequest net × Bool)
  | [], _ => []
  | r :: reqs, store =>
    (r, (rateLimit L quotas now r store).1) ::
      decisions L quotas now reqs (rateLimit L quotas now r store).2

/-- The number of requests from an address to a route that reached the wrapped handler. -/
def passed (outs : List (RoutedRequest net × Bool)) (address : GoString) (route : Route) : Nat :=
  outs.countP fun o => o.2 && (clientAddress o.1.toRequest = address && o.1.route = route)

/-- The limits hold: a request without an entry is forwarded, an address gets at most one
request more than the burst through to a route, and the other routes make no difference
to the requests to a route. -/
structure LimitsHold (L : Limiter Q S) (burst : Q → Nat) (quotas : Route → Option Q) (now : Time)
    (reqs : List (RoutedRequest net)) : Prop where
  free : ∀ o ∈ decisions L quotas now reqs fun _ => none, quotas o.1.route = none → o.2 = true
  limited : ∀ address route quota, quotas route = some quota →
    passed (decisions L quotas now reqs fun _ => none) address route ≤ burst quota + 1
  apart : ∀ route,
    (decisions L quotas now reqs fun _ => none).filter (fun o => o.1.route = route) =
      decisions L quotas now (reqs.filter fun r => r.route = route) fun _ => none

/-- Neither the exchanged fields nor the parts of the key make a difference: a quota is
found under both spellings of a route, and the requests of an address to a limited path
have one key, which no request to another path has. -/
structure Unaffected (quotas : Route → Option Q) (reqs : List (RoutedRequest net)) : Prop where
  fields : ∀ r ∈ reqs, quotas ⟨r.method, r.path⟩ = quotas ⟨r.path, r.method⟩
  client : ∀ r ∈ reqs, ∀ r' ∈ reqs, quotas r.route ≠ none → r.route = r'.route →
    clientAddress r.toRequest = clientAddress r'.toRequest →
      ipFromRequest r.toRequest = ipFromRequest r'.toRequest ∧
        r.fullUrl.string net = r'.fullUrl.string net
  path : ∀ r ∈ reqs, ∀ r' ∈ reqs, formatRequest r = formatRequest r' → r.path = r'.path

/-! ## The keys -/

/-- The last blank tells where the part behind it starts. -/
theorem append_blank_inj {a a' b b' : GoString} (hb : byte ' ' ∉ b) (hb' : byte ' ' ∉ b')
    (hSame : a ++ lit " " ++ b = a' ++ lit " " ++ b') : a = a' ∧ b = b' := by
  have hReverse (a b : GoString) :
      (a ++ lit " " ++ b).reverse = b.reverse ++ byte ' ' :: a.reverse := by
    have hBlank : lit " " = [byte ' '] := rfl
    simp [hBlank]
  have hMirror := congrArg List.reverse hSame
  rw [hReverse, hReverse] at hMirror
  rw [← List.mem_reverse] at hb hb'
  have hBack := congrArg (List.takeWhile (· ≠ byte ' ')) hMirror
  have hFront := congrArg (List.dropWhile (· ≠ byte ' ')) hMirror
  rw [Url.takeWhile_opens hb (Url.opens_cons _ _), Url.takeWhile_opens hb' (Url.opens_cons _ _)]
    at hBack
  rw [Url.dropWhile_opens hb (Url.opens_cons _ _), Url.dropWhile_opens hb' (Url.opens_cons _ _)]
    at hFront
  exact ⟨List.reverse_inj.mp (List.cons.inj hFront).2, List.reverse_inj.mp hBack⟩

theorem formatRequest_inj (hSame : formatRequest r = formatRequest r') :
    ipFromRequest r.toRequest = ipFromRequest r'.toRequest ∧ r.method = r'.method ∧
      r.fullUrl.string net = r'.fullUrl.string net := by
  obtain ⟨hFront, hUrl⟩ := append_blank_inj r.url_blank r'.url_blank hSame
  obtain ⟨hIp, hMethod⟩ := append_blank_inj r.method_blank r'.method_blank hFront
  exact ⟨hIp, hMethod, hUrl⟩

/-- A request in origin form has a key of its path alone. -/
theorem path_of_formatRequest (hFirst : r.fullUrl.OriginForm) (hSecond : r'.fullUrl.OriginForm)
    (hSame : formatRequest r = formatRequest r') : r.path = r'.path := by
  obtain ⟨-, -, hUrl⟩ := formatRequest_inj hSame
  rw [r.path_eq, r'.path_eq]
  exact hFirst.path_eq hSecond hUrl

/-! ## The handler as a limiter of traffic -/

/-- The quota that is found for a request, with the key. -/
def routeTarget (quotas : Route → Option Q) (r : RoutedRequest net) : Option (Q × GoString) :=
  (quotas ⟨r.method, r.path⟩).map fun quota => (quota, formatRequest r)

theorem rateLimit_eq : rateLimit L quotas now r store =
    L.admitOne (routeTarget quotas) now r store := by
  unfold rateLimit Limiter.admitOne routeTarget
  dsimp only
  cases quotas ⟨r.method, r.path⟩ <;> rfl

theorem decisions_eq : decisions L quotas now reqs store =
    L.traffic (routeTarget quotas) now reqs store := by
  induction reqs generalizing store with
  | nil => rfl
  | cons r reqs ih => rw [decisions, Limiter.traffic, rateLimit_eq, ih]

theorem routeTarget_eq_some {quota : Q} {key : GoString} :
    routeTarget quotas r = some (quota, key) ↔
      quotas ⟨r.method, r.path⟩ = some quota ∧ formatRequest r = key := by
  unfold routeTarget
  rw [Option.map_eq_some_iff]
  constructor
  · rintro ⟨found, hFound, hPair⟩
    obtain ⟨rfl, rfl⟩ := Prod.mk.inj hPair
    exact ⟨hFound, rfl⟩
  · rintro ⟨hFound, rfl⟩
    exact ⟨quota, hFound, rfl⟩

/-! ## The limits -/

/-- Requests with the same key are to the same route. -/
theorem Unaffected.route (hUnaffected : Unaffected quotas reqs) (hr : r ∈ reqs) (hr' : r' ∈ reqs)
    (hKey : formatRequest r = formatRequest r') : r.route = r'.route := by
  obtain ⟨-, hMethod, -⟩ := formatRequest_inj hKey
  rw [RoutedRequest.route, RoutedRequest.route, hMethod, hUnaffected.path r hr r' hr' hKey]

theorem decisions_apart (hUnaffected : Unaffected quotas reqs) (route : Route) :
    (decisions L quotas now reqs fun _ => none).filter (fun o => o.1.route = route) =
      decisions L quotas now (reqs.filter fun r => r.route = route) fun _ => none := by
  rw [decisions_eq, decisions_eq]
  refine Limiter.traffic_filter (fun r : RoutedRequest net => decide (r.route = route))
    (P := fun key => ∃ r ∈ reqs, r.route = route ∧ formatRequest r = key) ?_ (.refl _ _)
  intro r hr own key hTarget
  obtain ⟨-, rfl⟩ := routeTarget_eq_some.mp hTarget
  rw [decide_eq_true_eq]
  constructor
  · intro hRoute
    exact ⟨r, hr, hRoute, rfl⟩
  · rintro ⟨r', hr', hRoute, hKey⟩
    rw [← hRoute]
    exact (hUnaffected.route hr' hr hKey).symm

theorem passed_le {burst : Q → Nat} (hBurst : L.AdmitsAtOnce burst)
    (hQuotas : ∀ route quota, quotas route = some quota → L.accepts quota = true)
    (hUnaffected : Unaffected quotas reqs) {route : Route} {quota : Q}
    (hEntry : quotas route = some quota) (address : GoString) :
    passed (decisions L quotas now reqs fun _ => none) address route ≤ burst quota + 1 := by
  rw [decisions_eq]
  by_cases hSome : ∃ r ∈ reqs, clientAddress r.toRequest = address ∧ r.route = route
  · obtain ⟨first, hFirst, rfl, rfl⟩ := hSome
    -- All requests of the address to the route are counted under the key of the first one.
    refine Nat.le_trans (List.countP_mono_left ?_) (Limiter.countP_passed_le
      (formatRequest first) hBurst (hQuotas _ _ hEntry) (n := 0) ?_ rfl)
    · intro o ho hPassed
      have hMem := Limiter.mem_of_traffic ho
      simp only [Bool.and_eq_true, decide_eq_true_eq] at hPassed
      obtain ⟨hForwarded, hAddress, hRoute⟩ := hPassed
      have hListed : quotas o.1.route ≠ none := by
        rw [hRoute, hEntry]
        exact Option.some_ne_none quota
      obtain ⟨hIp, hUrl⟩ := hUnaffected.client o.1 hMem first hFirst hListed hRoute hAddress
      have hMethod : o.1.method = first.method := congrArg Route.method hRoute
      have hFound : quotas ⟨o.1.method, o.1.path⟩ = some quota := by
        rw [hUnaffected.fields o.1 hMem]
        exact (congrArg quotas hRoute).trans hEntry
      rw [hForwarded, Bool.true_and, Limiter.hits_iff]
      refine ⟨quota, routeTarget_eq_some.mpr ⟨hFound, ?_⟩⟩
      rw [formatRequest, formatRequest, hIp, hMethod, hUrl]
    · intro r hr own hTarget
      obtain ⟨hFound, hKey⟩ := routeTarget_eq_some.mp hTarget
      have hRoute := hUnaffected.route hr hFirst hKey
      have hOwn : quotas r.route = some own := (hUnaffected.fields r hr).symm.trans hFound
      rw [hRoute, hEntry] at hOwn
      exact (Option.some.inj hOwn).symm
  · have hNone :
        passed (L.traffic (routeTarget quotas) now reqs fun _ => none) address route = 0 := by
      rw [passed, List.countP_eq_zero]
      intro o ho hPassed
      simp only [Bool.and_eq_true, decide_eq_true_eq] at hPassed
      exact hSome ⟨o.1, Limiter.mem_of_traffic ho, hPassed.2⟩
    omega

/-- Where neither makes a difference, the limits of the routes hold. -/
theorem route_limits_hold {burst : Q → Nat} (hBurst : L.AdmitsAtOnce burst)
    (hQuotas : ∀ route quota, quotas route = some quota → L.accepts quota = true)
    (hUnaffected : Unaffected quotas reqs) (now : Time) :
    LimitsHold L burst quotas now reqs where
  free o ho hFree := by
    rw [decisions_eq] at ho
    refine Limiter.traffic_free ho ?_
    have hNone := (hUnaffected.fields o.1 (Limiter.mem_of_traffic ho)).trans hFree
    rw [routeTarget, hNone, Option.map_none]
  limited address route quota hEntry :=
    passed_le hBurst hQuotas hUnaffected hEntry address
  apart := decisions_apart hUnaffected

/-! ## Examples -/

/-- One request in a second. -/
def onePerSecond : Quota := ⟨second, 0⟩

/-- A request of one client to a page that is limited. -/
def testRequest : RoutedRequest NetUrl.standard where
  method := lit "GET"
  path := lit "/test/"
  remoteAddr := lit "1.2.3.4:5"
  fullUrl := { path := lit "/test/" }
  path_eq := rfl
  method_blank := by decide
  url_blank := by decide

/-- The quotas of the tests. -/
def testQuotas (route : Route) : Option Quota :=
  if route = { url := lit "/test/", method := lit "GET" } then some onePerSecond else none

/-- The same quota under both spellings of the route. -/
def bothQuotas (route : Route) : Option Quota :=
  if route = { url := lit "/test/", method := lit "GET" } then some onePerSecond
  else testQuotas ⟨route.method, route.url⟩

theorem accepts_testQuotas (route : Route) (quota : Quota)
    (hEntry : testQuotas route = some quota) : gcra.accepts quota = true := by
  unfold testQuotas at hEntry
  split at hEntry
  · obtain rfl := Option.some.inj hEntry
    rfl
  · cases hEntry

theorem route_limits_hold_twice :
    LimitsHold gcra Quota.burst bothQuotas 0 [testRequest, testRequest] := by
  refine route_limits_hold gcra_admitsAtOnce ?_ ⟨?_, ?_, ?_⟩ 0
  · intro route quota hEntry
    unfold bothQuotas at hEntry
    split at hEntry
    · obtain rfl := Option.some.inj hEntry
      rfl
    · exact accepts_testQuotas _ quota hEntry
  · intro r hr
    obtain rfl : r = testRequest := by simpa using hr
    decide +kernel
  · intro r hr r' hr' _ _ _
    obtain rfl : r = testRequest := by simpa using hr
    obtain rfl : r' = testRequest := by simpa using hr'
    exact ⟨rfl, rfl⟩
  · intro r hr r' hr' _
    obtain rfl : r = testRequest := by simpa using hr
    obtain rfl : r' = testRequest := by simpa using hr'
    rfl

/-- The quota of the tests is not found, so the second request passes, too. -/
theorem route_limits_missed :
    ¬∀ (quotas : Route → Option Quota) (reqs : List (RoutedRequest NetUrl.standard)),
      (∀ route quota, quotas route = some quota → gcra.accepts quota = true) →
        LimitsHold gcra Quota.burst quotas 0 reqs := by
  intro hAll
  have hLimited := (hAll testQuotas [testRequest, testRequest] accepts_testQuotas).limited
    (lit "1.2.3.4") { url := lit "/test/", method := lit "GET" } onePerSecond (by decide +kernel)
  exact absurd hLimited (by decide +kernel)

end PadlockCloud
