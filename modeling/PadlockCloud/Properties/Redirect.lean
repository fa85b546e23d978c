import PadlockCloud.Go.Resolve
import PadlockCloud.Properties.Delivery

/-!
# Where an activation redirects to

The form value `redirect` of an auth request is accepted for its path alone. Its
scheme and its host are not looked at, so the `Location` that is sent after the
activation can lead to any host. Without scheme, host and user info, and with a slash
at its start, it leads to an endpoint of this server. `http.Redirect` takes a fragment for
a part of the path, so the exceptions are the fragments with dots in them, and the targets
without a slash at their start behind a request path that has a query of its own.
-/

namespace PadlockCloud

open Process Url

namespace Server

variable {srv : Server} {b : Backend} {env : Env} {r : Request} {w w' : World Tables}
  {reply : Reply} {ar : AuthRequest}

/-! ## Targets -/

/-- The target of an activated request before it is rewritten. -/
def redirectTarget (ar : AuthRequest) : GoString :=
  if ar.redirect = [] then lit "/dashboard/" else ar.redirect

/-- The target that `Success` hands to `http.Redirect`. -/
def sentTarget (srv : Server) (ar : AuthRequest) : GoString :=
  if loginsToo ar then srv.pairedTarget ar.authToken (redirectTarget ar) else redirectTarget ar

/-- The URL has no scheme and no host, and its path is that of an endpoint. -/
def StaysHere (srv : Server) (location : GoString) : Prop :=
  ∃ path ∈ endpointPaths, Local srv.netUrl location path

/-- What precedes the query has an element `..`. -/
def Climbs (target : GoString) : Prop :=
  lit ".." ∈ (target.takeWhile (· ≠ byte '?')).splitOn (byte '/')

/-- The directory of the request path has a question mark or a number sign in it. -/
def Cuts (requestPath : GoString) : Prop :=
  byte '?' ∈ requestDir requestPath ∨ byte '#' ∈ requestDir requestPath

/-- The target starts with a slash, has no user info and, if it is sent as it is, does not
climb. -/
def Plain (ar : AuthRequest) (u : Url) : Prop :=
  u.user = none ∧ (redirectTarget ar).head? = some (byte '/') ∧
    (loginsToo ar = true ∨ ¬Climbs (redirectTarget ar))

/-- The target climbs and is sent as it is, or it gets behind a request path that cuts it. -/
def Strays (requestPath : GoString) (ar : AuthRequest) : Prop :=
  loginsToo ar = false ∧ Climbs (redirectTarget ar) ∨
    (redirectTarget ar).head? ≠ some (byte '/') ∧ Cuts requestPath

/-- The part of the target that is sent as it is: its path alone if it gets a new query. -/
def keptTarget (ar : AuthRequest) : GoString :=
  if loginsToo ar then (redirectTarget ar).takeWhile fun c => c ≠ byte '?' && c ≠ byte '#'
  else redirectTarget ar

/-- What the dots leave of the target names an endpoint. -/
def Lands (requestPath : GoString) (ar : AuthRequest) : Prop :=
  ∃ path ∈ endpointPaths, Names (resolved (absoluteTarget requestPath (keptTarget ar))) path

/-- The target has no scheme and no host. Moreover it is plain, or it strays and lands on an
endpoint again. -/
def Harmless (srv : Server) (requestPath : GoString) (ar : AuthRequest) : Prop :=
  ∃ u, Url.parse srv.netUrl (redirectTarget ar) = some u ∧ u.scheme = [] ∧ u.host = [] ∧
    (Plain ar u ∨ Strays requestPath ar ∧ Lands requestPath ar)

theorem isPage_endpoint {path : GoString} (hPath : path ∈ endpointPaths) : isPage path = true := by
  revert path
  decide

theorem parse_dashboard (net : NetUrl) :
    Url.parse net (lit "/dashboard/") =
      some (ofParts none [] (lit "/dashboard/") (lit "/dashboard/") [] []) := by
  have hCut : Cut (byte '/' :: lit "dashboard/") (byte '/' :: lit "dashboard/") [] [] :=
    ⟨by simp, by decide, by decide, by decide, nofun, nofun⟩
  rw [← ofParts_path]
  exact (parse_single hCut (by decide)).mpr
    ⟨by decide, lit "/dashboard/", [], escaped_of_unescape (by decide +kernel), .nil, rfl⟩

/-- The target of an accepted request names an endpoint. -/
theorem parse_redirectTarget (hAccepts : srv.acceptsRedirect ar.redirect = true) :
    ∃ u, Url.parse srv.netUrl (redirectTarget ar) = some u ∧ u.path ∈ endpointPaths := by
  unfold redirectTarget
  by_cases hNil : ar.redirect = []
  · rw [if_pos hNil]
    exact ⟨_, parse_dashboard _, by decide⟩
  · rw [if_neg hNil]
    unfold acceptsRedirect at hAccepts
    split at hAccepts
    · rename_i u hParse
      exact ⟨u, hParse, by simpa [hNil] using hAccepts⟩
    · simp [hNil] at hAccepts

/-- The location of a redirected activation. -/
theorem success_location {location : GoString}
    (hRun : (srv.success env r ar).run (exec b) w = (.ok reply, w'))
    (hLocation : reply.location = some location) :
    location = redirectLocation srv.netUrl r.path (srv.sentTarget ar) := by
  have hFinish {cookie : Option Cookie} {target : GoString}
      (hReply : (if r.acceptsHtml then srv.redirect r target { cookie } else { cookie }) = reply) :
      location = redirectLocation srv.netUrl r.path target := by
    subst hReply
    split at hLocation
    · exact (Option.some.inj hLocation).symm
    · cases hLocation
  unfold success at hRun
  unfold sentTarget redirectTarget
  dsimp only at hRun
  split at hRun
  · rename_i hLogin
    rw [if_pos hLogin]
    split at hRun
    · cases hRun
    · rw [Program.bind_eq, Program.run_bind_ok (run_activate _)] at hRun
      exact hFinish (Except.ok.inj (Prod.mk.inj hRun).1)
  · rename_i hLogin
    rw [if_neg hLogin]
    exact hFinish (Except.ok.inj (Prod.mk.inj hRun).1)

/-! ## The rewritten target -/

/-- The query of the rewritten target. -/
def pairedQuery (t : AuthToken) (u : Url) : GoString :=
  (((parseQuery u.rawQuery).set (lit "action") (lit "paired")).set (lit "token-id") t.id).encode

theorem pairedTarget_eq {t : AuthToken} {target : GoString} {u : Url}
    (hParse : Url.parse srv.netUrl target = some u) :
    srv.pairedTarget t target = string srv.netUrl { u with rawQuery := pairedQuery t u } := by
  unfold pairedTarget
  rw [hParse]
  rfl

theorem pairedQuery_ne_nil (t : AuthToken) (u : Url) : pairedQuery t u ≠ [] :=
  encode_set_ne_nil _ _ _

theorem pairedQuery_hash (t : AuthToken) (u : Url) : byte '#' ∉ pairedQuery t u :=
  fun hc => (encode_mem hc).2 rfl

theorem pairedQuery_control (t : AuthToken) (u : Url) :
    hasControlByte (byte '?' :: pairedQuery t u) = false :=
  hasControlByte_eq_false.mpr <| List.forall_mem_cons.mpr ⟨by decide, fun _ hc => (encode_mem hc).1⟩

theorem pairedQuery_escaped (t : AuthToken) (u : Url) : ∃ s, Escaped (pairedQuery t u) s :=
  encode_escaped _

/-! ## Foreign targets -/

/-- A target with a scheme or a host is sent as it is. -/
theorem redirectLocation_foreign {net : NetUrl} {requestPath target : GoString}
    (hForeign : ∀ u, Url.parse net target = some u → u.scheme ≠ [] ∨ u.host ≠ []) :
    redirectLocation net requestPath target = hexEscapeNonASCII target := by
  unfold redirectLocation
  congr 1
  split
  · rename_i u hParse
    rw [if_neg]
    rintro ⟨hScheme, hHost⟩
    exact (hForeign u hParse).elim (· hScheme) (· hHost)
  · rfl

/-- A target with a scheme keeps it. -/
theorem sentTarget_scheme {u : Url} (hParse : Url.parse srv.netUrl (redirectTarget ar) = some u)
    (hScheme : u.scheme ≠ []) :
    ∃ scheme rest, SchemeText scheme ∧ srv.sentTarget ar = scheme ++ byte ':' :: rest := by
  obtain ⟨scheme, rest, hText, hTarget, hLower⟩ := parse_scheme_text hParse hScheme
  unfold sentTarget
  split
  · rw [pairedTarget_eq hParse]
    refine ⟨u.scheme, ?_, by rw [hLower]; exact hText.toLower, ?_⟩
    rotate_left
    · unfold string
      rw [if_pos hScheme, List.append_assoc, List.append_assoc, List.append_assoc]
      rfl
  · exact ⟨scheme, rest, hText, hTarget⟩

theorem not_staysHere_scheme {u : Url} (requestPath : GoString)
    (hParse : Url.parse srv.netUrl (redirectTarget ar) = some u) (hScheme : u.scheme ≠ []) :
    ¬srv.StaysHere (redirectLocation srv.netUrl requestPath (srv.sentTarget ar)) := by
  obtain ⟨scheme, rest, hText, hTarget⟩ := sentTarget_scheme hParse hScheme
  rw [hTarget, redirectLocation_foreign fun v hv => .inl (parse_scheme hText hv)]
  rintro ⟨path, -, v, hv, hNone, -⟩
  exact sent_scheme hText hv hNone

/-- Behind an authority a page starts with a slash. -/
theorem exists_rooted_page {raw path : GoString} (hOpens : Opens [byte '/'] raw)
    (hPath : Escaped raw path) (hPage : isPage path = true) : ∃ tail, raw = byte '/' :: tail := by
  match raw with
  | [] =>
    obtain ⟨t, rfl⟩ := isPage_head hPage
    cases hPath
  | c :: tail =>
    obtain rfl := List.mem_singleton.mp (hOpens c rfl)
    exact ⟨tail, rfl⟩

/-- A target with a host and no scheme keeps the host. -/
theorem sentTarget_host {u : Url} (hNet : srv.netUrl.Lawful)
    (hParse : Url.parse srv.netUrl (redirectTarget ar) = some u) (hScheme : u.scheme = [])
    (hPage : isPage u.path = true) (hHost : u.host ≠ []) :
    ∃ a rest user, srv.sentTarget ar = byte '/' :: byte '/' :: (a ++ rest) ∧
      srv.netUrl.parseAuthority a = some (user, u.host) ∧ (∀ c ∈ a, c ∉ lit "/?#") ∧
      Opens (lit "/?#") rest := by
  have hShape := pageUrl_of_parse hParse hScheme hPage
  generalize u.path = path at hShape hPage
  cases hShape with
  | rooted y query fragment text _ _ _ _ hUrl =>
    rw [hUrl] at hHost
    exact absurd rfl hHost
  | relative p query fragment text _ _ _ hUrl =>
    rw [hUrl] at hHost
    exact absurd rfl hHost
  | authority a raw query fragment text user host hCut ha hBytes hOpens hAuthority hPath _ hUrl =>
    obtain ⟨tail, rfl⟩ := exists_rooted_page hOpens hPath hPage
    have hSlash : Opens (lit "/?#") (byte '/' :: tail) := fun c hc => by
      rw [← Option.some.inj (Option.mem_def.mp hc)]
      decide
    unfold sentTarget
    split
    · rw [pairedTarget_eq hParse]
      generalize hQuery : pairedQuery ar.authToken u = q
      have hQueryNil : q ≠ [] := hQuery ▸ pairedQuery_ne_nil _ _
      subst hUrl
      rw [string_ofParts hPath hPage hQueryNil, if_pos (.inl hHost), if_neg (fun h => h.1 rfl)]
      refine ⟨srv.netUrl.printAuthority user host,
        byte '/' :: tail ++ (byte '?' :: q) ++ printedFragment text, user, ?_,
        hNet.reparse hAuthority, fun c hc => (hNet.print_bytes hAuthority hBytes c hc).2, ?_⟩
      · simp [lit]
        rfl
      · exact hSlash
    · refine ⟨a, byte '/' :: tail ++ query ++ fragment, user, ?_, ?_, fun c hc => (hBytes c hc).2,
        hSlash⟩
      · rw [hCut.eq]
        simp
      · rw [hUrl]
        exact hAuthority

theorem not_staysHere_host {u : Url} (hNet : srv.netUrl.Lawful) (requestPath : GoString)
    (hParse : Url.parse srv.netUrl (redirectTarget ar) = some u) (hScheme : u.scheme = [])
    (hPage : isPage u.path = true) (hHost : u.host ≠ []) :
    ¬srv.StaysHere (redirectLocation srv.netUrl requestPath (srv.sentTarget ar)) := by
  obtain ⟨a, rest, user, hTarget, hAuthority, hBytes, hOpens⟩ :=
    sentTarget_host hNet hParse hScheme hPage hHost
  have ha : a ≠ [] := fun hNil => hHost ((hNet.host_nil hAuthority).mpr (.inl hNil))
  rw [hTarget, redirectLocation_foreign]
  · rintro ⟨path, -, v, hv, -, hNone, -⟩
    exact sent_host hNet hAuthority hHost hBytes hOpens hv hNone
  · intro v hv
    obtain ⟨user', hFound⟩ := parse_authority ha hBytes hOpens hv
    rw [hAuthority] at hFound
    obtain ⟨-, hSame⟩ := Prod.mk.inj (Option.some.inj hFound)
    exact .inr (hSame ▸ hHost)

/-! ## Targets on this server -/

/-- The rewritten target is printed behind its path. -/
theorem sentTarget_login {u : Url} {user : Option GoString} {host raw path query text : GoString}
    (hParse : Url.parse srv.netUrl (redirectTarget ar) = some u) (hLogin : loginsToo ar = true)
    (hUrl : u = ofParts user host raw path query text) (hPath : Escaped raw path)
    (hPage : isPage path = true) :
    srv.sentTarget ar =
      (if host ≠ [] ∨ user.isSome then
          lit "//" ++ srv.netUrl.printAuthority user host ++
            (if raw.head? ≠ some (byte '/') ∧ host ≠ [] then lit "/" else []) ++ raw
        else raw) ++ (byte '?' :: pairedQuery ar.authToken u) ++ printedFragment text := by
  rw [sentTarget, if_pos hLogin, pairedTarget_eq hParse]
  generalize hQuery : pairedQuery ar.authToken u = q
  have hQueryNil : q ≠ [] := hQuery ▸ pairedQuery_ne_nil _ _
  rw [hUrl, string_ofParts hPath hPage hQueryNil]

/-- The rewritten target of a page without authority. -/
theorem sentTarget_page {u : Url} {raw path query text : GoString}
    (hParse : Url.parse srv.netUrl (redirectTarget ar) = some u) (hLogin : loginsToo ar = true)
    (hUrl : u = ofParts none [] raw path query text) (hPath : Escaped raw path)
    (hPage : isPage path = true) :
    srv.sentTarget ar =
        raw ++ (byte '?' :: pairedQuery ar.authToken u) ++ printedFragment text ∧
      Cut (srv.sentTarget ar) raw (byte '?' :: pairedQuery ar.authToken u) (printedFragment text) ∧
      hasControlByte (raw ++ (byte '?' :: pairedQuery ar.authToken u)) = false := by
  have hBytes := pageByte_of_escaped hPath hPage
  have hTarget := sentTarget_login hParse hLogin hUrl hPath hPage
  rw [if_neg (by simp)] at hTarget
  refine ⟨hTarget, ?_, ?_⟩
  · rw [hTarget]
    exact printed_cut (fun hc => absurd (hBytes _ hc) (by decide))
      (fun hc => absurd (hBytes _ hc) (by decide)) (pairedQuery_hash _ _)
  · rw [hasControlByte_append, pairedQuery_control, Bool.or_false]
    exact hasControlByte_eq_false.mpr fun c hc => printable_pageByte (hBytes c hc)

/-- A target without scheme and host is handed on as one. -/
theorem parse_sentTarget {u : Url} (hNet : srv.netUrl.Lawful)
    (hParse : Url.parse srv.netUrl (redirectTarget ar) = some u) (hScheme : u.scheme = [])
    (hHost : u.host = []) (hPage : isPage u.path = true) :
    ∃ v, Url.parse srv.netUrl (srv.sentTarget ar) = some v ∧ v.scheme = [] ∧ v.host = [] := by
  by_cases hLogin : loginsToo ar = true
  · have hShape := pageUrl_of_parse hParse hScheme hPage
    generalize u.path = path at hShape hPage
    cases hShape with
    | rooted y query fragment text hCut hPath hText hControl hUrl =>
      obtain ⟨hTarget, hSent, hPrintable⟩ := sentTarget_page hParse hLogin hUrl hPath hPage
      have hSingle := pageTail_head (pageTail_of_escaped hPath hPage)
      obtain ⟨s, hSlash⟩ : ∃ s, srv.sentTarget ar = byte '/' :: s := ⟨_, hTarget⟩
      rw [hSlash] at hSent ⊢
      obtain ⟨v, hv, hNone, hLocal, -⟩ := (local_iff hSent hSingle).mpr
        ⟨hPrintable, hPath, text, printedFragment_escaped text⟩
      exact ⟨v, hv, hNone, hLocal⟩
    | relative p query fragment text hCut hPath hText hUrl =>
      obtain ⟨-, hSent, hPrintable⟩ := sentTarget_page hParse hLogin hUrl hPath hPage
      exact ⟨_, parse_relative hSent hPath hPage (printedFragment_escaped text) hPrintable,
        ofQuery_scheme _ _, rfl⟩
    | authority a raw query fragment text user host hCut ha hBytes hOpens hAuthority hPath _ hUrl =>
      obtain rfl : host = [] := by
        rw [hUrl] at hHost
        exact hHost
      have hTarget := sentTarget_login hParse hLogin hUrl hPath hPage
      rw [if_pos (.inr (user_isSome hNet ha hAuthority)), if_neg (fun h => h.2 rfl),
        List.append_nil] at hTarget
      rw [hTarget]
      exact ⟨_, parse_printed_user hNet ha hBytes hOpens hAuthority hPath hPage
        (pairedQuery_hash _ _) (pairedQuery_control _ _), ofQuery_scheme _ _, rfl⟩
  · exact ⟨u, by rwa [sentTarget, if_neg hLogin], hScheme, hHost⟩

/-- A target that starts with one slash is cleaned into itself, up to its
fragment. -/
theorem staysHere_plain {u : Url} (requestPath : GoString)
    (hParse : Url.parse srv.netUrl (redirectTarget ar) = some u) (hPath : u.path ∈ endpointPaths)
    (hNet : srv.netUrl.Lawful) (hScheme : u.scheme = []) (hHost : u.host = [])
    (hUser : u.user = none) (hSlash : (redirectTarget ar).head? = some (byte '/'))
    (hSteady : loginsToo ar = true ∨ ¬Climbs (redirectTarget ar)) :
    srv.StaysHere (redirectPath requestPath (srv.sentTarget ar)) := by
  have hPage := isPage_endpoint hPath
  refine ⟨u.path, hPath, ?_⟩
  have hShape := pageUrl_of_parse hParse hScheme hPage
  generalize u.path = path at hShape hPage
  cases hShape with
  | rooted y query fragment text hCut hEscaped hText hControl hUrl =>
    by_cases hLogin : loginsToo ar = true
    · obtain ⟨hTarget, hSent, hPrintable⟩ := sentTarget_page hParse hLogin hUrl hEscaped hPage
      obtain ⟨s, hSlash⟩ : ∃ s, srv.sentTarget ar = byte '/' :: s := ⟨_, hTarget⟩
      rw [hSlash] at hSent ⊢
      exact local_redirectPath requestPath hSent hEscaped hPage hPrintable
        ⟨text, printedFragment_escaped text⟩ nofun
    · rw [sentTarget, if_neg hLogin]
      obtain ⟨s, hTarget⟩ := List.head?_eq_some_iff.mp hSlash
      rw [hTarget] at hCut hSteady ⊢
      exact local_redirectPath requestPath hCut hEscaped hPage hControl ⟨text, hText⟩ fun _ =>
        hSteady.resolve_left hLogin
  | relative p query fragment text hCut hEscaped hText hUrl =>
    rw [hCut.eq] at hSlash
    exact absurd (Option.some.inj hSlash) (by decide)
  | authority a raw query fragment text user host hCut ha hBytes hOpens hAuthority hEscaped _ hUrl =>
    rw [hUrl] at hHost hUser
    change host = [] at hHost
    change user = none at hUser
    subst hHost hUser
    exact absurd ((hNet.user_none hAuthority).mp rfl) ha

/-! ## Targets that stray -/

/-- What is sent leads to an endpoint exactly if that is what the dots leave. -/
theorem staysHere_iff_names {requestPath : GoString} (target : GoString)
    (hRequest : requestPath.head? = some (byte '/')) :
    srv.StaysHere (redirectPath requestPath target) ↔
      ∃ path ∈ endpointPaths, Names (resolved (absoluteTarget requestPath target)) path := by
  obtain ⟨s, hSent, hSingle⟩ := redirectPath_single target hRequest
  have hNames (path : GoString) : Local srv.netUrl (redirectPath requestPath target) path ↔
      Names (resolved (absoluteTarget requestPath target)) path := by
    rw [← redirectPath_eq target hRequest, hSent, local_iff_names hSingle]
  simp only [StaysHere, hNames]

/-- A target that is sent as it is. -/
theorem keptTarget_plain (hLogin : loginsToo ar = false) :
    keptTarget ar = srv.sentTarget ar := by
  rw [keptTarget, sentTarget, hLogin]
  rfl

theorem slashes_not_endpoint {path : GoString} (hPath : path ∈ endpointPaths) :
    ¬[byte '/', byte '/'] <:+: path := by
  revert path
  decide

theorem sign_not_endpoint {path : GoString} (hPath : path ∈ endpointPaths) : byte '@' ∉ path := by
  revert path
  decide

/-- Without a host the authority ends with the sign behind the user info. -/
theorem sign_of_user {net : NetUrl} {a : GoString} {user : Option GoString} (hNet : net.Lawful)
    (hAuthority : net.parseAuthority a = some (user, [])) (ha : a ≠ []) : byte '@' ∈ a :=
  List.mem_of_getLast? (((hNet.host_nil hAuthority).mp rfl).resolve_left ha)

/-- User info in front of a path leads nowhere, unless the target climbs. -/
theorem not_names_authority {a t : GoString} (ha : byte '@' ∈ a)
    (hBytes : ∀ c ∈ a, c ∉ lit "/?#")
    (hDots : ¬Climbs (byte '/' :: byte '/' :: (a ++ byte '/' :: t))) :
    ¬∃ path ∈ endpointPaths, Names (resolved (byte '/' :: byte '/' :: (a ++ byte '/' :: t))) path := by
  have hNot {c : UInt8} (hc : c ∈ lit "/?#") : c ∉ a := fun hMem => hBytes c hMem hc
  have hName : keptElement a = true := by
    rw [keptElement, Bool.and_eq_true, decide_eq_true_eq, decide_eq_true_eq]
    constructor <;> rintro rfl <;> exact absurd ha (by decide)
  obtain ⟨back, hResolved⟩ := resolved_authority hName (hNot (by decide)) (hNot (by decide)) hDots
  rintro ⟨path, hPath, hNames⟩
  rw [hResolved] at hNames
  refine sign_not_endpoint hPath (names_mem hNames (fun c hc => ?_) (List.mem_cons_of_mem _ ha) rfl
    (by decide))
  rcases List.mem_cons.mp hc with rfl | hc
  · decide
  · constructor <;> rintro rfl <;> exact hNot (by decide) hc

/-- An escaped slash behind the directory of the request leads nowhere, unless the target
climbs or is cut. -/
theorem not_names_relative {requestPath s query path : GoString}
    (hRequest : requestPath.head? = some (byte '/')) (hCuts : ¬Cuts requestPath)
    (hPath : Escaped (byte '%' :: s) path) (hPage : isPage path = true)
    (hDots : ¬Climbs (byte '%' :: s ++ query)) :
    ¬∃ path ∈ endpointPaths,
      Names (resolved (absoluteTarget requestPath (byte '%' :: s ++ query))) path := by
  obtain ⟨rest, rfl⟩ := isPage_head hPage
  obtain ⟨dir, hDir, hOpens⟩ := requestDir_eq hRequest
  rw [Cuts, hDir] at hCuts
  simp only [List.mem_append, not_or] at hCuts
  generalize hSlash : byte '/' :: rest = path at hPath
  cases hPath with
  | plain hPercent _ => exact absurd rfl hPercent
  | @escape a b high low s t hHigh hLow hRest =>
    have hSign := (List.cons.inj hSlash).1
    have hDigit {c n : UInt8} (hHex : unhex c = some n) : c ≠ byte '/' ∧ c ≠ byte '?' := by
      constructor <;> rintro rfl <;> cases hHex
    obtain ⟨front, back, hResolved, hFront⟩ := resolved_relative (t := s ++ query) hOpens
      hCuts.1.1 (hDigit hHigh) (hDigit hLow) hDots
    rintro ⟨path, hEndpoint, hNames⟩
    rw [absoluteTarget, if_neg (fun h => by cases h), hDir] at hNames
    simp only [List.cons_append] at hNames
    rw [hResolved] at hNames
    refine slashes_not_endpoint hEndpoint (names_slashes hNames (fun c hc => ?_) hHigh hLow
      hSign.symm)
    rcases hFront c hc with hc | rfl
    · constructor <;> rintro rfl
      · exact hCuts.1.1 hc
      · exact hCuts.2.1 hc
    · decide

theorem dots_not_mem {s : GoString} (hBytes : ∀ c ∈ s, pageByte c = true) :
    lit ".." ∉ s.splitOn (byte '/') := fun hDots =>
  absurd (hBytes (byte '.') (mem_of_mem_splitOn hDots (by decide))) (by decide)

/-- A page that gets a new query does not climb. -/
theorem not_climbs_page {raw query : GoString} (hBytes : ∀ c ∈ raw, pageByte c = true)
    (hOpens : Opens [byte '?'] query) : ¬Climbs (raw ++ query) := by
  unfold Climbs
  rw [takeWhile_opens (fun hc => absurd (hBytes _ hc) (by decide)) hOpens]
  exact dots_not_mem hBytes

theorem not_climbs_authority {a tail query : GoString} (ha : byte '@' ∈ a)
    (hNot : ∀ c ∈ a, c ∉ lit "/?#") (hBytes : ∀ c ∈ tail, pageByte c = true)
    (hOpens : Opens [byte '?'] query) :
    ¬Climbs (byte '/' :: byte '/' :: (a ++ byte '/' :: (tail ++ query))) := by
  have hSlash : byte '/' ∉ a := fun hMem => hNot _ hMem (by decide)
  have hWhole : byte '/' :: byte '/' :: (a ++ byte '/' :: (tail ++ query)) =
      (byte '/' :: byte '/' :: (a ++ byte '/' :: tail)) ++ query := by simp
  have hQuestion : byte '?' ∉ byte '/' :: byte '/' :: (a ++ byte '/' :: tail) := by
    simp only [List.mem_cons, List.mem_append, not_or]
    exact ⟨by decide, by decide, fun hMem => hNot _ hMem (by decide), by decide,
      fun hMem => absurd (hBytes _ hMem) (by decide)⟩
  unfold Climbs
  rw [hWhole, takeWhile_opens hQuestion hOpens, splitOn_slash, splitOn_slash,
    List.splitOn_append_cons_self, List.splitOn_eq_singleton hSlash]
  simp only [List.mem_cons, List.singleton_append, not_or]
  refine ⟨nofun, nofun, ?_, dots_not_mem hBytes⟩
  rintro rfl
  exact absurd ha (by decide)

/-- A target without a slash at its start that gets a new query lands where its path does. -/
theorem names_relative_query {requestPath s q fragment path : GoString} (hHash : byte '#' ∉ q)
    (hControl : hasControlByte (byte '?' :: q) = false)
    (hQuery : ∃ t, Escaped (byte '?' :: q) t) (hOpens : Opens [byte '#'] fragment)
    (hText : ∃ t, Escaped (fragment.drop 1) t) :
    Names (resolved (absoluteTarget requestPath
        (byte '%' :: s ++ (byte '?' :: q ++ fragment)))) path ↔
      Names (resolved (absoluteTarget requestPath (byte '%' :: s))) path := by
  have hQuestion : Opens [byte '?'] (byte '?' :: q ++ fragment) := opens_cons _ _
  have hRelative (t : GoString) : absoluteTarget requestPath (byte '%' :: t) =
      requestDir requestPath ++ byte '%' :: t := if_neg fun h => by cases h
  rw [List.cons_append, hRelative, hRelative, ← List.cons_append, ← List.append_assoc,
    resolved_append hQuestion, names_append hHash hControl hQuery hOpens hText]

/-- A target that is sent as it is stays here if it lands on an endpoint. -/
theorem staysHere_iff_lands {requestPath : GoString} (hRequest : requestPath.head? = some (byte '/'))
    (hLogin : loginsToo ar = false) :
    srv.StaysHere (redirectPath requestPath (srv.sentTarget ar)) ↔ Lands requestPath ar := by
  rw [staysHere_iff_names _ hRequest, Lands, keptTarget_plain hLogin]

/-- The target that is rewritten for a page with user info leads nowhere. -/
theorem not_staysHere_user {requestPath tail path query text : GoString} {user : Option GoString}
    {a : GoString} {u : Url} (hNet : srv.netUrl.Lawful)
    (hRequest : requestPath.head? = some (byte '/'))
    (hParse : Url.parse srv.netUrl (redirectTarget ar) = some u) (hLogin : loginsToo ar = true)
    (ha : a ≠ []) (hBytes : ∀ c ∈ a, printable c = true ∧ c ∉ lit "/?#")
    (hAuthority : srv.netUrl.parseAuthority a = some (user, []))
    (hEscaped : Escaped (byte '/' :: tail) path) (hPage : isPage path = true)
    (hUrl : u = ofParts user [] (byte '/' :: tail) path query text) :
    ¬srv.StaysHere (redirectPath requestPath (srv.sentTarget ar)) := by
  have hUser := user_isSome hNet ha hAuthority
  have hTarget := sentTarget_login hParse hLogin hUrl hEscaped hPage
  rw [if_pos (.inr hUser), if_neg (fun h => h.2 rfl), List.append_nil] at hTarget
  have hPrinted := hNet.reparse hAuthority
  have hPrintBytes := hNet.print_bytes hAuthority hBytes
  generalize srv.netUrl.printAuthority user [] = a' at hTarget hPrinted hPrintBytes
  have ha' : a' ≠ [] := by
    rintro rfl
    rw [(hNet.user_none hPrinted).mpr rfl] at hUser
    cases hUser
  have hSign := sign_of_user hNet hPrinted ha'
  generalize hQuery : byte '?' :: pairedQuery ar.authToken u ++ printedFragment text = behind
  have hWhole : srv.sentTarget ar =
      byte '/' :: byte '/' :: (a' ++ byte '/' :: (tail ++ behind)) := by
    rw [hTarget, ← hQuery]
    simp [lit]
    rfl
  have hTail : ∀ c ∈ tail, pageByte c = true := fun c hc =>
    pageByte_of_escaped hEscaped hPage c (List.mem_cons_of_mem _ hc)
  have hNot : ∀ c ∈ a', c ∉ lit "/?#" := fun c hc => (hPrintBytes c hc).2
  rw [staysHere_iff_names _ hRequest, hWhole]
  apply not_names_authority hSign hNot
  exact not_climbs_authority hSign hNot hTail (hQuery ▸ opens_cons _ _)

/-- A target without a slash at its start that is rewritten stays here if it is cut and lands on
an endpoint. -/
theorem staysHere_relative {requestPath p path query fragment text : GoString} {u : Url}
    (hRequest : requestPath.head? = some (byte '/'))
    (hParse : Url.parse srv.netUrl (redirectTarget ar) = some u) (hLogin : loginsToo ar = true)
    (hCut : Cut (redirectTarget ar) (byte '%' :: p) query fragment)
    (hEscaped : Escaped (byte '%' :: p) path) (hPage : isPage path = true)
    (hUrl : u = ofParts none [] (byte '%' :: p) path query text) :
    srv.StaysHere (redirectPath requestPath (srv.sentTarget ar)) ↔
      Cuts requestPath ∧ Lands requestPath ar := by
  obtain ⟨hTarget, -, -⟩ := sentTarget_page hParse hLogin hUrl hEscaped hPage
  have hQueryOpens : Opens [byte '?'] (byte '?' :: pairedQuery ar.authToken u ++
      printedFragment text) := opens_cons _ _
  rw [List.append_assoc] at hTarget
  rw [staysHere_iff_names _ hRequest, hTarget]
  by_cases hCuts : Cuts requestPath
  · rw [and_iff_right hCuts, Lands, keptTarget, if_pos hLogin, hCut.takeWhile_path]
    have hQuery : ∃ t, Escaped (byte '?' :: pairedQuery ar.authToken u) t := by
      obtain ⟨t, ht⟩ := pairedQuery_escaped ar.authToken u
      exact ⟨_, .plain (by decide) ht⟩
    simp only [names_relative_query (pairedQuery_hash _ _) (pairedQuery_control _ _) hQuery
      (printedFragment_opens text) ⟨text, printedFragment_escaped text⟩]
  · have hBytes := pageByte_of_escaped hEscaped hPage
    refine iff_of_false ?_ fun h => hCuts h.1
    exact not_names_relative hRequest hCuts hEscaped hPage (not_climbs_page hBytes hQueryOpens)

/-- What strays and is sent as it is stays here if it lands. -/
theorem staysHere_iff_sent {requestPath : GoString}
    (hRequest : requestPath.head? = some (byte '/')) (hLogin : loginsToo ar = false)
    (hStrays : Strays requestPath ar) :
    srv.StaysHere (redirectPath requestPath (srv.sentTarget ar)) ↔
      Strays requestPath ar ∧ Lands requestPath ar := by
  rw [staysHere_iff_lands hRequest hLogin, and_iff_right hStrays]

/-- A target with user info. -/
theorem staysHere_iff_authority {requestPath a raw query fragment path text : GoString}
    {user : Option GoString} {u : Url} (hNet : srv.netUrl.Lawful)
    (hRequest : requestPath.head? = some (byte '/'))
    (hParse : Url.parse srv.netUrl (redirectTarget ar) = some u) (hPage : isPage path = true)
    (hCut : Cut (redirectTarget ar) (byte '/' :: byte '/' :: (a ++ raw)) query fragment)
    (ha : a ≠ []) (hBytes : ∀ c ∈ a, printable c = true ∧ c ∉ lit "/?#")
    (hOpens : Opens [byte '/'] raw) (hAuthority : srv.netUrl.parseAuthority a = some (user, []))
    (hEscaped : Escaped raw path) (hUrl : u = ofParts user [] raw path query text) :
    srv.StaysHere (redirectPath requestPath (srv.sentTarget ar)) ↔
      Strays requestPath ar ∧ Lands requestPath ar := by
  obtain ⟨tail, rfl⟩ := exists_rooted_page hOpens hEscaped hPage
  have hWhole : redirectTarget ar =
      byte '/' :: byte '/' :: (a ++ byte '/' :: (tail ++ query ++ fragment)) := by
    rw [hCut.eq]
    simp
  have hSlash : (redirectTarget ar).head? = some (byte '/') := by
    rw [hWhole]
    rfl
  cases hLogin : loginsToo ar with
  | true =>
    refine iff_of_false (not_staysHere_user hNet hRequest hParse hLogin ha hBytes hAuthority
      hEscaped hPage hUrl) fun h => h.1.elim (fun hClimbs => ?_) fun hCuts => hCuts.1 hSlash
    rw [hLogin] at hClimbs
    cases hClimbs.1
  | false =>
    by_cases hClimbs : Climbs (redirectTarget ar)
    · exact staysHere_iff_sent hRequest hLogin (.inl ⟨hLogin, hClimbs⟩)
    · refine iff_of_false ?_ fun h => h.1.elim (fun h' => hClimbs h'.2) fun h' => h'.1 hSlash
      rw [staysHere_iff_lands hRequest hLogin, Lands, keptTarget, hLogin,
        if_neg Bool.false_ne_true]
      rw [hWhole] at hClimbs ⊢
      exact not_names_authority (sign_of_user hNet hAuthority ha) (fun c hc => (hBytes c hc).2)
        hClimbs

/-- A target without a slash at its start. -/
theorem staysHere_iff_relative {requestPath p path query fragment text : GoString} {u : Url}
    (hRequest : requestPath.head? = some (byte '/'))
    (hParse : Url.parse srv.netUrl (redirectTarget ar) = some u) (hPage : isPage path = true)
    (hCut : Cut (redirectTarget ar) (byte '%' :: p) query fragment)
    (hEscaped : Escaped (byte '%' :: p) path)
    (hUrl : u = ofParts none [] (byte '%' :: p) path query text) :
    srv.StaysHere (redirectPath requestPath (srv.sentTarget ar)) ↔
      Strays requestPath ar ∧ Lands requestPath ar := by
  have hSlash : (redirectTarget ar).head? ≠ some (byte '/') := by
    rw [hCut.eq]
    exact fun h => absurd (Option.some.inj h) (by decide)
  cases hLogin : loginsToo ar with
  | true =>
    rw [staysHere_relative hRequest hParse hLogin hCut hEscaped hPage hUrl, Strays, hLogin]
    simp [hSlash]
  | false =>
    by_cases hStrays : Strays requestPath ar
    · exact staysHere_iff_sent hRequest hLogin hStrays
    · refine iff_of_false ?_ fun h => hStrays h.1
      rw [Strays, not_or, not_and, not_and] at hStrays
      have hClimbs := hStrays.1 hLogin
      rw [staysHere_iff_lands hRequest hLogin, Lands, keptTarget, hLogin,
        if_neg Bool.false_ne_true]
      rw [hCut.eq, List.append_assoc] at hClimbs ⊢
      exact not_names_relative hRequest (hStrays.2 hSlash) hEscaped hPage hClimbs

/-- A target without scheme and host that is not plain stays here exactly if it strays and
lands on an endpoint. -/
theorem staysHere_iff_strays {requestPath : GoString} {u : Url} (hNet : srv.netUrl.Lawful)
    (hRequest : requestPath.head? = some (byte '/'))
    (hParse : Url.parse srv.netUrl (redirectTarget ar) = some u) (hPath : u.path ∈ endpointPaths)
    (hScheme : u.scheme = []) (hHost : u.host = []) (hPlain : ¬Plain ar u) :
    srv.StaysHere (redirectPath requestPath (srv.sentTarget ar)) ↔
      Strays requestPath ar ∧ Lands requestPath ar := by
  have hPage := isPage_endpoint hPath
  have hShape := pageUrl_of_parse hParse hScheme hPage
  generalize u.path = path at hShape hPage
  cases hShape with
  | rooted y query fragment text hCut hEscaped hText hControl hUrl =>
    have hSlash : (redirectTarget ar).head? = some (byte '/') := by
      rw [hCut.eq]
      rfl
    have hUser : u.user = none := by
      rw [hUrl]
      rfl
    have hClimbs : loginsToo ar = false ∧ Climbs (redirectTarget ar) := by
      simpa [Plain, hUser, hSlash] using hPlain
    exact staysHere_iff_sent hRequest hClimbs.1 (.inl hClimbs)
  | authority a raw query fragment text user host hCut ha hBytes hOpens hAuthority hEscaped _ hUrl =>
    obtain rfl : host = [] := by
      rw [hUrl] at hHost
      exact hHost
    exact staysHere_iff_authority hNet hRequest hParse hPage hCut ha hBytes hOpens hAuthority
      hEscaped hUrl
  | relative p query fragment text hCut hEscaped hText hUrl =>
    exact staysHere_iff_relative hRequest hParse hPage hCut hEscaped hUrl

/-! ## Redirects -/

/-- The `Location` of an activated request stays on this server exactly if its
target is harmless. -/
theorem success_staysHere_iff {location : GoString} (hNet : srv.netUrl.Lawful)
    (hRequest : r.path.head? = some (byte '/')) (hAccepts : srv.acceptsRedirect ar.redirect = true)
    (hRun : (srv.success env r ar).run (exec b) w = (.ok reply, w'))
    (hLocation : reply.location = some location) :
    srv.StaysHere location ↔ srv.Harmless r.path ar := by
  obtain ⟨u, hParse, hPath⟩ := parse_redirectTarget hAccepts
  have hPage := isPage_endpoint hPath
  rw [success_location hRun hLocation]
  have hUnique {u' : Url} (hParse' : Url.parse srv.netUrl (redirectTarget ar) = some u') : u' = u :=
    Option.some.inj (hParse'.symm.trans hParse)
  by_cases hScheme : u.scheme = []
  · by_cases hHost : u.host = []
    · obtain ⟨v, hv, hScheme', hHost'⟩ := parse_sentTarget hNet hParse hScheme hHost hPage
      obtain ⟨s, hSent, hSingle⟩ := redirectPath_single (srv.sentTarget ar) hRequest
      have hSame : srv.StaysHere (redirectLocation srv.netUrl r.path (srv.sentTarget ar)) ↔
          srv.StaysHere (redirectPath r.path (srv.sentTarget ar)) := by
        unfold redirectLocation StaysHere
        simp only [hv, hScheme', hHost', and_self, if_true, hSent,
          local_hexEscapeNonASCII hSingle]
      have hHarmless : srv.Harmless r.path ar ↔
          Plain ar u ∨ Strays r.path ar ∧ Lands r.path ar := by
        constructor
        · rintro ⟨u', hParse', -, -, hCases⟩
          obtain rfl := hUnique hParse'
          exact hCases
        · exact fun hCases => ⟨u, hParse, hScheme, hHost, hCases⟩
      rw [hSame, hHarmless]
      by_cases hPlain : Plain ar u
      · obtain ⟨hUser, hSlash, hSteady⟩ := hPlain
        exact iff_of_true (staysHere_plain r.path hParse hPath hNet hScheme hHost hUser hSlash
          hSteady) (.inl ⟨hUser, hSlash, hSteady⟩)
      · rw [or_iff_right hPlain]
        exact staysHere_iff_strays hNet hRequest hParse hPath hScheme hHost hPlain
    · refine iff_of_false (not_staysHere_host hNet r.path hParse hScheme hPage hHost) ?_
      rintro ⟨u', hParse', -, hNone, -⟩
      exact hHost (hUnique hParse' ▸ hNone)
  · refine iff_of_false (not_staysHere_scheme r.path hParse hScheme) ?_
    rintro ⟨u', hParse', hNone, -⟩
    exact hScheme (hUnique hParse' ▸ hNone)

/-! ## A redirect to another server -/

/-- A request for a web token with a redirect. -/
def redirectedRequest (redirect : GoString) : AuthRequest :=
  { authToken := { email := lit "e@x.io", type := lit "web" }, token := lit "key", redirect }

/-- The activation of such a request in a browser. -/
def browserRequest : Request :=
  { method := lit "GET", path := lit "/a/", header := fun h =>
      match h with
      | .accept => lit "text/html"
      | _ => [] }

/-- The answer to it, with a redirect. -/
def redirectRun (redirect : GoString) : Except HttpError Reply × World Tables :=
  (standard.success (.after 0 (.constant 0)) browserRequest (redirectedRequest redirect)).run
    (exec .levelDB) { storage := Tables.empty }

/-- The reply that sends the browser there. -/
def sentReply (location : GoString) : Reply :=
  { status := 302
    location := some location
    cookie := some (standard.authCookie (redirectedRequest []).authToken) }

/-- A plain target, one that climbs to an endpoint, and one that climbs to none. -/
theorem success_staysHere_targets :
    (standard.StaysHere (lit "/dashboard/") ↔
        standard.Harmless (lit "/a/") (redirectedRequest (lit "/dashboard/"))) ∧
      (standard.StaysHere (lit "/login/") ↔
        standard.Harmless (lit "/a/") (redirectedRequest (lit "/dashboard/#/../../login/"))) ∧
      (standard.StaysHere (lit "/dashboard/login/") ↔
        standard.Harmless (lit "/a/") (redirectedRequest (lit "/dashboard/#/../login/"))) := by
  have hPlain : (redirectRun (lit "/dashboard/")).1 = .ok (sentReply (lit "/dashboard/")) := by
    decide +kernel
  have hEndpoint : (redirectRun (lit "/dashboard/#/../../login/")).1 =
      .ok (sentReply (lit "/login/")) := by decide +kernel
  have hNone : (redirectRun (lit "/dashboard/#/../login/")).1 =
      .ok (sentReply (lit "/dashboard/login/")) := by decide +kernel
  refine ⟨?_, ?_, ?_⟩
  · exact success_staysHere_iff (r := browserRequest) NetUrl.standard_lawful (by decide)
      (by decide +kernel) (Program.run_eq hPlain) (by decide +kernel)
  · exact success_staysHere_iff (r := browserRequest) NetUrl.standard_lawful (by decide)
      (by decide +kernel) (Program.run_eq hEndpoint) (by decide +kernel)
  · exact success_staysHere_iff (r := browserRequest) NetUrl.standard_lawful (by decide)
      (by decide +kernel) (Program.run_eq hNone) (by decide +kernel)

/-- An accepted redirect can lead to another server. -/
theorem success_leaves :
    ¬∀ (srv : Server) (b : Backend) (env : Env) (r : Request) (ar : AuthRequest)
      (w w' : World Tables) (reply : Reply) (location : GoString), srv.netUrl.Lawful →
      r.path.head? = some (byte '/') → srv.acceptsRedirect ar.redirect = true →
      (srv.success env r ar).run (exec b) w = (.ok reply, w') →
      reply.location = some location → srv.StaysHere location := by
  intro hAll
  have hResult : (redirectRun (lit "http://evil.com/dashboard/")).1 =
      .ok (standard.redirect browserRequest (lit "http://evil.com/dashboard/")
        { cookie := some (standard.authCookie (redirectedRequest []).authToken) }) := by
    decide +kernel
  have hStays := hAll standard .levelDB (.after 0 (.constant 0)) browserRequest
    (redirectedRequest (lit "http://evil.com/dashboard/")) { storage := Tables.empty } _ _
    (lit "http://evil.com/dashboard/") NetUrl.standard_lawful (by decide) (by decide +kernel)
    (Program.run_eq hResult) (by decide +kernel)
  obtain ⟨path, -, u, hParse, hScheme, -⟩ := hStays
  have hText : SchemeText (lit "http") := ⟨by decide +kernel, byte 'h', rfl, by decide⟩
  exact parse_scheme hText (show Url.parse _ (lit "http" ++ byte ':' :: lit "//evil.com/dashboard/") =
    some u from hParse) hScheme

end Server

end PadlockCloud
