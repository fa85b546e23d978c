import PadlockCloud.Go.Escaping

/-!
# Parsing what has no scheme

`Url.parse` cuts a string at its first number sign and its first question mark;
what precedes them is an authority with a path, or a path alone. `Cut` states
where the cuts are, so that two strings with the same cuts are parsed alike.
-/

namespace PadlockCloud

namespace Url

variable {net : NetUrl}

/-! ## Cuts -/

/-- The string is empty or starts with one of the separators. -/
def Opens (separators : List UInt8) (s : GoString) : Prop := ∀ c ∈ s.head?, c ∈ separators

theorem opens_cons (c : UInt8) (s : GoString) : Opens [c] (c :: s) := by
  intro d hd
  exact List.mem_singleton.mpr (Option.some.inj (Option.mem_def.mp hd)).symm

theorem takeWhile_opens {c : UInt8} {front rest : GoString} (hFront : c ∉ front)
    (hRest : Opens [c] rest) : (front ++ rest).takeWhile (· ≠ c) = front := by
  rw [List.takeWhile_append_of_pos]
  · match rest with
    | [] => simp
    | d :: rest =>
      obtain rfl := List.mem_singleton.mp (hRest d rfl)
      simp
  · intro d hd
    exact decide_eq_true fun hEq => hFront (hEq ▸ hd)

theorem dropWhile_opens {c : UInt8} {front rest : GoString} (hFront : c ∉ front)
    (hRest : Opens [c] rest) : (front ++ rest).dropWhile (· ≠ c) = rest := by
  rw [List.dropWhile_append_of_pos]
  · match rest with
    | [] => rfl
    | d :: rest =>
      obtain rfl := List.mem_singleton.mp (hRest d rfl)
      simp
  · intro d hd
    exact decide_eq_true fun hEq => hFront (hEq ▸ hd)

theorem not_mem_takeWhile (c : UInt8) (s : GoString) : c ∉ s.takeWhile (· ≠ c) := by
  intro hc
  have hPos := List.mem_takeWhile_imp hc
  simp at hPos

theorem opens_dropWhile (c : UInt8) (s : GoString) : Opens [c] (s.dropWhile (· ≠ c)) := by
  intro d hd
  have hHead := List.head?_dropWhile_not (· ≠ c) s
  rw [Option.mem_def.mp hd] at hHead
  simpa using hHead

/-- A string as a path, a query with its question mark and a fragment with its
number sign. -/
structure Cut (s path query fragment : GoString) : Prop where
  eq : s = path ++ query ++ fragment
  path_question : byte '?' ∉ path
  path_hash : byte '#' ∉ path
  query_hash : byte '#' ∉ query
  query_opens : Opens [byte '?'] query
  fragment_opens : Opens [byte '#'] fragment

theorem exists_cut (s : GoString) : ∃ path query fragment, Cut s path query fragment := by
  refine ⟨(s.takeWhile (· ≠ byte '#')).takeWhile (· ≠ byte '?'),
    (s.takeWhile (· ≠ byte '#')).dropWhile (· ≠ byte '?'), s.dropWhile (· ≠ byte '#'),
    by rw [List.takeWhile_append_dropWhile, List.takeWhile_append_dropWhile],
    not_mem_takeWhile _ _, ?_, ?_, opens_dropWhile _ _, opens_dropWhile _ _⟩
  · exact fun hc => not_mem_takeWhile _ s ((List.takeWhile_prefix _).subset hc)
  · exact fun hc => not_mem_takeWhile _ s ((List.dropWhile_suffix _).subset hc)

namespace Cut

variable {s path query fragment : GoString}

theorem takeWhile_hash (hCut : Cut s path query fragment) :
    s.takeWhile (· ≠ byte '#') = path ++ query := by
  rw [hCut.eq, takeWhile_opens _ hCut.fragment_opens]
  simp [hCut.path_hash, hCut.query_hash]

theorem dropWhile_hash (hCut : Cut s path query fragment) :
    s.dropWhile (· ≠ byte '#') = fragment := by
  rw [hCut.eq, dropWhile_opens _ hCut.fragment_opens]
  simp [hCut.path_hash, hCut.query_hash]

end Cut

/-! ## The path of a string without scheme -/

/-- What `parse` makes of the part before the query, when that starts with a
slash and there is no scheme. -/
def parsePath (net : NetUrl) (u : Url) (p : GoString) : Option Url :=
  if !(lit "///").isPrefixOf p ∧ (lit "//").isPrefixOf p then
    match net.parseAuthority ((p.drop 2).takeWhile (· ≠ byte '/')) with
    | none => none
    | some (user, host) => setPath { u with user, host } ((p.drop 2).dropWhile (· ≠ byte '/'))
  else setPath u p

/-- The fields that a scheme and a query set. -/
def ofQuery (scheme query : GoString) : Url :=
  if query = lit "?" then { scheme, forceQuery := true } else { scheme, rawQuery := query.drop 1 }

@[simp] theorem ofQuery_scheme (scheme query : GoString) :
    (ofQuery scheme query).scheme = scheme := by
  unfold ofQuery
  split <;> rfl

@[simp] theorem ofQuery_host (scheme query : GoString) : (ofQuery scheme query).host = [] := by
  unfold ofQuery
  split <;> rfl

theorem getscheme_slash (s : GoString) :
    getscheme (byte '/' :: s) = some ([], byte '/' :: s) := rfl

/-- Where the query of a string is that of `ofQuery`. -/
theorem parseRest_query {scheme p query : GoString} (hPath : byte '?' ∉ p)
    (hQuery : Opens [byte '?'] query) :
    (if (p ++ query).getLast? = some (byte '?') ∧ (p ++ query).count (byte '?') = 1 then
        (({ scheme, forceQuery := true } : Url), (p ++ query).dropLast)
      else
        ({ scheme, rawQuery := ((p ++ query).dropWhile (· ≠ byte '?')).drop 1 },
          (p ++ query).takeWhile (· ≠ byte '?'))) =
      (ofQuery scheme query, p) := by
  have hCount : p.count (byte '?') = 0 := List.count_eq_zero.mpr hPath
  unfold ofQuery
  by_cases hForce : query = lit "?"
  · obtain rfl : query = [byte '?'] := hForce
    have hQuestion : [byte '?'] = lit "?" := rfl
    rw [if_pos ⟨List.getLast?_concat, by simp [List.count_append, hCount]⟩,
      List.dropLast_concat]
    simp only [if_pos hQuestion]
  · rw [if_neg hForce, takeWhile_opens hPath hQuery, dropWhile_opens hPath hQuery, if_neg]
    rintro ⟨hLast, hOne⟩
    match query with
    | [] =>
      rw [List.append_nil, hCount] at hOne
      cases hOne
    | c :: rest =>
      obtain rfl := List.mem_singleton.mp (hQuery c rfl)
      rw [List.count_append, hCount, List.count_cons_self] at hOne
      have hNone : byte '?' ∉ rest := List.count_eq_zero.mp (by omega)
      have hRest : rest ≠ [] := by
        rintro rfl
        exact hForce rfl
      rw [List.getLast?_append, List.getLast?_cons, Option.some_or] at hLast
      rw [List.getLast?_eq_some_getLast hRest, Option.getD_some, Option.some.injEq] at hLast
      exact hNone (hLast ▸ List.getLast_mem hRest)

theorem parseRest_cut (net : NetUrl) (scheme : GoString) {p query : GoString} (hPath : byte '?' ∉ p)
    (hQuery : Opens [byte '?'] query) :
    parseRest net scheme (p ++ query) =
      let u := ofQuery (toLower scheme) query
      if p.head? ≠ some (byte '/') ∧ u.scheme ≠ [] then some { u with opaquePart := p }
      else if p.head? ≠ some (byte '/') ∧ byte ':' ∈ p.takeWhile (· ≠ byte '/') then none
      else if (u.scheme ≠ [] ∨ !(lit "///").isPrefixOf p) ∧ (lit "//").isPrefixOf p then
        match net.parseAuthority ((p.drop 2).takeWhile (· ≠ byte '/')) with
        | none => none
        | some (user, host) => setPath { u with user, host } ((p.drop 2).dropWhile (· ≠ byte '/'))
      else setPath u p := by
  unfold parseRest
  cases hAuthority : net.parseAuthority ((p.drop 2).takeWhile (· ≠ byte '/')) <;>
    simp only [parseRest_query hPath hQuery, hAuthority]

theorem parse_slash {s p query fragment : GoString}
    (hCut : Cut (byte '/' :: s) (byte '/' :: p) query fragment) :
    parse net (byte '/' :: s) =
      if hasControlByte (byte '/' :: p ++ query) then none
      else
        (unescape (fragment.drop 1)).bind fun text =>
          (parsePath net (ofQuery [] query) (byte '/' :: p)).map fun u => { u with fragment := text } := by
  have hRest : parseRest net [] (byte '/' :: p ++ query) =
      parsePath net (ofQuery [] query) (byte '/' :: p) := by
    rw [parseRest_cut net [] hCut.path_question hCut.query_opens]
    dsimp only
    rw [if_neg (fun h => h.1 rfl), if_neg (fun h => h.1 rfl)]
    unfold parsePath
    simp only [toLower, List.map_nil, ofQuery_scheme, ne_eq, not_true_eq_false, false_or]
  unfold parse
  simp only [hCut.takeWhile_hash, hCut.dropWhile_hash]
  split
  · rfl
  · have hStar : byte '/' :: p ++ query ≠ lit "*" := by
      intro hStar
      exact absurd (List.cons.inj hStar).1 (by decide)
    rw [if_neg hStar, List.cons_append, getscheme_slash]
    simp only []
    rw [← List.cons_append, hRest]
    cases parsePath net (ofQuery [] query) (byte '/' :: p) <;> cases unescape (fragment.drop 1) <;> rfl

theorem setPath_eq_some {u v : Url} {p : GoString} :
    setPath u p = some v ↔
      ∃ path, Escaped p path ∧
        v = { u with path, rawPath := if p = escape .path path then [] else p } := by
  rw [setPath, Option.map_eq_some_iff]
  constructor
  · rintro ⟨path, hPath, rfl⟩
    exact ⟨path, escaped_of_unescape hPath, rfl⟩
  · rintro ⟨path, hPath, rfl⟩
    exact ⟨path, hPath.unescape, rfl⟩

/-! ## Strings that stay on their server -/

/-- The string is parsed to a URL without scheme and host that has the path. -/
def Local (net : NetUrl) (s path : GoString) : Prop :=
  ∃ u, parse net s = some u ∧ u.scheme = [] ∧ u.host = [] ∧ u.path = path

/-- One slash starts a path. -/
theorem parsePath_single {p : GoString} (hSingle : p.head? ≠ some (byte '/')) (u : Url) :
    parsePath net u (byte '/' :: p) = setPath u (byte '/' :: p) := by
  unfold parsePath
  rw [if_neg]
  rintro ⟨-, hPrefix⟩
  match p with
  | [] => cases hPrefix
  | c :: p =>
    have hSlashes : lit "//" = [byte '/', byte '/'] := rfl
    rw [hSlashes] at hPrefix
    simp only [List.isPrefixOf_cons_cons, beq_self_eq_true, Bool.true_and, List.isPrefixOf_nil_left,
      Bool.and_true, beq_iff_eq] at hPrefix
    exact hSingle (by rw [← hPrefix]; rfl)

theorem parse_single {s p query fragment : GoString}
    (hCut : Cut (byte '/' :: s) (byte '/' :: p) query fragment)
    (hSingle : p.head? ≠ some (byte '/')) {u : Url} :
    parse net (byte '/' :: s) = some u ↔
      hasControlByte (byte '/' :: p ++ query) = false ∧
        ∃ path text, Escaped (byte '/' :: p) path ∧ Escaped (fragment.drop 1) text ∧
          u = { ofQuery [] query with
            path
            rawPath := if byte '/' :: p = escape .path path then [] else byte '/' :: p
            fragment := text } := by
  rw [parse_slash hCut, parsePath_single hSingle]
  split
  · rename_i hControl
    simp only [hControl, reduceCtorEq, false_and]
  · rename_i hControl
    simp only [Bool.not_eq_true] at hControl
    simp only [hControl, true_and, Option.bind_eq_some_iff, Option.map_eq_some_iff,
      setPath_eq_some, unescape_eq_some]
    constructor
    · rintro ⟨text, hText, -, ⟨path, hPath, rfl⟩, rfl⟩
      exact ⟨path, text, hPath, hText, rfl⟩
    · rintro ⟨path, text, hPath, hText, rfl⟩
      exact ⟨text, hText, _, ⟨path, hPath, rfl⟩, rfl⟩

theorem local_iff {s p query fragment path : GoString}
    (hCut : Cut (byte '/' :: s) (byte '/' :: p) query fragment)
    (hSingle : p.head? ≠ some (byte '/')) :
    Local net (byte '/' :: s) path ↔
      hasControlByte (byte '/' :: p ++ query) = false ∧ Escaped (byte '/' :: p) path ∧
        ∃ text, Escaped (fragment.drop 1) text := by
  simp only [Local, parse_single hCut hSingle]
  constructor
  · rintro ⟨u, ⟨hControl, path', text, hPath, hText, rfl⟩, -, -, rfl⟩
    exact ⟨hControl, hPath, text, hText⟩
  · rintro ⟨hControl, hPath, text, hText⟩
    exact ⟨_, ⟨hControl, path, text, hPath, hText, rfl⟩, by simp, by simp, rfl⟩

/-! ## What is sent -/

theorem hasControlByte_hexEscapeNonASCII (s : GoString) :
    hasControlByte (hexEscapeNonASCII s) = hasControlByte s := by
  rw [Bool.eq_iff_iff, hasControlByte, hasControlByte, List.any_eq_true, List.any_eq_true]
  constructor
  · rintro ⟨c, hc, hControl⟩
    rcases mem_hexEscapeNonASCII hc with hc | rfl | hSome
    · exact ⟨c, hc.1, hControl⟩
    · cases hControl
    · have hPrintable : (unhex c).isSome → decide (c < 0x20 || c = 0x7F) = false :=
        forall_byte (P := fun c => (unhex c).isSome → decide (c < 0x20 || c = 0x7F) = false)
          (by decide +kernel) c
      simp_all
  · rintro ⟨c, hc, hControl⟩
    have hAscii : (c < 0x20 || c = 0x7F) = true → c < 0x80 :=
      forall_byte (P := fun c => (c < 0x20 || c = 0x7F) = true → c < 0x80) (by decide +kernel) c
    exact ⟨c, mem_hexEscapeNonASCII_of_ascii hc (hAscii hControl), hControl⟩

theorem opens_hexEscapeNonASCII {c : UInt8} {s : GoString} (hAscii : c < 0x80)
    (hOpens : Opens [c] s) : Opens [c] (hexEscapeNonASCII s) := by
  match s with
  | [] => exact nofun
  | d :: s =>
    obtain rfl := List.mem_singleton.mp (hOpens d rfl)
    rw [hexEscapeNonASCII_cons s hAscii]
    exact fun e he => hOpens e he

/-- A string is sent with its cuts in the same places. -/
theorem Cut.hexEscapeNonASCII {s path query fragment : GoString}
    (hCut : Cut s path query fragment) :
    Cut (hexEscapeNonASCII s) (hexEscapeNonASCII path) (hexEscapeNonASCII query)
      (hexEscapeNonASCII fragment) where
  eq := by rw [hCut.eq, hexEscapeNonASCII_append, hexEscapeNonASCII_append]
  path_question hc := hCut.path_question (mem_hexEscapeNonASCII_separator rfl (by decide) hc)
  path_hash hc := hCut.path_hash (mem_hexEscapeNonASCII_separator rfl (by decide) hc)
  query_hash hc := hCut.query_hash (mem_hexEscapeNonASCII_separator rfl (by decide) hc)
  query_opens := opens_hexEscapeNonASCII (by decide) hCut.query_opens
  fragment_opens := opens_hexEscapeNonASCII (by decide) hCut.fragment_opens

theorem hexEscapeNonASCII_fragment {fragment : GoString} (hOpens : Opens [byte '#'] fragment) :
    (hexEscapeNonASCII fragment).drop 1 = hexEscapeNonASCII (fragment.drop 1) := by
  match fragment with
  | [] => rfl
  | c :: fragment =>
    obtain rfl := List.mem_singleton.mp (hOpens c rfl)
    rw [hexEscapeNonASCII_cons fragment (by decide)]
    rfl

/-- The path of a string that starts with a slash starts with it. -/
theorem Cut.path_slash {s path query fragment : GoString}
    (hCut : Cut (byte '/' :: s) path query fragment) : ∃ p, path = byte '/' :: p := by
  obtain ⟨hEq, -, -, -, hQuery, hFragment⟩ := hCut
  match path, query, fragment with
  | c :: p, _, _ => exact ⟨p, by rw [(List.cons.inj hEq).1]⟩
  | [], c :: query, _ =>
    have hSlash := hQuery c rfl
    rw [← (List.cons.inj hEq).1] at hSlash
    exact absurd hSlash (by decide)
  | [], [], c :: fragment =>
    have hSlash := hFragment c rfl
    rw [← (List.cons.inj hEq).1] at hSlash
    exact absurd hSlash (by decide)

theorem Cut.path_single {s p query fragment : GoString}
    (hCut : Cut (byte '/' :: s) (byte '/' :: p) query fragment)
    (hSingle : s.head? ≠ some (byte '/')) : p.head? ≠ some (byte '/') := by
  have hEq := (List.cons.inj hCut.eq).2
  match p with
  | [] => nofun
  | c :: p =>
    rw [hEq] at hSingle
    exact hSingle

/-- Sending a string does not change where it leads. -/
theorem local_hexEscapeNonASCII {s path : GoString} (hSingle : s.head? ≠ some (byte '/')) :
    Local net (hexEscapeNonASCII (byte '/' :: s)) path ↔ Local net (byte '/' :: s) path := by
  obtain ⟨front, query, fragment, hCut⟩ := exists_cut (byte '/' :: s)
  obtain ⟨p, rfl⟩ := hCut.path_slash
  have hSent := hCut.hexEscapeNonASCII
  have hSlash (s : GoString) :
      hexEscapeNonASCII (byte '/' :: s) = byte '/' :: hexEscapeNonASCII s :=
    hexEscapeNonASCII_cons s (by decide)
  have hSingle' : (hexEscapeNonASCII p).head? ≠ some (byte '/') := by
    have hHead := hCut.path_single hSingle
    match p with
    | [] => nofun
    | c :: p =>
      by_cases hAscii : c < 0x80
      · rw [hexEscapeNonASCII_cons p hAscii]
        exact hHead
      · rw [hexEscapeNonASCII_cons_high p hAscii]
        exact fun hPercent => absurd (Option.some.inj hPercent) (by decide)
  rw [hSlash, hSlash] at hSent
  rw [hSlash, local_iff hSent hSingle', local_iff hCut (hCut.path_single hSingle), ← hSlash,
    ← hexEscapeNonASCII_append, hasControlByte_hexEscapeNonASCII,
    hexEscapeNonASCII_fragment hCut.fragment_opens]
  simp only [escaped_hexEscapeNonASCII]

/-! ## Targets of requests -/

/-- The URL of a request whose target starts with a slash. -/
structure OriginForm (u : Url) : Prop where
  scheme : u.scheme = []
  opaquePart : u.opaquePart = []
  user : u.user = none
  host : u.host = []
  path : u.path.head? = some (byte '/')
  rawPath : Opens [byte '/'] u.rawPath
  fragment : u.fragment = []

theorem question_not_mem_escape (s : GoString) : byte '?' ∉ escape .path s := by
  intro hMem
  obtain ⟨c, -, hc⟩ := List.mem_flatMap.mp hMem
  rw [if_neg (fun h => Encoding.noConfusion h.1)] at hc
  split at hc
  · obtain ⟨high, low, hHigh, hLow, -⟩ := unhex_upperHex c
    simp only [List.mem_cons, List.not_mem_nil, or_false] at hc
    rcases hc with hPercent | hDigit | hDigit
    · exact absurd hPercent (by decide)
    · rw [← hDigit] at hHigh
      cases hHigh
    · rw [← hDigit] at hLow
      cases hLow
  · rename_i hPlain
    rw [← List.mem_singleton.mp hc] at hPlain
    exact hPlain rfl

/-- A path is printed without question marks, and what is printed is unescaped to it. -/
theorem escapedPath_spec {u : Url} (hStar : u.path ≠ lit "*") :
    byte '?' ∉ u.escapedPath ∧ Escaped u.escapedPath u.path := by
  unfold escapedPath
  rw [if_neg hStar]
  split
  · rename_i hRaw
    obtain ⟨-, hValid, hPath⟩ := hRaw
    refine ⟨?_, escaped_of_unescape hPath⟩
    intro hMem
    have hByte := List.all_eq_true.mp hValid _ hMem
    exact absurd hByte (by decide)
  · exact ⟨question_not_mem_escape u.path, escaped_escape Encoding.noConfusion u.path⟩

namespace OriginForm

variable {u v : Url}

theorem path_ne_star (hForm : OriginForm u) : u.path ≠ lit "*" := by
  intro hStar
  have hHead := hForm.path
  rw [hStar] at hHead
  exact absurd (Option.some.inj hHead) (by decide)

theorem escapedPath_opens (hForm : OriginForm u) : Opens [byte '/'] u.escapedPath := by
  unfold escapedPath
  rw [if_neg hForm.path_ne_star]
  split
  · exact hForm.rawPath
  · obtain ⟨rest, hRest⟩ := List.head?_eq_some_iff.mp hForm.path
    rw [hRest]
    exact opens_cons _ _

/-- It is printed as its path and its query. -/
theorem string_eq (hForm : OriginForm u) :
    u.string net =
      u.escapedPath ++ if u.forceQuery ∨ u.rawQuery ≠ [] then lit "?" ++ u.rawQuery else [] := by
  have hDot : byte ':' ∉ u.escapedPath.takeWhile (· ≠ byte '/') := by
    have hOpens := hForm.escapedPath_opens
    match hPath : u.escapedPath with
    | [] => exact List.not_mem_nil
    | c :: rest =>
      rw [hPath] at hOpens
      obtain rfl := List.mem_singleton.mp (hOpens c rfl)
      exact List.not_mem_nil
  unfold string
  simp only [hForm.scheme, hForm.opaquePart, hForm.user, hForm.host, hForm.fragment, hDot, ne_eq,
    not_true_eq_false, if_false, Option.isSome_none, Bool.false_eq_true, or_self, and_false,
    List.nil_append, List.append_nil]

/-- Its path is found in what is printed. -/
theorem path_eq (hFirst : OriginForm u) (hSecond : OriginForm v)
    (hSame : u.string net = v.string net) : u.path = v.path := by
  obtain ⟨hPath, hEscaped⟩ := escapedPath_spec hFirst.path_ne_star
  obtain ⟨hPath', hEscaped'⟩ := escapedPath_spec hSecond.path_ne_star
  have hQuery (w : Url) :
      Opens [byte '?'] (if w.forceQuery ∨ w.rawQuery ≠ [] then lit "?" ++ w.rawQuery else []) := by
    split
    · exact opens_cons _ _
    · exact nofun
  have hPrinted := takeWhile_opens hPath (hQuery u)
  rw [hFirst.string_eq, hSecond.string_eq] at hSame
  rw [hSame, takeWhile_opens hPath' (hQuery v)] at hPrinted
  rw [hPrinted] at hEscaped'
  exact Option.some.inj (hEscaped.unescape.symm.trans hEscaped'.unescape)

end OriginForm

end Url

end PadlockCloud
