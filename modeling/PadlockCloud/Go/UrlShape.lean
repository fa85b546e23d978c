import PadlockCloud.Go.Clean

/-!
# The shapes of an accepted URL

A URL with the path of a page and without scheme is one of three: a path with
one slash at its start, an authority followed by the path, or a path that does
not start with a slash because that is escaped.
-/

namespace PadlockCloud

/-- What is known of the parsing of authorities: there is no host exactly if
nothing stands behind the last at sign, then there is user info unless the
authority is empty, and what is printed is parsed again. -/
structure NetUrl.Lawful (net : NetUrl) : Prop where
  host_nil : ∀ {a user host}, net.parseAuthority a = some (user, host) →
    (host = [] ↔ a = [] ∨ a.getLast? = some (byte '@'))
  user_none : ∀ {a user}, net.parseAuthority a = some (user, []) → (user = none ↔ a = [])
  reparse : ∀ {a user host}, net.parseAuthority a = some (user, host) →
    net.parseAuthority (net.printAuthority user host) = some (user, host)
  print_bytes : ∀ {a user host}, net.parseAuthority a = some (user, host) →
    (∀ c ∈ a, Url.printable c = true ∧ c ∉ lit "/?#") →
    ∀ c ∈ net.printAuthority user host, Url.printable c = true ∧ c ∉ lit "/?#"

namespace Url

variable {net : NetUrl}

/-! ## Schemes -/

def schemeByte (c : UInt8) : Bool := isLower c || isUpper c || GoString.isDigit c || c ∈ lit "+-."

/-- A letter, then letters, digits and the signs of a scheme. -/
def SchemeText (scheme : GoString) : Prop :=
  (∀ c ∈ scheme, schemeByte c = true) ∧ ∃ c ∈ scheme.head?, (isLower c || isUpper c) = true

theorem SchemeText.ne_nil {scheme : GoString} (hScheme : SchemeText scheme) : scheme ≠ [] := by
  rintro rfl
  obtain ⟨-, c, hc, -⟩ := hScheme
  cases hc

theorem toLower_eq_nil {s : GoString} : toLower s = [] ↔ s = [] := List.map_eq_nil_iff

theorem schemeByte_lower {c : UInt8} (hByte : schemeByte c = true) :
    schemeByte (if isUpper c then c + 32 else c) = true :=
  forall_byte (P := fun c => schemeByte c = true →
    schemeByte (if isUpper c then c + 32 else c) = true) (by decide +kernel) c hByte

theorem SchemeText.toLower {scheme : GoString} (hScheme : SchemeText scheme) :
    SchemeText (toLower scheme) := by
  obtain ⟨hBytes, c, hHead, hLetter⟩ := hScheme
  refine ⟨?_, if isUpper c then c + 32 else c, ?_, ?_⟩
  · intro d hd
    obtain ⟨e, he, rfl⟩ := List.mem_map.mp hd
    exact schemeByte_lower (hBytes e he)
  · rw [Url.toLower, List.head?_map, Option.mem_def.mp hHead]
    rfl
  · exact forall_byte (P := fun c => (isLower c || isUpper c) = true →
      (isLower (if isUpper c then c + 32 else c) || isUpper (if isUpper c then c + 32 else c)) =
        true) (by decide +kernel) c hLetter

theorem schemeByte_ascii {c : UInt8} (hByte : schemeByte c = true) : c < 0x80 :=
  forall_byte (P := fun c => schemeByte c = true → c < 0x80) (by decide +kernel) c hByte

theorem getschemeFrom_scheme {raw scheme rest : GoString} {i : Nat} (hi : i ≠ 0)
    (hBytes : ∀ c ∈ scheme, schemeByte c = true) :
    getschemeFrom raw i (scheme ++ byte ':' :: rest) =
      some (raw.take (i + scheme.length), rest) := by
  induction scheme generalizing i with
  | nil =>
    rw [List.nil_append, getschemeFrom, if_neg (by decide), if_neg (by decide), if_pos rfl,
      if_neg hi]
    rfl
  | cons c scheme ih =>
    have hNext := ih (i := i + 1) (by omega) fun d hd => hBytes d (List.mem_cons_of_mem c hd)
    rw [List.cons_append, getschemeFrom, List.length_cons, hNext, Nat.add_right_comm, ← Nat.add_assoc]
    split
    · rfl
    · rename_i hLetter
      have hOther := hBytes c List.mem_cons_self
      rw [if_pos]
      simpa [schemeByte, hLetter] using hOther

/-- A scheme is what stands before the first colon. -/
theorem getscheme_scheme {scheme : GoString} (hScheme : SchemeText scheme) (rest : GoString) :
    getscheme (scheme ++ byte ':' :: rest) = some (scheme, rest) := by
  obtain ⟨hBytes, c, hHead, hLetter⟩ := hScheme
  match scheme with
  | d :: scheme =>
    obtain rfl := Option.some.inj (Option.mem_def.mp hHead)
    rw [getscheme, List.cons_append, getschemeFrom, if_pos hLetter,
      getschemeFrom_scheme (by omega) fun e he => hBytes e (List.mem_cons_of_mem _ he)]
    simp [Nat.add_comm 1]

/-- The ways in which the scan for a scheme succeeds. -/
theorem getschemeFrom_eq_some {raw s scheme rest : GoString} {i : Nat}
    (hScan : getschemeFrom raw i s = some (scheme, rest)) :
    scheme = [] ∧ rest = raw ∨
      ∃ mid, s = mid ++ byte ':' :: rest ∧ (∀ c ∈ mid, schemeByte c = true) ∧
        scheme = raw.take (i + mid.length) ∧
        (i = 0 → ∃ c ∈ mid.head?, (isLower c || isUpper c) = true) := by
  induction s generalizing i with
  | nil =>
    obtain ⟨rfl, rfl⟩ := Prod.mk.inj (Option.some.inj hScan)
    exact .inl ⟨rfl, rfl⟩
  | cons c s ih =>
    have hNext (hScan : getschemeFrom raw (i + 1) s = some (scheme, rest))
        (hByte : schemeByte c = true) (hFirst : i = 0 → (isLower c || isUpper c) = true) :
        scheme = [] ∧ rest = raw ∨
          ∃ mid, c :: s = mid ++ byte ':' :: rest ∧ (∀ c ∈ mid, schemeByte c = true) ∧
            scheme = raw.take (i + mid.length) ∧
            (i = 0 → ∃ c ∈ mid.head?, (isLower c || isUpper c) = true) := by
      refine (ih hScan).imp_right ?_
      rintro ⟨mid, rfl, hBytes, hTake, -⟩
      refine ⟨c :: mid, rfl, ?_, ?_, fun hi => ⟨c, rfl, hFirst hi⟩⟩
      · exact List.forall_mem_cons.mpr ⟨hByte, hBytes⟩
      · rw [hTake, List.length_cons, Nat.add_right_comm, Nat.add_assoc]
    rw [getschemeFrom] at hScan
    split at hScan
    · rename_i hLetter
      exact hNext hScan (by simp_all [schemeByte]) fun _ => hLetter
    · split at hScan
      · rename_i hOther
        split at hScan
        · obtain ⟨rfl, rfl⟩ := Prod.mk.inj (Option.some.inj hScan)
          exact .inl ⟨rfl, rfl⟩
        · rename_i hi
          exact hNext hScan (by simp_all [schemeByte]) fun hZero => absurd hZero hi
      · split at hScan
        · split at hScan
          · cases hScan
          · rename_i hColon hi
            obtain ⟨rfl, rfl⟩ := Prod.mk.inj (Option.some.inj hScan)
            exact .inr ⟨[], by rw [hColon]; rfl, nofun, rfl, fun hZero => absurd hZero hi⟩
        · obtain ⟨rfl, rfl⟩ := Prod.mk.inj (Option.some.inj hScan)
          exact .inl ⟨rfl, rfl⟩

theorem getscheme_eq_some {raw scheme rest : GoString}
    (hScan : getscheme raw = some (scheme, rest)) :
    scheme = [] ∧ rest = raw ∨ SchemeText scheme ∧ raw = scheme ++ byte ':' :: rest := by
  refine (getschemeFrom_eq_some hScan).imp_right ?_
  rintro ⟨mid, hRaw, hBytes, hTake, hFirst⟩
  obtain rfl : scheme = mid := by
    rw [hTake, hRaw, Nat.zero_add, List.take_left]
  exact ⟨⟨hBytes, hFirst rfl⟩, hRaw⟩

/-! ## URLs with a scheme -/

theorem parseRest_scheme {scheme rest : GoString} {u : Url}
    (hParse : parseRest net scheme rest = some u) : u.scheme = toLower scheme := by
  have hSet {v w : Url} {p : GoString} (hv : v.scheme = toLower scheme)
      (hSet : setPath v p = some w) : w.scheme = toLower scheme := by
    obtain ⟨path, -, rfl⟩ := setPath_eq_some.mp hSet
    exact hv
  have hQuery := parseRest_cut net scheme (not_mem_takeWhile (byte '?') rest)
    (opens_dropWhile (byte '?') rest)
  rw [List.takeWhile_append_dropWhile, hParse] at hQuery
  dsimp only at hQuery
  split at hQuery
  · rw [Option.some.inj hQuery]
    exact ofQuery_scheme _ _
  · split at hQuery
    · cases hQuery
    · split at hQuery
      · split at hQuery
        · cases hQuery
        · refine hSet ?_ hQuery.symm
          exact ofQuery_scheme _ _
      · exact hSet (ofQuery_scheme _ _) hQuery.symm

/-- What a parsed URL is made of: the scheme and the rest, or a single star. -/
theorem parse_eq_some {s : GoString} {u : Url} (hParse : parse net s = some u) :
    s.takeWhile (· ≠ byte '#') = lit "*" ∧ u.path = lit "*" ∧ u.scheme = [] ∧ u.host = [] ∨
      ∃ scheme rest v text, getscheme (s.takeWhile (· ≠ byte '#')) = some (scheme, rest) ∧
        parseRest net scheme rest = some v ∧
        Escaped ((s.dropWhile (· ≠ byte '#')).drop 1) text ∧ u = { v with fragment := text } := by
  unfold parse at hParse
  dsimp only at hParse
  split at hParse
  · cases hParse
  · split at hParse
    · rename_i hStar
      obtain ⟨text, -, rfl⟩ := Option.map_eq_some_iff.mp hParse
      exact .inl ⟨hStar, hStar, rfl, rfl⟩
    · right
      split at hParse
      · cases hParse
      · rename_i scheme rest hScheme
        split at hParse
        · rename_i v text hRest hText
          exact ⟨scheme, rest, v, text, hScheme, hRest, escaped_of_unescape hText,
            (Option.some.inj hParse).symm⟩
        · cases hParse

theorem parse_scheme {scheme rest : GoString} {v : Url} (hScheme : SchemeText scheme)
    (hParse : parse net (scheme ++ byte ':' :: rest) = some v) : v.scheme ≠ [] := by
  have hHash : byte '#' ∉ scheme := fun hc => absurd (hScheme.1 _ hc) (by decide)
  have hFront : (scheme ++ byte ':' :: rest).takeWhile (· ≠ byte '#') =
      scheme ++ byte ':' :: rest.takeWhile (· ≠ byte '#') := by
    rw [List.takeWhile_append_of_pos, List.takeWhile_cons_of_pos (by decide)]
    intro c hc
    exact decide_eq_true fun hEq => hHash (hEq ▸ hc)
  rcases parse_eq_some hParse with ⟨hStar, -⟩ | ⟨scheme', rest', u, text, hScan, hRest, -, rfl⟩
  · rw [hFront] at hStar
    obtain ⟨-, c, hHead, hLetter⟩ := hScheme
    match scheme with
    | d :: scheme =>
      obtain rfl := Option.some.inj (Option.mem_def.mp hHead)
      rw [(List.cons.inj hStar).1] at hLetter
      cases hLetter
  · rw [hFront, getscheme_scheme hScheme] at hScan
    obtain ⟨rfl, rfl⟩ := Prod.mk.inj (Option.some.inj hScan)
    show u.scheme ≠ []
    rw [parseRest_scheme hRest, ne_eq, toLower_eq_nil]
    exact hScheme.ne_nil

theorem parse_scheme_text {s : GoString} {u : Url} (hParse : parse net s = some u)
    (hScheme : u.scheme ≠ []) :
    ∃ scheme rest, SchemeText scheme ∧ s = scheme ++ byte ':' :: rest ∧
      u.scheme = toLower scheme := by
  rcases parse_eq_some hParse with ⟨-, -, hNone, -⟩ | ⟨scheme, rest, v, text, hScan, hRest, -, rfl⟩
  · exact absurd hNone hScheme
  · have hLower := parseRest_scheme hRest
    rcases getscheme_eq_some hScan with ⟨rfl, -⟩ | ⟨hText, hRaw⟩
    · exact absurd hLower hScheme
    · refine ⟨scheme, rest ++ s.dropWhile (· ≠ byte '#'), hText, ?_, hLower⟩
      rw [← List.cons_append, ← List.append_assoc, ← hRaw, List.takeWhile_append_dropWhile]

/-- A scheme is sent as it is. -/
theorem sent_scheme {scheme rest : GoString} {v : Url} (hScheme : SchemeText scheme)
    (hParse : parse net (hexEscapeNonASCII (scheme ++ byte ':' :: rest)) = some v) :
    v.scheme ≠ [] := by
  rw [hexEscapeNonASCII_append,
    hexEscapeNonASCII_ascii fun c hc => schemeByte_ascii (hScheme.1 c hc),
    hexEscapeNonASCII_cons rest (by decide)] at hParse
  exact parse_scheme hScheme hParse

/-! ## Pages without scheme -/

/-- The parts of a URL without scheme, as `parse` puts them together. -/
def ofParts (user : Option GoString) (host raw path query text : GoString) : Url :=
  { ofQuery [] query with
    user
    host
    path
    rawPath := if raw = escape .path path then [] else raw
    fragment := text }

/-- The shapes of a URL that is a page and has no scheme. -/
inductive PageUrl (net : NetUrl) (s path : GoString) (u : Url) : Prop where
  | rooted (y query fragment text : GoString) (hCut : Cut s (byte '/' :: y) query fragment)
      (hPath : Escaped (byte '/' :: y) path) (hText : Escaped (fragment.drop 1) text)
      (hControl : hasControlByte (byte '/' :: y ++ query) = false)
      (hUrl : u = ofParts none [] (byte '/' :: y) path query text)
  | authority (a raw query fragment text : GoString) (user : Option GoString) (host : GoString)
      (hCut : Cut s (byte '/' :: byte '/' :: (a ++ raw)) query fragment) (hNonempty : a ≠ [])
      (hBytes : ∀ c ∈ a, printable c = true ∧ c ∉ lit "/?#") (hOpens : Opens [byte '/'] raw)
      (hAuthority : net.parseAuthority a = some (user, host)) (hPath : Escaped raw path)
      (hText : Escaped (fragment.drop 1) text)
      (hUrl : u = ofParts user host raw path query text)
  | relative (p query fragment text : GoString)
      (hCut : Cut s (byte '%' :: p) query fragment) (hPath : Escaped (byte '%' :: p) path)
      (hText : Escaped (fragment.drop 1) text)
      (hUrl : u = ofParts none [] (byte '%' :: p) path query text)

theorem parsePath_authority {u : Url} {a raw : GoString} (ha : a ≠ []) (hSlash : byte '/' ∉ a)
    (hOpens : Opens [byte '/'] raw) :
    parsePath net u (byte '/' :: byte '/' :: (a ++ raw)) =
      match net.parseAuthority a with
      | none => none
      | some (user, host) => setPath { u with user, host } raw := by
  unfold parsePath
  rw [if_pos]
  · cases hAuthority : net.parseAuthority a <;>
      simp only [List.drop_succ_cons, List.drop_zero, takeWhile_opens hSlash hOpens,
        dropWhile_opens hSlash hOpens, hAuthority]
  · obtain ⟨c, a, rfl⟩ := List.exists_cons_of_ne_nil ha
    have hFirst : byte '/' ≠ c := fun hEq => hSlash (hEq ▸ List.mem_cons_self)
    refine ⟨?_, rfl⟩
    show (!(byte '/' == c && true)) = true
    simp [hFirst]

theorem isPage_head {path : GoString} (hPage : isPage path = true) :
    ∃ t, path = byte '/' :: t := by
  rcases isPage_iff.mp hPage with rfl | ⟨name, -, -, rfl⟩
  · exact ⟨[], rfl⟩
  · exact ⟨_, rfl⟩

theorem ofParts_path (raw path query text : GoString) :
    ({ ofQuery [] query with
        path
        rawPath := if raw = escape .path path then [] else raw
        fragment := text } : Url) = ofParts none [] raw path query text := by
  unfold ofParts ofQuery
  split <;> rfl

/-- Three slashes start no page. -/
theorem not_page_of_slashes {u v : Url} {raw : GoString} (hOpens : Opens [byte '/'] raw)
    (hPath : parsePath net u (byte '/' :: byte '/' :: ([] ++ raw)) = some v) :
    ¬isPage v.path = true := by
  intro hPage
  match raw with
  | [] =>
    unfold parsePath at hPath
    rw [if_pos (by decide)] at hPath
    split at hPath
    · cases hPath
    · obtain ⟨path, hEscaped, rfl⟩ := setPath_eq_some.mp hPath
      obtain ⟨t, hSlash⟩ := isPage_head hPage
      have hNil := hEscaped.unescape
      rw [show path = _ from hSlash] at hNil
      cases hNil
  | c :: raw =>
    obtain rfl := List.mem_singleton.mp (hOpens c rfl)
    unfold parsePath at hPath
    have hThree : (!(lit "///").isPrefixOf (byte '/' :: byte '/' :: ([] ++ byte '/' :: raw))) =
        false := rfl
    rw [hThree, if_neg fun h => Bool.false_ne_true h.1] at hPath
    obtain ⟨path, hEscaped, rfl⟩ := setPath_eq_some.mp hPath
    exact pageTail_head (pageTail_of_escaped hEscaped hPage) rfl

/-- A string that starts with a slash. -/
theorem pageUrl_of_slash {s : GoString} {u : Url} (hParse : parse net (byte '/' :: s) = some u)
    (hPage : isPage u.path = true) : PageUrl net (byte '/' :: s) u.path u := by
  obtain ⟨front, query, fragment, hCut⟩ := exists_cut (byte '/' :: s)
  obtain ⟨y, rfl⟩ := hCut.path_slash
  by_cases hSingle : y.head? = some (byte '/')
  · obtain ⟨y, rfl⟩ := List.head?_eq_some_iff.mp hSingle
    rw [parse_slash hCut] at hParse
    split at hParse
    · cases hParse
    · rename_i hControl
      obtain ⟨text, hText, hMapped⟩ := Option.bind_eq_some_iff.mp hParse
      obtain ⟨v, hPath, rfl⟩ := Option.map_eq_some_iff.mp hMapped
      -- What stands between the second slash and the next one is the authority.
      have hOpens := opens_dropWhile (byte '/') y
      have hSlash := not_mem_takeWhile (byte '/') y
      rw [← List.takeWhile_append_dropWhile (p := (· ≠ byte '/')) (l := y)] at hCut hPath hControl
      generalize y.takeWhile (· ≠ byte '/') = a at *
      generalize y.dropWhile (· ≠ byte '/') = raw at *
      by_cases ha : a = []
      · subst ha
        exact absurd (show isPage v.path = true from hPage) (not_page_of_slashes hOpens hPath)
      · rw [parsePath_authority ha hSlash hOpens] at hPath
        split at hPath
        · cases hPath
        · rename_i user host hAuthority
          obtain ⟨path, hRaw, rfl⟩ := setPath_eq_some.mp hPath
          refine .authority a raw query fragment text user host hCut ha ?_ hOpens hAuthority hRaw
            (escaped_of_unescape hText) rfl
          intro c hc
          have hMem : c ∈ byte '/' :: byte '/' :: (a ++ raw) := by simp [hc]
          refine ⟨?_, ?_⟩
          · exact hasControlByte_eq_false.mp (by simpa using hControl) c
              (List.mem_append_left query hMem)
          · rw [show lit "/?#" = [byte '/', byte '?', byte '#'] from rfl]
            simp only [List.mem_cons, List.not_mem_nil, or_false, not_or]
            exact ⟨fun hEq => hSlash (hEq ▸ hc), fun hEq => hCut.path_question (hEq ▸ hMem),
              fun hEq => hCut.path_hash (hEq ▸ hMem)⟩
  · obtain ⟨hControl, path, text, hPath, hText, rfl⟩ := (parse_single hCut hSingle).mp hParse
    exact .rooted y query fragment text hCut hPath hText hControl (ofParts_path _ _ _ _)

theorem pageUrl_of_parse {s : GoString} {u : Url} (hParse : parse net s = some u)
    (hScheme : u.scheme = []) (hPage : isPage u.path = true) : PageUrl net s u.path u := by
  by_cases hSlash : s.head? = some (byte '/')
  · obtain ⟨s, rfl⟩ := List.head?_eq_some_iff.mp hSlash
    exact pageUrl_of_slash hParse hPage
  · rcases parse_eq_some hParse with ⟨-, hStar, -⟩ | ⟨scheme, rest, v, text, hScan, hRest, hText, rfl⟩
    · rw [hStar] at hPage
      cases hPage
    · obtain ⟨p, query, fragment, hCut⟩ := exists_cut s
      have hHead : p.head? ≠ some (byte '/') := by
        match p with
        | [] => nofun
        | c :: p =>
          rw [hCut.eq] at hSlash
          exact hSlash
      rw [hCut.takeWhile_hash] at hScan
      rw [hCut.dropWhile_hash] at hText
      have hNone : scheme = [] := by
        rw [← toLower_eq_nil, ← parseRest_scheme hRest]
        exact hScheme
      obtain rfl : rest = p ++ query := by
        rcases getscheme_eq_some hScan with ⟨-, hRaw⟩ | ⟨hBad, -⟩
        · exact hRaw
        · exact absurd hNone hBad.ne_nil
      subst hNone
      rw [parseRest_cut net [] hCut.path_question hCut.query_opens] at hRest
      dsimp only at hRest
      rw [if_neg fun h => h.2 (ofQuery_scheme _ _)] at hRest
      split at hRest
      · cases hRest
      · rw [if_neg] at hRest
        · obtain ⟨path, hPath, rfl⟩ := setPath_eq_some.mp hRest
          obtain ⟨t, hTail⟩ := isPage_head hPage
          change path = byte '/' :: t at hTail
          cases hPath with
          | nil => cases hTail
          | plain => exact absurd (congrArg some (List.cons.inj hTail).1) hHead
          | escape hHigh hLow hEscaped =>
            exact .relative _ query fragment text hCut (.escape hHigh hLow hEscaped) hText
              (ofParts_path _ _ _ _)
        · rintro ⟨-, hPrefix⟩
          match p with
          | [] => cases hPrefix
          | c :: p =>
            have hFirst := (Bool.and_eq_true _ _ ▸ (show (byte '/' == c && (lit "/").isPrefixOf p) =
              true from hPrefix)).1
            exact hHead (by rw [beq_iff_eq.mp hFirst]; rfl)

/-! ## Hosts -/

/-- An authority is found where it stands. -/
theorem parse_authority {a rest : GoString} {v : Url} (ha : a ≠ [])
    (hBytes : ∀ c ∈ a, c ∉ lit "/?#") (hOpens : Opens (lit "/?#") rest)
    (hParse : parse net (byte '/' :: byte '/' :: (a ++ rest)) = some v) :
    ∃ user, net.parseAuthority a = some (user, v.host) := by
  obtain ⟨raw, query, fragment, hCut⟩ := exists_cut rest
  have hSlash : byte '/' ∉ a := fun hc => hBytes _ hc (by decide)
  have hRaw : Opens [byte '/'] raw := by
    intro c hc
    match raw with
    | d :: raw =>
      obtain rfl := Option.some.inj (Option.mem_def.mp hc)
      have hHead := hOpens d (by rw [hCut.eq]; rfl)
      rw [show lit "/?#" = [byte '/', byte '?', byte '#'] from rfl] at hHead
      simp only [List.mem_cons, List.not_mem_nil, or_false] at hHead ⊢
      rcases hHead with rfl | rfl | rfl
      · rfl
      · exact absurd List.mem_cons_self hCut.path_question
      · exact absurd List.mem_cons_self hCut.path_hash
  have hWhole : Cut (byte '/' :: byte '/' :: (a ++ rest)) (byte '/' :: byte '/' :: (a ++ raw)) query
      fragment := by
    refine ⟨by rw [hCut.eq]; simp, ?_, ?_, hCut.query_hash, hCut.query_opens, hCut.fragment_opens⟩
    · simp only [List.mem_cons, List.mem_append, not_or]
      exact ⟨by decide, by decide, fun hc => hBytes _ hc (by decide), hCut.path_question⟩
    · simp only [List.mem_cons, List.mem_append, not_or]
      exact ⟨by decide, by decide, fun hc => hBytes _ hc (by decide), hCut.path_hash⟩
  rw [parse_slash hWhole] at hParse
  split at hParse
  · cases hParse
  · obtain ⟨text, -, hMapped⟩ := Option.bind_eq_some_iff.mp hParse
    obtain ⟨u, hPath, rfl⟩ := Option.map_eq_some_iff.mp hMapped
    rw [parsePath_authority ha hSlash hRaw] at hPath
    split at hPath
    · cases hPath
    · rename_i user host hAuthority
      obtain ⟨path, -, rfl⟩ := setPath_eq_some.mp hPath
      exact ⟨user, hAuthority⟩

theorem getLast_hexEscapeNonASCII {a : GoString}
    (hLast : (hexEscapeNonASCII a).getLast? = some (byte '@')) : a.getLast? = some (byte '@') := by
  rcases List.eq_nil_or_concat a with rfl | ⟨b, c, rfl⟩
  · cases hLast
  · rw [List.concat_eq_append, hexEscapeNonASCII_append] at hLast
    by_cases hAscii : c < 0x80
    · rw [hexEscapeNonASCII_cons [] hAscii] at hLast
      rw [List.concat_eq_append, List.getLast?_concat]
      exact (List.getLast?_concat (l := hexEscapeNonASCII b)).symm.trans hLast
    · rw [hexEscapeNonASCII_cons_high [] hAscii, List.getLast?_append] at hLast
      obtain ⟨high, low, -, hLow, -⟩ := unhex_hexChar c
      have hSign : hexChar (c &&& 0x0F) = byte '@' := Option.some.inj hLast
      rw [hSign] at hLow
      cases hLow

/-- A host is sent as a host. -/
theorem sent_host (hNet : net.Lawful) {a rest : GoString} {user : Option GoString}
    {host : GoString} {v : Url} (hAuthority : net.parseAuthority a = some (user, host))
    (hHost : host ≠ []) (hBytes : ∀ c ∈ a, c ∉ lit "/?#") (hOpens : Opens (lit "/?#") rest)
    (hParse : parse net (hexEscapeNonASCII (byte '/' :: byte '/' :: (a ++ rest))) = some v) :
    v.host ≠ [] := by
  have hLaw := not_congr (hNet.host_nil hAuthority)
  rw [not_or] at hLaw
  obtain ⟨ha, hLast⟩ := hLaw.mp hHost
  rw [hexEscapeNonASCII_cons _ (by decide), hexEscapeNonASCII_cons _ (by decide),
    hexEscapeNonASCII_append] at hParse
  have hSent : hexEscapeNonASCII a ≠ [] := mt hexEscapeNonASCII_eq_nil ha
  have hSeparator {c : UInt8} (hc : c ∈ lit "/?#") :
      unhex c = none ∧ c ≠ byte '%' ∧ c < 0x80 := by
    rw [show lit "/?#" = [byte '/', byte '?', byte '#'] from rfl] at hc
    simp only [List.mem_cons, List.not_mem_nil, or_false] at hc
    rcases hc with rfl | rfl | rfl <;> decide
  obtain ⟨user', hFound⟩ := parse_authority hSent
    (fun c hc hSep => hBytes c (mem_hexEscapeNonASCII_separator (hSeparator hSep).1
      (hSeparator hSep).2.1 hc) hSep)
    (by
      match rest with
      | [] => exact nofun
      | c :: rest =>
        rw [hexEscapeNonASCII_cons rest (hSeparator (hOpens c rfl)).2.2]
        exact fun d hd => hOpens d hd) hParse
  rw [ne_eq, hNet.host_nil hFound, not_or]
  exact ⟨hSent, fun hSign => hLast (getLast_hexEscapeNonASCII hSign)⟩

end Url

end PadlockCloud
