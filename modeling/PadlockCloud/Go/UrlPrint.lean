import PadlockCloud.Go.UrlShape

/-!
# Printing an accepted URL

A page that is printed with a new query is parsed again, as the page that it was. What is
printed as a query has no control byte and no number sign in it, and can be unescaped.
-/

namespace PadlockCloud

namespace Url

variable {net : NetUrl}

/-! ## Printing a page again -/

theorem escapedPath_ofParts {user : Option GoString} {host raw path query text : GoString}
    (hEscaped : Escaped raw path) (hPage : isPage path = true) :
    (ofParts user host raw path query text).escapedPath = raw := by
  have hStar : path ≠ lit "*" := by
    rintro rfl
    cases hPage
  unfold escapedPath ofParts
  dsimp only
  by_cases hSame : raw = escape .path path
  · rw [if_pos hSame, if_neg fun h => h.1 rfl, if_neg hStar, ← hSame]
  · rw [if_neg hSame, if_pos]
    refine ⟨?_, ?_, hEscaped.unescape⟩
    · rintro rfl
      obtain ⟨t, rfl⟩ := isPage_head hPage
      cases hEscaped
    · rw [validEncodedPath, List.all_eq_true]
      intro c hc
      have hByte := pageByte_of_escaped hEscaped hPage c hc
      exact forall_byte (P := fun c => pageByte c = true →
        (decide (c ∈ lit "!$&'()*+,;=:@[]%") || !shouldEscape .path c) = true)
        (by decide +kernel) c hByte

/-- The fragment of a printed URL. -/
def printedFragment (text : GoString) : GoString :=
  if text ≠ [] then lit "#" ++ escape .fragment text else []

theorem printedFragment_opens (text : GoString) : Opens [byte '#'] (printedFragment text) := by
  unfold printedFragment
  split
  · exact opens_cons _ _
  · exact nofun

theorem printedFragment_escaped (text : GoString) :
    Escaped ((printedFragment text).drop 1) text := by
  unfold printedFragment
  split
  · exact escaped_escape (by decide) text
  · rename_i hNil
    rw [not_not.mp hNil]
    exact .nil

/-- A page that is printed with a new query. -/
theorem string_ofParts {user : Option GoString} {host raw path query text q : GoString}
    (hEscaped : Escaped raw path) (hPage : isPage path = true) (hQuery : q ≠ []) :
    string net { ofParts user host raw path query text with rawQuery := q } =
      (if host ≠ [] ∨ user.isSome then
          lit "//" ++ net.printAuthority user host ++
            (if raw.head? ≠ some (byte '/') ∧ host ≠ [] then lit "/" else []) ++ raw
        else raw) ++ (byte '?' :: q) ++ printedFragment text := by
  have hRaw : raw ≠ [] := by
    rintro rfl
    obtain ⟨t, rfl⟩ := isPage_head hPage
    cases hEscaped
  have hColon : byte ':' ∉ raw.takeWhile (· ≠ byte '/') := fun hc =>
    absurd (pageByte_of_escaped hEscaped hPage _ ((List.takeWhile_prefix _).subset hc)) (by decide)
  -- The fields that are printed.
  obtain ⟨v, hv, hScheme, hOpaque, hUser, hHost, hPath, hEscapedPath, hRawQuery, hFragment⟩ :
      ∃ v, { ofParts user host raw path query text with rawQuery := q } = v ∧ v.scheme = [] ∧
        v.opaquePart = [] ∧ v.user = user ∧ v.host = host ∧ v.path ≠ [] ∧ v.escapedPath = raw ∧
        v.rawQuery = q ∧ v.fragment = text := by
    refine ⟨_, rfl, ofQuery_scheme _ _, ?_, rfl, rfl, ?_,
      @escapedPath_ofParts user host raw path query text hEscaped hPage, rfl, rfl⟩
    · unfold ofParts ofQuery
      split <;> rfl
    · obtain ⟨t, rfl⟩ := isPage_head hPage
      exact List.cons_ne_nil _ _
  rw [hv]
  unfold string
  simp only [hScheme, hOpaque, hUser, hHost, hEscapedPath, hRawQuery, hFragment, hColon, ne_eq,
    not_true_eq_false, false_or, if_false, and_false, List.nil_append, List.append_nil, hPath,
    not_false_eq_true, true_or, or_true, if_true, hQuery, hRaw, true_and]
  unfold printedFragment
  by_cases hAuthority : ¬host = [] ∨ user.isSome = true
  · simp only [hAuthority, if_true, ne_eq]
    rfl
  · have hHostNil : host = [] := not_not.mp fun h => hAuthority (.inl h)
    rw [if_neg hAuthority, if_neg fun h => h.2 hHostNil, if_neg hAuthority]
    rfl

/-! ## Printed pages are parsed again -/

theorem printable_pageByte {c : UInt8} (hByte : pageByte c = true) : printable c = true :=
  forall_byte (P := fun c => pageByte c = true → printable c = true) (by decide +kernel) c hByte

/-- The cuts of a printed page. -/
theorem printed_cut {front q text : GoString} (hQuestion : byte '?' ∉ front)
    (hHash : byte '#' ∉ front) (hQuery : byte '#' ∉ q) :
    Cut (front ++ (byte '?' :: q) ++ printedFragment text) front (byte '?' :: q)
      (printedFragment text) where
  eq := rfl
  path_question := hQuestion
  path_hash := hHash
  query_hash hc := by
    rcases List.mem_cons.mp hc with hc | hc
    · exact absurd hc (by decide)
    · exact hQuery hc
  query_opens := opens_cons _ _
  fragment_opens := printedFragment_opens text

/-- A page without a slash at its start is parsed as one. -/
theorem parse_relative {s p query fragment path text : GoString}
    (hCut : Cut s (byte '%' :: p) query fragment) (hEscaped : Escaped (byte '%' :: p) path)
    (hPage : isPage path = true) (hText : Escaped (fragment.drop 1) text)
    (hControl : hasControlByte (byte '%' :: p ++ query) = false) :
    parse net s = some (ofParts none [] (byte '%' :: p) path query text) := by
  have hColon : byte ':' ∉ (byte '%' :: p).takeWhile (· ≠ byte '/') := fun hc =>
    absurd (pageByte_of_escaped hEscaped hPage _ ((List.takeWhile_prefix _).subset hc)) (by decide)
  have hStar : byte '%' :: p ++ query ≠ lit "*" := by
    intro hStar
    exact absurd (List.cons.inj hStar).1 (by decide)
  have hScan : getscheme (byte '%' :: p ++ query) = some ([], byte '%' :: p ++ query) := rfl
  have hRest : parseRest net [] (byte '%' :: p ++ query) =
      setPath (ofQuery [] query) (byte '%' :: p) := by
    rw [parseRest_cut net [] hCut.path_question hCut.query_opens]
    dsimp only
    rw [if_neg fun h => h.2 (ofQuery_scheme _ _), if_neg fun h => hColon h.2, if_neg]
    · rfl
    · rintro ⟨-, hPrefix⟩
      cases hPrefix
  unfold parse
  simp only [hCut.takeWhile_hash, hCut.dropWhile_hash, hControl, Bool.false_eq_true, if_false]
  rw [if_neg hStar, hScan]
  simp only [hRest, hText.unescape, setPath, hEscaped.unescape, Option.map_some]
  rw [← ofParts_path]

/-- A page with an authority is parsed as one. -/
theorem parse_printed_authority {s a raw query fragment path text : GoString}
    {user : Option GoString} {host : GoString}
    (hCut : Cut s (byte '/' :: byte '/' :: (a ++ raw)) query fragment) (ha : a ≠ [])
    (hSlash : byte '/' ∉ a) (hOpens : Opens [byte '/'] raw)
    (hAuthority : net.parseAuthority a = some (user, host)) (hEscaped : Escaped raw path)
    (hText : Escaped (fragment.drop 1) text)
    (hControl : hasControlByte (byte '/' :: byte '/' :: (a ++ raw) ++ query) = false) :
    parse net s = some (ofParts user host raw path query text) := by
  obtain ⟨t, rfl⟩ : ∃ t, s = byte '/' :: t := ⟨_, hCut.eq⟩
  rw [parse_slash hCut, hControl, if_neg Bool.false_ne_true, hText.unescape, Option.bind_some,
    parsePath_authority ha hSlash hOpens, hAuthority]
  simp only [setPath, hEscaped.unescape, Option.map_some]
  rfl

/-- Without a host there is user info in front of a page. -/
theorem user_isSome (hNet : net.Lawful) {a : GoString} {user : Option GoString} (ha : a ≠ [])
    (hAuthority : net.parseAuthority a = some (user, [])) : user.isSome = true := by
  cases user with
  | none => exact absurd ((hNet.user_none hAuthority).mp rfl) ha
  | some info => rfl

/-- User info in front of a page is parsed again. -/
theorem parse_printed_user (hNet : net.Lawful) {a raw path q text : GoString}
    {user : Option GoString} (ha : a ≠ []) (hBytes : ∀ c ∈ a, printable c = true ∧ c ∉ lit "/?#")
    (hOpens : Opens [byte '/'] raw) (hAuthority : net.parseAuthority a = some (user, []))
    (hEscaped : Escaped raw path) (hPage : isPage path = true) (hHash : byte '#' ∉ q)
    (hControl : hasControlByte (byte '?' :: q) = false) :
    parse net (lit "//" ++ net.printAuthority user [] ++ raw ++ (byte '?' :: q) ++
      printedFragment text) = some (ofParts user [] raw path (byte '?' :: q) text) := by
  have hUser := user_isSome hNet ha hAuthority
  have hPrinted := hNet.reparse hAuthority
  have hPrintBytes := hNet.print_bytes hAuthority hBytes
  have hRawBytes := pageByte_of_escaped hEscaped hPage
  generalize net.printAuthority user [] = a' at hPrinted hPrintBytes
  have ha' : a' ≠ [] := by
    intro hNil
    rw [(hNet.user_none hPrinted).mpr hNil] at hUser
    cases hUser
  have hFront : lit "//" ++ a' ++ raw = byte '/' :: byte '/' :: (a' ++ raw) := by
    rw [List.append_assoc]
    rfl
  have hMem {c : UInt8} (hc : c ∈ byte '/' :: byte '/' :: (a' ++ raw)) :
      printable c = true ∧ (c = byte '?' → False) ∧ (c = byte '#' → False) := by
    simp only [List.mem_cons, List.mem_append] at hc
    rcases hc with rfl | rfl | hc | hc
    · decide
    · decide
    · refine ⟨(hPrintBytes c hc).1, ?_, ?_⟩ <;> rintro rfl <;>
        exact (hPrintBytes _ hc).2 (by decide)
    · refine ⟨printable_pageByte (hRawBytes c hc), ?_, ?_⟩ <;> rintro rfl <;>
        exact absurd (hRawBytes _ hc) (by decide)
  rw [hFront]
  refine parse_printed_authority
    (printed_cut (fun hc => (hMem hc).2.1 rfl) (fun hc => (hMem hc).2.2 rfl) hHash) ha'
    (fun hc => (hPrintBytes _ hc).2 (by decide)) hOpens hPrinted hEscaped
    (printedFragment_escaped text) ?_
  rw [hasControlByte_append, hControl, Bool.or_false]
  exact hasControlByte_eq_false.mpr fun c hc => (hMem hc).1

/-! ## Printed queries -/

theorem mem_intercalate {separator : GoString} {pieces : List GoString} {c : UInt8}
    (hc : c ∈ separator.intercalate pieces) : c ∈ separator ∨ ∃ piece ∈ pieces, c ∈ piece := by
  match pieces with
  | [] => cases hc
  | first :: rest =>
    rw [intercalate_cons, List.mem_append, List.mem_flatMap] at hc
    rcases hc with hc | ⟨piece, hMem, hc⟩
    · exact .inr ⟨first, List.mem_cons_self, hc⟩
    · exact (List.mem_append.mp hc).imp_right fun hc => ⟨piece, List.mem_cons_of_mem _ hMem, hc⟩

theorem mem_intercalate_of_mem {separator : GoString} {pieces : List GoString} {c : UInt8}
    {piece : GoString} (hMem : piece ∈ pieces) (hc : c ∈ piece) :
    c ∈ separator.intercalate pieces := by
  match pieces with
  | first :: rest =>
    rw [intercalate_cons, List.mem_append, List.mem_flatMap]
    rcases List.mem_cons.mp hMem with rfl | hMem
    · exact .inl hc
    · exact .inr ⟨piece, hMem, List.mem_append_right _ hc⟩

/-- An escaped component of a query is printable and has no number sign. -/
theorem escape_queryComponent_mem {s : GoString} {c : UInt8}
    (hc : c ∈ escape .queryComponent s) : printable c = true ∧ c ≠ byte '#' := by
  obtain ⟨d, -, hc⟩ := List.mem_flatMap.mp hc
  have hHex (n : UInt8) (hSome : (unhex n).isSome) : printable n = true ∧ n ≠ byte '#' :=
    forall_byte (P := fun n => (unhex n).isSome → printable n = true ∧ n ≠ byte '#')
      (by decide +kernel) n hSome
  split at hc
  · rw [List.mem_singleton.mp hc]
    decide
  · split at hc
    · obtain ⟨high, low, hHigh, hLow, -⟩ := unhex_upperHex d
      simp only [List.mem_cons, List.not_mem_nil, or_false] at hc
      rcases hc with rfl | rfl | rfl
      · decide
      · exact hHex _ (by simp [hHigh])
      · exact hHex _ (by simp [hLow])
    · rename_i hPlain
      rw [List.mem_singleton.mp hc]
      exact forall_byte (P := fun d => ¬shouldEscape .queryComponent d = true →
        printable d = true ∧ d ≠ byte '#') (by decide +kernel) d hPlain

theorem encode_mem {q : Values} {c : UInt8} (hc : c ∈ q.encode) :
    printable c = true ∧ c ≠ byte '#' := by
  rcases mem_intercalate hc with hc | ⟨piece, hMem, hc⟩
  · rw [List.mem_singleton.mp hc]
    decide
  · obtain ⟨⟨key, values⟩, -, hMem⟩ := List.mem_flatMap.mp hMem
    obtain ⟨value, -, rfl⟩ := List.mem_map.mp hMem
    rcases List.mem_append.mp hc with hc | hc
    · rcases List.mem_append.mp hc with hc | hc
      · exact escape_queryComponent_mem hc
      · rw [List.mem_singleton.mp hc]
        decide
    · exact escape_queryComponent_mem hc

theorem encode_set_ne_nil (q : Values) (key value : GoString) : (q.set key value).encode ≠ [] := by
  have hSign : byte '=' ∈ (q.set key value).encode := by
    unfold Values.encode
    refine mem_intercalate_of_mem (List.mem_flatMap.mpr
      ⟨(key, [value]), List.mem_mergeSort.mpr (by simp [Values.set]), List.mem_cons_self⟩) ?_
    exact List.mem_append_left _ (List.mem_append_right _ (by decide))
  exact List.ne_nil_of_mem hSign

/-- What is escaped for a query can be unescaped. -/
theorem escape_queryComponent_escaped (s : GoString) :
    ∃ t, Escaped (escape .queryComponent s) t := by
  induction s with
  | nil => exact ⟨[], .nil⟩
  | cons c s ih =>
    obtain ⟨t, ht⟩ := ih
    rw [escape, List.flatMap_cons]
    split
    · exact ⟨_, .plain (by decide) ht⟩
    · split
      · obtain ⟨high, low, hHigh, hLow, -⟩ := unhex_upperHex c
        exact ⟨_, .escape hHigh hLow ht⟩
      · rename_i hPlain
        refine ⟨_, .plain ?_ ht⟩
        rintro rfl
        exact hPlain rfl

theorem intercalate_escaped {separator : GoString} {pieces : List GoString}
    (hSeparator : ∃ t, Escaped separator t) (hPieces : ∀ piece ∈ pieces, ∃ t, Escaped piece t) :
    ∃ t, Escaped (separator.intercalate pieces) t := by
  obtain ⟨between, hBetween⟩ := hSeparator
  match pieces with
  | [] => exact ⟨[], .nil⟩
  | first :: rest =>
    rw [intercalate_cons]
    obtain ⟨front, hFront⟩ := hPieces first List.mem_cons_self
    have hRest : ∃ t, Escaped (rest.flatMap (separator ++ ·)) t := by
      replace hPieces := fun piece hMem => hPieces piece (List.mem_cons_of_mem first hMem)
      clear hFront
      induction rest with
      | nil => exact ⟨[], .nil⟩
      | cons second rest ih =>
        obtain ⟨t, ht⟩ := hPieces second List.mem_cons_self
        obtain ⟨t', ht'⟩ := ih fun piece hMem => hPieces piece (List.mem_cons_of_mem second hMem)
        rw [List.flatMap_cons]
        exact ⟨_, (hBetween.append ht).append ht'⟩
    obtain ⟨back, hBack⟩ := hRest
    exact ⟨_, hFront.append hBack⟩

theorem encode_escaped (q : Values) : ∃ t, Escaped q.encode t := by
  refine intercalate_escaped ⟨_, .plain (by decide) .nil⟩ fun piece hMem => ?_
  obtain ⟨⟨key, values⟩, -, hMem⟩ := List.mem_flatMap.mp hMem
  obtain ⟨value, -, rfl⟩ := List.mem_map.mp hMem
  obtain ⟨front, hFront⟩ := escape_queryComponent_escaped key
  obtain ⟨back, hBack⟩ := escape_queryComponent_escaped value
  exact ⟨_, (hFront.append (.plain (by decide) .nil)).append hBack⟩

end Url

end PadlockCloud
