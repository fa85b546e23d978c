import PadlockCloud.Go.UrlPrint

/-!
# Where a target leads

What `http.Redirect` sends can be read off the target (`redirectPath_eq`): the dots before
the query are resolved. Where a text with one slash at its start leads can be read off the
text (`local_iff_names`), and a query behind it changes nothing (`names_append`).
-/

namespace PadlockCloud

open Url

/-! ## Resolved targets -/

/-- The elements of a target up to its query that are left when the dots are resolved. -/
def keptElements (target : GoString) : List GoString :=
  survivors (((target.takeWhile (· ≠ byte '?')).drop 1).splitOn (byte '/'))

/-- What is left of a target when the dots before its query are resolved. A slash at the end
stays. -/
def resolved (target : GoString) : GoString :=
  byte '/' :: (lit "/").intercalate (keptElements target) ++
    (if keptElements target ≠ [] ∧ (target.takeWhile (· ≠ byte '?')).getLast? = some (byte '/') then
      lit "/" else []) ++
    target.dropWhile (· ≠ byte '?')

theorem getLast_intercalate {kept : List GoString}
    (hKept : ∀ e ∈ kept, e ≠ [] ∧ byte '/' ∉ e) (hSome : kept ≠ []) :
    (byte '/' :: (lit "/").intercalate kept).getLast? ≠ some (byte '/') := by
  rcases List.eq_nil_or_concat kept with rfl | ⟨before, last, rfl⟩
  · exact absurd rfl hSome
  · obtain ⟨hLast, hSlash⟩ := hKept last (by simp)
    have hEnd : ∃ s, byte '/' :: (lit "/").intercalate (before ++ [last]) = s ++ last := by
      match before with
      | [] => exact ⟨[byte '/'], by simp⟩
      | first :: before =>
        refine ⟨byte '/' :: (first ++ before.flatMap (lit "/" ++ ·) ++ lit "/"), ?_⟩
        rw [List.cons_append, intercalate_cons]
        simp
    obtain ⟨s, hs⟩ := hEnd
    rw [List.concat_eq_append, hs, List.getLast?_append, List.getLast?_eq_some_getLast hLast]
    exact fun hEq => hSlash (Option.some.inj hEq ▸ List.getLast_mem hLast)

theorem resolved_eq (s : GoString) :
    tidyPath ((byte '/' :: s).takeWhile (· ≠ byte '?')) ++
      (byte '/' :: s).dropWhile (· ≠ byte '?') = resolved (byte '/' :: s) := by
  have hFront : (byte '/' :: s).takeWhile (· ≠ byte '?') =
      byte '/' :: s.takeWhile (· ≠ byte '?') := List.takeWhile_cons_of_pos (by decide)
  unfold resolved keptElements tidyPath
  rw [hFront, cleanPath_eq, List.drop_succ_cons, List.drop_zero]
  have hKept (e : GoString) (he : e ∈ survivors ((s.takeWhile (· ≠ byte '?')).splitOn (byte '/'))) :
      e ≠ [] ∧ byte '/' ∉ e := survivors_splitOn he
  generalize survivors ((s.takeWhile (· ≠ byte '?')).splitOn (byte '/')) = kept at hKept
  congr 2
  by_cases hNone : kept = []
  · rw [hNone, if_neg fun h => h.2 rfl, if_neg fun h => h.1 rfl]
  · simp [hNone, getLast_intercalate hKept hNone]

/-- What `http.Redirect` makes of a target. -/
theorem redirectPath_eq {requestPath : GoString} (target : GoString)
    (hRequest : requestPath.head? = some (byte '/')) :
    redirectPath requestPath target = resolved (absoluteTarget requestPath target) := by
  obtain ⟨s, hAbsolute, hTarget⟩ := redirectPath_absolute target hRequest
  rw [hTarget, hAbsolute, redirectPath_rooted _ rfl, resolved_eq]

/-- What follows a target as its query is left as it is. -/
theorem resolved_append {target query : GoString} (hOpens : Opens [byte '?'] query) :
    resolved (target ++ query) = resolved target ++ query := by
  have hFront : (target ++ query).takeWhile (· ≠ byte '?') = target.takeWhile (· ≠ byte '?') ∧
      (target ++ query).dropWhile (· ≠ byte '?') = target.dropWhile (· ≠ byte '?') ++ query := by
    by_cases hQuestion : byte '?' ∈ target
    · obtain ⟨front, back, rfl, hNone⟩ := List.eq_append_cons_of_mem hQuestion
      have hBack (s : GoString) : Opens [byte '?'] (byte '?' :: s) := opens_cons _ s
      rw [List.append_assoc, List.cons_append, takeWhile_opens hNone (hBack _),
        takeWhile_opens hNone (hBack _), dropWhile_opens hNone (hBack _),
        dropWhile_opens hNone (hBack _)]
      exact ⟨rfl, rfl⟩
    · have hNone : Opens [byte '?'] [] := fun _ h => by cases h
      have hNil := takeWhile_opens hQuestion hNone
      have hNil' := dropWhile_opens hQuestion hNone
      rw [List.append_nil] at hNil hNil'
      rw [takeWhile_opens hQuestion hOpens, dropWhile_opens hQuestion hOpens, hNil, hNil']
      exact ⟨rfl, rfl⟩
  unfold resolved keptElements
  rw [hFront.1, hFront.2, ← List.append_assoc]

/-! ## Where a text leads -/

/-- The text has the path, no control byte before its fragment, and a fragment that can be
unescaped. -/
def Names (text path : GoString) : Prop :=
  unescape (text.takeWhile fun c => c ≠ byte '?' && c ≠ byte '#') = some path ∧
    hasControlByte (text.takeWhile (· ≠ byte '#')) = false ∧
    (unescape ((text.dropWhile (· ≠ byte '#')).drop 1)).isSome = true

instance (text path : GoString) : Decidable (Names text path) :=
  inferInstanceAs (Decidable (_ ∧ _ ∧ _))

namespace Url.Cut

variable {s path query fragment : GoString}

theorem takeWhile_path (hCut : Cut s path query fragment) :
    (s.takeWhile fun c => c ≠ byte '?' && c ≠ byte '#') = path := by
  rw [hCut.eq, List.append_assoc, List.takeWhile_append_of_pos]
  · rcases query with _ | ⟨c, query⟩
    · rcases fragment with _ | ⟨d, fragment⟩
      · simp
      · obtain rfl := List.mem_singleton.mp (hCut.fragment_opens d rfl)
        simp
    · obtain rfl := List.mem_singleton.mp (hCut.query_opens c rfl)
      simp
  · intro c hc
    simp only [ne_eq, Bool.and_eq_true, decide_eq_true_eq]
    refine ⟨?_, ?_⟩
    · rintro rfl
      exact hCut.path_question hc
    · rintro rfl
      exact hCut.path_hash hc

theorem names_iff (hCut : Cut s path query fragment) (target : GoString) :
    Names s target ↔ hasControlByte (path ++ query) = false ∧ Escaped path target ∧
      ∃ text, Escaped (fragment.drop 1) text := by
  unfold Names
  rw [hCut.takeWhile_path, hCut.takeWhile_hash, hCut.dropWhile_hash, unescape_eq_some,
    Option.isSome_iff_exists]
  simp only [unescape_eq_some]
  tauto

end Url.Cut

/-- A text with one slash at its start leads to the path that it names. -/
theorem local_iff_names {net : NetUrl} {s path : GoString} (hSingle : s.head? ≠ some (byte '/')) :
    Local net (byte '/' :: s) path ↔ Names (byte '/' :: s) path := by
  obtain ⟨front, query, fragment, hCut⟩ := exists_cut (byte '/' :: s)
  obtain ⟨p, rfl⟩ := hCut.path_slash
  rw [local_iff hCut (hCut.path_single hSingle), hCut.names_iff]

/-- A query with a fragment behind it changes nothing, if it is printable and can be
unescaped. -/
theorem names_append {s q fragment path : GoString} (hHash : byte '#' ∉ q)
    (hControl : hasControlByte (byte '?' :: q) = false)
    (hQuery : ∃ t, Escaped (byte '?' :: q) t) (hOpens : Opens [byte '#'] fragment)
    (hText : ∃ t, Escaped (fragment.drop 1) t) :
    Names (s ++ (byte '?' :: q ++ fragment)) path ↔ Names s path := by
  obtain ⟨p, query, back, hCut⟩ := exists_cut s
  match back, hCut with
  | [], hCut =>
    have hWhole : Cut (s ++ (byte '?' :: q ++ fragment)) p (query ++ byte '?' :: q) fragment := by
      refine ⟨by rw [hCut.eq]; simp, hCut.path_question, hCut.path_hash, ?_, ?_, hOpens⟩
      · simp [hCut.query_hash, hHash, show byte '#' ≠ byte '?' by decide]
      · match query, hCut.query_opens with
        | [], _ => exact opens_cons _ _
        | c :: query, hFirst => exact hFirst
    rw [hWhole.names_iff, hCut.names_iff, ← List.append_assoc, hasControlByte_append, hControl,
      Bool.or_false]
    simp only [hText, List.drop_nil, and_true]
    exact ⟨fun h => ⟨h.1, h.2, [], .nil⟩, fun h => ⟨h.1, h.2.1⟩⟩
  | c :: g, hCut =>
    obtain rfl := List.mem_singleton.mp (hCut.fragment_opens c rfl)
    have hWhole : Cut (s ++ (byte '?' :: q ++ fragment)) p query
        (byte '#' :: (g ++ (byte '?' :: q ++ fragment))) := by
      refine ⟨by rw [hCut.eq]; simp, hCut.path_question, hCut.path_hash, hCut.query_hash,
        hCut.query_opens, opens_cons _ _⟩
    have hFragment : ∃ t, Escaped fragment t := by
      match fragment with
      | [] => exact ⟨[], .nil⟩
      | d :: fragment =>
        obtain rfl := List.mem_singleton.mp (hOpens d rfl)
        obtain ⟨t, ht⟩ := hText
        exact ⟨_, .plain (by decide) ht⟩
    have hBehind : ∃ t, Escaped (byte '?' :: q ++ fragment) t :=
      (escaped_opens rfl (by decide) hOpens).mpr ⟨hQuery, hFragment⟩
    have hQuestion : Opens [byte '?'] (byte '?' :: q ++ fragment) := opens_cons _ _
    rw [hWhole.names_iff, hCut.names_iff, List.drop_succ_cons, List.drop_zero,
      escaped_opens rfl (by decide) hQuestion, List.drop_succ_cons, List.drop_zero]
    simp only [hBehind, and_true]

/-! ## Bytes of the path -/

/-- Where the text starts like that, the path has what stands for itself. -/
theorem names_mem {front back path : GoString} {c : UInt8} (hNames : Names (front ++ back) path)
    (hFront : ∀ d ∈ front, d ≠ byte '?' ∧ d ≠ byte '#') (hc : c ∈ front) (hHex : unhex c = none)
    (hPercent : c ≠ byte '%') : c ∈ path := by
  have hPath := escaped_of_unescape hNames.1
  rw [List.takeWhile_append_of_pos (fun d hd => by simp [hFront d hd])] at hPath
  rcases hPath.mem (List.mem_append_left _ hc) with hMem | hOther | hSome
  · exact hMem
  · exact absurd hOther hPercent
  · rw [hHex] at hSome
    cases hSome

/-- An escaped slash behind a slash makes two. -/
theorem names_slashes {front back path : GoString} {a b high low : UInt8}
    (hNames : Names (front ++ byte '/' :: byte '%' :: a :: b :: back) path)
    (hFront : ∀ d ∈ front, d ≠ byte '?' ∧ d ≠ byte '#') (hHigh : unhex a = some high)
    (hLow : unhex b = some low) (hSlash : high * 16 + low = byte '/') :
    [byte '/', byte '/'] <:+: path := by
  have hDigit {c n : UInt8} (hHex : unhex c = some n) : c ≠ byte '?' ∧ c ≠ byte '#' := by
    constructor <;> rintro rfl <;> cases hHex
  have hPath := escaped_of_unescape hNames.1
  rw [List.takeWhile_append_of_pos (fun d hd => by simp [hFront d hd]),
    List.takeWhile_cons_of_pos (by decide), List.takeWhile_cons_of_pos (by decide),
    List.takeWhile_cons_of_pos (by simp [hDigit hHigh]),
    List.takeWhile_cons_of_pos (by simp [hDigit hLow])] at hPath
  obtain ⟨s, t, -, hBehind, rfl⟩ := hPath.split rfl (by decide)
  have hUnescape := hBehind.unescape
  rw [unescape_percent _ hHigh hLow, hSlash, Option.map_eq_some_iff] at hUnescape
  obtain ⟨t, -, rfl⟩ := hUnescape
  exact ⟨s, t, by simp⟩

/-! ## Where no dots are resolved -/

/-- A byte of an element is one of the whole. -/
theorem mem_of_mem_splitOn {s e : GoString} {c : UInt8} (he : e ∈ s.splitOn (byte '/'))
    (hc : c ∈ e) : c ∈ s := by
  have hWhole : c ∈ [byte '/'].intercalate (s.splitOn (byte '/')) := mem_intercalate_of_mem he hc
  rwa [List.intercalate_splitOn] at hWhole

theorem rooted_intercalate {kept : List GoString} (hSome : kept ≠ []) :
    byte '/' :: (lit "/").intercalate kept = kept.flatMap (lit "/" ++ ·) := by
  match kept with
  | first :: rest =>
    rw [intercalate_cons]
    rfl

/-- What is sent starts with the elements that are left. -/
theorem exists_resolved (target : GoString) :
    ∃ behind, resolved target =
      byte '/' :: (lit "/").intercalate (keptElements target) ++ behind := by
  unfold resolved
  rw [List.append_assoc]
  exact ⟨_, rfl⟩

/-- A target with an authority starts with it as its first element. -/
theorem resolved_authority {a t : GoString} (hName : keptElement a = true) (hSlash : byte '/' ∉ a)
    (hQuestion : byte '?' ∉ a)
    (hDots : lit ".." ∉ ((byte '/' :: byte '/' :: (a ++ byte '/' :: t)).takeWhile
      (· ≠ byte '?')).splitOn (byte '/')) :
    ∃ back, resolved (byte '/' :: byte '/' :: (a ++ byte '/' :: t)) = (byte '/' :: a) ++ back := by
  have hFront : (byte '/' :: byte '/' :: (a ++ byte '/' :: t)).takeWhile (· ≠ byte '?') =
      byte '/' :: byte '/' :: (a ++ byte '/' :: t.takeWhile (· ≠ byte '?')) := by
    rw [List.takeWhile_cons_of_pos (by decide), List.takeWhile_cons_of_pos (by decide),
      List.takeWhile_append_of_pos, List.takeWhile_cons_of_pos (by decide)]
    exact fun c hc => decide_eq_true fun hEq => hQuestion (hEq ▸ hc)
  have hSplit : (byte '/' :: (a ++ byte '/' :: t.takeWhile (· ≠ byte '?'))).splitOn (byte '/') =
      [] :: a :: (t.takeWhile (· ≠ byte '?')).splitOn (byte '/') := by
    rw [splitOn_slash, List.splitOn_append_cons_self, List.splitOn_eq_singleton hSlash]
    rfl
  rw [hFront, splitOn_slash, hSplit, List.mem_cons, List.mem_cons, not_or, not_or] at hDots
  have hKept : keptElements (byte '/' :: byte '/' :: (a ++ byte '/' :: t)) =
      a :: survivors ((t.takeWhile (· ≠ byte '?')).splitOn (byte '/')) := by
    unfold keptElements
    rw [hFront, List.drop_succ_cons, List.drop_zero, hSplit]
    exact survivors_name hName hDots.2.2
  obtain ⟨behind, hResolved⟩ := exists_resolved (byte '/' :: byte '/' :: (a ++ byte '/' :: t))
  rw [hResolved, hKept, intercalate_cons, ← List.cons_append, List.append_assoc]
  exact ⟨_, rfl⟩

/-- An escape behind a directory stays where it is. -/
theorem resolved_relative {dir t : GoString} {a b : UInt8} (hOpens : Opens [byte '/'] dir)
    (hQuestion : byte '?' ∉ dir) (ha : a ≠ byte '/' ∧ a ≠ byte '?')
    (hb : b ≠ byte '/' ∧ b ≠ byte '?')
    (hDots : lit ".." ∉ ((byte '%' :: a :: b :: t).takeWhile (· ≠ byte '?')).splitOn (byte '/')) :
    ∃ front back, resolved (dir ++ [byte '/'] ++ byte '%' :: a :: b :: t) =
        front ++ byte '/' :: byte '%' :: a :: b :: back ∧
      ∀ c ∈ front, c ∈ dir ∨ c = byte '/' := by
  generalize hEscape : byte '%' :: a :: b :: t = escaped at hDots
  have hTarget : escaped.takeWhile (· ≠ byte '?') =
      [byte '%', a, b] ++ t.takeWhile (· ≠ byte '?') := by
    rw [← hEscape, List.takeWhile_cons_of_pos (by decide),
      List.takeWhile_cons_of_pos (by simpa using ha.2),
      List.takeWhile_cons_of_pos (by simpa using hb.2)]
    rfl
  have hNone : byte '/' ∉ [byte '%', a, b] := by
    simp only [List.mem_cons, List.not_mem_nil, or_false, not_or]
    exact ⟨by decide, ha.1.symm, hb.1.symm⟩
  obtain ⟨e, elements, hSplit⟩ : ∃ e elements,
      (escaped.takeWhile (· ≠ byte '?')).splitOn (byte '/') = ([byte '%', a, b] ++ e) :: elements := by
    rw [hTarget, splitOn_append_left hNone]
    cases hRest : (t.takeWhile (· ≠ byte '?')).splitOn (byte '/') with
    | nil => exact absurd hRest (List.splitOn_ne_nil _ _)
    | cons e elements => exact ⟨e, elements, rfl⟩
  have hFront : (dir ++ [byte '/'] ++ escaped).takeWhile (· ≠ byte '?') =
      dir ++ [byte '/'] ++ escaped.takeWhile (· ≠ byte '?') := by
    rw [List.takeWhile_append_of_pos]
    intro c hc
    rcases List.mem_append.mp hc with hc | hc
    · exact decide_eq_true fun hEq => hQuestion (hEq ▸ hc)
    · rw [List.mem_singleton.mp hc]
      decide
  -- The elements of the directory come first, and the others take none of them back.
  obtain ⟨first, hElements, hFirst⟩ : ∃ first : List GoString,
      ((dir ++ [byte '/'] ++ escaped.takeWhile (· ≠ byte '?')).drop 1).splitOn (byte '/') =
        first ++ (escaped.takeWhile (· ≠ byte '?')).splitOn (byte '/') ∧
      ∀ f ∈ first, ∀ c ∈ f, c ∈ dir := by
    match dir, hOpens with
    | [], _ => exact ⟨[], rfl, nofun⟩
    | c :: dir, hOpens =>
      refine ⟨dir.splitOn (byte '/'), ?_, fun f hf c hc => ?_⟩
      · rw [List.cons_append, List.cons_append, List.drop_succ_cons, List.drop_zero,
          List.append_assoc, List.singleton_append, List.splitOn_append_cons_self]
      · exact List.mem_cons_of_mem _ (mem_of_mem_splitOn hf hc)
  rw [hSplit] at hElements hDots
  have hName : keptElement ([byte '%', a, b] ++ e) = true := by simp [keptElement, lit]
  have hKept : keptElements (dir ++ [byte '/'] ++ escaped) =
      survivors first ++ ([byte '%', a, b] ++ e) :: survivors elements := by
    unfold keptElements
    rw [hFront, hElements, (survivors_append (climb_eq_zero hDots)).1, survivors_name hName hDots]
  obtain ⟨behind, hResolved⟩ := exists_resolved (dir ++ [byte '/'] ++ escaped)
  rw [hKept, rooted_intercalate (by simp), List.flatMap_append, List.flatMap_cons] at hResolved
  refine ⟨(survivors first).flatMap (lit "/" ++ ·),
    e ++ (survivors elements).flatMap (lit "/" ++ ·) ++ behind, ?_, fun c hc => ?_⟩
  · rw [hResolved]
    simp [lit_slash]
  · obtain ⟨f, hf, hc⟩ := List.mem_flatMap.mp hc
    rcases List.mem_append.mp hc with hSign | hc
    · exact .inr (List.mem_singleton.mp hSign)
    · exact .inl (hFirst f (survivors_mem hf).1 c hc)

end PadlockCloud
