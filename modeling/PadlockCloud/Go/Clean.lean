import PadlockCloud.Go.Elements

/-!
# What `http.Redirect` makes of a target

A target without scheme and host is made absolute, and everything before its
first question mark is cleaned like a path, a fragment included. The result has
exactly one slash at its start. A target that names a page, and whose fragment
does not climb out of it, keeps its path.
-/

namespace PadlockCloud

open Url

/-! ## `http.Redirect` -/

/-- `path.Clean`, but keeping a slash at the end. -/
def tidyPath (p : GoString) : GoString :=
  cleanPath p ++
    if p.getLast? = some (byte '/') ∧ (cleanPath p).getLast? ≠ some (byte '/') then lit "/" else []

theorem redirectPath_rooted (requestPath : GoString) {target : GoString}
    (hRooted : target.head? = some (byte '/')) :
    redirectPath requestPath target =
      tidyPath (target.takeWhile (· ≠ byte '?')) ++ target.dropWhile (· ≠ byte '?') := by
  unfold redirectPath
  simp only [hRooted, if_true]
  rfl

/-- The directory of a request: its path up to the last slash. -/
def requestDir (requestPath : GoString) : GoString :=
  (requestPath.reverse.dropWhile (· ≠ byte '/')).reverse

theorem requestDir_eq {requestPath : GoString} (hRequest : requestPath.head? = some (byte '/')) :
    ∃ front, requestDir requestPath = front ++ [byte '/'] ∧ Opens [byte '/'] front := by
  obtain ⟨rest, rfl⟩ := List.head?_eq_some_iff.mp hRequest
  unfold requestDir
  rw [List.reverse_cons, List.dropWhile_append]
  split
  · exact ⟨[], rfl, nofun⟩
  · rename_i hSome
    obtain ⟨c, s, hDrop⟩ := List.exists_cons_of_ne_nil
      (l := rest.reverse.dropWhile (· ≠ byte '/')) (by simpa using hSome)
    have hSlash := opens_dropWhile (byte '/') rest.reverse c (by rw [hDrop]; rfl)
    obtain rfl := List.mem_singleton.mp hSlash
    refine ⟨byte '/' :: s.reverse, by rw [hDrop]; simp, opens_cons _ _⟩

/-- The target with the directory of the request in front, unless it starts with a slash. -/
def absoluteTarget (requestPath target : GoString) : GoString :=
  if target.head? = some (byte '/') then target else requestDir requestPath ++ target

/-- A target is made absolute first. -/
theorem redirectPath_absolute {requestPath : GoString} (target : GoString)
    (hRequest : requestPath.head? = some (byte '/')) :
    ∃ s, absoluteTarget requestPath target = byte '/' :: s ∧
      redirectPath requestPath target = redirectPath requestPath (byte '/' :: s) := by
  unfold absoluteTarget
  by_cases hRooted : target.head? = some (byte '/')
  · obtain ⟨s, rfl⟩ := List.head?_eq_some_iff.mp hRooted
    exact ⟨s, if_pos rfl, rfl⟩
  · obtain ⟨front, hDir, hOpens⟩ := requestDir_eq hRequest
    obtain ⟨s, hs⟩ : ∃ s, requestDir requestPath ++ target = byte '/' :: s := by
      rw [hDir]
      match front with
      | [] => exact ⟨target, rfl⟩
      | c :: front =>
        obtain rfl := List.mem_singleton.mp (hOpens c rfl)
        exact ⟨front ++ [byte '/'] ++ target, rfl⟩
    obtain ⟨rest, rfl⟩ := List.head?_eq_some_iff.mp hRequest
    refine ⟨s, by rw [if_neg hRooted, hs], ?_⟩
    unfold requestDir at hs
    unfold redirectPath
    simp only [hRooted, if_false, reduceCtorEq, hs, List.head?_cons, if_true]

theorem tidyPath_rooted (s : GoString) :
    ∃ t, tidyPath (byte '/' :: s) = byte '/' :: t ∧ t.head? ≠ some (byte '/') := by
  unfold tidyPath
  rw [cleanPath_eq]
  have hElements (e : GoString) (he : e ∈ survivors (s.splitOn (byte '/'))) :
      e ≠ [] ∧ byte '/' ∉ e := survivors_splitOn he
  generalize survivors (s.splitOn (byte '/')) = elements at hElements
  match elements with
  | [] => exact ⟨[], by simp [List.intercalate], nofun⟩
  | e :: rest =>
    obtain ⟨hNonempty, hSlash⟩ := hElements e List.mem_cons_self
    match e with
    | c :: e =>
      rw [intercalate_cons]
      refine ⟨_, rfl, ?_⟩
      intro hHead
      apply hSlash
      rw [← Option.some.inj hHead]
      exact List.mem_cons_self

/-- What is sent starts with one slash. -/
theorem redirectPath_single {requestPath : GoString} (target : GoString)
    (hRequest : requestPath.head? = some (byte '/')) :
    ∃ s, redirectPath requestPath target = byte '/' :: s ∧ s.head? ≠ some (byte '/') := by
  obtain ⟨s, -, hTarget⟩ := redirectPath_absolute target hRequest
  have hFront : (byte '/' :: s).takeWhile (· ≠ byte '?') =
      byte '/' :: s.takeWhile (· ≠ byte '?') := List.takeWhile_cons_of_pos (by decide)
  obtain ⟨t, hTidy, hSingle⟩ := tidyPath_rooted (s.takeWhile (· ≠ byte '?'))
  rw [hTarget, redirectPath_rooted _ rfl, hFront, hTidy]
  refine ⟨_, rfl, ?_⟩
  match t with
  | c :: t => exact hSingle
  | [] =>
    exact fun hHead =>
      absurd (opens_dropWhile (byte '?') (byte '/' :: s) (byte '/') hHead) (by decide)

/-! ## Pages -/

/-- The root, or a name of letters and digits between slashes. -/
def isPage (path : GoString) : Bool :=
  let name := (path.drop 1).dropLast
  path = lit "/" ||
    (name ≠ [] && name.all isAlphanumeric && path = lit "/" ++ name ++ lit "/")

theorem isPage_iff {path : GoString} :
    isPage path = true ↔ path = lit "/" ∨
      ∃ name, name ≠ [] ∧ (∀ c ∈ name, isAlphanumeric c = true) ∧
        path = byte '/' :: (name ++ [byte '/']) := by
  simp only [isPage, Bool.or_eq_true, Bool.and_eq_true, decide_eq_true_eq, List.all_eq_true]
  constructor
  · rintro (hRoot | ⟨⟨hName, hAlpha⟩, hPath⟩)
    · exact .inl hRoot
    · exact .inr ⟨_, hName, hAlpha, hPath⟩
  · rintro (hRoot | ⟨name, hName, hAlpha, rfl⟩)
    · exact .inl hRoot
    · right
      simp only [List.drop_succ_cons, List.drop_zero, List.dropLast_concat]
      exact ⟨⟨hName, hAlpha⟩, rfl⟩

/-- The bytes of a page in a URL. -/
def pageByte (c : UInt8) : Bool := isAlphanumeric c || c = byte '%' || c = byte '/'

theorem pageByte_of_escaped {raw path : GoString} (hEscaped : Escaped raw path)
    (hPage : isPage path = true) : ∀ c ∈ raw, pageByte c = true := by
  intro c hc
  rcases hEscaped.mem hc with hc | rfl | hHex
  · rcases isPage_iff.mp hPage with rfl | ⟨name, -, hAlpha, rfl⟩
    · rw [List.mem_singleton.mp hc]
      rfl
    · simp only [List.mem_cons, List.mem_append, List.not_mem_nil, or_false] at hc
      rcases hc with rfl | hc | rfl
      · rfl
      · simp [pageByte, hAlpha c hc]
      · rfl
  · rfl
  · exact forall_byte (P := fun c => (unhex c).isSome → pageByte c = true) (by decide +kernel) c
      hHex

/-- A page in a URL, behind its first slash: nothing, or one element that may be
followed by a slash. -/
def PageTail (y : GoString) : Prop :=
  (∀ c ∈ y, pageByte c = true) ∧
    (y = [] ∨ ∃ x, x ≠ [] ∧ byte '/' ∉ x ∧ (y = x ∨ y = x ++ [byte '/']))

theorem escaped_nil_iff {s : GoString} : Escaped s [] ↔ s = [] := by
  constructor
  · intro hEscaped
    cases hEscaped
    rfl
  · rintro rfl
    exact .nil

theorem pageTail_of_escaped {y path : GoString} (hEscaped : Escaped (byte '/' :: y) path)
    (hPage : isPage path = true) : PageTail y := by
  refine ⟨fun c hc => pageByte_of_escaped hEscaped hPage c (List.mem_cons_of_mem _ hc), ?_⟩
  cases hEscaped with
  | @plain _ _ t _ hTail =>
    rcases isPage_iff.mp hPage with hRoot | ⟨name, hName, hAlpha, hPath⟩
    · obtain rfl : t = [] := (List.cons.inj hRoot).2
      exact .inl (escaped_nil_iff.mp hTail)
    · obtain rfl : t = name ++ [byte '/'] := (List.cons.inj hPath).2
      right
      by_cases hSlash : byte '/' ∈ y
      · obtain ⟨x, z, rfl, hFirst⟩ := List.eq_append_cons_of_mem hSlash
        obtain ⟨x', z', hx, hz, hSplit⟩ := hTail.split rfl (by decide)
        have hNone : byte '/' ∉ name := fun hc => absurd (hAlpha _ hc) (by decide)
        -- The slash of the page is the one that stands for itself.
        obtain rfl : z' = [] := by
          by_contra hMore
          have hInit := congrArg List.dropLast hSplit
          rw [List.dropLast_concat, List.dropLast_append_of_ne_nil (List.cons_ne_nil _ _),
            List.dropLast_cons_of_ne_nil hMore] at hInit
          exact hNone (by rw [hInit]; simp)
        obtain rfl := escaped_nil_iff.mp hz
        obtain rfl : name = x' := (List.append_inj' hSplit rfl).1
        refine ⟨x, ?_, hFirst, .inr rfl⟩
        rintro rfl
        cases hx
        exact hName rfl
      · refine ⟨y, ?_, hSlash, .inl rfl⟩
        rintro rfl
        have hNil := hTail.unescape
        simp at hNil

/-! ## Pages are clean -/

theorem page_not_dots {x : GoString} (hBytes : ∀ c ∈ x, pageByte c = true) :
    x ≠ lit "." ∧ x ≠ lit ".." := by
  constructor <;> rintro rfl <;> exact absurd (hBytes (byte '.') (by decide)) (by decide)

/-- A page is not changed. -/
theorem tidyPath_page {y : GoString} (hPage : PageTail y) :
    tidyPath (byte '/' :: y) = byte '/' :: y := by
  obtain ⟨hBytes, rfl | ⟨x, hx, hSlash, hShape⟩⟩ := hPage
  · decide
  · have hSplit : x.splitOn (byte '/') = [x] := List.splitOn_eq_singleton hSlash
    have hBytesX : ∀ c ∈ x, pageByte c = true := by
      rcases hShape with rfl | rfl
      · exact hBytes
      · exact fun c hc => hBytes c (List.mem_append_left _ hc)
    obtain ⟨hDot, hDots⟩ := page_not_dots hBytesX
    have hLast : (byte '/' :: x).getLast? ≠ some (byte '/') := by
      rw [List.getLast?_cons, List.getLast?_eq_some_getLast hx, Option.getD_some]
      exact fun hEq => hSlash (Option.some.inj hEq ▸ List.getLast_mem hx)
    have hClean : cleanPath (byte '/' :: y) = byte '/' :: x := by
      have hName : keptElement x = true := by simp [keptElement, hx, hDot]
      rw [cleanPath_eq]
      rcases hShape with rfl | rfl
      · simp [hSplit, survivors, climb, hName, hDots]
      · rw [List.splitOn_append_cons_self, hSplit, List.singleton_append, List.splitOn_nil]
        simp [survivors, climb, keptElement, hx, hDot, hDots, show lit ".." ≠ [] by decide]
    unfold tidyPath
    rw [hClean]
    rcases hShape with rfl | rfl
    · rw [if_neg fun h => hLast h.1, List.append_nil]
    · rw [if_pos ⟨by rw [← List.cons_append]; exact List.getLast?_concat, hLast⟩]
      rfl

theorem splitOn_append_left {c : UInt8} {x : GoString} (hx : c ∉ x) (s : GoString) :
    (x ++ s).splitOn c = (s.splitOn c).modifyHead (x ++ ·) := by
  induction x with
  | nil => cases hSplit : s.splitOn c <;> simp [hSplit]
  | cons d x ih =>
    rw [List.mem_cons, not_or] at hx
    rw [List.cons_append, List.splitOn_cons_eq_if_modifyHead,
      if_neg (by simpa using Ne.symm hx.1), ih hx.2]
    cases s.splitOn c <;> rfl

/-- Fragments can be unescaped element by element. -/
theorem escaped_elements {first : GoString} {rest : List GoString} :
    (∃ t, Escaped (first ++ rest.flatMap (lit "/" ++ ·)) t) ↔
      (∃ t, Escaped first t) ∧ ∀ e ∈ rest, ∃ t, Escaped e t := by
  induction rest generalizing first with
  | nil => simp
  | cons second rest ih =>
    have hSlash : first ++ (second :: rest).flatMap (lit "/" ++ ·) =
        first ++ byte '/' :: (second ++ rest.flatMap (lit "/" ++ ·)) := by
      rw [List.flatMap_cons, List.append_assoc]
      rfl
    rw [hSlash, List.forall_mem_cons, ← @ih second]
    constructor
    · rintro ⟨t, hEscaped⟩
      obtain ⟨t₁, t₂, hFirst, hRest, -⟩ := hEscaped.split rfl (by decide)
      exact ⟨⟨t₁, hFirst⟩, t₂, hRest⟩
    · rintro ⟨⟨t₁, hFirst⟩, t₂, hRest⟩
      exact ⟨_, hFirst.append (.plain (by decide) hRest)⟩

/-- Of a page with a fragment, only elements behind the number sign are dropped. -/
theorem cleanPath_fragment {y g first : GoString} {rest : List GoString} (hPage : PageTail y)
    (hDots : lit ".." ∉ (y ++ byte '#' :: g).splitOn (byte '/'))
    (hSplit : g.splitOn (byte '/') = first :: rest) :
    cleanPath (byte '/' :: (y ++ byte '#' :: g)) =
      byte '/' :: (y ++ byte '#' :: (first ++
        (rest.filter keptElement).flatMap (lit "/" ++ ·))) := by
  obtain ⟨hBytes, hShape⟩ := hPage
  have hHash : (byte '#' :: g).splitOn (byte '/') = (byte '#' :: first) :: rest := by
    rw [List.splitOn_cons_eq_if_modifyHead, if_neg (by decide), hSplit]
    rfl
  have hKeep (e : GoString) (he : byte '#' ∈ e) : keptElement e = true := by
    rw [keptElement, Bool.and_eq_true, decide_eq_true_eq, decide_eq_true_eq]
    constructor <;> rintro rfl <;> exact absurd he (by decide)
  rw [cleanPath_eq, survivors_eq_filter hDots]
  rcases hShape with rfl | ⟨x, hx, hSlash, rfl | rfl⟩
  · rw [List.nil_append, hHash, List.filter_cons_of_pos (hKeep _ List.mem_cons_self),
      intercalate_cons]
    rfl
  · rw [splitOn_append_left hSlash, hHash, List.modifyHead_cons,
      List.filter_cons_of_pos (hKeep _ (List.mem_append_right _ List.mem_cons_self)),
      intercalate_cons, List.append_assoc]
    rfl
  · have hKeepX : keptElement x = true := by
      have hDot := (page_not_dots fun c hc => hBytes c (List.mem_append_left _ hc)).1
      simp [keptElement, hx, hDot]
    rw [List.append_assoc, List.singleton_append, List.splitOn_append_cons_self, hHash,
      List.splitOn_eq_singleton hSlash, List.singleton_append,
      List.filter_cons_of_pos hKeepX, List.filter_cons_of_pos (hKeep _ List.mem_cons_self),
      intercalate_cons, List.flatMap_cons]
    simp [lit_slash]

/-- A page with a fragment keeps its path, if the fragment has no element `..`,
and the fragment can still be unescaped. -/
theorem tidyPath_fragment {y g : GoString} (hPage : PageTail y)
    (hDots : lit ".." ∉ (y ++ byte '#' :: g).splitOn (byte '/')) :
    ∃ g', tidyPath (byte '/' :: (y ++ byte '#' :: g)) = byte '/' :: (y ++ byte '#' :: g') ∧
      ((∃ t, Escaped g t) → ∃ t, Escaped g' t) := by
  cases hSplit : g.splitOn (byte '/') with
  | nil => exact absurd hSplit (List.splitOn_ne_nil _ _)
  | cons first rest =>
    unfold tidyPath
    rw [cleanPath_fragment hPage hDots hSplit]
    refine ⟨_, by rw [List.cons_append, List.append_assoc, List.cons_append], ?_⟩
    rintro ⟨t, hEscaped⟩
    have hJoin : g = first ++ rest.flatMap (lit "/" ++ ·) := by
      rw [← intercalate_cons, ← hSplit, lit_slash, List.intercalate_splitOn]
    rw [hJoin] at hEscaped
    obtain ⟨hFirst, hRest⟩ := escaped_elements.mp ⟨t, hEscaped⟩
    obtain ⟨t', hKept⟩ := escaped_elements.mpr
      ⟨hFirst, fun e he => hRest e (List.mem_of_mem_filter (p := keptElement) he)⟩
    split
    · exact ⟨_, hKept.append (.plain (by decide) .nil)⟩
    · rw [List.append_nil]
      exact ⟨t', hKept⟩

/-! ## Where a page is redirected to -/

theorem pageTail_head {y : GoString} (hPage : PageTail y) : y.head? ≠ some (byte '/') := by
  obtain ⟨-, rfl | ⟨x, hx, hSlash, hShape⟩⟩ := hPage
  · nofun
  · match x with
    | c :: x =>
      have hHead : y.head? = some c := by
        rcases hShape with rfl | rfl <;> rfl
      rw [hHead]
      exact fun hEq => hSlash (Option.some.inj hEq ▸ List.mem_cons_self)

theorem escaped_opens {c : UInt8} {s t : GoString} (hHex : unhex c = none)
    (hPercent : c ≠ byte '%') (hOpens : Opens [c] t) :
    (∃ u, Escaped (s ++ t) u) ↔ (∃ u, Escaped s u) ∧ ∃ u, Escaped t u := by
  constructor
  · rintro ⟨u, hEscaped⟩
    match t with
    | [] => exact ⟨⟨u, by rwa [List.append_nil] at hEscaped⟩, [], .nil⟩
    | d :: t =>
      obtain rfl := List.mem_singleton.mp (hOpens d rfl)
      obtain ⟨s', t', hFirst, hSecond, -⟩ := hEscaped.split hHex hPercent
      exact ⟨⟨s', hFirst⟩, _, .plain hPercent hSecond⟩
  · rintro ⟨⟨s', hFirst⟩, t', hSecond⟩
    exact ⟨_, hFirst.append hSecond⟩

/-- A page is sent with its path and its query. -/
theorem redirectPath_page (requestPath : GoString) {s y query fragment : GoString}
    (hCut : Cut (byte '/' :: s) (byte '/' :: y) query fragment) (hPage : PageTail y)
    (hDots : query = [] →
      lit ".." ∉ ((byte '/' :: s).takeWhile (· ≠ byte '?')).splitOn (byte '/')) :
    ∃ fragment', redirectPath requestPath (byte '/' :: s) =
        byte '/' :: y ++ query ++ fragment' ∧ Opens [byte '#'] fragment' ∧
      ((∃ t, Escaped (fragment.drop 1) t) → ∃ t, Escaped (fragment'.drop 1) t) := by
  rw [redirectPath_rooted _ rfl]
  match query, fragment with
  | c :: query, fragment =>
    obtain rfl := List.mem_singleton.mp (hCut.query_opens c rfl)
    have hOpens : Opens [byte '?'] (byte '?' :: query ++ fragment) := hCut.query_opens
    refine ⟨fragment, ?_, hCut.fragment_opens, id⟩
    rw [hCut.eq, List.append_assoc, takeWhile_opens hCut.path_question hOpens,
      dropWhile_opens hCut.path_question hOpens, tidyPath_page hPage]
  | [], [] =>
    have hOpens : Opens [byte '?'] [] := nofun
    refine ⟨[], ?_, nofun, id⟩
    rw [hCut.eq, List.append_nil, takeWhile_opens hCut.path_question hOpens,
      dropWhile_opens hCut.path_question hOpens, tidyPath_page hPage]
  | [], c :: g =>
    obtain rfl := List.mem_singleton.mp (hCut.fragment_opens c rfl)
    have hWhole : byte '/' :: s = byte '/' :: (y ++ byte '#' :: g.takeWhile (· ≠ byte '?')) ++
        g.dropWhile (· ≠ byte '?') := by
      rw [hCut.eq, List.append_nil, List.cons_append, List.cons_append, List.append_assoc,
        List.cons_append, List.takeWhile_append_dropWhile]
    have hNone : byte '?' ∉ byte '/' :: (y ++ byte '#' :: g.takeWhile (· ≠ byte '?')) := by
      have hPath := hCut.path_question
      rw [List.mem_cons, not_or] at hPath
      simp only [List.mem_cons, List.mem_append, not_or]
      exact ⟨hPath.1, hPath.2, by decide, not_mem_takeWhile _ g⟩
    have hFront := takeWhile_opens hNone (opens_dropWhile (byte '?') g)
    have hBack := dropWhile_opens hNone (opens_dropWhile (byte '?') g)
    rw [← hWhole] at hFront hBack
    have hElements := hDots rfl
    rw [hFront, splitOn_slash, List.mem_cons, not_or] at hElements
    obtain ⟨g', hTidy, hUnescape⟩ := tidyPath_fragment hPage hElements.2
    rw [hFront, hTidy, hBack]
    refine ⟨byte '#' :: (g' ++ g.dropWhile (· ≠ byte '?')), by simp, ?_, ?_⟩
    · exact hCut.fragment_opens
    · intro hText
      rw [List.drop_succ_cons, List.drop_zero,
        ← List.takeWhile_append_dropWhile (p := (· ≠ byte '?')) (l := g),
        escaped_opens rfl (by decide) (opens_dropWhile _ _)] at hText
      exact (escaped_opens rfl (by decide) (opens_dropWhile _ _)).mpr
        ⟨hUnescape hText.1, hText.2⟩

/-- A page that is clean stays the target. -/
theorem local_redirectPath {net : NetUrl} (requestPath : GoString)
    {s y query fragment path : GoString}
    (hCut : Cut (byte '/' :: s) (byte '/' :: y) query fragment)
    (hEscaped : Escaped (byte '/' :: y) path) (hPage : isPage path = true)
    (hControl : hasControlByte (byte '/' :: y ++ query) = false)
    (hFragment : ∃ text, Escaped (fragment.drop 1) text)
    (hDots : query = [] →
      lit ".." ∉ ((byte '/' :: s).takeWhile (· ≠ byte '?')).splitOn (byte '/')) :
    Local net (redirectPath requestPath (byte '/' :: s)) path := by
  have hTail := pageTail_of_escaped hEscaped hPage
  obtain ⟨fragment', hSent, hOpens, hText⟩ := redirectPath_page requestPath hCut hTail hDots
  rw [hSent]
  exact (local_iff ⟨rfl, hCut.path_question, hCut.path_hash, hCut.query_hash, hCut.query_opens,
    hOpens⟩ (pageTail_head hTail)).mpr ⟨hControl, hEscaped, hText hFragment⟩

end PadlockCloud
