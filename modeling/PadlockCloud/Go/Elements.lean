import PadlockCloud.Go.UrlParse

/-!
# `path.Clean`

`path.Clean` goes over the elements of a path from the left, with a stack. Seen from the
right an element stays unless those behind it take it back, and how many they take back
is a number (`climb`). So the cleaned path can be read off the elements (`cleanPath_eq`).
-/

namespace PadlockCloud

open Url

/-! ## Elements of a path -/

theorem lit_slash : lit "/" = [byte '/'] := rfl

theorem splitOn_slash (s : GoString) :
    (byte '/' :: s).splitOn (byte '/') = [] :: s.splitOn (byte '/') := by
  rw [List.splitOn_cons_eq_if_modifyHead, if_pos (beq_self_eq_true _)]

theorem not_mem_of_mem_splitOn {c : UInt8} {s e : GoString} (he : e ∈ s.splitOn c) : c ∉ e := by
  induction s generalizing e with
  | nil => simp_all
  | cons d s ih =>
    rw [List.splitOn_cons_eq_if_modifyHead] at he
    split at he
    · rcases List.mem_cons.mp he with rfl | he
      · exact List.not_mem_nil
      · exact ih he
    · rename_i hOther
      cases hSplit : s.splitOn c with
      | nil => exact absurd hSplit (List.splitOn_ne_nil c s)
      | cons first rest =>
        rw [hSplit, List.modifyHead_cons, List.mem_cons] at he
        rw [hSplit] at ih
        rcases he with rfl | he
        · rw [List.mem_cons, not_or]
          exact ⟨fun hEq => hOther (by simp [hEq]), ih List.mem_cons_self⟩
        · exact ih (List.mem_cons_of_mem _ he)

theorem intercalate_cons (separator first : GoString) (rest : List GoString) :
    separator.intercalate (first :: rest) = first ++ rest.flatMap (separator ++ ·) := by
  induction rest generalizing first with
  | nil => simp
  | cons second rest ih => rw [List.intercalate_cons_cons, ih]; simp

/-- The element is neither empty nor a single dot. -/
def keptElement (e : GoString) : Bool := e ≠ [] && e ≠ lit "."

/-- How many of the elements before them the elements take back. -/
def climb : List GoString → Nat
  | [] => 0
  | e :: elements =>
    if e = lit ".." then climb elements + 1
    else if keptElement e then climb elements - 1
    else climb elements

/-- The elements that are left: names that nothing behind them takes back. -/
def survivors : List GoString → List GoString
  | [] => []
  | e :: elements =>
    if e ≠ lit ".." ∧ keptElement e ∧ climb elements = 0 then e :: survivors elements
    else survivors elements

theorem survivors_mem {elements : List GoString} {e : GoString} (he : e ∈ survivors elements) :
    e ∈ elements ∧ keptElement e = true := by
  induction elements with
  | nil => cases he
  | cons first elements ih =>
    rw [survivors] at he
    split at he
    · rename_i hName
      rcases List.mem_cons.mp he with rfl | hLater
      · exact ⟨List.mem_cons_self, hName.2.1⟩
      · exact (ih hLater).imp_left (List.mem_cons_of_mem _)
    · exact (ih he).imp_left (List.mem_cons_of_mem _)

/-- Elements without `..` take nothing back. -/
theorem climb_eq_zero {elements : List GoString} (hDots : lit ".." ∉ elements) :
    climb elements = 0 := by
  induction elements with
  | nil => rfl
  | cons first elements ih =>
    rw [List.mem_cons, not_or] at hDots
    rw [climb, if_neg (Ne.symm hDots.1), ih hDots.2]
    split <;> rfl

/-- Without elements `..` only empty elements and single dots are dropped. -/
theorem survivors_eq_filter {elements : List GoString} (hDots : lit ".." ∉ elements) :
    survivors elements = elements.filter keptElement := by
  induction elements with
  | nil => rfl
  | cons first elements ih =>
    rw [List.mem_cons, not_or] at hDots
    rw [survivors, ih hDots.2, climb_eq_zero hDots.2]
    by_cases hName : keptElement first = true
    · rw [if_pos ⟨Ne.symm hDots.1, hName, rfl⟩, List.filter_cons_of_pos hName]
    · rw [if_neg fun h => hName h.2.1, List.filter_cons_of_neg hName]

/-- A name stays where no `..` comes later. -/
theorem survivors_name {e : GoString} {elements : List GoString} (hName : keptElement e = true)
    (hDots : lit ".." ∉ e :: elements) : survivors (e :: elements) = e :: survivors elements := by
  rw [List.mem_cons, not_or] at hDots
  rw [survivors, if_pos ⟨Ne.symm hDots.1, hName, climb_eq_zero hDots.2⟩]

/-- What takes nothing back leaves what is before it as it is. -/
theorem survivors_append {front back : List GoString} (hClimb : climb back = 0) :
    survivors (front ++ back) = survivors front ++ survivors back ∧
      climb (front ++ back) = climb front := by
  induction front with
  | nil => exact ⟨rfl, hClimb⟩
  | cons first front ih =>
    rw [List.cons_append, survivors, survivors, climb, climb, ih.1, ih.2]
    refine ⟨?_, rfl⟩
    split <;> rfl

/-! ## The stack -/

theorem cleanElement_dots {done : List GoString} (hDone : lit ".." ∉ done) :
    cleanElement true done (lit "..") = done.drop 1 := by
  match done with
  | [] => rfl
  | last :: before =>
    rw [List.mem_cons, not_or] at hDone
    rw [cleanElement, if_neg (by decide), if_pos rfl]
    exact if_neg (Ne.symm hDone.1)

theorem cleanElement_name {e : GoString} (hDots : e ≠ lit "..") (hName : keptElement e = true)
    (done : List GoString) : cleanElement true done e = e :: done := by
  have hParts : ¬(e = [] ∨ e = lit ".") := by simpa [keptElement] using hName
  unfold cleanElement
  rw [if_neg hParts, if_neg hDots]

theorem cleanElement_dropped {e : GoString} (hName : ¬keptElement e = true)
    (done : List GoString) : cleanElement true done e = done := by
  have hParts : e = [] ∨ e = lit "." := by
    by_contra hNeither
    exact hName (by simpa [keptElement] using hNeither)
  unfold cleanElement
  rw [if_pos hParts]

/-- The stack after the elements: those that are left, on those that were there and are not
taken back. -/
theorem foldl_cleanElement {elements done : List GoString} (hDone : lit ".." ∉ done) :
    elements.foldl (cleanElement true) done =
      (survivors elements).reverse ++ done.drop (climb elements) := by
  induction elements generalizing done with
  | nil => rfl
  | cons e elements ih =>
    rw [List.foldl_cons, survivors, climb]
    by_cases hDots : e = lit ".."
    · subst hDots
      have hBefore : lit ".." ∉ done.drop 1 := fun hMem => hDone (List.mem_of_mem_drop hMem)
      rw [cleanElement_dots hDone, ih hBefore, if_neg fun h => h.1 rfl, if_pos rfl,
        List.drop_drop, Nat.add_comm 1]
    · rw [if_neg hDots]
      by_cases hName : keptElement e = true
      · have hNext : lit ".." ∉ e :: done := by
          rw [List.mem_cons, not_or]
          exact ⟨Ne.symm hDots, hDone⟩
        rw [cleanElement_name hDots hName, ih hNext, if_pos hName]
        cases hClimb : climb elements with
        | zero => simp [hDots, hName]
        | succ n => simp
      · rw [cleanElement_dropped hName, if_neg fun h => hName h.2.1, if_neg hName, ih hDone]

/-- A cleaned path, read off the elements. -/
theorem cleanPath_eq (s : GoString) :
    cleanPath (byte '/' :: s) =
      byte '/' :: (lit "/").intercalate (survivors (s.splitOn (byte '/'))) := by
  have hStack : (s.splitOn (byte '/')).foldl (cleanElement true) [] = _ :=
    foldl_cleanElement List.not_mem_nil
  rw [List.drop_nil, List.append_nil] at hStack
  unfold cleanPath
  simp only [splitOn_slash, List.head?_cons, decide_true, List.foldl_cons, if_true]
  rw [if_neg nofun, show cleanElement true [] [] = [] from rfl, hStack, List.reverse_reverse]
  rfl

/-- What is left are names between slashes. -/
theorem survivors_splitOn {s e : GoString} (he : e ∈ survivors (s.splitOn (byte '/'))) :
    e ≠ [] ∧ byte '/' ∉ e := by
  obtain ⟨hMem, hName⟩ := survivors_mem he
  refine ⟨?_, not_mem_of_mem_splitOn hMem⟩
  rintro rfl
  cases hName

end PadlockCloud
