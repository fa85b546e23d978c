import Mathlib.Data.List.Infix

/-!
# A header and a body

A text with one line for each field of a header, a blank line, and a body that may be
anything. Such a text is read back as it was printed if no line of the header has a
symbol of the line end in it. How a reader tells where a line ends does not matter as
long as it recognizes the line end that was printed.
-/

namespace Format

variable {α : Type}

/-! ## Cutting -/

section Cut

variable {sep s x y : List α}

/-- The text consists of `x`, the separator and `y`, and the separator does not occur
before. -/
structure CutsAt (sep s x y : List α) : Prop where
  text : s = x ++ sep ++ y
  first : ∀ x' y', s = x' ++ sep ++ y' → x.length ≤ x'.length

theorem cutsAt_prefix {rest : List α} : CutsAt sep (sep ++ rest) x y ↔ [] = x ∧ rest = y := by
  constructor
  · rintro ⟨hText, hFirst⟩
    have hLength := hFirst [] rest rfl
    obtain rfl := List.eq_nil_of_length_eq_zero (Nat.le_zero.mp hLength)
    exact ⟨rfl, List.append_cancel_left hText⟩
  · rintro ⟨rfl, rfl⟩
    exact ⟨rfl, fun _ _ _ => Nat.zero_le _⟩

/-- If the separator is not at the start, it is looked for behind the first symbol. -/
theorem cutsAt_cons {a : α} (hStart : ¬sep <+: a :: s) :
    CutsAt sep (a :: s) x y ↔ ∃ x₁, CutsAt sep s x₁ y ∧ a :: x₁ = x := by
  have hBehind {x y : List α} (hText : a :: s = x ++ sep ++ y) :
      ∃ x₁, a :: x₁ = x ∧ s = x₁ ++ sep ++ y := by
    cases x with
    | nil => exact absurd ⟨y, hText.symm⟩ hStart
    | cons c x₁ =>
      obtain ⟨rfl, hTail⟩ := List.cons.inj hText
      exact ⟨x₁, rfl, hTail⟩
  constructor
  · rintro ⟨hText, hFirst⟩
    obtain ⟨x₁, rfl, hTail⟩ := hBehind hText
    refine ⟨x₁, ⟨hTail, ?_⟩, rfl⟩
    intro x' y' hOther
    exact Nat.le_of_succ_le_succ (hFirst (a :: x') y' (congrArg (a :: ·) hOther))
  · rintro ⟨x₁, ⟨hText, hFirst⟩, rfl⟩
    refine ⟨congrArg (a :: ·) hText, ?_⟩
    intro x' y' hOther
    obtain ⟨x₂, rfl, hTail⟩ := hBehind hOther
    exact Nat.succ_le_succ (hFirst x₂ y' hTail)

/-- A symbol that the separator does not have is not covered by an occurrence of it. -/
theorem apart_of_not_mem {a : α} {i : Nat} (hText : s = x ++ sep ++ y) (hAt : s[i]? = some a)
    (hOther : a ∉ sep) : i < x.length ∨ x.length + sep.length ≤ i := by
  by_contra hCovers
  rw [not_or, Nat.not_lt, Nat.not_le] at hCovers
  obtain ⟨hLeft, hRight⟩ := hCovers
  rw [hText, List.append_assoc, List.getElem?_append_right hLeft,
    List.getElem?_append_left (by omega)] at hAt
  exact hOther (List.mem_of_getElem? hAt)

/-- A separator does not start in a text without any symbol of it. -/
theorem length_le_of_apart {x' : List α} (hSep : sep ≠ []) (hApart : ∀ a ∈ x, a ∉ sep)
    (hText : x ++ s = x' ++ sep ++ y) : x.length ≤ x'.length := by
  by_contra hShort
  rw [Nat.not_le] at hShort
  have hLength := List.length_pos_of_ne_nil hSep
  have hAt : (x ++ s)[x'.length]? = some x[x'.length] := by
    rw [List.getElem?_append_left hShort, List.getElem?_eq_getElem hShort]
  have hPlace := apart_of_not_mem hText hAt (hApart _ (List.getElem_mem hShort))
  omega

variable [DecidableEq α]

/-- What stands before and behind the first occurrence of a separator. -/
def cut (sep : List α) : List α → Option (List α × List α)
  | [] => if sep = [] then some ([], []) else none
  | a :: s =>
    if sep <+: a :: s then some ([], (a :: s).drop sep.length)
    else (cut sep s).map fun parts => (a :: parts.1, parts.2)

theorem cut_eq_some : cut sep s = some (x, y) ↔ CutsAt sep s x y := by
  induction s generalizing x with
  | nil =>
    rw [cut]
    split
    · rename_i hSep
      subst hSep
      rw [Option.some.injEq, Prod.mk.injEq]
      exact cutsAt_prefix.symm
    · rename_i hSep
      refine ⟨nofun, ?_⟩
      rintro ⟨hText, -⟩
      obtain ⟨hFront, -⟩ := List.append_eq_nil_iff.mp hText.symm
      exact absurd (List.append_eq_nil_iff.mp hFront).2 hSep
  | cons a s ih =>
    rw [cut]
    by_cases hStart : sep <+: a :: s
    · rw [if_pos hStart]
      obtain ⟨rest, hRest⟩ := hStart
      rw [← hRest, List.drop_left, Option.some.injEq, Prod.mk.injEq]
      exact cutsAt_prefix.symm
    · rw [if_neg hStart, cutsAt_cons hStart, Option.map_eq_some_iff]
      constructor
      · rintro ⟨⟨x₁, y₁⟩, hCut, hParts⟩
        obtain ⟨hFront, rfl⟩ := Prod.mk.inj hParts
        exact ⟨x₁, ih.mp hCut, hFront⟩
      · rintro ⟨x₁, hCuts, rfl⟩
        exact ⟨(x₁, y), ih.mpr hCuts, rfl⟩

/-- A text without any symbol of the separator is cut off whole. -/
theorem cut_append (hSep : sep ≠ []) (hApart : ∀ a ∈ x, a ∉ sep) (y : List α) :
    cut sep (x ++ sep ++ y) = some (x, y) := by
  apply cut_eq_some.mpr
  refine ⟨rfl, ?_⟩
  intro x' y' hText
  rw [List.append_assoc x] at hText
  exact length_le_of_apart hSep hApart hText

end Cut

/-! ## Fields -/

/-- What stands between the name and the value of a field, and at the end of a line. -/
structure Layout (α : Type) where
  sep : List α
  eol : List α
  sep_ne_nil : sep ≠ []
  eol_ne_nil : eol ≠ []
  sep_plain : ∀ a ∈ sep, a ∉ eol

variable {F : Layout α}

/-- No symbol of the line end occurs in the text. -/
def Layout.Plain (F : Layout α) (s : List α) : Prop := ∀ a ∈ s, a ∉ F.eol

instance [DecidableEq α] (s : List α) : Decidable (F.Plain s) :=
  inferInstanceAs (Decidable (∀ a ∈ s, a ∉ F.eol))

theorem Layout.plain_append {s t : List α} : F.Plain (s ++ t) ↔ F.Plain s ∧ F.Plain t :=
  List.forall_mem_append

structure Field (F : Layout α) where
  name : List α
  value : List α
  name_apart : ∀ a ∈ name, a ∉ F.sep
  name_plain : F.Plain name
  value_plain : F.Plain value

namespace Field

def line (f : Field F) : List α := f.name ++ F.sep ++ f.value

def pair (f : Field F) : List α × List α := (f.name, f.value)

theorem line_plain (f : Field F) : F.Plain f.line := by
  rw [line, Layout.plain_append, Layout.plain_append]
  exact ⟨⟨f.name_plain, F.sep_plain⟩, f.value_plain⟩

theorem line_ne_nil (f : Field F) : f.line ≠ [] := by
  intro hNil
  rw [line, List.append_assoc, List.append_eq_nil_iff, List.append_eq_nil_iff] at hNil
  exact F.sep_ne_nil hNil.2.1

theorem cut_line [DecidableEq α] (f : Field F) : cut F.sep f.line = some f.pair :=
  cut_append F.sep_ne_nil f.name_apart f.value

theorem mapM_cut_line [DecidableEq α] (fields : List (Field F)) :
    (fields.map line).mapM (cut F.sep) = some (fields.map pair) := by
  induction fields with
  | nil => rfl
  | cons f fields ih =>
    rw [List.map_cons, List.mapM_cons, cut_line, ih]
    rfl

end Field

/-- The fields, a blank line, and the body. -/
def print (fields : List (Field F)) (body : List α) : List α :=
  fields.flatMap (fun f => f.line ++ F.eol) ++ F.eol ++ body

/-- The lines of the fields, without the end of the last one. -/
def heading (f : Field F) : List (Field F) → List α
  | [] => f.line
  | g :: fields => f.line ++ F.eol ++ heading g fields

theorem print_cons (f : Field F) (fields : List (Field F)) (body : List α) :
    print (f :: fields) body = f.line ++ F.eol ++ print fields body := by
  simp only [print, List.flatMap_cons, List.append_assoc]

theorem print_eq_heading (f : Field F) (fields : List (Field F)) (body : List α) :
    print (f :: fields) body = heading f fields ++ (F.eol ++ F.eol) ++ body := by
  induction fields generalizing f with
  | nil => simp only [print, heading, List.flatMap_singleton, List.append_assoc]
  | cons g fields ih =>
    rw [print_cons, ih, heading]
    simp only [List.append_assoc]

/-- A blank line does not start in the line of a field. -/
theorem line_length_le {f : Field F} {rest x y : List α}
    (hText : f.line ++ F.eol ++ rest = x ++ (F.eol ++ F.eol) ++ y) :
    f.line.length ≤ x.length := by
  rw [List.append_assoc f.line] at hText
  have hBlank : F.eol ++ F.eol ≠ [] := List.append_ne_nil_of_left_ne_nil F.eol_ne_nil _
  apply length_le_of_apart hBlank _ hText
  intro a ha
  rw [List.mem_append, or_self]
  exact f.line_plain a ha

/-- The first blank line is not in the header, since two line ends in a row would cover
the start of a line. -/
theorem heading_length_le {f : Field F} {fields : List (Field F)} {body x y : List α}
    (hText : print (f :: fields) body = x ++ (F.eol ++ F.eol) ++ y) :
    (heading f fields).length ≤ x.length := by
  induction fields generalizing f x with
  | nil =>
    rw [print_cons] at hText
    exact line_length_le hText
  | cons g fields ih =>
    rw [print_cons] at hText
    have hLine := line_length_le hText
    have hPast : (f.line ++ F.eol).length ≤ x.length := by
      obtain ⟨a, line, hStart⟩ := List.exists_cons_of_ne_nil g.line_ne_nil
      have hPlain : a ∉ F.eol := g.line_plain a (by rw [hStart]; exact List.mem_cons_self)
      have hAt : (f.line ++ F.eol ++ print (g :: fields) body)[(f.line ++ F.eol).length]? =
          some a := by
        rw [List.getElem?_append_right le_rfl, Nat.sub_self, print_cons, hStart]
        rfl
      have hPlace := apart_of_not_mem hText hAt (by rwa [List.mem_append, or_self])
      have hLength := List.length_pos_of_ne_nil F.eol_ne_nil
      simp only [List.length_append] at hPlace ⊢
      omega
    have hStarts : x <+: f.line ++ F.eol ++ print (g :: fields) body :=
      ⟨_, by rw [hText, List.append_assoc x]⟩
    obtain ⟨x', rfl⟩ := List.prefix_of_prefix_length_le (List.prefix_append _ _) hStarts hPast
    rw [List.append_assoc (f.line ++ F.eol), List.append_assoc (f.line ++ F.eol)] at hText
    have hRest := ih (List.append_cancel_left hText)
    rw [heading, List.length_append, @List.length_append _ (f.line ++ F.eol)]
    omega

/-- The text is cut in two at its first blank line. -/
theorem cut_print [DecidableEq α] (f : Field F) (fields : List (Field F)) (body : List α) :
    cut (F.eol ++ F.eol) (print (f :: fields) body) = some (heading f fields, body) := by
  apply cut_eq_some.mpr
  refine ⟨print_eq_heading f fields body, ?_⟩
  intro x y hText
  exact heading_length_le hText

/-! ## Reading -/

/-- A convention for the end of a line. A reader may take other symbols for one as well,
but it knows the line end of the layout behind a line without its symbols. -/
structure LineReader (F : Layout α) where
  next : List α → Option (List α × List α)
  shorter : ∀ {s line rest : List α}, next s = some (line, rest) → rest.length < s.length
  next_plain : ∀ {line : List α} (rest : List α), F.Plain line →
    next (line ++ F.eol ++ rest) = some (line, rest)

namespace LineReader

variable {R : LineReader F}

/-- The lines before the first blank line, and what follows it. -/
def header (R : LineReader F) (s : List α) : Option (List (List α) × List α) :=
  match _hNext : R.next s with
  | none => none
  | some (line, rest) =>
    if line = [] then some ([], rest)
    else (R.header rest).map fun parts => (line :: parts.1, parts.2)
termination_by s.length
decreasing_by exact R.shorter _hNext

/-- A reader goes on line by line. -/
theorem header_line {line : List α} (hPlain : F.Plain line) (rest : List α) :
    R.header (line ++ F.eol ++ rest) =
      if line = [] then some ([], rest)
      else (R.header rest).map fun parts => (line :: parts.1, parts.2) := by
  rw [header]
  split
  · rename_i hNext
    rw [R.next_plain rest hPlain] at hNext
    cases hNext
  · rename_i line' rest' hNext
    rw [R.next_plain rest hPlain] at hNext
    obtain ⟨rfl, rfl⟩ := Prod.mk.inj (Option.some.inj hNext)
    rfl

/-- The blank line behind the fields is the first one. -/
theorem header_print (fields : List (Field F)) (body : List α) :
    R.header (print fields body) = some (fields.map Field.line, body) := by
  induction fields with
  | nil =>
    have hBlank : F.Plain [] := nofun
    exact header_line hBlank body
  | cons f fields ih =>
    rw [print_cons, header_line f.line_plain, if_neg f.line_ne_nil, ih]
    rfl

variable [DecidableEq α]

/-- The names and values of the header, and the body. -/
def read (R : LineReader F) (s : List α) : Option (List (List α × List α) × List α) :=
  (R.header s).bind fun parts => (parts.1.mapM (cut F.sep)).map fun fields => (fields, parts.2)

/-- What was printed is read back, whatever the body is. -/
theorem read_print (fields : List (Field F)) (body : List α) :
    R.read (print fields body) = some (fields.map Field.pair, body) := by
  rw [read, header_print, Option.bind_some, Field.mapM_cut_line, Option.map_some]

end LineReader

end Format
