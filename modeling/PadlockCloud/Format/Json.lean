import Mathlib.Logic.Basic

/-!
# JSON texts

Values made of strings, arrays and objects as compact JSON text, and a reader for them. How
a string is spelled is left to the writer: a spelling has to be read as what it stands for.
A value whose strings are spelled so is read back, whatever comes behind it.
-/

namespace Format

abbrev Bytes := List UInt8

/-! ## Strings -/

def hexValue (c : UInt8) : Option Nat :=
  if 0x30 ≤ c && c ≤ 0x39 then some (c.toNat - 0x30)
  else if 0x61 ≤ c && c ≤ 0x66 then some (c.toNat - 0x57)
  else if 0x41 ≤ c && c ≤ 0x46 then some (c.toNat - 0x37)
  else none

/-- The bytes of a code point of at most sixteen bits. -/
def utf8 (u : Nat) : Bytes :=
  if u < 0x80 then [UInt8.ofNat u]
  else if u < 0x800 then [UInt8.ofNat (0xC0 + u / 64), UInt8.ofNat (0x80 + u % 64)]
  else
    [UInt8.ofNat (0xE0 + u / 4096), UInt8.ofNat (0x80 + u / 64 % 64), UInt8.ofNat (0x80 + u % 64)]

/-- The code point behind `\u`; surrogates are not taken. -/
def unicode (a b c d : UInt8) : Option Bytes := do
  let a ← hexValue a
  let b ← hexValue b
  let c ← hexValue c
  let d ← hexValue d
  let u := 4096 * a + 256 * b + 16 * c + d
  if 0xD800 ≤ u ∧ u < 0xE000 then none else some (utf8 u)

/-- What a backslash and one more character stand for. -/
def unescape (e : UInt8) : Option UInt8 :=
  if e = 0x22 || e = 0x5C || e = 0x2F then some e
  else if e = 0x62 then some 0x08
  else if e = 0x66 then some 0x0C
  else if e = 0x6E then some 0x0A
  else if e = 0x72 then some 0x0D
  else if e = 0x74 then some 0x09
  else none

/-- Reads up to the closing quote. -/
def readString : Bytes → Option (Bytes × Bytes)
  | [] => none
  | c :: s =>
    if c = 0x22 then some ([], s)
    else if c = 0x5C then
      match s with
      | 0x75 :: a :: b :: c :: d :: s =>
        (unicode a b c d).bind fun rune => (readString s).map fun (t, rest) => (rune ++ t, rest)
      | e :: s => (unescape e).bind fun b => (readString s).map fun (t, rest) => (b :: t, rest)
      | [] => none
    else if c < 0x20 then none
    else (readString s).map fun (t, rest) => (c :: t, rest)

/-- The text between two quotes is read as the string. -/
def Spells (text s : Bytes) : Prop := ∀ rest, readString (text ++ 0x22 :: rest) = some (s, rest)

/-- The byte may stand for itself. -/
def isPlain (c : UInt8) : Bool := c ≠ 0x22 && c ≠ 0x5C && 0x20 ≤ c

namespace Spells

variable {text s : Bytes} {a b c d e : UInt8}

theorem nil : Spells [] [] := by
  intro rest
  rw [List.nil_append, readString.eq_def]
  exact if_pos rfl

theorem plain (hPlain : isPlain c = true) (hRest : Spells text s) :
    Spells (c :: text) (c :: s) := by
  simp only [isPlain, ne_eq, Bool.and_eq_true, decide_eq_true_eq] at hPlain
  obtain ⟨⟨hQuote, hSlash⟩, hControl⟩ := hPlain
  intro rest
  rw [List.cons_append, readString.eq_def]
  dsimp only
  rw [if_neg hQuote, if_neg hSlash, if_neg (UInt8.not_lt.mpr hControl), hRest rest]
  rfl

theorem short (hEscape : unescape e = some b) (hRest : Spells text s) :
    Spells (0x5C :: e :: text) (b :: s) := by
  have hNot : e ≠ 0x75 := by
    rintro rfl
    cases hEscape
  intro rest
  rw [List.cons_append, List.cons_append, readString.eq_def]
  dsimp only
  rw [if_neg (by decide), if_pos rfl]
  split
  · rename_i hEq
    exact absurd (List.cons.inj hEq).1 hNot
  · rename_i hEq
    obtain ⟨rfl, rfl⟩ := List.cons.inj hEq
    rw [hEscape, Option.bind_some, hRest rest]
    rfl
  · rename_i hEq
    cases hEq

theorem rune {r : Bytes} (hRune : unicode a b c d = some r) (hRest : Spells text s) :
    Spells (0x5C :: 0x75 :: a :: b :: c :: d :: text) (r ++ s) := by
  intro rest
  simp only [List.cons_append]
  rw [readString.eq_def]
  dsimp only
  rw [if_neg (by decide), if_pos rfl]
  show (unicode a b c d).bind (fun rune => (readString (text ++ 0x22 :: rest)).map
    fun (t, rest) => (rune ++ t, rest)) = some (r ++ s, rest)
  rw [hRune, Option.bind_some, hRest rest]
  rfl

theorem plain_append {t : Bytes} (hPlain : ∀ c ∈ t, isPlain c = true) (hRest : Spells text s) :
    Spells (t ++ text) (t ++ s) := by
  induction t with
  | nil => exact hRest
  | cons c t ih =>
    apply Spells.plain (hPlain c List.mem_cons_self)
    exact ih fun d hd => hPlain d (List.mem_cons_of_mem c hd)

theorem of_plain (hPlain : ∀ c ∈ s, isPlain c = true) : Spells s s := by
  have hSpells := plain_append hPlain .nil
  rwa [List.append_nil] at hSpells

end Spells

/-! ## Values -/

inductive Value (σ : Type) where
  | str (s : σ)
  | arr (items : List (Value σ))
  | obj (fields : List (σ × Value σ))

namespace Value

variable {σ τ : Type}

mutual

def map (f : σ → τ) : Value σ → Value τ
  | .str s => .str (f s)
  | .arr items => .arr (mapItems f items)
  | .obj fields => .obj (mapFields f fields)

def mapItems (f : σ → τ) : List (Value σ) → List (Value τ)
  | [] => []
  | v :: items => v.map f :: mapItems f items

def mapFields (f : σ → τ) : List (σ × Value σ) → List (τ × Value τ)
  | [] => []
  | (key, v) :: fields => (f key, v.map f) :: mapFields f fields

end

mutual

/-- The text of a value, with a text for each string. -/
def print (text : σ → Bytes) : Value σ → Bytes
  | .str s => 0x22 :: text s ++ [0x22]
  | .arr items => 0x5B :: printItems text items ++ [0x5D]
  | .obj fields => 0x7B :: printFields text fields ++ [0x7D]

def printItems (text : σ → Bytes) : List (Value σ) → Bytes
  | [] => []
  | [v] => v.print text
  | v :: items => v.print text ++ 0x2C :: printItems text items

def printFields (text : σ → Bytes) : List (σ × Value σ) → Bytes
  | [] => []
  | [(key, v)] => 0x22 :: text key ++ 0x22 :: 0x3A :: v.print text
  | (key, v) :: fields =>
    0x22 :: text key ++ 0x22 :: 0x3A :: v.print text ++ 0x2C :: printFields text fields

end

/-- Reads one character. -/
def expect (c : UInt8) : Bytes → Option Bytes
  | [] => none
  | d :: s => if d = c then some s else none

mutual

/-- Reads a value that is nested less deep than `n`. -/
def read : Nat → Bytes → Option (Value Bytes × Bytes)
  | 0, _ => none
  | _ + 1, [] => none
  | n + 1, c :: s =>
    if c = 0x22 then (readString s).map fun (t, rest) => (.str t, rest)
    else if c = 0x5B then
      match expect 0x5D s with
      | some rest => some (.arr [], rest)
      | none => (readItems n s).map fun (items, rest) => (.arr items, rest)
    else if c = 0x7B then
      match expect 0x7D s with
      | some rest => some (.obj [], rest)
      | none => (readFields n s).map fun (fields, rest) => (.obj fields, rest)
    else none

def readItems : Nat → Bytes → Option (List (Value Bytes) × Bytes)
  | 0, _ => none
  | n + 1, s => do
    let (v, s) ← read n s
    match expect 0x5D s with
    | some rest => some ([v], rest)
    | none => do
      let s ← expect 0x2C s
      let (items, rest) ← readItems n s
      some (v :: items, rest)

def readFields : Nat → Bytes → Option (List (Bytes × Value Bytes) × Bytes)
  | 0, _ => none
  | n + 1, s => do
    let s ← expect 0x22 s
    let (key, s) ← readString s
    let s ← expect 0x3A s
    let (v, s) ← read n s
    match expect 0x7D s with
    | some rest => some ([(key, v)], rest)
    | none => do
      let s ← expect 0x2C s
      let (fields, rest) ← readFields n s
      some ((key, v) :: fields, rest)

end

/-! ## The round trip -/

theorem print_cons (text : σ → Bytes) (v : Value σ) :
    ∃ c s, v.print text = c :: s ∧ c ≠ 0x5D := by
  cases v with
  | str s => exact ⟨_, _, rfl, by decide⟩
  | arr items => exact ⟨_, _, rfl, by decide⟩
  | obj fields => exact ⟨_, _, rfl, by decide⟩

/-- The items stand before the closing bracket, and none of them starts with it. -/
theorem printItems_cons (text : σ → Bytes) (v : Value σ) (items : List (Value σ)) :
    ∃ c s, printItems text (v :: items) = c :: s ∧ c ≠ 0x5D := by
  obtain ⟨c, s, hText, hBracket⟩ := print_cons text v
  cases items with
  | nil => exact ⟨c, s, hText, hBracket⟩
  | cons w items =>
    refine ⟨c, s ++ 0x2C :: printItems text (w :: items), ?_, hBracket⟩
    rw [printItems, hText, List.cons_append]
    exact fun hNil => by cases hNil

section RoundTrip

variable {text mean : σ → Bytes} {n : Nat}

theorem expect_cons (c : UInt8) (s : Bytes) : expect c (c :: s) = some s := if_pos rfl

theorem expect_other {c d : UInt8} (hOther : d ≠ c) (s : Bytes) : expect c (d :: s) = none :=
  if_neg hOther

theorem read_str (hSpells : ∀ s, Spells (text s) (mean s)) (s : σ) (rest : Bytes) :
    read (n + 1) ((Value.str s).print text ++ rest) = some ((Value.str s).map mean, rest) := by
  have hText : (Value.str s).print text ++ rest = 0x22 :: (text s ++ 0x22 :: rest) := by
    simp [print]
  rw [hText, read, if_pos rfl, hSpells s rest]
  rfl

theorem read_arr {items : List (Value σ)} {rest : Bytes}
    (hItems : items ≠ [] → readItems n (printItems text items ++ 0x5D :: rest) =
      some (mapItems mean items, rest)) :
    read (n + 1) ((Value.arr items).print text ++ rest) =
      some ((Value.arr items).map mean, rest) := by
  have hText : (Value.arr items).print text ++ rest =
      0x5B :: (printItems text items ++ 0x5D :: rest) := by
    simp [print]
  rw [hText, read, if_neg (by decide), if_pos rfl]
  cases items with
  | nil => rfl
  | cons v items =>
    obtain ⟨c, s, hStart, hBracket⟩ := printItems_cons text v items
    have hNone : expect 0x5D (printItems text (v :: items) ++ 0x5D :: rest) = none := by
      rw [hStart]
      exact expect_other hBracket _
    rw [hNone, hItems (List.cons_ne_nil _ _)]
    rfl

theorem read_obj {fields : List (σ × Value σ)} {rest : Bytes}
    (hFields : fields ≠ [] → readFields n (printFields text fields ++ 0x7D :: rest) =
      some (mapFields mean fields, rest)) :
    read (n + 1) ((Value.obj fields).print text ++ rest) =
      some ((Value.obj fields).map mean, rest) := by
  have hText : (Value.obj fields).print text ++ rest =
      0x7B :: (printFields text fields ++ 0x7D :: rest) := by
    simp [print]
  rw [hText, read, if_neg (by decide), if_neg (by decide), if_pos rfl]
  cases fields with
  | nil => rfl
  | cons field fields =>
    have hNone : expect 0x7D (printFields text (field :: fields) ++ 0x7D :: rest) = none := by
      cases fields <;> exact expect_other (by decide) _
    rw [hNone, hFields (List.cons_ne_nil _ _)]
    rfl

mutual

/-- A value is read back from its text, whatever comes behind it. -/
theorem read_print (hSpells : ∀ s, Spells (text s) (mean s)) (v : Value σ) {n : Nat}
    (hFuel : (v.print text).length ≤ n) (rest : Bytes) :
    read n (v.print text ++ rest) = some (v.map mean, rest) := by
  match v with
  | .str s =>
    obtain ⟨n, rfl⟩ := Nat.exists_eq_succ_of_ne_zero (show n ≠ 0 by simp [print] at hFuel; omega)
    exact read_str hSpells s rest
  | .arr items =>
    obtain ⟨n, rfl⟩ := Nat.exists_eq_succ_of_ne_zero (show n ≠ 0 by simp [print] at hFuel; omega)
    refine read_arr fun hItems => readItems_print hSpells items hItems ?_ rest
    simp [print] at hFuel
    omega
  | .obj fields =>
    obtain ⟨n, rfl⟩ := Nat.exists_eq_succ_of_ne_zero (show n ≠ 0 by simp [print] at hFuel; omega)
    refine read_obj fun hFields => readFields_print hSpells fields hFields ?_ rest
    simp [print] at hFuel
    omega

theorem readItems_print (hSpells : ∀ s, Spells (text s) (mean s)) (items : List (Value σ))
    (hItems : items ≠ []) {n : Nat} (hFuel : (printItems text items).length + 1 ≤ n)
    (rest : Bytes) : readItems n (printItems text items ++ 0x5D :: rest) =
      some (mapItems mean items, rest) := by
  obtain ⟨n, rfl⟩ := Nat.exists_eq_succ_of_ne_zero (show n ≠ 0 by omega)
  match items with
  | [] => exact absurd rfl hItems
  | [v] =>
    have hText : printItems text [v] = v.print text := rfl
    rw [hText] at hFuel ⊢
    rw [readItems, read_print hSpells v (by omega), Option.bind_eq_bind, Option.bind_some]
    dsimp only
    rw [expect_cons]
    rfl
  | v :: w :: items =>
    have hText : printItems text (v :: w :: items) ++ 0x5D :: rest =
        v.print text ++ 0x2C :: (printItems text (w :: items) ++ 0x5D :: rest) := by
      simp [printItems]
    simp only [printItems, List.length_append, List.length_cons] at hFuel
    have hItems := readItems_print hSpells (w :: items) (List.cons_ne_nil _ _)
      (show (printItems text (w :: items)).length + 1 ≤ n by omega) rest
    rw [hText, readItems, read_print hSpells v (by omega)]
    simp only [Option.bind_eq_bind, Option.bind_some, expect_cons, hItems,
      expect_other (show (0x2C : UInt8) ≠ 0x5D by decide)]
    rfl

theorem readFields_print (hSpells : ∀ s, Spells (text s) (mean s)) (fields : List (σ × Value σ))
    (hFields : fields ≠ []) {n : Nat} (hFuel : (printFields text fields).length + 1 ≤ n)
    (rest : Bytes) : readFields n (printFields text fields ++ 0x7D :: rest) =
      some (mapFields mean fields, rest) := by
  obtain ⟨n, rfl⟩ := Nat.exists_eq_succ_of_ne_zero (show n ≠ 0 by omega)
  match fields with
  | [] => exact absurd rfl hFields
  | [(key, v)] =>
    have hText : printFields text [(key, v)] ++ 0x7D :: rest =
        0x22 :: (text key ++ 0x22 :: 0x3A :: (v.print text ++ 0x7D :: rest)) := by
      simp [printFields]
    simp only [printFields, List.length_append, List.length_cons] at hFuel
    rw [hText, readFields]
    simp only [expect_cons, hSpells key _, read_print hSpells v (show _ ≤ n by omega),
      Option.bind_eq_bind, Option.bind_some]
    rfl
  | (key, v) :: field :: fields =>
    have hText : printFields text ((key, v) :: field :: fields) ++ 0x7D :: rest =
        0x22 :: (text key ++ 0x22 :: 0x3A :: (v.print text ++
          0x2C :: (printFields text (field :: fields) ++ 0x7D :: rest))) := by
      simp [printFields]
    simp only [printFields, List.length_append, List.length_cons] at hFuel
    have hFields := readFields_print hSpells (field :: fields) (List.cons_ne_nil _ _)
      (show (printFields text (field :: fields)).length + 1 ≤ n by omega) rest
    rw [hText, readFields]
    simp only [expect_cons, hSpells key _, read_print hSpells v (show _ ≤ n by omega),
      Option.bind_eq_bind, Option.bind_some, expect_other (show (0x2C : UInt8) ≠ 0x7D by decide),
      hFields]
    rfl

end

end RoundTrip

/-- The value that is the whole text. -/
def parse (s : Bytes) : Option (Value Bytes) :=
  match read s.length s with
  | some (v, []) => some v
  | _ => none

theorem parse_print {text mean : σ → Bytes} (hSpells : ∀ s, Spells (text s) (mean s))
    (v : Value σ) : parse (v.print text) = some (v.map mean) := by
  have hRead := read_print hSpells v (Nat.le_refl _) []
  rw [List.append_nil] at hRead
  rw [parse, hRead]

end Value

end Format
