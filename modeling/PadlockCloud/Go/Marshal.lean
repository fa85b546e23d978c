import PadlockCloud.Format.Json
import PadlockCloud.Go.Utf8

/-!
# Strings as JSON

How `json.Marshal` spells a string: it walks the runes, escapes what JSON or HTML would
take for something else and writes `\ufffd` for an invalid byte. Its spelling is read as the
string with the invalid bytes replaced.
-/

namespace PadlockCloud

open Format

namespace GoString

/-- The escapes of two characters. -/
def shortEscape (b : UInt8) : Option UInt8 :=
  if b = 0x22 || b = 0x5C then some b
  else if b = 0x0A then some 0x6E
  else if b = 0x0D then some 0x72
  else if b = 0x09 then some 0x74
  else none

/-- An ASCII byte. The angle brackets and the ampersand are escaped for HTML. -/
def escapeByte (b : UInt8) : GoString :=
  match shortEscape b with
  | some e => [0x5C, e]
  | none =>
    if b < 0x20 || b = 0x3C || b = 0x3E || b = 0x26 then
      [0x5C, 0x75, 0x30, 0x30, hexChar (b >>> 4), hexChar (b &&& 0x0F)]
    else [b]

/-- A rune of several bytes. The two line separators end a line in JavaScript. -/
def escapeRune (rune : GoString) : GoString :=
  if rune = [0xE2, 0x80, 0xA8] then [0x5C, 0x75, 0x32, 0x30, 0x32, 0x38]
  else if rune = [0xE2, 0x80, 0xA9] then [0x5C, 0x75, 0x32, 0x30, 0x32, 0x39]
  else rune

/-- The walk over the runes, of which there are no more than `n`. -/
def escapeRunes : Nat → GoString → GoString
  | 0, _ => []
  | _ + 1, [] => []
  | n + 1, b :: s =>
    if b < 0x80 then escapeByte b ++ escapeRunes n s
    else if startsInvalid (b :: s) then
      [0x5C, 0x75, 0x66, 0x66, 0x66, 0x64] ++ escapeRunes n s
    else
      escapeRune ((b :: s).take (runeSize (b :: s))) ++
        escapeRunes n ((b :: s).drop (runeSize (b :: s)))

/-- What `json.Marshal` writes between the quotes. -/
def escape (s : GoString) : GoString := escapeRunes s.length s

theorem spells_escapeByte {b : UInt8} {text s : GoString} (hAscii : b < 0x80)
    (hRest : Spells text s) : Spells (escapeByte b ++ text) (b :: s) := by
  unfold escapeByte
  cases hShort : shortEscape b with
  | some e =>
    have hEscape : (shortEscape b).all fun e => unescape e = some b :=
      forall_byte (P := fun b => (shortEscape b).all fun e => unescape e = some b)
        (by decide +kernel) b
    rw [hShort, Option.all_some, decide_eq_true_eq] at hEscape
    exact .short hEscape hRest
  | none =>
    dsimp only
    split
    · have hUnicode : unicode 0x30 0x30 (hexChar (b >>> 4)) (hexChar (b &&& 0x0F)) = some [b] :=
        forall_byte (P := fun b => b < 0x80 →
          unicode 0x30 0x30 (hexChar (b >>> 4)) (hexChar (b &&& 0x0F)) = some [b])
          (by decide +kernel) b hAscii
      exact .rune hUnicode hRest
    · rename_i hOther
      have hPlain : isPlain b = true :=
        forall_byte (P := fun b => shortEscape b = none →
          ¬(b < 0x20 || b = 0x3C || b = 0x3E || b = 0x26) = true → isPlain b = true)
          (by decide +kernel) b hShort hOther
      exact .plain hPlain hRest

theorem high_of_isCont {d : UInt8} (hCont : isCont d = true) : 0x80 ≤ d := by
  simp only [isCont, Bool.and_eq_true, decide_eq_true_eq] at hCont
  exact hCont.1

/-- Behind its first byte a rune has no ASCII byte. -/
theorem runeSize_tail (b : UInt8) (s : GoString) :
    ∃ t u, s = t ++ u ∧ runeSize (b :: s) = t.length + 1 ∧ ∀ d ∈ t, 0x80 ≤ d := by
  have hOne (hSize : runeSize (b :: s) = 1) :
      ∃ t u, s = t ++ u ∧ runeSize (b :: s) = t.length + 1 ∧ ∀ d ∈ t, 0x80 ≤ d :=
    ⟨[], s, rfl, hSize, fun _ hNil => by cases hNil⟩
  by_cases hTwo : (0xC2 ≤ b && b ≤ 0xDF) = true
  · rcases s with _ | ⟨c, u⟩
    · exact hOne (by rw [runeSize, if_pos hTwo])
    · by_cases hCont : isCont c = true
      · refine ⟨[c], u, rfl, ?_, fun d hd => ?_⟩
        · rw [runeSize, if_pos hTwo]
          exact if_pos hCont
        · rw [List.mem_singleton.mp hd]
          exact high_of_isCont hCont
      · refine hOne ?_
        rw [runeSize, if_pos hTwo]
        exact if_neg hCont
  by_cases hThree : (0xE0 ≤ b && b ≤ 0xEF) = true
  · rcases s with _ | ⟨c, _ | ⟨d, u⟩⟩
    · exact hOne (by rw [runeSize, if_neg hTwo, if_pos hThree])
    · exact hOne (by rw [runeSize, if_neg hTwo, if_pos hThree])
    · by_cases hCont : ((if b = 0xE0 then 0xA0 else 0x80) ≤ c &&
          c ≤ (if b = 0xED then 0x9F else 0xBF) && isCont d) = true
      · refine ⟨[c, d], u, rfl, ?_, fun e he => ?_⟩
        · rw [runeSize, if_neg hTwo, if_pos hThree]
          exact if_pos hCont
        · simp only [Bool.and_eq_true, decide_eq_true_eq] at hCont
          rcases List.mem_pair.mp he with rfl | rfl
          · refine UInt8.le_trans ?_ hCont.1.1
            split <;> decide
          · exact high_of_isCont hCont.2
      · refine hOne ?_
        rw [runeSize, if_neg hTwo, if_pos hThree]
        exact if_neg hCont
  by_cases hFour : (0xF0 ≤ b && b ≤ 0xF4) = true
  · rcases s with _ | ⟨c, _ | ⟨d, _ | ⟨e, u⟩⟩⟩
    · exact hOne (by rw [runeSize, if_neg hTwo, if_neg hThree, if_pos hFour])
    · exact hOne (by rw [runeSize, if_neg hTwo, if_neg hThree, if_pos hFour])
    · exact hOne (by rw [runeSize, if_neg hTwo, if_neg hThree, if_pos hFour])
    · by_cases hCont : ((if b = 0xF0 then 0x90 else 0x80) ≤ c &&
          c ≤ (if b = 0xF4 then 0x8F else 0xBF) && isCont d && isCont e) = true
      · refine ⟨[c, d, e], u, rfl, ?_, fun f hf => ?_⟩
        · rw [runeSize, if_neg hTwo, if_neg hThree, if_pos hFour]
          exact if_pos hCont
        · simp only [Bool.and_eq_true, decide_eq_true_eq] at hCont
          simp only [List.mem_cons, List.not_mem_nil, or_false] at hf
          rcases hf with rfl | rfl | rfl
          · refine UInt8.le_trans ?_ hCont.1.1.1
            split <;> decide
          · exact high_of_isCont hCont.1.2
          · exact high_of_isCont hCont.2
      · refine hOne ?_
        rw [runeSize, if_neg hTwo, if_neg hThree, if_pos hFour]
        exact if_neg hCont
  · refine hOne ?_
    rw [runeSize.eq_def]
    dsimp only
    rw [if_neg hTwo, if_neg hThree, if_neg hFour]

theorem isPlain_of_high {c : UInt8} (hHigh : 0x80 ≤ c) : isPlain c = true :=
  forall_byte (P := fun c => 0x80 ≤ c → isPlain c = true) (by decide +kernel) c hHigh

theorem spells_escapeRune {rune text s : GoString} (hHigh : ∀ c ∈ rune, 0x80 ≤ c)
    (hRest : Spells text s) : Spells (escapeRune rune ++ text) (rune ++ s) := by
  unfold escapeRune
  split
  · rename_i hLine
    rw [hLine]
    exact .rune (by decide) hRest
  · split
    · rename_i hParagraph
      rw [hParagraph]
      exact .rune (by decide) hRest
    · exact Spells.plain_append (fun c hc => isPlain_of_high (hHigh c hc)) hRest

theorem spells_escapeRunes (n : Nat) (s : GoString) :
    Spells (escapeRunes n s) (replaceInvalid n s) := by
  induction n generalizing s with
  | zero => exact .nil
  | succ n ih =>
    cases s with
    | nil => exact .nil
    | cons b s =>
      rw [escapeRunes, replaceInvalid]
      by_cases hAscii : b < 0x80
      · have hSize := runeSize_ascii hAscii s
        have hValid : ¬startsInvalid (b :: s) = true := by
          simp [startsInvalid, UInt8.not_le.mpr hAscii]
        rw [if_pos hAscii, if_neg hValid, hSize]
        exact spells_escapeByte hAscii (ih s)
      · rw [if_neg hAscii]
        split
        · exact .rune (by decide) (ih s)
        · apply spells_escapeRune _ (ih _)
          obtain ⟨t, u, rfl, hSize, hTail⟩ := runeSize_tail b s
          rw [hSize, List.take_succ_cons, List.take_left]
          intro c hc
          rcases List.mem_cons.mp hc with rfl | hc
          · exact UInt8.not_lt.mp hAscii
          · exact hTail c hc

/-- The spelling of a string is read as the string with its invalid bytes replaced. -/
theorem spells_escape (s : GoString) : Spells (escape s) (toValid s) := spells_escapeRunes _ s

end GoString

end PadlockCloud
