import PadlockCloud.Go.Encoding

/-!
# Valid UTF-8

What `encoding/json` makes of the bytes of a string: it walks the runes, keeps those
that are valid and writes the replacement character U+FFFD for each invalid byte.
-/

namespace PadlockCloud

namespace GoString

/-- The first byte of a nonempty string is no rune of one byte, nor the start of a
longer one. -/
def startsInvalid : GoString → Bool
  | [] => false
  | b :: s => runeSize (b :: s) = 1 && 0x80 ≤ b

/-- The walk over the runes, of which there are no more than `n`. -/
def replaceInvalid : Nat → GoString → GoString
  | 0, _ => []
  | _ + 1, [] => []
  | n + 1, b :: s =>
    if startsInvalid (b :: s) then [0xEF, 0xBF, 0xBD] ++ replaceInvalid n s
    else
      (b :: s).take (runeSize (b :: s)) ++ replaceInvalid n ((b :: s).drop (runeSize (b :: s)))

/-- A string after `json.Marshal` and `json.Unmarshal`. -/
def toValid (s : GoString) : GoString := replaceInvalid s.length s

/-- A string is a valid rune, whatever follows it. -/
structure IsRune (rune : GoString) : Prop where
  ne_nil : rune ≠ []
  size : ∀ rest, runeSize (rune ++ rest) = rune.length
  valid : ∀ rest, startsInvalid (rune ++ rest) = false

/-- A sequence of valid runes. -/
inductive IsValid : GoString → Prop where
  | nil : IsValid []
  | cons {rune s : GoString} (hRune : IsRune rune) (hRest : IsValid s) : IsValid (rune ++ s)

/-- A rune takes one byte, or it is decided by its own bytes. -/
theorem runeSize_cases (b : UInt8) (s : GoString) :
    runeSize (b :: s) = 1 ∨
      ∃ t u, t ≠ [] ∧ s = t ++ u ∧ ∀ rest, runeSize (b :: (t ++ rest)) = t.length + 1 := by
  by_cases hTwo : (0xC2 ≤ b && b ≤ 0xDF) = true
  · rcases s with _ | ⟨c, u⟩
    · exact .inl (by rw [runeSize, if_pos hTwo])
    · by_cases hCont : isCont c = true
      · refine .inr ⟨[c], u, List.cons_ne_nil _ _, rfl, fun rest => ?_⟩
        rw [List.singleton_append, runeSize, if_pos hTwo]
        exact if_pos hCont
      · refine .inl ?_
        rw [runeSize, if_pos hTwo]
        exact if_neg hCont
  by_cases hThree : (0xE0 ≤ b && b ≤ 0xEF) = true
  · rcases s with _ | ⟨c, _ | ⟨d, u⟩⟩
    · exact .inl (by rw [runeSize, if_neg hTwo, if_pos hThree])
    · exact .inl (by rw [runeSize, if_neg hTwo, if_pos hThree])
    · by_cases hCont : ((if b = 0xE0 then 0xA0 else 0x80) ≤ c &&
          c ≤ (if b = 0xED then 0x9F else 0xBF) && isCont d) = true
      · refine .inr ⟨[c, d], u, List.cons_ne_nil _ _, rfl, fun rest => ?_⟩
        rw [List.cons_append, List.singleton_append, runeSize, if_neg hTwo, if_pos hThree]
        exact if_pos hCont
      · refine .inl ?_
        rw [runeSize, if_neg hTwo, if_pos hThree]
        exact if_neg hCont
  by_cases hFour : (0xF0 ≤ b && b ≤ 0xF4) = true
  · rcases s with _ | ⟨c, _ | ⟨d, _ | ⟨e, u⟩⟩⟩
    · exact .inl (by rw [runeSize, if_neg hTwo, if_neg hThree, if_pos hFour])
    · exact .inl (by rw [runeSize, if_neg hTwo, if_neg hThree, if_pos hFour])
    · exact .inl (by rw [runeSize, if_neg hTwo, if_neg hThree, if_pos hFour])
    · by_cases hCont : ((if b = 0xF0 then 0x90 else 0x80) ≤ c &&
          c ≤ (if b = 0xF4 then 0x8F else 0xBF) && isCont d && isCont e) = true
      · refine .inr ⟨[c, d, e], u, List.cons_ne_nil _ _, rfl, fun rest => ?_⟩
        rw [List.cons_append, List.cons_append, List.singleton_append, runeSize, if_neg hTwo,
          if_neg hThree, if_pos hFour]
        exact if_pos hCont
      · refine .inl ?_
        rw [runeSize, if_neg hTwo, if_neg hThree, if_pos hFour]
        exact if_neg hCont
  · refine .inl ?_
    rw [runeSize.eq_def]
    dsimp only
    rw [if_neg hTwo, if_neg hThree, if_neg hFour]

/-- An ASCII byte is a rune. -/
theorem runeSize_ascii {b : UInt8} (hAscii : b < 0x80) (s : GoString) : runeSize (b :: s) = 1 := by
  have hSmall : (0xC2 ≤ b && b ≤ 0xDF) = false ∧ (0xE0 ≤ b && b ≤ 0xEF) = false ∧
      (0xF0 ≤ b && b ≤ 0xF4) = false :=
    forall_byte (P := fun b => b < 0x80 → (0xC2 ≤ b && b ≤ 0xDF) = false ∧
      (0xE0 ≤ b && b ≤ 0xEF) = false ∧ (0xF0 ≤ b && b ≤ 0xF4) = false) (by decide +kernel) b hAscii
  rw [runeSize.eq_def]
  simp only [hSmall, Bool.false_eq_true, if_false]

/-- The first rune of a string that starts with a valid one. -/
theorem isRune_take {b : UInt8} {s : GoString} (hValid : startsInvalid (b :: s) = false) :
    IsRune ((b :: s).take (runeSize (b :: s))) := by
  rcases runeSize_cases b s with hOne | ⟨t, u, hNonempty, rfl, hSize⟩
  · have hAscii : b < 0x80 := by
      simpa [startsInvalid, hOne] using hValid
    rw [hOne]
    refine ⟨List.cons_ne_nil _ _, fun rest => runeSize_ascii hAscii rest, fun rest => ?_⟩
    simp [startsInvalid, hAscii]
  · have hTake : (b :: (t ++ u)).take (runeSize (b :: (t ++ u))) = b :: t := by
      rw [hSize, List.take_succ_cons, List.take_left]
    rw [hTake]
    refine ⟨List.cons_ne_nil _ _, hSize, fun rest => ?_⟩
    rw [List.cons_append, startsInvalid, hSize]
    have hLong : 0 < t.length := List.length_pos_of_ne_nil hNonempty
    simp [Nat.ne_of_gt hLong]

/-- The replacement character is a rune. -/
theorem isRune_replacement : IsRune [0xEF, 0xBF, 0xBD] where
  ne_nil := List.cons_ne_nil _ _
  size _ := rfl
  valid _ := rfl

theorem isValid_replaceInvalid (n : Nat) (s : GoString) : IsValid (replaceInvalid n s) := by
  induction n generalizing s with
  | zero => exact .nil
  | succ n ih =>
    cases s with
    | nil => exact .nil
    | cons b s =>
      rw [replaceInvalid]
      split
      · exact .cons isRune_replacement (ih s)
      · rename_i hValid
        exact .cons (isRune_take (Bool.not_eq_true _ ▸ hValid)) (ih _)

/-- What is valid stays. -/
theorem IsValid.replaceInvalid {s : GoString} (hValid : IsValid s) {n : Nat} (hLength : s.length ≤ n) :
    replaceInvalid n s = s := by
  induction hValid generalizing n with
  | nil => cases n <;> rfl
  | @cons rune s hRune hRest ih =>
    obtain ⟨b, t, rfl⟩ := List.exists_cons_of_ne_nil hRune.ne_nil
    cases n with
    | zero => simp at hLength
    | succ n =>
      have hSize := hRune.size s
      have hStart := hRune.valid s
      rw [List.cons_append] at hSize hStart ⊢
      rw [List.cons_append, List.length_cons, List.length_append] at hLength
      rw [GoString.replaceInvalid, hStart, if_neg Bool.false_ne_true, hSize, List.length_cons,
        List.take_succ_cons, List.drop_succ_cons, List.take_left, List.drop_left, ih (by omega)]
      rfl

theorem isValid_ascii {s : GoString} (hAscii : ∀ b ∈ s, b < 0x80) : IsValid s := by
  induction s with
  | nil => exact .nil
  | cons b s ih =>
    have hByte : b < 0x80 := hAscii b List.mem_cons_self
    have hRune : IsRune [b] := by
      refine ⟨List.cons_ne_nil _ _, ?_, ?_⟩
      · exact fun rest => runeSize_ascii hByte rest
      · intro rest
        simp [startsInvalid, hByte]
    exact .cons hRune (ih fun c hc => hAscii c (List.mem_cons_of_mem b hc))

theorem toValid_toValid (s : GoString) : toValid (toValid s) = toValid s :=
  (isValid_replaceInvalid _ s).replaceInvalid (Nat.le_refl _)

theorem toValid_ascii {s : GoString} (hAscii : ∀ b ∈ s, b < 0x80) : toValid s = s :=
  (isValid_ascii hAscii).replaceInvalid (Nat.le_refl _)

end GoString

end PadlockCloud
