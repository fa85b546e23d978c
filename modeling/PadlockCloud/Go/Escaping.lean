import PadlockCloud.Go.Url

/-!
# What escaping preserves

Percent escapes are undone by `unescape`, whoever wrote them: `escape`, when a
URL is printed, and `hexEscapeNonASCII`, when it is sent. Separators of a URL
cannot be part of an escape, so a string can be taken apart at them before or
after it is unescaped.
-/

namespace PadlockCloud

namespace Url

/-- Neither a control character nor DEL. -/
def printable (c : UInt8) : Bool := 0x20 ≤ c && c ≠ 0x7F

theorem hasControlByte_eq_false {s : GoString} :
    hasControlByte s = false ↔ ∀ c ∈ s, printable c = true := by
  simp [hasControlByte, printable, UInt8.not_lt]

theorem hasControlByte_append {s t : GoString} :
    hasControlByte (s ++ t) = (hasControlByte s || hasControlByte t) := List.any_append

/-! ## `unescape` -/

@[simp] theorem unescape_nil : unescape [] = some [] := rfl

theorem unescape_cons {c : UInt8} (s : GoString) (hPercent : c ≠ byte '%') :
    unescape (c :: s) = (unescape s).map (c :: ·) := by
  rw [unescape.eq_def]
  exact if_neg hPercent

theorem unescape_percent {a b high low : UInt8} (s : GoString) (hHigh : unhex a = some high)
    (hLow : unhex b = some low) :
    unescape (byte '%' :: a :: b :: s) = (unescape s).map ((high * 16 + low) :: ·) := by
  rw [unescape.eq_def]
  simp only [↓reduceIte, hHigh, hLow]

/-- The strings that are unescaped, with their results: bytes that stand for
themselves, and escapes. -/
inductive Escaped : GoString → GoString → Prop where
  | nil : Escaped [] []
  | plain {c : UInt8} {s t : GoString} (hPercent : c ≠ byte '%') (rest : Escaped s t) :
      Escaped (c :: s) (c :: t)
  | escape {a b high low : UInt8} {s t : GoString} (hHigh : unhex a = some high)
      (hLow : unhex b = some low) (rest : Escaped s t) :
      Escaped (byte '%' :: a :: b :: s) ((high * 16 + low) :: t)

theorem Escaped.unescape {s t : GoString} (hEscaped : Escaped s t) : unescape s = some t := by
  induction hEscaped with
  | nil => rfl
  | plain hPercent _ ih => rw [unescape_cons _ hPercent, ih, Option.map_some]
  | escape hHigh hLow _ ih => rw [unescape_percent _ hHigh hLow, ih, Option.map_some]

theorem escaped_of_unescape {s t : GoString} (hUnescape : Url.unescape s = some t) :
    Escaped s t := by
  fun_induction Url.unescape s generalizing t with
  | case1 =>
    obtain rfl := Option.some.inj hUnescape
    exact .nil
  | case2 a b s high low hLow hHigh ih =>
    obtain ⟨t', hRest, rfl⟩ := Option.map_eq_some_iff.mp hUnescape
    exact .escape hHigh hLow (ih hRest)
  | case5 c s hPercent ih =>
    obtain ⟨t', hRest, rfl⟩ := Option.map_eq_some_iff.mp hUnescape
    exact .plain hPercent (ih hRest)
  | case3 | case4 => cases hUnescape

theorem unescape_eq_some {s t : GoString} : Url.unescape s = some t ↔ Escaped s t :=
  ⟨escaped_of_unescape, Escaped.unescape⟩

namespace Escaped

/-- Parts can be unescaped one by one. -/
theorem append {s s' t t' : GoString} (hFirst : Escaped s s') (hSecond : Escaped t t') :
    Escaped (s ++ t) (s' ++ t') := by
  induction hFirst with
  | nil => exact hSecond
  | plain hPercent _ ih => exact .plain hPercent ih
  | escape hHigh hLow _ ih => exact .escape hHigh hLow ih

/-- A byte that is no part of an escape separates what is unescaped. -/
theorem split {c : UInt8} {s t u : GoString} (hHex : unhex c = none) (hPercent : c ≠ byte '%')
    (hEscaped : Escaped (s ++ c :: t) u) :
    ∃ s' t', Escaped s s' ∧ Escaped t t' ∧ u = s' ++ c :: t' := by
  generalize hWhole : s ++ c :: t = whole at hEscaped
  induction hEscaped generalizing s with
  | nil => simp at hWhole
  | @plain d rest u hOther hRest ih =>
    match s with
    | [] =>
      obtain ⟨rfl, rfl⟩ := List.cons.inj hWhole
      exact ⟨[], u, .nil, hRest, rfl⟩
    | d' :: s =>
      simp only [List.cons_append, List.cons.injEq] at hWhole
      obtain ⟨rfl, rfl⟩ := hWhole
      obtain ⟨s', t', hFirst, hSecond, rfl⟩ := ih rfl
      exact ⟨_ :: s', t', .plain hOther hFirst, hSecond, rfl⟩
  | @escape a b high low rest u hHigh hLow hRest ih =>
    match s with
    | [] => exact absurd (List.cons.inj hWhole).1 hPercent
    | [_] =>
      simp only [List.cons_append, List.nil_append, List.cons.injEq] at hWhole
      simp [← hWhole.2.1, hHex] at hHigh
    | [_, _] =>
      simp only [List.cons_append, List.nil_append, List.cons.injEq] at hWhole
      simp [← hWhole.2.2.1, hHex] at hLow
    | _ :: _ :: _ :: s =>
      simp only [List.cons_append, List.cons.injEq] at hWhole
      obtain ⟨rfl, rfl, rfl, rfl⟩ := hWhole
      obtain ⟨s', t', hFirst, hSecond, rfl⟩ := ih rfl
      exact ⟨_ :: s', t', .escape hHigh hLow hFirst, hSecond, rfl⟩

/-- A string that is unescaped consists of the bytes of the result, percent
signs and hexadecimal digits. -/
theorem mem {s t : GoString} (hEscaped : Escaped s t) {c : UInt8} (hc : c ∈ s) :
    c ∈ t ∨ c = byte '%' ∨ (unhex c).isSome := by
  induction hEscaped with
  | nil => simp at hc
  | plain hPercent _ ih =>
    rcases List.mem_cons.mp hc with rfl | hc
    · exact .inl List.mem_cons_self
    · exact (ih hc).imp_left (List.mem_cons_of_mem _)
  | escape hHigh hLow _ ih =>
    simp only [List.mem_cons] at hc
    rcases hc with rfl | rfl | rfl | hc
    · exact .inr (.inl rfl)
    · exact .inr (.inr (by simp [hHigh]))
    · exact .inr (.inr (by simp [hLow]))
    · exact (ih hc).imp_left (List.mem_cons_of_mem _)

end Escaped

/-! ## `escape` -/

theorem unhex_upperHex (c : UInt8) :
    ∃ high low, unhex (upperHex (c >>> 4)) = some high ∧ unhex (upperHex (c &&& 0x0F)) = some low ∧
      high * 16 + low = c := by
  have hByte : ((unhex (upperHex (c >>> 4))).bind fun high =>
      (unhex (upperHex (c &&& 0x0F))).map fun low => high * 16 + low) = some c :=
    forall_byte (P := fun c => ((unhex (upperHex (c >>> 4))).bind fun high =>
      (unhex (upperHex (c &&& 0x0F))).map fun low => high * 16 + low) = some c)
      (by decide +kernel) c
  simpa [Option.bind_eq_some_iff] using hByte

theorem unhex_hexChar (c : UInt8) :
    ∃ high low, unhex (hexChar (c >>> 4)) = some high ∧ unhex (hexChar (c &&& 0x0F)) = some low ∧
      high * 16 + low = c := by
  have hByte : ((unhex (hexChar (c >>> 4))).bind fun high =>
      (unhex (hexChar (c &&& 0x0F))).map fun low => high * 16 + low) = some c :=
    forall_byte (P := fun c => ((unhex (hexChar (c >>> 4))).bind fun high =>
      (unhex (hexChar (c &&& 0x0F))).map fun low => high * 16 + low) = some c)
      (by decide +kernel) c
  simpa [Option.bind_eq_some_iff] using hByte

/-- Escaping a path or a fragment is undone. -/
theorem escaped_escape {mode : Encoding} (hMode : mode ≠ .queryComponent) (s : GoString) :
    Escaped (escape mode s) s := by
  induction s with
  | nil => exact .nil
  | cons c s ih =>
    rw [escape, List.flatMap_cons, if_neg (fun h => hMode h.1)]
    split
    · obtain ⟨high, low, hHigh, hLow, rfl⟩ := unhex_upperHex c
      exact .escape hHigh hLow ih
    · rename_i hPlain
      refine .plain ?_ ih
      rintro rfl
      apply hPlain
      cases mode <;> decide

end Url

/-! ## `hexEscapeNonASCII` -/

open Url

theorem hexEscapeNonASCII_append (s t : GoString) :
    hexEscapeNonASCII (s ++ t) = hexEscapeNonASCII s ++ hexEscapeNonASCII t := List.flatMap_append

theorem hexEscapeNonASCII_cons {c : UInt8} (s : GoString) (hAscii : c < 0x80) :
    hexEscapeNonASCII (c :: s) = c :: hexEscapeNonASCII s := by
  rw [hexEscapeNonASCII, List.flatMap_cons, if_pos hAscii]
  rfl

theorem hexEscapeNonASCII_cons_high {c : UInt8} (s : GoString) (hHigh : ¬c < 0x80) :
    hexEscapeNonASCII (c :: s) =
      byte '%' :: hexChar (c >>> 4) :: hexChar (c &&& 0x0F) :: hexEscapeNonASCII s := by
  rw [hexEscapeNonASCII, List.flatMap_cons, if_neg hHigh]
  rfl

theorem hexEscapeNonASCII_ascii {s : GoString} (hAscii : ∀ c ∈ s, c < 0x80) :
    hexEscapeNonASCII s = s := by
  induction s with
  | nil => rfl
  | cons c s ih =>
    rw [hexEscapeNonASCII_cons s (hAscii c List.mem_cons_self),
      ih fun d hd => hAscii d (List.mem_cons_of_mem c hd)]

/-- What is sent is made of the ASCII bytes of the string, and of escapes. -/
theorem mem_hexEscapeNonASCII {s : GoString} {c : UInt8} (hc : c ∈ hexEscapeNonASCII s) :
    c ∈ s ∧ c < 0x80 ∨ c = byte '%' ∨ (unhex c).isSome := by
  obtain ⟨d, hd, hc⟩ := List.mem_flatMap.mp hc
  split at hc
  · rename_i hAscii
    rw [List.mem_singleton.mp hc]
    exact .inl ⟨hd, hAscii⟩
  · obtain ⟨high, low, hHigh, hLow, -⟩ := unhex_hexChar d
    simp only [List.mem_cons, List.not_mem_nil, or_false] at hc
    rcases hc with rfl | rfl | rfl
    · exact .inr (.inl rfl)
    · exact .inr (.inr (by simp [hHigh]))
    · exact .inr (.inr (by simp [hLow]))

/-- A separator is sent only where it stood. -/
theorem mem_hexEscapeNonASCII_separator {s : GoString} {c : UInt8} (hHex : unhex c = none)
    (hPercent : c ≠ byte '%') (hc : c ∈ hexEscapeNonASCII s) : c ∈ s := by
  rcases mem_hexEscapeNonASCII hc with hc | rfl | hSome
  · exact hc.1
  · exact absurd rfl hPercent
  · simp [hHex] at hSome

theorem mem_hexEscapeNonASCII_of_ascii {s : GoString} {c : UInt8} (hc : c ∈ s)
    (hAscii : c < 0x80) : c ∈ hexEscapeNonASCII s :=
  List.mem_flatMap.mpr ⟨c, hc, by simp [hAscii]⟩

theorem unhex_ascii {c n : UInt8} (hHex : unhex c = some n) : c < 0x80 := by
  have hByte : (unhex c).isSome → c < 0x80 :=
    forall_byte (P := fun c => (unhex c).isSome → c < 0x80) (by decide +kernel) c
  exact hByte (by simp [hHex])

/-- The first byte that is sent stands for itself, or it starts the escape of a byte. -/
theorem hexEscapeNonASCII_eq_cons {s rest : GoString} {a : UInt8}
    (hSent : hexEscapeNonASCII s = a :: rest) :
    ∃ c s', s = c :: s' ∧
      (c < 0x80 ∧ c = a ∧ hexEscapeNonASCII s' = rest ∨
        ¬c < 0x80 ∧ byte '%' = a ∧
          hexChar (c >>> 4) :: hexChar (c &&& 0x0F) :: hexEscapeNonASCII s' = rest) := by
  cases s with
  | nil => cases hSent
  | cons c s' =>
    refine ⟨c, s', rfl, ?_⟩
    by_cases hAscii : c < 0x80
    · rw [hexEscapeNonASCII_cons s' hAscii] at hSent
      exact .inl ⟨hAscii, List.cons.inj hSent⟩
    · rw [hexEscapeNonASCII_cons_high s' hAscii] at hSent
      exact .inr ⟨hAscii, List.cons.inj hSent⟩

theorem hexEscapeNonASCII_eq_nil {s : GoString} (hSent : hexEscapeNonASCII s = []) : s = [] := by
  cases s with
  | nil => rfl
  | cons c s =>
    by_cases hAscii : c < 0x80
    · rw [hexEscapeNonASCII_cons s hAscii] at hSent
      cases hSent
    · rw [hexEscapeNonASCII_cons_high s hAscii] at hSent
      cases hSent

/-- A hexadecimal digit that is sent stood in the string. -/
theorem hexEscapeNonASCII_digit {s rest : GoString} {a n : UInt8}
    (hSent : hexEscapeNonASCII s = a :: rest) (hHex : unhex a = some n) :
    ∃ s', s = a :: s' ∧ hexEscapeNonASCII s' = rest := by
  rcases hexEscapeNonASCII_eq_cons hSent with ⟨c, s', rfl, ⟨-, rfl, hRest⟩ | ⟨-, rfl, -⟩⟩
  · exact ⟨s', rfl, hRest⟩
  · cases hHex

theorem escaped_of_sent {s sent t : GoString} (hSent : hexEscapeNonASCII s = sent)
    (hEscaped : Escaped sent t) : Escaped s t := by
  induction hEscaped generalizing s with
  | nil =>
    rw [hexEscapeNonASCII_eq_nil hSent]
    exact .nil
  | @plain d rest t hPercent _ ih =>
    rcases hexEscapeNonASCII_eq_cons hSent with ⟨c, s₁, rfl, ⟨-, rfl, hRest⟩ | ⟨-, rfl, -⟩⟩
    · exact .plain hPercent (ih hRest)
    · exact absurd rfl hPercent
  | @escape a b high low rest t hHigh hLow _ ih =>
    rcases hexEscapeNonASCII_eq_cons hSent with ⟨c, s₁, rfl, ⟨-, rfl, hTail⟩ | ⟨hAscii, -, hTail⟩⟩
    · obtain ⟨s₂, rfl, hTail'⟩ := hexEscapeNonASCII_digit hTail hHigh
      obtain ⟨s₃, rfl, hRest⟩ := hexEscapeNonASCII_digit hTail' hLow
      exact .escape hHigh hLow (ih hRest)
    · -- What is unescaped is the byte that was escaped for sending.
      simp only [List.cons.injEq] at hTail
      obtain ⟨rfl, rfl, hRest⟩ := hTail
      obtain ⟨high', low', hHigh', hLow', hByte⟩ := unhex_hexChar c
      rw [Option.some.inj (hHigh.symm.trans hHigh'), Option.some.inj (hLow.symm.trans hLow'), hByte]
      refine .plain ?_ (ih hRest)
      rintro rfl
      exact hAscii (by decide)

theorem sent_of_escaped {s t : GoString} (hEscaped : Escaped s t) :
    Escaped (hexEscapeNonASCII s) t := by
  induction hEscaped with
  | nil => exact .nil
  | @plain c s t hPercent _ ih =>
    by_cases hAscii : c < 0x80
    · rw [hexEscapeNonASCII_cons s hAscii]
      exact .plain hPercent ih
    · obtain ⟨high, low, hHigh, hLow, hByte⟩ := unhex_hexChar c
      have hEscape := Escaped.escape hHigh hLow ih
      rwa [hByte, ← hexEscapeNonASCII_cons_high s hAscii] at hEscape
  | @escape a b high low s t hHigh hLow _ ih =>
    rw [hexEscapeNonASCII_cons _ (by decide), hexEscapeNonASCII_cons _ (unhex_ascii hHigh),
      hexEscapeNonASCII_cons _ (unhex_ascii hLow)]
    exact .escape hHigh hLow ih

/-- What is sent can be unescaped exactly if the string can. -/
theorem escaped_hexEscapeNonASCII {s t : GoString} :
    Escaped (hexEscapeNonASCII s) t ↔ Escaped s t :=
  ⟨escaped_of_sent rfl, sent_of_escaped⟩

end PadlockCloud
