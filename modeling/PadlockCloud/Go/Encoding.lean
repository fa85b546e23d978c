import Mathlib.Tactic.IntervalCases
import PadlockCloud.Go.Text

/-!
# `encoding/base64` and `encoding/hex`

The unpadded URL alphabet of `base64.RawURLEncoding`, in both directions, and
`hex.EncodeToString`. As in Go, the decoder skips CR and LF and does not look
at the unused low bits of the last character.
-/

namespace PadlockCloud

/-- The character of a six-bit value in the URL alphabet. -/
def base64Char (n : UInt8) : UInt8 :=
  if n < 26 then 0x41 + n
  else if n < 52 then 0x61 + (n - 26)
  else if n < 62 then 0x30 + (n - 52)
  else if n = 62 then 0x2D
  else 0x5F

/-- The six-bit value of a character of the URL alphabet. -/
def base64Value (c : UInt8) : Option UInt8 :=
  if 0x41 ≤ c && c ≤ 0x5A then some (c - 0x41)
  else if 0x61 ≤ c && c ≤ 0x7A then some (c - 0x61 + 26)
  else if 0x30 ≤ c && c ≤ 0x39 then some (c - 0x30 + 52)
  else if c = 0x2D then some 62
  else if c = 0x5F then some 63
  else none

/-- `base64.RawURLEncoding.EncodeToString`. -/
def encodeBase64 : List UInt8 → GoString
  | [] => []
  | [a] => [base64Char (a >>> 2), base64Char ((a &&& 0x03) <<< 4)]
  | [a, b] =>
    [base64Char (a >>> 2), base64Char (((a &&& 0x03) <<< 4) ||| (b >>> 4)),
      base64Char ((b &&& 0x0F) <<< 2)]
  | a :: b :: c :: rest =>
    base64Char (a >>> 2) :: base64Char (((a &&& 0x03) <<< 4) ||| (b >>> 4)) ::
      base64Char (((b &&& 0x0F) <<< 2) ||| (c >>> 6)) :: base64Char (c &&& 0x3F) ::
      encodeBase64 rest

/-- Decodes six-bit values, four at a time. -/
def decodeSextets : List UInt8 → Option (List UInt8)
  | [] => some []
  | [_] => none
  | [a, b] => some [(a <<< 2) ||| (b >>> 4)]
  | [a, b, c] => some [(a <<< 2) ||| (b >>> 4), (b <<< 4) ||| (c >>> 2)]
  | a :: b :: c :: d :: rest =>
    (decodeSextets rest).map fun bytes =>
      ((a <<< 2) ||| (b >>> 4)) :: ((b <<< 4) ||| (c >>> 2)) :: ((c <<< 6) ||| d) :: bytes

/-- `base64.RawURLEncoding.DecodeString`, with `none` for an error. -/
def decodeBase64 (s : GoString) : Option (List UInt8) :=
  ((s.filter fun c => c ≠ 0x0A && c ≠ 0x0D).mapM base64Value).bind decodeSextets

/-- The lower case hexadecimal digit of a four-bit value. -/
def hexChar (n : UInt8) : UInt8 := if n < 10 then 0x30 + n else 0x61 + (n - 10)

/-- `hex.EncodeToString`. -/
def encodeHex (bytes : List UInt8) : GoString :=
  bytes.flatMap fun (b : UInt8) => [hexChar (b >>> 4), hexChar (b &&& 0x0F)]

/-! ## Shape of encoded strings -/

/-- Letters, digits, minus and underscore: what the URL alphabet consists of. -/
def urlSafe (c : UInt8) : Bool :=
  (0x41 ≤ c && c ≤ 0x5A) || (0x61 ≤ c && c ≤ 0x7A) || (0x30 ≤ c && c ≤ 0x39) ||
    c = 0x2D || c = 0x5F

/-- A property of a byte can be checked on the 256 bytes. -/
theorem forall_byte {P : UInt8 → Prop} (h : ∀ i : Fin 256, P (UInt8.ofNat i.val)) (b : UInt8) :
    P b := by
  have hb := h ⟨b.toNat, b.toNat_lt⟩
  rwa [UInt8.ofNat_toNat] at hb

theorem urlSafe_base64Char (n : UInt8) : urlSafe (base64Char n) = true :=
  forall_byte (P := fun n => urlSafe (base64Char n) = true) (by decide +kernel) n

theorem urlSafe_hexChar_high (b : UInt8) : urlSafe (hexChar (b >>> 4)) = true :=
  forall_byte (P := fun b => urlSafe (hexChar (b >>> 4)) = true) (by decide +kernel) b

theorem urlSafe_hexChar_low (b : UInt8) : urlSafe (hexChar (b &&& 0x0F)) = true :=
  forall_byte (P := fun b => urlSafe (hexChar (b &&& 0x0F)) = true) (by decide +kernel) b

theorem encodeBase64_urlSafe (bytes : List UInt8) : (encodeBase64 bytes).all urlSafe = true := by
  fun_induction encodeBase64 bytes with
  | case1 => rfl
  | case2 a => simp [urlSafe_base64Char]
  | case3 a b => simp [urlSafe_base64Char]
  | case4 a b c rest ih => simp [urlSafe_base64Char, ih]

theorem encodeBase64_ne_nil {bytes : List UInt8} (hBytes : bytes ≠ []) :
    encodeBase64 bytes ≠ [] := by
  match bytes with
  | [] => exact absurd rfl hBytes
  | [_] | [_, _] | _ :: _ :: _ :: _ => simp [encodeBase64]

theorem encodeHex_ne_nil {bytes : List UInt8} (hBytes : bytes ≠ []) : encodeHex bytes ≠ [] := by
  match bytes with
  | [] => exact absurd rfl hBytes
  | _ :: _ => simp [encodeHex]

theorem encodeHex_urlSafe (bytes : List UInt8) : (encodeHex bytes).all urlSafe = true := by
  simp [encodeHex, urlSafe_hexChar_high, urlSafe_hexChar_low]

/-! ## The base64 round trip

The bytes are put together again bit by bit. -/

theorem base64Value_base64Char {n : UInt8} (hSextet : n &&& 0xC0 = 0) :
    base64Value (base64Char n) = some n :=
  forall_byte (P := fun n => n &&& 0xC0 = 0 → base64Value (base64Char n) = some n)
    (by decide +kernel) n hSextet

theorem sextet_high (a : UInt8) : (a >>> 2) &&& 0xC0 = 0 :=
  forall_byte (P := fun a => (a >>> 2) &&& 0xC0 = 0) (by decide +kernel) a

theorem sextet_low (a : UInt8) : (a &&& 0x3F) &&& 0xC0 = 0 :=
  forall_byte (P := fun a => (a &&& 0x3F) &&& 0xC0 = 0) (by decide +kernel) a

theorem sextet_second (a b : UInt8) : (((a &&& 0x03) <<< 4) ||| (b >>> 4)) &&& 0xC0 = 0 := by
  apply UInt8.eq_of_toBitVec_eq
  ext i hi
  simp
  interval_cases i <;> simp

theorem sextet_third (b c : UInt8) : (((b &&& 0x0F) <<< 2) ||| (c >>> 6)) &&& 0xC0 = 0 := by
  apply UInt8.eq_of_toBitVec_eq
  ext i hi
  simp
  interval_cases i <;> simp

theorem decode_first (a b : UInt8) :
    ((a >>> 2) <<< 2) ||| ((((a &&& 0x03) <<< 4) ||| (b >>> 4)) >>> 4) = a := by
  apply UInt8.eq_of_toBitVec_eq
  ext i hi
  simp
  interval_cases i <;> simp

theorem decode_second (a b c : UInt8) :
    ((((a &&& 0x03) <<< 4) ||| (b >>> 4)) <<< 4) |||
      ((((b &&& 0x0F) <<< 2) ||| (c >>> 6)) >>> 2) = b := by
  apply UInt8.eq_of_toBitVec_eq
  ext i hi
  simp
  interval_cases i <;> simp

theorem decode_third (b c : UInt8) :
    ((((b &&& 0x0F) <<< 2) ||| (c >>> 6)) <<< 6) ||| (c &&& 0x3F) = c := by
  apply UInt8.eq_of_toBitVec_eq
  ext i hi
  simp
  interval_cases i <;> simp

/-- The missing bytes of an incomplete group count as zero. -/
theorem sextet_zero (a : UInt8) : a ||| ((0 : UInt8) >>> 4) = a ∧ a ||| ((0 : UInt8) >>> 6) = a :=
  forall_byte (P := fun a => a ||| ((0 : UInt8) >>> 4) = a ∧ a ||| ((0 : UInt8) >>> 6) = a)
    (by decide +kernel) a

theorem decodeSextets_encodeBase64 (bytes : List UInt8) :
    ((encodeBase64 bytes).mapM base64Value).bind decodeSextets = some bytes := by
  fun_induction encodeBase64 bytes with
  | case1 => rfl
  | case2 a =>
    have hSecond := sextet_second a 0
    have hFirst := decode_first a 0
    rw [(sextet_zero _).1] at hSecond hFirst
    simp [base64Value_base64Char, sextet_high, hSecond, decodeSextets, hFirst]
  | case3 a b =>
    have hThird := sextet_third b 0
    have hSecond := decode_second a b 0
    rw [(sextet_zero _).2] at hThird hSecond
    simp [base64Value_base64Char, sextet_high, sextet_second, hThird, decodeSextets, decode_first,
      hSecond]
  | case4 a b c rest ih =>
    obtain ⟨sextets, hMap, hDecode⟩ := Option.bind_eq_some_iff.mp ih
    simp [base64Value_base64Char, sextet_high, sextet_second, sextet_third, sextet_low, hMap,
      decodeSextets, hDecode, decode_first, decode_second, decode_third]

theorem decodeBase64_encodeBase64 (bytes : List UInt8) :
    decodeBase64 (encodeBase64 bytes) = some bytes := by
  have hFilter : ((encodeBase64 bytes).filter fun c => c ≠ 0x0A && c ≠ 0x0D) =
      encodeBase64 bytes := by
    refine List.filter_eq_self.mpr fun c hc => ?_
    exact forall_byte (P := fun c => urlSafe c = true → (c ≠ 0x0A && c ≠ 0x0D) = true)
      (by decide +kernel) c (List.all_eq_true.mp (encodeBase64_urlSafe bytes) c hc)
  rw [decodeBase64, hFilter, decodeSextets_encodeBase64]

/-! ## What is no base64 -/

theorem mapM_base64Value {s sextets : List UInt8} (hMap : s.mapM base64Value = some sextets) :
    sextets.length = s.length ∧ ∀ c ∈ s, base64Value c ≠ none := by
  induction s generalizing sextets with
  | nil =>
    obtain rfl : [] = sextets := Option.some.inj hMap
    exact ⟨rfl, fun c hc => absurd hc List.not_mem_nil⟩
  | cons a s ih =>
    rw [List.mapM_cons, Option.bind_eq_bind, Option.bind_eq_some_iff] at hMap
    obtain ⟨n, hHead, hTail⟩ := hMap
    rw [Option.bind_eq_bind, Option.bind_eq_some_iff] at hTail
    obtain ⟨rest, hRest, hEq⟩ := hTail
    obtain rfl : n :: rest = sextets := Option.some.inj hEq
    obtain ⟨hLength, hValues⟩ := ih hRest
    refine ⟨by rw [List.length_cons, List.length_cons, hLength], ?_⟩
    intro c hc
    rcases List.mem_cons.mp hc with rfl | hc
    · rw [hHead]
      exact Option.some_ne_none n
    · exact hValues c hc

/-- A character outside the alphabet, if it is not CR or LF, is an error. -/
theorem decodeBase64_eq_none {s : GoString} {c : UInt8} (hMem : c ∈ s)
    (hLine : c ≠ 0x0A ∧ c ≠ 0x0D) (hValue : base64Value c = none) : decodeBase64 s = none := by
  have hKept : c ∈ s.filter fun c => c ≠ 0x0A && c ≠ 0x0D := by
    rw [List.mem_filter]
    exact ⟨hMem, by simp [hLine]⟩
  rw [decodeBase64, Option.bind_eq_none_iff]
  intro sextets hMap
  exact absurd hValue ((mapM_base64Value hMap).2 c hKept)

/-- Text without line breaks never decodes to nothing. -/
theorem decodeBase64_ne_nil {s : GoString} {bytes : List UInt8} (hNonempty : s ≠ [])
    (hLine : ∀ c ∈ s, c ≠ 0x0A ∧ c ≠ 0x0D) (hDecode : decodeBase64 s = some bytes) :
    bytes ≠ [] := by
  have hFilter : (s.filter fun c => c ≠ 0x0A && c ≠ 0x0D) = s := by
    refine List.filter_eq_self.mpr fun c hc => ?_
    simp [hLine c hc]
  rw [decodeBase64, hFilter, Option.bind_eq_some_iff] at hDecode
  obtain ⟨sextets, hMap, hBytes⟩ := hDecode
  have hLength := (mapM_base64Value hMap).1
  have hPos : 0 < s.length := List.length_pos_of_ne_nil hNonempty
  rintro rfl
  revert hBytes
  fun_cases decodeSextets sextets <;> simp_all

end PadlockCloud
