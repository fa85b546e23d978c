import Mathlib.Data.List.Infix
import Mathlib.Data.List.DropRight

/-!
# Go strings

A Go string is a sequence of bytes with no promise of being valid UTF-8, and
most strings of the server (form values, headers, credentials) come from the
client unchecked. They are lists of bytes here.
-/

namespace PadlockCloud

abbrev GoString := List UInt8

/-- The bytes of an ASCII literal of the source. -/
def lit (s : String) : GoString := s.toList.map fun c => c.val.toUInt8

/-- The byte of an ASCII character. -/
def byte (c : Char) : UInt8 := c.val.toUInt8

namespace GoString

/-- `strings.HasPrefix`, returning what follows the prefix. -/
def stripPrefix : (p : GoString) → GoString → Option GoString
  | [], s => some s
  | _ :: _, [] => none
  | b :: p, c :: s => if b = c then stripPrefix p s else none

/-- `strings.Contains`. -/
def contains (s sub : GoString) : Bool := decide (sub <:+: s)

/-- `strings.TrimSuffix(s, "/")`. -/
def trimSlash (s : GoString) : GoString :=
  if s.getLast? = some 47 then s.dropLast else s

theorem stripPrefix_eq_some {p s t : GoString} : stripPrefix p s = some t ↔ s = p ++ t := by
  induction p generalizing s with
  | nil => simp [stripPrefix]
  | cons b p ih =>
    cases s with
    | nil => simp [stripPrefix]
    | cons c s =>
      simp only [stripPrefix, List.cons_append, List.cons.injEq]
      split
      · rename_i hEq
        simp [ih, hEq]
      · rename_i hNe
        simp [Ne.symm hNe]

/-! ## UTF-8 -/

def isCont (b : UInt8) : Bool := 0x80 ≤ b && b ≤ 0xBF

/-- The number of bytes of the rune at the start of a string, as in
`utf8.DecodeRuneInString`, where an invalid byte counts as a rune of one byte. -/
def runeSize : GoString → Nat
  | [] => 0
  | b :: s =>
    if 0xC2 ≤ b && b ≤ 0xDF then
      match s with
      | c :: _ => if isCont c then 2 else 1
      | [] => 1
    else if 0xE0 ≤ b && b ≤ 0xEF then
      match s with
      | c :: d :: _ =>
        let lo : UInt8 := if b = 0xE0 then 0xA0 else 0x80
        let hi : UInt8 := if b = 0xED then 0x9F else 0xBF
        if lo ≤ c && c ≤ hi && isCont d then 3 else 1
      | _ => 1
    else if 0xF0 ≤ b && b ≤ 0xF4 then
      match s with
      | c :: d :: e :: _ =>
        let lo : UInt8 := if b = 0xF0 then 0x90 else 0x80
        let hi : UInt8 := if b = 0xF4 then 0x8F else 0xBF
        if lo ≤ c && c ≤ hi && isCont d && isCont e then 4 else 1
      | _ => 1
    else 1

/-! ## Numbers -/

def isDigit (b : UInt8) : Bool := 0x30 ≤ b && b ≤ 0x39

/-- The value of a nonempty string of decimal digits. -/
def digits : GoString → Option Nat
  | [] => none
  | s => if s.all isDigit then some (s.foldl (fun n b => 10 * n + (b.toNat - 0x30)) 0) else none

/-- The first result of `strconv.Atoi` for 64-bit integers: zero for a string
that is no number, the nearest representable value for one out of range. -/
def atoi (s : GoString) : Int :=
  match s with
  | 0x2D :: s => (digits s).elim 0 fun n => max (-(n : Int)) (-9223372036854775808)
  | 0x2B :: s => (digits s).elim 0 fun n => min (n : Int) 9223372036854775807
  | s => (digits s).elim 0 fun n => min (n : Int) 9223372036854775807

end GoString

/-! ## Time -/

/-- Nanoseconds since Go's zero time, so that `IsZero` is being `0`. -/
abbrev Time := Int

namespace Time

def second : Time := 1000000000
def minute : Time := 60 * second
def hour : Time := 60 * minute
def day : Time := 24 * hour

/-- The Unix epoch as a `Time`. -/
def unixEpoch : Time := 62135596800 * second

end Time

end PadlockCloud
