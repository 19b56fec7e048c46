import AllRelay.Library.Lines
import Mathlib.Algebra.Group.Nat.Defs

/-!
# Strings of Kotlin

Strings are UTF-16 code units. What depends on the tables of Unicode is given by those of the basic
plane, which is all that a single unit reaches.
-/

namespace AllRelay.Kotlin

open Lines

/-- A string. -/
abbrev Text := List UInt16

/-- A string of ASCII characters. -/
def ascii (s : String) : Text :=
  s.toList.map fun c ↦ UInt16.ofNat c.toNat

/-- `Char.isWhitespace`. -/
def isWhitespace (c : UInt16) : Bool :=
  0x09 ≤ c && c ≤ 0x0D || 0x1C ≤ c && c ≤ 0x20 || c == 0xA0 || c == 0x1680 ||
    0x2000 ≤ c && c ≤ 0x200A || c == 0x2028 || c == 0x2029 || c == 0x202F || c == 0x205F ||
    c == 0x3000

/-- The visible characters of ASCII are no white space. -/
theorem isWhitespace_of_visible {c : UInt16} (hlo : 0x21 ≤ c) (hhi : c ≤ 0x7E) :
    isWhitespace c = false := by
  simp [isWhitespace, UInt16.le_iff_toNat_le, ← UInt16.toNat_inj] at *
  omega

/-- The digits 0 of the decimal number systems. -/
def decimalZeros : List ℕ :=
  [0x30, 0x660, 0x6F0, 0x7C0, 0x966, 0x9E6, 0xA66, 0xAE6, 0xB66, 0xBE6, 0xC66, 0xCE6, 0xD66, 0xDE6,
    0xE50, 0xED0, 0xF20, 0x1040, 0x1090, 0x17E0, 0x1810, 0x1946, 0x19D0, 0x1A80, 0x1A90, 0x1B50,
    0x1BB0, 0x1C40, 0x1C50, 0xA620, 0xA8D0, 0xA900, 0xA9D0, 0xA9F0, 0xAA50, 0xABF0, 0xFF10]

/-- `digitOf` in base 10. -/
def digitOf (c : UInt16) : Option ℕ :=
  decimalZeros.findSome? fun first ↦
    if first ≤ c.toNat ∧ c.toNat ≤ first + 9 then some (c.toNat - first) else none

/-- The number that digits denote behind those of `n`. -/
def digitsValue : ℕ → Text → Option ℕ
  | n, [] => some n
  | n, c :: cs => do
    let digit ← digitOf c
    digitsValue (10 * n + digit) cs

/-- `String.toIntOrNull`. -/
def toIntOrNull : Text → Option ℤ
  | [] => none
  | c :: cs => do
    if c < 0x30 then
      if cs = [] then none
      else if c = 0x2D then
        let n ← digitsValue 0 cs
        if n ≤ 2 ^ 31 then some (-n) else none
      else if c = 0x2B then
        let n ← digitsValue 0 cs
        if n < 2 ^ 31 then some n else none
      else none
    else
      let n ← digitsValue 0 (c :: cs)
      if n < 2 ^ 31 then some n else none

/-- `lowercase`, of ASCII letters. The only other characters with ASCII letters in their lower case
are U+0130 and U+212A, and the letters are `i` and `k`. -/
def lowercase (text : Text) : Text :=
  text.map fun c ↦ if 0x41 ≤ c ∧ c ≤ 0x5A then c + 0x20 else c

/-- `split` at every delimiter. -/
def split (delimiter : UInt16) : Text → List Text
  | [] => [[]]
  | c :: cs =>
    if c = delimiter then [] :: split delimiter cs
    else
      match split delimiter cs with
      | [] => [[c]]
      | field :: fields => (c :: field) :: fields

theorem split_append {delimiter : UInt16} {field : Text} (h : ∀ c ∈ field, c ≠ delimiter)
    (rest : Text) :
    split delimiter (field ++ delimiter :: rest) = field :: split delimiter rest := by
  induction field with
  | nil => simp [split]
  | cons c field ih =>
    have hc : c ≠ delimiter := h c List.mem_cons_self
    have hrest := ih fun d hd ↦ h d (List.mem_cons_of_mem c hd)
    rw [List.cons_append, split, hrest, if_neg hc]

end AllRelay.Kotlin
