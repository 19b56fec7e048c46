import AllRelay.Library.Lines
import AllRelay.Library.Utf
import Mathlib.Algebra.Group.Nat.Defs

/-!
# Reading text from a socket

Bytes arrive in chunks, which may split a character. The decoder keeps the bytes of an unfinished
one (`Pending`), so that what it has decoded depends on the bytes and not on the chunks
(`flatten_decodeChunks`). A `CharReader` is Java's `BufferedReader` over it: it reads lines, which
`\n`, `\r` or `\r\n` end, and buffers of characters, and it waits where an open connection has
nothing more to give.
-/

open Lines

namespace Utf

/-! ### The decoder -/

/-- A character of which some bytes have arrived. -/
structure Pending where
  /-- The bits so far. -/
  code : ℕ
  /-- How many bytes are wanted. -/
  wanted : ℕ
  /-- The range of the next one. -/
  lo : ℕ
  hi : ℕ
deriving DecidableEq, Repr

/-- The first byte of a character. -/
def startByte (b : UInt8) : List Char × Option Pending :=
  if b.toNat < 0x80 then ([Char.ofNat b.toNat], none)
  else
    match announced b with
    | (0, _, _) => ([replacement], none)
    | (n + 1, lo, hi) => ([], some ⟨b.toNat % 2 ^ (5 - n), n + 1, lo, hi⟩)

/-- A byte, which continues the pending character or ends a malformed one. -/
def feed : Option Pending → UInt8 → List Char × Option Pending
  | none, b => startByte b
  | some p, b =>
    if p.lo ≤ b.toNat ∧ b.toNat ≤ p.hi then
      let code := p.code * 64 + (b.toNat - 0x80)
      if p.wanted = 1 then ([Char.ofNat code], none)
      else ([], some ⟨code, p.wanted - 1, 0x80, 0xBF⟩)
    else (replacement :: (startByte b).1, (startByte b).2)

/-- What is decoded from some bytes, and what is pending behind them. -/
def decode : Option Pending → List UInt8 → List Char × Option Pending
  | p, [] => ([], p)
  | p, b :: bytes =>
    let rest := decode (feed p b).2 bytes
    ((feed p b).1 ++ rest.1, rest.2)

theorem decode_append (p : Option Pending) (xs ys : List UInt8) :
    decode p (xs ++ ys) =
      ((decode p xs).1 ++ (decode (decode p xs).2 ys).1, (decode (decode p xs).2 ys).2) := by
  induction xs generalizing p with
  | nil => rfl
  | cons b xs ih => rw [List.cons_append, decode, decode, ih, List.append_assoc]

/-- A byte in the range continues the character. -/
theorem feed_continue {p : Pending} {b : UInt8} (hlo : p.lo ≤ b.toNat) (hhi : b.toNat ≤ p.hi)
    (hwanted : p.wanted ≠ 1) :
    feed (some p) b = ([], some ⟨p.code * 64 + (b.toNat - 0x80), p.wanted - 1, 0x80, 0xBF⟩) := by
  rw [feed, if_pos ⟨hlo, hhi⟩, if_neg hwanted]

/-- The last byte finishes the character. -/
theorem feed_finish {p : Pending} {b : UInt8} (hlo : p.lo ≤ b.toNat) (hhi : b.toNat ≤ p.hi)
    (hwanted : p.wanted = 1) :
    feed (some p) b = ([Char.ofNat (p.code * 64 + (b.toNat - 0x80))], none) := by
  rw [feed, if_pos ⟨hlo, hhi⟩, if_pos hwanted]

theorem startByte_of_announced {b : UInt8} (n : ℕ) {lo hi : ℕ} (hb : 0x80 ≤ b.toNat)
    (h : announced b = (n + 1, lo, hi)) :
    startByte b = ([], some ⟨b.toNat % 2 ^ (5 - n), n + 1, lo, hi⟩) := by
  rw [startByte, if_neg (Nat.not_lt.mpr hb), h]

theorem startByte_two {b : UInt8} (hlo : 0xC2 ≤ b.toNat) (hhi : b.toNat ≤ 0xDF) :
    startByte b = ([], some ⟨b.toNat % 32, 1, 0x80, 0xBF⟩) :=
  startByte_of_announced 0 (by omega) (if_pos ⟨hlo, hhi⟩)

theorem startByte_three {b : UInt8} (hlo : 0xE0 ≤ b.toNat) (hhi : b.toNat ≤ 0xEF) :
    startByte b = ([], some ⟨b.toNat % 16, 2, if b.toNat = 0xE0 then 0xA0 else 0x80,
      if b.toNat = 0xED then 0x9F else 0xBF⟩) := by
  have hb : 0x80 ≤ b.toNat := by omega
  refine startByte_of_announced 1 hb ?_
  obtain heq | heq | ⟨hE0, hED⟩ :
    b.toNat = 0xE0 ∨ b.toNat = 0xED ∨ b.toNat ≠ 0xE0 ∧ b.toNat ≠ 0xED := by omega
  · rw [announced, heq]
    rfl
  · rw [announced, heq]
    rfl
  · have hrange : 0xE1 ≤ b.toNat ∧ b.toNat ≤ 0xEF := by omega
    simp only [announced, if_neg (show ¬(0xC2 ≤ b.toNat ∧ b.toNat ≤ 0xDF) by omega), if_neg hE0,
      if_neg hED, if_pos hrange]

theorem startByte_four {b : UInt8} (hlo : 0xF0 ≤ b.toNat) (hhi : b.toNat ≤ 0xF4) :
    startByte b = ([], some ⟨b.toNat % 8, 3, if b.toNat = 0xF0 then 0x90 else 0x80,
      if b.toNat = 0xF4 then 0x8F else 0xBF⟩) := by
  have hb : 0x80 ≤ b.toNat := by omega
  refine startByte_of_announced 2 hb ?_
  obtain heq | heq | hrange :
    b.toNat = 0xF0 ∨ b.toNat = 0xF4 ∨ 0xF1 ≤ b.toNat ∧ b.toNat ≤ 0xF3 := by omega
  · rw [announced, heq]
    rfl
  · rw [announced, heq]
    rfl
  · have hF0 : b.toNat ≠ 0xF0 := by omega
    have hF4 : b.toNat ≠ 0xF4 := by omega
    have hE : b.toNat ≠ 0xE0 ∧ b.toNat ≠ 0xED := by omega
    simp only [announced, if_neg (show ¬(0xC2 ≤ b.toNat ∧ b.toNat ≤ 0xDF) by omega), if_neg hE.1,
      if_neg hE.2, if_neg (show ¬(0xE1 ≤ b.toNat ∧ b.toNat ≤ 0xEF) by omega), if_neg hF0,
      if_neg hF4, if_pos hrange]

theorem decode_two {b₀ b₁ : UInt8} (h₀ : 0xC2 ≤ b₀.toNat ∧ b₀.toNat ≤ 0xDF)
    (h₁ : 0x80 ≤ b₁.toNat ∧ b₁.toNat ≤ 0xBF) :
    decode none [b₀, b₁] = ([Char.ofNat (b₀.toNat % 32 * 64 + (b₁.toNat - 0x80))], none) := by
  rw [decode, feed, startByte_two h₀.1 h₀.2, decode, feed_finish h₁.1 h₁.2 rfl]
  rfl

theorem decode_three {b₀ b₁ b₂ : UInt8} (h₀ : 0xE0 ≤ b₀.toNat ∧ b₀.toNat ≤ 0xEF)
    (h₁ : (if b₀.toNat = 0xE0 then 0xA0 else 0x80) ≤ b₁.toNat ∧
      b₁.toNat ≤ if b₀.toNat = 0xED then 0x9F else 0xBF)
    (h₂ : 0x80 ≤ b₂.toNat ∧ b₂.toNat ≤ 0xBF) :
    decode none [b₀, b₁, b₂] =
      ([Char.ofNat ((b₀.toNat % 16 * 64 + (b₁.toNat - 0x80)) * 64 + (b₂.toNat - 0x80))],
        none) := by
  rw [decode, feed, startByte_three h₀.1 h₀.2, decode, feed_continue h₁.1 h₁.2 (by decide : 2 ≠ 1),
    decode, feed_finish h₂.1 h₂.2 rfl]
  rfl

theorem decode_four {b₀ b₁ b₂ b₃ : UInt8} (h₀ : 0xF0 ≤ b₀.toNat ∧ b₀.toNat ≤ 0xF4)
    (h₁ : (if b₀.toNat = 0xF0 then 0x90 else 0x80) ≤ b₁.toNat ∧
      b₁.toNat ≤ if b₀.toNat = 0xF4 then 0x8F else 0xBF)
    (h₂ : 0x80 ≤ b₂.toNat ∧ b₂.toNat ≤ 0xBF) (h₃ : 0x80 ≤ b₃.toNat ∧ b₃.toNat ≤ 0xBF) :
    decode none [b₀, b₁, b₂, b₃] =
      ([Char.ofNat (((b₀.toNat % 8 * 64 + (b₁.toNat - 0x80)) * 64 + (b₂.toNat - 0x80)) * 64 +
        (b₃.toNat - 0x80))], none) := by
  rw [decode, feed, startByte_four h₀.1 h₀.2, decode, feed_continue h₁.1 h₁.2 (by decide : 3 ≠ 1),
    decode, feed_continue h₂.1 h₂.2 (by decide : 2 ≠ 1), decode, feed_finish h₃.1 h₃.2 rfl]
  rfl

/-- **A character** is decoded from its bytes. -/
theorem decode_utf8EncodeChar (c : Char) :
    decode none (String.utf8EncodeChar c) = ([c], none) := by
  have hvalid := toNat_lt_or c
  have hc : ∀ n, n = c.toNat → ([Char.ofNat n], none) = ([c], (none : Option Pending)) := by
    rintro n rfl
    rw [Char.ofNat_toNat]
  unfold String.utf8EncodeChar
  rw [show c.val.toNat = c.toNat from rfl]
  generalize c.toNat = v at hvalid hc ⊢
  have hbyte : ∀ n, n < 256 → (UInt8.ofNat n).toNat = n := fun n hn ↦ UInt8.toNat_ofNat_of_lt' hn
  have hlast := hbyte (v % 64 + 128) (by omega)
  have hmid := hbyte (v / 64 % 64 + 128) (by omega)
  simp only
  split
  case isTrue h1 =>
    have hb := hbyte v (by omega)
    rw [decode, feed, startByte, if_pos (by omega), hb]
    exact hc v rfl
  split
  case isTrue h1 h2 =>
    have hfirst := hbyte (v / 64 % 32 + 192) (by omega)
    rw [decode_two (by omega) (by omega), hfirst, hlast]
    exact hc _ (by omega)
  split
  case isTrue h1 h2 h3 =>
    have hfirst := hbyte (v / 4096 % 16 + 224) (by omega)
    rw [decode_three (by omega) (by split <;> split <;> omega) (by omega), hfirst, hmid, hlast]
    exact hc _ (by omega)
  case isFalse h1 h2 h3 =>
    have hfirst := hbyte (v / 262144 % 8 + 240) (by omega)
    have hsecond := hbyte (v / 4096 % 64 + 128) (by omega)
    rw [decode_four (by omega) (by split <;> split <;> omega) (by omega) (by omega), hfirst,
      hsecond, hmid, hlast]
    exact hc _ (by omega)

/-- Text is decoded from its bytes. -/
theorem decode_flatMap (chars : List Char) :
    decode none (chars.flatMap String.utf8EncodeChar) = (chars, none) := by
  induction chars with
  | nil => rfl
  | cons c chars ih => rw [List.flatMap_cons, decode_append, decode_utf8EncodeChar, ih]; rfl

/-! ### Lines of bytes -/

/-- What is pending is no ASCII character. -/
def Pending.Wide (p : Pending) : Prop :=
  0 < p.wanted ∧ 0x80 ≤ p.lo ∧ (2 ≤ p.code ∨ 2 ≤ p.wanted ∧ (1 ≤ p.code ∨ 0x90 ≤ p.lo))

theorem wide_startByte {b : UInt8} : ∀ p ∈ (startByte b).2, p.Wide := by
  intro p hp
  by_cases h₁ : 0xC2 ≤ b.toNat ∧ b.toNat ≤ 0xDF
  · rw [startByte_two h₁.1 h₁.2] at hp
    cases hp
    simp only [Pending.Wide]
    omega
  by_cases h₂ : 0xE0 ≤ b.toNat ∧ b.toNat ≤ 0xEF
  · rw [startByte_three h₂.1 h₂.2] at hp
    cases hp
    simp only [Pending.Wide]
    split <;> omega
  by_cases h₃ : 0xF0 ≤ b.toNat ∧ b.toNat ≤ 0xF4
  · rw [startByte_four h₃.1 h₃.2] at hp
    cases hp
    simp only [Pending.Wide]
    split <;> omega
  -- no other byte starts a character of several
  · have hnone : announced b = (0, 0, 0) := by
      rw [announced]
      simp only [if_neg h₁]
      rw [if_neg (by omega), if_neg (by omega), if_neg (by omega), if_neg (by omega),
        if_neg (by omega), if_neg (by omega)]
    rw [startByte, hnone] at hp
    split at hp <;> cases hp

/-- No line break. -/
def NoBreak (c : Char) : Prop :=
  c ≠ '\r' ∧ c ≠ '\n'

theorem toNat_ofNat {n : ℕ} (h : n < 0xD800) : (Char.ofNat n).toNat = n := by
  unfold Char.ofNat
  rw [dif_pos (.inl h)]
  rfl

theorem noBreak_ofNat {n : ℕ} (h : n ≠ 13 ∧ n ≠ 10) : NoBreak (Char.ofNat n) := by
  have htoNat : (Char.ofNat n).toNat = n ∨ (Char.ofNat n).toNat = 0 := by
    by_cases hvalid : n.isValidChar
    · rw [Char.ofNat, dif_pos hvalid]
      exact .inl rfl
    · rw [Char.ofNat, dif_neg hvalid]
      exact .inr rfl
  constructor <;> intro heq <;> rw [heq] at htoNat
  · have h13 : '\r'.toNat = 13 := rfl
    omega
  · have h10 : '\n'.toNat = 10 := rfl
    omega

theorem noBreak_startByte {b : UInt8} (h : b ≠ 0x0D ∧ b ≠ 0x0A) :
    ∀ c ∈ (startByte b).1, NoBreak c := by
  intro c hc
  rw [startByte] at hc
  split at hc
  · rw [List.mem_singleton.mp hc]
    refine noBreak_ofNat ⟨fun hb ↦ h.1 ?_, fun hb ↦ h.2 ?_⟩
    · exact UInt8.toNat_inj.mp hb
    · exact UInt8.toNat_inj.mp hb
  · split at hc
    · rw [List.mem_singleton.mp hc]
      exact ⟨by decide, by decide⟩
    · cases hc

/-- A byte that is no line break decodes to none. -/
theorem feed_of_ne_break {p : Option Pending} (hp : ∀ q ∈ p, q.Wide) {b : UInt8}
    (h : b ≠ 0x0D ∧ b ≠ 0x0A) :
    (∀ c ∈ (feed p b).1, NoBreak c) ∧ ∀ q ∈ (feed p b).2, q.Wide := by
  cases p with
  | none => exact ⟨noBreak_startByte h, wide_startByte⟩
  | some p =>
    obtain ⟨hpos, hlo, hcode⟩ := hp p rfl
    rw [feed]
    split
    case isTrue hin =>
      simp only
      split
      case isTrue hone =>
        refine ⟨fun c hc ↦ ?_, fun q hq ↦ by cases hq⟩
        rw [List.mem_singleton.mp hc]
        exact noBreak_ofNat (by omega)
      case isFalse hmore =>
        refine ⟨fun c hc ↦ (by cases hc), fun q hq ↦ ?_⟩
        rw [← Option.some.inj hq]
        simp only [Pending.Wide]
        omega
    case isFalse hout =>
      refine ⟨fun c hc ↦ ?_, wide_startByte⟩
      obtain rfl | hc := List.mem_cons.mp hc
      · exact ⟨by decide, by decide⟩
      · exact noBreak_startByte h c hc

/-- A line break ends what is pending. -/
theorem decode_break {p : Option Pending} (hp : ∀ q ∈ p, q.Wide) :
    ∃ chars, decode p [0x0D, 0x0A] = (chars ++ ['\r', '\n'], none) ∧ ∀ c ∈ chars, NoBreak c := by
  cases p with
  | none => exact ⟨[], rfl, fun c hc ↦ by cases hc⟩
  | some p =>
    obtain ⟨-, hlo, -⟩ := hp p rfl
    have hout : ¬(p.lo ≤ (0x0D : UInt8).toNat ∧ (0x0D : UInt8).toNat ≤ p.hi) := fun hin ↦ by
      have h13 : (0x0D : UInt8).toNat = 13 := rfl
      omega
    refine ⟨[replacement], ?_, fun c hc ↦ ?_⟩
    · rw [decode, feed, if_neg hout]
      rfl
    · rw [List.mem_singleton.mp hc]
      exact ⟨by decide, by decide⟩

/-- **A line of bytes** is decoded as a line of text, whatever the bytes are. -/
theorem decode_line {p : Option Pending} (hp : ∀ q ∈ p, q.Wide) {line : List UInt8}
    (h : ∀ b ∈ line, b ≠ 0x0D ∧ b ≠ 0x0A) :
    ∃ chars, decode p (line ++ [0x0D, 0x0A]) = (chars ++ ['\r', '\n'], none) ∧
      ∀ c ∈ chars, NoBreak c := by
  induction line generalizing p with
  | nil => exact decode_break hp
  | cons b line ih =>
    obtain ⟨hchars, hnext⟩ := feed_of_ne_break hp (h b List.mem_cons_self)
    obtain ⟨chars, hdecode, hmore⟩ := ih hnext fun d hd ↦ h d (List.mem_cons_of_mem b hd)
    refine ⟨(feed p b).1 ++ chars, ?_, fun c hc ↦ ?_⟩
    · rw [List.cons_append, decode, hdecode, List.append_assoc]
    · obtain hc | hc := List.mem_append.mp hc
      · exact hchars c hc
      · exact hmore c hc

theorem isLine_utf16 {chars : List Char} (h : ∀ c ∈ chars, NoBreak c) :
    IsLine (chars.flatMap utf16) := by
  intro u hu
  obtain ⟨c, hc, hu⟩ := List.mem_flatMap.mp hu
  obtain ⟨hcr, hlf⟩ := h c hc
  obtain hlt | hle := Nat.lt_or_ge c.toNat 0x10000
  · rw [utf16_of_lt hlt] at hu
    have hval : u.toNat = c.toNat := by
      rw [List.mem_singleton.mp hu, UInt16.toNat_ofNat_of_lt' hlt]
    refine ⟨fun heq ↦ hcr ?_, fun heq ↦ hlf ?_⟩
    · rw [heq] at hval
      exact Char.toNat_inj.mp hval.symm
    · rw [heq] at hval
      exact Char.toNat_inj.mp hval.symm
  · obtain ⟨v, w, huv, hv, hw, -⟩ := surrogates_of_le hle
    rw [huv] at hu
    have hhigh : 0xD800 ≤ u.toNat := by
      simp only [isHigh, isLow, Bool.and_eq_true, decide_eq_true_eq] at hv hw
      obtain rfl | rfl : u = v ∨ u = w := by simpa using hu
      · exact hv.1
      · exact Nat.le_trans (by decide) hw.1
    constructor
    · rintro rfl
      exact absurd hhigh (by decide)
    · rintro rfl
      exact absurd hhigh (by decide)

/-- The text that bytes denote as far as it is decoded. -/
def textOf (bytes : List UInt8) : List UInt16 :=
  (decode none bytes).1.flatMap utf16

/-- The text of a line. -/
def lineText (line : List UInt8) : List UInt16 :=
  (decode none (line ++ [0x0D, 0x0A])).1.dropLast.dropLast.flatMap utf16

/-- A line of bytes is a line of text. -/
theorem textOf_line {line : List UInt8} (h : ∀ b ∈ line, b ≠ 0x0D ∧ b ≠ 0x0A)
    (rest : List UInt8) :
    IsLine (lineText line) ∧
      textOf (line ++ 0x0D :: 0x0A :: rest) = lineText line ++ 0x0D :: 0x0A :: textOf rest := by
  obtain ⟨chars, hdecode, hchars⟩ := @decode_line none (fun q hq ↦ by cases hq) line h
  have hline : lineText line = chars.flatMap utf16 := by
    rw [lineText, hdecode]
    simp
  refine ⟨hline ▸ isLine_utf16 hchars, ?_⟩
  have hbytes : line ++ 0x0D :: 0x0A :: rest = (line ++ [0x0D, 0x0A]) ++ rest := by simp
  rw [textOf, hbytes, decode_append, hdecode, List.flatMap_append, List.flatMap_append, hline,
    List.append_assoc]
  rfl

/-- Lines of bytes, up to an empty one. -/
theorem textOf_lines {lines : List (List UInt8)}
    (h : ∀ line ∈ lines, ∀ b ∈ line, b ≠ 0x0D ∧ b ≠ 0x0A) (rest : List UInt8) :
    textOf (lines.flatMap (· ++ [0x0D, 0x0A]) ++ 0x0D :: 0x0A :: rest) =
      (lines.map lineText).flatMap (· ++ [0x0D, 0x0A]) ++ 0x0D :: 0x0A :: textOf rest := by
  induction lines with
  | nil => exact (@textOf_line [] (fun b hb ↦ by cases hb) rest).2
  | cons line lines ih =>
    have hrest := ih fun l hl ↦ h l (List.mem_cons_of_mem line hl)
    have hbytes : (line :: lines).flatMap (· ++ [0x0D, 0x0A]) ++ 0x0D :: 0x0A :: rest =
        line ++ 0x0D :: 0x0A :: (lines.flatMap (· ++ [0x0D, 0x0A]) ++ 0x0D :: 0x0A :: rest) := by
      simp
    rw [hbytes, (textOf_line (h line List.mem_cons_self) _).2, hrest]
    simp

/-- ASCII bytes are decoded one by one. -/
theorem decode_ascii_append {ascii : List UInt8} (h : ∀ b ∈ ascii, b < 0x80)
    (rest : List UInt8) :
    decode none (ascii ++ rest) =
      ((ascii.map fun b ↦ Char.ofNat b.toNat) ++ (decode none rest).1, (decode none rest).2) := by
  induction ascii with
  | nil => rfl
  | cons b ascii ih =>
    have hb : b.toNat < 0x80 := h b List.mem_cons_self
    rw [List.cons_append, decode, feed, startByte, if_pos hb,
      ih fun d hd ↦ h d (List.mem_cons_of_mem b hd)]
    rfl

theorem utf16_ascii {b : UInt8} (h : b < 0x80) : utf16 (Char.ofNat b.toNat) = [b.toUInt16] := by
  have hlt : b.toNat < 0x80 := h
  have hval := @toNat_ofNat b.toNat (by omega)
  rw [utf16_of_lt (by omega), hval]
  exact congrArg (fun u ↦ [u]) (UInt16.toNat_inj.mp (by simp))

theorem flatMap_utf16_ascii {ascii : List UInt8} (h : ∀ b ∈ ascii, b < 0x80) :
    (ascii.map fun b ↦ Char.ofNat b.toNat).flatMap utf16 = ascii.map (·.toUInt16) := by
  induction ascii with
  | nil => rfl
  | cons b ascii ih =>
    rw [List.map_cons, List.flatMap_cons, utf16_ascii (h b List.mem_cons_self),
      ih fun d hd ↦ h d (List.mem_cons_of_mem b hd)]
    rfl

/-- ASCII bytes at the front of a line. -/
theorem lineText_ascii_append {ascii line : List UInt8} (hascii : ∀ b ∈ ascii, b < 0x80)
    (h : ∀ b ∈ line, b ≠ 0x0D ∧ b ≠ 0x0A) :
    lineText (ascii ++ line) = ascii.map (·.toUInt16) ++ lineText line := by
  obtain ⟨chars, hdecode, -⟩ := @decode_line none (fun q hq ↦ by cases hq) line h
  have hdrop (chars : List Char) : (chars ++ ['\r', '\n']).dropLast.dropLast = chars := by simp
  rw [lineText, lineText, List.append_assoc, decode_ascii_append hascii, hdecode, hdrop,
    ← List.append_assoc, hdrop, List.flatMap_append, flatMap_utf16_ascii hascii]

/-- The text of each chunk. -/
def decodeChunks : Option Pending → List (List UInt8) → List (List UInt16)
  | _, [] => []
  | p, chunk :: chunks =>
    (decode p chunk).1.flatMap utf16 :: decodeChunks (decode p chunk).2 chunks

/-- **Chunks** do not matter to the text. -/
theorem flatten_decodeChunks (p : Option Pending) (chunks : List (List UInt8)) :
    (decodeChunks p chunks).flatten = (decode p chunks.flatten).1.flatMap utf16 := by
  induction chunks generalizing p with
  | nil => rfl
  | cons chunk chunks ih =>
    rw [decodeChunks, List.flatten_cons, List.flatten_cons, ih, decode_append,
      List.flatMap_append]

end Utf

/-! ### The reader -/

/-- `BufferedReader` over a decoder. -/
structure CharReader where
  /-- The text that has been decoded from each chunk and not yet been read. -/
  chunks : List (List UInt16)
  /-- The last line ended in `\r`: a `\n` is skipped. -/
  skipLF : Bool
  /-- The other side closes the connection behind the last chunk. -/
  closed : Bool
deriving DecidableEq, Repr

namespace CharReader

/-- A reader of bytes that arrive in chunks. A character that the end of the stream cuts off is
malformed. -/
def ofChunks (chunks : List (List UInt8)) (closed : Bool) : CharReader where
  chunks := Utf.decodeChunks none chunks ++
    if closed && (Utf.decode none chunks.flatten).2.isSome then [Utf.utf16 Utf.replacement] else []
  skipLF := false
  closed := closed

/-- The chunks from the next character on. -/
def fill : List (List UInt16) → List (List UInt16)
  | [] :: chunks => fill chunks
  | chunks => chunks

/-- Skip what is to be skipped. -/
def skip (r : CharReader) : CharReader :=
  if r.skipLF then
    match fill r.chunks with
    | (c :: cs) :: chunks =>
      { r with
        chunks := if c = 0x0A then cs :: chunks else (c :: cs) :: chunks
        skipLF := false }
    | _ => r
  else r

/-- The next character, none at the end of the stream; nothing when the reader waits. -/
def next (r : CharReader) : Option (Option UInt16 × CharReader) :=
  match fill r.skip.chunks with
  | (c :: cs) :: chunks => some (some c, { r with chunks := cs :: chunks, skipLF := false })
  | _ => if r.closed then some (none, r) else none

/-- The rest of a line, at most `fuel` characters. -/
def readLineFrom : ℕ → List UInt16 → CharReader → Option (Option (List UInt16) × CharReader)
  | 0, _, _ => none
  | fuel + 1, line, r => do
    let (c, r) ← r.next
    match c with
    | none => some (if line = [] then none else some line, r)
    | some c =>
      if c = 0x0A then some (some line, r)
      else if c = 0x0D then some (some line, { r with skipLF := true })
      else readLineFrom fuel (line ++ [c]) r

/-- `readLine`, none at the end of the stream. -/
def readLine (r : CharReader) : Option (Option (List UInt16) × CharReader) :=
  readLineFrom (r.chunks.flatten.length + 1) [] r

/-- `read` into a buffer of `n` characters: what there is of the next chunk, nothing at the end of
the stream. -/
def read (r : CharReader) (n : ℕ) : Option (List UInt16 × CharReader) :=
  match fill r.skip.chunks with
  | (c :: cs) :: chunks =>
    some ((c :: cs).take n, { r with chunks := (c :: cs).drop n :: chunks, skipLF := false })
  | _ => if r.closed then some ([], r) else none

/-! ### What is read -/

/-- The text that is left to read. -/
def text (r : CharReader) : List UInt16 :=
  if r.skipLF ∧ r.chunks.flatten.head? = some 0x0A then r.chunks.flatten.tail
  else r.chunks.flatten

theorem flatten_fill (chunks : List (List UInt16)) : (fill chunks).flatten = chunks.flatten := by
  induction chunks with
  | nil => rfl
  | cons chunk chunks ih =>
    cases chunk with
    | nil => exact ih
    | cons c chunk => rfl

/-- The next chunk is not empty. -/
theorem fill_cases (chunks : List (List UInt16)) :
    fill chunks = [] ∨ ∃ c cs rest, fill chunks = (c :: cs) :: rest := by
  induction chunks with
  | nil => exact .inl rfl
  | cons chunk chunks ih =>
    cases chunk with
    | nil => exact ih
    | cons c chunk => exact .inr ⟨c, chunk, chunks, rfl⟩

theorem flatten_skip (r : CharReader) : r.skip.chunks.flatten = r.text := by
  have hflatten := flatten_fill r.chunks
  rw [skip, text]
  cases hskip : r.skipLF with
  | false => simp
  | true =>
    obtain hfill | ⟨c, cs, rest, hfill⟩ := fill_cases r.chunks
    · rw [hfill] at hflatten
      simp [hfill, ← hflatten]
    · rw [hfill] at hflatten
      by_cases hc : c = 0x0A
      · simp [hfill, ← hflatten, hc]
      · simp [hfill, ← hflatten, hc]

variable {r : CharReader} {c : UInt16} {line rest : List UInt16}

theorem text_of_not_skipLF (h : r.skipLF = false) : r.text = r.chunks.flatten := by
  rw [text, h, if_neg (by simp)]

/-- On an open connection, the text is what the bytes denote. -/
theorem text_ofChunks (chunks : List (List UInt8)) :
    (ofChunks chunks false).text = Utf.textOf chunks.flatten := by
  rw [text_of_not_skipLF rfl, ofChunks, Bool.false_and, if_neg Bool.false_ne_true, List.append_nil,
    Utf.flatten_decodeChunks, Utf.textOf]

/-- **A character** that there is. -/
theorem next_of_cons (h : r.text = c :: rest) :
    ∃ r', r.next = some (some c, r') ∧ r'.chunks.flatten = rest ∧ r'.skipLF = false ∧
      r'.closed = r.closed := by
  have hflatten := flatten_fill r.skip.chunks
  rw [flatten_skip, h] at hflatten
  rw [next]
  obtain hfill | ⟨d, ds, chunks, hfill⟩ := fill_cases r.skip.chunks
  · rw [hfill] at hflatten
    cases hflatten
  · rw [hfill, List.flatten_cons, List.cons_append] at hflatten
    obtain ⟨rfl, hrest⟩ := List.cons.inj hflatten
    rw [hfill]
    exact ⟨_, rfl, hrest, rfl, rfl⟩

/-- **A line** that ends in `\r\n`. -/
theorem readLineFrom_of_line {fuel : ℕ} {start : List UInt16}
    (hline : IsLine line) (hfuel : line.length < fuel)
    (h : r.text = line ++ 0x0D :: 0x0A :: rest) :
    ∃ r', readLineFrom fuel start r = some (some (start ++ line), r') ∧ r'.text = rest ∧
      r'.closed = r.closed := by
  induction line generalizing r fuel start with
  | nil =>
    obtain ⟨fuel, rfl⟩ := Nat.exists_eq_add_of_lt hfuel
    obtain ⟨r', hnext, hrest, -, hclosed⟩ := next_of_cons h
    refine ⟨{ r' with skipLF := true }, ?_, ?_, hclosed⟩
    · rw [readLineFrom, hnext]
      simp
    · rw [text]
      simp [hrest]
  | cons c line ih =>
    obtain ⟨fuel, rfl⟩ : ∃ fuel', fuel = fuel' + 1 := ⟨fuel - 1, by simp at hfuel; omega⟩
    obtain ⟨hcr, hlf⟩ := hline c List.mem_cons_self
    obtain ⟨r', hnext, hrest, hskip, hclosed⟩ := next_of_cons h
    obtain ⟨r'', hread, htext, hclosed'⟩ := @ih r' fuel (start ++ [c])
      (fun d hd ↦ hline d (List.mem_cons_of_mem c hd)) (Nat.lt_of_succ_lt_succ hfuel)
      (by rw [text_of_not_skipLF hskip]; exact hrest)
    refine ⟨r'', ?_, htext, hclosed'.trans hclosed⟩
    rw [readLineFrom, hnext]
    simp [hcr, hlf, hread]

theorem length_text_le (r : CharReader) : r.text.length ≤ r.chunks.flatten.length := by
  rw [text]
  split
  · rw [List.length_tail]
    exact Nat.sub_le _ 1
  · exact Nat.le_refl _

theorem readLine_of_line (hline : IsLine line)
    (h : r.text = line ++ 0x0D :: 0x0A :: rest) :
    ∃ r', r.readLine = some (some line, r') ∧ r'.text = rest ∧ r'.closed = r.closed := by
  have hlen := r.length_text_le
  rw [h, List.length_append] at hlen
  exact readLineFrom_of_line hline (by omega) h

/-- **A part of the text** that there is. -/
theorem read_of_ne_nil (h : r.text ≠ []) {n : ℕ} (hn : 0 < n) :
    ∃ part r', r.read n = some (part, r') ∧ part ≠ [] ∧ part.length ≤ n ∧
      part ++ r'.text = r.text ∧ r'.closed = r.closed := by
  have hflatten := flatten_fill r.skip.chunks
  rw [flatten_skip] at hflatten
  rw [read]
  obtain hfill | ⟨d, ds, chunks, hfill⟩ := fill_cases r.skip.chunks
  · rw [hfill] at hflatten
    exact absurd hflatten.symm h
  · rw [hfill] at hflatten ⊢
    refine ⟨_, _, rfl, ?_, List.length_take_le n _, ?_, rfl⟩
    · simp [Nat.pos_iff_ne_zero.mp hn]
    · rw [text_of_not_skipLF rfl, List.flatten_cons, ← List.append_assoc, List.take_append_drop,
        ← List.flatten_cons, hflatten]

/-- **Waiting**, when there is nothing to read. -/
theorem read_of_nil (h : r.text = []) (hopen : r.closed = false) (n : ℕ) : r.read n = none := by
  have hflatten := flatten_fill r.skip.chunks
  rw [flatten_skip, h] at hflatten
  rw [read]
  obtain hfill | ⟨d, ds, chunks, hfill⟩ := fill_cases r.skip.chunks
  · rw [hfill]
    simp [hopen]
  · rw [hfill] at hflatten
    cases hflatten

end CharReader
