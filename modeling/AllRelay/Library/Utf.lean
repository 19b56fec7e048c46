import Mathlib.Data.List.Basic
import Mathlib.Data.List.Flatten
import Mathlib.Order.Basic

/-!
# UTF-16 and UTF-8 text

Text as the two platforms of a wire format hold it: a sequence of UTF-16 code units, which may hold
a surrogate without its partner, and a sequence of UTF-8 bytes, which may be malformed. Well-formed
UTF-16 text is the image of a list of scalar values (`Char`) under `utf16`.

* `points` splits text the way string iteration does, into surrogate pairs and single units;
  `encodeUtf8` replaces a lone surrogate by U+FFFD.
* `decodeUtf8` replaces each maximal malformed part by U+FFFD.

On well-formed text `encodeUtf8` and `decodeUtf8` are inverse (`encodeUtf8_utf16`,
`decodeUtf8_flatMap`).
-/

namespace Utf

/-- The replacement character. -/
def replacement : Char := '\uFFFD'

/-! ### UTF-16 -/

/-- A leading surrogate. -/
def isHigh (u : UInt16) : Bool := 0xD800 ≤ u.toNat && u.toNat < 0xDC00

/-- A trailing surrogate. -/
def isLow (u : UInt16) : Bool := 0xDC00 ≤ u.toNat && u.toNat < 0xE000

/-- The code units of a scalar value. -/
def utf16 (c : Char) : List UInt16 :=
  if c.toNat < 0x10000 then [UInt16.ofNat c.toNat]
  else
    [UInt16.ofNat (0xD800 + (c.toNat - 0x10000) / 0x400),
      UInt16.ofNat (0xDC00 + (c.toNat - 0x10000) % 0x400)]

/-- Text split into code points: surrogate pairs and single units. -/
def points : List UInt16 → List (List UInt16)
  | [] => []
  | [u] => [[u]]
  | u :: v :: rest =>
    if isHigh u && isLow v then [u, v] :: points rest else [u] :: points (v :: rest)

/-- The scalar value of a code point, where a lone surrogate counts as U+FFFD. -/
def scalar : List UInt16 → Char
  | [u] => if isHigh u || isLow u then replacement else Char.ofNat u.toNat
  | [u, v] => Char.ofNat (0x10000 + (u.toNat - 0xD800) * 0x400 + (v.toNat - 0xDC00))
  | _ => replacement

/-- The UTF-8 bytes of text. -/
def encodeUtf8 (text : List UInt16) : List UInt8 :=
  (points text).flatMap fun point ↦ String.utf8EncodeChar (scalar point)

/-- A scalar value is no surrogate. -/
theorem toNat_lt_or (c : Char) : c.toNat < 0xD800 ∨ 0xDFFF < c.toNat ∧ c.toNat < 0x110000 :=
  c.valid

theorem utf16_of_lt {c : Char} (hc : c.toNat < 0x10000) : utf16 c = [UInt16.ofNat c.toNat] := by
  rw [utf16, if_pos hc]

/-- The unit of a scalar value of the basic plane is no surrogate. -/
theorem not_surrogate {c : Char} (hc : c.toNat < 0x10000) :
    isHigh (UInt16.ofNat c.toNat) = false ∧ isLow (UInt16.ofNat c.toNat) = false := by
  have hval := toNat_lt_or c
  have hu : (UInt16.ofNat c.toNat).toNat = c.toNat := UInt16.toNat_ofNat_of_lt' hc
  simp only [isHigh, isLow, hu, Bool.and_eq_false_iff, decide_eq_false_iff_not]
  omega

/-- The units of a scalar value of a supplementary plane are a surrogate pair. -/
theorem surrogates_of_le {c : Char} (hc : 0x10000 ≤ c.toNat) :
    ∃ u v, utf16 c = [u, v] ∧ isHigh u = true ∧ isLow v = true ∧
      0x10000 + (u.toNat - 0xD800) * 0x400 + (v.toNat - 0xDC00) = c.toNat := by
  have hval := toNat_lt_or c
  have hu : (UInt16.ofNat (0xD800 + (c.toNat - 0x10000) / 0x400)).toNat =
      0xD800 + (c.toNat - 0x10000) / 0x400 := UInt16.toNat_ofNat_of_lt' (by
        show _ < 0x10000
        omega)
  have hv : (UInt16.ofNat (0xDC00 + (c.toNat - 0x10000) % 0x400)).toNat =
      0xDC00 + (c.toNat - 0x10000) % 0x400 := UInt16.toNat_ofNat_of_lt' (by
        show _ < 0x10000
        omega)
  refine ⟨_, _, by rw [utf16, if_neg (Nat.not_lt.2 hc)], ?_, ?_, ?_⟩
  · simp only [isHigh, hu, Bool.and_eq_true, decide_eq_true_eq]
    omega
  · simp only [isLow, hv, Bool.and_eq_true, decide_eq_true_eq]
    omega
  · rw [hu, hv]
    omega

/-- Well-formed text splits into its scalar values. -/
theorem points_utf16_append (c : Char) (rest : List UInt16) :
    points (utf16 c ++ rest) = utf16 c :: points rest := by
  rcases Nat.lt_or_ge c.toNat 0x10000 with hc | hc
  · have hhigh := (not_surrogate hc).1
    rw [utf16_of_lt hc]
    cases rest with
    | nil => rfl
    | cons v rest => simp [points, hhigh]
  · obtain ⟨u, v, huv, hu, hv, -⟩ := surrogates_of_le hc
    rw [huv]
    simp [points, hu, hv]

theorem points_flatMap (chars : List Char) :
    points (chars.flatMap utf16) = chars.map utf16 := by
  induction chars with
  | nil => rfl
  | cons c chars ih => rw [List.flatMap_cons, points_utf16_append, ih, List.map_cons]

@[simp]
theorem scalar_utf16 (c : Char) : scalar (utf16 c) = c := by
  rcases Nat.lt_or_ge c.toNat 0x10000 with hc | hc
  · obtain ⟨hhigh, hlow⟩ := not_surrogate hc
    have hu : (UInt16.ofNat c.toNat).toNat = c.toNat := UInt16.toNat_ofNat_of_lt' hc
    rw [utf16_of_lt hc, scalar, hhigh, hlow, hu]
    exact Char.ofNat_toNat c
  · obtain ⟨u, v, huv, -, -, hval⟩ := surrogates_of_le hc
    rw [huv, scalar, hval]
    exact Char.ofNat_toNat c

/-- **Encoding well-formed text** encodes its scalar values. -/
theorem encodeUtf8_flatMap (chars : List Char) :
    encodeUtf8 (chars.flatMap utf16) = chars.flatMap String.utf8EncodeChar := by
  rw [encodeUtf8, points_flatMap, List.flatMap_map]
  simp

/-! ### UTF-8 -/

/-- The continuation bytes a first byte announces, with the range of the next one. -/
def announced (b : UInt8) : ℕ × ℕ × ℕ :=
  let n := b.toNat
  if 0xC2 ≤ n ∧ n ≤ 0xDF then (1, 0x80, 0xBF)
  else if n = 0xE0 then (2, 0xA0, 0xBF)
  else if n = 0xED then (2, 0x80, 0x9F)
  else if 0xE1 ≤ n ∧ n ≤ 0xEF then (2, 0x80, 0xBF)
  else if n = 0xF0 then (3, 0x90, 0xBF)
  else if 0xF1 ≤ n ∧ n ≤ 0xF3 then (3, 0x80, 0xBF)
  else if n = 0xF4 then (3, 0x80, 0x8F)
  else (0, 0, 0)

/-- How many of the following bytes continue a character that wants `n` more. -/
def continuation : ℕ × ℕ × ℕ → List UInt8 → ℕ
  | (n + 1, lo, hi), b :: rest =>
    if lo ≤ b.toNat ∧ b.toNat ≤ hi then 1 + continuation (n, 0x80, 0xBF) rest else 0
  | _, _ => 0

/-- Decode bytes, of which the first `skip` belong to the last character. A maximal malformed part
is one replacement character. -/
def decodeFrom : ℕ → List UInt8 → List Char
  | _, [] => []
  | skip + 1, _ :: rest => decodeFrom skip rest
  | 0, b :: rest =>
    match (b :: rest).toByteArray.utf8DecodeChar? 0 with
    | some c => c :: decodeFrom (c.utf8Size - 1) rest
    | none => replacement :: decodeFrom (continuation (announced b) rest) rest

/-- The text that UTF-8 bytes denote. -/
def decodeUtf8 (bytes : List UInt8) : List UInt16 :=
  (decodeFrom 0 bytes).flatMap utf16

theorem decodeFrom_skip (skipped rest : List UInt8) :
    decodeFrom skipped.length (skipped ++ rest) = decodeFrom 0 rest := by
  induction skipped with
  | nil => rfl
  | cons b skipped ih => exact ih

theorem decodeFrom_utf8EncodeChar_append (c : Char) (rest : List UInt8) :
    decodeFrom 0 (String.utf8EncodeChar c ++ rest) = c :: decodeFrom 0 rest := by
  have hlen := String.length_utf8EncodeChar c
  have hdecode : (String.utf8EncodeChar c ++ rest).toByteArray.utf8DecodeChar? 0 = some c := by
    rw [List.toByteArray_append]
    exact ByteArray.utf8DecodeChar?_utf8EncodeChar_append
  cases hbytes : String.utf8EncodeChar c with
  | nil =>
    rw [hbytes] at hlen
    exact absurd hlen (Nat.ne_of_lt c.utf8Size_pos)
  | cons b bytes =>
    rw [hbytes] at hlen hdecode
    have hsize : c.utf8Size - 1 = bytes.length := by
      rw [← hlen, List.length_cons, Nat.add_sub_cancel]
    rw [List.cons_append] at hdecode ⊢
    rw [decodeFrom, hdecode]
    show c :: decodeFrom (c.utf8Size - 1) (bytes ++ rest) = _
    rw [hsize, decodeFrom_skip]

/-- **Decoding undoes encoding.** -/
theorem decodeUtf8_flatMap (chars : List Char) :
    decodeUtf8 (chars.flatMap String.utf8EncodeChar) = chars.flatMap utf16 := by
  have hdecode : decodeFrom 0 (chars.flatMap String.utf8EncodeChar) = chars := by
    induction chars with
    | nil => rfl
    | cons c chars ih => rw [List.flatMap_cons, decodeFrom_utf8EncodeChar_append, ih]
  rw [decodeUtf8, hdecode]

/-! ### Prefixes that fit -/

/-- `p` is the longest prefix of the text whose UTF-8 form has at most `limit` bytes. -/
structure IsLongestPrefix (limit : ℕ) (chars p : List Char) : Prop where
  /-- It is a prefix of whole scalar values. -/
  isPrefix : p <+: chars
  /-- It fits. -/
  fits : (p.flatMap String.utf8EncodeChar).length ≤ limit
  /-- No longer prefix fits. -/
  longest : ∀ q, q <+: chars → (q.flatMap String.utf8EncodeChar).length ≤ limit →
    q.length ≤ p.length

/-- A prefix that fits while the next scalar value does not is the longest one. -/
theorem IsLongestPrefix.of_next {limit : ℕ} {p rest : List Char} {c : Char}
    (hfits : (p.flatMap String.utf8EncodeChar).length ≤ limit)
    (hnext : limit < ((p ++ [c]).flatMap String.utf8EncodeChar).length) :
    IsLongestPrefix limit (p ++ c :: rest) p := by
  refine ⟨List.prefix_append _ _, hfits, fun q hq hqfits ↦ ?_⟩
  by_contra hlen
  have hpc : p ++ [c] <+: q := by
    refine List.prefix_of_prefix_length_le ⟨rest, by simp⟩ hq ?_
    rw [List.length_append, List.length_singleton]
    omega
  obtain ⟨more, rfl⟩ := hpc
  rw [List.flatMap_append, List.length_append] at hqfits
  omega

/-- The whole text, if it fits. -/
theorem IsLongestPrefix.refl {limit : ℕ} {chars : List Char}
    (hfits : (chars.flatMap String.utf8EncodeChar).length ≤ limit) :
    IsLongestPrefix limit chars chars :=
  ⟨List.prefix_rfl, hfits, fun _ hq _ ↦ hq.length_le⟩

end Utf
