import AllRelay.Library.Utf

/-!
# Cutting UTF-8 text at a boundary

To cut a text at a number of bytes, a program looks at the byte where the cut would be and walks
back while that byte continues a character. `truncationIndex` is this walk. It has no answer when it
walks past the front, which a malformed text makes it do.

On well-formed text it always has one, and it is the end of the longest prefix of whole characters
that fits (`truncationIndex_flatMap`): inside a character every byte but the first continues it.
-/

namespace Utf

/-! ### The walk -/

/-- A byte that continues a character. -/
def isContinuation (b : UInt8) : Bool :=
  b &&& 0x80 != 0 && b &&& 0xc0 != 0xc0

/-- Walk back from an index to a byte that starts a character. A zero byte stands behind the
text. -/
def walkBack (bytes : List UInt8) : ℕ → Option ℕ
  | 0 => if isContinuation (bytes.getD 0 0) then none else some 0
  | i + 1 => if isContinuation (bytes.getD (i + 1) 0) then walkBack bytes i else some (i + 1)

/-- Where to cut a text, so that at most `limit` bytes of it are left. -/
def truncationIndex (bytes : List UInt8) (limit : ℕ) : Option ℕ :=
  if bytes.length ≤ limit then some bytes.length else walkBack bytes limit

/-! ### The bytes of a character -/

theorem isContinuation_eq (b : UInt8) :
    isContinuation b = decide (0x80 ≤ b.toNat ∧ b.toNat < 0xc0) := by
  have h : ∀ n : Fin 256, isContinuation (UInt8.ofNat n) =
      decide (0x80 ≤ (n : ℕ) ∧ (n : ℕ) < 0xc0) := by decide +kernel
  have hb := h ⟨b.toNat, b.toNat_lt⟩
  rwa [UInt8.ofNat_toNat] at hb

theorem isContinuation_ofNat {n : ℕ} (hlo : 0x80 ≤ n) (hhi : n < 0xc0) :
    isContinuation (UInt8.ofNat n) = true := by
  rw [isContinuation_eq, UInt8.toNat_ofNat', decide_eq_true_eq]
  omega

theorem not_isContinuation_ofNat {n : ℕ} (hn : n < 0x80 ∨ 0xc0 ≤ n) (hlt : n < 0x100) :
    isContinuation (UInt8.ofNat n) = false := by
  rw [isContinuation_eq, UInt8.toNat_ofNat', decide_eq_false_iff_not]
  omega

/-- **A character is a first byte and bytes that continue it.** -/
theorem utf8EncodeChar_eq_cons (c : Char) :
    ∃ b bytes, String.utf8EncodeChar c = b :: bytes ∧ isContinuation b = false ∧
      ∀ x ∈ bytes, isContinuation x = true := by
  have htail : ∀ n : ℕ, isContinuation (UInt8.ofNat (n % 0x40 + 0x80)) = true := fun n ↦
    isContinuation_ofNat (by omega) (by omega)
  fun_cases String.utf8EncodeChar c with
  | case1 v hv => exact ⟨_, [], rfl, not_isContinuation_ofNat (.inl (by omega)) (by omega), by simp⟩
  | case2 v =>
    refine ⟨_, _, rfl, not_isContinuation_ofNat (.inr (by omega)) (by omega), fun x hx ↦ ?_⟩
    obtain rfl := List.mem_singleton.1 hx
    exact htail _
  | case3 v =>
    refine ⟨_, _, rfl, not_isContinuation_ofNat (.inr (by omega)) (by omega), fun x hx ↦ ?_⟩
    simp only [List.mem_cons, List.not_mem_nil, or_false] at hx
    obtain rfl | rfl := hx <;> exact htail _
  | case4 v =>
    refine ⟨_, _, rfl, not_isContinuation_ofNat (.inr (by omega)) (by omega), fun x hx ↦ ?_⟩
    simp only [List.mem_cons, List.not_mem_nil, or_false] at hx
    obtain rfl | rfl | rfl := hx <;> exact htail _

/-! ### The cut -/

/-- A text that does not fit has a character that the limit falls into. -/
theorem exists_next (limit : ℕ) (chars : List Char)
    (h : limit < (chars.flatMap String.utf8EncodeChar).length) :
    ∃ p c rest, chars = p ++ c :: rest ∧ (p.flatMap String.utf8EncodeChar).length ≤ limit ∧
      limit < ((p ++ [c]).flatMap String.utf8EncodeChar).length := by
  induction chars generalizing limit with
  | nil => exact absurd h (Nat.not_lt_zero limit)
  | cons c chars ih =>
    rcases Nat.lt_or_ge limit (String.utf8EncodeChar c).length with hlt | hge
    · exact ⟨[], c, chars, rfl, Nat.zero_le limit, by simpa using hlt⟩
    · rw [List.flatMap_cons, List.length_append] at h
      obtain ⟨p, d, rest, rfl, hfits, hnext⟩ :=
        ih (limit - (String.utf8EncodeChar c).length) (by omega)
      refine ⟨c :: p, d, rest, rfl, ?_, ?_⟩
      · rw [List.flatMap_cons, List.length_append]
        omega
      · rw [List.cons_append, List.flatMap_cons, List.length_append]
        omega

/-- From within a character the walk ends at its first byte. -/
theorem walkBack_eq (front rest : List UInt8) {b : UInt8} {tail : List UInt8}
    (hb : isContinuation b = false) (htail : ∀ x ∈ tail, isContinuation x = true) {k : ℕ}
    (hk : k ≤ tail.length) :
    walkBack (front ++ (b :: tail ++ rest)) (front.length + k) = some front.length := by
  induction k with
  | zero =>
    have hget : (front ++ (b :: tail ++ rest)).getD front.length 0 = b := by simp
    rw [Nat.add_zero]
    cases hlen : front.length with
    | zero =>
      rw [hlen] at hget
      rw [walkBack, hget, hb]
      rfl
    | succ n =>
      rw [hlen] at hget
      rw [walkBack, hget, hb]
      rfl
  | succ k ih =>
    have hget : (front ++ (b :: tail ++ rest)).getD (front.length + (k + 1)) 0 = tail[k] := by
      have hin : k + 1 < (b :: tail).length := Nat.succ_lt_succ hk
      rw [List.getD_eq_getElem?_getD, List.getElem?_append_right (Nat.le_add_right _ _),
        Nat.add_sub_cancel_left, List.getElem?_append_left hin, List.getElem?_cons_succ,
        List.getElem?_eq_getElem hk, Option.getD_some]
    rw [← Nat.add_assoc, walkBack, Nat.add_assoc, hget, htail _ (List.getElem_mem hk), if_pos rfl]
    exact ih (by omega)

/-- **A cut of well-formed text** leaves the longest prefix of whole characters that fits. -/
theorem truncationIndex_flatMap (chars : List Char) (limit : ℕ) :
    ∃ p, IsLongestPrefix limit chars p ∧
      truncationIndex (chars.flatMap String.utf8EncodeChar) limit =
        some (p.flatMap String.utf8EncodeChar).length ∧
      (chars.flatMap String.utf8EncodeChar).take (p.flatMap String.utf8EncodeChar).length =
        p.flatMap String.utf8EncodeChar := by
  rcases Nat.lt_or_ge limit (chars.flatMap String.utf8EncodeChar).length with hlt | hge
  · obtain ⟨p, c, rest, rfl, hfits, hnext⟩ := exists_next limit chars hlt
    obtain ⟨b, tail, hc, hb, htail⟩ := utf8EncodeChar_eq_cons c
    refine ⟨p, .of_next hfits hnext, ?_, by rw [List.flatMap_append, List.take_left]⟩
    rw [List.flatMap_append, List.flatMap_singleton, List.length_append, hc, List.length_cons]
      at hnext
    rw [truncationIndex, if_neg (Nat.not_le.2 hlt), List.flatMap_append, List.flatMap_cons, hc]
    have hinside : limit - (p.flatMap String.utf8EncodeChar).length ≤ tail.length := by omega
    have hwalk := walkBack_eq (p.flatMap String.utf8EncodeChar)
      (rest.flatMap String.utf8EncodeChar) hb htail hinside
    rwa [Nat.add_sub_cancel' hfits] at hwalk
  · exact ⟨chars, .refl hge, by rw [truncationIndex, if_pos hge], List.take_length⟩

end Utf
