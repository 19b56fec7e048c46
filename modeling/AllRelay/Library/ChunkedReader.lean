import Mathlib.Data.List.Basic

/-!
# Chunked readers

A byte stream that is read from a socket arrives in chunks, and a read returns what has arrived, up
to the size of its buffer. `readFull` repeats reads until its buffer is full. What it returns
depends only on the bytes of the stream and not on the chunks (`readFull_of_le`, `readFull_of_lt`),
so a format that is read with `readFull` does not see the chunks either.
-/

namespace ChunkedReader

/-- A stream: the chunks in which it arrives, then its end. -/
abbrev Reader := List (List UInt8)

/-- Why a read of a whole buffer fails. -/
inductive ReadError where
  /-- The stream ended before the first byte. -/
  | eof
  /-- The stream ended inside the buffer. -/
  | unexpectedEOF
deriving DecidableEq, Repr

/-- Read exactly `n` bytes. -/
def readFull (n : ℕ) : Reader → Except ReadError (List UInt8 × Reader)
  | [] => if n = 0 then .ok ([], []) else .error .eof
  | chunk :: r =>
    if n ≤ chunk.length then .ok (chunk.take n, chunk.drop n :: r)
    else
      match readFull (n - chunk.length) r with
      | .ok (bytes, r) => .ok (chunk ++ bytes, r)
      | .error e => .error (if chunk = [] then e else .unexpectedEOF)

/-- Read at most `n` bytes, up to the end of the stream. -/
def readUpTo (n : ℕ) (r : Reader) : List UInt8 × Reader :=
  match readFull n r with
  | .ok (bytes, r) => (bytes, r)
  | .error _ => (r.flatten, [])

/-- A read that the stream can satisfy. -/
theorem readFull_of_le {n : ℕ} {r : Reader} (h : n ≤ r.flatten.length) :
    ∃ r', readFull n r = .ok (r.flatten.take n, r') ∧ r'.flatten = r.flatten.drop n := by
  induction r generalizing n with
  | nil =>
    obtain rfl : n = 0 := by simpa using h
    exact ⟨[], rfl, rfl⟩
  | cons chunk r ih =>
    rw [readFull, List.flatten_cons]
    rw [List.flatten_cons, List.length_append] at h
    split
    · rename_i hle
      exact ⟨chunk.drop n :: r, by rw [List.take_append_of_le_length hle],
        by rw [List.drop_append_of_le_length hle, List.flatten_cons]⟩
    · rename_i hlt
      obtain ⟨r', hread, hrest⟩ := ih (n := n - chunk.length) (by omega)
      have hlen : chunk.length ≤ n := by omega
      refine ⟨r', ?_, ?_⟩
      · rw [hread, List.take_append, List.take_of_length_le hlen]
      · rw [hrest, List.drop_append, List.drop_eq_nil_of_le hlen, List.nil_append]

/-- **A read of what is in front** of the stream. -/
theorem readFull_of_append {r : Reader} {bytes rest : List UInt8}
    (hr : r.flatten = bytes ++ rest) :
    ∃ r', readFull bytes.length r = .ok (bytes, r') ∧ r'.flatten = rest := by
  have hle : bytes.length ≤ r.flatten.length := by
    rw [hr, List.length_append]
    exact Nat.le_add_right _ _
  obtain ⟨r', hread, hrest⟩ := readFull_of_le hle
  rw [hr, List.take_left] at hread
  rw [hr, List.drop_left] at hrest
  exact ⟨r', hread, hrest⟩

/-- A read that the stream cannot satisfy. -/
theorem readFull_of_lt {n : ℕ} {r : Reader} (h : r.flatten.length < n) :
    readFull n r = .error (if r.flatten = [] then .eof else .unexpectedEOF) := by
  induction r generalizing n with
  | nil =>
    rw [readFull, if_neg (by simp at h; omega)]
    rfl
  | cons chunk r ih =>
    rw [List.flatten_cons, List.length_append] at h
    rw [readFull, if_neg (by omega), ih (by omega), List.flatten_cons]
    by_cases hc : chunk = []
    · rw [hc]
      rfl
    · simp [hc]

/-- Two streams with the same bytes are read alike. -/
theorem readFull_congr {r r' : Reader} (h : r.flatten = r'.flatten) (n : ℕ) :
    (∃ bytes q q', readFull n r = .ok (bytes, q) ∧ readFull n r' = .ok (bytes, q') ∧
      q.flatten = q'.flatten ∧ bytes ++ q.flatten = r.flatten ∧ bytes.length = n) ∨
    ∃ e, readFull n r = .error e ∧ readFull n r' = .error e := by
  obtain hlt | hle := Nat.lt_or_ge r.flatten.length n
  · refine .inr ⟨_, readFull_of_lt hlt, ?_⟩
    rw [h]
    exact readFull_of_lt (h ▸ hlt)
  · obtain ⟨q, hq, hqr⟩ := readFull_of_le hle
    obtain ⟨q', hq', hqr'⟩ := readFull_of_le (r := r') (h ▸ hle)
    rw [← h] at hq' hqr'
    exact .inl ⟨_, q, q', hq, hq', hqr.trans hqr'.symm, by rw [hqr, List.take_append_drop],
      List.length_take_of_le hle⟩

/-- A partial read takes the bytes from the front of the stream. -/
theorem readUpTo_spec (n : ℕ) (r : Reader) :
    (readUpTo n r).1 ++ (readUpTo n r).2.flatten = r.flatten := by
  rw [readUpTo]
  obtain h | h := Nat.lt_or_ge r.flatten.length n
  · rw [readFull_of_lt h]
    exact List.append_nil _
  · obtain ⟨r', hread, hrest⟩ := readFull_of_le h
    rw [hread]
    show r.flatten.take n ++ r'.flatten = r.flatten
    rw [hrest, List.take_append_drop]

/-- A partial read is a split of the bytes. -/
theorem readUpTo_eq (n : ℕ) (r : Reader) :
    (readUpTo n r).1 = r.flatten.take n ∧ (readUpTo n r).2.flatten = r.flatten.drop n := by
  rw [readUpTo]
  obtain h | h := Nat.lt_or_ge r.flatten.length n
  · rw [readFull_of_lt h]
    exact ⟨(List.take_of_length_le (Nat.le_of_lt h)).symm,
      (List.drop_eq_nil_of_le (Nat.le_of_lt h)).symm⟩
  · obtain ⟨r', hread, hrest⟩ := readFull_of_le h
    rw [hread]
    exact ⟨rfl, hrest⟩

end ChunkedReader
