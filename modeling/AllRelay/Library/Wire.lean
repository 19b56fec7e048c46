import Mathlib.Algebra.Order.Ring.Int
import Mathlib.Data.List.Forall2
import Mathlib.Data.Nat.Basic
import Mathlib.Tactic.Ring

/-!
# Wire formats

Big-endian integers, and parsers that read a stream of bytes from the front.

A parser (`Wire.Parser`) returns a value and the bytes it left, or fails: with `eof` when the stream
ends too early, or with an error of its own. Two notions carry every round trip.

* `Parses p bytes a`: in front of whatever follows, `p` reads exactly `bytes` and returns `a`. It is
  closed under sequencing (`Parses.bind`, `Parses.many`), so a format is verified field by field.
* `Streaming p`: what `p` does on a stream does not change when the stream goes on, unless it was
  waiting for more. A streaming parser that reads all of `bytes` waits on every proper prefix of
  them (`Streaming.eof_of_prefix`), which is what makes a truncated message harmless at the end of a
  stream.
-/

namespace Wire

/-! ### Big-endian integers -/

/-- The `k` low bytes of `n`, most significant first. -/
def bigEndian : ℕ → ℕ → List UInt8
  | 0, _ => []
  | k + 1, n => UInt8.ofNat (n / 256 ^ k) :: bigEndian k n

/-- The number that big-endian bytes denote. -/
def value (bytes : List UInt8) : ℕ :=
  bytes.foldl (fun n b ↦ n * 256 + b.toNat) 0

/-- The `k` low bytes of an integer in two's complement. -/
def ofInt (k : ℕ) (v : ℤ) : List UInt8 :=
  bigEndian k (v % 256 ^ k).toNat

/-- The integer that `k` bytes of two's complement with unsigned value `n` denote. -/
def signed (k n : ℕ) : ℤ :=
  Int.bmod n (256 ^ k)

@[simp]
theorem length_bigEndian (k n : ℕ) : (bigEndian k n).length = k := by
  induction k with
  | zero => rfl
  | succ k ih => rw [bigEndian, List.length_cons, ih]

@[simp]
theorem length_ofInt (k : ℕ) (v : ℤ) : (ofInt k v).length = k :=
  length_bigEndian _ _

theorem foldl_bigEndian (k n a : ℕ) :
    (bigEndian k n).foldl (fun n b ↦ n * 256 + b.toNat) a = a * 256 ^ k + n % 256 ^ k := by
  induction k generalizing a with
  | zero => simp [bigEndian, Nat.mod_one]
  | succ k ih =>
    have hsplit : n % 256 ^ (k + 1) = n % 256 ^ k + 256 ^ k * (n / 256 ^ k % 256) := by
      rw [pow_succ, Nat.mod_mul]
    rw [bigEndian, List.foldl_cons, ih, hsplit, UInt8.toNat_ofNat']
    ring

/-- Reading back the `k` low bytes of a number. -/
theorem value_bigEndian (k n : ℕ) : value (bigEndian k n) = n % 256 ^ k := by
  rw [value, foldl_bigEndian, Nat.zero_mul, Nat.zero_add]

theorem value_ofInt (k : ℕ) (v : ℤ) : (value (ofInt k v) : ℤ) = v % 256 ^ k := by
  have hpos : (0 : ℤ) < 256 ^ k := Int.pow_pos (by decide)
  have hlt : (v % 256 ^ k).toNat < 256 ^ k := by
    have hv := Int.emod_lt_of_pos v hpos
    have hcast : ((256 ^ k : ℕ) : ℤ) = 256 ^ k := by norm_cast
    omega
  rw [ofInt, value_bigEndian, Nat.mod_eq_of_lt hlt,
    Int.toNat_of_nonneg (Int.emod_nonneg v (ne_of_gt hpos))]

/-- **Two's complement**: an integer in the range of `k` bytes is read back. -/
theorem signed_value_ofInt {k : ℕ} {v : ℤ} (hlo : -(256 ^ k) ≤ 2 * v) (hhi : 2 * v < 256 ^ k) :
    signed k (value (ofInt k v)) = v := by
  have hcast : ((256 ^ k : ℕ) : ℤ) = 256 ^ k := by norm_cast
  rw [signed, value_ofInt, ← hcast, Int.emod_bmod]
  refine Int.bmod_eq_of_le_mul_two ?_ ?_ <;> rw [hcast] <;> omega

theorem foldl_value (bytes : List UInt8) (n : ℕ) :
    bytes.foldl (fun n b ↦ n * 256 + b.toNat) n = n * 256 ^ bytes.length + value bytes := by
  induction bytes generalizing n with
  | nil => simp [value]
  | cons c bytes ih =>
    rw [value, List.foldl_cons, List.foldl_cons, ih, ih, List.length_cons]
    ring

theorem value_cons (b : UInt8) (bytes : List UInt8) :
    value (b :: bytes) = b.toNat * 256 ^ bytes.length + value bytes := by
  rw [value, List.foldl_cons, foldl_value, Nat.zero_mul, Nat.zero_add]

theorem value_lt (bytes : List UInt8) : value bytes < 256 ^ bytes.length := by
  induction bytes with
  | nil => exact Nat.one_pos
  | cons b bytes ih =>
    have hb : b.toNat + 1 ≤ 256 := b.toNat_lt
    have hle := Nat.mul_le_mul_right (256 ^ bytes.length) hb
    rw [value_cons, List.length_cons, pow_succ']
    rw [Nat.add_mul, Nat.one_mul] at hle
    omega

/-- Only the low bytes of a number matter. -/
theorem bigEndian_mod (k n : ℕ) : bigEndian k (n % 256 ^ k) = bigEndian k n := by
  induction k generalizing n with
  | zero => rfl
  | succ k ih =>
    have hdiv : n % 256 ^ (k + 1) / 256 ^ k = n / 256 ^ k % 256 := by
      rw [pow_succ, Nat.mod_mul_right_div_self]
    have hlow : n % 256 ^ (k + 1) % 256 ^ k = n % 256 ^ k :=
      Nat.mod_mod_of_dvd n (Nat.pow_dvd_pow 256 (Nat.le_succ k))
    have hbyte : UInt8.ofNat (n / 256 ^ k % 256) = UInt8.ofNat (n / 256 ^ k) :=
      UInt8.toNat_inj.mp (by simp)
    rw [bigEndian, bigEndian, ← ih, hlow, ih, hdiv, hbyte]

/-- Bytes are the bytes of the number that they denote. -/
theorem bigEndian_value (bytes : List UInt8) : bigEndian bytes.length (value bytes) = bytes := by
  induction bytes with
  | nil => rfl
  | cons b bytes ih =>
    have hlt := value_lt bytes
    have hdiv : (b.toNat * 256 ^ bytes.length + value bytes) / 256 ^ bytes.length = b.toNat := by
      rw [Nat.mul_comm, Nat.mul_add_div (Nat.pow_pos (by decide)), Nat.div_eq_of_lt hlt,
        Nat.add_zero]
    rw [List.length_cons, bigEndian, value_cons, hdiv, ← bigEndian_mod, Nat.mul_add_mod_of_lt hlt,
      ih, UInt8.ofNat_toNat]

/-- The bytes of a wide integer are the bytes of its two halves. -/
theorem bigEndian_add (j k n : ℕ) :
    bigEndian (j + k) n = bigEndian j (n / 256 ^ k) ++ bigEndian k n := by
  induction j with
  | zero => simp [bigEndian]
  | succ j ih =>
    rw [Nat.succ_add, bigEndian, bigEndian, ih, List.cons_append, Nat.div_div_eq_div_mul,
      ← pow_add, Nat.add_comm k j]

/-! ### Parsers -/

/-- Why a parser fails. -/
inductive Failure (ε : Type) where
  /-- The stream ended. -/
  | eof
  /-- The bytes are not acceptable. -/
  | error (e : ε)
deriving DecidableEq, Repr

/-- A parser: the value it reads and the bytes it leaves. -/
def Parser (ε α : Type) :=
  List UInt8 → Except (Failure ε) (α × List UInt8)

namespace Parser

variable {ε α β : Type}

/-- Return a value without reading. -/
def pure (a : α) : Parser ε α :=
  fun bytes ↦ .ok (a, bytes)

/-- Read with `p`, then go on with `f`. -/
def bind (p : Parser ε α) (f : α → Parser ε β) : Parser ε β :=
  fun bytes ↦
    match p bytes with
    | .ok (a, rest) => f a rest
    | .error e => .error e

/-- Fail. -/
def throw (e : ε) : Parser ε α :=
  fun _ ↦ .error (.error e)

/-- Read `k` bytes. -/
def take (k : ℕ) : Parser ε (List UInt8) :=
  fun bytes ↦
    if k ≤ bytes.length then .ok (bytes.take k, bytes.drop k) else .error .eof

instance : Monad (Parser ε) where
  pure := Parser.pure
  bind := Parser.bind

/-- An unsigned integer of `k` bytes. -/
def uint (k : ℕ) : Parser ε ℕ := do
  return value (← take k)

/-- A signed integer of `k` bytes. -/
def int (k : ℕ) : Parser ε ℤ := do
  return signed k (value (← take k))

/-- `n` values, one after another. -/
def many (p : Parser ε α) : ℕ → Parser ε (List α)
  | 0 => return []
  | n + 1 => do
    let a ← p
    return a :: (← many p n)

end Parser

/-! ### Exact reads -/

/-- `p` reads exactly `bytes` and returns `a`, whatever follows. -/
def Parses {ε α : Type} (p : Parser ε α) (bytes : List UInt8) (a : α) : Prop :=
  ∀ rest, p (bytes ++ rest) = .ok (a, rest)

variable {ε α β : Type}

theorem Parses.pure (a : α) : Parses (Pure.pure a : Parser ε α) [] a :=
  fun _ ↦ rfl

theorem Parses.bind {p : Parser ε α} {f : α → Parser ε β} {xs ys : List UInt8} {a : α} {b : β}
    (hp : Parses p xs a) (hf : Parses (f a) ys b) : Parses (p >>= f) (xs ++ ys) b := by
  intro rest
  show Parser.bind p f _ = _
  rw [Parser.bind, List.append_assoc, hp]
  exact hf rest

/-- The last field of a format. -/
theorem Parses.map {p : Parser ε α} {xs : List UInt8} {a : α} (hp : Parses p xs a) (f : α → β) :
    Parses (p >>= fun a ↦ Pure.pure (f a)) xs (f a) := by
  have h : Parses (p >>= fun a ↦ Pure.pure (f a)) (xs ++ []) (f a) := hp.bind (.pure _)
  rwa [List.append_nil] at h

theorem parses_take (bytes : List UInt8) :
    Parses (Parser.take bytes.length : Parser ε _) bytes bytes := by
  intro rest
  rw [Parser.take, if_pos (by simp), List.take_left, List.drop_left]

theorem parses_uint (k n : ℕ) :
    Parses (Parser.uint k : Parser ε _) (bigEndian k n) (n % 256 ^ k) := by
  have h : Parses (Parser.uint (bigEndian k n).length : Parser ε _) (bigEndian k n)
      (value (bigEndian k n)) := (parses_take (bigEndian k n)).map value
  rwa [length_bigEndian, value_bigEndian] at h

theorem parses_int {k : ℕ} {v : ℤ} (hlo : -(256 ^ k) ≤ 2 * v) (hhi : 2 * v < 256 ^ k) :
    Parses (Parser.int k : Parser ε _) (ofInt k v) v := by
  have h : Parses (Parser.int (ofInt k v).length : Parser ε _) (ofInt k v)
      (signed (ofInt k v).length (value (ofInt k v))) :=
    (parses_take (ofInt k v)).map fun bytes ↦ signed (ofInt k v).length (value bytes)
  rwa [length_ofInt, signed_value_ofInt hlo hhi] at h

/-- **Sequences**: values that are each read exactly are read one after another. -/
theorem Parses.many {p : Parser ε α} {bs : List (List UInt8)} {as : List α}
    (h : List.Forall₂ (Parses p) bs as) : Parses (p.many as.length) bs.flatten as := by
  induction h with
  | nil => exact .pure []
  | @cons b a bs as hb _ ih =>
    have htail := ih.map fun as ↦ a :: as
    exact hb.bind htail

/-- An exact read of a whole stream leaves nothing. -/
theorem Parses.eq {p : Parser ε α} {bytes : List UInt8} {a : α} (h : Parses p bytes a) :
    p bytes = .ok (a, []) := by
  have hp := h []
  rwa [List.append_nil] at hp

/-! ### Streaming -/

/-- What a parser does is not changed by bytes that come later, unless it was waiting for them. -/
def Streaming (p : Parser ε α) : Prop :=
  ∀ bytes more,
    match p bytes with
    | .ok (a, rest) => p (bytes ++ more) = .ok (a, rest ++ more)
    | .error .eof => True
    | .error (.error e) => p (bytes ++ more) = .error (.error e)

theorem Streaming.pure (a : α) : Streaming (Pure.pure a : Parser ε α) :=
  fun _ _ ↦ rfl

theorem Streaming.throw (e : ε) : Streaming (Parser.throw e : Parser ε α) :=
  fun _ _ ↦ rfl

theorem Streaming.take (k : ℕ) : Streaming (Parser.take k : Parser ε _) := by
  intro bytes more
  by_cases hk : k ≤ bytes.length
  · have hlen : k ≤ (bytes ++ more).length := by rw [List.length_append]; omega
    simp only [Parser.take, hk, hlen, if_true]
    rw [List.take_append_of_le_length hk, List.drop_append_of_le_length hk]
  · simp only [Parser.take, hk, if_false]

theorem Streaming.bind {p : Parser ε α} {f : α → Parser ε β} (hp : Streaming p)
    (hf : ∀ a, Streaming (f a)) : Streaming (p >>= f) := by
  intro bytes more
  have h := hp bytes more
  show match Parser.bind p f bytes with
    | .ok (a, rest) => Parser.bind p f (bytes ++ more) = .ok (a, rest ++ more)
    | .error .eof => True
    | .error (.error e) => Parser.bind p f (bytes ++ more) = .error (.error e)
  unfold Parser.bind
  rcases hpb : p bytes with (- | e) | ⟨a, rest⟩
  · trivial
  · rw [hpb] at h
    simp only at h
    simp only [h]
  · rw [hpb] at h
    simp only at h
    simp only [h]
    exact hf a rest more

theorem Streaming.uint (k : ℕ) : Streaming (Parser.uint k : Parser ε _) :=
  (Streaming.take k).bind fun _ ↦ .pure _

theorem Streaming.int (k : ℕ) : Streaming (Parser.int k : Parser ε _) :=
  (Streaming.take k).bind fun _ ↦ .pure _

/-- **Truncation**: a streaming parser that reads all of `bytes` waits on every proper prefix. -/
theorem Streaming.eof_of_prefix {p : Parser ε α} (hp : Streaming p) {bytes short : List UInt8}
    {a : α} (h : p bytes = .ok (a, [])) (hshort : short <+: bytes) (hne : short ≠ bytes) :
    p short = .error .eof := by
  obtain ⟨more, rfl⟩ := hshort
  have hs := hp short more
  rcases hps : p short with (- | e) | ⟨a', rest⟩
  · rfl
  · rw [hps, h] at hs
    cases hs
  · rw [hps, h] at hs
    have hrest : rest ++ more = [] := by
      simp only [Except.ok.injEq, Prod.mk.injEq] at hs
      exact hs.2.symm
    exact absurd (by rw [(List.append_eq_nil_iff.1 hrest).2, List.append_nil]) hne

end Wire
