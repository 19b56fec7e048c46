import Mathlib.Data.List.Forall2
import Mathlib.Data.List.Basic

/-!
# Decoding a stream from a buffer

A receiver keeps the bytes it could not use yet in a buffer. Whenever more arrive it decodes as many
messages from the front of the buffer as are complete (`drain`), and keeps the rest.

A decoder is asked for the first message of some bytes; it finds one and says how many bytes it
takes, or it waits for more, or it gives up (`Outcome`). If it finds each message behind which
anything may follow (`Finds`) and waits in the middle of one (`Waits`), then it does not matter how
the stream is cut into chunks: `drain_split` says what is decoded from any part of the stream, and
that what is left in the buffer is part of a single message.
-/

namespace StreamDecoder

variable {β α : Type}

/-- What a decoder says of some bytes. -/
inductive Outcome (α : Type) where
  /-- They are not the start of a message. -/
  | error
  /-- They are part of a message. -/
  | incomplete
  /-- They start with a message of `size` bytes. -/
  | message (a : α) (size : ℕ)
deriving DecidableEq, Repr

/-- Decode from the front of some bytes, at most `fuel` times: what was decoded, and what is left
unless the decoder gave up. -/
def drain (decode : List β → Outcome α) : ℕ → List β → List α × Option (List β)
  | 0, _ => ([], none)
  | fuel + 1, bytes =>
    match decode bytes with
    | .error => ([], none)
    | .incomplete => ([], some bytes)
    | .message a size =>
      let (as, rest) := drain decode fuel (bytes.drop size)
      (a :: as, rest)

/-- The decoder finds `a` in `enc`, whatever follows. -/
def Finds (decode : List β → Outcome α) (enc : List β) (a : α) : Prop :=
  ∀ rest, decode (enc ++ rest) = .message a enc.length

/-- The decoder waits in the middle of `enc`. -/
def Waits (decode : List β → Outcome α) (enc : List β) : Prop :=
  ∀ part, part <+: enc → part ≠ enc → decode part = .incomplete

/-- Bytes that are part of the first of some messages, or none. -/
def PartOf (part : List β) : List (List β) → Prop
  | [] => part = []
  | enc :: _ => part <+: enc ∧ part ≠ enc

theorem PartOf.append {part : List β} {encs : List (List β)} (h : PartOf part encs)
    {more : List (List β)} (hmore : ∀ enc ∈ more, enc ≠ []) : PartOf part (encs ++ more) := by
  cases encs with
  | cons enc encs => exact h
  | nil =>
    obtain rfl := h
    cases more with
    | nil => rfl
    | cons enc more => exact ⟨List.nil_prefix, (hmore enc List.mem_cons_self).symm⟩

/-- **Any part of a stream** is whole messages and a part of the next. -/
theorem exists_split {encs : List (List β)} (hne : ∀ enc ∈ encs, enc ≠ []) {bytes : List β}
    (h : bytes <+: encs.flatten) :
    ∃ whole rest part, encs = whole ++ rest ∧ bytes = whole.flatten ++ part ∧ PartOf part rest := by
  induction encs generalizing bytes with
  | nil => exact ⟨[], [], [], rfl, List.prefix_nil.1 h, rfl⟩
  | cons enc encs ih =>
    rw [List.flatten_cons] at h
    rcases Nat.lt_or_ge bytes.length enc.length with hlt | hge
    · have hpart : bytes <+: enc :=
        List.prefix_of_prefix_length_le h (List.prefix_append _ _) (Nat.le_of_lt hlt)
      refine ⟨[], enc :: encs, bytes, rfl, rfl, hpart, ?_⟩
      rintro rfl
      exact absurd hlt (Nat.lt_irrefl _)
    · obtain ⟨tail, rfl⟩ := List.prefix_of_prefix_length_le (List.prefix_append enc _) h hge
      obtain ⟨whole, rest, part, rfl, rfl, hpart⟩ :=
        ih (fun e he ↦ hne e (List.mem_cons_of_mem _ he)) ((List.prefix_append_right_inj enc).1 h)
      exact ⟨enc :: whole, rest, part, rfl, by simp, hpart⟩

variable {decode : List β → Outcome α}

/-- **Draining** decodes the whole messages, and leaves the part behind them. -/
theorem drain_eq {whole : List (List β)} {as : List α}
    (hfinds : List.Forall₂ (Finds decode) whole as) {part : List β}
    (hpart : decode part = .incomplete) {fuel : ℕ} (hfuel : whole.length < fuel) :
    drain decode fuel (whole.flatten ++ part) = (as, some part) := by
  induction hfinds generalizing fuel with
  | nil =>
    obtain ⟨fuel, rfl⟩ := Nat.exists_eq_succ_of_ne_zero (Nat.ne_of_gt hfuel)
    rw [List.flatten_nil, List.nil_append, drain, hpart]
  | @cons enc a whole as henc _ ih =>
    obtain ⟨fuel, rfl⟩ := Nat.exists_eq_succ_of_ne_zero (Nat.ne_zero_of_lt hfuel)
    rw [List.flatten_cons, List.append_assoc, drain, henc]
    simp only [List.drop_left, ih (Nat.lt_of_succ_lt_succ hfuel)]

/-- No more messages than bytes. -/
theorem length_le_length_flatten {encs : List (List β)} (hne : ∀ enc ∈ encs, enc ≠ []) :
    encs.length ≤ encs.flatten.length := by
  induction encs with
  | nil => exact Nat.le_refl _
  | cons enc encs ih =>
    have hpos := List.length_pos_of_ne_nil (hne enc List.mem_cons_self)
    have hle := ih fun e he ↦ hne e (List.mem_cons_of_mem _ he)
    rw [List.flatten_cons, List.length_append, List.length_cons]
    omega

/-- **The chunks do not matter.** From the part of a stream that has arrived, `drain` decodes
exactly the messages that are complete, and what it leaves is part of the next. -/
theorem drain_split {encs : List (List β)} {as : List α}
    (hfinds : List.Forall₂ (Finds decode) encs as) (hwaits : ∀ enc ∈ encs, Waits decode enc)
    (hne : ∀ enc ∈ encs, enc ≠ []) (hnil : decode [] = .incomplete) {bytes : List β}
    (h : bytes <+: encs.flatten) {fuel : ℕ} (hfuel : bytes.length < fuel) :
    ∃ whole rest part, encs = whole ++ rest ∧ bytes = whole.flatten ++ part ∧ PartOf part rest ∧
      drain decode fuel bytes = (as.take whole.length, some part) := by
  obtain ⟨whole, rest, part, rfl, rfl, hpart⟩ := exists_split hne h
  have hdone := (List.forall₂_take_append as whole rest hfinds.flip).flip
  have hincomplete : decode part = .incomplete := by
    cases rest with
    | nil =>
      obtain rfl := hpart
      exact hnil
    | cons enc rest => exact hwaits enc (by simp) part hpart.1 hpart.2
  have hlen := length_le_length_flatten fun e he ↦ hne e (List.mem_append_left _ he)
  rw [List.length_append] at hfuel
  exact ⟨whole, rest, part, rfl, rfl, hpart, drain_eq hdone hincomplete (by omega)⟩

end StreamDecoder
