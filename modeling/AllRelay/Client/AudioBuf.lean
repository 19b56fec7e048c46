import AllRelay.Library.LabelledSystem
import AllRelay.Library.RingBuffer

/-!
# The audio buffer of the desktop client

The thread that decodes the sound and the thread of the sound card share `sc_audiobuf`, a ring
buffer without a lock: one of them moves `head` and the other one `tail`. A call reads the cursors,
copies its samples one by one and then moves its own cursor, and `AudioStream.step` lets the two
threads take these steps in any order. The loads acquire and the stores release, so a thread that
sees a cursor sees what was copied before it was stored; a sample is a cell.

The samples come out as they went in (`samples_in_order`).
-/

namespace AllRelay.Client

open LabelledSystem

/-- A value of type `uint32_t`. -/
def uint32 (n : ℤ) : ℕ := (n % 2 ^ 32).toNat

theorem uint32_natCast {n : ℕ} (h : n < 2 ^ 32) : uint32 n = n := by
  rw [uint32]
  omega

/-- `struct sc_audiobuf`. -/
structure AudioBuf (α : Type*) where
  /-- `alloc_size`. -/
  allocSize : ℕ
  /-- The samples at `data`; a cell that was never written has nothing in it. -/
  data : List (Option α)
  /-- `head`, the cursor of the writer. -/
  head : ℕ
  /-- `tail`, the cursor of the reader. -/
  tail : ℕ
deriving DecidableEq, Repr

namespace AudioBuf

variable {α : Type*}

/-- `sc_audiobuf_init`; it fails for a capacity of zero and without memory. -/
def init (capacity : ℕ) (memory : Bool) : Option (AudioBuf α) :=
  if capacity = 0 ∨ !memory then none
  else
    let allocSize := uint32 (capacity + 1)
    some ⟨allocSize, List.replicate allocSize none, 0, 0⟩

/-- `sc_audiobuf_can_read`. -/
def canRead (b : AudioBuf α) : ℕ := uint32 (b.allocSize + b.head - b.tail) % b.allocSize

/-- `can_write` in `sc_audiobuf_write`. -/
def canWrite (b : AudioBuf α) : ℕ := uint32 (b.allocSize + b.tail - b.head - 1) % b.allocSize

/-- The cell of the `i`-th sample of a copy of so many from a cursor on: `right_count` of them lie
up to the end of the array, and the others from its start on. -/
def copyCell (b : AudioBuf α) (cursor count i : ℕ) : ℕ :=
  let rightCount := min (b.allocSize - cursor) count
  if i < rightCount then cursor + i else i - rightCount

/-- A cursor after so many samples. -/
def moved (b : AudioBuf α) (cursor count : ℕ) : ℕ := uint32 (cursor + count) % b.allocSize

theorem copyCell_eq {b : AudioBuf α} {cursor count i : ℕ} (hcursor : cursor < b.allocSize)
    (hi : i < count) (hcount : count ≤ b.allocSize) :
    b.copyCell cursor count i = (cursor + i) % b.allocSize := by
  rw [copyCell]
  split_ifs with h
  · rw [Nat.mod_eq_of_lt (by omega)]
  · rw [Nat.mod_eq_sub_mod (by omega), Nat.mod_eq_of_lt (by omega)]
    omega

end AudioBuf

/-- Where the writer is in its call. -/
inductive AudioWriter (α : Type*) where
  /-- It makes no call. -/
  | idle
  /-- It copies samples from `head` on; so many are copied. -/
  | writing (head : ℕ) (samples : List α) (copied : ℕ)
deriving DecidableEq, Repr

/-- Where the reader is in its call. -/
inductive AudioReader (α : Type*) where
  /-- It makes no call. -/
  | idle
  /-- It takes `count` samples from `tail` on, with those that are copied; nothing if `to` is
  `NULL`. -/
  | reading (tail count : ℕ) (out : Option (List α))
deriving DecidableEq, Repr

/-- A step of one of the two threads. -/
inductive AudioStep (α : Type*) where
  /-- `sc_audiobuf_write` reads the cursors. -/
  | write (samples : List α)
  /-- `sc_audiobuf_write_silence` reads the cursors. -/
  | writeSilence (count : ℕ)
  /-- A sample is copied into the array. -/
  | copyIn
  /-- `head` is stored. -/
  | publish
  /-- `sc_audiobuf_read` reads the cursors; `null` says whether `to` is `NULL`. -/
  | read (count : ℕ) (null : Bool)
  /-- A sample is copied out of the array. -/
  | copyOut
  /-- `tail` is stored. -/
  | release
deriving DecidableEq, Repr

/-- The buffer with the two calls that use it. -/
structure AudioStream (α : Type*) where
  /-- The buffer. -/
  buf : AudioBuf α
  /-- The call of the writer. -/
  writer : AudioWriter α
  /-- The call of the reader. -/
  reader : AudioReader α
  /-- The samples of the calls of the writer that have ended. -/
  sent : List α
  /-- The samples of the calls of the reader that have ended; nothing for one that was dropped. -/
  received : List (Option α)
deriving DecidableEq, Repr

namespace AudioWriter

variable {α : Type*}

/-- The samples of the call. -/
def samples : AudioWriter α → List α
  | .idle => []
  | .writing _ samples _ => samples

/-- The samples that are copied. -/
def copied : AudioWriter α → List α
  | .idle => []
  | .writing _ samples copied => samples.take copied

theorem length_copied_le (w : AudioWriter α) : w.copied.length ≤ w.samples.length := by
  cases w with
  | idle => exact le_rfl
  | writing head samples copied => exact List.length_take_le' _ _

end AudioWriter

namespace AudioStream

variable {α : Type*} (silence : α)

/-- Before the first call. -/
def init (capacity : ℕ) (memory : Bool) : Option (AudioStream α) :=
  (AudioBuf.init capacity memory).map fun b ↦ ⟨b, .idle, .idle, [], []⟩

/-- The start of `sc_audiobuf_write`, up to the copy. -/
def startWrite (s : AudioStream α) (samples : List α) : Option (AudioStream α) :=
  match s.writer with
  | .writing .. => none
  | .idle =>
    if s.buf.canWrite = 0 then some s
    else some { s with writer := .writing s.buf.head (samples.take s.buf.canWrite) 0 }

/-- The start of `sc_audiobuf_read`, up to the copy; it fails for a count of zero. -/
def startRead (s : AudioStream α) (count : ℕ) (null : Bool) : Option (AudioStream α) :=
  match s.reader with
  | .reading .. => none
  | .idle =>
    if count = 0 then none
    else if s.buf.canRead = 0 then some s
    else
      some { s with
        reader := .reading s.buf.tail (min count s.buf.canRead) (if null then none else some []) }

/-- One step of a thread. A copy fails outside of the array and on a cell that was never written. -/
def step (s : AudioStream α) : AudioStep α → Option (AudioStream α)
  | .write samples => s.startWrite samples
  | .writeSilence count => s.startWrite (List.replicate count silence)
  | .copyIn =>
    match s.writer with
    | .idle => none
    | .writing head samples copied => do
      let sample ← samples[copied]?
      let pos := s.buf.copyCell head samples.length copied
      if pos < s.buf.data.length then
        some { s with
          buf := { s.buf with data := s.buf.data.set pos (some sample) }
          writer := .writing head samples (copied + 1) }
      else none
  | .publish =>
    match s.writer with
    | .idle => none
    | .writing head samples copied =>
      if copied = samples.length then
        some { s with
          buf := { s.buf with head := s.buf.moved head samples.length }
          writer := .idle
          sent := s.sent ++ samples }
      else none
  | .read count null => s.startRead count null
  | .copyOut =>
    match s.reader with
    | .reading tail count (some out) => do
      if count ≤ out.length then none
      else
        let sample ← (s.buf.data[s.buf.copyCell tail count out.length]?).join
        return { s with reader := .reading tail count (some (out ++ [sample])) }
    | _ => none
  | .release =>
    match s.reader with
    | .idle => none
    | .reading tail count out =>
      if ∀ samples ∈ out, samples.length = count then
        some { s with
          buf := { s.buf with tail := s.buf.moved tail count }
          reader := .idle
          received := s.received ++
            match out with
            | none => List.replicate count none
            | some samples => samples.map some }
      else none

/-- The two copies use a cell in common. -/
def Overlaps (s : AudioStream α) : Prop :=
  ∃ head samples copied tail count out i j, s.writer = .writing head samples copied ∧
    s.reader = .reading tail count out ∧ i < samples.length ∧ j < count ∧
    s.buf.copyCell head samples.length i = s.buf.copyCell tail count j

/-- The samples in the array: sent or copied, and not received. -/
def stored (s : AudioStream α) : List α := (s.sent ++ s.writer.copied).drop s.received.length

/-- **The invariant**: the cursors count what was sent and received, the cells between them hold the
samples in order, and the copies of the two calls lie on different sides of `head`. -/
structure Inv (capacity : ℕ) (s : AudioStream α) : Prop where
  /-- `alloc_size`. -/
  allocSize : s.buf.allocSize = capacity + 1
  /-- The array has its cells. -/
  data : s.buf.data.length = capacity + 1
  /-- The cursor of the writer. -/
  head : s.buf.head = s.sent.length % (capacity + 1)
  /-- The cursor of the reader. -/
  tail : s.buf.tail = s.received.length % (capacity + 1)
  /-- Nothing is received before it is sent. -/
  received_le : s.received.length ≤ s.sent.length
  /-- What is sent and being sent fits. -/
  fits : s.sent.length + s.writer.samples.length ≤ s.received.length + capacity
  /-- The writer copies from its cursor on. -/
  writer : ∀ head samples copied, s.writer = .writing head samples copied →
    head = s.buf.head ∧ copied ≤ samples.length
  /-- The cells hold the samples. -/
  cells : RingBuffer.items s.buf.data s.received.length s.stored.length = s.stored.map some
  /-- The reader has copied the next samples. -/
  reader : ∀ tail count out, s.reader = .reading tail count out →
    tail = s.buf.tail ∧ s.received.length + count ≤ s.sent.length ∧
      ∀ samples ∈ out, samples.length ≤ count ∧ samples <+: s.sent.drop s.received.length
  /-- What is received was sent. -/
  received : ∀ (i : ℕ) (a : α), s.received[i]? = some (some a) → s.sent[i]? = some a

variable {silence} {capacity : ℕ} {s t : AudioStream α}

theorem inv_init {memory : Bool} (hcap : capacity < 2 ^ 31)
    (h : init capacity memory = some s) : s.Inv capacity := by
  obtain ⟨b, hb, rfl⟩ := Option.map_eq_some_iff.1 h
  obtain ⟨-, hb⟩ := Option.ite_none_left_eq_some.1 hb
  obtain rfl := Option.some.inj hb
  have hsize : uint32 (capacity + 1) = capacity + 1 := uint32_natCast (n := capacity + 1) (by omega)
  refine ⟨hsize, ?_, (Nat.zero_mod _).symm, (Nat.zero_mod _).symm, le_rfl, Nat.zero_le _, ?_, ?_,
    ?_, ?_⟩
  · rw [List.length_replicate, hsize]
  · intro head samples copied h
    cases h
  · exact RingBuffer.items_zero _ _
  · intro tail count out h
    cases h
  · intro i a h
    cases h

/-! ### The cursors -/

theorem Inv.canRead (h : s.Inv capacity) (hcap : capacity < 2 ^ 31) :
    s.buf.canRead = s.sent.length - s.received.length := by
  have hfits := h.fits
  have htail : s.received.length % (capacity + 1) < capacity + 1 := Nat.mod_lt _ (by omega)
  have hhead : s.sent.length % (capacity + 1) < capacity + 1 := Nat.mod_lt _ (by omega)
  rw [AudioBuf.canRead, h.allocSize, h.head, h.tail,
    show ((capacity + 1 : ℕ) + (s.sent.length % (capacity + 1) : ℕ) -
        (s.received.length % (capacity + 1) : ℕ) : ℤ) =
      (capacity + 1 + s.sent.length % (capacity + 1) - s.received.length % (capacity + 1) : ℕ) by
        omega,
    uint32_natCast (by omega), RingBuffer.between_mod h.received_le (by omega)]

theorem Inv.canWrite (h : s.Inv capacity) (hcap : capacity < 2 ^ 31) :
    s.buf.canWrite = capacity - (s.sent.length - s.received.length) := by
  have hfits := h.fits
  have htail : s.received.length % (capacity + 1) < capacity + 1 := Nat.mod_lt _ (by omega)
  have hhead : s.sent.length % (capacity + 1) < capacity + 1 := Nat.mod_lt _ (by omega)
  rw [AudioBuf.canWrite, h.allocSize, h.head, h.tail,
    show ((capacity + 1 : ℕ) + (s.received.length % (capacity + 1) : ℕ) -
        (s.sent.length % (capacity + 1) : ℕ) - 1 : ℤ) =
      (capacity + 1 + s.received.length % (capacity + 1) - s.sent.length % (capacity + 1) - 1 :
        ℕ) by omega,
    uint32_natCast (by omega), RingBuffer.room_mod h.received_le (by omega)]
  rfl

/-- A cursor that counts samples counts those of a call. -/
theorem Inv.moved (h : s.Inv capacity) (hcap : capacity < 2 ^ 31) {n count : ℕ}
    (hcount : count ≤ capacity) :
    s.buf.moved (n % (capacity + 1)) count = (n + count) % (capacity + 1) := by
  have hn : n % (capacity + 1) < capacity + 1 := Nat.mod_lt _ (by omega)
  have hcast : ((n % (capacity + 1) : ℕ) + count : ℤ) = (n % (capacity + 1) + count : ℕ) := by
    omega
  rw [AudioBuf.moved, h.allocSize, hcast, uint32_natCast (by omega), Nat.mod_add_mod]

/-- The cells of a copy from a cursor that counts samples. -/
theorem Inv.copyCell (h : s.Inv capacity) {n count i : ℕ} (hi : i < count)
    (hcount : count ≤ capacity) :
    s.buf.copyCell (n % (capacity + 1)) count i = (n + i) % (capacity + 1) := by
  have hn : n % (capacity + 1) < s.buf.allocSize := by
    rw [h.allocSize]
    exact Nat.mod_lt _ (by omega)
  rw [AudioBuf.copyCell_eq hn hi (by rw [h.allocSize]; omega), h.allocSize, Nat.mod_add_mod]

theorem Inv.length_stored (h : s.Inv capacity) :
    s.received.length + s.stored.length = s.sent.length + s.writer.copied.length := by
  have hle := h.received_le
  rw [stored, List.length_drop, List.length_append]
  omega

theorem Inv.length_stored_le (h : s.Inv capacity) : s.stored.length ≤ s.buf.data.length := by
  have hfits := h.fits
  have hdata := h.data
  have hlength := h.length_stored
  have hcopied := s.writer.length_copied_le
  omega

/-- What is stored begins with what was sent. -/
theorem Inv.stored_eq (h : s.Inv capacity) :
    s.stored = s.sent.drop s.received.length ++ s.writer.copied := by
  rw [stored, List.drop_append_of_le_length h.received_le]

/-! ### The writer -/

theorem Inv.startWrite (h : s.Inv capacity) (hcap : capacity < 2 ^ 31) {samples : List α}
    (hstep : s.startWrite samples = some t) : t.Inv capacity := by
  obtain ⟨b, writer, reader, sent, received⟩ := s
  have hfits := h.fits
  have hle := h.received_le
  cases writer with
  | writing => cases hstep
  | idle =>
    rw [AudioStream.startWrite] at hstep
    split_ifs at hstep
    · obtain rfl := Option.some.inj hstep
      exact h
    · obtain rfl := Option.some.inj hstep
      refine { h with fits := ?_, writer := ?_ }
      · show sent.length + (samples.take b.canWrite).length ≤ received.length + capacity
        have hwrite : b.canWrite = capacity - (sent.length - received.length) := h.canWrite hcap
        rw [hwrite, List.length_take]
        change sent.length + 0 ≤ received.length + capacity at hfits
        change received.length ≤ sent.length at hle
        omega
      · intro head samples copied heq
        obtain ⟨rfl, -, rfl⟩ := AudioWriter.writing.inj heq
        exact ⟨rfl, Nat.zero_le _⟩

/-- A sample is copied behind the stored ones. -/
theorem Inv.copyIn (h : s.Inv capacity) (silence : α) {head copied : ℕ} {samples : List α}
    (hwriter : s.writer = .writing head samples copied) (hcopied : copied < samples.length) :
    ∃ t, s.step silence .copyIn = some t ∧ t.Inv capacity := by
  have hfits := h.fits
  have hle := h.received_le
  have hdata := h.data
  have hlength := h.length_stored
  have htake : samples.take (copied + 1) = samples.take copied ++ [samples[copied]] :=
    List.take_succ_eq_append_getElem hcopied
  rw [hwriter, AudioWriter.samples] at hfits
  rw [hwriter, AudioWriter.copied, List.length_take, Nat.min_eq_left hcopied.le] at hlength
  have hpos : s.buf.copyCell head samples.length copied =
      (s.received.length + s.stored.length) % s.buf.data.length := by
    rw [(h.writer _ _ _ hwriter).1, h.head, h.copyCell hcopied (by omega), hlength, hdata]
  have hstored : (s.sent ++ samples.take (copied + 1)).drop s.received.length =
      s.stored ++ [samples[copied]] := by
    rw [htake, ← List.append_assoc, stored, hwriter, AudioWriter.copied,
      List.drop_append_of_le_length (hle.trans (by rw [List.length_append]; omega))]
  refine ⟨{ s with
      buf := { s.buf with
        data := s.buf.data.set (s.buf.copyCell head samples.length copied)
          (some samples[copied]) }
      writer := .writing head samples (copied + 1) }, ?_,
    { h with data := ?_, fits := hfits, writer := ?_, cells := ?_ }⟩
  · rw [step, hwriter]
    simp only [List.getElem?_eq_getElem hcopied]
    exact if_pos (hpos.trans_lt (Nat.mod_lt _ (by omega)))
  · exact List.length_set.trans hdata
  · intro head' samples' copied' heq
    obtain ⟨rfl, rfl, rfl⟩ := AudioWriter.writing.inj heq
    exact ⟨(h.writer _ _ _ hwriter).1, hcopied⟩
  · show RingBuffer.items (s.buf.data.set _ _) s.received.length
      ((s.sent ++ samples.take (copied + 1)).drop s.received.length).length =
        ((s.sent ++ samples.take (copied + 1)).drop s.received.length).map some
    rw [hstored, List.length_append, List.length_singleton, List.map_append, ← h.cells, hpos,
      RingBuffer.items_set _ (by omega)]
    rfl

/-- `head` is stored behind the samples of the call. -/
theorem Inv.publish (h : s.Inv capacity) (silence : α) (hcap : capacity < 2 ^ 31) {head : ℕ}
    {samples : List α} (hwriter : s.writer = .writing head samples samples.length) :
    ∃ t, s.step silence .publish = some t ∧ t.Inv capacity := by
  have hfits := h.fits
  have hle := h.received_le
  have hcells := h.cells
  rw [stored, hwriter, AudioWriter.copied, List.take_length] at hcells
  rw [hwriter, AudioWriter.samples] at hfits
  refine ⟨{ s with
      buf := { s.buf with head := s.buf.moved head samples.length }
      writer := .idle
      sent := s.sent ++ samples }, ?_,
    h.allocSize, h.data, ?_, h.tail, ?_, ?_, ?_, ?_, ?_, ?_⟩
  · rw [step, hwriter]
    exact if_pos rfl
  · show s.buf.moved head samples.length = (s.sent ++ samples).length % (capacity + 1)
    rw [(h.writer _ _ _ hwriter).1, h.head, List.length_append, h.moved hcap (by omega)]
  · show s.received.length ≤ (s.sent ++ samples).length
    rw [List.length_append]
    omega
  · show (s.sent ++ samples).length + 0 ≤ s.received.length + capacity
    rw [List.length_append]
    omega
  · intro head samples copied heq
    cases heq
  · show RingBuffer.items s.buf.data s.received.length
      ((s.sent ++ samples ++ []).drop s.received.length).length =
        ((s.sent ++ samples ++ []).drop s.received.length).map some
    rw [List.append_nil]
    exact hcells
  · intro tail count out heq
    obtain ⟨htail, hcount, hout⟩ := h.reader tail count out heq
    refine ⟨htail, ?_, fun xs hxs ↦ ⟨(hout xs hxs).1, ?_⟩⟩
    · show s.received.length + count ≤ (s.sent ++ samples).length
      rw [List.length_append]
      exact hcount.trans (Nat.le_add_right _ _)
    · show xs <+: (s.sent ++ samples).drop s.received.length
      rw [List.drop_append_of_le_length hle]
      exact (hout xs hxs).2.trans (List.prefix_append _ _)
  · intro i a hi
    have hsent : s.sent[i]? = some a := h.received i a hi
    obtain ⟨hlt, -⟩ := List.getElem?_eq_some_iff.1 hsent
    show (s.sent ++ samples)[i]? = some a
    rw [List.getElem?_append_left hlt, hsent]

/-! ### The reader -/

theorem Inv.startRead (h : s.Inv capacity) (hcap : capacity < 2 ^ 31) {count : ℕ} {null : Bool}
    (hstep : s.startRead count null = some t) : t.Inv capacity := by
  have hle := h.received_le
  have hread := h.canRead hcap
  rw [AudioStream.startRead] at hstep
  cases hreader : s.reader with
  | reading tail count' out =>
    rw [hreader] at hstep
    cases hstep
  | idle =>
    rw [hreader] at hstep
    obtain ⟨-, hstep⟩ := Option.ite_none_left_eq_some.1 hstep
    split_ifs at hstep with hempty hnull
    · obtain rfl := Option.some.inj hstep
      exact h
    all_goals
      obtain rfl := Option.some.inj hstep
      refine { h with reader := fun tail count' out heq ↦ ?_ }
      obtain ⟨rfl, rfl, rfl⟩ := AudioReader.reading.inj heq
      refine ⟨rfl, ?_, ?_⟩
      · show s.received.length + min count s.buf.canRead ≤ s.sent.length
        omega
      · simp

/-- The next sample is copied from its cell. -/
theorem Inv.copyOut (h : s.Inv capacity) (silence : α) {tail count : ℕ} {out : List α}
    (hreader : s.reader = .reading tail count (some out)) (hcount : out.length < count) :
    ∃ t, s.step silence .copyOut = some t ∧ t.Inv capacity := by
  obtain ⟨htail, hle, hout⟩ := h.reader tail count _ hreader
  obtain ⟨-, hfirst⟩ := hout out rfl
  have hfits := h.fits
  have hdata := h.data
  have hlength := h.length_stored
  have hlt : out.length < (s.sent.drop s.received.length).length := by
    rw [List.length_drop]
    omega
  -- the cell is one of those that hold what was sent
  have hcell : s.buf.data[s.buf.copyCell tail count out.length]? =
      some (some (s.sent.drop s.received.length)[out.length]) := by
    rw [htail, h.tail, h.copyCell hcount (by omega), ← hdata,
      ← RingBuffer.getElem?_items (n := s.stored.length) (by omega) h.length_stored_le, h.cells,
      List.getElem?_map, h.stored_eq, List.getElem?_append_left hlt, List.getElem?_eq_getElem hlt]
    rfl
  refine ⟨{ s with
      reader := .reading tail count
        (some (out ++ [(s.sent.drop s.received.length)[out.length]])) }, ?_,
    { h with reader := ?_ }⟩
  · rw [step, hreader]
    simp only [hcell, if_neg hcount.not_ge]
    rfl
  · intro tail' count' out' heq
    obtain ⟨rfl, rfl, rfl⟩ := AudioReader.reading.inj heq
    refine ⟨htail, hle, fun samples hsamples ↦ ?_⟩
    obtain rfl := Option.some.inj hsamples
    refine ⟨?_, ?_⟩
    · rw [List.length_append]
      exact hcount
    · have htake : out = (s.sent.drop s.received.length).take out.length :=
        List.prefix_iff_eq_take.1 hfirst
      nth_rewrite 1 [htake]
      rw [← List.take_succ_eq_append_getElem hlt]
      exact List.take_prefix _ _

/-- What a call of the reader adds to what is received. -/
def taken (count : ℕ) : Option (List α) → List (Option α)
  | none => List.replicate count none
  | some samples => samples.map some

theorem length_taken {count : ℕ} {out : Option (List α)}
    (hout : ∀ samples ∈ out, samples.length = count) : (taken count out).length = count := by
  cases out with
  | none => exact List.length_replicate
  | some samples => exact (List.length_map _).trans (hout samples rfl)

/-- A sample that a call takes is the one that was sent at its place. -/
theorem Inv.getElem?_of_taken (h : s.Inv capacity) {tail count : ℕ} {out : Option (List α)}
    (hreader : s.reader = .reading tail count out) {i : ℕ} {a : α}
    (hi : (taken count out)[i]? = some (some a)) : s.sent[s.received.length + i]? = some a := by
  obtain ⟨-, -, hout⟩ := h.reader tail count _ hreader
  cases out with
  | none => cases List.eq_of_mem_replicate (List.mem_of_getElem? hi)
  | some samples =>
    obtain ⟨b, hb, heq⟩ := Option.map_eq_some_iff.1 ((List.getElem?_map ..).symm.trans hi)
    obtain rfl := Option.some.inj heq
    obtain ⟨rest, hrest⟩ := (hout samples rfl).2
    obtain ⟨hlt, -⟩ := List.getElem?_eq_some_iff.1 hb
    rw [← List.getElem?_drop, ← hrest, List.getElem?_append_left hlt, hb]

theorem step_release (silence : α) {tail count : ℕ} {out : Option (List α)}
    (hreader : s.reader = .reading tail count out)
    (hout : ∀ samples ∈ out, samples.length = count) :
    s.step silence .release = some { s with
      buf := { s.buf with tail := s.buf.moved tail count }
      reader := .idle
      received := s.received ++ taken count out } := by
  rw [step, hreader]
  cases out with
  | none => exact if_pos hout
  | some samples => exact if_pos hout

/-- `tail` is stored behind the samples of the call. -/
theorem Inv.release (h : s.Inv capacity) (silence : α) (hcap : capacity < 2 ^ 31)
    {tail count : ℕ} {out : Option (List α)} (hreader : s.reader = .reading tail count out)
    (hout : ∀ samples ∈ out, samples.length = count) :
    ∃ t, s.step silence .release = some t ∧ t.Inv capacity := by
  obtain ⟨htail, hle, -⟩ := h.reader tail count _ hreader
  have hfits := h.fits
  have hdata := h.data
  have hlength := h.length_stored
  have hlength' : (s.received ++ taken count out).length = s.received.length + count := by
    rw [List.length_append, length_taken hout]
  refine ⟨_, step_release silence hreader hout, h.allocSize, h.data, h.head, ?_, ?_, ?_, h.writer,
    ?_, ?_, ?_⟩
  · show s.buf.moved tail count = (s.received ++ taken count out).length % (capacity + 1)
    rw [htail, h.tail, hlength', h.moved hcap (by omega)]
  · show (s.received ++ taken count out).length ≤ s.sent.length
    omega
  · show s.sent.length + s.writer.samples.length ≤
      (s.received ++ taken count out).length + capacity
    omega
  · have hstored : (s.sent ++ s.writer.copied).drop (s.received ++ taken count out).length =
        s.stored.drop count := by
      rw [hlength', stored, List.drop_drop]
    show RingBuffer.items s.buf.data (s.received ++ taken count out).length
      ((s.sent ++ s.writer.copied).drop (s.received ++ taken count out).length).length =
        ((s.sent ++ s.writer.copied).drop (s.received ++ taken count out).length).map some
    rw [hstored, hlength', List.length_drop, List.map_drop, ← h.cells,
      RingBuffer.drop_items (by omega) h.length_stored_le]
  · intro tail count out heq
    cases heq
  · intro i a hi
    change (s.received ++ taken count out)[i]? = some (some a) at hi
    obtain hlt | hge := lt_or_ge i s.received.length
    · rw [List.getElem?_append_left hlt] at hi
      exact h.received i a hi
    · rw [List.getElem?_append_right hge] at hi
      have hsent := h.getElem?_of_taken hreader hi
      rwa [Nat.add_sub_cancel' hge] at hsent

/-! ### What the steps change -/

theorem startWrite_of_full {samples : List α} (hwriter : s.writer = .idle)
    (hfull : s.buf.canWrite = 0) : s.startWrite samples = some s := by
  rw [startWrite, hwriter]
  exact if_pos hfull

theorem Inv.startWrite_spec (h : s.Inv capacity) (hcap : capacity < 2 ^ 31) (samples : List α)
    (hwriter : s.writer = .idle) (hroom : s.buf.canWrite ≠ 0) :
    ∃ t, s.startWrite samples = some t ∧ t.Inv capacity ∧
      t.writer = .writing s.buf.head (samples.take s.buf.canWrite) 0 ∧ t.reader = s.reader ∧
      t.sent = s.sent ∧ t.received = s.received := by
  have hstep : s.startWrite samples =
      some { s with writer := .writing s.buf.head (samples.take s.buf.canWrite) 0 } := by
    rw [AudioStream.startWrite, hwriter]
    exact if_neg hroom
  exact ⟨_, hstep, h.startWrite hcap hstep, rfl, rfl, rfl, rfl⟩

theorem Inv.copyIn_spec (h : s.Inv capacity) (silence : α) {head copied : ℕ} {samples : List α}
    (hwriter : s.writer = .writing head samples copied) (hcopied : copied ≠ samples.length) :
    ∃ t, s.step silence .copyIn = some t ∧ t.Inv capacity ∧
      t.writer = .writing head samples (copied + 1) ∧ t.reader = s.reader ∧ t.sent = s.sent ∧
      t.received = s.received := by
  have hlt : copied < samples.length := lt_of_le_of_ne (h.writer _ _ _ hwriter).2 hcopied
  obtain ⟨t, ht, hinv⟩ := h.copyIn silence hwriter hlt
  refine ⟨t, ht, hinv, ?_⟩
  rw [AudioStream.step, hwriter] at ht
  obtain ⟨sample, -, ht⟩ := Option.bind_eq_some_iff.1 ht
  obtain ⟨-, ht⟩ := Option.ite_none_right_eq_some.1 ht
  obtain rfl := Option.some.inj ht
  exact ⟨rfl, rfl, rfl, rfl⟩

theorem Inv.publish_spec (h : s.Inv capacity) (silence : α) (hcap : capacity < 2 ^ 31) {head : ℕ}
    {samples : List α} (hwriter : s.writer = .writing head samples samples.length) :
    ∃ t, s.step silence .publish = some t ∧ t.Inv capacity ∧ t.writer = .idle ∧
      t.reader = s.reader ∧ t.sent = s.sent ++ samples ∧ t.received = s.received := by
  obtain ⟨t, ht, hinv⟩ := h.publish silence hcap hwriter
  refine ⟨t, ht, hinv, ?_⟩
  rw [AudioStream.step, hwriter] at ht
  obtain ⟨-, ht⟩ := Option.ite_none_right_eq_some.1 ht
  obtain rfl := Option.some.inj ht
  exact ⟨rfl, rfl, rfl, rfl⟩

theorem startRead_of_empty {count : ℕ} {null : Bool} (hreader : s.reader = .idle)
    (hcount : count ≠ 0) (hempty : s.buf.canRead = 0) : s.startRead count null = some s := by
  rw [startRead, hreader]
  exact (if_neg hcount).trans (if_pos hempty)

theorem Inv.startRead_spec (h : s.Inv capacity) (hcap : capacity < 2 ^ 31) {count : ℕ}
    (null : Bool) (hreader : s.reader = .idle) (hcount : count ≠ 0)
    (hread : s.buf.canRead ≠ 0) :
    ∃ t, s.startRead count null = some t ∧ t.Inv capacity ∧
      t.reader = .reading s.buf.tail (min count s.buf.canRead) (if null then none else some []) ∧
      t.writer = s.writer ∧ t.sent = s.sent ∧ t.received = s.received := by
  have hstep : s.startRead count null = some { s with
      reader := .reading s.buf.tail (min count s.buf.canRead)
        (if null then none else some []) } := by
    rw [AudioStream.startRead, hreader]
    exact (if_neg hcount).trans (if_neg hread)
  exact ⟨_, hstep, h.startRead hcap hstep, rfl, rfl, rfl, rfl⟩

theorem Inv.copyOut_spec (h : s.Inv capacity) (silence : α) {tail count : ℕ} {out : List α}
    (hreader : s.reader = .reading tail count (some out)) (hcount : out.length ≠ count) :
    ∃ t, s.step silence .copyOut = some t ∧ t.Inv capacity ∧
      (∃ a, t.reader = .reading tail count (some (out ++ [a]))) ∧ t.writer = s.writer ∧
      t.sent = s.sent ∧ t.received = s.received := by
  have hle : out.length ≤ count := ((h.reader _ _ _ hreader).2.2 out rfl).1
  obtain ⟨t, ht, hinv⟩ := h.copyOut silence hreader (lt_of_le_of_ne hle hcount)
  refine ⟨t, ht, hinv, ?_⟩
  rw [AudioStream.step, hreader] at ht
  obtain ⟨-, ht⟩ := Option.ite_none_left_eq_some.1 ht
  obtain ⟨sample, -, ht⟩ := Option.bind_eq_some_iff.1 ht
  obtain rfl := Option.some.inj ht
  exact ⟨⟨_, rfl⟩, rfl, rfl, rfl⟩

theorem Inv.release_spec (h : s.Inv capacity) (silence : α) (hcap : capacity < 2 ^ 31)
    {tail count : ℕ} {out : Option (List α)} (hreader : s.reader = .reading tail count out)
    (hout : ∀ samples ∈ out, samples.length = count) :
    ∃ t, s.step silence .release = some t ∧ t.Inv capacity ∧ t.reader = .idle ∧
      t.writer = s.writer ∧ t.sent = s.sent ∧ t.received = s.received ++ taken count out := by
  obtain ⟨t, ht, hinv⟩ := h.release silence hcap hreader hout
  have hstep := step_release silence hreader hout
  obtain rfl := Option.some.inj (hstep.symm.trans ht)
  exact ⟨_, hstep, hinv, rfl, rfl, rfl, rfl⟩

/-! ### The runs -/

theorem Inv.step (h : s.Inv capacity) (hcap : capacity < 2 ^ 31) {l : AudioStep α}
    (hstep : s.step silence l = some t) : t.Inv capacity := by
  cases l with
  | write samples => exact h.startWrite hcap hstep
  | writeSilence count => exact h.startWrite hcap hstep
  | read count null => exact h.startRead hcap hstep
  | copyIn =>
    cases hwriter : s.writer with
    | idle =>
      rw [AudioStream.step, hwriter] at hstep
      cases hstep
    | writing head samples copied =>
      have hcopied : copied < samples.length := by
        rw [AudioStream.step, hwriter] at hstep
        obtain ⟨sample, hsample, -⟩ := Option.bind_eq_some_iff.1 hstep
        exact (List.getElem?_eq_some_iff.1 hsample).1
      obtain ⟨t', ht', hinv⟩ := h.copyIn silence hwriter hcopied
      obtain rfl := Option.some.inj (ht'.symm.trans hstep)
      exact hinv
  | publish =>
    cases hwriter : s.writer with
    | idle =>
      rw [AudioStream.step, hwriter] at hstep
      cases hstep
    | writing head samples copied =>
      obtain rfl : copied = samples.length := by
        rw [AudioStream.step, hwriter] at hstep
        exact (Option.ite_none_right_eq_some.1 hstep).1
      obtain ⟨t', ht', hinv⟩ := h.publish silence hcap hwriter
      obtain rfl := Option.some.inj (ht'.symm.trans hstep)
      exact hinv
  | copyOut =>
    cases hreader : s.reader with
    | idle =>
      rw [AudioStream.step, hreader] at hstep
      cases hstep
    | reading tail count out =>
      cases out with
      | none =>
        rw [AudioStream.step, hreader] at hstep
        cases hstep
      | some out =>
        have hcount : out.length < count := by
          rw [AudioStream.step, hreader] at hstep
          exact not_le.1 (Option.ite_none_left_eq_some.1 hstep).1
        obtain ⟨t', ht', hinv⟩ := h.copyOut silence hreader hcount
        obtain rfl := Option.some.inj (ht'.symm.trans hstep)
        exact hinv
  | release =>
    cases hreader : s.reader with
    | idle =>
      rw [AudioStream.step, hreader] at hstep
      cases hstep
    | reading tail count out =>
      have hout : ∀ samples ∈ out, samples.length = count := by
        rw [AudioStream.step, hreader] at hstep
        exact (Option.ite_none_right_eq_some.1 hstep).1
      obtain ⟨t', ht', hinv⟩ := h.release silence hcap hreader hout
      obtain rfl := Option.some.inj (ht'.symm.trans hstep)
      exact hinv

theorem Inv.exec (hcap : capacity < 2 ^ 31) {steps : List (AudioStep α)} (h : s.Inv capacity)
    (hexec : exec (AudioStream.step silence) s steps = some t) : t.Inv capacity :=
  exec_invariant_along (C := fun _ _ ↦ True) (fun _ _ _ _ hs hstep ↦ hs.step hcap hstep)
    (along_of_forall (fun _ _ ↦ trivial) _ _) h hexec

/-- A call of the writer in progress goes on. -/
theorem Inv.writer_goes_on (h : s.Inv capacity) (hcap : capacity < 2 ^ 31)
    (hwriter : s.writer ≠ .idle) :
    (s.step silence .copyIn).isSome ∨ (s.step silence .publish).isSome := by
  cases heq : s.writer with
  | idle => exact absurd heq hwriter
  | writing head samples copied =>
    obtain hlt | heq' := (h.writer _ _ _ heq).2.lt_or_eq
    · obtain ⟨t, ht, -⟩ := h.copyIn silence heq hlt
      exact .inl (Option.isSome_of_eq_some ht)
    · subst heq'
      obtain ⟨t, ht, -⟩ := h.publish silence hcap heq
      exact .inr (Option.isSome_of_eq_some ht)

/-- A call of the reader in progress goes on. -/
theorem Inv.reader_goes_on (h : s.Inv capacity) (hcap : capacity < 2 ^ 31)
    (hreader : s.reader ≠ .idle) :
    (s.step silence .copyOut).isSome ∨ (s.step silence .release).isSome := by
  cases heq : s.reader with
  | idle => exact absurd heq hreader
  | reading tail count out =>
    by_cases hout : ∀ samples ∈ out, samples.length = count
    · obtain ⟨t, ht, -⟩ := h.release silence hcap heq hout
      exact .inr (Option.isSome_of_eq_some ht)
    · push Not at hout
      obtain ⟨samples, rfl, hne⟩ := hout
      have hle := ((h.reader _ _ _ heq).2.2 samples rfl).1
      obtain ⟨t, ht, -⟩ := h.copyOut silence heq (lt_of_le_of_ne hle hne)
      exact .inl (Option.isSome_of_eq_some ht)

/-- The copies of the two calls lie on different sides of `head`. -/
theorem Inv.not_overlaps (h : s.Inv capacity) : ¬s.Overlaps := by
  rintro ⟨head, samples, copied, tail, count, out, i, j, hwriter, hreader, hi, hj, heq⟩
  obtain ⟨htail, hle, -⟩ := h.reader _ _ _ hreader
  have hfits := h.fits
  rw [hwriter, AudioWriter.samples] at hfits
  rw [(h.writer _ _ _ hwriter).1, htail, h.head, h.tail, h.copyCell hi (by omega),
    h.copyCell hj (by omega),
    show s.sent.length + i = s.received.length + (s.sent.length - s.received.length + i) by
      omega] at heq
  exact RingBuffer.add_mod_ne (by omega) (by omega) heq.symm

/-- **The samples come out as they went in**, however the two threads interleave: what is received
at a place was sent at this place, so that no sample is doubled, lost or out of order; the array
overwrites nothing that is still to be read, and the two copies never touch the same cell. The
cursors say exactly how much can be read and written, and a call in progress can always go on: no
copy leaves the array or reads a cell that was never written. -/
theorem samples_in_order {capacity : ℕ} {memory : Bool} {s₀ s : AudioStream α}
    {steps : List (AudioStep α)} (hcap : capacity < 2 ^ 31)
    (hinit : init capacity memory = some s₀) (h : exec (step silence) s₀ steps = some s) :
    (∀ (i : ℕ) (a : α), s.received[i]? = some (some a) → s.sent[i]? = some a) ∧
    s.received.length ≤ s.sent.length ∧ s.sent.length ≤ s.received.length + capacity ∧
    s.buf.canRead = s.sent.length - s.received.length ∧
    s.buf.canWrite = capacity - (s.sent.length - s.received.length) ∧ ¬s.Overlaps ∧
    (s.writer ≠ .idle → (s.step silence .copyIn).isSome ∨ (s.step silence .publish).isSome) ∧
    (s.reader ≠ .idle → (s.step silence .copyOut).isSome ∨ (s.step silence .release).isSome) := by
  have hinv : s.Inv capacity := (inv_init hcap hinit).exec hcap h
  exact ⟨hinv.received, hinv.received_le, (Nat.le_add_right _ _).trans hinv.fits,
    hinv.canRead hcap, hinv.canWrite hcap, hinv.not_overlaps, hinv.writer_goes_on hcap,
    hinv.reader_goes_on hcap⟩

/-- Three samples go through two cells: the third one waits until the first one is out. -/
theorem samples_in_order_around :
    ∃ s₀ s : AudioStream ℕ, init 2 true = some s₀ ∧
      exec (step 0) s₀ [.write [1, 2, 3], .copyIn, .copyIn, .publish, .read 1 false, .copyOut,
        .release, .write [3], .copyIn, .read 2 true, .publish, .release, .read 5 false, .copyOut,
        .release] = some s ∧
      s.received = [some 1, none, some 3] ∧ s.sent.length ≤ s.received.length + 2 := by
  have hinit : init 2 true =
      some (⟨⟨3, [none, none, none], 0, 0⟩, .idle, .idle, [], []⟩ : AudioStream ℕ) := by decide
  have hrun : exec (step 0) (⟨⟨3, [none, none, none], 0, 0⟩, .idle, .idle, [], []⟩ : AudioStream ℕ)
      [.write [1, 2, 3], .copyIn, .copyIn, .publish, .read 1 false, .copyOut, .release,
        .write [3], .copyIn, .read 2 true, .publish, .release, .read 5 false, .copyOut,
        .release] =
      some ⟨⟨3, [some 1, some 2, some 3], 0, 0⟩, .idle, .idle, [1, 2, 3],
        [some 1, none, some 3]⟩ := by decide
  exact ⟨_, _, hinit, hrun, rfl, (samples_in_order (by decide) hinit hrun).2.2.1⟩

end AudioStream

end AllRelay.Client
