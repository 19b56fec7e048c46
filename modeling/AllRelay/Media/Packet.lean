import AllRelay.Hub.State
import AllRelay.Library.ChunkedReader
import AllRelay.Library.Wire

/-!
# Media packets: the reader

`protocol/packet.go` and `protocol/demuxer.go`. A packet has a header of 16 bytes and a payload. The
header has two layouts, told apart by bit 31 of its second word: a session packet announces a size
and has no payload, every other packet has a time stamp with flags and the size of its payload.

`Demuxer.Run` reads packets until the stream ends and hands each to the handler of its stream. Its
result here is what the handlers were called with, in order, and the error it returned.
-/

open ChunkedReader Wire

namespace AllRelay.Media

/-! ### Headers -/

/-- `HeaderSize`. -/
def headerSize : ℕ := 16

/-- `FlagSession`. -/
def flagSession : UInt64 := (1 : UInt64) <<< 63

/-- `FlagConfig`. -/
def flagConfig : UInt64 := (1 : UInt64) <<< 62

/-- `FlagKeyFrame`. -/
def flagKeyFrame : UInt64 := (1 : UInt64) <<< 61

/-- `ptsMask`. -/
def ptsMask : UInt64 := ((1 : UInt64) <<< 53) - 1

/-- `Header`. -/
structure Header where
  /-- The stream. -/
  streamID : UInt32
  /-- The time stamp and the flags. -/
  ptsAndFlags : UInt64
  /-- The size of the payload. -/
  payloadSize : UInt32
  /-- The width, of a session packet. -/
  sessionWidth : UInt32
  /-- The height, of a session packet. -/
  sessionHeight : UInt32
deriving DecidableEq, Repr

namespace Header

/-- `Header.IsSession`. -/
def isSession (h : Header) : Bool :=
  h.ptsAndFlags &&& flagSession ≠ 0

/-- `Header.IsConfig`. -/
def isConfig (h : Header) : Bool :=
  h.ptsAndFlags &&& flagConfig ≠ 0

/-- `Header.IsKeyFrame`. -/
def isKeyFrame (h : Header) : Bool :=
  h.ptsAndFlags &&& flagKeyFrame ≠ 0

/-- `Header.PTS`. -/
def pts (h : Header) : UInt64 :=
  h.ptsAndFlags &&& ptsMask

/-- The header that 16 bytes denote. -/
def ofBytes (buf : Bytes) : Header :=
  let streamID := .ofNat (value (buf.take 4))
  let upperFlags := UInt32.ofNat (value ((buf.drop 4).take 4))
  if upperFlags &&& (flagSession >>> 32).toUInt32 ≠ 0 then
    { streamID
      ptsAndFlags := upperFlags.toUInt64 <<< 32
      payloadSize := 0
      sessionWidth := .ofNat (value ((buf.drop 8).take 4))
      sessionHeight := .ofNat (value ((buf.drop 12).take 4)) }
  else
    { streamID
      ptsAndFlags := .ofNat (value ((buf.drop 4).take 8))
      payloadSize := .ofNat (value ((buf.drop 12).take 4))
      sessionWidth := 0
      sessionHeight := 0 }

end Header

/-! ### Packets -/

/-- What `Demuxer.Run` stops on. -/
inductive DemuxError where
  /-- `io.EOF` between two packets: `Run` returns nil. -/
  | eof
  /-- "read header: unexpected EOF". -/
  | header
  /-- "payload too large". -/
  | payloadTooLarge (size : UInt32)
  /-- "read payload: EOF" or "read payload: unexpected EOF". -/
  | payload (e : ChunkedReader.ReadError)
deriving DecidableEq, Repr

/-- `ReadHeader`. -/
def readHeader (r : Reader) : Except DemuxError (Header × Reader) :=
  match readFull headerSize r with
  | .ok (buf, r) => .ok (.ofBytes buf, r)
  | .error .eof => .error .eof
  | .error .unexpectedEOF => .error .header

/-- The limit of `ReadPayload`. -/
def maxPayloadSize : ℕ := 16 * 1024 * 1024

/-- `ReadPayload`. -/
def readPayload (r : Reader) (size : UInt32) : Except DemuxError (Bytes × Reader) :=
  if size = 0 then .ok ([], r)
  else if maxPayloadSize < size.toNat then .error (.payloadTooLarge size)
  else
    match readFull size.toNat r with
    | .ok (buf, r) => .ok (buf, r)
    | .error e => .error (.payload e)

/-- What a handler is called with. -/
structure Packet where
  /-- The header. -/
  header : Header
  /-- The payload. -/
  payload : Bytes
deriving DecidableEq, Repr

/-- One round of the loop of `Demuxer.Run`, up to the dispatch. -/
def readPacket (r : Reader) : Except DemuxError (Packet × Reader) :=
  match readHeader r with
  | .error e => .error e
  | .ok (header, r) =>
    match readPayload r header.payloadSize with
    | .error e => .error e
    | .ok (payload, r) => .ok (⟨header, payload⟩, r)

namespace Demuxer

/-- The first `n` rounds of `Demuxer.Run`, where `handlers` are the streams with a handler. -/
def rounds (handlers : UInt32 → Bool) : ℕ → Reader → List Packet × Option DemuxError
  | 0, _ => ([], none)
  | n + 1, r =>
    match readPacket r with
    | .error .eof => ([], none)
    | .error e => ([], some e)
    | .ok (p, r) =>
      let (ps, err) := rounds handlers n r
      (if handlers p.header.streamID then p :: ps else ps, err)

/-- `Demuxer.Run`: every packet takes at least one byte, so the stream ends in these rounds. -/
def run (handlers : UInt32 → Bool) (r : Reader) : List Packet × Option DemuxError :=
  rounds handlers (r.flatten.length + 1) r

end Demuxer

/-! ### What a round reads -/

/-- The bytes that `readPacket` makes one packet. -/
structure Whole (bytes : Bytes) (p : Packet) : Prop where
  /-- The header. -/
  header : p.header = .ofBytes (bytes.take headerSize)
  /-- The header is whole, and its payload follows. -/
  length : bytes.length = headerSize + p.header.payloadSize.toNat
  /-- The payload. -/
  payload : p.payload = bytes.drop headerSize
  /-- The payload is not too large. -/
  size : p.header.payloadSize.toNat ≤ maxPayloadSize

variable {r : Reader} {bytes rest : Bytes} {p : Packet} {handlers : UInt32 → Bool}

theorem readPayload_of_le {size : UInt32} (hr : r.flatten = bytes ++ rest)
    (hlen : bytes.length = size.toNat) (hsize : size.toNat ≤ maxPayloadSize) :
    ∃ r', readPayload r size = .ok (bytes, r') ∧ r'.flatten = rest := by
  rw [readPayload]
  split
  · rename_i hzero
    have hnil : bytes = [] := by
      rw [← List.length_eq_zero_iff, hlen, hzero]
      rfl
    exact ⟨r, by rw [hnil], by rw [hr, hnil, List.nil_append]⟩
  · rw [if_neg (Nat.not_lt.2 hsize), ← hlen]
    obtain ⟨r', hread, hrest⟩ := readFull_of_append hr
    exact ⟨r', by rw [hread], hrest⟩

/-- **One packet**: a round reads the whole packet at the front of the stream. -/
theorem readPacket_of_whole (h : Whole bytes p) (hr : r.flatten = bytes ++ rest) :
    ∃ r', readPacket r = .ok (p, r') ∧ r'.flatten = rest := by
  have hlen := h.length
  have hle : headerSize ≤ bytes.length := by omega
  obtain ⟨r₁, hread, hr₁⟩ := readFull_of_le (n := headerSize) (r := r) (by
    rw [hr, List.length_append]
    omega)
  rw [hr, List.take_append_of_le_length hle] at hread
  rw [hr, List.drop_append_of_le_length hle, ← h.payload] at hr₁
  have hplen : p.payload.length = p.header.payloadSize.toNat := by
    rw [h.payload, List.length_drop]
    omega
  obtain ⟨r₂, hread₂, hr₂⟩ := readPayload_of_le hr₁ hplen h.size
  refine ⟨r₂, ?_, hr₂⟩
  rw [readPacket, readHeader, hread]
  simp only [← h.header, hread₂]

theorem readPacket_nil (hr : r.flatten = []) : readPacket r = .error .eof := by
  rw [readPacket, readHeader, readFull_of_lt (by rw [hr]; decide), if_pos hr]

/-- A stream that ends inside a header. -/
theorem readPacket_short (hne : r.flatten ≠ []) (hlt : r.flatten.length < headerSize) :
    readPacket r = .error .header := by
  rw [readPacket, readHeader, readFull_of_lt hlt, if_neg hne]

/-! ### The run -/

/-- Bytes that are whole packets, one after another. -/
inductive WholePackets : Bytes → List Packet → Prop
  /-- Nothing. -/
  | nil : WholePackets [] []
  /-- One more packet in front. -/
  | cons {bytes rest : Bytes} {p : Packet} {ps : List Packet} (h : Whole bytes p)
      (ht : WholePackets rest ps) : WholePackets (bytes ++ rest) (p :: ps)

theorem WholePackets.append {bytes rest : Bytes} {ps qs : List Packet} (h : WholePackets bytes ps)
    (h' : WholePackets rest qs) : WholePackets (bytes ++ rest) (ps ++ qs) := by
  induction h with
  | nil => exact h'
  | cons hp _ ih =>
    rw [List.append_assoc]
    exact .cons hp ih

theorem WholePackets.singleton (h : Whole bytes p) : WholePackets bytes [p] := by
  rw [← List.append_nil bytes]
  exact .cons h .nil

/-- **A clean stream**: the handlers get its packets, and `Run` returns nil. -/
theorem Demuxer.rounds_of_whole {ps : List Packet} (h : WholePackets bytes ps) {n : ℕ}
    (hn : bytes.length < n) (hr : r.flatten = bytes) :
    Demuxer.rounds handlers n r = (ps.filter fun p ↦ handlers p.header.streamID, none) := by
  induction h generalizing n r with
  | nil =>
    obtain ⟨m, rfl⟩ := Nat.exists_eq_add_one.2 hn
    rw [Demuxer.rounds, readPacket_nil hr]
    rfl
  | @cons bytes rest p ps hp _ ih =>
    obtain ⟨m, rfl⟩ := Nat.exists_eq_add_one.2 (Nat.zero_lt_of_lt hn)
    obtain ⟨r', hread, hr'⟩ := readPacket_of_whole hp hr
    have hlen : rest.length < m := by
      have := hp.length
      rw [List.length_append, headerSize] at *
      omega
    rw [Demuxer.rounds, hread]
    simp only
    rw [ih hlen hr', List.filter_cons]

theorem Demuxer.run_of_whole {ps : List Packet} (h : WholePackets bytes ps)
    (hr : r.flatten = bytes) :
    Demuxer.run handlers r = (ps.filter fun p ↦ handlers p.header.streamID, none) :=
  Demuxer.rounds_of_whole h (by rw [hr]; exact Nat.lt_succ_self _) hr

/-! ### The run, round by round -/

/-- Two streams with the same bytes have the same next packet. -/
theorem readPacket_congr {r' : Reader} (h : r.flatten = r'.flatten) :
    (∃ p q q', readPacket r = .ok (p, q) ∧ readPacket r' = .ok (p, q') ∧
      q.flatten = q'.flatten ∧ q.flatten.length < r.flatten.length) ∨
    ∃ e, readPacket r = .error e ∧ readPacket r' = .error e := by
  rw [readPacket, readPacket, readHeader, readHeader]
  obtain ⟨buf, q, q', hq, hq', hflat, happ, hlen⟩ | ⟨e, he, he'⟩ := readFull_congr h headerSize
  · simp only [hq, hq', readPayload]
    have hlt : q.flatten.length < r.flatten.length := by
      rw [← happ, List.length_append, hlen, headerSize]
      omega
    generalize Header.ofBytes buf = header
    by_cases hzero : header.payloadSize = 0
    · simp only [hzero, if_true]
      exact .inl ⟨_, q, q', rfl, rfl, hflat, hlt⟩
    by_cases hmax : maxPayloadSize < header.payloadSize.toNat
    · simp only [hzero, hmax, if_true, if_false]
      exact .inr ⟨_, rfl, rfl⟩
    simp only [hzero, hmax, if_false]
    obtain ⟨payload, o, o', ho, ho', hflat', happ', -⟩ | ⟨e, he, he'⟩ :=
      readFull_congr hflat header.payloadSize.toNat
    · simp only [ho, ho']
      refine .inl ⟨_, o, o', rfl, rfl, hflat', ?_⟩
      rw [← happ', List.length_append] at hlt
      omega
    · simp only [he, he']
      exact .inr ⟨_, rfl, rfl⟩
  · simp only [he, he']
    cases e <;> exact .inr ⟨_, rfl, rfl⟩

theorem readPacket_length {r' : Reader} (h : readPacket r = .ok (p, r')) :
    r'.flatten.length < r.flatten.length := by
  obtain ⟨q, r₁, -, hq, -, -, hlt⟩ | ⟨e, he, -⟩ := readPacket_congr (r := r) rfl
  · cases h.symm.trans hq
    exact hlt
  · cases h.symm.trans he

namespace Demuxer

/-- The rounds do not depend on how the bytes arrive, nor on their number once it suffices. -/
theorem rounds_congr {m n : ℕ} {r r' : Reader} (h : r.flatten = r'.flatten)
    (hm : r.flatten.length < m) (hn : r.flatten.length < n) :
    rounds handlers m r = rounds handlers n r' := by
  induction m generalizing n r r' with
  | zero => cases hm
  | succ m ih =>
    obtain ⟨n, rfl⟩ := Nat.exists_eq_add_one.2 (Nat.zero_lt_of_lt hn)
    rw [rounds, rounds]
    obtain ⟨p, q, q', hq, hq', hflat, hlt⟩ | ⟨e, he, he'⟩ := readPacket_congr h
    · have hrest : rounds handlers m q = rounds handlers n q' := ih hflat (by omega) (by omega)
      simp only [hq, hq', hrest]
    · simp only [he, he']
      cases e <;> rfl

theorem run_congr {r r' : Reader} (h : r.flatten = r'.flatten) :
    run handlers r = run handlers r' :=
  rounds_congr h (Nat.lt_succ_self _) (by rw [h]; exact Nat.lt_succ_self _)

/-- **One round** of the run. -/
theorem run_of_readPacket {r' : Reader} (h : readPacket r = .ok (p, r')) :
    run handlers r = (if handlers p.header.streamID then p :: (run handlers r').1
      else (run handlers r').1, (run handlers r').2) := by
  rw [run, rounds, h]
  simp only
  rw [rounds_congr rfl (n := r'.flatten.length + 1) (readPacket_length h) (Nat.lt_succ_self _), run]

end Demuxer

end AllRelay.Media
