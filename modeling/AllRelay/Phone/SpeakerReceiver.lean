import AllRelay.Hub.State
import AllRelay.Library.ChunkedReader
import AllRelay.Library.Wire

/-!
# The speaker receiver

`AudioReversePlayback.receivePackets` reads packets from the speaker socket and queues the payloads
of those that are no config packets. A packet that announces no payload, or more than 65536 bytes,
is refused before its payload is read.

A refused payload stays in the stream, and the receiver takes its first bytes for the next header
(`oversize_payload_parsed`). `receivePackets_inSync_iff` says that nothing else puts it out of step,
however the bytes arrive.
-/

open ChunkedReader Wire

namespace AllRelay.Speaker

/-- `HEADER_SIZE`. -/
def headerSize : ℕ := 16

/-- `PACKET_FLAG_CONFIG`. -/
def packetFlagConfig : UInt64 := (1 : UInt64) <<< 62

/-- The mask of the time stamp. -/
def ptsMask : UInt64 := 0x1FFFFFFFFFFFFF

/-- The largest payload that is taken. -/
def maxPayloadSize : ℕ := 65536

/-- `Packet`. -/
structure Packet where
  /-- `data`. -/
  data : Bytes
  /-- `ptsUs`. -/
  ptsUs : UInt64
deriving DecidableEq, Repr

/-- A round of the loop: where the header was read, and the packet that was queued. -/
structure Round where
  offset : ℕ
  queued : Option Packet
deriving DecidableEq, Repr

/-- The packet of a payload; a config packet is not queued. -/
def packet (ptsFlags : UInt64) (payload : Bytes) : Option Packet :=
  if ptsFlags &&& packetFlagConfig ≠ 0 then none else some ⟨payload, ptsFlags &&& ptsMask⟩

/-- The first `n` rounds of `receivePackets`. -/
def rounds : ℕ → ℕ → Reader → List Round
  | 0, _, _ => []
  | n + 1, offset, r =>
    let (headerBuf, r) := readUpTo headerSize r
    if headerBuf.length < headerSize then []
    else
      let ptsFlags := UInt64.ofNat (value ((headerBuf.drop 4).take 8))
      let payloadSize := signed 4 (value ((headerBuf.drop 12).take 4))
      if payloadSize ≤ 0 ∨ (maxPayloadSize : ℤ) < payloadSize then
        ⟨offset, none⟩ :: rounds n (offset + headerSize) r
      else
        let (payload, r) := readUpTo payloadSize.toNat r
        if (payload.length : ℤ) < payloadSize then [⟨offset, none⟩]
        else
          ⟨offset, packet ptsFlags payload⟩ ::
            rounds n (offset + headerSize + payload.length) r

/-- `receivePackets`: every round takes at least one byte, so the stream ends in these rounds. -/
def receivePackets (r : Reader) : List Round :=
  rounds (r.flatten.length + 1) 0 r

/-! ### What is sent -/

/-- A packet on the wire: its header announces the size of its payload. -/
structure WirePacket where
  streamId : UInt32
  ptsFlags : UInt64
  payload : Bytes
  length_lt : payload.length < 2 ^ 32

namespace WirePacket

/-- Its header. -/
def header (p : WirePacket) : Bytes :=
  bigEndian 4 p.streamId.toNat ++ bigEndian 8 p.ptsFlags.toNat ++ bigEndian 4 p.payload.length

/-- Its bytes. -/
def bytes (p : WirePacket) : Bytes :=
  p.header ++ p.payload

/-- What should be queued of it. -/
def queued (p : WirePacket) : Option Packet :=
  if 0 < p.payload.length ∧ p.payload.length ≤ maxPayloadSize then packet p.ptsFlags p.payload
  else none

end WirePacket

/-- Packets, one after the other. -/
def stream (ps : List WirePacket) : Bytes :=
  ps.flatMap WirePacket.bytes

/-- What is claimed: every header is read where a packet starts, and what should be queued is. -/
def inSync : ℕ → List WirePacket → List Round
  | _, [] => []
  | offset, p :: ps => ⟨offset, p.queued⟩ :: inSync (offset + p.bytes.length) ps

/-! ### One packet -/

variable {p : WirePacket} {ps : List WirePacket} {r : Reader} {rest : Bytes}

theorem length_header (p : WirePacket) : p.header.length = headerSize := by
  simp only [WirePacket.header, List.length_append, length_bigEndian]
  rfl

/-- The fields of a header. -/
theorem header_fields (p : WirePacket) :
    UInt64.ofNat (value ((p.header.drop 4).take 8)) = p.ptsFlags ∧
      value ((p.header.drop 12).take 4) = p.payload.length := by
  have hpts : (p.header.drop 4).take 8 = bigEndian 8 p.ptsFlags.toNat := by
    rw [WirePacket.header, List.append_assoc, List.drop_left' (length_bigEndian ..),
      List.take_left' (length_bigEndian ..)]
  have hsize : (p.header.drop 12).take 4 = bigEndian 4 p.payload.length := by
    rw [WirePacket.header, List.drop_left' (by simp),
      List.take_of_length_le (Nat.le_of_eq (length_bigEndian ..))]
  constructor
  · rw [hpts, value_bigEndian, Nat.mod_eq_of_lt (show _ < 256 ^ 8 from p.ptsFlags.toNat_lt),
      UInt64.ofNat_toNat]
  · rw [hsize, value_bigEndian, Nat.mod_eq_of_lt (show _ < 256 ^ 4 from p.length_lt)]

/-- The sign of a size. -/
theorem signed_size {n : ℕ} (h : n < 2 ^ 32) :
    (signed 4 n ≤ 0 ∨ (maxPayloadSize : ℤ) < signed 4 n ↔ n = 0 ∨ maxPayloadSize < n) ∧
      (n ≤ maxPayloadSize → signed 4 n = n) := by
  rw [signed, Int.bmod_def, maxPayloadSize]
  split <;> omega

/-- One round, field by field. -/
theorem rounds_succ (n offset : ℕ) (r : Reader) :
    rounds (n + 1) offset r =
      if (readUpTo headerSize r).1.length < headerSize then []
      else if signed 4 (value (((readUpTo headerSize r).1.drop 12).take 4)) ≤ 0 ∨
          (maxPayloadSize : ℤ) < signed 4 (value (((readUpTo headerSize r).1.drop 12).take 4)) then
        ⟨offset, none⟩ :: rounds n (offset + headerSize) (readUpTo headerSize r).2
      else
        let payload := readUpTo
          (signed 4 (value (((readUpTo headerSize r).1.drop 12).take 4))).toNat
          (readUpTo headerSize r).2
        if (payload.1.length : ℤ) <
            signed 4 (value (((readUpTo headerSize r).1.drop 12).take 4)) then
          [⟨offset, none⟩]
        else
          ⟨offset, packet (UInt64.ofNat (value (((readUpTo headerSize r).1.drop 4).take 8)))
              payload.1⟩ ::
            rounds n (offset + headerSize + payload.1.length) payload.2 :=
  rfl

theorem length_bytes (p : WirePacket) : p.bytes.length = headerSize + p.payload.length := by
  rw [WirePacket.bytes, List.length_append, length_header]

/-- The header of a packet is read from the front of the stream. -/
theorem readUpTo_header (h : r.flatten = p.bytes ++ rest) :
    (readUpTo headerSize r).1 = p.header ∧
      (readUpTo headerSize r).2.flatten = p.payload ++ rest := by
  obtain ⟨hread, hleft⟩ := readUpTo_eq headerSize r
  rw [h, WirePacket.bytes, List.append_assoc] at hread hleft
  rw [hread, hleft]
  exact ⟨List.take_left' (length_header p), List.drop_left' (length_header p)⟩

/-- A packet that is not too large is read to its end. -/
theorem rounds_packet (h : r.flatten = p.bytes ++ rest) (hp : p.payload.length ≤ maxPayloadSize)
    (n offset : ℕ) :
    ∃ r', r'.flatten = rest ∧
      rounds (n + 1) offset r = ⟨offset, p.queued⟩ :: rounds n (offset + p.bytes.length) r' := by
  obtain ⟨hheader, hleft⟩ := readUpTo_header h
  obtain ⟨hpts, hsize⟩ := header_fields p
  obtain ⟨hrefused, hsigned⟩ := signed_size p.length_lt
  have hlen : ¬p.header.length < headerSize := by
    rw [length_header]
    exact lt_irrefl _
  obtain hzero | hpos := Nat.eq_zero_or_pos p.payload.length
  · refine ⟨(readUpTo headerSize r).2, ?_, ?_⟩
    · rw [hleft, List.eq_nil_of_length_eq_zero hzero, List.nil_append]
    · have hqueued : p.queued = none := if_neg fun hq ↦ by omega
      rw [rounds_succ, hheader, if_neg hlen, hsize, if_pos (hrefused.2 (.inl hzero)), hqueued,
        length_bytes, hzero, Nat.add_zero]
  · have hpayload := readUpTo_eq p.payload.length (readUpTo headerSize r).2
    rw [hleft, List.take_left' rfl, List.drop_left' rfl] at hpayload
    refine ⟨_, hpayload.2, ?_⟩
    have hqueued : p.queued = packet p.ptsFlags p.payload := if_pos ⟨hpos, hp⟩
    have htaken : ¬(signed 4 p.payload.length ≤ 0 ∨
        (maxPayloadSize : ℤ) < signed 4 p.payload.length) := by
      rw [hrefused]
      omega
    rw [rounds_succ, hheader, if_neg hlen, hsize, if_neg htaken, hsigned hp, hpts,
      Int.toNat_natCast]
    dsimp only
    rw [hpayload.1, if_neg (lt_irrefl _), hqueued, length_bytes, Nat.add_assoc]

/-- The payload of a packet that is too large is left in the stream. -/
theorem rounds_oversize (h : r.flatten = p.bytes ++ rest) (hp : maxPayloadSize < p.payload.length)
    (n offset : ℕ) :
    ∃ r', r'.flatten = p.payload ++ rest ∧
      rounds (n + 1) offset r = ⟨offset, none⟩ :: rounds n (offset + headerSize) r' := by
  obtain ⟨hheader, hleft⟩ := readUpTo_header h
  obtain ⟨-, hsize⟩ := header_fields p
  obtain ⟨hrefused, -⟩ := signed_size p.length_lt
  have hlen : ¬p.header.length < headerSize := by
    rw [length_header]
    exact lt_irrefl _
  refine ⟨_, hleft, ?_⟩
  rw [rounds_succ, hheader, if_neg hlen, hsize, if_pos (hrefused.2 (.inr hp))]

/-- A header that is there is read at the offset reached. -/
theorem rounds_offset (h : headerSize ≤ r.flatten.length) (n offset : ℕ) :
    ∃ queued rs, rounds (n + 1) offset r = ⟨offset, queued⟩ :: rs := by
  have hlen : ¬(readUpTo headerSize r).1.length < headerSize := by
    rw [(readUpTo_eq headerSize r).1, List.length_take_of_le h]
    exact lt_irrefl _
  rw [rounds_succ, if_neg hlen]
  split
  · exact ⟨_, _, rfl⟩
  · dsimp only
    split
    · exact ⟨_, _, rfl⟩
    · exact ⟨_, _, rfl⟩

/-- After a packet that is too large, the next header is taken from its payload. -/
theorem rounds_oversize_next (h : r.flatten = p.bytes ++ rest)
    (hp : maxPayloadSize < p.payload.length) (n offset : ℕ) :
    ∃ queued rs,
      rounds (n + 2) offset r = ⟨offset, none⟩ :: ⟨offset + headerSize, queued⟩ :: rs := by
  obtain ⟨r', hr', hrounds⟩ := rounds_oversize h hp (n + 1) offset
  have hlen : headerSize ≤ r'.flatten.length := by
    rw [hr', List.length_append]
    have hmax : headerSize ≤ maxPayloadSize := by decide
    omega
  obtain ⟨queued, rs, hnext⟩ := rounds_offset hlen n (offset + headerSize)
  exact ⟨queued, rs, by rw [hrounds, hnext]⟩

/-! ### Every stream -/

/-- A packet that is too large puts the receiver out of step. -/
theorem rounds_oversize_ne (h : r.flatten = p.bytes ++ rest)
    (hp : maxPayloadSize < p.payload.length) (n offset : ℕ) :
    rounds (n + 2) offset r ≠ inSync offset (p :: ps) := by
  intro heq
  obtain ⟨queued, rs, hrounds⟩ := rounds_oversize_next h hp n offset
  rw [hrounds, inSync, List.cons.injEq] at heq
  obtain _ | ⟨q, ps⟩ := ps
  · exact List.cons_ne_nil _ _ heq.2
  · rw [inSync, List.cons.injEq, length_bytes] at heq
    have hoffset : offset + headerSize = offset + (headerSize + p.payload.length) :=
      congrArg Round.offset heq.2.1
    omega

/-- The rounds on a stream of packets, however many are allowed beyond those it needs. -/
theorem rounds_inSync_iff {n : ℕ} (hr : r.flatten = stream ps) (hn : r.flatten.length < n)
    (offset : ℕ) :
    rounds n offset r = inSync offset ps ↔ ∀ p ∈ ps, p.payload.length ≤ maxPayloadSize := by
  induction ps generalizing r n offset with
  | nil =>
    obtain ⟨n, rfl⟩ := Nat.exists_eq_succ_of_ne_zero (Nat.ne_zero_of_lt hn)
    have hlen : (readUpTo headerSize r).1.length < headerSize := by
      rw [(readUpTo_eq headerSize r).1, hr]
      decide
    rw [rounds_succ, if_pos hlen]
    exact iff_of_true rfl (List.forall_mem_nil _)
  | cons p ps ih =>
    have hsplit : r.flatten = p.bytes ++ stream ps := hr
    have hlen : r.flatten.length = headerSize + p.payload.length + (stream ps).length := by
      rw [hsplit, List.length_append, length_bytes]
    obtain ⟨n, rfl⟩ := Nat.exists_eq_succ_of_ne_zero (Nat.ne_zero_of_lt hn)
    obtain hp | hp := Nat.lt_or_ge maxPayloadSize p.payload.length
    · obtain ⟨m, rfl⟩ : ∃ m, n = m + 1 := ⟨n - 1, by omega⟩
      refine iff_of_false (rounds_oversize_ne hsplit hp m offset) fun hall ↦ ?_
      exact Nat.not_le_of_lt hp (hall p List.mem_cons_self)
    · obtain ⟨r', hr', hrounds⟩ := rounds_packet hsplit hp n offset
      have hleft : r'.flatten.length < n := by
        rw [hr']
        have hheader : 0 < headerSize := by decide
        omega
      rw [hrounds, inSync, List.cons.injEq, List.forall_mem_cons, ih hr' hleft]
      exact ⟨fun hall ↦ ⟨hp, hall.2⟩, fun hall ↦ ⟨rfl, hall.2⟩⟩

/-- **The receiver stays in step**: on every stream of packets, in whatever chunks it arrives, the
receiver reads each header where a packet starts and queues what it should, exactly when no packet
announces more than 65536 bytes. -/
theorem receivePackets_inSync_iff (hr : r.flatten = stream ps) :
    receivePackets r = inSync 0 ps ↔ ∀ p ∈ ps, p.payload.length ≤ maxPayloadSize :=
  rounds_inSync_iff hr (Nat.lt_succ_self _) 0

/-- A media packet of two bytes. -/
def mediaPacket : WirePacket :=
  ⟨4, 7, [1, 2], by decide⟩

/-- A config packet and two media packets, one of them empty, in uneven chunks: the receiver is in
step and queues the packet that is not empty. -/
theorem receivePackets_inSync_small :
    receivePackets [[0, 0, 0, 4, 64], [0, 0, 0, 0], [0, 0, 0, 0, 0, 0, 1, 9],
        bigEndian 4 4 ++ bigEndian 8 3 ++ [0, 0, 0], [0] ++ mediaPacket.bytes] =
      inSync 0 [⟨4, packetFlagConfig, [9], by decide⟩, ⟨4, 3, [], by decide⟩, mediaPacket] :=
  (receivePackets_inSync_iff (by decide)).2 (by decide)

example : (inSync 0 [⟨4, 3, [], by decide⟩, mediaPacket]) =
    [⟨0, none⟩, ⟨16, some ⟨[1, 2], 7⟩⟩] := by decide

theorem length_lt_of_oversize {bytes : Bytes} (h : bytes.length = maxPayloadSize + 1) :
    bytes.length < 2 ^ 32 := by
  rw [h]
  decide

/-- A packet that announces 65537 bytes. -/
def oversizePacket : WirePacket :=
  ⟨4, 7, List.replicate (maxPayloadSize + 1) 0, length_lt_of_oversize List.length_replicate⟩

/-- **A refused payload is parsed**: after a packet of 65537 bytes, the next header is read at byte
16, in its payload. -/
theorem oversize_payload_parsed :
    ¬∀ (r : Reader) (ps : List WirePacket),
      r.flatten = stream ps → receivePackets r = inSync 0 ps := by
  intro hall
  have hbytes : [stream [oversizePacket]].flatten = oversizePacket.bytes ++ [] := by
    rw [List.flatten_singleton, stream, List.flatMap_cons, List.flatMap_nil]
  have hp : maxPayloadSize < oversizePacket.payload.length :=
    Nat.lt_of_lt_of_eq (Nat.lt_succ_self _) List.length_replicate.symm
  have hn : ∃ n, [stream [oversizePacket]].flatten.length + 1 = n + 2 := by
    have hheader : headerSize = 16 := rfl
    rw [hbytes, List.append_nil, length_bytes]
    exact ⟨oversizePacket.payload.length + 15, by omega⟩
  obtain ⟨n, hn⟩ := hn
  have hne : rounds (n + 2) 0 [stream [oversizePacket]] ≠ inSync 0 [oversizePacket] :=
    rounds_oversize_ne hbytes hp n 0
  rw [← hn] at hne
  exact hne <| hall [stream [oversizePacket]] [oversizePacket] List.flatten_singleton

end AllRelay.Speaker
