import AllRelay.Media.SpeakerSender
import AllRelay.Phone.SpeakerPlayback

/-!
# From the capture to the decoder

The whole way of a frame of sound from the server to the phone. `runSpeakerCapture` writes two
config packets, `OpusHead` and `OpusTags`, and then the encoded frames that its queue lets through;
the phone reads the two (`readConfiguration`) and then packets (`receivePackets`), and its playback
thread feeds the decoder from a second queue.

Both queues drop their oldest items and the connection can end in the middle of a packet, so frames
are lost on the way. None is made up, changed, repeated or overtaken.
-/

open ChunkedReader Wire

namespace AllRelay.SpeakerPath

open Speaker (headerSize maxPayloadSize packetFlagConfig ptsMask Packet Round WirePacket)
open SpeakerSender (OpusPacket)

/-! ### What the server writes -/

/-- `binary.LittleEndian`. -/
def littleEndian (k n : ℕ) : Bytes :=
  (bigEndian k n).reverse

/-- `StreamSpeaker`, and `StreamId.SPEAKER`. -/
def streamSpeaker : UInt32 := 4

/-- `OpusHead`, in ASCII. -/
def opusHeadMagic : Bytes := [0x4f, 0x70, 0x75, 0x73, 0x48, 0x65, 0x61, 0x64]

/-- `OpusTags`, in ASCII. -/
def opusTagsMagic : Bytes := [0x4f, 0x70, 0x75, 0x73, 0x54, 0x61, 0x67, 0x73]

/-- `OpusHeadPacket`. -/
def opusHeadPacket (sampleRate channels preSkip : ℕ) : Bytes :=
  opusHeadMagic ++ [1, UInt8.ofNat channels] ++ littleEndian 2 preSkip ++
    littleEndian 4 sampleRate ++ littleEndian 2 0 ++ [0]

/-- `OpusTagsPacket`, with the bytes of the vendor. -/
def opusTagsPacket (vendor : Bytes) : Bytes :=
  opusTagsMagic ++ littleEndian 4 vendor.length ++ vendor ++ littleEndian 4 0

/-- `WritePacket`: the bytes written. -/
def writePacket (streamID : UInt32) (flags pts : UInt64) (payload : Bytes) : Bytes :=
  bigEndian 4 streamID.toNat ++ bigEndian 8 (pts ||| flags).toNat ++
    bigEndian 4 (UInt32.ofNat payload.length).toNat ++ payload

/-- The sample rate, the channels and the bytes of the vendor, as `runSpeakerCapture` has them. -/
def configBytes : Bytes :=
  writePacket streamSpeaker packetFlagConfig 0 (opusHeadPacket 48000 2 0) ++
    writePacket streamSpeaker packetFlagConfig 0
      (opusTagsPacket [0x41, 0x6c, 0x6c, 0x52, 0x65, 0x6c, 0x61, 0x79])

/-- The packet of a frame. -/
def frameBytes (pkt : OpusPacket) : Bytes :=
  writePacket streamSpeaker 0 (UInt64.ofNat pkt.pts) pkt.data

/-- `maxDataBytes` of `OpusEncoder.Encode`. -/
def maxDataBytes : ℕ := 1275

/-! ### What the phone reads -/

/-- `isValidOpusHead`. -/
def isValidOpusHead (data : Bytes) : Bool :=
  if data.length < 19 || data.getD 8 0 ≠ 1 || data.getD 9 0 = 0 then false
  else data.take 8 = opusHeadMagic

/-- A round of `readConfiguration`; `none` is a `null`. -/
def readConfigPacket (r : Reader) : Option (Bytes × Reader) :=
  let (headerBuf, r) := readUpTo headerSize r
  if headerBuf.length < headerSize then none
  else if signed 4 (value (headerBuf.take 4)) ≠ streamSpeaker.toNat then none
  else
    let size := signed 4 (value ((headerBuf.drop 12).take 4))
    if size ≤ 0 ∨ (maxPayloadSize : ℤ) < size then none
    else
      let (data, r) := readUpTo size.toNat r
      if (data.length : ℤ) < size then none else some (data, r)

/-- `readConfiguration`: the `OpusHead`, and what is left of the stream. -/
def readConfiguration (r : Reader) : Option (Bytes × Reader) := do
  let (opusHead, r) ← readConfigPacket r
  if !isValidOpusHead opusHead then none
  let (_, r) ← readConfigPacket r
  return (opusHead, r)

/-! ### One packet -/

variable {streamID : UInt32} {flags pts : UInt64} {payload rest : Bytes} {r : Reader}

/-- A packet that is written is one on the wire. -/
theorem writePacket_eq (h : payload.length < 2 ^ 32) :
    writePacket streamID flags pts payload =
      (⟨streamID, pts ||| flags, payload, h⟩ : WirePacket).bytes := by
  have hlength : (UInt32.ofNat payload.length).toNat = payload.length :=
    UInt32.toNat_ofNat_of_lt' h
  rw [writePacket, hlength]
  rfl

/-- A config packet of the speaker's stream is read. -/
theorem readConfigPacket_eq (h : r.flatten = writePacket streamSpeaker flags pts payload ++ rest)
    (hpos : 0 < payload.length) (hle : payload.length ≤ maxPayloadSize) :
    ∃ r', readConfigPacket r = some (payload, r') ∧ r'.flatten = rest := by
  have hlt : payload.length < 2 ^ 32 := Nat.lt_of_le_of_lt hle (by decide)
  rw [writePacket_eq hlt] at h
  obtain ⟨hheader, hleft⟩ := Speaker.readUpTo_header h
  obtain ⟨-, hsize⟩ := Speaker.header_fields ⟨streamSpeaker, pts ||| flags, payload, hlt⟩
  obtain ⟨hrefused, hsigned⟩ := Speaker.signed_size hlt
  have hstream : (WirePacket.header ⟨streamSpeaker, pts ||| flags, payload, hlt⟩).take 4 =
      bigEndian 4 streamSpeaker.toNat := by
    rw [WirePacket.header, List.append_assoc, List.take_left' (length_bigEndian ..)]
  have hpayload := readUpTo_eq payload.length (readUpTo headerSize r).2
  rw [hleft, List.take_left' rfl, List.drop_left' rfl] at hpayload
  refine ⟨_, ?_, hpayload.2⟩
  have htaken : ¬(signed 4 payload.length ≤ 0 ∨
      (maxPayloadSize : ℤ) < signed 4 payload.length) := by
    rw [hrefused]
    omega
  have hspeaker : signed 4 (value (bigEndian 4 streamSpeaker.toNat)) = streamSpeaker.toNat := by
    decide
  rw [readConfigPacket]
  dsimp only
  rw [hheader, if_neg (by rw [Speaker.length_header]; exact lt_irrefl _), hstream,
    if_neg (not_not.2 hspeaker), hsize, if_neg htaken, hsigned hle, Int.toNat_natCast]
  rw [hpayload.1, if_neg (lt_irrefl _)]

/-- **The phone takes the configuration that the server writes.** -/
theorem readConfiguration_eq (h : r.flatten = configBytes ++ rest) :
    ∃ r', readConfiguration r = some (opusHeadPacket 48000 2 0, r') ∧ r'.flatten = rest := by
  rw [configBytes, List.append_assoc] at h
  obtain ⟨r₁, hhead, hr₁⟩ := readConfigPacket_eq h (by decide) (by decide)
  obtain ⟨r₂, htags, hr₂⟩ := readConfigPacket_eq hr₁ (by decide) (by decide)
  refine ⟨r₂, ?_, hr₂⟩
  have hvalid : isValidOpusHead (opusHeadPacket 48000 2 0) = true := by decide
  simp only [readConfiguration, hhead, hvalid, htags, Option.bind_eq_bind, Option.bind_some]
  rfl

/-! ### The frames -/

/-- The packet that the phone makes of a frame. -/
def toPacket (pkt : OpusPacket) : Packet :=
  ⟨pkt.data, UInt64.ofNat pkt.pts⟩

/-- A frame of the encoder, with a time stamp that fits its field. -/
def Short (pkt : OpusPacket) : Prop :=
  pkt.data.length ≤ maxDataBytes ∧ pkt.pts < 2 ^ 53

/-- A time stamp is no config flag, and the mask leaves it alone. -/
theorem packet_of_pts {n : ℕ} (h : n < 2 ^ 53) (data : Bytes) :
    Speaker.packet (UInt64.ofNat n ||| 0) data = some ⟨data, UInt64.ofNat n⟩ := by
  have htoNat : (UInt64.ofNat n).toNat = n :=
    UInt64.toNat_ofNat_of_lt' (Nat.lt_of_lt_of_le h (by decide))
  have hflag : UInt64.ofNat n &&& packetFlagConfig = 0 := by
    refine UInt64.toNat_inj.1 ?_
    have hbit : packetFlagConfig.toNat = 2 ^ 62 := by decide
    rw [UInt64.toNat_and, htoNat, hbit]
    refine Nat.eq_of_testBit_eq fun i ↦ ?_
    by_cases hi : i = 62
    · subst hi
      rw [Nat.testBit_and, Nat.testBit_lt_two_pow (Nat.lt_of_lt_of_le h (by decide))]
      rfl
    · rw [Nat.testBit_and, Nat.testBit_two_pow_of_ne (Ne.symm hi), Bool.and_false]
      exact (Nat.zero_testBit i).symm
  have hmask : UInt64.ofNat n &&& ptsMask = UInt64.ofNat n := by
    refine UInt64.toNat_inj.1 ?_
    have hbits : ptsMask.toNat = 2 ^ 53 - 1 := by decide
    rw [UInt64.toNat_and, htoNat, hbits, Nat.and_two_pow_sub_one_eq_mod, Nat.mod_eq_of_lt h]
  rw [Speaker.packet, UInt64.or_zero, hmask]
  exact if_neg (not_not.2 hflag)

/-- The packet of a frame on the wire. -/
theorem frameBytes_eq {pkt : OpusPacket} (h : Short pkt) :
    ∃ p : WirePacket, frameBytes pkt = p.bytes ∧ p.payload = pkt.data ∧
      p.payload.length ≤ maxPayloadSize ∧
      p.queued = if pkt.data = [] then none else some (toPacket pkt) := by
  have hle : pkt.data.length ≤ maxPayloadSize := Nat.le_trans h.1 (by decide)
  have hlt : pkt.data.length < 2 ^ 32 := Nat.lt_of_le_of_lt hle (by decide)
  refine ⟨⟨streamSpeaker, UInt64.ofNat pkt.pts ||| 0, pkt.data, hlt⟩, writePacket_eq hlt, rfl, hle,
    ?_⟩
  rw [WirePacket.queued]
  dsimp only
  rw [packet_of_pts h.2]
  by_cases hdata : pkt.data = []
  · rw [if_pos hdata, if_neg (fun hq ↦ by rw [hdata] at hq; exact absurd hq.1 (lt_irrefl _))]
  · rw [if_neg hdata, if_pos ⟨List.length_pos_iff.2 hdata, hle⟩]
    rfl

/-- Where the connection ends: in the middle of a packet, or before it. -/
def CutOff (tail : Bytes) : Prop :=
  ∃ pkt, Short pkt ∧ tail <+: frameBytes pkt ∧ tail ≠ frameBytes pkt

/-- Nothing is queued of a packet that is cut off. -/
theorem rounds_of_cutOff {tail : Bytes} (htail : CutOff tail) (hr : r.flatten = tail)
    (n offset : ℕ) : (Speaker.rounds n offset r).filterMap Round.queued = [] := by
  obtain _ | n := n
  · rfl
  obtain ⟨pkt, hshort, ⟨missing, hmissing⟩, hne⟩ := htail
  obtain ⟨p, hp, -, hle, -⟩ := frameBytes_eq hshort
  rw [hp] at hmissing hne
  rw [Speaker.rounds_succ]
  obtain ⟨hread, hleft⟩ := readUpTo_eq headerSize r
  rw [hr] at hread hleft
  split
  · rfl
  · rename_i hlong
    rw [hread, List.length_take, Nat.not_lt, le_min_iff] at hlong
    -- the header is there, and the payload is not
    have hheader : tail.take headerSize = p.header := by
      have htake : (tail ++ missing).take headerSize = p.bytes.take headerSize := by rw [hmissing]
      rwa [List.take_append_of_le_length hlong.2, WirePacket.bytes,
        List.take_left' (Speaker.length_header p)] at htake
    have hpayload : (tail.drop headerSize).length < p.payload.length := by
      have hlength := congrArg List.length hmissing
      rw [List.length_append, Speaker.length_bytes] at hlength
      have hpos : 0 < missing.length := by
        refine List.length_pos_iff.2 fun hnil ↦ hne ?_
        rw [← hmissing, hnil, List.append_nil]
      rw [List.length_drop]
      omega
    obtain ⟨-, hsize⟩ := Speaker.header_fields p
    obtain ⟨hrefused, hsigned⟩ := Speaker.signed_size p.length_lt
    rw [hread, hheader, hsize, if_neg (by rw [hrefused]; omega), hsigned hle]
    obtain ⟨hdata, -⟩ := readUpTo_eq p.payload.length (readUpTo headerSize r).2
    rw [hleft] at hdata
    dsimp only
    rw [Int.toNat_natCast, if_pos ?_]
    · rfl
    · rw [hdata, List.length_take]
      omega

/-- **What the phone queues** is what was written, but for frames without data, wherever the
connection ends. -/
theorem queued_of_frames {frames : List OpusPacket} {tail : Bytes}
    (hframes : ∀ pkt ∈ frames, Short pkt) (htail : CutOff tail)
    (hr : r.flatten = frames.flatMap frameBytes ++ tail) {n : ℕ} (hn : r.flatten.length < n)
    (offset : ℕ) :
    (Speaker.rounds n offset r).filterMap Round.queued =
      (frames.filter (·.data ≠ [])).map toPacket := by
  induction frames generalizing r n offset with
  | nil => exact rounds_of_cutOff htail hr n offset
  | cons pkt frames ih =>
    obtain ⟨p, hp, hpayload, hle, hqueued⟩ := frameBytes_eq (hframes pkt List.mem_cons_self)
    rw [List.flatMap_cons, List.append_assoc, hp] at hr
    obtain ⟨n, rfl⟩ := Nat.exists_eq_succ_of_ne_zero (Nat.ne_zero_of_lt hn)
    obtain ⟨r', hr', hrounds⟩ := Speaker.rounds_packet hr hle n offset
    have hleft : r'.flatten.length < n := by
      have hlength := congrArg List.length hr
      rw [List.length_append, Speaker.length_bytes] at hlength
      have hheader : headerSize = 16 := rfl
      rw [hr']
      omega
    have hrest := ih (fun q hq ↦ hframes q (List.mem_cons_of_mem _ hq)) hr' hleft
      (offset + p.bytes.length)
    rw [Nat.succ_eq_add_one, hrounds, hqueued]
    by_cases hdata : pkt.data = []
    · rw [if_pos hdata, List.filter_cons_of_neg (by simpa using hdata)]
      exact hrest
    · rw [if_neg hdata, List.filter_cons_of_pos (by simpa using hdata), List.map_cons, ← hrest]
      rfl

/-! ### The whole way -/

open LabelledSystem

/-- What the encoder returns is never longer than its buffer. -/
def FromEncoder : SpeakerSender.Label → Prop
  | .encode data => data.length ≤ maxDataBytes
  | _ => True

/-- Only the encoder produces frames. -/
theorem produced_step {s t : SpeakerSender.State} {l : SpeakerSender.Label}
    (h : SpeakerSender.step s l = some t) :
    t.produced = s.produced ∨
      ∃ data pts, l = .encode data ∧ t.produced = s.produced ++ [⟨pts, data⟩] := by
  cases l with
  | encode data =>
    rw [SpeakerSender.step, Option.ite_none_right_eq_some] at h
    obtain rfl := Option.some.inj h.2
    exact .inr ⟨data, _, rfl, rfl⟩
  | finish =>
    rw [SpeakerSender.step, Option.ite_none_right_eq_some] at h
    obtain rfl := Option.some.inj h.2
    exact .inl rfl
  | enqueue =>
    simp only [SpeakerSender.step, SpeakerSender.State.enqueue, SpeakerSender.State.push] at h
    grind
  | receive =>
    simp only [SpeakerSender.step, SpeakerSender.State.receive] at h
    grind
  | write ok =>
    simp only [SpeakerSender.step, SpeakerSender.State.write] at h
    grind

/-- The frames of a run are short. -/
theorem produced_short {ls : List SpeakerSender.Label} {s : SpeakerSender.State}
    (h : exec SpeakerSender.step SpeakerSender.init ls = some s)
    (hencoder : ∀ l ∈ ls, FromEncoder l)
    (hpts : s.frameCount * (SpeakerSender.frameMs * 1000) < 2 ^ 53) :
    ∀ pkt ∈ s.produced, Short pkt := by
  have hdata : ∀ pkt ∈ s.produced, pkt.data.length ≤ maxDataBytes := by
    refine exec_invariant_along (P := fun s ↦ ∀ pkt ∈ s.produced, pkt.data.length ≤ maxDataBytes)
      ?_ (along_of_forall_mem hencoder) (fun pkt hpkt ↦ by cases hpkt) h
    intro s l t hl hs hstep pkt hpkt
    obtain hsame | ⟨data, pts, rfl, hproduced⟩ := produced_step hstep
    · exact hs pkt (hsame ▸ hpkt)
    · rw [hproduced, List.mem_append, List.mem_singleton] at hpkt
      obtain hpkt | rfl := hpkt
      · exact hs pkt hpkt
      · exact hl
  intro pkt hpkt
  refine ⟨hdata pkt hpkt, ?_⟩
  have hmem : pkt.pts ∈ s.produced.map OpusPacket.pts := List.mem_map_of_mem hpkt
  rw [(SpeakerSender.Inv.exec h).stamps] at hmem
  obtain ⟨i, hi, hi'⟩ := List.mem_map.1 hmem
  have hle := Nat.mul_le_mul_right (SpeakerSender.frameMs * 1000)
    (Nat.succ_le_of_lt (List.mem_range.1 hi))
  exact Nat.lt_of_le_of_lt (hi' ▸ hle) hpts

/-- The packets on the phone keep the order of the time stamps. -/
theorem ptsUs_pairwise {frames : List OpusPacket} (hshort : ∀ pkt ∈ frames, Short pkt)
    (h : (frames.map OpusPacket.pts).Pairwise (· < ·)) :
    ((frames.map toPacket).map Packet.ptsUs).Pairwise (· < ·) := by
  rw [List.map_map, List.pairwise_map]
  rw [List.pairwise_map] at h
  refine h.imp_of_mem fun ha hb hab ↦ ?_
  have hlt (pkt : OpusPacket) (hpkt : pkt ∈ frames) : (UInt64.ofNat pkt.pts).toNat = pkt.pts :=
    UInt64.toNat_ofNat_of_lt' (Nat.lt_of_lt_of_le (hshort pkt hpkt).2 (by decide))
  rw [UInt64.lt_iff_toNat_lt]
  show (UInt64.ofNat _).toNat < (UInt64.ofNat _).toNat
  rwa [hlt _ ha, hlt _ hb]

/-- What the playback thread has fed was received, in this order. -/
theorem fed_sublist {ls : List Speaker.Label} {p : Speaker.State}
    (h : exec Speaker.step Speaker.init ls = some p) : p.fed.Sublist p.received := by
  have hinv := Speaker.reachable_inv ⟨_, ls, rfl, h⟩
  have htaken : p.fed.Sublist (p.packetQueue.taken .playback) := by
    rw [hinv.fed]
    exact List.sublist_append_left ..
  have hpushed : p.packetQueue.pushed.Sublist p.received := by
    rw [hinv.received]
    exact List.sublist_append_left ..
  exact (htaken.trans (DropOldest.Queue.taken_sublist ..)).trans hpushed

/-- **From the capture to the decoder.** After any schedule of the server's capture loop and sender,
with the bytes written so far delivered in whatever chunks and the connection cut off in the middle
of a packet or before it: the phone reads the `OpusHead` of the server and then queues exactly the
frames that were written and have data. And after any schedule of the phone's two threads on these,
what was fed to the decoder is a subsequence of what the server encoded, with growing time
stamps. -/
theorem speaker_path {ls : List SpeakerSender.Label} {s : SpeakerSender.State}
    (h : exec SpeakerSender.step SpeakerSender.init ls = some s)
    (hencoder : ∀ l ∈ ls, FromEncoder l)
    (hpts : s.frameCount * (SpeakerSender.frameMs * 1000) < 2 ^ 53) {r : Reader} {tail : Bytes}
    (htail : CutOff tail) (hr : r.flatten = configBytes ++ (s.written.flatMap frameBytes ++ tail)) :
    ∃ r', readConfiguration r = some (opusHeadPacket 48000 2 0, r') ∧
      (Speaker.receivePackets r').filterMap Round.queued =
        (s.written.filter (·.data ≠ [])).map toPacket ∧
      ∀ ms p, exec Speaker.step Speaker.init ms = some p →
        p.received <+: (Speaker.receivePackets r').filterMap Round.queued →
        p.fed.Sublist (s.produced.map toPacket) ∧ (p.fed.map Packet.ptsUs).Pairwise (· < ·) := by
  have hs := SpeakerSender.Inv.exec h
  have hshort := produced_short h hencoder hpts
  obtain ⟨r', hconfig, hr'⟩ := readConfiguration_eq hr
  have hqueued := queued_of_frames
    (fun pkt hpkt ↦ hshort pkt (hs.written_sublist.subset hpkt)) htail hr' (Nat.lt_succ_self _) 0
  refine ⟨r', hconfig, hqueued, fun ms p hp hreceived ↦ ?_⟩
  have hsub : p.fed.Sublist (s.produced.map toPacket) := by
    refine (fed_sublist hp).trans (hreceived.sublist.trans ?_)
    rw [show (Speaker.receivePackets r').filterMap Round.queued = _ from hqueued]
    exact (List.filter_sublist.trans hs.written_sublist).map _
  exact ⟨hsub, (ptsUs_pairwise hshort hs.pts_pairwise).sublist (hsub.map _)⟩

/-- Two frames are encoded and the first of them is written. -/
def oneWrite : List SpeakerSender.Label :=
  [.encode [1], .enqueue, .receive, .encode [2], .enqueue, .write true, .receive]

/-- The connection ends two bytes into the second frame. -/
theorem speaker_path_cutOff :
    ∃ s, exec SpeakerSender.step SpeakerSender.init oneWrite = some s ∧
      ∃ r', readConfiguration [configBytes, frameBytes ⟨20000, [1]⟩ ++ [0], [0]] =
          some (opusHeadPacket 48000 2 0, r') ∧
        (Speaker.receivePackets r').filterMap Round.queued =
          (s.written.filter (·.data ≠ [])).map toPacket := by
  obtain ⟨r', hconfig, hqueued, -⟩ := @speaker_path oneWrite _ rfl
    (by simp [oneWrite, FromEncoder, maxDataBytes]) (by decide)
    [configBytes, frameBytes ⟨20000, [1]⟩ ++ [0], [0]] [0, 0]
    ⟨⟨40000, [2]⟩, ⟨by decide, by decide⟩, by decide, by decide⟩ (by decide)
  exact ⟨_, rfl, r', hconfig, hqueued⟩

end AllRelay.SpeakerPath
