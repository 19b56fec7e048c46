import AllRelay.Media.Streamer
import Mathlib.Data.Nat.Bitwise

/-!
# Media round trip

What the phone's writer puts on the socket, the reader of the server delivers. `Sends` says what
each call of the writer means; `whole_media` and `whole_session` are the two header layouts, and the
rest is one packet after another.

The config buffers of Opus and FLAC wrap a block in a header of their own, which the writer takes
off.
-/

open ChunkedReader Wire

namespace AllRelay.Media

/-! ### What a call means -/

/-- What a packet says. -/
inductive Content where
  /-- The size of the pictures that follow. -/
  | session (width height : UInt32)
  /-- A codec config or a piece of media. -/
  | media (pts : UInt64) (config keyFrame : Bool) (payload : Bytes)
deriving DecidableEq, Repr

/-- What a handler sees in a packet. -/
def Packet.content (p : Packet) : Content :=
  if p.header.isSession then .session p.header.sessionWidth p.header.sessionHeight
  else .media p.header.pts p.header.isConfig p.header.isKeyFrame p.payload

/-- The payload that is meant by a buffer. -/
inductive WifiStreamer.Payload (s : WifiStreamer) : Bytes → Bool → Bytes → Prop
  /-- An Opus config buffer as a `MediaCodec` emits it: the `OpusHead` block and what may follow. -/
  | opus {head rest : Bytes} (hs : s.codec = .opus) :
    Payload s (opusHeaderId ++ (s.nativeOrder.put 8 head.length ++ (head ++ rest))) true head
  /-- A FLAC config buffer. -/
  | flac {block rest : Bytes} (hs : s.codec = .flac) :
    Payload s (flacHeaderId ++ (bigEndian 4 block.length ++ (block ++ rest))) true block
  /-- Any other buffer. -/
  | plain {buffer : Bytes} {config : Bool}
    (hs : config = true → s.codec ≠ .opus ∧ s.codec ≠ .flac) : Payload s buffer config buffer

/-- What a call means. -/
inductive WifiStreamer.Sends (s : WifiStreamer) : Call → Content → Prop
  /-- The codec id. -/
  | videoHeader : Sends s .videoHeader (.media 0 false false (bigEndian 4 s.codec.getId.toNat))
  /-- The codec id. -/
  | audioHeader : Sends s .audioHeader (.media 0 false false (bigEndian 4 s.codec.getId.toNat))
  /-- A session. -/
  | sessionMeta {width height : UInt32} {isClientResize : Bool} :
    Sends s (.sessionMeta width height isClientResize) (.session width height)
  /-- A packet: a config packet carries the config flag only. -/
  | packet {buffer payload : Bytes} {pts : UInt64} {config keyFrame : Bool}
    (hpts : pts.toNat < 2 ^ 53) (hpayload : s.Payload buffer config payload)
    (hsize : payload.length ≤ maxPayloadSize) :
    Sends s (.packet buffer pts config keyFrame)
      (.media (if config then 0 else pts) config (keyFrame && !config) payload)
  /-- A packet of a `MediaCodec`. -/
  | codecPacket {codecBuffer payload : Bytes} {info : BufferInfo}
    (hpts : info.presentationTimeUs.toNat < 2 ^ 53)
    (hpayload : s.Payload ((codecBuffer.drop info.offset).take info.size)
      (info.flags &&& bufferFlagCodecConfig ≠ 0) payload)
    (hsize : payload.length ≤ maxPayloadSize) :
    Sends s (.codecPacket codecBuffer info)
      (.media (if info.flags &&& bufferFlagCodecConfig ≠ 0 then 0 else info.presentationTimeUs)
        (info.flags &&& bufferFlagCodecConfig ≠ 0)
        (decide (info.flags &&& bufferFlagKeyFrame ≠ 0) &&
          !decide (info.flags &&& bufferFlagCodecConfig ≠ 0)) payload)

/-! ### Flags -/

/-- A flag is a bit. -/
theorem and_flag_ne_zero {x flag : UInt64} {k : ℕ} (hflag : flag.toNat = 2 ^ k) :
    x &&& flag ≠ 0 ↔ x.toNat.testBit k = true := by
  have hand : (x &&& flag).toNat = (x.toNat.testBit k).toNat * 2 ^ k := by
    rw [UInt64.toNat_and, hflag, Nat.and_two_pow]
  rw [Ne, ← UInt64.toNat_inj, hand]
  cases x.toNat.testBit k <;> simp

theorem testBit_ptsAndFlags {pts : UInt64} (hpts : pts.toNat < 2 ^ 53) (config keyFrame : Bool)
    {k : ℕ} (hk : 53 ≤ k) :
    (WifiStreamer.ptsAndFlags pts config keyFrame).toNat.testBit k =
      (decide (k = 62) && config || decide (k = 61) && (keyFrame && !config)) := by
  have hlow : pts.toNat.testBit k = false :=
    Nat.testBit_lt_two_pow (Nat.lt_of_lt_of_le hpts (Nat.pow_le_pow_right (by decide) hk))
  have hflag (j : ℕ) : (2 ^ j).testBit k = decide (k = j) := by
    rw [Nat.testBit_two_pow]
    exact decide_eq_decide.2 eq_comm
  rw [WifiStreamer.ptsAndFlags]
  cases config with
  | true =>
    rw [if_pos rfl, show flagConfig.toNat = 2 ^ 62 from rfl, hflag]
    simp
  | false =>
    cases keyFrame with
    | true =>
      rw [if_neg Bool.false_ne_true, if_pos rfl, UInt64.toNat_or, Nat.testBit_or, hlow,
        show flagKeyFrame.toNat = 2 ^ 61 from rfl, hflag]
      simp
    | false =>
      rw [if_neg Bool.false_ne_true, if_neg Bool.false_ne_true, hlow]
      simp

theorem ptsAndFlags_pts {pts : UInt64} (hpts : pts.toNat < 2 ^ 53) (config keyFrame : Bool) :
    WifiStreamer.ptsAndFlags pts config keyFrame &&& ptsMask = if config then 0 else pts := by
  have hmask (x : UInt64) : (x &&& ptsMask).toNat = x.toNat % 2 ^ 53 := by
    rw [UInt64.toNat_and, show ptsMask.toNat = 2 ^ 53 - 1 from rfl, Nat.and_two_pow_sub_one_eq_mod]
  rw [← UInt64.toNat_inj, hmask, WifiStreamer.ptsAndFlags]
  cases config with
  | true =>
    rw [if_pos rfl, if_pos rfl]
    rfl
  | false =>
    cases keyFrame with
    | true =>
      rw [if_neg Bool.false_ne_true, if_pos rfl, if_neg Bool.false_ne_true, UInt64.toNat_or,
        Nat.or_mod_two_pow, show flagKeyFrame.toNat % 2 ^ 53 = 0 from rfl, Nat.or_zero,
        Nat.mod_eq_of_lt hpts]
    | false =>
      rw [if_neg Bool.false_ne_true, if_neg Bool.false_ne_true, if_neg Bool.false_ne_true,
        Nat.mod_eq_of_lt hpts]

/-! ### The two layouts -/

/-- A header by its words. -/
theorem Header.ofBytes_append {a b c d : Bytes} (ha : a.length = 4) (hb : b.length = 4)
    (hc : c.length = 4) (hd : d.length = 4) :
    Header.ofBytes (a ++ (b ++ (c ++ d))) =
      if (UInt32.ofNat (value b)).toNat.testBit 31 then
        ⟨.ofNat (value a), (UInt32.ofNat (value b)).toUInt64 <<< 32, 0, .ofNat (value c),
          .ofNat (value d)⟩
      else ⟨.ofNat (value a), .ofNat (value (b ++ c)), .ofNat (value d), 0, 0⟩ := by
  have htake : (a ++ (b ++ (c ++ d))).take 4 = a := List.take_left' ha
  have hdrop : (a ++ (b ++ (c ++ d))).drop 4 = b ++ (c ++ d) := List.drop_left' ha
  have hdrop8 : (a ++ (b ++ (c ++ d))).drop 8 = c ++ d := by
    rw [show 8 = 4 + 4 from rfl, ← List.drop_drop, hdrop, List.drop_left' hb]
  have hdrop12 : (a ++ (b ++ (c ++ d))).drop 12 = d := by
    rw [show 12 = 8 + 4 from rfl, ← List.drop_drop, hdrop8, List.drop_left' hc]
  have hb4 : (b ++ (c ++ d)).take 4 = b := List.take_left' hb
  have hb8 : (b ++ (c ++ d)).take 8 = b ++ c := by
    have hlen : (b ++ c).length = 8 := by
      rw [List.length_append]
      omega
    rw [← List.append_assoc, List.take_left' hlen]
  have hc4 : (c ++ d).take 4 = c := List.take_left' hc
  have hd4 : d.take 4 = d := List.take_of_length_le (Nat.le_of_eq hd)
  have hbit (u : UInt32) : u &&& (flagSession >>> 32).toUInt32 ≠ 0 ↔ u.toNat.testBit 31 = true := by
    have hand : (u &&& (flagSession >>> 32).toUInt32).toNat =
        (u.toNat.testBit 31).toNat * 2 ^ 31 := by
      rw [UInt32.toNat_and, ← Nat.and_two_pow]
      rfl
    rw [Ne, ← UInt32.toNat_inj, hand]
    cases u.toNat.testBit 31 <;> simp
  rw [Header.ofBytes, htake, hdrop, hdrop8, hdrop12, hb4, hb8, hc4, hd4]
  by_cases h : (UInt32.ofNat (value b)).toNat.testBit 31 = true
  · rw [if_pos ((hbit _).2 h), if_pos h]
  · rw [if_neg (h ∘ (hbit _).1), if_neg h]

theorem ofNat_value_bigEndian (u : UInt32) : UInt32.ofNat (value (bigEndian 4 u.toNat)) = u := by
  rw [value_bigEndian, show 256 ^ 4 = 2 ^ 32 from rfl, Nat.mod_eq_of_lt u.toNat_lt,
    UInt32.ofNat_toNat]

/-- **The media layout.** -/
theorem whole_media (id : UInt32) {x : UInt64} {payload : Bytes} (hx : x.toNat.testBit 63 = false)
    (hsize : payload.length ≤ maxPayloadSize) :
    Whole (bigEndian 4 id.toNat ++ bigEndian 8 x.toNat ++ bigEndian 4 payload.length ++ payload)
      ⟨⟨id, x, .ofNat payload.length, 0, 0⟩, payload⟩ := by
  have hsize' : payload.length < 2 ^ 32 := by
    have : maxPayloadSize < 2 ^ 32 := by decide
    omega
  have hlen : (UInt32.ofNat payload.length).toNat = payload.length := by
    rw [UInt32.toNat_ofNat', Nat.mod_eq_of_lt hsize']
  have hhead : (bigEndian 4 id.toNat ++ bigEndian 8 x.toNat ++ bigEndian 4 payload.length).length =
      headerSize := by simp [headerSize]
  refine ⟨?_, ?_, ?_, by rw [hlen]; exact hsize⟩
  · rw [← hhead, List.take_left, List.append_assoc, bigEndian_add 4 4, List.append_assoc,
      Header.ofBytes_append (length_bigEndian ..) (length_bigEndian ..) (length_bigEndian ..)
        (length_bigEndian ..)]
    have hupper : (UInt32.ofNat (value (bigEndian 4 (x.toNat / 256 ^ 4)))).toNat =
        x.toNat / 2 ^ 32 := by
      have hlt : x.toNat / 2 ^ 32 < 2 ^ 32 := by
        have := x.toNat_lt
        omega
      rw [value_bigEndian, UInt32.toNat_ofNat', show 256 ^ 4 = 2 ^ 32 from rfl,
        Nat.mod_mod, Nat.mod_eq_of_lt hlt]
    rw [hupper, Nat.testBit_div_two_pow, hx, if_neg Bool.false_ne_true, ← bigEndian_add 4 4,
      ofNat_value_bigEndian, value_bigEndian, value_bigEndian, show 256 ^ (4 + 4) = 2 ^ 64 from rfl,
      Nat.mod_eq_of_lt x.toNat_lt, UInt64.ofNat_toNat, show 256 ^ 4 = 2 ^ 32 from rfl,
      Nat.mod_eq_of_lt hsize']
  · rw [List.length_append, hhead, hlen]
  · rw [← hhead, List.drop_left]

/-- **The session layout.** -/
theorem whole_session (id flags width height : UInt32) (hflags : flags.toNat.testBit 31 = true) :
    Whole (bigEndian 4 id.toNat ++ bigEndian 4 flags.toNat ++ bigEndian 4 width.toNat ++
        bigEndian 4 height.toNat)
      ⟨⟨id, flags.toUInt64 <<< 32, 0, width, height⟩, []⟩ := by
  have hhead : (bigEndian 4 id.toNat ++ bigEndian 4 flags.toNat ++ bigEndian 4 width.toNat ++
      bigEndian 4 height.toNat).length = headerSize := by simp [headerSize]
  refine ⟨?_, hhead, ?_, Nat.zero_le _⟩
  · rw [← hhead, List.take_length, List.append_assoc, List.append_assoc,
      Header.ofBytes_append (length_bigEndian ..) (length_bigEndian ..) (length_bigEndian ..)
        (length_bigEndian ..)]
    simp only [ofNat_value_bigEndian]
    rw [if_pos hflags]
  · rw [← hhead, List.drop_length]

/-! ### Config buffers -/

theorem length_put (order : ByteOrder) (k n : ℕ) : (order.put k n).length = k := by
  cases order with
  | bigEndian => exact length_bigEndian k n
  | littleEndian => exact List.length_reverse.trans (length_bigEndian k n)

/-- A size that is read back in the byte order it was written in. -/
theorem get_put (order : ByteOrder) {k n : ℕ} (hn : 2 * n < 256 ^ k) :
    order.get (order.put k n) = n := by
  have hsigned : signed k (value (bigEndian k n)) = n := by
    have hcast : ((256 ^ k : ℕ) : ℤ) = 256 ^ k := by norm_cast
    have hn' : (2 * n : ℤ) < 256 ^ k := by
      rw [← hcast]
      exact_mod_cast hn
    rw [signed, value_bigEndian, Nat.mod_eq_of_lt (by omega)]
    refine Int.bmod_eq_of_le_mul_two ?_ ?_ <;> rw [hcast] <;> omega
  cases order with
  | bigEndian => rw [ByteOrder.put, ByteOrder.get, length_bigEndian, hsigned]
  | littleEndian =>
    rw [ByteOrder.put, ByteOrder.get, List.length_reverse, length_bigEndian, List.reverse_reverse,
      hsigned]

theorem fixOpusConfigPacket_eq (order : ByteOrder) {head : Bytes} (rest : Bytes)
    (hsize : head.length ≤ maxPayloadSize) :
    fixOpusConfigPacket order (opusHeaderId ++ (order.put 8 head.length ++ (head ++ rest))) =
      .ok head := by
  have hmax : maxPayloadSize < 0x7FFFFFFF := by decide
  have hid : opusHeaderId.length = 8 := rfl
  have hput := length_put order 8 head.length
  have hdrop : (opusHeaderId ++ (order.put 8 head.length ++ (head ++ rest))).drop 8 =
      order.put 8 head.length ++ (head ++ rest) := by rw [← hid, List.drop_left]
  have hdrop16 : (opusHeaderId ++ (order.put 8 head.length ++ (head ++ rest))).drop 16 =
      head ++ rest := by
    rw [show 16 = 8 + 8 from rfl, ← List.drop_drop, hdrop, List.drop_left' hput]
  have hget : order.get ((order.put 8 head.length ++ (head ++ rest)).take 8) = head.length := by
    rw [List.take_left' hput, get_put order (by omega)]
  rw [fixOpusConfigPacket, if_neg (by simp only [List.length_append]; omega),
    if_neg (by rw [← hid, List.take_left]; exact fun h ↦ h rfl)]
  simp only [hdrop, hdrop16, hget, Int.toNat_natCast]
  rw [if_neg (by omega), if_neg (by rw [List.length_append]; omega), List.take_left]

theorem fixFlacConfigPacket_eq {block : Bytes} (rest : Bytes)
    (hsize : block.length ≤ maxPayloadSize) :
    fixFlacConfigPacket (flacHeaderId ++ (bigEndian 4 block.length ++ (block ++ rest))) =
      .ok block := by
  have hmax : maxPayloadSize < 0x7FFFFFFF := by decide
  have hid : flacHeaderId.length = 4 := rfl
  have hput := length_bigEndian 4 block.length
  have hdrop : (flacHeaderId ++ (bigEndian 4 block.length ++ (block ++ rest))).drop 4 =
      bigEndian 4 block.length ++ (block ++ rest) := by rw [← hid, List.drop_left]
  have hdrop8 : (flacHeaderId ++ (bigEndian 4 block.length ++ (block ++ rest))).drop 8 =
      block ++ rest := by
    rw [show 8 = 4 + 4 from rfl, ← List.drop_drop, hdrop, List.drop_left' hput]
  have hget : ByteOrder.bigEndian.get ((bigEndian 4 block.length ++ (block ++ rest)).take 4) =
      block.length := by
    rw [List.take_left' hput]
    exact get_put .bigEndian (k := 4) (n := block.length) (by omega)
  rw [fixFlacConfigPacket, if_neg (by simp only [List.length_append]; omega),
    if_neg (by rw [← hid, List.take_left]; exact fun h ↦ h rfl)]
  simp only [hdrop, hdrop8, hget, Int.toNat_natCast]
  rw [if_neg (by rw [List.length_append]; omega), if_neg (by omega), List.take_left]

variable {s : WifiStreamer}

/-- The writer takes the payload out of a buffer. -/
theorem WifiStreamer.fixPacket_of_payload {buffer payload : Bytes} {config : Bool}
    (h : s.Payload buffer config payload) (hsize : payload.length ≤ maxPayloadSize) :
    s.fixPacket buffer config = .ok payload := by
  cases h with
  | @opus _ rest hs =>
    rw [fixPacket, if_pos rfl, hs]
    exact fixOpusConfigPacket_eq s.nativeOrder rest hsize
  | @flac _ rest hs =>
    rw [fixPacket, if_pos rfl, hs]
    exact fixFlacConfigPacket_eq rest hsize
  | plain hs =>
    rw [fixPacket]
    split
    · rename_i hc
      obtain ⟨ho, hf⟩ := hs hc
      split
      · rename_i h
        exact absurd h ho
      · rename_i h
        exact absurd h hf
      · rfl
    · rfl

/-! ### One call -/

/-- The packets that carry a content on a stream. -/
structure Carries (id : UInt32) (p : Packet) (c : Content) : Prop where
  /-- The stream. -/
  streamID : p.header.streamID = id
  /-- The content. -/
  content : p.content = c

theorem WifiStreamer.writePacket_whole (hs : s.sendFrameMeta = true) {buffer payload : Bytes}
    {pts : UInt64} {config : Bool} (keyFrame : Bool) (hpts : pts.toNat < 2 ^ 53)
    (hpayload : s.Payload buffer config payload) (hsize : payload.length ≤ maxPayloadSize) :
    ∃ bytes p, s.writePacket buffer pts config keyFrame = .ok bytes ∧ Whole bytes p ∧
      Carries s.streamId.getId p
        (.media (if config then 0 else pts) config (keyFrame && !config) payload) := by
  have hbit (k : ℕ) (hk : 53 ≤ k) := testBit_ptsAndFlags hpts config keyFrame hk
  refine ⟨_, _, ?_, whole_media s.streamId.getId (x := ptsAndFlags pts config keyFrame)
    ((hbit 63 (by decide)).trans (by simp)) hsize, rfl, ?_⟩
  · rw [writePacket, fixPacket_of_payload hpayload hsize]
    simp only [hs, if_true]
    rfl
  · have hsession : (ptsAndFlags pts config keyFrame &&& flagSession ≠ 0) = False := by
      rw [and_flag_ne_zero (k := 63) rfl, hbit 63 (by decide)]
      simp
    have hconfig : (ptsAndFlags pts config keyFrame &&& flagConfig ≠ 0) = (config = true) := by
      rw [and_flag_ne_zero (k := 62) rfl, hbit 62 (by decide)]
      simp
    have hkey : (ptsAndFlags pts config keyFrame &&& flagKeyFrame ≠ 0) =
        ((keyFrame && !config) = true) := by
      rw [and_flag_ne_zero (k := 61) rfl, hbit 61 (by decide)]
      simp
    simp only [Packet.content, Header.isSession, Header.isConfig, Header.isKeyFrame, Header.pts,
      hsession, hconfig, hkey, ptsAndFlags_pts hpts, decide_false, Bool.decide_eq_true,
      Bool.false_eq_true, if_false]

theorem WifiStreamer.writeHeader_whole (hm : s.sendStreamMeta = true)
    (hs : s.sendFrameMeta = true) : ∃ bytes p, s.writeHeader = .ok bytes ∧ Whole bytes p ∧
      Carries s.streamId.getId p (.media 0 false false (bigEndian 4 s.codec.getId.toNat)) := by
  rw [writeHeader, if_pos hm]
  exact writePacket_whole hs false (by decide) (.plain fun h ↦ absurd h Bool.false_ne_true)
    (by rw [length_bigEndian]; decide)

/-- **One call**: it puts one whole packet on the socket, which carries what it means. -/
theorem WifiStreamer.Sends.whole {call : Call} {c : Content} (h : s.Sends call c)
    (hm : s.sendStreamMeta = true) (hs : s.sendFrameMeta = true) :
    ∃ bytes p, s.write call = .ok bytes ∧ Whole bytes p ∧ Carries s.streamId.getId p c := by
  cases h with
  | videoHeader | audioHeader => exact writeHeader_whole hm hs
  | @sessionMeta width height isClientResize =>
    have hflags : (if isClientResize then (flagSession >>> 32).toUInt32 ||| 1
        else (flagSession >>> 32).toUInt32).toNat.testBit 31 = true := by
      cases isClientResize <;> decide
    have hwhole := whole_session s.streamId.getId _ width height hflags
    refine ⟨_, _, ?_, hwhole, rfl, ?_⟩
    · rw [write, writeSessionMeta, if_pos hm]
    · have hsession (resize : Bool) : (if resize then (flagSession >>> 32).toUInt32 ||| 1
          else (flagSession >>> 32).toUInt32).toUInt64 <<< 32 &&& flagSession ≠ 0 := by
        cases resize <;> decide
      exact if_pos (decide_eq_true (hsession isClientResize))
  | packet hpts hpayload hsize => exact writePacket_whole hs _ hpts hpayload hsize
  | codecPacket hpts hpayload hsize =>
    obtain ⟨bytes, p, hw, hp, hc⟩ := writePacket_whole hs _ hpts hpayload hsize
    refine ⟨bytes, p, hw, hp, ?_⟩
    simpa only [decide_eq_true_eq] using hc

/-! ### Any sequence of calls -/

/-- Calls that each put one packet on the socket. -/
theorem WifiStreamer.writeAll_whole (hm : s.sendStreamMeta = true) (hs : s.sendFrameMeta = true)
    {calls : List Call} {contents : List Content} (h : List.Forall₂ s.Sends calls contents) :
    ∃ bytes ps, s.writeAll calls = .ok bytes ∧ WholePackets bytes ps ∧
      List.Forall₂ (Carries s.streamId.getId) ps contents := by
  induction h with
  | nil => exact ⟨[], [], rfl, .nil, .nil⟩
  | @cons call c calls contents hc _ ih =>
    obtain ⟨bytes, p, hw, hp, hcar⟩ := hc.whole hm hs
    obtain ⟨rest, ps, hws, hps, hcars⟩ := ih
    refine ⟨bytes ++ rest, p :: ps, ?_, .cons hp hps, .cons hcar hcars⟩
    rw [writeAll, hw, hws]

theorem streamID_of_carries {id : UInt32} {ps : List Packet} {contents : List Content}
    (h : List.Forall₂ (Carries id) ps contents) : ∀ p ∈ ps, p.header.streamID = id := by
  induction h with
  | nil => exact fun p hp ↦ absurd hp List.not_mem_nil
  | cons hc _ ih => exact List.forall_mem_cons.2 ⟨hc.streamID, ih⟩

/-- **Media round trip.** However the bytes of a sequence of calls arrive, the handler of the stream
is called with the contents of the calls, in order, and `Run` returns nil at the end of the
stream. -/
theorem media_round_trip (s : WifiStreamer) (hm : s.sendStreamMeta = true)
    (hs : s.sendFrameMeta = true) {calls : List WifiStreamer.Call} {contents : List Content}
    (h : List.Forall₂ s.Sends calls contents) :
    ∃ bytes, s.writeAll calls = .ok bytes ∧
      ∀ (handlers : UInt32 → Bool) (r : Reader), handlers s.streamId.getId = true →
        r.flatten = bytes → ∃ ps, Demuxer.run handlers r = (ps, none) ∧
          List.Forall₂ (Carries s.streamId.getId) ps contents := by
  obtain ⟨bytes, ps, hw, hps, hcar⟩ := s.writeAll_whole hm hs h
  refine ⟨bytes, hw, fun handlers r hh hr ↦ ⟨ps, ?_, hcar⟩⟩
  rw [Demuxer.run_of_whole hps hr, List.filter_eq_self.2]
  intro p hp
  rw [streamID_of_carries hcar p hp, hh]

/-- The microphone in Opus. -/
def opusMic : WifiStreamer := ⟨.opus, .mic, true, true, .littleEndian⟩

theorem opusMic_payload : opusMic.Payload
    (opusHeaderId ++ (ByteOrder.littleEndian.put 8 2 ++ ([1, 2] ++ [3]))) true [1, 2] :=
  @WifiStreamer.Payload.opus opusMic [1, 2] [3] rfl

/-- The codec id, a config packet of two bytes and a packet of one byte. -/
theorem media_round_trip_opusMic :
    ∃ bytes, opusMic.writeAll [.audioHeader,
        .packet (opusHeaderId ++ (ByteOrder.littleEndian.put 8 2 ++ ([1, 2] ++ [3]))) 7 true true,
        .packet [4] 5 false true] = .ok bytes ∧
      ∀ (handlers : UInt32 → Bool) (r : Reader), handlers 3 = true → r.flatten = bytes →
        ∃ ps, Demuxer.run handlers r = (ps, none) ∧
          List.Forall₂ (Carries 3) ps [.media 0 false false [0x6f, 0x70, 0x75, 0x73],
            .media 0 true false [1, 2], .media 5 false true [4]] :=
  media_round_trip opusMic rfl rfl (.cons .audioHeader (.cons
    (.packet (by decide) opusMic_payload (by decide)) (.cons
      (.packet (by decide) (.plain fun h ↦ absurd h Bool.false_ne_true) (by decide)) .nil)))

/-- What the phone plays, in FLAC. -/
def flacSpeaker : WifiStreamer := ⟨.flac, .speaker, true, true, .littleEndian⟩

/-- The payload of a FLAC config packet is not the buffer that was written. -/
theorem flac_config_unwrapped :
    ∃ bytes, flacSpeaker.writeAll [.packet [102, 76, 97, 67, 0, 0, 0, 1, 9] 0 true false] =
        .ok bytes ∧
      (Demuxer.run (fun _ ↦ true) [bytes]).1.map Packet.payload = [[9]] ∧
        [[9]] ≠ [([102, 76, 97, 67, 0, 0, 0, 1, 9] : Bytes)] := by
  refine ⟨[0, 0, 0, 4, 0x40, 0, 0, 0, 0, 0, 0, 0, 0, 0, 0, 1, 9], ?_, ?_, ?_⟩ <;> decide

end AllRelay.Media
