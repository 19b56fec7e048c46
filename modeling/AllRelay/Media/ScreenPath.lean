import AllRelay.Hub.ReplayCache
import AllRelay.Media.AnnexB
import AllRelay.Media.Dispatch
import AllRelay.Media.RoundTrip
import AllRelay.Media.ScreenCapture
import AllRelay.Phone.SurfaceEncoder

/-!
# From the encoder to the hub

The whole way of a picture from the phone to the hub. The encoder announces the size of each of its
passes and then writes what its codec puts out; the server's demuxer reads packets from whatever
bytes have arrived, and the handler of `runScreenCapture` makes calls of the hub of them.

The capture of the screen starts over whenever the display changes, a write may fail in the middle
of a packet, and the bytes arrive in any chunks. What the hub is called with is always an initial
segment of what the passes come to, so a viewer never gets pictures of one pass under the size of
another.
-/

open ChunkedReader LabelledSystem Wire

namespace AllRelay.Video.State

variable {s t : State} {config : Config} {answer : Answer}

/-! ### Where a buffer comes from -/

theorem moves_encode {p q : Pc} (h : p.moves q = true) (hq : q.phase = .encode) :
    p.phase = .encode := by
  have hphase := (Bool.and_eq_true_iff.1 h).1
  rw [hq] at hphase
  revert hphase
  generalize p.phase = a
  intro hphase
  cases a <;> first | rfl | exact absurd hphase Bool.false_ne_true

/-- `encode` is entered behind `writeSessionMeta`. -/
theorem phase_advance (hstep : s.advance config answer = some t) (ht : t.pc.phase = .encode) :
    s.pc.phase = .encode ∨ s.pc = .writeMeta := by
  cases effect_advance hstep with
  | quiet _ hmoves | sendPart _ _ _ _ _ hmoves => exact .inl (moves_encode hmoves ht)
  | terminate _ _ hpc | consume _ _ _ hpc | prepare _ _ hpc | unprepared _ _ hpc
  | retry _ _ _ hpc | giveUp _ _ hpc =>
    rw [hpc] at ht
    cases ht
  | frame hpc =>
    rw [hpc]
    exact .inl rfl
  | send hcall _ _ _ hpc =>
    obtain hpc' | hpc' | ⟨codecBuffer, info, hpc'⟩ := nextCall_pc hcall
    · obtain ⟨-, hpc⟩ | ⟨hne, -⟩ := hpc
      · rw [hpc] at ht
        cases ht
      · exact absurd hpc' hne
    · exact .inr hpc'
    · rw [hpc']
      exact .inl rfl

theorem writeMeta_dequeue (hstep : s.advance config answer = some t) (hpc : s.pc = .writeMeta)
    (ht : t.pc.phase = .encode) : t.pc = .dequeue := by
  rw [advance, hpc] at hstep
  dsimp only at hstep
  rw [startPass.eq_def, hpc] at hstep
  split at hstep <;> rename_i hwhere <;> first | cases hwhere; done | skip
  · obtain ⟨u, -, rfl⟩ := Option.map_eq_some_iff.1 hstep
    rfl
  · obtain ⟨u, -, rfl⟩ := Option.map_eq_some_iff.1 hstep
    cases ht
  · cases hstep

theorem encode_buffer (hstep : s.encode config answer = some t) (data : Bytes)
    (info : Media.BufferInfo) :
    (t.pc = .getBuffer data info → ∃ index, answer = .output index data info) ∧
      (t.pc = .packet data info → s.pc = .getBuffer data info) := by
  rw [encode.eq_def] at hstep
  split at hstep <;> rename_i hpc
  · dsimp only at hstep
    split at hstep
    · obtain rfl := Option.some.inj hstep
      split <;> constructor <;> intro h
      iterate 2
        · obtain ⟨rfl, rfl⟩ := Pc.getBuffer.inj h
          exact ⟨_, rfl⟩
        · cases h
    · split at hstep <;> obtain rfl := Option.some.inj hstep
      · constructor <;> intro h <;> cases h
      · split
        · constructor <;> intro h <;> cases hpc.symm.trans h
        · constructor <;> intro h <;> cases h
  · obtain rfl := Option.some.inj hstep
    constructor <;> intro h <;> cases h
  · obtain rfl := Option.some.inj hstep
    constructor <;> intro h
    · cases h
    · obtain ⟨rfl, rfl⟩ := Pc.packet.inj h
      exact hpc
  · obtain rfl := Option.some.inj hstep
    constructor <;> intro h <;> cases h
  · obtain ⟨u, -, rfl⟩ := Option.map_eq_some_iff.1 hstep
    constructor <;> intro h <;> cases h
  · obtain ⟨u, -, rfl⟩ := Option.map_eq_some_iff.1 hstep
    constructor <;> intro h <;> cases h
  · dsimp only at hstep
    split at hstep <;> obtain rfl := Option.some.inj hstep
    · constructor <;> intro h <;> cases h
    · split <;> constructor <;> intro h <;> cases h
  · obtain rfl := Option.some.inj hstep
    constructor <;> intro h <;> cases h
  · cases hstep

/-- A buffer that is fetched has come out of the codec, and one that is written was fetched. -/
theorem advance_buffer (hstep : s.advance config answer = some t) (data : Bytes)
    (info : Media.BufferInfo) :
    (t.pc = .getBuffer data info → ∃ index, answer = .output index data info) ∧
      (t.pc = .packet data info → s.pc = .getBuffer data info) := by
  by_cases ht : t.pc.phase = .encode
  · obtain hs | hs := phase_advance hstep ht
    · have hencode : s.encode config answer = some t := by
        rw [advance.eq_def] at hstep
        split at hstep <;> first | exact hstep | (rename_i hpc; rw [hpc] at hs; cases hs)
      exact encode_buffer hencode data info
    · have hpc := writeMeta_dequeue hstep hs ht
      rw [hpc]
      constructor <;> intro h <;> cases h
  · constructor <;> intro hpc <;> exact absurd (by rw [hpc]; rfl) ht

end AllRelay.Video.State

namespace AllRelay.ScreenPath

open Hub (Op)
open Media (BufferInfo Content Packet WifiStreamer Whole WholePackets Carries maxPayloadSize
  bufferFlagCodecConfig bufferFlagKeyFrame)
open Media.WifiStreamer (Call)
open Video (Config Label Size State)

/-! ### Passes -/

/-- An output buffer of the codec. -/
structure Buffer where
  /-- The memory. -/
  data : Bytes
  /-- What it says about it. -/
  info : BufferInfo
deriving DecidableEq, Repr

namespace Buffer

variable (b : Buffer)

/-- The bytes of the buffer. -/
def payload : Bytes := (b.data.drop b.info.offset).take b.info.size

/-- It holds a codec config. -/
def isConfig : Bool := b.info.flags &&& bufferFlagCodecConfig ≠ 0

/-- It holds a key frame. -/
def isKeyFrame : Bool := b.info.flags &&& bufferFlagKeyFrame ≠ 0

/-- What it means. -/
def content : Content :=
  .media (if b.isConfig then 0 else b.info.presentationTimeUs) b.isConfig
    (b.isKeyFrame && !b.isConfig) b.payload

/-- Its time stamp leaves the flags alone, and the server takes its size. -/
structure Sane : Prop where
  /-- The time stamp. -/
  presentationTimeUs : b.info.presentationTimeUs.toNat < 2 ^ 53
  /-- The size. -/
  size : b.info.size ≤ maxPayloadSize

end Buffer

/-- What is written in a pass of the encoder. -/
structure Pass where
  /-- The size that was announced. -/
  size : Size
  /-- It was said to be due to a resize by the client. -/
  isClientResize : Bool
  /-- What the codec has put out. -/
  buffers : List Buffer
deriving DecidableEq, Repr

/-- The calls of the streamer in a pass. -/
def Pass.calls (p : Pass) : List Call :=
  .sessionMeta (.ofInt p.size.width) (.ofInt p.size.height) p.isClientResize ::
    p.buffers.map fun b ↦ .codecPacket b.data b.info

/-- What they mean. -/
def Pass.contents (p : Pass) : List Content :=
  .session (.ofInt p.size.width) (.ofInt p.size.height) :: p.buffers.map Buffer.content

/-- The calls of the streamer in passes. -/
def calls (passes : List Pass) : List Call :=
  .videoHeader :: passes.flatMap Pass.calls

/-- What they mean. -/
def contents (streamer : WifiStreamer) (passes : List Pass) : List Content :=
  .media 0 false false (bigEndian 4 streamer.codec.getId.toNat) :: passes.flatMap Pass.contents

/-- The buffers that the codec puts out are sane. -/
def Sane (l : Label) : Prop :=
  ∀ index data info, l = .thread (.output index data info) → Buffer.Sane ⟨data, info⟩

/-- A call of an encoder of video, with a buffer that is sane. -/
def SaneCall : Call → Prop
  | .videoHeader | .sessionMeta .. => True
  | .codecPacket data info => Buffer.Sane ⟨data, info⟩
  | .audioHeader | .packet .. => False

/-! ### What the encoder writes -/

/-- The bytes of the calls that have returned, and a part of those of a call that has failed. -/
def OnWire (streamer : WifiStreamer) (s : State) : Prop :=
  ∃ bytes part, streamer.writeAll s.written = .ok bytes ∧ s.wire = bytes ++ part ∧
    (part = [] ∨ s.broken = true ∧ ∃ call missing, SaneCall call ∧
      streamer.write call = .ok (part ++ missing) ∧ missing ≠ [])

/-- What has been written in a run. -/
structure Wrote (config : Config) (s : State) (passes : List Pass) : Prop where
  /-- The calls are those of the passes, or nothing was written. -/
  written : s.written = calls passes ∨ s.written = [] ∧ passes = []
  /-- Nothing is written before the loop. -/
  start : s.pc.phase = .start → s.written = []
  /-- The codec is written before the loop, or the loop is not entered. -/
  header : s.written = [] → s.pc.phase = .start ∨ s.pc.phase = .ending
  /-- In `encode`, the last size that was announced is that of the capture. -/
  encode : s.pc.phase = .encode → ∃ ps p, passes = ps ++ [p] ∧ p.size = s.size
  /-- The buffers that were written are sane. -/
  buffers : ∀ p ∈ passes, ∀ b ∈ p.buffers, b.Sane
  /-- The one that comes next is sane. -/
  next : ∀ data info, s.pc = .getBuffer data info ∨ s.pc = .packet data info →
    Buffer.Sane ⟨data, info⟩
  /-- What is on the socket. -/
  onWire : OnWire config.streamer s

theorem writeAll_concat (streamer : WifiStreamer) {calls : List Call} {call : Call}
    {bytes rest : Bytes} (h : streamer.writeAll calls = .ok bytes)
    (hcall : streamer.write call = .ok rest) :
    streamer.writeAll (calls ++ [call]) = .ok (bytes ++ rest) := by
  induction calls generalizing bytes with
  | nil =>
    obtain rfl : [] = bytes := Except.ok.inj h
    rw [List.nil_append, WifiStreamer.writeAll, hcall, WifiStreamer.writeAll]
    show Except.ok (rest ++ []) = Except.ok rest
    rw [List.append_nil]
  | cons first calls ih =>
    rw [WifiStreamer.writeAll] at h
    split at h <;> rename_i hfirst hcalls
    · obtain rfl := Except.ok.inj h
      rw [List.cons_append, WifiStreamer.writeAll, hfirst, ih hcalls, List.append_assoc]
    · cases h
    · cases h

variable {s t : State} {config : Config} {passes : List Pass} {answer : Video.Answer}

theorem OnWire.of_same {streamer : WifiStreamer} (h : OnWire streamer s)
    (hwritten : t.written = s.written) (hwire : t.wire = s.wire) (hbroken : t.broken = s.broken) :
    OnWire streamer t := by
  rw [OnWire, hwritten, hwire, hbroken]
  exact h

theorem OnWire.send {streamer : WifiStreamer} (h : OnWire streamer s) {call : Call} {bytes : Bytes}
    (hbytes : streamer.write call = .ok bytes) (hbroken : s.broken = true → bytes = [])
    (hwritten : t.written = s.written ++ [call]) (hwire : t.wire = s.wire ++ bytes)
    (hbroken' : t.broken = s.broken) : OnWire streamer t := by
  obtain ⟨done, part, hdone, hpart, hcut⟩ := h
  rw [OnWire, hwritten, hwire, hbroken', hpart]
  have hall := writeAll_concat streamer hdone hbytes
  obtain rfl | ⟨hb, hcut⟩ := hcut
  · exact ⟨_, [], hall, by rw [List.append_nil, List.append_nil], .inl rfl⟩
  · -- Only a call that writes nothing returns.
    rw [hbroken hb, List.append_nil] at hall
    exact ⟨done, part, hall, by rw [hbroken hb, List.append_nil], .inr ⟨hb, hcut⟩⟩

theorem OnWire.sendPart {streamer : WifiStreamer} (h : OnWire streamer s) {call : Call}
    {bytes : Bytes} {sent : ℕ} (hsane : SaneCall call) (hbytes : streamer.write call = .ok bytes)
    (hbroken : s.broken = false) (hsent : sent < bytes.length) (hwritten : t.written = s.written)
    (hwire : t.wire = s.wire ++ bytes.take sent) (hbroken' : t.broken = true) :
    OnWire streamer t := by
  obtain ⟨done, part, hdone, hpart, hcut⟩ := h
  obtain rfl | ⟨hb, -⟩ := hcut
  · rw [OnWire, hwritten, hwire, hbroken', hpart, List.append_nil]
    refine ⟨done, bytes.take sent, hdone, rfl, .inr ⟨rfl, call, bytes.drop sent, hsane, ?_, ?_⟩⟩
    · rw [List.take_append_drop]
      exact hbytes
    · exact fun h ↦ absurd (List.drop_eq_nil_iff.1 h) (Nat.not_le.2 hsent)
  · exact absurd (hbroken.symm.trans hb) Bool.false_ne_true

/-- Nothing is written. -/
theorem Wrote.of_same (hs : Wrote config s passes) (hwritten : t.view.written = s.view.written)
    (hwire : t.view.wire = s.view.wire) (hbroken : t.view.broken = s.view.broken)
    (hsize : t.pc.phase = .encode → t.view.size = s.view.size)
    (hstart : t.pc.phase = .start → s.pc.phase = .start)
    (hloop : s.pc.phase = .start ∨ s.pc.phase = .ending →
      t.pc.phase = .start ∨ t.pc.phase = .ending)
    (hencode : t.pc.phase = .encode → s.pc.phase = .encode)
    (hnext : ∀ data info, t.pc = .getBuffer data info ∨ t.pc = .packet data info →
      Buffer.Sane ⟨data, info⟩) : Wrote config t passes := by
  replace hwritten : t.written = s.written := hwritten
  refine ⟨by rw [hwritten]; exact hs.written, fun h ↦ ?_, fun h ↦ ?_, fun h ↦ ?_, hs.buffers, hnext,
    hs.onWire.of_same hwritten hwire hbroken⟩
  · rw [hwritten]
    exact hs.start (hstart h)
  · exact hloop (hs.header (hwritten ▸ h))
  · rw [show t.size = s.size from hsize h]
    exact hs.encode (hencode h)

theorem moves_loop {p q : Video.Pc} (h : p.moves q = true) :
    (q.phase = .start → p.phase = .start) ∧
      (p.phase = .start ∨ p.phase = .ending → q.phase = .start ∨ q.phase = .ending) := by
  have hphase := (Bool.and_eq_true_iff.1 h).1
  revert hphase
  generalize p.phase = a
  generalize q.phase = b
  intro hphase
  cases a <;> cases b <;> first | exact absurd hphase Bool.false_ne_true | simp

/-- The buffer that comes next is sane. -/
theorem Wrote.next_advance (hs : Wrote config s passes) (hsane : Sane (.thread answer))
    (hstep : s.advance config answer = some t) (data : Bytes) (info : BufferInfo)
    (ht : t.pc = .getBuffer data info ∨ t.pc = .packet data info) : Buffer.Sane ⟨data, info⟩ := by
  obtain ⟨hget, hpacket⟩ := Video.State.advance_buffer hstep data info
  obtain ht | ht := ht
  · obtain ⟨index, rfl⟩ := hget ht
    exact hsane index data info rfl
  · exact hs.next data info (.inl (hpacket ht))

/-- A call that returns begins the passes, begins a pass, or goes on with it. -/
theorem Wrote.send (hs : Wrote config s passes) {call : Call} {bytes : Bytes}
    (hcall : s.nextCall = some call) (hbytes : config.streamer.write call = .ok bytes)
    (hbroken : s.broken = true → bytes = [])
    (hview : t.view = { s.view with wire := s.wire ++ bytes, written := s.written ++ [call] })
    (ht : s.pc = .header ∧ t.pc = .consume ∨ s.pc ≠ .header ∧ t.pc.phase = .encode)
    (hnext : ∀ data info, t.pc = .getBuffer data info ∨ t.pc = .packet data info →
      Buffer.Sane ⟨data, info⟩) : ∃ passes', Wrote config t passes' := by
  have hwritten : t.written = s.written ++ [call] := congrArg Video.View.written hview
  have hsize : t.size = s.size := congrArg Video.View.size hview
  have honWire : OnWire config.streamer t :=
    hs.onWire.send hbytes hbroken hwritten (congrArg Video.View.wire hview)
      (congrArg Video.View.broken hview)
  have hne : t.written ≠ [] := by
    rw [hwritten]
    exact List.append_ne_nil_of_right_ne_nil _ (List.cons_ne_nil _ _)
  obtain ⟨hpc, htpc⟩ | ⟨hpc, hencode⟩ := ht
  · have hnil : s.written = [] := hs.start (by rw [hpc]; rfl)
    rw [Video.State.nextCall, hpc] at hcall
    obtain rfl := Option.some.inj hcall
    refine ⟨[], .inl (by rw [hwritten, hnil]; rfl), fun h ↦ ?_, fun h ↦ absurd h hne, fun h ↦ ?_,
      (fun p hp ↦ absurd hp List.not_mem_nil), hnext, honWire⟩ <;> rw [htpc] at h <;> cases h
  -- The loop was entered.
  have hcalls (hphase : s.pc.phase = .pass ∨ s.pc.phase = .encode) :
      s.written = calls passes := by
    refine hs.written.resolve_right fun h ↦ ?_
    obtain hstart | hending := hs.header h.1 <;> obtain hphase | hphase := hphase <;>
      simp only [hphase, reduceCtorEq] at *
  have hwrote {passes' : List Pass} (hc : t.written = calls passes')
      (hlast : ∃ ps p, passes' = ps ++ [p] ∧ p.size = s.size)
      (hbuffers : ∀ p ∈ passes', ∀ b ∈ p.buffers, b.Sane) : Wrote config t passes' :=
    ⟨.inl hc, fun h ↦ absurd (hencode.symm.trans h) (by decide), fun h ↦ absurd h hne,
      fun _ ↦ hsize ▸ hlast, hbuffers, hnext, honWire⟩
  obtain hpc' | hpc' | ⟨data, info, hpc'⟩ := Video.State.nextCall_pc hcall
  · exact absurd hpc' hpc
  · rw [Video.State.nextCall, hpc'] at hcall
    obtain rfl := Option.some.inj hcall
    obtain ⟨resize, hresize⟩ : ∃ resize, s.sessionMeta =
      .sessionMeta (.ofInt s.size.width) (.ofInt s.size.height) resize := ⟨_, rfl⟩
    refine ⟨passes ++ [⟨s.size, resize, []⟩], hwrote ?_ ⟨_, _, rfl, rfl⟩ ?_⟩
    · rw [hwritten, hcalls (.inl (by rw [hpc']; rfl)), hresize, calls, calls, List.flatMap_append,
        List.cons_append]
      rfl
    · intro p hp b hb
      obtain hp | hp := List.mem_append.1 hp
      · exact hs.buffers p hp b hb
      · rw [List.mem_singleton.1 hp] at hb
        exact absurd hb List.not_mem_nil
  · rw [Video.State.nextCall, hpc'] at hcall
    obtain rfl := Option.some.inj hcall
    obtain ⟨ps, p, rfl, hp⟩ := hs.encode (by rw [hpc']; rfl)
    refine ⟨ps ++ [{ p with buffers := p.buffers ++ [⟨data, info⟩] }],
      hwrote ?_ ⟨_, _, rfl, hp⟩ ?_⟩
    · rw [hwritten, hcalls (.inr (by rw [hpc']; rfl)), calls, calls, List.flatMap_append,
        List.flatMap_append, List.flatMap_singleton, List.flatMap_singleton, List.cons_append,
        List.append_assoc, Pass.calls, Pass.calls, List.map_append, List.cons_append]
      rfl
    · intro q hq b hb
      obtain hq | hq := List.mem_append.1 hq
      · exact hs.buffers q (List.mem_append_left _ hq) b hb
      · rw [List.mem_singleton.1 hq] at hb
        obtain hb | hb := List.mem_append.1 hb
        · exact hs.buffers p (List.mem_append_right _ (List.mem_singleton_self p)) b hb
        · rw [List.mem_singleton.1 hb]
          exact hs.next data info (.inr hpc')

theorem Wrote.advance (hs : Wrote config s passes) (hsane : Sane (.thread answer))
    (hstep : s.advance config answer = some t) : ∃ passes', Wrote config t passes' := by
  have hnext := hs.next_advance hsane hstep
  -- Only the two last effects write.
  have hsame {v : Video.View} {p q : Video.Pc} (hs' : s.pc = p) (ht : t.pc = q)
      (hview : t.view = v) (hwritten : v.written = s.view.written)
      (hwire : v.wire = s.view.wire) (hbroken : v.broken = s.view.broken)
      (hp : p.phase ≠ .start ∧ p.phase ≠ .ending) (hq : q.phase ≠ .start)
      (hencode : q.phase = .encode → p.phase = .encode ∧ v.size = s.view.size) :
      ∃ passes', Wrote config t passes' := by
    subst hs' ht hview
    exact ⟨passes, hs.of_same hwritten hwire hbroken (fun h ↦ (hencode h).2) (fun h ↦ absurd h hq)
      (fun h ↦ absurd h (by simp [hp])) (fun h ↦ (hencode h).1) hnext⟩
  have hprepareRetry : ∃ constraints errors, (s.prepareRetry config).1 = { s with
      constraints, consecutiveErrors := errors } := Video.State.prepareRetry_eq s config
  cases Video.State.effect_advance hstep with
  | quiet hview hmoves =>
    refine ⟨passes, hs.of_same ?_ ?_ ?_ (fun _ ↦ ?_) (moves_loop hmoves).1 (moves_loop hmoves).2
      (Video.State.moves_encode hmoves) hnext⟩ <;> rw [hview]
  | terminate hpc hview ht | consume hpc _ hview ht | prepare hpc hview ht
  | unprepared hpc hview ht =>
    exact hsame hpc ht hview rfl rfl rfl (by decide) (by decide)
      (fun h ↦ absurd h (by decide))
  | frame hpc hview ht =>
    obtain ⟨data, info, ht⟩ := ht
    exact hsame hpc ht hview rfl rfl rfl (by decide) Video.Phase.noConfusion
      (fun _ ↦ ⟨rfl, rfl⟩)
  | retry hpc _ hview ht =>
    obtain ⟨constraints, errors, heq⟩ := hprepareRetry
    rw [heq] at hview
    exact hsame hpc ht hview rfl rfl rfl ⟨Video.Phase.noConfusion, Video.Phase.noConfusion⟩
      (by decide) (fun h ↦ absurd h (by decide))
  | giveUp hpc hview ht =>
    obtain ⟨constraints, errors, heq⟩ := hprepareRetry
    rw [heq] at hview
    obtain hview | ⟨-, hview⟩ := hview <;>
      exact hsame hpc ht hview rfl rfl rfl ⟨Video.Phase.noConfusion, Video.Phase.noConfusion⟩
        (by decide) (fun h ↦ absurd h (by decide))
  | send hcall hbytes hbroken hview ht => exact hs.send hcall hbytes hbroken hview ht hnext
  | @sendPart _ _ call bytes sent hcall hbytes hbroken hsent hview hmoves =>
    have hsane' : SaneCall call := by
      obtain hpc | hpc | ⟨data, info, hpc⟩ := Video.State.nextCall_pc hcall <;>
        rw [Video.State.nextCall, hpc] at hcall <;> obtain rfl := Option.some.inj hcall
      · trivial
      · trivial
      · exact hs.next data info (.inr hpc)
    have hwritten : t.written = s.written := congrArg Video.View.written hview
    refine ⟨passes, by rw [hwritten]; exact hs.written, fun h ↦ ?_, fun h ↦ ?_, fun h ↦ ?_,
      hs.buffers, hnext, hs.onWire.sendPart hsane' hbytes hbroken hsent hwritten
        (congrArg Video.View.wire hview) (congrArg Video.View.broken hview)⟩
    · rw [hwritten]
      exact hs.start ((moves_loop hmoves).1 h)
    · exact (moves_loop hmoves).2 (hs.header (hwritten ▸ h))
    · rw [show t.size = s.size from congrArg Video.View.size hview]
      exact hs.encode (Video.State.moves_encode hmoves h)

theorem Wrote.step (hs : ∃ passes, Wrote config s passes) {l : Label} (hsane : Sane l)
    (hstep : s.step config l = some t) : ∃ passes, Wrote config t passes := by
  obtain ⟨passes, hs⟩ := hs
  cases l with
  | reset reason =>
    obtain rfl := Option.some.inj hstep
    have hsame (u : State) (hu : u = s.reset reason) : Wrote config u passes := by
      have hpc : u.pc = s.pc := hu ▸ Video.State.reset_pc s reason
      have hview : u.written = s.written ∧ u.wire = s.wire ∧ u.broken = s.broken ∧
          u.size = s.size := by
        rw [hu, Video.State.reset]
        split <;> exact ⟨rfl, rfl, rfl, rfl⟩
      refine hs.of_same hview.1 hview.2.1 hview.2.2.1 (fun _ ↦ hview.2.2.2) ?_ ?_ ?_ ?_ <;>
        rw [hpc]
      · exact id
      · exact id
      · exact id
      · exact hs.next
    exact ⟨passes, hsame _ rfl⟩
  | setStopped =>
    obtain rfl := Option.some.inj hstep
    exact ⟨passes, hs.of_same rfl rfl rfl (fun _ ↦ rfl) id id id hs.next⟩
  | thread answer => exact hs.advance hsane hstep

/-- **A run of the encoder** writes passes. -/
theorem wrote_exec {labels : List Label}
    (h : exec (Video.State.step config) (Video.State.start config) labels = some s)
    (hsane : ∀ l ∈ labels, Sane l) : ∃ passes, Wrote config s passes := by
  refine exec_invariant_along (P := fun u ↦ ∃ passes, Wrote config u passes)
    (C := fun _ l ↦ Sane l) (fun _ _ _ hl hu hstep ↦ Wrote.step hu hl hstep)
    (along_of_forall_mem hsane) ⟨[], .inr ⟨rfl, rfl⟩, fun _ ↦ rfl, fun _ ↦ .inl rfl,
      ?_, (fun p hp ↦ absurd hp List.not_mem_nil), ?_, ?_⟩ h
  · intro hphase
    cases hphase
  · intro data info hpc
    obtain hpc | hpc := hpc <;> cases hpc
  · exact ⟨[], [], rfl, rfl, .inl rfl⟩

/-! ### What is on the socket -/

/-- The streamer of the screen. -/
structure Streams (streamer : WifiStreamer) : Prop where
  /-- `sendStreamMeta`. -/
  sendStreamMeta : streamer.sendStreamMeta = true
  /-- `sendFrameMeta`. -/
  sendFrameMeta : streamer.sendFrameMeta = true
  /-- The stream. -/
  streamId : streamer.streamId = .screen
  /-- A codec of video. -/
  codec : streamer.codec = .h264 ∨ streamer.codec = .h265 ∨ streamer.codec = .av1

variable {streamer : WifiStreamer}

/-- A buffer is written as it is. -/
theorem Streams.sends_buffer (hstreamer : Streams streamer) {b : Buffer} (hb : b.Sane) :
    streamer.Sends (.codecPacket b.data b.info) b.content := by
  have hlength : b.payload.length ≤ maxPayloadSize := by
    rw [Buffer.payload, List.length_take]
    exact (min_le_left _ _).trans hb.size
  have hplain : streamer.Payload b.payload (b.info.flags &&& bufferFlagCodecConfig ≠ 0)
      b.payload := by
    refine .plain fun _ ↦ ?_
    obtain h | h | h := hstreamer.codec <;> rw [h] <;> decide
  simpa only [Buffer.content, Buffer.isConfig, Buffer.isKeyFrame, decide_eq_true_eq] using
    WifiStreamer.Sends.codecPacket hb.presentationTimeUs hplain hlength

theorem Streams.sends (hstreamer : Streams streamer)
    (hbuffers : ∀ p ∈ passes, ∀ b ∈ p.buffers, b.Sane) :
    List.Forall₂ streamer.Sends (calls passes) (contents streamer passes) := by
  refine .cons .videoHeader ?_
  induction passes with
  | nil => exact .nil
  | cons p passes ih =>
    rw [List.flatMap_cons, List.flatMap_cons]
    refine List.rel_append (.cons .sessionMeta ?_)
      (ih fun q hq ↦ hbuffers q (List.mem_cons_of_mem _ hq))
    rw [List.forall₂_map_left_iff, List.forall₂_map_right_iff, List.forall₂_same]
    exact fun b hb ↦ hstreamer.sends_buffer (hbuffers p List.mem_cons_self b hb)

/-- A call is a whole packet. -/
theorem Streams.whole (hstreamer : Streams streamer) {call : Call} (hcall : SaneCall call)
    {bytes : Bytes} (hbytes : streamer.write call = .ok bytes) : ∃ p, Whole bytes p := by
  have hwhole {c : Content} (hc : streamer.Sends call c) : ∃ p, Whole bytes p := by
    obtain ⟨bytes', p, hw, hp, -⟩ := hc.whole hstreamer.sendStreamMeta hstreamer.sendFrameMeta
    obtain rfl := Except.ok.inj (hbytes.symm.trans hw)
    exact ⟨p, hp⟩
  cases call with
  | videoHeader => exact hwhole .videoHeader
  | sessionMeta => exact hwhole .sessionMeta
  | codecPacket data info => exact hwhole (hstreamer.sends_buffer hcall)
  | audioHeader | packet => exact hcall.elim

/-- The packets on a socket. -/
theorem OnWire.packets (h : OnWire streamer s) (hstreamer : Streams streamer)
    (hwritten : s.written = calls passes ∨ s.written = [] ∧ passes = [])
    (hbuffers : ∀ p ∈ passes, ∀ b ∈ p.buffers, b.Sane) :
    ∃ bytes part ps, s.wire = bytes ++ part ∧ WholePackets bytes ps ∧
      (part = [] ∨ ∃ missing p, Whole (part ++ missing) p ∧ missing ≠ []) ∧
      (List.Forall₂ (Carries 1) ps (contents streamer passes) ∨ ps = [] ∧ passes = []) := by
  obtain ⟨bytes, part, hbytes, hwire, hcut⟩ := h
  have hcut' : part = [] ∨ ∃ missing p, Whole (part ++ missing) p ∧ missing ≠ [] := by
    refine hcut.imp_right fun h ↦ ?_
    obtain ⟨-, call, missing, hcall, hmissing, hne⟩ := h
    obtain ⟨p, hp⟩ := hstreamer.whole hcall hmissing
    exact ⟨missing, p, hp, hne⟩
  obtain hcalls | ⟨hnil, hpasses⟩ := hwritten
  · obtain ⟨bytes', ps, hw, hps, hcarries⟩ := streamer.writeAll_whole hstreamer.sendStreamMeta
      hstreamer.sendFrameMeta (hstreamer.sends hbuffers)
    rw [hcalls] at hbytes
    obtain rfl := Except.ok.inj (hbytes.symm.trans hw)
    rw [hstreamer.streamId] at hcarries
    exact ⟨bytes, part, ps, hwire, hps, hcut', .inl hcarries⟩
  · rw [hnil] at hbytes
    obtain rfl : [] = bytes := Except.ok.inj hbytes
    exact ⟨[], part, [], hwire, .nil, hcut', .inr ⟨rfl, hpasses⟩⟩

/-! ### What the demuxer reads -/

/-- A stream that ends in the middle of a packet. -/
theorem prefix_of_cut {bytes bytes' part : Bytes} {ps ps' : List Packet}
    (h : WholePackets bytes ps) (h' : WholePackets bytes' ps') (hinit : bytes' <+: bytes ++ part)
    (hcut : part = [] ∨ ∃ missing p, Whole (part ++ missing) p ∧ missing ≠ []) : ps' <+: ps := by
  induction h generalizing bytes' ps' with
  | nil =>
    cases h' with
    | nil => exact List.nil_prefix
    | @cons first rest q qs hfirst _ =>
      have hpart : first <+: part := (List.prefix_append _ _).trans hinit
      exfalso
      obtain rfl | ⟨missing, p, hp, hne⟩ := hcut
      · have hlength := hfirst.length
        rw [List.prefix_nil.1 hpart, List.length_nil, Media.headerSize] at hlength
        omega
      · -- The packet that was cut would be whole.
        obtain ⟨heq, -⟩ := hfirst.unique hp (hpart.trans (List.prefix_append _ _)) List.prefix_rfl
        rw [heq] at hpart
        have hlength := hpart.length_le
        rw [List.length_append] at hlength
        exact hne (List.length_eq_zero_iff.1 (by omega))
  | @cons first rest p ps hfirst _ ih =>
    cases h' with
    | nil => exact List.nil_prefix
    | @cons first' rest' q qs hfirst' hrest' =>
      rw [List.append_assoc] at hinit
      obtain ⟨rfl, rfl⟩ := hfirst'.unique hfirst ((List.prefix_append _ _).trans hinit)
        (List.prefix_append _ _)
      rw [List.prefix_append_right_inj] at hinit
      exact List.cons_prefix_cons.2 ⟨rfl, ih hrest' hinit⟩

theorem foldl_record (ps acc : List Packet) :
    ps.foldl (Media.Demuxer.dispatch (Media.Demuxer.record fun _ ↦ true)) acc = acc ++ ps := by
  induction ps generalizing acc with
  | nil => rw [List.foldl_nil, List.append_nil]
  | cons p ps ih =>
    rw [List.foldl_cons, ih, Media.Demuxer.dispatch, Media.Demuxer.record, if_pos rfl]
    show acc ++ [p] ++ ps = acc ++ p :: ps
    rw [List.append_assoc, List.singleton_append]

/-- **What the demuxer reads** of a stream is an initial segment of the packets, and all of them
once the stream is there. -/
theorem run_of_cut {bytes part : Bytes} {ps : List Packet} (h : WholePackets bytes ps)
    (hcut : part = [] ∨ ∃ missing p, Whole (part ++ missing) p ∧ missing ≠ []) {r : Reader}
    (hr : r.flatten <+: bytes ++ part) :
    (Media.Demuxer.run (fun _ ↦ true) r).1 <+: ps ∧
      (r.flatten = bytes ++ part → (Media.Demuxer.run (fun _ ↦ true) r).1 = ps) := by
  have hrun : (Media.Demuxer.run (fun _ ↦ true) r).1 =
      (Media.Demuxer.dispatchRun (Media.Demuxer.record fun _ ↦ true) r []).1 := by
    rw [Media.Demuxer.dispatchRun_record]
  obtain ⟨bytes', rest, ps', hflatten, hps', hmax, hread⟩ :=
    Media.Demuxer.dispatchRounds_delivers (Media.Demuxer.record fun _ ↦ true)
      (Nat.lt_succ_self r.flatten.length) []
  have hps : (Media.Demuxer.run (fun _ ↦ true) r).1 = ps' := by
    rw [hrun, Media.Demuxer.dispatchRun, hread, foldl_record, List.nil_append]
  rw [hps]
  have hinit : ps' <+: ps :=
    prefix_of_cut h hps' ((hflatten ▸ List.prefix_append _ _).trans hr) hcut
  exact ⟨hinit, fun heq ↦ hinit.eq_of_length_le
    (hmax bytes ps h (heq ▸ List.prefix_append _ _)).length_le⟩

/-! ### The handler -/

/-- The flags in front of a picture. -/
def flags (isConfig isKeyFrame : Bool) : UInt8 :=
  (if isConfig then (1 : UInt8) <<< 0 else 0) ||| (if isKeyFrame then (1 : UInt8) <<< 1 else 0)

/-- The handler of `runScreenCapture`: the call that it makes of the hub. -/
def handle (generation : ℕ) (p : Packet) : Option Op :=
  if p.payload.length = 0 then
    if 0 < p.header.sessionWidth ∧ 0 < p.header.sessionHeight then
      some (.setSession generation ⟨p.header.sessionWidth, p.header.sessionHeight⟩)
    else none
  -- Anything but Annex B is dropped.
  else if Video.isAnnexB p.payload ≠ some true then none
  else some (.frame generation (flags p.header.isConfig p.header.isKeyFrame :: p.payload))

/-- What it makes of what a packet says. -/
def announce (generation : ℕ) : Content → Option Op
  | .session width height =>
    if 0 < width ∧ 0 < height then some (.setSession generation ⟨width, height⟩) else none
  | .media _ config keyFrame payload =>
    if Video.isAnnexB payload ≠ some true then none
    else some (.frame generation (flags config keyFrame :: payload))

/-- What a pass comes to. -/
def Pass.ops (generation : ℕ) (p : Pass) : List Op :=
  p.contents.filterMap (announce generation)

theorem value_append (b c : Bytes) : value (b ++ c) = value b * 256 ^ c.length + value c := by
  rw [value, List.foldl_append, foldl_value]
  rfl

/-- Bit 31 of the second word tells the two layouts apart. -/
theorem isSession_media {b c : Bytes} (hb : b.length = 4) (hc : c.length = 4) :
    UInt64.ofNat (value (b ++ c)) &&& Media.flagSession ≠ 0 ↔
      (UInt32.ofNat (value b)).toNat.testBit 31 = true := by
  have hb' := value_lt b
  have hc' := value_lt c
  rw [hb] at hb'
  rw [hc] at hc'
  have hvalue := value_append b c
  rw [hc] at hvalue
  have hsum : (UInt64.ofNat (value (b ++ c))).toNat = value (b ++ c) :=
    UInt64.toNat_ofNat_of_lt' (show value (b ++ c) < 2 ^ 64 by omega)
  have hupper : (UInt32.ofNat (value b)).toNat = value (b ++ c) / 2 ^ 32 := by
    rw [UInt32.toNat_ofNat_of_lt' (show value b < 2 ^ 32 by omega)]
    omega
  rw [Media.and_flag_ne_zero (k := 63) rfl, hsum, hupper, Nat.testBit_div_two_pow]

theorem isSession_session (b : UInt32) (h : b.toNat.testBit 31 = true) :
    b.toUInt64 <<< 32 &&& Media.flagSession ≠ 0 := by
  rw [Media.and_flag_ne_zero (k := 63) rfl, UInt64.toNat_shiftLeft, UInt32.toNat_toUInt64]
  show (b.toNat <<< 32 % 2 ^ 64).testBit 63 = true
  rw [Nat.testBit_mod_two_pow, Nat.testBit_shiftLeft, h]
  rfl

/-- A header of a session says so, and announces no payload; any other announces no size. -/
theorem isSession_ofBytes {bytes : Bytes} (hlength : bytes.length = Media.headerSize) :
    (Media.Header.ofBytes bytes).isSession = true ∧ (Media.Header.ofBytes bytes).payloadSize = 0 ∨
      (Media.Header.ofBytes bytes).isSession = false ∧
        (Media.Header.ofBytes bytes).sessionWidth = 0 := by
  rw [Media.headerSize] at hlength
  have hsplit : bytes = bytes.take 4 ++ ((bytes.drop 4).take 4 ++
      ((bytes.drop 8).take 4 ++ bytes.drop 12)) := by
    have h4 := List.take_append_drop 4 (bytes.drop 4)
    have h8 := List.take_append_drop 4 (bytes.drop 8)
    rw [List.drop_drop] at h4 h8
    rw [h8, h4, List.take_append_drop]
  have hb : ((bytes.drop 4).take 4).length = 4 := by simp [hlength]
  have hc : ((bytes.drop 8).take 4).length = 4 := by simp [hlength]
  rw [hsplit, Media.Header.ofBytes_append (by simp [hlength]) hb hc (by simp [hlength])]
  split
  · rename_i hbit
    exact .inl ⟨decide_eq_true (isSession_session _ hbit), rfl⟩
  · rename_i hbit
    exact .inr ⟨decide_eq_false (hbit ∘ (isSession_media hb hc).1), rfl⟩

theorem handle_eq_announce {bytes : Bytes} {p : Packet} (h : Whole bytes p) (generation : ℕ) :
    handle generation p = announce generation p.content := by
  have hheader := h.header
  have hlength : (bytes.take Media.headerSize).length = Media.headerSize := by
    rw [List.length_take, h.length]
    omega
  obtain ⟨hsession, hsize⟩ | ⟨hsession, hwidth⟩ := isSession_ofBytes hlength
  · rw [← hheader] at hsession hsize
    have hnil : p.payload.length = 0 := by
      rw [h.payload, List.length_drop, h.length, hsize]
      rfl
    rw [handle, if_pos hnil, Packet.content, if_pos hsession, announce]
  · rw [← hheader] at hsession hwidth
    rw [handle, Packet.content, if_neg (ne_true_of_eq_false hsession), announce]
    split
    · rename_i hnil
      have hempty : p.payload = [] := List.length_eq_zero_iff.1 hnil
      rw [if_neg fun hpos ↦ absurd hpos.1 (by rw [hwidth]; decide), hempty,
        if_pos (by decide)]
    · rfl

/-! ### The capture on the server -/

section Capture

open Media.ScreenCapture (Event Lossless Loop Main Read Registered)

variable {stream : Reader} {u v : Media.ScreenCapture.State} {e : Event}

/-- What is known about the cancellation. -/
structure Early (u : Media.ScreenCapture.State) : Prop where
  /-- What was read before it came first. -/
  read : u.read.filter Read.early <+: u.read
  /-- It has not come, and all was read before it. -/
  cancelled : u.cancelled = false → ∀ r ∈ u.read, r.early = true

theorem Early.of_same (h : Early u) (hread : v.read = u.read)
    (hcancelled : v.cancelled = false → u.cancelled = false) : Early v := by
  constructor
  · rw [hread]
    exact h.read
  · rw [hread]
    exact fun hv ↦ h.cancelled (hcancelled hv)

/-- One more packet is read. -/
theorem Early.concat (h : Early u) {p : Packet} (hread : v.read = u.read ++ [⟨p, !u.cancelled⟩])
    (hcancelled : v.cancelled = u.cancelled) : Early v := by
  constructor
  · rw [hread, List.filter_append]
    cases hu : u.cancelled with
    | true =>
      rw [List.filter_cons_of_neg (by simp), List.filter_nil, List.append_nil]
      exact h.read.trans (List.prefix_append _ _)
    | false =>
      rw [List.filter_eq_self.2 (h.cancelled hu), List.filter_cons_of_pos (by simp)]
      exact List.prefix_rfl
  · rw [hread, hcancelled]
    intro hu r hr
    obtain hr | hr := List.mem_append.1 hr
    · exact h.cancelled hu r hr
    · rw [List.mem_singleton.1 hr, hu]
      rfl

theorem Early.step (h : Early u) (hstep : Media.ScreenCapture.step u e = some v) : Early v := by
  cases e with
  | main =>
    rw [Media.ScreenCapture.step, Media.ScreenCapture.State.mainStep] at hstep
    split at hstep
    any_goals
      obtain rfl := Option.some.inj hstep
      exact h.of_same rfl id
    · split at hstep
      · obtain rfl := Option.some.inj hstep
        exact h.of_same rfl id
      · obtain rfl := Option.some.inj hstep
        exact h.of_same rfl id
      · cases hstep
    · cases hstep
  | demuxer =>
    rw [Media.ScreenCapture.step, Media.ScreenCapture.State.demuxerStep] at hstep
    split at hstep
    · cases hstep
    · obtain rfl := Option.some.inj hstep
      exact h.of_same rfl id
    · split at hstep <;> obtain rfl := Option.some.inj hstep
      · exact h.concat rfl rfl
      · exact h.of_same rfl id
    · obtain rfl := Option.some.inj hstep
      exact h.of_same rfl id
    · cases hstep
  | readFails =>
    rw [Media.ScreenCapture.step] at hstep
    split at hstep
    · obtain rfl := Option.some.inj hstep
      exact h.of_same rfl id
    · cases hstep
  | cancel =>
    obtain rfl := Option.some.inj hstep
    exact h.of_same rfl fun hv ↦ absurd (show true = false from hv) (by decide)

/-- A demuxer that nothing has stopped ends when no packet is left. -/
structure Ends (u : Media.ScreenCapture.State) : Prop where
  /-- The context is not cancelled. -/
  cancelled : u.cancelled = false
  /-- The demuxer is not stopped. -/
  done : u.done = false
  /-- It has ended, and nothing is left. -/
  ended : u.loop = .ended → (Media.Demuxer.run (fun _ ↦ true) u.reader).1 = []

/-- Neither is the context cancelled, nor does a read fail. -/
def Undisturbed (e : Event) : Prop := e ≠ .cancel ∧ e ≠ .readFails

theorem Ends.step (h : Ends u) (hidle : u.main = .peeking → u.loop = .idle) (he : Undisturbed e)
    (hstep : Media.ScreenCapture.step u e = some v) : Ends v := by
  cases e with
  | main =>
    rw [Media.ScreenCapture.step, Media.ScreenCapture.State.mainStep] at hstep
    split at hstep
    · rename_i hmain
      obtain rfl := Option.some.inj hstep
      exact ⟨h.cancelled, h.done, fun hl ↦ absurd ((hidle hmain).symm.trans hl) (by decide)⟩
    · obtain rfl := Option.some.inj hstep
      refine ⟨h.cancelled, h.done, fun hl ↦ ?_⟩
      cases hl
    · obtain rfl := Option.some.inj hstep
      exact ⟨h.cancelled, h.done, h.ended⟩
    · split at hstep
      · rename_i hcancelled
        exact absurd (h.cancelled.symm.trans hcancelled) Bool.false_ne_true
      · obtain rfl := Option.some.inj hstep
        exact ⟨h.cancelled, h.done, h.ended⟩
      · cases hstep
    · cases hstep
  | demuxer =>
    rw [Media.ScreenCapture.step, Media.ScreenCapture.State.demuxerStep] at hstep
    split at hstep
    · cases hstep
    · obtain rfl := Option.some.inj hstep
      refine ⟨h.cancelled, h.done, fun hl ↦ ?_⟩
      rw [h.done] at hl
      cases hl
    · split at hstep <;> rename_i hread <;> obtain rfl := Option.some.inj hstep
      · refine ⟨h.cancelled, h.done, fun hl ↦ ?_⟩
        cases hl
      · refine ⟨h.cancelled, h.done, fun _ ↦ ?_⟩
        show (Media.Demuxer.run (fun _ ↦ true) u.reader).1 = []
        rw [Media.Demuxer.run, Media.Demuxer.rounds, hread]
        split
        · rfl
        · rfl
        · rename_i heq
          cases heq
    · obtain rfl := Option.some.inj hstep
      refine ⟨h.cancelled, h.done, fun hl ↦ ?_⟩
      cases hl
    · cases hstep
  | readFails => exact absurd rfl he.2
  | cancel => exact absurd rfl he.1

/-- What the handler is called with is an initial segment of the packets of the stream. -/
theorem delivered_packets {es : List Event}
    (h : exec Media.ScreenCapture.step (Media.ScreenCapture.start stream) es = some u)
    (hregistered : Along Media.ScreenCapture.step Registered (Media.ScreenCapture.start stream) es)
    (hscreen : ∀ p ∈ (Media.Demuxer.run (fun _ ↦ true) stream).1,
      p.header.streamID = Media.streamScreen) :
    (u.delivered.filter Read.counts).map Read.packet <+:
        (Media.Demuxer.run (fun _ ↦ true) stream).1 ∧
      (u.loop = .ended → (∀ e ∈ es, Undisturbed e) →
        (u.delivered.filter Read.counts).map Read.packet =
          (Media.Demuxer.run (fun _ ↦ true) stream).1) := by
  have hinv : Media.ScreenCapture.Inv stream u := exec_invariant_along
    (fun _ _ _ hr hu hstep ↦ hu.step hr hstep) hregistered
    (Media.ScreenCapture.inv_start stream) h
  have hearly : Early u := exec_invariant (fun _ _ _ hu hstep ↦ hu.step hstep)
    ⟨List.prefix_rfl, fun _ r hr ↦ absurd hr List.not_mem_nil⟩ h
  have hcounts : u.read.filter Read.counts = u.read.filter Read.early := by
    refine List.filter_congr fun r hr ↦ ?_
    have hmem : r.packet ∈ (Media.Demuxer.run (fun _ ↦ true) stream).1 := by
      rw [hinv.stream]
      exact List.mem_append_left _ (List.mem_map_of_mem hr)
    rw [Read.counts, hscreen _ hmem, beq_self_eq_true, Bool.and_true]
  have hread : u.delivered.filter Read.counts <+: u.read := by
    refine List.IsPrefix.trans ?_ hearly.read
    rw [← hcounts, hinv.delivered]
    exact List.prefix_append _ _
  refine ⟨(hread.map _).trans hinv.lossless.order, fun hended hes ↦ ?_⟩
  have hends : Ends u ∧ Media.ScreenCapture.Inv stream u := by
    refine exec_invariant_along (P := fun w ↦ Ends w ∧ Media.ScreenCapture.Inv stream w)
      (C := fun w e ↦ Registered w e ∧ Undisturbed e) ?_
      (hregistered.and (along_of_forall_mem hes)) ⟨⟨rfl, rfl, ?_⟩,
        Media.ScreenCapture.inv_start stream⟩ h
    · intro w e w' hC hw hstep
      exact ⟨hw.1.step (fun hm ↦ hw.2.idle (.inl hm)) hC.2 hstep, hw.2.step hC.1 hstep⟩
    · intro hl
      cases hl
  have hall : u.delivered.filter Read.counts = u.read := by
    have hdelivered := hinv.delivered
    rw [hcounts, List.filter_eq_self.2 (hearly.cancelled hends.1.cancelled), hended] at hdelivered
    exact (hdelivered.trans (List.append_nil _)).symm
  rw [hall, hinv.stream, hends.1.ended hended, List.append_nil]

/-- The calls of the hub that a capture has made, for what it read before it was cancelled. -/
def hubCalls (generation : ℕ) (u : Media.ScreenCapture.State) : List Op :=
  (u.delivered.filter Read.counts).filterMap fun r ↦ handle generation r.packet

end Capture

/-! ### The whole way -/

theorem whole_of_mem {bytes : Bytes} {ps : List Packet} (h : WholePackets bytes ps) :
    ∀ p ∈ ps, ∃ bytes, Whole bytes p := by
  induction h with
  | nil => exact fun p hp ↦ absurd hp List.not_mem_nil
  | cons hp _ ih => exact List.forall_mem_cons.2 ⟨⟨_, hp⟩, ih⟩

/-- What the handler makes of packets is what they say. -/
theorem filterMap_handle {id : UInt32} {ps : List Packet} {contents : List Content}
    (h : List.Forall₂ (Carries id) ps contents) (hwhole : ∀ p ∈ ps, ∃ bytes, Whole bytes p)
    (generation : ℕ) :
    ps.filterMap (handle generation) = contents.filterMap (announce generation) := by
  induction h with
  | nil => rfl
  | @cons p c ps contents hp _ ih =>
    obtain ⟨⟨bytes, hbytes⟩, hwhole⟩ := List.forall_mem_cons.1 hwhole
    rw [List.filterMap_cons, List.filterMap_cons, ih hwhole, handle_eq_announce hbytes, hp.content]

/-- The codec id is no picture. -/
theorem Streams.filterMap_contents (hstreamer : Streams streamer) (passes : List Pass)
    (generation : ℕ) : (contents streamer passes).filterMap (announce generation) =
      passes.flatMap (Pass.ops generation) := by
  have hcodec : announce generation
      (.media 0 false false (bigEndian 4 streamer.codec.getId.toNat)) = none := by
    rw [announce, if_pos]
    obtain h | h | h := hstreamer.codec <;> rw [h] <;> decide
  rw [contents, List.filterMap_cons, hcodec, List.filterMap_flatMap]
  rfl

/-- What the hub is called with is an initial segment of what was written, and all of it at the end
of a stream that is complete. -/
theorem Wrote.hubCalls {s : State} {passes : List Pass} (hs : Wrote config s passes)
    (hstreamer : Streams config.streamer) {r : Reader} (hr : r.flatten <+: s.wire)
    {es : List Media.ScreenCapture.Event} {u : Media.ScreenCapture.State}
    (hu : exec Media.ScreenCapture.step (Media.ScreenCapture.start r) es = some u)
    (hregistered : Along Media.ScreenCapture.step Media.ScreenCapture.Registered
      (Media.ScreenCapture.start r) es) (generation : ℕ) :
    hubCalls generation u <+: passes.flatMap (Pass.ops generation) ∧
      (r.flatten = s.wire → u.loop = .ended → (∀ e ∈ es, Undisturbed e) →
        hubCalls generation u = passes.flatMap (Pass.ops generation)) := by
  obtain ⟨bytes, part, ps, hwire, hps, hcut, hcontents⟩ :=
    hs.onWire.packets hstreamer hs.written hs.buffers
  have hops : ps.filterMap (handle generation) = passes.flatMap (Pass.ops generation) := by
    obtain hcarries | ⟨rfl, rfl⟩ := hcontents
    · rw [filterMap_handle hcarries (whole_of_mem hps), hstreamer.filterMap_contents]
    · rfl
  rw [hwire] at hr ⊢
  obtain ⟨hinit, hcomplete⟩ := run_of_cut hps hcut hr
  have hscreen (p : Packet) (hp : p ∈ (Media.Demuxer.run (fun _ ↦ true) r).1) :
      p.header.streamID = Media.streamScreen := by
    obtain hcarries | ⟨rfl, -⟩ := hcontents
    · exact Media.streamID_of_carries hcarries p (hinit.subset hp)
    · exact absurd (hinit.subset hp) List.not_mem_nil
  obtain ⟨hdelivered, hall⟩ := delivered_packets hu hregistered hscreen
  have hcalls : ScreenPath.hubCalls generation u = ((u.delivered.filter
      Media.ScreenCapture.Read.counts).map Media.ScreenCapture.Read.packet).filterMap
        (handle generation) := by
    rw [List.filterMap_map]
    rfl
  rw [hcalls, ← hops]
  refine ⟨(hdelivered.trans hinit).filterMap _, fun heq hended hes ↦ ?_⟩
  rw [hall hended hes, hcomplete heq]

/-- **From the encoder to the hub.** Whatever the platform answers and other threads request, the
encoder writes passes, each under its size. Whatever part of that has arrived, in whatever chunks,
and however the goroutines of the capture are scheduled, as long as the demuxer looks up no packet
before the handler is registered: the hub is called with an initial segment of what the passes come
to, and with all of it at the end of a stream that is complete. -/
theorem screen_path {config : Config} (hstreamer : Streams config.streamer) {labels : List Label}
    {s : State} (h : exec (Video.State.step config) (Video.State.start config) labels = some s)
    (hsane : ∀ l ∈ labels, Sane l) {r : Reader} (hr : r.flatten <+: s.wire)
    {es : List Media.ScreenCapture.Event} {u : Media.ScreenCapture.State}
    (hu : exec Media.ScreenCapture.step (Media.ScreenCapture.start r) es = some u)
    (hregistered : Along Media.ScreenCapture.step Media.ScreenCapture.Registered
      (Media.ScreenCapture.start r) es) (generation : ℕ) :
    ∃ passes, (s.written = calls passes ∨ s.written = [] ∧ passes = []) ∧
      (s.pc.phase = .encode → ∃ p ∈ passes.getLast?, p.size = s.size) ∧
      hubCalls generation u <+: passes.flatMap (Pass.ops generation) ∧
      (r.flatten = s.wire → u.loop = .ended → (∀ e ∈ es, Undisturbed e) →
        hubCalls generation u = passes.flatMap (Pass.ops generation)) := by
  obtain ⟨passes, hs⟩ := wrote_exec h hsane
  refine ⟨passes, hs.written, fun hphase ↦ ?_, hs.hubCalls hstreamer hr hu hregistered generation⟩
  obtain ⟨ps, p, rfl, hp⟩ := hs.encode hphase
  exact ⟨p, by rw [List.getLast?_concat]; rfl, hp⟩

/-- The server's capture runs to its end, once the handler is registered. -/
def toEnd : List Media.ScreenCapture.Event :=
  List.replicate 3 .main ++ List.replicate 14 .demuxer

theorem registered_step {u v : Media.ScreenCapture.State} {e : Media.ScreenCapture.Event}
    (hu : u.registered = true) (hstep : Media.ScreenCapture.step u e = some v) :
    v.registered = true := by
  cases e <;> simp only [Media.ScreenCapture.step, Media.ScreenCapture.State.mainStep,
    Media.ScreenCapture.State.demuxerStep] at hstep <;> grind

theorem along_of_registered (es : List Media.ScreenCapture.Event)
    {u : Media.ScreenCapture.State} (hu : u.registered = true) :
    Along Media.ScreenCapture.step Media.ScreenCapture.Registered u es := by
  induction es generalizing u with
  | nil => trivial
  | cons e es ih => exact ⟨fun _ _ _ _ ↦ hu, fun v hv ↦ ih (registered_step hu hv)⟩

theorem along_toEnd (r : Reader) : Along Media.ScreenCapture.step Media.ScreenCapture.Registered
    (Media.ScreenCapture.start r) toEnd := by
  have hmain : Media.ScreenCapture.Event.main ≠ .demuxer := by decide
  refine ⟨fun h ↦ absurd h hmain, fun u hu ↦ ⟨fun h ↦ absurd h hmain, fun v hv ↦
    ⟨fun h ↦ absurd h hmain, fun w hw ↦ along_of_registered _ ?_⟩⟩⟩
  obtain rfl := Option.some.inj hu
  obtain rfl := Option.some.inj hv
  obtain rfl := Option.some.inj hw
  rfl

theorem sane_twoFrames : ∀ l ∈ Video.State.upToEncode ++ Video.State.twoFrames, Sane l := by
  intro l hl index data info hlabel
  subst hlabel
  simp [Video.State.upToEncode, Video.State.twoFrames] at hl
  obtain ⟨-, rfl, rfl⟩ | ⟨-, rfl, rfl⟩ := hl <;> exact ⟨by decide, by decide⟩

/-- Two frames of H.264. -/
theorem screen_path_twoFrames : ∃ s u passes,
    exec (Video.State.step Video.State.h264Screen) (Video.State.start Video.State.h264Screen)
        (Video.State.upToEncode ++ Video.State.twoFrames) = some s ∧
      exec Media.ScreenCapture.step (Media.ScreenCapture.start [s.wire.take 7, s.wire.drop 7])
        toEnd = some u ∧
      s.written = calls passes ∧ hubCalls 1 u = passes.flatMap (Pass.ops 1) := by
  obtain ⟨s, hs, hrun⟩ := (Option.any_eq_true _ _).1 (show (exec
    (Video.State.step Video.State.h264Screen) (Video.State.start Video.State.h264Screen)
      (Video.State.upToEncode ++ Video.State.twoFrames)).any (fun s ↦ s.written ≠ [] ∧
        (exec Media.ScreenCapture.step (Media.ScreenCapture.start [s.wire.take 7, s.wire.drop 7])
          toEnd).any (·.loop = .ended) = true) = true by decide +kernel)
  obtain ⟨hwritten, hrun⟩ := of_decide_eq_true hrun
  obtain ⟨u, hu, hended⟩ := (Option.any_eq_true _ _).1 hrun
  have hflatten : List.flatten [s.wire.take 7, s.wire.drop 7] = s.wire := by simp
  have hstreams : Streams Video.State.h264Screen.streamer := ⟨rfl, rfl, rfl, .inl rfl⟩
  obtain ⟨passes, hcalls, -, -, hall⟩ := screen_path hstreams hs sane_twoFrames
    (hflatten.symm ▸ List.prefix_rfl) hu (along_toEnd _) 1
  refine ⟨s, u, passes, hs, hu, hcalls.resolve_right fun h ↦ hwritten h.1,
    hall hflatten (of_decide_eq_true hended) ?_⟩
  simp [toEnd, Undisturbed]

end AllRelay.ScreenPath
