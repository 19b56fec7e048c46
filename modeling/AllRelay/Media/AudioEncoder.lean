import AllRelay.Library.LabelledSystem
import AllRelay.Media.RoundTrip

/-!
# The audio encoder on its socket

`WifiAudioEncoder.encode` starts an encoder in a row of steps, each of which may throw, and then
waits until its threads are done. From the last of these steps on, the thread "audio-out" writes the
packets of the encoder. A failure before goes through `writeDisableStream`, which puts four bytes on
the socket that are no packet.

A write may break the socket after some of its bytes; the reader then sees no clean close.
-/

open ChunkedReader LabelledSystem Wire

namespace AllRelay.Media.AudioEncoder

/-- The steps of `encode` before `waitEnded`, in the order of the code. -/
inductive StartUp where
  /-- `capture.checkCompatibility`. -/
  | checkCompatibility
  /-- `createMediaCodec`. -/
  | createMediaCodec
  /-- The start of "media-codec". -/
  | startMediaCodecThread
  /-- `createFormat`. -/
  | createFormat
  /-- `mediaCodec.setCallback`. -/
  | setCallback
  /-- `mediaCodec.configure`. -/
  | configure
  /-- `capture.start`. -/
  | startCapture
  /-- `mediaCodec.start`. -/
  | startMediaCodec
  /-- The start of "audio-in". -/
  | startInputThread
  /-- The start of "audio-out". -/
  | startOutputThread
deriving DecidableEq, Repr

/-- All of them. -/
def StartUp.all : List StartUp :=
  [.checkCompatibility, .createMediaCodec, .startMediaCodecThread, .createFormat, .setCallback,
    .configure, .startCapture, .startMediaCodec, .startInputThread, .startOutputThread]

/-- How a step ends. -/
inductive Outcome where
  /-- It returns. -/
  | returns
  /-- It throws an `AudioCaptureException`. -/
  | throwsAudioCapture
  /-- It throws anything else. -/
  | throws
deriving DecidableEq, Repr

/-- Where `encode` is. -/
inductive Main where
  /-- Before the check of `SDK_INT`. -/
  | checking
  /-- Before the first of these steps. -/
  | starting (steps : List StartUp)
  /-- In `waitEnded`. -/
  | waiting
  /-- In the `finally` block. -/
  | finishing
  /-- Returned. -/
  | returned
deriving DecidableEq, Repr

/-- Where "audio-out" is. -/
inductive Output where
  /-- Not started. -/
  | idle
  /-- Before `writeAudioHeader`. -/
  | header
  /-- Before its next packet. -/
  | taking
  /-- Ended. -/
  | ended
deriving DecidableEq, Repr

/-- A run of the encoder. -/
structure State where
  /-- The thread of `encode`. -/
  main : Main
  /-- The thread "audio-out". -/
  output : Output
  /-- The bytes on the socket. -/
  bytes : Bytes
  /-- A write has failed. -/
  broken : Bool
  /-- History: `writeDisableStream` was called, with this argument. -/
  disabled : Option Bool
deriving DecidableEq, Repr

/-- Before `encode`. -/
def start : State := ⟨.checking, .idle, [], false, none⟩

/-- What the platform and the scheduler choose. A write has an outcome: the number of bytes after
which the socket breaks, or none. -/
inductive Event where
  /-- The check of `SDK_INT`; `supported` is Android 11. -/
  | checkSdk (supported : Bool) (io : Option ℕ)
  /-- The next step of the start. -/
  | startUp (outcome : Outcome) (io : Option ℕ)
  /-- `waitEnded` returns. -/
  | ends
  /-- The `finally` block is left. -/
  | finish
  /-- `writeAudioHeader`. -/
  | header (io : Option ℕ)
  /-- A packet of the encoder, with the time stamp that `fixTimestamp` has left. -/
  | packet (codecBuffer : Bytes) (info : BufferInfo) (io : Option ℕ)
  /-- "audio-out" is interrupted or throws. -/
  | outputEnds
deriving DecidableEq, Repr

/-- A write to the socket. -/
def State.put (s : State) (bytes : Bytes) (io : Option ℕ) : State :=
  if s.broken then s
  else
    match io with
    | none => { s with bytes := s.bytes ++ bytes }
    | some n => { s with bytes := s.bytes ++ bytes.take n, broken := true }

/-- A write of "audio-out", which ends with an exception. -/
def State.write (s : State) (bytes : Except WriteError Bytes) (io : Option ℕ) : State :=
  match bytes with
  | .ok bytes =>
    let s := s.put bytes io
    { s with output := if s.broken then .ended else .taking }
  | .error _ => { s with output := .ended }

/-- A call of `writeDisableStream` on the way out. -/
def State.disable (s : State) (error : Bool) (main : Main) (io : Option ℕ) : State :=
  { s with main, disabled := some error }.put (WifiStreamer.writeDisableStream error) io

/-- The check of `SDK_INT`. -/
def State.checkSdk (s : State) (supported : Bool) (io : Option ℕ) : Option State :=
  match s.main with
  | .checking =>
    some (if supported then { s with main := .starting StartUp.all }
      else s.disable false .returned io)
  | _ => none

/-- The next step of the start. -/
def State.startUp (s : State) (outcome : Outcome) (io : Option ℕ) : Option State :=
  match s.main with
  | .starting (_ :: steps) =>
    match outcome with
    | .returns =>
      some (if steps = [] then { s with main := .waiting, output := .header }
        else { s with main := .starting steps })
    | .throwsAudioCapture => some (s.disable false .finishing io)
    | .throws => some (s.disable true .finishing io)
  | _ => none

/-- One step of the system. -/
def step (streamer : WifiStreamer) (s : State) : Event → Option State
  | .checkSdk supported io => s.checkSdk supported io
  | .startUp outcome io => s.startUp outcome io
  | .ends => if s.main = .waiting then some { s with main := .finishing } else none
  | .finish =>
    if s.main = .finishing ∧ (s.output = .idle ∨ s.output = .ended) then
      some { s with main := .returned }
    else none
  | .header io =>
    if s.output = .header then some (s.write (streamer.write .audioHeader) io) else none
  | .packet codecBuffer info io =>
    if s.output = .taking then some (s.write (streamer.write (.codecPacket codecBuffer info)) io)
    else none
  | .outputEnds =>
    if s.output = .header ∨ s.output = .taking then some { s with output := .ended } else none

/-- The encoder does not start. -/
def Event.Fails : Event → Prop
  | .checkSdk supported _ => supported = false
  | .startUp outcome _ => outcome ≠ .returns
  | _ => False

/-- The output buffers of a `MediaCodec`: a time stamp is not negative, and a buffer is not larger
than what the reader takes. -/
def Event.Sane : Event → Prop
  | .packet _ info _ => info.presentationTimeUs.toNat < 2 ^ 63 ∧ info.size ≤ maxPayloadSize
  | _ => True

/-- The socket carries whole packets, and the demuxer ends at the end of the stream. -/
structure Framed (bytes : Bytes) : Prop where
  /-- The packets. -/
  packets : ∃ ps, WholePackets bytes ps
  /-- The demuxer. -/
  run : ∀ (handlers : UInt32 → Bool) (r : Reader), r.flatten = bytes →
    (Demuxer.run handlers r).2 = none

variable {streamer : WifiStreamer} {s t : State} {e : Event}

/-! ### The packets of "audio-out" -/

theorem fixPacket_length {buffer payload : Bytes} {config : Bool}
    (h : streamer.fixPacket buffer config = .ok payload) : payload.length ≤ buffer.length := by
  have htake (k n : ℕ) : ((buffer.drop k).take n).length ≤ buffer.length := by
    rw [List.length_take, List.length_drop]
    omega
  rw [WifiStreamer.fixPacket] at h
  split at h
  · split at h
    · rw [fixOpusConfigPacket] at h
      split at h
      · cases h
      split at h
      · cases h
      simp only at h
      split at h
      · cases h
      split at h <;> cases h
      exact htake _ _
    · rw [fixFlacConfigPacket] at h
      split at h
      · cases h
      split at h
      · cases h
      simp only at h
      split at h
      · cases h
      split at h <;> cases h
      exact htake _ _
    · cases h
      exact Nat.le_refl _
  · cases h
    exact Nat.le_refl _

/-- A packet is whole: its time stamp leaves bit 63 alone, which would make it a session. -/
theorem writePacket_whole (hs : streamer.sendFrameMeta = true) {buffer bytes : Bytes} {pts : UInt64}
    {config keyFrame : Bool} (hpts : pts.toNat < 2 ^ 63) (hsize : buffer.length ≤ maxPayloadSize)
    (h : streamer.writePacket buffer pts config keyFrame = .ok bytes) : ∃ p, Whole bytes p := by
  have hbit : (WifiStreamer.ptsAndFlags pts config keyFrame).toNat.testBit 63 = false := by
    have hlow : pts.toNat.testBit 63 = false := Nat.testBit_lt_two_pow hpts
    rw [WifiStreamer.ptsAndFlags]
    split
    · decide
    · split
      · rw [UInt64.toNat_or, Nat.testBit_or, hlow]
        decide
      · exact hlow
  rw [WifiStreamer.writePacket] at h
  split at h
  · cases h
  · rename_i payload hfix
    cases h
    rw [if_pos hs]
    exact ⟨_, whole_media streamer.streamId.getId hbit
      (Nat.le_trans (fixPacket_length hfix) hsize)⟩

/-- A call of "audio-out" writes whole packets. -/
theorem write_wholePackets (hs : streamer.sendFrameMeta = true) {call : WifiStreamer.Call}
    {bytes : Bytes}
    (hcall : call = .audioHeader ∨ ∃ codecBuffer info, call = .codecPacket codecBuffer info ∧
      info.presentationTimeUs.toNat < 2 ^ 63 ∧ info.size ≤ maxPayloadSize)
    (h : streamer.write call = .ok bytes) : ∃ ps, WholePackets bytes ps := by
  obtain rfl | ⟨codecBuffer, info, rfl, hpts, hsize⟩ := hcall
  · rw [WifiStreamer.write, WifiStreamer.writeHeader] at h
    split at h
    · obtain ⟨p, hp⟩ := writePacket_whole hs (by decide) (by rw [length_bigEndian]; decide) h
      exact ⟨[p], .singleton hp⟩
    · cases h
      exact ⟨[], .nil⟩
  · have hlen : ((codecBuffer.drop info.offset).take info.size).length ≤ maxPayloadSize := by
      rw [List.length_take]
      omega
    obtain ⟨p, hp⟩ := writePacket_whole hs hpts hlen h
    exact ⟨[p], .singleton hp⟩

/-! ### The invariant -/

/-- What is on the socket, as long as it is not broken. -/
structure Inv (s : State) : Prop where
  /-- Nothing was written before the encoder has started. -/
  early : s.main = .checking ∨ (∃ steps, s.main = .starting steps) →
    s.output = .idle ∧ s.bytes = [] ∧ s.disabled = none ∧ s.broken = false
  /-- A started encoder writes packets. -/
  enabled : s.broken = false → s.disabled = none → ∃ ps, WholePackets s.bytes ps
  /-- An encoder that has failed to start has written four bytes, and will write no more. -/
  disabled : ∀ error, s.disabled = some error → s.output = .idle ∧
    (s.broken = false → s.bytes = WifiStreamer.writeDisableStream error)

theorem inv_start : Inv start :=
  ⟨fun _ ↦ ⟨rfl, rfl, rfl, rfl⟩, fun _ _ ↦ ⟨[], .nil⟩, by rintro error ⟨⟩⟩

/-- A call of `writeDisableStream` on an empty socket. -/
theorem Inv.disable (h : Inv s) (hm : s.main = .checking ∨ ∃ steps, s.main = .starting steps)
    (error : Bool) {main : Main} (hmain : main = .returned ∨ main = .finishing) (io : Option ℕ) :
    Inv (s.disable error main io) ∧ (s.disable error main io).disabled = some error := by
  obtain ⟨hout, hbytes, -, hbroken⟩ := h.early hm
  have hlate : ¬(main = .checking ∨ ∃ steps, main = .starting steps) := by
    rintro (hm | ⟨steps, hm⟩) <;> rcases hmain with rfl | rfl <;> cases hm
  rw [State.disable, State.put.eq_def, if_neg (ne_true_of_eq_false hbroken)]
  cases io with
  | none =>
    refine ⟨⟨fun h ↦ absurd h hlate, (fun _ h ↦ by cases h), fun _ he ↦ ?_⟩, rfl⟩
    cases he
    exact ⟨hout, fun _ ↦ by simp only [hbytes, List.nil_append]⟩
  | some n =>
    refine ⟨⟨fun h ↦ absurd h hlate, (fun h ↦ by cases h), fun _ he ↦ ?_⟩, rfl⟩
    exact ⟨hout, fun h ↦ by cases h⟩

/-- A write of "audio-out". -/
theorem Inv.write (h : Inv s) (hout : s.output ≠ .idle) {bytes : Except WriteError Bytes}
    (hbytes : ∀ b, bytes = .ok b → ∃ ps, WholePackets b ps) (io : Option ℕ) :
    Inv (s.write bytes io) ∧ (s.write bytes io).disabled = s.disabled := by
  have hlate : ¬(s.main = .checking ∨ ∃ steps, s.main = .starting steps) :=
    fun hm ↦ hout (h.early hm).1
  have hnone : s.disabled = none := by
    rw [Option.eq_none_iff_forall_ne_some]
    exact fun error he ↦ hout (h.disabled error he).1
  have hno {q : Prop} (error : Bool) (he : s.disabled = some error) : q := by
    cases hnone.symm.trans he
  cases bytes with
  | error e => exact ⟨⟨fun hm ↦ absurd hm hlate, h.enabled, fun _ ↦ hno _⟩, rfl⟩
  | ok b =>
    rw [State.write.eq_def]
    simp only [State.put]
    split
    · exact ⟨⟨fun hm ↦ absurd hm hlate, h.enabled, fun _ ↦ hno _⟩, rfl⟩
    · rename_i hbroken
      cases io with
      | none =>
        refine ⟨⟨fun hm ↦ absurd hm hlate, fun _ _ ↦ ?_, fun _ ↦ hno _⟩, rfl⟩
        obtain ⟨ps, hps⟩ := h.enabled (eq_false_of_ne_true hbroken) hnone
        obtain ⟨qs, hqs⟩ := hbytes b rfl
        exact ⟨ps ++ qs, hps.append hqs⟩
      | some n =>
        exact ⟨⟨fun hm ↦ absurd hm hlate, (fun h ↦ by cases h), fun _ ↦ hno _⟩, rfl⟩

/-- A step that writes nothing. -/
theorem Inv.of_same (h : Inv s) {main : Main} {output : Output}
    (hm : main = .checking ∨ (∃ steps, main = .starting steps) →
      output = s.output ∧ (s.main = .checking ∨ ∃ steps, s.main = .starting steps))
    (hout : s.disabled ≠ none → output = .idle) : Inv { s with main, output } where
  early hm' := by
    obtain ⟨rfl, hold⟩ := hm hm'
    exact h.early hold
  enabled := h.enabled
  disabled error he := ⟨hout (by rw [he]; rintro ⟨⟩), (h.disabled error he).2⟩

/-- **One step** keeps the invariant, and calls `writeDisableStream` if and only if it is a failure
to start. -/
theorem Inv.step (hs : streamer.sendFrameMeta = true) (h : Inv s) (he : e.Sane)
    (hstep : step streamer s e = some t) :
    Inv t ∧ (t.disabled = none ↔ s.disabled = none ∧ ¬e.Fails) := by
  have hsame {t : State} (hd : t.disabled = s.disabled) (hf : ¬e.Fails) :
      t.disabled = none ↔ s.disabled = none ∧ ¬e.Fails := by
    rw [hd, and_iff_left hf]
  have hfail {t : State} {error : Bool} (hd : t.disabled = some error) (hf : e.Fails) :
      t.disabled = none ↔ s.disabled = none ∧ ¬e.Fails := by
    rw [hd]
    exact iff_of_false (by rintro ⟨⟩) fun h ↦ h.2 hf
  have hidle (hd : s.disabled ≠ none) : s.output = .idle := by
    obtain ⟨error, hd⟩ := Option.ne_none_iff_exists'.1 hd
    exact (h.disabled error hd).1
  cases e with
  | checkSdk supported io =>
    rw [AudioEncoder.step, State.checkSdk.eq_def] at hstep
    split at hstep <;> cases hstep
    rename_i hm
    cases supported with
    | true => exact ⟨h.of_same (fun _ ↦ ⟨rfl, .inl hm⟩) hidle, hsame rfl fun hf ↦ by cases hf⟩
    | false =>
      obtain ⟨hi, hd⟩ := h.disable (.inl hm) false (.inl rfl) io
      exact ⟨hi, hfail hd rfl⟩
  | startUp outcome io =>
    rw [AudioEncoder.step, State.startUp.eq_def] at hstep
    split at hstep
    · rename_i x steps hm
      have hstarting : s.main = .checking ∨ ∃ steps, s.main = .starting steps := .inr ⟨_, hm⟩
      cases outcome with
      | returns =>
        cases hstep
        have hstarted : Inv { s with main := .waiting, output := .header } := by
          refine h.of_same (fun hm ↦ ?_) fun hd ↦ absurd (h.early hstarting).2.2.1 hd
          obtain hm | ⟨steps, hm⟩ := hm <;> cases hm
        split
        · exact ⟨hstarted, hsame rfl fun hf ↦ hf rfl⟩
        · exact ⟨h.of_same (fun _ ↦ ⟨rfl, hstarting⟩) hidle, hsame rfl fun hf ↦ hf rfl⟩
      | throwsAudioCapture =>
        cases hstep
        obtain ⟨hi, hd⟩ := h.disable hstarting false (.inr rfl) io
        exact ⟨hi, hfail hd fun h ↦ by cases h⟩
      | throws =>
        cases hstep
        obtain ⟨hi, hd⟩ := h.disable hstarting true (.inr rfl) io
        exact ⟨hi, hfail hd fun h ↦ by cases h⟩
    · cases hstep
  | ends =>
    rw [AudioEncoder.step] at hstep
    split at hstep <;> cases hstep
    refine ⟨h.of_same (fun hm ↦ ?_) hidle, hsame rfl id⟩
    obtain hm | ⟨steps, hm⟩ := hm <;> cases hm
  | finish =>
    rw [AudioEncoder.step] at hstep
    split at hstep <;> cases hstep
    refine ⟨h.of_same (fun hm ↦ ?_) hidle, hsame rfl id⟩
    obtain hm | ⟨steps, hm⟩ := hm <;> cases hm
  | header io =>
    rw [AudioEncoder.step] at hstep
    split at hstep <;> cases hstep
    rename_i hout
    obtain ⟨hi, hd⟩ := h.write (by rw [hout]; rintro ⟨⟩)
      (fun _ hb ↦ write_wholePackets hs (.inl rfl) hb) io
    exact ⟨hi, hsame hd id⟩
  | packet codecBuffer info io =>
    rw [AudioEncoder.step] at hstep
    split at hstep <;> cases hstep
    rename_i hout
    obtain ⟨hi, hd⟩ := h.write (by rw [hout]; rintro ⟨⟩)
      (fun _ hb ↦ write_wholePackets hs (.inr ⟨_, _, rfl, he.1, he.2⟩) hb) io
    exact ⟨hi, hsame hd id⟩
  | outputEnds =>
    rw [AudioEncoder.step] at hstep
    split at hstep <;> cases hstep
    rename_i hout
    have hne : s.output ≠ .idle := by
      obtain h | h := hout <;> rw [h] <;> rintro ⟨⟩
    exact ⟨h.of_same (fun hm ↦ absurd (h.early hm).1 hne) fun hd ↦ absurd (hidle hd) hne,
      hsame rfl id⟩

/-- A run: `writeDisableStream` was called if and only if the encoder failed to start. -/
theorem exec_inv (hs : streamer.sendFrameMeta = true) {es : List Event} (hes : ∀ e ∈ es, e.Sane)
    (h : Inv s) (hexec : exec (step streamer) s es = some t) :
    Inv t ∧ (t.disabled = none ↔ s.disabled = none ∧ ∀ e ∈ es, ¬e.Fails) := by
  induction es generalizing s with
  | nil =>
    rw [exec_nil, Option.some.injEq] at hexec
    subst hexec
    exact ⟨h, (and_iff_left fun e he ↦ absurd he List.not_mem_nil).symm⟩
  | cons e es ih =>
    obtain ⟨u, hu, hexec⟩ := exec_cons_eq_some_iff.1 hexec
    obtain ⟨he, hes⟩ := List.forall_mem_cons.1 hes
    obtain ⟨hiu, hdu⟩ := h.step hs he hu
    obtain ⟨hit, hdt⟩ := ih hes hiu hexec
    refine ⟨hit, hdt.trans ?_⟩
    rw [hdu, List.forall_mem_cons, and_assoc]

theorem framed_of_whole {bytes : Bytes} (h : ∃ ps, WholePackets bytes ps) : Framed bytes := by
  refine ⟨h, fun handlers r hr ↦ ?_⟩
  obtain ⟨ps, hps⟩ := h
  rw [Demuxer.run_of_whole hps hr]

/-- The four bytes of `writeDisableStream` are an incomplete header. -/
theorem not_framed_disable (error : Bool) : ¬Framed (WifiStreamer.writeDisableStream error) := by
  intro h
  have hrun := h.run (fun _ ↦ true) [WifiStreamer.writeDisableStream error] (List.append_nil _)
  rw [Demuxer.run, Demuxer.rounds,
    readPacket_short (by rintro ⟨⟩) (by cases error <;> decide)] at hrun
  cases hrun

/-- **Packet framing.** The socket of a run that has not broken it carries whole packets if and only
if the encoder did not fail to start. -/
theorem audio_encoder_framing (hs : streamer.sendFrameMeta = true) {es : List Event}
    (hes : ∀ e ∈ es, e.Sane) (hexec : exec (step streamer) start es = some t)
    (hbroken : t.broken = false) : Framed t.bytes ↔ ∀ e ∈ es, ¬e.Fails := by
  obtain ⟨hi, hd⟩ := exec_inv hs hes inv_start hexec
  have hfails : (∀ e ∈ es, ¬e.Fails) ↔ t.disabled = none :=
    ⟨fun h ↦ hd.2 ⟨rfl, h⟩, fun h ↦ (hd.1 h).2⟩
  rw [hfails]
  constructor
  · intro hframed
    rw [Option.eq_none_iff_forall_ne_some]
    intro error he
    rw [(hi.disabled error he).2 hbroken] at hframed
    exact not_framed_disable error hframed
  · exact fun hnone ↦ framed_of_whole (hi.enabled hbroken hnone)

/-- The encoder starts, writes the codec id and a config packet, and ends. -/
def shortRun : List Event :=
  .checkSdk true none :: List.replicate 10 (.startUp .returns none) ++
    [.header none, .packet (opusHeaderId ++ [1, 0, 0, 0, 0, 0, 0, 0, 9]) ⟨0, 17, 0, 2⟩ none, .ends,
      .outputEnds, .finish]

theorem audio_encoder_framing_shortRun :
    ∃ t, exec (step opusMic) start shortRun = some t ∧ t.broken = false ∧
      (Framed t.bytes ↔ ∀ e ∈ shortRun, ¬e.Fails) := by
  have hrun : (exec (step opusMic) start shortRun).map State.broken = some false := by decide
  obtain ⟨t, ht, hbroken⟩ := Option.map_eq_some_iff.1 hrun
  refine ⟨t, ht, hbroken, audio_encoder_framing rfl (fun e he ↦ ?_) ht hbroken⟩
  cases e with
  | packet codecBuffer info io =>
    obtain ⟨rfl, rfl, rfl⟩ : codecBuffer = opusHeaderId ++ [1, 0, 0, 0, 0, 0, 0, 0, 9] ∧
        info = ⟨0, 17, 0, 2⟩ ∧ io = none := by
      simpa [shortRun] using he
    exact ⟨by decide, by decide⟩
  | _ => trivial

/-- `capture.start` throws. -/
def captureFails : List Event :=
  .checkSdk true none :: List.replicate 6 (.startUp .returns none) ++
    [.startUp .throwsAudioCapture none, .finish]

/-- A phone whose capture does not start sends four bytes that are no packet, and so does a phone
before Android 11. -/
theorem disable_stream_unframed :
    (∃ t, exec (step opusMic) start captureFails = some t ∧ t.broken = false ∧
      ¬Framed t.bytes) ∧
    ∃ t, exec (step opusMic) start [.checkSdk false none] = some t ∧ t.broken = false ∧
      ¬Framed t.bytes :=
  ⟨⟨_, rfl, rfl, not_framed_disable false⟩, _, rfl, rfl, not_framed_disable false⟩

end AllRelay.Media.AudioEncoder
