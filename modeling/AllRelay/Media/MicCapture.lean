import AllRelay.Library.LabelledSystem
import AllRelay.Library.Wire
import AllRelay.Media.Packet

/-!
# Microphone capture

`runMicCapture` reads the packets of the microphone on the goroutine of `Demuxer.Run`. The handler
creates a decoder and a writer of the virtual microphone from each config packet, and replaces those
of the one before; it keeps them in two variables that the deferred cleanup of `runMicCapture`
closes.

When the handler has failed, or the demuxer has ended, the handler does not run again and the
cleanup finds what there is to close. When the context is cancelled, it may run beside the handler:
a config packet that is handled then leaves a decoder and a writer behind (`writer_left_open`).
Without such an overlap everything is closed once, and nothing is used afterwards (`torn_down`).
-/

open ChunkedReader LabelledSystem Wire

namespace AllRelay.Media.MicCapture

/-! ### The variables -/

/-- One of the two variables, with everything it has held; the `i`-th object that was started is
`i`. -/
structure Slot where
  /-- What the variable points to. -/
  current : Option ℕ
  /-- How many objects were started. -/
  started : ℕ
  /-- An object is closed. -/
  closed : ℕ → Bool
  /-- An object was used after it was closed. -/
  misused : Bool

namespace Slot

/-- `nil`. -/
def empty : Slot := ⟨none, 0, fun _ ↦ false, false⟩

/-- Assign a new object, or `nil` if it cannot be started. -/
def start (x : Slot) (ok : Bool) : Slot :=
  if ok then { x with current := some x.started, started := x.started + 1 }
  else { x with current := none }

/-- `Close`, if the variable is not `nil`. -/
def close (x : Slot) : Slot :=
  match x.current with
  | some i => { x with closed := Function.update x.closed i true }
  | none => x

/-- Use the object. -/
def use (x : Slot) : Slot :=
  match x.current with
  | some i => { x with misused := x.misused || x.closed i }
  | none => x

/-- Every object is closed. -/
def AllClosed (x : Slot) : Prop :=
  ∀ i < x.started, x.closed i = true

/-- The object in the variable is not closed. -/
def Live (x : Slot) : Prop :=
  ∀ i, x.current = some i → x.closed i = false

/-- Every object but the one in the variable is closed. -/
structure Owned (x : Slot) : Prop where
  current : ∀ i, x.current = some i → i < x.started
  closed : ∀ i, x.closed i = true → i < x.started
  owned : ∀ i < x.started, x.closed i = true ∨ x.current = some i

variable {x : Slot}

theorem close_of_none (hx : x.current = none) : x.close = x := by
  rw [close, hx]

theorem close_of_some {i : ℕ} (hx : x.current = some i) :
    x.close = { x with closed := Function.update x.closed i true } := by
  rw [close, hx]

/-- Nothing to close. -/
theorem Owned.allClosed (h : x.Owned) (hx : x.current = none) : x.AllClosed := by
  intro i hi
  obtain hi | hi := h.owned i hi
  · exact hi
  · rw [hx] at hi
    exact absurd hi (Option.some_ne_none i).symm

/-- After the object in the variable, all are closed. -/
theorem Owned.close (h : x.Owned) : x.close.Owned ∧ x.close.AllClosed := by
  obtain hx | ⟨i, hx⟩ := Option.eq_none_or_eq_some x.current
  · rw [close_of_none hx]
    exact ⟨h, h.allClosed hx⟩
  · have hclosed : ∀ j < x.started, Function.update x.closed i true j = true := by
      intro j hj
      obtain rfl | hne := eq_or_ne j i
      · exact Function.update_self ..
      · rw [Function.update_of_ne hne]
        obtain hj | hj := h.owned j hj
        · exact hj
        · rw [hx, Option.some.injEq] at hj
          exact absurd hj.symm hne
    have hbound : ∀ j, Function.update x.closed i true j = true → j < x.started := by
      intro j hj
      obtain rfl | hne := eq_or_ne j i
      · exact h.current j hx
      · rw [Function.update_of_ne hne] at hj
        exact h.closed j hj
    rw [close_of_some hx]
    exact ⟨⟨h.current, hbound, fun j hj ↦ .inl (hclosed j hj)⟩, hclosed⟩

/-- A new object, when all are closed. -/
theorem Owned.start (h : x.Owned) (hclosed : x.AllClosed) (ok : Bool) :
    (x.start ok).Owned ∧ (x.start ok).Live := by
  unfold Slot.start
  split
  · refine ⟨⟨fun i hi ↦ ?_, fun i hi ↦ ?_, fun i hi ↦ ?_⟩, fun i hi ↦ ?_⟩
    · obtain rfl := Option.some.inj hi
      exact Nat.lt_succ_self _
    · exact (h.closed i hi).trans (Nat.lt_succ_self _)
    · obtain hi | rfl := Nat.lt_succ_iff_lt_or_eq.1 hi
      · exact .inl (hclosed i hi)
      · exact .inr rfl
    · obtain rfl := Option.some.inj hi
      exact Bool.eq_false_of_not_eq_true fun hopen ↦ absurd (h.closed _ hopen) (lt_irrefl _)
  · exact ⟨⟨fun i hi ↦ absurd hi (Option.some_ne_none i).symm, h.closed,
      fun i hi ↦ .inl (hclosed i hi)⟩, fun i hi ↦ absurd hi (Option.some_ne_none i).symm⟩

/-- To use an object that is not closed changes nothing. -/
theorem Live.use_eq (h : x.Live) : x.use = x := by
  obtain hx | ⟨i, hx⟩ := Option.eq_none_or_eq_some x.current
  · rw [use, hx]
  · have huse : x.use = { x with misused := x.misused || x.closed i } := by
      rw [use, hx]
    rw [huse, h i hx, Bool.or_false]

theorem misused_close (x : Slot) : x.close.misused = x.misused := by
  unfold Slot.close
  split <;> rfl

theorem misused_start (x : Slot) (ok : Bool) : (x.start ok).misused = x.misused := by
  unfold Slot.start
  split <;> rfl

end Slot

/-! ### The packets -/

/-- `opusConfig`. -/
structure OpusConfig where
  /-- `SampleRate`. -/
  sampleRate : UInt32
  /-- `Channels`. -/
  channels : ℕ
  /-- `PreSkip`. -/
  preSkip : ℕ
deriving DecidableEq, Repr

/-- "OpusHead". -/
def opusHeadMagic : Bytes :=
  [79, 112, 117, 115, 72, 101, 97, 100]

/-- "opus", the identifier of the codec. -/
def codecName : Bytes :=
  [111, 112, 117, 115]

/-- `parseOpusHead`. -/
def parseOpusHead (payload : Bytes) : Option OpusConfig :=
  if payload.length < 19 ∨ payload.take 8 ≠ opusHeadMagic then none
  else
    let channels := value ((payload.drop 9).take 1)
    if channels = 0 then none
    else
      let sampleRate := UInt32.ofNat (value ((payload.drop 12).take 4).reverse)
      some ⟨if sampleRate = 0 then 48000 else sampleRate, channels,
        value ((payload.drop 10).take 2).reverse⟩

/-! ### The state -/

/-- `StreamMic`. -/
def streamMic : UInt32 := 3

/-- Where `runMicCapture` is. -/
inductive Main where
  /-- In its `select`. -/
  | waiting
  /-- Cancelled, before `demuxer.Stop`. -/
  | cancelling
  /-- In the cleanup, at the check of `decoder`. -/
  | checkingDecoder
  /-- Before `decoder.Close`. -/
  | closingDecoder
  /-- At the check of `output`. -/
  | checkingOutput
  /-- Before `output.Close`. -/
  | closingOutput
  /-- Returned. -/
  | returned
deriving DecidableEq, Repr

namespace Main

/-- The cleanup has begun. -/
def cleaning : Main → Bool
  | .waiting | .cancelling => false
  | _ => true

/-- The cleanup is past the decoder. -/
def decoderDone : Main → Bool
  | .checkingOutput | .closingOutput | .returned => true
  | _ => false

/-- The cleanup is past the writer. -/
def outputDone : Main → Bool
  | .returned => true
  | _ => false

end Main

/-- Where the goroutine of the demuxer is: in `Run`, or in the handler of a packet. -/
inductive Loop where
  /-- Before the check of the `done` channel. -/
  | top
  /-- Before the next packet is read. -/
  | reading
  /-- In the handler, with a packet of the microphone. -/
  | handling (p : Packet)
  /-- Before the old decoder is closed. -/
  | replacingDecoder
  /-- Before `NewOpusDecoder`. -/
  | startingDecoder
  /-- Before the old writer is closed. -/
  | replacingOutput
  /-- Before `StartVirtualMicWriter`. -/
  | startingOutput
  /-- Before `Decode`. -/
  | decoding
  /-- Before `Channels`. -/
  | sizing
  /-- Before `Write`. -/
  | writing
  /-- Before the error is put in `fatalErrCh`. -/
  | failing
  /-- Before `demuxer.Stop`. -/
  | stopping
  /-- `Run` has returned and its result is in `errCh`. -/
  | ended
deriving DecidableEq, Repr

/-- The next step of the handler closes, starts or uses a decoder or a writer. -/
def Loop.touches : Loop → Bool
  | .replacingDecoder | .startingDecoder | .replacingOutput | .startingOutput | .decoding | .sizing
  | .writing => true
  | _ => false

/-- The state of the two goroutines. -/
structure State where
  /-- The goroutine of `runMicCapture`. -/
  main : Main
  /-- The goroutine of the demuxer. -/
  loop : Loop
  /-- `reader`. -/
  reader : Reader
  /-- `decoder`. -/
  decoder : Slot
  /-- `output`. -/
  output : Slot
  /-- The context is cancelled. -/
  cancelled : Bool
  /-- The demuxer's `done` channel is closed. -/
  done : Bool
  /-- An error was put in `fatalErrCh`. -/
  fatalErr : Bool
  /-- History: `runMicCapture` has taken the case of the cancellation. -/
  cancelledExit : Bool

/-- A capture of a stream, with the demuxer running. -/
def init (stream : Reader) : State :=
  ⟨.waiting, .top, stream, .empty, .empty, false, false, false, false⟩

/-- The cases of the `select`. -/
inductive Exit where
  /-- `ctx.Done`. -/
  | cancelled
  /-- `fatalErrCh`. -/
  | fatal
  /-- `errCh`. -/
  | ended
deriving DecidableEq, Repr

/-- The steps. -/
inductive Label where
  /-- The context is cancelled. -/
  | cancel
  /-- `runMicCapture` takes a case that is ready. -/
  | select (e : Exit)
  /-- The next step of `runMicCapture` after that. -/
  | main
  /-- The next step of the demuxer; a start, a decode or a write succeeds or fails. -/
  | demuxer (ok : Bool)
  /-- The read of the demuxer fails. -/
  | readFails
deriving DecidableEq, Repr

/-! ### The steps -/

namespace State

/-- A case of the `select`. -/
def select (s : State) : Exit → Option State
  | .cancelled =>
    if s.cancelled then some { s with main := .cancelling, cancelledExit := true } else none
  | .fatal => if s.fatalErr then some { s with main := .checkingDecoder } else none
  | .ended => if s.loop = .ended then some { s with main := .checkingDecoder } else none

/-- The next step of `runMicCapture`. -/
def mainStep (s : State) : Option State :=
  match s.main with
  | .waiting | .returned => none
  | .cancelling => some { s with main := .checkingDecoder, done := true }
  | .checkingDecoder =>
    some { s with main := if s.decoder.current = none then .checkingOutput else .closingDecoder }
  | .closingDecoder => some { s with main := .checkingOutput, decoder := s.decoder.close }
  | .checkingOutput =>
    some { s with main := if s.output.current = none then .returned else .closingOutput }
  | .closingOutput =>
    -- `Close` of a `nil` writer: the process ends here.
    if s.output.current = none then none
    else some { s with main := .returned, output := s.output.close }

/-- Where the handler goes with a packet. -/
def handle (s : State) (p : Packet) : Loop :=
  if p.payload.length = 0 then .top
  else if p.payload = codecName then .top
  else if p.header.isConfig then
    match parseOpusHead p.payload with
    | none => .failing
    | some _ => .replacingDecoder
  else if s.decoder.current = none ∨ s.output.current = none then .top
  else .decoding

/-- The next step of the demuxer. -/
def demuxerStep (s : State) (ok : Bool) : Option State :=
  match s.loop with
  | .top => some { s with loop := if s.done then .ended else .reading }
  | .reading =>
    match readPacket s.reader with
    | .ok (p, reader) =>
      some { s with reader, loop := if p.header.streamID = streamMic then .handling p else .top }
    | .error _ => some { s with loop := .ended }
  | .handling p => some { s with loop := s.handle p }
  | .replacingDecoder => some { s with loop := .startingDecoder, decoder := s.decoder.close }
  | .startingDecoder =>
    some { s with
      loop := if ok then .replacingOutput else .failing
      decoder := s.decoder.start ok }
  | .replacingOutput => some { s with loop := .startingOutput, output := s.output.close }
  | .startingOutput =>
    some { s with
      loop := if ok then .top else .failing
      output := s.output.start ok }
  | .decoding =>
    some { s with loop := if ok then .sizing else .failing, decoder := s.decoder.use }
  | .sizing => some { s with loop := .writing, decoder := s.decoder.use }
  | .writing => some { s with loop := if ok then .top else .failing, output := s.output.use }
  | .failing => some { s with loop := .stopping, fatalErr := true }
  | .stopping => some { s with loop := .top, done := true }
  | .ended => none

end State

/-- One step. -/
def step (s : State) : Label → Option State
  | .cancel => some { s with cancelled := true }
  | .select e => if s.main = .waiting then s.select e else none
  | .main => s.mainStep
  | .demuxer ok => s.demuxerStep ok
  | .readFails => if s.loop = .reading then some { s with loop := .ended } else none

/-! ### What is claimed -/

/-- No decoder and no writer was used after it was closed, and once both goroutines have ended every
one that was started is closed. -/
structure TornDown (s : State) : Prop where
  decoder : s.decoder.misused = false
  output : s.output.misused = false
  closed : s.main = .returned → s.loop = .ended → s.decoder.AllClosed ∧ s.output.AllClosed

/-- The handler touches no decoder and no writer once `runMicCapture`, cancelled, has begun to close
them. -/
def apart (s : State) (l : Label) : Prop :=
  s.cancelledExit = true → s.main.cleaning = true → s.loop.touches = true → ∀ ok, l ≠ .demuxer ok

instance (s : State) (l : Label) : Decidable (apart s l) :=
  inferInstanceAs (Decidable (_ → _ → _ → ∀ ok, l ≠ .demuxer ok))

/-! ### The invariant -/

/-- What holds between any two steps. -/
structure Inv (s : State) : Prop where
  decoder : s.decoder.Owned
  output : s.output.Owned
  /-- Nothing was used after it was closed. -/
  clean : s.decoder.misused = false ∧ s.output.misused = false
  /-- The decoder is open, but for the moment of its replacement, until the cleanup. -/
  liveDecoder : s.main.decoderDone = false → s.loop ≠ .startingDecoder → s.decoder.Live
  /-- The writer likewise. -/
  liveOutput : s.main.outputDone = false → s.loop ≠ .startingOutput → s.output.Live
  /-- In that moment and after the cleanup every decoder is closed. -/
  closedDecoder : s.main.decoderDone = true ∨ s.loop = .startingDecoder → s.decoder.AllClosed
  /-- Every writer likewise. -/
  closedOutput : s.main.outputDone = true ∨ s.loop = .startingOutput → s.output.AllClosed
  /-- After a failure the handler does not run again. -/
  failed : s.fatalErr = true →
    s.loop = .stopping ∨ s.done = true ∧ (s.loop = .top ∨ s.loop = .ended)
  /-- `runMicCapture` leaves its `select` for one of the three reasons. -/
  exits : s.main ≠ .waiting →
    s.cancelledExit = true ∨ s.fatalErr = true ∨ s.loop = .ended

theorem inv_init (stream : Reader) : Inv (init stream) where
  decoder := ⟨fun i h ↦ absurd h (Option.some_ne_none i).symm, fun _ h ↦ Bool.noConfusion h,
    fun i hi ↦ absurd hi (Nat.not_lt_zero i)⟩
  output := ⟨fun i h ↦ absurd h (Option.some_ne_none i).symm, fun _ h ↦ Bool.noConfusion h,
    fun i hi ↦ absurd hi (Nat.not_lt_zero i)⟩
  clean := ⟨rfl, rfl⟩
  liveDecoder _ _ := fun i h ↦ absurd h (Option.some_ne_none i).symm
  liveOutput _ _ := fun i h ↦ absurd h (Option.some_ne_none i).symm
  closedDecoder _ := fun i hi ↦ absurd hi (Nat.not_lt_zero i)
  closedOutput _ := fun i hi ↦ absurd hi (Nat.not_lt_zero i)
  failed h := Bool.noConfusion h
  exits h := absurd rfl h

variable {s t : State} {loop : Loop} {main : Main} {x : Slot}

theorem Main.notDone_of_not_cleaning {m : Main} (h : m.cleaning = false) :
    m.decoderDone = false ∧ m.outputDone = false := by
  match m with
  | .waiting | .cancelling => exact ⟨rfl, rfl⟩

theorem Loop.ne_of_not_touches {m : Loop} (h : m.touches = false) :
    m ≠ .startingDecoder ∧ m ≠ .startingOutput := by
  constructor
  all_goals
    rintro rfl
    exact Bool.noConfusion h

namespace Inv

/-- A handler that touches a decoder or a writer has not failed. -/
theorem healthy (hs : Inv s) (h : s.loop.touches = true) :
    s.fatalErr ≠ true ∧ s.loop ≠ .ended := by
  constructor
  · intro hfatal
    obtain hloop | ⟨-, hloop | hloop⟩ := hs.failed hfatal
    all_goals
      rw [hloop] at h
      exact Bool.noConfusion h
  · intro hloop
    rw [hloop] at h
    exact Bool.noConfusion h

/-- While the handler touches a decoder or a writer, the `select` is left only when the capture is
cancelled. -/
theorem cancelled_of_touches (hs : Inv s) (h : s.loop.touches = true) (hmain : s.main ≠ .waiting) :
    s.cancelledExit = true := by
  obtain hexit | hexit | hexit := hs.exits hmain
  · exact hexit
  · exact absurd hexit (hs.healthy h).1
  · exact absurd hexit (hs.healthy h).2

/-- The two are apart: while the handler touches a decoder or a writer, the cleanup has not
begun. -/
theorem not_cleaning (hs : Inv s) {ok : Bool} (hl : apart s (.demuxer ok))
    (h : s.loop.touches = true) : s.main.cleaning = false := by
  refine Bool.eq_false_of_not_eq_true fun hclean ↦ ?_
  have hmain : s.main ≠ .waiting := by
    intro hwaiting
    rw [hwaiting] at hclean
    exact Bool.noConfusion hclean
  exact hl (hs.cancelled_of_touches h hmain) hclean h ok rfl

/-- The demuxer moves on without touching anything. -/
theorem move (hs : Inv s) {reader : Reader} {done fatalErr : Bool}
    (hfrom : s.loop.touches = false) (hdecoder : loop ≠ .startingDecoder)
    (houtput : loop ≠ .startingOutput)
    (hfailed : fatalErr = true →
      loop = .stopping ∨ done = true ∧ (loop = .top ∨ loop = .ended))
    (hfatal : s.fatalErr = true → fatalErr = true) (hended : s.loop = .ended → loop = .ended) :
    Inv { s with loop := loop, reader := reader, done := done, fatalErr := fatalErr } where
  decoder := hs.decoder
  output := hs.output
  clean := hs.clean
  liveDecoder hmain _ := hs.liveDecoder hmain (Loop.ne_of_not_touches hfrom).1
  liveOutput hmain _ := hs.liveOutput hmain (Loop.ne_of_not_touches hfrom).2
  closedDecoder h := hs.closedDecoder (h.imp_right fun h ↦ absurd h hdecoder)
  closedOutput h := hs.closedOutput (h.imp_right fun h ↦ absurd h houtput)
  failed := hfailed
  exits h := (hs.exits h).imp_right (Or.imp hfatal hended)

/-- The demuxer reads, or the handler looks at a packet. -/
theorem advance (hs : Inv s) {reader : Reader} (hfrom : s.loop.touches = false)
    (hstop : s.loop ≠ .stopping ∧ s.loop ≠ .top ∧ s.loop ≠ .ended)
    (hdecoder : loop ≠ .startingDecoder) (houtput : loop ≠ .startingOutput) :
    Inv { s with loop := loop, reader := reader } := by
  refine hs.move hfrom hdecoder houtput (fun hfatal ↦ ?_) (fun h ↦ h) fun h ↦ absurd h hstop.2.2
  obtain hloop | ⟨-, hloop | hloop⟩ := hs.failed hfatal
  · exact absurd hloop hstop.1
  · exact absurd hloop hstop.2.1
  · exact absurd hloop hstop.2.2

/-- The handler changes the decoder. -/
theorem touchDecoder (hs : Inv s) (hmain : s.main.cleaning = false) (hfrom : s.loop.touches = true)
    (houtput : s.loop ≠ .startingOutput ∧ loop ≠ .startingOutput) (hx : x.Owned)
    (hclean : x.misused = false) (hlive : loop ≠ .startingDecoder → x.Live)
    (hclosed : loop = .startingDecoder → x.AllClosed) :
    Inv { s with loop := loop, decoder := x } where
  decoder := hx
  output := hs.output
  clean := ⟨hclean, hs.clean.2⟩
  liveDecoder _ := hlive
  liveOutput h _ := hs.liveOutput h houtput.1
  closedDecoder h := by
    obtain h | h := h
    · rw [(Main.notDone_of_not_cleaning hmain).1] at h
      exact Bool.noConfusion h
    · exact hclosed h
  closedOutput h := hs.closedOutput (h.imp_right fun h ↦ absurd h houtput.2)
  failed h := absurd h (hs.healthy hfrom).1
  exits h := .inl (hs.cancelled_of_touches hfrom h)

/-- The handler changes the writer. -/
theorem touchOutput (hs : Inv s) (hmain : s.main.cleaning = false) (hfrom : s.loop.touches = true)
    (hdecoder : s.loop ≠ .startingDecoder ∧ loop ≠ .startingDecoder) (hx : x.Owned)
    (hclean : x.misused = false) (hlive : loop ≠ .startingOutput → x.Live)
    (hclosed : loop = .startingOutput → x.AllClosed) :
    Inv { s with loop := loop, output := x } where
  decoder := hs.decoder
  output := hx
  clean := ⟨hs.clean.1, hclean⟩
  liveDecoder h _ := hs.liveDecoder h hdecoder.1
  liveOutput _ := hlive
  closedDecoder h := hs.closedDecoder (h.imp_right fun h ↦ absurd h hdecoder.2)
  closedOutput h := by
    obtain h | h := h
    · rw [(Main.notDone_of_not_cleaning hmain).2] at h
      exact Bool.noConfusion h
    · exact hclosed h
  failed h := absurd h (hs.healthy hfrom).1
  exits h := .inl (hs.cancelled_of_touches hfrom h)

/-- The handler uses the decoder. -/
theorem useDecoder (hs : Inv s) (hmain : s.main.cleaning = false) (hfrom : s.loop.touches = true)
    (hloop : s.loop ≠ .startingDecoder ∧ s.loop ≠ .startingOutput)
    (hnext : loop ≠ .startingDecoder ∧ loop ≠ .startingOutput) :
    Inv { s with loop := loop, decoder := s.decoder.use } := by
  have hlive := hs.liveDecoder (Main.notDone_of_not_cleaning hmain).1 hloop.1
  rw [hlive.use_eq]
  exact hs.touchDecoder hmain hfrom ⟨hloop.2, hnext.2⟩ hs.decoder hs.clean.1 (fun _ ↦ hlive)
    fun h ↦ absurd h hnext.1

/-- The handler uses the writer. -/
theorem useOutput (hs : Inv s) (hmain : s.main.cleaning = false) (hfrom : s.loop.touches = true)
    (hloop : s.loop ≠ .startingDecoder ∧ s.loop ≠ .startingOutput)
    (hnext : loop ≠ .startingDecoder ∧ loop ≠ .startingOutput) :
    Inv { s with loop := loop, output := s.output.use } := by
  have hlive := hs.liveOutput (Main.notDone_of_not_cleaning hmain).2 hloop.2
  rw [hlive.use_eq]
  exact hs.touchOutput hmain hfrom ⟨hloop.1, hnext.1⟩ hs.output hs.clean.2 (fun _ ↦ hlive)
    fun h ↦ absurd h hnext.2

/-- A step of the handler with a decoder or a writer. -/
theorem touch (hs : Inv s) {ok : Bool} (hl : apart s (.demuxer ok)) (htouch : s.loop.touches = true)
    (h : s.demuxerStep ok = some t) : Inv t := by
  have hmain := hs.not_cleaning hl htouch
  unfold State.demuxerStep at h
  match hloop : s.loop with
  | .replacingDecoder =>
    simp only [hloop] at h
    refine Option.some.inj h ▸ hs.touchDecoder hmain htouch ⟨?_, Loop.noConfusion⟩
      hs.decoder.close.1 ?_ (fun hne ↦ absurd rfl hne) fun _ ↦ hs.decoder.close.2
    · rw [hloop]
      exact Loop.noConfusion
    · rw [Slot.misused_close]
      exact hs.clean.1
  | .startingDecoder =>
    simp only [hloop] at h
    have hnew := hs.decoder.start (hs.closedDecoder (.inr hloop)) ok
    have hnext : (if ok = true then Loop.replacingOutput else .failing) ≠ .startingDecoder ∧
        (if ok = true then Loop.replacingOutput else .failing) ≠ .startingOutput := by
      split <;> exact ⟨Loop.noConfusion, Loop.noConfusion⟩
    refine Option.some.inj h ▸ hs.touchDecoder hmain htouch ⟨?_, hnext.2⟩ hnew.1 ?_
      (fun _ ↦ hnew.2) fun h ↦ absurd h hnext.1
    · rw [hloop]
      exact Loop.noConfusion
    · rw [Slot.misused_start]
      exact hs.clean.1
  | .replacingOutput =>
    simp only [hloop] at h
    refine Option.some.inj h ▸ hs.touchOutput hmain htouch ⟨?_, Loop.noConfusion⟩
      hs.output.close.1 ?_ (fun hne ↦ absurd rfl hne) fun _ ↦ hs.output.close.2
    · rw [hloop]
      exact Loop.noConfusion
    · rw [Slot.misused_close]
      exact hs.clean.2
  | .startingOutput =>
    simp only [hloop] at h
    have hnew := hs.output.start (hs.closedOutput (.inr hloop)) ok
    have hnext : (if ok = true then Loop.top else .failing) ≠ .startingDecoder ∧
        (if ok = true then Loop.top else .failing) ≠ .startingOutput := by
      split <;> exact ⟨Loop.noConfusion, Loop.noConfusion⟩
    refine Option.some.inj h ▸ hs.touchOutput hmain htouch ⟨?_, hnext.1⟩ hnew.1 ?_
      (fun _ ↦ hnew.2) fun h ↦ absurd h hnext.2
    · rw [hloop]
      exact Loop.noConfusion
    · rw [Slot.misused_start]
      exact hs.clean.2
  | .decoding =>
    simp only [hloop] at h
    refine Option.some.inj h ▸ hs.useDecoder hmain htouch ?_ ?_
    · rw [hloop]
      exact ⟨Loop.noConfusion, Loop.noConfusion⟩
    · split <;> exact ⟨Loop.noConfusion, Loop.noConfusion⟩
  | .sizing =>
    simp only [hloop] at h
    refine Option.some.inj h ▸ hs.useDecoder hmain htouch ?_ ⟨Loop.noConfusion, Loop.noConfusion⟩
    rw [hloop]
    exact ⟨Loop.noConfusion, Loop.noConfusion⟩
  | .writing =>
    simp only [hloop] at h
    refine Option.some.inj h ▸ hs.useOutput hmain htouch ?_ ?_
    · rw [hloop]
      exact ⟨Loop.noConfusion, Loop.noConfusion⟩
    · split <;> exact ⟨Loop.noConfusion, Loop.noConfusion⟩
  | .top | .reading | .handling _ | .failing | .stopping | .ended =>
    rw [hloop] at htouch
    exact Bool.noConfusion htouch

/-- Another step of the demuxer. -/
theorem demuxer (hs : Inv s) {ok : Bool} (htouch : s.loop.touches = false)
    (h : s.demuxerStep ok = some t) : Inv t := by
  unfold State.demuxerStep at h
  match hloop : s.loop with
  | .top =>
    simp only [hloop] at h
    have hnext : (if s.done = true then Loop.ended else .reading) ≠ .startingDecoder ∧
        (if s.done = true then Loop.ended else .reading) ≠ .startingOutput := by
      split <;> exact ⟨Loop.noConfusion, Loop.noConfusion⟩
    refine Option.some.inj h ▸ hs.move htouch hnext.1 hnext.2 (fun hfatal ↦ ?_) (fun h ↦ h)
      fun hended ↦ ?_
    · obtain hstop | ⟨hdone, -⟩ := hs.failed hfatal
      · rw [hloop] at hstop
        exact Loop.noConfusion hstop
      · exact .inr ⟨hdone, .inr (if_pos hdone)⟩
    · rw [hloop] at hended
      exact Loop.noConfusion hended
  | .reading =>
    simp only [hloop] at h
    have hfrom : s.loop ≠ .stopping ∧ s.loop ≠ .top ∧ s.loop ≠ .ended := by
      rw [hloop]
      exact ⟨Loop.noConfusion, Loop.noConfusion, Loop.noConfusion⟩
    split at h
    · refine Option.some.inj h ▸ hs.advance htouch hfrom ?_ ?_
      all_goals split <;> exact Loop.noConfusion
    · exact Option.some.inj h ▸ hs.advance htouch hfrom Loop.noConfusion Loop.noConfusion
  | .handling p =>
    simp only [hloop] at h
    have hfrom : s.loop ≠ .stopping ∧ s.loop ≠ .top ∧ s.loop ≠ .ended := by
      rw [hloop]
      exact ⟨Loop.noConfusion, Loop.noConfusion, Loop.noConfusion⟩
    have hnext : s.handle p ≠ .startingDecoder ∧ s.handle p ≠ .startingOutput := by
      unfold State.handle
      split_ifs
      all_goals try split
      all_goals exact ⟨Loop.noConfusion, Loop.noConfusion⟩
    exact Option.some.inj h ▸ hs.advance htouch hfrom hnext.1 hnext.2
  | .failing =>
    simp only [hloop] at h
    refine Option.some.inj h ▸ hs.move htouch Loop.noConfusion Loop.noConfusion (fun _ ↦ .inl rfl)
      (fun _ ↦ rfl) fun hended ↦ ?_
    rw [hloop] at hended
    exact Loop.noConfusion hended
  | .stopping =>
    simp only [hloop] at h
    refine Option.some.inj h ▸ hs.move htouch Loop.noConfusion Loop.noConfusion
      (fun _ ↦ .inr ⟨rfl, .inl rfl⟩) (fun h ↦ h) fun hended ↦ ?_
    rw [hloop] at hended
    exact Loop.noConfusion hended
  | .ended =>
    simp only [hloop] at h
    exact absurd h (Option.some_ne_none _).symm
  | .replacingDecoder | .startingDecoder | .replacingOutput | .startingOutput | .decoding | .sizing
  | .writing =>
    rw [hloop] at htouch
    exact Bool.noConfusion htouch

/-- `runMicCapture` moves on without closing anything. -/
theorem moveMain (hs : Inv s) {done cancelledExit : Bool}
    (hdecoder : main.decoderDone = false → s.main.decoderDone = false)
    (hdone : s.done = true → done = true)
    (houtput : main.outputDone = false → s.main.outputDone = false)
    (hclosedDecoder : main.decoderDone = true → s.decoder.AllClosed)
    (hclosedOutput : main.outputDone = true → s.output.AllClosed)
    (hexits : main ≠ .waiting →
      cancelledExit = true ∨ s.fatalErr = true ∨ s.loop = .ended) :
    Inv { s with main := main, done := done, cancelledExit := cancelledExit } where
  decoder := hs.decoder
  output := hs.output
  clean := hs.clean
  liveDecoder h := hs.liveDecoder (hdecoder h)
  liveOutput h := hs.liveOutput (houtput h)
  closedDecoder h := by
    obtain h | h := h
    · exact hclosedDecoder h
    · exact hs.closedDecoder (.inr h)
  closedOutput h := by
    obtain h | h := h
    · exact hclosedOutput h
    · exact hs.closedOutput (.inr h)
  failed h := (hs.failed h).imp_right fun ⟨h, hloop⟩ ↦ ⟨hdone h, hloop⟩
  exits := hexits

/-- The cleanup closes the decoder. -/
theorem closeDecoder (hs : Inv s) (hmain : s.main = .closingDecoder) :
    Inv { s with main := .checkingOutput, decoder := s.decoder.close } where
  decoder := hs.decoder.close.1
  output := hs.output
  clean := ⟨(Slot.misused_close _).trans hs.clean.1, hs.clean.2⟩
  liveDecoder h := Bool.noConfusion h
  liveOutput _ := hs.liveOutput (by rw [hmain]; rfl)
  closedDecoder _ := hs.decoder.close.2
  closedOutput h := hs.closedOutput (h.imp_left fun h ↦ Bool.noConfusion h)
  failed := hs.failed
  exits _ := hs.exits (by rw [hmain]; exact Main.noConfusion)

/-- The cleanup closes the writer. -/
theorem closeOutput (hs : Inv s) (hmain : s.main = .closingOutput) :
    Inv { s with main := .returned, output := s.output.close } where
  decoder := hs.decoder
  output := hs.output.close.1
  clean := ⟨hs.clean.1, (Slot.misused_close _).trans hs.clean.2⟩
  liveDecoder h := Bool.noConfusion h
  liveOutput h := Bool.noConfusion h
  closedDecoder _ := hs.closedDecoder (.inl (by rw [hmain]; rfl))
  closedOutput _ := hs.output.close.2
  failed := hs.failed
  exits _ := hs.exits (by rw [hmain]; exact Main.noConfusion)

/-- A step of `runMicCapture`. -/
theorem mainStep (hs : Inv s) (h : s.mainStep = some t) : Inv t := by
  unfold State.mainStep at h
  match hmain : s.main with
  | .waiting | .returned =>
    simp only [hmain] at h
    exact absurd h (Option.some_ne_none _).symm
  | .cancelling =>
    simp only [hmain] at h
    refine Option.some.inj h ▸ hs.moveMain (fun _ ↦ ?_) (fun _ ↦ rfl) (fun _ ↦ ?_)
      (fun h ↦ Bool.noConfusion h) (fun h ↦ Bool.noConfusion h) fun _ ↦ ?_
    · rw [hmain]; rfl
    · rw [hmain]; rfl
    · exact hs.exits (by rw [hmain]; exact Main.noConfusion)
  | .checkingDecoder =>
    simp only [hmain] at h
    have hexits := hs.exits (by rw [hmain]; exact Main.noConfusion)
    have houtput : s.main.outputDone = false := by rw [hmain]; rfl
    split at h
    · rename_i hnil
      exact Option.some.inj h ▸ hs.moveMain (fun h ↦ Bool.noConfusion h) (fun h ↦ h)
        (fun _ ↦ houtput) (fun _ ↦ hs.decoder.allClosed hnil) (fun h ↦ Bool.noConfusion h)
        fun _ ↦ hexits
    · refine Option.some.inj h ▸ hs.moveMain (fun _ ↦ ?_) (fun h ↦ h) (fun _ ↦ houtput)
        (fun h ↦ Bool.noConfusion h) (fun h ↦ Bool.noConfusion h) fun _ ↦ hexits
      rw [hmain]; rfl
  | .closingDecoder =>
    simp only [hmain] at h
    exact Option.some.inj h ▸ hs.closeDecoder hmain
  | .checkingOutput =>
    simp only [hmain] at h
    have hexits := hs.exits (by rw [hmain]; exact Main.noConfusion)
    have hdecoder := hs.closedDecoder (.inl (by rw [hmain]; rfl))
    split at h
    · rename_i hnil
      exact Option.some.inj h ▸ hs.moveMain (fun h ↦ Bool.noConfusion h) (fun h ↦ h)
        (fun h ↦ Bool.noConfusion h) (fun _ ↦ hdecoder) (fun _ ↦ hs.output.allClosed hnil)
        fun _ ↦ hexits
    · refine Option.some.inj h ▸ hs.moveMain (fun h ↦ Bool.noConfusion h) (fun h ↦ h) (fun _ ↦ ?_)
        (fun _ ↦ hdecoder) (fun h ↦ Bool.noConfusion h) fun _ ↦ hexits
      rw [hmain]; rfl
  | .closingOutput =>
    simp only [hmain] at h
    split at h
    · exact absurd h (Option.some_ne_none _).symm
    · exact Option.some.inj h ▸ hs.closeOutput hmain

/-- A case of the `select`. -/
theorem select (hs : Inv s) (hmain : s.main = .waiting) {e : Exit} (h : s.select e = some t) :
    Inv t := by
  have hdecoder : s.main.decoderDone = false := by rw [hmain]; rfl
  have houtput : s.main.outputDone = false := by rw [hmain]; rfl
  match e with
  | .cancelled =>
    obtain ⟨-, h⟩ := Option.ite_none_right_eq_some.1 h
    exact Option.some.inj h ▸ hs.moveMain (fun _ ↦ hdecoder) (fun h ↦ h) (fun _ ↦ houtput)
      (fun h ↦ Bool.noConfusion h) (fun h ↦ Bool.noConfusion h) fun _ ↦ .inl rfl
  | .fatal =>
    obtain ⟨hfatal, h⟩ := Option.ite_none_right_eq_some.1 h
    exact Option.some.inj h ▸ hs.moveMain (fun _ ↦ hdecoder) (fun h ↦ h) (fun _ ↦ houtput)
      (fun h ↦ Bool.noConfusion h) (fun h ↦ Bool.noConfusion h) fun _ ↦ .inr (.inl hfatal)
  | .ended =>
    obtain ⟨hended, h⟩ := Option.ite_none_right_eq_some.1 h
    exact Option.some.inj h ▸ hs.moveMain (fun _ ↦ hdecoder) (fun h ↦ h) (fun _ ↦ houtput)
      (fun h ↦ Bool.noConfusion h) (fun h ↦ Bool.noConfusion h) fun _ ↦ .inr (.inr hended)

/-- Every step keeps it in which the two are apart. -/
theorem step (hs : Inv s) {l : Label} (hl : apart s l) (h : MicCapture.step s l = some t) :
    Inv t := by
  match l with
  | .cancel =>
    exact Option.some.inj h ▸ ⟨hs.decoder, hs.output, hs.clean, hs.liveDecoder, hs.liveOutput,
      hs.closedDecoder, hs.closedOutput, hs.failed, hs.exits⟩
  | .select e =>
    obtain ⟨hmain, h⟩ := Option.ite_none_right_eq_some.1 h
    exact hs.select hmain h
  | .main => exact hs.mainStep h
  | .demuxer ok =>
    obtain htouch | htouch := Bool.eq_false_or_eq_true s.loop.touches
    · exact hs.touch hl htouch h
    · exact hs.demuxer htouch h
  | .readFails =>
    obtain ⟨hloop, h⟩ := Option.ite_none_right_eq_some.1 h
    have hfrom : s.loop ≠ .stopping ∧ s.loop ≠ .top ∧ s.loop ≠ .ended := by
      rw [hloop]
      exact ⟨Loop.noConfusion, Loop.noConfusion, Loop.noConfusion⟩
    have htouch : s.loop.touches = false := by
      rw [hloop]
      rfl
    exact Option.some.inj h ▸ hs.advance htouch hfrom Loop.noConfusion Loop.noConfusion

/-- What is claimed. -/
theorem tornDown (hs : Inv s) : TornDown s where
  decoder := hs.clean.1
  output := hs.clean.2
  closed hmain _ := by
    constructor
    · exact hs.closedDecoder (.inl (by rw [hmain]; rfl))
    · exact hs.closedOutput (.inl (by rw [hmain]; rfl))

end Inv

/-! ### Every run -/

/-- **The teardown**: in every run in which the handler and the cleanup of a cancelled capture are
apart, nothing is used after it was closed, and everything is closed once both goroutines have
ended. After a failure of the handler and at the end of the demuxer they always are. -/
theorem torn_down {stream : Reader} {ls : List Label} (hls : Along step apart (init stream) ls)
    (h : exec step (init stream) ls = some s) : TornDown s :=
  (exec_invariant_along (fun _ _ _ hl hs h ↦ hs.step hl h) hls (inv_init stream) h).tornDown

/-- A config packet: an `OpusHead` with one channel. -/
def configPacket : Bytes :=
  [0, 0, 0, 3, 64, 0, 0, 0, 0, 0, 0, 0, 0, 0, 0, 19] ++ opusHeadMagic ++
    [1, 1, 0, 0, 128, 187, 0, 0, 0, 0, 0]

/-- A media packet. -/
def mediaPacket : Bytes :=
  [0, 0, 0, 3, 0, 0, 0, 0, 0, 0, 0, 1, 0, 0, 0, 1, 7]

/-- The next steps of the demuxer succeed. -/
def demuxerSteps (n : ℕ) : List Label :=
  List.replicate n (.demuxer true)

/-- A decoder and a writer are started and used, and the stream ends. -/
def orderlyRun : List Label :=
  demuxerSteps 15 ++ [.select .ended, .main, .main, .main, .main]

/-- They are closed. -/
theorem torn_down_orderlyRun :
    ∃ s, exec step (init [configPacket, mediaPacket]) orderlyRun = some s ∧
      s.main = .returned ∧ s.loop = .ended ∧ s.decoder.started = 1 ∧ s.output.started = 1 ∧
      TornDown s :=
  ⟨_, rfl, rfl, rfl, rfl, rfl,
    @torn_down _ [configPacket, mediaPacket] orderlyRun (by decide) rfl⟩

/-- A config packet is read while the capture is cancelled. -/
def overlappingRun : List Label :=
  [.demuxer true, .cancel, .select .cancelled] ++ demuxerSteps 2 ++ [.main, .main, .main] ++
    demuxerSteps 5

/-- **A writer is left open**: both goroutines have ended, and nobody closes the decoder and the
writer that were started for the config packet. -/
theorem writer_left_open :
    ¬∀ (stream : Reader) (ls : List Label) (s : State),
      exec step (init stream) ls = some s → TornDown s := by
  intro hall
  have htorn := (hall [configPacket] overlappingRun _ rfl).closed rfl rfl
  exact Bool.noConfusion (htorn.2 0 Nat.zero_lt_one)

end AllRelay.Media.MicCapture
