import AllRelay.Library.LabelledSystem
import AllRelay.Media.Streamer
import AllRelay.Phone.VideoSize

/-!
# The video encoder of the phone

`WifiSurfaceEncoder.streamCapture` runs on a thread of its own. It configures and starts a
`MediaCodec` and a capture, writes what the codec puts out, and starts over for each reset that
other threads request with `CaptureControl.reset`, and for some of the failures of the platform.
Every call of the platform may throw.

A codec is interrupted by an end of stream. `setRunningMediaCodec` hands the codec to
`CaptureControl` before the thread looks at `isResetRequested`, so a reset is either seen there or
signalled to the codec.
-/

open LabelledSystem Wire

namespace AllRelay.Video

open Media (WifiStreamer BufferInfo bufferFlagCodecConfig)

/-! ### The platform -/

/-- What is thrown. -/
inductive Throwable where
  /-- An `IOException` caused by `EPIPE`. -/
  | brokenPipe
  /-- Any other `IOException`. -/
  | io
  /-- `IllegalStateException`. -/
  | illegalState
  /-- `IllegalArgumentException`. -/
  | illegalArgument
  /-- `ConfigurationException`. -/
  | configuration
  /-- Anything else. -/
  | other
deriving DecidableEq, Repr

/-- The `catch` clause of `streamCapture`. -/
def Throwable.isCaught : Throwable → Bool
  | .brokenPipe | .io | .illegalState | .illegalArgument => true
  | .configuration | .other => false

/-- The states of a `MediaCodec`. -/
inductive CodecState where
  /-- Uninitialized. -/
  | uninitialized
  /-- Configured. -/
  | configured
  /-- Executing; `eos` says that the end of the stream was signalled. -/
  | executing (eos : Bool)
  /-- A call has thrown. -/
  | error
  /-- Released. -/
  | released
deriving DecidableEq, Repr

/-- The calls of a `MediaCodec`. -/
inductive CodecCall where
  /-- `configure`. -/
  | configure
  /-- `createInputSurface`. -/
  | createInputSurface
  /-- `start`. -/
  | start
  /-- `signalEndOfInputStream`. -/
  | signalEndOfInputStream
  /-- `dequeueOutputBuffer`. -/
  | dequeueOutputBuffer
  /-- `getOutputBuffer`. -/
  | getOutputBuffer
  /-- `releaseOutputBuffer`. -/
  | releaseOutputBuffer
  /-- `stop`. -/
  | stop
  /-- `reset`. -/
  | reset
  /-- `release`. -/
  | release
deriving DecidableEq, Repr

/-- The calls that a state permits. A codec of which a call has thrown has lost its state, and may
still be cleaned up: interrupted, given its buffer back, stopped, reset and released. -/
def CodecState.permits : CodecState → CodecCall → Bool
  | .uninitialized, .configure => true
  | .configured, .createInputSurface | .configured, .start => true
  | .executing _, .dequeueOutputBuffer | .executing _, .getOutputBuffer => true
  | .executing _, .releaseOutputBuffer | .error, .releaseOutputBuffer => true
  | .executing _, .signalEndOfInputStream | .error, .signalEndOfInputStream => true
  | .executing _, .stop | .error, .stop => true
  | .released, .reset | .released, .release => false
  | _, .reset | _, .release => true
  | _, _ => false

/-- The state after a call that returns. -/
def CodecState.after (state : CodecState) : CodecCall → CodecState
  | .configure => .configured
  | .start => .executing false
  | .signalEndOfInputStream =>
    match state with
    | .executing _ => .executing true
    | state => state
  | .stop | .reset => .uninitialized
  | .release => .released
  | .createInputSurface | .dequeueOutputBuffer | .getOutputBuffer | .releaseOutputBuffer => state

/-- What becomes of a `SurfaceCapture`. -/
inductive CaptureState where
  /-- `init` has not returned. -/
  | idle
  /-- Initialized. -/
  | initialized
  /-- Released. -/
  | released
deriving DecidableEq, Repr

/-- `MediaCodec.BUFFER_FLAG_END_OF_STREAM`. -/
def bufferFlagEndOfStream : UInt32 := 4

/-! ### The encoder -/

/-- The reasons of `CaptureControl`. -/
inductive Reason where
  /-- `RESET_REASON_TERMINATED`. -/
  | terminated
  /-- `RESET_REASON_DISPLAY_PROPERTIES_CHANGED`. -/
  | displayPropertiesChanged
  /-- `RESET_REASON_CLIENT_RESET`. -/
  | clientReset
  /-- `RESET_REASON_CLIENT_RESIZED`. -/
  | clientResized
deriving DecidableEq, Repr

/-- Their flags. -/
def Reason.flag : Reason → ℕ
  | .terminated => 1
  | .displayPropertiesChanged => 1 <<< 1
  | .clientReset => 1 <<< 2
  | .clientResized => 1 <<< 3

/-- `CaptureControl`. -/
structure CaptureControl where
  /-- `reset`. -/
  reset : ℕ
  /-- `runningMediaCodec` is set. -/
  running : Bool
deriving DecidableEq, Repr

/-- `MAX_SIZE_FALLBACK`. -/
def maxSizeFallback : List ℤ := [2560, 1920, 1600, 1280, 1024, 800]

/-- `MAX_CONSECUTIVE_ERRORS`. -/
def maxConsecutiveErrors : ℕ := 3

/-- `chooseMaxSizeFallback`. -/
def chooseMaxSizeFallback (failedSize : Size) : ℤ :=
  (maxSizeFallback.find? fun value ↦ value < failedSize.getMax).getD 0

/-- What an encoder is created with. -/
structure Config where
  /-- The streamer. -/
  streamer : WifiStreamer
  /-- `createVideoConstraints`. -/
  constraints : VideoConstraints
  /-- `downsizeOnError`. -/
  downsizeOnError : Bool
  /-- `applyNewVideoConstraints` accepts: a `ScreenCapture` always does, a `CameraCapture` does
  unless its size is explicit. -/
  acceptsConstraints : Bool
deriving DecidableEq, Repr

/-- Where the thread is. -/
inductive Pc where
  /-- Before `createMediaCodec`. -/
  | create
  /-- Before `capture.init`. -/
  | init
  /-- Before `writeVideoHeader`. -/
  | header
  /-- Before `consumeReset`. -/
  | consume
  /-- Before `capture.prepare`. -/
  | prepare
  /-- Before `mediaCodec.configure`. -/
  | configure
  /-- Before `createInputSurface`. -/
  | createSurface
  /-- Before `capture.start`. -/
  | startCapture
  /-- Before `mediaCodec.start`. -/
  | startCodec
  /-- Before `setRunningMediaCodec` of the codec. -/
  | setRunning
  /-- Before the first look at `stopped`. -/
  | checkStopped
  /-- Before `isResetRequested`. -/
  | checkReset
  /-- Before `writeSessionMeta`. -/
  | writeMeta
  /-- Before `dequeueOutputBuffer`. -/
  | dequeue
  /-- Before `getOutputBuffer`. -/
  | getBuffer (codecBuffer : Bytes) (info : BufferInfo)
  /-- Before `writePacket`. -/
  | packet (codecBuffer : Bytes) (info : BufferInfo)
  /-- Before `releaseOutputBuffer`, in the `finally` block of `encode`. -/
  | releaseBuffer (eos : Bool) (pending : Option Throwable)
  /-- After `encode`. -/
  | checkAlive
  /-- In the `catch` clause, or past it if it does not catch. -/
  | caught (e : Throwable)
  /-- Before `setRunningMediaCodec` of null. -/
  | clearRunning
  /-- Before `capture.stop`. -/
  | stopCapture
  /-- Before `mediaCodec.stop`. -/
  | stopCodec
  /-- Before `mediaCodec.reset`. -/
  | resetCodec
  /-- Before `surface.release`. -/
  | releaseSurface
  /-- At the end of the loop. -/
  | loop
  /-- Before `mediaCodec.release`. -/
  | releaseCodec
  /-- Before `capture.release`. -/
  | releaseCapture
  /-- Before `onTerminated`. -/
  | notify
  /-- The thread has ended. -/
  | done
deriving DecidableEq, Repr

/-- A run of the encoder. -/
structure State where
  /-- Where the thread is. -/
  pc : Pc
  /-- The codec, once it is created. -/
  codec : Option CodecState
  /-- The capture. -/
  capture : CaptureState
  /-- Its video constraints. -/
  constraints : VideoConstraints
  /-- `captureControl`. -/
  control : CaptureControl
  /-- `stopped`. -/
  stopped : Bool
  /-- `firstFrameSent`. -/
  firstFrameSent : Bool
  /-- `consecutiveErrors`. -/
  consecutiveErrors : ℕ
  /-- `resetReasons`. -/
  resetReasons : ℕ
  /-- `retainedResetReasons`. -/
  retainedResetReasons : ℕ
  /-- `size`. -/
  size : Size
  /-- `surface` is not null. -/
  surface : Bool
  /-- `mediaCodecStarted`. -/
  mediaCodecStarted : Bool
  /-- `captureStarted`. -/
  captureStarted : Bool
  /-- `alive`. -/
  alive : Bool
  /-- What is thrown out of `streamCapture`, or will be. -/
  thrown : Option Throwable
  /-- The bytes on the socket. -/
  wire : Bytes
  /-- A write has failed: the socket takes nothing more. -/
  broken : Bool
  /-- History: the calls of the streamer that have returned. -/
  written : List WifiStreamer.Call
  /-- History: the codec was called in a state that does not permit it. -/
  misused : Bool
  /-- History: the capture is running. -/
  capturing : Bool
  /-- History: the surfaces that are not released. -/
  surfaces : ℕ
  /-- History: a call of a `finally` block has thrown. -/
  cleanupFailed : Bool
  /-- History: the number of resets so far. -/
  requested : ℕ
  /-- History: what it was at the last `capture.prepare`. -/
  prepared : ℕ
  /-- History: a termination was requested. -/
  terminated : Bool
  /-- History: the retries since the last frame. -/
  retries : ℕ
deriving DecidableEq, Repr

/-- Before the thread starts. -/
def State.start (config : Config) : State where
  pc := .create
  codec := none
  capture := .idle
  constraints := config.constraints
  control := ⟨0, false⟩
  stopped := false
  firstFrameSent := false
  consecutiveErrors := 0
  resetReasons := 0
  retainedResetReasons := 0
  size := ⟨0, 0⟩
  surface := false
  mediaCodecStarted := false
  captureStarted := false
  alive := false
  thrown := none
  wire := []
  broken := false
  written := []
  misused := false
  capturing := false
  surfaces := 0
  cleanupFailed := false
  requested := 0
  prepared := 0
  terminated := false
  retries := 0

/-- What the platform answers to a call. -/
inductive Answer where
  /-- It returns. -/
  | returns
  /-- It throws; a write does so after some bytes, but not after all of them. -/
  | throws (e : Throwable) (sent : ℕ)
  /-- `capture.prepare` returns, and this is the size that its filter puts out. -/
  | size (outputSize : Size)
  /-- `dequeueOutputBuffer` returns this index, and this is in the buffer. -/
  | output (index : ℤ) (codecBuffer : Bytes) (info : BufferInfo)
  /-- `capture.isClosed` returns this. -/
  | closed (isClosed : Bool)
deriving DecidableEq, Repr

/-- The steps of the system. -/
inductive Label where
  /-- `CaptureControl.reset` on another thread. -/
  | reset (reason : Reason)
  /-- The first half of `stop`, which is followed by a reset to terminate. -/
  | setStopped
  /-- The thread takes a step. -/
  | thread (answer : Answer)
deriving DecidableEq, Repr

namespace State

variable (s : State) (config : Config)

/-- A call of the codec that returns. -/
def call (codecCall : CodecCall) : State :=
  { s with
    codec := s.codec.map fun state ↦ state.after codecCall
    misused := s.misused || !(s.codec.any fun state ↦ state.permits codecCall) }

/-- A call of the codec that throws. -/
def fail (codecCall : CodecCall) : State :=
  { s with
    codec := some .error
    misused := s.misused || !(s.codec.any fun state ↦ state.permits codecCall) }

/-- A reason is entered into `reset`. -/
def request (reason : Reason) : State :=
  { s with
    control.reset := s.control.reset ||| reason.flag
    requested := s.requested + 1
    terminated := s.terminated || decide (reason = Reason.terminated) }

/-- `CaptureControl.reset`. -/
def reset (reason : Reason) : State :=
  if s.control.running then (s.request reason).call .signalEndOfInputStream else s.request reason

/-- A call of the streamer that returns. -/
def send (call : WifiStreamer.Call) : Option State :=
  match config.streamer.write call with
  | .ok bytes =>
    if s.broken = true ∧ bytes ≠ [] then none
    else some { s with wire := s.wire ++ bytes, written := s.written ++ [call] }
  | .error _ => none

/-- A call of the streamer that throws. -/
def sendPart (call : WifiStreamer.Call) (sent : ℕ) : Option State :=
  match config.streamer.write call with
  | .ok bytes =>
    if s.broken then some s
    else if sent < bytes.length then
      some { s with wire := s.wire ++ bytes.take sent, broken := true }
    else none
  | .error _ => some s

/-- An exception leaves the body of `streamCapture`. -/
def leave (e : Throwable) : State :=
  { s with thrown := some e, pc := .releaseCodec }

/-- The session of the size and the reasons. -/
def sessionMeta : WifiStreamer.Call :=
  .sessionMeta (.ofInt s.size.width) (.ofInt s.size.height)
    (s.resetReasons &&& Reason.clientResized.flag ≠ 0 ∧
      s.resetReasons &&& Reason.displayPropertiesChanged.flag = 0)

/-- `prepareRetry`. -/
def prepareRetry : State × Bool :=
  if s.firstFrameSent then
    ({ s with consecutiveErrors := s.consecutiveErrors + 1 },
      s.consecutiveErrors + 1 < maxConsecutiveErrors)
  else if config.downsizeOnError = false then (s, false)
  else
    let newMaxSize := chooseMaxSizeFallback s.size
    if newMaxSize = 0 then (s, false)
    else if config.acceptsConstraints then
      ({ s with constraints := config.constraints.withMaxSize newMaxSize }, true)
    else (s, false)

/-- The start of `streamCapture`, up to the loop. -/
def startUp (answer : Answer) : Option State :=
  match s.pc, answer with
  | .create, .returns => some { s with codec := some .uninitialized, pc := .init }
  | .create, .throws e _ => some { s with thrown := some e, pc := .notify }
  | .init, .returns => some { s with capture := .initialized, pc := .header }
  -- The `try` block begins behind `capture.init`.
  | .init, .throws e _ => some { s with thrown := some e, pc := .notify }
  | .header, .returns => (s.send config .videoHeader).map fun s ↦ { s with pc := .consume }
  | .header, .throws e sent => (s.sendPart config .videoHeader sent).map fun s ↦ s.leave e
  | _, _ => none

/-- The start of a pass of the loop, up to `encode`. -/
def startPass (answer : Answer) : Option State :=
  match s.pc, answer with
  | .consume, .returns =>
    let resetReasons := s.control.reset
    let s := { s with control.reset := 0 }
    if resetReasons &&& Reason.terminated.flag ≠ 0 then some { s with pc := .releaseCodec }
    else
      some { s with
        resetReasons := resetReasons ||| s.retainedResetReasons
        retainedResetReasons := 0
        pc := .prepare }
  | .prepare, .size outputSize =>
    some { s with
      size := outputSize.constrain s.constraints
      prepared := s.requested
      surface := false
      mediaCodecStarted := false
      captureStarted := false
      pc := .configure }
  | .prepare, .throws e _ => some (s.leave e)
  | .configure, .returns => some { s.call .configure with pc := .createSurface }
  | .configure, .throws e _ => some { s.fail .configure with pc := .caught e }
  | .createSurface, .returns =>
    some { s.call .createInputSurface with
      surface := true
      surfaces := s.surfaces + 1
      pc := .startCapture }
  | .createSurface, .throws e _ => some { s.fail .createInputSurface with pc := .caught e }
  | .startCapture, .returns =>
    some { s with captureStarted := true, capturing := true, pc := .startCodec }
  | .startCapture, .throws e _ => some { s with pc := .caught e }
  | .startCodec, .returns =>
    some { s.call .start with mediaCodecStarted := true, pc := .setRunning }
  | .startCodec, .throws e _ => some { s.fail .start with pc := .caught e }
  | .setRunning, .returns => some { s with control.running := true, pc := .checkStopped }
  | .checkStopped, .returns =>
    some (if s.stopped then { s with alive := false, pc := .clearRunning }
      else { s with pc := .checkReset })
  | .checkReset, .returns =>
    some (if s.control.reset = 0 then { s with pc := .writeMeta } else { s with pc := .checkAlive })
  | .writeMeta, .returns => (s.send config s.sessionMeta).map fun s ↦ { s with pc := .dequeue }
  | .writeMeta, .throws e sent =>
    (s.sendPart config s.sessionMeta sent).map fun s ↦ { s with pc := .caught e }
  | _, _ => none

/-- `encode`. -/
def encode (answer : Answer) : Option State :=
  match s.pc, answer with
  | .dequeue, .output index codecBuffer info =>
    let s := s.call .dequeueOutputBuffer
    if 0 ≤ index ∧ 0 < info.size then
      let s := if info.flags &&& bufferFlagCodecConfig = 0
        then { s with firstFrameSent := true, consecutiveErrors := 0, retries := 0 } else s
      some { s with pc := .getBuffer codecBuffer info }
    else if 0 ≤ index then
      some { s with pc := .releaseBuffer (info.flags &&& bufferFlagEndOfStream ≠ 0) none }
    else
      some (if info.flags &&& bufferFlagEndOfStream = 0 then s else { s with pc := .checkAlive })
  | .dequeue, .throws e _ => some { s.fail .dequeueOutputBuffer with pc := .caught e }
  | .getBuffer codecBuffer info, .returns =>
    some { s.call .getOutputBuffer with pc := .packet codecBuffer info }
  | .getBuffer _ info, .throws e _ =>
    some { s.fail .getOutputBuffer with
      pc := .releaseBuffer (info.flags &&& bufferFlagEndOfStream ≠ 0) (some e) }
  | .packet codecBuffer info, .returns =>
    (s.send config (.codecPacket codecBuffer info)).map fun s ↦
      { s with pc := .releaseBuffer (info.flags &&& bufferFlagEndOfStream ≠ 0) none }
  | .packet codecBuffer info, .throws e sent =>
    (s.sendPart config (.codecPacket codecBuffer info) sent).map fun s ↦
      { s with pc := .releaseBuffer (info.flags &&& bufferFlagEndOfStream ≠ 0) (some e) }
  | .releaseBuffer eos pending, .returns =>
    let s := s.call .releaseOutputBuffer
    match pending with
    | some e => some { s with pc := .caught e }
    | none => some (if eos then { s with pc := .checkAlive } else { s with pc := .dequeue })
  | .releaseBuffer _ _, .throws e _ => some { s.fail .releaseOutputBuffer with pc := .caught e }
  | _, _ => none

/-- The end of a pass of the loop. -/
def finishPass (answer : Answer) : Option State :=
  match s.pc, answer with
  | .checkAlive, .closed isClosed =>
    some { s with alive := !s.stopped && !isClosed, pc := .clearRunning }
  | .caught e, .returns =>
    if e = .brokenPipe ∨ e.isCaught = false then
      some { s with thrown := some e, pc := .clearRunning }
    else
      let attempt := s.prepareRetry config
      some (if attempt.2 then
          { attempt.1 with
            retainedResetReasons := s.resetReasons
            alive := true
            retries := s.retries + 1
            pc := .clearRunning }
        else { attempt.1 with thrown := some e, pc := .clearRunning })
  | .clearRunning, .returns => some { s with control.running := false, pc := .stopCapture }
  | .stopCapture, .returns =>
    some { s with capturing := s.capturing && !s.captureStarted, pc := .stopCodec }
  | .stopCapture, .throws e _ =>
    if s.captureStarted then some { s.leave e with cleanupFailed := true } else none
  | .stopCodec, .returns =>
    some { (if s.mediaCodecStarted then s.call .stop else s) with pc := .resetCodec }
  | .stopCodec, .throws e _ =>
    if s.mediaCodecStarted = false then none
    -- An `IllegalStateException` is ignored.
    else if e = .illegalState then some { s.fail .stop with pc := .resetCodec }
    else some { (s.fail .stop).leave e with cleanupFailed := true }
  | .resetCodec, .returns => some { s.call .reset with pc := .releaseSurface }
  | .resetCodec, .throws e _ => some { (s.fail .reset).leave e with cleanupFailed := true }
  | .releaseSurface, .returns =>
    some { s with surfaces := if s.surface then s.surfaces - 1 else s.surfaces, pc := .loop }
  | .loop, .returns =>
    some (if s.thrown = none ∧ s.alive then { s with pc := .consume }
      else { s with pc := .releaseCodec })
  | _, _ => none

/-- The end of the thread. -/
def finish (answer : Answer) : Option State :=
  match s.pc, answer with
  | .releaseCodec, .returns => some { s.call .release with pc := .releaseCapture }
  | .releaseCapture, .returns => some { s with capture := .released, pc := .notify }
  | .releaseCapture, .throws e _ =>
    some { s with capture := .released, thrown := some e, cleanupFailed := true, pc := .notify }
  | .notify, .returns => some { s with pc := .done }
  | _, _ => none

/-- A step of the thread. -/
def advance (answer : Answer) : Option State :=
  match s.pc with
  | .create | .init | .header => s.startUp config answer
  | .consume | .prepare | .configure | .createSurface | .startCapture | .startCodec | .setRunning
  | .checkStopped | .checkReset | .writeMeta => s.startPass config answer
  | .dequeue | .getBuffer .. | .packet .. | .releaseBuffer .. => s.encode config answer
  | .checkAlive | .caught _ | .clearRunning | .stopCapture | .stopCodec | .resetCodec
  | .releaseSurface | .loop => s.finishPass config answer
  | .releaseCodec | .releaseCapture | .notify | .done => s.finish answer

/-- One step of the system. -/
def step (s : State) : Label → Option State
  | .reset reason => some (s.reset reason)
  | .setStopped => some { s with stopped := true }
  | .thread answer => s.advance config answer

/-! ### What is held -/

/-- The codec can be reset, and stopped if it was started. -/
def Live : Prop :=
  ∃ state, s.codec = some state ∧ state ≠ .released ∧
    (s.mediaCodecStarted = true → state.permits .stop = true)

/-- What the local variables of a pass say is so. -/
structure Holds : Prop where
  /-- The capture is initialized. -/
  capture : s.capture = .initialized
  /-- It is running if it was started. -/
  capturing : s.capturing = s.captureStarted
  /-- There is one surface, or none. -/
  surfaces : s.surfaces = s.surface.toNat

/-- What has been started. -/
structure Started (running mediaCodecStarted captureStarted surface : Bool) : Prop
    extends Holds s where
  /-- `runningMediaCodec`. -/
  running : s.control.running = running
  /-- The codec. -/
  mediaCodecStarted : s.mediaCodecStarted = mediaCodecStarted
  /-- The capture. -/
  captureStarted : s.captureStarted = captureStarted
  /-- The surface. -/
  surface : s.surface = surface

/-- Nothing is held. -/
structure Free : Prop where
  /-- No codec is interrupted. -/
  running : s.control.running = false
  /-- The capture does not run. -/
  capturing : s.capturing = false
  /-- There is no surface. -/
  surfaces : s.surfaces = 0

/-- From here on, a reset interrupts the codec. -/
def Signalled : Prop :=
  ∃ eos, s.codec = some (.executing eos) ∧ (s.control.reset ≠ 0 → eos = true)

/-- What is held at each place of the thread. -/
def HeldAt : Pc → Prop
  | .create => s.codec = none ∧ s.capture = .idle ∧ s.Free
  | .init => s.codec = some .uninitialized ∧ s.capture = .idle ∧ s.Free
  | .header | .consume | .prepare | .loop =>
    s.codec = some .uninitialized ∧ s.capture = .initialized ∧ s.Free
  | .configure => s.codec = some .uninitialized ∧ s.Started false false false false
  | .createSurface => s.codec = some .configured ∧ s.Started false false false false
  | .startCapture => s.codec = some .configured ∧ s.Started false false false true
  | .startCodec => s.codec = some .configured ∧ s.Started false false true true
  | .setRunning => s.codec = some (.executing false) ∧ s.Started false true true true
  | .checkStopped | .checkReset | .checkAlive =>
    (∃ eos, s.codec = some (.executing eos)) ∧ s.Started true true true true
  | .writeMeta | .dequeue | .getBuffer .. | .packet .. =>
    s.Signalled ∧ s.Started true true true true
  | .releaseBuffer _ pending =>
    (s.Signalled ∨ s.codec = some .error ∧ pending ≠ none) ∧ s.Started true true true true
  | .caught _ | .clearRunning =>
    s.Live ∧ s.Holds ∧ (s.control.running = true → s.mediaCodecStarted = true)
  | .stopCapture => s.Live ∧ s.Holds ∧ s.control.running = false
  | .stopCodec =>
    s.Live ∧ s.capture = .initialized ∧ s.control.running = false ∧ s.capturing = false ∧
      s.surfaces = s.surface.toNat
  | .resetCodec =>
    (∃ state, s.codec = some state ∧ state ≠ .released) ∧ s.capture = .initialized ∧
      s.control.running = false ∧ s.capturing = false ∧ s.surfaces = s.surface.toNat
  | .releaseSurface =>
    s.codec = some .uninitialized ∧ s.capture = .initialized ∧ s.control.running = false ∧
      s.capturing = false ∧ s.surfaces = s.surface.toNat
  | .releaseCodec =>
    (∃ state, s.codec = some state ∧ state ≠ .released) ∧ s.capture = .initialized ∧
      s.control.running = false ∧ (s.cleanupFailed = false → s.Free)
  | .releaseCapture =>
    s.codec = some .released ∧ s.capture = .initialized ∧ s.control.running = false ∧
      (s.cleanupFailed = false → s.Free)
  | .notify | .done =>
    (s.codec ≠ some .released ∧ s.capture = .idle ∨
      s.codec = some .released ∧ s.capture = .released) ∧
      s.control.running = false ∧ (s.cleanupFailed = false → s.Free)

/-- What is held where the thread is. -/
def Held : Prop := s.HeldAt s.pc

/-! ### Each step keeps what is held -/

variable {s config} {t : State} {answer : Answer}

theorem call_codec {state : CodecState} {codecCall : CodecCall} (hcodec : s.codec = some state) :
    (s.call codecCall).codec = some (state.after codecCall) := by
  rw [call, hcodec]
  rfl

theorem call_misused {state : CodecState} {codecCall : CodecCall} (hcodec : s.codec = some state)
    (hpermits : state.permits codecCall = true) : (s.call codecCall).misused = s.misused := by
  simp [call, hcodec, hpermits]

theorem fail_misused {state : CodecState} {codecCall : CodecCall} (hcodec : s.codec = some state)
    (hpermits : state.permits codecCall = true) : (s.fail codecCall).misused = s.misused := by
  simp [fail, hcodec, hpermits]

theorem permits_reset {state : CodecState} (h : state ≠ .released) :
    state.permits .reset = true := by
  cases state with
  | released => exact absurd rfl h
  | uninitialized | configured | executing | error => rfl

theorem permits_release {state : CodecState} (h : state ≠ .released) :
    state.permits .release = true := by
  cases state with
  | released => exact absurd rfl h
  | uninitialized | configured | executing | error => rfl

theorem send_eq {call : WifiStreamer.Call} (h : s.send config call = some t) :
    ∃ bytes, config.streamer.write call = .ok bytes ∧ (s.broken = true → bytes = []) ∧
      t = { s with wire := s.wire ++ bytes, written := s.written ++ [call] } := by
  rw [send] at h
  split at h
  · rename_i bytes hbytes
    split at h
    · cases h
    · rename_i hbroken
      exact ⟨bytes, hbytes, fun hb ↦ by_contra fun hne ↦ hbroken ⟨hb, hne⟩,
        (Option.some.inj h).symm⟩
  · cases h

theorem sendPart_eq {call : WifiStreamer.Call} {sent : ℕ}
    (h : s.sendPart config call sent = some t) :
    t = s ∨ ∃ bytes, config.streamer.write call = .ok bytes ∧ s.broken = false ∧
      sent < bytes.length ∧ t = { s with wire := s.wire ++ bytes.take sent, broken := true } := by
  rw [sendPart] at h
  split at h
  · rename_i bytes hbytes
    split at h
    · exact .inl (Option.some.inj h).symm
    · rename_i hbroken
      split at h
      · rename_i hlt
        exact .inr ⟨bytes, hbytes, eq_false_of_ne_true hbroken, hlt, (Option.some.inj h).symm⟩
      · cases h
  · exact .inl (Option.some.inj h).symm

/-- What a step does to what is held. -/
def Keeps (s t : State) : Prop := t.Held ∧ t.misused = s.misused

theorem keeps_startUp (hs : s.Held) (hstep : s.startUp config answer = some t) : s.Keeps t := by
  rw [startUp.eq_def] at hstep
  split at hstep <;> rename_i hpc <;> simp only [Held, HeldAt, hpc] at hs
  · obtain ⟨-, hcapture, hfree⟩ := hs
    obtain rfl := Option.some.inj hstep
    exact ⟨⟨rfl, hcapture, ⟨hfree.1, hfree.2, hfree.3⟩⟩, rfl⟩
  · obtain ⟨hcodec, hcapture, hfree⟩ := hs
    obtain rfl := Option.some.inj hstep
    refine ⟨⟨.inl ⟨?_, hcapture⟩, hfree.1, fun _ ↦ ⟨hfree.1, hfree.2, hfree.3⟩⟩, rfl⟩
    show s.codec ≠ some .released
    rw [hcodec]
    decide
  · obtain ⟨hcodec, -, hfree⟩ := hs
    obtain rfl := Option.some.inj hstep
    exact ⟨⟨hcodec, rfl, ⟨hfree.1, hfree.2, hfree.3⟩⟩, rfl⟩
  · obtain ⟨hcodec, hcapture, hfree⟩ := hs
    obtain rfl := Option.some.inj hstep
    refine ⟨⟨.inl ⟨?_, hcapture⟩, hfree.1, fun _ ↦ ⟨hfree.1, hfree.2, hfree.3⟩⟩, rfl⟩
    show s.codec ≠ some .released
    rw [hcodec]
    decide
  · obtain ⟨hcodec, hcapture, hfree⟩ := hs
    obtain ⟨u, hu, rfl⟩ := Option.map_eq_some_iff.1 hstep
    obtain ⟨bytes, -, -, rfl⟩ := send_eq hu
    exact ⟨⟨hcodec, hcapture, ⟨hfree.1, hfree.2, hfree.3⟩⟩, rfl⟩
  · obtain ⟨hcodec, hcapture, hfree⟩ := hs
    obtain ⟨u, hu, rfl⟩ := Option.map_eq_some_iff.1 hstep
    obtain rfl | ⟨bytes, -, -, -, rfl⟩ := sendPart_eq hu <;>
      exact ⟨⟨⟨_, hcodec, by decide⟩, hcapture, hfree.1, fun _ ↦ ⟨hfree.1, hfree.2, hfree.3⟩⟩, rfl⟩
  · cases hstep

/-- What `Started` is about. -/
def resources (s : State) : CaptureState × Bool × ℕ × Bool × Bool × Bool × Bool :=
  (s.capture, s.capturing, s.surfaces, s.control.running, s.mediaCodecStarted, s.captureStarted,
    s.surface)

theorem Started.of_eq {running mediaCodecStarted captureStarted surface : Bool}
    (hs : s.Started running mediaCodecStarted captureStarted surface)
    (h : t.resources = s.resources) :
    t.Started running mediaCodecStarted captureStarted surface := by
  simp only [resources, Prod.mk.injEq] at h
  obtain ⟨hcapture, hcapturing, hsurfaces, hrunning, hmediaCodec, hcaptureStarted, hsurface⟩ := h
  exact ⟨⟨hcapture ▸ hs.capture, by rw [hcapturing, hs.capturing, hcaptureStarted],
    by rw [hsurfaces, hs.surfaces, hsurface]⟩, hrunning ▸ hs.running,
    hmediaCodec ▸ hs.mediaCodecStarted, hcaptureStarted ▸ hs.captureStarted,
    hsurface ▸ hs.surface⟩

theorem Free.of_eq (hs : s.Free) (h : t.resources = s.resources) : t.Free := by
  simp only [resources, Prod.mk.injEq] at h
  obtain ⟨-, hcapturing, hsurfaces, hrunning, -⟩ := h
  exact ⟨hrunning ▸ hs.running, hcapturing ▸ hs.capturing, hsurfaces ▸ hs.surfaces⟩

theorem Holds.of_eq (hs : s.Holds) (h : t.resources = s.resources) : t.Holds := by
  simp only [resources, Prod.mk.injEq] at h
  obtain ⟨hcapture, hcapturing, hsurfaces, -, -, hcaptureStarted, hsurface⟩ := h
  exact ⟨hcapture ▸ hs.capture, by rw [hcapturing, hs.capturing, hcaptureStarted],
    by rw [hsurfaces, hs.surfaces, hsurface]⟩

/-- A call of a pass has thrown. -/
theorem Started.caught {running mediaCodecStarted captureStarted surface : Bool}
    (hs : s.Started running mediaCodecStarted captureStarted surface)
    (hrunning : running = true → mediaCodecStarted = true) {state : CodecState}
    (hcodec : t.codec = some state) (hstate : state ≠ .released)
    (hstop : mediaCodecStarted = true → state.permits .stop = true) {e : Throwable}
    (hpc : t.pc = .caught e) (h : t.resources = s.resources) : t.Held := by
  have ht := hs.of_eq h
  rw [Held, hpc]
  exact ⟨⟨state, hcodec, hstate, fun hm ↦ hstop (ht.mediaCodecStarted.symm.trans hm)⟩,
    ht.toHolds, fun hr ↦ ht.mediaCodecStarted.trans (hrunning (ht.running.symm.trans hr))⟩

theorem keeps_startPass (hs : s.Held) (hstep : s.startPass config answer = some t) :
    s.Keeps t := by
  rw [startPass.eq_def] at hstep
  split at hstep <;> rename_i hpc <;> simp only [Held, HeldAt, hpc] at hs
  · obtain ⟨hcodec, hcapture, hfree⟩ := hs
    dsimp only at hstep
    split at hstep <;> obtain rfl := Option.some.inj hstep
    · exact ⟨⟨⟨_, hcodec, by decide⟩, hcapture, hfree.1, fun _ ↦ ⟨hfree.1, hfree.2, hfree.3⟩⟩, rfl⟩
    · exact ⟨⟨hcodec, hcapture, ⟨hfree.1, hfree.2, hfree.3⟩⟩, rfl⟩
  · obtain ⟨hcodec, hcapture, hfree⟩ := hs
    obtain rfl := Option.some.inj hstep
    exact ⟨⟨hcodec, ⟨⟨hcapture, hfree.2, hfree.3⟩, hfree.1, rfl, rfl, rfl⟩⟩, rfl⟩
  · obtain ⟨hcodec, hcapture, hfree⟩ := hs
    obtain rfl := Option.some.inj hstep
    exact ⟨⟨⟨_, hcodec, by decide⟩, hcapture, hfree.1, fun _ ↦ ⟨hfree.1, hfree.2, hfree.3⟩⟩, rfl⟩
  · obtain ⟨hcodec, hstarted⟩ := hs
    obtain rfl := Option.some.inj hstep
    exact ⟨⟨call_codec hcodec, hstarted.of_eq rfl⟩, call_misused hcodec rfl⟩
  · obtain ⟨hcodec, hstarted⟩ := hs
    obtain rfl := Option.some.inj hstep
    exact ⟨hstarted.caught (fun h ↦ h) rfl (by decide) (fun _ ↦ rfl) rfl rfl,
      fail_misused hcodec rfl⟩
  · obtain ⟨hcodec, hstarted⟩ := hs
    obtain rfl := Option.some.inj hstep
    refine ⟨⟨call_codec hcodec, ⟨hstarted.capture, hstarted.capturing, ?_⟩, hstarted.running,
      hstarted.mediaCodecStarted, hstarted.captureStarted, rfl⟩, call_misused hcodec rfl⟩
    show s.surfaces + 1 = 1
    rw [hstarted.surfaces, hstarted.surface]
    rfl
  · obtain ⟨hcodec, hstarted⟩ := hs
    obtain rfl := Option.some.inj hstep
    exact ⟨hstarted.caught (fun h ↦ h) rfl (by decide) (fun _ ↦ rfl) rfl rfl,
      fail_misused hcodec rfl⟩
  · obtain ⟨hcodec, hstarted⟩ := hs
    obtain rfl := Option.some.inj hstep
    exact ⟨⟨hcodec, ⟨hstarted.capture, rfl, hstarted.surfaces⟩, hstarted.running,
      hstarted.mediaCodecStarted, rfl, hstarted.surface⟩, rfl⟩
  · obtain ⟨hcodec, hstarted⟩ := hs
    obtain rfl := Option.some.inj hstep
    exact ⟨hstarted.caught (fun h ↦ h) hcodec (by decide) (fun h ↦ nomatch h) rfl rfl, rfl⟩
  · obtain ⟨hcodec, hstarted⟩ := hs
    obtain rfl := Option.some.inj hstep
    exact ⟨⟨call_codec hcodec, ⟨hstarted.capture, hstarted.capturing, hstarted.surfaces⟩,
      hstarted.running, rfl, hstarted.captureStarted, hstarted.surface⟩, call_misused hcodec rfl⟩
  · obtain ⟨hcodec, hstarted⟩ := hs
    obtain rfl := Option.some.inj hstep
    exact ⟨hstarted.caught (fun h ↦ h) rfl (by decide) (fun _ ↦ rfl) rfl rfl,
      fail_misused hcodec rfl⟩
  · obtain ⟨hcodec, hstarted⟩ := hs
    obtain rfl := Option.some.inj hstep
    exact ⟨⟨⟨_, hcodec⟩, ⟨hstarted.capture, hstarted.capturing, hstarted.surfaces⟩, rfl,
      hstarted.mediaCodecStarted, hstarted.captureStarted, hstarted.surface⟩, rfl⟩
  · obtain ⟨⟨eos, hcodec⟩, hstarted⟩ := hs
    obtain rfl := Option.some.inj hstep
    split
    · exact ⟨⟨⟨_, hcodec, by simp, fun _ ↦ rfl⟩, ⟨hstarted.capture, hstarted.capturing,
        hstarted.surfaces⟩, fun _ ↦ hstarted.mediaCodecStarted⟩, rfl⟩
    · exact ⟨⟨⟨eos, hcodec⟩, hstarted.of_eq rfl⟩, rfl⟩
  · obtain ⟨⟨eos, hcodec⟩, hstarted⟩ := hs
    obtain rfl := Option.some.inj hstep
    split
    · rename_i hreset
      exact ⟨⟨⟨eos, hcodec, fun h ↦ absurd hreset h⟩, hstarted.of_eq rfl⟩, rfl⟩
    · exact ⟨⟨⟨eos, hcodec⟩, hstarted.of_eq rfl⟩, rfl⟩
  · obtain ⟨⟨eos, hcodec, heos⟩, hstarted⟩ := hs
    obtain ⟨u, hu, rfl⟩ := Option.map_eq_some_iff.1 hstep
    obtain ⟨bytes, -, -, rfl⟩ := send_eq hu
    exact ⟨⟨⟨eos, hcodec, heos⟩, hstarted.of_eq rfl⟩, rfl⟩
  · obtain ⟨⟨eos, hcodec, -⟩, hstarted⟩ := hs
    obtain ⟨u, hu, rfl⟩ := Option.map_eq_some_iff.1 hstep
    obtain rfl | ⟨bytes, -, -, -, rfl⟩ := sendPart_eq hu <;>
      exact ⟨hstarted.caught (fun h ↦ h) hcodec (by simp) (fun _ ↦ rfl) rfl rfl, rfl⟩
  · cases hstep

theorem keeps_encode (hs : s.Held) (hstep : s.encode config answer = some t) : s.Keeps t := by
  rw [encode.eq_def] at hstep
  split at hstep <;> rename_i hpc <;> simp only [Held, HeldAt, hpc] at hs
  · obtain ⟨⟨eos, hcodec, heos⟩, hstarted⟩ := hs
    have hcall : (s.call .dequeueOutputBuffer).codec = some (.executing eos) := call_codec hcodec
    have hmisused : (s.call .dequeueOutputBuffer).misused = s.misused := call_misused hcodec rfl
    dsimp only at hstep
    split at hstep
    · obtain rfl := Option.some.inj hstep
      split <;> exact ⟨⟨⟨eos, hcall, heos⟩, hstarted.of_eq rfl⟩, hmisused⟩
    split at hstep <;> obtain rfl := Option.some.inj hstep
    · exact ⟨⟨.inl ⟨eos, hcall, heos⟩, hstarted.of_eq rfl⟩, hmisused⟩
    · split
      · refine ⟨?_, hmisused⟩
        rw [Held, show (s.call .dequeueOutputBuffer).pc = .dequeue from hpc]
        exact ⟨⟨eos, hcall, heos⟩, hstarted.of_eq rfl⟩
      · exact ⟨⟨⟨eos, hcall⟩, hstarted.of_eq rfl⟩, hmisused⟩
  · obtain ⟨⟨eos, hcodec, -⟩, hstarted⟩ := hs
    obtain rfl := Option.some.inj hstep
    exact ⟨hstarted.caught (fun h ↦ h) rfl (by decide) (fun _ ↦ rfl) rfl rfl,
      fail_misused hcodec rfl⟩
  · obtain ⟨⟨eos, hcodec, heos⟩, hstarted⟩ := hs
    obtain rfl := Option.some.inj hstep
    exact ⟨⟨⟨eos, call_codec hcodec, heos⟩, hstarted.of_eq rfl⟩, call_misused hcodec rfl⟩
  · obtain ⟨⟨eos, hcodec, -⟩, hstarted⟩ := hs
    obtain rfl := Option.some.inj hstep
    exact ⟨⟨.inr ⟨rfl, Option.some_ne_none _⟩, hstarted.of_eq rfl⟩, fail_misused hcodec rfl⟩
  · obtain ⟨⟨eos, hcodec, heos⟩, hstarted⟩ := hs
    obtain ⟨u, hu, rfl⟩ := Option.map_eq_some_iff.1 hstep
    obtain ⟨bytes, -, -, rfl⟩ := send_eq hu
    exact ⟨⟨.inl ⟨eos, hcodec, heos⟩, hstarted.of_eq rfl⟩, rfl⟩
  · obtain ⟨⟨eos, hcodec, heos⟩, hstarted⟩ := hs
    obtain ⟨u, hu, rfl⟩ := Option.map_eq_some_iff.1 hstep
    obtain rfl | ⟨bytes, -, -, -, rfl⟩ := sendPart_eq hu <;>
      exact ⟨⟨.inl ⟨eos, hcodec, heos⟩, hstarted.of_eq rfl⟩, rfl⟩
  · obtain ⟨hcodec, hstarted⟩ := hs
    dsimp only at hstep
    obtain ⟨eos, hcodec, heos⟩ | ⟨hcodec, hpending⟩ := hcodec
    · have hcall : (s.call .releaseOutputBuffer).codec = some (.executing eos) := call_codec hcodec
      have hmisused : (s.call .releaseOutputBuffer).misused = s.misused := call_misused hcodec rfl
      split at hstep <;> obtain rfl := Option.some.inj hstep
      · exact ⟨hstarted.caught (fun h ↦ h) hcall (by simp) (fun _ ↦ rfl) rfl rfl, hmisused⟩
      · split
        · exact ⟨⟨⟨eos, hcall⟩, hstarted.of_eq rfl⟩, hmisused⟩
        · exact ⟨⟨⟨eos, hcall, heos⟩, hstarted.of_eq rfl⟩, hmisused⟩
    · -- `getOutputBuffer` has thrown.
      split at hstep
      · obtain rfl := Option.some.inj hstep
        exact ⟨hstarted.caught (fun h ↦ h) (call_codec hcodec) (by decide) (fun _ ↦ rfl) rfl rfl,
          call_misused hcodec rfl⟩
      · exact absurd rfl hpending
  · obtain ⟨hcodec, hstarted⟩ := hs
    obtain rfl := Option.some.inj hstep
    refine ⟨hstarted.caught (fun h ↦ h) rfl (by decide) (fun _ ↦ rfl) rfl rfl, ?_⟩
    obtain ⟨eos, hcodec, -⟩ | ⟨hcodec, -⟩ := hcodec <;> exact fail_misused hcodec rfl
  · cases hstep

/-- `prepareRetry` keeps everything but the constraints and the number of errors. -/
theorem prepareRetry_eq (s : State) (config : Config) : ∃ constraints errors,
    (s.prepareRetry config).1 = { s with constraints, consecutiveErrors := errors } := by
  rw [prepareRetry]
  split
  · exact ⟨s.constraints, _, rfl⟩
  split
  · exact ⟨s.constraints, s.consecutiveErrors, rfl⟩
  dsimp only
  split
  · exact ⟨s.constraints, s.consecutiveErrors, rfl⟩
  split
  · exact ⟨_, s.consecutiveErrors, rfl⟩
  · exact ⟨s.constraints, s.consecutiveErrors, rfl⟩

theorem keeps_finishPass (hs : s.Held) (hstep : s.finishPass config answer = some t) :
    s.Keeps t := by
  rw [finishPass.eq_def] at hstep
  split at hstep <;> rename_i hpc <;> simp only [Held, HeldAt, hpc] at hs
  · obtain ⟨⟨eos, hcodec⟩, hstarted⟩ := hs
    obtain rfl := Option.some.inj hstep
    exact ⟨⟨⟨_, hcodec, by simp, fun _ ↦ rfl⟩, ⟨hstarted.capture, hstarted.capturing,
      hstarted.surfaces⟩, fun _ ↦ hstarted.mediaCodecStarted⟩, rfl⟩
  · obtain ⟨⟨state, hcodec, hstate, hstop⟩, hholds, hrunning⟩ := hs
    split at hstep
    · obtain rfl := Option.some.inj hstep
      exact ⟨⟨⟨state, hcodec, hstate, hstop⟩, ⟨hholds.1, hholds.2, hholds.3⟩, hrunning⟩, rfl⟩
    · obtain ⟨constraints, errors, heq⟩ := prepareRetry_eq s config
      simp only [heq] at hstep
      obtain rfl := Option.some.inj hstep
      split <;> exact ⟨⟨⟨state, hcodec, hstate, hstop⟩, ⟨hholds.1, hholds.2, hholds.3⟩, hrunning⟩,
        rfl⟩
  · obtain ⟨⟨state, hcodec, hstate, hstop⟩, hholds, -⟩ := hs
    obtain rfl := Option.some.inj hstep
    exact ⟨⟨⟨state, hcodec, hstate, hstop⟩, ⟨hholds.1, hholds.2, hholds.3⟩, rfl⟩, rfl⟩
  · obtain ⟨⟨state, hcodec, hstate, hstop⟩, hholds, hrunning⟩ := hs
    obtain rfl := Option.some.inj hstep
    refine ⟨⟨⟨state, hcodec, hstate, hstop⟩, hholds.capture, hrunning, ?_, hholds.surfaces⟩, rfl⟩
    show (s.capturing && !s.captureStarted) = false
    rw [hholds.capturing, Bool.and_not_self]
  · obtain ⟨⟨state, hcodec, hstate, hstop⟩, hholds, hrunning⟩ := hs
    split at hstep
    · obtain rfl := Option.some.inj hstep
      exact ⟨⟨⟨state, hcodec, hstate⟩, hholds.capture, hrunning, fun h ↦ nomatch h⟩, rfl⟩
    · cases hstep
  · obtain ⟨⟨state, hcodec, hstate, hstop⟩, hcapture, hrunning, hcapturing, hsurfaces⟩ := hs
    obtain rfl := Option.some.inj hstep
    split
    · rename_i hstarted
      exact ⟨⟨⟨_, call_codec hcodec, CodecState.noConfusion⟩, hcapture, hrunning, hcapturing,
        hsurfaces⟩, call_misused hcodec (hstop hstarted)⟩
    · exact ⟨⟨⟨state, hcodec, hstate⟩, hcapture, hrunning, hcapturing, hsurfaces⟩, rfl⟩
  · obtain ⟨⟨state, hcodec, hstate, hstop⟩, hcapture, hrunning, hcapturing, hsurfaces⟩ := hs
    split at hstep
    · cases hstep
    rename_i hstarted
    have hmisused := fail_misused hcodec (hstop (eq_true_of_ne_false hstarted))
    split at hstep <;> obtain rfl := Option.some.inj hstep
    · exact ⟨⟨⟨_, rfl, CodecState.noConfusion⟩, hcapture, hrunning, hcapturing, hsurfaces⟩,
        hmisused⟩
    · exact ⟨⟨⟨_, rfl, CodecState.noConfusion⟩, hcapture, hrunning, fun h ↦ nomatch h⟩, hmisused⟩
  · obtain ⟨⟨state, hcodec, hstate⟩, hcapture, hrunning, hcapturing, hsurfaces⟩ := hs
    obtain rfl := Option.some.inj hstep
    exact ⟨⟨call_codec hcodec, hcapture, hrunning, hcapturing, hsurfaces⟩,
      call_misused hcodec (permits_reset hstate)⟩
  · obtain ⟨⟨state, hcodec, hstate⟩, hcapture, hrunning, -, -⟩ := hs
    obtain rfl := Option.some.inj hstep
    exact ⟨⟨⟨_, rfl, CodecState.noConfusion⟩, hcapture, hrunning, fun h ↦ nomatch h⟩,
      fail_misused hcodec (permits_reset hstate)⟩
  · obtain ⟨hcodec, hcapture, hrunning, hcapturing, hsurfaces⟩ := hs
    obtain rfl := Option.some.inj hstep
    refine ⟨⟨hcodec, hcapture, hrunning, hcapturing, ?_⟩, rfl⟩
    show (if s.surface then s.surfaces - 1 else s.surfaces) = 0
    rw [hsurfaces]
    cases s.surface <;> rfl
  · obtain ⟨hcodec, hcapture, hfree⟩ := hs
    obtain rfl := Option.some.inj hstep
    split
    · exact ⟨⟨hcodec, hcapture, ⟨hfree.1, hfree.2, hfree.3⟩⟩, rfl⟩
    · exact ⟨⟨⟨_, hcodec, CodecState.noConfusion⟩, hcapture, hfree.1,
        fun _ ↦ ⟨hfree.1, hfree.2, hfree.3⟩⟩, rfl⟩
  · cases hstep

theorem keeps_finish (hs : s.Held) (hstep : s.finish answer = some t) : s.Keeps t := by
  rw [finish.eq_def] at hstep
  split at hstep <;> rename_i hpc <;> simp only [Held, HeldAt, hpc] at hs
  · obtain ⟨⟨state, hcodec, hstate⟩, hcapture, hrunning, hfree⟩ := hs
    obtain rfl := Option.some.inj hstep
    exact ⟨⟨call_codec hcodec, hcapture, hrunning, fun h ↦ ⟨(hfree h).1, (hfree h).2, (hfree h).3⟩⟩,
      call_misused hcodec (permits_release hstate)⟩
  · obtain ⟨hcodec, hcapture, hrunning, hfree⟩ := hs
    obtain rfl := Option.some.inj hstep
    exact ⟨⟨.inr ⟨hcodec, rfl⟩, hrunning, fun h ↦ ⟨(hfree h).1, (hfree h).2, (hfree h).3⟩⟩, rfl⟩
  · obtain ⟨hcodec, hcapture, hrunning, hfree⟩ := hs
    obtain rfl := Option.some.inj hstep
    exact ⟨⟨.inr ⟨hcodec, rfl⟩, hrunning, fun h ↦ nomatch h⟩, rfl⟩
  · obtain ⟨hended, hrunning, hfree⟩ := hs
    obtain rfl := Option.some.inj hstep
    exact ⟨⟨hended, hrunning, fun h ↦ ⟨(hfree h).1, (hfree h).2, (hfree h).3⟩⟩, rfl⟩
  · cases hstep

theorem keeps_advance (hs : s.Held) (hstep : s.advance config answer = some t) : s.Keeps t := by
  rw [advance.eq_def] at hstep
  split at hstep
  all_goals first
    | exact keeps_startUp hs hstep
    | exact keeps_startPass hs hstep
    | exact keeps_encode hs hstep
    | exact keeps_finishPass hs hstep
    | exact keeps_finish hs hstep

/-! ### Other threads keep it, too -/

theorem signal_ne_released {state : CodecState} (h : state ≠ .released) :
    state.after .signalEndOfInputStream ≠ .released := by
  cases state with
  | executing eos => exact CodecState.noConfusion
  | uninitialized | configured | error | released => exact h

theorem signal_permits_stop {state : CodecState} (h : state.permits .stop = true) :
    (state.after .signalEndOfInputStream).permits .stop = true := by
  cases state with
  | executing eos => rfl
  | uninitialized | configured | error | released => exact h

theorem permits_signal {state : CodecState} (h : state.permits .stop = true) :
    state.permits .signalEndOfInputStream = true := by
  cases state with
  | executing eos => rfl
  | error => rfl
  | uninitialized | configured | released => exact h

/-- What `Held` is about, besides the codec. -/
structure SameHeld (s t : State) : Prop where
  /-- The thread has not moved. -/
  pc : t.pc = s.pc
  /-- It holds what it held. -/
  resources : t.resources = s.resources
  /-- No call has thrown. -/
  cleanupFailed : t.cleanupFailed = s.cleanupFailed

theorem SameHeld.capture (h : s.SameHeld t) : t.capture = s.capture :=
  congrArg Prod.fst h.resources

theorem SameHeld.capturing (h : s.SameHeld t) : t.capturing = s.capturing :=
  congrArg (·.2.1) h.resources

theorem SameHeld.surfaces (h : s.SameHeld t) : t.surfaces = s.surfaces :=
  congrArg (·.2.2.1) h.resources

theorem SameHeld.running (h : s.SameHeld t) : t.control.running = s.control.running :=
  congrArg (·.2.2.2.1) h.resources

theorem SameHeld.mediaCodecStarted (h : s.SameHeld t) :
    t.mediaCodecStarted = s.mediaCodecStarted :=
  congrArg (·.2.2.2.2.1) h.resources

theorem SameHeld.surface (h : s.SameHeld t) : t.surface = s.surface :=
  congrArg (·.2.2.2.2.2.2) h.resources

/-- Nothing happens to the codec. -/
theorem SameHeld.heldAt (h : s.SameHeld t) (hcodec : t.codec = s.codec)
    (hreset : s.control.running = true → t.control.reset = s.control.reset) {pc : Pc}
    (hs : s.HeldAt pc) : t.HeldAt pc := by
  have hlive (hl : s.Live) : t.Live := by
    obtain ⟨state, hstate, hne, hstop⟩ := hl
    exact ⟨state, hcodec.trans hstate, hne, fun hm ↦ hstop (h.mediaCodecStarted ▸ hm)⟩
  have hsignalled (hrunning : s.control.running = true) (hl : s.Signalled) : t.Signalled := by
    obtain ⟨eos, heos, himp⟩ := hl
    exact ⟨eos, hcodec.trans heos, fun hne ↦ himp (hreset hrunning ▸ hne)⟩
  cases pc with
  | create | init | header | consume | prepare | loop =>
    exact ⟨hcodec.trans hs.1, h.capture.trans hs.2.1, hs.2.2.of_eq h.resources⟩
  | configure | createSurface | startCapture | startCodec | setRunning =>
    exact ⟨hcodec.trans hs.1, hs.2.of_eq h.resources⟩
  | checkStopped | checkReset | checkAlive =>
    obtain ⟨⟨eos, heos⟩, hstarted⟩ := hs
    exact ⟨⟨eos, hcodec.trans heos⟩, hstarted.of_eq h.resources⟩
  | writeMeta | dequeue | getBuffer | packet =>
    exact ⟨hsignalled hs.2.running hs.1, hs.2.of_eq h.resources⟩
  | releaseBuffer =>
    exact ⟨hs.1.imp (hsignalled hs.2.running) (And.imp_left hcodec.trans), hs.2.of_eq h.resources⟩
  | caught | clearRunning =>
    exact ⟨hlive hs.1, hs.2.1.of_eq h.resources,
      fun hr ↦ h.mediaCodecStarted.trans (hs.2.2 (h.running ▸ hr))⟩
  | stopCapture => exact ⟨hlive hs.1, hs.2.1.of_eq h.resources, h.running.trans hs.2.2⟩
  | stopCodec =>
    obtain ⟨hl, hcapture, hrunning, hcapturing, hsurfaces⟩ := hs
    exact ⟨hlive hl, h.capture.trans hcapture, h.running.trans hrunning,
      h.capturing.trans hcapturing, by rw [h.surfaces, hsurfaces, h.surface]⟩
  | resetCodec | releaseSurface =>
    obtain ⟨hl, hcapture, hrunning, hcapturing, hsurfaces⟩ := hs
    exact ⟨hcodec ▸ hl, h.capture.trans hcapture, h.running.trans hrunning,
      h.capturing.trans hcapturing, by rw [h.surfaces, hsurfaces, h.surface]⟩
  | releaseCodec | releaseCapture =>
    obtain ⟨hl, hcapture, hrunning, hfree⟩ := hs
    exact ⟨hcodec ▸ hl, h.capture.trans hcapture, h.running.trans hrunning,
      fun hc ↦ (hfree (h.cleanupFailed ▸ hc)).of_eq h.resources⟩
  | notify | done =>
    obtain ⟨hended, hrunning, hfree⟩ := hs
    exact ⟨by rw [hcodec, h.capture]; exact hended, h.running.trans hrunning,
      fun hc ↦ (hfree (h.cleanupFailed ▸ hc)).of_eq h.resources⟩

/-- A codec that is set for `CaptureControl` runs, or has failed. -/
theorem HeldAt.of_running {pc : Pc} (hs : s.HeldAt pc) (hrunning : s.control.running = true) :
    ∃ state, s.codec = some state ∧ state ≠ .released ∧ state.permits .stop = true := by
  have hno {q : Prop} (h : s.control.running = false) : q := by
    rw [hrunning] at h
    cases h
  have hexecuting {eos : Bool} (heos : s.codec = some (.executing eos)) :
      ∃ state, s.codec = some state ∧ state ≠ .released ∧ state.permits .stop = true :=
    ⟨_, heos, CodecState.noConfusion, rfl⟩
  cases pc with
  | create | init | header | consume | prepare | loop => exact hno hs.2.2.running
  | configure | createSurface | startCapture | startCodec | setRunning => exact hno hs.2.running
  | checkStopped | checkReset | checkAlive =>
    obtain ⟨⟨eos, heos⟩, -⟩ := hs
    exact hexecuting heos
  | writeMeta | dequeue | getBuffer | packet =>
    obtain ⟨⟨eos, heos, -⟩, -⟩ := hs
    exact hexecuting heos
  | releaseBuffer =>
    obtain ⟨⟨eos, heos, -⟩ | ⟨herror, -⟩, -⟩ := hs
    · exact hexecuting heos
    · exact ⟨_, herror, CodecState.noConfusion, rfl⟩
  | caught | clearRunning =>
    obtain ⟨⟨state, hstate, hne, hstop⟩, -, hstarted⟩ := hs
    exact ⟨state, hstate, hne, hstop (hstarted hrunning)⟩
  | stopCapture => exact hno hs.2.2
  | stopCodec | resetCodec | releaseSurface | releaseCodec | releaseCapture => exact hno hs.2.2.1
  | notify | done => exact hno hs.2.1

/-- The codec is interrupted. -/
theorem SameHeld.interrupted (h : s.SameHeld t) {pc : Pc} (hs : s.HeldAt pc)
    (hrunning : s.control.running = true)
    (hcodec : t.codec = s.codec.map fun state ↦ state.after .signalEndOfInputStream) :
    t.HeldAt pc := by
  have hexecuting {eos : Bool} (heos : s.codec = some (.executing eos)) :
      t.codec = some (.executing true) := by
    rw [hcodec, heos]
    rfl
  have hsignalled (hl : s.Signalled) : t.Signalled := by
    obtain ⟨eos, heos, -⟩ := hl
    exact ⟨true, hexecuting heos, fun _ ↦ rfl⟩
  cases pc with
  | checkStopped | checkReset | checkAlive =>
    obtain ⟨⟨eos, heos⟩, hstarted⟩ := hs
    exact ⟨⟨true, hexecuting heos⟩, hstarted.of_eq h.resources⟩
  | writeMeta | dequeue | getBuffer | packet =>
    exact ⟨hsignalled hs.1, hs.2.of_eq h.resources⟩
  | releaseBuffer =>
    refine ⟨hs.1.imp hsignalled (And.imp_left fun herror ↦ ?_), hs.2.of_eq h.resources⟩
    rw [hcodec, herror]
    rfl
  | caught | clearRunning =>
    obtain ⟨⟨state, hstate, hne, hstop⟩, hholds, hstarted⟩ := hs
    exact ⟨⟨_, by rw [hcodec, hstate]; rfl, signal_ne_released hne,
      fun hm ↦ signal_permits_stop (hstop (h.mediaCodecStarted ▸ hm))⟩,
      hholds.of_eq h.resources, fun _ ↦ h.mediaCodecStarted.trans (hstarted hrunning)⟩
  | create | init | header | consume | prepare | loop =>
    exact absurd (hs.2.2.running.symm.trans hrunning) Bool.false_ne_true
  | configure | createSurface | startCapture | startCodec | setRunning =>
    exact absurd (hs.2.running.symm.trans hrunning) Bool.false_ne_true
  | stopCapture => exact absurd (hs.2.2.symm.trans hrunning) Bool.false_ne_true
  | stopCodec | resetCodec | releaseSurface | releaseCodec | releaseCapture =>
    exact absurd (hs.2.2.1.symm.trans hrunning) Bool.false_ne_true
  | notify | done => exact absurd (hs.2.1.symm.trans hrunning) Bool.false_ne_true

/-- **A reset is signalled** to the codec, which permits it, or the codec is not waited for. -/
theorem keeps_reset (hs : s.Held) (reason : Reason) : s.Keeps (s.reset reason) := by
  rw [reset]
  split
  · rename_i hrunning
    obtain ⟨state, hstate, -, hstop⟩ := HeldAt.of_running hs hrunning
    have hsame : s.SameHeld ((s.request reason).call .signalEndOfInputStream) := ⟨rfl, rfl, rfl⟩
    have hcodec : (s.request reason).codec = some state := hstate
    exact ⟨hsame.interrupted hs hrunning rfl, call_misused hcodec (permits_signal hstop)⟩
  · rename_i hrunning
    have hsame : s.SameHeld (s.request reason) := ⟨rfl, rfl, rfl⟩
    exact ⟨hsame.heldAt rfl (fun h ↦ absurd h hrunning) hs, rfl⟩

/-- A step of the system keeps what is held. -/
theorem keeps_step (hs : s.Held) {l : Label} (hstep : s.step config l = some t) : s.Keeps t := by
  cases l with
  | reset reason =>
    obtain rfl := Option.some.inj hstep
    exact keeps_reset hs reason
  | setStopped =>
    obtain rfl := Option.some.inj hstep
    have hsame : s.SameHeld { s with stopped := true } := ⟨rfl, rfl, rfl⟩
    exact ⟨hsame.heldAt rfl (fun _ ↦ rfl) hs, rfl⟩
  | thread answer => exact keeps_advance hs hstep

end State

/-! ### What a step does besides -/

/-- The parts of `streamCapture`. -/
inductive Phase where
  /-- Before the loop. -/
  | start
  /-- Before `consumeReset`. -/
  | consume
  /-- Before `capture.prepare`. -/
  | prepare
  /-- In the rest of a pass. -/
  | pass
  /-- In `encode`. -/
  | encode
  /-- In the `finally` block of a pass. -/
  | closing
  /-- Behind the loop. -/
  | ending
deriving DecidableEq, Repr

/-- The part that a place is in. -/
def Pc.phase : Pc → Phase
  | .create | .init | .header => .start
  | .consume => .consume
  | .prepare => .prepare
  | .dequeue | .getBuffer .. | .packet .. | .releaseBuffer .. => .encode
  | .releaseCodec | .releaseCapture | .notify | .done => .ending
  | .configure | .createSurface | .startCapture | .startCodec | .setRunning | .checkStopped
  | .checkReset | .writeMeta | .checkAlive | .caught _ => .pass
  | .clearRunning | .stopCapture | .stopCodec | .resetCodec | .releaseSurface | .loop => .closing

/-- The moves between parts, but for those that are told apart below. -/
def Phase.moves : Phase → Phase → Bool
  | .start, .start | .start, .ending => true
  | .pass, .pass | .pass, .closing => true
  | .encode, .encode | .encode, .pass => true
  | .closing, .closing | .closing, .consume | .closing, .ending => true
  | .ending, .ending => true
  | _, _ => false

/-- How far it is at most to the end of the thread, once no pass begins. -/
def Pc.rank : Pc → ℕ
  | .done => 0
  | .notify => 1
  | .releaseCapture => 2
  | .releaseCodec => 3
  | .consume => 4
  | .loop | .header => 5
  | .releaseSurface | .init => 6
  | .resetCodec | .create => 7
  | .stopCodec => 8
  | .stopCapture => 9
  | .clearRunning => 10
  | .caught _ | .checkAlive => 11
  | .dequeue | .getBuffer .. | .packet .. | .releaseBuffer .. => 12
  | .writeMeta => 13
  | .checkReset => 14
  | .checkStopped => 15
  | .setRunning => 16
  | .startCodec => 17
  | .startCapture => 18
  | .createSurface => 19
  | .configure => 20
  | .prepare => 21

/-- The moves between places: only `encode` stays as far from the end. -/
def Pc.moves (p q : Pc) : Bool :=
  p.phase.moves q.phase && (q.rank < p.rank || p.phase == .encode && q.rank ≤ p.rank)

/-- What only a few steps change. -/
structure View where
  /-- `captureControl.reset`. -/
  reset : ℕ
  /-- The number of resets. -/
  requested : ℕ
  /-- What it was at the last `prepare`. -/
  prepared : ℕ
  /-- A termination was requested. -/
  terminated : Bool
  /-- The video constraints. -/
  constraints : VideoConstraints
  /-- The size. -/
  size : Size
  /-- `firstFrameSent`. -/
  firstFrameSent : Bool
  /-- `consecutiveErrors`. -/
  consecutiveErrors : ℕ
  /-- The retries since the last frame. -/
  retries : ℕ
  /-- The bytes on the socket. -/
  wire : Bytes
  /-- A write has failed. -/
  broken : Bool
  /-- The calls of the streamer. -/
  written : List WifiStreamer.Call

namespace State

/-- The view of a state. -/
def view (s : State) : View :=
  ⟨s.control.reset, s.requested, s.prepared, s.terminated, s.constraints, s.size, s.firstFrameSent,
    s.consecutiveErrors, s.retries, s.wire, s.broken, s.written⟩

/-- The call of the streamer that comes next. -/
def nextCall (s : State) : Option WifiStreamer.Call :=
  match s.pc with
  | .header => some .videoHeader
  | .writeMeta => some s.sessionMeta
  | .packet codecBuffer info => some (.codecPacket codecBuffer info)
  | _ => none

/-- **What a step of the thread does.** -/
inductive Effect (config : Config) (s : State) : Answer → State → Prop
  /-- Nothing that is told apart. -/
  | quiet {answer : Answer} {t : State} (hview : t.view = s.view)
    (hmoves : s.pc.moves t.pc = true) : Effect config s answer t
  /-- It leaves its loop, since a termination was requested. -/
  | terminate {answer : Answer} {t : State} (hpc : s.pc = .consume)
    (hview : t.view = { s.view with reset := 0 }) (ht : t.pc = .releaseCodec) :
    Effect config s answer t
  /-- It takes the reasons of a pass. -/
  | consume {answer : Answer} {t : State} (hpc : s.pc = .consume)
    (hreset : s.control.reset &&& 1 = 0) (hview : t.view = { s.view with reset := 0 })
    (ht : t.pc = .prepare) : Effect config s answer t
  /-- The capture is prepared. -/
  | prepare {outputSize : Size} {t : State} (hpc : s.pc = .prepare)
    (hview : t.view = { s.view with
      size := outputSize.constrain s.constraints, prepared := s.requested })
    (ht : t.pc = .configure) : Effect config s (.size outputSize) t
  /-- The capture cannot be prepared. -/
  | unprepared {answer : Answer} {t : State} (hpc : s.pc = .prepare) (hview : t.view = s.view)
    (ht : t.pc = .releaseCodec) : Effect config s answer t
  /-- A frame comes out of the codec. -/
  | frame {answer : Answer} {t : State} (hpc : s.pc = .dequeue)
    (hview : t.view = { s.view with firstFrameSent := true, consecutiveErrors := 0, retries := 0 })
    (ht : ∃ codecBuffer info, t.pc = .getBuffer codecBuffer info) : Effect config s answer t
  /-- A failure is retried. -/
  | retry {answer : Answer} {t : State} {e : Throwable} (hpc : s.pc = .caught e)
    (hretry : (s.prepareRetry config).2 = true)
    (hview : t.view = { (s.prepareRetry config).1.view with retries := s.retries + 1 })
    (ht : t.pc = .clearRunning) : Effect config s answer t
  /-- A failure is final. -/
  | giveUp {answer : Answer} {t : State} {e : Throwable} (hpc : s.pc = .caught e)
    (hview : t.view = s.view ∨
      (s.prepareRetry config).2 = false ∧ t.view = (s.prepareRetry config).1.view)
    (ht : t.pc = .clearRunning) (hthrown : t.thrown = some e) : Effect config s answer t
  /-- A call of the streamer returns. -/
  | send {answer : Answer} {t : State} {call : WifiStreamer.Call} {bytes : Bytes}
    (hcall : s.nextCall = some call) (hbytes : config.streamer.write call = .ok bytes)
    (hbroken : s.broken = true → bytes = [])
    (hview : t.view = { s.view with
      wire := s.wire ++ bytes, written := s.written ++ [call] })
    (ht : s.pc = .header ∧ t.pc = .consume ∨ s.pc ≠ .header ∧ t.pc.phase = .encode) :
    Effect config s answer t
  /-- A call of the streamer throws. -/
  | sendPart {answer : Answer} {t : State} {call : WifiStreamer.Call} {bytes : Bytes} {sent : ℕ}
    (hcall : s.nextCall = some call) (hbytes : config.streamer.write call = .ok bytes)
    (hbroken : s.broken = false) (hsent : sent < bytes.length)
    (hview : t.view = { s.view with wire := s.wire ++ bytes.take sent, broken := true })
    (hmoves : s.pc.moves t.pc = true) : Effect config s answer t

variable {s t : State} {config : Config} {answer : Answer}

theorem moves_of_eq {p : Pc} (hpc : s.pc = p) (h : p.moves t.pc = true) :
    s.pc.moves t.pc = true := by
  rwa [hpc]

theorem effect_startUp (hstep : s.startUp config answer = some t) :
    Effect config s answer t := by
  rw [startUp.eq_def] at hstep
  split at hstep <;> rename_i hpc
  any_goals
    obtain rfl := Option.some.inj hstep
    exact .quiet rfl (moves_of_eq hpc rfl)
  · obtain ⟨u, hu, rfl⟩ := Option.map_eq_some_iff.1 hstep
    obtain ⟨bytes, hbytes, hbroken, rfl⟩ := send_eq hu
    exact .send (by rw [nextCall, hpc]) hbytes hbroken rfl (.inl ⟨hpc, rfl⟩)
  · obtain ⟨u, hu, rfl⟩ := Option.map_eq_some_iff.1 hstep
    obtain rfl | ⟨bytes, hbytes, hbroken, hsent, rfl⟩ := sendPart_eq hu
    · exact .quiet rfl (moves_of_eq hpc rfl)
    · exact .sendPart (by rw [nextCall, hpc]) hbytes hbroken hsent rfl (moves_of_eq hpc rfl)
  · cases hstep

theorem effect_startPass (hstep : s.startPass config answer = some t) :
    Effect config s answer t := by
  rw [startPass.eq_def] at hstep
  split at hstep <;> rename_i hpc
  · dsimp only at hstep
    split at hstep <;> rename_i hreset <;> obtain rfl := Option.some.inj hstep
    · exact .terminate hpc rfl rfl
    · exact .consume hpc (not_not.1 hreset) rfl rfl
  · obtain rfl := Option.some.inj hstep
    exact .prepare hpc rfl rfl
  · obtain rfl := Option.some.inj hstep
    exact .unprepared hpc rfl rfl
  any_goals
    obtain rfl := Option.some.inj hstep
    exact .quiet rfl (moves_of_eq hpc rfl)
  · -- `stopped`
    obtain rfl := Option.some.inj hstep
    split <;> exact .quiet rfl (moves_of_eq hpc rfl)
  · -- `isResetRequested`
    obtain rfl := Option.some.inj hstep
    split <;> exact .quiet rfl (moves_of_eq hpc rfl)
  · obtain ⟨u, hu, rfl⟩ := Option.map_eq_some_iff.1 hstep
    obtain ⟨bytes, hbytes, hbroken, rfl⟩ := send_eq hu
    exact .send (by rw [nextCall, hpc]) hbytes hbroken rfl (.inr ⟨by simp [hpc], rfl⟩)
  · obtain ⟨u, hu, rfl⟩ := Option.map_eq_some_iff.1 hstep
    obtain rfl | ⟨bytes, hbytes, hbroken, hsent, rfl⟩ := sendPart_eq hu
    · exact .quiet rfl (moves_of_eq hpc rfl)
    · exact .sendPart (by rw [nextCall, hpc]) hbytes hbroken hsent rfl (moves_of_eq hpc rfl)
  · cases hstep

theorem effect_encode (hstep : s.encode config answer = some t) : Effect config s answer t := by
  rw [encode.eq_def] at hstep
  split at hstep <;> rename_i hpc
  · dsimp only at hstep
    split at hstep
    · obtain rfl := Option.some.inj hstep
      split
      · exact .frame hpc rfl ⟨_, _, rfl⟩
      · exact .quiet rfl (moves_of_eq hpc rfl)
    split at hstep <;> obtain rfl := Option.some.inj hstep
    · exact .quiet rfl (moves_of_eq hpc rfl)
    · split
      · refine .quiet rfl ?_
        show s.pc.moves s.pc = true
        rw [hpc]
        rfl
      · exact .quiet rfl (moves_of_eq hpc rfl)
  iterate 3
    · obtain rfl := Option.some.inj hstep
      exact .quiet rfl (moves_of_eq hpc rfl)
  · obtain ⟨u, hu, rfl⟩ := Option.map_eq_some_iff.1 hstep
    obtain ⟨bytes, hbytes, hbroken, rfl⟩ := send_eq hu
    exact .send (by rw [nextCall, hpc]) hbytes hbroken rfl (.inr ⟨by simp [hpc], rfl⟩)
  · obtain ⟨u, hu, rfl⟩ := Option.map_eq_some_iff.1 hstep
    obtain rfl | ⟨bytes, hbytes, hbroken, hsent, rfl⟩ := sendPart_eq hu
    · exact .quiet rfl (moves_of_eq hpc rfl)
    · exact .sendPart (by rw [nextCall, hpc]) hbytes hbroken hsent rfl (moves_of_eq hpc rfl)
  · dsimp only at hstep
    split at hstep <;> obtain rfl := Option.some.inj hstep
    · exact .quiet rfl (moves_of_eq hpc rfl)
    · split <;> exact .quiet rfl (moves_of_eq hpc rfl)
  · obtain rfl := Option.some.inj hstep
    exact .quiet rfl (moves_of_eq hpc rfl)
  · cases hstep

theorem effect_finishPass (hstep : s.finishPass config answer = some t) :
    Effect config s answer t := by
  rw [finishPass.eq_def] at hstep
  split at hstep <;> rename_i hpc
  any_goals
    obtain rfl := Option.some.inj hstep
    exact .quiet rfl (moves_of_eq hpc rfl)
  · split at hstep
    · obtain rfl := Option.some.inj hstep
      exact .giveUp hpc (.inl rfl) rfl rfl
    · obtain rfl := Option.some.inj hstep
      dsimp only
      split
      · rename_i hretry
        exact .retry hpc hretry rfl rfl
      · rename_i hretry
        exact .giveUp hpc (.inr ⟨eq_false_of_ne_true hretry, rfl⟩) rfl rfl
  · -- `capture.stop` throws
    split at hstep
    · obtain rfl := Option.some.inj hstep
      exact .quiet rfl (moves_of_eq hpc rfl)
    · cases hstep
  · -- `mediaCodec.stop`
    obtain rfl := Option.some.inj hstep
    split <;> exact .quiet rfl (moves_of_eq hpc rfl)
  · split at hstep
    · cases hstep
    split at hstep <;> obtain rfl := Option.some.inj hstep <;>
      exact .quiet rfl (moves_of_eq hpc rfl)
  · -- the end of the loop
    obtain rfl := Option.some.inj hstep
    split <;> exact .quiet rfl (moves_of_eq hpc rfl)
  · cases hstep

theorem effect_finish (hstep : s.finish answer = some t) : Effect config s answer t := by
  rw [finish.eq_def] at hstep
  split at hstep <;> rename_i hpc
  any_goals
    obtain rfl := Option.some.inj hstep
    exact .quiet rfl (moves_of_eq hpc rfl)
  · cases hstep

theorem effect_advance (hstep : s.advance config answer = some t) : Effect config s answer t := by
  rw [advance.eq_def] at hstep
  split at hstep
  all_goals first
    | exact effect_startUp hstep
    | exact effect_startPass hstep
    | exact effect_encode hstep
    | exact effect_finishPass hstep
    | exact effect_finish hstep

/-! ### Resets are not lost -/

theorem moves_ending {p q : Pc} (h : p.moves q = true) :
    q.phase ≠ .ending → p.phase ≠ .prepare ∧ p.phase ≠ .ending := by
  have hphase := (Bool.and_eq_true_iff.1 h).1
  revert hphase
  generalize p.phase = a
  generalize q.phase = b
  intro hphase
  cases a <;> cases b <;> first | exact absurd hphase Bool.false_ne_true | simp

/-- What waits to be done. -/
structure Waits (s : State) : Prop where
  /-- A reset that came after `prepare` waits. -/
  pending : s.pc.phase ≠ .prepare → s.pc.phase ≠ .ending → s.requested ≠ s.prepared →
    s.control.reset ≠ 0
  /-- A termination waits, or the thread has left its loop. -/
  terminated : s.terminated = true → s.pc.phase ≠ .ending → s.control.reset &&& 1 ≠ 0

/-- Nothing happens to the resets. -/
theorem Waits.of_same (hs : s.Waits) (hreset : t.view.reset = s.view.reset)
    (hrequested : t.view.requested = s.view.requested)
    (hprepared : t.view.prepared = s.view.prepared)
    (hterminated : t.view.terminated = s.view.terminated)
    (hphase : t.pc.phase ≠ .ending → s.pc.phase ≠ .prepare ∧ s.pc.phase ≠ .ending) :
    t.Waits := by
  constructor
  · intro _ hending hne
    have hs' := hs.pending (hphase hending).1 (hphase hending).2
    rw [show t.requested = s.requested from hrequested,
      show t.prepared = s.prepared from hprepared] at hne
    exact (show t.control.reset = s.control.reset from hreset) ▸ hs' hne
  · intro hterm hending
    rw [show t.terminated = s.terminated from hterminated] at hterm
    exact (show t.control.reset = s.control.reset from hreset) ▸
      hs.terminated hterm (hphase hending).2

theorem waits_advance (hs : s.Waits) (hstep : s.advance config answer = some t) : t.Waits := by
  have hsame {v : View} (hview : t.view = v) (hreset : v.reset = s.view.reset)
      (hrequested : v.requested = s.view.requested) (hprepared : v.prepared = s.view.prepared)
      (hterminated : v.terminated = s.view.terminated)
      (hphase : t.pc.phase ≠ .ending → s.pc.phase ≠ .prepare ∧ s.pc.phase ≠ .ending) : t.Waits := by
    subst hview
    exact hs.of_same hreset hrequested hprepared hterminated hphase
  have hphase {p : Pc} (hpc : s.pc = p) (h : p.phase ≠ .prepare ∧ p.phase ≠ .ending) :
      t.pc.phase ≠ .ending → s.pc.phase ≠ .prepare ∧ s.pc.phase ≠ .ending :=
    fun _ ↦ hpc ▸ h
  cases effect_advance hstep with
  | quiet hview hmoves => exact hsame hview rfl rfl rfl rfl (moves_ending hmoves)
  | terminate _ _ ht =>
    exact ⟨fun _ h ↦ absurd (by rw [ht]; rfl) h, fun _ h ↦ absurd (by rw [ht]; rfl) h⟩
  | consume hpc hreset hview ht =>
    refine ⟨fun h ↦ absurd (by rw [ht]; rfl) h, fun hterm _ ↦ ?_⟩
    have hterm' : s.terminated = true :=
      (show t.terminated = s.terminated from congrArg View.terminated hview) ▸ hterm
    exact absurd hreset (hs.terminated hterm' (by rw [hpc]; decide))
  | prepare hpc hview ht =>
    refine ⟨fun _ _ hne ↦ absurd ?_ hne, fun hterm _ ↦ ?_⟩
    · rw [show t.requested = s.requested from congrArg View.requested hview,
        show t.prepared = s.requested from congrArg View.prepared hview]
    · have hterm' : s.terminated = true :=
        (show t.terminated = s.terminated from congrArg View.terminated hview) ▸ hterm
      exact (show t.control.reset = s.control.reset from congrArg View.reset hview) ▸
        hs.terminated hterm' (by rw [hpc]; decide)
  | unprepared _ _ ht =>
    exact ⟨fun _ h ↦ absurd (by rw [ht]; rfl) h, fun _ h ↦ absurd (by rw [ht]; rfl) h⟩
  | frame hpc hview _ => exact hsame hview rfl rfl rfl rfl (hphase hpc (by decide))
  | retry hpc _ hview _ =>
    obtain ⟨constraints, errors, heq⟩ := prepareRetry_eq s config
    rw [heq] at hview
    exact hsame hview rfl rfl rfl rfl (hphase hpc ⟨Phase.noConfusion, Phase.noConfusion⟩)
  | giveUp hpc hview _ _ =>
    obtain ⟨constraints, errors, heq⟩ := prepareRetry_eq s config
    rw [heq] at hview
    obtain hview | ⟨-, hview⟩ := hview <;>
      exact hsame hview rfl rfl rfl rfl (hphase hpc ⟨Phase.noConfusion, Phase.noConfusion⟩)
  | send hcall _ _ hview _ =>
    refine hsame hview rfl rfl rfl rfl fun _ ↦ ?_
    rw [nextCall] at hcall
    split at hcall <;> rename_i hpc
    all_goals first | cases hcall; done | (rw [hpc]; exact ⟨Phase.noConfusion, Phase.noConfusion⟩)
  | sendPart _ _ _ _ hview hmoves => exact hsame hview rfl rfl rfl rfl (moves_ending hmoves)

theorem flag_ne_zero (reason : Reason) : reason.flag ≠ 0 := by
  cases reason <;> decide

theorem or_and_one_ne_zero {a b : ℕ} (h : a &&& 1 ≠ 0) : (a ||| b) &&& 1 ≠ 0 := by
  rw [Nat.and_or_distrib_right]
  exact fun hor ↦ h (Nat.or_eq_zero_iff.1 hor).1

theorem waits_reset (hs : s.Waits) (reason : Reason) : (s.reset reason).Waits := by
  have hrequest : (s.request reason).Waits := by
    constructor
    · exact fun _ _ _ hor ↦ flag_ne_zero reason (Nat.or_eq_zero_iff.1 hor).2
    · intro hterm hending
      show (s.control.reset ||| reason.flag) &&& 1 ≠ 0
      obtain hterm | hreason := Bool.or_eq_true_iff.1 hterm
      · exact or_and_one_ne_zero (hs.terminated hterm hending)
      · rw [of_decide_eq_true hreason, Nat.or_comm]
        exact or_and_one_ne_zero (by decide)
  rw [reset]
  split
  · exact ⟨hrequest.pending, hrequest.terminated⟩
  · exact hrequest

theorem waits_step (hs : s.Waits) {l : Label} (hstep : s.step config l = some t) : t.Waits := by
  cases l with
  | reset reason =>
    obtain rfl := Option.some.inj hstep
    exact waits_reset hs reason
  | setStopped =>
    obtain rfl := Option.some.inj hstep
    exact ⟨hs.pending, hs.terminated⟩
  | thread answer => exact waits_advance hs hstep

/-- What holds in every run. -/
structure Inv (s : State) : Prop where
  /-- What is held. -/
  held : s.Held
  /-- The codec is not misused. -/
  misused : s.misused = false
  /-- What waits. -/
  waits : s.Waits

theorem inv_start (config : Config) : (start config).Inv :=
  ⟨⟨rfl, rfl, rfl, rfl, rfl⟩, rfl, (fun _ _ h ↦ absurd rfl h), (fun h ↦ nomatch h)⟩

theorem inv_step (hs : s.Inv) {l : Label} (hstep : s.step config l = some t) : t.Inv := by
  obtain ⟨hheld, hmisused⟩ := keeps_step hs.held hstep
  exact ⟨hheld, hmisused.trans hs.misused, waits_step hs.waits hstep⟩

theorem inv_exec (hs : s.Inv) {ls : List Label} (h : exec (step config) s ls = some t) : t.Inv :=
  exec_invariant (fun _ _ _ hu hstep ↦ inv_step hu hstep) hs h

/-- A codec that is waited for is interrupted, if there is a reason to. -/
theorem Inv.interrupted (hs : s.Inv) (hpc : s.pc = .dequeue)
    (hreason : s.requested ≠ s.prepared ∨ s.terminated = true) :
    s.codec = some (.executing true) := by
  have hne : s.control.reset ≠ 0 := by
    obtain hrequested | hterm := hreason
    · exact hs.waits.pending (by rw [hpc]; decide) (by rw [hpc]; decide) hrequested
    · have hbit := hs.waits.terminated hterm (by rw [hpc]; decide)
      exact fun h ↦ hbit (by rw [h]; rfl)
  have hheld := hs.held
  rw [Held, hpc] at hheld
  obtain ⟨⟨eos, hcodec, hsignalled⟩, -⟩ := hheld
  rw [hcodec, hsignalled hne]

/-! ### The main results -/

/-- **The encoder is safe.** Whatever other threads request and whatever the platform answers, no
call of the codec comes in a state that does not permit it. A codec whose output is waited for is
interrupted as soon as a reset has been requested since the capture was prepared. At the end of the
thread, codec and capture are both released, or the capture was never initialized; no codec can be
interrupted any more; and nothing runs or is kept but what a failing `finally` block has left. -/
theorem encoder_safe (config : Config) {labels : List Label} {s : State}
    (h : exec (step config) (start config) labels = some s) :
    s.misused = false ∧
    (s.pc = .dequeue → s.requested ≠ s.prepared → s.codec = some (.executing true)) ∧
    (s.pc = .done →
      (s.capture = .released ∧ s.codec = some .released ∨ s.capture = .idle) ∧
        s.control.running = false ∧
          (s.cleanupFailed = false → s.capturing = false ∧ s.surfaces = 0)) := by
  have hs := inv_exec (inv_start config) h
  refine ⟨hs.misused, fun hpc hne ↦ hs.interrupted hpc (.inl hne), fun hpc ↦ ?_⟩
  have hheld := hs.held
  rw [Held, hpc] at hheld
  obtain ⟨hended, hrunning, hfree⟩ := hheld
  exact ⟨hended.symm.imp And.symm And.right, hrunning,
    fun hclean ↦ ⟨(hfree hclean).capturing, (hfree hclean).surfaces⟩⟩

/-- A phone with an H.264 encoder. -/
def h264Screen : Config where
  streamer := ⟨.h264, .screen, true, true, .littleEndian⟩
  constraints := ⟨0, 16, ⟨4096, 2176⟩, ⟨2176, 4096⟩, 96⟩
  downsizeOnError := true
  acceptsConstraints := true

/-- The thread comes to `dequeueOutputBuffer`. -/
def upToEncode : List Label :=
  [.thread .returns, .thread .returns, .thread .returns, .thread .returns,
    .thread (.size ⟨1080, 2400⟩), .thread .returns, .thread .returns, .thread .returns,
    .thread .returns, .thread .returns, .thread .returns, .thread .returns, .thread .returns]

/-- Two key frames, the second of which is the last. -/
def twoFrames : List Label :=
  .thread (.output 0 [0, 0, 1, 101] ⟨0, 4, 40, 1⟩) :: List.replicate 3 (.thread .returns) ++
    .thread (.output 1 [0, 0, 1, 101] ⟨0, 4, 80, 5⟩) :: List.replicate 3 (.thread .returns)

/-- The thread ends. -/
def fromEncode : List Label :=
  .thread (.closed false) :: List.replicate 9 (.thread .returns)

/-- `stop`, on another thread. -/
def stop : List Label :=
  [.setStopped, .reset .terminated]

/-- It is stopped while it waits for the first frame. -/
theorem encoder_safe_stopped : ∃ s,
    exec (step h264Screen) (start h264Screen) (upToEncode ++ stop ++ twoFrames ++ fromEncode) =
      some s ∧ s.misused = false ∧ s.pc = .done ∧ s.surfaces = 0 := by
  obtain ⟨s, hs, hdone⟩ := (Option.any_eq_true _ _).1 (show (exec (step h264Screen)
    (start h264Screen) (upToEncode ++ stop ++ twoFrames ++ fromEncode)).any
      (fun s ↦ s.pc = .done ∧ s.cleanupFailed = false) = true by decide +kernel)
  obtain ⟨hpc, hclean⟩ := of_decide_eq_true hdone
  obtain ⟨hmisused, -, hended⟩ := encoder_safe h264Screen hs
  exact ⟨s, hs, hmisused, hpc, ((hended hpc).2.2 hclean).2⟩

/-! ### The thread ends -/

/-- The steps that count: those of the thread, but for those of `encode`. -/
def counts (s : State) : Label → ℕ
  | .thread _ => if s.pc.phase = .encode then 0 else 1
  | .reset _ | .setStopped => 0

theorem moves_rank {p q : Pc} (h : p.moves q = true) :
    (if p.phase = .encode then 0 else 1) + q.rank ≤ p.rank := by
  have hrank := (Bool.and_eq_true_iff.1 h).2
  obtain hlt | heq := Bool.or_eq_true_iff.1 hrank
  · have hlt := of_decide_eq_true hlt
    split <;> omega
  · obtain ⟨hphase, hle⟩ := Bool.and_eq_true_iff.1 heq
    rw [if_pos (eq_of_beq hphase), Nat.zero_add]
    exact of_decide_eq_true hle

theorem nextCall_pc {call : WifiStreamer.Call} (h : s.nextCall = some call) :
    s.pc = .header ∨ s.pc = .writeMeta ∨ ∃ codecBuffer info, s.pc = .packet codecBuffer info := by
  rw [nextCall] at h
  split at h
  · exact .inl ‹_›
  · exact .inr (.inl ‹_›)
  · exact .inr (.inr ⟨_, _, ‹_›⟩)
  · cases h

theorem rank_of_encode {p : Pc} (h : p.phase = .encode) : p.rank = 12 := by
  cases p with
  | dequeue | getBuffer | packet | releaseBuffer => rfl
  | _ => cases h

theorem reset_pc (s : State) (reason : Reason) : (s.reset reason).pc = s.pc := by
  rw [reset]
  split <;> rfl

theorem reset_terminated (s : State) (reason : Reason) :
    (s.reset reason).terminated = (s.terminated || decide (reason = Reason.terminated)) := by
  rw [reset]
  split <;> rfl

theorem terminated_step (hterm : s.terminated = true) {l : Label}
    (hstep : s.step config l = some t) : t.terminated = true := by
  cases l with
  | reset reason =>
    obtain rfl := Option.some.inj hstep
    rw [reset_terminated, hterm, Bool.true_or]
  | setStopped =>
    obtain rfl := Option.some.inj hstep
    exact hterm
  | thread answer =>
    obtain ⟨constraints, errors, heq⟩ := prepareRetry_eq s config
    have hsame {v : View} (hview : t.view = v) (hv : v.terminated = true) : t.terminated = true :=
      (congrArg View.terminated hview).trans hv
    cases effect_advance hstep with
    | quiet hview | terminate _ hview | consume _ _ hview | prepare _ hview | unprepared _ hview
    | frame _ hview | send _ _ _ hview | sendPart _ _ _ _ hview => exact hsame hview hterm
    | retry _ _ hview => exact hsame hview (by rw [heq]; exact hterm)
    | giveUp _ hview =>
      obtain hview | ⟨-, hview⟩ := hview
      · exact hsame hview hterm
      · exact hsame hview (by rw [heq]; exact hterm)

/-- A step that counts brings the thread closer to its end, once that is requested. -/
theorem rank_advance (hs : s.Waits) (hterm : s.terminated = true)
    (hstep : s.advance config answer = some t) :
    (if s.pc.phase = .encode then 0 else 1) + t.pc.rank ≤ s.pc.rank := by
  cases effect_advance hstep with
  | quiet _ hmoves | sendPart _ _ _ _ _ hmoves => exact moves_rank hmoves
  | consume hpc hreset =>
    exact absurd hreset (hs.terminated hterm (by rw [hpc]; decide))
  | terminate hpc _ ht | prepare hpc _ ht | unprepared hpc _ ht | retry hpc _ _ ht
  | giveUp hpc _ ht =>
    rw [hpc, ht]
    exact Nat.le_of_ble_eq_true rfl
  | frame hpc _ ht =>
    obtain ⟨codecBuffer, info, ht⟩ := ht
    rw [hpc, ht]
    exact Nat.le_of_ble_eq_true rfl
  | send hcall _ _ _ ht =>
    obtain ⟨hpc, ht⟩ | ⟨hpc, ht⟩ := ht
    · rw [hpc, ht]
      decide
    · rw [rank_of_encode ht]
      obtain hpc' | hpc' | ⟨codecBuffer, info, hpc'⟩ := nextCall_pc hcall
      · exact absurd hpc' hpc
      · rw [hpc']
        decide
      · rw [hpc']
        exact Nat.le_of_ble_eq_true rfl

/-- **The thread ends.** Once a termination was requested, the thread takes 21 more steps at most
besides those of `encode`, whatever happens; and when it waits for its codec, the codec is
interrupted. -/
theorem stop_ends (config : Config) {labels ls : List Label} {s t : State}
    (hs : exec (step config) (start config) labels = some s) (hterm : s.terminated = true)
    (ht : exec (step config) s ls = some t) :
    weight (step config) counts s ls + t.pc.rank ≤ 21 ∧
      (t.pc = .dequeue → t.codec = some (.executing true)) := by
  have hinv := inv_exec (inv_start config) hs
  have hstep (u : State) (l : Label) (v : State) (hu : u.Inv ∧ u.terminated = true)
      (hl : step config u l = some v) :
      (v.Inv ∧ v.terminated = true) ∧ counts u l + v.pc.rank ≤ u.pc.rank := by
    refine ⟨⟨inv_step hu.1 hl, terminated_step hu.2 hl⟩, ?_⟩
    cases l with
    | reset reason =>
      obtain rfl := Option.some.inj hl
      rw [counts, Nat.zero_add, reset_pc]
    | setStopped =>
      obtain rfl := Option.some.inj hl
      exact Nat.le_of_eq (Nat.zero_add _)
    | thread answer => exact rank_advance hu.1.waits hu.2 hl
  have hrank : s.pc.rank ≤ 21 := by
    cases s.pc <;> exact Nat.le_of_ble_eq_true rfl
  obtain ⟨htinv, htterm⟩ := exec_invariant (P := fun u ↦ u.Inv ∧ u.terminated = true)
    (fun u l v hu hl ↦ (hstep u l v hu hl).1) ⟨hinv, hterm⟩ ht
  exact ⟨(weight_le hstep ⟨hinv, hterm⟩ ht).trans hrank,
    fun hpc ↦ htinv.interrupted hpc (.inr htterm)⟩

/-- It is stopped while it waits for the first frame, and puts out two. -/
theorem stop_ends_encode : ∃ s t,
    exec (step h264Screen) (start h264Screen) (upToEncode ++ stop) = some s ∧
      exec (step h264Screen) s (twoFrames ++ fromEncode) = some t ∧ t.pc = .done ∧
        weight (step h264Screen) counts s (twoFrames ++ fromEncode) ≤ 21 := by
  obtain ⟨s, hs, hrun⟩ := (Option.any_eq_true _ _).1 (show (exec (step h264Screen)
    (start h264Screen) (upToEncode ++ stop)).any (fun s ↦ s.terminated ∧
      (exec (step h264Screen) s (twoFrames ++ fromEncode)).any (·.pc = .done) = true) = true
      by decide +kernel)
  obtain ⟨hterm, hrun⟩ := of_decide_eq_true hrun
  obtain ⟨t, ht, hpc⟩ := (Option.any_eq_true _ _).1 hrun
  exact ⟨s, t, hs, ht, of_decide_eq_true hpc,
    (Nat.le_add_right _ _).trans (stop_ends h264Screen hs hterm ht).1⟩

end State

end AllRelay.Video
