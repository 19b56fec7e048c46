import Mathlib.Data.List.Basic
import Mathlib.Logic.Function.Basic

/-!
# The hub: its data and its lock-delimited sections

`web/hub.go` keeps three things behind three locks: the WebSocket clients and the replay cache
(`mu`), the screen lifecycle and the active control route (`controlMu`), and a lock `displayMu`
that serializes the automatic display writes. This module holds the data of `Hub`, `Client` and
`controlRoute`, and each section of `hub.go` that runs under one acquisition of a lock, as a
function on that data. The operations themselves are put together from these sections twice: as
one function each in `Hub.Lifecycle`, and as interleaved steps of any number of goroutines in
`Hub.Threads`.

A Go pointer to a `Client` or a `controlRoute` is an index into a heap (`Hub.client`,
`Hub.route`), and `nil` is `none`. The write function of a control route is the route's socket,
which this module does not see: a call of it is recorded in `Hub.writes` together with its outcome,
oldest call first. `uint64` generations are natural numbers; they only ever grow by one.
-/

namespace AllRelay

/-- A byte string as the Go code passes it around. -/
abbrev Bytes := List UInt8

/-- The index of a `controlRoute` on the heap. -/
abbrev RouteId := ℕ

/-- The index of a WebSocket `Client` on the heap. -/
abbrev ClientId := ℕ

/-- `screenSession`: the size announced by a video header. -/
structure ScreenSession where
  /-- Frame width in pixels. -/
  width : UInt32
  /-- Frame height in pixels. -/
  height : UInt32
deriving DecidableEq, Repr

/-- `screenInit`: the decoder inputs replayed to a viewer that joins late. -/
structure ScreenInit where
  /-- The cached video header. -/
  session : Option ScreenSession
  /-- The cached config frames, oldest first. -/
  configs : List Bytes
  /-- The cached key frame. -/
  keyFrame : Option Bytes
deriving DecidableEq, Repr

/-- The text messages that concern the screen viewer, before JSON encoding. -/
inductive WSMessage where
  /-- A `screen_session` event. -/
  | screenSession (session : ScreenSession)
  /-- The reply to a `screen_init` request. -/
  | screenInit (init : ScreenInit)
deriving DecidableEq, Repr

/-- `Client`: one WebSocket client with its two outgoing queues. -/
structure Client where
  /-- Text messages waiting for the text pump. -/
  send : List WSMessage
  /-- Screen frames waiting for the binary pump. -/
  sendBin : List Bytes
  /-- The `closed` channel is closed. -/
  closed : Bool
deriving DecidableEq, Repr

/-- The capacity of `Client.send` and of `Hub.broadcast`. -/
def textQueueCapacity : ℕ := 256

/-- The capacity of `Client.sendBin`. -/
def binQueueCapacity : ℕ := 64

/-- `Client.enqueueText`: a closed client or a full queue refuses the message. -/
def Client.enqueueText (c : Client) (message : WSMessage) : Client × Bool :=
  if c.closed then (c, false)
  else if c.send.length < textQueueCapacity then ({ c with send := c.send ++ [message] }, true)
  else (c, false)

/-- `Client.enqueueBin`: a full queue drops the frame and keeps the client. -/
def Client.enqueueBin (c : Client) (data : Bytes) : Client × Bool :=
  if c.closed then (c, false)
  else if c.sendBin.length < binQueueCapacity then ({ c with sendBin := c.sendBin ++ [data] }, true)
  else (c, false)

/-- `controlRoute`: the control writer of one screen generation. -/
structure ControlRoute where
  /-- The generation the route was registered for. -/
  generation : ℕ
  /-- The route was retired: its write function is not called again. -/
  closed : Bool
  /-- An automatic display OFF succeeded on this route. -/
  displayOffSent : Bool
deriving DecidableEq, Repr

/-- The error values of the control path. -/
inductive ControlError where
  /-- `errNoControlRoute`. -/
  | noControlRoute
  /-- The error of a route's write function. -/
  | writeFailed
deriving DecidableEq, Repr

/-- The automatic display message, `[]byte{10, 0}` for OFF and `[]byte{10, 1}` for ON. -/
def displayMessage (on : Bool) : Bytes := [10, if on then 1 else 0]

/-- What a call of a route's write function carries. -/
inductive RouteWrite where
  /-- An automatic display write. -/
  | display (on : Bool)
  /-- Ordinary control input passed to `WriteControl`. -/
  | control (data : Bytes)
deriving DecidableEq, Repr

/-- The bytes handed to the write function. -/
def RouteWrite.bytes : RouteWrite → Bytes
  | .display on => displayMessage on
  | .control data => data

/-- `Hub`, with the heaps its pointers refer to and the calls of the write functions so far. -/
structure Hub where
  /-- The `clients` map. -/
  clients : ClientId → Bool
  /-- The heap of clients. -/
  client : ClientId → Client
  /-- The contents of the `broadcast` channel, next message first. -/
  broadcast : List WSMessage
  /-- `screenSession`. -/
  screenSession : Option ScreenSession
  /-- `screenConfigFrames`. -/
  screenConfigFrames : List Bytes
  /-- `screenKeyFrame`. -/
  screenKeyFrame : Option Bytes
  /-- `screenGeneration`. -/
  screenGeneration : ℕ
  /-- `screenActive`. -/
  screenActive : Bool
  /-- `screenHeaderReady`. -/
  screenHeaderReady : Bool
  /-- `displayOffDesired`. -/
  displayOffDesired : Bool
  /-- `displayPowerOff`: an automatic OFF succeeded and was not restored since. -/
  displayPowerOff : Bool
  /-- `controlRoute`. -/
  controlRoute : Option RouteId
  /-- The heap of control routes. -/
  route : RouteId → ControlRoute
  /-- The first route index that is not allocated yet. -/
  nextRoute : RouteId
  /-- The calls of route write functions, oldest first: the route, what was written, whether the
  write function returned nil. -/
  writes : List (RouteId × RouteWrite × Bool)

namespace Hub

/-- `maxScreenReplayFrameBytes`. -/
def maxScreenReplayFrameBytes : ℕ := 2 * 1024 * 1024

/-- `maxScreenReplayConfigFrames`. -/
def maxScreenReplayConfigFrames : ℕ := 4

/-- `NewHub`. -/
def newHub : Hub where
  clients _ := false
  client _ := ⟨[], [], false⟩
  broadcast := []
  screenSession := none
  screenConfigFrames := []
  screenKeyFrame := none
  screenGeneration := 0
  screenActive := false
  screenHeaderReady := false
  displayOffDesired := false
  displayPowerOff := false
  controlRoute := none
  route _ := ⟨0, false, false⟩
  nextRoute := 0
  writes := []

/-- The check every generation-carrying operation makes under `controlMu`. -/
def accepts (h : Hub) (generation : ℕ) : Bool :=
  h.screenActive && generation == h.screenGeneration

theorem accepts_iff {h : Hub} {generation : ℕ} :
    h.accepts generation = true ↔ h.screenActive = true ∧ generation = h.screenGeneration := by
  rw [accepts, Bool.and_eq_true, beq_iff_eq]

/-! ### Sections under `mu` -/

/-- Forget the replay cache. -/
def clearReplay (h : Hub) : Hub :=
  { h with screenSession := none, screenConfigFrames := [], screenKeyFrame := none }

/-- Start a new replay cache with a video header. -/
def cacheSession (h : Hub) (session : ScreenSession) : Hub :=
  { h with screenSession := some session, screenConfigFrames := [], screenKeyFrame := none }

/-- The replay cache update of `BroadcastScreenFrame`: the last four config frames are kept, and a
key frame is kept unless it is too large. -/
def cacheFrame (h : Hub) (data : Bytes) : Hub :=
  match data with
  | flags :: _ :: _ =>
    let configs := h.screenConfigFrames ++ [data]
    { h with
      screenConfigFrames :=
        if flags &&& 1 ≠ 0 then configs.drop (configs.length - maxScreenReplayConfigFrames)
        else h.screenConfigFrames
      screenKeyFrame :=
        if flags &&& 2 ≠ 0 ∧ data.length ≤ maxScreenReplayFrameBytes then some data
        else h.screenKeyFrame }
  | _ => h

/-- Offer a frame to every client in the `clients` map. -/
def offerFrame (h : Hub) (data : Bytes) : Hub :=
  { h with
    client := fun c ↦ if h.clients c then ((h.client c).enqueueBin data).1 else h.client c }

/-- The part of `BroadcastScreenFrame` under `mu`. -/
def publishFrame (h : Hub) (data : Bytes) : Hub :=
  (h.cacheFrame data).offerFrame data

/-- The data of `screenInitMessage`. -/
def screenInitMessage (h : Hub) : WSMessage :=
  .screenInit ⟨h.screenSession, h.screenConfigFrames, h.screenKeyFrame⟩

/-! ### Sections under `controlMu` -/

/-- `endScreenSessionLocked`: disable later automatic OFF writes and detach the route. -/
def endScreenSessionLocked (h : Hub) : Hub × Option RouteId :=
  ({ h with
      screenActive := false
      screenHeaderReady := false
      displayOffDesired := false
      controlRoute := none }, h.controlRoute)

/-- The start of a new generation in `BeginScreenSession`, with its replay reset. -/
def startGeneration (h : Hub) : Hub :=
  clearReplay
    { h with
      screenGeneration := h.screenGeneration + 1
      screenActive := true
      screenHeaderReady := false
      displayOffDesired := true
      controlRoute := none }

/-- The header part of `SetScreenSession` after its replay reset. -/
def markHeaderReady (h : Hub) : Hub :=
  { h with screenHeaderReady := true }

/-- `BroadcastEvent`: the send on the `broadcast` channel. -/
def broadcastEvent (h : Hub) (message : WSMessage) : Hub :=
  { h with broadcast := h.broadcast ++ [message] }

/-- The allocation of a route in `RegisterControlRoute`. -/
def installRoute (h : Hub) (generation : ℕ) : Hub :=
  { h with
    route := Function.update h.route h.nextRoute ⟨generation, false, false⟩
    nextRoute := h.nextRoute + 1
    controlRoute := some h.nextRoute }

/-- The `ClearControlRoute` section under `controlMu`; the second component is `shouldClose`. -/
def detachRoute (h : Hub) (route : Option RouteId) : Hub × Bool :=
  if h.controlRoute = route then ({ h with controlRoute := none }, true) else (h, false)

/-! ### Sections under a route's `writeMu` -/

/-- `controlRoute.close`. -/
def closeRoute (h : Hub) (r : RouteId) : Hub :=
  { h with route := Function.update h.route r { h.route r with closed := true } }

/-- A write function returned: the call and its outcome are on record. -/
def recordWrite (h : Hub) (r : RouteId) (w : RouteWrite) (ok : Bool) : Hub :=
  { h with writes := h.writes ++ [(r, w, ok)] }

/-- The end of `sendDisplayOff` after a successful write. -/
def markOffSent (h : Hub) (r : RouteId) : Hub :=
  { h with route := Function.update h.route r { h.route r with displayOffSent := true } }

/-- The caller's `h.displayPowerOff = …`, under `displayMu`. -/
def setDisplayPowerOff (h : Hub) (off : Bool) : Hub :=
  { h with displayPowerOff := off }

end Hub

end AllRelay
