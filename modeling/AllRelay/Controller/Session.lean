import AllRelay.Library.LabelledSystem
import AllRelay.Controller.Connecting

/-!
# The calls of one connected session

After the commit of a `Connect`, any number of `ToggleStream` calls, ON and OFF, for any streams and
of `Disconnect` calls run at once with the worker goroutines. A start gives up `sc.mu` to wait for
the previous worker and again to dial, a stop to wait for the worker. A call is a `Phase`, `step`
runs the next section of one call or of one worker, and a session starts where a `Connect` has just
committed to an idle controller (`Starts`).

`stream.gen` arbitrates: every start, stop and `Disconnect` takes the next generation of the stream,
and a section after a wait or a dial changes the stream only if the generation is still its own.
-/

open LabelledSystem

namespace AllRelay.Session

/-- The index of a call. -/
abbrev CallId := ℕ

/-- What a call returned. A start carries the socket that it dialed. -/
inductive Outcome where
  /-- ON returned nil after it launched a worker. -/
  | started (socket : Option SocketId)
  /-- ON returned nil because the stream is active. -/
  | alreadyRunning
  /-- ON returned an error. -/
  | startFailed (socket : Option SocketId)
  /-- OFF returned nil. -/
  | stopped
  /-- OFF returned an error. -/
  | stopFailed
  /-- `Disconnect` returned. -/
  | disconnected
  /-- The stream cannot be toggled. -/
  | unknownStream
deriving DecidableEq, Repr

/-- Where a call is. -/
inductive Phase where
  /-- Not called yet. -/
  | idle
  /-- ON waits for the previous worker. -/
  | joining (x : StreamId) (conn : Option ConnId) (waitGen : ℕ) (done : Option WorkerId)
  /-- ON dials. -/
  | dialing (x : StreamId) (k : ConnId) (gen : ℕ) (ctx : CtxId)
  /-- The dial of ON failed. -/
  | dialFailed (x : StreamId) (k : ConnId) (gen : ℕ)
  /-- ON is before its commit section, with the socket that it dialed. -/
  | dialed (x : StreamId) (k : ConnId) (gen : ℕ) (ctx : CtxId) (socket : Option SocketId)
  /-- OFF found no worker, and is before its call of the cancel function. -/
  | stopCancelling (x : StreamId) (ctx : Option CtxId)
  /-- OFF waits for the worker. -/
  | stopping (x : StreamId) (gen : ℕ) (done : Option WorkerId)
  /-- `Disconnect` is before `conn.Close()`. -/
  | closing (conn : Option ConnId) (dones : List WorkerId)
  /-- `Disconnect` waits for the workers. -/
  | waiting (dones : List WorkerId)
  /-- Returned. -/
  | returned (outcome : Outcome)
deriving DecidableEq, Repr

/-- The controller and the calls. -/
structure State where
  /-- The controller. -/
  server : Server
  /-- The calls. -/
  call : CallId → Phase

/-- What the scheduler chooses. -/
inductive Event where
  /-- A call of `ToggleStream(x, true)` enters. -/
  | start (c : CallId) (x : StreamId)
  /-- A call of `ToggleStream(x, false)` enters; `ok` is the outcome of a display write. -/
  | stop (c : CallId) (x : StreamId) (ok : Bool)
  /-- A call of `Disconnect` enters. -/
  | disconnect (c : CallId) (ok : Bool)
  /-- The next section of a call; `ok` is the outcome of its dial or of a display write. -/
  | advance (c : CallId) (ok : Bool)
  /-- The next step of a worker. -/
  | worker (w : WorkerId) (ok : Bool)
deriving DecidableEq, Repr

end AllRelay.Session

namespace AllRelay.Server

open Session

/-- `conn.CloseStream` on a connection that may be nil. -/
def closeConnStream (s : Server) (conn : Option ConnId) (x : StreamId) : Server :=
  conn.elim s fun k ↦ s.closeStream k x

/-- The part of `startStream` that starts the dial. -/
def startDial (s : Server) (x : StreamId) : Server × Phase :=
  match s.conn with
  | none => (s, .returned (.startFailed none))
  | some k =>
    let c := s.stream x
    let ctx := s.nextCtx
    let s := (s.cancel c.cancel).withCancel.setStream x
      { c with gen := c.gen + 1, cancel := some ctx }
    let needsDial := x = .screen ∨ s.hasStream k x = false
    let s := if x = .screen then s.closeStream k x else s
    (s, if needsDial then .dialing x k (c.gen + 1) ctx else .dialed x k (c.gen + 1) ctx none)

/-- The first section of `startStream`. -/
def startEnter (s : Server) (x : StreamId) : Server × Phase :=
  if s.connected = false then (s, .returned (.startFailed none))
  else
    let c := s.stream x
    if c.running ∧ c.active then (s, .returned .alreadyRunning)
    else if c.running ∨ c.done.isSome then
      let conn := s.conn
      let s := (s.setStream x { c with cancel := none, gen := c.gen + 1 }).cancel c.cancel
      (s.closeConnStream conn x, .joining x conn (c.gen + 1) c.done)
    else s.startDial x

/-- The section of `startStream` after the wait. -/
def startResume (s : Server) (x : StreamId) (conn : Option ConnId) (waitGen : ℕ) :
    Server × Phase :=
  let c := s.stream x
  if s.connected = false ∨ s.conn ≠ conn ∨ c.gen ≠ waitGen then (s, .returned (.startFailed none))
  else (s.setStream x { c with done := none, running := false }).startDial x

/-- `startStream` gives the stream up if the generation is still its own. -/
def startAbort (s : Server) (x : StreamId) (gen : ℕ) : Server :=
  let c := s.stream x
  if c.gen = gen then s.setStream x { c with active := false, running := false, cancel := none }
  else s

/-- The section of `startStream` after a failed dial. -/
def startDialFailed (s : Server) (x : StreamId) (k : ConnId) (gen : ℕ) : Server :=
  if s.conn = some k then s.startAbort x gen else s

/-- The check of the commit section of `startStream`. -/
def mayStart (s : Server) (x : StreamId) (k : ConnId) (gen : ℕ) (ctx : CtxId) : Bool :=
  s.connected ∧ s.conn = some k ∧ (s.stream x).gen = gen ∧ s.cancelled ctx = false

/-- The launch at the end of `startStream`. -/
def startLaunch (s : Server) (x : StreamId) (k : ConnId) (gen : ℕ) (ctx : CtxId) (ok : Bool) :
    Server :=
  (s.setStream x
    { s.stream x with running := true, active := true, done := some s.nextWorker }).launchWorker
      x k ctx gen ok

/-- The commit section of `startStream`. -/
def startCommit (s : Server) (x : StreamId) (k : ConnId) (gen : ℕ) (ctx : CtxId)
    (socket : Option SocketId) (ok : Bool) : Server × Phase :=
  if s.mayStart x k gen ctx then
    match socket with
    | none => (s.startLaunch x k gen ctx ok, .returned (.started none))
    | some c =>
      match s.installStream k x c with
      | (s, true) => (s.startLaunch x k gen ctx ok, .returned (.started (some c)))
      | (s, false) =>
        (((s.cancel (some ctx)).closeSocket (some c)).startAbort x gen,
          .returned (.startFailed (some c)))
  else
    (((s.cancel (some ctx)).closeSocket socket).startAbort x gen, .returned (.startFailed socket))

/-- The first section of `stopStream`. -/
def stopEnter (s : Server) (x : StreamId) (ok : Bool) : Server × Phase :=
  if s.connected = false then (s, .returned .stopFailed)
  else
    let c := s.stream x
    let conn := s.conn
    let s := s.setStream x { c with cancel := none, gen := c.gen + 1, active := false }
    if c.running = false ∧ c.done = none then (s, .stopCancelling x c.cancel)
    else
      let s := if x = .screen then s.endScreenSession ok else s
      ((s.cancel c.cancel).closeConnStream conn x, .stopping x (c.gen + 1) c.done)

/-- The last section of `stopStream`. -/
def stopFinish (s : Server) (x : StreamId) (gen : ℕ) : Server :=
  let c := s.stream x
  if c.gen = gen then s.setStream x { c with running := false, active := false, done := none }
  else s

/-- The locked section of `Disconnect`. -/
def disconnectEnter (s : Server) (ok : Bool) : Server × Phase :=
  match s.disconnectLocked ok with
  | (s, some (conn, dones)) => (s, .closing conn dones)
  | (s, none) => (s, .returned .disconnected)

end AllRelay.Server

namespace AllRelay.Session

/-- The next section of a call. -/
def advance (s : Server) (ok : Bool) : Phase → Option (Server × Phase)
  | .idle => none
  | .joining x conn waitGen done =>
    if s.joined done then some (s.startResume x conn waitGen) else none
  | .dialing x k gen ctx =>
    if ok then some (s.dialSocket, .dialed x k gen ctx (some s.nextSocket))
    else some (s.cancel (some ctx), .dialFailed x k gen)
  | .dialFailed x k gen => some (s.startDialFailed x k gen, .returned (.startFailed none))
  | .dialed x k gen ctx socket => some (s.startCommit x k gen ctx socket ok)
  | .stopCancelling _ ctx => some (s.cancel ctx, .returned .stopped)
  | .stopping x gen done =>
    if s.joined done then some (s.stopFinish x gen, .returned .stopped) else none
  | .closing conn dones => some (s.closeConn conn, .waiting dones)
  | .waiting dones =>
    if dones.all fun w ↦ s.joined (some w) then some (s, .returned .disconnected) else none
  | .returned _ => none

/-- A call goes on with the result of its section. -/
def State.put (s : State) (c : CallId) (r : Server × Phase) : State :=
  ⟨r.1, Function.update s.call c r.2⟩

/-- One step of the system. -/
def step (s : State) : Event → Option State
  | .start c x =>
    if s.call c ≠ .idle then none
    else if x = .control then some (s.put c (s.server, .returned .unknownStream))
    else some (s.put c (s.server.startEnter x))
  | .stop c x ok =>
    if s.call c ≠ .idle then none
    else if x = .control then some (s.put c (s.server, .returned .unknownStream))
    else some (s.put c (s.server.stopEnter x ok))
  | .disconnect c ok =>
    if s.call c ≠ .idle then none else some (s.put c (s.server.disconnectEnter ok))
  | .advance c ok => (advance s.server ok (s.call c)).map (s.put c)
  | .worker w ok => (s.server.workerStep w ok).map fun server ↦ { s with server }

/-- A controller between two sessions: it is disconnected, and every worker has exited. -/
structure Idle (s : Server) : Prop where
  /-- Disconnected. -/
  connected : s.connected = false
  /-- The streams are idle; their generations are arbitrary. -/
  stream : ∀ x, ∃ gen, s.stream x = Server.idleStream gen
  /-- No worker is alive. -/
  worker : ∀ w, ¬s.Live w

/-- The session starts: a `Connect` dialed a connection with a speaker stream and has just committed
it to an idle controller. -/
def Starts (s : State) : Prop :=
  (∃ s₀ gen ctx k socket, Idle s₀ ∧ s₀.mayConnect gen ctx = true ∧
    s₀.connection k = ⟨false, fun x ↦ if x = .speaker then some socket else none⟩ ∧
    s.server = s₀.connectCommit gen ctx k) ∧ ∀ c, s.call c = .idle

end AllRelay.Session
