import AllRelay.Controller.Toggle

/-!
# The control socket of a screen session

`launchScreenWorker` starts a second goroutine next to the worker: `reconnectScreenControl` dials
the control socket of the session, puts it into the slot of the connection and registers the control
route of the hub over it. It may still be on its way when the worker exits, when `Disconnect` runs,
or when the next screen session has begun.

A goroutine has the arguments of the worker it was launched with, so it is named by that worker. Its
sections under `controlMu` and `sc.mu`, the dial and the call of the hub are one step each; a
section under `controlMu` that another goroutine could run in the middle of a section under `sc.mu`
may as well run before it or after it. The rest of the session runs as in `Controller.Session`, and
`Event.hub` is a call of the hub that the controller does not make.
-/

open LabelledSystem

namespace AllRelay.ScreenControl

/-- Where a `reconnectScreenControl` goroutine is. -/
inductive Phase where
  /-- Not launched. -/
  | idle
  /-- Before its first section. -/
  | entering
  /-- In its dial. -/
  | dialing
  /-- Before the section that installs the socket. -/
  | dialed (socket : SocketId)
  /-- Before the check of `stillCurrent`. -/
  | checking (controlConn : Option SocketId)
  /-- Before `RegisterControlRoute`. -/
  | registering (controlConn : Option SocketId)
  /-- Before `closeControlConn`. -/
  | closing (controlConn : Option SocketId)
  /-- Returned. -/
  | done
deriving DecidableEq, Repr

/-- A session with its `reconnectScreenControl` goroutines. -/
structure State where
  /-- The controller and the calls. -/
  session : Session.State
  /-- The goroutines. -/
  reconnect : WorkerId → Phase
  /-- The socket that the write function of a control route writes to. -/
  routeSocket : RouteId → Option SocketId
  /-- History: the goroutine that dialed a socket. -/
  dialer : SocketId → Option WorkerId

/-- The controller. -/
abbrev State.server (s : State) : Server :=
  s.session.server

/-- What the scheduler chooses. -/
inductive Event where
  /-- A step of the session. -/
  | session (e : Session.Event)
  /-- The next section of a goroutine; `ok` is the outcome of its dial or of a display write. -/
  | reconnect (w : WorkerId) (ok : Bool)
  /-- A header, a frame or control input reaches the hub. -/
  | hub (op : Hub.Op) (ok : Bool)
deriving DecidableEq, Repr

end AllRelay.ScreenControl

namespace AllRelay.Server

open ScreenControl

/-- The first section of `reconnectScreenControl`. -/
def reconnectEnter (s : Server) (v : Worker) : Server × Phase :=
  if s.ownsControl v.conn v.gen v.hubGen then (s.closeStream v.conn .control, .dialing)
  else (s, .done)

/-- The section of `reconnectScreenControl` after the dial. -/
def reconnectInstall (s : Server) (v : Worker) (socket : SocketId) : Server × Phase :=
  if s.ownsControl v.conn v.gen v.hubGen = false ∨ s.cancelled v.ctx = true then
    (s.closeSocket (some socket), .done)
  else
    match s.installStream v.conn .control socket with
    | (s, true) => (s, .checking ((s.connection v.conn).slot .control))
    | (s, false) => (s.closeSocket (some socket), .done)

/-- `stillCurrent`. -/
def stillCurrent (s : Server) (v : Worker) : Bool :=
  s.connected ∧ s.conn = some v.conn ∧ (s.stream .screen).gen = v.gen ∧
    (s.stream .screen).hubGen = v.hubGen ∧ (s.stream .screen).running

end AllRelay.Server

namespace AllRelay.ScreenControl

/-- The session goes on, and a new screen worker comes with its goroutine. -/
def State.follow (s : State) (session : Session.State) : State :=
  let w := s.server.nextWorker
  { s with
    session
    reconnect :=
      if w < session.server.nextWorker ∧ (session.server.worker w).stream = .screen then
        Function.update s.reconnect w .entering
      else s.reconnect }

/-- A goroutine goes on with the result of its section. -/
def State.put (s : State) (w : WorkerId) (r : Server × Phase) : State :=
  { s with
    session := { s.session with server := r.1 }
    reconnect := Function.update s.reconnect w r.2 }

/-- `RegisterControlRoute` with a write function over `controlConn`. -/
def State.register (s : State) (w : WorkerId) (controlConn : Option SocketId) (ok : Bool) : State :=
  match s.server.hub.registerControlRoute (s.server.worker w).hubGen ok with
  | (hub, some r, _) =>
    { s.put w ({ s.server with hub }, .done) with
      routeSocket := Function.update s.routeSocket r controlConn }
  | (hub, none, _) => s.put w ({ s.server with hub }, .closing controlConn)

/-- The next section of a goroutine. -/
def State.advance (s : State) (w : WorkerId) (ok : Bool) : Option State :=
  let v := s.server.worker w
  match s.reconnect w with
  | .idle => none
  | .entering => some (s.put w (s.server.reconnectEnter v))
  | .dialing =>
    if ok then
      some { s.put w (s.server.dialSocket, .dialed s.server.nextSocket) with
        dialer := Function.update s.dialer s.server.nextSocket (some w) }
    else some (s.put w (s.server, .done))
  | .dialed socket => some (s.put w (s.server.reconnectInstall v socket))
  | .checking controlConn =>
    if s.server.stillCurrent v then some (s.put w (s.server, .registering controlConn))
    else some (s.put w (s.server, .closing controlConn))
  | .registering controlConn => some (s.register w controlConn ok)
  | .closing controlConn => some (s.put w (s.server.closeControlConn v.conn controlConn, .done))
  | .done => none

/-- The calls of the hub that come from outside the controller. -/
def outside : Hub.Op → Bool
  | .setSession .. | .write _ | .frame .. => true
  | _ => false

/-- One step of the system. -/
def step (s : State) : Event → Option State
  | .session e => (Session.step s.session e).map s.follow
  | .reconnect w ok => s.advance w ok
  | .hub op ok =>
    if outside op then
      some { s with
        session := { s.session with
          server := { s.server with hub := s.server.hub.perform ok op } } }
    else none

/-- A session starts with no screen session and no owner of the control socket. -/
structure Starts (s : State) : Prop where
  /-- The session. -/
  session : Session.Starts s.session
  /-- The hub has no screen session. -/
  hub : s.server.hub.screenActive = false ∧ s.server.hub.controlRoute = none
  /-- The last `Disconnect` cleared the owner. -/
  owner : s.server.controlConnection = none
  /-- The sockets of the connection are allocated. -/
  slot : ∀ k x c, (s.server.connection k).slot x = some c → c < s.server.nextSocket
  /-- No goroutine runs. -/
  reconnect : ∀ w, s.reconnect w = .idle
  /-- No control socket was dialed. -/
  dialer : ∀ c, s.dialer c = none

end AllRelay.ScreenControl
