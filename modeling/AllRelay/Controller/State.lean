import AllRelay.Hub.Lifecycle

/-!
# The controller: its data and its lock-delimited sections

`web/controller.go` owns the connection to the phone: one `transport.Connection` with a socket slot
for each stream, a `StreamController` for each stream, and the goroutines that move the data.
`Server` is this state, with heaps for what the Go code has pointers to: connections, sockets,
contexts and the `done` channels of workers. A `done` channel is identified with its worker: it is
closed when the worker has exited.

Each section of `controller.go` that runs under one acquisition of `sc.mu` is a function on
`Server`. The operations are put together from these sections as interleaved steps, once for the
calls of `Connect` and `Disconnect` (`Controller.Connecting`) and once for those of `ToggleStream`
(`Controller.Toggle`).

The host and port of the phone, the metrics of the streams and the cleanup functions are left out:
no section decides anything by them.
-/

namespace AllRelay

/-- The index of a `transport.Connection`. -/
abbrev ConnId := ℕ

/-- The index of a socket. -/
abbrev SocketId := ℕ

/-- The index of a context with its cancel function. -/
abbrev CtxId := ℕ

/-- The index of a worker goroutine with its `done` channel. -/
abbrev WorkerId := ℕ

/-- The streams. -/
inductive StreamId where
  /-- `protocol.StreamScreen`. -/
  | screen
  /-- `protocol.StreamCamera`. -/
  | camera
  /-- `protocol.StreamMic`. -/
  | mic
  /-- `protocol.StreamSpeaker`. -/
  | speaker
  /-- `protocol.StreamControl`. -/
  | control
deriving DecidableEq, Repr

/-- Every stream. -/
def StreamId.all : List StreamId := [.screen, .camera, .mic, .speaker, .control]

theorem StreamId.mem_all (x : StreamId) : x ∈ all := by
  cases x <;> decide

/-- `StreamController`. -/
structure StreamController where
  /-- `Active`. -/
  active : Bool
  /-- `Running`. -/
  running : Bool
  /-- The context whose cancel function is in `cancel`. -/
  cancel : Option CtxId
  /-- The worker whose `done` channel is in `done`. -/
  done : Option WorkerId
  /-- `gen`. -/
  gen : ℕ
  /-- `hubGen`, 0 when the hub has no session of this stream. -/
  hubGen : ℕ
deriving DecidableEq, Repr

/-- A stream after `Disconnect`. -/
def StreamController.disconnected (c : StreamController) : StreamController :=
  { c with cancel := none, done := none, running := false, active := false, gen := c.gen + 1 }

/-- `transport.Connection`. -/
structure Connection where
  /-- `closed`. -/
  closed : Bool
  /-- The socket slots. -/
  slot : StreamId → Option SocketId

/-- Where a worker goroutine is. -/
inductive WorkerPhase where
  /-- In its capture loop. -/
  | running
  /-- The capture of a screen worker returned. -/
  | endingSession
  /-- Before `closeScreenControl`. -/
  | closingControl
  /-- Before the `CloseStream` of a screen worker. -/
  | closingStream
  /-- Before the section under `sc.mu`. -/
  | cleanup
  /-- Before its deferred `cancel()`. -/
  | cancelling
  /-- Before its deferred `close(done)`. -/
  | closingDone
  /-- The `done` channel is closed. -/
  | exited
deriving DecidableEq, Repr

/-- A worker goroutine with the arguments it was launched with. -/
structure Worker where
  /-- The stream. -/
  stream : StreamId
  /-- `conn`. -/
  conn : ConnId
  /-- `ctx` and `cancel`. -/
  ctx : CtxId
  /-- `gen`. -/
  gen : ℕ
  /-- `hubGeneration`, for a screen worker. -/
  hubGen : ℕ
  /-- The socket it reads from or writes to. -/
  socket : Option SocketId
  /-- Where it is. -/
  phase : WorkerPhase
deriving DecidableEq, Repr

/-- `ServerController`, with the heaps its pointers refer to. -/
structure Server where
  /-- `connected`. -/
  connected : Bool
  /-- `conn`. -/
  conn : Option ConnId
  /-- `connectGen`. -/
  connectGen : ℕ
  /-- The context whose cancel function is in `connectCancel`. -/
  connectCancel : Option CtxId
  /-- `streams`. -/
  stream : StreamId → StreamController
  /-- `controlConnection`. -/
  controlConnection : Option ConnId
  /-- `controlScreenGeneration`. -/
  controlScreenGeneration : ℕ
  /-- `controlHubGeneration`. -/
  controlHubGeneration : ℕ
  /-- The hub of the web server. -/
  hub : Hub
  /-- The heap of connections. -/
  connection : ConnId → Connection
  /-- The sockets that were closed. -/
  socketClosed : SocketId → Bool
  /-- The contexts that were cancelled. -/
  cancelled : CtxId → Bool
  /-- The heap of workers. -/
  worker : WorkerId → Worker
  /-- The first connection that is not allocated. -/
  nextConn : ConnId
  /-- The first socket that is not allocated. -/
  nextSocket : SocketId
  /-- The first context that is not allocated. -/
  nextCtx : CtxId
  /-- The first worker that is not allocated. -/
  nextWorker : WorkerId

namespace Server

/-- A stream that was never started. -/
def idleStream (gen : ℕ) : StreamController := ⟨false, false, none, none, gen, 0⟩

/-- `NewServerController`. -/
def newServerController : Server where
  connected := false
  conn := none
  connectGen := 0
  connectCancel := none
  stream _ := idleStream 0
  controlConnection := none
  controlScreenGeneration := 0
  controlHubGeneration := 0
  hub := Hub.newHub
  connection _ := ⟨false, fun _ ↦ none⟩
  socketClosed _ := false
  cancelled _ := false
  worker _ := ⟨.screen, 0, 0, 0, 0, none, .exited⟩
  nextConn := 0
  nextSocket := 0
  nextCtx := 0
  nextWorker := 0

/-- A worker whose `done` channel is not closed. -/
def Live (s : Server) (w : WorkerId) : Prop :=
  w < s.nextWorker ∧ (s.worker w).phase ≠ .exited

instance (s : Server) (w : WorkerId) : Decidable (s.Live w) :=
  inferInstanceAs (Decidable (_ ∧ _))

/-- A receive on an optional `done` channel does not block. -/
def joined (s : Server) (done : Option WorkerId) : Bool :=
  done.all fun w ↦ (s.worker w).phase = .exited

/-! ### Contexts, sockets and connections -/

/-- A call of an optional cancel function. -/
def cancel (s : Server) (ctx : Option CtxId) : Server :=
  { s with cancelled := fun c ↦ s.cancelled c || ctx = some c }

/-- `context.WithCancel`. -/
def withCancel (s : Server) : Server :=
  { s with cancelled := Function.update s.cancelled s.nextCtx false, nextCtx := s.nextCtx + 1 }

/-- The close of an optional socket. -/
def closeSocket (s : Server) (socket : Option SocketId) : Server :=
  { s with socketClosed := fun c ↦ s.socketClosed c || socket = some c }

/-- A socket was dialed. -/
def dialSocket (s : Server) : Server :=
  { s with
    socketClosed := Function.update s.socketClosed s.nextSocket false
    nextSocket := s.nextSocket + 1 }

/-- Put a socket, or none, into a slot. -/
def setSlot (s : Server) (k : ConnId) (x : StreamId) (socket : Option SocketId) : Server :=
  { s with
    connection := Function.update s.connection k
      { s.connection k with slot := Function.update (s.connection k).slot x socket } }

/-- `Connection.CloseStream`. -/
def closeStream (s : Server) (k : ConnId) (x : StreamId) : Server :=
  (s.setSlot k x none).closeSocket ((s.connection k).slot x)

/-- `Connection.HasStream`. -/
def hasStream (s : Server) (k : ConnId) (x : StreamId) : Bool :=
  ((s.connection k).slot x).isSome

/-- `Connection.InstallStream`; the second component says whether it returned nil. -/
def installStream (s : Server) (k : ConnId) (x : StreamId) (socket : SocketId) : Server × Bool :=
  if (s.connection k).closed then (s.closeSocket (some socket), false)
  else
    let old := (s.connection k).slot x
    let s := s.setSlot k x (some socket)
    (if old = some socket then s else s.closeSocket old, true)

/-- `Connection.Close`. -/
def closeConnection (s : Server) (k : ConnId) : Server :=
  if (s.connection k).closed then s
  else
    { s with
      connection := Function.update s.connection k ⟨true, fun _ ↦ none⟩
      socketClosed := fun c ↦
        s.socketClosed c || StreamId.all.any fun x ↦ (s.connection k).slot x = some c }

/-- `Connection.CloseControlConn`. -/
def closeControlConn (s : Server) (k : ConnId) (socket : Option SocketId) : Server :=
  match socket with
  | none => s
  | some c =>
    (if (s.connection k).slot .control = some c then s.setSlot k .control none else s).closeSocket
      (some c)

/-! ### Streams -/

/-- Update a stream's controller. -/
def setStream (s : Server) (x : StreamId) (c : StreamController) : Server :=
  { s with stream := Function.update s.stream x c }

/-- `hub.EndScreenSession` through the screen's `hubGen`, which is then 0. -/
def endScreenSession (s : Server) (ok : Bool) : Server :=
  let screen := s.stream .screen
  if screen.hubGen ≠ 0 then
    { s with hub := (s.hub.endScreenSession screen.hubGen ok).1 }.setStream .screen
      { screen with hubGen := 0 }
  else s

/-- The allocation of a worker of a stream, in the phase before its capture returns. -/
def addWorker (s : Server) (x : StreamId) (k : ConnId) (ctx : CtxId) (gen hubGen : ℕ) : Server :=
  { s with
    worker := Function.update s.worker s.nextWorker
      ⟨x, k, ctx, gen, hubGen, (s.connection k).slot x, .running⟩
    nextWorker := s.nextWorker + 1 }

/-- `prepareScreenControlReconnect`. -/
def prepareScreenControlReconnect (s : Server) (k : ConnId) (gen hubGen : ℕ) : Server :=
  { s with
    controlConnection := some k
    controlScreenGeneration := gen
    controlHubGeneration := hubGen }

/-- The check of the goroutines that own the control socket. -/
def ownsControl (s : Server) (k : ConnId) (gen hubGen : ℕ) : Bool :=
  s.controlConnection = some k ∧ s.controlScreenGeneration = gen ∧ s.controlHubGeneration = hubGen

/-- Forget the owner of the control socket. -/
def clearControl (s : Server) : Server :=
  { s with controlConnection := none, controlScreenGeneration := 0, controlHubGeneration := 0 }

/-- `closeScreenControl`. -/
def closeScreenControl (s : Server) (k : ConnId) (gen hubGen : ℕ) : Server :=
  if s.ownsControl k gen hubGen then
    s.clearControl.closeControlConn k ((s.connection k).slot .control)
  else s

/-- `launchScreenWorker` begins a session of the hub and passes the control socket on to it. -/
def beginScreenSession (s : Server) (k : ConnId) (gen : ℕ) (ok : Bool) : Server :=
  let hub := (s.hub.beginScreenSession ok).1
  ({ s with hub }.setStream .screen
    { s.stream .screen with hubGen := hub.screenGeneration }).prepareScreenControlReconnect k gen
      hub.screenGeneration

/-- The launch of the worker of a stream: `launchSpeakerWorker` and its relatives. -/
def launchWorker (s : Server) (x : StreamId) (k : ConnId) (ctx : CtxId) (gen : ℕ) (ok : Bool) :
    Server :=
  match x with
  | .screen =>
    let s := s.beginScreenSession k gen ok
    s.addWorker .screen k ctx gen s.hub.screenGeneration
  | x => s.addWorker x k ctx gen 0

theorem launchWorker_of_ne (s : Server) {x : StreamId} (h : x ≠ .screen) (k : ConnId) (ctx : CtxId)
    (gen : ℕ) (ok : Bool) : s.launchWorker x k ctx gen ok = s.addWorker x k ctx gen 0 := by
  cases x
  · exact absurd rfl h
  all_goals rfl

/-- `launchSpeakerWorkerLocked`. -/
def launchSpeakerWorkerLocked (s : Server) (k : ConnId) : Server :=
  let speaker := s.stream .speaker
  if s.hasStream k .speaker then
    let ctx := s.nextCtx
    let s := s.withCancel.setStream .speaker
      { speaker with
        running := true, active := true, gen := speaker.gen + 1, cancel := some ctx
        done := some s.nextWorker }
    s.launchWorker .speaker k ctx (speaker.gen + 1) true
  else s.setStream .speaker { speaker with active := false, running := false }

/-! ### The sections of Disconnect -/

/-- `Disconnect` cancels a `Connect` in its dial. -/
def abortConnect (s : Server) : Server :=
  if s.connectCancel.isSome then
    { s.cancel s.connectCancel with connectCancel := none, connectGen := s.connectGen + 1 }
  else s

/-- The workers that `Disconnect` waits for. -/
def dones (s : Server) : List WorkerId :=
  StreamId.all.filterMap fun x ↦ (s.stream x).done

/-- `Disconnect` resets the streams, the owner of the control socket and the connection. -/
def detach (s : Server) : Server :=
  { s.clearControl with
    cancelled := fun c ↦ s.cancelled c || StreamId.all.any fun x ↦ (s.stream x).cancel = some c
    stream := fun x ↦ (s.stream x).disconnected
    conn := none
    connected := false }

/-- The locked section of `Disconnect`, with the connection to close and the workers to wait for if
it was connected. -/
def disconnectLocked (s : Server) (ok : Bool) : Server × Option (Option ConnId × List WorkerId) :=
  let s := s.abortConnect
  if s.connected then
    let s := s.endScreenSession ok
    (s.detach, some (s.conn, s.dones))
  else (s, none)

/-- `conn.Close()` on a connection that may be nil. -/
def closeConn (s : Server) (conn : Option ConnId) : Server :=
  conn.elim s s.closeConnection

/-! ### The exit of a worker -/

/-- The section of an exiting worker under `sc.mu`. -/
def workerCleanup (s : Server) (v : Worker) : Server :=
  let c := s.stream v.stream
  if c.running ∧ c.gen = v.gen ∧ s.conn = some v.conn ∧
      (v.stream = .screen → c.hubGen = v.hubGen) then
    match v.stream with
    | .screen => s.setStream .screen { c with running := false, active := false, hubGen := 0 }
    | x => (s.closeStream v.conn x).setStream x { c with running := false, active := false }
  else s

/-- A worker goes on to a phase. -/
def setPhase (s : Server) (w : WorkerId) (phase : WorkerPhase) : Server :=
  { s with worker := Function.update s.worker w { s.worker w with phase } }

/-- The next step of a worker; in its capture loop it may return at any time. `ok` is the outcome of
the display write of `EndScreenSession`. -/
def workerStep (s : Server) (w : WorkerId) (ok : Bool) : Option Server :=
  let v := s.worker w
  if s.nextWorker ≤ w then none
  else
    match v.phase with
    | .running => some (s.setPhase w (if v.stream = .screen then .endingSession else .cleanup))
    | .endingSession =>
      some ({ s with hub := (s.hub.endScreenSession v.hubGen ok).1 }.setPhase w .closingControl)
    | .closingControl =>
      some ((s.closeScreenControl v.conn v.gen v.hubGen).setPhase w .closingStream)
    | .closingStream => some ((s.closeStream v.conn .screen).setPhase w .cleanup)
    | .cleanup => some ((s.workerCleanup v).setPhase w .cancelling)
    | .cancelling => some ((s.cancel (some v.ctx)).setPhase w .closingDone)
    | .closingDone => some (s.setPhase w .exited)
    | .exited => none

/-! ### What the operations change -/

section Fields

variable (s : Server) (k j : ConnId) (x y : StreamId) (w v : WorkerId)

theorem withCancel_cancelled {c : CtxId} (h : c < s.nextCtx) :
    s.withCancel.cancelled c = s.cancelled c :=
  Function.update_of_ne (Nat.ne_of_lt h) _ _

theorem closeSocket_socketClosed (socket : Option SocketId) (c : SocketId) :
    (s.closeSocket socket).socketClosed c = (s.socketClosed c || decide (socket = some c)) :=
  rfl

@[simp]
theorem setSlot_closed (socket : Option SocketId) :
    ((s.setSlot k x socket).connection j).closed = (s.connection j).closed := by
  simp only [setSlot, Function.update_apply]
  split
  · rename_i hj
    rw [hj]
  · rfl

theorem setSlot_slot (socket : Option SocketId) :
    ((s.setSlot k x socket).connection j).slot y =
      if j = k ∧ y = x then socket else (s.connection j).slot y := by
  simp only [setSlot, Function.update_apply]
  obtain rfl | hj := eq_or_ne j k
  · simp [Function.update_apply]
  · rw [if_neg hj, if_neg fun h ↦ hj h.1]

@[simp]
theorem closeStream_closed :
    ((s.closeStream k x).connection j).closed = (s.connection j).closed :=
  s.setSlot_closed k j x none

theorem closeStream_slot : ((s.closeStream k x).connection j).slot y =
    if j = k ∧ y = x then none else (s.connection j).slot y :=
  s.setSlot_slot k j x y none

theorem setStream_stream (c : StreamController) :
    (s.setStream x c).stream y = if y = x then c else s.stream y :=
  Function.update_apply ..

theorem setPhase_worker (phase : WorkerPhase) :
    (s.setPhase w phase).worker v = if v = w then { s.worker w with phase } else s.worker v :=
  Function.update_apply ..

/-- The workers are not touched by a change of the other fields. -/
theorem live_congr {s t : Server} (hw : t.worker = s.worker) (hn : t.nextWorker = s.nextWorker) :
    t.Live w ↔ s.Live w := by
  rw [Live, Live, hw, hn]

/-- A worker that is alive after a launch is the new one, or it was alive before. -/
theorem live_addWorker {s : Server} {x : StreamId} {k : ConnId} {ctx : CtxId} {gen hubGen : ℕ}
    {w : WorkerId} (h : (s.addWorker x k ctx gen hubGen).Live w) :
    (w = s.nextWorker ∧ (s.addWorker x k ctx gen hubGen).worker w =
        ⟨x, k, ctx, gen, hubGen, (s.connection k).slot x, .running⟩) ∨
      (s.Live w ∧ (s.addWorker x k ctx gen hubGen).worker w = s.worker w) := by
  simp only [addWorker, Live] at h ⊢
  obtain rfl | hw := eq_or_ne w s.nextWorker
  · rw [Function.update_self]
    exact .inl ⟨rfl, rfl⟩
  · rw [Function.update_of_ne hw] at h ⊢
    exact .inr ⟨⟨Nat.lt_of_le_of_ne (Nat.le_of_lt_succ h.1) hw, h.2⟩, rfl⟩

theorem closeControlConn_worker (socket : Option SocketId) :
    (s.closeControlConn k socket).worker = s.worker ∧
      (s.closeControlConn k socket).nextWorker = s.nextWorker := by
  rcases socket with _ | c
  · exact ⟨rfl, rfl⟩
  · simp only [closeControlConn, closeSocket]
    split <;> exact ⟨rfl, rfl⟩

theorem closeScreenControl_worker (gen hubGen : ℕ) :
    (s.closeScreenControl k gen hubGen).worker = s.worker ∧
      (s.closeScreenControl k gen hubGen).nextWorker = s.nextWorker := by
  rw [closeScreenControl]
  split
  · exact s.clearControl.closeControlConn_worker k _
  · exact ⟨rfl, rfl⟩

theorem workerCleanup_worker (v : Worker) :
    (s.workerCleanup v).worker = s.worker ∧ (s.workerCleanup v).nextWorker = s.nextWorker := by
  rw [workerCleanup]
  split
  · split <;> exact ⟨rfl, rfl⟩
  · exact ⟨rfl, rfl⟩

theorem closeConnection_closed :
    ((s.closeConnection k).connection j).closed = ((s.connection j).closed || decide (j = k)) := by
  rw [closeConnection]
  split
  · rename_i hk
    obtain rfl | hj := eq_or_ne j k
    · rw [hk, Bool.true_or]
    · rw [decide_eq_false hj, Bool.or_false]
  · simp only [Function.update_apply]
    obtain rfl | hj := eq_or_ne j k
    · rw [if_pos rfl, decide_eq_true rfl, Bool.or_true]
    · rw [if_neg hj, decide_eq_false hj, Bool.or_false]

end Fields

end Server

end AllRelay
