import Mathlib.Data.Int.Notation
import AllRelay.Controller.ActiveStreams
import AllRelay.Library.DelayedWrite

/-!
# The published status

The web server keeps a copy of what the controller knows, `currentConn`, for its clients. Every
section of the controller that changes something visible is followed, outside `sc.mu`, by
publications: `SetConnectionStatus` for the connection and `publishCanonicalStatus` for the streams.
Each of them takes `ws.mu` to store its part and to take a snapshot, and broadcasts the snapshot
afterwards.

The system below is the controller with its calls of `Connect`, `Disconnect` and `ToggleStream` and
its workers, where every caller carries the publications it has still to make. Nothing orders the
publications of different callers: `SetConnectionStatus` stores what its caller knew, however long
ago (`delayed_publication_overwrites`). As long as no publication overtakes a newer one, each of the
three copies, the connection, the streams and the last broadcast, is current or about to be brought
up to date (`Published`), and they all agree when nothing is under way (`published_status`). For the
copy of the connection alone it is enough that the publications of the connection keep to their
order (`Copied`).
-/

open LabelledSystem DelayedWrite

namespace AllRelay.Publication

/-- The index of a call. -/
abbrev CallId := ℕ

/-- The metrics of a `StreamController`. -/
structure Metrics where
  fps : ℤ
  bitrate : ℤ
  latency : ℤ
  bytes : ℤ
  frames : ℤ
deriving DecidableEq, Repr

/-- `StreamStatus`; the name and the port are those of the stream. -/
structure StreamStatus where
  stream : StreamId
  active : Bool
  metrics : Metrics
deriving DecidableEq, Repr

/-- `ConnectionStatus`, with the IP of its phone and without the ADB status. -/
structure ConnectionStatus where
  phone : Option String
  streams : List StreamStatus
  connected : Bool
deriving DecidableEq, Repr

/-- The streams of `GetStreamStatus`. -/
def publishedStreams : List StreamId :=
  [.screen, .camera, .mic, .speaker]

/-- A step of a publication that is still to be made. -/
inductive PublishStep where
  /-- `SetConnectionStatus`, up to its broadcast; the version is that of the connection. -/
  | setConnectionStatus (connected : Bool) (phone : Option String) (version : ℕ)
  /-- `publishCanonicalStatus`, before `GetStreamStatus`. -/
  | getStreamStatus
  /-- The section of `snapshotStatus` under `ws.mu`, with what `GetStreamStatus` returned. -/
  | snapshotStatus (streams : List StreamStatus) (version : ℕ)
  /-- `BroadcastStatus` of a snapshot. -/
  | broadcastStatus (status : ConnectionStatus) (version : ℕ)
deriving DecidableEq, Repr

/-- Who publishes. -/
inductive Caller where
  /-- A call of `Connect` or `Disconnect`. -/
  | connecting (c : CallId)
  /-- A call of `ToggleStream`. -/
  | toggling (c : CallId)
  /-- An exiting worker. -/
  | worker (w : WorkerId)
  /-- A call of `UpdateStreamMetrics`. -/
  | metrics (i : ℕ)
deriving DecidableEq, Repr

/-- The controller, the calls and the web server. -/
structure State where
  server : Server
  /-- `host` of the controller. -/
  host : String
  /-- The metrics of the streams. -/
  metrics : StreamId → Metrics
  /-- The calls of `Connect` and `Disconnect`. -/
  connecting : CallId → Connecting.Phase
  /-- The host that a `Connect` was called with. -/
  target : CallId → String
  /-- The calls of `ToggleStream`. -/
  toggling : CallId → Session.Phase
  /-- What the callers have still to publish. -/
  publishing : Caller → List PublishStep
  /-- `currentConn` of the web server. -/
  currentConn : ConnectionStatus
  /-- The status that was broadcast last; its version counts the snapshots. -/
  broadcast : Cell ConnectionStatus
  /-- History: the version of the connection. -/
  connectionVersion : ℕ
  /-- History: the version of the streams. -/
  streamsVersion : ℕ
  /-- History: the version of the connection in `currentConn`. -/
  storedConnection : ℕ
  /-- History: the version of the streams in `currentConn`. -/
  storedStreams : ℕ
  /-- History: the number of snapshots that were taken. -/
  snapshots : ℕ

namespace State

/-- `NewWebServer`; the status that a client sees first counts as broadcast. -/
def initial : State where
  server := Server.newServerController
  host := ""
  metrics _ := ⟨0, 0, 0, 0, 0⟩
  connecting _ := .idle
  target _ := ""
  toggling _ := .idle
  publishing _ := []
  currentConn := ⟨none, publishedStreams.map fun x ↦ ⟨x, false, ⟨0, 0, 0, 0, 0⟩⟩, false⟩
  broadcast :=
    ⟨⟨none, publishedStreams.map fun x ↦ ⟨x, false, ⟨0, 0, 0, 0, 0⟩⟩, false⟩, 0⟩
  connectionVersion := 0
  streamsVersion := 0
  storedConnection := 0
  storedStreams := 0
  snapshots := 0

/-- What the web server is to say about the connection. -/
def connection (s : State) : Bool × Option String :=
  (s.server.connected, if s.server.connected then some s.host else none)

/-- `GetStreamStatus`. -/
def getStreamStatus (s : State) : List StreamStatus :=
  publishedStreams.map fun x ↦ ⟨x, (s.server.stream x).active, s.metrics x⟩

/-- A section of the controller, which counts a change of what is to be published. -/
def move (s : State) (server : Server) (host : String) (metrics : StreamId → Metrics) : State :=
  let t := { s with server, host, metrics }
  { t with
    connectionVersion :=
      if t.connection = s.connection then s.connectionVersion else s.connectionVersion + 1
    streamsVersion :=
      if t.getStreamStatus = s.getStreamStatus then s.streamsVersion else s.streamsVersion + 1 }

/-- A caller has something to publish. -/
def publish (s : State) (p : Caller) (steps : List PublishStep) : State :=
  { s with publishing := Function.update s.publishing p steps }

/-- The publications of `Connect` and `Disconnect`. -/
def publishConnection (s : State) (c : CallId) (connected : Bool) (phone : Option String) : State :=
  s.publish (.connecting c)
    [.setConnectionStatus connected phone s.connectionVersion, .getStreamStatus]

/-- `SetConnectionStatus`, up to its broadcast, and the section of `snapshotStatus`: the new status
is stored, and its snapshot is to be broadcast. -/
def store (s : State) (p : Caller) (status : ConnectionStatus) (rest : List PublishStep) : State :=
  { s with currentConn := status, snapshots := s.snapshots + 1 }.publish p
    (.broadcastStatus status (s.snapshots + 1) :: rest)

/-- The next step of a publication. -/
def publishStep (s : State) (p : Caller) : Option State :=
  match s.publishing p with
  | [] => none
  | .setConnectionStatus connected phone version :: rest =>
    some ({ s with storedConnection := version }.store p
      { s.currentConn with connected, phone } rest)
  | .getStreamStatus :: rest =>
    some (s.publish p (.snapshotStatus s.getStreamStatus s.streamsVersion :: rest))
  | .snapshotStatus streams version :: rest =>
    some ({ s with storedStreams := version }.store p { s.currentConn with streams } rest)
  | .broadcastStatus status version :: rest =>
    some ({ s with broadcast := ⟨status, version⟩ }.publish p rest)

/-- The next section of a call of `Connect` or `Disconnect`. -/
def advanceConnecting (s : State) (c : CallId) (ok : Bool) : Option State :=
  match Connecting.advance s.server ok (s.connecting c) with
  | none => none
  | some (server, phase) =>
    let t := { s with connecting := Function.update s.connecting c phase }
    some <|
      match s.connecting c with
      | .disconnect _ =>
        if s.server.connected then
          (t.move server "" s.metrics).publishConnection c false none
        else t.move server s.host s.metrics
      | .dialed gen ctx _ =>
        if s.server.mayConnect gen ctx then
          (t.move server (s.target c) s.metrics).publishConnection c true (some (s.target c))
        else t.move server s.host s.metrics
      | _ => t.move server s.host s.metrics

/-- A section of a call of `ToggleStream` returns. -/
def putToggling (s : State) (c : CallId) (r : Server × Session.Phase) : State :=
  { s with toggling := Function.update s.toggling c r.2 }.move r.1 s.host s.metrics

/-- Whether `publishCanonicalStatus` follows a section of `ToggleStream`. -/
def publishes (s : Server) : Session.Phase → Bool
  | .dialFailed _ _ _ => true
  -- An aborted start does not publish.
  | .dialed x k gen ctx _ => s.mayStart x k gen ctx
  | .stopCancelling _ _ => true
  | .stopping _ _ _ => true
  | _ => false

/-- The next section of a call of `ToggleStream`. -/
def advanceToggling (s : State) (c : CallId) (ok : Bool) : Option State :=
  (Session.advance s.server ok (s.toggling c)).map fun r ↦
    if publishes s.server (s.toggling c) then
      (s.putToggling c r).publish (.toggling c) [.getStreamStatus]
    else s.putToggling c r

/-- `wasRunning` of an exiting worker. -/
def wasRunning (s : Server) (v : Worker) : Bool :=
  let c := s.stream v.stream
  c.running && c.gen = v.gen && s.conn = some v.conn &&
    (v.stream ≠ .screen || c.hubGen = v.hubGen)

/-- The next step of a worker. -/
def advanceWorker (s : State) (w : WorkerId) (ok : Bool) : Option State :=
  (s.server.workerStep w ok).map fun server ↦
    let t := s.move server s.host s.metrics
    if (s.server.worker w).phase = .cleanup ∧ wasRunning s.server (s.server.worker w) then
      t.publish (.worker w) [.getStreamStatus]
    else t

/-- `UpdateStreamMetrics`, called by a worker. -/
def updateStreamMetrics (s : State) (i : ℕ) (v : Worker) (m : Metrics) : State :=
  let c := s.server.stream v.stream
  if s.server.conn ≠ some v.conn ∨ c.gen ≠ v.gen ∨ !c.running then s
  else
    (s.move s.server s.host (Function.update s.metrics v.stream m)).publish (.metrics i)
      [.getStreamStatus]

end State

/-- What the scheduler chooses. -/
inductive Event where
  /-- `Connect` is called. -/
  | connect (c : CallId) (host : String)
  /-- `Disconnect` is called. -/
  | disconnect (c : CallId)
  /-- The next section of such a call. -/
  | advanceConnecting (c : CallId) (ok : Bool)
  /-- `ToggleStream(x, true)` is called. -/
  | start (c : CallId) (x : StreamId)
  /-- `ToggleStream(x, false)` is called. -/
  | stop (c : CallId) (x : StreamId) (ok : Bool)
  /-- The next section of such a call. -/
  | advanceToggling (c : CallId) (ok : Bool)
  /-- The next step of a worker. -/
  | worker (w : WorkerId) (ok : Bool)
  /-- A worker reports metrics. -/
  | metrics (i : ℕ) (w : WorkerId) (m : Metrics)
  /-- The next step of a publication. -/
  | publish (p : Caller)
deriving DecidableEq, Repr

/-- One step. A caller goes on when it has published. -/
def step (s : State) : Event → Option State
  | .connect c host =>
    if s.connecting c = .idle then
      let r := s.server.connectEnter
      some ({ s with
        connecting := Function.update s.connecting c r.2
        target := Function.update s.target c host }.move r.1 s.host s.metrics)
    else none
  | .disconnect c =>
    if s.connecting c = .idle then
      some { s with connecting := Function.update s.connecting c (.disconnect false) }
    else none
  | .advanceConnecting c ok =>
    if s.publishing (.connecting c) = [] then s.advanceConnecting c ok else none
  | .start c x =>
    if s.toggling c ≠ .idle then none
    else if x = .control then some (s.putToggling c (s.server, .returned .unknownStream))
    else some (s.putToggling c (s.server.startEnter x))
  | .stop c x ok =>
    if s.toggling c ≠ .idle then none
    else if x = .control then some (s.putToggling c (s.server, .returned .unknownStream))
    else some (s.putToggling c (s.server.stopEnter x ok))
  | .advanceToggling c ok =>
    if s.publishing (.toggling c) = [] then s.advanceToggling c ok else none
  | .worker w ok =>
    if s.publishing (.worker w) = [] then s.advanceWorker w ok else none
  | .metrics i w m =>
    if s.publishing (.metrics i) = [] ∧ w < s.server.nextWorker then
      some (s.updateStreamMetrics i (s.server.worker w) m)
    else none
  | .publish p => s.publishStep p

/-! ### Agreement -/

/-- The web server and the last broadcast agree with the controller. -/
structure Agrees (s : State) : Prop where
  connected : s.currentConn.connected = s.server.connected
  phone : s.server.connected = true → s.currentConn.phone = some s.host
  streams : s.currentConn.streams = s.getStreamStatus
  broadcast : s.broadcast.value = s.currentConn

/-- No call is in progress, and nobody publishes. -/
structure Quiescent (s : State) : Prop where
  connecting : ∀ c, s.connecting c = .idle ∨ ∃ conn, s.connecting c = .returned conn
  toggling : ∀ c, s.toggling c = .idle ∨ ∃ outcome, s.toggling c = .returned outcome
  publishing : ∀ p, s.publishing p = []

/-- What a publication is about to write is no older than what it replaces. -/
def Fresh (s : State) : PublishStep → Prop
  | .setConnectionStatus _ _ version => s.storedConnection ≤ version
  | .getStreamStatus => True
  | .snapshotStatus _ version => s.storedStreams ≤ version
  | .broadcastStatus _ version => s.broadcast.version ≤ version

instance (s : State) : DecidablePred (Fresh s)
  | .setConnectionStatus _ _ version => inferInstanceAs (Decidable (s.storedConnection ≤ version))
  | .getStreamStatus => .isTrue trivial
  | .snapshotStatus _ version => inferInstanceAs (Decidable (s.storedStreams ≤ version))
  | .broadcastStatus _ version => inferInstanceAs (Decidable (s.broadcast.version ≤ version))

/-- The condition on a step: no publication overtakes a newer one. -/
def InOrder (s : State) (e : Event) : Prop :=
  ∀ p, e = .publish p → ∀ a ∈ (s.publishing p).head?, Fresh s a

instance {P : PublishStep → Prop} [DecidablePred P] (s : State) (e : Event) :
    Decidable (∀ p, e = .publish p → ∀ a ∈ (s.publishing p).head?, P a) :=
  match e with
  | .publish p =>
    decidable_of_iff (∀ a ∈ (s.publishing p).head?, P a)
      ⟨fun h _ hq ↦ (Event.publish.inj hq) ▸ h, fun h ↦ h p rfl⟩
  | .connect .. | .disconnect .. | .advanceConnecting .. | .start .. | .stop ..
  | .advanceToggling .. | .worker .. | .metrics .. => .isTrue nofun

instance (s : State) (e : Event) : Decidable (InOrder s e) :=
  inferInstanceAs (Decidable (∀ p, e = .publish p → ∀ a ∈ (s.publishing p).head?, Fresh s a))

/-! ### What is still to be published -/

/-- A `ToggleStream` that has still to publish the streams: it has made its stream inactive. -/
def stops : Session.Phase → Prop
  | .stopCancelling _ _ => True
  | .stopping _ _ _ => True
  | _ => False

namespace State

/-- The connection that the controller knows. -/
def connectionCell (s : State) : Cell (Bool × Option String) :=
  ⟨s.connection, s.connectionVersion⟩

/-- The connection in `currentConn`. -/
def storedConnectionCell (s : State) : Cell (Bool × Option String) :=
  ⟨(s.currentConn.connected, s.currentConn.phone), s.storedConnection⟩

/-- The streams of the controller. -/
def streamsCell (s : State) : Cell (List StreamStatus) :=
  ⟨s.getStreamStatus, s.streamsVersion⟩

/-- The streams in `currentConn`. -/
def storedStreamsCell (s : State) : Cell (List StreamStatus) :=
  ⟨s.currentConn.streams, s.storedStreams⟩

/-- `currentConn`, as of its last snapshot. -/
def snapshotCell (s : State) : Cell ConnectionStatus :=
  ⟨s.currentConn, s.snapshots⟩

/-- Somebody is about to store a connection. -/
def OwesConnection (s : State) (w : Cell (Bool × Option String)) : Prop :=
  ∃ p, .setConnectionStatus w.value.1 w.value.2 w.version ∈ s.publishing p

/-- Somebody is about to read the streams of the controller. -/
def OwesStreamStatus (s : State) : Prop :=
  (∃ p, .getStreamStatus ∈ s.publishing p) ∨ ∃ c, stops (s.toggling c)

/-- Somebody is about to store some streams, or to read the current ones first. -/
def OwesStreams (s : State) (w : Cell (List StreamStatus)) : Prop :=
  (∃ p, .snapshotStatus w.value w.version ∈ s.publishing p) ∨ s.OwesStreamStatus

/-- Somebody is about to broadcast a status. -/
def OwesBroadcast (s : State) (w : Cell ConnectionStatus) : Prop :=
  ∃ p, .broadcastStatus w.value w.version ∈ s.publishing p

/-- What a publication carries was taken from where it is kept. -/
def Carries (s : State) : PublishStep → Prop
  | .setConnectionStatus connected phone version =>
    Taken s.connectionCell ⟨(connected, phone), version⟩
  | .getStreamStatus => True
  | .snapshotStatus streams version => Taken s.streamsCell ⟨streams, version⟩
  | .broadcastStatus status version => Taken s.snapshotCell ⟨status, version⟩

end State

/-- Each of the three copies is current, or somebody is about to bring it up to date. -/
structure Published (s : State) : Prop where
  /-- The starts. -/
  starts : PendingStarts s.server.stream fun c ↦ (s.toggling c).pending
  /-- The connection in `currentConn`. -/
  connection : Converges s.connectionCell s.storedConnectionCell s.OwesConnection
  /-- The streams in `currentConn`. -/
  streams : Converges s.streamsCell s.storedStreamsCell s.OwesStreams
  /-- The last broadcast. -/
  broadcast : Converges s.snapshotCell s.broadcast s.OwesBroadcast
  /-- The publications. -/
  carries : ∀ p, ∀ a ∈ s.publishing p, s.Carries a

theorem published_initial : Published State.initial where
  starts := ⟨nofun, nofun, nofun, nofun⟩
  connection := .inl rfl
  streams := .inl rfl
  broadcast := .inl rfl
  carries := nofun

/-- Once nothing is under way, the copies agree. -/
theorem Published.agrees {s : State} (h : Published s) (hs : Quiescent s) : Agrees s := by
  have hnone : ∀ {p a}, a ∉ s.publishing p := by
    intro p a ha
    rw [hs.publishing p] at ha
    exact List.not_mem_nil ha
  have hstops : ¬∃ c, stops (s.toggling c) := by
    rintro ⟨c, hc⟩
    rcases hs.toggling c with h | ⟨outcome, h⟩
    all_goals
      rw [h] at hc
      exact hc
  have hconnection := h.connection.eq fun ⟨_, ha⟩ ↦ hnone ha
  have hstreams := h.streams.eq fun ho ↦ by
    rcases ho with ⟨_, ha⟩ | ⟨_, ha⟩ | hc
    · exact hnone ha
    · exact hnone ha
    · exact hstops hc
  have hpair := congrArg Cell.value hconnection
  refine ⟨congrArg Prod.fst hpair, fun hc ↦ ?_, congrArg Cell.value hstreams,
    congrArg Cell.value (h.broadcast.eq fun ⟨_, ha⟩ ↦ hnone ha)⟩
  exact (congrArg Prod.snd hpair).trans (if_pos hc)

/-! ### The sections of the controller -/

/-- A section of the controller: it does not touch the web server, and it counts its changes. -/
structure Moved (s t : State) : Prop where
  currentConn : t.currentConn = s.currentConn
  broadcast : t.broadcast = s.broadcast
  storedConnection : t.storedConnection = s.storedConnection
  storedStreams : t.storedStreams = s.storedStreams
  snapshots : t.snapshots = s.snapshots
  connectionVersion : t.connectionVersion =
    if t.connection = s.connection then s.connectionVersion else s.connectionVersion + 1
  streamsVersion : t.streamsVersion =
    if t.getStreamStatus = s.getStreamStatus then s.streamsVersion else s.streamsVersion + 1

namespace Moved

variable {s t : State}

theorem move (s : State) (server : Server) (host : String) (metrics : StreamId → Metrics)
    (connecting : CallId → Connecting.Phase) (target : CallId → String)
    (toggling : CallId → Session.Phase) :
    Moved s ({ s with connecting, target, toggling }.move server host metrics) :=
  ⟨rfl, rfl, rfl, rfl, rfl, rfl, rfl⟩

theorem connectionCell (h : Moved s t) (hsame : t.connection = s.connection) :
    t.connectionCell = s.connectionCell := by
  rw [State.connectionCell, State.connectionCell, h.connectionVersion, if_pos hsame, hsame]

theorem streamsCell (h : Moved s t) (hsame : t.getStreamStatus = s.getStreamStatus) :
    t.streamsCell = s.streamsCell := by
  rw [State.streamsCell, State.streamsCell, h.streamsVersion, if_pos hsame, hsame]

theorem storedConnectionCell (h : Moved s t) : t.storedConnectionCell = s.storedConnectionCell := by
  rw [State.storedConnectionCell, State.storedConnectionCell, h.currentConn, h.storedConnection]

theorem storedStreamsCell (h : Moved s t) : t.storedStreamsCell = s.storedStreamsCell := by
  rw [State.storedStreamsCell, State.storedStreamsCell, h.currentConn, h.storedStreams]

theorem snapshotCell (h : Moved s t) : t.snapshotCell = s.snapshotCell := by
  rw [State.snapshotCell, State.snapshotCell, h.currentConn, h.snapshots]

theorem taken_connection (h : Moved s t) {w : Cell (Bool × Option String)}
    (hw : Taken s.connectionCell w) : Taken t.connectionCell w := by
  by_cases hsame : t.connection = s.connection
  · exact h.connectionCell hsame ▸ hw
  · refine hw.change ?_
    show s.connectionVersion < t.connectionVersion
    rw [h.connectionVersion, if_neg hsame]
    exact Nat.lt_succ_self _

theorem taken_streams (h : Moved s t) {w : Cell (List StreamStatus)}
    (hw : Taken s.streamsCell w) : Taken t.streamsCell w := by
  by_cases hsame : t.getStreamStatus = s.getStreamStatus
  · exact h.streamsCell hsame ▸ hw
  · refine hw.change ?_
    show s.streamsVersion < t.streamsVersion
    rw [h.streamsVersion, if_neg hsame]
    exact Nat.lt_succ_self _

/-- What was under way keeps what it carries. -/
theorem carries (h : Moved s t) {a : PublishStep} (ha : s.Carries a) : t.Carries a := by
  cases a with
  | setConnectionStatus connected phone version => exact h.taken_connection ha
  | getStreamStatus => trivial
  | snapshotStatus streams version => exact h.taken_streams ha
  | broadcastStatus status version =>
    rw [State.Carries, h.snapshotCell]
    exact ha

end Moved

/-- **A section of the controller** keeps the invariant, if it publishes what it changes. -/
theorem Published.moved {s t : State} (h : Published s) (hm : Moved s t)
    (hstarts : PendingStarts t.server.stream fun c ↦ (t.toggling c).pending)
    (hkeep : ∀ p, ∀ a ∈ s.publishing p, a ∈ t.publishing p)
    (hnew : ∀ p, ∀ a ∈ t.publishing p, a ∈ s.publishing p ∨ t.Carries a)
    (hconnection : t.connection = s.connection ∨ t.OwesConnection t.connectionCell)
    (hstreams : t.getStreamStatus = s.getStreamStatus ∨ t.OwesStreamStatus)
    (howes : s.OwesStreamStatus → t.OwesStreamStatus) : Published t where
  starts := hstarts
  connection := by
    rcases hconnection with hsame | howes
    · rw [hm.connectionCell hsame, hm.storedConnectionCell]
      exact h.connection.mono fun ⟨p, ha⟩ ↦ ⟨p, hkeep p _ ha⟩
    · exact .inr howes
  streams := by
    rcases hstreams with hsame | howes'
    · rw [hm.streamsCell hsame, hm.storedStreamsCell]
      exact h.streams.mono fun ho ↦ ho.imp (fun ⟨p, ha⟩ ↦ ⟨p, hkeep p _ ha⟩) howes
    · exact .inr (.inr howes')
  broadcast := by
    rw [hm.snapshotCell, hm.broadcast]
    exact h.broadcast.mono fun ⟨p, ha⟩ ↦ ⟨p, hkeep p _ ha⟩
  carries p a ha := (hnew p a ha).elim (fun ha ↦ hm.carries (h.carries p a ha)) id

/-! ### The steps of a publication -/

section Publish

variable {s t : State} {p q : Caller} {a b : PublishStep} {rest : List PublishStep}

/-- A caller replaces its first step; the other steps stay. -/
theorem mem_update_of_ne (hp : s.publishing p = a :: rest) (hb : b ∈ s.publishing q) (hne : b ≠ a)
    (l : List PublishStep) : b ∈ Function.update s.publishing p (l ++ rest) q := by
  rw [Function.update_apply]
  split
  · rename_i hq
    rw [hq, hp] at hb
    exact List.mem_append_right _ ((List.mem_cons.1 hb).resolve_left hne)
  · exact hb

/-- A step is one of the new ones, or it was there before. -/
theorem mem_of_mem_update (hp : s.publishing p = a :: rest) {l : List PublishStep}
    (hb : b ∈ Function.update s.publishing p (l ++ rest) q) : b ∈ l ∨ b ∈ s.publishing q := by
  rw [Function.update_apply] at hb
  split at hb
  · rename_i hq
    refine (List.mem_append.1 hb).imp_right fun hb ↦ ?_
    rw [hq, hp]
    exact List.mem_cons_of_mem _ hb
  · exact .inr hb

theorem mem_update_self (f : Caller → List PublishStep) :
    b ∈ Function.update f p (b :: rest) p := by
  rw [Function.update_self]
  exact List.mem_cons_self

/-- After a step of a publication every publication carries what it did, and the new one what it is
to carry. -/
theorem Published.carries_update (h : Published s) {l : List PublishStep}
    (hp : s.publishing p = a :: rest)
    (ht : t.publishing = Function.update s.publishing p (l ++ rest))
    (hconnection : t.connectionCell = s.connectionCell) (hstreams : t.streamsCell = s.streamsCell)
    (hsnapshot : ∀ w, Taken s.snapshotCell w → Taken t.snapshotCell w)
    (hnew : ∀ b ∈ l, t.Carries b) : ∀ q, ∀ b ∈ t.publishing q, t.Carries b := by
  intro q b hb
  rw [ht] at hb
  rcases mem_of_mem_update hp hb with hb | hb
  · exact hnew b hb
  · have hcarries := h.carries q b hb
    cases b with
    | setConnectionStatus connected phone version =>
      rw [State.Carries, hconnection]
      exact hcarries
    | getStreamStatus => trivial
    | snapshotStatus streams version =>
      rw [State.Carries, hstreams]
      exact hcarries
    | broadcastStatus status version => exact hsnapshot _ hcarries

/-- `SetConnectionStatus` stores a connection that is no older than the one it replaces. -/
theorem Published.setConnectionStatus {connected : Bool} {phone : Option String} {version : ℕ}
    (h : Published s) (hp : s.publishing p = .setConnectionStatus connected phone version :: rest)
    (hC : s.storedConnection ≤ version) :
    Published ({ s with storedConnection := version }.store p
      { s.currentConn with connected, phone } rest) := by
  have hkeep : ∀ {q b}, b ∈ s.publishing q → b ≠ .setConnectionStatus connected phone version →
      b ∈ Function.update s.publishing p (.broadcastStatus
        { s.currentConn with connected, phone } (s.snapshots + 1) :: rest) q :=
    fun hb hne ↦ mem_update_of_ne hp hb hne [_]
  refine ⟨h.starts, ?_, ?_, .inr ⟨p, mem_update_self _⟩, ?_⟩
  · have hw := h.carries p _ (hp ▸ List.mem_cons_self)
    refine h.connection.write hw hC fun ⟨q, hb⟩ hne ↦ ⟨q, hkeep hb fun heq ↦ hne ?_⟩
    injection heq with h₁ h₂ h₃
    exact Eq.symm (congrArg₂ Cell.mk (Prod.ext h₁ h₂) h₃)
  · refine h.streams.mono fun ho ↦ ho.imp ?_ (Or.imp_left ?_)
    · exact fun ⟨q, hb⟩ ↦ ⟨q, hkeep hb nofun⟩
    · exact fun ⟨q, hb⟩ ↦ ⟨q, hkeep hb nofun⟩
  · refine h.carries_update (l := [_]) hp rfl rfl rfl (fun w hw ↦ ?_) fun b hb ↦ ?_
    · exact hw.change (Nat.lt_succ_self _)
    · rw [List.mem_singleton.1 hb]
      exact Taken.refl _

/-- `GetStreamStatus` reads the current streams. -/
theorem Published.getStreamStatus (h : Published s)
    (hp : s.publishing p = .getStreamStatus :: rest) :
    Published (s.publish p (.snapshotStatus s.getStreamStatus s.streamsVersion :: rest)) := by
  have hkeep : ∀ {q b}, b ∈ s.publishing q → b ≠ .getStreamStatus →
      b ∈ Function.update s.publishing p
        (.snapshotStatus s.getStreamStatus s.streamsVersion :: rest) q :=
    fun hb hne ↦ mem_update_of_ne hp hb hne [_]
  refine ⟨h.starts, ?_, .inr (.inl ⟨p, mem_update_self _⟩), ?_, ?_⟩
  · exact h.connection.mono fun ⟨q, hb⟩ ↦ ⟨q, hkeep hb nofun⟩
  · exact h.broadcast.mono fun ⟨q, hb⟩ ↦ ⟨q, hkeep hb nofun⟩
  · refine h.carries_update (l := [_]) hp rfl rfl rfl (fun _ hw ↦ hw) fun b hb ↦ ?_
    rw [List.mem_singleton.1 hb]
    exact Taken.refl _

/-- `snapshotStatus` stores streams that are no older than those it replaces. -/
theorem Published.snapshotStatus {streams : List StreamStatus} {version : ℕ} (h : Published s)
    (hp : s.publishing p = .snapshotStatus streams version :: rest)
    (hC : s.storedStreams ≤ version) :
    Published
      ({ s with storedStreams := version }.store p { s.currentConn with streams } rest) := by
  have hkeep : ∀ {q b}, b ∈ s.publishing q → b ≠ .snapshotStatus streams version →
      b ∈ Function.update s.publishing p
        (.broadcastStatus { s.currentConn with streams } (s.snapshots + 1) :: rest) q :=
    fun hb hne ↦ mem_update_of_ne hp hb hne [_]
  refine ⟨h.starts, ?_, ?_, .inr ⟨p, mem_update_self _⟩, ?_⟩
  · exact h.connection.mono fun ⟨q, hb⟩ ↦ ⟨q, hkeep hb nofun⟩
  · have hw := h.carries p _ (hp ▸ List.mem_cons_self)
    refine h.streams.write hw hC fun ho hne ↦ ho.imp ?_ (Or.imp_left ?_)
    · refine fun ⟨q, hb⟩ ↦ ⟨q, hkeep hb fun heq ↦ hne ?_⟩
      injection heq with h₁ h₂
      exact Eq.symm (congrArg₂ Cell.mk h₁ h₂)
    · exact fun ⟨q, hb⟩ ↦ ⟨q, hkeep hb nofun⟩
  · refine h.carries_update (l := [_]) hp rfl rfl rfl (fun w hw ↦ ?_) fun b hb ↦ ?_
    · exact hw.change (Nat.lt_succ_self _)
    · rw [List.mem_singleton.1 hb]
      exact Taken.refl _

/-- `BroadcastStatus` of a snapshot that is no older than the last one. -/
theorem Published.broadcastStatus {status : ConnectionStatus} {version : ℕ} (h : Published s)
    (hp : s.publishing p = .broadcastStatus status version :: rest)
    (hC : s.broadcast.version ≤ version) :
    Published ({ s with broadcast := ⟨status, version⟩ }.publish p rest) := by
  have hkeep : ∀ {q b}, b ∈ s.publishing q → b ≠ .broadcastStatus status version →
      b ∈ Function.update s.publishing p rest q :=
    fun hb hne ↦ mem_update_of_ne hp hb hne []
  refine ⟨h.starts, ?_, ?_, ?_, h.carries_update (l := []) hp rfl rfl rfl (fun _ hw ↦ hw) nofun⟩
  · exact h.connection.mono fun ⟨q, hb⟩ ↦ ⟨q, hkeep hb nofun⟩
  · refine h.streams.mono fun ho ↦ ho.imp ?_ (Or.imp_left ?_)
    · exact fun ⟨q, hb⟩ ↦ ⟨q, hkeep hb nofun⟩
    · exact fun ⟨q, hb⟩ ↦ ⟨q, hkeep hb nofun⟩
  · have hw := h.carries p _ (hp ▸ List.mem_cons_self)
    refine h.broadcast.write hw hC fun ⟨q, hb⟩ hne ↦ ⟨q, hkeep hb fun heq ↦ hne ?_⟩
    injection heq with h₁ h₂
    exact Eq.symm (congrArg₂ Cell.mk h₁ h₂)

/-- **A step of a publication** keeps the invariant, if it is in order. -/
theorem Published.publishStep (h : Published s) (hC : InOrder s (.publish p))
    (ht : s.publishStep p = some t) : Published t := by
  rw [State.publishStep.eq_def] at ht
  split at ht
  · cases ht
  all_goals
    rename_i hp
    have hfresh := hC p rfl _ (congrArg List.head? hp)
    cases ht
  · exact h.setConnectionStatus hp hfresh
  · exact h.getStreamStatus hp
  · exact h.snapshotStatus hp hfresh
  · exact h.broadcastStatus hp hfresh

end Publish

/-! ### The steps of the system -/

section Step

variable {s t : State}

theorem State.connection_congr (hconnected : t.server.connected = s.server.connected)
    (hhost : t.host = s.host) : t.connection = s.connection := by
  rw [State.connection, State.connection, hconnected, hhost]

theorem State.getStreamStatus_congr
    (hactive : ∀ x, (t.server.stream x).active = (s.server.stream x).active)
    (hmetrics : t.metrics = s.metrics) : t.getStreamStatus = s.getStreamStatus := by
  rw [State.getStreamStatus, State.getStreamStatus]
  refine List.map_congr_left fun x _ ↦ ?_
  rw [hactive, hmetrics]

/-- A section that publishes nothing, and shows nothing. -/
theorem Published.quiet {server : Server} {connecting : CallId → Connecting.Phase}
    {target : CallId → String} {toggling : CallId → Session.Phase} (h : Published s)
    (hstarts : PendingStarts server.stream fun c ↦ (toggling c).pending)
    (hconnected : server.connected = s.server.connected)
    (hactive : (∀ x, (server.stream x).active = (s.server.stream x).active) ∨
      ∃ c, stops (toggling c))
    (hstops : ∀ c, stops (s.toggling c) → ∃ d, stops (toggling d)) :
    Published ({ s with connecting, target, toggling }.move server s.host s.metrics) := by
  refine h.moved (.move ..) hstarts (fun _ _ ha ↦ ha) (fun _ _ ha ↦ .inl ha)
    (.inl (State.connection_congr hconnected rfl)) ?_
    fun ho ↦ ho.imp_right fun ⟨c, hc⟩ ↦ hstops c hc
  exact hactive.imp (fun hactive ↦ State.getStreamStatus_congr hactive rfl) .inr

/-- A section whose caller is going to publish the streams. -/
theorem Published.publish {server : Server} {host : String} {metrics : StreamId → Metrics}
    {connecting : CallId → Connecting.Phase} {target : CallId → String}
    {toggling : CallId → Session.Phase} {p : Caller} {l : List PublishStep} (h : Published s)
    (hp : s.publishing p = [])
    (hstarts : PendingStarts server.stream fun c ↦ (toggling c).pending)
    (hl : .getStreamStatus ∈ l)
    (hcarries : ∀ a ∈ l,
      ({ s with connecting, target, toggling }.move server host metrics).Carries a)
    (hconnection : ({ s with connecting, target, toggling }.move server host metrics).connection =
        s.connection ∨
      ∃ connected phone version, .setConnectionStatus connected phone version ∈ l ∧
        ⟨(connected, phone), version⟩ =
          ({ s with connecting, target, toggling }.move server host metrics).connectionCell) :
    Published (({ s with connecting, target, toggling }.move server host metrics).publish p l) := by
  have hmem : ∀ {a}, a ∈ l → a ∈ Function.update s.publishing p l p := by
    intro a ha
    rwa [Function.update_self]
  have howes : ∀ toggling : CallId → Session.Phase, (∃ q, PublishStep.getStreamStatus ∈
      Function.update s.publishing p l q) ∨ ∃ c, stops (toggling c) := fun _ ↦ .inl ⟨p, hmem hl⟩
  refine h.moved ⟨rfl, rfl, rfl, rfl, rfl, rfl, rfl⟩ hstarts (fun q a ha ↦ ?_) (fun q a ha ↦ ?_) ?_
    (.inr (howes _)) fun _ ↦ howes _
  · obtain rfl | hq := eq_or_ne q p
    · rw [hp] at ha
      exact absurd ha List.not_mem_nil
    · show a ∈ Function.update s.publishing p l q
      rwa [Function.update_of_ne hq]
  · obtain rfl | hq := eq_or_ne q p
    · have ha' : a ∈ l := (Function.update_self q l s.publishing) ▸ ha
      have := hcarries a ha'
      exact .inr (by cases a <;> exact this)
    · exact .inl ((Function.update_of_ne hq l s.publishing) ▸ ha)
  · refine hconnection.imp id ?_
    rintro ⟨connected, phone, version, ha, heq⟩
    refine ⟨p, hmem ?_⟩
    have h₁ := congrArg Cell.value heq
    have h₂ := congrArg Cell.version heq
    exact h₁ ▸ h₂ ▸ ha

/-- A section whose caller is going to publish the streams alone. -/
theorem Published.publish_streams {server : Server} {metrics : StreamId → Metrics}
    {toggling : CallId → Session.Phase} {p : Caller} (h : Published s) (hp : s.publishing p = [])
    (hstarts : PendingStarts server.stream fun c ↦ (toggling c).pending)
    (hconnected : server.connected = s.server.connected) :
    Published (({ s with toggling }.move server s.host metrics).publish p [.getStreamStatus]) := by
  refine h.publish hp hstarts (List.mem_singleton.2 rfl) (fun a ha ↦ ?_)
    (.inl (State.connection_congr hconnected rfl))
  rw [List.mem_singleton.1 ha]
  trivial

/-- A call of `Connect` or `Disconnect` that neither drops nor commits a connection. -/
theorem connecting_quiet {server : Server} {ok : Bool} {p : Connecting.Phase}
    {r : Server × Connecting.Phase} (h : Connecting.advance server ok p = some r)
    (hdisconnect : ∀ middle, p = .disconnect middle → server.connected = false)
    (hdialed : ∀ gen ctx k, p = .dialed gen ctx k → server.mayConnect gen ctx = false) :
    server.Shows r.1 := by
  cases p with
  | idle | returned conn => cases h
  | disconnect middle =>
    have hlocked : (server.disconnectLocked ok) = (server.abortConnect, none) := by
      simp only [Server.disconnectLocked, server.abortConnect_streams.2, hdisconnect middle rfl]
      rfl
    cases h
    rw [Server.disconnectSection, hlocked]
    exact .of_eq server.abortConnect_streams
  | closing middle conn dones =>
    cases h
    exact .of_eq (server.closeConn_streams conn)
  | waiting middle dones =>
    simp only [Connecting.advance] at h
    split at h <;> cases h
    exact .refl _
  | relock =>
    cases h
    exact .of_eq ⟨rfl, rfl⟩
  | dialing gen ctx =>
    simp only [Connecting.advance] at h
    split at h <;> cases h <;> exact .of_eq ⟨rfl, rfl⟩
  | dialFailed gen =>
    cases h
    exact .of_eq (server.connectFailed_streams gen)
  | dialed gen ctx k =>
    cases h
    rw [Server.connectCommit, hdialed gen ctx k rfl]
    exact .of_eq (server.closeConnection_streams k)

/-- The locked section of `Disconnect` leaves the controller disconnected. -/
theorem disconnected {server : Server} {ok middle : Bool} {r : Server × Connecting.Phase}
    (h : Connecting.advance server ok (.disconnect middle) = some r)
    (hconnected : server.connected = true) : r.1.connected = false := by
  cases h
  rw [Server.disconnectSection, Server.disconnectLocked, server.abortConnect_streams.2,
    if_pos hconnected]
  rfl

/-- A `Connect` that commits leaves the controller connected. -/
theorem connected {server : Server} {ok : Bool} {gen : ℕ} {ctx : CtxId} {k : ConnId}
    {r : Server × Connecting.Phase} (h : Connecting.advance server ok (.dialed gen ctx k) = some r)
    (hmay : server.mayConnect gen ctx = true) : r.1.connected = true := by
  cases h
  rw [Server.connectCommit, if_pos hmay, Server.launchSpeakerWorkerLocked]
  dsimp only
  split_ifs <;> rfl

theorem Published.advanceConnecting {c : CallId} {ok : Bool} (h : Published s)
    (hp : s.publishing (.connecting c) = []) (ht : s.advanceConnecting c ok = some t) :
    Published t := by
  rw [State.advanceConnecting.eq_def] at ht
  split at ht
  · cases ht
  rename_i r server phase hr
  have hstarts := h.starts.calm fun x ↦ s.server.connecting_calm x hr
  have hquiet : s.server.Shows server → Published ({ s with
      connecting := Function.update s.connecting c phase }.move server s.host s.metrics) :=
    fun hshows ↦ h.quiet hstarts hshows.1 (.inl hshows.2) fun d hd ↦ ⟨d, hd⟩
  -- The two sections that publish.
  have hpublish : ∀ (host : String) (connected : Bool) (phone : Option String),
      server.connected = connected → (phone = if connected then some host else none) →
      Published (({ s with connecting := Function.update s.connecting c phase }.move server host
        s.metrics).publishConnection c connected phone) := by
    rintro host connected phone rfl rfl
    refine h.publish hp hstarts (List.mem_cons_of_mem _ List.mem_cons_self) (fun a ha ↦ ?_)
      (.inr ⟨_, _, _, List.mem_cons_self, rfl⟩)
    rcases List.mem_cons.1 ha with rfl | ha
    · exact Taken.refl _
    · rw [List.mem_singleton.1 ha]
      trivial
  cases ht
  split
  · rename_i middle hc
    rw [hc] at hr
    split
    · exact hpublish _ _ _ (disconnected hr ‹_›) rfl
    · exact hquiet (connecting_quiet hr (fun _ _ ↦ eq_false_of_ne_true ‹_›) nofun)
  · rename_i gen ctx k hc
    rw [hc] at hr
    split
    · exact hpublish _ _ _ (connected hr ‹_›) rfl
    · refine hquiet (connecting_quiet hr nofun fun gen' ctx' k' heq ↦ ?_)
      cases heq
      exact eq_false_of_ne_true ‹_›
  · rename_i hdisconnect hdialed
    exact hquiet (connecting_quiet hr (fun middle heq ↦ absurd heq (hdisconnect middle))
      fun gen ctx k heq ↦ absurd heq (hdialed gen ctx k))

/-- A section of `ToggleStream` that publishes nothing shows nothing. -/
theorem toggling_quiet {server : Server} {ok : Bool} {p : Session.Phase}
    {r : Server × Session.Phase} (h : Session.advance server ok p = some r)
    (hp : State.publishes server p = false)
    (hinactive : ∀ x, p.pending = some (x, (server.stream x).gen) →
      (server.stream x).active = false) : server.Shows r.1 ∧ ¬stops p := by
  cases p with
  | idle | returned outcome => cases h
  | dialFailed | stopCancelling | stopping => cases hp
  | joining x conn waitGen done =>
    simp only [Session.advance] at h
    split at h <;> cases h
    exact ⟨server.startResume_shows x conn waitGen, id⟩
  | dialing x k gen ctx =>
    simp only [Session.advance] at h
    split at h <;> cases h <;> exact ⟨.of_eq ⟨rfl, rfl⟩, id⟩
  | dialed x k gen ctx socket =>
    cases h
    have hmay : ¬server.mayStart x k gen ctx = true :=
      fun hmay ↦ Bool.false_ne_true (hp.symm.trans hmay)
    rw [Server.startCommit.eq_def, if_neg hmay]
    exact ⟨Server.startAbort_shows ((server.cancel (some ctx)).closeSocket socket) x
      fun hgen ↦ hinactive x (hgen ▸ rfl), id⟩
  | closing conn dones =>
    cases h
    exact ⟨.of_eq (server.closeConn_streams conn), id⟩
  | waiting dones =>
    simp only [Session.advance] at h
    split at h <;> cases h
    exact ⟨.refl _, id⟩

/-- The pending starts after a section of `ToggleStream`. -/
theorem Published.starts_update {c : CallId} {r : Server × Session.Phase} (h : Published s)
    (hmoves : Server.Moves s.server r.1 (s.toggling c).pending r.2.pending) :
    PendingStarts r.1.stream fun d ↦ (Function.update s.toggling c r.2 d).pending := by
  have hstarts := h.starts.moves hmoves
  have heq : (fun d ↦ (Function.update s.toggling c r.2 d).pending) =
      Function.update (fun d ↦ (s.toggling d).pending) c r.2.pending :=
    Function.comp_update Session.Phase.pending s.toggling c r.2
  rwa [heq]

/-- The `ToggleStream`s that have still to publish, when one moves that has not. -/
theorem stops_update {toggling : CallId → Session.Phase} {c : CallId} (hc : ¬stops (toggling c))
    (p : Session.Phase) :
    ∀ d, stops (toggling d) → ∃ e, stops (Function.update toggling c p e) := by
  intro d hd
  have hdc : d ≠ c := fun hdc ↦ hc (hdc ▸ hd)
  exact ⟨d, by rwa [Function.update_of_ne hdc]⟩

theorem Published.advanceToggling {c : CallId} {ok : Bool} (h : Published s)
    (hp : s.publishing (.toggling c) = []) (ht : s.advanceToggling c ok = some t) :
    Published t := by
  obtain ⟨r, hr, ht⟩ := Option.map_eq_some_iff.1 ht
  have hinactive := h.starts.inactive c
  have hstarts := h.starts_update (Session.advance_moves hr hinactive)
  have hconnected := s.server.toggling_connected hr
  split at ht <;> cases ht
  · exact h.publish_streams hp hstarts hconnected
  · obtain ⟨hshows, hstops⟩ := toggling_quiet hr (eq_false_of_ne_true ‹_›) hinactive
    exact h.quiet hstarts hconnected (.inl hshows.2) (stops_update hstops r.2)

/-- A worker that publishes nothing shows nothing. -/
theorem worker_quiet {server server' : Server} {w : WorkerId} {ok : Bool}
    (h : server.workerStep w ok = some server')
    (hp : ¬((server.worker w).phase = .cleanup ∧
      State.wasRunning server (server.worker w) = true)) :
    server.Shows server' := by
  simp only [Server.workerStep] at h
  split at h
  · cases h
  · split at h <;> cases h
    case h_3 => exact .of_eq (server.closeScreenControl_streams ..)
    case h_5 =>
      rename_i hphase
      have hcleanup : server.workerCleanup (server.worker w) = server := by
        refine if_neg fun hc ↦ hp ⟨hphase, ?_⟩
        obtain ⟨hrunning, hgen, hconn, hhub⟩ := hc
        simp [State.wasRunning, hrunning, hgen, hconn]
        tauto
      rw [hcleanup]
      exact .of_eq ⟨rfl, rfl⟩
    all_goals exact .of_eq ⟨rfl, rfl⟩

theorem Published.advanceWorker {w : WorkerId} {ok : Bool} (h : Published s)
    (hp : s.publishing (.worker w) = []) (ht : s.advanceWorker w ok = some t) : Published t := by
  obtain ⟨server, hr, ht⟩ := Option.map_eq_some_iff.1 ht
  have hstarts := h.starts.calm fun x ↦ s.server.workerStep_calm x hr
  have hconnected := s.server.workerStep_connected hr
  simp only at ht
  split at ht <;> cases ht
  · exact h.publish_streams hp hstarts hconnected
  · exact h.quiet hstarts hconnected (.inl (worker_quiet hr ‹_›).2) fun d hd ↦ ⟨d, hd⟩

theorem Published.updateStreamMetrics {i : ℕ} (h : Published s)
    (hp : s.publishing (.metrics i) = []) (v : Worker) (m : Metrics) :
    Published (s.updateStreamMetrics i v m) := by
  rw [State.updateStreamMetrics]
  split_ifs
  · exact h
  · exact h.publish_streams hp h.starts rfl

/-- A call of `ToggleStream` for a stream that cannot be toggled. -/
theorem Published.unknownStream {c : CallId} (h : Published s) (hc : s.toggling c = .idle) :
    Published (s.putToggling c (s.server, .returned .unknownStream)) := by
  refine h.quiet (h.starts_update (.done fun y ↦ .refl _)) rfl (.inl fun _ ↦ rfl)
    (stops_update ?_ _)
  rw [hc]
  exact id

theorem Published.start {c : CallId} {x : StreamId} (h : Published s) (hc : s.toggling c = .idle) :
    Published (s.putToggling c (s.server.startEnter x)) := by
  have hmoves := s.server.startEnter_moves x (h.starts.running x)
  have hshows := s.server.startEnter_shows x
  refine h.quiet (h.starts_update ?_) hshows.1 (.inl hshows.2) (stops_update ?_ _)
  · rw [hc]
    exact hmoves
  · rw [hc]
    exact id

/-- A stop makes its stream inactive, and is going to publish this. -/
theorem stopEnter_stops (server : Server) (x : StreamId) (ok : Bool) :
    (∀ y, ((server.stopEnter x ok).1.stream y).active = (server.stream y).active) ∨
      stops (server.stopEnter x ok).2 := by
  simp only [Server.stopEnter]
  split_ifs
  · exact .inl fun _ ↦ rfl
  all_goals exact .inr trivial

theorem Published.stop {c : CallId} {x : StreamId} {ok : Bool} (h : Published s)
    (hc : s.toggling c = .idle) : Published (s.putToggling c (s.server.stopEnter x ok)) := by
  obtain ⟨hcalm, hpending⟩ := s.server.stopEnter_calm x ok
  refine h.quiet (h.starts_update (hpending ▸ .done hcalm)) (s.server.stopEnter_connected x ok)
    ((stopEnter_stops s.server x ok).imp_right fun hs ↦ ⟨c, ?_⟩) (stops_update ?_ _)
  · rwa [Function.update_self]
  · rw [hc]
    exact id

/-- **Every step** keeps the invariant, if it is in order. -/
theorem Published.step {e : Event} (h : Published s) (hC : InOrder s e) (ht : step s e = some t) :
    Published t := by
  cases e with
  | connect c host =>
    simp only [Publication.step] at ht
    split at ht <;> cases ht
    have hstreams := s.server.connectEnter_streams
    refine h.quiet ?_ hstreams.2 (.inl fun x ↦ hstreams.1 ▸ rfl) fun d hd ↦ ⟨d, hd⟩
    rw [hstreams.1]
    exact h.starts
  | disconnect c =>
    simp only [Publication.step] at ht
    split at ht <;> cases ht
    exact ⟨h.starts, h.connection, h.streams, h.broadcast, h.carries⟩
  | advanceConnecting c ok =>
    simp only [Publication.step] at ht
    split at ht
    · exact h.advanceConnecting ‹_› ht
    · cases ht
  | start c x =>
    simp only [Publication.step] at ht
    split_ifs at ht with hc hx <;> cases ht
    all_goals rw [not_not] at hc
    · exact h.unknownStream hc
    · exact h.start hc
  | stop c x ok =>
    simp only [Publication.step] at ht
    split_ifs at ht with hc hx <;> cases ht
    all_goals rw [not_not] at hc
    · exact h.unknownStream hc
    · exact h.stop hc
  | advanceToggling c ok =>
    simp only [Publication.step] at ht
    split at ht
    · exact h.advanceToggling ‹_› ht
    · cases ht
  | worker w ok =>
    simp only [Publication.step] at ht
    split at ht
    · exact h.advanceWorker ‹_› ht
    · cases ht
  | metrics i w m =>
    simp only [Publication.step] at ht
    split at ht <;> cases ht
    rename_i hp
    exact h.updateStreamMetrics hp.1 _ m
  | publish p => exact h.publishStep hC ht

end Step

/-! ### The connection and its copy -/

namespace State

/-- The call that drops the connection or commits one in a step. -/
def changer (s : State) : Event → Option CallId
  | .advanceConnecting c _ =>
    match s.connecting c with
    | .disconnect _ => if s.server.connected then some c else none
    | .dialed gen ctx _ => if s.server.mayConnect gen ctx then some c else none
    | _ => none
  | _ => none

/-- A caller has still to store a connection. -/
def ToStore (s : State) (p : Caller) (w : Cell (Bool × Option String)) : Prop :=
  .setConnectionStatus w.value.1 w.value.2 w.version ∈ s.publishing p

end State

/-- A connection that a publication is about to store is no older than the stored one. -/
def FreshConnection (s : State) : PublishStep → Prop
  | .setConnectionStatus _ _ version => s.storedConnection ≤ version
  | .getStreamStatus | .snapshotStatus .. | .broadcastStatus .. => True

instance (s : State) : DecidablePred (FreshConnection s)
  | .setConnectionStatus _ _ version => inferInstanceAs (Decidable (s.storedConnection ≤ version))
  | .getStreamStatus | .snapshotStatus .. | .broadcastStatus .. => .isTrue trivial

/-- The part of `InOrder` that is about the connection. -/
def ConnectionInOrder (s : State) (e : Event) : Prop :=
  ∀ p, e = .publish p → ∀ a ∈ (s.publishing p).head?, FreshConnection s a

instance (s : State) (e : Event) : Decidable (ConnectionInOrder s e) :=
  inferInstanceAs
    (Decidable (∀ p, e = .publish p → ∀ a ∈ (s.publishing p).head?, FreshConnection s a))

section Connection

variable {s t : State} {e : Event} {p : Caller}

/-- A call of `Connect` or `Disconnect` that is in progress. -/
def InProgress (p : Connecting.Phase) : Prop :=
  p ≠ .idle ∧ ∀ conn, p ≠ .returned conn

/-- What a step does to the connection, to its copy in `currentConn` and to what is still to be
stored. -/
inductive ConnectionStep (s t : State) (e : Event) : Prop where
  /-- Nothing. -/
  | quiet (hchanger : s.changer e = none) (hconnection : t.connectionCell = s.connectionCell)
      (hstored : t.storedConnectionCell = s.storedConnectionCell)
      (htoStore : ∀ q w, t.ToStore q w ↔ s.ToStore q w)
  /-- A call changes the connection, and is going to publish this. -/
  | change (c : CallId) (hchanger : s.changer e = some c) (hprogress : InProgress (s.connecting c))
      (htaken : ∀ w, Taken s.connectionCell w → Taken t.connectionCell w)
      (hstored : t.storedConnectionCell = s.storedConnectionCell)
      (hpublishes : t.ToStore (.connecting c) t.connectionCell)
      (htoStore : ∀ q w, t.ToStore q w →
        s.ToStore q w ∨ q = .connecting c ∧ w = t.connectionCell)
  /-- `SetConnectionStatus`. -/
  | store (p : Caller) (w : Cell (Bool × Option String)) (rest : List PublishStep)
      (he : e = .publish p)
      (hp : s.publishing p = .setConnectionStatus w.value.1 w.value.2 w.version :: rest)
      (hconnection : t.connectionCell = s.connectionCell) (hstored : t.storedConnectionCell = w)
      (htoStore : ∀ q v, t.ToStore q v → s.ToStore q v)
      (hkeep : ∀ q v, s.ToStore q v → v ≠ w → t.ToStore q v)

/-- A section that leaves the connection as it is, and publishes the streams at most. -/
theorem ConnectionStep.of_moved (hchanger : s.changer e = none) (hm : Moved s t)
    (hconnection : t.connection = s.connection)
    (hpublishing : t.publishing = s.publishing ∨ ∃ p, s.publishing p = [] ∧
      t.publishing = Function.update s.publishing p [.getStreamStatus]) :
    ConnectionStep s t e := by
  refine .quiet hchanger (hm.connectionCell hconnection) hm.storedConnectionCell fun q w ↦ ?_
  rw [State.ToStore, State.ToStore]
  rcases hpublishing with hsame | ⟨p, hp, hpublishing⟩
  · rw [hsame]
  · rw [hpublishing, Function.update_apply]
    split
    · rename_i hq
      rw [hq, hp, List.mem_singleton]
      exact iff_of_false nofun List.not_mem_nil
    · rfl

/-- The section of a call that is in progress. -/
theorem inProgress_of_advance {server : Server} {ok : Bool} {p : Connecting.Phase}
    {r : Server × Connecting.Phase} (h : Connecting.advance server ok p = some r) :
    InProgress p := by
  constructor
  · rintro rfl
    cases h
  · rintro conn rfl
    cases h

/-- A section of `Connect` or `Disconnect` that drops the connection or commits one. -/
theorem ConnectionStep.publishConnection {c : CallId} {connecting : CallId → Connecting.Phase}
    {server : Server} {host : String} {connected : Bool} {phone : Option String}
    (hchanger : s.changer e = some c) (hprogress : InProgress (s.connecting c))
    (hconnected : server.connected = connected)
    (hphone : phone = if connected then some host else none) :
    ConnectionStep s (({ s with connecting }.move server host s.metrics).publishConnection c
      connected phone) e := by
  subst hconnected hphone
  have hm := Moved.move s server host s.metrics connecting s.target s.toggling
  refine .change c hchanger hprogress (fun w hw ↦ hm.taken_connection hw) rfl (mem_update_self _)
    fun q w hw ↦ ?_
  change _ ∈ Function.update s.publishing (.connecting c) [_, _] q at hw
  rw [Function.update_apply] at hw
  split at hw
  · refine .inr ⟨‹_›, ?_⟩
    rcases List.mem_cons.1 hw with heq | hw
    · injection heq with h₁ h₂ h₃
      exact congrArg₂ Cell.mk (Prod.ext h₁ h₂) h₃
    · cases List.mem_singleton.1 hw
  · exact .inl hw

/-- The next section of `Connect` or `Disconnect`. -/
theorem ConnectionStep.advanceConnecting {c : CallId} {ok : Bool}
    (ht : s.advanceConnecting c ok = some t) : ConnectionStep s t (.advanceConnecting c ok) := by
  rw [State.advanceConnecting.eq_def] at ht
  split at ht
  · cases ht
  rename_i r server phase hr
  have hprogress := inProgress_of_advance hr
  have hquiet : s.changer (.advanceConnecting c ok) = none → s.server.Shows server →
      ConnectionStep s ({ s with
        connecting := Function.update s.connecting c phase }.move server s.host s.metrics)
        (.advanceConnecting c ok) :=
    fun hchanger hshows ↦ .of_moved hchanger (.move ..) (State.connection_congr hshows.1 rfl)
      (.inl rfl)
  cases ht
  split
  · rename_i middle hc
    rw [hc] at hr
    split
    · rename_i hconnected
      refine .publishConnection ?_ hprogress (disconnected hr hconnected) rfl
      simp only [State.changer, hc, if_pos hconnected]
    · rename_i hconnected
      refine hquiet ?_ (connecting_quiet hr (fun _ _ ↦ eq_false_of_ne_true hconnected) nofun)
      simp only [State.changer, hc, if_neg hconnected]
  · rename_i gen ctx k hc
    rw [hc] at hr
    split
    · rename_i hmay
      refine .publishConnection ?_ hprogress (connected hr hmay) rfl
      simp only [State.changer, hc, if_pos hmay]
    · rename_i hmay
      refine hquiet ?_ (connecting_quiet hr nofun fun gen' ctx' k' heq ↦ ?_)
      · simp only [State.changer, hc, if_neg hmay]
      · cases heq
        exact eq_false_of_ne_true hmay
  · rename_i hdisconnect hdialed
    refine hquiet ?_ (connecting_quiet hr (fun middle heq ↦ absurd heq (hdisconnect middle))
      fun gen ctx k heq ↦ absurd heq (hdialed gen ctx k))
    simp only [State.changer]

/-- A step of a publication. -/
theorem ConnectionStep.publishStep (ht : s.publishStep p = some t) :
    ConnectionStep s t (.publish p) := by
  -- A step that stores no connection is replaced by such steps.
  have hquiet : ∀ {a rest l}, s.publishing p = a :: rest →
      (∀ connected phone version, a ≠ .setConnectionStatus connected phone version) →
      (∀ connected phone version, .setConnectionStatus connected phone version ∉ l) →
      ∀ q (w : Cell (Bool × Option String)),
        .setConnectionStatus w.value.1 w.value.2 w.version ∈
          Function.update s.publishing p (l ++ rest) q ↔ s.ToStore q w := by
    intro a rest l hp ha hl q w
    refine ⟨fun hw ↦ (mem_of_mem_update hp hw).resolve_left (hl _ _ _), fun hw ↦ ?_⟩
    exact mem_update_of_ne hp hw (ha _ _ _).symm l
  have hsingle : ∀ {b : PublishStep},
      (∀ connected phone version, b ≠ .setConnectionStatus connected phone version) →
      ∀ connected phone version, .setConnectionStatus connected phone version ∉ [b] :=
    fun hb _ _ _ hmem ↦ hb _ _ _ (List.mem_singleton.1 hmem).symm
  rw [State.publishStep.eq_def] at ht
  split at ht
  · cases ht
  all_goals
    rename_i hp
    cases ht
  · rename_i connected phone version rest
    refine .store p ⟨(connected, phone), version⟩ rest rfl hp rfl rfl (fun q v hv ↦ ?_)
      fun q v hv hne ↦ ?_
    · exact (mem_of_mem_update (l := [_]) hp hv).resolve_left
        (hsingle (fun _ _ _ heq ↦ by cases heq) _ _ _)
    · refine mem_update_of_ne hp hv (fun heq ↦ hne ?_) [_]
      injection heq with h₁ h₂ h₃
      exact congrArg₂ Cell.mk (Prod.ext h₁ h₂) h₃
  · exact .quiet rfl rfl rfl (hquiet hp nofun (hsingle fun _ _ _ heq ↦ by cases heq))
  · exact .quiet rfl rfl rfl (hquiet hp nofun (hsingle fun _ _ _ heq ↦ by cases heq))
  · exact .quiet rfl rfl rfl (hquiet (l := []) hp nofun fun _ _ _ ↦ List.not_mem_nil)

theorem step_connection (ht : step s e = some t) : ConnectionStep s t e := by
  cases e with
  | connect c host =>
    simp only [step] at ht
    split at ht <;> cases ht
    exact .of_moved rfl (.move ..)
      (State.connection_congr s.server.connectEnter_streams.2 rfl) (.inl rfl)
  | disconnect c =>
    simp only [step] at ht
    split at ht <;> cases ht
    exact .quiet rfl rfl rfl fun _ _ ↦ .rfl
  | advanceConnecting c ok =>
    simp only [step] at ht
    split at ht
    · exact .advanceConnecting ht
    · cases ht
  | start c x =>
    simp only [step] at ht
    split_ifs at ht <;> cases ht
    · exact .of_moved rfl (.move ..) rfl (.inl rfl)
    · exact .of_moved rfl (.move ..)
        (State.connection_congr (s.server.startEnter_shows x).1 rfl) (.inl rfl)
  | stop c x ok =>
    simp only [step] at ht
    split_ifs at ht <;> cases ht
    · exact .of_moved rfl (.move ..) rfl (.inl rfl)
    · exact .of_moved rfl (.move ..)
        (State.connection_congr (s.server.stopEnter_connected x ok) rfl) (.inl rfl)
  | advanceToggling c ok =>
    simp only [step] at ht
    split at ht
    · rename_i hp
      obtain ⟨r, hr, ht⟩ := Option.map_eq_some_iff.1 ht
      have hconnected := s.server.toggling_connected hr
      split at ht <;> cases ht
      · exact .of_moved rfl ⟨rfl, rfl, rfl, rfl, rfl, rfl, rfl⟩
          (State.connection_congr hconnected rfl) (.inr ⟨_, hp, rfl⟩)
      · exact .of_moved rfl (.move ..) (State.connection_congr hconnected rfl) (.inl rfl)
    · cases ht
  | worker w ok =>
    simp only [step] at ht
    split at ht
    · rename_i hp
      obtain ⟨server, hr, ht⟩ := Option.map_eq_some_iff.1 ht
      have hconnected := s.server.workerStep_connected hr
      simp only at ht
      split at ht <;> cases ht
      · exact .of_moved rfl ⟨rfl, rfl, rfl, rfl, rfl, rfl, rfl⟩
          (State.connection_congr hconnected rfl) (.inr ⟨_, hp, rfl⟩)
      · exact .of_moved rfl (.move ..) (State.connection_congr hconnected rfl) (.inl rfl)
    · cases ht
  | metrics i w m =>
    simp only [step, State.updateStreamMetrics] at ht
    split_ifs at ht with hp hw <;> cases ht
    · exact .quiet rfl rfl rfl fun _ _ ↦ .rfl
    · exact .of_moved rfl ⟨rfl, rfl, rfl, rfl, rfl, rfl, rfl⟩ rfl (.inr ⟨_, hp.1, rfl⟩)
  | publish p => exact .publishStep ht

/-- A call of `Connect` or `Disconnect` moves when it is made, or by a section of its own. -/
theorem step_connecting (ht : step s e = some t) (c : CallId) :
    t.connecting c = s.connecting c ∨ (∃ host, e = .connect c host) ∨ e = .disconnect c ∨
      InProgress (s.connecting c) := by
  cases e with
  | connect d host =>
    simp only [step] at ht
    split at ht <;> cases ht
    obtain rfl | hc := eq_or_ne c d
    · exact .inr (.inl ⟨host, rfl⟩)
    · exact .inl (Function.update_of_ne hc ..)
  | disconnect d =>
    simp only [step] at ht
    split at ht <;> cases ht
    obtain rfl | hc := eq_or_ne c d
    · exact .inr (.inr (.inl rfl))
    · exact .inl (Function.update_of_ne hc ..)
  | advanceConnecting d ok =>
    simp only [step, State.advanceConnecting.eq_def] at ht
    split at ht
    · split at ht
      · cases ht
      rename_i server phase hr
      obtain rfl | hc := eq_or_ne c d
      · exact .inr (.inr (.inr (inProgress_of_advance hr)))
      · refine .inl ?_
        cases ht
        split
        · split <;> exact Function.update_of_ne hc ..
        · split <;> exact Function.update_of_ne hc ..
        · exact Function.update_of_ne hc ..
    · cases ht
  | start d x | stop d x ok =>
    simp only [step] at ht
    split_ifs at ht <;> cases ht <;> exact .inl rfl
  | advanceToggling d ok =>
    simp only [step] at ht
    split at ht
    · obtain ⟨r, -, ht⟩ := Option.map_eq_some_iff.1 ht
      split at ht <;> cases ht <;> exact .inl rfl
    · cases ht
  | worker w ok =>
    simp only [step] at ht
    split at ht
    · obtain ⟨server, -, ht⟩ := Option.map_eq_some_iff.1 ht
      simp only at ht
      split at ht <;> cases ht <;> exact .inl rfl
    · cases ht
  | metrics i w m =>
    simp only [step, State.updateStreamMetrics] at ht
    split_ifs at ht <;> cases ht <;> exact .inl rfl
  | publish p =>
    simp only [step, State.publishStep.eq_def] at ht
    split at ht <;> cases ht <;> exact .inl rfl

/-- The copy of the connection is current, or the call that changed the connection last is going to
store it. -/
structure Copied (s : State) (changedBy : Option CallId) : Prop where
  copy : Converges s.connectionCell s.storedConnectionCell fun w ↦
    ∃ c, changedBy = some c ∧ s.ToStore (.connecting c) w
  carries : ∀ p w, s.ToStore p w → Taken s.connectionCell w

/-- **A step** keeps this, if it overtakes nothing. -/
theorem Copied.step {changedBy : Option CallId} (h : Copied s changedBy)
    (hC : ConnectionInOrder s e) (ht : step s e = some t) :
    Copied t ((s.changer e).or changedBy) := by
  cases step_connection ht with
  | quiet hchanger hconnection hstored htoStore =>
    rw [hchanger, Option.none_or]
    refine ⟨?_, fun p w hw ↦ hconnection ▸ h.carries p w ((htoStore p w).1 hw)⟩
    rw [hconnection, hstored]
    exact h.copy.mono fun ⟨c, hc, hw⟩ ↦ ⟨c, hc, (htoStore _ _).2 hw⟩
  | change c hchanger hprogress htaken hstored hpublishes htoStore =>
    rw [hchanger, Option.some_or]
    refine ⟨.inr ⟨c, rfl, hpublishes⟩, fun p w hw ↦ ?_⟩
    rcases htoStore p w hw with hw | ⟨-, rfl⟩
    · exact htaken w (h.carries p w hw)
    · exact Taken.refl _
  | store p w rest he hp hconnection hstored htoStore hkeep =>
    have hchanger : s.changer e = none := he ▸ rfl
    have hnew : s.storedConnection ≤ w.version := hC p he _ (congrArg List.head? hp)
    rw [hchanger, Option.none_or]
    refine ⟨?_, fun q v hv ↦ hconnection ▸ h.carries q v (htoStore q v hv)⟩
    rw [hconnection, hstored]
    refine h.copy.write (h.carries p w ?_) hnew fun ⟨c, hc, hv⟩ hne ↦ ⟨c, hc, hkeep _ _ hv hne.symm⟩
    rw [State.ToStore, hp]
    exact List.mem_cons_self

theorem copied_initial : Copied State.initial none :=
  ⟨.inl rfl, nofun⟩

end Connection

/-- **The published status.** In every run in which no publication writes something older than what
it replaces, the web server and its last broadcast agree with the controller whenever no call is in
progress. -/
theorem published_status {es : List Event} {s : State} (h : exec step State.initial es = some s)
    (hC : Along step InOrder State.initial es) (hs : Quiescent s) : Agrees s :=
  (exec_invariant_along (P := Published) (fun _ _ _ hC hi ht ↦ hi.step hC ht) hC published_initial
    h).agrees hs

/-- A `Connect` that publishes, with the five steps of its two publications. -/
def connectSchedule : List Event :=
  [.connect 0 "phone", .advanceConnecting 0 true, .advanceConnecting 0 true] ++
    List.replicate 5 (.publish (.connecting 0))

/-- After a `Connect` the clients know the phone. -/
theorem published_status_connect : ∃ s, exec step State.initial connectSchedule = some s ∧
    s.server.connected = true ∧ s.broadcast.value.phone = some "phone" ∧ Agrees s := by
  have hrun : exec step State.initial connectSchedule = some _ := rfl
  refine ⟨_, hrun, rfl, rfl, published_status hrun (by decide) ⟨fun c ↦ ?_, fun c ↦ .inl rfl,
    fun p ↦ ?_⟩⟩
  · rcases c with _ | c
    · exact .inr ⟨_, rfl⟩
    · exact .inl rfl
  · rcases p with (_ | c) | c | w | i <;> rfl

/-- A `Connect` commits. A `Disconnect` drops its connection and publishes this before the `Connect`
has published anything. -/
def overtakingSchedule : List Event :=
  [.connect 0 "phone", .advanceConnecting 0 true, .advanceConnecting 0 true,
    .disconnect 1, .advanceConnecting 1 true] ++
  List.replicate 5 (.publish (.connecting 1)) ++
  -- the `Connect` publishes
  List.replicate 5 (.publish (.connecting 0)) ++
  -- the speaker worker exits, and the `Disconnect` returns
  [.advanceConnecting 1 true] ++ List.replicate 4 (.worker 0 true) ++ [.advanceConnecting 1 true]

/-- The controller is disconnected, and the web server says that it is connected to the phone. -/
theorem delayed_publication_overwrites :
    ∃ s, exec step State.initial overtakingSchedule = some s ∧ Quiescent s ∧
      s.server.connected = false ∧ s.currentConn.connected = true ∧
      s.broadcast.value.connected = true ∧ s.broadcast.value.phone = some "phone" := by
  refine ⟨_, rfl, ⟨fun c ↦ ?_, fun c ↦ .inl rfl, fun p ↦ ?_⟩, rfl, rfl, rfl, rfl⟩
  · rcases c with _ | _ | c
    · exact .inr ⟨_, rfl⟩
    · exact .inr ⟨_, rfl⟩
    · exact .inl rfl
  · rcases p with (_ | _ | c) | c | (_ | w) | i <;> rfl

end AllRelay.Publication
