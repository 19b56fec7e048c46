import AllRelay.Web.Adb
import AllRelay.Web.Publication

/-!
# The ADB handlers and the ADB monitor

The handlers of the web server run with the controller and its publications (`Publication.step`),
which change the phone in `currentConn`. A handler reads that phone, waits for the phone's control
API and for `adb`, and then stores the ADB status that it got, whatever the phone is by then; and
when a `Connect` fails that has dropped a phone, the ADB status of this phone stays
(`adb_status_outlives_phone`). A monitor does as the handlers do every 30 seconds, but it stores
only while its id and its phone are current, so that a stopped monitor stores nothing.

`adb_status` says that nothing else goes wrong. Its condition is on the order of the steps: whether
the phone in `currentConn` has changed since a handler asked it, whether a `SetConnectionStatus`
overtakes a newer one, and whether a `Connect` that has dropped a phone fails.

The broadcast of a stored status is left out: nothing here reads it.
-/

open LabelledSystem DelayedWrite

namespace AllRelay.Adb

/-- The index of a handler's call; it is also the index of its call of `Connect` or `Disconnect`. -/
abbrev HandlerId := ℕ

/-- The index of a monitor goroutine, and of its context. -/
abbrev MonitorIndex := ℕ

/-- What a handler does after `stopADBMonitor`. -/
inductive AfterStop where
  /-- `handleConnect` calls `Connect`. -/
  | connect (ip : String)
  /-- `handleDisconnect` calls `Disconnect`. -/
  | disconnect
  /-- `handleADBDisconnect` calls `disconnectADB`. -/
  | disconnectADB
  /-- `handleADBStatus` responds. -/
  | respond
deriving DecidableEq, Repr

/-- What a handler does after `setADBStatus`. -/
inductive AfterSet where
  /-- It calls `startADBMonitor`. -/
  | start
  /-- It calls `stopADBMonitor`. -/
  | stop
  /-- It responds. -/
  | respond
deriving DecidableEq, Repr

/-- Who calls `queryADBStatus`. -/
inductive Query where
  /-- `handleConnect`. -/
  | connect
  /-- `handleADBStatus`. -/
  | status
  /-- `connectADB` for a phone, after its `adb connect`. -/
  | connectADB (ip : String) (connect : CommandReply)
  /-- `reconnectADBAfterAuthorize`, after another `adb connect`. -/
  | reconnect (ip : String) (connect : CommandReply) (lastOutput : String)
  /-- `disconnectADB`. -/
  | disconnectADB
deriving DecidableEq, Repr

/-- Where a handler is. -/
inductive Phase where
  /-- Not called yet. -/
  | idle
  /-- Before the locked section of `stopADBMonitor`. -/
  | stopADBMonitor (next : AfterStop)
  /-- Before the call of the monitor's cancel function. -/
  | cancel (monitor : Option MonitorIndex) (next : AfterStop)
  /-- Before the call of `Connect`. -/
  | connect (ip : String)
  /-- In `Connect`. -/
  | connecting
  /-- Before the call of `Disconnect`. -/
  | disconnect
  /-- In `Disconnect`. -/
  | disconnecting
  /-- Before `currentPhone` in `queryADBStatus`. -/
  | query (q : Query)
  /-- In the calls of `queryADBStatus`. -/
  | querying (phone : Option String) (q : Query)
  /-- Before `currentPhone` in `connectADB`. -/
  | connectADB
  /-- In the calls of `connectADB` up to `adb connect`. -/
  | enabling (ip : String)
  /-- In `authorizeHostKey`. -/
  | authorizing (ip : String) (connect : CommandReply) (status : ADBStatus)
  /-- In an `adb connect` of `reconnectADBAfterAuthorize`. -/
  | reconnecting (ip : String) (connect : CommandReply)
  /-- Before `currentPhone` in `disconnectADB`. -/
  | disconnectADB
  /-- In the calls of `disconnectADB`. -/
  | disabling (ip : String)
  /-- Before `setADBStatus`. -/
  | setADBStatus (status : ADBStatus) (next : AfterSet)
  /-- Before the locked section of `startADBMonitor`. -/
  | startADBMonitor
  /-- Responded. -/
  | returned
deriving DecidableEq, Repr

/-- Where a monitor is. -/
inductive MonitorPhase where
  /-- Before `currentPhone` in `refreshADBLease`. -/
  | query
  /-- In the calls of `queryADBStatus`. -/
  | querying (phone : Option String)
  /-- Before `adbMonitorOwnsPhone`. -/
  | checking (status : ADBStatus)
  /-- In the heartbeat. -/
  | heartbeat (status : ADBStatus)
  /-- Before the check after the heartbeat, with the status to store then. -/
  | rechecking (status new : ADBStatus)
  /-- Before `setADBStatusForMonitor`. -/
  | storing (status : ADBStatus)
  /-- In the `select`. -/
  | waiting
  /-- Before `finishADBMonitor`. -/
  | finishing
  /-- Returned. -/
  | exited
deriving DecidableEq, Repr

/-- A monitor goroutine. -/
structure Monitor where
  /-- `monitorID`. -/
  id : ℕ
  /-- Where it is. -/
  phase : MonitorPhase
deriving DecidableEq, Repr

/-- The web server, its controller and its goroutines. -/
structure State where
  /-- The controller, and the part of `currentConn` that it publishes. -/
  web : Publication.State
  /-- `currentConn.ADB`. -/
  adb : ADBStatus
  /-- `adbMonitorID`. -/
  adbMonitorID : ℕ
  /-- The monitor whose cancel function is in `adbMonitorCancel`. -/
  adbMonitorCancel : Option MonitorIndex
  /-- The contexts that were cancelled. -/
  cancelled : MonitorIndex → Bool
  /-- The heap of monitors. -/
  monitor : MonitorIndex → Monitor
  /-- The first monitor that is not allocated. -/
  nextMonitor : MonitorIndex
  /-- The handlers. -/
  handler : HandlerId → Phase
  /-- The call of `Connect` returned nil. -/
  connected : HandlerId → Bool
  /-- History: the monitors that `stopADBMonitor` stopped. -/
  stopped : MonitorIndex → Bool
  /-- History: the handler whose `Connect` or `Disconnect` changed the connection last. -/
  changedBy : Option HandlerId
  /-- History: the number of changes of the phone in `currentConn`. -/
  phoneChanges : ℕ
  /-- History: this number when a handler last read a phone to ask. -/
  asked : HandlerId → Option ℕ
  /-- History: the last ADB status that was stored is that of a phone that was asked. -/
  reported : Bool

namespace State

/-- `NewWebServer`. -/
def initial : State where
  web := .initial
  adb := .zero
  adbMonitorID := 0
  adbMonitorCancel := none
  cancelled _ := false
  monitor _ := ⟨0, .exited⟩
  nextMonitor := 0
  handler _ := .idle
  connected _ := false
  stopped _ := false
  changedBy := none
  phoneChanges := 0
  asked _ := none
  reported := false

/-- The IP of the phone in `currentConn`. -/
def phone (s : State) : Option String := s.web.currentConn.phone

/-- The phone that the controller is connected to. -/
def connectedPhone (s : State) : Option String := s.web.connection.2

/-- The phone in `currentConn`, as of its last change. -/
def phoneCell (s : State) : Cell (Option String) := ⟨s.phone, s.phoneChanges⟩

/-- A handler goes on to a phase. -/
def goTo (s : State) (h : HandlerId) (p : Phase) : State :=
  { s with handler := Function.update s.handler h p }

/-- A monitor goes on to a phase. -/
def monitorTo (s : State) (g : MonitorIndex) (phase : MonitorPhase) : State :=
  { s with monitor := Function.update s.monitor g { s.monitor g with phase } }

/-- A handler reads the phone that it asks. -/
def ask (s : State) (h : HandlerId) : State :=
  { s with
    asked := Function.update s.asked h ((phoneIP s.phone).map fun _ ↦ s.phoneChanges) }

/-- A step of the controller or of a publication. -/
def withWeb (s : State) (e : Publication.Event) (web : Publication.State) : State :=
  { s with
    web
    changedBy := (s.web.changer e).or s.changedBy
    phoneChanges :=
      if web.currentConn.phone = s.web.currentConn.phone then s.phoneChanges
      else s.phoneChanges + 1 }

/-! ### The sections under `ws.mu` -/

/-- The locked section of `startADBMonitor`. -/
def startADBMonitor (s : State) : State :=
  if s.adbMonitorCancel.isSome then s
  else
    { s with
      adbMonitorID := s.adbMonitorID + 1
      adbMonitorCancel := some s.nextMonitor
      cancelled := Function.update s.cancelled s.nextMonitor false
      monitor := Function.update s.monitor s.nextMonitor ⟨s.adbMonitorID + 1, .query⟩
      nextMonitor := s.nextMonitor + 1 }

/-- The locked section of `stopADBMonitor`. -/
def stopADBMonitor (s : State) : State :=
  { s with
    adbMonitorCancel := none
    adbMonitorID := s.adbMonitorID + 1
    stopped := fun g ↦ s.stopped g || s.adbMonitorCancel = some g }

/-- `finishADBMonitor`. -/
def finishADBMonitor (s : State) (id : ℕ) : State :=
  if s.adbMonitorID = id then { s with adbMonitorCancel := none } else s

/-- `adbMonitorOwnsPhone`. -/
def adbMonitorOwnsPhone (s : State) (id : ℕ) (ip : String) : Bool :=
  s.adbMonitorID = id && s.adbMonitorCancel.isSome && s.phone = some ip

/-! ### The handlers -/

/-- The end of `connectADB`. -/
def connectedADB (ip : String) (connect : CommandReply) (status : ADBStatus) : Phase :=
  if status.hostState = "unauthorized" then
    .setADBStatus { status with message := "ADB host key not yet authorized on the phone" } .respond
  else if status.hostConnected = false then
    let message :=
      if trimSpace connect.out ≠ "" then trimSpace connect.out
      else if status.message = "" then "adb connect did not produce a connected device state"
      else status.message
    .setADBStatus { status with message } .respond
  else .setADBStatus { status with message := s!"ADB connected to {ip}:{adbDashboardPort}" } .start

/-- What follows a `queryADBStatus`. -/
def afterQuery (status : ADBStatus) (r : Reply) : Query → Phase
  | .connect => .setADBStatus status (if shouldHeartbeatADB status then .start else .respond)
  | .status => .setADBStatus status (if shouldHeartbeatADB status then .start else .stop)
  | .connectADB ip connect =>
    match connect.err with
    | some err =>
      if status.hostState = "unauthorized" then .authorizing ip connect status
      else
        let message := if trimSpace connect.out = "" then err else trimSpace connect.out
        .setADBStatus { status with message } .respond
    | none =>
      if status.hostState = "unauthorized" then .authorizing ip connect status
      else connectedADB ip connect status
  | .reconnect ip connect lastOutput =>
    if status.hostConnected then connectedADB ip connect status
    else if r.expired then
      let message := "ADB did not reconnect after host authorization" ++
        if lastOutput = "" then "" else ": " ++ lastOutput
      .setADBStatus { status with message } .respond
    else .reconnecting ip connect
  | .disconnectADB =>
    .setADBStatus { status with message := "ADB disconnected and phone-side ADB TCP disabled" }
      .respond

/-- The calls of `connectADB` up to `adb connect`. -/
def afterEnable (ip : String) (r : Reply) : Phase :=
  if r.adbFound = false then
    .setADBStatus (messageStatus ip "adb not found on Ubuntu host") .respond
  else if r.phone.err.isSome then .setADBStatus (messageStatus ip openAppMessage) .respond
  else if r.phone.status.listening = false ∧ r.wait.err.isSome then
    .setADBStatus (buildADBStatus ip r.wait.status) .respond
  else .query (.connectADB ip r.command)

/-- The calls of `disconnectADB`. -/
def afterDisable (ip : String) (r : Reply) : Phase :=
  if r.adbFound = false then
    .setADBStatus (messageStatus ip "adb not found on Ubuntu host") .respond
  else if r.phone.err.isSome then
    .setADBStatus
      { buildADBStatus ip r.phone.status with
        message := "Host disconnected, but failed to disable phone-side ADB TCP" } .respond
  else .query .disconnectADB

/-- What follows `stopADBMonitor`. -/
def afterStop : AfterStop → Phase
  | .connect ip => .connect ip
  | .disconnect => .disconnect
  | .disconnectADB => .disconnectADB
  | .respond => .returned

/-- What follows `setADBStatus`. -/
def afterSet : AfterSet → Phase
  | .start => .startADBMonitor
  | .stop => .stopADBMonitor .respond
  | .respond => .returned

/-- A call of `Connect` or `Disconnect` has published, and returns. -/
def CallReturned (s : State) (h : HandlerId) : Prop :=
  (∃ conn, s.web.connecting h = .returned conn) ∧ s.web.publishing (.connecting h) = []

instance (s : State) (h : HandlerId) : Decidable (s.CallReturned h) :=
  have : Decidable (∃ conn, s.web.connecting h = .returned conn) :=
    match hp : s.web.connecting h with
    | .returned conn => .isTrue ⟨conn, rfl⟩
    | .idle | .disconnect _ | .closing .. | .waiting .. | .relock | .dialing .. | .dialFailed _
    | .dialed .. => .isFalse (by rintro ⟨conn, hconn⟩; cases hconn)
  inferInstanceAs (Decidable (_ ∧ _))

/-- The next step of a handler. -/
def advance (s : State) (h : HandlerId) (r : Reply) : Option State :=
  match s.handler h with
  | .idle => none
  | .stopADBMonitor next => some (s.stopADBMonitor.goTo h (.cancel s.adbMonitorCancel next))
  | .cancel monitor next =>
    some ({ s with cancelled := fun g ↦ s.cancelled g || monitor = some g }.goTo h (afterStop next))
  | .connect ip =>
    (Publication.step s.web (.connect h ip)).map fun web ↦
      (s.withWeb (.connect h ip) web).goTo h .connecting
  | .connecting =>
    if s.CallReturned h then
      -- `handleConnect` responds with an error if `Connect` returned one.
      some (s.goTo h (if s.connected h then .query .connect else .returned))
    else none
  | .disconnect =>
    (Publication.step s.web (.disconnect h)).map fun web ↦
      (s.withWeb (.disconnect h) web).goTo h .disconnecting
  | .disconnecting =>
    if s.CallReturned h then some (s.goTo h (.setADBStatus .zero .respond)) else none
  | .query q => some ((s.ask h).goTo h (.querying s.phone q))
  | .querying phone q => some (s.goTo h (afterQuery (queryADBStatus phone r) r q))
  | .connectADB =>
    some <| (s.ask h).goTo h <|
      match phoneIP s.phone with
      | none => .setADBStatus noPhoneStatus .respond
      | some ip => .enabling ip
  | .enabling ip => some (s.goTo h (afterEnable ip r))
  | .authorizing ip connect status =>
    some <| s.goTo h <|
      match r.authorizeErr with
      | some message => .setADBStatus { status with message } .respond
      | none => .reconnecting ip connect
  | .reconnecting ip connect =>
    some (s.goTo h (.query (.reconnect ip connect (trimSpace r.command.out))))
  | .disconnectADB =>
    some <| (s.ask h).goTo h <|
      match phoneIP s.phone with
      | none => .setADBStatus noPhoneStatus .respond
      | some ip => .disabling ip
  | .disabling ip => some (s.goTo h (afterDisable ip r))
  | .setADBStatus status next =>
    some ({ s with adb := status, reported := (s.asked h).isSome }.goTo h (afterSet next))
  | .startADBMonitor => some (s.startADBMonitor.goTo h .returned)
  | .returned => none

/-! ### The monitors -/

/-- The next step of a monitor. -/
def advanceMonitor (s : State) (g : MonitorIndex) (r : Reply) : Option State :=
  let id := (s.monitor g).id
  if s.nextMonitor ≤ g then none
  else
    match (s.monitor g).phase with
    | .query => some (s.monitorTo g (.querying s.phone))
    | .querying phone => some (s.monitorTo g (.checking (queryADBStatus phone r)))
    | .checking status =>
      some <| s.monitorTo g <|
        if s.adbMonitorOwnsPhone id status.ip = false then .finishing
        else if shouldHeartbeatADB status then .heartbeat status
        else .storing status
    | .heartbeat status => some (s.monitorTo g (.rechecking status (heartbeatStatus status r)))
    | .rechecking status new =>
      some <| s.monitorTo g <|
        if s.cancelled g ∨ s.adbMonitorOwnsPhone id status.ip = false then .finishing
        else .storing new
    | .storing status =>
      -- `setADBStatusForMonitor`
      if s.adbMonitorOwnsPhone id status.ip then
        some ({ s with adb := status, reported := true }.monitorTo g
          (if shouldHeartbeatADB status then .waiting else .finishing))
      else some (s.monitorTo g .finishing)
    | .waiting =>
      if r.tick then some (s.monitorTo g .query)
      else if s.cancelled g then some (s.monitorTo g .exited)
      else none
    | .finishing => some ((s.finishADBMonitor id).monitorTo g .exited)
    | .exited => none

/-! ### The controller -/

/-- A step of the controller or of a publication; it records whether a `Connect` commits. -/
def advanceWeb (s : State) (e : Publication.Event) : Option State :=
  (Publication.step s.web e).map fun web ↦
    match e with
    | .advanceConnecting c _ =>
      match s.web.connecting c with
      | .dialed gen ctx _ =>
        { s.withWeb e web with
          connected := Function.update s.connected c (s.web.server.mayConnect gen ctx) }
      | _ => s.withWeb e web
    | _ => s.withWeb e web

end State

/-- What the scheduler chooses. -/
inductive Event where
  /-- A handler is called; it goes to its first phase. -/
  | handleConnect (h : HandlerId) (ip : String)
  | handleDisconnect (h : HandlerId)
  | handleADBConnect (h : HandlerId)
  | handleADBDisconnect (h : HandlerId)
  | handleADBStatus (h : HandlerId)
  /-- The next step of a handler. -/
  | advance (h : HandlerId) (r : Reply)
  /-- The next step of a monitor. -/
  | monitor (g : MonitorIndex) (r : Reply)
  /-- A step of the controller or of a publication. -/
  | web (e : Publication.Event)
deriving DecidableEq, Repr

/-- A handler is called. -/
def State.call (s : State) (h : HandlerId) (p : Phase) : Option State :=
  if s.handler h = .idle then some (s.goTo h p) else none

/-- One step. `Connect` and `Disconnect` are called by handlers only. -/
def step (s : State) : Event → Option State
  | .handleConnect h ip => s.call h (.stopADBMonitor (.connect ip))
  | .handleDisconnect h => s.call h (.stopADBMonitor .disconnect)
  | .handleADBConnect h => s.call h .connectADB
  | .handleADBDisconnect h => s.call h (.stopADBMonitor .disconnectADB)
  | .handleADBStatus h => s.call h (.query .status)
  | .advance h r => s.advance h r
  | .monitor g r => s.advanceMonitor g r
  | .web e =>
    match e with
    | .connect _ _ => none
    | .disconnect _ => none
    | e => s.advanceWeb e

/-! ### What is claimed -/

/-- A monitor that has not returned has the current id. -/
def Owns (s : State) (g : MonitorIndex) : Prop :=
  g < s.nextMonitor ∧ (s.monitor g).phase ≠ .exited ∧ (s.monitor g).id = s.adbMonitorID

/-- The published ADB status has no address, or that of the connected phone. -/
def Match (s : State) : Prop :=
  s.adb.ip = "" ∨ s.connectedPhone = some s.adb.ip

/-- No handler is in progress. -/
def Quiescent (s : State) : Prop :=
  ∀ h, s.handler h = .idle ∨ s.handler h = .returned

/-- The condition on the next step of a handler. When it stores an ADB status, the phone in
`currentConn` has not changed since the handler asked it; and a `Connect` that has dropped the phone
does not fail while an ADB status is published. -/
def Prompt (s : State) (h : HandlerId) : Phase → Prop
  | .setADBStatus _ _ => ∀ changes ∈ s.asked h, changes = s.phoneChanges
  | .connecting =>
    s.CallReturned h → s.connected h = false → s.changedBy = some h → s.reported = false
  | _ => True

/-- The condition on a step. -/
def InTime (s : State) : Event → Prop
  | .advance h _ => Prompt s h (s.handler h)
  | .web e => Publication.ConnectionInOrder s.web e
  | _ => True

instance (s : State) : Decidable (Match s) :=
  inferInstanceAs (Decidable (_ ∨ _))

instance (s : State) (h : HandlerId) : DecidablePred (Prompt s h)
  | .setADBStatus _ _ => inferInstanceAs (Decidable (∀ changes ∈ s.asked h, _))
  | .connecting => inferInstanceAs (Decidable (s.CallReturned h → _ → _ → _))
  | .idle | .stopADBMonitor _ | .cancel .. | .connect _ | .disconnect | .disconnecting | .query _
  | .querying .. | .connectADB | .enabling _ | .authorizing .. | .reconnecting .. | .disconnectADB
  | .disabling _ | .startADBMonitor | .returned => .isTrue trivial

instance (s : State) : (e : Event) → Decidable (InTime s e)
  | .advance h _ => inferInstanceAs (Decidable (Prompt s h (s.handler h)))
  | .web e => inferInstanceAs (Decidable (Publication.ConnectionInOrder s.web e))
  | .handleConnect .. | .handleDisconnect _ | .handleADBConnect _ | .handleADBDisconnect _
  | .handleADBStatus _ | .monitor .. => .isTrue trivial

/-! ### The monitor id -/

/-- The monitors and the current id. -/
structure Monitors (s : State) : Prop where
  /-- Ids are not handed out in advance. -/
  le : ∀ g < s.nextMonitor, (s.monitor g).id ≤ s.adbMonitorID
  /-- Two monitors have different ids. -/
  unique : ∀ g g', g < s.nextMonitor → g' < s.nextMonitor →
    (s.monitor g).id = (s.monitor g').id → g = g'
  /-- The monitor that can be cancelled has the current id. -/
  current : ∀ g, s.adbMonitorCancel = some g →
    g < s.nextMonitor ∧ (s.monitor g).id = s.adbMonitorID
  /-- A stopped monitor has an older id. -/
  stopped : ∀ g, s.stopped g = true → g < s.nextMonitor ∧ (s.monitor g).id < s.adbMonitorID

/-- A section that keeps the ids, and may forget the monitor that can be cancelled. -/
structure KeepsIds (s t : State) : Prop where
  nextMonitor : t.nextMonitor = s.nextMonitor
  id : ∀ g, (t.monitor g).id = (s.monitor g).id
  adbMonitorID : t.adbMonitorID = s.adbMonitorID
  adbMonitorCancel : ∀ g, t.adbMonitorCancel = some g → s.adbMonitorCancel = some g
  stopped : t.stopped = s.stopped

variable {s t u : State} {h : HandlerId} {g : MonitorIndex} {r : Reply}

theorem KeepsIds.refl (s : State) : KeepsIds s s :=
  ⟨rfl, fun _ ↦ rfl, rfl, fun _ hg ↦ hg, rfl⟩

theorem KeepsIds.trans (h : KeepsIds s t) (h' : KeepsIds t u) : KeepsIds s u where
  nextMonitor := h'.nextMonitor.trans h.nextMonitor
  id g := (h'.id g).trans (h.id g)
  adbMonitorID := h'.adbMonitorID.trans h.adbMonitorID
  adbMonitorCancel g hg := h.adbMonitorCancel g (h'.adbMonitorCancel g hg)
  stopped := h'.stopped.trans h.stopped

theorem KeepsIds.monitorTo (s : State) (g : MonitorIndex) (phase : MonitorPhase) :
    KeepsIds s (s.monitorTo g phase) where
  nextMonitor := rfl
  id g' := by
    simp only [State.monitorTo, Function.update_apply]
    split
    · rename_i hg
      rw [hg]
    · rfl
  adbMonitorID := rfl
  adbMonitorCancel _ hg := hg
  stopped := rfl

theorem KeepsIds.finishADBMonitor (s : State) (id : ℕ) : KeepsIds s (s.finishADBMonitor id) := by
  rw [State.finishADBMonitor]
  split
  · exact ⟨rfl, fun _ ↦ rfl, rfl, fun _ hg ↦ absurd hg (by simp), rfl⟩
  · exact .refl s

theorem Monitors.keeps (hs : Monitors s) (hk : KeepsIds s t) : Monitors t where
  le g hg := by
    rw [hk.id, hk.adbMonitorID]
    exact hs.le g (hk.nextMonitor ▸ hg)
  unique g g' hg hg' hid := by
    rw [hk.id, hk.id] at hid
    exact hs.unique g g' (hk.nextMonitor ▸ hg) (hk.nextMonitor ▸ hg') hid
  current g hg := by
    rw [hk.id, hk.adbMonitorID, hk.nextMonitor]
    exact hs.current g (hk.adbMonitorCancel g hg)
  stopped g hg := by
    rw [hk.id, hk.adbMonitorID, hk.nextMonitor]
    exact hs.stopped g (hk.stopped ▸ hg)

theorem Monitors.stopADBMonitor (hs : Monitors s) : Monitors s.stopADBMonitor where
  le g hg := Nat.le_succ_of_le (hs.le g hg)
  unique := hs.unique
  current g hg := by cases hg
  stopped g hg := by
    rcases (Bool.or_eq_true_iff ..).1 hg with hg | hg
    · exact (hs.stopped g hg).imp_right Nat.lt_succ_of_lt
    · exact (hs.current g (of_decide_eq_true hg)).imp_right fun hid ↦
        Nat.lt_succ_of_le (Nat.le_of_eq hid)

/-- A monitor is started with a new id. -/
theorem Monitors.startADBMonitor (hs : Monitors s) : Monitors s.startADBMonitor := by
  rw [State.startADBMonitor]
  split
  · exact hs
  have hlt : ∀ {g}, g < s.nextMonitor + 1 → g = s.nextMonitor ∨ g < s.nextMonitor :=
    fun hg ↦ (Nat.lt_succ_iff_lt_or_eq.1 hg).symm
  have hnew : (Function.update s.monitor s.nextMonitor ⟨s.adbMonitorID + 1, .query⟩
      s.nextMonitor).id = s.adbMonitorID + 1 := by
    rw [Function.update_self]
  have hold : ∀ g < s.nextMonitor, (Function.update s.monitor s.nextMonitor
      ⟨s.adbMonitorID + 1, .query⟩ g).id = (s.monitor g).id :=
    fun g hg ↦ by rw [Function.update_of_ne (Nat.ne_of_lt hg)]
  constructor <;> dsimp only
  · intro g hg
    rcases hlt hg with rfl | hg
    · exact Nat.le_of_eq hnew
    · exact hold g hg ▸ Nat.le_succ_of_le (hs.le g hg)
  · intro g g' hg hg' hid
    rcases hlt hg with rfl | hg <;> rcases hlt hg' with rfl | hg'
    · rfl
    · rw [hnew, hold g' hg'] at hid
      exact absurd (hs.le g' hg') (hid ▸ Nat.not_succ_le_self _)
    · rw [hnew, hold g hg] at hid
      exact absurd (hs.le g hg) (hid ▸ Nat.not_succ_le_self _)
    · rw [hold g hg, hold g' hg'] at hid
      exact hs.unique g g' hg hg' hid
  · intro g hg
    cases hg
    exact ⟨Nat.lt_succ_self _, hnew⟩
  · intro g hg
    obtain ⟨hg, hid⟩ := hs.stopped g hg
    exact ⟨Nat.lt_succ_of_lt hg, hold g hg ▸ Nat.lt_succ_of_lt hid⟩

/-- The connection, its copy in `currentConn` and what the handlers asked stay as they are. -/
structure KeepsPhone (s t : State) : Prop where
  web : t.web = s.web
  changedBy : t.changedBy = s.changedBy
  phoneChanges : t.phoneChanges = s.phoneChanges

/-- The published ADB status stays as it is. -/
structure KeepsStatus (s t : State) : Prop where
  adb : t.adb = s.adb
  reported : t.reported = s.reported

/-- What a step of a monitor does: it keeps the ids, the handlers and the connection, and it stores
a status only while its id and its phone are current. -/
structure MonitorStep (s t : State) (g : MonitorIndex) : Prop where
  ids : KeepsIds s t
  handler : t.handler = s.handler
  asked : t.asked = s.asked
  phone : KeepsPhone s t
  status : KeepsStatus s t ∨
    (s.monitor g).id = s.adbMonitorID ∧ s.phone = some t.adb.ip ∧ t.reported = true

theorem advanceMonitor_spec (ht : s.advanceMonitor g r = some t) : MonitorStep s t g := by
  simp only [State.advanceMonitor] at ht
  split at ht
  · cases ht
  split at ht
  case h_6 status _ =>
    split at ht <;> cases ht
    · rename_i howns
      simp only [State.adbMonitorOwnsPhone, Bool.and_eq_true, decide_eq_true_eq] at howns
      have hkeeps : KeepsIds s { s with adb := status, reported := true } :=
        ⟨rfl, fun _ ↦ rfl, rfl, fun _ hg ↦ hg, rfl⟩
      exact ⟨hkeeps.trans (.monitorTo ..), rfl, rfl, ⟨rfl, rfl, rfl⟩,
        .inr ⟨howns.1.1.symm, howns.2, rfl⟩⟩
    · exact ⟨.monitorTo .., rfl, rfl, ⟨rfl, rfl, rfl⟩, .inl ⟨rfl, rfl⟩⟩
  case h_7 =>
    split_ifs at ht <;> cases ht <;>
      exact ⟨.monitorTo .., rfl, rfl, ⟨rfl, rfl, rfl⟩, .inl ⟨rfl, rfl⟩⟩
  case h_8 =>
    cases ht
    refine ⟨(KeepsIds.finishADBMonitor s _).trans (.monitorTo ..), ?_, ?_, ⟨?_, ?_, ?_⟩,
      .inl ⟨?_, ?_⟩⟩
    all_goals
      simp only [State.monitorTo, State.finishADBMonitor]
      split <;> rfl
  case h_9 => cases ht
  all_goals
    cases ht
    exact ⟨.monitorTo .., rfl, rfl, ⟨rfl, rfl, rfl⟩, .inl ⟨rfl, rfl⟩⟩

/-! ### The handlers -/

/-- The handler waits for `Connect` or `Disconnect`. -/
def InCall : Phase → Prop
  | .connecting => True
  | .disconnecting => True
  | _ => False

/-- The handler has changed the phone, or may still change it, and is going to store an ADB
status. -/
def Owes : Phase → Prop
  | .connecting => True
  | .disconnecting => True
  | .query .connect => True
  | .querying _ .connect => True
  | .setADBStatus _ _ => True
  | _ => False

/-- The address of the ADB status that the handler is going to store for the phone that it asks. -/
def carried : Phase → Option String
  | .querying phone _ => some ((phoneIP phone).getD "")
  | .enabling ip => some ip
  | .authorizing _ _ status => some status.ip
  | .disabling ip => some ip
  | .setADBStatus status _ => some status.ip
  | _ => none

theorem InCall.owes {p : Phase} (hp : InCall p) : Owes p := by
  cases p with
  | connecting | disconnecting => trivial
  | _ => exact hp.elim

/-- A step of the controller or of a publication. -/
structure WebStep (s t : State) (e : Publication.Event) : Prop where
  web : Publication.step s.web e = some t.web
  changedBy : t.changedBy = (s.web.changer e).or s.changedBy
  phoneChanges : t.phoneChanges =
    if t.phone = s.phone then s.phoneChanges else s.phoneChanges + 1
  asked : t.asked = s.asked
  status : KeepsStatus s t

/-- A step of a handler. -/
inductive Advances (s t : State) (h : HandlerId) : Prop where
  /-- It stays in the web server, and it carries on what it got. -/
  | goTo (p : Phase) (hphone : KeepsPhone s t) (hstatus : KeepsStatus s t)
      (hhandler : t.handler = Function.update s.handler h p) (hp : ¬InCall p)
      (hcall : InCall (s.handler h) → s.CallReturned h)
      (howes : Owes (s.handler h) → Owes p ∨ s.handler h = .connecting ∧ s.connected h = false)
      (hasked : t.asked = s.asked)
      (hcarried : ∀ ip ∈ carried p, ip = "" ∨ ip ∈ carried (s.handler h))
  /-- It reads the phone that it asks. -/
  | ask (p : Phase) (hphone : KeepsPhone s t) (hstatus : KeepsStatus s t)
      (hhandler : t.handler = Function.update s.handler h p) (hp : ¬InCall p)
      (hcall : ¬InCall (s.handler h)) (howes : Owes (s.handler h) → Owes p)
      (hasked : t.asked = (s.ask h).asked)
      (hcarried : ∀ ip ∈ carried p, ip = (phoneIP s.phone).getD "")
  /-- `setADBStatus`. -/
  | set (status : ADBStatus) (next : AfterSet) (hphase : s.handler h = .setADBStatus status next)
      (hphone : KeepsPhone s t) (hadb : t.adb = status)
      (hreported : t.reported = (s.asked h).isSome)
      (hhandler : t.handler = Function.update s.handler h (State.afterSet next))
      (hasked : t.asked = s.asked)
  /-- It calls `Connect` or `Disconnect`. -/
  | call (e : Publication.Event) (p : Phase) (hphase : ¬Owes (s.handler h)) (hp : InCall p)
      (he : (∃ ip, e = .connect h ip) ∨ e = .disconnect h) (hweb : WebStep s t e)
      (hhandler : t.handler = Function.update s.handler h p)

theorem not_inCall_afterQuery (status : ADBStatus) (r : Reply) (q : Query) :
    ¬InCall (State.afterQuery status r q) := by
  cases q with
  | connect | status | disconnectADB => exact id
  | connectADB ip connect =>
    simp only [State.afterQuery, State.connectedADB]
    split <;> split_ifs <;> exact id
  | reconnect ip connect lastOutput =>
    simp only [State.afterQuery, State.connectedADB]
    split_ifs <;> exact id

/-- What a query is followed by is about the phone of the query. -/
theorem eq_ip_of_mem_carried {status : ADBStatus} {r : Reply} {q : Query} {ip : String}
    (hip : ip ∈ carried (State.afterQuery status r q)) : ip = status.ip := by
  have hconnected : ∀ {ip' connect},
      ip ∈ carried (State.connectedADB ip' connect status) → ip = status.ip := by
    intro ip' connect hip
    simp only [State.connectedADB] at hip
    split_ifs at hip <;> exact (Option.some.inj hip).symm
  cases q with
  | connect | status | disconnectADB => exact (Option.some.inj hip).symm
  | connectADB ip' connect =>
    simp only [State.afterQuery] at hip
    split at hip <;> split_ifs at hip <;>
      first | exact hconnected hip | exact (Option.some.inj hip).symm
  | reconnect ip' connect lastOutput =>
    simp only [State.afterQuery] at hip
    split_ifs at hip <;>
      first | exact hconnected hip | exact (Option.some.inj hip).symm | cases hip

theorem startADBMonitor_frame (s : State) : KeepsPhone s s.startADBMonitor ∧
    KeepsStatus s s.startADBMonitor ∧ s.startADBMonitor.handler = s.handler ∧
    s.startADBMonitor.asked = s.asked := by
  rw [State.startADBMonitor]
  split <;> exact ⟨⟨rfl, rfl, rfl⟩, ⟨rfl, rfl⟩, rfl, rfl⟩

/-- A step of a handler that owes nothing and calls neither `Connect` nor `Disconnect`. -/
theorem Advances.quiet {p : Phase} (hphase : ¬Owes (s.handler h)) (hp : ¬InCall p)
    (hphone : KeepsPhone s t) (hstatus : KeepsStatus s t)
    (hhandler : t.handler = Function.update s.handler h p) (hasked : t.asked = s.asked)
    (hcarried : ∀ ip ∈ carried p, ip = "" ∨ ip ∈ carried (s.handler h)) : Advances s t h :=
  .goTo p hphone hstatus hhandler hp (fun hcall ↦ absurd hcall.owes hphase)
    (fun howes ↦ absurd howes hphase) hasked hcarried

theorem advance_spec (ht : s.advance h r = some t) : Advances s t h := by
  have hnone : ∀ {p q : Phase}, carried p = none →
      ∀ ip ∈ carried p, ip = "" ∨ ip ∈ carried q :=
    fun hp ip hip ↦ absurd (hp ▸ hip) (Option.not_mem_none ip)
  simp only [State.advance] at ht
  split at ht <;> rename_i hphase
  case h_1 | h_18 => cases ht
  case h_2 next =>
    cases ht
    exact .quiet (hphase ▸ id) id ⟨rfl, rfl, rfl⟩ ⟨rfl, rfl⟩ rfl rfl (hnone rfl)
  case h_3 monitor next =>
    cases ht
    refine .quiet (hphase ▸ id) ?_ ⟨rfl, rfl, rfl⟩ ⟨rfl, rfl⟩ rfl rfl (hnone ?_)
    · cases next <;> exact id
    · cases next <;> rfl
  case h_4 ip =>
    obtain ⟨web, hweb, ht⟩ := Option.map_eq_some_iff.1 ht
    cases ht
    exact .call _ .connecting (hphase ▸ id) trivial (.inl ⟨ip, rfl⟩)
      ⟨hweb, rfl, rfl, rfl, rfl, rfl⟩ rfl
  case h_5 =>
    split at ht <;> cases ht
    rename_i hreturned
    refine .goTo _ ⟨rfl, rfl, rfl⟩ ⟨rfl, rfl⟩ rfl ?_ (fun _ ↦ hreturned) (fun _ ↦ ?_) rfl
      (hnone ?_)
    · split <;> exact id
    · split
      · exact .inl trivial
      · exact .inr ⟨hphase, eq_false_of_ne_true ‹_›⟩
    · split <;> rfl
  case h_6 =>
    obtain ⟨web, hweb, ht⟩ := Option.map_eq_some_iff.1 ht
    cases ht
    exact .call _ .disconnecting (hphase ▸ id) trivial (.inr rfl)
      ⟨hweb, rfl, rfl, rfl, rfl, rfl⟩ rfl
  case h_7 =>
    split at ht <;> cases ht
    rename_i hreturned
    refine .goTo _ ⟨rfl, rfl, rfl⟩ ⟨rfl, rfl⟩ rfl id (fun _ ↦ hreturned) (fun _ ↦ .inl trivial)
      rfl fun ip hip ↦ .inl ?_
    exact (Option.some.inj hip).symm
  case h_8 q =>
    cases ht
    refine .ask _ ⟨rfl, rfl, rfl⟩ ⟨rfl, rfl⟩ rfl id (hphase ▸ id) (fun howes ↦ ?_) rfl
      fun ip hip ↦ (Option.some.inj hip).symm
    rw [hphase] at howes
    cases q with
    | connect => trivial
    | _ => exact howes.elim
  case h_9 phone q =>
    cases ht
    refine .goTo _ ⟨rfl, rfl, rfl⟩ ⟨rfl, rfl⟩ rfl (not_inCall_afterQuery _ r q)
      (hphase ▸ False.elim) (fun howes ↦ .inl ?_) rfl fun ip hip ↦ .inr ?_
    · rw [hphase] at howes
      cases q with
      | connect => trivial
      | _ => exact howes.elim
    · rw [hphase, eq_ip_of_mem_carried hip, queryADBStatus_ip]
      exact rfl
  case h_10 | h_14 =>
    cases ht
    refine .ask _ ⟨rfl, rfl, rfl⟩ ⟨rfl, rfl⟩ rfl ?_ (hphase ▸ id) (hphase ▸ False.elim) rfl
      fun ip hip ↦ ?_
    · split <;> exact id
    · split at hip <;> rename_i hphone <;> rw [hphone] <;> exact (Option.some.inj hip).symm
  case h_11 ip =>
    cases ht
    refine .quiet (hphase ▸ id) ?_ ⟨rfl, rfl, rfl⟩ ⟨rfl, rfl⟩ rfl rfl fun ip' hip ↦ .inr ?_
    · rw [State.afterEnable]
      split_ifs <;> exact id
    · rw [State.afterEnable] at hip
      rw [hphase]
      split_ifs at hip
      · exact hip
      · exact hip
      · exact (buildADBStatus_ip ip r.wait.status) ▸ hip
      · cases hip
  case h_12 ip connect status =>
    cases ht
    refine .quiet (hphase ▸ id) ?_ ⟨rfl, rfl, rfl⟩ ⟨rfl, rfl⟩ rfl rfl fun ip' hip ↦ .inr ?_
    · split <;> exact id
    · rw [hphase]
      split at hip
      · exact hip
      · cases hip
  case h_13 ip connect =>
    cases ht
    exact .quiet (hphase ▸ id) id ⟨rfl, rfl, rfl⟩ ⟨rfl, rfl⟩ rfl rfl (hnone rfl)
  case h_15 ip =>
    cases ht
    refine .quiet (hphase ▸ id) ?_ ⟨rfl, rfl, rfl⟩ ⟨rfl, rfl⟩ rfl rfl fun ip' hip ↦ .inr ?_
    · rw [State.afterDisable]
      split_ifs <;> exact id
    · rw [State.afterDisable] at hip
      rw [hphase]
      split_ifs at hip
      · exact hip
      · exact (buildADBStatus_ip ip r.phone.status) ▸ hip
      · cases hip
  case h_16 status next =>
    cases ht
    exact .set status next hphase ⟨rfl, rfl, rfl⟩ rfl rfl rfl rfl
  case h_17 =>
    cases ht
    obtain ⟨hphone, hstatus, hhandler, hasked⟩ := startADBMonitor_frame s
    refine .quiet (p := .returned) (hphase ▸ id) id ⟨hphone.1, hphone.2, hphone.3⟩
      ⟨hstatus.1, hstatus.2⟩ ?_ hasked (hnone rfl)
    rw [State.goTo, hhandler]

/-- The handlers keep the ids in order. -/
theorem Monitors.advance (hs : Monitors s) (ht : s.advance h r = some t) : Monitors t := by
  have hgoTo : ∀ {u : State} (p : Phase), Monitors u → Monitors (u.goTo h p) :=
    fun p hu ↦ ⟨hu.le, hu.unique, hu.current, hu.stopped⟩
  simp only [State.advance] at ht
  split at ht
  case h_1 | h_18 => cases ht
  case h_2 =>
    cases ht
    exact hgoTo _ hs.stopADBMonitor
  case h_4 | h_6 =>
    obtain ⟨web, -, ht⟩ := Option.map_eq_some_iff.1 ht
    cases ht
    exact ⟨hs.le, hs.unique, hs.current, hs.stopped⟩
  case h_5 | h_7 =>
    split at ht <;> cases ht
    exact hgoTo _ hs
  case h_17 =>
    cases ht
    exact hgoTo _ hs.startADBMonitor
  all_goals
    cases ht
    exact ⟨hs.le, hs.unique, hs.current, hs.stopped⟩

theorem advanceWeb_spec {e : Publication.Event} (ht : s.advanceWeb e = some t) :
    WebStep s t e ∧ t.handler = s.handler ∧ KeepsIds s t := by
  obtain ⟨web, hweb, ht⟩ := Option.map_eq_some_iff.1 ht
  have hkeeps : ∀ connected, KeepsIds s { s.withWeb e web with connected } :=
    fun connected ↦ ⟨rfl, fun _ ↦ rfl, rfl, fun _ hg ↦ hg, rfl⟩
  split at ht
  · split at ht <;> cases ht <;>
      exact ⟨⟨hweb, rfl, rfl, rfl, rfl, rfl⟩, rfl, hkeeps _⟩
  · cases ht
    exact ⟨⟨hweb, rfl, rfl, rfl, rfl, rfl⟩, rfl, hkeeps _⟩

theorem Monitors.step {e : Event} (hs : Monitors s) (ht : step s e = some t) : Monitors t := by
  have hcall : ∀ {h p}, s.call h p = some t → Monitors t := by
    intro h p ht
    rw [State.call] at ht
    split at ht <;> cases ht
    exact ⟨hs.le, hs.unique, hs.current, hs.stopped⟩
  cases e with
  | handleConnect | handleDisconnect | handleADBConnect | handleADBDisconnect | handleADBStatus =>
    exact hcall ht
  | advance h r => exact hs.advance ht
  | monitor g r => exact hs.keeps (advanceMonitor_spec ht).ids
  | web e =>
    simp only [Adb.step] at ht
    split at ht
    · cases ht
    · cases ht
    · exact hs.keeps (advanceWeb_spec ht).2.2

/-! ### The phone -/

/-- The phone changes only while a handler waits for `Connect` or `Disconnect`. -/
structure Calls (s : State) : Prop where
  /-- The other calls of `Connect` and `Disconnect` have returned. -/
  returned : ∀ h, Publication.InProgress (s.web.connecting h) → InCall (s.handler h)
  /-- A connection is published for such a handler. -/
  publishing : ∀ p w, s.web.ToStore p w → ∃ h, p = .connecting h ∧ InCall (s.handler h)

/-- A step of the controller, by nobody or by a handler that waits for it then. -/
theorem Calls.web (hs : Calls s) {e : Publication.Event}
    (hweb : Publication.step s.web e = some t.web)
    (hhandler : ∀ h, InCall (s.handler h) → InCall (t.handler h))
    (he : ∀ h, ((∃ host, e = .connect h host) ∨ e = .disconnect h) → InCall (t.handler h)) :
    Calls t := by
  have hold : ∀ {p w}, s.web.ToStore p w → ∃ h, p = .connecting h ∧ InCall (t.handler h) := by
    intro p w hw
    obtain ⟨h, hp, hcall⟩ := hs.publishing p w hw
    exact ⟨h, hp, hhandler h hcall⟩
  refine ⟨fun h hprogress ↦ ?_, fun p w hw ↦ ?_⟩
  · rcases Publication.step_connecting hweb h with hsame | hcalled | hcalled | hold
    · exact hhandler h (hs.returned h (hsame ▸ hprogress))
    · exact he h (.inl hcalled)
    · exact he h (.inr hcalled)
    · exact hhandler h (hs.returned h hold)
  · cases Publication.step_connection hweb with
    | quiet hchanger hconnection hstored htoStore => exact hold ((htoStore p w).1 hw)
    | change c hchanger hprogress htaken hstored hpublishes htoStore =>
      rcases htoStore p w hw with hw | ⟨hp, -⟩
      · exact hold hw
      · exact ⟨c, hp, hhandler c (hs.returned c hprogress)⟩
    | store q v rest he hp hconnection hstored htoStore hkeep => exact hold (htoStore p w hw)

/-- A handler goes on, from a call that has returned or from none. -/
theorem Calls.goTo (hs : Calls s) (p : Phase) (hweb : t.web = s.web)
    (hhandler : t.handler = Function.update s.handler h p)
    (hcall : InCall (s.handler h) → s.CallReturned h) : Calls t := by
  have hother : ∀ h' ≠ h, t.handler h' = s.handler h' :=
    fun h' hne ↦ by rw [hhandler, Function.update_of_ne hne]
  refine ⟨fun h' hprogress ↦ ?_, fun q w hw ↦ ?_⟩
  · rw [hweb] at hprogress
    have hold := hs.returned h' hprogress
    obtain rfl | hne := eq_or_ne h' h
    · obtain ⟨⟨conn, hconn⟩, -⟩ := hcall hold
      exact absurd hconn (hprogress.2 conn)
    · rwa [hother h' hne]
  · rw [hweb] at hw
    obtain ⟨h', rfl, hold⟩ := hs.publishing q w hw
    obtain rfl | hne := eq_or_ne h' h
    · rw [Publication.State.ToStore, (hcall hold).2] at hw
      exact absurd hw List.not_mem_nil
    · exact ⟨h', rfl, by rwa [hother h' hne]⟩

theorem Calls.advances (hs : Calls s) (ha : Advances s t h) : Calls t := by
  cases ha with
  | goTo p hphone hstatus hhandler hp hcall howes hasked hcarried =>
    exact hs.goTo p hphone.web hhandler hcall
  | ask p hphone hstatus hhandler hp hcall howes hasked hcarried =>
    exact hs.goTo p hphone.web hhandler fun hc ↦ absurd hc hcall
  | set status next hphase hphone hadb hreported hhandler hasked =>
    exact hs.goTo _ hphone.web hhandler (hphase ▸ False.elim)
  | call e p hphase hp he hweb hhandler =>
    refine hs.web hweb.web (fun h' hcall ↦ ?_) fun h' hcalled ↦ ?_
    · have hne : h' ≠ h := fun heq ↦ hphase (heq ▸ hcall.owes)
      rwa [hhandler, Function.update_of_ne hne]
    · have heq : h' = h := by
        rcases he with ⟨ip, rfl⟩ | rfl <;> rcases hcalled with ⟨host, hcalled⟩ | hcalled
        all_goals cases hcalled
        all_goals rfl
      rwa [heq, hhandler, Function.update_self]

/-- A call of a handler. -/
theorem call_spec {p : Phase} (ht : s.call h p = some t) :
    s.handler h = .idle ∧ t = s.goTo h p := by
  rw [State.call] at ht
  split at ht <;> cases ht
  exact ⟨‹_›, rfl⟩

/-- What a step is. -/
inductive Steps (s t : State) : Event → Prop where
  /-- A handler is called. -/
  | call (e : Event) (h : HandlerId) (p : Phase) (hidle : s.handler h = .idle)
      (hcarried : carried p = none) (ht : t = s.goTo h p) : Steps s t e
  | advance (h : HandlerId) (r : Reply) (ht : Advances s t h) : Steps s t (.advance h r)
  | monitor (g : MonitorIndex) (r : Reply) (ht : MonitorStep s t g) : Steps s t (.monitor g r)
  /-- `Connect` and `Disconnect` are called by handlers only. -/
  | web (e : Publication.Event) (ht : WebStep s t e) (hhandler : t.handler = s.handler)
      (he : ∀ h, ¬((∃ host, e = .connect h host) ∨ e = .disconnect h)) : Steps s t (.web e)

theorem step_spec {e : Event} (ht : step s e = some t) : Steps s t e := by
  cases e with
  | handleConnect | handleDisconnect | handleADBConnect | handleADBDisconnect | handleADBStatus =>
    obtain ⟨hidle, rfl⟩ := call_spec ht
    exact .call _ _ _ hidle rfl rfl
  | advance h r => exact .advance h r (advance_spec ht)
  | monitor g r => exact .monitor g r (advanceMonitor_spec ht)
  | web e =>
    simp only [Adb.step] at ht
    split at ht
    · cases ht
    · cases ht
    · rename_i hconnect hdisconnect
      obtain ⟨hweb, hhandler, -⟩ := advanceWeb_spec ht
      refine .web e hweb hhandler fun h hcalled ↦ ?_
      rcases hcalled with ⟨host, rfl⟩ | rfl
      · exact absurd rfl (hconnect h host)
      · exact absurd rfl (hdisconnect h)

theorem Calls.step {e : Event} (hs : Calls s) (ht : step s e = some t) : Calls t := by
  cases step_spec ht with
  | call e h p hidle hcarried hgoTo =>
    subst hgoTo
    exact hs.goTo p rfl rfl (hidle ▸ False.elim)
  | advance h r ha => exact hs.advances ha
  | monitor g r hm =>
    refine ⟨?_, ?_⟩
    · rw [hm.phone.web, hm.handler]
      exact hs.returned
    · rw [hm.phone.web, hm.handler]
      exact hs.publishing
  | web e hw hhandler he =>
    exact hs.web hw.web (fun h hcall ↦ hhandler ▸ hcall) fun h hcalled ↦ absurd hcalled (he h)

/-! ### What the handlers carry -/

/-- The address is that of the phone that the handler asked, or there is none. -/
def Asked (s : State) (h : HandlerId) (ip : String) : Prop :=
  ip = "" ∨ ∃ changes, s.asked h = some changes ∧ Taken s.phoneCell ⟨some ip, changes⟩

/-- Every handler carries the address of the phone that it asked. -/
def Carries (s : State) : Prop :=
  ∀ h, ∀ ip ∈ carried (s.handler h), Asked s h ip

/-- The phone may change; what was asked before is then old. -/
theorem Asked.taken {ip : String} (hs : Asked s h ip) (hasked : t.asked h = s.asked h)
    (htaken : ∀ w, Taken s.phoneCell w → Taken t.phoneCell w) : Asked t h ip := by
  refine hs.imp_right fun ⟨changes, hchanges, hw⟩ ↦ ⟨changes, ?_, htaken _ hw⟩
  rw [hasked, hchanges]

theorem KeepsPhone.phoneCell (hk : KeepsPhone s t) : t.phoneCell = s.phoneCell := by
  rw [State.phoneCell, State.phoneCell, State.phone, hk.web, hk.phoneChanges, State.phone]

theorem WebStep.taken {e : Publication.Event} (hw : WebStep s t e) :
    ∀ w, Taken s.phoneCell w → Taken t.phoneCell w := by
  intro w hw'
  by_cases hsame : t.phone = s.phone
  · have hcell : t.phoneCell = s.phoneCell := by
      rw [State.phoneCell, State.phoneCell, hw.phoneChanges, if_pos hsame, hsame]
    exact hcell ▸ hw'
  · refine hw'.change ?_
    show s.phoneChanges < t.phoneChanges
    rw [hw.phoneChanges, if_neg hsame]
    exact Nat.lt_succ_self _

theorem phone_eq_of_phoneIP {phone : Option String} {ip : String} (h : phoneIP phone = some ip) :
    phone = some ip :=
  (Option.filter_eq_some_iff.1 h).1

theorem asked_ask_eq (s : State) (h : HandlerId) : (s.ask h).asked =
    Function.update s.asked h ((phoneIP s.phone).map fun _ ↦ s.phoneChanges) :=
  rfl

/-- A handler that has read the phone carries its address. -/
theorem asked_ask (hasked : t.asked h = (s.ask h).asked h) (hcell : t.phoneCell = s.phoneCell) :
    Asked t h ((phoneIP s.phone).getD "") := by
  cases hphone : phoneIP s.phone with
  | none => exact .inl rfl
  | some ip =>
    refine .inr ⟨s.phoneChanges, ?_, ?_⟩
    · rw [hasked, asked_ask_eq, Function.update_self, hphone]
      rfl
    · rw [hcell, State.phoneCell, phone_eq_of_phoneIP hphone]
      exact .refl _

/-- One handler goes on, and carries what it should. -/
theorem Carries.update {p : Phase} (hs : Carries s)
    (hhandler : t.handler = Function.update s.handler h p)
    (hasked : ∀ h' ≠ h, t.asked h' = s.asked h')
    (htaken : ∀ w, Taken s.phoneCell w → Taken t.phoneCell w)
    (hcarried : ∀ ip ∈ carried p, Asked t h ip) : Carries t := by
  intro h' ip hip
  rw [hhandler, Function.update_apply] at hip
  split at hip
  · rename_i heq
    exact heq ▸ hcarried ip hip
  · rename_i hne
    exact (hs h' ip hip).taken (hasked h' hne) htaken

theorem Carries.advances (hs : Carries s) (ha : Advances s t h) : Carries t := by
  cases ha with
  | goTo p hphone hstatus hhandler hp hcall howes hasked hcarried =>
    refine hs.update hhandler (fun h' _ ↦ hasked ▸ rfl) (hphone.phoneCell ▸ fun _ hw ↦ hw)
      fun ip hip ↦ ?_
    rcases hcarried ip hip with hip | hip
    · exact .inl hip
    · exact (hs h ip hip).taken (hasked ▸ rfl) (hphone.phoneCell ▸ fun _ hw ↦ hw)
  | ask p hphone hstatus hhandler hp hcall howes hasked hcarried =>
    refine hs.update hhandler (fun h' hne ↦ ?_) (hphone.phoneCell ▸ fun _ hw ↦ hw)
      fun ip hip ↦ ?_
    · rw [hasked, asked_ask_eq, Function.update_of_ne hne]
    · exact hcarried ip hip ▸ asked_ask (hasked ▸ rfl) hphone.phoneCell
  | set status next hphase hphone hadb hreported hhandler hasked =>
    refine hs.update hhandler (fun h' _ ↦ hasked ▸ rfl) (hphone.phoneCell ▸ fun _ hw ↦ hw)
      fun ip hip ↦ ?_
    cases next <;> cases hip
  | call e p hphase hp he hweb hhandler =>
    refine hs.update hhandler (fun h' _ ↦ hweb.asked ▸ rfl) hweb.taken fun ip hip ↦ ?_
    cases p with
    | connecting | disconnecting => cases hip
    | _ => exact hp.elim

theorem Carries.step {e : Event} (hs : Carries s) (ht : step s e = some t) : Carries t := by
  cases step_spec ht with
  | call e h p hidle hcarried hgoTo =>
    subst hgoTo
    refine hs.update rfl (fun _ _ ↦ rfl) (fun _ hw ↦ hw) fun ip hip ↦ ?_
    exact absurd (hcarried ▸ hip) (Option.not_mem_none ip)
  | advance h r ha => exact hs.advances ha
  | monitor g r hm =>
    intro h ip hip
    exact (hs h ip (hm.handler ▸ hip)).taken (hm.asked ▸ rfl)
      (hm.phone.phoneCell ▸ fun _ hw ↦ hw)
  | web e hw hhandler he =>
    intro h ip hip
    exact (hs h ip (hhandler ▸ hip)).taken (hw.asked ▸ rfl) hw.taken

/-! ### The ADB status -/

/-- What holds of the ADB status, and of the phone that it is about. -/
structure Inv (s : State) : Prop where
  calls : Calls s
  carries : Carries s
  /-- The phone in `currentConn` is the connected one, or the handler that changed it last is going
  to publish this. -/
  copied : Publication.Copied s.web s.changedBy
  /-- Without a phone that was asked, the published status has no address. -/
  reported : s.reported = false → s.adb.ip = ""
  /-- The published status is that of the connected phone, or the handler that changed the
  connection last is going to replace it. -/
  owed : Match s ∨ ∃ h, s.changedBy = some h ∧ Owes (s.handler h)

/-- The published phone is the connected one, or a handler is in the call that has changed it. -/
theorem Inv.phone (hs : Inv s) : s.phone = s.connectedPhone ∨
    ∃ h, s.changedBy = some h ∧ InCall (s.handler h) := by
  rcases hs.copied.copy with hcopy | ⟨c, hc, hw⟩
  · have hvalue := congrArg Cell.value hcopy
    exact .inl (congrArg Prod.snd hvalue)
  · obtain ⟨h, hh, hcall⟩ := hs.calls.publishing _ _ hw
    cases hh
    exact .inr ⟨c, hc, hcall⟩

theorem Match.congr (hs : Match s) (hconnection : t.web.connectionCell = s.web.connectionCell)
    (hstatus : KeepsStatus s t) : Match t := by
  have hphone : t.connectedPhone = s.connectedPhone := congrArg (Prod.snd ∘ Cell.value) hconnection
  rw [Match, hphone, hstatus.adb]
  exact hs

theorem Match.keeps (hs : Match s) (hphone : KeepsPhone s t) (hstatus : KeepsStatus s t) :
    Match t :=
  hs.congr (hphone.web ▸ rfl) hstatus

/-- A status of the phone in `currentConn` is stored. -/
theorem Inv.stored (hs : Inv s) (hphone : KeepsPhone s t)
    (hip : t.adb.ip = "" ∨ s.phone = some t.adb.ip) :
    Match t ∨ ∃ h, s.changedBy = some h ∧ InCall (s.handler h) := by
  rcases hip with hip | hip
  · exact .inl (.inl hip)
  · refine hs.phone.imp_left fun heq ↦ .inr ?_
    rw [State.connectedPhone, hphone.web, ← hip, heq]
    rfl

/-- The handler that is to replace the status goes on. -/
theorem owed_goTo {p : Phase} (hs : Match s ∨ ∃ h, s.changedBy = some h ∧ Owes (s.handler h))
    (hphase : s.changedBy = some h → Owes (s.handler h) → Owes p ∨ Match s)
    (hphone : KeepsPhone s t) (hstatus : KeepsStatus s t)
    (hhandler : t.handler = Function.update s.handler h p) :
    Match t ∨ ∃ h, t.changedBy = some h ∧ Owes (t.handler h) := by
  rcases hs with hmatch | ⟨h', hchanged, howes⟩
  · exact .inl (hmatch.keeps hphone hstatus)
  · rw [hphone.changedBy, hhandler]
    obtain rfl | hne := eq_or_ne h' h
    · rcases hphase hchanged howes with howes | hmatch
      · exact .inr ⟨h', hchanged, by rwa [Function.update_self]⟩
      · exact .inl (hmatch.keeps hphone hstatus)
    · exact .inr ⟨h', hchanged, by rwa [Function.update_of_ne hne]⟩

/-- The controller moves: whoever changes the connection is in its call. -/
theorem Inv.owed_web {e : Publication.Event} (hs : Inv s) (hw : WebStep s t e)
    (hhandler : ∀ h, Owes (s.handler h) → Owes (t.handler h)) :
    Match t ∨ ∃ h, t.changedBy = some h ∧ Owes (t.handler h) := by
  have hsame : s.web.changer e = none → t.web.connectionCell = s.web.connectionCell →
      Match t ∨ ∃ h, t.changedBy = some h ∧ Owes (t.handler h) := by
    intro hchanger hconnection
    rw [hw.changedBy, hchanger, Option.none_or]
    exact hs.owed.imp (fun hmatch ↦ hmatch.congr hconnection hw.status)
      fun ⟨h, hchanged, howes⟩ ↦ ⟨h, hchanged, hhandler h howes⟩
  cases Publication.step_connection hw.web with
  | quiet hchanger hconnection hstored htoStore => exact hsame hchanger hconnection
  | change c hchanger hprogress htaken hstored hpublishes htoStore =>
    refine .inr ⟨c, ?_, hhandler c (hs.calls.returned c hprogress).owes⟩
    rw [hw.changedBy, hchanger, Option.some_or]
  | store p w rest he hp hconnection hstored htoStore hkeep =>
    exact hsame (he ▸ rfl) hconnection

theorem Inv.owed_advance (hs : Inv s) (hC : Prompt s h (s.handler h)) (ha : Advances s t h) :
    Match t ∨ ∃ h, t.changedBy = some h ∧ Owes (t.handler h) := by
  cases ha with
  | goTo p hphone hstatus hhandler hp hcall howes hasked hcarried =>
    refine owed_goTo hs.owed (fun hchanged ho ↦ (howes ho).imp_right fun hfailed ↦ ?_) hphone
      hstatus hhandler
    -- The `Connect` failed: nobody is going to replace the status.
    rw [hfailed.1] at hC hcall
    exact .inl (hs.reported (hC (hcall trivial) hfailed.2 hchanged))
  | ask p hphone hstatus hhandler hp hcall howes hasked hcarried =>
    exact owed_goTo hs.owed (fun _ ho ↦ .inl (howes ho)) hphone hstatus hhandler
  | set status next hphase hphone hadb hreported hhandler hasked =>
    have hip : t.adb.ip = "" ∨ s.phone = some t.adb.ip := by
      rw [hadb]
      refine (hs.carries h status.ip (hphase ▸ rfl)).imp_right ?_
      rintro ⟨changes, hchanges, htaken⟩
      rw [hphase] at hC
      exact (congrArg Cell.value (htaken.eq (hC changes hchanges))).symm
    refine (hs.stored hphone hip).imp_right ?_
    rintro ⟨h', hchanged, hcall⟩
    have hne : h' ≠ h := fun heq ↦ by
      rw [heq, hphase] at hcall
      exact hcall
    refine ⟨h', hphone.changedBy.trans hchanged, ?_⟩
    rw [hhandler, Function.update_of_ne hne]
    exact hcall.owes
  | call e p hphase hp he hweb hhandler =>
    refine hs.owed_web hweb fun h' howes ↦ ?_
    have hne : h' ≠ h := fun heq ↦ hphase (heq ▸ howes)
    rwa [hhandler, Function.update_of_ne hne]

theorem Inv.step {e : Event} (hs : Inv s) (hC : InTime s e) (ht : step s e = some t) : Inv t := by
  have hcalls := hs.calls.step ht
  have hcarries := hs.carries.step ht
  have hkeeps : KeepsPhone s t → Publication.Copied t.web t.changedBy :=
    fun hphone ↦ by rw [hphone.web, hphone.changedBy]; exact hs.copied
  have hreported : KeepsStatus s t → t.reported = false → t.adb.ip = "" := by
    intro hstatus hr
    rw [hstatus.adb]
    exact hs.reported (hstatus.reported ▸ hr)
  cases step_spec ht with
  | call e h p hidle hcarried hgoTo =>
    subst hgoTo
    exact ⟨hcalls, hcarries, hs.copied, hs.reported, owed_goTo hs.owed
      (fun _ ho ↦ absurd ho (hidle ▸ id)) ⟨rfl, rfl, rfl⟩ ⟨rfl, rfl⟩ rfl⟩
  | advance h r ha =>
    have howed := hs.owed_advance hC ha
    cases ha with
    | goTo p hphone hstatus =>
      exact ⟨hcalls, hcarries, hkeeps hphone, hreported hstatus, howed⟩
    | ask p hphone hstatus => exact ⟨hcalls, hcarries, hkeeps hphone, hreported hstatus, howed⟩
    | set status next hphase hphone hadb hr hhandler hasked =>
      refine ⟨hcalls, hcarries, hkeeps hphone, fun hr' ↦ ?_, howed⟩
      -- No phone was asked.
      rw [hr] at hr'
      rw [hadb]
      refine (hs.carries h status.ip (hphase ▸ rfl)).resolve_right ?_
      rintro ⟨changes, hchanges, -⟩
      rw [hchanges] at hr'
      cases hr'
    | call e p hphase hp he hweb hhandler =>
      have hC' : Publication.ConnectionInOrder s.web e := by
        rcases he with ⟨ip, rfl⟩ | rfl <;> exact nofun
      exact ⟨hcalls, hcarries, hweb.changedBy ▸ hs.copied.step hC' hweb.web,
        hreported hweb.status, howed⟩
  | monitor g r hm =>
    rcases hm.status with hstatus | ⟨-, hphone, hr⟩
    · refine ⟨hcalls, hcarries, hkeeps hm.phone, hreported hstatus, ?_⟩
      rw [hm.phone.changedBy, hm.handler]
      exact hs.owed.imp_left fun hmatch ↦ hmatch.keeps hm.phone hstatus
    · refine ⟨hcalls, hcarries, hkeeps hm.phone, fun hr' ↦ ?_, ?_⟩
      · rw [hr] at hr'
        cases hr'
      · rw [hm.phone.changedBy, hm.handler]
        exact (hs.stored hm.phone (.inr hphone)).imp_right
          fun ⟨h, hchanged, hcall⟩ ↦ ⟨h, hchanged, hcall.owes⟩
  | web e hw hhandler he =>
    exact ⟨hcalls, hcarries, hw.changedBy ▸ hs.copied.step hC hw.web, hreported hw.status,
      hs.owed_web hw fun h howes ↦ hhandler ▸ howes⟩

theorem Inv.quiescent (hs : Inv s) (hq : Quiescent s) : Match s := by
  refine hs.owed.resolve_right ?_
  rintro ⟨h, -, howes⟩
  rcases hq h with hphase | hphase
  all_goals
    rw [hphase] at howes
    exact howes

theorem monitors_initial : Monitors State.initial :=
  ⟨nofun, nofun, nofun, nofun⟩

theorem inv_initial : Inv State.initial :=
  ⟨⟨fun _ hprogress ↦ absurd rfl hprogress.1, nofun⟩, nofun, Publication.copied_initial,
    fun _ ↦ rfl, .inl (.inl rfl)⟩

/-- **The ADB status.** At any time at most one monitor has the current id, and a monitor that was
stopped stores nothing. In every run in which no `SetConnectionStatus` overtakes a newer one, no
phone changes between a handler's question and its `setADBStatus`, and no `Connect` fails that has
dropped the phone of a published status, the published status has no address or that of the
connected phone whenever no handler is in progress. -/
theorem adb_status {es : List Event} (hrun : exec step State.initial es = some s) :
    (∀ g g', Owns s g → Owns s g' → g = g') ∧
    (∀ g r t, s.stopped g = true → step s (.monitor g r) = some t → t.adb = s.adb) ∧
    (Along step InTime State.initial es → Quiescent s → Match s) := by
  have hmonitors : Monitors s :=
    exec_invariant (fun _ _ _ hs ht ↦ Monitors.step hs ht) monitors_initial hrun
  refine ⟨fun g g' hg hg' ↦ ?_, fun g r t hg ht ↦ ?_, fun hC hq ↦ ?_⟩
  · exact hmonitors.unique g g' hg.1 hg'.1 (hg.2.2.trans hg'.2.2.symm)
  · rcases (advanceMonitor_spec ht).status with hstatus | ⟨hid, -⟩
    · exact hstatus.adb
    · exact absurd hid (Nat.ne_of_lt (hmonitors.stopped g hg).2)
  · have hinv : Inv s :=
      exec_invariant_along (P := Inv) (fun _ _ _ hC hs ht ↦ hs.step hC ht) hC inv_initial hrun
    exact hinv.quiescent hq

/-- The phone answers that ADB over TCP is disabled. -/
def disabledReply : Reply where
  phone := ⟨⟨true, false, false, 0, "", 0⟩, none⟩
  wait := ⟨⟨true, false, false, 0, "", 0⟩, none⟩
  adbFound := true
  command := ⟨"", none⟩
  state := some "disconnected"
  authorizeErr := none
  expired := false
  tick := false

/-- The next `n` steps of a handler. -/
def advances (n : ℕ) (h : HandlerId) : List Event :=
  List.replicate n (.advance h disabledReply)

/-- The steps of the two publications of a call. -/
def publications (h : HandlerId) : List Event :=
  List.replicate 5 (.web (.publish (.connecting h)))

/-- `handleConnect` connects to phone A, and stores its ADB status. -/
def connectSchedule : List Event :=
  [.handleConnect 0 "A"] ++ advances 3 0 ++
  [.web (.advanceConnecting 0 true), .web (.advanceConnecting 0 true)] ++ publications 0 ++
  advances 4 0

/-- After a `handleConnect` the status is that of the phone. -/
theorem adb_status_connect : ∃ s, exec step State.initial connectSchedule = some s ∧
    s.connectedPhone = some "A" ∧ s.adb.ip = "A" ∧ Match s := by
  have hrun : exec step State.initial connectSchedule = some _ := rfl
  refine ⟨_, hrun, rfl, rfl, (adb_status hrun).2.2 (by decide) fun h ↦ ?_⟩
  rcases h with _ | h
  · exact .inr rfl
  · exact .inl rfl

/-- The `Connect` to phone B drops phone A, and waits for its speaker worker. -/
def switchSchedule : List Event :=
  [.handleConnect 2 "B"] ++ advances 3 2 ++ [.web (.advanceConnecting 2 true)] ++ publications 2 ++
  [.web (.advanceConnecting 2 true)] ++ List.replicate 4 (.web (.worker 0 true)) ++
  [.web (.advanceConnecting 2 true), .web (.advanceConnecting 2 true)]

/-- `handleADBStatus` reads phone A, and stores its status after the switch to phone B. -/
def slowStatusSchedule : List Event :=
  connectSchedule ++ [.handleADBStatus 1] ++ advances 1 1 ++ switchSchedule ++
  [.web (.advanceConnecting 2 true), .web (.advanceConnecting 2 true)] ++ publications 2 ++
  advances 4 2 ++ advances 4 1

/-- The dial to phone B fails. -/
def failedSwitchSchedule : List Event :=
  connectSchedule ++ switchSchedule ++
  [.web (.advanceConnecting 2 false), .web (.advanceConnecting 2 true)] ++ advances 1 2

/-- In both runs all handlers have returned, and the published status is still that of phone A. -/
theorem adb_status_outlives_phone :
    (∃ s, exec step State.initial slowStatusSchedule = some s ∧ Quiescent s ∧
      s.connectedPhone = some "B" ∧ s.adb.ip = "A") ∧
    ∃ s, exec step State.initial failedSwitchSchedule = some s ∧ Quiescent s ∧
      s.connectedPhone = none ∧ s.adb.ip = "A" := by
  refine ⟨⟨_, rfl, fun h ↦ ?_, rfl, rfl⟩, _, rfl, fun h ↦ ?_, rfl, rfl⟩
  · rcases h with _ | _ | _ | h
    · exact .inr rfl
    · exact .inr rfl
    · exact .inr rfl
    · exact .inl rfl
  · rcases h with _ | _ | _ | h
    · exact .inr rfl
    · exact .inl rfl
    · exact .inr rfl
    · exact .inl rfl

end AllRelay.Adb
