import Mathlib.Data.Set.Basic
import AllRelay.Library.SyncSkeleton

/-!
# The order of the locks of the server

The synchronization skeletons of `controller.go`, `hub.go`, `server.go`, `adb.go` and
`connection.go`: every acquisition of a lock, every send on a channel of the hub and every wait for
a goroutine, in the order of the source, with its branches and loops. What a routine does to data is
left out, so a branch of the source is a choice here, and a routine may start whether or not the
source would start it. Reads, writes, dials and closes of sockets are `work`, and so are the
processes of the audio and video pipelines.

All waiting follows one order (`rank`), from the `done` channels, which are joined without any lock,
over `ServerController.mu`, `displayMu` and `controlMu` down to the locks that are held for a moment
only. The event loop of the hub, which empties `broadcast` and `register`, waits for the last ones
alone (`no_wait_cycle`).
-/

namespace AllRelay.LockOrder

open Skeleton

/-- The locks and channels. -/
inductive Kind where
  /-- `ServerController.mu`. -/
  | serverMu
  /-- `ServerController.controlMu`. -/
  | serverControlMu
  /-- `Hub.displayMu`. -/
  | displayMu
  /-- `Hub.controlMu`. -/
  | controlMu
  /-- `Hub.mu`. -/
  | hubMu
  /-- The `writeMu` of a control route. -/
  | routeMu
  /-- `WebServer.mu`. -/
  | webMu
  /-- The `mu` of a transport connection. -/
  | connMu
  /-- The `closeOnce` of a client. -/
  | closeOnce
  /-- The `writeMu` of a client. -/
  | clientMu
  /-- `Hub.broadcast`. -/
  | broadcast
  /-- `Hub.register`. -/
  | register
  /-- The `done` channel of a stream. -/
  | done
  /-- The `errCh` of a capture, on which its demuxer returns. -/
  | errCh
  /-- The `sendDone` of a speaker capture. -/
  | sendDone
  /-- The `wg` of a client. -/
  | pumps
deriving DecidableEq, Repr

/-! ### `connection.go` -/

namespace Connection

/-- `VideoConn`, `CameraStream`, `MicStream`, `SpeakerWriter`, `ControlConn` and `HasStream`. -/
def accessor : Skeleton Kind :=
  opt (locked .read .connMu .work)

/-- A change of slots under `mu`; the sockets are closed after it. -/
def change : Skeleton Kind :=
  opt (block [locked .write .connMu .work, .work])

/-- `Close`. -/
def close : Skeleton Kind := change

/-- `CloseStream`. -/
def closeStream : Skeleton Kind := change

/-- `CloseControlConn`. -/
def closeControlConn : Skeleton Kind := change

/-- `InstallStream`. -/
def installStream : Skeleton Kind := change

/-- `ConnectContext`: the dials, and `Close` when one of them fails. -/
def connectContext : Skeleton Kind :=
  block [.work, opt close]

/-- `ConnectStreamPortContext`. -/
def connectStreamPortContext : Skeleton Kind := .work

end Connection

/-! ### `hub.go` -/

namespace Route

/-- A write of the route, under its `writeMu`. -/
def write : Skeleton Kind :=
  locked .write .routeMu .work

/-- `writeControl`. -/
def writeControl : Skeleton Kind := write

/-- `sendDisplayOff`. -/
def sendDisplayOff : Skeleton Kind := write

/-- `sendDisplayOn`; there may be no route. -/
def sendDisplayOn : Skeleton Kind := opt write

/-- `close`; there may be no route. -/
def close : Skeleton Kind :=
  opt (locked .write .routeMu .work)

end Route

namespace Hub

/-- `removeClient`. -/
def removeClient : Skeleton Kind :=
  locked .write .hubMu .work

/-- `teardown`: the first call closes the connection, and the others wait for it. -/
def teardown : Skeleton Kind :=
  locked .write .closeOnce (opt (block [.work, opt removeClient]))

/-- `Run`, which does not see `stop`. -/
def run : Skeleton Kind :=
  .forever (.select
    .register (locked .write .hubMu .work)
    .broadcast (block [locked .write .hubMu .work, .loop teardown]))

/-- `BroadcastStatus` and `BroadcastEvent`; without the send if the message has no JSON encoding. -/
def broadcast : Skeleton Kind :=
  opt (.send .broadcast)

/-- `restoreDisplay`. -/
def restoreDisplay : Skeleton Kind :=
  opt Route.sendDisplayOn

/-- `BeginScreenSession`. -/
def beginScreenSession : Skeleton Kind :=
  locked .write .displayMu <|
    locked .write .controlMu <|
      block [opt (block [restoreDisplay, Route.close]), locked .write .hubMu .work]

/-- `SetScreenSession`. -/
def setScreenSession : Skeleton Kind :=
  locked .write .displayMu <|
    block [
      .lock .write .controlMu,
      .choice (.unlock .controlMu)
        (block [
          locked .write .hubMu .work,
          broadcast,
          opt Route.sendDisplayOff,
          .unlock .controlMu])]

/-- `EndScreenSession`. -/
def endScreenSession : Skeleton Kind :=
  locked .write .displayMu <|
    block [
      .lock .write .controlMu,
      .choice (.unlock .controlMu)
        (block [
          locked .write .hubMu .work,
          .unlock .controlMu,
          restoreDisplay,
          Route.close])]

/-- `RegisterControlRoute`. -/
def registerControlRoute : Skeleton Kind :=
  locked .write .displayMu <|
    locked .write .controlMu <|
      opt (block [opt Route.close, opt Route.sendDisplayOff])

/-- `ClearControlRoute`. -/
def clearControlRoute : Skeleton Kind :=
  locked .write .displayMu <|
    block [locked .write .controlMu .work, opt Route.close]

/-- `WriteControl`. -/
def writeControl : Skeleton Kind :=
  block [locked .write .controlMu .work, opt Route.writeControl]

/-- `BroadcastScreenFrame`. -/
def broadcastScreenFrame : Skeleton Kind :=
  locked .write .controlMu (opt (locked .write .hubMu .work))

/-- `screenInitMessage`. -/
def screenInitMessage : Skeleton Kind :=
  locked .read .hubMu .work

/-- `readPump`: a message is forwarded, answered with the replay, or handled without waiting. -/
def readPump : Skeleton Kind :=
  block [.loop (block [.work, opt (.choice writeControl screenInitMessage)]), teardown]

/-- `writeTextPump` and `writeBinaryPump`. -/
def pump : Skeleton Kind :=
  block [.loop (locked .write .clientMu .work), opt teardown]

/-- `writePump`, which waits for both pumps. -/
def writePump : Skeleton Kind :=
  block [.join .pumps, .join .pumps, teardown]

end Hub

/-! ### `server.go` and `adb.go` -/

namespace WebServer

/-- `GetStreamStatus` of the controller. -/
def getStreamStatus : Skeleton Kind :=
  locked .read .serverMu .work

/-- `snapshotStatus`. -/
def snapshotStatus : Skeleton Kind :=
  block [opt getStreamStatus, locked .write .webMu .work]

/-- `publishCanonicalStatus`. -/
def publishCanonicalStatus : Skeleton Kind :=
  block [snapshotStatus, Hub.broadcast]

/-- A change under `mu` whose snapshot is published: `SetConnectionStatus` and `setADBStatus`. -/
def publishChange : Skeleton Kind :=
  block [locked .write .webMu .work, Hub.broadcast]

/-- `SetConnectionStatus`. -/
def setConnectionStatus : Skeleton Kind := publishChange

/-- `setADBStatus`. -/
def setADBStatus : Skeleton Kind := publishChange

/-- `startADBMonitor`, `stopADBMonitor`, `finishADBMonitor` and `setADBStatusForMonitor`. -/
def adbMonitor : Skeleton Kind :=
  locked .write .webMu .work

/-- `currentPhone` and `adbMonitorOwnsPhone`. -/
def currentPhone : Skeleton Kind :=
  locked .read .webMu .work

/-- `HandleWebSocket`, after the upgrade or without it. -/
def handleWebSocket : Skeleton Kind :=
  opt (block [.send .register, snapshotStatus, .work])

end WebServer

/-! ### `controller.go` -/

namespace ServerController

/-- `publishCanonicalStatus`, if there is a web server. -/
def publish : Skeleton Kind :=
  opt WebServer.publishCanonicalStatus

/-- `launchSpeakerWorker`, `launchMicWorker` and `launchCameraWorker`. -/
def launchWorker : Skeleton Kind := Connection.accessor

/-- `launchSpeakerWorkerLocked`. -/
def launchSpeakerWorkerLocked : Skeleton Kind :=
  block [Connection.accessor, opt launchWorker]

/-- `prepareScreenControlReconnect`. -/
def prepareScreenControlReconnect : Skeleton Kind :=
  locked .write .serverControlMu .work

/-- `launchScreenWorker`. -/
def launchScreenWorker : Skeleton Kind :=
  block [Hub.beginScreenSession, Connection.accessor, prepareScreenControlReconnect]

/-- `Disconnect`. -/
def disconnect : Skeleton Kind :=
  block [
    .lock .write .serverMu,
    .choice (.unlock .serverMu)
      (block [
        opt Hub.endScreenSession,
        locked .write .serverControlMu .work,
        .unlock .serverMu,
        opt (block [WebServer.setConnectionStatus, WebServer.publishCanonicalStatus]),
        Connection.close,
        .work,
        .loop (.join .done)])]

/-- `Connect`. -/
def connect : Skeleton Kind :=
  block [
    .lock .write .serverMu,
    opt (block [.unlock .serverMu, disconnect, .lock .write .serverMu]),
    .unlock .serverMu,
    Connection.connectContext,
    .choice (locked .write .serverMu .work)
      (block [
        .lock .write .serverMu,
        .choice (block [Connection.close, .unlock .serverMu])
          (block [
            launchSpeakerWorkerLocked,
            .unlock .serverMu,
            opt (block [WebServer.setConnectionStatus, WebServer.publishCanonicalStatus])])])]

/-- `stopStream`. -/
def stopStream : Skeleton Kind :=
  block [
    .lock .write .serverMu,
    .choice (.unlock .serverMu) <|
    .choice (block [.unlock .serverMu, publish])
      (block [
        opt Hub.endScreenSession,
        Connection.closeStream,
        .unlock .serverMu,
        opt (.join .done),
        locked .write .serverMu .work,
        publish])]

/-- The part of `startStream` that launches the worker, under `mu`. -/
def installAndLaunch : Skeleton Kind :=
  block [
    Connection.installStream,
    .choice (block [.unlock .serverMu, publish])
      (block [.choice launchWorker launchScreenWorker, .unlock .serverMu, publish])]

/-- The part of `startStream` that follows the wait for the previous worker, under `mu`. -/
def dialAndLaunch : Skeleton Kind :=
  block [
    Connection.accessor,
    Connection.closeStream,
    .unlock .serverMu,
    opt Connection.connectStreamPortContext,
    .choice (block [locked .write .serverMu .work, publish])
      (block [.lock .write .serverMu, .choice (.unlock .serverMu) installAndLaunch])]

/-- `startStream`. -/
def startStream : Skeleton Kind :=
  block [
    .lock .write .serverMu,
    .choice (.unlock .serverMu)
      (block [
        opt (block [
          Connection.closeStream,
          .unlock .serverMu,
          opt (.join .done),
          .lock .write .serverMu]),
        .choice (.unlock .serverMu) dialAndLaunch])]

/-- `ToggleStream`. -/
def toggleStream : Skeleton Kind :=
  opt (.choice stopStream startStream)

/-- `closeControlConn`. -/
def closeControlConn : Skeleton Kind :=
  locked .write .serverControlMu Connection.closeControlConn

/-- `closeScreenControl`. -/
def closeScreenControl : Skeleton Kind :=
  locked .write .serverControlMu
    (opt (block [Connection.accessor, Connection.closeControlConn]))

/-- The part of `reconnectScreenControl` that follows the dial. -/
def registerScreenControl : Skeleton Kind :=
  block [
    .lock .write .serverControlMu,
    .choice (.unlock .serverControlMu)
      (block [
        Connection.installStream,
        .choice (.unlock .serverControlMu)
          (block [
            Connection.accessor,
            .unlock .serverControlMu,
            locked .read .serverMu .work,
            .choice closeControlConn
              (block [Hub.registerControlRoute, opt closeControlConn])])])]

/-- `reconnectScreenControl`. -/
def reconnectScreenControl : Skeleton Kind :=
  block [
    .lock .write .serverControlMu,
    .choice (.unlock .serverControlMu)
      (block [
        Connection.closeStream,
        .unlock .serverControlMu,
        Connection.connectStreamPortContext,
        opt registerScreenControl])]

/-- `UpdateStreamMetrics`. -/
def updateStreamMetrics : Skeleton Kind :=
  block [locked .write .serverMu .work, publish]

/-- The wait of a capture: for its demuxer, or for its context or an error. -/
def awaitDemuxer : Skeleton Kind :=
  opt (.join .errCh)

/-- The end of a speaker, mic or camera worker. -/
def finishWorker : Skeleton Kind :=
  block [locked .write .serverMu Connection.closeStream, publish]

/-- The worker of `launchSpeakerWorker`, with `runSpeakerCapture`. -/
def speakerWorker : Skeleton Kind :=
  block [.work, opt (block [.loop (block [.work, opt updateStreamMetrics]), .join .sendDone]),
    finishWorker]

/-- The workers of `launchMicWorker` and `launchCameraWorker`, with `runMicCapture` and
`runCameraCapture`. -/
def captureWorker : Skeleton Kind :=
  block [.work, awaitDemuxer, finishWorker]

/-- The worker of `launchScreenWorker`, with `runScreenCapture`. -/
def screenWorker : Skeleton Kind :=
  block [
    .work,
    awaitDemuxer,
    Hub.endScreenSession,
    closeScreenControl,
    Connection.closeStream,
    locked .write .serverMu .work,
    publish]

/-- The demuxer of a mic or a camera capture. -/
def captureDemuxer : Skeleton Kind :=
  .loop (block [.work, opt updateStreamMetrics])

/-- The demuxer of a screen capture. -/
def screenDemuxer : Skeleton Kind :=
  .loop (block [.work, opt (.choice Hub.setScreenSession
    (block [Hub.broadcastScreenFrame, opt updateStreamMetrics]))])

/-- The goroutine of `runSpeakerCapture` that sends. -/
def speakerSender : Skeleton Kind :=
  .loop .work

end ServerController

/-! ### The program -/

/-- What a goroutine runs. -/
inductive Routine where
  | run
  | connect
  | disconnect
  | toggleStream
  | publishCanonicalStatus
  | setConnectionStatus
  | setADBStatus
  | getStreamStatus
  | adbMonitor
  | currentPhone
  | handleWebSocket
  | readPump
  | writePump
  | pump
  | writeControl
  | beginScreenSession
  | setScreenSession
  | endScreenSession
  | registerControlRoute
  | clearControlRoute
  | broadcastScreenFrame
  | updateStreamMetrics
  | reconnectScreenControl
  | speakerWorker
  | captureWorker
  | screenWorker
  | captureDemuxer
  | screenDemuxer
  | speakerSender
deriving DecidableEq, Repr

/-- The skeleton of a routine. -/
def Routine.body : Routine → Skeleton Kind
  | .run => Hub.run
  | .connect => ServerController.connect
  | .disconnect => ServerController.disconnect
  | .toggleStream => ServerController.toggleStream
  | .publishCanonicalStatus => WebServer.publishCanonicalStatus
  | .setConnectionStatus => WebServer.setConnectionStatus
  | .setADBStatus => WebServer.setADBStatus
  | .getStreamStatus => WebServer.getStreamStatus
  | .adbMonitor => WebServer.adbMonitor
  | .currentPhone => WebServer.currentPhone
  | .handleWebSocket => WebServer.handleWebSocket
  | .readPump => Hub.readPump
  | .writePump => Hub.writePump
  | .pump => Hub.pump
  | .writeControl => Hub.writeControl
  | .beginScreenSession => Hub.beginScreenSession
  | .setScreenSession => Hub.setScreenSession
  | .endScreenSession => Hub.endScreenSession
  | .registerControlRoute => Hub.registerControlRoute
  | .clearControlRoute => Hub.clearControlRoute
  | .broadcastScreenFrame => Hub.broadcastScreenFrame
  | .updateStreamMetrics => ServerController.updateStreamMetrics
  | .reconnectScreenControl => ServerController.reconnectScreenControl
  | .speakerWorker => ServerController.speakerWorker
  | .captureWorker => ServerController.captureWorker
  | .screenWorker => ServerController.screenWorker
  | .captureDemuxer => ServerController.captureDemuxer
  | .screenDemuxer => ServerController.screenDemuxer
  | .speakerSender => ServerController.speakerSender

/-- What others wait for until a goroutine ends: the hub empties its channels, a worker closes its
`done` channel, and so on. -/
def Routine.provides : Routine → List Kind
  | .run => [.broadcast, .register]
  | .speakerWorker | .captureWorker | .screenWorker => [.done]
  | .captureDemuxer | .screenDemuxer => [.errCh]
  | .speakerSender => [.sendDone]
  | .pump => [.pumps]
  | _ => []

/-- The capacities that `NewHub` gives its channels. -/
def capacity : Kind → ℕ
  | .broadcast => 256
  | _ => 0

/-- The server, with the hub running. -/
def program : SyncProgram Kind Routine where
  body := Routine.body
  provides := Routine.provides
  capacity := capacity
  server := .run

/-- The order: whoever holds or provides something waits only for what ranks below it. -/
def rank : Kind → ℕ
  | .done | .pumps => 7
  | .errCh | .sendDone => 6
  | .serverMu => 5
  | .displayMu => 4
  | .controlMu => 3
  | .serverControlMu | .routeMu | .webMu | .broadcast | .register => 2
  | .connMu | .closeOnce => 1
  | .hubMu | .clientMu => 0

/-- Every routine waits in this order, and gives back every lock that it acquires. -/
theorem program_ordered : program.Ordered rank where
  check e := by
    cases e <;> rfl
  server := ⟨_, rfl⟩

/-- **No wait cycle.** Whatever calls and workers there are and however their steps interleave: in
no set of them does each wait for a lock, a slot of a channel or the end of a goroutine that only
others of the set can release. -/
theorem no_wait_cycle {c : SyncProgram.Config Kind Routine}
    (hc : LabelledSystem.Reachable (· = program.initial) program.step c) (S : Set ℕ) :
    ¬program.Deadlocked c S :=
  program_ordered.not_deadlocked hc S

/-- A `Disconnect` that holds `ServerController.mu`, and an `UpdateStreamMetrics` that waits. -/
theorem no_wait_cycle_waiting :
    ∃ c, LabelledSystem.Reachable (· = program.initial) program.step c ∧
      program.Waits c 2 (.lock .serverMu 0) ∧ ¬program.Deadlocked c Set.univ := by
  have hc : LabelledSystem.Reachable (· = program.initial) program.step _ :=
    ⟨program.initial, [.start .disconnect, .start .updateStreamMetrics, .go 1 true 0, .go 1 true 0,
      .go 2 true 0, .go 2 true 0], rfl, rfl⟩
  exact ⟨_, hc, ⟨⟨.write, _, _, rfl, rfl⟩, ⟨.disconnect, _, [⟨.write, .serverMu, 0⟩]⟩,
    List.mem_of_getElem? (i := 1) rfl, ⟨.write, .serverMu, 0⟩, List.mem_cons_self, rfl, rfl⟩,
    no_wait_cycle hc Set.univ⟩

end AllRelay.LockOrder
