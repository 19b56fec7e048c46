import Mathlib.Data.Int.Notation
import Mathlib.Tactic.SplitIfs

/-!
# The ADB status of the web server

`adb.go` asks the phone's control API and the `adb` command how far wireless debugging is set up.
What they answer is an argument here (`Reply`), and the functions that put an `ADBStatus` together
from the answers are as in the source.
-/

namespace AllRelay.Adb

/-- `adbDashboardPort`. -/
def adbDashboardPort : ℤ := 5555

/-- `ADBStatus`. -/
structure ADBStatus where
  ip : String
  port : ℤ
  phoneReachable : Bool
  phoneEnabled : Bool
  phoneListening : Bool
  hostConnected : Bool
  hostState : String
  autoDisableAtMs : ℤ
  message : String
deriving DecidableEq, Repr

/-- `ADBStatus{}`. -/
def ADBStatus.zero : ADBStatus :=
  ⟨"", 0, false, false, false, false, "", 0, ""⟩

/-- `phoneADBStatus`; its IP and its control port are not read. -/
structure PhoneADBStatus where
  ok : Bool
  enabled : Bool
  listening : Bool
  port : ℤ
  message : String
  autoDisableAtMs : ℤ
deriving DecidableEq, Repr

/-- What a call of the phone's control API returned. -/
structure PhoneReply where
  status : PhoneADBStatus
  err : Option String
deriving DecidableEq, Repr

/-- What an `adb` command returned. -/
structure CommandReply where
  out : String
  err : Option String
deriving DecidableEq, Repr

/-- What the calls that a goroutine waits for returned. -/
structure Reply where
  /-- The phone's control API. -/
  phone : PhoneReply
  /-- `waitForPhoneADB`. -/
  wait : PhoneReply
  /-- `exec.LookPath` found `adb`. -/
  adbFound : Bool
  /-- `adb connect` or `adb disconnect`. -/
  command : CommandReply
  /-- `lookupADBDeviceState`, if it returned no error. -/
  state : Option String
  /-- The message of `authorizeHostKey`, if it returned an error. -/
  authorizeErr : Option String
  /-- The deadline of `reconnectADBAfterAuthorize` has passed. -/
  expired : Bool
  /-- The ticker of a monitor fired. -/
  tick : Bool
deriving DecidableEq, Repr

/-- `unicode.IsSpace`. -/
def isSpace (c : Char) : Bool :=
  c.val ∈ ([0x09, 0x0A, 0x0B, 0x0C, 0x0D, 0x20, 0x85, 0xA0, 0x1680, 0x2028, 0x2029, 0x202F, 0x205F,
    0x3000] : List UInt32) || (0x2000 ≤ c.val && c.val ≤ 0x200A)

/-- `strings.TrimSpace`. -/
def trimSpace (s : String) : String :=
  String.ofList ((s.toList.dropWhile isSpace).reverse.dropWhile isSpace).reverse

/-- The IP of the current phone, unless it is blank. -/
def phoneIP (phone : Option String) : Option String :=
  phone.filter fun ip ↦ trimSpace ip ≠ ""

/-- `shouldHeartbeatADB`. -/
def shouldHeartbeatADB (status : ADBStatus) : Bool :=
  status.hostState = "device" && status.phoneEnabled

/-- `defaultADBMessage`. -/
def defaultADBMessage (status : ADBStatus) : String :=
  if status.hostConnected then s!"ADB connected to {status.ip}:{status.port}"
  else if status.hostState = "unauthorized" then "ADB host key not yet authorized on the phone"
  else if status.phoneEnabled && status.phoneListening then
    s!"Phone-side ADB TCP is enabled on {status.ip}:{status.port}"
  else if status.phoneEnabled then "Phone-side ADB TCP is enabling"
  else "ADB disabled"

/-- `buildADBStatus`. -/
def buildADBStatus (ip : String) (phone : PhoneADBStatus) : ADBStatus :=
  let status : ADBStatus :=
    { ADBStatus.zero with
      ip
      port := if 0 < phone.port then phone.port else adbDashboardPort
      phoneReachable := phone.ok
      phoneEnabled := phone.enabled
      phoneListening := phone.listening
      autoDisableAtMs := phone.autoDisableAtMs
      message := phone.message }
  if status.message = "" then { status with message := defaultADBMessage status } else status

/-- What `ADBStatus` says when there is no phone. -/
def noPhoneStatus : ADBStatus :=
  { ADBStatus.zero with message := "Connect to a phone first" }

/-- An `ADBStatus` that has only a message. -/
def messageStatus (ip message : String) : ADBStatus :=
  { ADBStatus.zero with ip, port := adbDashboardPort, message }

/-- The message when the phone does not answer. -/
def openAppMessage : String :=
  "Open the AllRelay app on the phone once so dashboard ADB control is available"

/-- `queryADBStatus`, with the phone that `currentPhone` returned. -/
def queryADBStatus (phone : Option String) (r : Reply) : ADBStatus :=
  match phoneIP phone with
  | none => noPhoneStatus
  | some ip =>
    let status := buildADBStatus ip r.phone.status
    let status := if r.phone.err.isSome then { status with message := openAppMessage } else status
    if r.adbFound then
      let status :=
        match r.state with
        | some state => { status with hostState := state, hostConnected := state = "device" }
        | none => status
      { status with message := defaultADBMessage status }
    else if status.message = "" then { status with message := "adb not found on Ubuntu host" }
    else status

/-- The status that a monitor stores after a heartbeat. -/
def heartbeatStatus (status : ADBStatus) (r : Reply) : ADBStatus :=
  if r.phone.err.isSome then status
  else
    let status :=
      { buildADBStatus status.ip r.phone.status with hostConnected := true, hostState := "device" }
    { status with message := defaultADBMessage status }

@[simp]
theorem buildADBStatus_ip (ip : String) (phone : PhoneADBStatus) :
    (buildADBStatus ip phone).ip = ip := by
  simp only [buildADBStatus]
  split_ifs <;> rfl

/-- A status is about the phone that was asked. -/
theorem queryADBStatus_ip (phone : Option String) (r : Reply) :
    (queryADBStatus phone r).ip = (phoneIP phone).getD "" := by
  rw [queryADBStatus]
  split
  · rename_i h
    rw [h]
    rfl
  · rename_i ip h
    rw [h]
    dsimp only
    split_ifs <;> first | exact buildADBStatus_ip .. | (split <;> exact buildADBStatus_ip ..)

@[simp]
theorem heartbeatStatus_ip (status : ADBStatus) (r : Reply) :
    (heartbeatStatus status r).ip = status.ip := by
  simp only [heartbeatStatus]
  split_ifs
  · rfl
  · exact buildADBStatus_ip ..

end AllRelay.Adb
