import AllRelay.Library.Utf
import AllRelay.Library.Wire
import Mathlib.Algebra.Field.Rat

/-!
# Control messages and the phone's reader

`ControlMessage.java` is a union of the event types that travel from the browser to the phone, and
`ControlMessageReader.java` reads one of them from the control socket. Both are modelled in full: a
misplaced byte turns one type into another, so the types the browser never sends matter as much as
those it does.

Java's `int`, `long` and `short` are integers in the range of their width, a Java string is its list
of UTF-16 code units, and a `float` is a rational number, since the reader only ever divides an
integer of 16 bits by a power of two.
-/

namespace AllRelay

/-- Java's `Position`: a point and the size of the screen it refers to. -/
structure Position where
  /-- `point.x`. -/
  x : ℤ
  /-- `point.y`. -/
  y : ℤ
  /-- `screenSize.width`. -/
  screenWidth : ℤ
  /-- `screenSize.height`. -/
  screenHeight : ℤ
deriving DecidableEq, Repr

/-- `ControlMessage`. -/
inductive ControlMessage where
  /-- `TYPE_INJECT_KEYCODE`. -/
  | injectKeycode (action keycode repeatCount metaState : ℤ)
  /-- `TYPE_INJECT_TEXT`. -/
  | injectText (text : List UInt16)
  /-- `TYPE_INJECT_TOUCH_EVENT`. -/
  | injectTouchEvent (action pointerId : ℤ) (position : Position) (pressure : ℚ)
    (actionButton buttons : ℤ)
  /-- `TYPE_INJECT_SCROLL_EVENT`. -/
  | injectScrollEvent (position : Position) (hScroll vScroll : ℚ) (buttons : ℤ)
  /-- `TYPE_BACK_OR_SCREEN_ON`. -/
  | backOrScreenOn (action : ℤ)
  /-- `TYPE_GET_CLIPBOARD`. -/
  | getClipboard (copyKey : ℤ)
  /-- `TYPE_SET_CLIPBOARD`. -/
  | setClipboard (sequence : ℤ) (text : List UInt16) (paste : Bool)
  /-- `TYPE_SET_DISPLAY_POWER`. -/
  | setDisplayPower (on : Bool)
  /-- A message that carries nothing but its type. -/
  | empty (type : ℕ)
  /-- `TYPE_UHID_CREATE`. -/
  | uhidCreate (id vendorId productId : ℤ) (name : List UInt16) (reportDesc : List UInt8)
  /-- `TYPE_UHID_INPUT`. -/
  | uhidInput (id : ℤ) (data : List UInt8)
  /-- `TYPE_UHID_DESTROY`. -/
  | uhidDestroy (id : ℤ)
  /-- `TYPE_START_APP`. -/
  | startApp (name : List UInt16)
  /-- `TYPE_CAMERA_SET_TORCH`. -/
  | cameraSetTorch (on : Bool)
  /-- `TYPE_RESIZE_DISPLAY`. -/
  | resizeDisplay (width height : ℤ)
deriving DecidableEq, Repr

/-- The exceptions of the reader, other than `EOFException`. -/
inductive ReadError where
  /-- `ControlProtocolException("Unknown event type: " + type)`. -/
  | unknownEventType (type : ℕ)
  /-- `NegativeArraySizeException`, on a length with its top bit set. -/
  | negativeArraySize (len : ℤ)
deriving DecidableEq, Repr

/-! ### Fixed point numbers -/

/-- `Binary.u16FixedPointToFloat`. -/
def u16FixedPointToFloat (value : ℤ) : ℚ :=
  let unsignedShort := value % 0x10000
  if unsignedShort = 0xffff then 1 else unsignedShort / 2 ^ 16

/-- `Binary.i16FixedPointToFloat`. -/
def i16FixedPointToFloat (value : ℤ) : ℚ :=
  if value = 0x7fff then 1 else value / 2 ^ 15

/-! ### The reader -/

namespace ControlMessageReader

open Wire

/-- The reader's input, a `DataInputStream`. -/
abbrev Reader := Parser ReadError

/-- `DataInputStream.readUnsignedByte`. -/
def readUnsignedByte : Reader ℤ := do return ((← Parser.uint 1 : ℕ) : ℤ)

/-- `DataInputStream.readUnsignedShort`. -/
def readUnsignedShort : Reader ℤ := do return ((← Parser.uint 2 : ℕ) : ℤ)

/-- `DataInputStream.readByte`. -/
def readByte : Reader ℤ := Parser.int 1

/-- `DataInputStream.readShort`. -/
def readShort : Reader ℤ := Parser.int 2

/-- `DataInputStream.readInt`. -/
def readInt : Reader ℤ := Parser.int 4

/-- `DataInputStream.readLong`. -/
def readLong : Reader ℤ := Parser.int 8

/-- `DataInputStream.readBoolean`. -/
def readBoolean : Reader Bool := do return (← readUnsignedByte) ≠ 0

/-- `parseBufferLength`: the bytes are shifted into an `int`. -/
def parseBufferLength (sizeBytes : ℕ) : Reader ℤ := do
  return Int.bmod (← Parser.uint sizeBytes : ℕ) (2 ^ 32)

/-- `parseByteArray`. -/
def parseByteArray (sizeBytes : ℕ) : Reader (List UInt8) := do
  let len ← parseBufferLength sizeBytes
  if len < 0 then Parser.throw (.negativeArraySize len) else Parser.take len.toNat

/-- `parseString`. -/
def parseString (sizeBytes : ℕ) : Reader (List UInt16) := do
  return Utf.decodeUtf8 (← parseByteArray sizeBytes)

/-- `parsePosition`. -/
def parsePosition : Reader Position := do
  let x ← readInt
  let y ← readInt
  let screenWidth ← readUnsignedShort
  let screenHeight ← readUnsignedShort
  return ⟨x, y, screenWidth, screenHeight⟩

/-- `parseInjectKeycode`. -/
def parseInjectKeycode : Reader ControlMessage := do
  let action ← readUnsignedByte
  let keycode ← readInt
  let repeatCount ← readInt
  let metaState ← readInt
  return .injectKeycode action keycode repeatCount metaState

/-- `parseInjectText`. -/
def parseInjectText : Reader ControlMessage := do
  return .injectText (← parseString 4)

/-- `parseInjectTouchEvent`. -/
def parseInjectTouchEvent : Reader ControlMessage := do
  let action ← readUnsignedByte
  let pointerId ← readLong
  let position ← parsePosition
  let pressure := u16FixedPointToFloat (← readShort)
  let actionButton ← readInt
  let buttons ← readInt
  return .injectTouchEvent action pointerId position pressure actionButton buttons

/-- `parseInjectScrollEvent`. -/
def parseInjectScrollEvent : Reader ControlMessage := do
  let position ← parsePosition
  let hScroll := i16FixedPointToFloat (← readShort) * 16
  let vScroll := i16FixedPointToFloat (← readShort) * 16
  let buttons ← readInt
  return .injectScrollEvent position hScroll vScroll buttons

/-- `parseBackOrScreenOnEvent`. -/
def parseBackOrScreenOnEvent : Reader ControlMessage := do
  return .backOrScreenOn (← readUnsignedByte)

/-- `parseGetClipboard`. -/
def parseGetClipboard : Reader ControlMessage := do
  return .getClipboard (← readUnsignedByte)

/-- `parseSetClipboard`. -/
def parseSetClipboard : Reader ControlMessage := do
  let sequence ← readLong
  let paste ← readByte
  let text ← parseString 4
  return .setClipboard sequence text (paste ≠ 0)

/-- `parseSetDisplayPower`. -/
def parseSetDisplayPower : Reader ControlMessage := do
  return .setDisplayPower (← readBoolean)

/-- `parseUhidCreate`. -/
def parseUhidCreate : Reader ControlMessage := do
  let id ← readUnsignedShort
  let vendorId ← readUnsignedShort
  let productId ← readUnsignedShort
  let name ← parseString 1
  let data ← parseByteArray 2
  return .uhidCreate id vendorId productId name data

/-- `parseUhidInput`. -/
def parseUhidInput : Reader ControlMessage := do
  let id ← readUnsignedShort
  let data ← parseByteArray 2
  return .uhidInput id data

/-- `parseUhidDestroy`. -/
def parseUhidDestroy : Reader ControlMessage := do
  return .uhidDestroy (← readUnsignedShort)

/-- `parseStartApp`. -/
def parseStartApp : Reader ControlMessage := do
  return .startApp (← parseString 1)

/-- `parseCameraSetTorch`. -/
def parseCameraSetTorch : Reader ControlMessage := do
  return .cameraSetTorch (← readBoolean)

/-- `parseResizeDisplay`. -/
def parseResizeDisplay : Reader ControlMessage := do
  let width ← readUnsignedShort
  let height ← readUnsignedShort
  return .resizeDisplay width height

/-- The parser of the fields of a type. -/
def parse (type : ℕ) : Reader ControlMessage :=
  match type with
  | 0 => parseInjectKeycode
  | 1 => parseInjectText
  | 2 => parseInjectTouchEvent
  | 3 => parseInjectScrollEvent
  | 4 => parseBackOrScreenOnEvent
  | 8 => parseGetClipboard
  | 9 => parseSetClipboard
  | 10 => parseSetDisplayPower
  | 5 | 6 | 7 | 11 | 15 | 17 | 19 | 20 => return .empty type
  | 12 => parseUhidCreate
  | 13 => parseUhidInput
  | 14 => parseUhidDestroy
  | 16 => parseStartApp
  | 18 => parseCameraSetTorch
  | 21 => parseResizeDisplay
  | _ => Parser.throw (.unknownEventType type)

/-- `ControlMessageReader.read`. -/
def read : Reader ControlMessage := do
  parse (← Parser.uint 1)

/-! ### The reader only waits for bytes it does not have -/

theorem streaming_readUnsignedByte : Streaming readUnsignedByte :=
  (Streaming.uint 1).bind fun _ ↦ .pure _

theorem streaming_readUnsignedShort : Streaming readUnsignedShort :=
  (Streaming.uint 2).bind fun _ ↦ .pure _

theorem streaming_readBoolean : Streaming readBoolean :=
  streaming_readUnsignedByte.bind fun _ ↦ .pure _

theorem streaming_parseByteArray (sizeBytes : ℕ) : Streaming (parseByteArray sizeBytes) := by
  refine ((Streaming.uint sizeBytes).bind fun _ ↦ .pure _).bind fun len ↦ ?_
  split
  · exact .throw _
  · exact .take _

theorem streaming_parseString (sizeBytes : ℕ) : Streaming (parseString sizeBytes) :=
  (streaming_parseByteArray sizeBytes).bind fun _ ↦ .pure _

theorem streaming_parsePosition : Streaming parsePosition :=
  (Streaming.int 4).bind fun _ ↦ (Streaming.int 4).bind fun _ ↦
    streaming_readUnsignedShort.bind fun _ ↦ streaming_readUnsignedShort.bind fun _ ↦ .pure _

/-- The parser of every type is streaming. -/
theorem streaming_parse (type : ℕ) : Streaming (parse type) := by
  unfold parse
  split
  · exact streaming_readUnsignedByte.bind fun _ ↦ (Streaming.int 4).bind fun _ ↦
      (Streaming.int 4).bind fun _ ↦ (Streaming.int 4).bind fun _ ↦ .pure _
  · exact (streaming_parseString 4).bind fun _ ↦ .pure _
  · exact streaming_readUnsignedByte.bind fun _ ↦ (Streaming.int 8).bind fun _ ↦
      streaming_parsePosition.bind fun _ ↦ (Streaming.int 2).bind fun _ ↦
      (Streaming.int 4).bind fun _ ↦ (Streaming.int 4).bind fun _ ↦ .pure _
  · exact streaming_parsePosition.bind fun _ ↦ (Streaming.int 2).bind fun _ ↦
      (Streaming.int 2).bind fun _ ↦ (Streaming.int 4).bind fun _ ↦ .pure _
  · exact streaming_readUnsignedByte.bind fun _ ↦ .pure _
  · exact streaming_readUnsignedByte.bind fun _ ↦ .pure _
  · exact (Streaming.int 8).bind fun _ ↦ (Streaming.int 1).bind fun _ ↦
      (streaming_parseString 4).bind fun _ ↦ .pure _
  · exact streaming_readBoolean.bind fun _ ↦ .pure _
  iterate 8 exact .pure _
  · exact streaming_readUnsignedShort.bind fun _ ↦ streaming_readUnsignedShort.bind fun _ ↦
      streaming_readUnsignedShort.bind fun _ ↦ (streaming_parseString 1).bind fun _ ↦
      (streaming_parseByteArray 2).bind fun _ ↦ .pure _
  · exact streaming_readUnsignedShort.bind fun _ ↦ (streaming_parseByteArray 2).bind fun _ ↦ .pure _
  · exact streaming_readUnsignedShort.bind fun _ ↦ .pure _
  · exact (streaming_parseString 1).bind fun _ ↦ .pure _
  · exact streaming_readBoolean.bind fun _ ↦ .pure _
  · exact streaming_readUnsignedShort.bind fun _ ↦ streaming_readUnsignedShort.bind fun _ ↦ .pure _
  · exact .throw _

/-- **The reader is streaming**: on a message that has arrived in part it waits for the rest. -/
theorem streaming_read : Streaming read :=
  (Streaming.uint 1).bind streaming_parse

end ControlMessageReader

end AllRelay
