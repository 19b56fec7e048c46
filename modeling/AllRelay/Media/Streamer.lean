import AllRelay.Media.Packet

/-!
# Media packets: the writer

`WifiStreamer` on the phone. A method returns the bytes it puts on the socket, or throws before it
has put any. A Java `int` or `long` is its 32 or 64 bits, and the bytes of a `ByteBuffer` are the
ones between its position and its limit.
-/

open Wire

namespace AllRelay.Media

/-- `VideoCodec` and `AudioCodec`. -/
inductive Codec where
  /-- H.264 video. -/
  | h264
  /-- H.265 video. -/
  | h265
  /-- AV1 video. -/
  | av1
  /-- Opus audio. -/
  | opus
  /-- AAC audio. -/
  | aac
  /-- FLAC audio. -/
  | flac
  /-- Raw audio. -/
  | raw
deriving DecidableEq, Repr

/-- `Codec.getId`: the name in ASCII. -/
def Codec.getId : Codec → UInt32
  | .h264 => 0x68323634
  | .h265 => 0x68323635
  | .av1 => 0x00617631
  | .opus => 0x6f707573
  | .aac => 0x00616163
  | .flac => 0x666c6163
  | .raw => 0x00726177

/-- `StreamId`. -/
inductive StreamId where
  /-- The screen. -/
  | screen
  /-- The camera. -/
  | camera
  /-- The microphone. -/
  | mic
  /-- What the phone plays. -/
  | speaker
deriving DecidableEq, Repr

/-- `StreamId.getId`. -/
def StreamId.getId : StreamId → UInt32
  | .screen => 1
  | .camera => 2
  | .mic => 3
  | .speaker => 4

/-- `ByteOrder`. -/
inductive ByteOrder where
  /-- Most significant byte first. -/
  | bigEndian
  /-- Least significant byte first. -/
  | littleEndian
deriving DecidableEq, Repr

/-- The `k` bytes of a number in a byte order. -/
def ByteOrder.put (order : ByteOrder) (k n : ℕ) : Bytes :=
  match order with
  | .bigEndian => Wire.bigEndian k n
  | .littleEndian => (Wire.bigEndian k n).reverse

/-- The signed number that bytes denote in a byte order. -/
def ByteOrder.get (order : ByteOrder) (bytes : Bytes) : ℤ :=
  match order with
  | .bigEndian => signed bytes.length (value bytes)
  | .littleEndian => signed bytes.length (value bytes.reverse)

/-- What a method of `WifiStreamer` throws. -/
inductive WriteError where
  /-- `IOException`. -/
  | io (message : String)
  /-- `IllegalArgumentException` of `ByteBuffer.limit`. -/
  | illegalArgument
deriving DecidableEq, Repr

/-- `opusHeaderId`, "AOPUSHDR". -/
def opusHeaderId : Bytes := [65, 79, 80, 85, 83, 72, 68, 82]

/-- `flacHeaderId`, "fLaC". -/
def flacHeaderId : Bytes := [102, 76, 97, 67]

/-- `fixOpusConfigPacket`, with the native byte order of the phone. -/
def fixOpusConfigPacket (nativeOrder : ByteOrder) (buffer : Bytes) : Except WriteError Bytes :=
  if buffer.length < 16 then .error (.io "Not enough data in OPUS config packet")
  else if buffer.take 8 ≠ opusHeaderId then .error (.io "OPUS header not found")
  else
    let sizeLong := nativeOrder.get ((buffer.drop 8).take 8)
    if sizeLong < 0 ∨ 0x7FFFFFFF ≤ sizeLong then
      .error (.io ("Invalid block size in OPUS header: " ++ toString sizeLong))
    else if (buffer.drop 16).length < sizeLong.toNat then
      .error (.io ("Not enough data in OPUS header (invalid size: " ++ toString sizeLong ++ ")"))
    else .ok ((buffer.drop 16).take sizeLong.toNat)

/-- `fixFlacConfigPacket`: a size from -8 to -1 puts the limit before the position, and the buffer
is empty. -/
def fixFlacConfigPacket (buffer : Bytes) : Except WriteError Bytes :=
  if buffer.length < 8 then .error (.io "Not enough data in FLAC config packet")
  else if buffer.take 4 ≠ flacHeaderId then .error (.io "FLAC header not found")
  else
    let size := ByteOrder.bigEndian.get ((buffer.drop 4).take 4)
    if (buffer.drop 8).length < size then
      .error (.io ("Not enough data in FLAC header (invalid size: " ++ toString size ++ ")"))
    else if 8 + size < 0 then .error .illegalArgument
    else .ok ((buffer.drop 8).take size.toNat)

/-- `MediaCodec.BufferInfo`. -/
structure BufferInfo where
  /-- Where the data starts in the buffer. -/
  offset : ℕ
  /-- How much data there is. -/
  size : ℕ
  /-- `presentationTimeUs`. -/
  presentationTimeUs : UInt64
  /-- The flags. -/
  flags : UInt32
deriving DecidableEq, Repr

/-- `MediaCodec.BUFFER_FLAG_CODEC_CONFIG`. -/
def bufferFlagCodecConfig : UInt32 := 2

/-- `MediaCodec.BUFFER_FLAG_KEY_FRAME`. -/
def bufferFlagKeyFrame : UInt32 := 1

/-- `WifiStreamer`, with the native byte order of its phone. -/
structure WifiStreamer where
  /-- The codec. -/
  codec : Codec
  /-- The stream. -/
  streamId : StreamId
  /-- Send codec ids and sessions. -/
  sendStreamMeta : Bool
  /-- Send packet headers. -/
  sendFrameMeta : Bool
  /-- `ByteOrder.nativeOrder()`. -/
  nativeOrder : ByteOrder
deriving DecidableEq, Repr

namespace WifiStreamer

variable (s : WifiStreamer)

/-- The value that `writeFrameMeta` sends as time stamp and flags. -/
def ptsAndFlags (pts : UInt64) (config keyFrame : Bool) : UInt64 :=
  if config then flagConfig else if keyFrame then pts ||| flagKeyFrame else pts

/-- `writeFrameMeta`. -/
def writeFrameMeta (packetSize : ℕ) (pts : UInt64) (config keyFrame : Bool) : Bytes :=
  bigEndian 4 s.streamId.getId.toNat ++ bigEndian 8 (ptsAndFlags pts config keyFrame).toNat ++
    bigEndian 4 packetSize

/-- The payload of a packet. -/
def fixPacket (buffer : Bytes) (config : Bool) : Except WriteError Bytes :=
  if config then
    match s.codec with
    | .opus => fixOpusConfigPacket s.nativeOrder buffer
    | .flac => fixFlacConfigPacket buffer
    | _ => .ok buffer
  else .ok buffer

/-- `writePacket` of a buffer. -/
def writePacket (buffer : Bytes) (pts : UInt64) (config keyFrame : Bool) :
    Except WriteError Bytes :=
  match s.fixPacket buffer config with
  | .error e => .error e
  | .ok payload =>
    .ok ((if s.sendFrameMeta then s.writeFrameMeta payload.length pts config keyFrame else []) ++
      payload)

/-- `writePacket` of an output buffer of a `MediaCodec`. -/
def writeCodecPacket (codecBuffer : Bytes) (info : BufferInfo) : Except WriteError Bytes :=
  s.writePacket ((codecBuffer.drop info.offset).take info.size) info.presentationTimeUs
    (info.flags &&& bufferFlagCodecConfig ≠ 0) (info.flags &&& bufferFlagKeyFrame ≠ 0)

/-- `writeVideoHeader` and `writeAudioHeader`. -/
def writeHeader : Except WriteError Bytes :=
  if s.sendStreamMeta then s.writePacket (bigEndian 4 s.codec.getId.toNat) 0 false false
  else .ok []

/-- `writeSessionMeta`. -/
def writeSessionMeta (width height : UInt32) (isClientResize : Bool) : Bytes :=
  if s.sendStreamMeta then
    let flags := (flagSession >>> 32).toUInt32
    bigEndian 4 s.streamId.getId.toNat ++
      bigEndian 4 (if isClientResize then flags ||| 1 else flags).toNat ++
      bigEndian 4 width.toNat ++ bigEndian 4 height.toNat
  else []

/-- `writeDisableStream`. -/
def writeDisableStream (error : Bool) : Bytes :=
  [0, 0, 0, if error then 1 else 0]

/-- A call of a writer. -/
inductive Call where
  /-- `writeVideoHeader`. -/
  | videoHeader
  /-- `writeAudioHeader`. -/
  | audioHeader
  /-- `writeSessionMeta`. -/
  | sessionMeta (width height : UInt32) (isClientResize : Bool)
  /-- `writePacket` of a buffer. -/
  | packet (buffer : Bytes) (pts : UInt64) (config keyFrame : Bool)
  /-- `writePacket` of an output buffer of a `MediaCodec`. -/
  | codecPacket (codecBuffer : Bytes) (info : BufferInfo)
deriving DecidableEq, Repr

/-- What a call puts on the socket. -/
def write : Call → Except WriteError Bytes
  | .videoHeader | .audioHeader => s.writeHeader
  | .sessionMeta width height isClientResize => .ok (s.writeSessionMeta width height isClientResize)
  | .packet buffer pts config keyFrame => s.writePacket buffer pts config keyFrame
  | .codecPacket codecBuffer info => s.writeCodecPacket codecBuffer info

/-- What calls put on the socket, one after another, until one throws. -/
def writeAll : List Call → Except WriteError Bytes
  | [] => .ok []
  | call :: calls =>
    match s.write call, writeAll calls with
    | .ok bytes, .ok rest => .ok (bytes ++ rest)
    | .error e, _ => .error e
    | .ok _, .error e => .error e

end WifiStreamer

end AllRelay.Media
