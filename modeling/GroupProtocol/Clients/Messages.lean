import GroupProtocol.Base.Serde

/-!
# Sub-protocol payloads

The three envelopes carried inside frames: text messages, audio payloads and signals.
The CBOR form is a flat map; the Protobuf and FlatBuffers forms come from generated
code and enter as the class `Codegen`.
-/

namespace GroupProtocol

open Cbor

/-- The generated Protobuf and FlatBuffers encoders of a payload. -/
class Codegen (α : Type) where
  protobuf : α → Bytes
  flatBuffers : α → Bytes

/-- Body content types of a text message. -/
inductive GtpContentType
  | plain
  | markdown
  | binary
  | attachmentRef
  deriving DecidableEq, Repr

/-- The on-wire discriminant. -/
def GtpContentType.asU8 : GtpContentType → UInt8
  | plain => 0
  | markdown => 1
  | binary => 2
  | attachmentRef => 3

/-- A text message envelope. -/
structure GtpMessage where
  messageId : UInt64
  senderId : UInt32
  timestampMs : UInt64
  requestId : UInt32
  flags : UInt8
  contentType : UInt8
  contentLength : UInt32
  content : Bytes
  deriving DecidableEq, Repr

namespace GtpMessage

/-- Builds a plaintext message. -/
def plain (senderId : UInt32) (messageId : UInt64) (text : String) : GtpMessage where
  messageId := messageId
  senderId := senderId
  timestampMs := 0
  requestId := 0
  flags := 0x01
  contentType := GtpContentType.plain.asU8
  contentLength := UInt32.ofNat text.utf8ByteSize
  content := text.toUTF8.toList

/-- The keys and values of a message in wire order. -/
def entries (m : GtpMessage) : List (Value × Value) :=
  [(ascii ['m', 'i', 'd'], .uint m.messageId),
    (ascii ['s', 'i', 'd'], .uint m.senderId.toUInt64),
    (ascii ['t', 's'], .uint m.timestampMs),
    (ascii ['r', 'i', 'd'], .uint m.requestId.toUInt64),
    (ascii ['f', 'l'], .uint m.flags.toUInt64),
    (ascii ['c', 't'], .uint m.contentType.toUInt64),
    (ascii ['l', 'e', 'n'], .uint m.contentLength.toUInt64),
    (ascii ['b', 'o', 'd', 'y'], .bytes m.content)]

/-- CBOR-encodes the message. -/
def toCbor (m : GtpMessage) : Bytes := encodeMap m.entries

/-- Encodes the message using the given codec. -/
def toBytes [Codegen GtpMessage] (m : GtpMessage) : PayloadCodec → Bytes
  | .cbor => m.toCbor
  | .protobuf => Codegen.protobuf m
  | .flatBuffers => Codegen.flatBuffers m

end GtpMessage

/-- An audio frame payload. -/
structure GapPayload where
  mediaSourceId : UInt32
  rtpSequence : UInt32
  rtpTimestamp : UInt64
  keyPhase : UInt32
  opusFrame : Bytes
  deriving DecidableEq, Repr

namespace GapPayload

/-- The keys and values of a payload in wire order. -/
def entries (p : GapPayload) : List (Value × Value) :=
  [(ascii ['m', 's', 'i', 'd'], .uint p.mediaSourceId.toUInt64),
    (ascii ['s', 'e', 'q'], .uint p.rtpSequence.toUInt64),
    (ascii ['t', 's'], .uint p.rtpTimestamp),
    (ascii ['k', 'p'], .uint p.keyPhase.toUInt64),
    (ascii ['o', 'p', 'u', 's'], .bytes p.opusFrame)]

/-- CBOR-encodes the payload. -/
def toCbor (p : GapPayload) : Bytes := encodeMap p.entries

/-- Encodes the payload using the given codec. -/
def toBytes [Codegen GapPayload] (p : GapPayload) : PayloadCodec → Bytes
  | .cbor => p.toCbor
  | .protobuf => Codegen.protobuf p
  | .flatBuffers => Codegen.flatBuffers p

end GapPayload

/-- A signal envelope. -/
structure GspSignal where
  signalType : UInt32
  requestId : UInt32
  senderId : UInt32
  roleClaim : UInt32
  argsLength : UInt32
  args : Bytes
  deriving DecidableEq, Repr

namespace GspSignal

/-- Builds a signal with no arguments. -/
def bare (signalType requestId senderId : UInt32) : GspSignal where
  signalType := signalType
  requestId := requestId
  senderId := senderId
  roleClaim := 0
  argsLength := 0
  args := []

/-- The keys and values of a signal in wire order. -/
def entries (s : GspSignal) : List (Value × Value) :=
  [(ascii ['t'], .uint s.signalType.toUInt64),
    (ascii ['r', 'i', 'd'], .uint s.requestId.toUInt64),
    (ascii ['s', 'i', 'd'], .uint s.senderId.toUInt64),
    (ascii ['r', 'c'], .uint s.roleClaim.toUInt64),
    (ascii ['a', 'l', 'e', 'n'], .uint s.argsLength.toUInt64),
    (ascii ['a', 'r', 'g', 's'], .bytes s.args)]

/-- CBOR-encodes the signal. -/
def toCbor (s : GspSignal) : Bytes := encodeMap s.entries

/-- Encodes the signal using the given codec. -/
def toBytes [Codegen GspSignal] (s : GspSignal) : PayloadCodec → Bytes
  | .cbor => s.toCbor
  | .protobuf => Codegen.protobuf s
  | .flatBuffers => Codegen.flatBuffers s

end GspSignal

end GroupProtocol
