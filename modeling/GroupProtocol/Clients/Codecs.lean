import GroupProtocol.Clients.Messages

/-!
# The codecs of the sub-protocol payloads

Each payload is written as a CBOR map, as a Protobuf message or as a FlatBuffers table. The
readers and writers of the three formats belong to `ciborium`, `prost` and the `planus`
generated code and enter as classes; the field mappings between the wire structs and the
payloads, with their length checks and their narrowing, are the repository's own.
-/

namespace GroupProtocol

open Cbor

/-- Reading a struct from CBOR. -/
class CborReader (α : Type) where
  fromReader : Bytes → Except String α

/-- Writing and reading a Protobuf message. -/
class Prost (P : Type) where
  encodeToVec : P → Bytes
  decode : Bytes → Except String P

/-- Writing a FlatBuffers table. -/
class PlanusBuilder (T : Type) where
  finish : T → Bytes

/-- Reading a FlatBuffers buffer through the accessors of its root table. -/
class ReadAsRoot (R : Type) where
  readAsRoot : Bytes → Except String R

/-- A struct reads back from the map it is written as. -/
def CborReader.Lossless {α : Type} [CborReader α] (entries : α → List (Value × Value)) : Prop :=
  ∀ a, entriesFit (entries a) = true → fromReader (encodeMap (entries a)) = .ok a

/-- A message reads back from its own encoding. -/
def Prost.Lossless (P : Type) [Prost P] : Prop := ∀ p : P, decode (encodeToVec p) = .ok p

/-- Every field of a table reads back from its own encoding. -/
def ReadAsRoot.Lossless {T R : Type} [PlanusBuilder T] [ReadAsRoot R] (view : T → R) : Prop :=
  ∀ t, readAsRoot (PlanusBuilder.finish t) = .ok (view t)

/-! Text messages. -/

/-- The Protobuf text message. -/
structure GbpProto.GtpMessage where
  messageId : UInt64
  senderId : UInt32
  timestampMs : UInt64
  requestId : UInt32
  flags : UInt32
  contentType : UInt32
  contentLength : UInt32
  content : Bytes
  deriving DecidableEq, Repr

/-- The FlatBuffers text message. -/
structure GbpFlat.GtpMessage where
  messageId : UInt64
  senderId : UInt32
  timestampMs : UInt64
  requestId : UInt32
  flags : UInt32
  contentType : UInt32
  contentLength : UInt32
  content : Option Bytes
  deriving DecidableEq, Repr

/-- The accessors of a FlatBuffers text message; each may find its field malformed. -/
structure GbpFlat.GtpMessageRef where
  messageId : Except String UInt64
  senderId : Except String UInt32
  timestampMs : Except String UInt64
  requestId : Except String UInt32
  flags : Except String UInt32
  contentType : Except String UInt32
  contentLength : Except String UInt32
  content : Except String (Option Bytes)

/-- The accessors of a table that is well formed. -/
def GbpFlat.GtpMessage.view (t : GbpFlat.GtpMessage) : GbpFlat.GtpMessageRef :=
  ⟨.ok t.messageId, .ok t.senderId, .ok t.timestampMs, .ok t.requestId, .ok t.flags,
    .ok t.contentType, .ok t.contentLength, .ok t.content⟩

/-- An accessor's result without its reason. -/
def dropReason {α : Type} (r : Except String α) : Except Unit α := r.mapError fun _ => ()

namespace GtpMessage

/-- The Protobuf form. -/
def toProto (m : GtpMessage) : GbpProto.GtpMessage where
  messageId := m.messageId
  senderId := m.senderId
  timestampMs := m.timestampMs
  requestId := m.requestId
  flags := m.flags.toUInt32
  contentType := m.contentType.toUInt32
  contentLength := m.contentLength
  content := m.content

/-- Reads the Protobuf form; flags and content type keep their low eight bits. -/
def ofProto (p : GbpProto.GtpMessage) : Except Unit GtpMessage :=
  if p.contentLength.toNat ≠ p.content.length then .error ()
  else .ok {
    messageId := p.messageId
    senderId := p.senderId
    timestampMs := p.timestampMs
    requestId := p.requestId
    flags := p.flags.toUInt8
    contentType := p.contentType.toUInt8
    contentLength := p.contentLength
    content := p.content }

/-- The FlatBuffers form. -/
def toFlat (m : GtpMessage) : GbpFlat.GtpMessage where
  messageId := m.messageId
  senderId := m.senderId
  timestampMs := m.timestampMs
  requestId := m.requestId
  flags := m.flags.toUInt32
  contentType := m.contentType.toUInt32
  contentLength := m.contentLength
  content := some m.content

/-- Reads the FlatBuffers form; flags and content type keep their low eight bits. -/
def ofFlat (r : GbpFlat.GtpMessageRef) : Except Unit GtpMessage := do
  let content := (← dropReason r.content).getD []
  let contentLength ← dropReason r.contentLength
  if contentLength.toNat ≠ content.length then
    .error ()
  else
    let messageId ← dropReason r.messageId
    let senderId ← dropReason r.senderId
    let timestampMs ← dropReason r.timestampMs
    let requestId ← dropReason r.requestId
    let flags ← dropReason r.flags
    let contentType ← dropReason r.contentType
    return ⟨messageId, senderId, timestampMs, requestId, flags.toUInt8, contentType.toUInt8,
      contentLength, content⟩

/-- Decodes a CBOR message and validates the declared content length. -/
def fromCbor [CborReader GtpMessage] (data : Bytes) : Except CodecError GtpMessage :=
  match CborReader.fromReader data with
  | .error e => .error (.decode e)
  | .ok (m : GtpMessage) =>
    if m.contentLength.toNat ≠ m.content.length then .error .payloadSizeMismatch else .ok m

section FromBytes

variable [CborReader GtpMessage] [Prost GbpProto.GtpMessage]
  [PlanusBuilder GbpFlat.GtpMessage] [ReadAsRoot GbpFlat.GtpMessageRef]

instance codegen : Codegen GtpMessage where
  protobuf m := Prost.encodeToVec m.toProto
  flatBuffers m := PlanusBuilder.finish m.toFlat

/-- Decodes a message from the given codec. -/
def fromBytes (data : Bytes) : PayloadCodec → Except CodecError GtpMessage
  | .cbor => fromCbor data
  | .protobuf =>
    match Prost.decode data with
    | .error e => .error (.decode e)
    | .ok p => (ofProto p).mapError fun _ => .payloadSizeMismatch
  | .flatBuffers =>
    match ReadAsRoot.readAsRoot data with
    | .error e => .error (.decode e)
    | .ok r => (ofFlat r).mapError fun _ => .payloadSizeMismatch

end FromBytes

theorem ofProto_toProto {m : GtpMessage} (h : m.contentLength.toNat = m.content.length) :
    ofProto m.toProto = .ok m := by
  simp only [ofProto, toProto, h, ne_eq, not_true_eq_false, if_false, UInt8.toUInt8_toUInt32]

theorem ofFlat_view (t : GbpFlat.GtpMessage) :
    ofFlat t.view =
      if t.contentLength.toNat ≠ (t.content.getD []).length then .error ()
      else .ok ⟨t.messageId, t.senderId, t.timestampMs, t.requestId, t.flags.toUInt8,
        t.contentType.toUInt8, t.contentLength, t.content.getD []⟩ := rfl

theorem ofFlat_toFlat {m : GtpMessage} (h : m.contentLength.toNat = m.content.length) :
    ofFlat m.toFlat.view = .ok m := by
  rw [ofFlat_view]
  simp only [toFlat, Option.getD_some, h, ne_eq, not_true_eq_false, if_false,
    UInt8.toUInt8_toUInt32]

end GtpMessage

/-! Audio payloads. -/

/-- The Protobuf audio payload. -/
structure GbpProto.GapPayload where
  mediaSourceId : UInt32
  rtpSequence : UInt32
  rtpTimestamp : UInt64
  keyPhase : UInt32
  opusFrame : Bytes
  deriving DecidableEq, Repr

/-- The FlatBuffers audio payload. -/
structure GbpFlat.GapPayload where
  mediaSourceId : UInt32
  rtpSequence : UInt32
  rtpTimestamp : UInt64
  keyPhase : UInt32
  opusFrame : Option Bytes
  deriving DecidableEq, Repr

/-- The accessors of a FlatBuffers audio payload. -/
structure GbpFlat.GapPayloadRef where
  mediaSourceId : Except String UInt32
  rtpSequence : Except String UInt32
  rtpTimestamp : Except String UInt64
  keyPhase : Except String UInt32
  opusFrame : Except String (Option Bytes)

/-- The accessors of a table that is well formed. -/
def GbpFlat.GapPayload.view (t : GbpFlat.GapPayload) : GbpFlat.GapPayloadRef :=
  ⟨.ok t.mediaSourceId, .ok t.rtpSequence, .ok t.rtpTimestamp, .ok t.keyPhase, .ok t.opusFrame⟩

namespace GapPayload

/-- The Protobuf form. -/
def toProto (p : GapPayload) : GbpProto.GapPayload :=
  ⟨p.mediaSourceId, p.rtpSequence, p.rtpTimestamp, p.keyPhase, p.opusFrame⟩

/-- Reads the Protobuf form. -/
def ofProto (p : GbpProto.GapPayload) : GapPayload :=
  ⟨p.mediaSourceId, p.rtpSequence, p.rtpTimestamp, p.keyPhase, p.opusFrame⟩

/-- The FlatBuffers form. -/
def toFlat (p : GapPayload) : GbpFlat.GapPayload :=
  ⟨p.mediaSourceId, p.rtpSequence, p.rtpTimestamp, p.keyPhase, some p.opusFrame⟩

/-- Reads the FlatBuffers form. -/
def ofFlat (r : GbpFlat.GapPayloadRef) : Except Unit GapPayload := do
  let opusFrame := (← dropReason r.opusFrame).getD []
  let mediaSourceId ← dropReason r.mediaSourceId
  let rtpSequence ← dropReason r.rtpSequence
  let rtpTimestamp ← dropReason r.rtpTimestamp
  let keyPhase ← dropReason r.keyPhase
  return ⟨mediaSourceId, rtpSequence, rtpTimestamp, keyPhase, opusFrame⟩

/-- Decodes a CBOR payload. -/
def fromCbor [CborReader GapPayload] (data : Bytes) : Except CodecError GapPayload :=
  (CborReader.fromReader data).mapError .decode

section FromBytes

variable [CborReader GapPayload] [Prost GbpProto.GapPayload]
  [PlanusBuilder GbpFlat.GapPayload] [ReadAsRoot GbpFlat.GapPayloadRef]

instance codegen : Codegen GapPayload where
  protobuf p := Prost.encodeToVec p.toProto
  flatBuffers p := PlanusBuilder.finish p.toFlat

/-- Decodes a payload from the given codec. -/
def fromBytes (data : Bytes) : PayloadCodec → Except CodecError GapPayload
  | .cbor => fromCbor data
  | .protobuf =>
    match Prost.decode data with
    | .error e => .error (.decode e)
    | .ok p => .ok (ofProto p)
  | .flatBuffers =>
    match ReadAsRoot.readAsRoot data with
    | .error e => .error (.decode e)
    | .ok r => (ofFlat r).mapError fun _ => .decode "flatbuffers field error"

end FromBytes

end GapPayload

/-! Signals. -/

/-- The Protobuf signal. -/
structure GbpProto.GspSignal where
  signalType : UInt32
  requestId : UInt32
  senderId : UInt32
  roleClaim : UInt32
  argsLength : UInt32
  args : Bytes
  deriving DecidableEq, Repr

/-- The FlatBuffers signal. -/
structure GbpFlat.GspSignal where
  signalType : UInt32
  requestId : UInt32
  senderId : UInt32
  roleClaim : UInt32
  argsLength : UInt32
  args : Option Bytes
  deriving DecidableEq, Repr

/-- The accessors of a FlatBuffers signal. -/
structure GbpFlat.GspSignalRef where
  signalType : Except String UInt32
  requestId : Except String UInt32
  senderId : Except String UInt32
  roleClaim : Except String UInt32
  argsLength : Except String UInt32
  args : Except String (Option Bytes)

/-- The accessors of a table that is well formed. -/
def GbpFlat.GspSignal.view (t : GbpFlat.GspSignal) : GbpFlat.GspSignalRef :=
  ⟨.ok t.signalType, .ok t.requestId, .ok t.senderId, .ok t.roleClaim, .ok t.argsLength,
    .ok t.args⟩

namespace GspSignal

/-- The Protobuf form. -/
def toProto (s : GspSignal) : GbpProto.GspSignal :=
  ⟨s.signalType, s.requestId, s.senderId, s.roleClaim, s.argsLength, s.args⟩

/-- Reads the Protobuf form. -/
def ofProto (p : GbpProto.GspSignal) : Except Unit GspSignal :=
  if p.argsLength.toNat ≠ p.args.length then .error ()
  else .ok ⟨p.signalType, p.requestId, p.senderId, p.roleClaim, p.argsLength, p.args⟩

/-- The FlatBuffers form; empty arguments are left out. -/
def toFlat (s : GspSignal) : GbpFlat.GspSignal :=
  ⟨s.signalType, s.requestId, s.senderId, s.roleClaim, s.argsLength,
    if s.args.isEmpty then none else some s.args⟩

/-- Reads the FlatBuffers form. -/
def ofFlat (r : GbpFlat.GspSignalRef) : Except Unit GspSignal := do
  let args := (← dropReason r.args).getD []
  let argsLength ← dropReason r.argsLength
  if argsLength.toNat ≠ args.length then
    .error ()
  else
    let signalType ← dropReason r.signalType
    let requestId ← dropReason r.requestId
    let senderId ← dropReason r.senderId
    let roleClaim ← dropReason r.roleClaim
    return ⟨signalType, requestId, senderId, roleClaim, argsLength, args⟩

/-- Decodes a CBOR signal and validates the declared argument length. -/
def fromCbor [CborReader GspSignal] (data : Bytes) : Except CodecError GspSignal :=
  match CborReader.fromReader data with
  | .error e => .error (.decode e)
  | .ok (s : GspSignal) =>
    if s.argsLength.toNat ≠ s.args.length then .error .payloadSizeMismatch else .ok s

theorem ofProto_toProto {s : GspSignal} (h : s.argsLength.toNat = s.args.length) :
    ofProto s.toProto = .ok s := by
  simp only [ofProto, toProto, h, ne_eq, not_true_eq_false, if_false]

theorem ofFlat_toFlat {s : GspSignal} (h : s.argsLength.toNat = s.args.length) :
    ofFlat s.toFlat.view = .ok s := by
  have hview (t : GbpFlat.GspSignal) : ofFlat t.view =
      if t.argsLength.toNat ≠ (t.args.getD []).length then .error ()
      else .ok ⟨t.signalType, t.requestId, t.senderId, t.roleClaim, t.argsLength,
        t.args.getD []⟩ := rfl
  -- empty arguments are absent in the table and come back as the default
  have hargs : s.toFlat.args.getD [] = s.args := by
    simp only [toFlat]
    cases s.args <;> rfl
  rw [hview, hargs]
  simp only [toFlat, h, ne_eq, not_true_eq_false, if_false]

section FromBytes

variable [CborReader GspSignal] [Prost GbpProto.GspSignal]
  [PlanusBuilder GbpFlat.GspSignal] [ReadAsRoot GbpFlat.GspSignalRef]

instance codegen : Codegen GspSignal where
  protobuf s := Prost.encodeToVec s.toProto
  flatBuffers s := PlanusBuilder.finish s.toFlat

/-- Decodes a signal from the given codec. -/
def fromBytes (data : Bytes) : PayloadCodec → Except CodecError GspSignal
  | .cbor => fromCbor data
  | .protobuf =>
    match Prost.decode data with
    | .error e => .error (.decode e)
    | .ok p => (ofProto p).mapError fun _ => .payloadSizeMismatch
  | .flatBuffers =>
    match ReadAsRoot.readAsRoot data with
    | .error e => .error (.decode e)
    | .ok r => (ofFlat r).mapError fun _ => .payloadSizeMismatch

end FromBytes

end GspSignal

/-! Round trips. -/

section RoundTrip

theorem GtpMessage.fromBytes_toBytes [CborReader GtpMessage] [Prost GbpProto.GtpMessage]
    [PlanusBuilder GbpFlat.GtpMessage] [ReadAsRoot GbpFlat.GtpMessageRef]
    (hcbor : CborReader.Lossless GtpMessage.entries) (hproto : Prost.Lossless GbpProto.GtpMessage)
    (hflat : ReadAsRoot.Lossless GbpFlat.GtpMessage.view) {m : GtpMessage}
    (hlen : m.contentLength.toNat = m.content.length) (c : PayloadCodec) :
    fromBytes (m.toBytes c) c = .ok m := by
  cases c with
  | cbor =>
      have hfit : entriesFit m.entries = true := by
        have hbody : m.content.length < 18446744073709551616 := by
          have := m.contentLength.toNat_lt
          omega
        simp [entriesFit, entries, Value.fits, ascii, hbody]
      simp only [fromBytes, toBytes, fromCbor, toCbor, hcbor m hfit, hlen, ne_eq,
        not_true_eq_false, if_false]
  | protobuf =>
      simp only [fromBytes, toBytes, Codegen.protobuf, hproto m.toProto, ofProto_toProto hlen]
      rfl
  | flatBuffers =>
      simp only [fromBytes, toBytes, Codegen.flatBuffers, hflat m.toFlat, ofFlat_toFlat hlen]
      rfl

theorem GapPayload.fromBytes_toBytes [CborReader GapPayload] [Prost GbpProto.GapPayload]
    [PlanusBuilder GbpFlat.GapPayload] [ReadAsRoot GbpFlat.GapPayloadRef]
    (hcbor : CborReader.Lossless GapPayload.entries) (hproto : Prost.Lossless GbpProto.GapPayload)
    (hflat : ReadAsRoot.Lossless GbpFlat.GapPayload.view) {p : GapPayload}
    (hlen : p.opusFrame.length < 2 ^ 64) (c : PayloadCodec) :
    fromBytes (p.toBytes c) c = .ok p := by
  cases c with
  | cbor =>
      have hfit : entriesFit p.entries = true := by
        have hopus : p.opusFrame.length < 18446744073709551616 := hlen
        simp [entriesFit, entries, Value.fits, ascii, hopus]
      simp only [fromBytes, toBytes, fromCbor, toCbor, hcbor p hfit]
      rfl
  | protobuf =>
      simp only [fromBytes, toBytes, Codegen.protobuf, hproto p.toProto]
      rfl
  | flatBuffers =>
      simp only [fromBytes, toBytes, Codegen.flatBuffers, hflat p.toFlat]
      rfl

theorem GspSignal.fromBytes_toBytes [CborReader GspSignal] [Prost GbpProto.GspSignal]
    [PlanusBuilder GbpFlat.GspSignal] [ReadAsRoot GbpFlat.GspSignalRef]
    (hcbor : CborReader.Lossless GspSignal.entries) (hproto : Prost.Lossless GbpProto.GspSignal)
    (hflat : ReadAsRoot.Lossless GbpFlat.GspSignal.view) {s : GspSignal}
    (hlen : s.argsLength.toNat = s.args.length) (c : PayloadCodec) :
    fromBytes (s.toBytes c) c = .ok s := by
  cases c with
  | cbor =>
      have hfit : entriesFit s.entries = true := by
        have hargs : s.args.length < 18446744073709551616 := by
          have := s.argsLength.toNat_lt
          omega
        simp [entriesFit, entries, Value.fits, ascii, hargs]
      simp only [fromBytes, toBytes, fromCbor, toCbor, hcbor s hfit, hlen, ne_eq,
        not_true_eq_false, if_false]
  | protobuf =>
      simp only [fromBytes, toBytes, Codegen.protobuf, hproto s.toProto, ofProto_toProto hlen]
      rfl
  | flatBuffers =>
      simp only [fromBytes, toBytes, Codegen.flatBuffers, hflat s.toFlat, ofFlat_toFlat hlen]
      rfl

variable [CborReader GtpMessage] [Prost GbpProto.GtpMessage] [PlanusBuilder GbpFlat.GtpMessage]
  [ReadAsRoot GbpFlat.GtpMessageRef] [CborReader GapPayload] [Prost GbpProto.GapPayload]
  [PlanusBuilder GbpFlat.GapPayload] [ReadAsRoot GbpFlat.GapPayloadRef] [CborReader GspSignal]
  [Prost GbpProto.GspSignal] [PlanusBuilder GbpFlat.GspSignal] [ReadAsRoot GbpFlat.GspSignalRef]

/-- Every payload whose declared length is its length survives every codec. The bound on an
audio frame is that of a vector in memory; a text or signal body is bounded by its declared
length. -/
theorem payload_codecs_round_trip
    (hgtpCbor : CborReader.Lossless GtpMessage.entries)
    (hgtpProto : Prost.Lossless GbpProto.GtpMessage)
    (hgtpFlat : ReadAsRoot.Lossless GbpFlat.GtpMessage.view)
    (hgapCbor : CborReader.Lossless GapPayload.entries)
    (hgapProto : Prost.Lossless GbpProto.GapPayload)
    (hgapFlat : ReadAsRoot.Lossless GbpFlat.GapPayload.view)
    (hgspCbor : CborReader.Lossless GspSignal.entries)
    (hgspProto : Prost.Lossless GbpProto.GspSignal)
    (hgspFlat : ReadAsRoot.Lossless GbpFlat.GspSignal.view) (c : PayloadCodec) :
    (∀ m : GtpMessage, m.contentLength.toNat = m.content.length →
      GtpMessage.fromBytes (m.toBytes c) c = .ok m) ∧
    (∀ p : GapPayload, p.opusFrame.length < 2 ^ 64 →
      GapPayload.fromBytes (p.toBytes c) c = .ok p) ∧
    ∀ s : GspSignal, s.argsLength.toNat = s.args.length →
      GspSignal.fromBytes (s.toBytes c) c = .ok s := by
  refine ⟨fun m hm => ?_, fun p hp => ?_, fun s hs => ?_⟩
  · exact GtpMessage.fromBytes_toBytes hgtpCbor hgtpProto hgtpFlat hm c
  · exact GapPayload.fromBytes_toBytes hgapCbor hgapProto hgapFlat hp c
  · exact GspSignal.fromBytes_toBytes hgspCbor hgspProto hgspFlat hs c

end RoundTrip

/-! Agreement of the three text decoders on the values a Protobuf message can carry. -/

/-- The CBOR map that carries the values of a Protobuf text message. -/
def GbpProto.GtpMessage.entries (w : GbpProto.GtpMessage) : List (Value × Value) :=
  [(ascii ['m', 'i', 'd'], .uint w.messageId),
    (ascii ['s', 'i', 'd'], .uint w.senderId.toUInt64),
    (ascii ['t', 's'], .uint w.timestampMs),
    (ascii ['r', 'i', 'd'], .uint w.requestId.toUInt64),
    (ascii ['f', 'l'], .uint w.flags.toUInt64),
    (ascii ['c', 't'], .uint w.contentType.toUInt64),
    (ascii ['l', 'e', 'n'], .uint w.contentLength.toUInt64),
    (ascii ['b', 'o', 'd', 'y'], .bytes w.content)]

/-- Flags and content type fit the eight bits of the payload's fields. -/
def GbpProto.GtpMessage.Narrow (w : GbpProto.GtpMessage) : Prop :=
  w.flags.toNat < 256 ∧ w.contentType.toNat < 256

/-- The FlatBuffers table carries the values of the Protobuf message; absent content is empty. -/
structure GbpFlat.GtpMessage.Carries (t : GbpFlat.GtpMessage) (w : GbpProto.GtpMessage) :
    Prop where
  messageId : t.messageId = w.messageId
  senderId : t.senderId = w.senderId
  timestampMs : t.timestampMs = w.timestampMs
  requestId : t.requestId = w.requestId
  flags : t.flags = w.flags
  contentType : t.contentType = w.contentType
  contentLength : t.contentLength = w.contentLength
  content : t.content.getD [] = w.content

/-- An integer that does not fit its field is rejected. -/
def CborReader.RejectsWide [CborReader GtpMessage] : Prop :=
  ∀ w : GbpProto.GtpMessage, ¬w.Narrow →
    ∃ e, (fromReader (encodeMap w.entries) : Except String GtpMessage) = .error e

namespace GtpMessage

/-- The message with the low eight bits of flags and content type. -/
def truncated (w : GbpProto.GtpMessage) : GtpMessage :=
  ⟨w.messageId, w.senderId, w.timestampMs, w.requestId, w.flags.toUInt8, w.contentType.toUInt8,
    w.contentLength, w.content⟩

theorem entries_truncated {w : GbpProto.GtpMessage} (h : w.Narrow) :
    (truncated w).entries = w.entries := by
  have hkeep (n : UInt32) (hn : n.toNat < 256) : n.toUInt8.toUInt64 = n.toUInt64 := by
    apply UInt64.toNat_inj.mp
    rw [UInt8.toNat_toUInt64, UInt32.toNat_toUInt8, UInt32.toNat_toUInt64]
    exact Nat.mod_eq_of_lt hn
  simp only [entries, truncated, GbpProto.GtpMessage.entries, hkeep w.flags h.1,
    hkeep w.contentType h.2]

/-- What a decoder with a check accepts. -/
theorem toOption_checked {ε α : Type} (p : Prop) [Decidable p] (e : ε) (a : α) :
    (if ¬p then .error e else .ok a : Except ε α).toOption = if p then some a else none := by
  by_cases h : p
  · rw [if_neg (not_not_intro h), if_pos h]
    rfl
  · rw [if_pos h, if_neg h]
    rfl

theorem toOption_mapError {ε ε' α : Type} (f : ε → ε') (r : Except ε α) :
    (r.mapError f).toOption = r.toOption := by
  cases r <;> rfl

variable [CborReader GtpMessage] [Prost GbpProto.GtpMessage] [PlanusBuilder GbpFlat.GtpMessage]
  [ReadAsRoot GbpFlat.GtpMessageRef]

/-- Both binary decoders accept what the CBOR decoder accepts, with the same message. -/
def DecodersAgree (w : GbpProto.GtpMessage) : Prop :=
  (fromBytes (Prost.encodeToVec w) .protobuf).toOption =
      (fromBytes (encodeMap w.entries) .cbor).toOption ∧
    ∀ t : GbpFlat.GtpMessage, t.Carries w →
      (fromBytes (PlanusBuilder.finish t) .flatBuffers).toOption =
        (fromBytes (encodeMap w.entries) .cbor).toOption

omit [PlanusBuilder GbpFlat.GtpMessage] in
theorem fromBytes_proto (hproto : Prost.Lossless GbpProto.GtpMessage) (w : GbpProto.GtpMessage) :
    (fromBytes (Prost.encodeToVec w) .protobuf).toOption =
      if w.contentLength.toNat = w.content.length then some (truncated w) else none := by
  rw [fromBytes, hproto w]
  exact (toOption_mapError _ _).trans (toOption_checked _ _ _)

theorem fromBytes_flat (hflat : ReadAsRoot.Lossless GbpFlat.GtpMessage.view)
    {t : GbpFlat.GtpMessage} {w : GbpProto.GtpMessage} (ht : t.Carries w) :
    (fromBytes (PlanusBuilder.finish t) .flatBuffers).toOption =
      if w.contentLength.toNat = w.content.length then some (truncated w) else none := by
  rw [fromBytes, hflat t]
  dsimp only
  rw [toOption_mapError, ofFlat_view, ht.messageId, ht.senderId, ht.timestampMs, ht.requestId,
    ht.flags, ht.contentType, ht.contentLength, ht.content]
  exact toOption_checked _ _ _

omit [PlanusBuilder GbpFlat.GtpMessage] in
theorem fromBytes_cbor (hcbor : CborReader.Lossless GtpMessage.entries)
    {w : GbpProto.GtpMessage} (hmem : w.content.length < 2 ^ 64) (h : w.Narrow) :
    (fromBytes (encodeMap w.entries) .cbor).toOption =
      if w.contentLength.toNat = w.content.length then some (truncated w) else none := by
  have hfit : entriesFit (truncated w).entries = true := by
    have hbody : w.content.length < 18446744073709551616 := hmem
    simp [entriesFit, entries, truncated, Value.fits, ascii, hbody]
  rw [fromBytes, fromCbor, ← entries_truncated h, hcbor _ hfit]
  exact toOption_checked _ _ _

/-- The decoders agree on the values of a message exactly when flags and content type fit eight
bits or the declared length is wrong, in which case all three reject it. -/
theorem gtp_decoders_agree_iff (hcbor : CborReader.Lossless GtpMessage.entries)
    (hwide : CborReader.RejectsWide) (hproto : Prost.Lossless GbpProto.GtpMessage)
    (hflat : ReadAsRoot.Lossless GbpFlat.GtpMessage.view) (w : GbpProto.GtpMessage)
    (hmem : w.content.length < 2 ^ 64) :
    DecodersAgree w ↔
      w.contentLength.toNat ≠ w.content.length ∨
        (w.flags.toNat < 256 ∧ w.contentType.toNat < 256) := by
  rw [DecodersAgree, fromBytes_proto hproto]
  by_cases hnarrow : w.Narrow
  · rw [fromBytes_cbor hcbor hmem hnarrow]
    exact iff_of_true ⟨rfl, fun t ht => fromBytes_flat hflat ht⟩ (.inr hnarrow)
  · have hnone : (fromBytes (encodeMap w.entries) .cbor).toOption = none := by
      obtain ⟨e, he⟩ := hwide w hnarrow
      rw [fromBytes, fromCbor, he]
      rfl
    rw [hnone]
    by_cases hlen : w.contentLength.toNat = w.content.length
    · rw [if_pos hlen]
      refine iff_of_false (fun h => Option.some_ne_none _ h.1) ?_
      rintro (hne | hfits)
      · exact hne hlen
      · exact hnarrow hfits
    · refine iff_of_true ⟨if_neg hlen, fun t ht => ?_⟩ (.inl hlen)
      rw [fromBytes_flat hflat ht, if_neg hlen]

end GtpMessage

/-! Flat CBOR readers of the three payloads, and fixed-width records in the place of the two
binary formats, for closed runs. -/

/-- Numbers of eight bytes each, followed by a body. -/
def record (ns : List UInt64) (body : Bytes) : Bytes :=
  ns.flatMap (fun n => beBytes 8 n.toNat) ++ body

/-- Reads the numbers of a record and its body. -/
def readRecord : ℕ → Bytes → Option (List UInt64 × Bytes)
  | 0, data => some ([], data)
  | k + 1, data =>
    if data.length < 8 then none
    else
      (readRecord k (data.drop 8)).map fun r =>
        (UInt64.ofNat (beNat 0 (data.take 8)) :: r.1, r.2)

theorem readRecord_record (ns : List UInt64) (body : Bytes) :
    readRecord ns.length (record ns body) = some (ns, body) := by
  induction ns with
  | nil => rfl
  | cons n ns ih =>
      have hsplit : record (n :: ns) body = beBytes 8 n.toNat ++ record ns body := by
        rw [record, List.flatMap_cons, List.append_assoc, record]
      have hlen : ¬(beBytes 8 n.toNat ++ record ns body).length < 8 := by
        rw [List.length_append, length_beBytes]
        omega
      have hn : n.toNat < 256 ^ 8 := n.toNat_lt
      rw [hsplit, List.length_cons, readRecord, if_neg hlen, List.take_left' (length_beBytes 8 _),
        List.drop_left' (length_beBytes 8 _), ih, beNat_beBytes, Nat.mod_eq_of_lt hn,
        Nat.zero_mul, Nat.zero_add, UInt64.ofNat_toNat]
      rfl

/-- A message written as a record of `k` numbers and a body. -/
@[reducible] def Prost.ofRecord {P : Type} (k : ℕ) (numbers : P → List UInt64) (body : P → Bytes)
    (build : List UInt64 → Bytes → Option P) : Prost P where
  encodeToVec p := record (numbers p) (body p)
  decode data :=
    match (readRecord k data).bind fun r => build r.1 r.2 with
    | some p => .ok p
    | none => .error "invalid message"

theorem Prost.ofRecord_lossless {P : Type} (k : ℕ) (numbers : P → List UInt64)
    (body : P → Bytes) (build : List UInt64 → Bytes → Option P)
    (hk : ∀ p, (numbers p).length = k) (hbuild : ∀ p, build (numbers p) (body p) = some p) :
    @Prost.Lossless P (.ofRecord k numbers body build) := by
  intro p
  have hread := readRecord_record (numbers p) (body p)
  rw [hk p] at hread
  simp only [Prost.decode, Prost.encodeToVec, hread, Option.bind_some, hbuild p]

/-- A table written as a record; the first number says whether the vector is present. -/
@[reducible] def PlanusBuilder.ofRecord {T : Type} (numbers : T → List UInt64)
    (body : T → Option Bytes) : PlanusBuilder T where
  finish t := record ((if (body t).isSome then 1 else 0) :: numbers t) ((body t).getD [])

/-- A table read from a record of `k` numbers after the first. -/
@[reducible] def ReadAsRoot.ofRecord {R : Type} (k : ℕ)
    (build : List UInt64 → Option Bytes → Option R) : ReadAsRoot R where
  readAsRoot data :=
    match readRecord (k + 1) data with
    | some (present :: numbers, body) =>
      match build numbers (if present = 0 then none else some body) with
      | some r => .ok r
      | none => .error "invalid table"
    | _ => .error "invalid table"

theorem ReadAsRoot.ofRecord_lossless {T R : Type} (k : ℕ) (numbers : T → List UInt64)
    (body : T → Option Bytes) (build : List UInt64 → Option Bytes → Option R) {view : T → R}
    (hk : ∀ t, (numbers t).length = k) (hbuild : ∀ t, build (numbers t) (body t) = some (view t)) :
    @ReadAsRoot.Lossless T R (.ofRecord numbers body) (.ofRecord k build) view := by
  intro t
  have hread := readRecord_record ((if (body t).isSome then 1 else 0) :: numbers t)
    ((body t).getD [])
  rw [List.length_cons, hk t] at hread
  have hbody : (if (if (body t).isSome then 1 else 0 : UInt64) = 0 then none
      else some ((body t).getD [])) = body t := by
    cases body t <;> simp
  simp only [ReadAsRoot.readAsRoot, PlanusBuilder.finish, hread, hbody, hbuild t]

/-- A struct that recovers itself from its own entries survives the map reader. -/
theorem CborReader.lossless_of_entries {α : Type} {entries : α → List (Value × Value)}
    {ofEntries : List (Value × Value) → Option α} (hlen : ∀ a, (entries a).length < 2 ^ 64)
    (hread : ∀ a, ofEntries (entries a) = some a) :
    @CborReader.Lossless α ⟨readStruct ofEntries⟩ entries := by
  intro a hfit
  have hstruct : readStruct ofEntries (encodeMap (entries a)) =
      if entriesFit (entries a) then .ok a else .error "malformed map" :=
    readStruct_encodeMap (hread a) (hlen a)
  rwa [hfit, if_pos rfl] at hstruct

namespace GtpMessage

/-- Read the fields of a text message. -/
def ofEntries (es : List (Value × Value)) : Option GtpMessage := do
  let messageId ← uintField es ['m', 'i', 'd'] (2 ^ 64)
  let senderId ← uintField es ['s', 'i', 'd'] (2 ^ 32)
  let timestampMs ← uintField es ['t', 's'] (2 ^ 64)
  let requestId ← uintField es ['r', 'i', 'd'] (2 ^ 32)
  let flags ← uintField es ['f', 'l'] (2 ^ 8)
  let contentType ← uintField es ['c', 't'] (2 ^ 8)
  let contentLength ← uintField es ['l', 'e', 'n'] (2 ^ 32)
  let content ← bytesField es ['b', 'o', 'd', 'y']
  return ⟨messageId, senderId.toUInt32, timestampMs, requestId.toUInt32, flags.toUInt8,
    contentType.toUInt8, contentLength.toUInt32, content⟩

instance : CborReader GtpMessage := ⟨readStruct ofEntries⟩

theorem cborLossless : CborReader.Lossless GtpMessage.entries := by
  refine CborReader.lossless_of_entries (fun m => by simp [entries]) fun m => ?_
  have h8 (n : UInt8) : n.toUInt64.toNat < 2 ^ 8 := n.toNat_lt
  have h32 (n : UInt32) : n.toUInt64.toNat < 2 ^ 32 := n.toNat_lt
  have hmid : field m.entries ['m', 'i', 'd'] = some (.uint m.messageId) := rfl
  have hsid : field m.entries ['s', 'i', 'd'] = some (.uint m.senderId.toUInt64) := rfl
  have hts : field m.entries ['t', 's'] = some (.uint m.timestampMs) := rfl
  have hrid : field m.entries ['r', 'i', 'd'] = some (.uint m.requestId.toUInt64) := rfl
  have hfl : field m.entries ['f', 'l'] = some (.uint m.flags.toUInt64) := rfl
  have hct : field m.entries ['c', 't'] = some (.uint m.contentType.toUInt64) := rfl
  have hlen : field m.entries ['l', 'e', 'n'] = some (.uint m.contentLength.toUInt64) := rfl
  have hbody : field m.entries ['b', 'o', 'd', 'y'] = some (.bytes m.content) := rfl
  simp only [ofEntries, uintField, bytesField, hmid, hsid, hts, hrid, hfl, hct, hlen, hbody, h8,
    h32, m.messageId.toNat_lt, m.timestampMs.toNat_lt, if_true]
  simp

/-- The eight-bit fields reject what does not fit. -/
theorem cborRejectsWide : CborReader.RejectsWide := by
  intro w hwide
  have hfl : uintField w.entries ['f', 'l'] 256 =
      if w.flags.toNat < 256 then some w.flags.toUInt64 else none := rfl
  have hct : uintField w.entries ['c', 't'] 256 =
      if w.contentType.toNat < 256 then some w.contentType.toUInt64 else none := rfl
  have hnone : ofEntries w.entries = none := by
    by_cases hflags : w.flags.toNat < 256
    · have htype : ¬w.contentType.toNat < 256 := fun h => hwide ⟨hflags, h⟩
      rw [if_neg htype] at hct
      simp [ofEntries, hct]
    · rw [if_neg hflags] at hfl
      simp [ofEntries, hfl]
  have hentries : w.entries.length < 2 ^ 64 := by simp [GbpProto.GtpMessage.entries]
  change ∃ e, readStruct ofEntries (encodeMap w.entries) = .error e
  rw [readStruct, decodeMap_encodeMap hentries]
  cases entriesFit w.entries with
  | false => exact ⟨_, rfl⟩
  | true => simp only [if_true, hnone]; exact ⟨_, rfl⟩

/-- The numbers of a Protobuf form. -/
def protoNumbers (p : GbpProto.GtpMessage) : List UInt64 :=
  [p.messageId, p.senderId.toUInt64, p.timestampMs, p.requestId.toUInt64, p.flags.toUInt64,
    p.contentType.toUInt64, p.contentLength.toUInt64]

/-- A Protobuf form from its numbers and its body. -/
def protoBuild : List UInt64 → Bytes → Option GbpProto.GtpMessage
  | [mid, sid, ts, rid, fl, ct, len], body =>
    some ⟨mid, sid.toUInt32, ts, rid.toUInt32, fl.toUInt32, ct.toUInt32, len.toUInt32, body⟩
  | _, _ => none

instance : Prost GbpProto.GtpMessage := .ofRecord 7 protoNumbers (·.content) protoBuild

theorem protoLossless : Prost.Lossless GbpProto.GtpMessage := by
  apply Prost.ofRecord_lossless 7 protoNumbers (·.content) protoBuild
  · intro p
    rfl
  · intro p
    simp [protoNumbers, protoBuild]

/-- The numbers of a FlatBuffers form. -/
def flatNumbers (t : GbpFlat.GtpMessage) : List UInt64 :=
  [t.messageId, t.senderId.toUInt64, t.timestampMs, t.requestId.toUInt64, t.flags.toUInt64,
    t.contentType.toUInt64, t.contentLength.toUInt64]

/-- The accessors of a FlatBuffers form from its numbers and its vector. -/
def flatBuild : List UInt64 → Option Bytes → Option GbpFlat.GtpMessageRef
  | [mid, sid, ts, rid, fl, ct, len], body =>
    some ⟨.ok mid, .ok sid.toUInt32, .ok ts, .ok rid.toUInt32, .ok fl.toUInt32, .ok ct.toUInt32,
      .ok len.toUInt32, .ok body⟩
  | _, _ => none

instance : PlanusBuilder GbpFlat.GtpMessage := .ofRecord flatNumbers (·.content)

instance : ReadAsRoot GbpFlat.GtpMessageRef := .ofRecord 7 flatBuild

theorem flatLossless : ReadAsRoot.Lossless GbpFlat.GtpMessage.view := by
  apply ReadAsRoot.ofRecord_lossless 7 flatNumbers (·.content) flatBuild
  · intro t
    rfl
  · intro t
    simp [flatNumbers, flatBuild, GbpFlat.GtpMessage.view]

end GtpMessage

namespace GapPayload

/-- Read the fields of an audio payload. -/
def ofEntries (es : List (Value × Value)) : Option GapPayload := do
  let mediaSourceId ← uintField es ['m', 's', 'i', 'd'] (2 ^ 32)
  let rtpSequence ← uintField es ['s', 'e', 'q'] (2 ^ 32)
  let rtpTimestamp ← uintField es ['t', 's'] (2 ^ 64)
  let keyPhase ← uintField es ['k', 'p'] (2 ^ 32)
  let opusFrame ← bytesField es ['o', 'p', 'u', 's']
  return ⟨mediaSourceId.toUInt32, rtpSequence.toUInt32, rtpTimestamp, keyPhase.toUInt32, opusFrame⟩

instance : CborReader GapPayload := ⟨readStruct ofEntries⟩

theorem cborLossless : CborReader.Lossless GapPayload.entries := by
  refine CborReader.lossless_of_entries (fun p => by simp [entries]) fun p => ?_
  have h32 (n : UInt32) : n.toUInt64.toNat < 2 ^ 32 := n.toNat_lt
  have hmsid : field p.entries ['m', 's', 'i', 'd'] = some (.uint p.mediaSourceId.toUInt64) := rfl
  have hseq : field p.entries ['s', 'e', 'q'] = some (.uint p.rtpSequence.toUInt64) := rfl
  have hts : field p.entries ['t', 's'] = some (.uint p.rtpTimestamp) := rfl
  have hkp : field p.entries ['k', 'p'] = some (.uint p.keyPhase.toUInt64) := rfl
  have hopus : field p.entries ['o', 'p', 'u', 's'] = some (.bytes p.opusFrame) := rfl
  simp only [ofEntries, uintField, bytesField, hmsid, hseq, hts, hkp, hopus, h32,
    p.rtpTimestamp.toNat_lt, if_true]
  simp

/-- The numbers of a Protobuf form. -/
def protoNumbers (p : GbpProto.GapPayload) : List UInt64 :=
  [p.mediaSourceId.toUInt64, p.rtpSequence.toUInt64, p.rtpTimestamp, p.keyPhase.toUInt64]

/-- A Protobuf form from its numbers and its body. -/
def protoBuild : List UInt64 → Bytes → Option GbpProto.GapPayload
  | [msid, seq, ts, kp], body => some ⟨msid.toUInt32, seq.toUInt32, ts, kp.toUInt32, body⟩
  | _, _ => none

instance : Prost GbpProto.GapPayload := .ofRecord 4 protoNumbers (·.opusFrame) protoBuild

theorem protoLossless : Prost.Lossless GbpProto.GapPayload := by
  apply Prost.ofRecord_lossless 4 protoNumbers (·.opusFrame) protoBuild
  · intro p
    rfl
  · intro p
    simp [protoNumbers, protoBuild]

/-- The numbers of a FlatBuffers form. -/
def flatNumbers (t : GbpFlat.GapPayload) : List UInt64 :=
  [t.mediaSourceId.toUInt64, t.rtpSequence.toUInt64, t.rtpTimestamp, t.keyPhase.toUInt64]

/-- The accessors of a FlatBuffers form from its numbers and its vector. -/
def flatBuild : List UInt64 → Option Bytes → Option GbpFlat.GapPayloadRef
  | [msid, seq, ts, kp], body =>
    some ⟨.ok msid.toUInt32, .ok seq.toUInt32, .ok ts, .ok kp.toUInt32, .ok body⟩
  | _, _ => none

instance : PlanusBuilder GbpFlat.GapPayload := .ofRecord flatNumbers (·.opusFrame)

instance : ReadAsRoot GbpFlat.GapPayloadRef := .ofRecord 4 flatBuild

theorem flatLossless : ReadAsRoot.Lossless GbpFlat.GapPayload.view := by
  apply ReadAsRoot.ofRecord_lossless 4 flatNumbers (·.opusFrame) flatBuild
  · intro t
    rfl
  · intro t
    simp [flatNumbers, flatBuild, GbpFlat.GapPayload.view]

end GapPayload

namespace GspSignal

/-- Read the fields of a signal. -/
def ofEntries (es : List (Value × Value)) : Option GspSignal := do
  let signalType ← uintField es ['t'] (2 ^ 32)
  let requestId ← uintField es ['r', 'i', 'd'] (2 ^ 32)
  let senderId ← uintField es ['s', 'i', 'd'] (2 ^ 32)
  let roleClaim ← uintField es ['r', 'c'] (2 ^ 32)
  let argsLength ← uintField es ['a', 'l', 'e', 'n'] (2 ^ 32)
  let args ← bytesField es ['a', 'r', 'g', 's']
  return ⟨signalType.toUInt32, requestId.toUInt32, senderId.toUInt32, roleClaim.toUInt32,
    argsLength.toUInt32, args⟩

instance : CborReader GspSignal := ⟨readStruct ofEntries⟩

theorem cborLossless : CborReader.Lossless GspSignal.entries := by
  refine CborReader.lossless_of_entries (fun s => by simp [entries]) fun s => ?_
  have h32 (n : UInt32) : n.toUInt64.toNat < 2 ^ 32 := n.toNat_lt
  have ht : field s.entries ['t'] = some (.uint s.signalType.toUInt64) := rfl
  have hrid : field s.entries ['r', 'i', 'd'] = some (.uint s.requestId.toUInt64) := rfl
  have hsid : field s.entries ['s', 'i', 'd'] = some (.uint s.senderId.toUInt64) := rfl
  have hrc : field s.entries ['r', 'c'] = some (.uint s.roleClaim.toUInt64) := rfl
  have halen : field s.entries ['a', 'l', 'e', 'n'] = some (.uint s.argsLength.toUInt64) := rfl
  have hargs : field s.entries ['a', 'r', 'g', 's'] = some (.bytes s.args) := rfl
  simp only [ofEntries, uintField, bytesField, ht, hrid, hsid, hrc, halen, hargs, h32, if_true]
  simp

/-- The numbers of a Protobuf form. -/
def protoNumbers (p : GbpProto.GspSignal) : List UInt64 :=
  [p.signalType.toUInt64, p.requestId.toUInt64, p.senderId.toUInt64, p.roleClaim.toUInt64,
    p.argsLength.toUInt64]

/-- A Protobuf form from its numbers and its body. -/
def protoBuild : List UInt64 → Bytes → Option GbpProto.GspSignal
  | [t, rid, sid, rc, alen], body =>
    some ⟨t.toUInt32, rid.toUInt32, sid.toUInt32, rc.toUInt32, alen.toUInt32, body⟩
  | _, _ => none

instance : Prost GbpProto.GspSignal := .ofRecord 5 protoNumbers (·.args) protoBuild

theorem protoLossless : Prost.Lossless GbpProto.GspSignal := by
  apply Prost.ofRecord_lossless 5 protoNumbers (·.args) protoBuild
  · intro p
    rfl
  · intro p
    simp [protoNumbers, protoBuild]

/-- The numbers of a FlatBuffers form. -/
def flatNumbers (t : GbpFlat.GspSignal) : List UInt64 :=
  [t.signalType.toUInt64, t.requestId.toUInt64, t.senderId.toUInt64, t.roleClaim.toUInt64,
    t.argsLength.toUInt64]

/-- The accessors of a FlatBuffers form from its numbers and its vector. -/
def flatBuild : List UInt64 → Option Bytes → Option GbpFlat.GspSignalRef
  | [t, rid, sid, rc, alen], body =>
    some ⟨.ok t.toUInt32, .ok rid.toUInt32, .ok sid.toUInt32, .ok rc.toUInt32,
      .ok alen.toUInt32, .ok body⟩
  | _, _ => none

instance : PlanusBuilder GbpFlat.GspSignal := .ofRecord flatNumbers (·.args)

instance : ReadAsRoot GbpFlat.GspSignalRef := .ofRecord 5 flatBuild

theorem flatLossless : ReadAsRoot.Lossless GbpFlat.GspSignal.view := by
  apply ReadAsRoot.ofRecord_lossless 5 flatNumbers (·.args) flatBuild
  · intro t
    rfl
  · intro t
    simp [flatNumbers, flatBuild, GbpFlat.GspSignal.view]

end GspSignal

/-- A message with every integer field at its largest value and an empty body survives the
Protobuf codec. -/
theorem payload_codecs_round_trip_largest :
    let m : GtpMessage := ⟨18446744073709551615, 4294967295, 18446744073709551615, 4294967295,
      255, 255, 0, []⟩
    m.contentLength.toNat = m.content.length ∧
      GtpMessage.fromBytes (m.toBytes .protobuf) .protobuf = .ok m :=
  ⟨rfl, (payload_codecs_round_trip GtpMessage.cborLossless GtpMessage.protoLossless
    GtpMessage.flatLossless GapPayload.cborLossless GapPayload.protoLossless
    GapPayload.flatLossless GspSignal.cborLossless GspSignal.protoLossless
    GspSignal.flatLossless .protobuf).1 _ rfl⟩

/-- A message with flags 256: Protobuf and FlatBuffers read flags 0, CBOR rejects the map. -/
theorem gtp_decoders_disagree :
    let w : GbpProto.GtpMessage := ⟨1, 2, 3, 4, 256, 0, 1, [7]⟩
    GtpMessage.fromBytes (Prost.encodeToVec w) .protobuf = .ok ⟨1, 2, 3, 4, 0, 0, 1, [7]⟩ ∧
      ¬GtpMessage.DecodersAgree w := by
  intro w
  have hproto : GtpMessage.fromBytes (Prost.encodeToVec w) .protobuf =
      .ok ⟨1, 2, 3, 4, 0, 0, 1, [7]⟩ := by decide +kernel
  have hcbor : (GtpMessage.fromBytes (encodeMap w.entries) .cbor).toOption = none := by
    decide +kernel
  refine ⟨hproto, fun h => ?_⟩
  have hsame := h.1
  rw [hproto, hcbor] at hsame
  cases hsame

/-- Flags and content type at their largest fitting values. -/
theorem gtp_decoders_agree_largest :
    let w : GbpProto.GtpMessage := ⟨1, 2, 3, 4, 255, 255, 1, [7]⟩
    w.content.length < 2 ^ 64 ∧ GtpMessage.DecodersAgree w := by
  intro w
  have hmem : w.content.length < 2 ^ 64 := by decide
  exact ⟨hmem, (GtpMessage.gtp_decoders_agree_iff GtpMessage.cborLossless
    GtpMessage.cborRejectsWide GtpMessage.protoLossless GtpMessage.flatLossless w hmem).mpr
    (.inr ⟨by decide, by decide⟩)⟩

end GroupProtocol
