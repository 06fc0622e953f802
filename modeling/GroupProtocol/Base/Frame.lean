import GroupProtocol.Core.Vocabulary
import GroupProtocol.Lib.Cbor

/-!
# Transport frame and control message

The two CBOR envelopes of the base layer with their own checks. Serialisation
itself belongs to the serde layer, so it enters as the class `Ciborium`: a value
written out reads back as itself, or fails to read when a byte string is longer
than any machine can hold. The flat CBOR encoder is an instance.
-/

namespace GroupProtocol

/-- Codec errors shared by every layer. -/
inductive CodecError
  | decode (reason : String)
  | encode (reason : String)
  | payloadSizeMismatch
  | unknownEnumValue (value : UInt32)
  deriving DecidableEq, Repr

/-- The text of a codec error. -/
def CodecError.display : CodecError → String
  | decode reason => s!"CBOR decode: {reason}"
  | encode reason => s!"CBOR encode: {reason}"
  | payloadSizeMismatch => "payload_size/content_length/args_length mismatch"
  | unknownEnumValue value => s!"unknown enum value: {value}"

/-- A GBP transport frame. -/
structure GbpFrame where
  version : UInt8
  groupId : Bytes
  epoch : UInt64
  transitionId : UInt32
  streamType : UInt8
  streamId : UInt32
  flags : UInt16
  sequenceNo : UInt32
  payloadSize : UInt32
  encryptedPayload : Bytes
  payloadFormat : UInt8
  deriving DecidableEq, Repr

/-- A control plane message. -/
structure ControlMessage where
  opcode : UInt16
  requestId : UInt32
  senderId : UInt32
  transitionId : UInt32
  argsLength : UInt32
  args : Bytes
  deriving DecidableEq, Repr

/-- A serde representation of `α`: what is written reads back as the same value, and does
read back whenever its byte strings have a length that a CBOR head can carry. -/
structure Serde (α : Type) (size : α → ℕ) where
  intoWriter : α → Bytes
  fromReader : Bytes → Except String α
  sound : ∀ a b, fromReader (intoWriter a) = .ok b → b = a
  complete : ∀ a, size a < 2 ^ 64 → fromReader (intoWriter a) = .ok a

/-- The byte strings of a frame. -/
def GbpFrame.byteSize (f : GbpFrame) : ℕ := f.groupId.length + f.encryptedPayload.length

/-- The byte string of a control message. -/
def ControlMessage.byteSize (m : ControlMessage) : ℕ := m.args.length

/-- The serialisation of both envelopes. -/
class Ciborium where
  frame : Serde GbpFrame GbpFrame.byteSize
  control : Serde ControlMessage ControlMessage.byteSize

namespace GbpFrame

/-- Builds a frame from already-encrypted payload bytes; the declared size is the
payload's length truncated to thirty-two bits. -/
def new (groupId : GroupId) (epoch : UInt64) (transitionId : UInt32) (streamType : StreamType)
    (streamId : UInt32) (flags : UInt16) (sequenceNo : UInt32) (encryptedPayload : Bytes)
    (payloadFormat : UInt8) : GbpFrame where
  version := 1
  groupId := groupId.toList
  epoch := epoch
  transitionId := transitionId
  streamType := streamType.asU8
  streamId := streamId
  flags := flags
  sequenceNo := sequenceNo
  payloadSize := UInt32.ofNat encryptedPayload.length
  encryptedPayload := encryptedPayload
  payloadFormat := payloadFormat

/-- The codec of the payload, CBOR for unknown discriminants. -/
def payloadCodec (f : GbpFrame) : PayloadCodec := (PayloadCodec.fromU8 f.payloadFormat).getD .cbor

/-- Serialises the frame. -/
def toCbor [Ciborium] (f : GbpFrame) : Bytes := Ciborium.frame.intoWriter f

/-- Decodes a frame without running any check. -/
def decode [Ciborium] (data : Bytes) : Except CodecError GbpFrame :=
  match Ciborium.frame.fromReader data with
  | .ok f => .ok f
  | .error e => .error (.decode e)

/-- The declared payload size equals the actual length. -/
def validatePayloadSize (f : GbpFrame) : Except CodecError Unit :=
  if f.payloadSize.toNat ≠ f.encryptedPayload.length then .error .payloadSizeMismatch else .ok ()

/-- Decodes a frame and validates its declared payload size. -/
def fromCbor [Ciborium] (data : Bytes) : Except CodecError GbpFrame := do
  let f ← decode data
  f.validatePayloadSize
  return f

/-- The typed stream class. -/
def streamTypeTyped (f : GbpFrame) : Except CodecError StreamType :=
  match StreamType.tryFrom f.streamType.toUInt32 with
  | .ok st => .ok st
  | .error v => .error (.unknownEnumValue v)

/-- The group identifier padded with zeros or truncated to sixteen bytes. -/
def groupIdArray (f : GbpFrame) : GroupId := Vector.ofFn fun i => (f.groupId[i.val]?).getD 0

/-- A serialised frame never decodes to another frame. -/
theorem decode_toCbor_eq [Ciborium] {f g : GbpFrame} (h : decode f.toCbor = .ok g) : g = f := by
  unfold decode toCbor at h
  cases hr : Ciborium.frame.fromReader (Ciborium.frame.intoWriter f) with
  | error e => simp [hr] at h
  | ok k =>
      have hk := Ciborium.frame.sound f k hr
      simp only [hr, Except.ok.injEq] at h
      rw [← h, hk]

theorem decode_toCbor [Ciborium] {f : GbpFrame} (h : f.byteSize < 2 ^ 64) :
    decode f.toCbor = .ok f := by
  simp only [decode, toCbor, Ciborium.frame.complete f h]

/-- A frame built from fewer than `2 ^ 32` payload bytes round-trips. -/
theorem decode_toCbor_new [Ciborium] {gid : GroupId} {ep tid st sid fl seq pl pf}
    (h : pl.length < 2 ^ 32) :
    decode (new gid ep tid st sid fl seq pl pf).toCbor =
      .ok (new gid ep tid st sid fl seq pl pf) := by
  apply decode_toCbor
  simp only [byteSize, new, Vector.length_toList]
  omega

@[simp] theorem groupIdArray_new (gid : GroupId) (ep tid st sid fl seq pl pf) :
    (new gid ep tid st sid fl seq pl pf).groupIdArray = gid := by
  ext i hi
  simp only [groupIdArray, new, Vector.getElem_ofFn, Vector.getElem?_toList,
    Vector.getElem?_eq_getElem hi, Option.getD_some]

@[simp] theorem streamTypeTyped_new (gid : GroupId) (ep tid st sid fl seq pl pf) :
    (new gid ep tid st sid fl seq pl pf).streamTypeTyped = .ok st := by
  simp only [streamTypeTyped, new, StreamType.tryFrom_asU8]

@[simp] theorem payloadCodec_new (gid : GroupId) (ep tid st sid fl seq pl) (c : PayloadCodec) :
    (new gid ep tid st sid fl seq pl c.asU8).payloadCodec = c := by
  simp only [payloadCodec, new, PayloadCodec.fromU8_asU8, Option.getD_some]

/-- A built frame declares its size truthfully exactly below `2 ^ 32` bytes. -/
theorem validatePayloadSize_new {gid : GroupId} {ep tid st sid fl seq pl pf}
    (h : pl.length < 2 ^ 32) :
    (new gid ep tid st sid fl seq pl pf).validatePayloadSize = .ok () := by
  have he : (UInt32.ofNat pl.length).toNat = pl.length := UInt32.toNat_ofNat_of_lt' h
  simp only [validatePayloadSize, new, he, ne_eq, not_true_eq_false, if_false]

/-- A frame that declares its size truthfully passes the check of `fromCbor`. -/
theorem fromCbor_toCbor [Ciborium] {f : GbpFrame} (h : f.byteSize < 2 ^ 64)
    (hsize : f.validatePayloadSize = .ok ()) : fromCbor f.toCbor = .ok f := by
  simp only [fromCbor, decode_toCbor h, bind, Except.bind, hsize]
  rfl

end GbpFrame

namespace ControlMessage

/-- Builds a message with raw arguments. -/
def withArgs (opcode : UInt16) (requestId senderId transitionId : UInt32) (args : Bytes) :
    ControlMessage where
  opcode := opcode
  requestId := requestId
  senderId := senderId
  transitionId := transitionId
  argsLength := UInt32.ofNat args.length
  args := args

/-- Serialises the message. -/
def toCbor [Ciborium] (m : ControlMessage) : Bytes := Ciborium.control.intoWriter m

/-- Decodes a message and validates the declared argument length. -/
def fromCbor [Ciborium] (data : Bytes) : Except CodecError ControlMessage :=
  match Ciborium.control.fromReader data with
  | .error e => .error (.decode e)
  | .ok m => if m.argsLength.toNat ≠ m.args.length then .error .payloadSizeMismatch else .ok m

/-- A serialised message never decodes to another message. -/
theorem fromCbor_toCbor_eq [Ciborium] {m c : ControlMessage} (h : fromCbor m.toCbor = .ok c) :
    c = m := by
  unfold fromCbor toCbor at h
  cases hr : Ciborium.control.fromReader (Ciborium.control.intoWriter m) with
  | error e => simp [hr] at h
  | ok k =>
      have hk := Ciborium.control.sound m k hr
      simp only [hr] at h
      split at h
      · cases h
      · rw [← Except.ok.inj h, hk]

theorem fromCbor_toCbor_withArgs [Ciborium] {op : UInt16} {rid sid tid : UInt32} {args : Bytes}
    (h : args.length < 2 ^ 32) :
    fromCbor (withArgs op rid sid tid args).toCbor = .ok (withArgs op rid sid tid args) := by
  have he : (UInt32.ofNat args.length).toNat = args.length := UInt32.toNat_ofNat_of_lt' h
  have hs : (withArgs op rid sid tid args).byteSize < 2 ^ 64 := by
    simp only [byteSize, withArgs]; omega
  simp only [fromCbor, toCbor, Ciborium.control.complete _ hs]
  simp only [withArgs, he, ne_eq, not_true_eq_false, if_false]

end ControlMessage

end GroupProtocol
