import GroupProtocol.Base.Frame

/-!
# Flat CBOR serialisation of the two envelopes

Each envelope is a definite-length map of short text keys in declaration order; the
payload format key is left out when it is zero. Decoding reads keys in any order,
ignores unknown ones and rejects an integer that does not fit its field.
-/

namespace GroupProtocol

namespace Cbor

/-- A text item of ASCII characters. -/
def ascii (cs : List Char) : Value := .text (cs.map fun c => UInt8.ofNat c.toNat)

/-- The value stored under a text key. -/
def field (es : List (Value × Value)) (key : List Char) : Option Value :=
  (es.find? fun e => e.1 == ascii key).map Prod.snd

/-- An unsigned integer field below `bound`. -/
def uintField (es : List (Value × Value)) (key : List Char) (bound : ℕ) : Option UInt64 :=
  match field es key with
  | some (.uint n) => if n.toNat < bound then some n else none
  | _ => none

/-- A byte string field. -/
def bytesField (es : List (Value × Value)) (key : List Char) : Option (List UInt8) :=
  match field es key with
  | some (.bytes b) => some b
  | _ => none

end Cbor

open Cbor

/-- Decode a map and read the fields of a struct from it. -/
def readStruct {α : Type} (ofEntries : List (Value × Value) → Option α) (data : Bytes) :
    Except String α :=
  match decodeMap data with
  | none => .error "malformed map"
  | some es =>
    match ofEntries es with
    | none => .error "missing or out-of-range field"
    | some a => .ok a

theorem readStruct_encodeMap {α : Type} {entries : α → List (Value × Value)}
    {ofEntries : List (Value × Value) → Option α} {a : α}
    (hread : ofEntries (entries a) = some a) (hlen : (entries a).length < 2 ^ 64) :
    readStruct ofEntries (encodeMap (entries a)) =
      if entriesFit (entries a) then .ok a else .error "malformed map" := by
  rw [readStruct, decodeMap_encodeMap hlen]
  cases entriesFit (entries a) with
  | false => rfl
  | true => simp only [if_true, hread]

/-- A struct that is written as a map and read back field by field. -/
def Serde.ofMap {α : Type} {size : α → ℕ} (entries : α → List (Value × Value))
    (ofEntries : List (Value × Value) → Option α)
    (hread : ∀ a, ofEntries (entries a) = some a) (hlen : ∀ a, (entries a).length < 2 ^ 64)
    (hfit : ∀ a, size a < 2 ^ 64 → entriesFit (entries a) = true) : Serde α size where
  intoWriter a := encodeMap (entries a)
  fromReader := readStruct ofEntries
  sound a b h := by
    rw [readStruct_encodeMap (hread a) (hlen a)] at h
    split at h
    · exact (Except.ok.inj h).symm
    · cases h
  complete a h := by
    rw [readStruct_encodeMap (hread a) (hlen a), hfit a h, if_pos rfl]

namespace GbpFrame

/-- The keys and values of a frame in wire order. -/
def entries (f : GbpFrame) : List (Value × Value) :=
  [(ascii ['v'], .uint f.version.toUInt64),
    (ascii ['g', 'i', 'd'], .bytes f.groupId),
    (ascii ['e', 'p'], .uint f.epoch),
    (ascii ['t', 'i', 'd'], .uint f.transitionId.toUInt64),
    (ascii ['s', 't'], .uint f.streamType.toUInt64),
    (ascii ['s', 'i', 'd'], .uint f.streamId.toUInt64),
    (ascii ['f', 'l'], .uint f.flags.toUInt64),
    (ascii ['s', 'e', 'q'], .uint f.sequenceNo.toUInt64),
    (ascii ['p', 's', 'z'], .uint f.payloadSize.toUInt64),
    (ascii ['p', 'l'], .bytes f.encryptedPayload)] ++
  if f.payloadFormat = 0 then [] else [(ascii ['p', 'f'], .uint f.payloadFormat.toUInt64)]

/-- Read the fields of a frame; only the payload format has a default. -/
def ofEntries (es : List (Value × Value)) : Option GbpFrame := do
  let version ← uintField es ['v'] (2 ^ 8)
  let groupId ← bytesField es ['g', 'i', 'd']
  let epoch ← uintField es ['e', 'p'] (2 ^ 64)
  let transitionId ← uintField es ['t', 'i', 'd'] (2 ^ 32)
  let streamType ← uintField es ['s', 't'] (2 ^ 8)
  let streamId ← uintField es ['s', 'i', 'd'] (2 ^ 32)
  let flags ← uintField es ['f', 'l'] (2 ^ 16)
  let sequenceNo ← uintField es ['s', 'e', 'q'] (2 ^ 32)
  let payloadSize ← uintField es ['p', 's', 'z'] (2 ^ 32)
  let encryptedPayload ← bytesField es ['p', 'l']
  let payloadFormat ←
    if (field es ['p', 'f']).isSome then uintField es ['p', 'f'] (2 ^ 8) else some 0
  return ⟨version.toUInt8, groupId, epoch, transitionId.toUInt32, streamType.toUInt8,
    streamId.toUInt32, flags.toUInt16, sequenceNo.toUInt32, payloadSize.toUInt32,
    encryptedPayload, payloadFormat.toUInt8⟩

theorem field_payloadFormat (f : GbpFrame) :
    field f.entries ['p', 'f'] =
      if f.payloadFormat = 0 then none else some (.uint f.payloadFormat.toUInt64) := by
  by_cases hp : f.payloadFormat = 0
  · simp only [entries, hp, if_true, List.append_nil]
    rfl
  · simp only [entries, hp, if_false]
    rfl

/-- Reading the entries of a frame recovers the frame. -/
theorem ofEntries_entries (f : GbpFrame) : ofEntries f.entries = some f := by
  have h8 (n : UInt8) : n.toUInt64.toNat < 2 ^ 8 := n.toNat_lt
  have h16 (n : UInt16) : n.toUInt64.toNat < 2 ^ 16 := n.toNat_lt
  have h32 (n : UInt32) : n.toUInt64.toNat < 2 ^ 32 := n.toNat_lt
  have hversion : field f.entries ['v'] = some (.uint f.version.toUInt64) := rfl
  have hgroupId : field f.entries ['g', 'i', 'd'] = some (.bytes f.groupId) := rfl
  have hepoch : field f.entries ['e', 'p'] = some (.uint f.epoch) := rfl
  have htid : field f.entries ['t', 'i', 'd'] = some (.uint f.transitionId.toUInt64) := rfl
  have hst : field f.entries ['s', 't'] = some (.uint f.streamType.toUInt64) := rfl
  have hsid : field f.entries ['s', 'i', 'd'] = some (.uint f.streamId.toUInt64) := rfl
  have hfl : field f.entries ['f', 'l'] = some (.uint f.flags.toUInt64) := rfl
  have hseq : field f.entries ['s', 'e', 'q'] = some (.uint f.sequenceNo.toUInt64) := rfl
  have hpsz : field f.entries ['p', 's', 'z'] = some (.uint f.payloadSize.toUInt64) := rfl
  have hpl : field f.entries ['p', 'l'] = some (.bytes f.encryptedPayload) := rfl
  simp only [ofEntries, uintField, bytesField, hversion, hgroupId, hepoch, htid, hst, hsid,
    hfl, hseq, hpsz, hpl, field_payloadFormat, h8, h16, h32, f.epoch.toNat_lt, if_true]
  by_cases hp : f.payloadFormat = 0
  · simp only [hp, if_true]
    cases f
    simp_all
  · have hlt : f.payloadFormat.toNat < 256 := f.payloadFormat.toNat_lt
    simp [hp, hlt]

/-- The frame serialisation. -/
def serde : Serde GbpFrame byteSize :=
  Serde.ofMap entries ofEntries ofEntries_entries
    (by
      intro f
      simp only [entries, List.length_append]
      split <;> simp)
    (by
      intro f h
      have hg : f.groupId.length < 18446744073709551616 := by unfold byteSize at h; omega
      have hp : f.encryptedPayload.length < 18446744073709551616 := by
        unfold byteSize at h; omega
      by_cases hf : f.payloadFormat = 0
      · simp [entriesFit, entries, hf, Value.fits, ascii, hg, hp]
      · simp [entriesFit, entries, hf, Value.fits, ascii, hg, hp])

end GbpFrame

namespace ControlMessage

/-- The keys and values of a control message in wire order. -/
def entries (m : ControlMessage) : List (Value × Value) :=
  [(ascii ['o', 'p'], .uint m.opcode.toUInt64),
    (ascii ['r', 'i', 'd'], .uint m.requestId.toUInt64),
    (ascii ['s', 'i', 'd'], .uint m.senderId.toUInt64),
    (ascii ['t', 'i', 'd'], .uint m.transitionId.toUInt64),
    (ascii ['a', 'l', 'e', 'n'], .uint m.argsLength.toUInt64),
    (ascii ['a', 'r', 'g', 's'], .bytes m.args)]

/-- Read the fields of a control message. -/
def ofEntries (es : List (Value × Value)) : Option ControlMessage := do
  let opcode ← uintField es ['o', 'p'] (2 ^ 16)
  let requestId ← uintField es ['r', 'i', 'd'] (2 ^ 32)
  let senderId ← uintField es ['s', 'i', 'd'] (2 ^ 32)
  let transitionId ← uintField es ['t', 'i', 'd'] (2 ^ 32)
  let argsLength ← uintField es ['a', 'l', 'e', 'n'] (2 ^ 32)
  let args ← bytesField es ['a', 'r', 'g', 's']
  return ⟨opcode.toUInt16, requestId.toUInt32, senderId.toUInt32, transitionId.toUInt32,
    argsLength.toUInt32, args⟩

/-- Reading the entries of a message recovers the message. -/
theorem ofEntries_entries (m : ControlMessage) : ofEntries m.entries = some m := by
  have h16 (n : UInt16) : n.toUInt64.toNat < 2 ^ 16 := n.toNat_lt
  have h32 (n : UInt32) : n.toUInt64.toNat < 2 ^ 32 := n.toNat_lt
  have hop : field m.entries ['o', 'p'] = some (.uint m.opcode.toUInt64) := rfl
  have hrid : field m.entries ['r', 'i', 'd'] = some (.uint m.requestId.toUInt64) := rfl
  have hsid : field m.entries ['s', 'i', 'd'] = some (.uint m.senderId.toUInt64) := rfl
  have htid : field m.entries ['t', 'i', 'd'] = some (.uint m.transitionId.toUInt64) := rfl
  have halen : field m.entries ['a', 'l', 'e', 'n'] = some (.uint m.argsLength.toUInt64) := rfl
  have hargs : field m.entries ['a', 'r', 'g', 's'] = some (.bytes m.args) := rfl
  simp only [ofEntries, uintField, bytesField, hop, hrid, hsid, htid, halen, hargs, h16, h32,
    if_true]
  simp

/-- The control message serialisation. -/
def serde : Serde ControlMessage byteSize :=
  Serde.ofMap entries ofEntries ofEntries_entries (fun m => by simp [entries])
    (by
      intro m h
      have ha : m.args.length < 18446744073709551616 := h
      simp [entriesFit, entries, Value.fits, ascii, ha])

end ControlMessage

/-- Flat CBOR serialises both envelopes. -/
instance flatCbor : Ciborium := ⟨GbpFrame.serde, ControlMessage.serde⟩

end GroupProtocol
