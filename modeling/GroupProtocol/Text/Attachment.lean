import GroupProtocol.Clients.Codecs
import GroupProtocol.Lib.Machine
import GroupProtocol.Lib.Memory
import GroupProtocol.Lib.Slots

/-!
# Attachments: manifest, chunks and reassembly

A payload is cut in chunks behind a manifest that carries its length, its number of chunks
and its SHA-256 digest. The assembler keeps the first chunk of each index below the number
of chunks and decides completeness by counting. A call that panics has no result.
-/

namespace GroupProtocol

open Cbor

/-- A slice of bytes; the language has none longer than `isize::MAX`. -/
structure ByteSlice (w : PointerWidth) where
  bytes : Bytes
  bounded : bytes.length ≤ w.isizeMax

/-- `Vec::with_capacity`, which panics beyond `isize::MAX` bytes. -/
def vecWithCapacity (w : PointerWidth) (capacity : ℕ) : Option Bytes :=
  if capacity ≤ w.isizeMax then some [] else none

/-- `Vec::extend_from_slice`, which panics when the vector outgrows `isize::MAX` bytes. -/
def extendFromSlice (w : PointerWidth) (v data : Bytes) : Option Bytes :=
  if v.length + data.length ≤ w.isizeMax then some (v ++ data) else none

/-- The digest function of the `sha2` crate. -/
class Sha256 where
  digest : Bytes → Bytes

/-- Describes the full attachment. -/
structure AttachmentManifest where
  attachmentId : UInt64
  filename : String
  mimeType : String
  totalSize : UInt64
  chunkCount : UInt32
  sha256 : Bytes
  deriving DecidableEq, Repr

namespace AttachmentManifest

/-- The keys and values of a manifest in wire order. -/
def entries (m : AttachmentManifest) : List (Value × Value) :=
  [(ascii ['a', 'i', 'd'], .uint m.attachmentId),
    (ascii ['n', 'a', 'm', 'e'], .text m.filename.toUTF8.toList),
    (ascii ['m', 'i', 'm', 'e'], .text m.mimeType.toUTF8.toList),
    (ascii ['s', 'i', 'z', 'e'], .uint m.totalSize),
    (ascii ['n', 'c'], .uint m.chunkCount.toUInt64),
    (ascii ['h', 'a', 's', 'h'], .bytes m.sha256)]

/-- CBOR-encodes the manifest. -/
def toCbor (m : AttachmentManifest) : Bytes := encodeMap m.entries

/-- Decodes a CBOR manifest. -/
def fromCbor [CborReader AttachmentManifest] (data : Bytes) :
    Except CodecError AttachmentManifest :=
  (CborReader.fromReader data).mapError .decode

end AttachmentManifest

/-- One chunk of an attachment payload. -/
structure AttachmentChunk where
  attachmentId : UInt64
  chunkIndex : UInt32
  chunkCount : UInt32
  data : Bytes
  deriving DecidableEq, Repr

namespace AttachmentChunk

/-- The keys and values of a chunk in wire order. -/
def entries (c : AttachmentChunk) : List (Value × Value) :=
  [(ascii ['a', 'i', 'd'], .uint c.attachmentId),
    (ascii ['i', 'd', 'x'], .uint c.chunkIndex.toUInt64),
    (ascii ['n', 'c'], .uint c.chunkCount.toUInt64),
    (ascii ['d', 'a', 't', 'a'], .bytes c.data)]

/-- CBOR-encodes the chunk. -/
def toCbor (c : AttachmentChunk) : Bytes := encodeMap c.entries

/-- Decodes a CBOR chunk. -/
def fromCbor [CborReader AttachmentChunk] (data : Bytes) : Except CodecError AttachmentChunk :=
  (CborReader.fromReader data).mapError .decode

theorem fromCbor_toCbor [CborReader AttachmentChunk] (hcbor : CborReader.Lossless entries)
    {c : AttachmentChunk} (h : c.data.length < 2 ^ 64) : fromCbor c.toCbor = .ok c := by
  have hfit : entriesFit c.entries = true := by
    have hdata : c.data.length < 18446744073709551616 := h
    simp [entriesFit, entries, Value.fits, ascii, hdata]
  rw [fromCbor, toCbor, hcbor c hfit]
  rfl

end AttachmentChunk

/-- Errors from attachment assembly. -/
inductive AttachmentError
  | decode (e : CodecError)
  | chunkOutOfRange (idx count : UInt32)
  | hashMismatch
  | incomplete (received total : UInt32)
  deriving DecidableEq, Repr

/-- The manifest and the encoded chunks of a payload. -/
structure AttachmentSender where
  manifest : AttachmentManifest
  chunks : List Bytes

/-- Splits `data` into chunks of `chunkSize` bytes and computes the manifest. -/
def AttachmentSender.new [Sha256] {w : PointerWidth} (attachmentId : UInt64)
    (filename mimeType : String) (data : ByteSlice w) (chunkSize : ℕ) : AttachmentSender :=
  let hash := Sha256.digest data.bytes
  let chunkSize := max chunkSize 1
  let rawChunks := data.bytes.toChunks chunkSize
  let chunkCount := UInt32.ofNat rawChunks.length
  { manifest := ⟨attachmentId, filename, mimeType, UInt64.ofNat data.bytes.length, chunkCount,
      hash⟩
    chunks := rawChunks.mapIdx fun i slice =>
      (AttachmentChunk.mk attachmentId (UInt32.ofNat i) chunkCount slice).toCbor }

/-- Reassembles incoming chunks; what it stores lies below the number of chunks. -/
structure AttachmentAssembler where
  manifest : AttachmentManifest
  received : Slots UInt32 Bytes
  inRange : ∀ i ∈ received, i < manifest.chunkCount

namespace AttachmentAssembler

/-- An assembler for the given manifest. -/
def new (manifest : AttachmentManifest) : AttachmentAssembler where
  manifest := manifest
  received := ∅
  inRange _ h := absurd h (AList.notMem_empty _)

/-- How many chunks have been received so far. -/
def receivedCount (a : AttachmentAssembler) : UInt32 := UInt32.ofNat a.received.keys.length

/-- Whether all chunks have arrived. -/
def isComplete (a : AttachmentAssembler) : Bool :=
  UInt32.ofNat a.received.keys.length == a.manifest.chunkCount

/-- Feeds a decoded chunk. Duplicate indices are silently ignored. -/
def push (a : AttachmentAssembler) (chunk : AttachmentChunk) :
    AttachmentAssembler × Except AttachmentError Unit :=
  if h : a.manifest.chunkCount ≤ chunk.chunkIndex then
    (a, .error (.chunkOutOfRange chunk.chunkIndex a.manifest.chunkCount))
  else
    ({ manifest := a.manifest
       received := a.received.orInsert chunk.chunkIndex chunk.data
       inRange := by
        intro i hi
        obtain hold | rfl := Slots.mem_orInsert.mp hi
        · exact a.inRange i hold
        · exact UInt32.not_le.mp h }, .ok ())

/-- The loop of `assemble`: each chunk of `indices` is unwrapped and appended. -/
def appendChunks (w : PointerWidth) (a : AttachmentAssembler) : List ℕ → Bytes → Option Bytes
  | [], payload => some payload
  | i :: indices, payload =>
    match a.received.lookup (UInt32.ofNat i) with
    | none => none
    | some data => (extendFromSlice w payload data).bind (appendChunks w a indices)

/-- Assembles the payload once all chunks have arrived and verifies its digest. -/
def assemble [Sha256] (w : PointerWidth) (a : AttachmentAssembler) :
    Option (Except AttachmentError Bytes) :=
  let total := a.manifest.chunkCount
  let received := UInt32.ofNat a.received.keys.length
  if received < total then some (.error (.incomplete received total))
  else
    ((vecWithCapacity w (w.asUsize a.manifest.totalSize)).bind
      (appendChunks w a (List.range total.toNat))).map fun payload =>
        if Sha256.digest payload ≠ a.manifest.sha256 then .error .hashMismatch else .ok payload

/-! What the count and the loop say about the stored indices. -/

/-- The number of chunks that the manifest announces. -/
abbrev total (a : AttachmentAssembler) : ℕ := a.manifest.chunkCount.toNat

/-- The indices below the announced number that are stored. -/
def present (a : AttachmentAssembler) : Finset ℕ :=
  (Finset.range a.total).filter fun i => UInt32.ofNat i ∈ a.received

/-- The stored chunks of `indices` one after the other. -/
def contents (a : AttachmentAssembler) (indices : List ℕ) : Bytes :=
  indices.flatMap fun i => (a.received.lookup (UInt32.ofNat i)).getD []

/-- What `assemble` hashes: all chunks in the order of their indices. -/
def payload (a : AttachmentAssembler) : Bytes := a.contents (List.range a.total)

theorem toNat_ofNat_of_lt {a : AttachmentAssembler} {i : ℕ} (h : i < a.total) :
    (UInt32.ofNat i).toNat = i :=
  UInt32.toNat_ofNat_of_lt' (h.trans a.manifest.chunkCount.toNat_lt)

/-- The map has one entry for each stored index, because every key is one. -/
theorem length_keys (a : AttachmentAssembler) : a.received.keys.length = a.present.card := by
  refine a.received.length_keys_eq_card ?_ fun k hk => ?_
  · intro i hi j hj hij
    rw [Finset.coe_range, Set.mem_Iio] at hi hj
    rw [← toNat_ofNat_of_lt hi, hij, toNat_ofNat_of_lt hj]
  · exact ⟨k.toNat, a.inRange k hk, UInt32.ofNat_toNat⟩

theorem card_present_le (a : AttachmentAssembler) : a.present.card ≤ a.total :=
  (Finset.card_filter_le _ _).trans_eq (Finset.card_range _)

@[simp] theorem toNat_receivedCount (a : AttachmentAssembler) :
    a.receivedCount.toNat = a.present.card := by
  rw [receivedCount, a.length_keys]
  exact UInt32.toNat_ofNat_of_lt'
    (a.card_present_le.trans_lt a.manifest.chunkCount.toNat_lt)

/-- Counting finds the assembly complete exactly when no index is missing. -/
theorem isComplete_iff (a : AttachmentAssembler) :
    a.isComplete = true ↔ ∀ i < a.total, UInt32.ofNat i ∈ a.received := by
  have hcount : a.isComplete = true ↔ a.receivedCount = a.manifest.chunkCount := beq_iff_eq
  rw [hcount, ← UInt32.toNat_inj, toNat_receivedCount, present, Slots.card_filter_range_eq_iff]

theorem isComplete_eq_false_iff (a : AttachmentAssembler) :
    a.isComplete = false ↔ ∃ i < a.total, UInt32.ofNat i ∉ a.received := by
  rw [← Bool.not_eq_true, isComplete_iff]
  simp only [not_forall, exists_prop]

/-- The two tests of the code agree, because the count cannot pass the announced number. -/
theorem receivedCount_lt_iff (a : AttachmentAssembler) :
    a.receivedCount < a.manifest.chunkCount ↔ a.isComplete = false := by
  have hle : a.present.card ≤ a.manifest.chunkCount.toNat := a.card_present_le
  have hcount : a.isComplete = true ↔ a.receivedCount = a.manifest.chunkCount := beq_iff_eq
  rw [← Bool.not_eq_true, hcount, ← UInt32.toNat_inj, UInt32.lt_iff_toNat_lt,
    toNat_receivedCount]
  omega

/-- With every index of the loop stored, only the length of the payload can stop it. -/
theorem appendChunks_eq (w : PointerWidth) (a : AttachmentAssembler) {indices : List ℕ}
    (hall : ∀ i ∈ indices, UInt32.ofNat i ∈ a.received) {start : Bytes}
    (hstart : start.length ≤ w.isizeMax) :
    a.appendChunks w indices start =
      if start.length + (a.contents indices).length ≤ w.isizeMax
      then some (start ++ a.contents indices) else none := by
  induction indices generalizing start with
  | nil => simp [appendChunks, contents, hstart]
  | cons i indices ih =>
      obtain ⟨data, hdata⟩ := Option.isSome_iff_exists.mp
        (AList.lookup_isSome.mpr (hall i (List.mem_cons_self ..)))
      have hcontents : a.contents (i :: indices) = data ++ a.contents indices := by
        simp only [contents, List.flatMap_cons, hdata, Option.getD_some]
      have hlength : (start ++ data).length = start.length + data.length := List.length_append
      simp only [appendChunks, hdata, extendFromSlice, hcontents, List.length_append]
      by_cases hfit : start.length + data.length ≤ w.isizeMax
      · rw [if_pos hfit, Option.bind_some, ih (fun j hj => hall j (List.mem_cons_of_mem i hj))
          (hlength.trans_le hfit), hlength, List.append_assoc, Nat.add_assoc]
      · rw [if_neg hfit, Option.bind_none, if_neg (by omega)]

variable [Sha256]

/-- A missing index is reported with the number of stored ones. -/
theorem assemble_of_missing (w : PointerWidth) {a : AttachmentAssembler}
    (h : a.isComplete = false) :
    a.assemble w = some (.error (.incomplete a.receivedCount a.manifest.chunkCount)) :=
  if_pos (a.receivedCount_lt_iff.mpr h)

/-- With no index missing, the allocations alone decide whether a result is returned. -/
theorem assemble_of_complete (w : PointerWidth) {a : AttachmentAssembler}
    (h : a.isComplete = true) :
    a.assemble w =
      if w.asUsize a.manifest.totalSize ≤ w.isizeMax ∧ a.payload.length ≤ w.isizeMax then
        some (if Sha256.digest a.payload ≠ a.manifest.sha256 then .error .hashMismatch
          else .ok a.payload)
      else none := by
  have hnlt : ¬a.receivedCount < a.manifest.chunkCount := by
    rw [receivedCount_lt_iff, h]
    exact Bool.noConfusion
  have hall (i : ℕ) (hi : i ∈ List.range a.total) : UInt32.ofNat i ∈ a.received :=
    a.isComplete_iff.mp h i (List.mem_range.mp hi)
  have hloop : a.appendChunks w (List.range a.total) [] =
      if a.payload.length ≤ w.isizeMax then some a.payload else none := by
    rw [appendChunks_eq w a hall (Nat.zero_le _), List.length_nil, Nat.zero_add,
      List.nil_append, payload]
  refine (if_neg hnlt).trans ?_
  by_cases hcap : w.asUsize a.manifest.totalSize ≤ w.isizeMax
  · rw [vecWithCapacity, if_pos hcap, Option.bind_some, hloop]
    by_cases hlen : a.payload.length ≤ w.isizeMax
    · rw [if_pos hlen, if_pos ⟨hcap, hlen⟩]
      rfl
    · rw [if_neg hlen, if_neg fun hboth => hlen hboth.2]
      rfl
  · rw [vecWithCapacity, if_neg hcap, if_neg fun hboth => hcap hboth.1]
    rfl

end AttachmentAssembler

end GroupProtocol
