import GroupProtocol.Text.Attachment

/-!
# Runs of an attachment assembler

What is stored after a list of pushes is the first chunk of each index in range. From this
follow the reassembly of a sent payload under any order and repetition of its chunks, the
effect of chunks of other attachments, and when assembling returns at all.
-/

namespace GroupProtocol

open Cbor

namespace AttachmentAssembler

theorem ofNat_lt_of_lt_toNat {n : UInt32} {i : ℕ} (h : i < n.toNat) : UInt32.ofNat i < n := by
  rw [UInt32.lt_iff_toNat_lt, UInt32.toNat_ofNat_of_lt' (h.trans n.toNat_lt)]
  exact h

/-- The assembler after one push. -/
def pushed (a : AttachmentAssembler) (chunk : AttachmentChunk) : AttachmentAssembler :=
  (a.push chunk).1

/-- The assembler of a manifest after a list of pushes. -/
def fed (manifest : AttachmentManifest) (chunks : List AttachmentChunk) : AttachmentAssembler :=
  Machine.run pushed (new manifest) chunks

@[ext] theorem ext {a b : AttachmentAssembler} (hmanifest : a.manifest = b.manifest)
    (hreceived : a.received = b.received) : a = b := by
  cases a
  cases b
  simp_all

theorem pushed_of_le {a : AttachmentAssembler} {chunk : AttachmentChunk}
    (h : a.manifest.chunkCount ≤ chunk.chunkIndex) : a.pushed chunk = a := by
  rw [pushed, push, dif_pos h]

theorem push_ok {a : AttachmentAssembler} {chunk : AttachmentChunk}
    (h : ¬a.manifest.chunkCount ≤ chunk.chunkIndex) : (a.push chunk).2 = .ok () := by
  rw [push, dif_neg h]

theorem received_pushed {a : AttachmentAssembler} {chunk : AttachmentChunk}
    (h : ¬a.manifest.chunkCount ≤ chunk.chunkIndex) :
    (a.pushed chunk).received = a.received.orInsert chunk.chunkIndex chunk.data := by
  rw [pushed, push, dif_neg h]

@[simp] theorem manifest_pushed (a : AttachmentAssembler) (chunk : AttachmentChunk) :
    (a.pushed chunk).manifest = a.manifest := by
  rw [pushed, push]
  split <;> rfl

@[simp] theorem manifest_run (a : AttachmentAssembler) (chunks : List AttachmentChunk) :
    (Machine.run pushed a chunks).manifest = a.manifest := by
  induction chunks generalizing a with
  | nil => rfl
  | cons chunk chunks ih => rw [Machine.run_cons, ih, manifest_pushed]

@[simp] theorem manifest_fed (manifest : AttachmentManifest) (chunks : List AttachmentChunk) :
    (fed manifest chunks).manifest = manifest :=
  manifest_run _ _

/-- The data of the first chunk with a given index. -/
def firstData (chunks : List AttachmentChunk) (i : UInt32) : Option Bytes :=
  (chunks.find? (·.chunkIndex == i)).map (·.data)

theorem firstData_cons (chunk : AttachmentChunk) (chunks : List AttachmentChunk) (i : UInt32) :
    firstData (chunk :: chunks) i =
      (if i = chunk.chunkIndex then some chunk.data else none).or (firstData chunks i) := by
  by_cases h : i = chunk.chunkIndex
  · subst h
    simp [firstData]
  · have hne : ¬chunk.chunkIndex = i := fun he => h he.symm
    simp [firstData, h, hne]

/-- An index in range holds what it held before, or else the first chunk that has it. -/
theorem lookup_run (a : AttachmentAssembler) (chunks : List AttachmentChunk) {i : UInt32}
    (hi : i < a.manifest.chunkCount) :
    (Machine.run pushed a chunks).received.lookup i =
      (a.received.lookup i).or (firstData chunks i) := by
  induction chunks generalizing a with
  | nil => simp [firstData]
  | cons chunk chunks ih =>
      have hnext := ih (a.pushed chunk) (by rw [manifest_pushed]; exact hi)
      rw [Machine.run_cons, hnext, firstData_cons, ← Option.or_assoc]
      by_cases hrange : a.manifest.chunkCount ≤ chunk.chunkIndex
      · have hne : ¬i = chunk.chunkIndex := by
          rintro rfl
          exact UInt32.not_le.mpr hi hrange
        rw [pushed_of_le hrange, if_neg hne, Option.or_none]
      · rw [received_pushed hrange, Slots.lookup_orInsert]

theorem lookup_fed (manifest : AttachmentManifest) (chunks : List AttachmentChunk) {i : UInt32}
    (hi : i < manifest.chunkCount) :
    (fed manifest chunks).received.lookup i = firstData chunks i := by
  rw [fed, lookup_run (new manifest) chunks hi, new, AList.lookup_empty, Option.none_or]

/-- An index in range is stored exactly when some pushed chunk has it. -/
theorem mem_fed {manifest : AttachmentManifest} {chunks : List AttachmentChunk} {i : UInt32}
    (hi : i < manifest.chunkCount) :
    i ∈ (fed manifest chunks).received ↔ ∃ chunk ∈ chunks, chunk.chunkIndex = i := by
  rw [← AList.lookup_isSome, lookup_fed manifest chunks hi, firstData, Option.isSome_map,
    List.find?_isSome]
  simp

/-! The chunks of one payload. -/

/-- The chunk of index `i` of a payload that is cut in the blocks `raw`. -/
def piece (attachmentId : UInt64) (raw : List Bytes) (i : Fin raw.length) : AttachmentChunk :=
  ⟨attachmentId, UInt32.ofNat i, UInt32.ofNat raw.length, raw.get i⟩

theorem chunkIndex_piece_inj {attachmentId : UInt64} {raw : List Bytes}
    (hraw : raw.length < 2 ^ 32) {i j : Fin raw.length} :
    UInt32.ofNat i = (piece attachmentId raw j).chunkIndex ↔ i = j := by
  have hi : (i : ℕ) < 2 ^ 32 := i.isLt.trans hraw
  have hj : (j : ℕ) < 2 ^ 32 := j.isLt.trans hraw
  rw [piece, ← UInt32.toNat_inj, UInt32.toNat_ofNat_of_lt' hi, UInt32.toNat_ofNat_of_lt' hj,
    Fin.ext_iff]

/-- Whatever the order and the repetitions, the first chunk of an index is the block there. -/
theorem firstData_pieces (attachmentId : UInt64) {raw : List Bytes} (hraw : raw.length < 2 ^ 32)
    (order : List (Fin raw.length)) (i : Fin raw.length) (data : Bytes) :
    firstData (order.map (piece attachmentId raw)) (UInt32.ofNat i) = some data ↔
      i ∈ order ∧ raw.get i = data := by
  induction order with
  | nil => simp [firstData]
  | cons j order ih =>
      rw [List.map_cons, firstData_cons, if_congr (chunkIndex_piece_inj hraw) rfl rfl]
      by_cases hij : i = j
      · subst hij
        simp [piece]
      · rw [if_neg hij, Option.none_or, ih, List.mem_cons, or_iff_right hij]

/-- Blocks that are looked up one by one give back the list they were cut from. -/
theorem flatMap_range_getD (raw : List Bytes) :
    (List.range raw.length).flatMap (fun i => raw[i]?.getD []) = raw.flatten := by
  induction raw with
  | nil => rfl
  | cons block raw ih =>
      rw [List.length_cons, List.range_succ_eq_map, List.flatMap_cons, List.flatMap_map,
        List.flatten_cons, ← ih]
      rfl

section Pieces

variable {manifest : AttachmentManifest} {raw : List Bytes} (hraw : raw.length < 2 ^ 32)
  (hcount : manifest.chunkCount = UInt32.ofNat raw.length) (attachmentId : UInt64)
  (order : List (Fin raw.length))

include hraw hcount

theorem chunkCount_pieces : manifest.chunkCount.toNat = raw.length := by
  rw [hcount, UInt32.toNat_ofNat_of_lt' hraw]

theorem ofNat_lt_chunkCount (i : Fin raw.length) : UInt32.ofNat i < manifest.chunkCount :=
  ofNat_lt_of_lt_toNat (i.isLt.trans_eq (chunkCount_pieces hraw hcount).symm)

theorem lookup_pieces (i : Fin raw.length) (data : Bytes) :
    (fed manifest (order.map (piece attachmentId raw))).received.lookup (UInt32.ofNat i) =
      some data ↔ i ∈ order ∧ raw.get i = data := by
  rw [lookup_fed manifest _ (ofNat_lt_chunkCount hraw hcount i),
    firstData_pieces attachmentId hraw order i data]

theorem mem_pieces (i : Fin raw.length) :
    UInt32.ofNat i ∈ (fed manifest (order.map (piece attachmentId raw))).received ↔
      i ∈ order := by
  rw [← AList.lookup_isSome, Option.isSome_iff_exists]
  simp only [lookup_pieces hraw hcount attachmentId order i, exists_and_left, exists_eq', and_true]

/-- Every push of a piece succeeds, whatever came before. -/
theorem along_pieces :
    Machine.Along pushed (fun a c => (a.push c).2 = .ok ()) (new manifest)
      (order.map (piece attachmentId raw)) := by
  refine Machine.along_iff.mpr fun earlier chunk later hsplit => push_ok ?_
  have hmem : chunk ∈ order.map (piece attachmentId raw) := by
    rw [hsplit]
    exact List.mem_append_right _ (List.mem_cons_self ..)
  obtain ⟨i, -, rfl⟩ := List.mem_map.mp hmem
  rw [manifest_run]
  exact UInt32.not_le.mpr (ofNat_lt_chunkCount hraw hcount i)

theorem isComplete_pieces :
    (fed manifest (order.map (piece attachmentId raw))).isComplete = true ↔
      ∀ i, i ∈ order := by
  rw [isComplete_iff]
  simp only [total, manifest_fed, chunkCount_pieces hraw hcount]
  constructor
  · intro h i
    exact (mem_pieces hraw hcount attachmentId order i).mp (h i i.isLt)
  · intro h i hi
    exact (mem_pieces hraw hcount attachmentId order ⟨i, hi⟩).mpr (h ⟨i, hi⟩)

/-- The stored indices are the distinct ones of the order. -/
theorem card_present_pieces :
    (fed manifest (order.map (piece attachmentId raw))).present.card = order.toFinset.card := by
  have himage : (fed manifest (order.map (piece attachmentId raw))).present =
      order.toFinset.image Fin.val := by
    ext i
    simp only [present, total, manifest_fed, chunkCount_pieces hraw hcount, Finset.mem_filter,
      Finset.mem_range, Finset.mem_image, List.mem_toFinset]
    constructor
    · rintro ⟨hi, hmem⟩
      exact ⟨⟨i, hi⟩, (mem_pieces hraw hcount attachmentId order ⟨i, hi⟩).mp hmem, rfl⟩
    · rintro ⟨j, hj, rfl⟩
      exact ⟨j.isLt, (mem_pieces hraw hcount attachmentId order j).mpr hj⟩
  rw [himage, Finset.card_image_of_injective _ fun _ _ => Fin.ext]

theorem payload_pieces (hall : ∀ i, i ∈ order) :
    (fed manifest (order.map (piece attachmentId raw))).payload = raw.flatten := by
  rw [payload, contents, total, manifest_fed, chunkCount_pieces hraw hcount,
    ← flatMap_range_getD raw]
  refine List.flatMap_congr fun i hi => ?_
  have hlt : i < raw.length := List.mem_range.mp hi
  rw [(lookup_pieces hraw hcount attachmentId order ⟨i, hlt⟩ _).mpr ⟨hall _, rfl⟩,
    List.getElem?_eq_getElem hlt]
  rfl

end Pieces

/-- Every encoded chunk of a sender decodes to the piece of its index. -/
theorem fromCbor_chunks [Sha256] [CborReader AttachmentChunk]
    (hcbor : CborReader.Lossless AttachmentChunk.entries) {w : PointerWidth}
    (attachmentId : UInt64) (filename mimeType : String) (data : ByteSlice w) (chunkSize : ℕ)
    {raw : List Bytes} (hraw : raw = data.bytes.toChunks (max chunkSize 1))
    (hlen : (AttachmentSender.new attachmentId filename mimeType data chunkSize).chunks.length =
      raw.length)
    (i : Fin (AttachmentSender.new attachmentId filename mimeType data chunkSize).chunks.length) :
    AttachmentChunk.fromCbor
        ((AttachmentSender.new attachmentId filename mimeType data chunkSize).chunks.get i) =
      .ok (piece attachmentId raw (i.cast hlen)) := by
  subst hraw
  have hget : (AttachmentSender.new attachmentId filename mimeType data chunkSize).chunks.get i =
      (piece attachmentId _ (i.cast hlen)).toCbor :=
    List.getElem_mapIdx (h := i.isLt)
  have hblock : (data.bytes.toChunks (max chunkSize 1)).get (i.cast hlen) ∈
      data.bytes.toChunks (max chunkSize 1) := List.get_mem _ _
  have hshort : (piece attachmentId _ (i.cast hlen)).data.length ≤ data.bytes.length := by
    have hle := (List.sublist_flatten_of_mem hblock).length_le
    rwa [flatten_toChunks] at hle
  rw [hget]
  refine AttachmentChunk.fromCbor_toCbor hcbor ?_
  exact hshort.trans_lt (data.bounded.trans_lt (w.isizeMax_lt.trans (by decide)))

/-- Attachments reassemble in any order: every push of a sent chunk succeeds, and once every
index was pushed `assemble` returns the payload; before that it counts the distinct indices. -/
theorem attachment_reassembles [Sha256] [CborReader AttachmentChunk]
    (hcbor : CborReader.Lossless AttachmentChunk.entries) {w : PointerWidth}
    (attachmentId : UInt64) (filename mimeType : String) (data : ByteSlice w) (chunkSize : ℕ)
    (hcount : (AttachmentSender.new attachmentId filename mimeType data chunkSize).chunks.length <
      2 ^ 32)
    (order :
      List (Fin (AttachmentSender.new attachmentId filename mimeType data chunkSize).chunks.length)) :
    let sender := AttachmentSender.new attachmentId filename mimeType data chunkSize
    ∃ chunks : List AttachmentChunk,
      order.map (fun i => AttachmentChunk.fromCbor (sender.chunks.get i)) = chunks.map .ok ∧
      Machine.Along pushed (fun a c => (a.push c).2 = .ok ()) (new sender.manifest) chunks ∧
      ((∀ i, i ∈ order) →
        (fed sender.manifest chunks).isComplete = true ∧
        (fed sender.manifest chunks).assemble w = some (.ok data.bytes)) ∧
      ((∃ i, i ∉ order) →
        (fed sender.manifest chunks).isComplete = false ∧
        ∃ received, (fed sender.manifest chunks).assemble w =
            some (.error (.incomplete received sender.manifest.chunkCount)) ∧
          received.toNat = order.toFinset.card) := by
  intro sender
  obtain ⟨raw, hraw⟩ : ∃ raw, raw = data.bytes.toChunks (max chunkSize 1) := ⟨_, rfl⟩
  have hlen : sender.chunks.length = raw.length := by
    simp [sender, AttachmentSender.new, hraw]
  have hraw32 : raw.length < 2 ^ 32 := by
    rw [← hlen]
    exact hcount
  have hchunkCount : sender.manifest.chunkCount = UInt32.ofNat raw.length := by
    simp [sender, AttachmentSender.new, hraw]
  have hflatten : raw.flatten = data.bytes := by
    rw [hraw, flatten_toChunks]
  -- The same order over the blocks of the payload.
  have hinj : Function.Injective (Fin.cast hlen) := by
    intro i j hij
    simpa [Fin.ext_iff] using hij
  have hmem (i : Fin sender.chunks.length) : i.cast hlen ∈ order.map (Fin.cast hlen) ↔ i ∈ order :=
    List.mem_map_of_injective hinj
  refine ⟨(order.map (Fin.cast hlen)).map (piece attachmentId raw), ?_,
    along_pieces hraw32 hchunkCount attachmentId _, ?_, ?_⟩
  · rw [List.map_map, List.map_map]
    exact List.map_congr_left fun i _ =>
      fromCbor_chunks hcbor attachmentId filename mimeType data chunkSize hraw hlen i
  · intro hall
    have hall' (i : Fin raw.length) : i ∈ order.map (Fin.cast hlen) :=
      (hmem (i.cast hlen.symm)).mpr (hall _)
    have hcomplete := (isComplete_pieces hraw32 hchunkCount attachmentId _).mpr hall'
    have hpayload := payload_pieces hraw32 hchunkCount attachmentId _ hall'
    refine ⟨hcomplete, ?_⟩
    rw [assemble_of_complete w hcomplete, hpayload, hflatten, manifest_fed, if_pos, if_neg]
    · exact not_not.mpr rfl
    · refine ⟨?_, data.bounded⟩
      exact (PointerWidth.asUsize_ofNat data.bounded).trans_le data.bounded
  · rintro ⟨i, hi⟩
    have hmissing : (fed sender.manifest
        ((order.map (Fin.cast hlen)).map (piece attachmentId raw))).isComplete = false := by
      rw [← Bool.not_eq_true, isComplete_pieces hraw32 hchunkCount attachmentId]
      exact fun hall => hi ((hmem i).mp (hall _))
    have hassemble := assemble_of_missing w hmissing
    rw [manifest_fed] at hassemble
    refine ⟨hmissing, _, hassemble, ?_⟩
    rw [toNat_receivedCount, card_present_pieces hraw32 hchunkCount attachmentId,
      Slots.card_toFinset_map hinj]

/-! Chunks of other attachments. -/

/-- The chunks that carry the identifier of the manifest. -/
def genuine (manifest : AttachmentManifest) (chunks : List AttachmentChunk) :
    List AttachmentChunk :=
  chunks.filter (·.attachmentId == manifest.attachmentId)

/-- Leaving out the chunks of other attachments changes neither answer. -/
def Undisturbed [Sha256] (w : PointerWidth) (manifest : AttachmentManifest)
    (chunks : List AttachmentChunk) : Prop :=
  (fed manifest chunks).isComplete = (fed manifest (genuine manifest chunks)).isComplete ∧
    (fed manifest chunks).assemble w = (fed manifest (genuine manifest chunks)).assemble w

theorem fed_append (manifest : AttachmentManifest) (chunks : List AttachmentChunk)
    (chunk : AttachmentChunk) :
    fed manifest (chunks ++ [chunk]) = (fed manifest chunks).pushed chunk := by
  rw [fed, Machine.run_append, fed]
  rfl

theorem genuine_append_own {manifest : AttachmentManifest} {chunk : AttachmentChunk}
    (h : chunk.attachmentId = manifest.attachmentId) (chunks : List AttachmentChunk) :
    genuine manifest (chunks ++ [chunk]) = genuine manifest chunks ++ [chunk] := by
  simp [genuine, h]

theorem genuine_append_foreign {manifest : AttachmentManifest} {chunk : AttachmentChunk}
    (h : chunk.attachmentId ≠ manifest.attachmentId) (chunks : List AttachmentChunk) :
    genuine manifest (chunks ++ [chunk]) = genuine manifest chunks := by
  simp [genuine, h]

/-- A chunk out of range or of a stored index is dropped. -/
theorem pushed_eq_self {a : AttachmentAssembler} {chunk : AttachmentChunk}
    (h : a.manifest.chunkCount ≤ chunk.chunkIndex ∨ chunk.chunkIndex ∈ a.received) :
    a.pushed chunk = a := by
  by_cases hrange : a.manifest.chunkCount ≤ chunk.chunkIndex
  · exact pushed_of_le hrange
  · refine ext (manifest_pushed a chunk) ?_
    rw [received_pushed hrange, Slots.orInsert_of_mem (h.resolve_left hrange)]

/-- A chunk that takes a slot is seen at once, through the count or through completeness. -/
theorem pushed_unseen_iff [Sha256] (w : PointerWidth) (a : AttachmentAssembler)
    (chunk : AttachmentChunk) :
    (a.pushed chunk).isComplete = a.isComplete ∧ (a.pushed chunk).assemble w = a.assemble w ↔
      a.manifest.chunkCount ≤ chunk.chunkIndex ∨ chunk.chunkIndex ∈ a.received := by
  constructor
  · rintro ⟨hcomplete, hassemble⟩
    by_contra hfresh
    obtain ⟨hrange, hnew⟩ := not_or.mp hfresh
    have hlt : chunk.chunkIndex < a.manifest.chunkCount := UInt32.not_le.mp hrange
    have hmissing : a.isComplete = false := by
      refine a.isComplete_eq_false_iff.mpr ⟨chunk.chunkIndex.toNat, hlt, ?_⟩
      rwa [UInt32.ofNat_toNat]
    rw [assemble_of_missing w hmissing, assemble_of_missing w (hcomplete.trans hmissing)] at hassemble
    have hcount : (a.pushed chunk).receivedCount = a.receivedCount := by
      injection hassemble with herror
      injection herror with hincomplete
      injection hincomplete
    have hcard : (a.pushed chunk).present.card = a.present.card := by
      rw [← toNat_receivedCount, hcount, toNat_receivedCount]
    have hgrows : (a.pushed chunk).present.card = a.present.card + 1 := by
      rw [← length_keys, ← length_keys, received_pushed hrange, Slots.length_keys_orInsert hnew]
    omega
  · intro h
    rw [pushed_eq_self h]
    exact ⟨rfl, rfl⟩

/-- At every point of a sequence of pushes the chunks of other attachments have left both
answers alone, exactly when each of them came for an index out of range or already stored. -/
theorem assembly_undisturbed_iff [Sha256] (w : PointerWidth) (manifest : AttachmentManifest)
    (chunks : List AttachmentChunk) :
    (∀ earlier, earlier <+: chunks → Undisturbed w manifest earlier) ↔
      Machine.Along pushed
        (fun a chunk => chunk.attachmentId ≠ manifest.attachmentId →
          manifest.chunkCount ≤ chunk.chunkIndex ∨ chunk.chunkIndex ∈ a.received)
        (new manifest) chunks := by
  -- Along the run the answers agree because the two assemblers are the same one.
  have hrun (past : List AttachmentChunk) (a : AttachmentAssembler)
      (ha : a = fed manifest past ∧ a = fed manifest (genuine manifest past)) :
      Undisturbed w manifest past := by
    rw [Undisturbed, ← ha.1, ← ha.2]
    exact ⟨rfl, rfl⟩
  refine Machine.prefix_property_iff
    (fun a past => a = fed manifest past ∧ a = fed manifest (genuine manifest past)) []
    ⟨rfl, rfl⟩ (fun a past => hrun past a) ?_ ?_
  · rintro a past chunk ⟨hfull, hown⟩
    have hmanifest : a.manifest = manifest := by rw [hfull, manifest_fed]
    by_cases hid : chunk.attachmentId = manifest.attachmentId
    · refine iff_of_true (hrun _ (a.pushed chunk) ⟨?_, ?_⟩) fun hne => absurd hid hne
      · rw [fed_append, ← hfull]
      · rw [genuine_append_own hid, fed_append, ← hown]
    · have hunseen := pushed_unseen_iff w a chunk
      rw [hmanifest] at hunseen
      rw [Undisturbed, genuine_append_foreign hid, fed_append, ← hfull, ← hown, hunseen]
      exact ⟨fun h _ => h, fun h => h hid⟩
  · rintro a past chunk ⟨hfull, hown⟩ hQ
    have hmanifest : a.manifest = manifest := by rw [hfull, manifest_fed]
    refine ⟨by rw [fed_append, ← hfull], ?_⟩
    by_cases hid : chunk.attachmentId = manifest.attachmentId
    · rw [genuine_append_own hid, fed_append, ← hown]
    · have hself : a.pushed chunk = a := pushed_eq_self (by rw [hmanifest]; exact hQ hid)
      rw [genuine_append_foreign hid, hself, hown]

/-! When assembling returns. -/

/-- The bytes of the first pushed chunks of the indices below `n`. -/
def pushedSize (chunks : List AttachmentChunk) (n : ℕ) : ℕ :=
  ((List.range n).map fun i => ((firstData chunks (UInt32.ofNat i)).getD []).length).sum

theorem length_payload_fed (manifest : AttachmentManifest) (chunks : List AttachmentChunk) :
    (fed manifest chunks).payload.length = pushedSize chunks manifest.chunkCount.toNat := by
  rw [payload, contents, total, manifest_fed, List.length_flatMap, pushedSize]
  refine congrArg List.sum (List.map_congr_left fun i hi => ?_)
  rw [lookup_fed manifest chunks (ofNat_lt_of_lt_toNat (List.mem_range.mp hi))]

/-- Some index below the number of chunks was never pushed. -/
def Lacks (manifest : AttachmentManifest) (chunks : List AttachmentChunk) : Prop :=
  ∃ i < manifest.chunkCount, ∀ chunk ∈ chunks, chunk.chunkIndex ≠ i

theorem isComplete_fed_iff (manifest : AttachmentManifest) (chunks : List AttachmentChunk) :
    (fed manifest chunks).isComplete = false ↔ Lacks manifest chunks := by
  rw [isComplete_eq_false_iff, total, manifest_fed]
  constructor
  · rintro ⟨i, hi, hmem⟩
    have hindex := ofNat_lt_of_lt_toNat hi
    refine ⟨UInt32.ofNat i, hindex, fun chunk hchunk heq => hmem ?_⟩
    exact (mem_fed hindex).mpr ⟨chunk, hchunk, heq⟩
  · rintro ⟨i, hi, hnone⟩
    refine ⟨i.toNat, hi, ?_⟩
    rw [UInt32.ofNat_toNat, mem_fed hi]
    rintro ⟨chunk, hchunk, heq⟩
    exact hnone chunk hchunk heq

/-- `assemble` returns, with every index stored and the requested capacity allowed whenever the
completeness test passes, exactly when an index was never pushed, or the announced size and the
size of the pushed chunks both fit an allocation. -/
theorem assemble_returns_iff [Sha256] (w : PointerWidth) (manifest : AttachmentManifest)
    (chunks : List AttachmentChunk) :
    (((fed manifest chunks).assemble w).isSome = true ∧
      ((fed manifest chunks).isComplete = true →
        (∀ i < manifest.chunkCount, i ∈ (fed manifest chunks).received) ∧
        w.asUsize manifest.totalSize ≤ w.isizeMax)) ↔
      Lacks manifest chunks ∨
        w.asUsize manifest.totalSize ≤ w.isizeMax ∧
        pushedSize chunks manifest.chunkCount.toNat ≤ w.isizeMax := by
  cases hcomplete : (fed manifest chunks).isComplete with
  | false =>
      refine iff_of_true ⟨?_, fun h => absurd h Bool.false_ne_true⟩
        (.inl ((isComplete_fed_iff manifest chunks).mp hcomplete))
      rw [assemble_of_missing w hcomplete]
      rfl
  | true =>
      have hlacks : ¬Lacks manifest chunks := by
        rw [← isComplete_fed_iff, hcomplete]
        exact Bool.noConfusion
      have hall (i : UInt32) (hi : i < manifest.chunkCount) :
          i ∈ (fed manifest chunks).received := by
        have hmem := (isComplete_iff _).mp hcomplete i.toNat (by rw [total, manifest_fed]; exact hi)
        rwa [UInt32.ofNat_toNat] at hmem
      rw [assemble_of_complete w hcomplete, length_payload_fed, manifest_fed, or_iff_right hlacks]
      constructor
      · rintro ⟨hsome, -⟩
        by_contra hno
        rw [if_neg hno] at hsome
        cases hsome
      · intro hfit
        rw [if_pos hfit]
        exact ⟨rfl, fun _ => ⟨hall, hfit.1⟩⟩

end AttachmentAssembler

/-! Flat CBOR readers and two digests, for closed runs. -/

/-- Read the fields of a chunk. -/
def AttachmentChunk.ofEntries (es : List (Value × Value)) : Option AttachmentChunk := do
  let attachmentId ← uintField es ['a', 'i', 'd'] (2 ^ 64)
  let chunkIndex ← uintField es ['i', 'd', 'x'] (2 ^ 32)
  let chunkCount ← uintField es ['n', 'c'] (2 ^ 32)
  let data ← bytesField es ['d', 'a', 't', 'a']
  return ⟨attachmentId, chunkIndex.toUInt32, chunkCount.toUInt32, data⟩

instance : CborReader AttachmentChunk := ⟨readStruct AttachmentChunk.ofEntries⟩

theorem AttachmentChunk.cborLossless : CborReader.Lossless AttachmentChunk.entries := by
  refine CborReader.lossless_of_entries (fun c => by simp [entries]) fun c => ?_
  have h32 (n : UInt32) : n.toUInt64.toNat < 2 ^ 32 := n.toNat_lt
  have haid : field c.entries ['a', 'i', 'd'] = some (.uint c.attachmentId) := rfl
  have hidx : field c.entries ['i', 'd', 'x'] = some (.uint c.chunkIndex.toUInt64) := rfl
  have hnc : field c.entries ['n', 'c'] = some (.uint c.chunkCount.toUInt64) := rfl
  have hdata : field c.entries ['d', 'a', 't', 'a'] = some (.bytes c.data) := rfl
  simp only [ofEntries, uintField, bytesField, haid, hidx, hnc, hdata, h32,
    c.attachmentId.toNat_lt, if_true]
  simp

/-- A text field that holds valid UTF-8. -/
def textField (es : List (Value × Value)) (key : List Char) : Option String :=
  match field es key with
  | some (.text b) => String.fromUTF8? ⟨b.toArray⟩
  | _ => none

/-- Read the fields of a manifest. -/
def AttachmentManifest.ofEntries (es : List (Value × Value)) : Option AttachmentManifest := do
  let attachmentId ← uintField es ['a', 'i', 'd'] (2 ^ 64)
  let filename ← textField es ['n', 'a', 'm', 'e']
  let mimeType ← textField es ['m', 'i', 'm', 'e']
  let totalSize ← uintField es ['s', 'i', 'z', 'e'] (2 ^ 64)
  let chunkCount ← uintField es ['n', 'c'] (2 ^ 32)
  let sha256 ← bytesField es ['h', 'a', 's', 'h']
  return ⟨attachmentId, filename, mimeType, totalSize, chunkCount.toUInt32, sha256⟩

instance : CborReader AttachmentManifest := ⟨readStruct AttachmentManifest.ofEntries⟩

/-- The digests of `abc` and of `xyc`. -/
instance : Sha256 where
  digest data :=
    if data = [97, 98, 99] then
      [186, 120, 22, 191, 143, 1, 207, 234, 65, 65, 64, 222, 93, 174, 34, 35, 176, 3, 97, 163,
        150, 23, 122, 156, 180, 16, 255, 97, 242, 0, 21, 173]
    else if data = [120, 121, 99] then
      [173, 107, 96, 193, 172, 46, 61, 149, 130, 139, 136, 103, 62, 109, 34, 195, 17, 201, 33,
        249, 96, 111, 8, 188, 41, 103, 191, 189, 17, 122, 154, 67]
    else []

/-- The payload `abc`, cut in two chunks. -/
def abcSender : AttachmentSender :=
  AttachmentSender.new (w := .w64) 7 "a.txt" "text/plain" ⟨[97, 98, 99], by decide⟩ 2

/-- The chunks of `abc` pushed last first, with a repetition. -/
theorem attachment_reassembles_reversed :
    ∃ chunks : List AttachmentChunk,
      [1, 0, 1].map (fun i => AttachmentChunk.fromCbor (abcSender.chunks[i]?.getD [])) =
        chunks.map .ok ∧
      (AttachmentAssembler.fed abcSender.manifest chunks).assemble .w64 =
        some (.ok [97, 98, 99]) := by
  have hlen : abcSender.chunks.length = 2 := by decide +kernel
  have h := AttachmentAssembler.attachment_reassembles AttachmentChunk.cborLossless (w := .w64) 7
    "a.txt" "text/plain" ⟨[97, 98, 99], by decide⟩ 2 (by decide +kernel)
    [⟨1, by decide +kernel⟩, ⟨0, by decide +kernel⟩, ⟨1, by decide +kernel⟩]
  obtain ⟨chunks, hdecode, -, hall, -⟩ := h
  refine ⟨chunks, ?_, (hall fun i => ?_).2⟩
  · rw [← hdecode]
    decide +kernel
  · have hi : (i : ℕ) < 2 := i.isLt.trans_eq hlen
    obtain hzero | hone : (i : ℕ) = 0 ∨ (i : ℕ) = 1 := by omega
    · exact List.mem_cons_of_mem _ (List.mem_cons.mpr (.inl (Fin.ext hzero)))
    · exact List.mem_cons.mpr (.inl (Fin.ext hone))

/-- A chunk of attachment 8 that comes first for index 0 makes the digest of attachment 7 fail,
although all its own chunks arrive. -/
theorem foreign_chunk_disturbs :
    let own : List AttachmentChunk := [⟨7, 0, 2, [97, 98]⟩, ⟨7, 1, 2, [99]⟩]
    let chunks := ⟨8, 0, 2, [120, 121]⟩ :: own
    AttachmentAssembler.genuine abcSender.manifest chunks = own ∧
      (AttachmentAssembler.fed abcSender.manifest own).assemble .w64 =
        some (.ok [97, 98, 99]) ∧
      (AttachmentAssembler.fed abcSender.manifest chunks).assemble .w64 =
        some (.error .hashMismatch) ∧
      ¬AttachmentAssembler.Undisturbed .w64 abcSender.manifest chunks := by
  intro own chunks
  have hgenuine : AttachmentAssembler.genuine abcSender.manifest chunks = own := by
    decide +kernel
  have hown : (AttachmentAssembler.fed abcSender.manifest own).assemble .w64 =
      some (.ok [97, 98, 99]) := by decide +kernel
  have hall : (AttachmentAssembler.fed abcSender.manifest chunks).assemble .w64 =
      some (.error .hashMismatch) := by decide +kernel
  refine ⟨hgenuine, hown, hall, fun h => ?_⟩
  have hsame := h.2
  rw [hgenuine, hown, hall] at hsame
  cases hsame

/-- A manifest with no chunks and a size of `2 ^ 63` decodes, and assembling it panics. -/
theorem assemble_panics_on_size :
    let manifest : AttachmentManifest := ⟨1, "a", "b", 9223372036854775808, 0, []⟩
    AttachmentManifest.fromCbor manifest.toCbor = .ok manifest ∧
      (AttachmentAssembler.fed manifest []).isComplete = true ∧
      (AttachmentAssembler.fed manifest []).assemble .w64 = none := by
  refine ⟨?_, ?_, ?_⟩ <;> decide +kernel

end GroupProtocol
