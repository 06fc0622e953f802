import GroupProtocol.Lib.Prefixed
import GroupProtocol.Node.Inversion

/-!
# The blob of the outbound counters

A node exports its send counters as a count and one record of nine bytes for each stream, in
whatever order its hash map yields them. Restoring reads records one by one and inserts each
before it looks at the next. A blob is therefore applied up to its first unreadable record, and
a record replaces the counter it names, whichever of the two is larger.
-/

namespace GroupProtocol

/-- A stream with its counter. -/
abbrev CounterEntry := Σ _ : StreamKey, SequenceNo

namespace Counters

/-- Insert entries one after the other. -/
def insertAll (m : Counters StreamKey SequenceNo) (entries : List CounterEntry) :
    Counters StreamKey SequenceNo :=
  entries.foldl (fun m entry => m.insert entry.1 entry.2) m

/-- The last entry of a key decides; a key without one keeps its counter. -/
theorem lookup_insertAll (m : Counters StreamKey SequenceNo) (entries : List CounterEntry)
    (k : StreamKey) :
    (m.insertAll entries).lookup k = (entries.reverse.dlookup k).or (m.lookup k) := by
  induction entries using List.reverseRecOn with
  | nil => rfl
  | append_singleton entries entry ih =>
      obtain ⟨key, seq⟩ := entry
      have hlast : m.insertAll (entries ++ [⟨key, seq⟩]) = (m.insertAll entries).insert key seq :=
        List.foldl_append
      rw [hlast, lookup_insert_ite, ih, List.reverse_append, List.reverse_singleton,
        List.singleton_append]
      by_cases h : k = key
      · subst h
        rw [if_pos rfl, List.dlookup_cons_eq, Option.some_or]
      · rw [if_neg h, List.dlookup_cons_ne _ _ h]

end Counters

namespace GroupNode

/-- The record of one stream. -/
def exportRecord (entry : CounterEntry) : Bytes :=
  entry.1.1.asU8 :: leBytes 4 entry.1.2.toNat ++ leBytes 4 entry.2.toNat

/-- The count and the records of the entries of a counter map. Only the low thirty-two bits of the
count are written. -/
def exportEntries (entries : List CounterEntry) : Bytes :=
  leBytes 4 entries.length ++ entries.flatMap exportRecord

/-- Serialise the outbound counters, in the order the map is iterated in. -/
def exportOutSeq (n : GroupNode) (iter : Counters StreamKey SequenceNo → List CounterEntry) :
    Bytes := exportEntries (iter n.outSeq)

/-- An iteration order yields every entry once. -/
def Iterates (iter : Counters StreamKey SequenceNo → List CounterEntry) : Prop :=
  ∀ m, (iter m).Perm m.entries

/-- The blob is the export of some counter map in some order. -/
def Exported (bytes : Bytes) : Prop :=
  ∃ (m : Counters StreamKey SequenceNo) (entries : List CounterEntry),
    entries.Perm m.entries ∧ bytes = exportEntries entries

/-- Up to `count` records, as far as they can be read. -/
def leadingRecords (count : ℕ) (cur : Bytes) : List CounterEntry :=
  match count with
  | 0 => []
  | count + 1 =>
    match cur with
    | t :: a0 :: a1 :: a2 :: a3 :: b0 :: b1 :: b2 :: b3 :: rest =>
      match StreamType.tryFrom t.toUInt32 with
      | .error _ => []
      | .ok st =>
        ⟨(st, u32FromLe a0 a1 a2 a3), u32FromLe b0 b1 b2 b3⟩ :: leadingRecords count rest
    | _ => []

/-- The records of a blob before the first one that is short or unknown. -/
def readable : Bytes → List CounterEntry
  | c0 :: c1 :: c2 :: c3 :: cur => leadingRecords (u32FromLe c0 c1 c2 c3).toNat cur
  | _ => []

theorem restoreRecords_eq (count : ℕ) (cur : Bytes) (m : Counters StreamKey SequenceNo) :
    restoreRecords count cur m = m.insertAll (leadingRecords count cur) := by
  fun_induction restoreRecords count cur m with
  | case1 => rfl
  | case2 m count t a0 a1 a2 a3 b0 b1 b2 b3 rest e he =>
      simp only [leadingRecords, he]
      rfl
  | case3 m count t a0 a1 a2 a3 b0 b1 b2 b3 rest st he ih =>
      simp only [leadingRecords, he]
      exact ih
  | case4 m count cur hshort =>
      unfold leadingRecords
      split
      · exact absurd rfl (hshort _ _ _ _ _ _ _ _ _ _)
      · rfl

/-- Restoring inserts the readable records and touches nothing else. -/
theorem restoreOutSeq_eq (n : GroupNode) : (bytes : Bytes) →
    n.restoreOutSeq bytes = { n with outSeq := n.outSeq.insertAll (readable bytes) }
  | c0 :: c1 :: c2 :: c3 :: cur => by simp only [restoreOutSeq, readable, restoreRecords_eq]
  | [] | [_] | [_, _] | [_, _, _] => rfl

/-! An exported blob is read back entry by entry. -/

/-- Four little-endian bytes are read back as the word they were written from. -/
theorem leBytes_four (w : UInt32) :
    ∃ b0 b1 b2 b3, leBytes 4 w.toNat = [b0, b1, b2, b3] ∧ u32FromLe b0 b1 b2 b3 = w := by
  refine ⟨_, _, _, _, rfl, ?_⟩
  apply UInt32.toNat_inj.mp
  have hw := w.toNat_lt
  simp only [u32FromLe, UInt32.toNat_ofNat', UInt8.toNat_ofNat']
  omega

theorem leadingRecords_export (entries : List CounterEntry) (rest : Bytes) :
    leadingRecords entries.length (entries.flatMap exportRecord ++ rest) = entries := by
  induction entries with
  | nil => rfl
  | cons entry entries ih =>
      obtain ⟨⟨st, sid⟩, seq⟩ := entry
      obtain ⟨a0, a1, a2, a3, ha, hsid⟩ := leBytes_four sid
      obtain ⟨b0, b1, b2, b3, hb, hseq⟩ := leBytes_four seq
      rw [List.flatMap_cons, exportRecord, ha, hb, List.append_assoc]
      simp only [List.length_cons, List.cons_append, List.nil_append, leadingRecords,
        StreamType.tryFrom_asU8, hsid, hseq, ih]

/-- Below the limit of its count a blob yields the entries it was made from. -/
theorem readable_exportEntries {entries : List CounterEntry} (h : entries.length < 2 ^ 32) :
    readable (exportEntries entries) = entries := by
  have hcount : (UInt32.ofNat entries.length).toNat = entries.length :=
    UInt32.toNat_ofNat_of_lt' h
  obtain ⟨c0, c1, c2, c3, hc, hword⟩ := leBytes_four (UInt32.ofNat entries.length)
  rw [hcount] at hc
  rw [exportEntries, hc]
  simp only [List.cons_append, List.nil_append, readable, hword, hcount]
  have hread := leadingRecords_export entries []
  rwa [List.append_nil] at hread

/-- A node without counters takes over the counters it restores. -/
theorem restoreOutSeq_exportOutSeq {iter : Counters StreamKey SequenceNo → List CounterEntry}
    (hiter : Iterates iter) {n m : GroupNode} (hstreams : n.outSeq.entries.length < 2 ^ 32)
    (hfresh : m.outSeq = ∅) (k : StreamKey) :
    (m.restoreOutSeq (n.exportOutSeq iter)).outSeq.lookup k = n.outSeq.lookup k := by
  have hperm := hiter n.outSeq
  have hlen : (iter n.outSeq).length < 2 ^ 32 := by rwa [hperm.length_eq]
  have hback : (iter n.outSeq).reverse.Perm n.outSeq.entries := (List.reverse_perm _).trans hperm
  rw [restoreOutSeq_eq, exportOutSeq, readable_exportEntries hlen]
  dsimp only
  rw [Counters.lookup_insertAll, hfresh, AList.lookup_empty, Option.or_none,
    List.perm_dlookup k ((List.perm_nodupKeys hback).mpr n.outSeq.nodupKeys) hback]
  rfl

/-! Damaged and stale blobs. -/

/-- The counter a blob writes for a stream: that of its last readable record for it. -/
def written (bytes : Bytes) (k : StreamKey) : Option SequenceNo := (readable bytes).reverse.dlookup k

theorem lookup_restoreOutSeq (n : GroupNode) (bytes : Bytes) (k : StreamKey) :
    (n.restoreOutSeq bytes).outSeq.lookup k = (written bytes k).or (n.outSeq.lookup k) := by
  rw [restoreOutSeq_eq]
  exact Counters.lookup_insertAll ..

theorem read_restoreOutSeq (n : GroupNode) (bytes : Bytes) (k : StreamKey) :
    (n.restoreOutSeq bytes).outSeq.read k = (written bytes k).getD (n.outSeq.read k) := by
  rw [Counters.read, lookup_restoreOutSeq]
  cases written bytes k with
  | none => rfl
  | some v => rfl

/-- Restoring a blob is safe for a node: a blob that no export produces leaves every counter as it
is, and no blob lowers one. -/
structure RestoresSafely (n : GroupNode) (bytes : Bytes) : Prop where
  ignored : ¬ Exported bytes →
    ∀ k, (n.restoreOutSeq bytes).outSeq.lookup k = n.outSeq.lookup k
  raised : ∀ k, n.outSeq.read k ≤ (n.restoreOutSeq bytes).outSeq.read k

/-- Restoring a blob is safe exactly when the node already holds every counter that can be read from
a malformed one, and none that can be read is below the node's. -/
theorem restores_safely_iff (n : GroupNode) (bytes : Bytes) :
    RestoresSafely n bytes ↔
      (Exported bytes ∨ ∀ k v, written bytes k = some v → n.outSeq.lookup k = some v) ∧
        ∀ k v, written bytes k = some v → n.outSeq.read k ≤ v := by
  constructor
  · rintro ⟨hignored, hraised⟩
    refine ⟨?_, fun k v hv => ?_⟩
    · by_cases hexported : Exported bytes
      · exact Or.inl hexported
      · refine Or.inr fun k v hv => ?_
        have hsame := hignored hexported k
        rw [lookup_restoreOutSeq, hv, Option.some_or] at hsame
        exact hsame.symm
    · have hle := hraised k
      rw [read_restoreOutSeq, hv] at hle
      exact hle
  · rintro ⟨hheld, habove⟩
    refine ⟨fun hdamaged k => ?_, fun k => ?_⟩
    · rw [lookup_restoreOutSeq]
      cases hv : written bytes k with
      | none => rfl
      | some v => exact ((hheld.resolve_left hdamaged) k v hv).symm
    · rw [read_restoreOutSeq]
      cases hv : written bytes k with
      | none => exact UInt32.le_refl _
      | some v => exact habove k v hv

/-- The length of an exported blob is that of its records. -/
theorem length_exportEntries (entries : List CounterEntry) :
    (exportEntries entries).length = 4 + 9 * entries.length := by
  have hrecords : (entries.flatMap exportRecord).length = 9 * entries.length := by
    induction entries with
    | nil => rfl
    | cons entry entries ih =>
        rw [List.flatMap_cons, List.length_append, ih, exportRecord, List.length_append,
          List.length_cons, length_leBytes, length_leBytes, List.length_cons]
        omega
  rw [exportEntries, List.length_append, length_leBytes, hrecords]

/-- A blob that announces two records and breaks off after the first one: stream 101 of the texts
with number three. -/
def tornBlob : Bytes := [2, 0, 0, 0, 2, 101, 0, 0, 0, 3, 0, 0, 0]

/-- A node that has sent five texts takes over the number three from a torn blob. -/
theorem torn_blob_lowers_counter :
    let n := { new 1 (Vector.replicate 16 0) with outSeq := AList.singleton (.text, 101) 5 }
    ¬ Exported tornBlob ∧ n.outSeq.read (.text, 101) = 5 ∧
      (n.restoreOutSeq tornBlob).outSeq.read (.text, 101) = 3 := by
  intro n
  refine ⟨?_, by decide, by decide⟩
  rintro ⟨m, entries, -, heq⟩
  have hlen : entries.length = 1 := by
    have := congrArg List.length heq
    rw [length_exportEntries] at this
    have htorn : tornBlob.length = 13 := rfl
    omega
  have hhead : tornBlob.take 4 = leBytes 4 1 := by
    rw [heq, exportEntries, hlen]
    exact List.take_left' (length_leBytes 4 1)
  exact absurd hhead (by decide)

end GroupNode

end GroupProtocol
