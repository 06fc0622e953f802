import GroupProtocol.Base.Serde
import GroupProtocol.Lib.Words
import GroupProtocol.Node.Context

/-!
# Stream identifiers of members

A member's stream id is its class base plus a hundred times its member id, in words of
thirty-two bits. Receivers keep one mark for each stream class and stream id, so members
are kept apart exactly as far as their stream ids are. Only a debug assertion bounds the
member id.
-/

namespace GroupProtocol

namespace GroupNode

theorem toNat_memberStreamId (n : GroupNode) (base : UInt32) :
    (n.memberStreamId base).toNat = (base.toNat + n.memberId.toNat * 100) % 2 ^ 32 := by
  simp only [memberStreamId, UInt32.toNat_add, UInt32.toNat_mul, UInt32.reduceToNat]
  omega

/-- Two members share a stream id when they use one base and their ids agree in the low
thirty bits. -/
theorem memberStreamId_eq_iff (n m : GroupNode) {x y : UInt32} (hx : x ≤ 3) (hy : y ≤ 3) :
    n.memberStreamId x = m.memberStreamId y ↔
      n.memberId.toNat % 2 ^ 30 = m.memberId.toNat % 2 ^ 30 ∧ x = y := by
  -- a hundred is four times an odd number, and the bases are below four
  have hstride (id : ℕ) : id * 100 = 4 * (25 * id) := by omega
  rw [← UInt32.toNat_inj, ← UInt32.toNat_inj, toNat_memberStreamId, toNat_memberStreamId,
    hstride, hstride]
  exact Words.strided_modEq_iff (d := 4) (c := 25) (m := 2 ^ 30) (by decide)
    (Nat.lt_succ_of_le hx) (Nat.lt_succ_of_le hy)

/-- The stream id of a small base is computed without overflow up to this member id. -/
theorem memberStreamId_exact_iff (n : GroupNode) {base : UInt32} (hbase : base ≤ 3) :
    (n.memberStreamId base).toNat = base.toNat + n.memberId.toNat * 100 ↔
      n.memberId ≤ 42949672 := by
  rw [toNat_memberStreamId, UInt32.le_iff_toNat_le]
  have hbase : base.toNat ≤ 3 := hbase
  have hid := n.memberId.toNat_lt
  simp only [UInt32.reduceToNat]
  omega

section Marks

variable [Ciborium] {S : Type}

/-- Whatever a call admits comes on one stream id. -/
def AdmitsOnly (sid : StreamId) (n : GroupNode) (x : TimedCall S) : Prop :=
  ∀ a ∈ n.acceptance x, a.key.2 = sid

variable [Sealer S]

/-- A call that admits frames of one stream id raises no mark of another. -/
theorem step_mark_le {n : GroupNode} {x : TimedCall S} {sid : StreamId}
    (hx : n.AdmitsOnly sid x) {key : StreamKey} (hkey : key.2 ≠ sid) :
    (n.step x).inHw.read key ≤ n.inHw.read key := by
  rw [step_window]
  split
  · rw [recorded]
    cases ha : n.acceptance x with
    | none => exact UInt32.le_refl _
    | some a =>
        have hne : key ≠ a.key := by
          intro he
          exact hkey (he ▸ hx a ha)
        rw [Option.elim_some, Counters.read_insert_ne _ _ hne]
        exact UInt32.le_refl _
  · rw [Counters.read_empty]
    exact UInt32.zero_le

/-- A run that admits frames of one stream id raises no mark of another. -/
theorem run_mark_le {n : GroupNode} {xs : List (TimedCall S)} {sid : StreamId}
    (hxs : Machine.Along step (AdmitsOnly sid) n xs) {key : StreamKey} (hkey : key.2 ≠ sid) :
    (Machine.run step n xs).inHw.read key ≤ n.inHw.read key := by
  have hkeeps : ∀ (t : GroupNode) (x : TimedCall S), t.AdmitsOnly sid x →
      t.inHw.read key ≤ n.inHw.read key → (t.step x).inHw.read key ≤ n.inHw.read key := by
    intro t x hx ht
    exact UInt32.le_trans (step_mark_le hx hkey) ht
  exact hxs.invariant (UInt32.le_refl _) hkeeps

end Marks

/-- The stream ids of two members within two classes identify them: both are computed
without overflow, they are equal for one member and base only, and at every receiver the
frames of the first stream leave the marks of the second alone. -/
structure StreamsIdentify [Ciborium] (S : Type) [Sealer S] (n m : GroupNode)
    (x y : UInt32) : Prop where
  exact_left : (n.memberStreamId x).toNat = x.toNat + n.memberId.toNat * 100
  exact_right : (m.memberStreamId y).toNat = y.toNat + m.memberId.toNat * 100
  distinct : n.memberStreamId x = m.memberStreamId y → n.memberId = m.memberId ∧ x = y
  apart : ¬(n.memberId = m.memberId ∧ x = y) →
    ∀ (receiver : GroupNode) (xs : List (TimedCall S)),
      Machine.Along step (AdmitsOnly (n.memberStreamId x)) receiver xs →
        ∀ st, (Machine.run step receiver xs).inHw.read (st, m.memberStreamId y) ≤
          receiver.inHw.read (st, m.memberStreamId y)

/-- For all members and bases, the stream ids identify the members exactly when no product
overflows. -/
theorem streamsIdentify_iff [Ciborium] (S : Type) [Sealer S] (n m : GroupNode) {x y : UInt32}
    (hx : x ≤ 3) (hy : y ≤ 3) :
    StreamsIdentify S n m x y ↔ n.memberId ≤ 42949672 ∧ m.memberId ≤ 42949672 := by
  constructor
  · intro h
    exact ⟨(n.memberStreamId_exact_iff hx).mp h.exact_left,
      (m.memberStreamId_exact_iff hy).mp h.exact_right⟩
  · rintro ⟨hn, hm⟩
    have hdistinct : n.memberStreamId x = m.memberStreamId y → n.memberId = m.memberId ∧ x = y := by
      intro he
      obtain ⟨hid, hbase⟩ := (memberStreamId_eq_iff n m hx hy).mp he
      have hn : n.memberId.toNat ≤ 42949672 := hn
      have hm : m.memberId.toNat ≤ 42949672 := hm
      refine ⟨UInt32.toNat_inj.mp ?_, hbase⟩
      omega
    refine ⟨(n.memberStreamId_exact_iff hx).mpr hn, (m.memberStreamId_exact_iff hy).mpr hm,
      hdistinct, ?_⟩
    intro hne receiver xs hxs st
    exact run_mark_le hxs fun he => hne (hdistinct he.symm)

/-- Members 7 and 8 are told apart in the text and audio classes. -/
theorem streamsIdentify_iff_small :
    StreamsIdentify PlainSealer (new 7 (Vector.replicate 16 0)) (new 8 (Vector.replicate 16 0))
      1 2 :=
  (streamsIdentify_iff PlainSealer (new 7 (Vector.replicate 16 0))
    (new 8 (Vector.replicate 16 0)) (by decide) (by decide)).mpr ⟨by decide, by decide⟩

section SharedStream

/-- A member of a group in its first epoch. -/
def talker (id : MemberId) : GroupNode :=
  (new id (Vector.replicate 16 0)).bootstrapAsCreator 0

/-- The arrival of a text that a member sends on its own stream. -/
def textOf (id : MemberId) (text : Bytes) : List (TimedCall PlainSealer) :=
  match ((talker id).sendPayload PlainSealer.plain 2 .text ((talker id).memberStreamId 1)
      GbpFlags.orderedReliableAck text .cbor).1 with
  | .ok frame => [⟨0, .onWire .plain frame.wire⟩]
  | .error _ => []

/-- Members 7 and 2 ^ 30 + 7 have one stream id. Both send a first text, and a receiver that
has the text of the first member drops the text of the second. -/
theorem members_share_stream :
    (talker 7).memberStreamId 1 = (talker 1073741831).memberStreamId 1 ∧
    ¬StreamsIdentify PlainSealer (talker 7) (talker 1073741831) 1 1 ∧
    ((textOf 1073741831 [98]).map (talker 2).surfaced) =
      [[.payloadReceived ⟨.text, 701, 1, GbpFlags.orderedReliableAck, [98], .cbor⟩]] ∧
    (textOf 1073741831 [98]).map
      (Machine.run step (talker 2) (textOf 7 [97])).surfaced = [[]] := by
  refine ⟨by decide, ?_, by decide +kernel, by decide +kernel⟩
  intro h
  obtain ⟨hid, -⟩ := h.distinct (by decide)
  exact absurd hid (by decide)

end SharedStream

end GroupNode

end GroupProtocol
