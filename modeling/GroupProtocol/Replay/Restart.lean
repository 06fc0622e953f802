import GroupProtocol.Base.Serde
import GroupProtocol.Lib.Words
import GroupProtocol.Lifecycle.Failed
import GroupProtocol.Node.OutSeq

/-!
# Restarting a sender

A node that is rebuilt after a restart takes its send counters from the blob the old node
exported. The old node used the numbers of each stream in order, so the rebuilt node goes on where
the old one stopped, above every mark its peers have recorded.
-/

namespace GroupProtocol

/-- The calls that send. -/
def NodeCall.isOutbound {S : Type} : NodeCall S → Bool
  | .sendPayload .. => true
  | .sendControl .. => true
  | .claimCoordinator .. => true
  | _ => false

namespace GroupNode

/-- The number of a stream that a list of used numbers ends with, or zero. -/
def lastUsed (log : List CounterEntry) (k : StreamKey) : SequenceNo := (log.reverse.dlookup k).getD 0

/-- The numbers used on one stream. -/
def usedOn (log : List CounterEntry) (k : StreamKey) : List CounterEntry :=
  log.filter fun entry => entry.1 = k

section Sends

variable {S : Type}

/-- The stream a call sends on. -/
def sendsOn (n : GroupNode) : NodeCall S → Option StreamKey
  | .sendPayload _ _ st sid _ _ _ => some (st, sid)
  | .sendControl .. => some (.control, n.memberStreamId 0)
  | .claimCoordinator .. => some (.control, n.memberStreamId 0)
  | _ => none

/-- The number a call uses, with its stream: a node that may not send uses none, and a send whose
sealing fails has used its number. -/
def usedBy (n : GroupNode) (x : TimedCall S) : List CounterEntry :=
  match n.sendsOn x.call, n.assertCanSend with
  | some k, .ok () => [⟨k, n.outSeq.read k + 1⟩]
  | _, _ => []

/-- Only the stream, the state and the counters matter. -/
theorem usedBy_congr {n m : GroupNode} {x y : TimedCall S}
    (hcall : m.sendsOn x.call = n.sendsOn y.call) (hstate : m.state = n.state)
    (hseq : m.outSeq = n.outSeq) : m.usedBy x = n.usedBy y := by
  simp only [usedBy, assertCanSend, hcall, hstate, hseq]

theorem usedBy_cases (n : GroupNode) (x : TimedCall S) :
    n.usedBy x = [] ∨ ∃ k, n.usedBy x = [⟨k, n.outSeq.read k + 1⟩] := by
  rw [usedBy]
  split
  · exact Or.inr ⟨_, rfl⟩
  · exact Or.inl rfl

variable [Ciborium] [Sealer S]

/-- All numbers used along a run, oldest first. -/
def usedNumbers (n : GroupNode) (xs : List (TimedCall S)) : List CounterEntry :=
  Machine.observe step usedBy n xs

/-- A payload send enters the number it uses. -/
theorem sendPayload_outSeq (n : GroupNode) (s : S) (target : MemberId) (st : StreamType)
    (sid : StreamId) (flags : UInt16) (pt : Bytes) (codec : PayloadCodec) (now : Instant) :
    (n.sendPayload s target st sid flags pt codec).2.1.outSeq = n.outSeq.insertAll
      (n.usedBy ⟨now, .sendPayload s target st sid flags pt codec⟩) := by
  cases hcan : n.assertCanSend with
  | error e => simp only [sendPayload, usedBy, sendsOn, hcan, Counters.insertAll, List.foldl_nil]
  | ok u =>
      rw [sendPayload_seals hcan]
      simp only [usedBy, sendsOn, hcan, Counters.insertAll, List.foldl_cons, List.foldl_nil]

theorem sendControl_outSeq (n : GroupNode) (s : S) (target : MemberId) (op : ControlOpcode)
    (tid : TransitionId) (rid : UInt32) (args : Bytes) (now : Instant) :
    (n.sendControl s target op tid rid args now).2.1.outSeq = n.outSeq.insertAll
      (n.usedBy ⟨now, .sendControl s target op tid rid args⟩) := by
  obtain ⟨pending, tstate, prep, exec, -, hmirror⟩ := n.mirrorControl_node op tid now
  have hsend := (n.mirrorControl op tid now).sendPayload_outSeq s target .control
    ((n.mirrorControl op tid now).memberStreamId 0) (controlFlags op)
    (ControlMessage.withArgs op.asU16 rid n.memberId tid args).toCbor .cbor now
  rw [sendControl, hsend, hmirror]
  exact congrArg n.outSeq.insertAll (usedBy_congr rfl rfl rfl)

/-- A sending call enters the number it uses. -/
theorem step_outSeq (n : GroupNode) {x : TimedCall S} (h : x.call.isOutbound = true) :
    (n.step x).outSeq = n.outSeq.insertAll (n.usedBy x) := by
  obtain ⟨now, call⟩ := x
  cases call with
  | sendPayload s target st sid flags pt codec =>
      exact n.sendPayload_outSeq s target st sid flags pt codec now
  | sendControl s target op tid rid args =>
      exact n.sendControl_outSeq s target op tid rid args now
  | claimCoordinator s target =>
      refine (sendControl_outSeq _ s target .capabilitiesAdvertise _ 0 _ now).trans ?_
      exact congrArg n.outSeq.insertAll (usedBy_congr rfl rfl rfl)
  | _ => cases h

/-- After a run of sends the counters are those of the numbers used. -/
theorem run_outSeq (n : GroupNode) {xs : List (TimedCall S)}
    (h : ∀ x ∈ xs, x.call.isOutbound = true) :
    (Machine.run step n xs).outSeq = n.outSeq.insertAll (n.usedNumbers xs) := by
  induction xs generalizing n with
  | nil => rfl
  | cons x xs ih =>
      rw [Machine.run_cons, ih _ fun y hy => h y (List.mem_cons_of_mem x hy),
        step_outSeq n (h x (List.mem_cons_self ..)), Counters.insertAll, Counters.insertAll,
        ← List.foldl_append]
      rfl

/-- A stream that starts at some number and does not wrap uses the numbers after it in order: none
is above the number of sends, and the counter ends there. -/
theorem usedNumbers_bound (n : GroupNode) {xs : List (TimedCall S)}
    (h : ∀ x ∈ xs, x.call.isOutbound = true) (k : StreamKey)
    (hbelow : (n.outSeq.read k).toNat + (usedOn (n.usedNumbers xs) k).length < 2 ^ 32) :
    ((Machine.run step n xs).outSeq.read k).toNat =
        (n.outSeq.read k).toNat + (usedOn (n.usedNumbers xs) k).length ∧
      ∀ seq, ⟨k, seq⟩ ∈ n.usedNumbers xs →
        seq.toNat ≤ (n.outSeq.read k).toNat + (usedOn (n.usedNumbers xs) k).length := by
  induction xs generalizing n with
  | nil => exact ⟨rfl, by simp [usedNumbers]⟩
  | cons x xs ih =>
      have hxs : ∀ y ∈ xs, y.call.isOutbound = true := fun y hy => h y (List.mem_cons_of_mem x hy)
      have hstep := step_outSeq n (h x (List.mem_cons_self ..))
      have hlog : n.usedNumbers (x :: xs) = n.usedBy x ++ (n.step x).usedNumbers xs := rfl
      rw [hlog] at hbelow ⊢
      rw [Machine.run_cons]
      rcases n.usedBy_cases x with hnone | ⟨j, hone⟩
      · rw [hnone, List.nil_append] at hbelow ⊢
        have hsame : (n.step x).outSeq = n.outSeq := by rw [hstep, hnone]; rfl
        rw [← hsame] at hbelow ⊢
        exact ih (n.step x) hxs hbelow
      rw [hone, List.singleton_append] at hbelow ⊢
      have hnext : (n.step x).outSeq = n.outSeq.insert j (n.outSeq.read j + 1) := by
        rw [hstep, hone]
        rfl
      by_cases hjk : j = k
      · -- the stream itself: its counter and its list grow by one
        subst hjk
        rw [usedOn, List.filter_cons_of_pos (by simp), ← usedOn, List.length_cons] at hbelow ⊢
        have hread : ((n.step x).outSeq.read j).toNat = (n.outSeq.read j).toNat + 1 := by
          rw [hnext, Counters.read_insert_self]
          exact Words.toNat_succ (by omega)
        obtain ⟨hcount, hbound⟩ := ih (n.step x) hxs (by omega)
        refine ⟨by omega, fun seq hseq => ?_⟩
        rcases List.mem_cons.mp hseq with hfirst | hrest
        · obtain rfl : seq = n.outSeq.read j + 1 := by simpa using hfirst
          rw [Words.toNat_succ (by omega)]
          omega
        · have := hbound seq hrest
          omega
      · rw [usedOn, List.filter_cons_of_neg (by simpa using hjk), ← usedOn] at hbelow ⊢
        have hread : (n.step x).outSeq.read k = n.outSeq.read k := by
          rw [hnext, Counters.read_insert_ne _ _ (Ne.symm hjk)]
        rw [← hread] at hbelow ⊢
        obtain ⟨hcount, hbound⟩ := ih (n.step x) hxs hbelow
        refine ⟨hcount, fun seq hseq => ?_⟩
        rcases List.mem_cons.mp hseq with hfirst | hrest
        · exact absurd (congrArg Sigma.fst hfirst).symm hjk
        · exact hbound seq hrest

/-- A sending call that succeeds frames the next number of its stream. -/
theorem sendResult_frame {n : GroupNode} {x : TimedCall S} {k : StreamKey} {o : OutboundFrame}
    (hstream : n.sendsOn x.call = some k) (hsent : n.sendResult (.node x) = some (.ok o)) :
    ∃ flags ct codec, o.wire = (GbpFrame.new n.groupId n.currentEpoch n.lastTransitionId k.1 k.2
      flags (n.outSeq.read k + 1) ct codec).toCbor := by
  obtain ⟨now, call⟩ := x
  cases call with
  | sendPayload s target st sid flags pt codec =>
      obtain rfl := Option.some.inj hstream
      obtain ⟨ct, -, rfl⟩ := sendPayload_wire (Option.some.inj hsent)
      exact ⟨flags, ct, codec.asU8, rfl⟩
  | sendControl s target op tid rid args =>
      obtain rfl := Option.some.inj hstream
      obtain ⟨ct, -, rfl⟩ := sendControl_wire (Option.some.inj hsent)
      exact ⟨controlFlags op, ct, PayloadCodec.cbor.asU8, rfl⟩
  | claimCoordinator s target =>
      obtain rfl := Option.some.inj hstream
      obtain ⟨ct, -, rfl⟩ := sendControl_wire (Option.some.inj hsent)
      exact ⟨controlFlags .capabilitiesAdvertise, ct, PayloadCodec.cbor.asU8, rfl⟩
  | _ => cases hstream

/-- A peer of the group and epoch whose mark on a stream is a number used on it, or none: it has
accepted what it received of the stream. -/
structure Follows (peer n : GroupNode) (log : List CounterEntry) (k : StreamKey) : Prop where
  group : peer.groupId = n.groupId
  epoch : peer.currentEpoch = n.currentEpoch
  mark : peer.inHw.read k = 0 ∨ ⟨k, peer.inHw.read k⟩ ∈ log

/-- Outbound counters survive a restart. A node without counters that restores what another
exported after a run of sends has the same counters, whatever order they were exported in. The
next frame it sends on a stream carries the last number used there plus one, and every peer that
follows the stream admits it, unless the frame is CRITICAL and belongs to a transition the peer has
not applied. -/
theorem counters_survive_restart
    (iter : Counters StreamKey SequenceNo → List CounterEntry) (hiter : Iterates iter)
    (start : GroupNode) (hstart : start.outSeq = ∅) (xs : List (TimedCall S))
    (hsends : ∀ x ∈ xs, x.call.isOutbound = true)
    (hstreams : (Machine.run step start xs).outSeq.entries.length < 2 ^ 32)
    (fresh : GroupNode) (hfresh : fresh.outSeq = ∅) :
    let old := Machine.run step start xs
    let restored := fresh.restoreOutSeq (old.exportOutSeq iter)
    (∀ k, restored.outSeq.lookup k = old.outSeq.lookup k) ∧
      ∀ (x : TimedCall S) (k : StreamKey) (o : OutboundFrame),
        restored.sendsOn x.call = some k → restored.sendResult (.node x) = some (.ok o) →
        (usedOn (start.usedNumbers xs) k).length + 1 < 2 ^ 32 →
        ∃ f : GbpFrame, o.wire = f.toCbor ∧
          f.sequenceNo.toNat = (lastUsed (start.usedNumbers xs) k).toNat + 1 ∧
          (f.encryptedPayload.length < 2 ^ 32 → ∀ peer : GroupNode,
            Follows peer restored (start.usedNumbers xs) k →
            ¬(k.1 ≠ .control ∧ GbpFlags.has f.flags GbpFlags.critical = true ∧
              f.transitionId ≠ peer.lastTransitionId) →
            GbpFrame.decode o.wire = .ok f ∧ peer.admitted f = some k.1) := by
  intro old restored
  have hlookup (k : StreamKey) : restored.outSeq.lookup k = old.outSeq.lookup k :=
    restoreOutSeq_exportOutSeq hiter hstreams hfresh k
  refine ⟨hlookup, fun x k o hstream hsent hbelow => ?_⟩
  obtain ⟨flags, ct, codec, hwire⟩ := sendResult_frame hstream hsent
  have hread : restored.outSeq.read k = old.outSeq.read k := by
    rw [Counters.read, hlookup, Counters.read]
  have hlast : old.outSeq.read k = lastUsed (start.usedNumbers xs) k := by
    rw [Counters.read, run_outSeq start hsends, Counters.lookup_insertAll, hstart,
      AList.lookup_empty, Option.or_none, lastUsed]
  have hzero : (start.outSeq.read k).toNat = 0 := by rw [hstart, Counters.read_empty]; rfl
  obtain ⟨hrun, hbound⟩ := usedNumbers_bound start hsends k (by omega)
  have hcount : (old.outSeq.read k).toNat = (usedOn (start.usedNumbers xs) k).length := by
    rw [hrun, hzero, Nat.zero_add]
  have hnext : (restored.outSeq.read k + 1).toNat = (old.outSeq.read k).toNat + 1 := by
    rw [hread]
    exact Words.toNat_succ (by omega)
  refine ⟨_, hwire, ?_, ?_⟩
  · rw [← hlast]
    exact hnext
  · intro hlen peer hpeer hcritical
    refine ⟨by rw [hwire]; exact GbpFrame.decode_toCbor_new hlen, ?_⟩
    rw [← hpeer.group, ← hpeer.epoch]
    refine admitted_new _ flags codec hlen hcritical ?_
    have hmark : (peer.inHw.read k).toNat ≤ (old.outSeq.read k).toNat := by
      rcases hpeer.mark with hnone | hmark
      · rw [hnone]
        exact Nat.zero_le _
      · have hle := hbound _ hmark
        omega
    rw [UInt32.lt_iff_toNat_lt, hnext]
    exact Nat.lt_succ_of_le hmark

end Sends

/-- Two texts, and a third one after the restart, which reaches a member that has the first two. -/
theorem counters_survive_restart_texts :
    let start := (new 1 (Vector.replicate 16 0)).bootstrapAsCreator 0
    let peer := { (new 2 (Vector.replicate 16 0)).bootstrapAsCreator 0 with
      inHw := AList.singleton (.text, 101) 2 }
    let text : TimedCall PlainSealer := ⟨5, .sendPayload .plain 0 .text 101 0 [7] .cbor⟩
    let restored := start.restoreOutSeq
      ((Machine.run step start [text, text]).exportOutSeq AList.entries)
    let f := GbpFrame.new (Vector.replicate 16 0) 0 0 .text 101 0 3 [7] 0
    restored.outSeq.lookup (.text, 101) = some 2 ∧
      restored.sendResult (.node text) = some (.ok ⟨0, f.toCbor⟩) ∧
      f.sequenceNo.toNat = 3 ∧ peer.admitted f = some .text := by
  intro start peer text restored f
  obtain ⟨hsame, hnext⟩ := counters_survive_restart AList.entries (fun m => .refl _) start rfl
    [text, text] (by decide +kernel) (by decide +kernel) start rfl
  have hsent : restored.sendResult (.node text) = some (.ok ⟨0, f.toCbor⟩) := by decide +kernel
  obtain ⟨g, hwire, hseq, hpeer⟩ := hnext text (.text, 101) ⟨0, f.toCbor⟩ rfl hsent
    (by decide +kernel)
  have hg : g = f := by
    have hdecode : GbpFrame.decode f.toCbor = .ok f := GbpFrame.decode_toCbor_new (by decide)
    rw [show f.toCbor = g.toCbor from hwire] at hdecode
    exact (GbpFrame.decode_toCbor_eq hdecode).symm
  subst hg
  refine ⟨(hsame (.text, 101)).trans (by decide +kernel), hsent, hseq, ?_⟩
  exact (hpeer (by decide) peer ⟨rfl, rfl, Or.inr (by decide +kernel)⟩ (by decide)).2

end GroupNode

end GroupProtocol
