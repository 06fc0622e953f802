import GroupProtocol.Replay.AcceptOnce
import Mathlib.Data.Fintype.Card

/-!
# Injective agreement with an untrusted delivery service

Any number of nodes make any calls, and every receiver is handed arbitrary bytes. The
provider is an ideal AEAD: it opens exactly what was sealed in its MLS epoch under the
same class and number. A seal covers the class, the number and the plaintext, and no
other field of the frame, so the rest of a delivered payload is what the network says.
-/

namespace GroupProtocol

open GroupNode

/-- A call of `send_payload` that produced a frame: the MLS epoch it was sealed in, the
epoch of the frame, the payload handed over and the sealed bytes. -/
structure SendRecord where
  mlsEpoch : UInt64
  epoch : UInt64
  payload : DeliveredPayload
  sealedBytes : Bytes
  deriving DecidableEq

/-- The bytes are those the record's call sealed in this MLS epoch, class and number. -/
def SendRecord.Seals (r : SendRecord) (mlsEpoch : UInt64)
    (st : StreamType) (seq : SequenceNo) (ct : Bytes) : Prop :=
  r.mlsEpoch = mlsEpoch ∧ r.payload.streamType = st ∧ r.payload.sequenceNo = seq ∧
    r.sealedBytes = ct

instance (r : SendRecord) (mlsEpoch : UInt64) (st : StreamType) (seq : SequenceNo)
    (ct : Bytes) : Decidable (r.Seals mlsEpoch st seq ct) :=
  inferInstanceAs (Decidable (_ ∧ _ ∧ _ ∧ _))

/-- A call of one node, whose provider is in a given MLS epoch. -/
structure NetworkCall (ι S : Type) where
  node : ι
  mlsEpoch : UInt64
  call : TimedCall S

/-- The nodes and every frame produced so far. -/
structure Network (ι : Type) where
  node : ι → GroupNode
  sends : List SendRecord

namespace GroupNode

/-- The payload of an event, with the epoch it arrived in. -/
def payloadIn (epoch : UInt64) : Event → Option (UInt64 × DeliveredPayload)
  | .payloadReceived p => some (epoch, p)
  | _ => none

/-- The frame behind a received payload. -/
def receiptFrame (r : UInt64 × DeliveredPayload) : Acceptance :=
  ⟨r.1, (r.2.streamType, r.2.streamId), r.2.sequenceNo⟩

variable [Ciborium] {S : Type} [Sealer S]

/-- The payloads a call delivers, with their epoch. -/
def receipt (n : GroupNode) (x : TimedCall S) : List (UInt64 × DeliveredPayload) :=
  (n.emitted x).filterMap (payloadIn n.currentEpoch)

/-- All payloads delivered along a run, oldest first. -/
def receipts (n : GroupNode) (xs : List (TimedCall S)) : List (UInt64 × DeliveredPayload) :=
  Machine.observe step receipt n xs

/-- The deliveries of a run are the frames behind its payloads. -/
theorem deliveries_eq (n : GroupNode) (xs : List (TimedCall S)) :
    n.deliveries xs = (n.receipts xs).map receiptFrame := by
  rw [deliveries, receipts, ← Machine.observe_map]
  congr 1
  funext m x
  rw [receipt, List.map_filterMap]
  congr 1
  funext e
  cases e <;> rfl

/-- A delivered payload is an admitted application frame that opens. -/
theorem mem_receipt {n : GroupNode} {x : TimedCall S} {r : UInt64 × DeliveredPayload}
    (h : r ∈ n.receipt x) :
    ∃ s wire f st plain, x.call = .onWire s wire ∧ GbpFrame.decode wire = .ok f ∧
      n.admitted f = some st ∧ st ≠ .control ∧
      (Sealer.open s st f.sequenceNo f.encryptedPayload).1 = .ok plain ∧
      r = (n.currentEpoch, delivery st f plain) := by
  obtain ⟨e, he, hr⟩ := List.mem_filterMap.mp h
  obtain ⟨p, rfl, hp⟩ : ∃ p, e = .payloadReceived p ∧ r = (n.currentEpoch, p) := by
    cases e with
    | payloadReceived p => exact ⟨p, rfl, (Option.some.inj hr).symm⟩
    | _ => cases hr
  cases n.step_effect x with
  | quiet keeps window admits pending events => cases events _ he
  | applied tid call =>
      rw [(step_applied call).2] at he
      cases List.mem_singleton.mp he
  | received s wire f st call decode admits keeps window pending evs data own surfaces events =>
      rw [events] at he
      rcases List.mem_append.mp he with he | he
      · cases own _ he
      · cases surfaces with
        | nothing => cases he
        | payload plain opens app =>
            have hq := Event.payloadReceived.inj (List.mem_singleton.mp he)
            exact ⟨s, wire, f, st, plain, call, decode, admitted_eq_some.mpr admits, app, opens,
              by rw [hp, hq]⟩
        | message plain c op opens ctl decodes opcode => cases List.mem_singleton.mp he
  | executed s wire f plain c call decode admits opens message opcode pending names next events =>
      rw [events] at he
      simp at he

end GroupNode

/-- Distinct items that all occur among the images of a list have distinct positions there. -/
theorem exists_injective_origin {α β : Type} (f : β → α) {xs : List α} {ys : List β}
    (hxs : xs.Nodup) (h : ∀ x ∈ xs, ∃ y ∈ ys, f y = x) :
    ∃ origin : Fin xs.length → Fin ys.length, Function.Injective origin ∧
      ∀ k, f (ys.get (origin k)) = xs.get k := by
  have hsource (k : Fin xs.length) : ∃ j : Fin ys.length, f (ys.get j) = xs.get k := by
    obtain ⟨y, hy, hfy⟩ := h _ (List.get_mem xs k)
    obtain ⟨j, rfl⟩ := List.get_of_mem hy
    exact ⟨j, hfy⟩
  choose origin horigin using hsource
  refine ⟨origin, ?_, horigin⟩
  intro k l hkl
  apply List.nodup_iff_injective_get.mp hxs
  rw [← horigin k, ← horigin l, hkl]

/-- A `send_payload` call: the node that makes it and its arguments. -/
structure PayloadCall (S : Type) where
  node : GroupNode
  provider : S
  target : MemberId
  streamType : StreamType
  streamId : StreamId
  flags : UInt16
  plaintext : Bytes
  codec : PayloadCodec

namespace Network

section Runs

variable {ι : Type} [DecidableEq ι] [Ciborium] {S : Type} [Sealer S]

/-- The `send_payload` call inside a control send. -/
def controlCall (n : GroupNode) (s : S) (target : MemberId) (op : ControlOpcode)
    (tid : TransitionId) (rid : UInt32) (args : Bytes) (now : Instant) : PayloadCall S where
  node := n.mirrorControl op tid now
  provider := s
  target := target
  streamType := .control
  streamId := n.memberStreamId 0
  flags := controlFlags op
  plaintext := (ControlMessage.withArgs op.asU16 rid n.memberId tid args).toCbor
  codec := .cbor

/-- The `send_payload` call that a call of a node makes, if any. -/
def payloadCall (n : GroupNode) (x : TimedCall S) : Option (PayloadCall S) :=
  match x.call with
  | .sendPayload s target st sid flags pt codec => some ⟨n, s, target, st, sid, flags, pt, codec⟩
  | .sendControl s target op tid rid args => some (controlCall n s target op tid rid args x.now)
  | .claimCoordinator s target =>
    let n := { n with isCoordinator := true, coordinatorLastSeen := some x.now }.push
      .becameCoordinator
    some (controlCall n s target .capabilitiesAdvertise n.lastTransitionId 0 [0xA1, 0x00, 0xF5]
      x.now)
  | _ => none

/-- The record of a `send_payload` call, unless it fails. -/
def records (c : PayloadCall S) (mlsEpoch : UInt64) : List SendRecord :=
  let seq := (c.node.nextSeq c.streamType c.streamId).1
  match (c.node.sendPayload c.provider c.target c.streamType c.streamId c.flags c.plaintext
      c.codec).1, (Sealer.seal c.provider c.streamType seq c.plaintext).1 with
  | .ok _, .ok sealedBytes =>
    [⟨mlsEpoch, c.node.currentEpoch,
      ⟨c.streamType, c.streamId, seq, c.flags, c.plaintext, c.codec⟩, sealedBytes⟩]
  | _, _ => []

/-- One call of one node. -/
def step (w : Network ι) (a : NetworkCall ι S) : Network ι where
  node := Function.update w.node a.node ((w.node a.node).step a.call)
  sends := w.sends ++ ((payloadCall (w.node a.node) a.call).map fun c =>
    records c a.mlsEpoch).getD []

/-- The call is one of node `i`. -/
def callOf (i : ι) (a : NetworkCall ι S) : Option (TimedCall S) :=
  if a.node = i then some a.call else none

/-- The calls of node `i`. -/
def callsOf (i : ι) (acts : List (NetworkCall ι S)) : List (TimedCall S) :=
  acts.filterMap (callOf i)

/-- The payloads node `i` delivers along a run, oldest first, each with its epoch. -/
def receivedBy (node : ι → GroupNode) (i : ι) (acts : List (NetworkCall ι S)) :
    List (UInt64 × DeliveredPayload) :=
  (node i).receipts (callsOf i acts)

/-- The provider of a receiving call is ideal: it opens exactly what was sealed in its MLS
epoch under the same class and number. -/
def Ideal (w : Network ι) (a : NetworkCall ι S) : Prop :=
  ∀ s wire, a.call.call = .onWire s wire → ∀ st seq ct pt,
    (Sealer.open s st seq ct).1 = .ok pt ↔
      ∃ r ∈ w.sends, r.Seals a.mlsEpoch st seq ct ∧ r.payload.plaintext = pt

/-- The application frame a call brings past the receiver's checks, if any. -/
def arriving (w : Network ι) (a : NetworkCall ι S) : Option (StreamType × GbpFrame) :=
  match a.call.call with
  | .onWire _ wire =>
    match GbpFrame.decode wire with
    | .ok f => ((w.node a.node).admitted f).bind fun st =>
      if st = .control then none else some (st, f)
    | .error _ => none
  | _ => none

/-- The epoch, the stream id, the flags and the payload format of an arriving frame are
those of a call that sealed its bytes, if there is such a call at all. -/
def KeepsHeader (w : Network ι) (a : NetworkCall ι S) : Prop :=
  ∀ p ∈ arriving w a,
    (∃ r ∈ w.sends, r.Seals a.mlsEpoch p.1 p.2.sequenceNo p.2.encryptedPayload) →
    ∃ r ∈ w.sends, r.Seals a.mlsEpoch p.1 p.2.sequenceNo p.2.encryptedPayload ∧
      r.epoch = p.2.epoch ∧ r.payload.streamId = p.2.streamId ∧
      r.payload.flags = p.2.flags ∧ r.payload.codec = p.2.payloadCodec

/-- The payloads can be mapped one-to-one to the calls that handed them over. -/
def Agrees (received : List (UInt64 × DeliveredPayload)) (sends : List SendRecord) : Prop :=
  ∃ origin : Fin received.length → Fin sends.length, Function.Injective origin ∧
    ∀ k, (sends.get (origin k)).payload = (received.get k).2

omit [DecidableEq ι] in
/-- A payload delivered under an ideal provider, with its header kept, is the payload of an
earlier call in the same epoch. -/
theorem receipt_source {w : Network ι} {a : NetworkCall ι S} (hideal : Ideal w a)
    (hkeeps : KeepsHeader w a) {r : UInt64 × DeliveredPayload}
    (hr : r ∈ (w.node a.node).receipt a.call) :
    ∃ c ∈ w.sends, c.epoch = r.1 ∧ c.payload = r.2 := by
  obtain ⟨s, wire, f, st, plain, hcall, hd, hadm, happ, hopen, rfl⟩ := mem_receipt hr
  have hopens := hideal s wire hcall st f.sequenceNo f.encryptedPayload
  obtain ⟨c, hc, hseals, -⟩ := (hopens plain).mp hopen
  have harrives : (st, f) ∈ arriving w a := by
    simp only [arriving, hcall, hd, hadm, Option.bind_some, if_neg happ, Option.mem_def]
  obtain ⟨d, hd, hsealed, hepoch, hsid, hflags, hcodec⟩ := hkeeps _ harrives ⟨c, hc, hseals⟩
  -- The bytes open to one plaintext only, so both calls handed over the same one.
  have hplain : d.payload.plaintext = plain := by
    have hsame := (hopens d.payload.plaintext).mpr ⟨d, hd, hsealed, rfl⟩
    exact Except.ok.inj (hsame.symm.trans hopen)
  obtain ⟨-, hst, hseq, -⟩ := hsealed
  refine ⟨d, hd, ?_, ?_⟩
  · rw [hepoch]
    exact (admitted_eq_some.mp hadm).epoch
  · rw [← hplain, delivery]
    dsimp only at hst hseq hsid hflags hcodec
    rw [← hst, ← hseq, ← hsid, ← hflags, ← hcodec]

omit [Ciborium] [Sealer S] in
theorem callOf_eq_some {i : ι} {a : NetworkCall ι S} {x : TimedCall S}
    (h : callOf i a = some x) : a.node = i ∧ a.call = x := by
  unfold callOf at h
  split at h
  · exact ⟨‹_›, Option.some.inj h⟩
  · cases h

omit [Ciborium] [Sealer S] in
theorem callOf_eq_none {i : ι} {a : NetworkCall ι S} (h : callOf i a = none) : i ≠ a.node := by
  rintro rfl
  rw [callOf, if_pos rfl] at h
  cases h

/-- Node `i` moves by its own calls only. -/
theorem observe_node {β : Type} (out : GroupNode → TimedCall S → List β) (w : Network ι) (i : ι)
    (acts : List (NetworkCall ι S)) :
    Machine.observe step (fun w a => ((callOf i a).map (out (w.node i))).getD []) w acts =
      Machine.observe GroupNode.step out (w.node i) (callsOf i acts) := by
  refine Machine.observe_part (fun w => w.node i) out ?_ ?_ w acts
  · intro w a x h
    obtain ⟨rfl, rfl⟩ := callOf_eq_some h
    exact Function.update_self ..
  · intro w a h
    exact Function.update_of_ne (callOf_eq_none h) ..

/-- Over a whole run, every payload node `i` delivers is the payload of a call of the run
in the same epoch. -/
theorem receipts_source {node : ι → GroupNode} {acts : List (NetworkCall ι S)}
    (hideal : Machine.Along step Ideal ⟨node, []⟩ acts)
    (hkeeps : Machine.Along step KeepsHeader ⟨node, []⟩ acts) (i : ι) :
    ∀ r ∈ (node i).receipts (callsOf i acts),
      ∃ c ∈ (Machine.run step ⟨node, []⟩ acts).sends, c.epoch = r.1 ∧ c.payload = r.2 := by
  rw [receipts, ← observe_node receipt ⟨node, []⟩ i acts]
  have hstart : ∀ r ∈ ([] : List (UInt64 × DeliveredPayload)),
      ∃ c ∈ (⟨node, []⟩ : Network ι).sends, c.epoch = r.1 ∧ c.payload = r.2 := by
    intro r hr
    cases hr
  refine Machine.along_invariant
    (fun w a => ((callOf i a).map (receipt (w.node i))).getD [])
    (fun w log => ∀ r ∈ log, ∃ c ∈ w.sends, c.epoch = r.1 ∧ c.payload = r.2)
    hstart (hideal.and hkeeps) ?_
  rintro w log a ⟨hi, hk⟩ hlog r hr
  have hsource : ∃ c ∈ w.sends, c.epoch = r.1 ∧ c.payload = r.2 := by
    rcases List.mem_append.mp hr with hr | hr
    · exact hlog r hr
    · cases hcall : callOf i a with
      | none =>
          rw [hcall] at hr
          cases hr
      | some x =>
          rw [hcall] at hr
          obtain ⟨rfl, rfl⟩ := callOf_eq_some hcall
          exact receipt_source hi hk hr
  obtain ⟨c, hc, hcr⟩ := hsource
  exact ⟨c, List.mem_append_left _ hc, hcr⟩

/-- Injective agreement, as far as the code provides it. In every run of any number of
nodes under an ideal provider, if every frame that arrives keeps the epoch, the stream id,
the flags and the payload format of a call that sealed its bytes, then the payloads of a
receiver that enters fewer than `2 ^ 64` epochs map one-to-one to the calls of the run. -/
theorem injective_agreement (node : ι → GroupNode) (acts : List (NetworkCall ι S))
    (hideal : Machine.Along step Ideal ⟨node, []⟩ acts)
    (hkeeps : Machine.Along step KeepsHeader ⟨node, []⟩ acts) (i : ι)
    (hwrap : ((node i).epochIncrements (callsOf i acts)).length < 2 ^ 64) :
    Agrees (receivedBy node i acts) (Machine.run step ⟨node, []⟩ acts).sends := by
  have hnodup : (receivedBy node i acts).Nodup := by
    have hframes := deliveries_nodup (node i) (callsOf i acts) hwrap
    rw [deliveries_eq] at hframes
    exact hframes.of_map _
  obtain ⟨origin, hinj, horigin⟩ := exists_injective_origin
    (fun c : SendRecord => (c.epoch, c.payload)) hnodup fun r hr => by
      obtain ⟨c, hc, hepoch, hpayload⟩ := receipts_source hideal hkeeps i r hr
      exact ⟨c, hc, Prod.ext hepoch hpayload⟩
  exact ⟨origin, hinj, fun k => congrArg Prod.snd (horigin k)⟩

end Runs

section Ledger

/-- The entries of a ledger for the calls made so far. -/
def entriesOf (sends : List SendRecord) : List (UInt64 × StreamType × SequenceNo × Bytes) :=
  sends.map fun r => (r.mlsEpoch, r.payload.streamType, r.payload.sequenceNo, r.payload.plaintext)

variable {ι : Type}

theorem ideal_of_ledger {w : Network ι} {a : NetworkCall ι Ledger}
    (hentries : ∀ l wire, a.call.call = .onWire l wire →
      l = ⟨a.mlsEpoch, entriesOf w.sends⟩)
    (hplain : ∀ r ∈ w.sends, r.sealedBytes = r.payload.plaintext) : Ideal w a := by
  intro l wire hcall st seq ct pt
  rw [hentries l wire hcall]
  simp only [Sealer.open, entriesOf, List.mem_map, Prod.mk.injEq]
  constructor
  · intro h
    split at h
    · rename_i hmem
      obtain ⟨r, hr, hepoch, hst, hseq, hct⟩ := hmem
      obtain rfl := Except.ok.inj h
      exact ⟨r, hr, ⟨hepoch, hst, hseq, (hplain r hr).trans hct⟩, hct⟩
    · cases h
  · rintro ⟨r, hr, ⟨hepoch, hst, hseq, hct⟩, hpt⟩
    have hsame := (hplain r hr).symm.trans hct
    rw [if_pos ⟨r, hr, hepoch, hst, hseq, hsame⟩, ← hsame, hpt]

/-- Members 1 and 2 of one group in epoch zero. -/
def twoNodes (i : Bool) : GroupNode :=
  (GroupNode.new (if i then 2 else 1) (Vector.replicate 16 0)).bootstrapAsCreator 0

/-- The text frame of member 1, with a stream id and a transition of the network's choice. -/
def relayed (sid : StreamId) (tid : TransitionId) : Bytes :=
  (GbpFrame.new (Vector.replicate 16 0) 0 tid .text sid GbpFlags.orderedReliableAck 1 [97]
    0).toCbor

/-- Member 1 sends one text. -/
def textSend : NetworkCall Bool Ledger :=
  ⟨false, 0, 0, .sendPayload ⟨0, []⟩ 0 .text 101 GbpFlags.orderedReliableAck [97] .cbor⟩

/-- The record of the text. -/
def textRecord : SendRecord :=
  ⟨0, 0, ⟨.text, 101, 1, GbpFlags.orderedReliableAck, [97], .cbor⟩, [97]⟩

/-- After the text, member 2 is handed two frames. -/
def relayedTwice (first second : Bytes) : List (NetworkCall Bool Ledger) :=
  [textSend, ⟨true, 0, 1, .onWire ⟨0, entriesOf [textRecord]⟩ first⟩,
    ⟨true, 0, 2, .onWire ⟨0, entriesOf [textRecord]⟩ second⟩]

/-- The provider stays ideal whatever the network relays. -/
theorem ideal_relayedTwice (first second : Bytes) :
    Machine.Along step Ideal ⟨twoNodes, []⟩ (relayedTwice first second) := by
  have hsends : (step ⟨twoNodes, []⟩ textSend).sends = [textRecord] := by decide +kernel
  have hplain : ∀ r ∈ [textRecord], r.sealedBytes = r.payload.plaintext := by
    intro r hr
    rw [List.mem_singleton.mp hr]
    rfl
  refine ⟨?_, ideal_of_ledger ?_ ?_, ideal_of_ledger ?_ ?_, trivial⟩
  · intro s wire h
    cases h
  · intro l wire h
    cases h
    rw [hsends]
  · rw [hsends]
    exact hplain
  · intro l wire h
    cases h
    rw [step, payloadCall, hsends]
    rfl
  · rw [step, payloadCall, hsends]
    exact hplain

theorem injective_agreement_relayedTwice :
    Agrees (receivedBy twoNodes true (relayedTwice (relayed 101 0) (relayed 101 9)))
      (Machine.run step ⟨twoNodes, []⟩
        (relayedTwice (relayed 101 0) (relayed 101 9))).sends := by
  refine injective_agreement twoNodes _ (ideal_relayedTwice _ _) ⟨?_, ?_, ?_, trivial⟩ true
    (by decide +kernel)
  · unfold KeepsHeader
    decide +kernel
  · unfold KeepsHeader
    decide +kernel
  · unfold KeepsHeader
    decide +kernel

/-- With its stream id rewritten, the one text of member 1 is delivered a second time. -/
theorem rewritten_stream_delivered_twice :
    ((twoNodes false).sendPayload (⟨0, []⟩ : Ledger) 0 .text 101 GbpFlags.orderedReliableAck
        [97] .cbor).1 = .ok ⟨0, relayed 101 0⟩ ∧
      Machine.Along step Ideal ⟨twoNodes, []⟩ (relayedTwice (relayed 101 0) (relayed 102 0)) ∧
      ((twoNodes true).epochIncrements
        (callsOf true (relayedTwice (relayed 101 0) (relayed 102 0)))) = [] ∧
      ¬Agrees (receivedBy twoNodes true (relayedTwice (relayed 101 0) (relayed 102 0)))
        (Machine.run step ⟨twoNodes, []⟩
          (relayedTwice (relayed 101 0) (relayed 102 0))).sends := by
  refine ⟨by decide +kernel, ideal_relayedTwice _ _, by decide +kernel, ?_⟩
  have hreceived : (receivedBy twoNodes true
      (relayedTwice (relayed 101 0) (relayed 102 0))).length = 2 := by
    decide +kernel
  have hsends : (Machine.run step ⟨twoNodes, []⟩
      (relayedTwice (relayed 101 0) (relayed 102 0))).sends.length = 1 := by
    decide +kernel
  rintro ⟨origin, hinj, -⟩
  have hcard := Fintype.card_le_of_injective origin hinj
  rw [Fintype.card_fin, Fintype.card_fin, hreceived, hsends] at hcard
  omega

end Ledger

end Network

end GroupProtocol
