import GroupProtocol.Clients.Receiving
import GroupProtocol.Lib.Words
import GroupProtocol.Node.Calls

/-!
# Audio around an epoch change

The audio client keeps the replay window of the previous epoch for the key overlap, so that
frames in flight across a transition are still accepted. The node below it compares the epoch
of a frame with its own before anything else looks at the payload, so no such frame ever
reaches the client.
-/

namespace GroupProtocol

namespace GapClient

variable [Ciborium] [CborReader GapPayload] [Prost GbpProto.GapPayload]
  [PlanusBuilder GbpFlat.GapPayload] [ReadAsRoot GbpFlat.GapPayloadRef] {S : Type} [Sealer S]

/-- The wire bytes surface at a receiver as a payload that its client does not classify as stale,
and the receiver stays active. The node reads the clock at `now`; the client reads it at
`syncedAt` and `acceptedAt`. -/
def Survives (wire : Bytes) (r : GroupNode) (s : S) (c : GapClient)
    (now syncedAt acceptedAt : Instant) : Prop :=
  (∃ d, .payloadReceived d ∈ r.emitted (⟨now, .onWire s wire⟩ : TimedCall S) ∧
    ∀ kp expected,
      (c.accept d.plaintext (r.onWire s wire now).2.1.currentEpoch d.codec syncedAt acceptedAt).1 ≠
        .error (.epochStale kp expected)) ∧
    (r.onWire s wire now).2.1.state = .active

omit [CborReader GapPayload] [ReadAsRoot GbpFlat.GapPayloadRef] in
/-- An audio frame carries the epoch its sender was in. -/
theorem send_epoch {c : GapClient} {n : GroupNode} {s : S} {target : MemberId}
    {mediaSourceId : UInt32} {rtpTimestamp : UInt64} {opus : Bytes} {codec : PayloadCodec}
    {now : Instant} {o : OutboundFrame}
    (h : (c.send n s target mediaSourceId rtpTimestamp opus codec now).1 = .ok o)
    {f : GbpFrame} (hf : GbpFrame.decode o.wire = .ok f) : f.epoch = n.currentEpoch := by
  obtain ⟨ct, -, rfl⟩ := GroupNode.sendPayload_wire h
  rw [GbpFrame.decode_toCbor_eq hf]
  rfl

omit [CborReader GapPayload] [Prost GbpProto.GapPayload] [PlanusBuilder GbpFlat.GapPayload]
  [ReadAsRoot GbpFlat.GapPayloadRef] in
/-- A frame of another epoch surfaces nothing but reports. -/
theorem payload_not_emitted {r : GroupNode} {wire : Bytes}
    (h : ∀ f, GbpFrame.decode wire = .ok f → f.epoch ≠ r.currentEpoch) (s : S) (now : Instant)
    (d : DeliveredPayload) :
    .payloadReceived d ∉ r.emitted (⟨now, .onWire s wire⟩ : TimedCall S) := by
  rcases r.onWire_cases s wire now with ⟨m, ⟨state, evs, hevs, rfl⟩, -, heq⟩ |
    ⟨f, st, hd, hadm, -⟩
  · have hemitted : r.emitted (⟨now, .onWire s wire⟩ : TimedCall S) = evs := by
      apply GroupNode.emitted_eq
      simp only [GroupNode.returned, GroupNode.step, heq, List.append_nil]
    rw [hemitted]
    intro hmem
    have hreport := hevs _ hmem
    cases hreport
  · exact absurd (GroupNode.admitted_eq_some.mp hadm).epoch (h f hd)

/-- An audio frame of one epoch never survives at a receiver that has moved to the next: the
node refuses it, whenever it arrives, whatever the provider can open and whatever the client has
kept. -/
theorem audio_never_survives {c : GapClient} {n : GroupNode} {s : S} {target : MemberId}
    {mediaSourceId : UInt32} {rtpTimestamp : UInt64} {opus : Bytes} {codec : PayloadCodec}
    {sentAt : Instant} {o : OutboundFrame}
    (hsend : (c.send n s target mediaSourceId rtpTimestamp opus codec sentAt).1 = .ok o)
    {r : GroupNode} (hepoch : r.currentEpoch = n.currentEpoch + 1) (t : S) (c' : GapClient)
    (now syncedAt acceptedAt : Instant) :
    ¬Survives o.wire r t c' now syncedAt acceptedAt := by
  rintro ⟨⟨d, hd, -⟩, -⟩
  refine payload_not_emitted (fun f hf heq => ?_) t now d hd
  rw [send_epoch hsend hf, hepoch] at heq
  exact Words.succ_ne _ heq.symm

end GapClient

/-! A sender and a receiver in epoch zero, two audio frames of the sender, the second in flight
while the receiver moves to epoch one. -/

private def overlapNode (memberId : MemberId) : GroupNode :=
  (GroupNode.new memberId (Vector.replicate 16 0)).bootstrapAsCreator 0

private def firstAudio : Except NodeError OutboundFrame × GapClient × GroupNode × PlainSealer :=
  GapClient.new.send (overlapNode 1) .plain 2 7 960 [1] .cbor 0

private def secondAudio : Except NodeError OutboundFrame × GapClient × GroupNode × PlainSealer :=
  firstAudio.2.1.send firstAudio.2.2.1 .plain 2 7 1920 [2] .cbor 1

private def audioWire (sent : Except NodeError OutboundFrame × GapClient × GroupNode × PlainSealer) :
    OutboundFrame :=
  sent.1.toOption.getD ⟨0, []⟩

private def audioPlaintext (seq : UInt32) (rtpTimestamp : UInt64) (opus : Bytes) : Bytes :=
  (⟨7, seq, rtpTimestamp, 0, opus⟩ : GapPayload).toCbor

/-- The receiver after the first frame and the transition. -/
private def movedReceiver : GroupNode :=
  ((overlapNode 2).onWire PlainSealer.plain (audioWire firstAudio).wire 1).2.1.applyTransition 1

/-- The receiver's client after the first frame and the transition. -/
private def movedClient : GapClient :=
  (GapClient.new.accept (audioPlaintext 1 960 [1]) 0 .cbor 1 1).2.syncEpoch 1 2

/-- The second frame arrives one tick after the transition. The client would take it as new, but
the node refuses it and leaves the active state. -/
theorem audio_lost_in_overlap :
    movedReceiver.state = .active ∧
      (movedClient.accept (audioPlaintext 2 1920 [2]) 1 .cbor 3 3).1 =
        .ok (.new ⟨7, 2, 1920, 0, [2]⟩) ∧
      (movedReceiver.onWire PlainSealer.plain (audioWire secondAudio).wire 3).2.1.state =
        .resyncing ∧
      ¬GapClient.Survives (audioWire secondAudio).wire movedReceiver PlainSealer.plain movedClient
        3 3 3 := by
  have hstate : (movedReceiver.onWire PlainSealer.plain (audioWire secondAudio).wire 3).2.1.state =
      .resyncing := by decide +kernel
  refine ⟨by decide +kernel, by decide +kernel, hstate, ?_⟩
  rintro ⟨-, hactive⟩
  rw [hstate] at hactive
  cases hactive

theorem audio_never_survives_second :
    secondAudio.1 = .ok (audioWire secondAudio) ∧
      movedReceiver.currentEpoch = firstAudio.2.2.1.currentEpoch + 1 ∧
      ¬GapClient.Survives (audioWire secondAudio).wire movedReceiver PlainSealer.plain movedClient
        3 3 3 := by
  have hsend : secondAudio.1 = .ok (audioWire secondAudio) := by decide +kernel
  have hepoch : movedReceiver.currentEpoch = firstAudio.2.2.1.currentEpoch + 1 := by
    decide +kernel
  exact ⟨hsend, hepoch,
    GapClient.audio_never_survives hsend hepoch PlainSealer.plain movedClient 3 3 3⟩

end GroupProtocol
