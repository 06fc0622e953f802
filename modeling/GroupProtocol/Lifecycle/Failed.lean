import GroupProtocol.Base.Serde
import GroupProtocol.Lifecycle.Signals

/-!
# A failed node

A failed node stays failed under every call of its interface, bootstrap included. It
refuses every send and never seals. A provider that counts its seals makes the last part a
statement about the provider's state.
-/

namespace GroupProtocol

/-- A provider that counts how often it seals. -/
structure Metered (S : Type) where
  inner : S
  seals : ℕ

instance {S : Type} [Sealer S] : Sealer (Metered S) where
  «seal» m st seq pt :=
    ((Sealer.seal m.inner st seq pt).1, ⟨(Sealer.seal m.inner st seq pt).2, m.seals + 1⟩)
  «open» m st seq ct :=
    ((Sealer.open m.inner st seq ct).1, ⟨(Sealer.open m.inner st seq ct).2, m.seals⟩)

/-- Every call of a node's interface. -/
inductive ApiCall (S : Type)
  | bootstrapAsCreator (epoch : UInt64)
  | bootstrapAsJoiner (epoch : UInt64) (expectedFirstTid : TransitionId)
  | node (x : TimedCall S)

namespace GroupNode

/-- No edge but a shutdown leaves the failed state. -/
theorem transition_failed {n : GroupNode} (h : n.state = .failed) {next : NodeState}
    (hne : next ≠ .closed) : (n.transition next).state = .failed := by
  unfold transition
  split
  · exact h
  · have hedge : n.state.canTransitionTo next = false := by
      rw [h]
      cases next with
      | closed => exact absurd rfl hne
      | _ => rfl
    rw [hedge]
    rfl

/-- Both bootstraps pass through these two states first. -/
theorem establishing_failed {n : GroupNode} (h : n.state = .failed) :
    ((n.transition .connecting).transition .establishingGroup).state = .failed := by
  have hconnecting : (n.transition .connecting).state = .failed :=
    transition_failed h (by decide)
  exact transition_failed hconnecting (by decide)

theorem bootstrapAsCreator_failed {n : GroupNode} (h : n.state = .failed) (epoch : UInt64) :
    (n.bootstrapAsCreator epoch).state = .failed := by
  have hest := establishing_failed h
  simp only [bootstrapAsCreator]
  apply transition_failed
  · exact hest
  · decide

theorem bootstrapAsJoiner_failed {n : GroupNode} (h : n.state = .failed) (epoch : UInt64)
    (tid : TransitionId) : (n.bootstrapAsJoiner epoch tid).state = .failed := by
  have hest := establishing_failed h
  simp only [bootstrapAsJoiner]
  apply transition_failed
  · split
    · exact hest
    · exact hest
  · decide

theorem assertCanSend_failed {n : GroupNode} (h : n.state = .failed) :
    n.assertCanSend = .error (.invalidState "cannot send in state FAILED") := by
  rw [assertCanSend, h]
  rfl

section Runs

variable [Ciborium] {S : Type} [Sealer S]

/-- The node after a call of its interface. -/
def apiStep (n : GroupNode) : ApiCall S → GroupNode
  | .bootstrapAsCreator epoch => n.bootstrapAsCreator epoch
  | .bootstrapAsJoiner epoch tid => n.bootstrapAsJoiner epoch tid
  | .node x => n.step x

/-- What a sending call returns. -/
def sendResult (n : GroupNode) : ApiCall S → Option (Except NodeError OutboundFrame)
  | .node ⟨_, .sendPayload s target st sid flags pt codec⟩ =>
    some (n.sendPayload s target st sid flags pt codec).1
  | .node ⟨now, .sendControl s target op tid rid args⟩ =>
    some (n.sendControl s target op tid rid args now).1
  | .node ⟨now, .claimCoordinator s target⟩ => some (n.claimCoordinator s target now).1
  | _ => none

/-- The provider before and after a call that is given one. -/
def provider (n : GroupNode) : ApiCall S → Option (S × S)
  | .node ⟨now, .onWire s wire⟩ => some (s, (n.onWire s wire now).2.2)
  | .node ⟨_, .sendPayload s target st sid flags pt codec⟩ =>
    some (s, (n.sendPayload s target st sid flags pt codec).2.2)
  | .node ⟨now, .sendControl s target op tid rid args⟩ =>
    some (s, (n.sendControl s target op tid rid args now).2.2)
  | .node ⟨now, .claimCoordinator s target⟩ => some (s, (n.claimCoordinator s target now).2.2)
  | _ => none

/-- A failed node refuses a send and leaves the provider alone. -/
theorem sendPayload_failed {n : GroupNode} (h : n.state = .failed) (s : S) (target : MemberId)
    (st : StreamType) (sid : StreamId) (flags : UInt16) (pt : Bytes) (codec : PayloadCodec) :
    n.sendPayload s target st sid flags pt codec =
      (.error (.invalidState "cannot send in state FAILED"), n, s) := by
  simp only [sendPayload, assertCanSend_failed h]

theorem sendControl_failed {n : GroupNode} (h : n.state = .failed) (s : S) (target : MemberId)
    (op : ControlOpcode) (tid : TransitionId) (rid : UInt32) (args : Bytes) (now : Instant) :
    n.sendControl s target op tid rid args now =
      (.error (.invalidState "cannot send in state FAILED"), n.mirrorControl op tid now, s) := by
  have hm : (n.mirrorControl op tid now).state = .failed := by
    cases op <;> exact h
  exact sendPayload_failed hm ..

/-- Receiving hands the provider to one opening at most. -/
theorem dispatch_provider (n : GroupNode) (s : S) (st : StreamType) (f : GbpFrame)
    (now : Instant) :
    (n.dispatch s st f now).2 = (Sealer.open s st f.sequenceNo f.encryptedPayload).2 := by
  unfold dispatch
  cases Sealer.open s st f.sequenceNo f.encryptedPayload with
  | mk r s' =>
      cases r with
      | error e => rfl
      | ok plain => cases st <;> rfl

theorem onWire_seals (n : GroupNode) (s : Metered S) (wire : Bytes) (now : Instant) :
    (n.onWire s wire now).2.2.seals = s.seals := by
  rcases n.onWire_cases s wire now with ⟨m, -, -, heq⟩ | ⟨f, st, -, -, heq⟩
  · rw [heq]
  · rw [heq, dispatch_provider]
    rfl

/-- The call leaves the node failed, is refused if it sends, and seals nothing. -/
structure Silent (n : GroupNode) (x : ApiCall (Metered S)) : Prop where
  state : (n.apiStep x).state = .failed
  refuses : ∀ r, n.sendResult x = some r → ∃ reason, r = .error (.invalidState reason)
  seals : ∀ before after, n.provider x = some (before, after) → after.seals = before.seals

theorem step_failed {n : GroupNode} (h : n.state = .failed) (x : TimedCall S) :
    (n.step x).state = .failed := by
  rw [(n.step_signal x).state, h]
  cases n.signal x <;> rfl

/-- A send that is refused as an invalid state and returns its provider is silent. -/
theorem silent_of_refused {n next : GroupNode} {x : ApiCall (Metered S)} {s : Metered S}
    {reason : String} {sent : Except NodeError OutboundFrame × GroupNode × Metered S}
    (hstate : (n.apiStep x).state = .failed) (hresult : n.sendResult x = some sent.1)
    (hprovider : n.provider x = some (s, sent.2.2))
    (hsent : sent = (.error (.invalidState reason), next, s)) : n.Silent x := by
  subst hsent
  refine ⟨hstate, fun r hr => ?_, fun before after hp => ?_⟩
  · exact ⟨reason, Option.some.inj (hr.symm.trans hresult)⟩
  · obtain ⟨rfl, rfl⟩ := Prod.mk.inj (Option.some.inj (hp.symm.trans hprovider))
    rfl

theorem silent_failed {n : GroupNode} (h : n.state = .failed) (x : ApiCall (Metered S)) :
    n.Silent x := by
  have hstate : (n.apiStep x).state = .failed := by
    cases x with
    | bootstrapAsCreator epoch => exact bootstrapAsCreator_failed h epoch
    | bootstrapAsJoiner epoch tid => exact bootstrapAsJoiner_failed h epoch tid
    | node x => exact step_failed h x
  cases x with
  | bootstrapAsCreator epoch => exact ⟨hstate, nofun, nofun⟩
  | bootstrapAsJoiner epoch tid => exact ⟨hstate, nofun, nofun⟩
  | node x =>
      obtain ⟨now, call⟩ := x
      cases call with
      | onWire s wire =>
          refine ⟨hstate, nofun, ?_⟩
          rintro before after hp
          cases hp
          exact n.onWire_seals s wire now
      | sendPayload s target st sid flags pt codec =>
          exact silent_of_refused hstate rfl rfl
            (sendPayload_failed h s target st sid flags pt codec)
      | sendControl s target op tid rid args =>
          exact silent_of_refused hstate rfl rfl
            (sendControl_failed h s target op tid rid args now)
      | claimCoordinator s target =>
          have hsend := sendControl_failed
            (n := { n with isCoordinator := true, coordinatorLastSeen := some now }.push
              .becameCoordinator) h s target .capabilitiesAdvertise n.lastTransitionId 0
            [0xA1, 0x00, 0xF5] now
          exact silent_of_refused hstate rfl rfl hsend
      | _ => exact ⟨hstate, nofun, nofun⟩

/-- From a failed node on, along every sequence of calls: the node stays failed, every send
is refused as an invalid state, and the provider never seals. -/
theorem failed_silent (n : GroupNode) (h : n.state = .failed) (xs : List (ApiCall (Metered S))) :
    (Machine.run apiStep n xs).state = .failed ∧ Machine.Along apiStep Silent n xs := by
  induction xs generalizing n with
  | nil => exact ⟨h, trivial⟩
  | cons x xs ih =>
      have hx := silent_failed h x
      obtain ⟨hrun, halong⟩ := ih (n.apiStep x) hx.state
      exact ⟨hrun, hx, halong⟩

end Runs

/-- A node that a frame of another group has failed. -/
def failedByGroup : GroupNode :=
  (bootstrapped 2 (Vector.replicate 16 0) (.creator 0)).step
    ⟨0, .onWire PlainSealer.plain
      (GbpFrame.new (Vector.replicate 16 1) 0 0 .text 200 0 1 [] 0).toCbor⟩

/-- It is bootstrapped again, claims the role and sends. -/
def failedCalls : List (ApiCall (Metered PlainSealer)) :=
  [.bootstrapAsCreator 3, .node ⟨1, .claimCoordinator ⟨.plain, 0⟩ 0⟩,
    .node ⟨2, .sendPayload ⟨.plain, 0⟩ 0 .text 200 0 [1] .cbor⟩]

theorem failed_silent_failedByGroup :
    (Machine.run apiStep failedByGroup failedCalls).state = .failed ∧
      Machine.Along apiStep Silent failedByGroup failedCalls :=
  failed_silent failedByGroup (by decide +kernel) failedCalls

end GroupNode

end GroupProtocol
