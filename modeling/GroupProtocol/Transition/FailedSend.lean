import GroupProtocol.Base.Serde
import GroupProtocol.Transition.Matrix

/-!
# Control sends that fail

A control send mirrors its opcode before it asks whether the node may send and before it
seals; a coordinator claim takes the role first. A payload send asks first. What a failed call
leaves behind is therefore what the mirroring wrote, and it is nothing only where the mirroring
had nothing to write.
-/

namespace GroupProtocol

/-- The two calls that send a control message. -/
inductive ControlSend
  | control (opcode : ControlOpcode) (transitionId : TransitionId) (requestId : UInt32)
      (args : Bytes)
  | claim
  deriving DecidableEq, Repr

namespace GroupNode

/-- Nothing changed, except that one stream may have used up a number. -/
def Untouched (n m : GroupNode) : Prop :=
  m = n ∨ ∃ key, m = { n with outSeq := n.outSeq.insert key (n.outSeq.read key + 1) }

/-- The calls that are safe to fail: an opcode of no transition, an EXECUTE without deadlines, an
ABORT of nothing after an ABORT, and a PREPARE or READY repeated at the same reading of the clock.
These find what they write already there; a claim always queues an event. -/
def AlreadyHolds (n : GroupNode) (now : Instant) : ControlSend → Prop
  | .control op tid _ _ => n.Mirrored op tid now
  | .claim => False

theorem Untouched.fields {n m : GroupNode} (h : Untouched n m) :
    m.pendingTransitionId = n.pendingTransitionId ∧ m.transitionState = n.transitionState ∧
      m.isCoordinator = n.isCoordinator ∧ m.prepareDeadline = n.prepareDeadline ∧
      m.executeDeadline = n.executeDeadline ∧ m.coordinatorLastSeen = n.coordinatorLastSeen ∧
      m.events = n.events := by
  rcases h with rfl | ⟨key, rfl⟩
  · exact ⟨rfl, rfl, rfl, rfl, rfl, rfl, rfl⟩
  · exact ⟨rfl, rfl, rfl, rfl, rfl, rfl, rfl⟩

/-- Mirroring writes nothing where its values are already there. -/
theorem mirrorControl_eq_self {n : GroupNode} {now : Instant} {op : ControlOpcode}
    {tid : TransitionId} (h : n.Mirrored op tid now) : n.mirrorControl op tid now = n := by
  obtain ⟨hpending, hstate, hprep, hexec⟩ := (n.mirrorControl_sameContext_iff op tid now).mpr h
  obtain ⟨pending, tstate, prep, exec, -, hmirror⟩ := n.mirrorControl_node op tid now
  rw [hmirror] at hpending hstate hprep hexec ⊢
  subst hpending hstate hprep hexec
  rfl

section Calls

variable [Ciborium] {S : Type} [Sealer S]

/-- Perform the call. -/
def sendOf (n : GroupNode) (s : S) (target : MemberId) (now : Instant) :
    ControlSend → Except NodeError OutboundFrame × GroupNode × S
  | .control op tid rid args => n.sendControl s target op tid rid args now
  | .claim => n.claimCoordinator s target now

/-- A payload send asks whether it may send before it takes a number, and changes nothing
else, whether it succeeds or fails. -/
theorem sendPayload_untouched (n : GroupNode) (s : S) (target : MemberId) (st : StreamType)
    (sid : StreamId) (flags : UInt16) (pt : Bytes) (codec : PayloadCodec) :
    Untouched n (n.sendPayload s target st sid flags pt codec).2.1 := by
  cases hcan : n.assertCanSend with
  | error e =>
      refine Or.inl ?_
      simp only [sendPayload, hcan]
  | ok u =>
      refine Or.inr ⟨(st, sid), ?_⟩
      rw [sendPayload_seals hcan]

/-- A control send leaves its mirrored node, up to a number. -/
theorem sendControl_untouched (n : GroupNode) (s : S) (target : MemberId) (op : ControlOpcode)
    (tid : TransitionId) (rid : UInt32) (args : Bytes) (now : Instant) :
    Untouched (n.mirrorControl op tid now) (n.sendControl s target op tid rid args now).2.1 :=
  sendPayload_untouched ..

/-- A control send or coordinator claim that fails, for whichever reason, changes nothing exactly
when it is safe to fail: an opcode of no transition, an EXECUTE without deadlines, an ABORT of
nothing after an ABORT, or a PREPARE or READY repeated at the same reading of the clock. -/
theorem failed_control_send_untouched_iff (n : GroupNode) (s : S) (target : MemberId)
    (now : Instant) (x : ControlSend) (e : NodeError)
    (hfail : (n.sendOf s target now x).1 = .error e) :
    Untouched n (n.sendOf s target now x).2.1 ↔ n.AlreadyHolds now x := by
  cases x with
  | control op tid rid args =>
      have hsend := n.sendControl_untouched s target op tid rid args now
      constructor
      · intro h
        obtain ⟨hpending, hstate, -, hprep, hexec, -, -⟩ := h.fields
        exact (n.sendControl_sameContext_iff s target op tid rid args now).mp
          ⟨hpending, hstate, hprep, hexec⟩
      · intro h
        rw [mirrorControl_eq_self h] at hsend
        exact hsend
  | claim =>
      constructor
      · intro h
        obtain ⟨-, -, -, -, -, -, hevents⟩ := h.fields
        obtain ⟨q, hnode⟩ := n.claimCoordinator_node s target now
        rw [sendOf, hnode] at hevents
        exact absurd (congrArg List.length hevents) (by simp)
      · exact False.elim

end Calls

/-- An idle node that sends EXECUTE is refused and had no deadline to clear. -/
theorem failed_control_send_untouched_iff_execute :
    let n := new 1 (Vector.replicate 16 0)
    let x := ControlSend.control .executeTransition 3 0 []
    (n.sendOf PlainSealer.plain 0 5 x).1 = .error (.invalidState "cannot send in state IDLE") ∧
      Untouched n (n.sendOf PlainSealer.plain 0 5 x).2.1 := by
  intro n x
  have hfail : (n.sendOf PlainSealer.plain 0 5 x).1 =
      .error (.invalidState "cannot send in state IDLE") := rfl
  exact ⟨hfail, (failed_control_send_untouched_iff n PlainSealer.plain 0 5 x _ hfail).mpr ⟨rfl, rfl⟩⟩

/-- An idle node that sends PREPARE is refused, but holds the transition as pending and counts
down to its deadline from then on. -/
theorem failed_prepare_is_pending :
    let n := new 1 (Vector.replicate 16 0)
    let r := n.sendOf PlainSealer.plain 0 5 (.control .prepareTransition 1 0 [])
    r.1 = .error (.invalidState "cannot send in state IDLE") ∧ n.pendingTransitionId = 0 ∧
      r.2.1.pendingTransitionId = 1 ∧ n.prepareDeadline = none ∧
      r.2.1.prepareDeadline = some (5 + fromMillis Timeouts.tPrepareMaxMs) ∧
      ¬ Untouched n r.2.1 := by
  intro n r
  refine ⟨rfl, rfl, rfl, rfl, rfl, fun h => ?_⟩
  have hpending : (1 : TransitionId) = 0 := h.fields.1
  cases hpending

end GroupNode

end GroupProtocol
