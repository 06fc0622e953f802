import GroupProtocol.Base.Frame
import GroupProtocol.Core.Errors
import GroupProtocol.Lib.Counters
import GroupProtocol.Mls.Context

/-!
# Group node state

The fields of a node, the events it queues and its local operations: construction,
bootstrap, the node state machine, error emission, sequence numbers and timers.
Arithmetic on identifiers, counters and epochs wraps as in a release build.
-/

namespace GroupProtocol

/-- The AEAD boundary between the node and its cryptographic provider. Both calls may
change the provider. -/
class Sealer (S : Type) where
  «seal» : S → StreamType → SequenceNo → Bytes → Except MlsError Bytes × S
  «open» : S → StreamType → SequenceNo → Bytes → Except MlsError Bytes × S

/-- Whatever opens the bytes of a seal returns its plaintext, if it returns one. -/
def Sealer.OpensOnlySealed (S : Type) [Sealer S] : Prop :=
  ∀ (s r : S) (st : StreamType) (seq : SequenceNo) (pt ct plain : Bytes),
    (Sealer.seal s st seq pt).1 = .ok ct → (Sealer.open r st seq ct).1 = .ok plain → plain = pt

/-- Opening is inverse to sealing, at every party. -/
def Sealer.OpenInverse (S : Type) [Sealer S] : Prop :=
  ∀ (s r : S) (st : StreamType) (seq : SequenceNo) (pt ct : Bytes),
    (Sealer.seal s st seq pt).1 = .ok ct → (Sealer.open r st seq ct).1 = .ok pt

theorem Sealer.OpenInverse.opensOnlySealed {S : Type} [Sealer S] (h : Sealer.OpenInverse S) :
    Sealer.OpensOnlySealed S := by
  intro s r st seq pt ct plain hs ho
  rw [h s r st seq pt ct hs] at ho
  exact (Except.ok.inj ho).symm

/-- An MLS context seals under the label of the stream class and is left unchanged. -/
instance {G C : Type} [OpenMls G C] [ChaCha20Poly1305] : Sealer (MlsContext G C) where
  «seal» m st seq pt := (m.seal (labelFor st) seq pt, m)
  «open» m st seq ct := (m.open (labelFor st) seq ct, m)

/-- The pass-through provider of the node's own tests. -/
inductive PlainSealer
  | plain

instance : Sealer PlainSealer where
  «seal» s _ _ pt := (.ok pt, s)
  «open» s _ _ ct := (.ok ct, s)

theorem PlainSealer.openInverse : Sealer.OpenInverse PlainSealer := by
  intro s r st seq pt ct h
  exact h.symm

/-- A transparent ideal provider: it leaves the plaintext readable, remembers what was
sealed in which epoch and refuses everything else. -/
structure Ledger where
  epoch : UInt64
  entries : List (UInt64 × StreamType × SequenceNo × Bytes)

instance : Sealer Ledger where
  «seal» l st seq pt := (.ok pt, { l with entries := l.entries ++ [(l.epoch, st, seq, pt)] })
  «open» l st seq ct :=
    (if (l.epoch, st, seq, ct) ∈ l.entries then .ok ct else .error (.aead "open"), l)

/-- Errors raised by a node. -/
inductive NodeError
  | codec (e : CodecError)
  | mls (e : MlsError)
  | invalidState (reason : String)
  deriving DecidableEq, Repr

/-- A wire-ready outbound frame. -/
structure OutboundFrame where
  target : MemberId
  wire : Bytes
  deriving DecidableEq, Repr

/-- A payload handed to a sub-protocol. -/
structure DeliveredPayload where
  streamType : StreamType
  streamId : StreamId
  sequenceNo : SequenceNo
  flags : UInt16
  plaintext : Bytes
  codec : PayloadCodec
  deriving DecidableEq, Repr

/-- Events surfaced by the node. -/
inductive Event
  | stateChanged (source target : NodeState)
  | payloadReceived (p : DeliveredPayload)
  | control (source : MemberId) (opcode : ControlOpcode) (transitionId : TransitionId)
      (requestId : UInt32) (args : Bytes)
  | error (code : UInt16) (errorClass : ErrorClass) (retryable fatal : Bool) (reason : String)
  | epochAdvanced (epoch : UInt64) (transitionId : TransitionId)
  | coordinatorElectionNeeded
  | becameCoordinator
  | coordinatorClaim (claimant : MemberId)
  deriving DecidableEq, Repr

/-- The key of a replay window and of a send counter. -/
abbrev StreamKey := StreamType × StreamId

/-- A GBP-layer node. -/
structure GroupNode where
  memberId : MemberId
  isCoordinator : Bool
  groupId : GroupId
  currentEpoch : UInt64
  lastTransitionId : TransitionId
  pendingTransitionId : TransitionId
  state : NodeState
  transitionState : TransitionState
  outSeq : Counters StreamKey SequenceNo
  inHw : Counters StreamKey SequenceNo
  events : List Event
  pendingCommitSender : Option MemberId
  prepareDeadline : Option Instant
  executeDeadline : Option Instant
  coordinatorLastSeen : Option Instant

namespace GroupNode

/-- A fresh node in the idle state. -/
def new (memberId : MemberId) (groupId : GroupId) : GroupNode where
  memberId := memberId
  isCoordinator := false
  groupId := groupId
  currentEpoch := 0
  lastTransitionId := 0
  pendingTransitionId := 0
  state := .idle
  transitionState := .tIdle
  outSeq := ∅
  inHw := ∅
  events := []
  pendingCommitSender := none
  prepareDeadline := none
  executeDeadline := none
  coordinatorLastSeen := none

/-- Queue one event. -/
def push (n : GroupNode) (e : Event) : GroupNode := { n with events := n.events ++ [e] }

/-- Move the node state machine; a forbidden edge fails the node. -/
def transition (n : GroupNode) (next : NodeState) : GroupNode :=
  if n.state = next then n
  else if !n.state.canTransitionTo next then
    { n with state := .failed }.push (.stateChanged n.state .failed)
  else { n with state := next }.push (.stateChanged n.state next)

/-- Drive an idle node to active as the group's creator. -/
def bootstrapAsCreator (n : GroupNode) (epoch : UInt64) : GroupNode :=
  let n := n.transition .connecting
  let n := n.transition .establishingGroup
  let n := { n with currentEpoch := epoch }
  n.transition .active

/-- Drive an idle node to active as a joiner; a nonzero expected transition is pre-armed
as pending, since its PREPARE was sealed under an epoch the joiner cannot open. -/
def bootstrapAsJoiner (n : GroupNode) (epoch : UInt64) (expectedFirstTid : TransitionId) :
    GroupNode :=
  let n := n.transition .connecting
  let n := n.transition .establishingGroup
  let n := { n with currentEpoch := epoch }
  let n :=
    if expectedFirstTid > 0 then
      { n with pendingTransitionId := expectedFirstTid, transitionState := .tPrepared }
    else n
  n.transition .active

/-- Take all queued events. -/
def drainEvents (n : GroupNode) : List Event × GroupNode := (n.events, { n with events := [] })

/-- The stream id of this member within a base class. -/
def memberStreamId (n : GroupNode) (base : UInt32) : StreamId := base + n.memberId * 100

/-- Little-endian bytes as a number. -/
def u32FromLe (b0 b1 b2 b3 : UInt8) : UInt32 :=
  UInt32.ofNat (b0.toNat + b1.toNat * 2 ^ 8 + b2.toNat * 2 ^ 16 + b3.toNat * 2 ^ 24)

/-- Read up to `count` records of a stream class, a stream id and a counter; the first
short or unknown record ends the reading. -/
def restoreRecords (count : ℕ) (cur : Bytes) (m : Counters StreamKey SequenceNo) :
    Counters StreamKey SequenceNo :=
  match count with
  | 0 => m
  | count + 1 =>
    match cur with
    | t :: a0 :: a1 :: a2 :: a3 :: b0 :: b1 :: b2 :: b3 :: rest =>
      match StreamType.tryFrom t.toUInt32 with
      | .error _ => m
      | .ok st =>
        restoreRecords count rest (m.insert (st, u32FromLe a0 a1 a2 a3) (u32FromLe b0 b1 b2 b3))
    | _ => m

/-- Restore exported outbound counters. -/
def restoreOutSeq (n : GroupNode) (bytes : Bytes) : GroupNode :=
  match bytes with
  | c0 :: c1 :: c2 :: c3 :: cur =>
    { n with outSeq := restoreRecords (u32FromLe c0 c1 c2 c3).toNat cur n.outSeq }
  | _ => n

/-- Queue an error and fail the node if it is fatal. The registry overrides the class,
the retryability and the fatality of a known code. -/
def emitErrNamed (n : GroupNode) (code : UInt16) (errorClass : ErrorClass)
    (retryable fatal : Bool) (reason : String) : GroupNode :=
  let (errorClass, retryable, fatal) :=
    match ErrorSpec.lookup code with
    | some spec => (spec.errorClass, spec.retryable, spec.fatal)
    | none => (errorClass, retryable, fatal)
  let n := n.push (.error code errorClass retryable fatal reason)
  if fatal then { n with state := .failed }.push (.stateChanged n.state .failed) else n

/-- Queue a registered error. -/
def emitErrSpec (n : GroupNode) (code : UInt16) (reason : String) : GroupNode :=
  match ErrorSpec.lookup code with
  | some spec => n.emitErrNamed spec.code spec.errorClass spec.retryable spec.fatal reason
  | none => n.emitErrNamed code .policy false false reason

/-- Sending needs an active, resyncing or establishing node. -/
def assertCanSend (n : GroupNode) : Except NodeError Unit :=
  match n.state with
  | .active | .resyncing | .establishingGroup => .ok ()
  | s => .error (.invalidState s!"cannot send in state {s.display}")

/-- Take the next sequence number of a stream. -/
def nextSeq (n : GroupNode) (st : StreamType) (sid : StreamId) : SequenceNo × GroupNode :=
  let seq := n.outSeq.read (st, sid) + 1
  (seq, { n with outSeq := n.outSeq.insert (st, sid) seq })

/-- Force the node to resync. -/
def triggerResync (n : GroupNode) : GroupNode :=
  if n.state ≠ .resyncing then n.transition .resyncing else n

/-- Record that the coordinator was active now. -/
def noteCoordinatorActivity (n : GroupNode) (now : Instant) : GroupNode :=
  { n with coordinatorLastSeen := some now }

/-- Apply a new epoch. -/
def applyTransition (n : GroupNode) (tid : TransitionId) : GroupNode :=
  { n with
    currentEpoch := n.currentEpoch + 1
    lastTransitionId := tid
    pendingTransitionId := 0
    pendingCommitSender := none
    transitionState := .tExecuted
    outSeq := ∅
    inHw := ∅ }.push (.epochAdvanced (n.currentEpoch + 1) tid)

/-- Whether a deadline has passed. -/
def expired (deadline : Option Instant) (now : Instant) : Bool :=
  match deadline with
  | some d => d ≤ now
  | none => false

/-- Expiry of the PREPARE deadline drops the pending transition. -/
def checkPrepare (n : GroupNode) (now : Instant) : GroupNode :=
  if expired n.prepareDeadline now then
    { n with
      prepareDeadline := none
      executeDeadline := none
      pendingTransitionId := 0
      transitionState := .tAborted }.emitErrSpec Codes.prepareTimeout "T_prepare_max exceeded"
  else n

/-- Expiry of the EXECUTE deadline is only reported. -/
def checkExecute (n : GroupNode) (now : Instant) : GroupNode :=
  if expired n.executeDeadline now then
    { n with executeDeadline := none }.emitErrSpec Codes.executeTimeout "T_execute_max exceeded"
  else n

/-- Coordinator silence past the grace period drops the role and asks for an election. -/
def checkCoordinator (n : GroupNode) (now : Instant) : GroupNode :=
  match n.coordinatorLastSeen with
  | some t =>
    if UInt64.ofNat (millisSince now t) ≥ Timeouts.tCoordinatorGraceMs then
      ({ n with coordinatorLastSeen := none, isCoordinator := false }.emitErrSpec
        Codes.coordinatorGone "coordinator silence exceeded T_coordinator_grace").push
          .coordinatorElectionNeeded
    else n
  | none => n

/-- Check every deadline and take the queued events. -/
def checkTimeouts (n : GroupNode) (now : Instant) : List Event × GroupNode :=
  (((n.checkPrepare now).checkExecute now).checkCoordinator now).drainEvents

end GroupNode

end GroupProtocol
