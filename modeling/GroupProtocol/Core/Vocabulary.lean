import Mathlib.Data.Nat.Notation

/-!
# Shared vocabulary of the stack

Stream classes, payload codecs, control opcodes, the two finite state machines,
delivery flags and the normative timeouts. Wire discriminants are kept beside each
enumeration; a value outside a registry has no enumeration member.
-/

namespace GroupProtocol

/-- Application-level group member identifier. -/
abbrev MemberId := UInt32

/-- Identifier of a pending or applied control plane transition. -/
abbrev TransitionId := UInt32

/-- Logical stream identifier within a session. -/
abbrev StreamId := UInt32

/-- Per-stream monotonic sequence number used for the replay window. -/
abbrev SequenceNo := UInt32

/-- Group identifier, sixteen bytes on the wire. -/
abbrev GroupId := Vector UInt8 16

/-- An owned byte string. -/
abbrev Bytes := List UInt8

/-- A clock reading in nanoseconds from an arbitrary origin. -/
abbrev Instant := ℕ

/-- Length of a duration given in milliseconds. -/
def fromMillis (ms : UInt64) : ℕ := ms.toNat * 1000000

/-- Elapsed whole milliseconds; an earlier reading than `t` saturates to zero. -/
def millisSince (now t : Instant) : ℕ := (now - t) / 1000000

/-- The four stream classes. -/
inductive StreamType
  | control
  | audio
  | text
  | signal
  deriving DecidableEq, Repr

namespace StreamType

/-- The on-wire byte representation. -/
def asU8 : StreamType → UInt8
  | control => 0
  | audio => 1
  | text => 2
  | signal => 3

/-- Decoding rejects every value outside the registry. -/
def tryFrom (v : UInt32) : Except UInt32 StreamType :=
  if v = 0 then .ok control
  else if v = 1 then .ok audio
  else if v = 2 then .ok text
  else if v = 3 then .ok signal
  else .error v

/-- The name shown in diagnostics. -/
def display : StreamType → String
  | control => "control"
  | audio => "audio"
  | text => "text"
  | signal => "signal"

@[simp] theorem tryFrom_asU8 (st : StreamType) : tryFrom st.asU8.toUInt32 = .ok st := by
  cases st <;> rfl

end StreamType

/-- Codec of the sub-protocol payload inside a frame. -/
inductive PayloadCodec
  | cbor
  | protobuf
  | flatBuffers
  deriving DecidableEq, Repr

namespace PayloadCodec

/-- The on-wire byte discriminant. -/
def asU8 : PayloadCodec → UInt8
  | cbor => 0
  | protobuf => 1
  | flatBuffers => 2

/-- Unknown discriminants have no codec. -/
def fromU8 (v : UInt8) : Option PayloadCodec :=
  if v = 0 then some cbor
  else if v = 1 then some protobuf
  else if v = 2 then some flatBuffers
  else none

@[simp] theorem fromU8_asU8 (c : PayloadCodec) : fromU8 c.asU8 = some c := by
  cases c <;> rfl

theorem asU8_injective : Function.Injective asU8 := by
  intro c c' h
  have hread := fromU8_asU8 c
  rw [h, fromU8_asU8] at hread
  exact (Option.some.inj hread).symm

end PayloadCodec

/-- Control plane opcodes. -/
inductive ControlOpcode
  | prepareTransition
  | readyForTransition
  | executeTransition
  | abortTransition
  | groupStateDigestRequest
  | groupStateDigestResponse
  | reportInvalidCommit
  | capabilitiesAdvertise
  | ack
  | nack
  deriving DecidableEq, Repr

namespace ControlOpcode

/-- The on-wire discriminant. -/
def asU16 : ControlOpcode → UInt16
  | prepareTransition => 0x0001
  | readyForTransition => 0x0002
  | executeTransition => 0x0003
  | abortTransition => 0x0004
  | groupStateDigestRequest => 0x0005
  | groupStateDigestResponse => 0x0006
  | reportInvalidCommit => 0x0007
  | capabilitiesAdvertise => 0x0008
  | ack => 0x0009
  | nack => 0x000A

/-- Decoding rejects every value outside the registry. -/
def tryFrom (v : UInt16) : Except UInt16 ControlOpcode :=
  if v = 0x0001 then .ok prepareTransition
  else if v = 0x0002 then .ok readyForTransition
  else if v = 0x0003 then .ok executeTransition
  else if v = 0x0004 then .ok abortTransition
  else if v = 0x0005 then .ok groupStateDigestRequest
  else if v = 0x0006 then .ok groupStateDigestResponse
  else if v = 0x0007 then .ok reportInvalidCommit
  else if v = 0x0008 then .ok capabilitiesAdvertise
  else if v = 0x0009 then .ok ack
  else if v = 0x000A then .ok nack
  else .error v

/-- The name in the specification. -/
def name : ControlOpcode → String
  | prepareTransition => "PREPARE_TRANSITION"
  | readyForTransition => "READY_FOR_TRANSITION"
  | executeTransition => "EXECUTE_TRANSITION"
  | abortTransition => "ABORT_TRANSITION"
  | groupStateDigestRequest => "GROUP_STATE_DIGEST_REQUEST"
  | groupStateDigestResponse => "GROUP_STATE_DIGEST_RESPONSE"
  | reportInvalidCommit => "REPORT_INVALID_COMMIT"
  | capabilitiesAdvertise => "CAPABILITIES_ADVERTISE"
  | ack => "ACK"
  | nack => "NACK"

/-- The variant name printed by the debug formatter. -/
def debugName : ControlOpcode → String
  | prepareTransition => "PrepareTransition"
  | readyForTransition => "ReadyForTransition"
  | executeTransition => "ExecuteTransition"
  | abortTransition => "AbortTransition"
  | groupStateDigestRequest => "GroupStateDigestRequest"
  | groupStateDigestResponse => "GroupStateDigestResponse"
  | reportInvalidCommit => "ReportInvalidCommit"
  | capabilitiesAdvertise => "CapabilitiesAdvertise"
  | ack => "Ack"
  | nack => "Nack"

@[simp] theorem tryFrom_asU16 (op : ControlOpcode) : tryFrom op.asU16 = .ok op := by
  cases op <;> rfl

theorem asU16_injective : Function.Injective asU16 := by
  intro op op' h
  have hread := tryFrom_asU16 op
  rw [h, tryFrom_asU16] at hread
  exact (Except.ok.inj hread).symm

end ControlOpcode

/-- Group node states. -/
inductive NodeState
  | idle
  | connecting
  | establishingGroup
  | active
  | resyncing
  | failed
  | closed
  deriving DecidableEq, Repr

namespace NodeState

/-- The edges allowed by the state-machine specification. -/
def canTransitionTo : NodeState → NodeState → Bool
  | idle, connecting => true
  | idle, failed => true
  | connecting, establishingGroup => true
  | connecting, failed => true
  | establishingGroup, active => true
  | establishingGroup, failed => true
  | active, resyncing => true
  | active, closed => true
  | active, failed => true
  | resyncing, active => true
  | resyncing, failed => true
  | _, closed => true
  | _, _ => false

/-- The name shown in diagnostics. -/
def display : NodeState → String
  | idle => "IDLE"
  | connecting => "CONNECTING"
  | establishingGroup => "ESTABLISHING_GROUP"
  | active => "ACTIVE"
  | resyncing => "RESYNCING"
  | failed => "FAILED"
  | closed => "CLOSED"

theorem display_injective : Function.Injective display := by
  intro s s' h
  cases s <;> cases s' <;> simp_all [display]

end NodeState

/-- Epoch transition states. -/
inductive TransitionState
  | tIdle
  | tPrepared
  | tCommitProcessed
  | tReady
  | tExecuted
  | tAborted
  deriving DecidableEq, Repr

/-- The edges allowed by the state-machine specification. -/
def TransitionState.canTransitionTo : TransitionState → TransitionState → Bool
  | tIdle, tPrepared => true
  | tPrepared, tCommitProcessed => true
  | tPrepared, tAborted => true
  | tCommitProcessed, tReady => true
  | tCommitProcessed, tAborted => true
  | tReady, tExecuted => true
  | tReady, tAborted => true
  | tExecuted, tIdle => true
  | tAborted, tIdle => true
  | _, _ => false

/-- Signal opcodes. -/
inductive SignalType
  | join
  | leave
  | roleChange
  | mute
  | unmute
  | streamStart
  | streamStop
  | codecUpdate
  deriving DecidableEq, Repr

/-- The on-wire discriminant, widened to thirty-two bits. -/
def SignalType.asU32 : SignalType → UInt32
  | join => 100
  | leave => 101
  | roleChange => 102
  | mute => 200
  | unmute => 201
  | streamStart => 300
  | streamStop => 301
  | codecUpdate => 400

namespace GbpFlags

/-- Bit 0: ordered. -/
def ordered : UInt16 := 0x0001

/-- Bit 1: reliable. -/
def reliable : UInt16 := 0x0002

/-- Bit 2: acknowledgement required. -/
def ackReq : UInt16 := 0x0004

/-- Bit 3: system frame. -/
def system : UInt16 := 0x0008

/-- Bit 4: the frame must match the current transition. -/
def critical : UInt16 := 0x0010

/-- Whether the given bit is set. -/
def has (flags bit : UInt16) : Bool := flags &&& bit != 0

/-- Chat and signaling messages. -/
def orderedReliableAck : UInt16 := ordered ||| reliable ||| ackReq

/-- The control plane. -/
def orderedReliableSystem : UInt16 := ordered ||| reliable ||| system

/-- Best-effort ordered media. -/
def orderedOnly : UInt16 := ordered

end GbpFlags

namespace Timeouts

/-- Coordinator: maximal wait for the READY quorum after PREPARE. -/
def tPrepareMaxMs : UInt64 := 5000

/-- Member: maximal wait for EXECUTE after READY. -/
def tExecuteMaxMs : UInt64 := 10000

/-- Member: silence threshold before a coordinator handover. -/
def tCoordinatorGraceMs : UInt64 := 10000

/-- Audio: how long old-epoch windows are retained after a transition. -/
def tGapKeyOverlapMs : UInt64 := 10000

end Timeouts

end GroupProtocol
