import GroupProtocol.Clients.Sending

/-!
# A member and its four ways to send

A member is a node with its three clients. Text, audio, signal and control sends all end
in one payload send on the member's own stream of their class.
-/

namespace GroupProtocol

/-- A node and its sub-protocol clients. -/
structure Member where
  node : GroupNode
  gtp : GtpClient
  gap : GapClient
  gsp : GspClient

/-- The sends of a member. -/
inductive SendOp
  | text (target : MemberId) (messageId : UInt64) (text : String) (codec : PayloadCodec)
  | audio (target : MemberId) (mediaSourceId : UInt32) (rtpTimestamp : UInt64) (opus : Bytes)
      (codec : PayloadCodec)
  | signal (target : MemberId) (signal : SignalType) (roleClaim requestId : UInt32)
      (args : Bytes) (codec : PayloadCodec)
  | control (target : MemberId) (opcode : ControlOpcode) (transitionId : TransitionId)
      (requestId : UInt32) (args : Bytes)

namespace SendOp

/-- The stream class of a send. -/
def stream : SendOp → StreamType
  | text .. => .text
  | audio .. => .audio
  | signal .. => .signal
  | control .. => .control

/-- The addressee of a send. -/
def target : SendOp → MemberId
  | text target .. => target
  | audio target .. => target
  | signal target .. => target
  | control target .. => target

/-- The flags of a send. -/
def flags : SendOp → UInt16
  | text .. => GbpFlags.orderedReliableAck
  | audio .. => GbpFlags.orderedOnly
  | signal .. => GbpFlags.orderedReliableAck
  | control _ op .. => GroupNode.controlFlags op

/-- The payload codec of a send. -/
def codec : SendOp → PayloadCodec
  | text _ _ _ codec => codec
  | audio _ _ _ _ codec => codec
  | signal _ _ _ _ _ codec => codec
  | control .. => .cbor

end SendOp

/-- The base of a class in the stream id arithmetic. -/
def streamBase : StreamType → UInt32
  | .control => 0
  | .text => 1
  | .audio => 2
  | .signal => 3

/-- The stream a node uses for a class. -/
def GroupNode.ownStream (n : GroupNode) (st : StreamType) : StreamKey :=
  (st, n.memberStreamId (streamBase st))

namespace Member

/-- A member around a node, with empty clients. -/
def new (node : GroupNode) : Member := ⟨node, GtpClient.new, GapClient.new, GspClient.new⟩

variable [Ciborium] [Codegen GtpMessage] [Codegen GapPayload] [Codegen GspSignal] {S : Type}
  [Sealer S]

/-- Perform a send. -/
def send (m : Member) (s : S) (op : SendOp) (now : Instant) :
    Except NodeError OutboundFrame × Member × S :=
  match op with
  | .text target messageId text codec =>
    let (r, c, n, s) := m.gtp.send m.node s target messageId text codec
    (r, { m with node := n, gtp := c }, s)
  | .audio target mediaSourceId rtpTimestamp opus codec =>
    let (r, c, n, s) := m.gap.send m.node s target mediaSourceId rtpTimestamp opus codec now
    (r, { m with node := n, gap := c }, s)
  | .signal target signal roleClaim requestId args codec =>
    let (r, c, n, s) := m.gsp.sendWithArgs m.node s target signal roleClaim requestId args codec
    (r, { m with node := n, gsp := c }, s)
  | .control target opcode tid rid args =>
    let (r, n, s) := m.node.sendControl s target opcode tid rid args now
    (r, { m with node := n }, s)

/-- The node a send starts from: a control send mirrors its opcode first. -/
def prepared (m : Member) (op : SendOp) (now : Instant) : GroupNode :=
  match op with
  | .control _ opcode tid _ _ => m.node.mirrorControl opcode tid now
  | _ => m.node

/-- The plaintext a send hands to the node. -/
def plaintext (m : Member) (op : SendOp) (now : Instant) : Bytes :=
  match op with
  | .text _ messageId text codec =>
    (GtpMessage.plain m.node.memberId messageId text).toBytes codec
  | .audio _ mediaSourceId rtpTimestamp opus codec =>
    let rtp := (m.gap.syncEpoch m.node.currentEpoch now).outRtpSeq.read mediaSourceId
    (GapPayload.mk mediaSourceId ((rtp + 1) &&& 0xFFFF) rtpTimestamp
      m.node.currentEpoch.toUInt32 opus).toBytes codec
  | .signal _ signal roleClaim requestId args codec =>
    (GspSignal.mk signal.asU32 requestId m.node.memberId roleClaim (UInt32.ofNat args.length)
      args).toBytes codec
  | .control _ opcode tid rid args =>
    (ControlMessage.withArgs opcode.asU16 rid m.node.memberId tid args).toCbor

/-- Every send is one payload send of the prepared node on its own stream of the class. -/
theorem send_eq (m : Member) (s : S) (op : SendOp) (now : Instant) :
    let r := (m.prepared op now).sendPayload s op.target op.stream
      (m.node.ownStream op.stream).2 op.flags (m.plaintext op now) op.codec
    (m.send s op now).1 = r.1 ∧ (m.send s op now).2.1.node = r.2.1 ∧
      (m.send s op now).2.2 = r.2.2 := by
  cases op with
  | text target messageId text codec => exact ⟨rfl, rfl, rfl⟩
  | audio target mediaSourceId rtpTimestamp opus codec => exact ⟨rfl, rfl, rfl⟩
  | signal target signal roleClaim requestId args codec => exact ⟨rfl, rfl, rfl⟩
  | control target opcode tid rid args => cases opcode <;> exact ⟨rfl, rfl, rfl⟩

omit [Ciborium] [Codegen GtpMessage] [Codegen GapPayload] [Codegen GspSignal] in
/-- Preparing a send touches the pending transition only. -/
theorem prepared_node (m : Member) (op : SendOp) (now : Instant) :
    ∃ pending tstate prep exec, m.prepared op now = { m.node with
      pendingTransitionId := pending, transitionState := tstate, prepareDeadline := prep,
      executeDeadline := exec } := by
  cases op with
  | control target opcode tid rid args => cases opcode <;> exact ⟨_, _, _, _, rfl⟩
  | _ => exact ⟨_, _, _, _, rfl⟩

/-- An active member takes the next number of its stream and seals once under it. -/
theorem send_active {m : Member} (h : m.node.state = .active) (s : S) (op : SendOp)
    (now : Instant) :
    (∃ pending tstate prep exec, (m.send s op now).2.1.node = { m.node with
      pendingTransitionId := pending, transitionState := tstate, prepareDeadline := prep,
      executeDeadline := exec,
      outSeq := m.node.outSeq.insert (m.node.ownStream op.stream)
        (m.node.outSeq.read (m.node.ownStream op.stream) + 1) }) ∧
      (m.send s op now).2.2 = (Sealer.seal s op.stream
        (m.node.outSeq.read (m.node.ownStream op.stream) + 1) (m.plaintext op now)).2 := by
  obtain ⟨pending, tstate, prep, exec, hprep⟩ := m.prepared_node op now
  have hcan : (m.prepared op now).assertCanSend = .ok () := by
    rw [hprep]
    exact GroupNode.assertCanSend_active h
  obtain ⟨-, hnode, hseal⟩ := m.send_eq s op now
  rw [GroupNode.sendPayload_seals hcan, hprep] at hnode hseal
  exact ⟨⟨pending, tstate, prep, exec, hnode⟩, hseal⟩

end Member

end GroupProtocol
