import GroupProtocol.Node.State

/-!
# Sending and receiving frames

The outbound paths, the inbound validation pipeline and the control plane. The
pipeline checks version, group, epoch, payload size, stream class, the transition
of CRITICAL application frames and the replay window, in this order, records the
sequence number and only then opens the payload. Every call reads the clock once.
-/

namespace GroupProtocol

namespace GroupNode

variable [Ciborium] {S : Type} [Sealer S]

/-- Seal a payload under the next sequence number of its stream and frame it. -/
def sendPayload (n : GroupNode) (s : S) (target : MemberId) (streamType : StreamType)
    (streamId : StreamId) (flags : UInt16) (plaintext : Bytes) (codec : PayloadCodec) :
    Except NodeError OutboundFrame × GroupNode × S :=
  match n.assertCanSend with
  | .error e => (.error e, n, s)
  | .ok () =>
    let (seq, n) := n.nextSeq streamType streamId
    match Sealer.seal s streamType seq plaintext with
    | (.error e, s) => (.error (.mls e), n, s)
    | (.ok ciphertext, s) =>
      let frame := GbpFrame.new n.groupId n.currentEpoch n.lastTransitionId streamType streamId
        flags seq ciphertext codec.asU8
      (.ok ⟨target, frame.toCbor⟩, n, s)

/-- What sending an opcode changes in the sender's own transition context. -/
def mirrorControl (n : GroupNode) (opcode : ControlOpcode) (transitionId : TransitionId)
    (now : Instant) : GroupNode :=
  match opcode with
  | .prepareTransition =>
    { n with
      pendingTransitionId := transitionId
      transitionState := .tPrepared
      prepareDeadline := some (now + fromMillis Timeouts.tPrepareMaxMs)
      executeDeadline := none }
  | .readyForTransition =>
    { n with executeDeadline := some (now + fromMillis Timeouts.tExecuteMaxMs) }
  | .executeTransition => { n with prepareDeadline := none, executeDeadline := none }
  | .abortTransition =>
    { n with
      prepareDeadline := none
      executeDeadline := none
      pendingTransitionId := 0
      transitionState := .tAborted }
  | _ => n

/-- The delivery flags of a control opcode. -/
def controlFlags (opcode : ControlOpcode) : UInt16 :=
  match opcode with
  | .prepareTransition | .readyForTransition | .executeTransition =>
    GbpFlags.orderedReliableSystem ||| GbpFlags.critical
  | _ => GbpFlags.orderedReliableSystem

/-- Send a control message on the member's control stream. -/
def sendControl (n : GroupNode) (s : S) (target : MemberId) (opcode : ControlOpcode)
    (transitionId : TransitionId) (requestId : UInt32) (args : Bytes) (now : Instant) :
    Except NodeError OutboundFrame × GroupNode × S :=
  let ctl := ControlMessage.withArgs opcode.asU16 requestId n.memberId transitionId args
  let n := n.mirrorControl opcode transitionId now
  n.sendPayload s target .control (n.memberStreamId 0) (controlFlags opcode) ctl.toCbor .cbor

/-- Claim the coordinator role and broadcast the claim. -/
def claimCoordinator (n : GroupNode) (s : S) (target : MemberId) (now : Instant) :
    Except NodeError OutboundFrame × GroupNode × S :=
  let n := { n with isCoordinator := true, coordinatorLastSeen := some now }.push
    .becameCoordinator
  n.sendControl s target .capabilitiesAdvertise n.lastTransitionId 0 [0xA1, 0x00, 0xF5] now

/-- Two adjacent bytes `00 F5` occur. -/
def hasClaimPair : Bytes → Bool
  | a :: b :: rest => (a == 0x00 && b == 0xF5) || hasClaimPair (b :: rest)
  | _ => false

/-- The arguments encode a coordinator claim. -/
def isCoordinatorClaim (args : Bytes) : Bool := args == [0xA1, 0x00, 0xF5] || hasClaimPair args

/-- The per-opcode transition matrix: PREPARE must be newer than the last applied
transition and not displace another pending one; READY, EXECUTE and ABORT must name the
pending transition; every other opcode is unconstrained. -/
def tidOk (n : GroupNode) (opcode : ControlOpcode) (tid : TransitionId) : Bool :=
  match opcode with
  | .prepareTransition =>
    decide (tid > n.lastTransitionId) &&
      (n.pendingTransitionId == 0 || n.pendingTransitionId == tid)
  | .readyForTransition | .executeTransition | .abortTransition =>
    n.pendingTransitionId != 0 && tid == n.pendingTransitionId
  | _ => true

/-- A PREPARE for the pending transition loses against the recorded committer unless its
sender is lower; with no committer recorded every sender wins. -/
def prepareLoses (n : GroupNode) (c : ControlMessage) : Bool :=
  n.pendingTransitionId == c.transitionId && decide (n.pendingCommitSender.getD 0xFFFFFFFF ≤ c.senderId)

/-- What an accepted control message changes. -/
def applyControl (n : GroupNode) (opcode : ControlOpcode) (c : ControlMessage) (now : Instant) :
    GroupNode :=
  match opcode with
  | .prepareTransition =>
    if n.prepareLoses c then n
    else
      { { n with
          pendingTransitionId := c.transitionId
          pendingCommitSender := some c.senderId
          transitionState := .tPrepared }.noteCoordinatorActivity now with
        executeDeadline := some (now + fromMillis Timeouts.tExecuteMaxMs) }
  | .readyForTransition => { n with transitionState := .tReady, prepareDeadline := none }
  | .executeTransition =>
    ({ n with executeDeadline := none, pendingCommitSender := none }.applyTransition
      c.transitionId).noteCoordinatorActivity now
  | .abortTransition =>
    { n with
      prepareDeadline := none
      executeDeadline := none
      pendingCommitSender := none
      transitionState := .tAborted
      pendingTransitionId := 0 }
  | .groupStateDigestResponse =>
    if n.state = .resyncing then n.transition .active else n
  | .capabilitiesAdvertise =>
    if isCoordinatorClaim c.args then
      let n := n.noteCoordinatorActivity now
      let n :=
        if n.isCoordinator && decide (c.senderId < n.memberId) then
          { n with isCoordinator := false }
        else n
      n.push (.coordinatorClaim c.senderId)
    else n
  | _ => n

/-- Decode, validate and apply an authenticated control message, then surface it. -/
def handleControl (n : GroupNode) (plain : Bytes) (now : Instant) : GroupNode :=
  match ControlMessage.fromCbor plain with
  | .error _ => n.emitErrSpec Codes.streamPolicyViolation "control decode"
  | .ok c =>
    match ControlOpcode.tryFrom c.opcode with
    | .error _ => n.emitErrSpec Codes.streamPolicyViolation "unknown opcode"
    | .ok opcode =>
      if !n.tidOk opcode c.transitionId then
        let opcodeName := opcode.debugName
        n.emitErrSpec Codes.transitionMismatch
          s!"control tid={c.transitionId} not valid for {opcodeName} (last={n.lastTransitionId}, pending={n.pendingTransitionId})"
      else
        (n.applyControl opcode c now).push
          (.control c.senderId opcode c.transitionId c.requestId c.args)

/-- The validation pipeline on a decoded frame. -/
def deliverFrame (n : GroupNode) (s : S) (frame : GbpFrame) (now : Instant) : GroupNode × S :=
  if frame.version ≠ 1 then
    (n.emitErrSpec Codes.unsupportedVersion "version != 1", s)
  else if frame.groupIdArray ≠ n.groupId then
    (n.emitErrSpec Codes.unknownGroup "group_id", s)
  else if frame.epoch ≠ n.currentEpoch then
    ((n.emitErrSpec Codes.epochMismatch
      s!"got {frame.epoch}, expected {n.currentEpoch}").triggerResync, s)
  else
    match frame.validatePayloadSize with
    | .error e =>
      let reason := e.display
      (n.emitErrSpec Codes.streamPolicyViolation s!"payload size: {reason}", s)
    | .ok () =>
      match frame.streamTypeTyped with
      | .error _ => (n.emitErrSpec Codes.streamPolicyViolation "unknown stream_type", s)
      | .ok st =>
        if st ≠ .control ∧ GbpFlags.has frame.flags GbpFlags.critical = true ∧
            frame.transitionId ≠ n.lastTransitionId then
          (n.emitErrSpec Codes.transitionMismatch
            s!"got tid={frame.transitionId}, expected {n.lastTransitionId}", s)
        else
          let hw := n.inHw.read (st, frame.streamId)
          if frame.sequenceNo ≤ hw then
            let stName := st.display
            (n.emitErrSpec Codes.replayDetected
              s!"st={stName} sid={frame.streamId} seq={frame.sequenceNo} hw={hw}", s)
          else
            -- The number is recorded before the payload is opened.
            let n := { n with inHw := n.inHw.insert (st, frame.streamId) frame.sequenceNo }
            match Sealer.open s st frame.sequenceNo frame.encryptedPayload with
            | (.error e, s) =>
              let reason := e.display
              (n.emitErrNamed Codes.decryptFailed .crypto true false s!"aead open: {reason}", s)
            | (.ok plain, s) =>
              match st with
              | .control => (n.handleControl plain now, s)
              | other =>
                (n.push (.payloadReceived ⟨other, frame.streamId, frame.sequenceNo, frame.flags,
                  plain, frame.payloadCodec⟩), s)

/-- Feed wire bytes to the node and take every queued event. No input makes the call
itself fail: malformed frames are reported as events. -/
def onWire (n : GroupNode) (s : S) (wire : Bytes) (now : Instant) : List Event × GroupNode × S :=
  match GbpFrame.decode wire with
  | .error e =>
    let reason := e.display
    let (evs, n) := (n.emitErrSpec Codes.streamPolicyViolation s!"frame decode: {reason}").drainEvents
    (evs, n, s)
  | .ok frame =>
    let (n, s) := n.deliverFrame s frame now
    let (evs, n) := n.drainEvents
    (evs, n, s)

end GroupNode

end GroupProtocol
