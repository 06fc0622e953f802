import GroupProtocol.Clients.Messages
import GroupProtocol.Node.Inversion
import Mathlib.Data.Finset.Empty

/-!
# Sending through the sub-protocol clients

The three stateful clients as far as sending needs them: each observes the node's epoch,
builds its payload and hands it to the node on the sender's own stream of its class. A
client never touches the node in any other way.
-/

namespace GroupProtocol

/-- A set with a bounded capacity; `order` lists its entries, oldest first. -/
structure BoundedSeen (α : Type) where
  set : Finset α
  order : List α
  cap : ℕ

namespace BoundedSeen

/-- An empty set with the given capacity. -/
def new {α : Type} (cap : ℕ) : BoundedSeen α := ⟨∅, [], cap⟩

/-- Forget every entry. -/
def clear {α : Type} (b : BoundedSeen α) : BoundedSeen α := { b with set := ∅, order := [] }

end BoundedSeen

/-! Text. -/

/-- The text client. -/
structure GtpClient where
  seen : BoundedSeen (MemberId × UInt64)
  currentEpoch : Option UInt64

namespace GtpClient

/-- An empty client. -/
def new : GtpClient := ⟨BoundedSeen.new 10000, none⟩

/-- Reset the idempotency state when the epoch has changed. -/
def syncEpoch (c : GtpClient) (epoch : UInt64) : GtpClient :=
  if some epoch ≠ c.currentEpoch then ⟨c.seen.clear, some epoch⟩ else c

variable [Ciborium] [Codegen GtpMessage] {S : Type} [Sealer S]

/-- Sends a text message. -/
def send (c : GtpClient) (n : GroupNode) (s : S) (target : MemberId) (messageId : UInt64)
    (text : String) (codec : PayloadCodec) :
    Except NodeError OutboundFrame × GtpClient × GroupNode × S :=
  let c := c.syncEpoch n.currentEpoch
  let msg := GtpMessage.plain n.memberId messageId text
  let (r, n, s) := n.sendPayload s target .text (n.memberStreamId 1) GbpFlags.orderedReliableAck
    (msg.toBytes codec) codec
  (r, c, n, s)

end GtpClient

/-! Audio. -/

/-- A replay window of an old epoch, kept until it expires. -/
structure OldEpochWindow where
  epoch : UInt64
  inHw : Counters UInt32 UInt32
  expires : Instant

/-- The audio client. -/
structure GapClient where
  outRtpSeq : Counters UInt32 UInt32
  inHw : Counters UInt32 UInt32
  currentEpoch : Option UInt64
  oldWindows : List OldEpochWindow

namespace GapClient

/-- An empty client. -/
def new : GapClient := ⟨∅, ∅, none, []⟩

/-- Prune expired windows; on an epoch change keep the current window for the overlap and
restart the counters. -/
def syncEpoch (c : GapClient) (epoch : UInt64) (now : Instant) : GapClient :=
  let old := c.oldWindows.filter fun w => decide (w.expires > now)
  if some epoch ≠ c.currentEpoch then
    let saved :=
      match c.currentEpoch with
      | some oldEpoch =>
        if c.inHw.entries.isEmpty then []
        else [⟨oldEpoch, c.inHw, now + fromMillis Timeouts.tGapKeyOverlapMs⟩]
      | none => []
    ⟨∅, ∅, some epoch, old ++ saved⟩
  else { c with oldWindows := old }

variable [Ciborium] [Codegen GapPayload] {S : Type} [Sealer S]

/-- Sends an Opus frame. The RTP number is kept in sixteen bits. -/
def send (c : GapClient) (n : GroupNode) (s : S) (target : MemberId) (mediaSourceId : UInt32)
    (rtpTimestamp : UInt64) (opus : Bytes) (codec : PayloadCodec) (now : Instant) :
    Except NodeError OutboundFrame × GapClient × GroupNode × S :=
  let c := c.syncEpoch n.currentEpoch now
  let seq := (c.outRtpSeq.read mediaSourceId + 1) &&& 0xFFFF
  let c := { c with outRtpSeq := c.outRtpSeq.insert mediaSourceId seq }
  let payload : GapPayload := ⟨mediaSourceId, seq, rtpTimestamp, n.currentEpoch.toUInt32, opus⟩
  let (r, n, s) := n.sendPayload s target .audio (n.memberStreamId 2) GbpFlags.orderedOnly
    (payload.toBytes codec) codec
  (r, c, n, s)

end GapClient

/-! Signals. -/

/-- The signal client. -/
structure GspClient where
  seenRequests : BoundedSeen UInt32
  muted : Finset MemberId
  members : Finset MemberId
  currentEpoch : Option UInt64

namespace GspClient

/-- An empty client. -/
def new : GspClient := ⟨BoundedSeen.new 10000, ∅, ∅, none⟩

/-- Reset the request deduplication when the epoch has changed. -/
def syncEpoch (c : GspClient) (epoch : UInt64) : GspClient :=
  if some epoch ≠ c.currentEpoch then
    { c with seenRequests := c.seenRequests.clear, currentEpoch := some epoch }
  else c

variable [Ciborium] [Codegen GspSignal] {S : Type} [Sealer S]

/-- Sends a signal with arguments. -/
def sendWithArgs (c : GspClient) (n : GroupNode) (s : S) (target : MemberId)
    (signal : SignalType) (roleClaim requestId : UInt32) (args : Bytes) (codec : PayloadCodec) :
    Except NodeError OutboundFrame × GspClient × GroupNode × S :=
  let c := c.syncEpoch n.currentEpoch
  let sig := { GspSignal.bare signal.asU32 requestId n.memberId with
    roleClaim := roleClaim, args := args, argsLength := UInt32.ofNat args.length }
  let (r, n, s) := n.sendPayload s target .signal (n.memberStreamId 3)
    GbpFlags.orderedReliableAck (sig.toBytes codec) codec
  (r, c, n, s)

end GspClient

end GroupProtocol
