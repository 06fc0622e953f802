import GroupProtocol.Audio.Coverage
import GroupProtocol.Audio.Jitter
import GroupProtocol.Audio.Playout
import GroupProtocol.Audio.Serial
import GroupProtocol.Audio.Stream
import GroupProtocol.Audio.Window
import GroupProtocol.Base.Frame
import GroupProtocol.Base.Serde
import GroupProtocol.Channel.Audio
import GroupProtocol.Channel.Inbox
import GroupProtocol.Channel.Link
import GroupProtocol.Channel.Order
import GroupProtocol.Channel.Roster
import GroupProtocol.Channel.Texts
import GroupProtocol.Clients.Capabilities
import GroupProtocol.Clients.Codecs
import GroupProtocol.Clients.Member
import GroupProtocol.Clients.Membership
import GroupProtocol.Clients.Messages
import GroupProtocol.Clients.Overlap
import GroupProtocol.Clients.Receiving
import GroupProtocol.Clients.Refusal
import GroupProtocol.Clients.Sending
import GroupProtocol.Coordinator.Claims
import GroupProtocol.Coordinator.Recognition
import GroupProtocol.Coordinator.Silence
import GroupProtocol.Core.Errors
import GroupProtocol.Core.Vocabulary
import GroupProtocol.Ffi.Events
import GroupProtocol.Ffi.Locks
import GroupProtocol.Lib.Ascending
import GroupProtocol.Lib.Base64
import GroupProtocol.Lib.BigEndian
import GroupProtocol.Lib.Cbor
import GroupProtocol.Lib.CborItem
import GroupProtocol.Lib.Counters
import GroupProtocol.Lib.Dispenser
import GroupProtocol.Lib.Election
import GroupProtocol.Lib.HighWater
import GroupProtocol.Lib.LockOrder
import GroupProtocol.Lib.Machine
import GroupProtocol.Lib.Memory
import GroupProtocol.Lib.Numbering
import GroupProtocol.Lib.Prefixed
import GroupProtocol.Lib.Records
import GroupProtocol.Lib.ReplayWindow
import GroupProtocol.Lib.Slots
import GroupProtocol.Lib.Streams
import GroupProtocol.Lib.Words
import GroupProtocol.Lifecycle.Conformance
import GroupProtocol.Lifecycle.Failed
import GroupProtocol.Lifecycle.Fatal
import GroupProtocol.Lifecycle.Signals
import GroupProtocol.Mls.Blobs
import GroupProtocol.Mls.Commits
import GroupProtocol.Mls.Context
import GroupProtocol.Mls.Leaves
import GroupProtocol.Mls.Persistence
import GroupProtocol.Node.Calls
import GroupProtocol.Node.Context
import GroupProtocol.Node.Inversion
import GroupProtocol.Node.OutSeq
import GroupProtocol.Node.Queue
import GroupProtocol.Node.Rejection
import GroupProtocol.Node.State
import GroupProtocol.Node.Wire
import GroupProtocol.Nonce.Group
import GroupProtocol.Nonce.Transition
import GroupProtocol.Replay.AcceptOnce
import GroupProtocol.Replay.Delivery
import GroupProtocol.Replay.Forgery
import GroupProtocol.Replay.Injective
import GroupProtocol.Replay.Restart
import GroupProtocol.Replay.StreamIds
import GroupProtocol.SFrame.Decryptor
import GroupProtocol.SFrame.Encryptor
import GroupProtocol.SFrame.EndToEnd
import GroupProtocol.SFrame.Ffi
import GroupProtocol.SFrame.KeyIds
import GroupProtocol.SFrame.Session
import GroupProtocol.SFrame.Speaking
import GroupProtocol.Text.Attachment
import GroupProtocol.Text.Bindings
import GroupProtocol.Text.History
import GroupProtocol.Text.Reassembly
import GroupProtocol.Transition.Agreement
import GroupProtocol.Transition.Competing
import GroupProtocol.Transition.Deadlines
import GroupProtocol.Transition.FailedSend
import GroupProtocol.Transition.Finish
import GroupProtocol.Transition.Handshake
import GroupProtocol.Transition.Matrix
import GroupProtocol.Transition.Monotone
import GroupProtocol.Transition.TieBreak
import GroupProtocol.Transition.Wedged
import GroupProtocol.Transport.Framing
