import GroupProtocol.Clients.Codecs
import GroupProtocol.Clients.Sending
import GroupProtocol.Lib.Machine
import Mathlib.Data.Finset.Card
import Mathlib.Data.List.DropRight

/-!
# Receiving through the sub-protocol clients

Each client first synchronises its epoch, then decodes the plaintext and then classifies it:
text by sender and message id, audio by key phase and RTP number, signals by request id. The
deduplication set keeps a hash set and a queue in step; it is the window of the latest
entries, and so the text client's answer depends on the latest new messages of the epoch alone.
-/

namespace GroupProtocol

namespace BoundedSeen

variable {α : Type} [DecidableEq α]

/-- Inserts an item and reports whether it is new; over capacity the oldest entry leaves. -/
def insert (b : BoundedSeen α) (item : α) : Bool × BoundedSeen α :=
  if item ∈ b.set then (false, b)
  else
    let set := Insert.insert item b.set
    let order := b.order ++ [item]
    if order.length > b.cap then
      match order with
      | old :: rest => (true, { b with set := set.erase old, order := rest })
      | [] => (true, { b with set := set, order := order })
    else (true, { b with set := set, order := order })

/-- The set and the queue hold the same entries, each once, within the capacity. -/
structure InStep (b : BoundedSeen α) : Prop where
  set : b.set = b.order.toFinset
  nodup : b.order.Nodup
  bounded : b.order.length ≤ b.cap

theorem inStep_new (cap : ℕ) : (new cap : BoundedSeen α).InStep :=
  ⟨rfl, List.nodup_nil, Nat.zero_le cap⟩

theorem InStep.clear {b : BoundedSeen α} (_ : b.InStep) : b.clear.InStep :=
  ⟨rfl, List.nodup_nil, Nat.zero_le b.cap⟩

theorem InStep.mem_set {b : BoundedSeen α} (h : b.InStep) {item : α} :
    item ∈ b.set ↔ item ∈ b.order := by
  rw [h.set, List.mem_toFinset]

theorem insert_old {b : BoundedSeen α} {item : α} (hitem : item ∈ b.set) :
    b.insert item = (false, b) := by
  rw [insert, if_pos hitem]

omit [DecidableEq α] in
/-- One entry over the window leaves at its front. -/
theorem rtake_of_length_le {order : List α} {cap : ℕ} (h : order.length ≤ cap + 1) :
    order.rtake cap = if order.length > cap then order.tail else order := by
  rw [List.rtake]
  by_cases hover : order.length > cap
  · rw [if_pos hover, show order.length - cap = 1 by omega, List.drop_one]
  · rw [if_neg hover, show order.length - cap = 0 by omega, List.drop_zero]

/-- A new item moves the window. -/
theorem InStep.insert_new {b : BoundedSeen α} (h : b.InStep) {item : α} (hitem : item ∉ b.set) :
    ∃ next : BoundedSeen α, b.insert item = (true, next) ∧ next.InStep ∧
      next.order = (b.order ++ [item]).rtake b.cap ∧ next.cap = b.cap := by
  have hnodup : (b.order ++ [item]).Nodup := by
    rw [List.nodup_append]
    refine ⟨h.nodup, List.nodup_singleton item, ?_⟩
    rintro a ha c hc rfl
    exact hitem (h.mem_set.mpr (List.mem_singleton.mp hc ▸ ha))
  have hset : Insert.insert item b.set = (b.order ++ [item]).toFinset := by
    rw [h.set, List.toFinset_append]
    ext a
    simp
  have hlen : (b.order ++ [item]).length ≤ b.cap + 1 := by
    have := h.bounded
    rw [List.length_append, List.length_singleton]
    omega
  rw [insert, if_neg hitem, rtake_of_length_le hlen, hset]
  generalize b.order ++ [item] = order at *
  by_cases hover : order.length > b.cap
  · rw [if_pos hover, if_pos hover]
    cases order with
    | nil => exact absurd hover (Nat.not_lt_zero _)
    | cons old rest =>
        obtain ⟨hold, hrest⟩ := List.nodup_cons.mp hnodup
        refine ⟨_, rfl, ⟨?_, hrest, ?_⟩, rfl, rfl⟩
        · dsimp only
          rw [List.toFinset_cons, Finset.erase_insert (by rwa [List.mem_toFinset])]
        · rw [List.length_cons] at hlen
          exact Nat.le_of_succ_le_succ hlen
  · rw [if_neg hover, if_neg hover]
    exact ⟨_, rfl, ⟨rfl, hnodup, Nat.le_of_not_lt hover⟩, rfl, rfl⟩

end BoundedSeen

/-! Text. -/

/-- Errors of the text client. -/
inductive GtpError
  | decode (e : CodecError)
  | duplicate (senderId : MemberId) (messageId : UInt64)
  | node (e : NodeError)
  deriving DecidableEq, Repr

/-- Outcomes of accepting a text payload. -/
inductive GtpAccept
  | new (m : GtpMessage)
  | duplicate (m : GtpMessage)
  deriving DecidableEq, Repr

section

variable [CborReader GtpMessage] [Prost GbpProto.GtpMessage] [ReadAsRoot GbpFlat.GtpMessageRef]

/-- Accepts a plaintext delivered by the node. -/
def GtpClient.accept (c : GtpClient) (plaintext : Bytes) (currentEpoch : UInt64)
    (codec : PayloadCodec) : Except GtpError GtpAccept × GtpClient :=
  let c := c.syncEpoch currentEpoch
  match GtpMessage.fromBytes plaintext codec with
  | .error e => (.error (.decode e), c)
  | .ok m =>
    let (fresh, seen) := c.seen.insert (m.senderId, m.messageId)
    if fresh then (.ok (.new m), { c with seen := seen })
    else (.ok (.duplicate m), { c with seen := seen })

end

/-! Audio. -/

/-- Errors of the audio client. -/
inductive GapError
  | decode (e : CodecError)
  | epochStale (kp expected : UInt32)
  | rtpReplay (src seq hw : UInt32)
  | node (e : NodeError)
  deriving DecidableEq, Repr

/-- Outcomes of accepting an audio payload. -/
inductive GapAccept
  | new (p : GapPayload)
  | late (p : GapPayload)
  deriving DecidableEq, Repr

namespace GapClient

/-- Classifies a payload against one replay window. -/
def acceptInto (inHw : Counters UInt32 UInt32) (p : GapPayload) :
    GapAccept × Counters UInt32 UInt32 :=
  let hw := inHw.read p.mediaSourceId
  if p.rtpSequence ≤ hw ∧ hw - p.rtpSequence ≤ 0x7FFF then (.late p, inHw)
  else (.new p, inHw.insert p.mediaSourceId p.rtpSequence)

/-- Classifies a payload against the first live window of its key phase. -/
def acceptOld (p : GapPayload) (now : Instant) :
    List OldEpochWindow → Option (GapAccept × List OldEpochWindow)
  | [] => none
  | w :: ws =>
    if w.epoch = p.keyPhase.toUInt64 ∧ w.expires > now then
      let (r, inHw) := acceptInto w.inHw p
      some (r, { w with inHw := inHw } :: ws)
    else (acceptOld p now ws).map fun r => (r.1, w :: r.2)

variable [CborReader GapPayload] [Prost GbpProto.GapPayload] [ReadAsRoot GbpFlat.GapPayloadRef]

/-- Accepts a plaintext delivered by the node; the clock is read once to synchronise the epoch
and once more for a frame of an older epoch. -/
def accept (c : GapClient) (plaintext : Bytes) (currentEpoch : UInt64) (codec : PayloadCodec)
    (syncedAt now : Instant) : Except GapError GapAccept × GapClient :=
  let c := c.syncEpoch currentEpoch syncedAt
  match GapPayload.fromBytes plaintext codec with
  | .error e => (.error (.decode e), c)
  | .ok p =>
    if p.keyPhase = currentEpoch.toUInt32 then
      let (r, inHw) := acceptInto c.inHw p
      (.ok r, { c with inHw := inHw })
    else
      match acceptOld p now c.oldWindows with
      | some (r, oldWindows) => (.ok r, { c with oldWindows := oldWindows })
      | none => (.error (.epochStale p.keyPhase currentEpoch.toUInt32), c)

end GapClient

/-! Signals. -/

/-- The signal with a discriminant. -/
def SignalType.tryFrom : UInt32 → Except UInt32 SignalType
  | 100 => .ok join
  | 101 => .ok leave
  | 102 => .ok roleChange
  | 200 => .ok mute
  | 201 => .ok unmute
  | 300 => .ok streamStart
  | 301 => .ok streamStop
  | 400 => .ok codecUpdate
  | other => .error other

/-- A decoded CBOR item, as far as signal arguments look at it. -/
inductive CborItem
  | integer (i : ℤ)
  | map (pairs : List (CborItem × CborItem))
  | other

/-- Reading one CBOR item. -/
class ItemReader where
  fromReader : Bytes → Except String CborItem

namespace GspArgs

/-- The unsigned 64-bit value of an integer. -/
def uint (i : ℤ) : Option UInt64 :=
  if 0 ≤ i ∧ i < 2 ^ 64 then some (UInt64.ofNat i.toNat) else none

/-- Decodes the arguments as a map with unsigned keys. -/
def decodeMap [ItemReader] (args : Bytes) : Option (List (UInt64 × CborItem)) :=
  if args.isEmpty then none
  else
    match ItemReader.fromReader args with
    | .ok (.map pairs) =>
      pairs.mapM fun (k, v) =>
        match k with
        | .integer i => (uint i).map (·, v)
        | _ => none
    | _ => none

/-- The unsigned integer under a key. -/
def requireUintKey (map : List (UInt64 × CborItem)) (k : UInt64) : Option UInt64 :=
  (map.find? fun e => e.1 == k).bind fun e =>
    match e.2 with
    | .integer i => uint i
    | _ => none

/-- The arguments are a map with an unsigned integer under every listed key. -/
def requireKeys [ItemReader] (args : Bytes) (noMap : String) (keys : List (UInt64 × String)) :
    Except String Unit :=
  match decodeMap args with
  | none => .error noMap
  | some map =>
    keys.forM fun (k, missing) =>
      match requireUintKey map k with
      | none => .error missing
      | some _ => .ok ()

/-- Validates the arguments of a signal. -/
def validateArgs [ItemReader] (signal : SignalType) (args : Bytes) : Except String Unit :=
  match signal with
  | .join | .leave => .ok ()
  | .roleChange => requireKeys args "ROLE_CHANGE: args must be a CBOR map"
      [(0, "ROLE_CHANGE: missing key 0 (target_member_id)"),
        (1, "ROLE_CHANGE: missing key 1 (new_role)")]
  | .mute | .unmute => requireKeys args "MUTE/UNMUTE: args must be a CBOR map"
      [(0, "MUTE/UNMUTE: missing key 0 (target_member_id)")]
  | .streamStart | .streamStop => requireKeys args "STREAM_START/STOP: args must be a CBOR map"
      [(0, "STREAM_START/STOP: missing key 0 (stream_type)")]
  | .codecUpdate => requireKeys args "CODEC_UPDATE: args must be a CBOR map"
      [(0, "CODEC_UPDATE: missing key 0 (codec_id)")]

end GspArgs

/-- Errors of the signal client. -/
inductive GspError
  | decode (e : CodecError)
  | unknownSignal (signalType : UInt32)
  | duplicateRequest (requestId : UInt32)
  | badSchema (reason : String)
  | node (e : NodeError)
  deriving DecidableEq, Repr

/-- An accepted signal. -/
structure GspAccept where
  signal : SignalType
  senderId : MemberId
  roleClaim : UInt32
  requestId : UInt32
  deriving DecidableEq, Repr

namespace GspClient

/-- The state effect of a signal. -/
def apply (c : GspClient) (signal : SignalType) (senderId : MemberId) : GspClient :=
  match signal with
  | .join => { c with members := insert senderId c.members }
  | .leave => { c with members := c.members.erase senderId, muted := c.muted.erase senderId }
  | .mute => { c with muted := insert senderId c.muted }
  | .unmute => { c with muted := c.muted.erase senderId }
  | _ => c

variable [CborReader GspSignal] [Prost GbpProto.GspSignal] [ReadAsRoot GbpFlat.GspSignalRef]
  [ItemReader]

/-- Accepts a signal and applies its effect. -/
def accept (c : GspClient) (plaintext : Bytes) (currentEpoch : UInt64) (codec : PayloadCodec) :
    Except GspError GspAccept × GspClient :=
  let c := c.syncEpoch currentEpoch
  match GspSignal.fromBytes plaintext codec with
  | .error e => (.error (.decode e), c)
  | .ok s =>
    match SignalType.tryFrom s.signalType with
    | .error other => (.error (.unknownSignal other), c)
    | .ok signal =>
      match GspArgs.validateArgs signal s.args with
      | .error reason => (.error (.badSchema reason), c)
      | .ok () =>
        let (fresh, seen) := c.seenRequests.insert s.requestId
        let c := { c with seenRequests := seen }
        if fresh then
          (.ok ⟨signal, s.senderId, s.roleClaim, s.requestId⟩, c.apply signal s.senderId)
        else (.error (.duplicateRequest s.requestId), c)

end GspClient

/-! The text client over whole sequences of deliveries. -/

/-- One call of the text client's `accept`. -/
structure GtpDelivery where
  plaintext : Bytes
  epoch : UInt64
  codec : PayloadCodec
  deriving DecidableEq, Repr

/-- A window of a window that moves on is the window of the whole. -/
theorem rtake_append_singleton {α : Type} (l : List α) (a : α) (n : ℕ) :
    (l.rtake n ++ [a]).rtake n = (l ++ [a]).rtake n := by
  cases n with
  | zero => rw [List.rtake_zero, List.rtake_zero]
  | succ n =>
      rw [List.rtake_concat_succ, List.rtake_concat_succ, List.rtake_eq_reverse_take_reverse,
        List.rtake_eq_reverse_take_reverse, List.rtake_eq_reverse_take_reverse,
        List.reverse_reverse, List.take_take, Nat.min_eq_left (Nat.le_succ n)]

namespace GtpClient

variable [CborReader GtpMessage] [Prost GbpProto.GtpMessage] [ReadAsRoot GbpFlat.GtpMessageRef]

/-- The client after a delivery. -/
def receive (c : GtpClient) (x : GtpDelivery) : GtpClient :=
  (c.accept x.plaintext x.epoch x.codec).2

/-- The epoch and pair of a delivery classified as new. -/
def newPair (c : GtpClient) (x : GtpDelivery) : List (UInt64 × MemberId × UInt64) :=
  match (c.accept x.plaintext x.epoch x.codec).1 with
  | .ok (.new m) => [(x.epoch, m.senderId, m.messageId)]
  | _ => []

/-- The latest ten thousand new pairs of an epoch among those of a sequence of deliveries. -/
def recentPairs (log : List (UInt64 × MemberId × UInt64)) (epoch : UInt64) :
    List (MemberId × UInt64) :=
  ((log.filter fun p => p.1 = epoch).map Prod.snd).rtake 10000

/-- The deduplication set is the window of the new pairs of the current epoch. -/
structure Tracks (c : GtpClient) (log : List (UInt64 × MemberId × UInt64)) : Prop where
  inStep : c.seen.InStep
  cap : c.seen.cap = 10000
  order : ∀ e, c.currentEpoch = some e → c.seen.order = recentPairs log e
  past : ∀ p ∈ log, ∃ e, c.currentEpoch = some e ∧ p.1 ≤ e

omit [CborReader GtpMessage] [Prost GbpProto.GtpMessage] [ReadAsRoot GbpFlat.GtpMessageRef] in
theorem tracks_new : Tracks new [] where
  inStep := BoundedSeen.inStep_new 10000
  cap := rfl
  order e he := by cases he
  past p hp := absurd hp List.not_mem_nil

omit [CborReader GtpMessage] [Prost GbpProto.GtpMessage] [ReadAsRoot GbpFlat.GtpMessageRef] in
@[simp] theorem syncEpoch_currentEpoch (c : GtpClient) (epoch : UInt64) :
    (c.syncEpoch epoch).currentEpoch = some epoch := by
  rw [syncEpoch]
  by_cases h : some epoch = c.currentEpoch
  · rw [if_neg (not_not_intro h), h]
  · rw [if_pos h]

omit [CborReader GtpMessage] [Prost GbpProto.GtpMessage] [ReadAsRoot GbpFlat.GtpMessageRef] in
theorem Tracks.syncEpoch {c : GtpClient} {log : List (UInt64 × MemberId × UInt64)}
    (h : c.Tracks log) {epoch : UInt64} (hmono : ∀ e, c.currentEpoch = some e → e ≤ epoch) :
    (c.syncEpoch epoch).Tracks log := by
  rw [GtpClient.syncEpoch]
  by_cases hsame : some epoch = c.currentEpoch
  · rwa [if_neg (not_not_intro hsame)]
  · rw [if_pos hsame]
    -- every pair so far belongs to an epoch below the new one, whose window starts empty
    have hbelow : ∀ p ∈ log, p.1 < epoch := by
      intro p hp
      obtain ⟨e, he, hpe⟩ := h.past p hp
      have hne : e ≠ epoch := by
        rintro rfl
        exact hsame he.symm
      exact UInt64.lt_of_le_of_lt hpe (UInt64.lt_of_le_of_ne (hmono e he) hne)
    refine ⟨h.inStep.clear, h.cap, ?_, fun p hp => ⟨epoch, rfl, UInt64.le_of_lt (hbelow p hp)⟩⟩
    intro e he
    obtain rfl := Option.some.inj he
    have hnone : (log.filter fun p => p.1 = epoch) = [] := by
      rw [List.filter_eq_nil_iff]
      intro p hp heq
      exact absurd (of_decide_eq_true heq) (UInt64.ne_of_lt (hbelow p hp))
    rw [recentPairs, hnone, List.map_nil, List.rtake_nil]
    rfl

theorem accept_undecodable (c : GtpClient) {x : GtpDelivery} {e : CodecError}
    (hx : GtpMessage.fromBytes x.plaintext x.codec = .error e) :
    c.accept x.plaintext x.epoch x.codec = (.error (.decode e), c.syncEpoch x.epoch) := by
  rw [accept, hx]

/-- What a decodable delivery does to a client that tracks the new pairs. -/
theorem Tracks.accept {c : GtpClient} {log : List (UInt64 × MemberId × UInt64)}
    (h : c.Tracks log) {x : GtpDelivery} (hmono : ∀ e, c.currentEpoch = some e → e ≤ x.epoch)
    {m : GtpMessage} (hx : GtpMessage.fromBytes x.plaintext x.codec = .ok m) :
    (c.accept x.plaintext x.epoch x.codec).1 =
        .ok (if (m.senderId, m.messageId) ∈ recentPairs log x.epoch then .duplicate m
          else .new m) ∧
      (c.receive x).Tracks (log ++ c.newPair x) := by
  have hsync := h.syncEpoch hmono
  have horder := hsync.order x.epoch (c.syncEpoch_currentEpoch x.epoch)
  have hmem : (m.senderId, m.messageId) ∈ (c.syncEpoch x.epoch).seen.set ↔
      (m.senderId, m.messageId) ∈ recentPairs log x.epoch := by
    rw [hsync.inStep.mem_set, horder]
  by_cases hseen : (m.senderId, m.messageId) ∈ (c.syncEpoch x.epoch).seen.set
  · have haccept : c.accept x.plaintext x.epoch x.codec =
        (.ok (.duplicate m), c.syncEpoch x.epoch) := by
      rw [GtpClient.accept, hx]
      dsimp only
      rw [BoundedSeen.insert_old hseen]
      rfl
    rw [receive, newPair, haccept, if_pos (hmem.mp hseen)]
    refine ⟨rfl, ?_⟩
    rw [List.append_nil]
    exact hsync
  · obtain ⟨seen, hinsert, hstep, hwindow, hcap⟩ := hsync.inStep.insert_new hseen
    have haccept : c.accept x.plaintext x.epoch x.codec =
        (.ok (.new m), { c.syncEpoch x.epoch with seen := seen }) := by
      rw [GtpClient.accept, hx]
      dsimp only
      rw [hinsert]
      rfl
    rw [receive, newPair, haccept, if_neg fun hin => hseen (hmem.mpr hin)]
    refine ⟨rfl, ⟨hstep, hcap.trans hsync.cap, ?_, ?_⟩⟩
    · intro e he
      obtain rfl := Option.some.inj ((c.syncEpoch_currentEpoch x.epoch).symm.trans he)
      have hlog : (log ++ [(x.epoch, m.senderId, m.messageId)]).filter (fun p => p.1 = x.epoch) =
          log.filter (fun p => p.1 = x.epoch) ++ [(x.epoch, m.senderId, m.messageId)] := by
        rw [List.filter_append, List.filter_singleton, decide_eq_true rfl]
        rfl
      dsimp only
      rw [hwindow, horder, hsync.cap, recentPairs, recentPairs, hlog, List.map_append,
        List.map_singleton, rtake_append_singleton]
    · intro p hp
      refine ⟨x.epoch, c.syncEpoch_currentEpoch x.epoch, ?_⟩
      rcases List.mem_append.mp hp with hold | hthis
      · obtain ⟨e, he, hpe⟩ := hsync.past p hold
        obtain rfl := Option.some.inj ((c.syncEpoch_currentEpoch x.epoch).symm.trans he)
        exact hpe
      · rw [List.mem_singleton.mp hthis]
        exact UInt64.le_refl _

/-- Every delivery keeps the window. -/
theorem Tracks.receive {c : GtpClient} {log : List (UInt64 × MemberId × UInt64)}
    (h : c.Tracks log) {x : GtpDelivery} (hmono : ∀ e, c.currentEpoch = some e → e ≤ x.epoch) :
    (c.receive x).Tracks (log ++ c.newPair x) := by
  cases hx : GtpMessage.fromBytes x.plaintext x.codec with
  | error e =>
      rw [GtpClient.receive, newPair, c.accept_undecodable hx, List.append_nil]
      exact h.syncEpoch hmono
  | ok m => exact (h.accept hmono hx).2

theorem receive_currentEpoch (c : GtpClient) (x : GtpDelivery) :
    (c.receive x).currentEpoch = some x.epoch := by
  rw [receive, accept]
  cases GtpMessage.fromBytes x.plaintext x.codec with
  | error e => exact c.syncEpoch_currentEpoch x.epoch
  | ok m =>
      dsimp only
      cases ((c.syncEpoch x.epoch).seen.insert (m.senderId, m.messageId)).1 with
      | false => exact c.syncEpoch_currentEpoch x.epoch
      | true => exact c.syncEpoch_currentEpoch x.epoch

/-- In a sequence with non-decreasing epochs no delivery falls behind the client. -/
theorem along_epochs {c : GtpClient} {xs : List GtpDelivery}
    (hxs : xs.Pairwise fun x y => x.epoch ≤ y.epoch)
    (hc : ∀ e, c.currentEpoch = some e → ∀ x ∈ xs, e ≤ x.epoch) :
    Machine.Along receive (fun c x => ∀ e, c.currentEpoch = some e → e ≤ x.epoch) c xs := by
  induction xs generalizing c with
  | nil => exact trivial
  | cons x xs ih =>
      obtain ⟨hx, hrest⟩ := List.pairwise_cons.mp hxs
      refine ⟨fun e he => hc e he x (List.mem_cons_self ..), ih hrest ?_⟩
      intro e he y hy
      obtain rfl := Option.some.inj ((c.receive_currentEpoch x).symm.trans he)
      exact hx y hy

/-- The classification of text messages over every sequence of deliveries with non-decreasing
epochs. A decodable delivery is a duplicate exactly when its sender and message id are among the
latest ten thousand new pairs of its epoch, an undecodable one only synchronises the epoch, and
the deduplication set and its queue hold the same entries, each once, within the capacity. -/
theorem gtp_duplicates_exact (xs : List GtpDelivery)
    (hmono : xs.Pairwise fun x y => x.epoch ≤ y.epoch) :
    (∀ earlier x later, xs = earlier ++ x :: later →
      let c := Machine.run receive new earlier
      let recent := recentPairs (Machine.observe receive newPair new earlier) x.epoch
      (∀ m, GtpMessage.fromBytes x.plaintext x.codec = .ok m →
        (c.accept x.plaintext x.epoch x.codec).1 =
          .ok (if (m.senderId, m.messageId) ∈ recent then .duplicate m else .new m)) ∧
      ∀ e, GtpMessage.fromBytes x.plaintext x.codec = .error e →
        c.accept x.plaintext x.epoch x.codec = (.error (.decode e), c.syncEpoch x.epoch)) ∧
    ∀ ys, ys <+: xs →
      (Machine.run receive new ys).seen.InStep ∧ (Machine.run receive new ys).seen.cap = 10000 := by
  have halong := along_epochs hmono (c := new) (by
    intro e he
    cases he)
  have htracks : ∀ ys zs, xs = ys ++ zs →
      (Machine.run receive new ys).Tracks (Machine.observe receive newPair new ys) := by
    intro ys zs hsplit
    rw [hsplit] at halong
    have hlog := Machine.along_invariant newPair Tracks tracks_new
      (Machine.along_append.mp halong).1 fun t log x hx ht => ht.receive hx
    exact hlog
  refine ⟨fun earlier x later hsplit => ⟨fun m hm => ?_, fun e he => ?_⟩, fun ys hys => ?_⟩
  · have hx := Machine.along_iff.mp halong earlier x later hsplit
    exact ((htracks earlier _ hsplit).accept hx hm).1
  · exact accept_undecodable _ he
  · obtain ⟨zs, hzs⟩ := hys
    have h := htracks ys zs hzs.symm
    exact ⟨h.inStep, h.cap⟩

end GtpClient

namespace GtpClient

/-- A message is new, malformed bytes change nothing, its repetition is a duplicate, and in the
next epoch it is new again. -/
theorem gtp_duplicates_exact_four :
    let m : GtpMessage := ⟨1, 7, 0, 0, 1, 0, 2, [104, 105]⟩
    let xs : List GtpDelivery := [⟨m.toCbor, 4, .cbor⟩, ⟨[255], 4, .cbor⟩, ⟨m.toCbor, 4, .cbor⟩,
      ⟨m.toCbor, 5, .cbor⟩]
    (xs.Pairwise fun x y => x.epoch ≤ y.epoch) ∧
      ((Machine.run receive new (xs.take 2)).accept m.toCbor 4 .cbor).1 = .ok (.duplicate m) ∧
      ((Machine.run receive new (xs.take 3)).accept m.toCbor 5 .cbor).1 = .ok (.new m) := by
  intro m xs
  have hmono : xs.Pairwise fun x y => x.epoch ≤ y.epoch := by decide +kernel
  have hread : GtpMessage.fromBytes m.toCbor .cbor = .ok m := by decide +kernel
  have hexact := (gtp_duplicates_exact xs hmono).1
  refine ⟨hmono, ?_, ?_⟩
  · rw [(hexact (xs.take 2) _ _ rfl).1 m hread, if_pos (by decide +kernel)]
  · rw [(hexact (xs.take 3) _ _ rfl).1 m hread, if_neg (by decide +kernel)]

end GtpClient

end GroupProtocol
