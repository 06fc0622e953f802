import GroupProtocol.Base.Serde
import GroupProtocol.Clients.Member
import GroupProtocol.Node.Calls

/-!
# Delivery between senders

Any number of members send text, audio and signals, and a receiver gets their frames in
any interleaving that keeps the order of each stream, with losses. The stream ids of
different members differ, every stream counts upwards, and the receiver's window keeps
one mark for each stream, so every frame that arrives is delivered.
-/

namespace GroupProtocol

open GroupNode

/-- What holds along every stream holds between any two items of one stream. -/
theorem pairwise_of_streams {α κ : Type} [DecidableEq κ] {key : α → κ} {R : α → α → Prop}
    {xs : List α} (h : ∀ k, (xs.filter fun x => key x = k).Pairwise R) :
    xs.Pairwise fun a b => key a = key b → R a b := by
  induction xs with
  | nil => exact List.Pairwise.nil
  | cons x xs ih =>
      refine List.pairwise_cons.mpr ⟨?_, ih fun k => ?_⟩
      · intro b hb hkey
        have hx := h (key x)
        rw [List.filter_cons_of_pos (by simp)] at hx
        exact (List.pairwise_cons.mp hx).1 b
          (List.mem_filter.mpr ⟨hb, decide_eq_true hkey.symm⟩)
      · exact (h k).sublist ((List.sublist_cons_self x xs).filter _)

/-- Application sends are never CRITICAL. -/
theorem SendOp.uncritical {op : SendOp} (h : op.stream ≠ .control) :
    GbpFlags.has op.flags GbpFlags.critical = false := by
  have hack : GbpFlags.has GbpFlags.orderedReliableAck GbpFlags.critical = false := by decide
  have hordered : GbpFlags.has GbpFlags.orderedOnly GbpFlags.critical = false := by decide
  cases op with
  | text target messageId text codec => exact hack
  | audio target mediaSourceId rtpTimestamp opus codec => exact hordered
  | signal target signal roleClaim requestId args codec => exact hack
  | control target opcode tid rid args => exact absurd rfl h

/-- A send of one member, with the provider it uses. -/
structure ClientSend (ι S : Type) where
  sender : ι
  provider : S
  op : SendOp
  now : Instant

/-- A frame on its way: who sent it, the payload as its sender handed it over, the sealed
bytes and the wire bytes. -/
structure SentFrame (ι : Type) where
  sender : ι
  payload : DeliveredPayload
  sealedBytes : Bytes
  wire : Bytes
  deriving DecidableEq

/-- The arrival of a frame at the receiver. -/
structure Arrival (ι S : Type) where
  frame : SentFrame ι
  provider : S
  now : Instant

/-- The stream a frame belongs to. -/
def SentFrame.key {ι : Type} (f : SentFrame ι) : StreamKey :=
  (f.payload.streamType, f.payload.streamId)

/-- The sender and the class of a frame. -/
def SentFrame.origin {ι : Type} (f : SentFrame ι) : ι × StreamType :=
  (f.sender, f.payload.streamType)

/-- The transport frame around the sealed bytes. -/
def SentFrame.framed {ι : Type} (f : SentFrame ι) (gid : GroupId) (epoch : UInt64)
    (tid : TransitionId) : GbpFrame :=
  GbpFrame.new gid epoch tid f.payload.streamType f.payload.streamId f.payload.flags
    f.payload.sequenceNo f.sealedBytes f.payload.codec.asU8

/-- The call an arrival makes. -/
def Arrival.call {ι S : Type} (a : Arrival ι S) : TimedCall S :=
  ⟨a.now, .onWire a.provider a.frame.wire⟩

namespace Delivering

section Runs

variable {ι : Type} [DecidableEq ι] [Ciborium] [Codegen GtpMessage] [Codegen GapPayload]
  [Codegen GspSignal] {S : Type} [Sealer S]

/-- The payload of a send: class, stream, number, flags, plaintext and codec. -/
def payloadOf (m : Member) (op : SendOp) (now : Instant) : DeliveredPayload :=
  ⟨op.stream, (m.node.ownStream op.stream).2,
    m.node.outSeq.read (m.node.ownStream op.stream) + 1, op.flags, m.plaintext op now, op.codec⟩

/-- The members after a send. -/
def sendStep (members : ι → Member) (x : ClientSend ι S) : ι → Member :=
  Function.update members x.sender ((members x.sender).send x.provider x.op x.now).2.1

/-- The frame a send produces, unless it fails. -/
def produced (members : ι → Member) (x : ClientSend ι S) : List (SentFrame ι) :=
  let m := members x.sender
  let p := payloadOf m x.op x.now
  match (m.send x.provider x.op x.now).1,
      (Sealer.seal x.provider p.streamType p.sequenceNo p.plaintext).1 with
  | .ok o, .ok sealedBytes => [⟨x.sender, p, sealedBytes, o.wire⟩]
  | _, _ => []

/-- The frames produced by a series of sends. -/
def sent (members : ι → Member) (xs : List (ClientSend ι S)) : List (SentFrame ι) :=
  Machine.observe sendStep produced members xs

/-- The sends of one member in one class. -/
def sendsOf (xs : List (ClientSend ι S)) (i : ι) (st : StreamType) : ℕ :=
  (xs.filter fun x => x.sender = i ∧ x.op.stream = st).length

/-- All members are active in one group and epoch. -/
structure Together (gid : GroupId) (epoch : UInt64) (members : ι → Member) : Prop where
  active : ∀ i, (members i).node.state = .active
  group : ∀ i, (members i).node.groupId = gid
  epoch : ∀ i, (members i).node.currentEpoch = epoch

/-- How often a member has used its stream of a class. -/
def used (members : ι → Member) (o : ι × StreamType) : SequenceNo :=
  (members o.1).node.outSeq.read ((members o.1).node.ownStream o.2)

/-- A send keeps every member's identity and place. -/
theorem sendStep_keeps (members : ι → Member) (x : ClientSend ι S) (i : ι) :
    (sendStep members x i).node.memberId = (members i).node.memberId ∧
      (sendStep members x i).node.state = (members i).node.state ∧
      (sendStep members x i).node.groupId = (members i).node.groupId ∧
      (sendStep members x i).node.currentEpoch = (members i).node.currentEpoch := by
  by_cases hi : i = x.sender
  · subst hi
    obtain ⟨-, hnode, -⟩ := (members x.sender).send_eq x.provider x.op x.now
    obtain ⟨pending, tstate, prep, exec, hprep⟩ := (members x.sender).prepared_node x.op x.now
    obtain ⟨q, hq⟩ := ((members x.sender).prepared x.op x.now).sendPayload_node x.provider
      x.op.target x.op.stream ((members x.sender).node.ownStream x.op.stream).2 x.op.flags
      ((members x.sender).plaintext x.op x.now) x.op.codec
    rw [sendStep, Function.update_self, hnode, hq, hprep]
    exact ⟨rfl, rfl, rfl, rfl⟩
  · rw [sendStep, Function.update_of_ne hi]
    exact ⟨rfl, rfl, rfl, rfl⟩

theorem ownStream_sendStep (members : ι → Member) (x : ClientSend ι S) (i : ι)
    (st : StreamType) :
    (sendStep members x i).node.ownStream st = (members i).node.ownStream st := by
  simp only [GroupNode.ownStream, memberStreamId, (sendStep_keeps members x i).1]

theorem Together.sendStep {gid : GroupId} {epoch : UInt64} {members : ι → Member}
    (h : Together gid epoch members) (x : ClientSend ι S) :
    Together gid epoch (sendStep members x) := by
  constructor
  · intro i
    rw [(sendStep_keeps members x i).2.1, h.active i]
  · intro i
    rw [(sendStep_keeps members x i).2.2.1, h.group i]
  · intro i
    rw [(sendStep_keeps members x i).2.2.2, h.epoch i]

/-- A send of an active member uses one number of its own stream. -/
theorem used_sendStep {members : ι → Member} (hactive : ∀ i, (members i).node.state = .active)
    (x : ClientSend ι S) (o : ι × StreamType) :
    used (sendStep members x) o =
      if o = (x.sender, x.op.stream) then used members o + 1 else used members o := by
  obtain ⟨i, st⟩ := o
  simp only [used, ownStream_sendStep]
  by_cases hi : i = x.sender
  · subst hi
    obtain ⟨⟨pending, tstate, prep, exec, hnode⟩, -⟩ :=
      (members x.sender).send_active (hactive x.sender) x.provider x.op x.now
    rw [sendStep, Function.update_self, hnode]
    by_cases hst : st = x.op.stream
    · subst hst
      rw [if_pos rfl]
      exact Counters.read_insert_self ..
    · rw [if_neg fun he => hst (congrArg Prod.snd he)]
      exact Counters.read_insert_ne _ _ fun he => hst (congrArg Prod.fst he)
  · rw [if_neg fun he => hi (congrArg Prod.fst he), sendStep, Function.update_of_ne hi]

omit [DecidableEq ι] in
/-- A send produces nothing, or its sealed payload, framed under the next number. -/
theorem produced_cases (members : ι → Member) (x : ClientSend ι S) :
    produced members x = [] ∨
      ∃ f tid, produced members x = [f] ∧ f.sender = x.sender ∧
        f.payload = payloadOf (members x.sender) x.op x.now ∧
        (Sealer.seal x.provider f.payload.streamType f.payload.sequenceNo
          f.payload.plaintext).1 = .ok f.sealedBytes ∧
        f.wire = (f.framed (members x.sender).node.groupId
          (members x.sender).node.currentEpoch tid).toCbor := by
  unfold produced
  dsimp only
  split
  · rename_i o ct hsend hseal
    obtain ⟨hout, -, -⟩ := (members x.sender).send_eq x.provider x.op x.now
    obtain ⟨pending, tstate, prep, exec, hprep⟩ := (members x.sender).prepared_node x.op x.now
    obtain ⟨ct', hseal', rfl⟩ := sendPayload_wire (hout.symm.trans hsend)
    rw [hprep] at hseal' ⊢
    obtain rfl : ct' = ct := Except.ok.inj (hseal'.symm.trans hseal)
    exact Or.inr ⟨_, _, rfl, rfl, rfl, hseal, rfl⟩
  · exact Or.inl rfl

/-- A frame as one of the sends produced it: on its sender's own stream, sealed and framed
for the group and the epoch. -/
structure Genuine (gid : GroupId) (epoch : UInt64) (members : ι → Member)
    (xs : List (ClientSend ι S)) (f : SentFrame ι) : Prop where
  stream : f.key = (members f.sender).node.ownStream f.payload.streamType
  source : ∃ x ∈ xs, f.payload.streamType = x.op.stream ∧ f.payload.flags = x.op.flags ∧
    (Sealer.seal x.provider f.payload.streamType f.payload.sequenceNo
      f.payload.plaintext).1 = .ok f.sealedBytes
  framed : ∃ tid, f.wire = (f.framed gid epoch tid).toCbor

omit [DecidableEq ι] [Codegen GtpMessage] [Codegen GapPayload] [Codegen GspSignal] in
/-- Genuine frames of one stream come from one member and class. -/
theorem Genuine.origin_eq {gid : GroupId} {epoch : UInt64} {members : ι → Member}
    {xs : List (ClientSend ι S)} (hids : Function.Injective fun i => (members i).node.memberId)
    (hsmall : ∀ i, (members i).node.memberId < 1000000) {f g : SentFrame ι}
    (hf : Genuine gid epoch members xs f) (hg : Genuine gid epoch members xs g)
    (h : f.key = g.key) : f.origin = g.origin := by
  have hst : f.payload.streamType = g.payload.streamType := congrArg Prod.fst h
  rw [hf.stream, hg.stream, hst] at h
  have hid := memberStreamId_inj (hsmall f.sender) (hsmall g.sender) (congrArg Prod.snd h)
  exact Prod.ext (hids hid) hst

/-- Every frame of a series of sends is genuine. -/
theorem sent_genuine {gid : GroupId} {epoch : UInt64} {members : ι → Member}
    (h : Together gid epoch members) (xs : List (ClientSend ι S)) :
    ∀ f ∈ sent members xs, Genuine gid epoch members xs f := by
  induction xs generalizing members with
  | nil => simp [sent]
  | cons x xs ih =>
      intro f hf
      rcases List.mem_append.mp hf with hf | hf
      · rcases produced_cases members x with hnone | ⟨g, tid, hone, hsender, hpayload, hseal, hwire⟩
        · rw [hnone] at hf
          cases hf
        · rw [hone] at hf
          obtain rfl := List.mem_singleton.mp hf
          rw [h.group, h.epoch] at hwire
          refine ⟨?_, ⟨x, List.mem_cons_self .., ?_, ?_, hseal⟩, tid, hwire⟩
          · rw [SentFrame.key, hsender, hpayload]
            rfl
          · rw [hpayload]
            rfl
          · rw [hpayload]
            rfl
      · obtain ⟨hstream, ⟨y, hy, hsource⟩, hframed⟩ := ih (h.sendStep x) f hf
        rw [ownStream_sendStep] at hstream
        exact ⟨hstream, ⟨y, List.mem_cons_of_mem _ hy, hsource⟩, hframed⟩

/-- One send moves a counter that does not wrap by one, or not at all. -/
theorem used_sendStep_bound {members : ι → Member}
    (hactive : ∀ i, (members i).node.state = .active) (x : ClientSend ι S)
    (xs : List (ClientSend ι S)) (o : ι × StreamType)
    (hcount : (used members o).toNat + sendsOf (x :: xs) o.1 o.2 < 2 ^ 32) :
    (used (sendStep members x) o).toNat + sendsOf xs o.1 o.2 < 2 ^ 32 ∧
      used members o ≤ used (sendStep members x) o ∧
      (o = (x.sender, x.op.stream) → used members o < used members o + 1) := by
  rw [used_sendStep hactive]
  by_cases ho : o = (x.sender, x.op.stream)
  · have hsends : sendsOf (x :: xs) o.1 o.2 = sendsOf xs o.1 o.2 + 1 := by
      simp [sendsOf, ho]
    have hsucc : (used members o + 1).toNat = (used members o).toNat + 1 := by
      rw [UInt32.toNat_add, UInt32.toNat_one]
      omega
    have hlt : used members o < used members o + 1 := by
      rw [UInt32.lt_iff_toNat_lt, hsucc]
      omega
    rw [if_pos ho, hsucc]
    exact ⟨by omega, UInt32.le_of_lt hlt, fun _ => hlt⟩
  · have hsends : sendsOf xs o.1 o.2 ≤ sendsOf (x :: xs) o.1 o.2 :=
      ((List.sublist_cons_self x xs).filter _).length_le
    rw [if_neg ho]
    exact ⟨by omega, UInt32.le_refl _, fun h => absurd h ho⟩

/-- The frames of one member and class carry increasing numbers, all above those already
used, as long as the counter does not wrap. -/
theorem sent_increasing {members : ι → Member}
    (hactive : ∀ i, (members i).node.state = .active) (xs : List (ClientSend ι S))
    (o : ι × StreamType) (hcount : (used members o).toNat + sendsOf xs o.1 o.2 < 2 ^ 32) :
    ((sent members xs).filter fun f => f.origin = o).Pairwise
        (fun f g => f.payload.sequenceNo < g.payload.sequenceNo) ∧
      ∀ f ∈ sent members xs, f.origin = o → used members o < f.payload.sequenceNo := by
  induction xs generalizing members with
  | nil => simp [sent]
  | cons x xs ih =>
      obtain ⟨hfits, hle, hlt⟩ := used_sendStep_bound hactive x xs o hcount
      obtain ⟨hpair, hlow⟩ := ih (fun i => (sendStep_keeps members x i).2.1.trans (hactive i)) hfits
      have hrest : ∀ f ∈ sent (sendStep members x) xs, f.origin = o →
          used members o < f.payload.sequenceNo := fun f hf ho =>
        UInt32.lt_of_le_of_lt hle (hlow f hf ho)
      have hsent : sent members (x :: xs) =
          produced members x ++ sent (sendStep members x) xs := rfl
      rw [hsent]
      rcases produced_cases members x with hnone | ⟨g, tid, hone, hsender, hpayload, -, -⟩
      · rw [hnone]
        exact ⟨hpair, hrest⟩
      · rw [hone, List.singleton_append]
        have hg : g.origin = (x.sender, x.op.stream) := by
          rw [SentFrame.origin, hsender, hpayload]
          rfl
        by_cases ho : o = (x.sender, x.op.stream)
        · -- The new frame carries exactly the counter this send leaves.
          have hseq : g.payload.sequenceNo = used members o + 1 := by
            rw [hpayload, ho]
            rfl
          have hnext : used (sendStep members x) o = g.payload.sequenceNo := by
            rw [used_sendStep hactive, if_pos ho, hseq]
          rw [List.filter_cons_of_pos (by simp [hg, ho])]
          refine ⟨List.pairwise_cons.mpr ⟨?_, hpair⟩, ?_⟩
          · intro f hf
            obtain ⟨hf, hfo⟩ := List.mem_filter.mp hf
            rw [← hnext]
            exact hlow f hf (of_decide_eq_true hfo)
          · intro f hf hfo
            rcases List.mem_cons.mp hf with rfl | hf
            · rw [hseq]
              exact hlt ho
            · exact hrest f hf hfo
        · have hne : g.origin ≠ o := fun h => ho (h.symm.trans hg)
          rw [List.filter_cons_of_neg (by simp [hne])]
          refine ⟨hpair, ?_⟩
          intro f hf hfo
          rcases List.mem_cons.mp hf with rfl | hf
          · exact absurd hfo hne
          · exact hrest f hf hfo

/-! Receiving. -/

/-- An application frame for the group and the epoch that the receiver can open. -/
structure Deliverable (gid : GroupId) (epoch : UInt64) (a : Arrival ι S) : Prop where
  framed : ∃ tid, a.frame.wire = (a.frame.framed gid epoch tid).toCbor
  short : a.frame.sealedBytes.length < 2 ^ 32
  app : a.frame.payload.streamType ≠ .control
  uncritical : GbpFlags.has a.frame.payload.flags GbpFlags.critical = false
  opens : (Sealer.open a.provider a.frame.payload.streamType a.frame.payload.sequenceNo
    a.frame.sealedBytes).1 = .ok a.frame.payload.plaintext

omit [DecidableEq ι] [Codegen GtpMessage] [Codegen GapPayload] [Codegen GspSignal] in
/-- A deliverable frame above its mark is delivered as sent and recorded. -/
theorem arrival_step {R : GroupNode} {a : Arrival ι S}
    (h : Deliverable R.groupId R.currentEpoch a)
    (hfresh : R.inHw.read a.frame.key < a.frame.payload.sequenceNo) :
    R.emitted a.call = [.payloadReceived a.frame.payload] ∧
      R.step a.call = { R with
        inHw := R.inHw.insert a.frame.key a.frame.payload.sequenceNo, events := [] } := by
  obtain ⟨⟨tid, hwire⟩, hshort, happ, huncritical, hopens⟩ := h
  have hadm : R.admitted (a.frame.framed R.groupId R.currentEpoch tid) =
      some a.frame.payload.streamType := by
    refine admitted_new tid _ _ hshort (fun hcrit => ?_) hfresh
    rw [huncritical] at hcrit
    cases hcrit.2.1
  have hdecode : GbpFrame.decode a.frame.wire =
      .ok (a.frame.framed R.groupId R.currentEpoch tid) := by
    rw [hwire]
    exact GbpFrame.decode_toCbor_new hshort
  have hdelivery : delivery a.frame.payload.streamType
      (a.frame.framed R.groupId R.currentEpoch tid) a.frame.payload.plaintext =
      a.frame.payload := by
    rw [delivery, SentFrame.framed, GbpFrame.payloadCodec_new]
    rfl
  obtain ⟨hevents, hnode⟩ := onWire_payload a.now hdecode hadm happ hopens
  rw [hdelivery] at hevents
  have hstep : R.step a.call = { R with
      inHw := R.inHw.insert a.frame.key a.frame.payload.sequenceNo, events := [] } := hnode
  refine ⟨emitted_eq ?_, hstep⟩
  rw [hstep, List.append_nil]
  exact hevents

omit [DecidableEq ι] [Codegen GtpMessage] [Codegen GapPayload] [Codegen GspSignal] in
/-- Deliverable frames above the receiver's marks, in increasing order on every stream, are
all delivered. -/
theorem arrivals_delivered {R : GroupNode} {arrivals : List (Arrival ι S)}
    (hgood : ∀ a ∈ arrivals, Deliverable R.groupId R.currentEpoch a)
    (hfresh : ∀ a ∈ arrivals, R.inHw.read a.frame.key < a.frame.payload.sequenceNo)
    (horder : arrivals.Pairwise fun a b => a.frame.key = b.frame.key →
      a.frame.payload.sequenceNo < b.frame.payload.sequenceNo)
    {earlier later : List (Arrival ι S)} {a : Arrival ι S}
    (hsplit : arrivals = earlier ++ a :: later) :
    (Machine.run step R (earlier.map Arrival.call)).emitted a.call =
      [.payloadReceived a.frame.payload] := by
  subst hsplit
  induction earlier generalizing R with
  | nil =>
      have ha : a ∈ a :: later := List.mem_cons_self ..
      exact (arrival_step (hgood a ha) (hfresh a ha)).1
  | cons b earlier ih =>
      have hb : b ∈ b :: (earlier ++ a :: later) := List.mem_cons_self ..
      obtain ⟨-, hstep⟩ := arrival_step (hgood b hb) (hfresh b hb)
      obtain ⟨hhead, htail⟩ := List.pairwise_cons.mp horder
      rw [List.map_cons, Machine.run_cons, hstep]
      refine ih (fun c hc => hgood c (List.mem_cons_of_mem _ hc)) ?_ htail
      intro c hc
      dsimp only
      rw [Counters.read_insert]
      split
      · rename_i hkey
        exact hhead c hc hkey.symm
      · exact hfresh c (List.mem_cons_of_mem _ hc)

/-- What one provider seals, the other opens. -/
def Opens (s r : S) : Prop :=
  ∀ (st : StreamType) (seq : SequenceNo) (pt ct : Bytes),
    (Sealer.seal s st seq pt).1 = .ok ct → (Sealer.open r st seq ct).1 = .ok pt

/-- No false replay and no loss between senders. The receiver starts with no mark above
the senders' counters; its arrivals keep the order of the frames of each member and class
and may leave out any of them. Then every arrival delivers exactly the payload its sender
handed over, and nothing else. -/
theorem delivers_every_arrival (R : GroupNode) (members : ι → Member)
    (hplace : Together R.groupId R.currentEpoch members)
    (hids : Function.Injective fun i => (members i).node.memberId)
    (hsmall : ∀ i, (members i).node.memberId < 1000000)
    (hmarks : ∀ i st, R.inHw.read ((members i).node.ownStream st) ≤
      (members i).node.outSeq.read ((members i).node.ownStream st))
    (xs : List (ClientSend ι S)) (happ : ∀ x ∈ xs, x.op.stream ≠ .control)
    (hcount : ∀ i st, ((members i).node.outSeq.read ((members i).node.ownStream st)).toNat +
      sendsOf xs i st < 2 ^ 32)
    (hshort : ∀ f ∈ sent members xs, f.sealedBytes.length < 2 ^ 32)
    (arrivals : List (Arrival ι S))
    (horder : ∀ o, ((arrivals.map Arrival.frame).filter fun f => f.origin = o).Sublist
      ((sent members xs).filter fun f => f.origin = o))
    (hopens : ∀ x ∈ xs, ∀ a ∈ arrivals, Opens x.provider a.provider)
    (earlier later : List (Arrival ι S)) (a : Arrival ι S)
    (hsplit : arrivals = earlier ++ a :: later) :
    (Machine.run step R (earlier.map Arrival.call)).emitted a.call =
      [.payloadReceived a.frame.payload] := by
  have hsent : ∀ b ∈ arrivals, b.frame ∈ sent members xs := by
    intro b hb
    have hmem : b.frame ∈ (arrivals.map Arrival.frame).filter fun f =>
        f.origin = b.frame.origin :=
      List.mem_filter.mpr ⟨List.mem_map_of_mem hb, decide_eq_true rfl⟩
    exact List.mem_of_mem_filter ((horder b.frame.origin).subset hmem)
  have hgenuine : ∀ b ∈ arrivals, Genuine R.groupId R.currentEpoch members xs b.frame :=
    fun b hb => sent_genuine hplace xs _ (hsent b hb)
  refine arrivals_delivered ?_ ?_ ?_ hsplit
  · intro b hb
    obtain ⟨-, ⟨x, hx, hst, hflags, hseal⟩, hframed⟩ := hgenuine b hb
    refine ⟨hframed, hshort _ (hsent b hb), ?_, ?_, hopens x hx b hb _ _ _ _ hseal⟩
    · rw [hst]
      exact happ x hx
    · rw [hflags]
      exact SendOp.uncritical (happ x hx)
  · intro b hb
    rw [(hgenuine b hb).stream]
    exact UInt32.lt_of_le_of_lt (hmarks _ _)
      ((sent_increasing hplace.active xs b.frame.origin (hcount _ _)).2 _ (hsent b hb) rfl)
  · -- One stream is one member and class, and its frames are numbered upwards.
    have hstreams : (arrivals.map Arrival.frame).Pairwise fun f g => f.origin = g.origin →
        f.payload.sequenceNo < g.payload.sequenceNo :=
      pairwise_of_streams fun o =>
        (sent_increasing hplace.active xs o (hcount _ _)).1.sublist (horder o)
    refine (List.pairwise_map.mp hstreams).imp_of_mem fun hb hc hlt hkey => hlt ?_
    exact (hgenuine _ hb).origin_eq hids hsmall (hgenuine _ hc) hkey

end Runs

section TwoSenders

local instance : Codegen GtpMessage := ⟨GtpMessage.toCbor, GtpMessage.toCbor⟩

local instance : Codegen GapPayload := ⟨GapPayload.toCbor, GapPayload.toCbor⟩

local instance : Codegen GspSignal := ⟨GspSignal.toCbor, GspSignal.toCbor⟩

/-- A fresh node of one group in epoch zero. -/
def freshNode (id : MemberId) : GroupNode :=
  (GroupNode.new id (Vector.replicate 16 0)).bootstrapAsCreator 0

/-- Members 1 and 2. -/
def twoSenders (i : Bool) : Member := .new (freshNode (if i then 2 else 1))

/-- Two texts of member 1 around an audio frame of member 2. -/
def mixedSends : List (ClientSend Bool PlainSealer) :=
  [⟨false, .plain, .text 0 1 "a" .cbor, 0⟩, ⟨true, .plain, .audio 0 7 960 [1, 2] .cbor, 0⟩,
    ⟨false, .plain, .text 0 2 "b" .cbor, 0⟩]

/-- The first text is lost and the second overtakes the audio frame. -/
def lossyArrivals : List (Arrival Bool PlainSealer) :=
  ((sent twoSenders mixedSends).drop 1).reverse.map fun f => ⟨f, .plain, 0⟩

theorem delivers_every_arrival_lossyArrivals :
    ∃ text audio, lossyArrivals = [text, audio] ∧
      ((freshNode 3).step text.call).emitted audio.call =
        [.payloadReceived audio.frame.payload] := by
  obtain ⟨text, audio, hsplit⟩ : ∃ text audio, lossyArrivals = [text, audio] :=
    List.length_eq_two.mp (by decide +kernel)
  refine ⟨text, audio, hsplit, ?_⟩
  refine delivers_every_arrival (freshNode 3) twoSenders ⟨by decide, by decide, by decide⟩
    (fun i j => ?_) (by decide) (fun i st => ?_) mixedSends (by simp [mixedSends, SendOp.stream])
    (fun i st => ?_) (by decide +kernel) lossyArrivals ?_ ?_ [text] [] audio hsplit
  · cases i <;> cases j <;> decide
  · exact UInt32.zero_le
  · cases i <;> cases st <;> decide
  · rintro ⟨i, st⟩
    cases i <;> cases st <;> decide +kernel
  · intro x _ a _
    exact PlainSealer.openInverse x.provider a.provider

end TwoSenders

end Delivering

end GroupProtocol
