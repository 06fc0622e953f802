import GroupProtocol.Base.Serde
import GroupProtocol.Node.Calls
import Mathlib.Order.WellFounded

/-!
# Competing PREPAREs at their issuers

Several members issue a PREPARE for one transition and receive each other's frames. A
receiver keeps the lowest committer, but sending a PREPARE records no committer at all: an
issuer never has itself recorded, and it compares the first frame it receives with nothing and
adopts its sender.
-/

namespace GroupProtocol

namespace GroupNode

section Prepare

variable [Ciborium] {S : Type} [Sealer S]

/-- A delivered PREPARE either changes nothing in the receiver's pending context or makes its
sender the committer of its transition. -/
theorem onWire_prepare (hS : Sealer.OpensOnlySealed S) {sender : GroupNode} {s : S}
    {target : MemberId} {tid : TransitionId} {rid : UInt32} {args : Bytes} {at' : Instant}
    {o : OutboundFrame}
    (hsend : (sender.sendControl s target .prepareTransition tid rid args at').1 = .ok o)
    (n : GroupNode) (r : S) (now : Instant) :
    (n.onWire r o.wire now).2.1.pendingTransitionId = n.pendingTransitionId ∧
        (n.onWire r o.wire now).2.1.pendingCommitSender = n.pendingCommitSender ∨
      (n.onWire r o.wire now).2.1.pendingTransitionId = tid ∧
        (n.onWire r o.wire now).2.1.pendingCommitSender = some sender.memberId := by
  rcases n.onWire_cases r o.wire now with ⟨m, ⟨state, evs, -, rfl⟩, -, heq⟩ |
    ⟨f, st, hd, hadm, heq⟩
  · rw [heq]
    exact Or.inl ⟨rfl, rfl⟩
  · rw [heq]
    rcases (n.record st f).dispatch_cases r st f now with ⟨state, evs, -, hr⟩ |
      ⟨plain, -, -, hr⟩ | ⟨plain, c, op, hopen, rfl, hc, hop, -, hr⟩
    · rw [hr]
      exact Or.inl ⟨rfl, rfl⟩
    · rw [hr]
      exact Or.inl ⟨rfl, rfl⟩
    · obtain ⟨-, rfl⟩ := sendControl_read hS hsend hd hopen hc
      simp only [ControlMessage.withArgs, ControlOpcode.tryFrom_asU16, Except.ok.injEq] at hop
      subst hop
      rw [hr]
      simp only [push, applyControl]
      split
      · exact Or.inl ⟨rfl, rfl⟩
      · exact Or.inr ⟨rfl, rfl⟩

/-- A fresh PREPARE for the pending transition is adopted while no committer is recorded. -/
theorem onWire_prepare_adopts (hS : Sealer.OpenInverse S) {sender : GroupNode} {s : S}
    {target : MemberId} {tid : TransitionId} {rid : UInt32} {args : Bytes} {at' : Instant}
    {o : OutboundFrame}
    (hsend : (sender.sendControl s target .prepareTransition tid rid args at').1 = .ok o)
    (hargs : args.length < 2 ^ 32)
    (hshort : ∀ ct, (Sealer.seal s .control
      (sender.outSeq.read (.control, sender.memberStreamId 0) + 1)
      (ControlMessage.withArgs ControlOpcode.prepareTransition.asU16 rid sender.memberId tid
        args).toCbor).1 = .ok ct → ct.length < 2 ^ 32)
    {n : GroupNode} (hgroup : sender.groupId = n.groupId)
    (hepoch : sender.currentEpoch = n.currentEpoch) (hnewer : n.lastTransitionId < tid)
    (hpending : n.pendingTransitionId = tid) (hnone : n.pendingCommitSender = none)
    (hid : sender.memberId ≠ 0xFFFFFFFF)
    (hfresh : n.inHw.read (.control, sender.memberStreamId 0) <
      sender.outSeq.read (.control, sender.memberStreamId 0) + 1)
    (r : S) (now : Instant) :
    (n.onWire r o.wire now).2.1.pendingCommitSender = some sender.memberId := by
  obtain ⟨ct, hseal, rfl⟩ := sendControl_wire hsend
  have hlen := hshort ct hseal
  rw [hgroup, hepoch]
  have hrecv := (onWire_control (s := r) now (GbpFrame.decode_toCbor_new hlen)
    (admitted_new sender.lastTransitionId (controlFlags .prepareTransition)
      PayloadCodec.cbor.asU8 hlen (by simp) hfresh) (hS s r _ _ _ _ hseal)).2
  have htid (f : GbpFrame) : (n.record .control f).tidOk .prepareTransition tid = true := by
    simp only [tidOk, Bool.and_eq_true, decide_eq_true_eq, Bool.or_eq_true, beq_iff_eq]
    exact ⟨hnewer, Or.inr hpending⟩
  have hwins : ¬(0xFFFFFFFF : UInt32) ≤ sender.memberId := by grind
  have hctl : ControlMessage.fromCbor (ControlMessage.withArgs
      ControlOpcode.prepareTransition.asU16 rid sender.memberId tid args).toCbor = .ok _ :=
    ControlMessage.fromCbor_toCbor_withArgs hargs
  rw [hrecv, handleControl_ok now hctl
    (ControlOpcode.tryFrom_asU16 .prepareTransition) (htid _)]
  simp only [push, applyControl, prepareLoses, record, hpending, hnone, Option.getD_none,
    ControlMessage.withArgs, beq_self_eq_true, Bool.true_and, decide_eq_true_eq, hwins, if_false,
    noteCoordinatorActivity]

end Prepare

/-- The committer a node holds for its pending transition: the recorded one, or its own
commit when it issued a PREPARE and recorded none. -/
def winner (issuer : Bool) (n : GroupNode) : Option MemberId :=
  match n.pendingCommitSender with
  | some w => some w
  | none => if issuer then some n.memberId else none

end GroupNode

open GroupNode

/-- Members that issue PREPAREs for one transition. -/
structure Race (ι S : Type) where
  node : ι → GroupNode
  issues : ι → Bool
  tid : TransitionId
  provider : ι → S
  target : ι → MemberId
  requestId : ι → UInt32
  args : ι → Bytes
  sentAt : ι → Instant

/-- One delivery of an issuer's frame to another node. -/
structure Delivery (ι S : Type) where
  receiver : ι
  issuer : ι
  now : Instant
  provider : S

namespace Race

variable {ι : Type}

section Runs

variable [Ciborium] {S : Type} [Sealer S]

/-- The PREPARE of a member. -/
def prepare (R : Race ι S) (i : ι) : Except NodeError OutboundFrame × GroupNode × S :=
  (R.node i).sendControl (R.provider i) (R.target i) .prepareTransition R.tid (R.requestId i)
    (R.args i) (R.sentAt i)

/-- The nodes once every issuer has sent its PREPARE. -/
def issued (R : Race ι S) (i : ι) : GroupNode :=
  if R.issues i then (R.prepare i).2.1 else R.node i

/-- Deliver one issuer's frame. -/
def deliver [DecidableEq ι] (R : Race ι S) (nodes : ι → GroupNode) (d : Delivery ι S) :
    ι → GroupNode :=
  match (R.prepare d.issuer).1 with
  | .ok o =>
    Function.update nodes d.receiver ((nodes d.receiver).onWire d.provider o.wire d.now).2.1
  | .error _ => nodes

/-- The nodes after a series of deliveries. -/
def outcome [DecidableEq ι] (R : Race ι S) (ds : List (Delivery ι S)) : ι → GroupNode :=
  Machine.run R.deliver R.issued ds

/-- The deliveries hand every issuer's frame to every other node, and nothing else. -/
def Complete (R : Race ι S) (ds : List (Delivery ι S)) : Prop :=
  (∀ d ∈ ds, R.issues d.issuer = true ∧ d.receiver ≠ d.issuer) ∧
    ∀ r i, R.issues i = true → r ≠ i → ∃ d ∈ ds, d.receiver = r ∧ d.issuer = i

/-- Every node has the lowest issuer recorded as the committer. -/
def Recorded (R : Race ι S) (nodes : ι → GroupNode) : Prop :=
  ∀ low, R.issues low = true →
    (∀ i, R.issues i = true → (R.node low).memberId ≤ (R.node i).memberId) →
      ∀ r, (nodes r).pendingCommitSender = some (R.node low).memberId

/-- Every node holds the lowest issuer as the winner, when an issuer with no committer recorded
counts as holding its own commit. -/
def TieBreak (R : Race ι S) (nodes : ι → GroupNode) : Prop :=
  ∀ low, R.issues low = true →
    (∀ i, R.issues i = true → (R.node low).memberId ≤ (R.node i).memberId) →
      ∀ r, (nodes r).winner (R.issues r) = some (R.node low).memberId

/-- The setting: at least two issuers with distinct ids, one group and epoch, no transition
pending anywhere, and PREPAREs that can be sealed and are fresh. -/
structure Proper (R : Race ι S) : Prop where
  distinct : ∀ i j, (R.node i).memberId = (R.node j).memberId → i = j
  two : ∃ i j, i ≠ j ∧ R.issues i = true ∧ R.issues j = true
  group : ∀ i j, (R.node i).groupId = (R.node j).groupId
  epoch : ∀ i j, (R.node i).currentEpoch = (R.node j).currentEpoch
  newer : ∀ i, (R.node i).lastTransitionId < R.tid
  idle : ∀ i, (R.node i).pendingTransitionId = 0 ∧ (R.node i).pendingCommitSender = none
  sends : ∀ i, R.issues i = true → ∃ o, (R.prepare i).1 = .ok o
  short : ∀ i, (R.args i).length < 2 ^ 32 ∧ ∀ ct, (Sealer.seal (R.provider i) .control
    ((R.node i).outSeq.read (.control, (R.node i).memberStreamId 0) + 1)
    (ControlMessage.withArgs ControlOpcode.prepareTransition.asU16 (R.requestId i)
      (R.node i).memberId R.tid (R.args i)).toCbor).1 = .ok ct → ct.length < 2 ^ 32
  fresh : ∀ r i, r ≠ i → (R.node r).inHw.read (.control, (R.node i).memberStreamId 0) <
    (R.node i).outSeq.read (.control, (R.node i).memberStreamId 0) + 1

/-- An issuer starts with its own transition pending and no committer recorded. -/
theorem issued_context {R : Race ι S} {i : ι} (hi : R.issues i = true) :
    ∃ q prep, R.issued i = { R.node i with
      pendingTransitionId := R.tid, transitionState := .tPrepared, prepareDeadline := prep,
      executeDeadline := none, outSeq := q } := by
  obtain ⟨q, hq⟩ := (R.node i).sendControl_node (R.provider i) (R.target i) .prepareTransition
    R.tid (R.requestId i) (R.args i) (R.sentAt i)
  refine ⟨q, some (R.sentAt i + fromMillis Timeouts.tPrepareMaxMs), ?_⟩
  rw [issued, if_pos hi, prepare, hq]
  rfl

/-- An issuer is not the committer it has recorded. -/
def NotOwn (R : Race ι S) (i : ι) (nodes : ι → GroupNode) : Prop :=
  (nodes i).pendingCommitSender ≠ some (R.node i).memberId

theorem issued_notOwn {R : Race ι S} (hR : R.Proper) {i : ι} (hi : R.issues i = true) :
    R.NotOwn i R.issued := by
  obtain ⟨q, prep, hctx⟩ := issued_context (R := R) hi
  rw [NotOwn, hctx]
  dsimp only
  rw [(hR.idle i).2]
  exact nofun

/-- A committer other than the member itself is recorded. -/
def Adopted (R : Race ι S) (i : ι) (nodes : ι → GroupNode) : Prop :=
  ∃ w, (nodes i).pendingCommitSender = some w ∧ w ≠ (R.node i).memberId

variable [DecidableEq ι]

theorem deliver_ne {R : Race ι S} {nodes : ι → GroupNode} {d : Delivery ι S} {i : ι}
    (h : d.receiver ≠ i) : R.deliver nodes d i = nodes i := by
  cases hp : (R.prepare d.issuer).1 with
  | ok o => simp only [deliver, hp, Function.update_of_ne (Ne.symm h)]
  | error e => simp only [deliver, hp]

/-- A frame of another issuer never makes a member its own committer. -/
theorem deliver_notOwn (hS : Sealer.OpensOnlySealed S) {R : Race ι S} (hR : R.Proper)
    {nodes : ι → GroupNode} {d : Delivery ι S} (hne : d.receiver ≠ d.issuer) {i : ι}
    (h : R.NotOwn i nodes) : R.NotOwn i (R.deliver nodes d) := by
  by_cases hri : d.receiver = i
  · subst hri
    unfold deliver
    split
    · rename_i o ho
      rw [NotOwn, Function.update_self]
      rcases onWire_prepare hS ho (nodes d.receiver) d.provider d.now with ⟨-, hsame⟩ | ⟨-, hnew⟩
      · rw [hsame]
        exact h
      · rw [hnew]
        exact fun heq => hne (hR.distinct _ _ (Option.some.inj heq)).symm
    · exact h
  · rw [NotOwn, deliver_ne hri]
    exact h

/-- However the frames are delivered, no issuer ends with itself recorded. -/
theorem outcome_notOwn (hS : Sealer.OpensOnlySealed S) {R : Race ι S} (hR : R.Proper)
    {ds : List (Delivery ι S)} (hds : R.Complete ds) {i : ι} (hi : R.issues i = true) :
    R.NotOwn i (R.outcome ds) := by
  apply Machine.run_invariant (issued_notOwn hR hi)
  intro nodes d hd h
  exact deliver_notOwn hS hR (hds.1 d hd).2 h

/-- The first frame an issuer receives is adopted. -/
theorem deliver_first (hS : Sealer.OpenInverse S) {R : Race ι S} (hR : R.Proper)
    {nodes : ι → GroupNode} {d : Delivery ι S} (hr : R.issues d.receiver = true)
    (hmax : (R.node d.issuer).memberId ≠ 0xFFFFFFFF)
    (hi : R.issues d.issuer = true) (hne : d.receiver ≠ d.issuer)
    (hstart : nodes d.receiver = R.issued d.receiver) :
    R.Adopted d.receiver (R.deliver nodes d) := by
  obtain ⟨o, ho⟩ := hR.sends d.issuer hi
  obtain ⟨q, prep, hctx⟩ := issued_context (R := R) hr
  obtain ⟨hargs, hshort⟩ := hR.short d.issuer
  refine ⟨(R.node d.issuer).memberId, ?_, fun h => hne (hR.distinct _ _ h).symm⟩
  simp only [deliver, ho, Function.update_self, hstart, hctx]
  refine onWire_prepare_adopts hS ho hargs hshort ?_ ?_ ?_ rfl ?_ hmax ?_ _ _
  · exact hR.group _ _
  · exact hR.epoch _ _
  · exact hR.newer d.receiver
  · exact (hR.idle d.receiver).2
  · exact hR.fresh _ _ hne

/-- Once another committer is recorded, one stays recorded. -/
theorem deliver_adopted (hS : Sealer.OpenInverse S) {R : Race ι S} (hR : R.Proper)
    {nodes : ι → GroupNode} {d : Delivery ι S} (hne : d.receiver ≠ d.issuer) {i : ι}
    (h : R.Adopted i nodes) : R.Adopted i (R.deliver nodes d) := by
  by_cases hri : d.receiver = i
  · subst hri
    obtain ⟨w, hw, hother⟩ := h
    unfold deliver
    split
    · rename_i o ho
      rw [Adopted, Function.update_self]
      rcases onWire_prepare hS.opensOnlySealed ho (nodes d.receiver) d.provider d.now with
        ⟨-, hsame⟩ | ⟨-, hnew⟩
      · exact ⟨w, hsame.trans hw, hother⟩
      · exact ⟨_, hnew, fun h => hne (hR.distinct _ _ h).symm⟩
    · exact ⟨w, hw, hother⟩
  · rw [Adopted, deliver_ne hri]
    exact h

/-- An issuer is still as it was after its own send, or has adopted another committer. -/
def Settled (R : Race ι S) (i : ι) (nodes : ι → GroupNode) : Prop :=
  nodes i = R.issued i ∨ R.Adopted i nodes

theorem deliver_settled (hS : Sealer.OpenInverse S) {R : Race ι S} (hR : R.Proper)
    {nodes : ι → GroupNode} {d : Delivery ι S}
    (hmax : (R.node d.issuer).memberId ≠ 0xFFFFFFFF) (hissuer : R.issues d.issuer = true)
    (hne : d.receiver ≠ d.issuer) {i : ι} (hi : R.issues i = true) (h : R.Settled i nodes) :
    R.Settled i (R.deliver nodes d) := by
  rcases h with hstart | hadopted
  · by_cases hri : d.receiver = i
    · subst hri
      exact Or.inr (deliver_first hS hR hi hmax hissuer hne hstart)
    · exact Or.inl ((deliver_ne hri).trans hstart)
  · exact Or.inr (deliver_adopted hS hR hne hadopted)

/-- Every issuer that receives a frame of another issuer ends with another committer. The one id
that a receiver takes for no committer is left out. -/
theorem outcome_adopted (hS : Sealer.OpenInverse S) {R : Race ι S} (hR : R.Proper)
    (hmax : ∀ i, R.issues i = true → (R.node i).memberId ≠ 0xFFFFFFFF)
    {ds : List (Delivery ι S)} (hds : R.Complete ds) {i j : ι} (hij : i ≠ j)
    (hi : R.issues i = true) (hj : R.issues j = true) : R.Adopted i (R.outcome ds) := by
  obtain ⟨d, hd, rfl, rfl⟩ := hds.2 i j hj hij
  obtain ⟨pre, post, rfl⟩ := List.append_of_mem hd
  have hstart : R.Settled d.receiver R.issued := Or.inl rfl
  have hpre : R.Settled d.receiver (Machine.run R.deliver R.issued pre) := by
    apply Machine.run_invariant hstart
    intro nodes x hx h
    obtain ⟨hxi, hxne⟩ := hds.1 x (List.mem_append_left _ hx)
    exact deliver_settled hS hR (hmax _ hxi) hxi hxne hi h
  have hmid : R.Adopted d.receiver (R.deliver (Machine.run R.deliver R.issued pre) d) := by
    rcases hpre with hsame | hadopted
    · exact deliver_first hS hR hi (hmax _ hj) hj hij hsame
    · exact deliver_adopted hS hR hij hadopted
  rw [outcome, Machine.run_append, Machine.run_cons]
  apply Machine.run_invariant hmid
  intro nodes x hx h
  exact deliver_adopted hS hR (hds.1 x (List.mem_append_right _ (List.mem_cons_of_mem _ hx))).2 h

/-- However the PREPAREs are delivered, the lowest issuer does not record itself, so the nodes
never agree on it; and unless the one id is used that stands for no committer, it adopts another
member's commit. -/
theorem tieBreak_never (hS : Sealer.OpenInverse S) (R : Race ι S) (hR : R.Proper)
    (ds : List (Delivery ι S)) (hds : R.Complete ds) :
    ¬R.Recorded (R.outcome ds) ∧
      ((∀ i, R.issues i = true → (R.node i).memberId ≠ 0xFFFFFFFF) →
        ¬R.TieBreak (R.outcome ds)) := by
  obtain ⟨i, j, hij, hi, hj⟩ := hR.two
  obtain ⟨low, hlow, hleast⟩ := WellFounded.has_min
    (measure fun i => (R.node i).memberId.toNat).wf {i | R.issues i = true} ⟨i, hi⟩
  have hmin : ∀ k, R.issues k = true → (R.node low).memberId ≤ (R.node k).memberId :=
    fun k hk => UInt32.not_lt.mp (hleast k hk)
  constructor
  · intro hrecorded
    exact outcome_notOwn hS.opensOnlySealed hR hds hlow (hrecorded low hlow hmin low)
  · intro hmax htie
    have hwin := htie low hlow hmin low
    have hrival : ∃ k, low ≠ k ∧ R.issues k = true := by
      by_cases hl : low = i
      · exact ⟨j, fun h => hij (hl.symm.trans h), hj⟩
      · exact ⟨i, hl, hi⟩
    obtain ⟨k, hlk, hk⟩ := hrival
    obtain ⟨w, hw, hother⟩ := outcome_adopted hS hR hmax hds hlk hlow hk
    rw [winner, hw] at hwin
    exact hother (Option.some.inj hwin)

end Runs

/-- Members 1 and 2 issue a PREPARE for transition 1 and member 3 only receives. -/
def twoIssuers : Race (Fin 3) PlainSealer where
  node i := bootstrapped (UInt32.ofNat (i + 1)) (Vector.replicate 16 0) (.creator 0)
  issues i := i != 2
  tid := 1
  provider _ := .plain
  target _ := 0
  requestId _ := 0
  args _ := []
  sentAt _ := 0

/-- Both frames reach both other nodes. -/
def crossDelivery : List (Delivery (Fin 3) PlainSealer) :=
  [⟨0, 1, 1, .plain⟩, ⟨1, 0, 1, .plain⟩, ⟨2, 0, 1, .plain⟩, ⟨2, 1, 1, .plain⟩]

/-- Member 1, the lowest issuer, records member 2 while members 2 and 3 record member 1. -/
theorem lowest_issuer_adopts :
    (twoIssuers.outcome crossDelivery 0).pendingCommitSender = some 2 ∧
      (twoIssuers.outcome crossDelivery 1).pendingCommitSender = some 1 ∧
      (twoIssuers.outcome crossDelivery 2).pendingCommitSender = some 1 ∧
      ¬twoIssuers.Recorded (twoIssuers.outcome crossDelivery) ∧
      ¬twoIssuers.TieBreak (twoIssuers.outcome crossDelivery) := by
  refine ⟨by decide +kernel, by decide +kernel, by decide +kernel, ?_, ?_⟩
  · intro h
    have hwin := h 0 rfl (by decide +kernel) 0
    exact absurd hwin (by decide +kernel)
  · intro h
    have hwin := h 0 rfl (by decide +kernel) 0
    exact absurd hwin (by decide +kernel)

theorem twoIssuers_proper : twoIssuers.Proper where
  distinct := by decide +kernel
  two := ⟨0, 1, by decide, rfl, rfl⟩
  group := by decide +kernel
  epoch := by decide +kernel
  newer := by decide +kernel
  idle := by decide +kernel
  sends := fun i _ => ⟨_, rfl⟩
  short := by
    intro i
    refine ⟨Nat.two_pow_pos 32, ?_⟩
    intro ct h
    obtain rfl := Except.ok.inj h
    revert i
    decide +kernel
  fresh := by decide +kernel

theorem tieBreak_never_twoIssuers :
    ¬twoIssuers.Recorded (twoIssuers.outcome crossDelivery) ∧
      ¬twoIssuers.TieBreak (twoIssuers.outcome crossDelivery) := by
  have h := tieBreak_never PlainSealer.openInverse twoIssuers twoIssuers_proper crossDelivery
    (by unfold Complete; decide +kernel)
  exact ⟨h.1, h.2 (by decide +kernel)⟩

end Race

end GroupProtocol
