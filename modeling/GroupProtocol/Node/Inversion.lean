import GroupProtocol.Node.Wire

/-!
# What one node operation can do

Each operation is described once: error reports touch the node state and the event
queue only, sends touch the send counters, and a received frame is either refused
with a report or recorded in the replay window and dispatched. Every later invariant
is derived from these descriptions.
-/

namespace GroupProtocol

/-- State changes and errors: the events that carry no received data. -/
def Event.isReport : Event → Bool
  | .stateChanged .. => true
  | .error .. => true
  | _ => false

namespace GroupNode

/-- The second node differs from the first in its state and in reports queued behind the
existing events. -/
def Reports (n m : GroupNode) : Prop :=
  ∃ state evs, (∀ e ∈ evs, Event.isReport e = true) ∧
    m = { n with state := state, events := n.events ++ evs }

theorem Reports.refl (n : GroupNode) : Reports n n :=
  ⟨n.state, [], by simp, by simp only [List.append_nil]⟩

theorem Reports.trans {a b c : GroupNode} (hab : Reports a b) (hbc : Reports b c) :
    Reports a c := by
  obtain ⟨s, evs, hevs, rfl⟩ := hab
  obtain ⟨t, fvs, hfvs, rfl⟩ := hbc
  refine ⟨t, evs ++ fvs, ?_, by simp only [List.append_assoc]⟩
  intro e he
  rcases List.mem_append.mp he with he | he
  · exact hevs e he
  · exact hfvs e he

theorem reports_push {n : GroupNode} {e : Event} (he : e.isReport = true) (s : NodeState) :
    Reports n ({ n with state := s }.push e) :=
  ⟨s, [e], by simpa using he, rfl⟩

theorem reports_transition (n : GroupNode) (next : NodeState) :
    Reports n (n.transition next) := by
  unfold transition
  split
  · exact Reports.refl n
  · split
    · exact reports_push rfl _
    · exact reports_push rfl _

theorem reports_emitErrNamed (n : GroupNode) (code : UInt16) (cls : ErrorClass)
    (retryable fatal : Bool) (reason : String) :
    Reports n (n.emitErrNamed code cls retryable fatal reason) := by
  have herr (c : ErrorClass) (r f : Bool) :
      Reports n (n.push (.error code c r f reason)) := reports_push rfl n.state
  unfold emitErrNamed
  split
  rename_i c r f _
  dsimp only
  split
  · exact (herr c r f).trans (reports_push rfl _)
  · exact herr c r f

theorem reports_emitErrSpec (n : GroupNode) (code : UInt16) (reason : String) :
    Reports n (n.emitErrSpec code reason) := by
  unfold emitErrSpec
  split
  · exact reports_emitErrNamed ..
  · exact reports_emitErrNamed ..

theorem reports_triggerResync (n : GroupNode) : Reports n n.triggerResync := by
  unfold triggerResync
  split
  · exact reports_transition n _
  · exact Reports.refl n

/-! Bootstrap fixes the epoch and at most pre-arms a pending transition. -/

theorem bootstrapAsJoiner_new (id : MemberId) (gid : GroupId) (epoch : UInt64)
    (tid : TransitionId) :
    (new id gid).bootstrapAsJoiner epoch tid =
      { new id gid with
        currentEpoch := epoch
        pendingTransitionId := tid
        state := .active
        transitionState := if tid > 0 then .tPrepared else .tIdle
        events := [.stateChanged .idle .connecting, .stateChanged .connecting .establishingGroup,
          .stateChanged .establishingGroup .active] } := by
  by_cases h : tid > 0
  · simp only [bootstrapAsJoiner, h, if_true]
    rfl
  · have hz : tid = 0 := by grind
    subst hz
    rfl

theorem assertCanSend_active {n : GroupNode} (h : n.state = .active) :
    n.assertCanSend = .ok () := by
  rw [assertCanSend, h]

/-- Below the asserted bound, stream ids of a class identify their members. -/
theorem memberStreamId_inj {n m : GroupNode} (hn : n.memberId < 1000000)
    (hm : m.memberId < 1000000) {base : UInt32}
    (h : n.memberStreamId base = m.memberStreamId base) : n.memberId = m.memberId := by
  -- the products stay below the word size, so equal words are equal numbers
  have hsmall : ∀ a : ℕ, a < 1000000 → a * 100 < 2 ^ 32 := by
    intro a ha
    omega
  have hmul : n.memberId * 100 = m.memberId * 100 := (UInt32.add_right_inj _).mp h
  have htoNat := congrArg UInt32.toNat hmul
  rw [UInt32.lt_iff_toNat_lt] at hn hm
  simp only [UInt32.toNat_mul, UInt32.reduceToNat] at htoNat hn hm
  rw [Nat.mod_eq_of_lt (hsmall _ hn), Nat.mod_eq_of_lt (hsmall _ hm)] at htoNat
  exact UInt32.toNat_inj.mp (Nat.eq_of_mul_eq_mul_right (by decide) htoNat)

/-- Restoring counters changes the send counters only. -/
theorem restoreOutSeq_node (n : GroupNode) (bytes : Bytes) :
    ∃ q, n.restoreOutSeq bytes = { n with outSeq := q } := by
  unfold restoreOutSeq
  split
  · exact ⟨_, rfl⟩
  · exact ⟨n.outSeq, rfl⟩

/-! Sends consume sequence numbers and leave everything else to the mirroring. -/

section Send

variable [Ciborium] {S : Type} [Sealer S]

/-- A payload send changes at most the send counters. -/
theorem sendPayload_node (n : GroupNode) (s : S) (target : MemberId) (st : StreamType)
    (sid : StreamId) (flags : UInt16) (pt : Bytes) (codec : PayloadCodec) :
    ∃ q, (n.sendPayload s target st sid flags pt codec).2.1 = { n with outSeq := q } := by
  unfold sendPayload
  split
  · exact ⟨n.outSeq, rfl⟩
  · refine ⟨n.outSeq.insert (st, sid) (n.outSeq.read (st, sid) + 1), ?_⟩
    dsimp only [nextSeq]
    split <;> rfl

/-- A node that can send seals once, under the next number of the stream. -/
theorem sendPayload_seals {n : GroupNode} (h : n.assertCanSend = .ok ()) (s : S)
    (target : MemberId) (st : StreamType) (sid : StreamId) (flags : UInt16) (pt : Bytes)
    (codec : PayloadCodec) :
    (n.sendPayload s target st sid flags pt codec).2 =
      ({ n with outSeq := n.outSeq.insert (st, sid) (n.outSeq.read (st, sid) + 1) },
        (Sealer.seal s st (n.outSeq.read (st, sid) + 1) pt).2) := by
  simp only [sendPayload, h, nextSeq]
  split <;> rename_i hseal <;> rw [hseal]

/-- A payload send that succeeds frames what the provider sealed under the next number. -/
theorem sendPayload_wire {n : GroupNode} {s : S} {target : MemberId} {st : StreamType}
    {sid : StreamId} {flags : UInt16} {pt : Bytes} {codec : PayloadCodec} {o : OutboundFrame}
    (h : (n.sendPayload s target st sid flags pt codec).1 = .ok o) :
    ∃ ct, (Sealer.seal s st (n.outSeq.read (st, sid) + 1) pt).1 = .ok ct ∧
      o = ⟨target, (GbpFrame.new n.groupId n.currentEpoch n.lastTransitionId st sid flags
        (n.outSeq.read (st, sid) + 1) ct codec.asU8).toCbor⟩ := by
  unfold sendPayload at h
  split at h
  · cases h
  · dsimp only [nextSeq] at h
    split at h
    · cases h
    · rename_i ct s' hseal
      exact ⟨ct, by rw [hseal], (Except.ok.inj h).symm⟩

/-- A payload send of a node that can send succeeds when the provider seals. -/
theorem sendPayload_ok {n : GroupNode} (h : n.assertCanSend = .ok ()) {s : S} {st : StreamType}
    {sid : StreamId} {pt ct : Bytes}
    (hseal : (Sealer.seal s st (n.outSeq.read (st, sid) + 1) pt).1 = .ok ct) (target : MemberId)
    (flags : UInt16) (codec : PayloadCodec) :
    (n.sendPayload s target st sid flags pt codec).1 =
      .ok ⟨target, (GbpFrame.new n.groupId n.currentEpoch n.lastTransitionId st sid flags
        (n.outSeq.read (st, sid) + 1) ct codec.asU8).toCbor⟩ := by
  simp only [sendPayload, h, nextSeq]
  split
  · rename_i e s' hpair
    rw [hpair] at hseal
    cases hseal
  · rename_i ct' s' hpair
    rw [hpair] at hseal
    cases hseal
    rfl

/-- A control send mirrors its opcode and then changes at most the send counters. -/
theorem sendControl_node (n : GroupNode) (s : S) (target : MemberId) (op : ControlOpcode)
    (tid : TransitionId) (rid : UInt32) (args : Bytes) (now : Instant) :
    ∃ q, (n.sendControl s target op tid rid args now).2.1 =
      { n.mirrorControl op tid now with outSeq := q } :=
  sendPayload_node ..

/-- A control send that succeeds frames its sealed message on the member's control stream. -/
theorem sendControl_wire {n : GroupNode} {s : S} {target : MemberId} {op : ControlOpcode}
    {tid : TransitionId} {rid : UInt32} {args : Bytes} {now : Instant} {o : OutboundFrame}
    (h : (n.sendControl s target op tid rid args now).1 = .ok o) :
    ∃ ct, (Sealer.seal s .control (n.outSeq.read (.control, n.memberStreamId 0) + 1)
        (ControlMessage.withArgs op.asU16 rid n.memberId tid args).toCbor).1 = .ok ct ∧
      o = ⟨target, (GbpFrame.new n.groupId n.currentEpoch n.lastTransitionId .control
        (n.memberStreamId 0) (controlFlags op) (n.outSeq.read (.control, n.memberStreamId 0) + 1)
        ct PayloadCodec.cbor.asU8).toCbor⟩ := by
  obtain ⟨ct, hseal, ho⟩ := sendPayload_wire h
  have hsame : (n.mirrorControl op tid now).outSeq = n.outSeq ∧
      (n.mirrorControl op tid now).memberId = n.memberId ∧
      (n.mirrorControl op tid now).groupId = n.groupId ∧
      (n.mirrorControl op tid now).currentEpoch = n.currentEpoch ∧
      (n.mirrorControl op tid now).lastTransitionId = n.lastTransitionId := by
    cases op <;> exact ⟨rfl, rfl, rfl, rfl, rfl⟩
  obtain ⟨hq, hid, hg, he, hl⟩ := hsame
  simp only [memberStreamId, hq, hid, hg, he, hl] at hseal ho ⊢
  exact ⟨ct, hseal, ho⟩

/-- Whoever reads a control frame reads the message that was sent. -/
theorem sendControl_read (hS : Sealer.OpensOnlySealed S) {n : GroupNode} {s r : S}
    {target : MemberId} {op : ControlOpcode} {tid : TransitionId} {rid : UInt32} {args : Bytes}
    {now : Instant} {o : OutboundFrame} {f : GbpFrame} {plain : Bytes} {c : ControlMessage}
    (h : (n.sendControl s target op tid rid args now).1 = .ok o)
    (hd : GbpFrame.decode o.wire = .ok f)
    (ho : (Sealer.open r .control f.sequenceNo f.encryptedPayload).1 = .ok plain)
    (hc : ControlMessage.fromCbor plain = .ok c) :
    f.epoch = n.currentEpoch ∧ c = ControlMessage.withArgs op.asU16 rid n.memberId tid args := by
  obtain ⟨ct, hseal, rfl⟩ := sendControl_wire h
  have hf := GbpFrame.decode_toCbor_eq hd
  subst hf
  have hplain := hS s r _ _ _ _ _ hseal ho
  rw [hplain] at hc
  exact ⟨rfl, ControlMessage.fromCbor_toCbor_eq hc⟩

/-- A coordinator claim takes the role, restarts the silence timer and announces both. -/
theorem claimCoordinator_node (n : GroupNode) (s : S) (target : MemberId) (now : Instant) :
    ∃ q, (n.claimCoordinator s target now).2.1 =
      { n with
        isCoordinator := true
        coordinatorLastSeen := some now
        events := n.events ++ [.becameCoordinator]
        outSeq := q } :=
  sendControl_node ..

end Send

/-! Timeouts drop pending context, never applied context. -/

/-- PREPARE expiry keeps the pending transition or drops it. -/
theorem checkPrepare_node (n : GroupNode) (now : Instant) :
    ∃ pending tstate prep exec state evs,
      (pending = n.pendingTransitionId ∨ pending = 0) ∧
      (∀ e ∈ evs, Event.isReport e = true) ∧
      n.checkPrepare now = { n with
        pendingTransitionId := pending, transitionState := tstate, prepareDeadline := prep,
        executeDeadline := exec, state := state, events := n.events ++ evs } := by
  unfold checkPrepare
  split
  · obtain ⟨state, evs, hevs, heq⟩ := reports_emitErrSpec { n with
      prepareDeadline := none, executeDeadline := none, pendingTransitionId := 0,
      transitionState := .tAborted } Codes.prepareTimeout "T_prepare_max exceeded"
    exact ⟨0, .tAborted, none, none, state, evs, Or.inr rfl, hevs, heq⟩
  · exact ⟨n.pendingTransitionId, n.transitionState, n.prepareDeadline, n.executeDeadline,
      n.state, [], Or.inl rfl, by simp, by simp only [List.append_nil]⟩

/-- EXECUTE expiry only clears its deadline and reports. -/
theorem checkExecute_node (n : GroupNode) (now : Instant) :
    ∃ exec state evs, (∀ e ∈ evs, Event.isReport e = true) ∧
      n.checkExecute now =
        { n with executeDeadline := exec, state := state, events := n.events ++ evs } := by
  unfold checkExecute
  split
  · obtain ⟨state, evs, hevs, heq⟩ := reports_emitErrSpec { n with executeDeadline := none }
      Codes.executeTimeout "T_execute_max exceeded"
    exact ⟨none, state, evs, hevs, heq⟩
  · exact ⟨n.executeDeadline, n.state, [], by simp, by simp only [List.append_nil]⟩

/-- Coordinator silence only drops the role and its timer. -/
theorem checkCoordinator_node (n : GroupNode) (now : Instant) :
    ∃ seen coord state evs,
      (∀ e ∈ evs, Event.isReport e = true ∨ e = .coordinatorElectionNeeded) ∧
      n.checkCoordinator now = { n with
        coordinatorLastSeen := seen, isCoordinator := coord, state := state,
        events := n.events ++ evs } := by
  have hsame : ∃ seen coord state evs,
      (∀ e ∈ evs, Event.isReport e = true ∨ e = .coordinatorElectionNeeded) ∧
      n = { n with
        coordinatorLastSeen := seen, isCoordinator := coord, state := state,
        events := n.events ++ evs } :=
    ⟨n.coordinatorLastSeen, n.isCoordinator, n.state, [], by simp,
      by simp only [List.append_nil]⟩
  unfold checkCoordinator
  split
  · split
    · obtain ⟨state, evs, hevs, heq⟩ := reports_emitErrSpec
        { n with coordinatorLastSeen := none, isCoordinator := false } Codes.coordinatorGone
        "coordinator silence exceeded T_coordinator_grace"
      refine ⟨none, false, state, evs ++ [.coordinatorElectionNeeded], ?_, ?_⟩
      · intro e he
        rcases List.mem_append.mp he with he | he
        · exact Or.inl (hevs e he)
        · exact Or.inr (List.mem_singleton.mp he)
      · rw [heq]
        simp only [push, List.append_assoc]
    · exact hsame
  · exact hsame

/-- After a timeout check the pending transition is kept or dropped; epochs, windows and
counters are kept. -/
theorem checkTimeouts_node (n : GroupNode) (now : Instant) :
    ∃ pending tstate prep exec seen coord state evs,
      (pending = n.pendingTransitionId ∨ pending = 0) ∧
      (∀ e ∈ evs, Event.isReport e = true ∨ e = .coordinatorElectionNeeded) ∧
      n.checkTimeouts now = (n.events ++ evs,
        { n with
          pendingTransitionId := pending
          transitionState := tstate
          prepareDeadline := prep
          executeDeadline := exec
          coordinatorLastSeen := seen
          isCoordinator := coord
          state := state
          events := [] }) := by
  obtain ⟨pending, tstate, prep, exec₁, state₁, evs₁, hpend, hevs₁, h₁⟩ := n.checkPrepare_node now
  obtain ⟨exec, state₂, evs₂, hevs₂, h₂⟩ := (n.checkPrepare now).checkExecute_node now
  obtain ⟨seen, coord, state, evs₃, hevs₃, h₃⟩ :=
    ((n.checkPrepare now).checkExecute now).checkCoordinator_node now
  refine ⟨pending, tstate, prep, exec, seen, coord, state, evs₁ ++ evs₂ ++ evs₃, hpend, ?_, ?_⟩
  · intro e he
    rcases List.mem_append.mp he with he | he
    · rcases List.mem_append.mp he with he | he
      · exact Or.inl (hevs₁ e he)
      · exact Or.inl (hevs₂ e he)
    · exact hevs₃ e he
  · rw [checkTimeouts, h₃, h₂, h₁]
    simp only [drainEvents, List.append_assoc]

/-! A received frame is refused with a report, or recorded and dispatched. -/

/-- The stream class of a frame that passes every check up to and including the replay
window, if it passes them all. -/
def admitted (n : GroupNode) (f : GbpFrame) : Option StreamType :=
  if f.version ≠ 1 ∨ f.groupIdArray ≠ n.groupId ∨ f.epoch ≠ n.currentEpoch then none
  else
    match f.validatePayloadSize, f.streamTypeTyped with
    | .ok (), .ok st =>
      if st ≠ .control ∧ GbpFlags.has f.flags GbpFlags.critical = true ∧
          f.transitionId ≠ n.lastTransitionId then none
      else if f.sequenceNo ≤ n.inHw.read (st, f.streamId) then none
      else some st
    | _, _ => none

/-- The facts behind an admission. -/
structure Admits (n : GroupNode) (f : GbpFrame) (st : StreamType) : Prop where
  version : f.version = 1
  group : f.groupIdArray = n.groupId
  epoch : f.epoch = n.currentEpoch
  size : f.validatePayloadSize = .ok ()
  stream : f.streamTypeTyped = .ok st
  transition : ¬(st ≠ .control ∧ GbpFlags.has f.flags GbpFlags.critical = true ∧
    f.transitionId ≠ n.lastTransitionId)
  fresh : n.inHw.read (st, f.streamId) < f.sequenceNo

theorem admitted_eq_some {n : GroupNode} {f : GbpFrame} {st : StreamType} :
    n.admitted f = some st ↔ Admits n f st := by
  constructor
  · intro h
    unfold admitted at h
    split at h
    · cases h
    · rename_i hhead
      simp only [not_or, ne_eq, not_not] at hhead
      split at h
      · rename_i st' hsize hst
        split at h
        · cases h
        · rename_i htid
          split at h
          · cases h
          · rename_i hseq
            obtain rfl := Option.some.inj h
            exact ⟨hhead.1, hhead.2.1, hhead.2.2, hsize, hst, htid, by grind⟩
      · cases h
  · intro h
    have hseq : ¬f.sequenceNo ≤ n.inHw.read (st, f.streamId) := by
      have := h.fresh
      grind
    simp only [admitted, h.version, h.group, h.epoch, h.size, h.stream, h.transition, hseq,
      ne_eq, not_true_eq_false, or_self, if_false]

/-- A frame built for this group and epoch is admitted when its transition and its number
pass. -/
theorem admitted_new {n : GroupNode} {st : StreamType} {sid : StreamId} {seq : SequenceNo}
    {pl : Bytes} (tid : TransitionId) (fl : UInt16) (pf : UInt8) (hlen : pl.length < 2 ^ 32)
    (htid : ¬(st ≠ .control ∧ GbpFlags.has fl GbpFlags.critical = true ∧
      tid ≠ n.lastTransitionId))
    (hfresh : n.inHw.read (st, sid) < seq) :
    n.admitted (GbpFrame.new n.groupId n.currentEpoch tid st sid fl seq pl pf) = some st :=
  admitted_eq_some.mpr ⟨rfl, GbpFrame.groupIdArray_new .., rfl,
    GbpFrame.validatePayloadSize_new hlen, GbpFrame.streamTypeTyped_new .., htid, hfresh⟩

/-- The admitted frame's number becomes the mark of its stream. -/
def record (n : GroupNode) (st : StreamType) (f : GbpFrame) : GroupNode :=
  { n with inHw := n.inHw.insert (st, f.streamId) f.sequenceNo }

/-- The event of an application payload. -/
def delivery (st : StreamType) (f : GbpFrame) (plain : Bytes) : DeliveredPayload :=
  ⟨st, f.streamId, f.sequenceNo, f.flags, plain, f.payloadCodec⟩

section Receive

variable [Ciborium] {S : Type} [Sealer S]

/-- What happens to an admitted frame once its number is recorded. -/
def dispatch (n : GroupNode) (s : S) (st : StreamType) (f : GbpFrame) (now : Instant) :
    GroupNode × S :=
  match Sealer.open s st f.sequenceNo f.encryptedPayload with
  | (.error e, s) =>
    let reason := e.display
    (n.emitErrNamed Codes.decryptFailed .crypto true false s!"aead open: {reason}", s)
  | (.ok plain, s) =>
    match st with
    | .control => (n.handleControl plain now, s)
    | other => (n.push (.payloadReceived (delivery other f plain)), s)

theorem deliverFrame_admitted {n : GroupNode} {s : S} {f : GbpFrame} {now : Instant}
    {st : StreamType} (h : n.admitted f = some st) :
    n.deliverFrame s f now = (n.record st f).dispatch s st f now := by
  obtain ⟨hv, hg, he, hs, hst, ht, hfresh⟩ := admitted_eq_some.mp h
  have hseq : ¬f.sequenceNo ≤ n.inHw.read (st, f.streamId) := by grind
  simp only [deliverFrame, hv, hg, he, hs, hst, hseq, ne_eq, not_true_eq_false, if_false]
  rw [if_neg ht]
  rfl

theorem deliverFrame_refused {n : GroupNode} {f : GbpFrame} (s : S) (now : Instant)
    (h : n.admitted f = none) :
    ∃ m, Reports n m ∧ n.deliverFrame s f now = (m, s) := by
  unfold deliverFrame
  split
  · exact ⟨_, reports_emitErrSpec .., rfl⟩
  · rename_i hv
    split
    · exact ⟨_, reports_emitErrSpec .., rfl⟩
    · rename_i hg
      split
      · exact ⟨_, (reports_emitErrSpec ..).trans (reports_triggerResync _), rfl⟩
      · rename_i he
        split
        · exact ⟨_, reports_emitErrSpec .., rfl⟩
        · rename_i hs
          split
          · exact ⟨_, reports_emitErrSpec .., rfl⟩
          · rename_i st hst
            split
            · exact ⟨_, reports_emitErrSpec .., rfl⟩
            · rename_i ht
              dsimp only
              split
              · exact ⟨_, reports_emitErrSpec .., rfl⟩
              · rename_i hseq
                have hadm : n.admitted f = some st := admitted_eq_some.mpr
                  ⟨not_not.mp hv, not_not.mp hg, not_not.mp he, hs, hst, ht, by grind⟩
                rw [h] at hadm
                cases hadm

/-- A decoded control message that passes the transition matrix is applied and surfaced. -/
theorem handleControl_ok {n : GroupNode} {plain : Bytes} {c : ControlMessage}
    {op : ControlOpcode} (now : Instant) (hc : ControlMessage.fromCbor plain = .ok c)
    (hop : ControlOpcode.tryFrom c.opcode = .ok op) (htid : n.tidOk op c.transitionId = true) :
    n.handleControl plain now = (n.applyControl op c now).push
      (.control c.senderId op c.transitionId c.requestId c.args) := by
  simp only [handleControl, hc, hop, htid, Bool.not_true, Bool.false_eq_true, if_false]

/-- A decoded control message that fails the transition matrix is reported. -/
theorem handleControl_mismatch {n : GroupNode} {plain : Bytes} {c : ControlMessage}
    {op : ControlOpcode} (now : Instant) (hc : ControlMessage.fromCbor plain = .ok c)
    (hop : ControlOpcode.tryFrom c.opcode = .ok op) (htid : n.tidOk op c.transitionId = false) :
    Reports n (n.handleControl plain now) := by
  simp only [handleControl, hc, hop, htid, Bool.not_false, if_true]
  exact reports_emitErrSpec ..

/-- An authenticated control message is refused with a report, or applied and surfaced. -/
theorem handleControl_cases (n : GroupNode) (plain : Bytes) (now : Instant) :
    Reports n (n.handleControl plain now) ∨
      ∃ c op, ControlMessage.fromCbor plain = .ok c ∧ ControlOpcode.tryFrom c.opcode = .ok op ∧
        n.tidOk op c.transitionId = true ∧
        n.handleControl plain now = (n.applyControl op c now).push
          (.control c.senderId op c.transitionId c.requestId c.args) := by
  unfold handleControl
  split
  · exact Or.inl (reports_emitErrSpec ..)
  · rename_i c hc
    split
    · exact Or.inl (reports_emitErrSpec ..)
    · rename_i op hop
      split
      · exact Or.inl (reports_emitErrSpec ..)
      · rename_i htid
        exact Or.inr ⟨c, op, hc, hop, by simpa using htid, rfl⟩

end Receive

end GroupNode

end GroupProtocol
