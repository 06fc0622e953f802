import GroupProtocol.Lib.Machine
import GroupProtocol.Node.Inversion

/-!
# Calls on one node

A run of a node is a list of timed calls. Every call that talks to the cryptographic
provider brings its own provider state, so a run covers every behaviour of a provider,
including an adversarial one. The observations of a run are the events each call adds
and the frames its replay window admits.
-/

namespace GroupProtocol

/-- The public operations of a bootstrapped node. -/
inductive NodeCall (S : Type)
  | onWire (s : S) (wire : Bytes)
  | sendPayload (s : S) (target : MemberId) (streamType : StreamType) (streamId : StreamId)
      (flags : UInt16) (plaintext : Bytes) (codec : PayloadCodec)
  | sendControl (s : S) (target : MemberId) (opcode : ControlOpcode)
      (transitionId : TransitionId) (requestId : UInt32) (args : Bytes)
  | claimCoordinator (s : S) (target : MemberId)
  | applyTransition (tid : TransitionId)
  | triggerResync
  | checkTimeouts
  | restoreOutSeq (bytes : Bytes)
  | drainEvents

/-- A call and the clock reading it happens at. -/
structure TimedCall (S : Type) where
  now : Instant
  call : NodeCall S

/-- A frame admitted by the replay window in some epoch. -/
structure Acceptance where
  epoch : UInt64
  key : StreamKey
  seq : SequenceNo
  deriving DecidableEq, Repr

/-- Events of the node's own making: neither received data nor an epoch change. -/
def Event.isLocal : Event → Bool
  | .payloadReceived .. => false
  | .control .. => false
  | .epochAdvanced .. => false
  | _ => true

theorem Event.isLocal_of_isReport {e : Event} (h : e.isReport = true) : e.isLocal = true := by
  cases e <;> simp_all [isReport, isLocal]

/-- The one bootstrap call of a node. -/
inductive Bootstrap
  | creator (epoch : UInt64)
  | joiner (epoch : UInt64) (expectedFirstTid : TransitionId)

namespace GroupNode

/-- A fresh node after its bootstrap call. -/
def bootstrapped (memberId : MemberId) (groupId : GroupId) : Bootstrap → GroupNode
  | .creator epoch => (new memberId groupId).bootstrapAsCreator epoch
  | .joiner epoch tid => (new memberId groupId).bootstrapAsJoiner epoch tid

theorem bootstrapped_last (id : MemberId) (gid : GroupId) (b : Bootstrap) :
    (bootstrapped id gid b).lastTransitionId = 0 := by
  cases b with
  | creator epoch => rfl
  | joiner epoch tid => rw [bootstrapped, bootstrapAsJoiner_new, new]

variable [Ciborium] {S : Type} [Sealer S]

/-- The node after a call. -/
def step (n : GroupNode) (x : TimedCall S) : GroupNode :=
  match x.call with
  | .onWire s wire => (n.onWire s wire x.now).2.1
  | .sendPayload s target st sid flags pt codec =>
    (n.sendPayload s target st sid flags pt codec).2.1
  | .sendControl s target op tid rid args => (n.sendControl s target op tid rid args x.now).2.1
  | .claimCoordinator s target => (n.claimCoordinator s target x.now).2.1
  | .applyTransition tid => n.applyTransition tid
  | .triggerResync => n.triggerResync
  | .checkTimeouts => (n.checkTimeouts x.now).2
  | .restoreOutSeq bytes => n.restoreOutSeq bytes
  | .drainEvents => n.drainEvents.2

/-- The events a call hands to its caller. -/
def returned (n : GroupNode) (x : TimedCall S) : List Event :=
  match x.call with
  | .onWire s wire => (n.onWire s wire x.now).1
  | .checkTimeouts => (n.checkTimeouts x.now).1
  | .drainEvents => n.drainEvents.1
  | _ => []

/-- The events a call adds: everything handed out or queued afterwards that was not
already queued before. -/
def emitted (n : GroupNode) (x : TimedCall S) : List Event :=
  (n.returned x ++ (n.step x).events).drop n.events.length

/-- The frame a call admits past the replay window, if any. -/
def acceptance (n : GroupNode) (x : TimedCall S) : Option Acceptance :=
  match x.call with
  | .onWire _ wire =>
    match GbpFrame.decode wire with
    | .ok f => (n.admitted f).map fun st => ⟨n.currentEpoch, (st, f.streamId), f.sequenceNo⟩
    | .error _ => none
  | _ => none

/-- All frames admitted along a run, oldest first. -/
def acceptances (n : GroupNode) (xs : List (TimedCall S)) : List Acceptance :=
  Machine.observe step (fun n x => (n.acceptance x).toList) n xs

theorem emitted_eq {n : GroupNode} {x : TimedCall S} {evs : List Event}
    (h : n.returned x ++ (n.step x).events = n.events ++ evs) : n.emitted x = evs := by
  rw [emitted, h, List.drop_left]

/-! Receiving, in the shape later proofs use. -/

/-- Wire bytes are refused with reports, or carry an admitted frame that is dispatched. -/
theorem onWire_cases (n : GroupNode) (s : S) (wire : Bytes) (now : Instant) :
    (∃ m, Reports n m ∧ (∀ f, GbpFrame.decode wire = .ok f → n.admitted f = none) ∧
      n.onWire s wire now = (m.events, { m with events := [] }, s)) ∨
    ∃ f st, GbpFrame.decode wire = .ok f ∧ n.admitted f = some st ∧
      n.onWire s wire now =
        (((n.record st f).dispatch s st f now).1.events,
          { ((n.record st f).dispatch s st f now).1 with events := [] },
          ((n.record st f).dispatch s st f now).2) := by
  cases hd : GbpFrame.decode wire with
  | error e =>
      refine Or.inl ⟨_, reports_emitErrSpec n Codes.streamPolicyViolation
        s!"frame decode: {e.display}", by simp, ?_⟩
      simp only [onWire, hd, drainEvents]
  | ok f =>
      cases ha : n.admitted f with
      | none =>
          obtain ⟨m, hm, heq⟩ := deliverFrame_refused s now ha
          refine Or.inl ⟨m, hm, ?_, ?_⟩
          · rintro g hg
            rw [← Except.ok.inj hg]
            exact ha
          · simp only [onWire, hd, heq, drainEvents]
      | some st =>
          refine Or.inr ⟨f, st, rfl, ha, ?_⟩
          simp only [onWire, hd, deliverFrame_admitted ha, drainEvents]

/-- Receiving an admitted control frame that opens. -/
theorem onWire_control {n : GroupNode} {s : S} {wire plain : Bytes} {f : GbpFrame}
    (now : Instant) (hd : GbpFrame.decode wire = .ok f) (hadm : n.admitted f = some .control)
    (hopen : (Sealer.open s .control f.sequenceNo f.encryptedPayload).1 = .ok plain) :
    (n.onWire s wire now).1 = ((n.record .control f).handleControl plain now).events ∧
      (n.onWire s wire now).2.1 =
        { (n.record .control f).handleControl plain now with events := [] } := by
  have hpair : Sealer.open s .control f.sequenceNo f.encryptedPayload =
      (.ok plain, (Sealer.open s .control f.sequenceNo f.encryptedPayload).2) :=
    Prod.ext hopen rfl
  simp only [onWire, hd, deliverFrame_admitted hadm, dispatch, drainEvents]
  rw [hpair]
  exact ⟨rfl, rfl⟩

/-- Receiving an admitted application frame that opens. -/
theorem onWire_payload {n : GroupNode} {s : S} {wire plain : Bytes} {f : GbpFrame}
    {st : StreamType} (now : Instant) (hd : GbpFrame.decode wire = .ok f)
    (hadm : n.admitted f = some st) (hst : st ≠ .control)
    (hopen : (Sealer.open s st f.sequenceNo f.encryptedPayload).1 = .ok plain) :
    (n.onWire s wire now).1 = n.events ++ [.payloadReceived (delivery st f plain)] ∧
      (n.onWire s wire now).2.1 = { n.record st f with events := [] } := by
  have hpair : Sealer.open s st f.sequenceNo f.encryptedPayload =
      (.ok plain, (Sealer.open s st f.sequenceNo f.encryptedPayload).2) := Prod.ext hopen rfl
  simp only [onWire, hd, deliverFrame_admitted hadm, dispatch, drainEvents]
  rw [hpair]
  cases st with
  | control => exact absurd rfl hst
  | _ => exact ⟨rfl, rfl⟩

/-- A dispatched frame is refused with a report, delivered to a sub-protocol, or applied as
a control message. -/
theorem dispatch_cases (n : GroupNode) (s : S) (st : StreamType) (f : GbpFrame)
    (now : Instant) :
    Reports n (n.dispatch s st f now).1 ∨
    (∃ plain, (Sealer.open s st f.sequenceNo f.encryptedPayload).1 = .ok plain ∧
      st ≠ .control ∧
      (n.dispatch s st f now).1 = n.push (.payloadReceived (delivery st f plain))) ∨
    ∃ plain c op, (Sealer.open s st f.sequenceNo f.encryptedPayload).1 = .ok plain ∧
      st = .control ∧ ControlMessage.fromCbor plain = .ok c ∧
      ControlOpcode.tryFrom c.opcode = .ok op ∧ n.tidOk op c.transitionId = true ∧
      (n.dispatch s st f now).1 = (n.applyControl op c now).push
        (.control c.senderId op c.transitionId c.requestId c.args) := by
  unfold dispatch
  split
  · dsimp only
    exact Or.inl (reports_emitErrNamed ..)
  · rename_i plain s' hopen
    split
    · rcases n.handleControl_cases plain now with hr | ⟨c, op, hc, hop, htid, heq⟩
      · exact Or.inl hr
      · exact Or.inr (Or.inr ⟨plain, c, op, by rw [hopen], rfl, hc, hop, htid, heq⟩)
    · rename_i st' hst
      exact Or.inr (Or.inl ⟨plain, by rw [hopen], hst, rfl⟩)

omit [Ciborium] in
/-- An EXECUTE applies its transition and restarts the silence timer. -/
theorem applyControl_execute (n : GroupNode) (c : ControlMessage) (now : Instant) :
    n.applyControl .executeTransition c now =
      { n with
        currentEpoch := n.currentEpoch + 1
        lastTransitionId := c.transitionId
        pendingTransitionId := 0
        pendingCommitSender := none
        transitionState := .tExecuted
        outSeq := ∅
        inHw := ∅
        executeDeadline := none
        coordinatorLastSeen := some now
        events := n.events ++ [.epochAdvanced (n.currentEpoch + 1) c.transitionId] } := rfl

omit [Ciborium] in
/-- Every other opcode keeps the epoch, the applied transition, the windows and the
counters; it adds reports and coordinator claims, and a pending transition that it sets is
the one it names. -/
theorem applyControl_keeps (n : GroupNode) {op : ControlOpcode} (c : ControlMessage)
    (now : Instant) (hop : op ≠ .executeTransition) :
    ∃ pending sender tstate prep exec seen coord state evs,
      (pending = n.pendingTransitionId ∨ pending = 0 ∨
        op = .prepareTransition ∧ pending = c.transitionId) ∧
      (∀ e ∈ evs, Event.isReport e = true ∨ e = .coordinatorClaim c.senderId) ∧
      n.applyControl op c now = { n with
        pendingTransitionId := pending, pendingCommitSender := sender,
        transitionState := tstate, prepareDeadline := prep, executeDeadline := exec,
        coordinatorLastSeen := seen, isCoordinator := coord, state := state,
        events := n.events ++ evs } := by
  have hsame : ∃ pending sender tstate prep exec seen coord state evs,
      (pending = n.pendingTransitionId ∨ pending = 0 ∨
        op = .prepareTransition ∧ pending = c.transitionId) ∧
      (∀ e ∈ evs, Event.isReport e = true ∨ e = .coordinatorClaim c.senderId) ∧
      n = { n with
        pendingTransitionId := pending, pendingCommitSender := sender,
        transitionState := tstate, prepareDeadline := prep, executeDeadline := exec,
        coordinatorLastSeen := seen, isCoordinator := coord, state := state,
        events := n.events ++ evs } :=
    ⟨n.pendingTransitionId, n.pendingCommitSender, n.transitionState, n.prepareDeadline,
      n.executeDeadline, n.coordinatorLastSeen, n.isCoordinator, n.state, [], Or.inl rfl,
      by simp, by simp only [List.append_nil]⟩
  cases op with
  | prepareTransition =>
      rw [applyControl]
      split
      · exact hsame
      · exact ⟨c.transitionId, some c.senderId, .tPrepared, n.prepareDeadline,
          some (now + fromMillis Timeouts.tExecuteMaxMs), some now, n.isCoordinator, n.state, [],
          Or.inr (Or.inr ⟨rfl, rfl⟩), by simp,
          by simp only [noteCoordinatorActivity, List.append_nil]⟩
  | readyForTransition =>
      exact ⟨n.pendingTransitionId, n.pendingCommitSender, .tReady, none, n.executeDeadline,
        n.coordinatorLastSeen, n.isCoordinator, n.state, [], Or.inl rfl, by simp,
        by simp only [applyControl, List.append_nil]⟩
  | executeTransition => exact absurd rfl hop
  | abortTransition =>
      exact ⟨0, none, .tAborted, none, none, n.coordinatorLastSeen, n.isCoordinator, n.state, [],
        Or.inr (Or.inl rfl), by simp, by simp only [applyControl, List.append_nil]⟩
  | groupStateDigestResponse =>
      simp only [applyControl]
      split
      · obtain ⟨state, evs, hevs, heq⟩ := n.reports_transition .active
        exact ⟨n.pendingTransitionId, n.pendingCommitSender, n.transitionState,
          n.prepareDeadline, n.executeDeadline, n.coordinatorLastSeen, n.isCoordinator, state,
          evs, Or.inl rfl, fun e he => Or.inl (hevs e he), heq⟩
      · exact hsame
  | capabilitiesAdvertise =>
      have hclaim : ∀ e ∈ [Event.coordinatorClaim c.senderId],
          Event.isReport e = true ∨ e = .coordinatorClaim c.senderId := by
        intro e he
        exact Or.inr (List.mem_singleton.mp he)
      rw [applyControl]
      split
      · dsimp only
        split
        · exact ⟨n.pendingTransitionId, n.pendingCommitSender, n.transitionState,
            n.prepareDeadline, n.executeDeadline, some now, false, n.state,
            [.coordinatorClaim c.senderId], Or.inl rfl, hclaim, rfl⟩
        · exact ⟨n.pendingTransitionId, n.pendingCommitSender, n.transitionState,
            n.prepareDeadline, n.executeDeadline, some now, n.isCoordinator, n.state,
            [.coordinatorClaim c.senderId], Or.inl rfl, hclaim, rfl⟩
      · exact hsame
  | groupStateDigestRequest => exact hsame
  | reportInvalidCommit => exact hsame
  | ack => exact hsame
  | nack => exact hsame

/-! One call, as far as epochs, transitions and the replay window are concerned. -/

/-- Identity, epoch and applied transition are the same. -/
structure Keeps (n m : GroupNode) : Prop where
  memberId : m.memberId = n.memberId
  groupId : m.groupId = n.groupId
  epoch : m.currentEpoch = n.currentEpoch
  last : m.lastTransitionId = n.lastTransitionId

/-- What an admitted frame surfaces besides local events: nothing, its payload, or its
control message. -/
inductive Surfaces (s : S) (st : StreamType) (f : GbpFrame) : List Event → Prop
  | nothing : Surfaces s st f []
  | payload (plain : Bytes)
      (opens : (Sealer.open s st f.sequenceNo f.encryptedPayload).1 = .ok plain)
      (app : st ≠ .control) : Surfaces s st f [.payloadReceived (delivery st f plain)]
  | message (plain : Bytes) (c : ControlMessage) (op : ControlOpcode)
      (opens : (Sealer.open s st f.sequenceNo f.encryptedPayload).1 = .ok plain)
      (ctl : st = .control) (decodes : ControlMessage.fromCbor plain = .ok c)
      (opcode : ControlOpcode.tryFrom c.opcode = .ok op) :
      Surfaces s st f [.control c.senderId op c.transitionId c.requestId c.args]

/-- The effects a call can have. -/
inductive Effect (n : GroupNode) (x : TimedCall S) : Prop
  /-- Nothing is admitted; a pending transition is kept, dropped or set by an own PREPARE. -/
  | quiet (keeps : Keeps n (n.step x)) (window : (n.step x).inHw = n.inHw)
      (admits : n.acceptance x = none)
      (pending : (n.step x).pendingTransitionId = n.pendingTransitionId ∨
        (n.step x).pendingTransitionId = 0 ∨
        ∃ s target tid rid args, x.call = .sendControl s target .prepareTransition tid rid args)
      (events : ∀ e ∈ n.emitted x, e.isLocal = true)
  /-- The application applies a transition. -/
  | applied (tid : TransitionId) (call : x.call = .applyTransition tid)
  /-- A frame is admitted and recorded without an epoch change. -/
  | received (s : S) (wire : Bytes) (f : GbpFrame) (st : StreamType)
      (call : x.call = .onWire s wire) (decode : GbpFrame.decode wire = .ok f)
      (admits : Admits n f st) (keeps : Keeps n (n.step x))
      (window : (n.step x).inHw = n.inHw.insert (st, f.streamId) f.sequenceNo)
      (pending : (n.step x).pendingTransitionId = n.pendingTransitionId ∨
        (n.step x).pendingTransitionId = 0 ∨
        n.lastTransitionId < (n.step x).pendingTransitionId)
      (evs data : List Event) (own : ∀ e ∈ evs, e.isLocal = true) (surfaces : Surfaces s st f data)
      (events : n.emitted x = evs ++ data)
  /-- An EXECUTE is admitted and moves the node to the next epoch. -/
  | executed (s : S) (wire : Bytes) (f : GbpFrame) (plain : Bytes) (c : ControlMessage)
      (call : x.call = .onWire s wire) (decode : GbpFrame.decode wire = .ok f)
      (admits : Admits n f .control)
      (opens : (Sealer.open s .control f.sequenceNo f.encryptedPayload).1 = .ok plain)
      (message : ControlMessage.fromCbor plain = .ok c)
      (opcode : ControlOpcode.tryFrom c.opcode = .ok .executeTransition)
      (pending : n.pendingTransitionId ≠ 0) (names : c.transitionId = n.pendingTransitionId)
      (next : n.step x = { n with
        currentEpoch := n.currentEpoch + 1
        lastTransitionId := n.pendingTransitionId
        pendingTransitionId := 0
        pendingCommitSender := none
        transitionState := .tExecuted
        outSeq := ∅
        inHw := ∅
        executeDeadline := none
        coordinatorLastSeen := some x.now
        events := [] })
      (events : n.emitted x = [.epochAdvanced (n.currentEpoch + 1) n.pendingTransitionId,
        .control c.senderId .executeTransition c.transitionId c.requestId c.args])

/-- An applied transition is all its call does. -/
theorem step_applied {n : GroupNode} {x : TimedCall S} {tid : TransitionId}
    (h : x.call = .applyTransition tid) :
    n.step x = n.applyTransition tid ∧
      n.emitted x = [.epochAdvanced (n.currentEpoch + 1) tid] := by
  have hstep : n.step x = n.applyTransition tid := by rw [step, h]
  refine ⟨hstep, emitted_eq ?_⟩
  rw [returned, h, hstep]
  rfl

private theorem effect_quiet {n : GroupNode} {x : TimedCall S} (evs : List Event)
    (hk : Keeps n (n.step x)) (hw : (n.step x).inHw = n.inHw) (ha : n.acceptance x = none)
    (hp : (n.step x).pendingTransitionId = n.pendingTransitionId ∨
      (n.step x).pendingTransitionId = 0 ∨
      ∃ s target tid rid args, x.call = .sendControl s target .prepareTransition tid rid args)
    (he : n.returned x ++ (n.step x).events = n.events ++ evs)
    (hl : ∀ e ∈ evs, e.isLocal = true) : Effect n x :=
  .quiet hk hw ha hp (by rw [emitted_eq he]; exact hl)

omit [Ciborium] in
/-- A pending transition set by a received message is newer than the applied one. -/
private theorem pending_of_tidOk {n : GroupNode} {op : ControlOpcode} {tid pending : TransitionId}
    (htid : n.tidOk op tid = true)
    (h : pending = n.pendingTransitionId ∨ pending = 0 ∨
      op = .prepareTransition ∧ pending = tid) :
    pending = n.pendingTransitionId ∨ pending = 0 ∨ n.lastTransitionId < pending := by
  rcases h with h | h | ⟨rfl, rfl⟩
  · exact Or.inl h
  · exact Or.inr (Or.inl h)
  · simp only [tidOk, Bool.and_eq_true, decide_eq_true_eq] at htid
    exact Or.inr (Or.inr htid.1)

private theorem onWire_effect (n : GroupNode) (s : S) (wire : Bytes) (now : Instant) :
    Effect n ⟨now, .onWire s wire⟩ := by
  rcases n.onWire_cases s wire now with ⟨m, ⟨state, evs, hevs, rfl⟩, hnone, heq⟩ |
    ⟨f, st, hd, hadm, heq⟩
  · have hstep : n.step ⟨now, .onWire s wire⟩ = { n with state := state, events := [] } := by
      simp only [step, heq]
    refine effect_quiet evs (by rw [hstep]; exact ⟨rfl, rfl, rfl, rfl⟩)
      (by rw [hstep]) ?_ (Or.inl (by rw [hstep])) ?_
      fun e he => Event.isLocal_of_isReport (hevs e he)
    · simp only [acceptance]
      split
      · rename_i f hf
        rw [hnone f hf, Option.map_none]
      · rfl
    · simp only [hstep, returned, heq, List.append_nil]
  · have hA := admitted_eq_some.mp hadm
    have hstep : n.step ⟨now, .onWire s wire⟩ =
        { ((n.record st f).dispatch s st f now).1 with events := [] } := by
      simp only [step, heq]
    have hret : n.returned ⟨now, .onWire s wire⟩ =
        ((n.record st f).dispatch s st f now).1.events := by
      simp only [returned, heq]
    rcases (n.record st f).dispatch_cases s st f now with ⟨state, evs, hevs, hr⟩ |
      ⟨plain, hopen, hst, hr⟩ | ⟨plain, c, op, hopen, rfl, hc, hop, htid, hr⟩
    · rw [hr] at hstep hret
      refine .received s wire f st rfl hd hA (by rw [hstep]; exact ⟨rfl, rfl, rfl, rfl⟩)
        (by rw [hstep]; rfl) (Or.inl (by rw [hstep]; rfl)) evs []
        (fun e he => Event.isLocal_of_isReport (hevs e he)) .nothing ?_
      exact emitted_eq (by rw [hret, hstep, List.append_nil, List.append_nil]; rfl)
    · rw [hr] at hstep hret
      refine .received s wire f st rfl hd hA (by rw [hstep]; exact ⟨rfl, rfl, rfl, rfl⟩)
        (by rw [hstep]; rfl) (Or.inl (by rw [hstep]; rfl)) [] _ (by simp)
        (.payload plain hopen hst) ?_
      exact emitted_eq (by rw [hret, hstep, List.append_nil]; rfl)
    · by_cases hex : op = .executeTransition
      · subst hex
        rw [hr, applyControl_execute] at hstep hret
        simp only [tidOk, Bool.and_eq_true, bne_iff_ne, ne_eq, beq_iff_eq] at htid
        have hnames : c.transitionId = n.pendingTransitionId := htid.2
        refine .executed s wire f plain c rfl hd hA hopen hc hop htid.1 hnames ?_ ?_
        · rw [hstep, ← hnames]
          rfl
        · apply emitted_eq
          rw [hret, hstep, ← hnames, List.append_nil]
          simp only [push, record, List.append_assoc, List.cons_append, List.nil_append]
      · obtain ⟨pending, sender, tstate, prep, exec, seen, coord, state, evs, hpend, hevs, hk⟩ :=
          (n.record .control f).applyControl_keeps c now hex
        rw [hr, hk] at hstep hret
        refine .received s wire f .control rfl hd hA (by rw [hstep]; exact ⟨rfl, rfl, rfl, rfl⟩)
          (by rw [hstep]; rfl) ?_ evs _ ?_ (.message plain c op hopen rfl hc hop) ?_
        · rw [hstep]
          exact pending_of_tidOk htid hpend
        · intro e he
          rcases hevs e he with h | rfl
          · exact Event.isLocal_of_isReport h
          · rfl
        · apply emitted_eq
          rw [hret, hstep, List.append_nil]
          simp only [push, record, List.append_assoc]

omit [Ciborium] in
/-- Sending an opcode keeps everything but the sender's own transition context. -/
theorem mirrorControl_node (n : GroupNode) (op : ControlOpcode) (tid : TransitionId)
    (now : Instant) :
    ∃ pending tstate prep exec,
      (pending = n.pendingTransitionId ∨ pending = 0 ∨
        op = .prepareTransition ∧ pending = tid) ∧
      n.mirrorControl op tid now = { n with
        pendingTransitionId := pending, transitionState := tstate, prepareDeadline := prep,
        executeDeadline := exec } := by
  cases op with
  | prepareTransition => exact ⟨_, _, _, _, Or.inr (Or.inr ⟨rfl, rfl⟩), rfl⟩
  | abortTransition => exact ⟨_, _, _, _, Or.inr (Or.inl rfl), rfl⟩
  | _ => exact ⟨_, _, _, _, Or.inl rfl, rfl⟩

/-- A control send keeps identity, epoch and applied transition. -/
theorem sendControl_keeps (n : GroupNode) (s : S) (target : MemberId) (op : ControlOpcode)
    (tid : TransitionId) (rid : UInt32) (args : Bytes) (now : Instant) :
    Keeps n (n.sendControl s target op tid rid args now).2.1 := by
  obtain ⟨q, hq⟩ := n.sendControl_node s target op tid rid args now
  obtain ⟨pending, tstate, prep, exec, -, hm⟩ := n.mirrorControl_node op tid now
  rw [hq, hm]
  exact ⟨rfl, rfl, rfl, rfl⟩

private theorem sendControl_effect (n : GroupNode) (s : S) (target : MemberId)
    (op : ControlOpcode) (tid : TransitionId) (rid : UInt32) (args : Bytes) (now : Instant) :
    Effect n ⟨now, .sendControl s target op tid rid args⟩ := by
  obtain ⟨q, hq⟩ := n.sendControl_node s target op tid rid args now
  obtain ⟨pending, tstate, prep, exec, hpend, hm⟩ := n.mirrorControl_node op tid now
  rw [hm] at hq
  have hstep : n.step ⟨now, .sendControl s target op tid rid args⟩ = { n with
      pendingTransitionId := pending, transitionState := tstate, prepareDeadline := prep,
      executeDeadline := exec, outSeq := q } := hq
  refine effect_quiet [] (by rw [hstep]; exact ⟨rfl, rfl, rfl, rfl⟩) (by rw [hstep])
    rfl ?_ (by rw [hstep]; simp only [returned, List.nil_append, List.append_nil]) (by simp)
  rw [hstep]
  rcases hpend with h | h | ⟨rfl, -⟩
  · exact Or.inl h
  · exact Or.inr (Or.inl h)
  · exact Or.inr (Or.inr ⟨s, target, tid, rid, args, rfl⟩)

/-- A call that hands nothing out and admits nothing, and moves only what no frame depends on:
the send counters, the state, the role and its clock, and local events. -/
private theorem effect_beside {n : GroupNode} {x : TimedCall S}
    {q : Counters StreamKey SequenceNo} {state : NodeState} {coord : Bool}
    {seen : Option Instant} (evs : List Event)
    (hstep : n.step x = { n with
      outSeq := q, state := state, isCoordinator := coord, coordinatorLastSeen := seen,
      events := n.events ++ evs })
    (hreturned : n.returned x = []) (hadmits : n.acceptance x = none)
    (hlocal : ∀ e ∈ evs, e.isLocal = true) : Effect n x :=
  effect_quiet evs (by rw [hstep]; exact ⟨rfl, rfl, rfl, rfl⟩) (by rw [hstep]) hadmits
    (Or.inl (by rw [hstep])) (by rw [hstep, hreturned, List.nil_append]) hlocal

/-- Every call has one of the listed effects. -/
theorem step_effect (n : GroupNode) (x : TimedCall S) : Effect n x := by
  obtain ⟨now, call⟩ := x
  cases call with
  | onWire s wire => exact n.onWire_effect s wire now
  | sendPayload s target st sid flags pt codec =>
      obtain ⟨q, hq⟩ := n.sendPayload_node s target st sid flags pt codec
      exact effect_beside (q := q) [] (by rw [List.append_nil]; exact hq) rfl rfl (by simp)
  | sendControl s target op tid rid args =>
      exact n.sendControl_effect s target op tid rid args now
  | claimCoordinator s target =>
      obtain ⟨q, hq⟩ := n.claimCoordinator_node s target now
      refine effect_beside (q := q) [.becameCoordinator] hq rfl rfl ?_
      intro e he
      rw [List.mem_singleton.mp he]
      rfl
  | applyTransition tid => exact .applied tid rfl
  | triggerResync =>
      obtain ⟨state, evs, hevs, hr⟩ := n.reports_triggerResync
      exact effect_beside evs hr rfl rfl fun e he => Event.isLocal_of_isReport (hevs e he)
  | checkTimeouts =>
      obtain ⟨pending, tstate, prep, exec, seen, coord, state, evs, hpend, hevs, heq⟩ :=
        n.checkTimeouts_node now
      have hstep : n.step (⟨now, .checkTimeouts⟩ : TimedCall S) = { n with
          pendingTransitionId := pending, transitionState := tstate, prepareDeadline := prep,
          executeDeadline := exec, coordinatorLastSeen := seen, isCoordinator := coord,
          state := state, events := [] } := by
        simp only [step, heq]
      refine effect_quiet evs (by rw [hstep]; exact ⟨rfl, rfl, rfl, rfl⟩)
        (by rw [hstep]) rfl ?_ (by simp only [hstep, returned, heq, List.append_nil]) ?_
      · rw [hstep]
        rcases hpend with h | h
        · exact Or.inl h
        · exact Or.inr (Or.inl h)
      · intro e he
        rcases hevs e he with h | rfl
        · exact Event.isLocal_of_isReport h
        · rfl
  | restoreOutSeq bytes =>
      obtain ⟨q, hq⟩ := n.restoreOutSeq_node bytes
      exact effect_beside (q := q) [] (by rw [List.append_nil]; exact hq) rfl rfl (by simp)
  | drainEvents =>
      exact effect_quiet [] ⟨rfl, rfl, rfl, rfl⟩ rfl rfl (Or.inl rfl) rfl (by simp)

end GroupNode

end GroupProtocol
