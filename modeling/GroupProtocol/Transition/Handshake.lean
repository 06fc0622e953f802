import GroupProtocol.Node.Calls

/-!
# The transition handshake of one node

A node's calls are far more varied than what they do to a transition. The handshake keeps
the six fields a transition moves, and every call is one of five moves on them: it sends a
control message, accepts one, applies a transition, checks the deadlines, or leaves the
handshake alone.
-/

namespace GroupProtocol

/-- The transition context of a node. -/
structure Handshake where
  last : TransitionId
  pending : TransitionId
  sender : Option MemberId
  state : TransitionState
  prepare : Option Instant
  execute : Option Instant

/-- What a call does to the handshake. -/
inductive Move
  | rest
  | send (opcode : ControlOpcode) (tid : TransitionId)
  | accept (opcode : ControlOpcode) (tid : TransitionId) (sender : MemberId)
  | apply (tid : TransitionId)
  | check

namespace Handshake

/-- An accepted PREPARE for the pending transition loses against a recorded committer that is
not higher. -/
def Loses (h : Handshake) (tid : TransitionId) (sender : MemberId) : Prop :=
  h.pending = tid ∧ h.sender.getD 0xFFFFFFFF ≤ sender

instance (h : Handshake) (tid : TransitionId) (sender : MemberId) :
    Decidable (h.Loses tid sender) :=
  inferInstanceAs (Decidable (_ ∧ _))

/-- The transitions an opcode may name. -/
def Permits (h : Handshake) : ControlOpcode → TransitionId → Prop
  | .prepareTransition, tid => h.last < tid ∧ (h.pending = 0 ∨ h.pending = tid)
  | .readyForTransition, tid => h.pending ≠ 0 ∧ tid = h.pending
  | .executeTransition, tid => h.pending ≠ 0 ∧ tid = h.pending
  | .abortTransition, tid => h.pending ≠ 0 ∧ tid = h.pending
  | _, _ => True

/-- The handshake after sending an opcode. -/
def sent (h : Handshake) (now : Instant) : ControlOpcode → TransitionId → Handshake
  | .prepareTransition, tid =>
    { h with
      pending := tid
      state := .tPrepared
      prepare := some (now + fromMillis Timeouts.tPrepareMaxMs)
      execute := none }
  | .readyForTransition, _ =>
    { h with execute := some (now + fromMillis Timeouts.tExecuteMaxMs) }
  | .executeTransition, _ => { h with prepare := none, execute := none }
  | .abortTransition, _ =>
    { h with prepare := none, execute := none, pending := 0, state := .tAborted }
  | _, _ => h

/-- The handshake after accepting an opcode. -/
def accepted (h : Handshake) (now : Instant) :
    ControlOpcode → TransitionId → MemberId → Handshake
  | .prepareTransition, tid, sender =>
    if h.Loses tid sender then h
    else
      { h with
        pending := tid
        sender := some sender
        state := .tPrepared
        execute := some (now + fromMillis Timeouts.tExecuteMaxMs) }
  | .readyForTransition, _, _ => { h with state := .tReady, prepare := none }
  | .executeTransition, tid, _ =>
    { h with last := tid, pending := 0, sender := none, state := .tExecuted, execute := none }
  | .abortTransition, _, _ =>
    { h with pending := 0, sender := none, state := .tAborted, prepare := none, execute := none }
  | _, _, _ => h

/-- The handshake after a check of the deadlines. -/
def checked (h : Handshake) (now : Instant) : Handshake :=
  if GroupNode.expired h.prepare now then
    { h with prepare := none, execute := none, pending := 0, state := .tAborted }
  else if GroupNode.expired h.execute now then { h with execute := none }
  else h

/-- The handshake after a move. -/
def moved (h : Handshake) (now : Instant) : Move → Handshake
  | .rest => h
  | .send op tid => h.sent now op tid
  | .accept op tid sender => h.accepted now op tid sender
  | .apply tid => { h with last := tid, pending := 0, sender := none, state := .tExecuted }
  | .check => h.checked now

end Handshake

namespace GroupNode

/-- The handshake of a node. -/
def handshake (n : GroupNode) : Handshake where
  last := n.lastTransitionId
  pending := n.pendingTransitionId
  sender := n.pendingCommitSender
  state := n.transitionState
  prepare := n.prepareDeadline
  execute := n.executeDeadline

theorem Reports.handshake {n m : GroupNode} (h : Reports n m) : m.handshake = n.handshake := by
  obtain ⟨state, evs, -, rfl⟩ := h
  rfl

theorem prepareLoses_iff {n : GroupNode} {c : ControlMessage} :
    n.prepareLoses c = true ↔ n.handshake.Loses c.transitionId c.senderId := by
  simp only [prepareLoses, Bool.and_eq_true, beq_iff_eq, decide_eq_true_eq, Handshake.Loses,
    handshake]

theorem tidOk_iff {n : GroupNode} {op : ControlOpcode} {tid : TransitionId} :
    n.tidOk op tid = true ↔ n.handshake.Permits op tid := by
  cases op <;> simp [tidOk, Handshake.Permits, handshake]

theorem mirrorControl_handshake (n : GroupNode) (op : ControlOpcode) (tid : TransitionId)
    (now : Instant) :
    (n.mirrorControl op tid now).handshake = n.handshake.sent now op tid := by
  cases op <;> rfl

theorem applyControl_handshake (n : GroupNode) (op : ControlOpcode) (c : ControlMessage)
    (now : Instant) :
    (n.applyControl op c now).handshake =
      n.handshake.accepted now op c.transitionId c.senderId := by
  cases op with
  | prepareTransition =>
      rw [applyControl, Handshake.accepted]
      by_cases h : n.prepareLoses c = true
      · rw [if_pos h, if_pos (prepareLoses_iff.mp h)]
      · rw [if_neg h, if_neg (mt prepareLoses_iff.mpr h)]
        rfl
  | groupStateDigestResponse =>
      rw [applyControl, Handshake.accepted]
      · split
        · exact (n.reports_transition .active).handshake
        · rfl
      all_goals
        intro h
        cases h
  | capabilitiesAdvertise =>
      rw [applyControl, Handshake.accepted]
      · split
        · dsimp only
          split <;> rfl
        · rfl
      all_goals
        intro h
        cases h
  | _ => rfl

theorem checkPrepare_handshake (n : GroupNode) (now : Instant) :
    (n.checkPrepare now).handshake =
      if expired n.prepareDeadline now then
        { n.handshake with prepare := none, execute := none, pending := 0, state := .tAborted }
      else n.handshake := by
  unfold checkPrepare
  split
  · rw [(reports_emitErrSpec ..).handshake]
    rfl
  · rfl

theorem checkExecute_handshake (n : GroupNode) (now : Instant) :
    (n.checkExecute now).handshake =
      if expired n.handshake.execute now then { n.handshake with execute := none }
      else n.handshake := by
  unfold checkExecute
  split
  · rename_i h
    rw [(reports_emitErrSpec ..).handshake, if_pos (show expired n.handshake.execute now = true from h)]
    rfl
  · rename_i h
    rw [if_neg (show ¬expired n.handshake.execute now = true from h)]

theorem checkTimeouts_handshake (n : GroupNode) (now : Instant) :
    (n.checkTimeouts now).2.handshake = n.handshake.checked now := by
  have hlast : (n.checkTimeouts now).2.handshake =
      ((n.checkPrepare now).checkExecute now).handshake := by
    obtain ⟨seen, coord, state, evs, -, h⟩ :=
      ((n.checkPrepare now).checkExecute now).checkCoordinator_node now
    rw [checkTimeouts, drainEvents, h]
    rfl
  rw [hlast, checkExecute_handshake, checkPrepare_handshake, Handshake.checked]
  -- The EXECUTE deadline is read after the PREPARE check, which disarms it on expiry.
  by_cases hp : expired n.prepareDeadline now = true
  · rw [if_pos hp, if_pos (show expired n.handshake.prepare now = true from hp)]
    rfl
  · rw [if_neg hp, if_neg (show ¬expired n.handshake.prepare now = true from hp)]

section Calls

variable [Ciborium] {S : Type} [Sealer S]

/-- The authenticated control message a call receives, if any. -/
def receivedControl (n : GroupNode) (x : TimedCall S) : Option (ControlOpcode × ControlMessage) :=
  match x.call with
  | .onWire s wire =>
    match GbpFrame.decode wire with
    | .ok f =>
      match n.admitted f, (Sealer.open s .control f.sequenceNo f.encryptedPayload).1 with
      | some .control, .ok plain =>
        match ControlMessage.fromCbor plain with
        | .ok c =>
          match ControlOpcode.tryFrom c.opcode with
          | .ok op => some (op, c)
          | .error _ => none
        | .error _ => none
      | _, _ => none
    | .error _ => none
  | _ => none

/-- Receiving a control message is admitting, opening and decoding its frame. -/
theorem receivedControl_eq_some {n : GroupNode} {x : TimedCall S} {op : ControlOpcode}
    {c : ControlMessage} :
    n.receivedControl x = some (op, c) ↔
      ∃ s wire f plain, x.call = .onWire s wire ∧ GbpFrame.decode wire = .ok f ∧
        n.admitted f = some .control ∧
        (Sealer.open s .control f.sequenceNo f.encryptedPayload).1 = .ok plain ∧
        ControlMessage.fromCbor plain = .ok c ∧ ControlOpcode.tryFrom c.opcode = .ok op := by
  constructor
  · intro h
    unfold receivedControl at h
    split at h
    · rename_i s wire hcall
      split at h
      · rename_i f hd
        split at h
        · rename_i plain hadm hopen
          split at h
          · rename_i c' hc
            split at h
            · rename_i op' hop
              cases h
              exact ⟨s, wire, f, plain, hcall, hd, hadm, hopen, hc, hop⟩
            · cases h
          · cases h
        · cases h
      · cases h
    · cases h
  · rintro ⟨s, wire, f, plain, hcall, hd, hadm, hopen, hc, hop⟩
    simp only [receivedControl, hcall, hd, hadm, hopen, hc, hop]

/-- Receiving a control message records its frame, then refuses or applies it. -/
theorem step_receivedControl {n : GroupNode} {x : TimedCall S} {op : ControlOpcode}
    {c : ControlMessage} (h : n.receivedControl x = some (op, c)) :
    ∃ f, if n.tidOk op c.transitionId = true then
        n.step x = { (n.record .control f).applyControl op c x.now with events := [] }
      else ∃ state, n.step x = { n.record .control f with state := state, events := [] } := by
  obtain ⟨s, wire, f, plain, hcall, hd, hadm, hopen, hc, hop⟩ := receivedControl_eq_some.mp h
  refine ⟨f, ?_⟩
  have hrecv := (onWire_control x.now hd hadm hopen).2
  have hstep : n.step x =
      { (n.record .control f).handleControl plain x.now with events := [] } := by
    rw [step, hcall]
    exact hrecv
  split
  · rename_i htid
    rw [hstep, handleControl_ok (n := n.record .control f) x.now hc hop htid]
    rfl
  · rename_i htid
    obtain ⟨state, evs, -, hr⟩ := handleControl_mismatch (n := n.record .control f) x.now
      hc hop (Bool.eq_false_iff.mpr htid)
    exact ⟨state, by rw [hstep, hr]⟩

/-- Wire bytes that carry no control message leave the handshake alone. -/
theorem onWire_handshake {n : GroupNode} {s : S} {wire : Bytes} {now : Instant}
    (h : n.receivedControl ⟨now, .onWire s wire⟩ = none) :
    (n.onWire s wire now).2.1.handshake = n.handshake := by
  rcases n.onWire_cases s wire now with ⟨m, hm, -, heq⟩ | ⟨f, st, hd, hadm, heq⟩
  · rw [heq]
    exact hm.handshake
  · rw [heq]
    rcases (n.record st f).dispatch_cases s st f now with hr | ⟨plain, -, -, hr⟩ |
      ⟨plain, c, op, hopen, rfl, hc, hop, -, -⟩
    · exact hr.handshake
    · rw [hr]
      rfl
    · have hsome : n.receivedControl ⟨now, .onWire s wire⟩ = some (op, c) :=
        receivedControl_eq_some.mpr ⟨s, wire, f, plain, rfl, hd, hadm, hopen, hc, hop⟩
      rw [h] at hsome
      cases hsome

/-- The move a call makes. -/
def move (n : GroupNode) (x : TimedCall S) : Move :=
  match x.call with
  | .sendControl _ _ op tid _ _ => .send op tid
  | .applyTransition tid => .apply tid
  | .checkTimeouts => .check
  | _ =>
    match n.receivedControl x with
    | some (op, c) =>
      if n.tidOk op c.transitionId then .accept op c.transitionId c.senderId else .rest
    | none => .rest

private theorem step_handshake_received {n : GroupNode} {x : TimedCall S}
    {op : ControlOpcode} {c : ControlMessage} (h : n.receivedControl x = some (op, c)) :
    (n.step x).handshake = n.handshake.moved x.now
      (if n.tidOk op c.transitionId then .accept op c.transitionId c.senderId else .rest) := by
  obtain ⟨f, hf⟩ := step_receivedControl h
  by_cases htid : n.tidOk op c.transitionId = true
  · rw [if_pos htid] at hf ⊢
    rw [hf]
    exact (n.record .control f).applyControl_handshake op c x.now
  · rw [if_neg htid] at hf ⊢
    obtain ⟨state, hf⟩ := hf
    rw [hf]
    rfl

/-- Every call makes its move. -/
theorem step_handshake (n : GroupNode) (x : TimedCall S) :
    (n.step x).handshake = n.handshake.moved x.now (n.move x) := by
  obtain ⟨now, call⟩ := x
  cases call with
  | onWire s wire =>
      rw [move]
      · cases hr : n.receivedControl ⟨now, .onWire s wire⟩ with
        | none => exact onWire_handshake hr
        | some r => exact step_handshake_received hr
  | sendPayload s target st sid flags pt codec =>
      obtain ⟨q, hq⟩ := n.sendPayload_node s target st sid flags pt codec
      have hstep : n.step ⟨now, .sendPayload s target st sid flags pt codec⟩ =
          { n with outSeq := q } := hq
      rw [hstep]
      rfl
  | sendControl s target op tid rid args =>
      obtain ⟨q, hq⟩ := n.sendControl_node s target op tid rid args now
      have hstep : n.step ⟨now, .sendControl s target op tid rid args⟩ =
          { n.mirrorControl op tid now with outSeq := q } := hq
      rw [hstep]
      exact n.mirrorControl_handshake op tid now
  | claimCoordinator s target =>
      obtain ⟨q, hq⟩ := n.claimCoordinator_node s target now
      have hstep : n.step ⟨now, .claimCoordinator s target⟩ = { n with
          isCoordinator := true, coordinatorLastSeen := some now,
          events := n.events ++ [.becameCoordinator], outSeq := q } := hq
      rw [hstep]
      rfl
  | applyTransition tid => rfl
  | triggerResync => exact n.reports_triggerResync.handshake
  | checkTimeouts => exact n.checkTimeouts_handshake now
  | restoreOutSeq bytes =>
      obtain ⟨q, hq⟩ := n.restoreOutSeq_node bytes
      have hstep : n.step (⟨now, .restoreOutSeq bytes⟩ : TimedCall S) =
          { n with outSeq := q } := hq
      rw [hstep]
      rfl
  | drainEvents => rfl

/-- Where each move comes from. -/
theorem move_cases (n : GroupNode) (x : TimedCall S) :
    n.move x = .rest ∨
    (∃ s target op tid rid args, x.call = .sendControl s target op tid rid args ∧
      n.move x = .send op tid) ∨
    (∃ op c, n.receivedControl x = some (op, c) ∧ n.tidOk op c.transitionId = true ∧
      n.move x = .accept op c.transitionId c.senderId) ∨
    (∃ tid, x.call = .applyTransition tid ∧ n.move x = .apply tid) ∨
    (x.call = .checkTimeouts ∧ n.move x = .check) := by
  unfold move
  split
  · rename_i s target op tid rid args hcall
    exact Or.inr (Or.inl ⟨s, target, op, tid, rid, args, hcall, rfl⟩)
  · rename_i tid hcall
    exact Or.inr (Or.inr (Or.inr (Or.inl ⟨tid, hcall, rfl⟩)))
  · rename_i hcall
    exact Or.inr (Or.inr (Or.inr (Or.inr ⟨hcall, rfl⟩)))
  · cases hr : n.receivedControl x with
    | none => exact Or.inl rfl
    | some r =>
        obtain ⟨op, c⟩ := r
        by_cases htid : n.tidOk op c.transitionId = true
        · exact Or.inr (Or.inr (Or.inl ⟨op, c, rfl, htid, if_pos htid⟩))
        · exact Or.inl (if_neg htid)

end Calls

end GroupNode

end GroupProtocol
