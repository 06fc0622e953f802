import GroupProtocol.Lib.Words
import GroupProtocol.Node.Calls

/-!
# The context of a receiver

Of a node, only part decides what a frame past the replay window surfaces: its identity,
its epoch and its transition context. Every operation moves this part by itself, whatever
the windows, the send counters, the node state and the queued events are. So two runs of
one receiver that differ in those alone surface the same data.
-/

namespace GroupProtocol

namespace GroupNode

/-- A node without its windows, counters, state and queued events: all that decides what a
frame past the window surfaces. -/
def context (n : GroupNode) : GroupNode :=
  { n with outSeq := ∅, inHw := ∅, state := .idle, events := [] }

theorem epoch_of_context {n m : GroupNode} (h : n.context = m.context) :
    n.currentEpoch = m.currentEpoch := by
  have hn : n.context.currentEpoch = n.currentEpoch := rfl
  have hm : m.context.currentEpoch = m.currentEpoch := rfl
  rw [← hn, ← hm, h]

theorem Reports.context {n m : GroupNode} (h : Reports n m) : m.context = n.context := by
  obtain ⟨state, evs, -, rfl⟩ := h
  rfl

/-- The node after an operation, up to what `context` forgets, depends on the node's
context alone. -/
def Contextual (op : GroupNode → GroupNode) : Prop :=
  ∀ n, (op n).context = (op n.context).context

theorem Contextual.congr {op : GroupNode → GroupNode} (h : Contextual op) {n m : GroupNode}
    (hnm : n.context = m.context) : (op n).context = (op m).context := by
  rw [h n, h m, hnm]

theorem Contextual.comp {f g : GroupNode → GroupNode} (hg : Contextual g) (hf : Contextual f) :
    Contextual fun n => g (f n) := by
  intro n
  rw [hg.congr (hf n)]

theorem contextual_checkPrepare (now : Instant) : Contextual (checkPrepare · now) := by
  intro n
  simp only [checkPrepare]
  rw [show n.context.prepareDeadline = n.prepareDeadline from rfl]
  split
  · rw [(reports_emitErrSpec ..).context, (reports_emitErrSpec ..).context]
    rfl
  · rfl

theorem contextual_checkExecute (now : Instant) : Contextual (checkExecute · now) := by
  intro n
  simp only [checkExecute]
  rw [show n.context.executeDeadline = n.executeDeadline from rfl]
  split
  · rw [(reports_emitErrSpec ..).context, (reports_emitErrSpec ..).context]
    rfl
  · rfl

theorem context_push (n : GroupNode) (e : Event) : (n.push e).context = n.context := rfl

theorem contextual_checkCoordinator (now : Instant) : Contextual (checkCoordinator · now) := by
  intro n
  simp only [checkCoordinator]
  rw [show n.context.coordinatorLastSeen = n.coordinatorLastSeen from rfl]
  split
  · split
    · rw [context_push, context_push, (reports_emitErrSpec ..).context,
        (reports_emitErrSpec ..).context]
      rfl
    · rfl
  · rfl

theorem contextual_applyControl (op : ControlOpcode) (c : ControlMessage) (now : Instant) :
    Contextual (applyControl · op c now) := by
  intro n
  cases op with
  | prepareTransition =>
      simp only [applyControl]
      rw [show n.context.prepareLoses c = n.prepareLoses c from rfl]
      split <;> rfl
  | groupStateDigestResponse =>
      have hkeeps (k : GroupNode) :
          (if k.state = .resyncing then k.transition .active else k).context = k.context := by
        split
        · exact (reports_transition k _).context
        · rfl
      simp only [applyControl]
      rw [hkeeps, hkeeps]
      rfl
  | capabilitiesAdvertise =>
      simp only [applyControl]
      by_cases hclaim : isCoordinatorClaim c.args = true
      · rw [if_pos hclaim, if_pos hclaim, context_push, context_push]
        have hyields : (n.context.noteCoordinatorActivity now).isCoordinator =
            (n.noteCoordinatorActivity now).isCoordinator ∧
            (n.context.noteCoordinatorActivity now).memberId =
              (n.noteCoordinatorActivity now).memberId := ⟨rfl, rfl⟩
        rw [hyields.1, hyields.2]
        split <;> rfl
      · rw [if_neg hclaim, if_neg hclaim]
        rfl
  | _ => rfl

/-! What a frame past the window surfaces. -/

/-- Received data: payloads and control messages. -/
def isData : Event → Bool
  | .payloadReceived .. => true
  | .control .. => true
  | _ => false

theorem isData_of_isReport {e : Event} (h : e.isReport = true) : isData e = false := by
  cases e <;> simp_all [Event.isReport, isData]

section Receive

variable [Ciborium] {S : Type} [Sealer S]

/-- The control message in an opened payload, if the transition matrix accepts it. -/
def message (n : GroupNode) (plain : Bytes) : List Event :=
  match ControlMessage.fromCbor plain with
  | .error _ => []
  | .ok c =>
    match ControlOpcode.tryFrom c.opcode with
    | .error _ => []
    | .ok op =>
      if n.tidOk op c.transitionId then
        [.control c.senderId op c.transitionId c.requestId c.args]
      else []

/-- The data of a frame past the window: the payload or the acceptable control message it
opens to. -/
def content (n : GroupNode) (s : S) (st : StreamType) (f : GbpFrame) : List Event :=
  match (Sealer.open s st f.sequenceNo f.encryptedPayload).1 with
  | .error _ => []
  | .ok plain =>
    match st with
    | .control => n.message plain
    | other => [.payloadReceived (delivery other f plain)]

theorem content_context (n : GroupNode) (s : S) (st : StreamType) (f : GbpFrame) :
    n.context.content s st f = n.content s st f := rfl

omit [Ciborium] in
theorem Reports.data {n m : GroupNode} (h : Reports n m) :
    ∃ evs, m.events = n.events ++ evs ∧ evs.filter isData = [] := by
  obtain ⟨state, evs, hevs, rfl⟩ := h
  refine ⟨evs, rfl, ?_⟩
  rw [List.filter_eq_nil_iff]
  intro e he
  simp [isData_of_isReport (hevs e he)]

omit [Ciborium] in
/-- Applying a control message surfaces no data by itself. -/
theorem applyControl_data (n : GroupNode) (op : ControlOpcode) (c : ControlMessage)
    (now : Instant) :
    ∃ evs, (n.applyControl op c now).events = n.events ++ evs ∧ evs.filter isData = [] := by
  by_cases hop : op = .executeTransition
  · subst hop
    rw [applyControl_execute]
    exact ⟨_, rfl, rfl⟩
  · obtain ⟨pending, sender, tstate, prep, exec, seen, coord, state, evs, -, hevs, heq⟩ :=
      n.applyControl_keeps c now hop
    refine ⟨evs, by rw [heq], ?_⟩
    rw [List.filter_eq_nil_iff]
    intro e he
    rcases hevs e he with h | rfl
    · simp [isData_of_isReport h]
    · simp [isData]

/-- A control message is refused with a report and has no content, or it is applied. -/
theorem handleControl_message (n : GroupNode) (plain : Bytes) (now : Instant) :
    (n.message plain = [] ∧ Reports n (n.handleControl plain now)) ∨
      ∃ op c, n.message plain = [.control c.senderId op c.transitionId c.requestId c.args] ∧
        n.handleControl plain now = (n.applyControl op c now).push
          (.control c.senderId op c.transitionId c.requestId c.args) := by
  cases hc : ControlMessage.fromCbor plain with
  | error e =>
      simp only [message, handleControl, hc]
      exact Or.inl ⟨trivial, reports_emitErrSpec ..⟩
  | ok c =>
      cases hop : ControlOpcode.tryFrom c.opcode with
      | error e =>
          simp only [message, handleControl, hc, hop]
          exact Or.inl ⟨trivial, reports_emitErrSpec ..⟩
      | ok op =>
          cases htid : n.tidOk op c.transitionId with
          | false =>
              refine Or.inl ⟨?_, handleControl_mismatch now hc hop htid⟩
              simp only [message, hc, hop, htid, Bool.false_eq_true, if_false]
          | true =>
              refine Or.inr ⟨op, c, ?_, handleControl_ok now hc hop htid⟩
              simp only [message, hc, hop, htid, if_true]

/-- A frame past the window has no content and is reported, or its content is what
dispatching it adds besides local events. -/
theorem dispatch_content (n : GroupNode) (s : S) (st : StreamType) (f : GbpFrame)
    (now : Instant) :
    (∃ evs, (n.dispatch s st f now).1.events = n.events ++ evs ∧
      evs.filter isData = n.content s st f) ∧
    (n.content s st f = [] → Reports n (n.dispatch s st f now).1) := by
  unfold dispatch content
  cases hopen : Sealer.open s st f.sequenceNo f.encryptedPayload with
  | mk r s' =>
    cases r with
    | error e =>
        have hr := reports_emitErrNamed n Codes.decryptFailed .crypto true false
          s!"aead open: {e.display}"
        exact ⟨hr.data, fun _ => hr⟩
    | ok plain =>
      cases st with
      | control =>
          dsimp only
          rcases n.handleControl_message plain now with ⟨hnone, hr⟩ | ⟨op, c, hone, heq⟩
          · rw [hnone]
            exact ⟨hr.data, fun _ => hr⟩
          · rw [hone, heq]
            obtain ⟨evs, hevs, hdata⟩ := n.applyControl_data op c now
            refine ⟨⟨evs ++ [.control c.senderId op c.transitionId c.requestId c.args], ?_, ?_⟩, ?_⟩
            · simp only [push, hevs, List.append_assoc]
            · rw [List.filter_append, hdata]
              rfl
            · intro h
              cases h
      | _ =>
          refine ⟨⟨_, rfl, rfl⟩, ?_⟩
          intro h
          cases h

theorem contextual_handleControl (plain : Bytes) (now : Instant) :
    Contextual (handleControl · plain now) := by
  intro n
  cases hc : ControlMessage.fromCbor plain with
  | error e =>
      simp only [handleControl, hc]
      rw [(reports_emitErrSpec ..).context, (reports_emitErrSpec ..).context]
      rfl
  | ok c =>
      cases hop : ControlOpcode.tryFrom c.opcode with
      | error e =>
          simp only [handleControl, hc, hop]
          rw [(reports_emitErrSpec ..).context, (reports_emitErrSpec ..).context]
          rfl
      | ok op =>
          have hsame : n.context.tidOk op c.transitionId = n.tidOk op c.transitionId := rfl
          cases htid : n.tidOk op c.transitionId with
          | false =>
              rw [(handleControl_mismatch now hc hop htid).context,
                (handleControl_mismatch now hc hop (hsame.trans htid)).context]
              rfl
          | true =>
              dsimp only
              rw [handleControl_ok now hc hop htid,
                handleControl_ok now hc hop (hsame.trans htid), context_push, context_push]
              exact contextual_applyControl op c now n

/-- Dispatching depends on the context only. -/
theorem contextual_dispatch (s : S) (st : StreamType) (f : GbpFrame) (now : Instant) :
    Contextual fun n => (n.dispatch s st f now).1 := by
  intro n
  unfold dispatch
  cases hopen : Sealer.open s st f.sequenceNo f.encryptedPayload with
  | mk r s' =>
    cases r with
    | error e =>
        dsimp only
        rw [(reports_emitErrNamed ..).context, (reports_emitErrNamed ..).context]
        rfl
    | ok plain =>
      cases st with
      | control =>
          exact contextual_handleControl plain now n
      | _ => rfl

/-! One call on two nodes of the same context. -/

/-- The call delivers wire bytes. -/
def receives (x : TimedCall S) : Bool :=
  match x.call with
  | .onWire .. => true
  | _ => false

private theorem context_sendPayload (n : GroupNode) (s : S) (target : MemberId)
    (st : StreamType) (sid : StreamId) (flags : UInt16) (pt : Bytes) (codec : PayloadCodec) :
    (n.sendPayload s target st sid flags pt codec).2.1.context = n.context := by
  obtain ⟨q, hq⟩ := n.sendPayload_node s target st sid flags pt codec
  rw [hq]
  rfl

private theorem contextual_sendControl (s : S) (target : MemberId) (op : ControlOpcode)
    (tid : TransitionId) (rid : UInt32) (args : Bytes) (now : Instant) :
    Contextual fun n => (n.sendControl s target op tid rid args now).2.1 := by
  intro n
  simp only [sendControl]
  rw [context_sendPayload, context_sendPayload]
  cases op <;> rfl

/-- Every call but a delivery depends on the context only. -/
theorem contextual_step {x : TimedCall S} (hx : receives x = false) :
    Contextual (step · x) := by
  obtain ⟨now, call⟩ := x
  cases call with
  | onWire s wire => cases hx
  | sendPayload s target st sid flags pt codec =>
      intro n
      simp only [step]
      rw [context_sendPayload, context_sendPayload]
      rfl
  | sendControl s target op tid rid args => exact contextual_sendControl s target op tid rid args now
  | claimCoordinator s target =>
      intro n
      obtain ⟨q, hq⟩ := n.claimCoordinator_node s target now
      obtain ⟨q', hq'⟩ := n.context.claimCoordinator_node s target now
      simp only [step]
      rw [hq, hq']
      rfl
  | applyTransition tid => exact fun n => rfl
  | triggerResync =>
      intro n
      simp only [step]
      rw [(reports_triggerResync _).context, (reports_triggerResync _).context]
      rfl
  | checkTimeouts =>
      exact ((contextual_checkCoordinator now).comp
        ((contextual_checkExecute now).comp (contextual_checkPrepare now)))
  | restoreOutSeq bytes =>
      intro n
      simp only [step, restoreOutSeq]
      split <;> rfl
  | drainEvents => exact fun n => rfl

end Receive

/-- The stream class of a frame that passes every check before the replay window. -/
def reaching (n : GroupNode) (f : GbpFrame) : Option StreamType :=
  if f.version ≠ 1 ∨ f.groupIdArray ≠ n.groupId ∨ f.epoch ≠ n.currentEpoch then none
  else
    match f.validatePayloadSize, f.streamTypeTyped with
    | .ok (), .ok st =>
      if st ≠ .control ∧ GbpFlags.has f.flags GbpFlags.critical = true ∧
          f.transitionId ≠ n.lastTransitionId then none
      else some st
    | _, _ => none

theorem admitted_eq_reaching (n : GroupNode) (f : GbpFrame) :
    n.admitted f = (n.reaching f).bind fun st =>
      if f.sequenceNo ≤ n.inHw.read (st, f.streamId) then none else some st := by
  unfold admitted reaching
  split
  · rfl
  · cases f.validatePayloadSize with
    | error e => rfl
    | ok u =>
        cases f.streamTypeTyped with
        | error e => rfl
        | ok st =>
            dsimp only
            split <;> rfl

/-- A frame is admitted when it reaches the window above its stream's mark. -/
theorem admitted_iff_reaching {n : GroupNode} {f : GbpFrame} {st : StreamType} :
    n.admitted f = some st ↔
      n.reaching f = some st ∧ n.inHw.read (st, f.streamId) < f.sequenceNo := by
  rw [admitted_eq_reaching, Option.bind_eq_some_iff]
  constructor
  · rintro ⟨st', hreach, h⟩
    split at h
    · cases h
    · rename_i hseq
      obtain rfl := Option.some.inj h
      exact ⟨hreach, UInt32.not_le.mp hseq⟩
  · rintro ⟨hreach, hseq⟩
    exact ⟨st, hreach, if_neg (UInt32.not_le.mpr hseq)⟩

theorem reaching_congr {n m : GroupNode} (h : n.context = m.context) (f : GbpFrame) :
    n.reaching f = m.reaching f := by
  have hn : n.context.reaching f = n.reaching f := rfl
  have hm : m.context.reaching f = m.reaching f := rfl
  rw [← hn, ← hm, h]

/-! One call, seen through the context. -/

section Calls

variable [Ciborium] {S : Type} [Sealer S]

/-- The data a call surfaces. -/
def surfaced (n : GroupNode) (x : TimedCall S) : List Event := (n.emitted x).filter isData

omit [Ciborium] in
private theorem isData_of_isLocal {e : Event} (h : e.isLocal = true) : isData e = false := by
  cases e <;> simp_all [Event.isLocal, isData]

omit [Sealer S] in
theorem refused_of_decode {n : GroupNode} {wire : Bytes} {f : GbpFrame}
    (hd : GbpFrame.decode wire = .ok f) (h : n.admitted f = none) :
    ∀ g, GbpFrame.decode wire = .ok g → n.admitted g = none := by
  intro g hg
  rw [hd] at hg
  rw [← Except.ok.inj hg]
  exact h

/-- A refused frame surfaces nothing and moves no window. -/
theorem step_refused {n : GroupNode} {s : S} {wire : Bytes} (now : Instant)
    (h : ∀ f, GbpFrame.decode wire = .ok f → n.admitted f = none) :
    n.surfaced ⟨now, .onWire s wire⟩ = [] ∧
      (n.step (⟨now, .onWire s wire⟩ : TimedCall S)).context = n.context ∧
      (n.step (⟨now, .onWire s wire⟩ : TimedCall S)).inHw = n.inHw := by
  rcases n.onWire_cases s wire now with ⟨m, hm, -, heq⟩ | ⟨f, st, hd, hadm, -⟩
  · have hstep : n.step (⟨now, .onWire s wire⟩ : TimedCall S) = { m with events := [] } := by
      simp only [step, heq]
    obtain ⟨evs, hevs, hdata⟩ := hm.data
    have hemit : n.emitted (⟨now, .onWire s wire⟩ : TimedCall S) = evs := by
      apply emitted_eq
      rw [hstep, List.append_nil, ← hevs]
      simp only [returned, heq]
    rw [surfaced, hemit, hdata, hstep]
    refine ⟨rfl, hm.context, ?_⟩
    obtain ⟨state, evs, -, rfl⟩ := hm
    rfl
  · rw [h f hd] at hadm
    cases hadm

/-- An admitted frame surfaces its content; without content nothing but its mark is left. -/
theorem step_admitted {n : GroupNode} {s : S} {wire : Bytes} {f : GbpFrame} {st : StreamType}
    (now : Instant) (hd : GbpFrame.decode wire = .ok f) (hadm : n.admitted f = some st) :
    n.surfaced ⟨now, .onWire s wire⟩ = n.content s st f ∧
      (n.step (⟨now, .onWire s wire⟩ : TimedCall S)).context =
        (n.dispatch s st f now).1.context ∧
      (n.content s st f = [] →
        (n.step (⟨now, .onWire s wire⟩ : TimedCall S)).context = n.context) := by
  have heq : n.onWire s wire now = (((n.record st f).dispatch s st f now).1.events,
      { ((n.record st f).dispatch s st f now).1 with events := [] },
      ((n.record st f).dispatch s st f now).2) := by
    simp only [onWire, hd, deliverFrame_admitted hadm, drainEvents]
  have hstep : n.step (⟨now, .onWire s wire⟩ : TimedCall S) =
      { ((n.record st f).dispatch s st f now).1 with events := [] } := by
    simp only [step, heq]
  obtain ⟨⟨evs, hevs, hdata⟩, hreports⟩ := (n.record st f).dispatch_content s st f now
  have hemit : n.emitted (⟨now, .onWire s wire⟩ : TimedCall S) = evs := by
    apply emitted_eq
    rw [hstep, List.append_nil]
    simp only [returned, heq]
    exact hevs
  have hcontext : (n.step (⟨now, .onWire s wire⟩ : TimedCall S)).context =
      ((n.record st f).dispatch s st f now).1.context := by
    rw [hstep]
    rfl
  refine ⟨?_, ?_, ?_⟩
  · rw [surfaced, hemit, hdata]
    rfl
  · rw [hcontext]
    exact (contextual_dispatch s st f now).congr rfl
  · intro hnone
    rw [hcontext, (hreports hnone).context]
    rfl

omit [Sealer S] in
/-- The window with the number a call admits. -/
def recorded (n : GroupNode) (x : TimedCall S) : Counters StreamKey SequenceNo :=
  (n.acceptance x).elim n.inHw fun a => n.inHw.insert a.key a.seq

/-- A call that keeps the epoch records what it admits, and a call that enters the next
epoch clears the window. -/
theorem step_window (n : GroupNode) (x : TimedCall S) :
    (n.step x).inHw =
      if (n.step x).currentEpoch = n.currentEpoch then n.recorded x else ∅ := by
  cases n.step_effect x with
  | quiet keeps window admits pending events =>
      rw [if_pos keeps.epoch, window, recorded, admits]
      rfl
  | applied tid call =>
      rw [(step_applied call).1]
      exact (if_neg (Words.succ_ne _)).symm
  | received s wire f st call decode admits keeps window pending evs data own surfaces events =>
      rw [if_pos keeps.epoch, window]
      simp only [recorded, acceptance, call, decode, admitted_eq_some.mpr admits,
        Option.map_some, Option.elim_some]
  | executed s wire f plain c call decode admits opens message opcode pending names next events =>
      rw [next]
      exact (if_neg (Words.succ_ne _)).symm

omit [Sealer S] in
theorem recorded_admitted {n : GroupNode} {s : S} {wire : Bytes} {f : GbpFrame}
    {st : StreamType} (now : Instant) (hd : GbpFrame.decode wire = .ok f)
    (hadm : n.admitted f = some st) :
    n.recorded (⟨now, .onWire s wire⟩ : TimedCall S) =
      n.inHw.insert (st, f.streamId) f.sequenceNo := by
  simp only [recorded, acceptance, hd, hadm, Option.map_some, Option.elim_some]

omit [Sealer S] in
theorem recorded_refused {n : GroupNode} {s : S} {wire : Bytes} (now : Instant)
    (h : ∀ f, GbpFrame.decode wire = .ok f → n.admitted f = none) :
    n.recorded (⟨now, .onWire s wire⟩ : TimedCall S) = n.inHw := by
  cases hd : GbpFrame.decode wire with
  | error e => simp only [recorded, acceptance, hd, Option.elim_none]
  | ok f => simp only [recorded, acceptance, hd, h f hd, Option.map_none, Option.elim_none]

omit [Sealer S] in
theorem recorded_quiet {n : GroupNode} {x : TimedCall S} (hx : receives x = false) :
    n.recorded x = n.inHw := by
  obtain ⟨now, call⟩ := x
  cases call with
  | onWire s wire => cases hx
  | _ => rfl

/-- Calls that deliver no frame surface no data. -/
theorem surfaced_quiet {n : GroupNode} {x : TimedCall S} (hx : receives x = false) :
    n.surfaced x = [] := by
  have hcall {s : S} {wire : Bytes} (h : x.call = .onWire s wire) : False := by
    rw [receives, h] at hx
    cases hx
  cases n.step_effect x with
  | quiet keeps window admits pending events =>
      rw [surfaced, List.filter_eq_nil_iff]
      intro e he
      simp [isData_of_isLocal (events e he)]
  | applied tid call =>
      rw [surfaced, (step_applied call).2]
      rfl
  | received s wire f st call => exact (hcall call).elim
  | executed s wire f plain c call => exact (hcall call).elim

end Calls

end GroupNode

end GroupProtocol
