import GroupProtocol.Base.Serde
import GroupProtocol.Node.Calls

/-!
# Rejected frames

A received frame runs through twelve checks in two functions. Each check is stated here on its
own, over the wire bytes, the provider and the node; the first one that fails, in the documented
order, decides the error code. A rejection reports once and touches the node state and the
replay window only.
-/

namespace GroupProtocol

/-- An error report. -/
def Event.isError : Event → Bool
  | .error .. => true
  | _ => false

/-- The checks of an inbound frame. -/
inductive FrameCheck
  | decode
  | version
  | groupId
  | epoch
  | payloadSize
  | streamType
  | criticalTransition
  | replay
  | aeadOpen
  | controlDecode
  | opcode
  | controlTransition
  deriving DecidableEq, Repr

namespace FrameCheck

/-- The documented order. -/
def order : List FrameCheck :=
  [decode, version, groupId, epoch, payloadSize, streamType, criticalTransition, replay, aeadOpen,
    controlDecode, opcode, controlTransition]

/-- The error code of a failing check. -/
def code : FrameCheck → UInt16
  | decode => Codes.streamPolicyViolation
  | version => Codes.unsupportedVersion
  | groupId => Codes.unknownGroup
  | epoch => Codes.epochMismatch
  | payloadSize => Codes.streamPolicyViolation
  | streamType => Codes.streamPolicyViolation
  | criticalTransition => Codes.transitionMismatch
  | replay => Codes.replayDetected
  | aeadOpen => Codes.decryptFailed
  | controlDecode => Codes.streamPolicyViolation
  | opcode => Codes.streamPolicyViolation
  | controlTransition => Codes.transitionMismatch

end FrameCheck

section Checks

variable [Ciborium] {S : Type} [Sealer S]

/-- The frame on the wire. -/
def wireFrame (wire : Bytes) : Option GbpFrame := (GbpFrame.decode wire).toOption

/-- The frame on the wire with its stream class. -/
def wireStream (wire : Bytes) : Option (GbpFrame × StreamType) :=
  (wireFrame wire).bind fun f => f.streamTypeTyped.toOption.map (f, ·)

/-- What a control frame on the wire opens to. -/
def wireControl (s : S) (wire : Bytes) : Option Bytes :=
  (wireStream wire).bind fun (f, st) =>
    if st = .control then (Sealer.open s st f.sequenceNo f.encryptedPayload).1.toOption else none

/-- The control message on the wire. -/
def wireMessage (s : S) (wire : Bytes) : Option ControlMessage :=
  (wireControl s wire).bind fun plain => (ControlMessage.fromCbor plain).toOption

/-- A check fails; a check on something that is not there does not. -/
def FrameCheck.fails (n : GroupNode) (s : S) (wire : Bytes) : FrameCheck → Bool
  | .decode => !(GbpFrame.decode wire).isOk
  | .version => (wireFrame wire).any fun f => f.version ≠ 1
  | .groupId => (wireFrame wire).any fun f => f.groupIdArray ≠ n.groupId
  | .epoch => (wireFrame wire).any fun f => f.epoch ≠ n.currentEpoch
  | .payloadSize => (wireFrame wire).any fun f => !f.validatePayloadSize.isOk
  | .streamType => (wireFrame wire).any fun f => !f.streamTypeTyped.isOk
  | .criticalTransition => (wireStream wire).any fun (f, st) =>
      st ≠ .control ∧ GbpFlags.has f.flags GbpFlags.critical = true ∧
        f.transitionId ≠ n.lastTransitionId
  | .replay => (wireStream wire).any fun (f, st) => f.sequenceNo ≤ n.inHw.read (st, f.streamId)
  | .aeadOpen => (wireStream wire).any fun (f, st) =>
      !(Sealer.open s st f.sequenceNo f.encryptedPayload).1.isOk
  | .controlDecode => (wireControl s wire).any fun plain => !(ControlMessage.fromCbor plain).isOk
  | .opcode => (wireMessage s wire).any fun c => !(ControlOpcode.tryFrom c.opcode).isOk
  | .controlTransition => (wireMessage s wire).any fun c =>
      (ControlOpcode.tryFrom c.opcode).toOption.any fun op => !n.tidOk op c.transitionId

/-- The first check that fails. -/
def firstFailing (n : GroupNode) (s : S) (wire : Bytes) : Option FrameCheck :=
  FrameCheck.order.find? fun check => check.fails n s wire

end Checks

namespace GroupNode

/-- The second node differs from the first in its state and in reports queued behind the existing
events, of which exactly one is an error, with the given code. -/
def Rejected (n m : GroupNode) (code : UInt16) : Prop :=
  ∃ state evs cls retryable fatal reason,
    m = { n with state := state, events := n.events ++ evs } ∧
      (∀ e ∈ evs, Event.isReport e = true) ∧
      evs.filter Event.isError = [.error code cls retryable fatal reason]

theorem rejected_emitErrNamed (n : GroupNode) (code : UInt16) (cls : ErrorClass)
    (retryable fatal : Bool) (reason : String) :
    Rejected n (n.emitErrNamed code cls retryable fatal reason) code := by
  unfold emitErrNamed
  split
  rename_i c r f _
  dsimp only
  by_cases hfatal : f = true
  · rw [if_pos hfatal]
    refine ⟨.failed, [.error code c r f reason, .stateChanged n.state .failed], c, r, f, reason,
      ?_, ?_, rfl⟩
    · simp only [push, List.append_assoc, List.singleton_append]
    · intro e he
      rcases List.mem_cons.mp he with rfl | he
      · rfl
      · rw [List.mem_singleton.mp he]
        rfl
  · rw [if_neg hfatal]
    refine ⟨n.state, [.error code c r f reason], c, r, f, reason, rfl, ?_, rfl⟩
    intro e he
    rw [List.mem_singleton.mp he]
    rfl

theorem rejected_emitErrSpec (n : GroupNode) (code : UInt16) (reason : String) :
    Rejected n (n.emitErrSpec code reason) code := by
  unfold emitErrSpec
  cases hspec : ErrorSpec.lookup code with
  | none => exact rejected_emitErrNamed ..
  | some spec =>
      have hcode := ErrorSpec.lookup_code hspec
      dsimp only
      rw [hcode]
      exact rejected_emitErrNamed ..

/-- Moving the state machine adds at most a state change. -/
theorem transition_eq (n : GroupNode) (next : NodeState) :
    ∃ state evs, n.transition next = { n with state := state, events := n.events ++ evs } ∧
      (∀ e ∈ evs, Event.isReport e = true) ∧ evs.filter Event.isError = [] := by
  unfold transition
  split
  · exact ⟨n.state, [], by rw [List.append_nil], by simp, rfl⟩
  · split
    · exact ⟨.failed, [.stateChanged n.state .failed], rfl, by simp [Event.isReport], rfl⟩
    · exact ⟨next, [.stateChanged n.state next], rfl, by simp [Event.isReport], rfl⟩

theorem Rejected.triggerResync {n m : GroupNode} {code : UInt16} (h : Rejected n m code) :
    Rejected n m.triggerResync code := by
  rw [GroupNode.triggerResync]
  split
  · obtain ⟨state, evs, hmove, hreport, herror⟩ := m.transition_eq .resyncing
    obtain ⟨state', evs', cls, retryable, fatal, reason, rfl, hreport', herror'⟩ := h
    refine ⟨state, evs' ++ evs, cls, retryable, fatal, reason, ?_, ?_, ?_⟩
    · rw [hmove, List.append_assoc]
    · intro e he
      rcases List.mem_append.mp he with he | he
      · exact hreport' e he
      · exact hreport e he
    · rw [List.filter_append, herror', herror, List.append_nil]
  · exact h

section Classify

variable [Ciborium] {S : Type} [Sealer S]

omit [Ciborium] in
/-- An accepted control message adds no error. -/
theorem applyControl_events (n : GroupNode) (op : ControlOpcode) (c : ControlMessage)
    (now : Instant) :
    ∃ evs, (n.applyControl op c now).events = n.events ++ evs ∧ evs.filter Event.isError = [] := by
  have hsame : ∃ evs, n.events = n.events ++ evs ∧ evs.filter Event.isError = [] :=
    ⟨[], (List.append_nil _).symm, rfl⟩
  cases op with
  | prepareTransition =>
      simp only [applyControl]
      split
      · exact hsame
      · exact hsame
  | executeTransition => exact ⟨[.epochAdvanced (n.currentEpoch + 1) c.transitionId], rfl, rfl⟩
  | groupStateDigestResponse =>
      simp only [applyControl]
      split
      · obtain ⟨state, evs, hmove, -, herror⟩ := n.transition_eq .active
        exact ⟨evs, by rw [hmove], herror⟩
      · exact hsame
  | capabilitiesAdvertise =>
      simp only [applyControl]
      split
      · refine ⟨[.coordinatorClaim c.senderId], ?_, rfl⟩
        split <;> rfl
      · exact hsame
  | _ => exact hsame

/-- A control message is rejected by the first of its three checks that fails, or adds no
error. -/
theorem handleControl_classified (n : GroupNode) (plain : Bytes) (now : Instant) :
    (∃ e, ControlMessage.fromCbor plain = .error e ∧
      Rejected n (n.handleControl plain now) FrameCheck.controlDecode.code) ∨
    (∃ c, ControlMessage.fromCbor plain = .ok c ∧
      ((∃ e, ControlOpcode.tryFrom c.opcode = .error e ∧
        Rejected n (n.handleControl plain now) FrameCheck.opcode.code) ∨
      ∃ op, ControlOpcode.tryFrom c.opcode = .ok op ∧
        (n.tidOk op c.transitionId = false ∧
          Rejected n (n.handleControl plain now) FrameCheck.controlTransition.code ∨
        n.tidOk op c.transitionId = true ∧
          ∃ evs, (n.handleControl plain now).events = n.events ++ evs ∧
            evs.filter Event.isError = []))) := by
  cases hc : ControlMessage.fromCbor plain with
  | error e =>
      refine .inl ⟨e, rfl, ?_⟩
      rw [handleControl, hc]
      exact rejected_emitErrSpec ..
  | ok c =>
      refine .inr ⟨c, rfl, ?_⟩
      cases hop : ControlOpcode.tryFrom c.opcode with
      | error e =>
          refine .inl ⟨e, rfl, ?_⟩
          simp only [handleControl, hc, hop]
          exact rejected_emitErrSpec ..
      | ok op =>
          refine .inr ⟨op, rfl, ?_⟩
          cases htid : n.tidOk op c.transitionId with
          | false =>
              refine .inl ⟨rfl, ?_⟩
              simp only [handleControl, hc, hop, htid, Bool.not_false, if_true]
              exact rejected_emitErrSpec ..
          | true =>
              refine .inr ⟨rfl, ?_⟩
              obtain ⟨evs, hevs, herror⟩ := n.applyControl_events op c now
              refine ⟨evs ++ [.control c.senderId op c.transitionId c.requestId c.args], ?_, ?_⟩
              · rw [handleControl_ok now hc hop htid, push, hevs, List.append_assoc]
              · rw [List.filter_append, herror]
                rfl

/-- What a function that takes the node to another does according to the first failing check. -/
def Classified (n m : GroupNode) : Option FrameCheck → Prop
  | some check => ∃ inHw, Rejected { n with inHw := inHw } m check.code
  | none => ∃ evs, m.events = n.events ++ evs ∧ evs.filter Event.isError = []

/-- A failing check at the head of the remaining ones is the one reported. -/
theorem classified_head {n m : GroupNode} {s : S} {wire : Bytes} {check : FrameCheck}
    {rest : List FrameCheck} {inHw : Counters StreamKey SequenceNo}
    (hfails : check.fails n s wire = true)
    (h : Rejected { n with inHw := inHw } m check.code) :
    Classified n m ((check :: rest).find? fun c => c.fails n s wire) := by
  rw [List.find?_cons_of_pos hfails]
  exact ⟨inHw, h⟩

/-- A check that passes leaves the decision to the ones after it. -/
theorem classified_tail {n m : GroupNode} {s : S} {wire : Bytes} {check : FrameCheck}
    {rest : List FrameCheck} (hpasses : check.fails n s wire = false)
    (h : Classified n m (rest.find? fun c => c.fails n s wire)) :
    Classified n m ((check :: rest).find? fun c => c.fails n s wire) := by
  rw [List.find?_cons_of_neg (by rw [hpasses]; exact Bool.false_ne_true)]
  exact h

/-- A check made by a conditional fails on the condition, and otherwise the rest decides. -/
theorem classified_ite {n : GroupNode} {s : S} {wire : Bytes} {check : FrameCheck}
    {rest : List FrameCheck} {inHw : Counters StreamKey SequenceNo} {p : Prop} [Decidable p]
    {r r' : GroupNode × S} (hfails : check.fails n s wire = decide p)
    (hreject : Rejected { n with inHw := inHw } r.1 check.code)
    (hrest : Classified n r'.1 (rest.find? fun c => c.fails n s wire)) :
    Classified n (if p then r else r').1 ((check :: rest).find? fun c => c.fails n s wire) := by
  by_cases hp : p
  · rw [if_pos hp]
    exact classified_head (hfails.trans (decide_eq_true hp)) hreject
  · rw [if_neg hp]
    exact classified_tail (hfails.trans (decide_eq_false hp)) hrest

/-- The three checks of an authentic control message. -/
theorem control_classified {n : GroupNode} {s : S} {wire plain : Bytes} {f : GbpFrame}
    (hplain : wireControl s wire = some plain) (now : Instant) :
    Classified n ((n.record .control f).handleControl plain now)
      ([.controlDecode, .opcode, .controlTransition].find? fun c => c.fails n s wire) := by
  have hdecode : FrameCheck.fails n s wire .controlDecode =
      !(ControlMessage.fromCbor plain).isOk := by
    rw [FrameCheck.fails, hplain, Option.any_some]
  rcases (n.record .control f).handleControl_classified plain now with
    ⟨e, hc, hreject⟩ | ⟨c, hc, hmessage⟩
  · rw [hc] at hdecode
    exact classified_head hdecode hreject
  rw [hc] at hdecode
  refine classified_tail hdecode ?_
  have hread : wireMessage s wire = some c := by
    rw [wireMessage, hplain, Option.bind_some, hc]
    rfl
  have hopcode : FrameCheck.fails n s wire .opcode = !(ControlOpcode.tryFrom c.opcode).isOk := by
    rw [FrameCheck.fails, hread, Option.any_some]
  have htid : FrameCheck.fails n s wire .controlTransition =
      (ControlOpcode.tryFrom c.opcode).toOption.any fun op => !n.tidOk op c.transitionId := by
    rw [FrameCheck.fails, hread, Option.any_some]
  rcases hmessage with ⟨e, hop, hreject⟩ | ⟨op, hop, hverdict⟩
  · rw [hop] at hopcode
    exact classified_head hopcode hreject
  rw [hop] at hopcode htid
  refine classified_tail hopcode ?_
  rcases hverdict with ⟨hbad, hreject⟩ | ⟨hgood, evs, hevs, herror⟩
  · exact classified_head (htid.trans (congrArg not hbad)) hreject
  · exact classified_tail (htid.trans (congrArg not hgood)) ⟨evs, hevs, herror⟩

/-- The checks that need the provider, on a frame that was admitted. -/
theorem dispatch_classified {n : GroupNode} {s : S} {wire : Bytes} {f : GbpFrame}
    {st : StreamType} (hstream : wireStream wire = some (f, st)) (now : Instant) :
    Classified n ((n.record st f).dispatch s st f now).1
      ([.aeadOpen, .controlDecode, .opcode, .controlTransition].find? fun c =>
        c.fails n s wire) := by
  have hopen : FrameCheck.fails n s wire .aeadOpen =
      !(Sealer.open s st f.sequenceNo f.encryptedPayload).1.isOk := by
    rw [FrameCheck.fails, hstream, Option.any_some]
  cases hres : Sealer.open s st f.sequenceNo f.encryptedPayload with
  | mk result s' =>
      rw [dispatch, hres]
      rw [hres] at hopen
      cases result with
      | error e =>
          exact classified_head hopen
            (rejected_emitErrNamed (n.record st f) Codes.decryptFailed .crypto true false _)
      | ok plain =>
          refine classified_tail hopen ?_
          have hplain : wireControl s wire = if st = .control then some plain else none := by
            rw [wireControl, hstream, Option.bind_some]
            dsimp only
            rw [hres]
            rfl
          by_cases hst : st = .control
          · subst hst
            rw [if_pos rfl] at hplain
            exact control_classified hplain now
          · -- a payload passes the checks of control messages
            rw [if_neg hst] at hplain
            have hmessage : wireMessage s wire = none := by rw [wireMessage, hplain]; rfl
            refine classified_tail (by rw [FrameCheck.fails, hplain, Option.any_none]) ?_
            refine classified_tail (by rw [FrameCheck.fails, hmessage, Option.any_none]) ?_
            refine classified_tail (by rw [FrameCheck.fails, hmessage, Option.any_none]) ?_
            cases st with
            | control => exact absurd rfl hst
            | _ => exact ⟨[_], rfl, rfl⟩

theorem deliverFrame_classified {n : GroupNode} {s : S} {wire : Bytes} {f : GbpFrame}
    (hd : GbpFrame.decode wire = .ok f) (now : Instant) :
    Classified n (n.deliverFrame s f now).1 (firstFailing n s wire) := by
  have hframe : wireFrame wire = some f := by rw [wireFrame, hd]; rfl
  have hon (p : GbpFrame → Bool) : (wireFrame wire).any p = p f := by rw [hframe, Option.any_some]
  refine classified_tail (by rw [FrameCheck.fails, hd]; rfl) ?_
  rw [deliverFrame]
  refine classified_ite (hon _) (rejected_emitErrSpec n Codes.unsupportedVersion _) ?_
  refine classified_ite (hon _) (rejected_emitErrSpec n Codes.unknownGroup _) ?_
  refine classified_ite (hon _) (rejected_emitErrSpec n Codes.epochMismatch _).triggerResync ?_
  cases hs : f.validatePayloadSize with
  | error e =>
      exact classified_head (by rw [FrameCheck.fails, hon, hs]; rfl)
        (rejected_emitErrSpec n Codes.streamPolicyViolation _)
  | ok u =>
      refine classified_tail (by rw [FrameCheck.fails, hon, hs]; rfl) ?_
      dsimp only
      cases hst : f.streamTypeTyped with
      | error e =>
          exact classified_head (by rw [FrameCheck.fails, hon, hst]; rfl)
            (rejected_emitErrSpec n Codes.streamPolicyViolation _)
      | ok st =>
          refine classified_tail (by rw [FrameCheck.fails, hon, hst]; rfl) ?_
          have hstream : wireStream wire = some (f, st) := by
            rw [wireStream, hframe, Option.bind_some, hst]
            rfl
          have hon' (p : GbpFrame × StreamType → Bool) : (wireStream wire).any p = p (f, st) := by
            rw [hstream, Option.any_some]
          dsimp only
          refine classified_ite (hon' _) (rejected_emitErrSpec n Codes.transitionMismatch _) ?_
          refine classified_ite (hon' _) (rejected_emitErrSpec n Codes.replayDetected _) ?_
          exact dispatch_classified hstream now

/-- A received frame is rejected by the first check that fails, or adds no error. -/
theorem onWire_classified (n : GroupNode) (s : S) (wire : Bytes) (now : Instant) :
    ∃ m, Classified n m (firstFailing n s wire) ∧ (n.onWire s wire now).1 = m.events ∧
      (n.onWire s wire now).2.1 = { m with events := [] } := by
  cases hd : GbpFrame.decode wire with
  | error e =>
      refine ⟨n.emitErrSpec Codes.streamPolicyViolation s!"frame decode: {e.display}", ?_, ?_, ?_⟩
      · exact classified_head (by rw [FrameCheck.fails, hd]; rfl)
          (rejected_emitErrSpec n Codes.streamPolicyViolation _)
      · simp only [onWire, hd, drainEvents]
      · simp only [onWire, hd, drainEvents]
  | ok f =>
      refine ⟨(n.deliverFrame s f now).1, deliverFrame_classified hd now, ?_, ?_⟩
      · simp only [onWire, hd, drainEvents]
      · simp only [onWire, hd, drainEvents]

/-- A received frame that adds an error adds exactly one, with the code of the first check that
fails in the documented order. It adds nothing but state changes besides, and the node keeps
everything except its state and its replay window. -/
theorem rejected_frame_intact (n : GroupNode) (s : S) (wire : Bytes) (now : Instant)
    (herror : ∃ e ∈ n.emitted (⟨now, .onWire s wire⟩ : TimedCall S), e.isError = true) :
    ∃ check, firstFailing n s wire = some check ∧
      (∃ cls retryable fatal reason,
        (n.emitted (⟨now, .onWire s wire⟩ : TimedCall S)).filter Event.isError =
          [.error check.code cls retryable fatal reason]) ∧
      (∀ e ∈ n.emitted (⟨now, .onWire s wire⟩ : TimedCall S), e.isReport = true) ∧
      ∃ state inHw, n.step (⟨now, .onWire s wire⟩ : TimedCall S) =
        { n with state := state, inHw := inHw, events := [] } := by
  obtain ⟨m, hclass, hreturned, hnode⟩ := n.onWire_classified s wire now
  have hemitted (evs : List Event) (hevs : m.events = n.events ++ evs) :
      n.emitted (⟨now, .onWire s wire⟩ : TimedCall S) = evs := by
    apply emitted_eq
    simp only [returned, step, hreturned, hnode, List.append_nil, hevs]
  cases hfirst : firstFailing n s wire with
  | none =>
      rw [hfirst] at hclass
      obtain ⟨evs, hevs, hnone⟩ := hclass
      obtain ⟨e, he, hise⟩ := herror
      rw [hemitted evs hevs] at he
      have hmem : e ∈ evs.filter Event.isError := List.mem_filter.mpr ⟨he, hise⟩
      rw [hnone] at hmem
      exact absurd hmem List.not_mem_nil
  | some check =>
      rw [hfirst] at hclass
      obtain ⟨inHw, state, evs, cls, retryable, fatal, reason, hm, hreport, hone⟩ := hclass
      have hevs : m.events = n.events ++ evs := by rw [hm]
      rw [hemitted evs hevs]
      refine ⟨check, rfl, ⟨cls, retryable, fatal, reason, hone⟩, hreport, state, inHw, ?_⟩
      simp only [step, hnode, hm]

end Classify

/-- A frame of another group and another epoch: the group is reported. -/
theorem rejected_frame_intact_group :
    let n := (new 1 (Vector.replicate 16 0)).bootstrapAsCreator 0
    let wire := (GbpFrame.new (Vector.replicate 16 1) 9 0 .text 101 0 1 [7] 0).toCbor
    firstFailing n PlainSealer.plain wire = some .groupId ∧
      ∃ state inHw, n.step (⟨5, .onWire PlainSealer.plain wire⟩ : TimedCall PlainSealer) =
        { n with state := state, inHw := inHw, events := [] } := by
  intro n wire
  have hfirst : firstFailing n PlainSealer.plain wire = some .groupId := by decide +kernel
  have herror : ∃ e ∈ n.emitted (⟨5, .onWire PlainSealer.plain wire⟩ : TimedCall PlainSealer),
      e.isError = true := by decide +kernel
  obtain ⟨check, -, -, -, hnode⟩ := rejected_frame_intact n PlainSealer.plain wire 5 herror
  exact ⟨hfirst, hnode⟩

end GroupNode

end GroupProtocol
