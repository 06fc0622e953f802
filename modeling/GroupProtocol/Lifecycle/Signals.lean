import GroupProtocol.Node.Calls

/-!
# What a call asks of the node state machine

After bootstrap the state of a node is written in three ways: a fatal error fails it, a
resync request moves it, and a digest response ends a resync. Every call makes at most one
of these requests. The state it leads to, the changes it announces and the fatal errors it
reports depend on the state and the request alone.
-/

namespace GroupProtocol

/-- The request a call makes. -/
inductive Signal
  | quiet
  | fatal
  | resync
  | resynced
  deriving DecidableEq, Repr

/-- The state a request leads to and the changes it announces. -/
def NodeState.heed (s : NodeState) : Signal → NodeState × List (NodeState × NodeState)
  | .quiet => (s, [])
  | .fatal => (.failed, [(s, .failed)])
  | .resync =>
    if s = .resyncing then (s, [])
    else if s.canTransitionTo .resyncing then (.resyncing, [(s, .resyncing)])
    else (.failed, [(s, .failed)])
  | .resynced => if s = .resyncing then (.active, [(s, .active)]) else (s, [])

/-- The change of state an event announces. -/
def Event.stateChange : Event → Option (NodeState × NodeState)
  | .stateChanged source target => some (source, target)
  | _ => none

/-- The event reports a fatal error. -/
def Event.isFatal : Event → Bool
  | .error _ _ _ fatal _ => fatal
  | _ => false

namespace GroupNode

/-- The second node is the first after a request: its state, the changes announced behind
the queued events and whether a fatal error is among them. -/
def Heeds (n m : GroupNode) (sig : Signal) : Prop :=
  ∃ evs, m.events = n.events ++ evs ∧ m.state = (n.state.heed sig).1 ∧
    evs.filterMap Event.stateChange = (n.state.heed sig).2 ∧
    evs.any Event.isFatal = (sig == .fatal)

theorem Heeds.refl (n : GroupNode) : Heeds n n .quiet :=
  ⟨[], (List.append_nil _).symm, rfl, rfl, rfl⟩

/-- Nothing is requested before the request. -/
theorem Heeds.after {a b c : GroupNode} {sig : Signal} (hab : Heeds a b .quiet)
    (hbc : Heeds b c sig) : Heeds a c sig := by
  obtain ⟨evs, he, hs, hch, hf⟩ := hab
  obtain ⟨fvs, he', hs', hch', hf'⟩ := hbc
  refine ⟨evs ++ fvs, ?_, ?_, ?_, ?_⟩
  · rw [he', he, List.append_assoc]
  · rw [hs', hs]
    rfl
  · rw [List.filterMap_append, hch, hch', hs]
    rfl
  · rw [List.any_append, hf, hf']
    rfl

/-- Nothing is requested after the request. -/
theorem Heeds.before {a b c : GroupNode} {sig : Signal} (hab : Heeds a b sig)
    (hbc : Heeds b c .quiet) : Heeds a c sig := by
  obtain ⟨evs, he, hs, hch, hf⟩ := hab
  obtain ⟨fvs, he', hs', hch', hf'⟩ := hbc
  refine ⟨evs ++ fvs, ?_, ?_, ?_, ?_⟩
  · rw [he', he, List.append_assoc]
  · rw [hs']
    exact hs
  · rw [List.filterMap_append, hch, hch']
    exact List.append_nil _
  · rw [List.any_append, hf, hf']
    exact Bool.or_false _

/-- Queued events that neither announce a change nor report a fatal error. -/
theorem heeds_push {n : GroupNode} {e : Event} (hchange : e.stateChange = none)
    (hfatal : e.isFatal = false) : Heeds n (n.push e) .quiet := by
  refine ⟨[e], rfl, rfl, ?_, ?_⟩
  · rw [List.filterMap_cons_none hchange]
    rfl
  · rw [List.any_cons, hfatal]
    rfl

theorem heeds_emitErrNamed {n : GroupNode} {code : UInt16} (spec : ErrorSpec)
    (h : ErrorSpec.lookup code = some spec) (cls : ErrorClass) (retryable fatal : Bool)
    (reason : String) :
    Heeds n (n.emitErrNamed code cls retryable fatal reason)
      (if spec.fatal then .fatal else .quiet) := by
  simp only [emitErrNamed, h]
  cases hf : spec.fatal with
  | false =>
      exact heeds_push rfl rfl
  | true =>
      exact ⟨[.error code spec.errorClass spec.retryable true reason,
        .stateChanged n.state .failed], List.append_assoc _ _ _, rfl, rfl, rfl⟩

theorem heeds_emitErrSpec {n : GroupNode} {code : UInt16} (spec : ErrorSpec)
    (h : ErrorSpec.lookup code = some spec) (reason : String) :
    Heeds n (n.emitErrSpec code reason) (if spec.fatal then .fatal else .quiet) := by
  simp only [emitErrSpec, h]
  rw [ErrorSpec.lookup_code h]
  exact heeds_emitErrNamed spec h ..

theorem heeds_triggerResync (n : GroupNode) : Heeds n n.triggerResync .resync := by
  unfold triggerResync
  by_cases hs : n.state = .resyncing
  · rw [if_neg (not_not.mpr hs)]
    refine ⟨[], (List.append_nil _).symm, ?_, ?_, rfl⟩
    · rw [NodeState.heed, if_pos hs]
    · rw [NodeState.heed, if_pos hs]
      rfl
  · rw [if_pos hs, transition, if_neg hs]
    cases hc : n.state.canTransitionTo .resyncing with
    | false =>
        refine ⟨[.stateChanged n.state .failed], rfl, ?_, ?_, rfl⟩
        · simp only [NodeState.heed, hs, hc, if_false]
          rfl
        · simp only [NodeState.heed, hs, hc, if_false]
          rfl
    | true =>
        refine ⟨[.stateChanged n.state .resyncing], rfl, ?_, ?_, rfl⟩
        · simp only [NodeState.heed, hs, hc, if_false]
          rfl
        · simp only [NodeState.heed, hs, hc, if_false]
          rfl

/-- The request of an opcode: only a digest response asks for a change of state. -/
def opcodeSignal (op : ControlOpcode) : Signal :=
  if op = .groupStateDigestResponse then .resynced else .quiet

theorem heeds_applyControl (n : GroupNode) (op : ControlOpcode) (c : ControlMessage)
    (now : Instant) :
    Heeds n (n.applyControl op c now) (opcodeSignal op) := by
  cases op with
  | prepareTransition =>
      rw [applyControl]
      split
      · exact Heeds.refl n
      · exact Heeds.refl n
  | executeTransition =>
      exact ⟨[.epochAdvanced (n.currentEpoch + 1) c.transitionId], rfl, rfl, rfl, rfl⟩
  | groupStateDigestResponse =>
      rw [applyControl]
      by_cases hs : n.state = .resyncing
      · refine ⟨[.stateChanged n.state .active], ?_, ?_, ?_, rfl⟩
        · simp only [hs, if_true, transition]
          rfl
        · simp only [hs, if_true, transition]
          rfl
        · simp only [hs, opcodeSignal, if_true, NodeState.heed]
          rfl
      · rw [if_neg hs]
        refine ⟨[], (List.append_nil _).symm, ?_, ?_, rfl⟩
        · rw [opcodeSignal, if_pos rfl, NodeState.heed, if_neg hs]
        · rw [opcodeSignal, if_pos rfl, NodeState.heed, if_neg hs]
          rfl
  | capabilitiesAdvertise =>
      rw [applyControl]
      split
      · refine ⟨[.coordinatorClaim c.senderId], ?_, ?_, rfl, rfl⟩
        · dsimp only
          split <;> rfl
        · dsimp only
          split <;> rfl
      · exact Heeds.refl n
  | _ => exact Heeds.refl n

/-! Reports the receive path makes without failing the node. -/

theorem heeds_policyViolation (n : GroupNode) (reason : String) :
    Heeds n (n.emitErrSpec Codes.streamPolicyViolation reason) .quiet :=
  heeds_emitErrSpec ⟨_, .policy, false, false, "ERR_STREAM_POLICY_VIOLATION"⟩ rfl reason

theorem heeds_transitionMismatch (n : GroupNode) (reason : String) :
    Heeds n (n.emitErrSpec Codes.transitionMismatch reason) .quiet :=
  heeds_emitErrSpec ⟨_, .state, true, false, "ERR_TRANSITION_MISMATCH"⟩ rfl reason

section Receive

variable [Ciborium] {S : Type} [Sealer S]

/-- The request of a control message. -/
def controlSignal (plain : Bytes) : Signal :=
  match ControlMessage.fromCbor plain with
  | .error _ => .quiet
  | .ok c =>
    match ControlOpcode.tryFrom c.opcode with
    | .error _ => .quiet
    | .ok op => opcodeSignal op

theorem heeds_handleControl (n : GroupNode) (plain : Bytes) (now : Instant) :
    Heeds n (n.handleControl plain now) (controlSignal plain) := by
  cases hc : ControlMessage.fromCbor plain with
  | error e =>
      simp only [handleControl, controlSignal, hc]
      exact n.heeds_policyViolation _
  | ok c =>
      cases hop : ControlOpcode.tryFrom c.opcode with
      | error e =>
          simp only [handleControl, controlSignal, hc, hop]
          exact n.heeds_policyViolation _
      | ok op =>
          have hsig : controlSignal plain = opcodeSignal op := by
            simp only [controlSignal, hc, hop]
          rw [hsig]
          by_cases htid : n.tidOk op c.transitionId = true
          · rw [handleControl_ok now hc hop htid]
            exact (n.heeds_applyControl op c now).before (heeds_push rfl rfl)
          · have hquiet : opcodeSignal op = .quiet := by
              -- A digest response names no transition, so it is never refused.
              rw [opcodeSignal, if_neg]
              rintro rfl
              exact htid rfl
            simp only [handleControl, hc, hop, hquiet, Bool.eq_false_iff.mpr htid, Bool.not_false,
              if_true]
            exact n.heeds_transitionMismatch _

/-- The request of a frame: an unsupported version and an unknown group are fatal, another
epoch asks for a resync, and an admitted control frame asks what its message asks. -/
def frameSignal (n : GroupNode) (s : S) (f : GbpFrame) : Signal :=
  if f.version ≠ 1 ∨ f.groupIdArray ≠ n.groupId then .fatal
  else if f.epoch ≠ n.currentEpoch then .resync
  else
    match n.admitted f, (Sealer.open s .control f.sequenceNo f.encryptedPayload).1 with
    | some .control, .ok plain => controlSignal plain
    | _, _ => .quiet

/-- A recorded frame asks what its control message asks, if it carries one. -/
theorem heeds_dispatch (n : GroupNode) (s : S) (st : StreamType) (f : GbpFrame) (now : Instant) :
    Heeds n (n.dispatch s st f now).1
      (match st, (Sealer.open s st f.sequenceNo f.encryptedPayload).1 with
      | .control, .ok plain => controlSignal plain
      | _, _ => .quiet) := by
  unfold dispatch
  cases hopen : Sealer.open s st f.sequenceNo f.encryptedPayload with
  | mk r s' =>
      cases r with
      | error e =>
          have hquiet := heeds_emitErrNamed (n := n)
            ⟨_, .crypto, true, false, "ERR_DECRYPT_FAILED"⟩
            (show ErrorSpec.lookup Codes.decryptFailed = _ from rfl) .crypto true false
            s!"aead open: {e.display}"
          cases st <;> exact hquiet
      | ok plain =>
          cases st with
          | control => exact n.heeds_handleControl plain now
          | _ => exact heeds_push rfl rfl

/-- A frame of this group and epoch that is not admitted is reported and asks for nothing. -/
theorem heeds_refused {n : GroupNode} {f : GbpFrame} (s : S) (now : Instant)
    (hv : ¬f.version ≠ 1) (hg : ¬f.groupIdArray ≠ n.groupId) (he : ¬f.epoch ≠ n.currentEpoch)
    (hadm : n.admitted f = none) : Heeds n (n.deliverFrame s f now).1 .quiet := by
  rw [deliverFrame, if_neg hv, if_neg hg, if_neg he]
  split
  · exact n.heeds_policyViolation _
  · rename_i hsize
    split
    · exact n.heeds_policyViolation _
    · rename_i st hst
      split
      · exact n.heeds_transitionMismatch _
      · rename_i htid
        dsimp only
        split
        · exact heeds_emitErrSpec ⟨_, .crypto, false, false, "ERR_REPLAY_DETECTED"⟩ rfl _
        · rename_i hseq
          have hsome : n.admitted f = some st := admitted_eq_some.mpr
            ⟨not_not.mp hv, not_not.mp hg, not_not.mp he, hsize, hst, htid, by grind⟩
          rw [hadm] at hsome
          cases hsome

theorem heeds_deliverFrame (n : GroupNode) (s : S) (f : GbpFrame) (now : Instant) :
    Heeds n (n.deliverFrame s f now).1 (n.frameSignal s f) := by
  unfold frameSignal
  by_cases hv : f.version ≠ 1
  · rw [deliverFrame, if_pos hv, if_pos (Or.inl hv)]
    exact heeds_emitErrSpec ⟨_, .schema, false, true, "ERR_UNSUPPORTED_VERSION"⟩ rfl _
  by_cases hg : f.groupIdArray ≠ n.groupId
  · rw [deliverFrame, if_neg hv, if_pos hg, if_pos (Or.inr hg)]
    exact heeds_emitErrSpec ⟨_, .state, false, true, "ERR_UNKNOWN_GROUP"⟩ rfl _
  rw [if_neg (not_or.mpr ⟨hv, hg⟩)]
  by_cases he : f.epoch ≠ n.currentEpoch
  · rw [deliverFrame, if_neg hv, if_neg hg, if_pos he, if_pos he]
    exact Heeds.after
      (heeds_emitErrSpec ⟨_, .state, true, false, "ERR_EPOCH_MISMATCH"⟩ rfl _)
      (heeds_triggerResync _)
  rw [if_neg he]
  cases hadm : n.admitted f with
  | none => exact heeds_refused s now hv hg he hadm
  | some st =>
      rw [deliverFrame_admitted hadm]
      have hrecord := (n.record st f).heeds_dispatch s st f now
      cases st with
      | control =>
          cases hopen : (Sealer.open s .control f.sequenceNo f.encryptedPayload).1 with
          | error e =>
              rw [hopen] at hrecord
              exact hrecord
          | ok plain =>
              rw [hopen] at hrecord
              exact hrecord
      | _ => exact hrecord

end Receive

/-! The other calls. -/

section Calls

variable [Ciborium] {S : Type} [Sealer S]

/-- The request of a call. -/
def signal (n : GroupNode) (x : TimedCall S) : Signal :=
  match x.call with
  | .triggerResync => .resync
  | .onWire s wire =>
    match GbpFrame.decode wire with
    | .error _ => .quiet
    | .ok f => n.frameSignal s f
  | _ => .quiet

omit [Ciborium] [Sealer S] in
theorem heeds_checkTimeouts (n : GroupNode) (now : Instant) :
    Heeds n (((n.checkPrepare now).checkExecute now).checkCoordinator now) .quiet := by
  have hprepare : Heeds n (n.checkPrepare now) .quiet := by
    unfold checkPrepare
    split
    · exact heeds_emitErrSpec ⟨_, .state, true, false, "ERR_PREPARE_TIMEOUT"⟩ rfl _
    · exact Heeds.refl n
  have hexecute : ∀ m : GroupNode, Heeds m (m.checkExecute now) .quiet := by
    intro m
    unfold checkExecute
    split
    · exact heeds_emitErrSpec ⟨_, .state, true, false, "ERR_EXECUTE_TIMEOUT"⟩ rfl _
    · exact Heeds.refl m
  have hcoordinator : ∀ m : GroupNode, Heeds m (m.checkCoordinator now) .quiet := by
    intro m
    unfold checkCoordinator
    split
    · split
      · have hgone := heeds_emitErrSpec
          (n := { m with coordinatorLastSeen := none, isCoordinator := false })
          ⟨_, .state, true, false, "ERR_COORDINATOR_GONE"⟩
          (show ErrorSpec.lookup Codes.coordinatorGone = _ from rfl)
          "coordinator silence exceeded T_coordinator_grace"
        exact hgone.before (heeds_push rfl rfl)
      · exact Heeds.refl m
    · exact Heeds.refl m
  exact (hprepare.after (hexecute _)).after (hcoordinator _)

/-- A call leads to the state, announces the changes and reports the fatal errors of a
request. -/
structure Answers (n : GroupNode) (x : TimedCall S) (sig : Signal) : Prop where
  state : (n.step x).state = (n.state.heed sig).1
  changes : (n.emitted x).filterMap Event.stateChange = (n.state.heed sig).2
  fatal : (n.emitted x).any Event.isFatal = (sig == .fatal)

/-- A call that only queues events. -/
private theorem answers_queued {n : GroupNode} {x : TimedCall S} {sig : Signal}
    (hret : n.returned x = []) (h : Heeds n (n.step x) sig) : n.Answers x sig := by
  obtain ⟨evs, hevents, hstate, hchanges, hfatal⟩ := h
  have hemit : n.emitted x = evs := by
    apply emitted_eq
    rw [hret, hevents, List.nil_append]
  exact ⟨hstate, by rw [hemit]; exact hchanges, by rw [hemit]; exact hfatal⟩

/-- A call that hands out every queued event. -/
private theorem answers_drained {n m : GroupNode} {x : TimedCall S} {sig : Signal}
    (hret : n.returned x = m.events) (hstep : n.step x = { m with events := [] })
    (h : Heeds n m sig) : n.Answers x sig := by
  obtain ⟨evs, hevents, hstate, hchanges, hfatal⟩ := h
  have hemit : n.emitted x = evs := by
    apply emitted_eq
    rw [hret, hstep, hevents, List.append_nil]
  refine ⟨?_, by rw [hemit]; exact hchanges, by rw [hemit]; exact hfatal⟩
  rw [hstep]
  exact hstate

/-- Every call answers its request. -/
theorem step_signal (n : GroupNode) (x : TimedCall S) : n.Answers x (n.signal x) := by
  obtain ⟨now, call⟩ := x
  cases call with
  | onWire s wire =>
      cases hd : GbpFrame.decode wire with
      | error e =>
          have hsig : n.signal ⟨now, .onWire s wire⟩ = .quiet := by simp only [signal, hd]
          rw [hsig]
          apply answers_drained _ _ (n.heeds_policyViolation s!"frame decode: {e.display}")
          · simp only [returned, onWire, hd, drainEvents]
          · simp only [step, onWire, hd, drainEvents]
      | ok f =>
          have hsig : n.signal ⟨now, .onWire s wire⟩ = n.frameSignal s f := by
            simp only [signal, hd]
          rw [hsig]
          apply answers_drained _ _ (n.heeds_deliverFrame s f now)
          · simp only [returned, onWire, hd, drainEvents]
          · simp only [step, onWire, hd, drainEvents]
  | sendPayload s target st sid flags pt codec =>
      apply answers_queued rfl
      obtain ⟨q, hq⟩ := n.sendPayload_node s target st sid flags pt codec
      rw [show n.step ⟨now, .sendPayload s target st sid flags pt codec⟩ = _ from hq]
      exact Heeds.refl n
  | sendControl s target op tid rid args =>
      apply answers_queued rfl
      obtain ⟨q, hq⟩ := n.sendControl_node s target op tid rid args now
      obtain ⟨pending, tstate, prep, exec, -, hm⟩ := n.mirrorControl_node op tid now
      rw [hm] at hq
      rw [show n.step ⟨now, .sendControl s target op tid rid args⟩ = _ from hq]
      exact Heeds.refl n
  | claimCoordinator s target =>
      apply answers_queued rfl
      obtain ⟨q, hq⟩ := n.claimCoordinator_node s target now
      rw [show n.step ⟨now, .claimCoordinator s target⟩ = _ from hq]
      exact heeds_push (n := n) (e := .becameCoordinator) rfl rfl
  | applyTransition tid =>
      apply answers_queued rfl
      exact heeds_push (n := n) (e := .epochAdvanced (n.currentEpoch + 1) tid) rfl rfl
  | triggerResync =>
      apply answers_queued rfl
      exact n.heeds_triggerResync
  | checkTimeouts => exact answers_drained rfl rfl (n.heeds_checkTimeouts now)
  | restoreOutSeq bytes =>
      apply answers_queued rfl
      obtain ⟨q, hq⟩ := n.restoreOutSeq_node bytes
      rw [show n.step (⟨now, .restoreOutSeq bytes⟩ : TimedCall S) = _ from hq]
      exact Heeds.refl n
  | drainEvents => exact answers_drained rfl rfl (Heeds.refl n)

end Calls

end GroupNode

end GroupProtocol
