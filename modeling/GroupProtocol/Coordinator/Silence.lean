import GroupProtocol.Coordinator.Claims
import GroupProtocol.Node.Rejection

/-!
# The silence timer of a coordinator

A coordinator runs the same silence timer as everybody else. Claiming the role restarts it, and
so does a received PREPARE, EXECUTE or claim; a control message the coordinator sends itself does
not. The role is therefore kept along a run exactly while the timer is restarted in time and no
lower claim is heard.
-/

namespace GroupProtocol

/-- The report that the coordinator has gone. -/
def Event.isCoordinatorGone : Event → Bool
  | .error code _ _ _ _ => code == Codes.coordinatorGone
  | _ => false

theorem Event.isError_of_isCoordinatorGone {e : Event} (h : e.isCoordinatorGone = true) :
    e.isError = true := by
  cases e with
  | error => rfl
  | _ => cases h

/-- A send of a payload or of a control message. -/
def NodeCall.isSend {S : Type} : NodeCall S → Bool
  | .sendPayload .. => true
  | .sendControl .. => true
  | _ => false

namespace GroupNode

/-- The second node queues more events, none of which reports that the coordinator has gone. -/
def Adds (n m : GroupNode) : Prop :=
  ∃ evs, m.events = n.events ++ evs ∧ ∀ e ∈ evs, e.isCoordinatorGone = false

theorem Adds.trans {a b c : GroupNode} (hab : Adds a b) (hbc : Adds b c) : Adds a c := by
  obtain ⟨evs, hevs, hquiet⟩ := hab
  obtain ⟨evs', hevs', hquiet'⟩ := hbc
  refine ⟨evs ++ evs', by rw [hevs', hevs, List.append_assoc], fun e he => ?_⟩
  rcases List.mem_append.mp he with he | he
  · exact hquiet e he
  · exact hquiet' e he

theorem adds_of_events {n m : GroupNode} (h : m.events = n.events) : Adds n m :=
  ⟨[], by rw [h, List.append_nil], by simp⟩

/-- Without an error nobody is reported gone. -/
theorem not_gone_of_filter {evs : List Event} (h : evs.filter Event.isError = []) {e : Event}
    (he : e ∈ evs) : e.isCoordinatorGone = false := by
  by_contra hgone
  have hmem : e ∈ evs.filter Event.isError :=
    List.mem_filter.mpr ⟨he, Event.isError_of_isCoordinatorGone (Bool.not_eq_false _ ▸ hgone)⟩
  rw [h] at hmem
  exact List.not_mem_nil hmem

/-- A rejection with another code reports nobody gone. -/
theorem Rejected.adds {n m : GroupNode} {code : UInt16} (h : Rejected n m code)
    (hcode : code ≠ Codes.coordinatorGone) : Adds n m := by
  obtain ⟨state, evs, cls, retryable, fatal, reason, rfl, -, hone⟩ := h
  refine ⟨evs, rfl, fun e he => ?_⟩
  by_contra hgone
  have hgone' : e.isCoordinatorGone = true := Bool.not_eq_false _ ▸ hgone
  have hmem : e ∈ evs.filter Event.isError :=
    List.mem_filter.mpr ⟨he, Event.isError_of_isCoordinatorGone hgone'⟩
  rw [hone, List.mem_singleton] at hmem
  subst hmem
  exact hcode (beq_iff_eq.mp hgone')

/-- A rejection keeps the role and its timer. -/
theorem Rejected.role {n m : GroupNode} {code : UInt16} (h : Rejected n m code) :
    m.isCoordinator = n.isCoordinator ∧ m.coordinatorLastSeen = n.coordinatorLastSeen := by
  obtain ⟨state, evs, cls, retryable, fatal, reason, rfl, -⟩ := h
  exact ⟨rfl, rfl⟩

/-- No check of a received frame has the code of a coordinator that has gone. -/
theorem frameCheck_code_ne (check : FrameCheck) : check.code ≠ Codes.coordinatorGone := by
  cases check <;> decide

theorem Classified.adds {n m : GroupNode} {first : Option FrameCheck}
    (h : Classified n m first) : Adds n m := by
  cases first with
  | none =>
      obtain ⟨evs, hevs, hnone⟩ := h
      exact ⟨evs, hevs, fun e he => not_gone_of_filter hnone he⟩
  | some check =>
      obtain ⟨inHw, hreject⟩ := h
      exact hreject.adds (frameCheck_code_ne check)

/-- A forced resync keeps the role. -/
theorem triggerResync_role (n : GroupNode) :
    Adds n n.triggerResync ∧ n.triggerResync.isCoordinator = n.isCoordinator := by
  rw [triggerResync]
  split
  · obtain ⟨state, evs, hmove, -, hnone⟩ := n.transition_eq .resyncing
    rw [hmove]
    exact ⟨⟨evs, rfl, fun e he => not_gone_of_filter hnone he⟩, rfl⟩
  · exact ⟨adds_of_events rfl, rfl⟩

/-! The timer. -/

/-- The recorded activity is older than the grace period. -/
def Overdue (n : GroupNode) (now : Instant) : Prop :=
  ∃ t, n.coordinatorLastSeen = some t ∧
    Timeouts.tCoordinatorGraceMs ≤ UInt64.ofNat (millisSince now t)

/-- Transition deadlines leave the role and its timer alone and report nobody gone. -/
theorem checkPrepare_role (n : GroupNode) (now : Instant) :
    Adds n (n.checkPrepare now) ∧
      (n.checkPrepare now).isCoordinator = n.isCoordinator ∧
      (n.checkPrepare now).coordinatorLastSeen = n.coordinatorLastSeen := by
  rw [checkPrepare]
  split
  · have hreject := rejected_emitErrSpec { n with
      prepareDeadline := none, executeDeadline := none, pendingTransitionId := 0,
      transitionState := .tAborted } Codes.prepareTimeout "T_prepare_max exceeded"
    exact ⟨hreject.adds (by decide), hreject.role⟩
  · exact ⟨adds_of_events rfl, rfl, rfl⟩

theorem checkExecute_role (n : GroupNode) (now : Instant) :
    Adds n (n.checkExecute now) ∧
      (n.checkExecute now).isCoordinator = n.isCoordinator ∧
      (n.checkExecute now).coordinatorLastSeen = n.coordinatorLastSeen := by
  rw [checkExecute]
  split
  · have hreject := rejected_emitErrSpec { n with executeDeadline := none } Codes.executeTimeout
      "T_execute_max exceeded"
    exact ⟨hreject.adds (by decide), hreject.role⟩
  · exact ⟨adds_of_events rfl, rfl, rfl⟩

/-- Within the grace period the coordinator check does nothing. -/
theorem checkCoordinator_heard {n : GroupNode} {now : Instant} (h : ¬ n.Overdue now) :
    n.checkCoordinator now = n := by
  rw [checkCoordinator]
  split
  · rename_i t ht
    exact if_neg fun hge => h ⟨t, ht, hge⟩
  · rfl

/-- Past it the role is dropped. -/
theorem checkCoordinator_overdue {n : GroupNode} {now : Instant} (h : n.Overdue now) :
    (n.checkCoordinator now).isCoordinator = false := by
  obtain ⟨t, ht, hge⟩ := h
  rw [checkCoordinator, ht]
  dsimp only
  rw [if_pos hge]
  exact (rejected_emitErrSpec { n with coordinatorLastSeen := none, isCoordinator := false }
    Codes.coordinatorGone "coordinator silence exceeded T_coordinator_grace").role.1

/-- A timeout check deposes a coordinator exactly when it finds it silent, and reports it gone in
that case only. -/
theorem checkTimeouts_role (n : GroupNode) (now : Instant) :
    (n.Overdue now → (n.checkTimeouts now).2.isCoordinator = false) ∧
      (¬ n.Overdue now → (n.checkTimeouts now).2.isCoordinator = n.isCoordinator ∧
        ∃ evs, (n.checkTimeouts now).1 = n.events ++ evs ∧
          ∀ e ∈ evs, e.isCoordinatorGone = false) := by
  obtain ⟨hadds₁, hrole₁, hseen₁⟩ := n.checkPrepare_role now
  obtain ⟨hadds₂, hrole₂, hseen₂⟩ := (n.checkPrepare now).checkExecute_role now
  have hsilent : ((n.checkPrepare now).checkExecute now).Overdue now ↔ n.Overdue now := by
    rw [Overdue, Overdue, hseen₂, hseen₁]
  constructor
  · intro h
    exact checkCoordinator_overdue (hsilent.mpr h)
  · intro h
    rw [checkTimeouts, checkCoordinator_heard (mt hsilent.mp h)]
    exact ⟨hrole₂.trans hrole₁, hadds₁.trans hadds₂⟩

/-! Claims that are heard. -/

section Runs

variable [Ciborium] {S : Type} [Sealer S]

/-- Who claims the role in an authenticated control message, if it is read as a claim. -/
def claimant (plain : Bytes) : Option MemberId :=
  match ControlMessage.fromCbor plain with
  | .error _ => none
  | .ok c =>
    if ControlOpcode.tryFrom c.opcode = .ok .capabilitiesAdvertise ∧ isCoordinatorClaim c.args = true
    then some c.senderId
    else none

/-- Whose claim the wire bytes deliver to a node, if they deliver one. -/
def heardClaim (n : GroupNode) (s : S) (wire : Bytes) : Option MemberId :=
  match GbpFrame.decode wire with
  | .error _ => none
  | .ok f =>
    match n.admitted f, (Sealer.open s .control f.sequenceNo f.encryptedPayload).1 with
    | some .control, .ok plain => claimant plain
    | _, _ => none

/-- The role a coordinator keeps after a claim. -/
def keepsRole (n : GroupNode) (heard : Option MemberId) : Bool :=
  n.isCoordinator && !heard.any fun j => j < n.memberId

omit [Ciborium] in
theorem keepsRole_none (n : GroupNode) : n.keepsRole none = n.isCoordinator := Bool.and_true _

omit [Ciborium] in
/-- Of the accepted control messages only claims touch the role. -/
theorem applyControl_role (n : GroupNode) (op : ControlOpcode) (c : ControlMessage)
    (now : Instant) :
    (n.applyControl op c now).isCoordinator = n.keepsRole
      (if op = .capabilitiesAdvertise ∧ isCoordinatorClaim c.args = true then some c.senderId
        else none) := by
  cases op with
  | capabilitiesAdvertise =>
      cases hclaim : isCoordinatorClaim c.args with
      | false => simp [applyControl, hclaim, keepsRole]
      | true =>
          rw [applyControl_claim n c now hclaim]
          simp [keepsRole]
  | prepareTransition =>
      rw [if_neg (by simp), keepsRole_none, applyControl]
      split <;> rfl
  | groupStateDigestResponse =>
      rw [if_neg (by simp), keepsRole_none, applyControl]
      split
      · obtain ⟨state, evs, hmove, -⟩ := n.transition_eq .active
        rw [hmove]
      · rfl
  | _ => rw [if_neg (by simp), keepsRole_none]; rfl

theorem handleControl_role (n : GroupNode) (plain : Bytes) (now : Instant) :
    (n.handleControl plain now).isCoordinator = n.keepsRole (claimant plain) := by
  cases hc : ControlMessage.fromCbor plain with
  | error e =>
      simp only [handleControl, claimant, hc, keepsRole_none]
      exact (rejected_emitErrSpec n _ _).role.1
  | ok c =>
      cases hop : ControlOpcode.tryFrom c.opcode with
      | error e =>
          simp only [handleControl, claimant, hc, hop, reduceCtorEq, false_and, if_false,
            keepsRole_none]
          exact (rejected_emitErrSpec n _ _).role.1
      | ok op =>
          cases htid : n.tidOk op c.transitionId with
          | true =>
              rw [handleControl_ok now hc hop htid]
              simp only [push, applyControl_role, claimant, hc, hop, Except.ok.injEq]
          | false =>
              -- the transition matrix constrains no claim
              have hother : op ≠ .capabilitiesAdvertise := by
                rintro rfl
                cases htid
              simp only [handleControl, claimant, hc, hop, htid, Bool.not_false, if_true,
                Except.ok.injEq, hother, false_and, if_false, keepsRole_none]
              exact (rejected_emitErrSpec n _ _).role.1

/-- A received frame touches the role only by a claim it delivers. -/
theorem onWire_role (n : GroupNode) (s : S) (wire : Bytes) (now : Instant) :
    (n.onWire s wire now).2.1.isCoordinator = n.keepsRole (n.heardClaim s wire) := by
  rcases n.onWire_cases s wire now with ⟨m, ⟨state, evs, -, rfl⟩, hnone, heq⟩ |
    ⟨f, st, hd, hadm, heq⟩
  · have hheard : n.heardClaim s wire = none := by
      rw [heardClaim]
      split
      · rfl
      · rename_i f hf
        rw [hnone f hf]
    rw [heq, hheard, keepsRole_none]
  · rw [heq]
    simp only [heardClaim, hd, hadm]
    cases hopen : Sealer.open s st f.sequenceNo f.encryptedPayload with
    | mk result s' =>
        simp only [dispatch, hopen]
        cases st with
        | control =>
            cases result with
            | error e =>
                simp only [hopen, keepsRole_none]
                exact (rejected_emitErrNamed (n.record .control f) _ _ _ _ _).role.1
            | ok plain =>
                simp only [hopen]
                exact (n.record .control f).handleControl_role plain now
        | _ =>
            rw [keepsRole_none]
            cases result with
            | error e => exact (rejected_emitErrNamed (n.record _ f) _ _ _ _ _).role.1
            | ok plain => rfl

/-! One call and whole runs. -/

/-- The node is coordinator after the call, and the call reports nobody gone. -/
def StaysCoordinator (n : GroupNode) (x : TimedCall S) : Prop :=
  (n.step x).isCoordinator = true ∧ ∀ e ∈ n.emitted x, e.isCoordinatorGone = false

/-- A timeout check comes within the grace period of the recorded activity, and wire bytes deliver
no lower claim. Every other call is free. -/
def Undisturbed (n : GroupNode) (x : TimedCall S) : Prop :=
  match x.call with
  | .checkTimeouts => ¬ n.Overdue x.now
  | .onWire s wire => ∀ j, n.heardClaim s wire = some j → n.memberId ≤ j
  | _ => True

/-- A call that emits only events that report nobody gone keeps the role when its node does. -/
theorem staysCoordinator_of_emits {n : GroupNode} {x : TimedCall S} {evs : List Event}
    (hall : n.returned x ++ (n.step x).events = n.events ++ evs)
    (hquiet : ∀ e ∈ evs, e.isCoordinatorGone = false) (hrole : (n.step x).isCoordinator = true) :
    n.StaysCoordinator x := by
  refine ⟨hrole, ?_⟩
  rw [emitted_eq hall]
  exact hquiet

/-- A call that hands out no events keeps the role when its node does. -/
theorem staysCoordinator_of_adds {n : GroupNode} {x : TimedCall S} (hreturned : n.returned x = [])
    (hadds : Adds n (n.step x)) (hrole : (n.step x).isCoordinator = true) :
    n.StaysCoordinator x := by
  obtain ⟨evs, hevs, hquiet⟩ := hadds
  exact staysCoordinator_of_emits (by rw [hreturned, hevs, List.nil_append]) hquiet hrole

/-- Wire bytes cost the role exactly when they deliver a lower claim. -/
theorem staysCoordinator_onWire_iff {n : GroupNode} (h : n.isCoordinator = true) (s : S)
    (wire : Bytes) (now : Instant) :
    n.StaysCoordinator ⟨now, .onWire s wire⟩ ↔ n.Undisturbed ⟨now, .onWire s wire⟩ := by
  have hrole : (n.step ⟨now, .onWire s wire⟩).isCoordinator =
      n.keepsRole (n.heardClaim s wire) := n.onWire_role s wire now
  constructor
  · rintro ⟨hstays, -⟩ j hj
    rw [hrole, keepsRole, h, hj] at hstays
    simpa using hstays
  · intro hfree
    obtain ⟨m, hclass, hreturned, hnode⟩ := n.onWire_classified s wire now
    obtain ⟨evs, hevs, hquiet⟩ := hclass.adds
    have hall : n.returned ⟨now, .onWire s wire⟩ ++ (n.step ⟨now, .onWire s wire⟩).events =
        n.events ++ evs := by
      simp only [returned, step, hreturned, hnode, List.append_nil, hevs]
    refine staysCoordinator_of_emits hall hquiet ?_
    rw [hrole, keepsRole, h]
    cases hheard : n.heardClaim s wire with
    | none => rfl
    | some j => simpa using hfree j hheard

/-- A timeout check costs the role exactly when the recorded activity is overdue. -/
theorem staysCoordinator_checkTimeouts_iff {n : GroupNode} (h : n.isCoordinator = true)
    (now : Instant) :
    n.StaysCoordinator (⟨now, .checkTimeouts⟩ : TimedCall S) ↔
      n.Undisturbed (⟨now, .checkTimeouts⟩ : TimedCall S) := by
  obtain ⟨hsilent, hheard⟩ := n.checkTimeouts_role now
  constructor
  · rintro ⟨hstays, -⟩ hs
    exact absurd (hstays.symm.trans (hsilent hs)) (by simp)
  · intro hs
    obtain ⟨hrole, evs, hevs, hquiet⟩ := hheard hs
    exact staysCoordinator_of_emits ((List.append_nil _).trans hevs) hquiet (hrole.trans h)

/-- Sending a payload or a control message neither queues events nor touches the role or its
timer. -/
theorem sendPayload_silence (n : GroupNode) (s : S) (target : MemberId) (st : StreamType)
    (sid : StreamId) (flags : UInt16) (pt : Bytes) (codec : PayloadCodec) :
    let m := (n.sendPayload s target st sid flags pt codec).2.1
    m.events = n.events ∧ m.isCoordinator = n.isCoordinator ∧
      m.coordinatorLastSeen = n.coordinatorLastSeen := by
  obtain ⟨q, hq⟩ := n.sendPayload_node s target st sid flags pt codec
  rw [hq]
  exact ⟨rfl, rfl, rfl⟩

theorem sendControl_silence (n : GroupNode) (s : S) (target : MemberId) (op : ControlOpcode)
    (tid : TransitionId) (rid : UInt32) (args : Bytes) (now : Instant) :
    let m := (n.sendControl s target op tid rid args now).2.1
    m.events = n.events ∧ m.isCoordinator = n.isCoordinator ∧
      m.coordinatorLastSeen = n.coordinatorLastSeen := by
  obtain ⟨q, hq⟩ := n.sendControl_node s target op tid rid args now
  obtain ⟨pending, tstate, prep, exec, -, hm⟩ := n.mirrorControl_node op tid now
  rw [hq, hm]
  exact ⟨rfl, rfl, rfl⟩

/-- A coordinator stays one through a call exactly when the call does not disturb it. -/
theorem staysCoordinator_iff {n : GroupNode} (h : n.isCoordinator = true) (x : TimedCall S) :
    n.StaysCoordinator x ↔ n.Undisturbed x := by
  obtain ⟨now, call⟩ := x
  cases call with
  | onWire s wire => exact staysCoordinator_onWire_iff h s wire now
  | checkTimeouts => exact staysCoordinator_checkTimeouts_iff h now
  | sendPayload s target st sid flags pt codec =>
      obtain ⟨hevs, hrole, -⟩ := n.sendPayload_silence s target st sid flags pt codec
      exact iff_of_true (staysCoordinator_of_adds rfl (adds_of_events hevs) (hrole.trans h)) trivial
  | sendControl s target op tid rid args =>
      obtain ⟨hevs, hrole, -⟩ := n.sendControl_silence s target op tid rid args now
      exact iff_of_true (staysCoordinator_of_adds rfl (adds_of_events hevs) (hrole.trans h)) trivial
  | claimCoordinator s target =>
      obtain ⟨q, hq⟩ := n.claimCoordinator_node s target now
      have hstep : n.step ⟨now, .claimCoordinator s target⟩ = _ := hq
      refine iff_of_true (staysCoordinator_of_adds rfl ⟨[.becameCoordinator], ?_, ?_⟩ ?_) trivial
      · rw [hstep]
      · simp [Event.isCoordinatorGone]
      · rw [hstep]
  | applyTransition tid =>
      refine iff_of_true (staysCoordinator_of_adds rfl ⟨[_], rfl, ?_⟩ h) trivial
      simp [Event.isCoordinatorGone]
  | triggerResync =>
      obtain ⟨hadds, hrole⟩ := n.triggerResync_role
      exact iff_of_true (staysCoordinator_of_adds rfl hadds (hrole.trans h)) trivial
  | restoreOutSeq bytes =>
      obtain ⟨q, hq⟩ := n.restoreOutSeq_node bytes
      have hstep : n.step (⟨now, .restoreOutSeq bytes⟩ : TimedCall S) = _ := hq
      refine iff_of_true (staysCoordinator_of_adds rfl (adds_of_events ?_) ?_) trivial
      · rw [hstep]
      · rw [hstep]
        exact h
  | drainEvents =>
      have hall : n.returned (⟨now, .drainEvents⟩ : TimedCall S) ++
          (n.step (⟨now, .drainEvents⟩ : TimedCall S)).events = n.events ++ [] := rfl
      exact iff_of_true (staysCoordinator_of_emits hall (by simp) h) trivial

/-- Along every run after a coordinator claim, the node stays coordinator and is never reported
gone exactly when no call of the run disturbs it. -/
theorem live_coordinator_iff (n : GroupNode) (s : S) (target : MemberId) (start : Instant)
    (xs : List (TimedCall S)) :
    Machine.Along step StaysCoordinator (n.claimCoordinator s target start).2.1 xs ↔
      Machine.Along step Undisturbed (n.claimCoordinator s target start).2.1 xs := by
  obtain ⟨q, hclaim⟩ := n.claimCoordinator_node s target start
  refine Machine.along_congr (fun m => m.isCoordinator = true)
    (Machine.along_of_forall (fun _ _ => trivial) step _) ?_ ?_ ?_
  · rw [hclaim]
  · exact fun m x _ hm => staysCoordinator_iff hm x
  · exact fun m x _ _ hx => hx.1

/-- What a node sends does not count as activity of a coordinator. -/
theorem step_send_seen {n : GroupNode} {x : TimedCall S} (h : x.call.isSend = true) :
    (n.step x).coordinatorLastSeen = n.coordinatorLastSeen := by
  obtain ⟨now, call⟩ := x
  cases call with
  | sendPayload s target st sid flags pt codec =>
      exact (n.sendPayload_silence s target st sid flags pt codec).2.2
  | sendControl s target op tid rid args =>
      exact (n.sendControl_silence s target op tid rid args now).2.2
  | _ => cases h

theorem run_send_seen (n : GroupNode) {xs : List (TimedCall S)}
    (h : ∀ x ∈ xs, x.call.isSend = true) :
    (Machine.run step n xs).coordinatorLastSeen = n.coordinatorLastSeen := by
  induction xs generalizing n with
  | nil => rfl
  | cons x xs ih =>
      rw [Machine.run_cons, ih _ fun y hy => h y (List.mem_cons_of_mem x hy),
        step_send_seen (h x (List.mem_cons_self ..))]

/-- However busily a coordinator sends, the first timeout check past the grace period of its claim
deposes it. -/
theorem busy_coordinator_deposed (n : GroupNode) (s : S) (target : MemberId) (start : Instant)
    (xs : List (TimedCall S)) (hsends : ∀ x ∈ xs, x.call.isSend = true) (now : Instant)
    (hlate : Timeouts.tCoordinatorGraceMs ≤ UInt64.ofNat (millisSince now start)) :
    ((Machine.run step (n.claimCoordinator s target start).2.1 xs).checkTimeouts
      now).2.isCoordinator = false := by
  have hseen : (Machine.run step (n.claimCoordinator s target start).2.1 xs).coordinatorLastSeen =
      some start := by
    obtain ⟨q, hclaim⟩ := n.claimCoordinator_node s target start
    rw [run_send_seen _ hsends, hclaim]
  exact (checkTimeouts_role _ now).1 ⟨start, hseen, hlate⟩

end Runs

/-- A coordinator that claims at time zero and sends a PREPARE after six seconds deposes itself in
the timeout check four seconds later. -/
theorem live_coordinator_deposes_itself :
    let n := (new 1 (Vector.replicate 16 0)).bootstrapAsCreator 0
    let claimed := n.claimCoordinator PlainSealer.plain 0 0
    let sent := claimed.2.1.sendControl PlainSealer.plain 0 .prepareTransition 1 0 []
      (fromMillis 6000)
    claimed.1.isOk = true ∧ sent.1.isOk = true ∧ sent.2.1.isCoordinator = true ∧
      (sent.2.1.checkTimeouts (fromMillis 10000)).2.isCoordinator = false ∧
      ∃ e ∈ (sent.2.1.checkTimeouts (fromMillis 10000)).1, e.isCoordinatorGone = true := by
  decide +kernel

end GroupNode

end GroupProtocol
