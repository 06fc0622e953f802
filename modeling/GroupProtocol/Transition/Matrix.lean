import GroupProtocol.Transition.Deadlines

/-!
# The sender and the transition matrix

A receiver refuses a control message whose transition the matrix does not permit. A sender
mirrors the opcode into its own context without asking the matrix. The two agree exactly
where the matrix permits the send, and where the assignments of the opcode happen to write
what is already there.
-/

namespace GroupProtocol

/-- The four opcodes of a transition. -/
def ControlOpcode.isTransition : ControlOpcode → Bool
  | .prepareTransition => true
  | .readyForTransition => true
  | .executeTransition => true
  | .abortTransition => true
  | _ => false

/-- The event reports a transition mismatch. -/
def Event.isMismatch : Event → Bool
  | .error code _ _ _ _ => code == Codes.transitionMismatch
  | _ => false

namespace GroupNode

/-- The pending transition, its state and both deadlines are the same. -/
structure SameContext (n m : GroupNode) : Prop where
  pending : m.pendingTransitionId = n.pendingTransitionId
  state : m.transitionState = n.transitionState
  prepare : m.prepareDeadline = n.prepareDeadline
  execute : m.executeDeadline = n.executeDeadline

/-- Handling a message queued a transition mismatch. -/
def mismatched (n m : GroupNode) : Bool := (m.events.drop n.events.length).any Event.isMismatch

/-- The sends outside the matrix that are safe: an EXECUTE without deadlines, an ABORT of nothing
after an ABORT, and a PREPARE or READY repeated at the same reading of the clock. These are the
sends that find what they write already there. -/
def Mirrored (n : GroupNode) (op : ControlOpcode) (tid : TransitionId) (now : Instant) : Prop :=
  match op with
  | .prepareTransition =>
    n.pendingTransitionId = tid ∧ n.transitionState = .tPrepared ∧
      n.prepareDeadline = some (now + fromMillis Timeouts.tPrepareMaxMs) ∧
      n.executeDeadline = none
  | .readyForTransition =>
    n.executeDeadline = some (now + fromMillis Timeouts.tExecuteMaxMs)
  | .executeTransition => n.prepareDeadline = none ∧ n.executeDeadline = none
  | .abortTransition =>
    n.pendingTransitionId = 0 ∧ n.transitionState = .tAborted ∧ n.prepareDeadline = none ∧
      n.executeDeadline = none
  | _ => True

theorem mirrorControl_sameContext_iff (n : GroupNode) (op : ControlOpcode) (tid : TransitionId)
    (now : Instant) : SameContext n (n.mirrorControl op tid now) ↔ n.Mirrored op tid now := by
  cases op with
  | prepareTransition =>
      constructor
      · rintro ⟨hp, hs, hd, he⟩
        exact ⟨hp.symm, hs.symm, hd.symm, he.symm⟩
      · rintro ⟨hp, hs, hd, he⟩
        exact ⟨hp.symm, hs.symm, hd.symm, he.symm⟩
  | readyForTransition =>
      constructor
      · intro h
        exact h.execute.symm
      · intro h
        exact ⟨rfl, rfl, rfl, h.symm⟩
  | executeTransition =>
      constructor
      · intro h
        exact ⟨h.prepare.symm, h.execute.symm⟩
      · rintro ⟨hd, he⟩
        exact ⟨rfl, rfl, hd.symm, he.symm⟩
  | abortTransition =>
      constructor
      · rintro ⟨hp, hs, hd, he⟩
        exact ⟨hp.symm, hs.symm, hd.symm, he.symm⟩
      · rintro ⟨hp, hs, hd, he⟩
        exact ⟨hp.symm, hs.symm, hd.symm, he.symm⟩
  | _ => exact ⟨fun _ => trivial, fun _ => ⟨rfl, rfl, rfl, rfl⟩⟩

/-- An accepted opcode of a transition queues no mismatch. -/
theorem applyControl_mismatched {n : GroupNode} {op : ControlOpcode} (c : ControlMessage)
    (now : Instant) (e : Event) (hop : op.isTransition = true) (he : e.isMismatch = false) :
    n.mismatched ((n.applyControl op c now).push e) = false := by
  have hplain : ∀ m : GroupNode, m.events = n.events → n.mismatched (m.push e) = false := by
    intro m hm
    simp only [mismatched, push, hm, List.drop_left, List.any_cons, List.any_nil, he,
      Bool.or_false]
  cases op with
  | prepareTransition =>
      apply hplain
      rw [applyControl]
      split <;> rfl
  | readyForTransition => exact hplain _ rfl
  | executeTransition =>
      simp only [mismatched, applyControl_execute, push, List.append_assoc, List.drop_left,
        List.cons_append, List.nil_append, List.any_cons, List.any_nil, he, Bool.or_false]
      rfl
  | abortTransition => exact hplain _ rfl
  | _ => cases hop

/-- The pending transition a permitted opcode leaves at a sender and at a receiver is the
same, EXECUTE apart. -/
theorem mirrorControl_pending {n : GroupNode} {op : ControlOpcode} (c : ControlMessage)
    (now later : Instant) (hop : op.isTransition = true) (hne : op ≠ .executeTransition) :
    (n.mirrorControl op c.transitionId now).pendingTransitionId =
      (n.applyControl op c later).pendingTransitionId := by
  cases op with
  | prepareTransition =>
      rw [applyControl]
      split
      · rename_i hl
        exact (prepareLoses_iff.mp hl).1.symm
      · rfl
  | readyForTransition => rfl
  | executeTransition => exact absurd rfl hne
  | abortTransition => rfl
  | _ => cases hop

section Runs

variable [Ciborium] {S : Type} [Sealer S]

/-- The verdict of a receiver in the same state on a message with this opcode and
transition. -/
theorem handleControl_mismatched_iff {n : GroupNode} {plain : Bytes} {c : ControlMessage}
    {op : ControlOpcode} (now : Instant) (hc : ControlMessage.fromCbor plain = .ok c)
    (hcop : ControlOpcode.tryFrom c.opcode = .ok op) (hop : op.isTransition = true) :
    n.mismatched (n.handleControl plain now) = true ↔ n.tidOk op c.transitionId = false := by
  by_cases htid : n.tidOk op c.transitionId = true
  · rw [handleControl_ok now hc hcop htid, applyControl_mismatched c now _ hop rfl, htid]
    exact ⟨nofun, nofun⟩
  · have hfalse := Bool.eq_false_iff.mpr htid
    refine ⟨fun _ => hfalse, fun _ => ?_⟩
    simp only [handleControl, hc, hcop, hfalse, Bool.not_false, if_true]
    have hreport : ∀ reason, n.emitErrSpec Codes.transitionMismatch reason =
        n.push (.error Codes.transitionMismatch .state true false reason) := fun _ => rfl
    rw [hreport]
    simp only [mismatched, push, List.drop_left]
    rfl

/-- The sender obeys the receiver's verdict: a rejected opcode and transition change nothing
in the sender's context, and an accepted one sets the pending transition the receiver would
set, EXECUTE apart. -/
structure Obeys (n sender receiver : GroupNode) (op : ControlOpcode) : Prop where
  rejected : n.mismatched receiver = true → SameContext n sender
  accepted : n.mismatched receiver = false → op ≠ .executeTransition →
    sender.pendingTransitionId = receiver.pendingTransitionId

theorem sendControl_sameContext_iff (n : GroupNode) (s : S) (target : MemberId)
    (op : ControlOpcode) (tid : TransitionId) (rid : UInt32) (args : Bytes) (now : Instant) :
    SameContext n (n.sendControl s target op tid rid args now).2.1 ↔ n.Mirrored op tid now := by
  obtain ⟨q, hq⟩ := n.sendControl_node s target op tid rid args now
  rw [hq, ← mirrorControl_sameContext_iff]
  constructor
  · rintro ⟨hp, hs, hd, he⟩
    exact ⟨hp, hs, hd, he⟩
  · rintro ⟨hp, hs, hd, he⟩
    exact ⟨hp, hs, hd, he⟩

theorem sendControl_obeys_iff (n : GroupNode) (s : S) (target : MemberId) {op : ControlOpcode}
    (rid : UInt32) (args : Bytes) (now : Instant) {plain : Bytes} {c : ControlMessage}
    (later : Instant) (hop : op.isTransition = true)
    (hc : ControlMessage.fromCbor plain = .ok c)
    (hcop : ControlOpcode.tryFrom c.opcode = .ok op) :
    Obeys n (n.sendControl s target op c.transitionId rid args now).2.1
        (n.handleControl plain later) op ↔
      n.tidOk op c.transitionId = true ∨ n.Mirrored op c.transitionId now := by
  have hverdict := handleControl_mismatched_iff (n := n) later hc hcop hop
  constructor
  · intro hobeys
    by_cases htid : n.tidOk op c.transitionId = true
    · exact Or.inl htid
    · have hmis := hverdict.mpr (Bool.eq_false_iff.mpr htid)
      exact Or.inr ((sendControl_sameContext_iff ..).mp (hobeys.rejected hmis))
  · intro hcond
    constructor
    · intro hmis
      have htid := hverdict.mp hmis
      rcases hcond with hok | hmir
      · rw [htid] at hok
        cases hok
      · exact (sendControl_sameContext_iff ..).mpr hmir
    · intro hmis hne
      have htid : n.tidOk op c.transitionId = true := by
        by_contra hbad
        rw [hverdict.mpr (Bool.eq_false_iff.mpr hbad)] at hmis
        cases hmis
      obtain ⟨q, hq⟩ := n.sendControl_node s target op c.transitionId rid args now
      rw [hq, handleControl_ok later hc hcop htid]
      exact mirrorControl_pending c now later hop hne

/-- A send the matrix permits, or one of the safe ones outside it. -/
def SendsInOrder (n : GroupNode) (x : TimedCall S) : Prop :=
  ∃ s target op tid rid args, x.call = .sendControl s target op tid rid args ∧
    (n.tidOk op tid = true ∨ n.Mirrored op tid x.now)

/-- A call makes no transition pending that is not newer than the applied one, and a PREPARE
does not replace another pending transition. -/
structure KeepsPending (n : GroupNode) (x : TimedCall S) : Prop where
  newer : (n.step x).pendingTransitionId ≠ n.pendingTransitionId →
    (n.step x).pendingTransitionId = 0 ∨ n.lastTransitionId < (n.step x).pendingTransitionId
  single : ∀ s target tid rid args, x.call = .sendControl s target .prepareTransition tid rid args →
    n.pendingTransitionId ≠ 0 → tid ≠ n.pendingTransitionId →
      (n.step x).pendingTransitionId = n.pendingTransitionId

theorem step_keepsPending {n : GroupNode} {x : TimedCall S} (hx : n.SendsInOrder x) :
    n.KeepsPending x := by
  obtain ⟨s, target, op, tid, rid, args, hcall, hcond⟩ := hx
  obtain ⟨q, hq⟩ := n.sendControl_node s target op tid rid args x.now
  have hpending : (n.step x).pendingTransitionId =
      (n.mirrorControl op tid x.now).pendingTransitionId := by
    have hstep : n.step x = { n.mirrorControl op tid x.now with outSeq := q } := by
      rw [step, hcall]
      exact hq
    rw [hstep]
  have hprep : op = .prepareTransition →
      n.lastTransitionId < tid ∧ (n.pendingTransitionId = 0 ∨ n.pendingTransitionId = tid) ∨
        n.pendingTransitionId = tid := by
    rintro rfl
    rcases hcond with hok | hmir
    · exact Or.inl (tidOk_iff.mp hok)
    · exact Or.inr hmir.1
  constructor
  · intro hchanged
    rw [hpending] at hchanged ⊢
    cases op with
    | prepareTransition =>
        rcases hprep rfl with ⟨hlt, -⟩ | hsame
        · exact Or.inr hlt
        · exact absurd hsame.symm hchanged
    | abortTransition => exact Or.inl rfl
    | _ => exact absurd rfl hchanged
  · intro s' target' tid' rid' args' hcall' hne hother
    rw [hcall] at hcall'
    cases hcall'
    rcases hprep rfl with ⟨-, hz | hsame⟩ | hsame
    · exact absurd hz hne
    · exact absurd hsame.symm hother
    · exact absurd hsame.symm hother

/-- In every state, for every opcode of a transition and every transition id, the sender
obeys the receiver's verdict exactly when the matrix permits the send or it is one of the safe
ones outside the matrix: an EXECUTE without deadlines, an ABORT of nothing after an ABORT, a
PREPARE or READY repeated at the same reading of the clock. Over every run of such sends, no
transition becomes pending that is not newer than the applied one, and no PREPARE replaces another
pending transition. -/
theorem sender_obeys_matrix_iff (n : GroupNode) (s : S) (target : MemberId) (op : ControlOpcode)
    (rid : UInt32) (args : Bytes) (now : Instant) (plain : Bytes) (c : ControlMessage)
    (later : Instant) (hop : op.isTransition = true)
    (hc : ControlMessage.fromCbor plain = .ok c)
    (hcop : ControlOpcode.tryFrom c.opcode = .ok op) :
    (Obeys n (n.sendControl s target op c.transitionId rid args now).2.1
        (n.handleControl plain later) op ↔
      n.tidOk op c.transitionId = true ∨ n.Mirrored op c.transitionId now) ∧
    ∀ xs : List (TimedCall S), Machine.Along step SendsInOrder n xs →
      Machine.Along step KeepsPending n xs := by
  refine ⟨sendControl_obeys_iff n s target rid args now later hop hc hcop, ?_⟩
  intro xs hxs
  apply Machine.along_mono hxs
  intro m x hx
  exact step_keepsPending hx

end Runs

/-- A node with transition 1 pending is told to PREPARE transition 2. -/
def secondPrepare : ControlMessage :=
  ControlMessage.withArgs ControlOpcode.prepareTransition.asU16 0 2 2 []

/-- The issuer of transition 1. -/
def issuedOne : GroupNode :=
  Machine.run step (bootstrapped 2 (Vector.replicate 16 0) (.creator 0))
    [toGroup 0 .prepareTransition 1]

/-- A second PREPARE replaces the pending transition at its sender, where a receiver in the
same state rejects it. -/
theorem second_prepare_replaces :
    let sender := (issuedOne.sendControl PlainSealer.plain 0 .prepareTransition 2 0 [] 1).2.1
    let receiver := issuedOne.handleControl secondPrepare.toCbor 1
    issuedOne.mismatched receiver = true ∧ issuedOne.pendingTransitionId = 1 ∧
      sender.pendingTransitionId = 2 ∧ ¬Obeys issuedOne sender receiver .prepareTransition := by
  intro sender receiver
  have hmis : issuedOne.mismatched receiver = true := by decide +kernel
  have hone : issuedOne.pendingTransitionId = 1 := by decide +kernel
  have htwo : sender.pendingTransitionId = 2 := by decide +kernel
  refine ⟨hmis, hone, htwo, ?_⟩
  intro hobeys
  have hsame := (hobeys.rejected hmis).pending
  rw [hone, htwo] at hsame
  exact absurd hsame (by decide)

theorem sender_obeys_matrix_first :
    let n := bootstrapped 2 (Vector.replicate 16 0) (.creator 0)
    Obeys n (n.sendControl PlainSealer.plain 0 .prepareTransition 2 0 [] 1).2.1
      (n.handleControl secondPrepare.toCbor 1) .prepareTransition :=
  (sender_obeys_matrix_iff (bootstrapped 2 (Vector.replicate 16 0) (.creator 0))
    PlainSealer.plain 0 .prepareTransition 0 [] 1 secondPrepare.toCbor secondPrepare 1 rfl
    (by decide +kernel) (by decide +kernel)).1.mpr (Or.inl (by decide +kernel))

end GroupNode

end GroupProtocol
