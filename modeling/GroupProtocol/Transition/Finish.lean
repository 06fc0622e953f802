import GroupProtocol.Base.Serde
import GroupProtocol.Transition.Handshake

/-!
# Who finishes a transition

A received EXECUTE or ABORT is matched against the pending transition id and nothing
else. It takes effect exactly when it names the pending transition, whoever sent it, and
otherwise leaves the transition context alone.
-/

namespace GroupProtocol

/-- The two opcodes that finish a transition. -/
def ControlOpcode.finishes : ControlOpcode → Bool
  | .executeTransition => true
  | .abortTransition => true
  | _ => false

namespace GroupNode

/-- The five fields of the transition context are the same. -/
structure SameTransition (n m : GroupNode) : Prop where
  epoch : m.currentEpoch = n.currentEpoch
  last : m.lastTransitionId = n.lastTransitionId
  pending : m.pendingTransitionId = n.pendingTransitionId
  sender : m.pendingCommitSender = n.pendingCommitSender
  state : m.transitionState = n.transitionState

/-- The pending transition is finished: applied by an EXECUTE, dropped by an ABORT. -/
structure Finished (n m : GroupNode) (op : ControlOpcode) : Prop where
  epoch : m.currentEpoch =
    if op = .executeTransition then n.currentEpoch + 1 else n.currentEpoch
  last : m.lastTransitionId =
    if op = .executeTransition then n.pendingTransitionId else n.lastTransitionId
  pending : m.pendingTransitionId = 0
  sender : m.pendingCommitSender = none
  state : m.transitionState = if op = .executeTransition then .tExecuted else .tAborted

section Runs

variable [Ciborium] {S : Type} [Sealer S]

/-- Only the recorded committer finishes: an EXECUTE that advances the epoch and an ABORT
that clears the pending transition come from it, and neither takes effect from anyone else. -/
def WinnerFinishes (n : GroupNode) (x : TimedCall S) : Prop :=
  ∀ op c w, n.receivedControl x = some (op, c) → op.finishes = true →
    n.pendingCommitSender = some w → c.senderId ≠ w → SameTransition n (n.step x)

/-- Over every run of a node, a received EXECUTE or ABORT finishes the pending transition
exactly when it names it, whoever its sender and the recorded committer are; every other
EXECUTE or ABORT leaves the transition context unchanged. -/
theorem finish_iff_names_pending (id : MemberId) (gid : GroupId) (b : Bootstrap)
    (xs : List (TimedCall S)) (x : TimedCall S) (op : ControlOpcode) (c : ControlMessage)
    (hop : op.finishes = true)
    (hrecv : (Machine.run step (bootstrapped id gid b) xs).receivedControl x = some (op, c)) :
    let n := Machine.run step (bootstrapped id gid b) xs
    (n.pendingTransitionId ≠ 0 ∧ c.transitionId = n.pendingTransitionId →
        Finished n (n.step x) op) ∧
      (¬(n.pendingTransitionId ≠ 0 ∧ c.transitionId = n.pendingTransitionId) →
        SameTransition n (n.step x)) := by
  generalize hn : Machine.run step (bootstrapped id gid b) xs = n at hrecv
  intro n'
  have htid : n.tidOk op c.transitionId = true ↔
      n.pendingTransitionId ≠ 0 ∧ c.transitionId = n.pendingTransitionId := by
    cases op with
    | executeTransition => simp [tidOk]
    | abortTransition => simp [tidOk]
    | _ => cases hop
  obtain ⟨f, hf⟩ := step_receivedControl hrecv
  constructor
  · intro hnames
    rw [if_pos (htid.mpr hnames)] at hf
    cases op with
    | executeTransition =>
        rw [applyControl_execute, hnames.2] at hf
        rw [hf]
        exact ⟨rfl, rfl, rfl, rfl, rfl⟩
    | abortTransition =>
        rw [hf]
        exact ⟨rfl, rfl, rfl, rfl, rfl⟩
    | _ => cases hop
  · intro hother
    rw [if_neg (mt htid.mp hother)] at hf
    obtain ⟨state, hf⟩ := hf
    rw [hf]
    exact ⟨rfl, rfl, rfl, rfl, rfl⟩

end Runs

/-- A control message from a member as node 2 receives it in epoch zero. -/
def controlFrom (sender : MemberId) (op : ControlOpcode) (tid : TransitionId) :
    TimedCall PlainSealer :=
  ⟨0, .onWire .plain (GbpFrame.new (Vector.replicate 16 0) 0 0 .control (sender * 100) 0 1
    (ControlMessage.withArgs op.asU16 0 sender tid []).toCbor 0).toCbor⟩

/-- Node 2 after a PREPARE of member 1. -/
def preparedByOne : GroupNode :=
  Machine.run step (bootstrapped 2 (Vector.replicate 16 0) (.creator 0))
    [controlFrom 1 .prepareTransition 1]

/-- With member 1 recorded as committer, an EXECUTE of member 3 advances the epoch. -/
theorem other_member_executes :
    preparedByOne.pendingCommitSender = some 1 ∧
      (preparedByOne.step (controlFrom 3 .executeTransition 1)).currentEpoch = 1 ∧
      ¬preparedByOne.WinnerFinishes (controlFrom 3 .executeTransition 1) := by
  refine ⟨by decide +kernel, by decide +kernel, ?_⟩
  intro h
  have hsame := h .executeTransition (ControlMessage.withArgs 3 0 3 1 []) 1 (by decide +kernel)
    rfl (by decide +kernel) (by decide)
  exact absurd hsame.epoch (by decide +kernel)

theorem finish_iff_names_pending_preparedByOne :
    Finished preparedByOne (preparedByOne.step (controlFrom 3 .executeTransition 1))
      .executeTransition :=
  (finish_iff_names_pending 2 (Vector.replicate 16 0) (.creator 0)
    [controlFrom 1 .prepareTransition 1] (controlFrom 3 .executeTransition 1) .executeTransition
    (ControlMessage.withArgs 3 0 3 1 []) rfl (by decide +kernel)).1 (by decide +kernel)

end GroupNode

end GroupProtocol
