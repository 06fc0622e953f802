import GroupProtocol.Lifecycle.Fatal
import GroupProtocol.Transition.Deadlines

/-!
# Runs and the two state machines

The specification gives both state machines as edge relations. The node's own state is
announced event by event, and the announcements chain. They leave the relation only when a
failed node fails again. The transition state is assigned without a look at its relation, so
a run keeps to the edges exactly when every assignment happens to find a state with an edge.
-/

namespace GroupProtocol

/-- The changes start at the state, follow each other and are edges of the node state
machine. -/
def Chained : NodeState → List (NodeState × NodeState) → Prop
  | _, [] => True
  | s, (source, target) :: rest =>
    source = s ∧ source.canTransitionTo target = true ∧ Chained target rest

instance decidableChained : (s : NodeState) → (changes : List (NodeState × NodeState)) →
    Decidable (Chained s changes)
  | _, [] => isTrue trivial
  | s, (source, target) :: rest =>
    have := decidableChained target rest
    inferInstanceAs (Decidable (source = s ∧ source.canTransitionTo target = true ∧ _))

namespace NodeState

/-- A request announces nothing and keeps the state, or announces the one change it makes. -/
theorem heed_cases (s : NodeState) (sig : Signal) :
    (s.heed sig).2 = [] ∧ (s.heed sig).1 = s ∨ (s.heed sig).2 = [(s, (s.heed sig).1)] := by
  cases sig with
  | quiet => exact Or.inl ⟨rfl, rfl⟩
  | fatal => exact Or.inr rfl
  | resync => cases s <;> decide
  | resynced => cases s <;> decide

theorem heed_chained_append (s : NodeState) (sig : Signal)
    (rest : List (NodeState × NodeState)) :
    Chained s ((s.heed sig).2 ++ rest) ↔
      Chained s (s.heed sig).2 ∧ Chained (s.heed sig).1 rest := by
  rcases s.heed_cases sig with ⟨hnil, hsame⟩ | hone
  · rw [hnil, hsame, List.nil_append]
    exact ⟨fun h => ⟨trivial, h⟩, fun h => h.2⟩
  · rw [hone]
    constructor
    · rintro ⟨hsource, hedge, hrest⟩
      exact ⟨⟨hsource, hedge, trivial⟩, hrest⟩
    · rintro ⟨⟨hsource, hedge, -⟩, hrest⟩
      exact ⟨hsource, hedge, hrest⟩

/-- The state is failed and the request would fail it again. -/
def failsAgain (s : NodeState) (sig : Signal) : Bool :=
  s == .failed && (sig == .fatal || sig == .resync)

/-- After bootstrap the only announcement off the edges is that of a node that fails again. -/
theorem heed_chained_iff {s : NodeState} (h : GroupNode.Reached true s) (sig : Signal) :
    Chained s (s.heed sig).2 ↔ s.failsAgain sig = false := by
  have hcases : s = .failed ∨ s = .active ∨ s = .resyncing := h
  rcases hcases with rfl | rfl | rfl
  · cases sig <;> decide
  · cases sig <;> decide
  · cases sig <;> decide

end NodeState

namespace TransitionState

/-- The state is kept or moves along an edge. -/
def Follows (source target : TransitionState) : Prop :=
  target = source ∨ source.canTransitionTo target = true

instance (source target : TransitionState) : Decidable (Follows source target) :=
  inferInstanceAs (Decidable (_ ∨ _))

/-- The states in which a PREPARE may be recorded. -/
def mayPrepare : TransitionState → Bool
  | tIdle => true
  | tPrepared => true
  | _ => false

/-- The states in which a READY may be recorded. -/
def mayReady : TransitionState → Bool
  | tCommitProcessed => true
  | tReady => true
  | _ => false

/-- The states in which a transition may be applied. -/
def mayExecute : TransitionState → Bool
  | tReady => true
  | tExecuted => true
  | _ => false

/-- The states in which a transition may be aborted. -/
def mayAbort : TransitionState → Bool
  | tPrepared => true
  | tCommitProcessed => true
  | tReady => true
  | tAborted => true
  | _ => false

theorem follows_prepared_iff (s : TransitionState) : s.Follows .tPrepared ↔ s.mayPrepare = true := by
  cases s <;> decide

theorem follows_ready_iff (s : TransitionState) : s.Follows .tReady ↔ s.mayReady = true := by
  cases s <;> decide

theorem follows_executed_iff (s : TransitionState) : s.Follows .tExecuted ↔ s.mayExecute = true := by
  cases s <;> decide

theorem follows_aborted_iff (s : TransitionState) : s.Follows .tAborted ↔ s.mayAbort = true := by
  cases s <;> decide

theorem follows_self (s : TransitionState) : s.Follows s := Or.inl rfl

end TransitionState

namespace Handshake

/-- A move assigns the transition state only where the assignment has an edge. -/
def steady (h : Handshake) (now : Instant) : Move → Bool
  | .send .prepareTransition _ => h.state.mayPrepare
  | .send .abortTransition _ => h.state.mayAbort
  | .accept .prepareTransition tid sender => h.Loses tid sender || h.state.mayPrepare
  | .accept .readyForTransition _ _ => h.state.mayReady
  | .accept .executeTransition _ _ => h.state.mayExecute
  | .accept .abortTransition _ _ => h.state.mayAbort
  | .apply _ => h.state.mayExecute
  | .check => !GroupNode.expired h.prepare now || h.state.mayAbort
  | _ => true

private theorem sent_follows_iff (h : Handshake) (now : Instant) (op : ControlOpcode)
    (tid : TransitionId) :
    h.state.Follows (h.sent now op tid).state ↔ h.steady now (.send op tid) = true := by
  cases op with
  | prepareTransition => exact h.state.follows_prepared_iff
  | abortTransition => exact h.state.follows_aborted_iff
  | _ => exact ⟨fun _ => rfl, fun _ => h.state.follows_self⟩

private theorem accepted_follows_iff (h : Handshake) (now : Instant) (op : ControlOpcode)
    (tid : TransitionId) (sender : MemberId) :
    h.state.Follows (h.accepted now op tid sender).state ↔
      h.steady now (.accept op tid sender) = true := by
  cases op with
  | prepareTransition =>
      rw [accepted, steady]
      by_cases hl : h.Loses tid sender
      · rw [if_pos hl, decide_eq_true hl, Bool.true_or]
        exact ⟨fun _ => rfl, fun _ => h.state.follows_self⟩
      · rw [if_neg hl, decide_eq_false hl, Bool.false_or]
        exact h.state.follows_prepared_iff
  | readyForTransition => exact h.state.follows_ready_iff
  | executeTransition => exact h.state.follows_executed_iff
  | abortTransition => exact h.state.follows_aborted_iff
  | _ => exact ⟨fun _ => rfl, fun _ => h.state.follows_self⟩

private theorem checked_follows_iff (h : Handshake) (now : Instant) :
    h.state.Follows (h.checked now).state ↔ h.steady now .check = true := by
  rw [checked, steady]
  by_cases hexp : GroupNode.expired h.prepare now = true
  · rw [if_pos hexp, hexp, Bool.not_true, Bool.false_or]
    exact h.state.follows_aborted_iff
  · rw [if_neg hexp, Bool.eq_false_iff.mpr hexp]
    refine ⟨fun _ => rfl, fun _ => ?_⟩
    split
    · exact h.state.follows_self
    · exact h.state.follows_self

/-- A move follows an edge exactly when its assignment has one. -/
theorem moved_follows_iff (h : Handshake) (now : Instant) (m : Move) :
    h.state.Follows (h.moved now m).state ↔ h.steady now m = true := by
  cases m with
  | rest => exact ⟨fun _ => rfl, fun _ => h.state.follows_self⟩
  | send op tid => exact h.sent_follows_iff now op tid
  | accept op tid sender => exact h.accepted_follows_iff now op tid sender
  | apply tid => exact h.state.follows_executed_iff
  | check => exact h.checked_follows_iff now

end Handshake

namespace GroupNode

theorem bootstrapped_changes (id : MemberId) (gid : GroupId) (b : Bootstrap) :
    (bootstrapped id gid b).state = .active ∧
      (bootstrapped id gid b).events.filterMap Event.stateChange =
        [(.idle, .connecting), (.connecting, .establishingGroup),
          (.establishingGroup, .active)] ∧
      TransitionState.tIdle.Follows (bootstrapped id gid b).transitionState := by
  cases b with
  | creator epoch => exact ⟨rfl, rfl, Or.inl rfl⟩
  | joiner epoch tid =>
      rw [bootstrapped, bootstrapAsJoiner_new]
      refine ⟨rfl, rfl, ?_⟩
      dsimp only
      split
      · exact Or.inr rfl
      · exact Or.inl rfl

section Runs

variable [Ciborium] {S : Type} [Sealer S]

/-- The changes of state a call announces. -/
def changes (n : GroupNode) (x : TimedCall S) : List (NodeState × NodeState) :=
  (n.emitted x).filterMap Event.stateChange

/-- A failed node is not failed again, and the transition state is assigned only where the
assignment has an edge. -/
def conforms (n : GroupNode) (x : TimedCall S) : Bool :=
  !n.state.failsAgain (n.signal x) && n.handshake.steady x.now (n.move x)

theorem conforms_iff {n : GroupNode} {x : TimedCall S} :
    n.conforms x = true ↔ n.state.failsAgain (n.signal x) = false ∧
      n.transitionState.Follows (n.step x).transitionState := by
  have hfollows : n.transitionState.Follows (n.step x).transitionState ↔
      n.handshake.steady x.now (n.move x) = true := by
    rw [← Handshake.moved_follows_iff, ← step_handshake]
    rfl
  rw [conforms, Bool.and_eq_true, Bool.not_eq_true', hfollows]

/-- The announcements of a run chain exactly when no failed node is failed again. -/
theorem observe_chained_iff {n : GroupNode} {xs : List (TimedCall S)}
    (hn : Reached true n.state) :
    Chained n.state (Machine.observe step changes n xs) ↔
      Machine.Along step (fun n x => n.state.failsAgain (n.signal x) = false) n xs := by
  induction xs generalizing n with
  | nil => exact ⟨fun _ => trivial, fun _ => trivial⟩
  | cons x xs ih =>
      have hsig := n.step_signal x
      have hnext : Reached true (n.step x).state := by
        rw [hsig.state]
        exact hn.heed _
      have hchanges : n.changes x = (n.state.heed (n.signal x)).2 := hsig.changes
      rw [Machine.observe_cons, Machine.Along, hchanges, NodeState.heed_chained_append,
        NodeState.heed_chained_iff hn, ← hsig.state, ih hnext]

/-- Over every run of a node from its bootstrap on: the changes of state it announces form a
chain of edges that starts at idle, and every change of the transition state, bootstrap
included, follows an edge, exactly when no failed node is failed again and every assignment
of the transition state finds a state with an edge. -/
theorem run_conforms_iff (id : MemberId) (gid : GroupId) (b : Bootstrap)
    (xs : List (TimedCall S)) :
    (Chained .idle ((bootstrapped id gid b).events.filterMap Event.stateChange ++
          Machine.observe step changes (bootstrapped id gid b) xs) ∧
        TransitionState.tIdle.Follows (bootstrapped id gid b).transitionState ∧
        Machine.Along step (fun n x => n.transitionState.Follows (n.step x).transitionState)
          (bootstrapped id gid b) xs) ↔
      Machine.Along step (fun n x => n.conforms x = true) (bootstrapped id gid b) xs := by
  obtain ⟨hstate, hchanges, hfollows⟩ := bootstrapped_changes id gid b
  have hreached : Reached true (bootstrapped id gid b).state := Or.inr (Or.inl hstate)
  have hchain : Chained .idle ((bootstrapped id gid b).events.filterMap Event.stateChange ++
        Machine.observe step changes (bootstrapped id gid b) xs) ↔
      Machine.Along step (fun n x => n.state.failsAgain (n.signal x) = false)
        (bootstrapped id gid b) xs := by
    rw [← observe_chained_iff hreached, hchanges, hstate]
    constructor
    · rintro ⟨-, -, -, -, -, -, h⟩
      exact h
    · intro h
      exact ⟨rfl, rfl, rfl, rfl, rfl, rfl, h⟩
  constructor
  · rintro ⟨hann, -, hedges⟩
    refine Machine.along_mono ((hchain.mp hann).and hedges) ?_
    intro n x h
    exact conforms_iff.mpr h
  · intro hconf
    refine ⟨hchain.mpr (Machine.along_mono hconf ?_), hfollows, Machine.along_mono hconf ?_⟩
    · intro n x h
      exact (conforms_iff.mp h).1
    · intro n x h
      exact (conforms_iff.mp h).2

end Runs

/-- A frame of another group, received twice. -/
def strayFrames : List (TimedCall PlainSealer) :=
  let wire := (GbpFrame.new (Vector.replicate 16 1) 0 0 .text 100 0 1 [] 0).toCbor
  [⟨0, .onWire .plain wire⟩, ⟨1, .onWire .plain wire⟩]

/-- A node announces that it failed from failed, and a READY takes the transition state from
prepared to ready without the commit in between. -/
theorem forbidden_edges_taken :
    let n := bootstrapped 2 (Vector.replicate 16 0) (.creator 0)
    let ready := [toGroup 0 .prepareTransition 1, fromMemberOne 1 0 1 .readyForTransition 1]
    Machine.observe step changes n strayFrames = [(.active, .failed), (.failed, .failed)] ∧
      ¬Chained .idle (n.events.filterMap Event.stateChange ++
        Machine.observe step changes n strayFrames) ∧
      (Machine.run step n (ready.take 1)).transitionState = .tPrepared ∧
      (Machine.run step n ready).transitionState = .tReady ∧
      ¬Machine.Along step (fun n x => n.transitionState.Follows (n.step x).transitionState) n
        ready := by
  decide +kernel

end GroupNode

end GroupProtocol
