import GroupProtocol.Base.Serde
import GroupProtocol.Node.Calls

/-!
# Transitions only move forward

Against arbitrary received bytes, arbitrary provider answers and arbitrary timers, a
pending transition is always newer than the applied one. The epoch and the applied
transition change only together, in a step that announces the change, and the announced
transitions strictly increase.
-/

namespace GroupProtocol

/-- Every call but an own application of a transition and an own PREPARE. -/
def TimedCall.follows {S : Type} (x : TimedCall S) : Bool :=
  match x.call with
  | .applyTransition _ => false
  | .sendControl _ _ op _ _ _ => op != .prepareTransition
  | _ => true

/-- The epoch and the transition an event announces. -/
def Event.advance : Event → Option (UInt64 × TransitionId)
  | .epochAdvanced epoch tid => some (epoch, tid)
  | _ => none

namespace GroupNode

/-- A pending transition is newer than the applied one. -/
def PendingNewer (n : GroupNode) : Prop :=
  n.pendingTransitionId = 0 ∨ n.lastTransitionId < n.pendingTransitionId

theorem bootstrapped_pendingNewer (id : MemberId) (gid : GroupId) (b : Bootstrap) :
    (bootstrapped id gid b).PendingNewer := by
  rw [PendingNewer, bootstrapped_last]
  by_cases h : (bootstrapped id gid b).pendingTransitionId = 0
  · exact Or.inl h
  · exact Or.inr (by grind)

section Runs

variable [Ciborium] {S : Type} [Sealer S]

/-- The epoch changes a call announces. -/
def announced (n : GroupNode) (x : TimedCall S) : List (UInt64 × TransitionId) :=
  (n.emitted x).filterMap Event.advance

/-- The epoch changes announced along a run, oldest first. -/
def advances (n : GroupNode) (xs : List (TimedCall S)) : List (UInt64 × TransitionId) :=
  Machine.observe step announced n xs

/-- A call announces nothing and keeps the epoch and the applied transition, or announces
exactly the next epoch and the transition it applies. -/
def AdvancesByOne (n : GroupNode) (x : TimedCall S) : Prop :=
  (n.announced x = [] ∧ (n.step x).currentEpoch = n.currentEpoch ∧
      (n.step x).lastTransitionId = n.lastTransitionId) ∨
    ∃ tid, n.announced x = [(n.currentEpoch + 1, tid)] ∧
      (n.step x).currentEpoch = n.currentEpoch + 1 ∧ (n.step x).lastTransitionId = tid

omit [Ciborium] [Sealer S] in
private theorem advance_local {evs : List Event} (h : ∀ e ∈ evs, e.isLocal = true) :
    evs.filterMap Event.advance = [] := by
  refine List.filterMap_eq_nil_iff.mpr fun e he => ?_
  have := h e he
  cases e <;> first | rfl | cases this

/-- One call of a following node: the pending transition stays newer, and an announced
transition is newer than the applied one. -/
theorem step_monotone {n : GroupNode} {x : TimedCall S} (hx : x.follows = true)
    (hn : n.PendingNewer) :
    (n.step x).PendingNewer ∧ n.AdvancesByOne x ∧
      (∀ a ∈ n.announced x, n.lastTransitionId < a.2) ∧
      n.lastTransitionId ≤ (n.step x).lastTransitionId := by
  cases n.step_effect x with
  | quiet keeps window admits pending events =>
      have hann : n.announced x = [] := advance_local events
      refine ⟨?_, Or.inl ⟨hann, keeps.epoch, keeps.last⟩, by simp [hann], ?_⟩
      · rw [PendingNewer, keeps.last]
        rcases pending with h | h | ⟨s, target, tid, rid, args, h⟩
        · rw [h]
          exact hn
        · exact Or.inl h
        · simp only [TimedCall.follows, h] at hx
          exact absurd hx (by decide)
      · rw [keeps.last]
        grind
  | applied tid call =>
      simp only [TimedCall.follows, call] at hx
      cases hx
  | received s wire f st call decode admits keeps window pending evs data own surfaces events =>
      have hann : n.announced x = [] := by
        rw [announced, events, List.filterMap_append, advance_local own, List.nil_append]
        cases surfaces <;> rfl
      refine ⟨?_, Or.inl ⟨hann, keeps.epoch, keeps.last⟩, by simp [hann], ?_⟩
      · rw [PendingNewer, keeps.last]
        rcases pending with h | h | h
        · rw [h]
          exact hn
        · exact Or.inl h
        · exact Or.inr h
      · rw [keeps.last]
        grind
  | executed s wire f plain c call decode admits opens message opcode pending names next events =>
      have hann : n.announced x = [(n.currentEpoch + 1, n.pendingTransitionId)] := by
        rw [announced, events]
        rfl
      have hlt : n.lastTransitionId < n.pendingTransitionId := hn.resolve_left pending
      refine ⟨Or.inl (by rw [next]), Or.inr ⟨_, hann, by rw [next], by rw [next]⟩, ?_, ?_⟩
      · intro a ha
        rw [hann] at ha
        rw [List.mem_singleton.mp ha]
        exact hlt
      · rw [next]
        grind

/-- The pending transition stays newer along a run. -/
theorem run_pendingNewer {n : GroupNode} {xs : List (TimedCall S)} (hn : n.PendingNewer)
    (hx : ∀ x ∈ xs, x.follows = true) : (Machine.run step n xs).PendingNewer :=
  Machine.run_invariant hn fun _ _ hy ht => (step_monotone (hx _ hy) ht).1

/-- Announced transitions strictly increase and stay above the transition applied first. -/
theorem advances_increasing {n : GroupNode} {xs : List (TimedCall S)} (hn : n.PendingNewer)
    (hx : ∀ x ∈ xs, x.follows = true) :
    ((n.advances xs).map Prod.snd).Pairwise (· < ·) ∧
      ∀ a ∈ n.advances xs, n.lastTransitionId < a.2 := by
  induction xs generalizing n with
  | nil => exact ⟨List.Pairwise.nil, by simp [advances]⟩
  | cons x xs ih =>
      obtain ⟨hnext, hone, hnew, hle⟩ := step_monotone (hx x (List.mem_cons_self ..)) hn
      obtain ⟨hsorted, hlow⟩ := ih hnext fun y hy => hx y (List.mem_cons_of_mem _ hy)
      have hsplit : n.advances (x :: xs) = n.announced x ++ (n.step x).advances xs := rfl
      rw [hsplit]
      constructor
      · rw [List.map_append, List.pairwise_append]
        rcases hone with ⟨hnil, -, -⟩ | ⟨tid, hann, -, hlast⟩
        · rw [hnil]
          exact ⟨List.Pairwise.nil, hsorted, by simp⟩
        · rw [hann]
          refine ⟨List.pairwise_singleton _ _, hsorted, ?_⟩
          intro a ha b hb
          obtain ⟨c, hc, rfl⟩ := List.mem_map.mp hb
          rw [List.mem_singleton.mp ha, ← hlast]
          exact hlow c hc
      · intro a ha
        rcases List.mem_append.mp ha with ha | ha
        · exact hnew a ha
        · have := hlow a ha
          grind

/-- Over every run of a bootstrapped node that neither applies a transition itself nor sends
a PREPARE: at every point a pending transition is newer than the applied one, every call
announces at most one epoch change and changes the epoch and the applied transition exactly
as announced, and the announced transitions strictly increase. -/
theorem transitions_monotone (id : MemberId) (gid : GroupId) (b : Bootstrap)
    (xs : List (TimedCall S)) (hx : ∀ x ∈ xs, x.follows = true) :
    (∀ ys, ys <+: xs → (Machine.run step (bootstrapped id gid b) ys).PendingNewer) ∧
      (∀ ys x, ys ++ [x] <+: xs → (Machine.run step (bootstrapped id gid b) ys).AdvancesByOne x) ∧
      (((bootstrapped id gid b).advances xs).map Prod.snd).Pairwise (· < ·) := by
  have hstart := bootstrapped_pendingNewer id gid b
  have hpoint : ∀ ys, ys <+: xs →
      (Machine.run step (bootstrapped id gid b) ys).PendingNewer :=
    fun ys hys => run_pendingNewer hstart fun y hy => hx y (hys.subset hy)
  refine ⟨hpoint, ?_, (advances_increasing hstart hx).1⟩
  intro ys x hys
  have hmem : x ∈ xs := hys.subset (List.mem_append_right _ (List.mem_singleton_self x))
  exact (step_monotone (hx x hmem) (hpoint ys ((List.prefix_append _ _).trans hys))).2.1

end Runs

/-- A joiner expecting transition 5 receives its EXECUTE and then a late PREPARE. -/
def joinerRun : List (TimedCall PlainSealer) :=
  let gid := Vector.replicate 16 0
  let wire (epoch : UInt64) (seq : UInt32) (op : ControlOpcode) (tid : TransitionId) :=
    (GbpFrame.new gid epoch 0 .control 100 0 seq
      (ControlMessage.withArgs op.asU16 0 1 tid []).toCbor 0).toCbor
  [⟨0, .onWire .plain (wire 7 1 .executeTransition 5)⟩,
    ⟨1, .onWire .plain (wire 8 1 .prepareTransition 5)⟩,
    ⟨2, .onWire .plain (wire 8 2 .prepareTransition 6)⟩]

theorem transitions_monotone_joinerRun :
    (bootstrapped 3 (Vector.replicate 16 0) (.joiner 7 5)).advances joinerRun = [(8, 5)] ∧
      (Machine.run step (bootstrapped 3 (Vector.replicate 16 0) (.joiner 7 5))
        joinerRun).PendingNewer :=
  ⟨by decide +kernel,
    (transitions_monotone 3 (Vector.replicate 16 0) (.joiner 7 5) joinerRun
      (by decide +kernel)).1 joinerRun (List.prefix_refl _)⟩

end GroupNode

end GroupProtocol
