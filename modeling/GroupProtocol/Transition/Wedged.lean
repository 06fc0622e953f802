import GroupProtocol.Transition.Deadlines

/-!
# Transitions without a deadline

A pending transition blocks every PREPARE with another id. Its deadlines are what frees the
node when the messages that would resolve it are lost. The results say which calls disarm
the last deadline of a transition that a PREPARE made pending, and that a node in this
state stays in it.
-/

namespace GroupProtocol

namespace Handshake

/-- The transition a move makes pending by a PREPARE, sent or adopted. -/
def prepares (h : Handshake) : Move → Option TransitionId
  | .send .prepareTransition tid => some tid
  | .accept .prepareTransition tid sender => if h.Loses tid sender then none else some tid
  | _ => none

/-- The transition is pending because of the last PREPARE. -/
def prepared (h : Handshake) (cause : Option TransitionId) : Bool :=
  h.pending != 0 && cause == some h.pending

/-- A transition that a PREPARE made pending has a deadline. -/
def Guarded (h : Handshake) (cause : Option TransitionId) : Prop :=
  h.prepared cause = true → h.prepare ≠ none ∨ h.execute ≠ none

/-- A move leaves a prepared transition some deadline: no EXECUTE is sent, READY arrives
while the EXECUTE deadline is armed, and the EXECUTE deadline expires only while the
PREPARE deadline is armed. -/
def guards (h : Handshake) (cause : Option TransitionId) (now : Instant) : Move → Bool
  | .send .executeTransition _ => !h.prepared cause
  | .accept .readyForTransition _ _ => !h.prepared cause || h.execute.isSome
  | .check =>
    !h.prepared cause || GroupNode.expired h.prepare now || !GroupNode.expired h.execute now ||
      h.prepare.isSome
  | _ => true

theorem guarded_of_pending {h : Handshake} {cause : Option TransitionId} (hz : h.pending = 0) :
    h.Guarded cause := by
  intro hp
  simp [prepared, hz] at hp

/-- Without a PREPARE deadline the EXECUTE deadline has to guard. -/
theorem guarded_iff_execute {h : Handshake} {cause : Option TransitionId}
    (hp : h.prepare = none) :
    h.Guarded cause ↔ (!h.prepared cause || h.execute.isSome) = true := by
  rw [Bool.or_eq_true, Bool.not_eq_true', ← Bool.not_eq_true, ← imp_iff_not_or,
    Option.isSome_iff_ne_none, Guarded]
  constructor
  · intro hg hprep
    exact (hg hprep).resolve_left (not_not.mpr hp)
  · intro hg hprep
    exact Or.inr (hg hprep)

/-- Without an EXECUTE deadline the PREPARE deadline has to guard. -/
theorem guarded_iff_prepare {h : Handshake} {cause : Option TransitionId}
    (he : h.execute = none) :
    h.Guarded cause ↔ (!h.prepared cause || h.prepare.isSome) = true := by
  rw [Bool.or_eq_true, Bool.not_eq_true', ← Bool.not_eq_true, ← imp_iff_not_or,
    Option.isSome_iff_ne_none, Guarded]
  constructor
  · intro hg hprep
    exact (hg hprep).resolve_right (not_not.mpr he)
  · intro hg hprep
    exact Or.inl (hg hprep)

private theorem sent_guarded_iff {h : Handshake} {cause : Option TransitionId} {now : Instant}
    {op : ControlOpcode} {tid : TransitionId} (hg : h.Guarded cause) :
    (h.sent now op tid).Guarded ((h.prepares (.send op tid)).or cause) ↔
      h.guards cause now (.send op tid) = true := by
  cases op with
  | prepareTransition => exact ⟨fun _ => rfl, fun _ _ => Or.inl (Option.some_ne_none _)⟩
  | readyForTransition => exact ⟨fun _ => rfl, fun _ _ => Or.inr (Option.some_ne_none _)⟩
  | executeTransition =>
      have hiff : (h.sent now .executeTransition tid).Guarded cause ↔
          (!h.prepared cause || false) = true := guarded_iff_execute rfl
      rw [Bool.or_false] at hiff
      exact hiff
  | abortTransition => exact ⟨fun _ => rfl, fun _ => guarded_of_pending rfl⟩
  | _ => exact ⟨fun _ => rfl, fun _ => hg⟩

private theorem accepted_guarded_iff {h : Handshake} {cause : Option TransitionId}
    {now : Instant} {op : ControlOpcode} {tid : TransitionId} {sender : MemberId}
    (hg : h.Guarded cause) :
    (h.accepted now op tid sender).Guarded ((h.prepares (.accept op tid sender)).or cause) ↔
      h.guards cause now (.accept op tid sender) = true := by
  cases op with
  | prepareTransition =>
      refine ⟨fun _ => rfl, fun _ => ?_⟩
      rw [accepted, prepares]
      by_cases hl : h.Loses tid sender
      · rw [if_pos hl, if_pos hl]
        exact hg
      · rw [if_neg hl, if_neg hl]
        exact fun _ => Or.inr (Option.some_ne_none _)
  | readyForTransition =>
      exact guarded_iff_execute (h := h.accepted now .readyForTransition tid sender) rfl
  | executeTransition => exact ⟨fun _ => rfl, fun _ => guarded_of_pending rfl⟩
  | abortTransition => exact ⟨fun _ => rfl, fun _ => guarded_of_pending rfl⟩
  | _ => exact ⟨fun _ => rfl, fun _ => hg⟩

private theorem checked_guarded_iff {h : Handshake} {cause : Option TransitionId}
    {now : Instant} (hg : h.Guarded cause) :
    (h.checked now).Guarded cause ↔ h.guards cause now .check = true := by
  rw [checked, guards]
  by_cases hp : GroupNode.expired h.prepare now = true
  · rw [if_pos hp, hp, Bool.or_true, Bool.true_or, Bool.true_or]
    exact ⟨fun _ => rfl, fun _ => guarded_of_pending rfl⟩
  · rw [if_neg hp, Bool.eq_false_iff.mpr hp, Bool.or_false]
    by_cases he : GroupNode.expired h.execute now = true
    · rw [if_pos he, he, Bool.not_true, Bool.or_false]
      exact guarded_iff_prepare (h := { h with execute := none }) rfl
    · rw [if_neg he, Bool.eq_false_iff.mpr he, Bool.not_false, Bool.or_true, Bool.true_or]
      exact ⟨fun _ => rfl, fun _ => hg⟩

/-- A move keeps a prepared transition guarded exactly when it leaves it a deadline. -/
theorem moved_guarded_iff {h : Handshake} {cause : Option TransitionId} {now : Instant}
    {m : Move} (hg : h.Guarded cause) :
    (h.moved now m).Guarded ((h.prepares m).or cause) ↔ h.guards cause now m = true := by
  cases m with
  | rest => exact ⟨fun _ => rfl, fun _ => hg⟩
  | send op tid => exact sent_guarded_iff hg
  | accept op tid sender => exact accepted_guarded_iff hg
  | apply tid => exact ⟨fun _ => rfl, fun _ => guarded_of_pending rfl⟩
  | check => exact checked_guarded_iff hg

end Handshake

namespace GroupNode

section Runs

variable [Ciborium] {S : Type} [Sealer S]

/-- A node and the transition of the last PREPARE it sent or adopted, after a call. -/
def preparedStep (p : GroupNode × Option TransitionId) (x : TimedCall S) :
    GroupNode × Option TransitionId :=
  (p.1.step x, (p.1.handshake.prepares (p.1.move x)).or p.2)

/-- Over every run of a bootstrapped node: a transition that a PREPARE made pending has a
deadline at every point exactly when every call leaves it one. -/
theorem deadline_guards_iff (id : MemberId) (gid : GroupId) (b : Bootstrap)
    (xs : List (TimedCall S)) :
    (∀ ys, ys <+: xs →
        let p := Machine.run preparedStep (bootstrapped id gid b, none) ys
        p.1.handshake.Guarded p.2) ↔
      Machine.Along preparedStep
        (fun p x => p.1.handshake.guards p.2 x.now (p.1.move x) = true)
        (bootstrapped id gid b, none) xs := by
  have hstart : (bootstrapped id gid b).handshake.Guarded none := by
    intro h
    simp [Handshake.prepared] at h
  have hfree : Machine.Along (preparedStep (S := S)) (fun _ _ => True)
      (bootstrapped id gid b, none) xs := by
    apply Machine.along_iff.mpr
    intro _ _ _ _
    exact trivial
  apply Machine.prefix_invariant_iff (fun p => p.1.handshake.Guarded p.2) hfree hstart
  intro p x _ hp
  rw [preparedStep, step_handshake]
  exact Handshake.moved_guarded_iff hp

/-- A call that cannot help a blocked node: a timeout check, or wire input whose control
message, if it carries one, is a PREPARE with another id. -/
def Waits (n : GroupNode) (x : TimedCall S) : Prop :=
  x.call = .checkTimeouts ∨
    ∃ s wire, x.call = .onWire s wire ∧ ∀ op c, n.receivedControl x = some (op, c) →
      op = .prepareTransition ∧ c.transitionId ≠ n.pendingTransitionId

/-- A node with a pending transition and no deadline is left as it is by such a call. -/
theorem step_waits {n : GroupNode} {x : TimedCall S} (hx : n.Waits x)
    (hpending : n.pendingTransitionId ≠ 0) (hprepare : n.prepareDeadline = none)
    (hexecute : n.executeDeadline = none) : (n.step x).handshake = n.handshake := by
  rw [step_handshake]
  rcases hx with hcall | ⟨s, wire, hcall, hother⟩
  · rw [move, hcall]
    have hp : expired n.handshake.prepare x.now = false := by
      rw [show n.handshake.prepare = none from hprepare]
      rfl
    have he : expired n.handshake.execute x.now = false := by
      rw [show n.handshake.execute = none from hexecute]
      rfl
    simp only [Handshake.moved, Handshake.checked, hp, he, Bool.false_eq_true, if_false]
  · have hrest : n.move x = .rest := by
      rcases n.move_cases x with hm | ⟨_, _, _, _, _, _, hsend, -⟩ | ⟨op, c, hr, htid, -⟩ |
        ⟨_, happly, -⟩ | ⟨hcheck, -⟩
      · exact hm
      · rw [hcall] at hsend
        cases hsend
      · obtain ⟨rfl, hne⟩ := hother op c hr
        have hpermits : n.handshake.Permits .prepareTransition c.transitionId :=
          tidOk_iff.mp htid
        rcases hpermits.2 with hz | hsame
        · exact absurd hz hpending
        · exact absurd hsame.symm hne
      · rw [hcall] at happly
        cases happly
      · rw [hcall] at hcheck
        cases hcheck
    rw [hrest]
    rfl

/-- However long it waits, a node with a pending transition and no deadline keeps rejecting
every PREPARE with another id. -/
theorem run_waits {n : GroupNode} {xs : List (TimedCall S)} (hxs : Machine.Along step Waits n xs)
    (hpending : n.pendingTransitionId ≠ 0) (hprepare : n.prepareDeadline = none)
    (hexecute : n.executeDeadline = none) : (Machine.run step n xs).handshake = n.handshake := by
  have hkeeps : ∀ (m : GroupNode) (x : TimedCall S), m.Waits x → m.handshake = n.handshake →
      (m.step x).handshake = n.handshake := by
    intro m x hx hm
    obtain ⟨-, hpend, -, -, hprep, hexec⟩ := Handshake.mk.inj hm
    rw [← hm]
    apply step_waits hx
    · rw [hpend]
      exact hpending
    · exact hprep.trans hprepare
    · exact hexec.trans hexecute
  exact hxs.invariant (by rfl) hkeeps

end Runs

/-- Node 2 issues transition 1 and receives the READY of member 1. -/
def readyRun : List (TimedCall PlainSealer) :=
  [toGroup 0 .prepareTransition 1, fromMemberOne 1 0 1 .readyForTransition 1]

/-- After one READY the issuer has no deadline, and neither time nor a PREPARE with another
id frees it. -/
theorem ready_wedges_issuer :
    let start := (bootstrapped 2 (Vector.replicate 16 0) (.creator 0), none)
    let p := Machine.run preparedStep start readyRun
    p.1.pendingTransitionId = 1 ∧ p.2 = some 1 ∧ ¬p.1.handshake.Guarded p.2 ∧
      ∀ xs : List (TimedCall PlainSealer), Machine.Along step Waits p.1 xs →
        (Machine.run step p.1 xs).pendingTransitionId = 1 := by
  intro start p
  have hpending : p.1.pendingTransitionId = 1 := by decide +kernel
  have hprepare : p.1.prepareDeadline = none := by decide +kernel
  have hexecute : p.1.executeDeadline = none := by decide +kernel
  refine ⟨hpending, by decide +kernel, ?_, ?_⟩
  · intro hguard
    rcases hguard (by decide +kernel) with hn | hn
    · exact hn hprepare
    · exact hn hexecute
  · intro xs hxs
    have hsame := run_waits hxs (by rw [hpending]; decide) hprepare hexecute
    exact (Handshake.mk.inj hsame).2.1.trans hpending

end GroupNode

end GroupProtocol
