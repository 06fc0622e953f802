import GroupProtocol.Transition.Deadlines

/-!
# Competing PREPAREs at a receiver

A node without a pending transition receives PREPAREs of several members for one
transition. The code treats the first arrival, a lower sender and a higher sender in three
branches. Together they compute the lowest sender, whatever the order and however often each
sender repeats itself.
-/

namespace GroupProtocol

/-- The member is one of the senders and none of them is lower. -/
def Lowest (w : MemberId) (senders : List MemberId) : Prop :=
  w ∈ senders ∧ ∀ s ∈ senders, w ≤ s

theorem lowest_append_keep {w s : MemberId} {senders : List MemberId} (h : Lowest w senders)
    (hs : w ≤ s) : Lowest w (senders ++ [s]) := by
  refine ⟨List.mem_append_left _ h.1, ?_⟩
  intro r hr
  rcases List.mem_append.mp hr with hr | hr
  · exact h.2 r hr
  · rw [List.mem_singleton.mp hr]
    exact hs

theorem lowest_append_new {w s : MemberId} {senders : List MemberId} (h : Lowest w senders)
    (hs : ¬w ≤ s) : Lowest s (senders ++ [s]) := by
  refine ⟨List.mem_append_right _ (List.mem_singleton_self s), ?_⟩
  intro r hr
  rcases List.mem_append.mp hr with hr | hr
  · have hw := h.2 r hr
    grind
  · rw [List.mem_singleton.mp hr]
    exact UInt32.le_refl s

/-- The events that surface a control message. -/
def Event.isControl : Event → Bool
  | .control .. => true
  | _ => false

namespace Handshake

/-- The handshake after PREPAREs for one transition from some senders: untouched before the
first, and then pending with the lowest of them as committer. -/
def Elects (last tid : TransitionId) (h : Handshake) (senders : List MemberId) : Prop :=
  h.last = last ∧
    (senders = [] ∧ h.pending = 0 ∨
      h.pending = tid ∧ h.state = .tPrepared ∧ ∃ w, h.sender = some w ∧ Lowest w senders)

theorem Elects.permits {h : Handshake} {last tid : TransitionId} {senders : List MemberId}
    (hlt : last < tid) (he : h.Elects last tid senders) : h.Permits .prepareTransition tid := by
  obtain ⟨hlast, hphase⟩ := he
  refine ⟨by rw [hlast]; exact hlt, ?_⟩
  rcases hphase with ⟨-, hz⟩ | ⟨hp, -⟩
  · exact Or.inl hz
  · exact Or.inr hp

/-- One more PREPARE. -/
theorem Elects.accepted {h : Handshake} {last tid : TransitionId} {senders : List MemberId}
    (hne : tid ≠ 0) (he : h.Elects last tid senders) (now : Instant) (s : MemberId) :
    (h.accepted now .prepareTransition tid s).Elects last tid (senders ++ [s]) := by
  obtain ⟨hlast, hphase⟩ := he
  rw [Handshake.accepted]
  rcases hphase with ⟨rfl, hz⟩ | ⟨hp, hstate, w, hw, hlow⟩
  · have hfirst : ¬h.Loses tid s := fun hl => hne (hl.1.symm.trans hz)
    rw [if_neg hfirst]
    refine ⟨hlast, Or.inr ⟨rfl, rfl, s, rfl, List.mem_singleton_self s, ?_⟩⟩
    intro r hr
    rw [List.mem_singleton.mp hr]
    exact UInt32.le_refl s
  · by_cases hle : w ≤ s
    · have hl : h.Loses tid s := ⟨hp, by rw [hw]; exact hle⟩
      rw [if_pos hl]
      exact ⟨hlast, Or.inr ⟨hp, hstate, w, hw, lowest_append_keep hlow hle⟩⟩
    · have hl : ¬h.Loses tid s := by
        rintro ⟨-, hge⟩
        rw [hw] at hge
        exact hle hge
      rw [if_neg hl]
      exact ⟨hlast, Or.inr ⟨rfl, rfl, s, rfl, lowest_append_new hlow hle⟩⟩

end Handshake

namespace GroupNode

section Runs

variable [Ciborium] {S : Type} [Sealer S]

/-- Wire input whose control message, if it carries one, is a PREPARE for the transition. -/
def competes (tid : TransitionId) (n : GroupNode) (x : TimedCall S) : Bool :=
  match x.call, n.receivedControl x with
  | .onWire .., some (op, c) => op == .prepareTransition && c.transitionId == tid
  | .onWire .., none => true
  | _, _ => false

/-- The sender of the control message a call receives. -/
def contender (n : GroupNode) (x : TimedCall S) : List MemberId :=
  ((n.receivedControl x).map fun r => r.2.senderId).toList

/-- The event that surfaces the control message a call receives. -/
def surfacing (n : GroupNode) (x : TimedCall S) : List Event :=
  ((n.receivedControl x).map fun r =>
    .control r.2.senderId r.1 r.2.transitionId r.2.requestId r.2.args).toList

theorem competes_cases {tid : TransitionId} {n : GroupNode} {x : TimedCall S}
    (h : n.competes tid x = true) :
    (∃ s wire, x.call = .onWire s wire) ∧
      (n.receivedControl x = none ∨
        ∃ c, n.receivedControl x = some (.prepareTransition, c) ∧ c.transitionId = tid) := by
  unfold competes at h
  split at h
  · rename_i s wire op c hcall hr
    simp only [Bool.and_eq_true, beq_iff_eq] at h
    obtain ⟨rfl, htid⟩ := h
    exact ⟨⟨s, wire, hcall⟩, Or.inr ⟨c, hr, htid⟩⟩
  · rename_i s wire hcall hr
    exact ⟨⟨s, wire, hcall⟩, Or.inl hr⟩
  · cases h

/-- One call of the receiver. -/
theorem step_elects {n : GroupNode} {x : TimedCall S} {last tid : TransitionId}
    {senders : List MemberId} (hlt : last < tid) (hx : n.competes tid x = true)
    (he : n.handshake.Elects last tid senders) :
    (n.step x).handshake.Elects last tid (senders ++ n.contender x) := by
  obtain ⟨⟨s, wire, hcall⟩, hr | ⟨c, hr, rfl⟩⟩ := competes_cases hx
  · have hrest : n.move x = .rest := by simp only [move, hcall, hr]
    rw [step_handshake, hrest, contender, hr]
    simpa only [Handshake.moved, Option.map_none, Option.toList_none, List.append_nil] using he
  · have hpermits := he.permits hlt
    have hmove : n.move x = .accept .prepareTransition c.transitionId c.senderId := by
      simp only [move, hcall, hr, tidOk_iff.mpr hpermits, if_true]
    rw [step_handshake, hmove, contender, hr]
    exact he.accepted hpermits.ne_zero x.now c.senderId

omit [Ciborium] in
/-- A PREPARE queues no event of its own. -/
theorem applyControl_prepare_events (n : GroupNode) (c : ControlMessage) (now : Instant) :
    (n.applyControl .prepareTransition c now).events = n.events := by
  rw [applyControl]
  split <;> rfl

omit [Ciborium] in
private theorem isControl_local {evs : List Event} (h : ∀ e ∈ evs, e.isLocal = true) :
    evs.filter Event.isControl = [] := by
  apply List.filter_eq_nil_iff.mpr
  intro e he hctl
  have hlocal := h e he
  cases e <;> cases hctl
  cases hlocal

/-- Wire input without a control message surfaces none. -/
theorem emitted_without_control {n : GroupNode} {x : TimedCall S} {s : S} {wire : Bytes}
    (hcall : x.call = .onWire s wire) (hr : n.receivedControl x = none) :
    (n.emitted x).filter Event.isControl = [] := by
  cases n.step_effect x with
  | quiet keeps window admits pending events => exact isControl_local events
  | applied tid call =>
      rw [hcall] at call
      cases call
  | received s' wire' f st call decode admits keeps window pending evs data own surfaces events =>
      rw [events, List.filter_append, isControl_local own, List.nil_append]
      cases surfaces with
      | nothing => rfl
      | payload plain opens app => rfl
      | message plain c op opens ctl decodes opcode =>
          subst ctl
          have hsome : n.receivedControl x = some (op, c) := receivedControl_eq_some.mpr
            ⟨s', wire', f, plain, call, decode, admitted_eq_some.mpr admits, opens, decodes, opcode⟩
          rw [hr] at hsome
          cases hsome
  | executed s' wire' f plain c call decode admits opens message opcode pending names next events =>
      have hsome : n.receivedControl x = some (.executeTransition, c) :=
        receivedControl_eq_some.mpr ⟨s', wire', f, plain, call, decode,
          admitted_eq_some.mpr admits, opens, message, opcode⟩
      rw [hr] at hsome
      cases hsome

/-- A permitted PREPARE surfaces as one control event and nothing else. -/
theorem emitted_prepare {n : GroupNode} {x : TimedCall S} {c : ControlMessage}
    (hr : n.receivedControl x = some (.prepareTransition, c))
    (htid : n.tidOk .prepareTransition c.transitionId = true) :
    n.emitted x =
      [.control c.senderId .prepareTransition c.transitionId c.requestId c.args] := by
  obtain ⟨s, wire, f, plain, hcall, hd, hadm, hopen, hc, hop⟩ := receivedControl_eq_some.mp hr
  obtain ⟨hevents, hnext⟩ := onWire_control (n := n) x.now hd hadm hopen
  have hret : n.returned x =
      n.events ++ [.control c.senderId .prepareTransition c.transitionId c.requestId c.args] := by
    rw [returned, hcall]
    refine hevents.trans ?_
    rw [handleControl_ok (n := n.record .control f) x.now hc hop htid, push,
      applyControl_prepare_events]
    rfl
  have hstep : (n.step x).events = [] := by
    rw [step, hcall]
    exact congrArg GroupNode.events hnext
  apply emitted_eq
  rw [hret, hstep, List.append_nil]

theorem step_surfaces {n : GroupNode} {x : TimedCall S} {last tid : TransitionId}
    {senders : List MemberId} (hlt : last < tid) (hx : n.competes tid x = true)
    (he : n.handshake.Elects last tid senders) :
    (n.emitted x).filter Event.isControl = n.surfacing x := by
  obtain ⟨⟨s, wire, hcall⟩, hr | ⟨c, hr, rfl⟩⟩ := competes_cases hx
  · rw [emitted_without_control hcall hr, surfacing, hr]
    rfl
  · rw [emitted_prepare hr (tidOk_iff.mpr (he.permits hlt)), surfacing, hr]
    rfl

/-- A PREPARE that does not beat the recorded committer changes the replay window only. -/
theorem step_loses {n : GroupNode} {x : TimedCall S} {c : ControlMessage}
    (hr : n.receivedControl x = some (.prepareTransition, c))
    (htid : n.tidOk .prepareTransition c.transitionId = true)
    (hl : n.handshake.Loses c.transitionId c.senderId) (hevents : n.events = []) :
    ∃ window, n.step x = { n with inHw := window } := by
  obtain ⟨f, hf⟩ := step_receivedControl hr
  rw [if_pos htid, applyControl, if_pos (prepareLoses_iff (n := n.record .control f).mpr hl)] at hf
  refine ⟨n.inHw.insert (.control, f.streamId) f.sequenceNo, ?_⟩
  rw [hf, record, ← hevents]

/-- Receiving leaves no event queued. -/
theorem onWire_drains (n : GroupNode) (s : S) (wire : Bytes) (now : Instant) :
    (n.onWire s wire now).2.1.events = [] := by
  rcases n.onWire_cases s wire now with ⟨m, -, -, heq⟩ | ⟨f, st, -, -, heq⟩
  · rw [heq]
  · rw [heq]

/-- The receiver along a run: the handshake elects the lowest of the senders so far. -/
theorem run_elects {n : GroupNode} {xs : List (TimedCall S)} {tid : TransitionId}
    (hpending : n.pendingTransitionId = 0) (hnewer : n.lastTransitionId < tid)
    (hxs : Machine.Along step (fun n x => n.competes tid x = true) n xs) :
    (Machine.run step n xs).handshake.Elects n.lastTransitionId tid
      (Machine.observe step contender n xs) := by
  have hstart : n.handshake.Elects n.lastTransitionId tid [] := ⟨rfl, Or.inl ⟨rfl, hpending⟩⟩
  have hrun := Machine.along_invariant contender
    (fun m senders => m.handshake.Elects n.lastTransitionId tid senders) hstart hxs
    fun m senders x hx he => step_elects hnewer hx he
  simpa only [List.nil_append] using hrun

/-- What a run surfaces, call by call, is what its PREPAREs are. -/
theorem run_surfaces {n : GroupNode} {xs : List (TimedCall S)} {last tid : TransitionId}
    {senders : List MemberId} (hlt : last < tid) (he : n.handshake.Elects last tid senders)
    (hxs : Machine.Along step (fun n x => n.competes tid x = true) n xs) :
    (Machine.observe step emitted n xs).filter Event.isControl =
      Machine.observe step surfacing n xs := by
  induction xs generalizing n senders with
  | nil => rfl
  | cons x xs ih =>
      rw [Machine.observe_cons, Machine.observe_cons, List.filter_append,
        step_surfaces hlt hxs.1 he, ih (step_elects hlt hxs.1 he) hxs.2]

/-- After at least one call of such a run no event is queued. -/
theorem run_drains {n : GroupNode} {xs : List (TimedCall S)} {tid : TransitionId}
    (hxs : Machine.Along step (fun n x => n.competes tid x = true) n xs) (hne : xs ≠ []) :
    (Machine.run step n xs).events = [] := by
  rcases List.eq_nil_or_concat xs with rfl | ⟨ys, x, rfl⟩
  · exact absurd rfl hne
  · rw [List.concat_eq_append] at hxs ⊢
    have hx := (Machine.along_append.mp hxs).2.1
    obtain ⟨⟨s, wire, hcall⟩, -⟩ := competes_cases hx
    rw [Machine.run_append, Machine.run_cons, Machine.run_nil, step, hcall]
    exact onWire_drains ..

/-- At a node without a pending transition, any sequence of wire input whose control messages
are PREPAREs for one newer transition, at least one of them, makes that transition pending
with the lowest of the senders as committer. Each PREPARE surfaces exactly once, and one that
does not beat the current committer changes the replay window only. -/
theorem competing_prepares_elect_lowest (n : GroupNode) (tid : TransitionId)
    (xs : List (TimedCall S)) (hpending : n.pendingTransitionId = 0)
    (hnewer : n.lastTransitionId < tid)
    (hxs : Machine.Along step (fun n x => n.competes tid x = true) n xs)
    (hsome : Machine.observe step contender n xs ≠ []) :
    (Machine.run step n xs).pendingTransitionId = tid ∧
      (Machine.run step n xs).transitionState = .tPrepared ∧
      (∃ w, (Machine.run step n xs).pendingCommitSender = some w ∧
        Lowest w (Machine.observe step contender n xs)) ∧
      (Machine.observe step emitted n xs).filter Event.isControl =
        Machine.observe step surfacing n xs ∧
      ∀ ys x zs c w, xs = ys ++ x :: zs →
        let m := Machine.run step n ys
        m.receivedControl x = some (.prepareTransition, c) → m.pendingTransitionId = tid →
        m.pendingCommitSender = some w → w ≤ c.senderId →
          ∃ window, m.step x = { m with inHw := window } := by
  have hstart : n.handshake.Elects n.lastTransitionId tid [] := ⟨rfl, Or.inl ⟨rfl, hpending⟩⟩
  obtain ⟨-, ⟨hnil, -⟩ | ⟨hp, hstate, hwinner⟩⟩ := run_elects hpending hnewer hxs
  · exact absurd hnil hsome
  · refine ⟨hp, hstate, hwinner, run_surfaces hnewer hstart hxs, ?_⟩
    rintro ys x zs c w rfl m hr hcur hw hle
    obtain ⟨hys, hx⟩ := Machine.along_append.mp hxs
    have hpermits := (run_elects hpending hnewer hys).permits hnewer
    have htid : c.transitionId = tid := by
      obtain ⟨-, hnone | ⟨c', hc', htid⟩⟩ := competes_cases hx.1
      · rw [hr] at hnone
        cases hnone
      · rw [hr] at hc'
        cases hc'
        exact htid
    subst htid
    refine step_loses hr (tidOk_iff.mpr hpermits) ⟨hcur, ?_⟩ ?_
    · rw [show m.handshake.sender = some w from hw]
      exact hle
    · refine run_drains hys ?_
      rintro rfl
      exact hpermits.ne_zero (hcur.symm.trans hpending)

end Runs

/-- PREPAREs for transition 1 of members 3, 1 and 3 again, and an audio frame in between. -/
def competingRun : List (TimedCall PlainSealer) :=
  let wire (st : StreamType) (sender : MemberId) (seq : SequenceNo) :=
    (GbpFrame.new (Vector.replicate 16 0) 0 0 st (sender * 100) 0 seq
      (ControlMessage.withArgs ControlOpcode.prepareTransition.asU16 0 sender 1 []).toCbor 0).toCbor
  [⟨0, .onWire .plain (wire .control 3 1)⟩, ⟨1, .onWire .plain (wire .audio 3 1)⟩,
    ⟨2, .onWire .plain (wire .control 1 1)⟩, ⟨3, .onWire .plain (wire .control 3 2)⟩]

theorem competingRun_elects_one :
    let n := bootstrapped 2 (Vector.replicate 16 0) (.creator 0)
    Machine.observe step contender n competingRun = [3, 1, 3] ∧
      ∃ w, (Machine.run step n competingRun).pendingCommitSender = some w ∧ Lowest w [3, 1, 3] := by
  intro n
  have hsenders : Machine.observe step contender n competingRun = [3, 1, 3] := by decide +kernel
  have helect := (competing_prepares_elect_lowest n 1 competingRun (by decide +kernel)
    (by decide +kernel) (by decide +kernel) (by rw [hsenders]; simp)).2.2.1
  rw [hsenders] at helect
  exact ⟨hsenders, helect⟩

end GroupNode

end GroupProtocol
