import GroupProtocol.Node.Calls

/-!
# The event queue

Events wait in a queue until a call takes them. No operation reads the queue, so an operation
behind a backlog does the same as without it and adds its events at the end. Hence what is handed
out along a run, followed by what still waits, is everything the calls emitted, each event once and
in order, however often and wherever the queue is drained in between.
-/

namespace GroupProtocol

namespace GroupNode

/-- The node with older events waiting ahead of its own. -/
def withBacklog (n : GroupNode) (backlog : List Event) : GroupNode :=
  { n with events := backlog ++ n.events }

/-- The node without its queue. -/
def unqueued (n : GroupNode) : GroupNode := { n with events := [] }

variable (n : GroupNode) (backlog : List Event)

theorem unqueued_withBacklog_events : n.unqueued.withBacklog n.events = n := by
  simp only [withBacklog, unqueued, List.append_nil]

theorem push_withBacklog (e : Event) :
    (n.withBacklog backlog).push e = (n.push e).withBacklog backlog := by
  simp only [push, withBacklog, List.append_assoc]

theorem transition_withBacklog (next : NodeState) :
    (n.withBacklog backlog).transition next = (n.transition next).withBacklog backlog := by
  unfold transition
  rw [show (n.withBacklog backlog).state = n.state from rfl]
  split
  · rfl
  · split
    · exact push_withBacklog { n with state := .failed } backlog _
    · exact push_withBacklog { n with state := next } backlog _

theorem triggerResync_withBacklog :
    (n.withBacklog backlog).triggerResync = n.triggerResync.withBacklog backlog := by
  unfold triggerResync
  rw [show (n.withBacklog backlog).state = n.state from rfl, transition_withBacklog]
  split <;> rfl

theorem emitErrNamed_withBacklog (code : UInt16) (cls : ErrorClass) (retryable fatal : Bool)
    (reason : String) :
    (n.withBacklog backlog).emitErrNamed code cls retryable fatal reason =
      (n.emitErrNamed code cls retryable fatal reason).withBacklog backlog := by
  simp only [emitErrNamed, push, withBacklog]
  -- one case for each class the registry may give, fatal or not
  split <;> split <;> simp only [List.append_assoc]

theorem emitErrSpec_withBacklog (code : UInt16) (reason : String) :
    (n.withBacklog backlog).emitErrSpec code reason =
      (n.emitErrSpec code reason).withBacklog backlog := by
  unfold emitErrSpec
  split <;> exact emitErrNamed_withBacklog ..

theorem applyTransition_withBacklog (tid : TransitionId) :
    (n.withBacklog backlog).applyTransition tid = (n.applyTransition tid).withBacklog backlog :=
  push_withBacklog { n with
    currentEpoch := n.currentEpoch + 1
    lastTransitionId := tid
    pendingTransitionId := 0
    pendingCommitSender := none
    transitionState := .tExecuted
    outSeq := ∅
    inHw := ∅ } backlog _

theorem checkPrepare_withBacklog (now : Instant) :
    (n.withBacklog backlog).checkPrepare now = (n.checkPrepare now).withBacklog backlog := by
  unfold checkPrepare
  rw [show (n.withBacklog backlog).prepareDeadline = n.prepareDeadline from rfl]
  split
  · exact emitErrSpec_withBacklog { n with
      prepareDeadline := none
      executeDeadline := none
      pendingTransitionId := 0
      transitionState := .tAborted } backlog _ _
  · rfl

theorem checkExecute_withBacklog (now : Instant) :
    (n.withBacklog backlog).checkExecute now = (n.checkExecute now).withBacklog backlog := by
  unfold checkExecute
  rw [show (n.withBacklog backlog).executeDeadline = n.executeDeadline from rfl]
  split
  · exact emitErrSpec_withBacklog { n with executeDeadline := none } backlog _ _
  · rfl

theorem checkCoordinator_withBacklog (now : Instant) :
    (n.withBacklog backlog).checkCoordinator now =
      (n.checkCoordinator now).withBacklog backlog := by
  unfold checkCoordinator
  rw [show (n.withBacklog backlog).coordinatorLastSeen = n.coordinatorLastSeen from rfl]
  split
  · split
    · have hgone := emitErrSpec_withBacklog
        { n with coordinatorLastSeen := none, isCoordinator := false } backlog
        Codes.coordinatorGone "coordinator silence exceeded T_coordinator_grace"
      exact (congrArg (push · .coordinatorElectionNeeded) hgone).trans (push_withBacklog ..)
    · rfl
  · rfl

theorem mirrorControl_withBacklog (op : ControlOpcode) (tid : TransitionId) (now : Instant) :
    (n.withBacklog backlog).mirrorControl op tid now =
      (n.mirrorControl op tid now).withBacklog backlog := by
  cases op <;> rfl

theorem applyControl_withBacklog (op : ControlOpcode) (c : ControlMessage) (now : Instant) :
    (n.withBacklog backlog).applyControl op c now =
      (n.applyControl op c now).withBacklog backlog := by
  cases op with
  | prepareTransition =>
      simp only [applyControl]
      rw [show (n.withBacklog backlog).prepareLoses c = n.prepareLoses c from rfl]
      split <;> rfl
  | executeTransition =>
      exact congrArg (noteCoordinatorActivity · now) (applyTransition_withBacklog
        { n with executeDeadline := none, pendingCommitSender := none } backlog c.transitionId)
  | groupStateDigestResponse =>
      simp only [applyControl]
      rw [show (n.withBacklog backlog).state = n.state from rfl, transition_withBacklog]
      split <;> rfl
  | capabilitiesAdvertise =>
      simp only [applyControl]
      split
      · have hyields : ((n.withBacklog backlog).noteCoordinatorActivity now).isCoordinator =
            (n.noteCoordinatorActivity now).isCoordinator ∧
            ((n.withBacklog backlog).noteCoordinatorActivity now).memberId =
              (n.noteCoordinatorActivity now).memberId := ⟨rfl, rfl⟩
        rw [hyields.1, hyields.2]
        split
        · exact push_withBacklog
            { n.noteCoordinatorActivity now with isCoordinator := false } backlog _
        · exact push_withBacklog (n.noteCoordinatorActivity now) backlog _
      · rfl
  | _ => rfl

section Calls

variable [Ciborium] {S : Type} [Sealer S]

theorem handleControl_withBacklog (plain : Bytes) (now : Instant) :
    (n.withBacklog backlog).handleControl plain now =
      (n.handleControl plain now).withBacklog backlog := by
  unfold handleControl
  split
  · exact emitErrSpec_withBacklog ..
  · rename_i c _
    split
    · exact emitErrSpec_withBacklog ..
    · rename_i op _
      rw [show (n.withBacklog backlog).tidOk op c.transitionId = n.tidOk op c.transitionId from rfl]
      split
      · exact emitErrSpec_withBacklog ..
      · rw [applyControl_withBacklog, push_withBacklog]

theorem dispatch_withBacklog (s : S) (st : StreamType) (f : GbpFrame) (now : Instant) :
    ((n.withBacklog backlog).dispatch s st f now).1 =
      (n.dispatch s st f now).1.withBacklog backlog := by
  unfold dispatch
  split
  · simp only [emitErrNamed_withBacklog]
  · split
    · simp only [handleControl_withBacklog]
    · simp only [push_withBacklog]

theorem deliverFrame_withBacklog (s : S) (f : GbpFrame) (now : Instant) :
    ((n.withBacklog backlog).deliverFrame s f now).1 =
      (n.deliverFrame s f now).1.withBacklog backlog := by
  unfold deliverFrame
  rw [show (n.withBacklog backlog).groupId = n.groupId from rfl,
    show (n.withBacklog backlog).currentEpoch = n.currentEpoch from rfl,
    show (n.withBacklog backlog).lastTransitionId = n.lastTransitionId from rfl,
    show (n.withBacklog backlog).inHw = n.inHw from rfl]
  simp only [emitErrSpec_withBacklog, triggerResync_withBacklog]
  split
  · rfl
  · split
    · rfl
    · split
      · rfl
      · split
        · rfl
        · split
          · rfl
          · split
            · rfl
            · split
              · rfl
              · -- past every check the frame is recorded and dispatched
                exact dispatch_withBacklog (n.record _ f) backlog s _ f now

theorem sendPayload_withBacklog (s : S) (target : MemberId) (st : StreamType) (sid : StreamId)
    (flags : UInt16) (pt : Bytes) (codec : PayloadCodec) :
    ((n.withBacklog backlog).sendPayload s target st sid flags pt codec).2.1 =
      (n.sendPayload s target st sid flags pt codec).2.1.withBacklog backlog := by
  simp only [sendPayload, nextSeq]
  rw [show (n.withBacklog backlog).assertCanSend = n.assertCanSend from rfl,
    show (n.withBacklog backlog).outSeq = n.outSeq from rfl]
  split
  · rfl
  · split <;> rfl

theorem sendControl_withBacklog (s : S) (target : MemberId) (op : ControlOpcode)
    (tid : TransitionId) (rid : UInt32) (args : Bytes) (now : Instant) :
    ((n.withBacklog backlog).sendControl s target op tid rid args now).2.1 =
      (n.sendControl s target op tid rid args now).2.1.withBacklog backlog := by
  simp only [sendControl]
  rw [mirrorControl_withBacklog, sendPayload_withBacklog]
  rfl

theorem claimCoordinator_withBacklog (s : S) (target : MemberId) (now : Instant) :
    ((n.withBacklog backlog).claimCoordinator s target now).2.1 =
      (n.claimCoordinator s target now).2.1.withBacklog backlog := by
  have hpush := push_withBacklog
    { n with isCoordinator := true, coordinatorLastSeen := some now } backlog .becameCoordinator
  simp only [claimCoordinator]
  rw [← sendControl_withBacklog, ← hpush]
  rfl

/-- A call behind a backlog hands out and leaves the same events after it, and moves the rest of
the node alike. -/
theorem step_withBacklog (x : TimedCall S) :
    (n.withBacklog backlog).returned x ++ ((n.withBacklog backlog).step x).events =
        backlog ++ (n.returned x ++ (n.step x).events) ∧
      ((n.withBacklog backlog).step x).unqueued = (n.step x).unqueued := by
  obtain ⟨now, call⟩ := x
  cases call with
  | onWire s wire =>
      simp only [returned, step, onWire]
      split
      · simp only [emitErrSpec_withBacklog, drainEvents, List.append_nil]
        exact ⟨rfl, rfl⟩
      · simp only [deliverFrame_withBacklog, drainEvents, List.append_nil]
        exact ⟨rfl, rfl⟩
  | sendPayload s target st sid flags pt codec =>
      simp only [returned, step, sendPayload_withBacklog]
      exact ⟨rfl, rfl⟩
  | sendControl s target op tid rid args =>
      simp only [returned, step, sendControl_withBacklog]
      exact ⟨rfl, rfl⟩
  | claimCoordinator s target =>
      simp only [returned, step, claimCoordinator_withBacklog]
      exact ⟨rfl, rfl⟩
  | applyTransition tid =>
      simp only [returned, step, applyTransition_withBacklog]
      exact ⟨rfl, rfl⟩
  | triggerResync =>
      simp only [returned, step, triggerResync_withBacklog]
      exact ⟨rfl, rfl⟩
  | checkTimeouts =>
      simp only [returned, step, checkTimeouts, checkPrepare_withBacklog, checkExecute_withBacklog,
        checkCoordinator_withBacklog, drainEvents, List.append_nil]
      exact ⟨rfl, rfl⟩
  | restoreOutSeq bytes =>
      simp only [returned, step, restoreOutSeq]
      split <;> exact ⟨rfl, rfl⟩
  | drainEvents =>
      simp only [returned, step, drainEvents, List.append_nil]
      exact ⟨rfl, rfl⟩

/-- A call hands out or leaves waiting what was queued before it and then what it emits. -/
theorem returned_append (x : TimedCall S) :
    n.returned x ++ (n.step x).events = n.events ++ n.emitted x := by
  have h := (n.unqueued.step_withBacklog n.events x).1
  rw [unqueued_withBacklog_events] at h
  rw [emitted, h, List.drop_left]

/-- What a call emits does not depend on the queue. -/
theorem emitted_unqueued (x : TimedCall S) : n.unqueued.emitted x = n.emitted x := by
  have h := (n.unqueued.step_withBacklog n.events x).1
  rw [unqueued_withBacklog_events, returned_append, returned_append] at h
  exact (List.append_cancel_left h).symm

theorem step_unqueued (x : TimedCall S) : (n.unqueued.step x).unqueued = (n.step x).unqueued := by
  have h := (n.unqueued.step_withBacklog n.events x).2
  rw [unqueued_withBacklog_events] at h
  exact h.symm

/-- Whether a call only drains the queue. -/
def drains (x : TimedCall S) : Bool :=
  match x.call with
  | .drainEvents => true
  | _ => false

variable {n}

theorem step_drains {x : TimedCall S} (h : drains x = true) :
    n.emitted x = [] ∧ (n.step x).unqueued = n.unqueued := by
  obtain ⟨now, call⟩ := x
  cases call with
  | drainEvents =>
      refine ⟨emitted_eq ?_, rfl⟩
      simp only [returned, step, drainEvents, List.append_nil]
  | _ => cases h

theorem step_congr_unqueued {m : GroupNode} (h : n.unqueued = m.unqueued) (x : TimedCall S) :
    n.emitted x = m.emitted x ∧ (n.step x).unqueued = (m.step x).unqueued := by
  rw [← emitted_unqueued n, ← emitted_unqueued m, ← step_unqueued n, ← step_unqueued m, h]
  exact ⟨rfl, rfl⟩

/-- Everything handed out along a run and still waiting after it is what was queued before it and
then what its calls emit. -/
theorem handed_out (xs : List (TimedCall S)) :
    Machine.observe step returned n xs ++ (Machine.run step n xs).events =
      n.events ++ Machine.observe step emitted n xs := by
  induction xs generalizing n with
  | nil => exact (List.append_nil n.events).symm
  | cons x xs ih =>
      rw [Machine.observe_cons, Machine.run_cons, Machine.observe_cons, List.append_assoc, ih,
        ← List.append_assoc, returned_append, List.append_assoc]

theorem run_undrained {m : GroupNode} (h : n.unqueued = m.unqueued) (xs : List (TimedCall S)) :
    (Machine.run step n xs).unqueued =
      (Machine.run step m (xs.filter fun x => !drains x)).unqueued := by
  induction xs generalizing n m with
  | nil => exact h
  | cons x xs ih =>
      cases hx : drains x with
      | true =>
          rw [List.filter_cons_of_neg (by simp [hx])]
          exact ih ((step_drains hx).2.trans h)
      | false =>
          rw [List.filter_cons_of_pos (by simp [hx])]
          exact ih (step_congr_unqueued h x).2

/-- The queue loses, repeats and reorders nothing, and draining it has no other effect. Along every
run, what the calls hand out followed by what still waits is what was queued before and then what
the calls of the same run without its drains emit, and the node is the one that run reaches. -/
theorem draining_conserves_events (n : GroupNode) (xs : List (TimedCall S)) :
    Machine.observe step returned n xs ++ (Machine.run step n xs).events =
        n.events ++ Machine.observe step emitted n (xs.filter fun x => !drains x) ∧
      (Machine.run step n xs).unqueued =
        (Machine.run step n (xs.filter fun x => !drains x)).unqueued := by
  refine ⟨?_, run_undrained rfl xs⟩
  rw [handed_out]
  refine congrArg (n.events ++ ·) ?_
  refine Machine.observe_filter (fun a b => a.unqueued = b.unqueued) (fun x => !drains x) ?_ ?_ ?_
    ?_ rfl xs
  · intro a b x _ hab
    exact (step_congr_unqueued hab x).2
  · intro a b x hx hab
    exact (step_drains (by simpa using hx)).2.trans hab
  · intro a b x _ hab
    exact (step_congr_unqueued hab x).1
  · intro a x hx
    exact (step_drains (by simpa using hx)).1

end Calls

end GroupNode

end GroupProtocol
