import GroupProtocol.Base.Serde
import GroupProtocol.Lib.ReplayWindow
import GroupProtocol.Lib.Words
import GroupProtocol.Node.Calls

/-!
# At-most-once acceptance

Every run of a node is a trace of the abstract replay window: an admitted frame is an
acceptance above the mark of its stream, and an epoch change clears all marks. As long
as the epoch counter does not wrap, a generation of the window is an epoch of the node.
-/

namespace GroupProtocol

namespace GroupNode

/-- The abstract window of a node in a given generation. -/
def window (n : GroupNode) (gen : ℕ) : Window StreamKey := ⟨gen, fun k => (n.inHw.read k).toNat⟩

/-- The acceptance a mark stands for when generation zero is the epoch `e`. -/
def markedFrame (e : UInt64) (m : Mark StreamKey) : Acceptance :=
  ⟨e + UInt64.ofNat m.gen, m.key, UInt32.ofNat m.seq⟩

theorem window_insert (n : GroupNode) (gen : ℕ) (k : StreamKey) (seq : SequenceNo) :
    window { n with inHw := n.inHw.insert k seq } gen = (n.window gen).accept k seq.toNat := by
  simp only [window, Window.accept, Window.mk.injEq, true_and]
  funext j
  by_cases h : j = k
  · subst h
    simp only [Counters.read_insert_self, Function.update_self]
  · rw [Function.update_of_ne h, Counters.read_insert_ne _ _ h]

theorem window_congr {n m : GroupNode} (h : m.inHw = n.inHw) (gen : ℕ) :
    m.window gen = n.window gen := by
  simp only [window, h]

theorem window_clear {n m : GroupNode} (h : m.inHw = ∅) (gen : ℕ) :
    m.window (gen + 1) = (n.window gen).clear := by
  simp only [window, Window.clear, h, Counters.read_empty]
  rfl

section Runs

variable [Ciborium] {S : Type} [Sealer S]

/-- The epoch a call enters, if it leaves the current one. -/
def entered (n : GroupNode) (x : TimedCall S) : List UInt64 :=
  if (n.step x).currentEpoch = n.currentEpoch then [] else [(n.step x).currentEpoch]

/-- The epochs entered along a run. -/
def epochIncrements (n : GroupNode) (xs : List (TimedCall S)) : List UInt64 :=
  Machine.observe step entered n xs

/-- The frame behind a delivered payload. -/
def deliveredFrame (epoch : UInt64) : Event → Option Acceptance
  | .payloadReceived p => some ⟨epoch, (p.streamType, p.streamId), p.sequenceNo⟩
  | _ => none

/-- The frames delivered to a sub-protocol along a run. -/
def deliveries (n : GroupNode) (xs : List (TimedCall S)) : List Acceptance :=
  Machine.observe step (fun n x => (n.emitted x).filterMap (deliveredFrame n.currentEpoch)) n xs

/-- The control frame a call hands to `handleControl`, if any. -/
def controlFrame (n : GroupNode) (x : TimedCall S) : Option Acceptance :=
  match x.call with
  | .onWire s wire =>
    match GbpFrame.decode wire with
    | .ok f =>
      match n.admitted f, (Sealer.open s .control f.sequenceNo f.encryptedPayload).1 with
      | some .control, .ok _ => some ⟨n.currentEpoch, (.control, f.streamId), f.sequenceNo⟩
      | _, _ => none
    | .error _ => none
  | _ => none

/-- The frames handed to `handleControl` along a run. -/
def controlFrames (n : GroupNode) (xs : List (TimedCall S)) : List Acceptance :=
  Machine.observe step (fun n x => (n.controlFrame x).toList) n xs

/-! One call and whole runs as window traces. -/

private theorem entered_same {n : GroupNode} {x : TimedCall S}
    (h : (n.step x).currentEpoch = n.currentEpoch) : n.entered x = [] := by
  rw [entered, if_pos h]

private theorem entered_next {n : GroupNode} {x : TimedCall S}
    (h : (n.step x).currentEpoch = n.currentEpoch + 1) :
    n.entered x = [n.currentEpoch + 1] := by
  rw [entered, h, if_neg (Words.succ_ne _)]

omit [Sealer S] in
private theorem acceptance_onWire {n : GroupNode} {x : TimedCall S} {s : S} {wire : Bytes}
    {f : GbpFrame} {st : StreamType} (hc : x.call = .onWire s wire)
    (hd : GbpFrame.decode wire = .ok f) (ha : Admits n f st) :
    n.acceptance x = some ⟨n.currentEpoch, (st, f.streamId), f.sequenceNo⟩ := by
  simp only [acceptance, hc, hd, admitted_eq_some.mpr ha, Option.map_some]

/-- One call is a trace of the window: at most one acceptance, then at most one clearing. -/
theorem step_trace (n : GroupNode) (x : TimedCall S) (gen : ℕ) :
    ∃ log, Window.Trace (n.window gen) log
        ((n.step x).window (gen + (n.entered x).length)) ∧
      (n.step x).currentEpoch = n.currentEpoch + UInt64.ofNat (n.entered x).length ∧
      (∀ m ∈ log, m.gen = gen ∧ m.seq < 2 ^ 32) ∧
      (n.acceptance x).toList =
        log.map fun m => ⟨n.currentEpoch, m.key, UInt32.ofNat m.seq⟩ := by
  cases n.step_effect x with
  | quiet keeps window admits pending events =>
      refine ⟨[], ?_, ?_, by simp, by rw [admits]; rfl⟩
      · rw [entered_same keeps.epoch, List.length_nil, Nat.add_zero, window_congr window]
        exact .nil
      · rw [entered_same keeps.epoch, keeps.epoch]
        exact (UInt64.add_zero _).symm
  | applied tid call =>
      obtain ⟨hstep, -⟩ := step_applied (n := n) call
      have hent := entered_next (n := n) (x := x) (by rw [hstep]; rfl)
      refine ⟨[], ?_, ?_, by simp, by rw [acceptance, call]; rfl⟩
      · rw [hent, List.length_singleton, window_clear (n := n) (by rw [hstep]; rfl)]
        exact Window.Trace.nil.clear
      · rw [hent, hstep]
        rfl
  | received s wire f st call decode admits keeps window pending evs data own surfaces events =>
      have hlt : (n.window gen).high (st, f.streamId) < f.sequenceNo.toNat :=
        UInt32.lt_iff_toNat_lt.mp admits.fresh
      refine ⟨[⟨gen, (st, f.streamId), f.sequenceNo.toNat⟩], ?_, ?_, ?_, ?_⟩
      · rw [entered_same keeps.epoch, List.length_nil, Nat.add_zero,
          window_congr (n := n.record st f) window, record, window_insert]
        exact Window.Trace.nil.accept hlt
      · rw [entered_same keeps.epoch, keeps.epoch]
        exact (UInt64.add_zero _).symm
      · intro m hm
        rw [List.mem_singleton.mp hm]
        exact ⟨rfl, f.sequenceNo.toNat_lt⟩
      · rw [acceptance_onWire call decode admits]
        simp only [Option.toList_some, List.map_cons, List.map_nil, UInt32.ofNat_toNat]
  | executed s wire f plain c call decode admits opens message opcode pending names next events =>
      have hlt : (n.window gen).high (.control, f.streamId) < f.sequenceNo.toNat :=
        UInt32.lt_iff_toNat_lt.mp admits.fresh
      have hent := entered_next (n := n) (x := x) (by rw [next])
      refine ⟨[⟨gen, (.control, f.streamId), f.sequenceNo.toNat⟩], ?_, ?_, ?_, ?_⟩
      · rw [hent, List.length_singleton, window_clear (n := n.record .control f) (by rw [next]),
          record, window_insert]
        exact (Window.Trace.nil.accept hlt).clear
      · rw [hent, next]
        rfl
      · intro m hm
        rw [List.mem_singleton.mp hm]
        exact ⟨rfl, f.sequenceNo.toNat_lt⟩
      · rw [acceptance_onWire call decode admits]
        simp only [Option.toList_some, List.map_cons, List.map_nil, UInt32.ofNat_toNat]

/-- A whole run is a trace of the window, with one generation for each epoch entered. -/
theorem run_trace (n : GroupNode) (xs : List (TimedCall S)) (gen : ℕ) (e : UInt64)
    (he : n.currentEpoch = e + UInt64.ofNat gen) :
    ∃ log, Window.Trace (n.window gen) log
        ((Machine.run step n xs).window (gen + (n.epochIncrements xs).length)) ∧
      (∀ m ∈ log, m.seq < 2 ^ 32) ∧ n.acceptances xs = log.map (markedFrame e) := by
  induction xs generalizing n gen with
  | nil => exact ⟨[], .nil, by simp, rfl⟩
  | cons x xs ih =>
      obtain ⟨head, hhead, hepoch, hbound, hacc⟩ := n.step_trace x gen
      have hnext : (n.step x).currentEpoch =
          e + UInt64.ofNat (gen + (n.entered x).length) := by
        rw [hepoch, he, UInt64.ofNat_add, UInt64.add_assoc]
      obtain ⟨rest, hrest, hseq, hmap⟩ := ih (n.step x) _ hnext
      refine ⟨head ++ rest, ?_, ?_, ?_⟩
      · have htrans := hhead.trans hrest
        rw [Nat.add_assoc] at htrans
        simpa only [epochIncrements, Machine.observe_cons, List.length_append, Machine.run_cons]
          using htrans
      · intro m hm
        rcases List.mem_append.mp hm with hm | hm
        · exact (hbound m hm).2
        · exact hseq m hm
      · have hhd : (n.acceptance x).toList = head.map (markedFrame e) := by
          rw [hacc]
          refine List.map_congr_left fun m hm => ?_
          rw [markedFrame, (hbound m hm).1, ← he]
        rw [acceptances, Machine.observe_cons, hhd, List.map_append, ← hmap]
        rfl

/-- Short of a wrap of the epoch counter, accepted numbers strictly increase in each epoch
and stream. -/
theorem acceptances_strict (n : GroupNode) (xs : List (TimedCall S))
    (hwrap : (n.epochIncrements xs).length < 2 ^ 64) :
    (n.acceptances xs).Pairwise fun a b => a.epoch = b.epoch → a.key = b.key → a.seq < b.seq := by
  obtain ⟨log, htrace, hseq, hmap⟩ := n.run_trace xs 0 n.currentEpoch (UInt64.add_zero _).symm
  rw [hmap, List.pairwise_map]
  apply htrace.strict.imp_of_mem
  intro a b ha hb hlt hepoch hkey
  have hga : a.gen < 2 ^ 64 := by
    have := (htrace.le_high a ha).1
    simp only [window] at this
    omega
  have hgb : b.gen < 2 ^ 64 := by
    have := (htrace.le_high b hb).1
    simp only [window] at this
    omega
  have hlt := hlt (Words.offset64_inj hga hgb hepoch) hkey
  simp only [markedFrame, UInt32.lt_iff_toNat_lt, UInt32.toNat_ofNat_of_lt' (hseq a ha),
    UInt32.toNat_ofNat_of_lt' (hseq b hb)]
  exact hlt

theorem acceptances_nodup (n : GroupNode) (xs : List (TimedCall S))
    (hwrap : (n.epochIncrements xs).length < 2 ^ 64) : (n.acceptances xs).Nodup := by
  refine (acceptances_strict n xs hwrap).imp ?_
  rintro a c hlt rfl
  have := hlt rfl rfl
  grind

/-! Deliveries and control dispatches are acceptances. -/

omit [Ciborium] [Sealer S] in
private theorem deliveredFrame_local {evs : List Event} (e : UInt64)
    (h : ∀ v ∈ evs, v.isLocal = true) : evs.filterMap (deliveredFrame e) = [] := by
  refine List.filterMap_eq_nil_iff.mpr fun v hv => ?_
  have := h v hv
  cases v <;> first | rfl | cases this

private theorem delivered_sublist (n : GroupNode) (x : TimedCall S) :
    ((n.emitted x).filterMap (deliveredFrame n.currentEpoch)).Sublist
      (n.acceptance x).toList := by
  cases n.step_effect x with
  | quiet keeps window admits pending events =>
      rw [deliveredFrame_local _ events]
      exact List.nil_sublist _
  | applied tid call =>
      rw [(step_applied call).2]
      exact List.nil_sublist _
  | received s wire f st call decode admits keeps window pending evs data own surfaces events =>
      rw [events, List.filterMap_append, deliveredFrame_local _ own, List.nil_append,
        acceptance_onWire call decode admits]
      cases surfaces with
      | nothing => exact List.nil_sublist _
      | payload plain opens app => exact List.Sublist.refl _
      | message plain c op opens ctl decodes opcode => exact List.nil_sublist _
  | executed s wire f plain c call decode admits opens message opcode pending names next events =>
      rw [events]
      exact List.nil_sublist _

/-- Short of a wrap of the epoch counter, no frame is delivered twice. -/
theorem deliveries_nodup (n : GroupNode) (xs : List (TimedCall S))
    (hwrap : (n.epochIncrements xs).length < 2 ^ 64) : (n.deliveries xs).Nodup :=
  (acceptances_nodup n xs hwrap).sublist (Machine.observe_sublist delivered_sublist n xs)

private theorem controlFrame_sublist (n : GroupNode) (x : TimedCall S) :
    (n.controlFrame x).toList.Sublist (n.acceptance x).toList := by
  unfold controlFrame
  split
  · rename_i s wire hcall
    split
    · rename_i f hd
      split
      · rename_i hadm hopen
        rw [acceptance_onWire hcall hd (admitted_eq_some.mp hadm)]
      · exact List.nil_sublist _
    · exact List.nil_sublist _
  · exact List.nil_sublist _

/-- Over every run of a bootstrapped node with fewer than `2 ^ 64` epoch changes, no frame
passes the replay check twice, none is delivered or handed to `handleControl` twice, and in
each epoch the accepted numbers of a stream strictly increase. -/
theorem accepts_at_most_once (id : MemberId) (gid : GroupId) (b : Bootstrap)
    (xs : List (TimedCall S))
    (hwrap : ((bootstrapped id gid b).epochIncrements xs).length < 2 ^ 64) :
    ((bootstrapped id gid b).acceptances xs).Nodup ∧
      ((bootstrapped id gid b).deliveries xs).Nodup ∧
      ((bootstrapped id gid b).controlFrames xs).Nodup ∧
      ((bootstrapped id gid b).acceptances xs).Pairwise
        fun a c => a.epoch = c.epoch → a.key = c.key → a.seq < c.seq := by
  refine ⟨acceptances_nodup _ xs hwrap, deliveries_nodup _ xs hwrap, ?_,
    acceptances_strict _ xs hwrap⟩
  exact (acceptances_nodup _ xs hwrap).sublist
    (Machine.observe_sublist controlFrame_sublist _ xs)

end Runs

/-- The run that replays one text frame around an epoch change. -/
def replayedRun : List (TimedCall PlainSealer) :=
  let gid := Vector.replicate 16 0
  let wire (epoch : UInt64) (seq : UInt32) :=
    (GbpFrame.new gid epoch 0 .text 101 0 seq [104, 105] 0).toCbor
  [⟨0, .onWire .plain (wire 0 1)⟩, ⟨1, .onWire .plain (wire 0 1)⟩, ⟨2, .applyTransition 1⟩,
    ⟨3, .onWire .plain (wire 1 1)⟩]

theorem accepts_at_most_once_replayedRun :
    (bootstrapped 2 (Vector.replicate 16 0) (.creator 0)).acceptances replayedRun =
        [⟨0, (.text, 101), 1⟩, ⟨1, (.text, 101), 1⟩] ∧
      ((bootstrapped 2 (Vector.replicate 16 0) (.creator 0)).deliveries replayedRun).Nodup :=
  ⟨by decide +kernel,
    (accepts_at_most_once 2 (Vector.replicate 16 0) (.creator 0) replayedRun
      (by decide +kernel)).2.1⟩

end GroupNode

end GroupProtocol
