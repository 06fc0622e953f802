import GroupProtocol.Base.Serde
import GroupProtocol.Transition.Handshake

/-!
# What a resolved transition leaves behind

A transition is resolved in five places, and each clears its own part of the context. A
deadline that survives its transition expires under a later one. The results say which
resolutions leave something behind, and that nothing else does.
-/

namespace GroupProtocol

namespace Handshake

/-- Nothing of a transition is left once none is pending. -/
def Clear (h : Handshake) : Prop :=
  h.pending = 0 → h.prepare = none ∧ h.execute = none ∧ h.sender = none

/-- A move names only transitions the matrix permits. -/
def Permitted (h : Handshake) : Move → Prop
  | .send op tid => h.Permits op tid
  | .accept op tid _ => h.Permits op tid
  | _ => True

/-- A move that resolves a transition finds nothing it would leave behind: a sent ABORT and
an expired PREPARE deadline keep the committer, an accepted EXECUTE keeps the PREPARE
deadline, and an application keeps both deadlines. -/
def resolves (h : Handshake) (now : Instant) : Move → Bool
  | .send .abortTransition _ => h.sender.isNone
  | .accept .executeTransition _ _ => h.prepare.isNone
  | .apply _ => h.prepare.isNone && h.execute.isNone
  | .check => !GroupNode.expired h.prepare now || h.sender.isNone
  | _ => true

theorem Permits.ne_zero {h : Handshake} {tid : TransitionId}
    (hp : h.Permits .prepareTransition tid) : tid ≠ 0 := by
  have hlt : h.last < tid := hp.1
  rintro rfl
  grind

theorem clear_of_pending {h : Handshake} (hp : h.pending ≠ 0) : h.Clear :=
  fun hz => absurd hz hp

private theorem sent_clear_iff {h : Handshake} {now : Instant} {op : ControlOpcode}
    {tid : TransitionId} (hp : h.Permits op tid) (hc : h.Clear) :
    (h.sent now op tid).Clear ↔ h.resolves now (.send op tid) = true := by
  cases op with
  | prepareTransition =>
      have hclear : (h.sent now .prepareTransition tid).Clear := clear_of_pending hp.ne_zero
      exact ⟨fun _ => rfl, fun _ => hclear⟩
  | readyForTransition =>
      have hclear : (h.sent now .readyForTransition tid).Clear := clear_of_pending hp.1
      exact ⟨fun _ => rfl, fun _ => hclear⟩
  | executeTransition =>
      have hclear : (h.sent now .executeTransition tid).Clear := clear_of_pending hp.1
      exact ⟨fun _ => rfl, fun _ => hclear⟩
  | abortTransition =>
      constructor
      · intro hclear
        exact Option.isNone_iff_eq_none.mpr (hclear rfl).2.2
      · intro hsender _
        exact ⟨rfl, rfl, Option.isNone_iff_eq_none.mp hsender⟩
  | _ => exact ⟨fun _ => rfl, fun _ => hc⟩

private theorem accepted_clear_iff {h : Handshake} {now : Instant} {op : ControlOpcode}
    {tid : TransitionId} {sender : MemberId} (hp : h.Permits op tid) (hc : h.Clear) :
    (h.accepted now op tid sender).Clear ↔ h.resolves now (.accept op tid sender) = true := by
  cases op with
  | prepareTransition =>
      have hclear : (h.accepted now .prepareTransition tid sender).Clear := by
        rw [accepted]
        split
        · exact hc
        · exact clear_of_pending hp.ne_zero
      exact ⟨fun _ => rfl, fun _ => hclear⟩
  | readyForTransition =>
      have hclear : (h.accepted now .readyForTransition tid sender).Clear :=
        clear_of_pending hp.1
      exact ⟨fun _ => rfl, fun _ => hclear⟩
  | executeTransition =>
      constructor
      · intro hclear
        exact Option.isNone_iff_eq_none.mpr (hclear rfl).1
      · intro hprepare _
        exact ⟨Option.isNone_iff_eq_none.mp hprepare, rfl, rfl⟩
  | abortTransition => exact ⟨fun _ => rfl, fun _ _ => ⟨rfl, rfl, rfl⟩⟩
  | _ => exact ⟨fun _ => rfl, fun _ => hc⟩

private theorem checked_clear_iff {h : Handshake} {now : Instant} (hc : h.Clear) :
    (h.checked now).Clear ↔ h.resolves now .check = true := by
  rw [checked, resolves]
  by_cases hexp : GroupNode.expired h.prepare now = true
  · rw [if_pos hexp, hexp, Bool.not_true, Bool.false_or, Option.isNone_iff_eq_none]
    constructor
    · intro hclear
      exact (hclear rfl).2.2
    · intro hsender _
      exact ⟨rfl, rfl, hsender⟩
  · rw [if_neg hexp, Bool.eq_false_iff.mpr hexp]
    refine ⟨fun _ => rfl, fun _ => ?_⟩
    split
    · intro hz
      obtain ⟨hprepare, -, hsender⟩ := hc hz
      exact ⟨hprepare, rfl, hsender⟩
    · exact hc

/-- A permitted move keeps the context clear exactly when it resolves cleanly. -/
theorem moved_clear_iff {h : Handshake} {now : Instant} {m : Move} (hp : h.Permitted m)
    (hc : h.Clear) : (h.moved now m).Clear ↔ h.resolves now m = true := by
  cases m with
  | rest => exact ⟨fun _ => rfl, fun _ => hc⟩
  | send op tid => exact sent_clear_iff hp hc
  | accept op tid sender => exact accepted_clear_iff hp hc
  | apply tid =>
      simp only [resolves, Bool.and_eq_true, Option.isNone_iff_eq_none]
      constructor
      · intro hclear
        obtain ⟨hprepare, hexecute, -⟩ := hclear rfl
        exact ⟨hprepare, hexecute⟩
      · rintro ⟨hprepare, hexecute⟩ _
        exact ⟨hprepare, hexecute, rfl⟩
  | check => exact checked_clear_iff hc

end Handshake

/-- The transitions the two deadlines were last armed for. -/
structure Armed where
  prepare : TransitionId
  execute : TransitionId

/-- Record the transition a move arms a deadline for. -/
def Armed.after (g : Armed) (h : Handshake) : Move → Armed
  | .send .prepareTransition tid => { g with prepare := tid }
  | .send .readyForTransition tid => { g with execute := tid }
  | .accept .prepareTransition tid sender =>
    if h.Loses tid sender then g else { g with execute := tid }
  | _ => g

/-- An armed deadline was armed for the pending transition. -/
structure Armed.Owns (g : Armed) (h : Handshake) : Prop where
  prepare : h.prepare ≠ none → g.prepare = h.pending
  execute : h.execute ≠ none → g.execute = h.pending

namespace Handshake

private theorem sent_owns {h : Handshake} {g : Armed} {now : Instant} {op : ControlOpcode}
    {tid : TransitionId} (hp : h.Permits op tid) (hg : g.Owns h) :
    (g.after h (.send op tid)).Owns (h.sent now op tid) := by
  cases op with
  | prepareTransition => exact ⟨fun _ => rfl, fun hn => absurd rfl hn⟩
  | readyForTransition => exact ⟨hg.prepare, fun _ => hp.2⟩
  | executeTransition => exact ⟨fun hn => absurd rfl hn, fun hn => absurd rfl hn⟩
  | abortTransition => exact ⟨fun hn => absurd rfl hn, fun hn => absurd rfl hn⟩
  | _ => exact hg

private theorem accepted_owns {h : Handshake} {g : Armed} {now : Instant} {op : ControlOpcode}
    {tid : TransitionId} {sender : MemberId} (hp : h.Permits op tid) (hc : h.Clear)
    (hnext : (h.accepted now op tid sender).Clear) (hg : g.Owns h) :
    (g.after h (.accept op tid sender)).Owns (h.accepted now op tid sender) := by
  cases op with
  | prepareTransition =>
      rw [accepted, Armed.after]
      by_cases hl : h.Loses tid sender
      · rw [if_pos hl, if_pos hl]
        exact hg
      · rw [if_neg hl, if_neg hl]
        refine ⟨fun hn => ?_, fun _ => rfl⟩
        -- A PREPARE deadline that is still armed belongs to a re-issue of the same transition.
        rcases hp.2 with hz | hsame
        · exact absurd (hc hz).1 hn
        · exact (hg.prepare hn).trans hsame
  | readyForTransition => exact ⟨fun hn => absurd rfl hn, hg.execute⟩
  | executeTransition => exact ⟨fun hn => absurd (hnext rfl).1 hn, fun hn => absurd rfl hn⟩
  | abortTransition => exact ⟨fun hn => absurd rfl hn, fun hn => absurd rfl hn⟩
  | _ => exact hg

/-- While the context stays clear, armed deadlines keep belonging to the pending
transition. -/
theorem moved_owns {h : Handshake} {g : Armed} {now : Instant} {m : Move}
    (hp : h.Permitted m) (hc : h.Clear) (hnext : (h.moved now m).Clear) (hg : g.Owns h) :
    (g.after h m).Owns (h.moved now m) := by
  cases m with
  | rest => exact hg
  | send op tid => exact sent_owns hp hg
  | accept op tid sender => exact accepted_owns hp hc hnext hg
  | apply tid =>
      obtain ⟨hprepare, hexecute, -⟩ := hnext rfl
      exact ⟨fun hn => absurd hprepare hn, fun hn => absurd hexecute hn⟩
  | check =>
      have hg' : g.Owns (h.checked now) := by
        rw [checked]
        split
        · exact ⟨fun hn => absurd rfl hn, fun hn => absurd rfl hn⟩
        · split
          · exact ⟨hg.prepare, fun hn => absurd rfl hn⟩
          · exact hg
      exact hg'

end Handshake

namespace GroupNode

theorem bootstrapped_handshake (id : MemberId) (gid : GroupId) (b : Bootstrap) :
    (bootstrapped id gid b).prepareDeadline = none ∧
      (bootstrapped id gid b).executeDeadline = none ∧
      (bootstrapped id gid b).pendingCommitSender = none := by
  cases b with
  | creator epoch => exact ⟨rfl, rfl, rfl⟩
  | joiner epoch tid =>
      rw [bootstrapped, bootstrapAsJoiner_new]
      exact ⟨rfl, rfl, rfl⟩

section Runs

variable [Ciborium] {S : Type} [Sealer S]

/-- A sent control message names a transition the matrix accepts. -/
def sendsPermitted (n : GroupNode) (x : TimedCall S) : Bool :=
  match x.call with
  | .sendControl _ _ op tid _ _ => n.tidOk op tid
  | _ => true

omit [Ciborium] [Sealer S] in
private theorem tidOk_of_sendsPermitted {n : GroupNode} {x : TimedCall S} {s : S}
    {target : MemberId} {op : ControlOpcode} {tid : TransitionId} {rid : UInt32} {args : Bytes}
    (h : n.sendsPermitted x = true) (hcall : x.call = .sendControl s target op tid rid args) :
    n.tidOk op tid = true := by
  simpa only [sendsPermitted, hcall] using h

theorem move_permitted {n : GroupNode} {x : TimedCall S} (h : n.sendsPermitted x = true) :
    n.handshake.Permitted (n.move x) := by
  rcases n.move_cases x with hm | ⟨s, target, op, tid, rid, args, hcall, hm⟩ |
    ⟨op, c, -, htid, hm⟩ | ⟨tid, -, hm⟩ | ⟨-, hm⟩
  · rw [hm]
    exact trivial
  · rw [hm]
    exact tidOk_iff.mp (tidOk_of_sendsPermitted h hcall)
  · rw [hm]
    exact tidOk_iff.mp htid
  · rw [hm]
    exact trivial
  · rw [hm]
    exact trivial

/-- A node and the transitions its deadlines were armed for, after a call. -/
def armedStep (p : GroupNode × Armed) (x : TimedCall S) : GroupNode × Armed :=
  (p.1.step x, p.2.after p.1.handshake (p.1.move x))

/-- A timeout check that finds a deadline expired finds it armed for the pending
transition. -/
def TimesOutOwn (p : GroupNode × Armed) (x : TimedCall S) : Prop :=
  x.call = .checkTimeouts →
    (expired p.1.prepareDeadline x.now = true → p.2.prepare = p.1.pendingTransitionId) ∧
      (expired p.1.executeDeadline x.now = true → p.2.execute = p.1.pendingTransitionId)

omit [Ciborium] [Sealer S] in
private theorem ne_none_of_expired {d : Option Instant} {now : Instant}
    (h : expired d now = true) : d ≠ none := by
  rintro rfl
  cases h

theorem step_clear_iff {n : GroupNode} {x : TimedCall S} (hx : n.sendsPermitted x = true)
    (hn : n.handshake.Clear) :
    (n.step x).handshake.Clear ↔ n.handshake.resolves x.now (n.move x) = true := by
  rw [step_handshake]
  exact Handshake.moved_clear_iff (move_permitted hx) hn

/-- Along a run that resolves cleanly every timeout is one of the pending transition. -/
theorem timesOutOwn_of_resolves {n : GroupNode} {g : Armed} {xs : List (TimedCall S)}
    (hsends : Machine.Along step (fun n x => n.sendsPermitted x = true) n xs)
    (hres : Machine.Along step (fun n x => n.handshake.resolves x.now (n.move x) = true) n xs)
    (hc : n.handshake.Clear) (hg : g.Owns n.handshake) :
    Machine.Along armedStep TimesOutOwn (n, g) xs := by
  induction xs generalizing n g with
  | nil => exact trivial
  | cons x xs ih =>
      have hp := move_permitted hsends.1
      have hnext : (n.step x).handshake.Clear := (step_clear_iff hsends.1 hc).mpr hres.1
      have hown : (g.after n.handshake (n.move x)).Owns (n.step x).handshake := by
        rw [step_handshake] at hnext ⊢
        exact Handshake.moved_owns hp hc hnext hg
      refine ⟨fun _ => ⟨fun he => ?_, fun he => ?_⟩, ih hsends.2 hres.2 hnext hown⟩
      · exact hg.prepare (ne_none_of_expired he)
      · exact hg.execute (ne_none_of_expired he)

/-- Over every run of a bootstrapped node whose sends the matrix accepts: nothing of a
transition is left behind at any point, and every timeout is one of the transition pending
at that time, exactly when every call that resolves a transition finds nothing it would
leave behind. -/
theorem context_clear_iff (id : MemberId) (gid : GroupId) (b : Bootstrap)
    (xs : List (TimedCall S))
    (hsends : Machine.Along step (fun n x => n.sendsPermitted x = true)
      (bootstrapped id gid b) xs) :
    ((∀ ys, ys <+: xs → (Machine.run step (bootstrapped id gid b) ys).handshake.Clear) ∧
        Machine.Along armedStep TimesOutOwn (bootstrapped id gid b, ⟨0, 0⟩) xs) ↔
      Machine.Along step (fun n x => n.handshake.resolves x.now (n.move x) = true)
        (bootstrapped id gid b) xs := by
  obtain ⟨hprepare, hexecute, hsender⟩ := bootstrapped_handshake id gid b
  have hclear : (bootstrapped id gid b).handshake.Clear :=
    fun _ => ⟨hprepare, hexecute, hsender⟩
  have hown : Armed.Owns ⟨0, 0⟩ (bootstrapped id gid b).handshake :=
    ⟨fun hn => absurd hprepare hn, fun hn => absurd hexecute hn⟩
  have hpoints := Machine.prefix_invariant_iff (fun n => n.handshake.Clear) hsends hclear
    fun _ _ hx hn => step_clear_iff hx hn
  constructor
  · rintro ⟨hall, -⟩
    exact hpoints.mp hall
  · intro hres
    exact ⟨hpoints.mpr hres, timesOutOwn_of_resolves hsends hres hclear hown⟩

end Runs

/-- A control message of member 1 as a node of the test group receives it. -/
def fromMemberOne (now : Instant) (epoch : UInt64) (seq : SequenceNo) (op : ControlOpcode)
    (tid : TransitionId) : TimedCall PlainSealer :=
  ⟨now, .onWire .plain (GbpFrame.new (Vector.replicate 16 0) epoch 0 .control 100 0 seq
    (ControlMessage.withArgs op.asU16 0 1 tid []).toCbor 0).toCbor⟩

/-- A control message a node of the test group sends. -/
def toGroup (now : Instant) (op : ControlOpcode) (tid : TransitionId) : TimedCall PlainSealer :=
  ⟨now, .sendControl .plain 0 op tid 0 []⟩

/-- Node 2 issues transition 1, receives its EXECUTE, then a PREPARE for transition 2, and
checks its deadlines five seconds after its own PREPARE. -/
def staleRun : List (TimedCall PlainSealer) :=
  [toGroup 0 .prepareTransition 1, fromMemberOne 1 0 1 .executeTransition 1,
    fromMemberOne 2 1 1 .prepareTransition 2, ⟨5000000000, .checkTimeouts⟩]

/-- The deadline of transition 1 survives its EXECUTE and aborts transition 2. -/
theorem stale_deadline_aborts :
    let n := bootstrapped 2 (Vector.replicate 16 0) (.creator 0)
    Machine.Along step (fun n x => n.sendsPermitted x = true) n staleRun ∧
      ¬(∀ ys, ys <+: staleRun → (Machine.run step n ys).handshake.Clear) ∧
      ¬Machine.Along armedStep TimesOutOwn (n, ⟨0, 0⟩) staleRun ∧
      (Machine.run step n (staleRun.take 3)).pendingTransitionId = 2 ∧
      (Machine.run step n staleRun).pendingTransitionId = 0 := by
  intro n
  refine ⟨by decide +kernel, ?_, ?_, by decide +kernel, by decide +kernel⟩
  · intro h
    have hclear := h (staleRun.take 2) (List.take_prefix 2 staleRun)
    exact absurd (hclear (by decide +kernel)).1 (by decide +kernel)
  · rintro ⟨-, -, -, hown, -⟩
    exact absurd ((hown rfl).1 (by decide +kernel)) (by decide +kernel)

/-- Node 2 runs transition 1 to its end as its issuer. -/
def issuerRun : List (TimedCall PlainSealer) :=
  [toGroup 0 .prepareTransition 1, fromMemberOne 1 0 1 .readyForTransition 1,
    toGroup 2 .executeTransition 1, ⟨3, .applyTransition 1⟩, ⟨5000000000, .checkTimeouts⟩]

theorem context_clear_issuerRun :
    let n := bootstrapped 2 (Vector.replicate 16 0) (.creator 0)
    (∀ ys, ys <+: issuerRun → (Machine.run step n ys).handshake.Clear) ∧
      Machine.Along armedStep TimesOutOwn (n, ⟨0, 0⟩) issuerRun :=
  (context_clear_iff 2 (Vector.replicate 16 0) (.creator 0) issuerRun
    (by decide +kernel)).mpr (by decide +kernel)

end GroupNode

end GroupProtocol
