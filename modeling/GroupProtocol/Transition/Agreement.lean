import GroupProtocol.Base.Serde
import GroupProtocol.Lib.Words
import GroupProtocol.Node.Calls

/-!
# Epoch-transition agreement

One coordinator drives transitions over a network that loses, duplicates and reorders
frames. Every EXECUTE in flight carries the epoch in which the coordinator sent it, so a
member that obeys it lands on a pair of epoch and transition the coordinator itself holds,
and strictly increasing transition ids keep those pairs apart.
-/

namespace GroupProtocol

open GroupNode

namespace Handshake

/-- The bytes a send puts on the network. -/
def wires (r : Except NodeError OutboundFrame) : List Bytes :=
  match r with
  | .ok o => [o.wire]
  | .error _ => []

/-- A coordinator, the node `none`, its members and the frames produced so far. -/
structure World (ι : Type) where
  node : Option ι → GroupNode
  /-- Every frame ever produced: delivery may pick any of them, any number of times. -/
  net : List Bytes
  /-- The transition the coordinator has prepared and not yet finished. -/
  phase : Option TransitionId
  /-- The largest transition id the coordinator has used. -/
  issued : TransitionId
  /-- Every pair of epoch and applied transition the coordinator has held. -/
  held : List (UInt64 × TransitionId)
  /-- The nodes that have applied a transition. -/
  applied : Option ι → Bool

/-- What the parties and the network can do. A step that the coordinator's discipline does
not allow, or a delivery of a frame that does not exist, does nothing. -/
inductive Action (ι S : Type)
  | prepare (now : Instant) (s : S) (target : MemberId) (tid : TransitionId) (rid : UInt32)
      (args : Bytes)
  | abort (now : Instant) (s : S) (target : MemberId) (rid : UInt32) (args : Bytes)
  | execute (now : Instant) (s : S) (target : MemberId) (rid : UInt32) (args : Bytes)
  | ready (i : ι) (now : Instant) (s : S) (target : MemberId) (tid : TransitionId)
      (rid : UInt32) (args : Bytes)
  | timeouts (p : Option ι) (now : Instant)
  | deliver (p : Option ι) (now : Instant) (s : S) (index : ℕ)

namespace World

variable {ι : Type}

/-- The pair of epoch and applied transition of a node. -/
def pair (w : World ι) (p : Option ι) : UInt64 × TransitionId :=
  ((w.node p).currentEpoch, (w.node p).lastTransitionId)

/-- The start: nodes in any state, nothing sent, nothing applied. -/
def init (node : Option ι → GroupNode) : World ι where
  node := node
  net := []
  phase := none
  issued := (node none).lastTransitionId
  held := [((node none).currentEpoch, (node none).lastTransitionId)]
  applied := fun _ => false

section Step

variable [DecidableEq ι]

/-- Replace one node. -/
def setNode (w : World ι) (p : Option ι) (n : GroupNode) : World ι :=
  { w with node := Function.update w.node p n }

theorem pair_setNode_self (w : World ι) (p : Option ι) (n : GroupNode) :
    (w.setNode p n).pair p = (n.currentEpoch, n.lastTransitionId) := by
  simp only [pair, setNode, Function.update_self]

theorem pair_setNode_ne (w : World ι) {p q : Option ι} (n : GroupNode) (h : q ≠ p) :
    (w.setNode p n).pair q = w.pair q := by
  simp only [pair, setNode, Function.update_of_ne h]

/-- Replacing a node by one with the same pair changes no pair. -/
theorem pair_setNode_keeps (w : World ι) {p : Option ι} {n : GroupNode}
    (h : Keeps (w.node p) n) (q : Option ι) : (w.setNode p n).pair q = w.pair q := by
  by_cases hq : q = p
  · subst hq
    rw [pair_setNode_self, h.epoch, h.last]
    rfl
  · exact pair_setNode_ne w n hq

variable [Ciborium] {S : Type} [Sealer S]

/-- A control send of one node. -/
def send (w : World ι) (p : Option ι) (now : Instant) (s : S) (target : MemberId)
    (op : ControlOpcode) (tid : TransitionId) (rid : UInt32) (args : Bytes) : World ι :=
  { w.setNode p ((w.node p).sendControl s target op tid rid args now).2.1 with
    net := w.net ++ wires ((w.node p).sendControl s target op tid rid args now).1 }

/-- The effect of an action on nodes and network. -/
def act (w : World ι) : Action ι S → World ι
  | .prepare now s target tid rid args =>
    if w.phase = none ∧ w.issued < tid then
      { w.send none now s target .prepareTransition tid rid args with
        phase := some tid, issued := tid }
    else w
  | .abort now s target rid args =>
    match w.phase with
    | some tid => { w.send none now s target .abortTransition tid rid args with phase := none }
    | none => w
  | .execute now s target rid args =>
    match w.phase with
    | some tid =>
      let w := w.send none now s target .executeTransition tid rid args
      { w.setNode none ((w.node none).applyTransition tid) with phase := none }
    | none => w
  | .ready i now s target tid rid args =>
    w.send (some i) now s target .readyForTransition tid rid args
  | .timeouts p now => w.setNode p ((w.node p).checkTimeouts now).2
  | .deliver p now s index =>
    match w.net[index]? with
    | some wire => w.setNode p ((w.node p).onWire s wire now).2.1
    | none => w

/-- One action, with the coordinator's pair and the nodes that changed epoch noted. -/
def step (w : World ι) (a : Action ι S) : World ι :=
  let next := w.act a
  { next with
    held := w.held ++ [next.pair none]
    applied := fun p =>
      w.applied p || decide ((next.node p).currentEpoch ≠ (w.node p).currentEpoch) }

/-- Some party can read the frame as an EXECUTE of `tid` framed in the epoch `ep`. -/
def Executes (S : Type) [Sealer S] (wire : Bytes) (ep : UInt64) (tid : TransitionId) : Prop :=
  ∃ (f : GbpFrame) (r : S) (plain : Bytes) (c : ControlMessage),
    GbpFrame.decode wire = .ok f ∧
    (Sealer.open r .control f.sequenceNo f.encryptedPayload).1 = .ok plain ∧
    ControlMessage.fromCbor plain = .ok c ∧
    ControlOpcode.tryFrom c.opcode = .ok .executeTransition ∧
    f.epoch = ep ∧ c.transitionId = tid

/-- The changes an action can make to what the parties have agreed on. -/
inductive Change (S : Type) [Sealer S] (w next : World ι) : Prop
  /-- No node changes its pair; the coordinator may open or drop a transition. -/
  | stutter (pairs : ∀ p, next.pair p = w.pair p)
      (net : ∀ wire ∈ next.net, wire ∈ w.net ∨ ∀ ep tid, ¬Executes S wire ep tid)
      (phase : next.issued = w.issued ∧ (next.phase = w.phase ∨ next.phase = none) ∨
        w.issued < next.issued ∧ next.phase = some next.issued)
  /-- The coordinator sends the EXECUTE of its transition and applies it. -/
  | commit (tid : TransitionId) (phase : w.phase = some tid) (done : next.phase = none)
      (issued : next.issued = w.issued)
      (coord : next.pair none = ((w.node none).currentEpoch + 1, tid))
      (others : ∀ i, next.pair (some i) = w.pair (some i))
      (net : ∀ wire ∈ next.net, wire ∈ w.net ∨
        ∀ ep t, Executes S wire ep t → ep = (w.node none).currentEpoch ∧ t = tid)
  /-- A node obeys an EXECUTE framed in its own epoch. -/
  | obey (p : Option ι) (wire : Bytes) (tid : TransitionId) (sent : wire ∈ w.net)
      (executes : Executes S wire (w.node p).currentEpoch tid)
      (moved : next.pair p = ((w.node p).currentEpoch + 1, tid))
      (others : ∀ q, q ≠ p → next.pair q = w.pair q) (net : next.net = w.net)
      (phase : next.phase = w.phase) (issued : next.issued = w.issued)

/-- A frame just sent is read as an EXECUTE only if it is one. -/
theorem wires_executes (hS : Sealer.OpensOnlySealed S) {n : GroupNode} {s : S}
    {target : MemberId} {op : ControlOpcode} {tid t : TransitionId} {rid : UInt32} {args : Bytes}
    {now : Instant} {wire : Bytes} {ep : UInt64}
    (hw : wire ∈ wires (n.sendControl s target op tid rid args now).1)
    (he : Executes S wire ep t) : op = .executeTransition ∧ ep = n.currentEpoch ∧ t = tid := by
  obtain ⟨f, r, plain, c, hd, ho, hc, hop, rfl, rfl⟩ := he
  cases hsend : (n.sendControl s target op tid rid args now).1 with
  | error e =>
      rw [hsend] at hw
      cases hw
  | ok o =>
      rw [hsend, wires, List.mem_singleton] at hw
      subst hw
      obtain ⟨hepoch, hctl⟩ := sendControl_read hS hsend hd ho hc
      subst hctl
      simp only [ControlMessage.withArgs, ControlOpcode.tryFrom_asU16, Except.ok.injEq] at hop
      exact ⟨hop, hepoch, rfl⟩

theorem send_net (hS : Sealer.OpensOnlySealed S) (w : World ι) (p : Option ι) (now : Instant)
    (s : S) (target : MemberId) {op : ControlOpcode} (tid : TransitionId) (rid : UInt32)
    (args : Bytes) (hop : op ≠ .executeTransition) :
    ∀ wire ∈ (w.send p now s target op tid rid args).net,
      wire ∈ w.net ∨ ∀ ep t, ¬Executes S wire ep t := by
  intro wire hw
  rcases List.mem_append.mp hw with hw | hw
  · exact Or.inl hw
  · exact Or.inr fun ep t he => hop (wires_executes hS hw he).1

theorem send_pair (w : World ι) (p : Option ι) (now : Instant) (s : S) (target : MemberId)
    (op : ControlOpcode) (tid : TransitionId) (rid : UInt32) (args : Bytes) (q : Option ι) :
    (w.send p now s target op tid rid args).pair q = w.pair q :=
  pair_setNode_keeps w ((w.node p).sendControl_keeps s target op tid rid args now) q

/-- A node that keeps its pair changes nothing that was agreed on. -/
theorem change_of_keeps (w : World ι) {p : Option ι} {n : GroupNode} (h : Keeps (w.node p) n) :
    Change S w (w.setNode p n) :=
  .stutter (pair_setNode_keeps w h) (fun _ hwire => Or.inl hwire) (Or.inl ⟨rfl, Or.inl rfl⟩)

/-- Sending the EXECUTE and applying it commits the open transition. -/
theorem execute_change (hS : Sealer.OpensOnlySealed S) (w : World ι) (now : Instant) (s : S)
    (target : MemberId) {tid : TransitionId} (rid : UInt32) (args : Bytes)
    (h : w.phase = some tid) :
    let sent := w.send none now s target .executeTransition tid rid args
    Change S w { sent.setNode none ((sent.node none).applyTransition tid) with phase := none } := by
  intro sent
  have hkeep := (w.node none).sendControl_keeps s target .executeTransition tid rid args now
  refine .commit tid h rfl rfl ?_ ?_ ?_
  · refine (pair_setNode_self _ none _).trans ?_
    simp only [sent, applyTransition, push, send, setNode, Function.update_self, hkeep.epoch]
  · intro i
    have hpair := w.send_pair none now s target .executeTransition tid rid args (some i)
    rw [← hpair]
    exact pair_setNode_ne sent _ (Option.some_ne_none i)
  · intro wire hw
    rcases List.mem_append.mp hw with hw | hw
    · exact Or.inl hw
    · exact Or.inr fun ep t he => (wires_executes hS hw he).2

/-- A delivered frame changes the pair of its receiver only as an EXECUTE that it obeys. -/
theorem deliver_change (w : World ι) (p : Option ι) (now : Instant) (s : S) {wire : Bytes}
    (hwire : wire ∈ w.net) :
    Change S w (w.setNode p ((w.node p).onWire s wire now).2.1) := by
  have hstep : ((w.node p).onWire s wire now).2.1 =
    (w.node p).step (⟨now, .onWire s wire⟩ : TimedCall S) := rfl
  rw [hstep]
  cases (w.node p).step_effect (⟨now, .onWire s wire⟩ : TimedCall S) with
  | quiet keeps window admits pending events => exact change_of_keeps w keeps
  | applied tid call => cases call
  | received s' wire' f st call decode admits keeps window pending evs data own surfaces events =>
      exact change_of_keeps w keeps
  | executed s' wire' f plain c call decode admits opens message opcode pending names next
      events =>
      cases call
      refine .obey p wire c.transitionId hwire
        ⟨f, s, plain, c, decode, opens, message, opcode, admits.epoch, rfl⟩ ?_
        (fun q hq => pair_setNode_ne w _ hq) rfl rfl rfl
      rw [pair_setNode_self, next, names]

/-- Every action makes one of the listed changes. -/
theorem act_change (hS : Sealer.OpensOnlySealed S) (w : World ι) (a : Action ι S) :
    Change S w (w.act a) := by
  have hidle : Change S w w :=
    .stutter (fun _ => rfl) (fun _ h => Or.inl h) (Or.inl ⟨rfl, Or.inl rfl⟩)
  cases a with
  | prepare now s target tid rid args =>
      rw [act]
      split
      · rename_i h
        exact .stutter (w.send_pair none now s target _ tid rid args)
          (send_net hS w none now s target tid rid args (by decide)) (Or.inr ⟨h.2, rfl⟩)
      · exact hidle
  | abort now s target rid args =>
      rw [act]
      split
      · rename_i tid h
        exact .stutter (w.send_pair none now s target _ tid rid args)
          (send_net hS w none now s target tid rid args (by decide))
          (Or.inl ⟨rfl, Or.inr rfl⟩)
      · exact hidle
  | execute now s target rid args =>
      rw [act]
      split
      · rename_i tid h
        exact execute_change hS w now s target rid args h
      · exact hidle
  | ready i now s target tid rid args =>
      exact .stutter (w.send_pair (some i) now s target _ tid rid args)
        (send_net hS w (some i) now s target tid rid args (by decide))
        (Or.inl ⟨rfl, Or.inl rfl⟩)
  | timeouts p now =>
      obtain ⟨pending, tstate, prep, exec, seen, coord, state, evs, -, -, heq⟩ :=
        (w.node p).checkTimeouts_node now
      refine change_of_keeps w ?_
      rw [heq]
      exact ⟨rfl, rfl, rfl, rfl⟩
  | deliver p now s index =>
      rw [act]
      split
      · rename_i wire hwire
        exact deliver_change w p now s (List.mem_of_getElem? hwire)
      · exact hidle

/-- The transitions the coordinator has applied, in order, explain every pair: the `k`-th
of them led from the epoch `e + k` to the epoch `e + k + 1`. -/
structure Inv (S : Type) [Sealer S] (e : UInt64) (w : World ι) (hist : List TransitionId) :
    Prop where
  sorted : hist.Pairwise (· < ·)
  below : ∀ t ∈ hist, t ≤ w.issued
  phase : ∀ t, w.phase = some t → t ≤ w.issued ∧ ∀ u ∈ hist, u < t
  epoch : (w.node none).currentEpoch = e + UInt64.ofNat hist.length
  held : ∀ k t, hist[k]? = some t → (e + UInt64.ofNat (k + 1), t) ∈ w.held
  net : ∀ wire ∈ w.net, ∀ ep t, Executes S wire ep t →
    ∃ k, hist[k]? = some t ∧ ep = e + UInt64.ofNat k
  applied : ∀ p, w.applied p = true →
    ∃ k t, hist[k]? = some t ∧ w.pair p = (e + UInt64.ofNat (k + 1), t)

omit [DecidableEq ι] in
theorem inv_init (node : Option ι → GroupNode) :
    Inv S (node none).currentEpoch (init node) [] where
  sorted := List.Pairwise.nil
  below := by simp
  phase := by intro t h; cases h
  epoch := (UInt64.add_zero _).symm
  held := by simp
  net := by intro wire h; cases h
  applied := by intro p h; cases h

omit [DecidableEq ι] in
/-- Two places of the history with the same epoch are the same place. -/
theorem Inv.place_unique {e : UInt64} {w : World ι} {hist : List TransitionId}
    (h : Inv S e w hist) {j k : ℕ} (hj : j ≤ hist.length) (hk : k ≤ hist.length)
    (he : e + UInt64.ofNat j = e + UInt64.ofNat k) : j = k := by
  have hlen := Words.length_le_of_sorted h.sorted
  exact Words.offset64_inj (by omega) (by omega) he

/-- A node whose pair did not change has applied nothing new. -/
private theorem applied_of_same {w : World ι} {a : Action ι S} {p : Option ι}
    (hp : (w.act a).pair p = w.pair p) (h : (w.step a).applied p = true) :
    w.applied p = true := by
  have hepoch : ((w.act a).node p).currentEpoch = (w.node p).currentEpoch :=
    congrArg Prod.fst hp
  simpa only [step, hepoch, ne_eq, not_true_eq_false, decide_false, Bool.or_false] using h

omit [Ciborium] in
private theorem getElem?_snoc {hist : List TransitionId} {k : ℕ} {t : TransitionId}
    (tid : TransitionId) (h : hist[k]? = some t) : (hist ++ [tid])[k]? = some t := by
  rw [List.getElem?_append_left (List.getElem?_eq_some_iff.mp h).1]
  exact h

/-- An action that changes no pair keeps the history. -/
private theorem inv_stutter {e : UInt64} {w : World ι} {hist : List TransitionId}
    (h : Inv S e w hist) {a : Action ι S} (pairs : ∀ p, (w.act a).pair p = w.pair p)
    (net : ∀ wire ∈ (w.act a).net, wire ∈ w.net ∨ ∀ ep tid, ¬Executes S wire ep tid)
    (phase : (w.act a).issued = w.issued ∧ ((w.act a).phase = w.phase ∨ (w.act a).phase = none) ∨
      w.issued < (w.act a).issued ∧ (w.act a).phase = some (w.act a).issued) :
    Inv S e (w.step a) hist := by
  refine ⟨h.sorted, ?_, ?_, ?_, ?_, ?_, ?_⟩
  · intro t ht
    have hle := h.below t ht
    show t ≤ (w.act a).issued
    rcases phase with ⟨hi, -⟩ | ⟨hi, -⟩
    · rw [hi]
      exact hle
    · exact UInt32.le_of_lt (UInt32.lt_of_le_of_lt hle hi)
  · intro t ht
    show t ≤ (w.act a).issued ∧ _
    have ht' : (w.act a).phase = some t := ht
    rcases phase with ⟨hi, hp | hp⟩ | ⟨hi, hp⟩
    · rw [hi]
      exact h.phase t (hp ▸ ht')
    · rw [hp] at ht'
      cases ht'
    · rw [hp] at ht'
      rw [← Option.some.inj ht']
      exact ⟨UInt32.le_refl _, fun u hu => UInt32.lt_of_le_of_lt (h.below u hu) hi⟩
  · exact (congrArg Prod.fst (pairs none)).trans h.epoch
  · intro k t hk
    exact List.mem_append_left _ (h.held k t hk)
  · intro wire hw ep t he
    rcases net wire hw with hold | hnew
    · exact h.net wire hold ep t he
    · exact absurd he (hnew ep t)
  · intro p hp
    obtain ⟨k, t, hk, hpair⟩ := h.applied p (applied_of_same (pairs p) hp)
    exact ⟨k, t, hk, (pairs p).trans hpair⟩

/-- A committed transition is the next place of the history. -/
private theorem inv_commit {e : UInt64} {w : World ι} {hist : List TransitionId}
    (h : Inv S e w hist) {a : Action ι S} {tid : TransitionId} (phase : w.phase = some tid)
    (done : (w.act a).phase = none) (issued : (w.act a).issued = w.issued)
    (coord : (w.act a).pair none = ((w.node none).currentEpoch + 1, tid))
    (others : ∀ i, (w.act a).pair (some i) = w.pair (some i))
    (net : ∀ wire ∈ (w.act a).net, wire ∈ w.net ∨
      ∀ ep t, Executes S wire ep t → ep = (w.node none).currentEpoch ∧ t = tid) :
    Inv S e (w.step a) (hist ++ [tid]) := by
  obtain ⟨htid, habove⟩ := h.phase tid phase
  have hlast : (hist ++ [tid])[hist.length]? = some tid := List.getElem?_concat_length
  have hcoord : (w.act a).pair none = (e + UInt64.ofNat (hist.length + 1), tid) := by
    rw [coord, h.epoch, UInt64.ofNat_add, UInt64.add_assoc]
    rfl
  refine ⟨?_, ?_, ?_, ?_, ?_, ?_, ?_⟩
  · refine List.pairwise_append.mpr ⟨h.sorted, List.pairwise_singleton _ _, ?_⟩
    intro u hu t ht
    rw [List.mem_singleton.mp ht]
    exact habove u hu
  · intro t ht
    show t ≤ (w.act a).issued
    rw [issued]
    rcases List.mem_append.mp ht with ht | ht
    · exact h.below t ht
    · rw [List.mem_singleton.mp ht]
      exact htid
  · intro t ht
    have ht' : (w.act a).phase = some t := ht
    rw [done] at ht'
    cases ht'
  · rw [List.length_append, List.length_singleton]
    exact congrArg Prod.fst hcoord
  · intro k t hk
    show (_, t) ∈ w.held ++ [(w.act a).pair none]
    rcases Nat.lt_or_ge k hist.length with hlt | hge
    · rw [List.getElem?_append_left hlt] at hk
      exact List.mem_append_left _ (h.held k t hk)
    · have hbound := (List.getElem?_eq_some_iff.mp hk).1
      rw [List.length_append, List.length_singleton] at hbound
      obtain rfl : k = hist.length := by omega
      obtain rfl := Option.some.inj (hlast.symm.trans hk)
      rw [hcoord]
      exact List.mem_append_right _ (List.mem_singleton_self _)
  · intro wire hw ep t he
    rcases net wire hw with hold | hnew
    · obtain ⟨k, hk, hep⟩ := h.net wire hold ep t he
      exact ⟨k, getElem?_snoc tid hk, hep⟩
    · obtain ⟨hep, rfl⟩ := hnew ep t he
      exact ⟨hist.length, hlast, hep.trans h.epoch⟩
  · intro p hp
    cases p with
    | none => exact ⟨hist.length, tid, hlast, hcoord⟩
    | some i =>
        obtain ⟨k, t, hk, hpair⟩ := h.applied _ (applied_of_same (others i) hp)
        exact ⟨k, t, getElem?_snoc tid hk, (others i).trans hpair⟩

/-- A node that obeys an EXECUTE moves to the place after the one it was framed in. -/
private theorem inv_obey {e : UInt64} {w : World ι} {hist : List TransitionId}
    (h : Inv S e w hist) {a : Action ι S} {p : Option ι} {wire : Bytes} {tid : TransitionId}
    (sent : wire ∈ w.net) (executes : Executes S wire (w.node p).currentEpoch tid)
    (moved : (w.act a).pair p = ((w.node p).currentEpoch + 1, tid))
    (others : ∀ q, q ≠ p → (w.act a).pair q = w.pair q) (net : (w.act a).net = w.net)
    (phase : (w.act a).phase = w.phase) (issued : (w.act a).issued = w.issued) :
    Inv S e (w.step a) hist := by
  obtain ⟨k, hk, hep⟩ := h.net wire sent _ tid executes
  -- The coordinator has left every epoch it framed an EXECUTE in.
  have hp : none ≠ p := by
    rintro rfl
    have hlt := (List.getElem?_eq_some_iff.mp hk).1
    have := h.place_unique (le_refl _) hlt.le (h.epoch.symm.trans hep)
    omega
  refine ⟨h.sorted, ?_, ?_, ?_, ?_, ?_, ?_⟩
  · intro t ht
    show t ≤ (w.act a).issued
    rw [issued]
    exact h.below t ht
  · intro t ht
    show t ≤ (w.act a).issued ∧ _
    rw [issued]
    exact h.phase t (phase ▸ ht)
  · exact (congrArg Prod.fst (others none hp)).trans h.epoch
  · intro j t hj
    exact List.mem_append_left _ (h.held j t hj)
  · intro wire' hw
    have hw' : wire' ∈ (w.act a).net := hw
    rw [net] at hw'
    exact h.net wire' hw'
  · intro q hq
    by_cases hqp : q = p
    · subst hqp
      refine ⟨k, tid, hk, moved.trans ?_⟩
      rw [hep, UInt64.ofNat_add, UInt64.add_assoc]
      rfl
    · obtain ⟨j, t, hj, hpair⟩ := h.applied q (applied_of_same (others q hqp) hq)
      exact ⟨j, t, hj, (others q hqp).trans hpair⟩

/-- Every action keeps the invariant, for the same history or for one more transition. -/
theorem inv_step (hS : Sealer.OpensOnlySealed S) {e : UInt64} {w : World ι}
    {hist : List TransitionId} (h : Inv S e w hist) (a : Action ι S) :
    ∃ more, Inv S e (w.step a) (hist ++ more) := by
  cases act_change hS w a with
  | stutter pairs net phase =>
      refine ⟨[], ?_⟩
      rw [List.append_nil]
      exact inv_stutter h pairs net phase
  | commit tid phase done issued coord others net =>
      exact ⟨[tid], inv_commit h phase done issued coord others net⟩
  | obey p wire tid sent executes moved others net phase issued =>
      refine ⟨[], ?_⟩
      rw [List.append_nil]
      exact inv_obey h sent executes moved others net phase issued

/-- Some history explains the world. -/
def Explained (S : Type) [Sealer S] (e : UInt64) (w : World ι) : Prop := ∃ hist, Inv S e w hist

/-- Every run has a history. -/
theorem explained_run (hS : Sealer.OpensOnlySealed S) (node : Option ι → GroupNode)
    (as : List (Action ι S)) :
    Explained S (node none).currentEpoch (Machine.run step (init node) as) := by
  have hinit : Explained S (node none).currentEpoch (init node) := ⟨[], inv_init node⟩
  apply Machine.run_invariant hinit
  rintro w a - ⟨hist, h⟩
  obtain ⟨more, hmore⟩ := inv_step hS h a
  exact ⟨hist ++ more, hmore⟩

/-- In every run, two nodes that have each applied a transition and are in the same epoch
have applied the same transition last, and the coordinator has held that pair. -/
theorem epoch_agreement (hS : Sealer.OpensOnlySealed S) (node : Option ι → GroupNode)
    (as : List (Action ι S)) (p q : Option ι) :
    let w := Machine.run step (init node) as
    w.applied p = true → w.applied q = true →
      (w.node p).currentEpoch = (w.node q).currentEpoch →
        (w.node p).lastTransitionId = (w.node q).lastTransitionId ∧ w.pair p ∈ w.held := by
  intro w hp hq he
  obtain ⟨hist, h⟩ := explained_run hS node as
  obtain ⟨j, t, hj, hpj⟩ := h.applied p hp
  obtain ⟨k, u, hk, hqk⟩ := h.applied q hq
  have hjlt := (List.getElem?_eq_some_iff.mp hj).1
  have hklt := (List.getElem?_eq_some_iff.mp hk).1
  have hjk : j + 1 = k + 1 := by
    refine h.place_unique (by omega) (by omega) ?_
    have hpe := congrArg Prod.fst hpj
    have hqe := congrArg Prod.fst hqk
    exact hpe.symm.trans (he.trans hqe)
  obtain rfl : j = k := by omega
  obtain rfl := Option.some.inj (hj.symm.trans hk)
  refine ⟨(congrArg Prod.snd hpj).trans (congrArg Prod.snd hqk).symm, ?_⟩
  rw [hpj]
  exact h.held j t hj

end Step

/-- Coordinator 1 and member 2 in epoch four. -/
def twoNodes (p : Option Unit) : GroupNode :=
  bootstrapped (if p = none then 1 else 2) (Vector.replicate 16 0) (.creator 4)

/-- The coordinator completes transition 1; the member receives its frames twice. -/
def completedHandshake : List (Action Unit PlainSealer) :=
  [.prepare 0 .plain 0 1 0 [], .deliver (some ()) 1 .plain 0, .ready () 2 .plain 1 1 0 [],
    .deliver none 3 .plain 1, .execute 4 .plain 0 0 [], .deliver (some ()) 5 .plain 2,
    .deliver (some ()) 6 .plain 0, .deliver (some ()) 7 .plain 2]

theorem epoch_agreement_completedHandshake :
    let w := Machine.run step (init twoNodes) completedHandshake
    w.pair none = (5, 1) ∧ w.pair (some ()) = (5, 1) ∧ w.pair (some ()) ∈ w.held := by
  intro w
  have hagree := epoch_agreement PlainSealer.openInverse.opensOnlySealed twoNodes
    completedHandshake (some ()) none
  refine ⟨by decide +kernel, by decide +kernel, ?_⟩
  exact (hagree (by decide +kernel) (by decide +kernel) (by decide +kernel)).2

end World

end Handshake

end GroupProtocol
