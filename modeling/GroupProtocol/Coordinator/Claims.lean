import GroupProtocol.Base.Serde
import GroupProtocol.Lib.Election
import GroupProtocol.Lifecycle.Signals

/-!
# Coordinator election

Members claim the coordinator role and deliver their claims to each other in any order. The
nodes run the abstract election: a claim sets the flag, the first delivery of a lower claim
clears it, and a repeated delivery is a replay.
-/

namespace GroupProtocol

namespace GroupNode

/-- The message of a coordinator claim. -/
def claimMessage (n : GroupNode) : ControlMessage :=
  ControlMessage.withArgs ControlOpcode.capabilitiesAdvertise.asU16 0 n.memberId
    n.lastTransitionId [0xA1, 0x00, 0xF5]

/-- The sequence number of a node's next control message. -/
def claimSeq (n : GroupNode) : SequenceNo := n.outSeq.read (.control, n.memberStreamId 0) + 1

/-- The frame of a coordinator claim. -/
def claimFrame (n : GroupNode) (ct : Bytes) : GbpFrame :=
  GbpFrame.new n.groupId n.currentEpoch n.lastTransitionId .control (n.memberStreamId 0)
    (controlFlags .capabilitiesAdvertise) n.claimSeq ct PayloadCodec.cbor.asU8

/-- A claimant keeps the flag unless the other one is lower. -/
theorem applyControl_claim (n : GroupNode) (c : ControlMessage) (now : Instant)
    (hargs : isCoordinatorClaim c.args = true) :
    n.applyControl .capabilitiesAdvertise c now =
      { n with
        coordinatorLastSeen := some now
        isCoordinator := n.isCoordinator && !decide (c.senderId < n.memberId)
        events := n.events ++ [.coordinatorClaim c.senderId] } := by
  rw [applyControl, if_pos hargs]
  cases hcoord : n.isCoordinator <;> cases hlow : decide (c.senderId < n.memberId) <;>
    simp [noteCoordinatorActivity, push, hcoord, hlow]

section Claim

variable [Ciborium] {S : Type} [Sealer S]

/-- An active node's claim is framed when the provider seals it. -/
theorem claimCoordinator_ok {n : GroupNode} (hactive : n.state = .active) {s : S} {ct : Bytes}
    (hseal : (Sealer.seal s .control n.claimSeq n.claimMessage.toCbor).1 = .ok ct)
    (target : MemberId) (now : Instant) :
    (n.claimCoordinator s target now).1 = .ok ⟨target, (n.claimFrame ct).toCbor⟩ := by
  have hcan : ({ n with isCoordinator := true, coordinatorLastSeen := some now }.push
      .becameCoordinator).assertCanSend = .ok () := assertCanSend_active hactive
  exact sendPayload_ok hcan hseal target (controlFlags .capabilitiesAdvertise) .cbor

/-- The first delivery of a claim. -/
theorem onWire_claim_fresh (hS : Sealer.OpenInverse S) {sender n : GroupNode} {s : S} {ct : Bytes}
    (hseal : (Sealer.seal s .control sender.claimSeq sender.claimMessage.toCbor).1 = .ok ct)
    (hlen : ct.length < 2 ^ 32) (hgroup : sender.groupId = n.groupId)
    (hepoch : sender.currentEpoch = n.currentEpoch)
    (hfresh : n.inHw.read (.control, sender.memberStreamId 0) < sender.claimSeq) (r : S)
    (now : Instant) :
    (n.onWire r (sender.claimFrame ct).toCbor now).2.1 =
      { n with
        inHw := n.inHw.insert (.control, sender.memberStreamId 0) sender.claimSeq
        coordinatorLastSeen := some now
        isCoordinator := n.isCoordinator && !decide (sender.memberId < n.memberId)
        events := [] } := by
  rw [claimFrame, hgroup, hepoch]
  have hrecv := (onWire_control (s := r) now (GbpFrame.decode_toCbor_new hlen)
    (admitted_new sender.lastTransitionId (controlFlags .capabilitiesAdvertise)
      PayloadCodec.cbor.asU8 hlen (by simp) hfresh) (hS s r _ _ _ _ hseal)).2
  have hctl : ControlMessage.fromCbor sender.claimMessage.toCbor = .ok sender.claimMessage :=
    ControlMessage.fromCbor_toCbor_withArgs (by decide)
  rw [hrecv, handleControl_ok now hctl (ControlOpcode.tryFrom_asU16 .capabilitiesAdvertise) rfl,
    applyControl_claim _ _ _ rfl]
  rfl

/-- A repeated delivery of a claim. -/
theorem onWire_claim_stale {sender n : GroupNode} {ct : Bytes} (hlen : ct.length < 2 ^ 32)
    (hgroup : sender.groupId = n.groupId) (hepoch : sender.currentEpoch = n.currentEpoch)
    (hstale : sender.claimSeq ≤ n.inHw.read (.control, sender.memberStreamId 0)) (r : S)
    (now : Instant) :
    (n.onWire r (sender.claimFrame ct).toCbor now).2.1 = { n with events := [] } := by
  have hd : GbpFrame.decode (sender.claimFrame ct).toCbor = .ok (sender.claimFrame ct) :=
    GbpFrame.decode_toCbor_new hlen
  have hadm : n.admitted (sender.claimFrame ct) = none := by
    cases h : n.admitted (sender.claimFrame ct) with
    | none => rfl
    | some st =>
        have hA := admitted_eq_some.mp h
        have hst : st = .control := by
          have hstream := hA.stream
          rw [claimFrame, GbpFrame.streamTypeTyped_new] at hstream
          exact (Except.ok.inj hstream).symm
        subst hst
        have hlt := hA.fresh
        exact absurd hlt (UInt32.not_lt.mpr hstale)
  have hstate : (n.onWire r (sender.claimFrame ct).toCbor now).2.1.state = n.state := by
    have hsig := (n.step_signal ⟨now, .onWire r (sender.claimFrame ct).toCbor⟩).state
    have hquiet : n.signal ⟨now, .onWire r (sender.claimFrame ct).toCbor⟩ = .quiet := by
      have hhead : ¬((sender.claimFrame ct).version ≠ 1 ∨
          (sender.claimFrame ct).groupIdArray ≠ n.groupId) := by
        rw [claimFrame, GbpFrame.groupIdArray_new, hgroup]
        simp [GbpFrame.new]
      simp only [signal, hd, frameSignal, if_neg hhead, hadm]
      exact if_neg (not_not.mpr hepoch)
    rw [hquiet] at hsig
    exact hsig
  rcases n.onWire_cases r (sender.claimFrame ct).toCbor now with
    ⟨m, ⟨state, evs, -, rfl⟩, -, heq⟩ | ⟨f, st, hd', hadm', -⟩
  · rw [heq] at hstate ⊢
    simp only at hstate
    rw [hstate]
  · rw [hd] at hd'
    cases hd'
    rw [hadm] at hadm'
    cases hadm'

end Claim

end GroupNode

open GroupNode Election

/-- The nodes of an election and the claim frames sent so far. -/
structure Campaign (ι : Type) where
  nodes : ι → GroupNode
  frames : ι → Option Bytes

/-- A member claims the role, or the claim frame of one member reaches another. -/
inductive CampaignCall (ι S : Type)
  | claim (i : ι) (s : S) (target : MemberId) (now : Instant)
  | deliver (source target : ι) (s : S) (now : Instant)

/-- The turn a call takes in the abstract election. -/
def CampaignCall.turn {ι S : Type} : CampaignCall ι S → Turn ι
  | .claim i _ _ _ => .claim i
  | .deliver j i _ _ => .deliver j i

namespace Campaign

variable {ι : Type}

/-- Nobody has claimed yet. -/
def start (node : ι → GroupNode) : Campaign ι := ⟨node, fun _ => none⟩

/-- Every member claims at most once, and claims reach others only after they were made. -/
def Orderly {S : Type} (w : Campaign ι) : CampaignCall ι S → Prop
  | .claim i _ _ _ => w.frames i = none
  | .deliver j i _ _ => w.frames j ≠ none ∧ j ≠ i

instance {S : Type} [DecidableEq ι] (w : Campaign ι) (x : CampaignCall ι S) :
    Decidable (w.Orderly x) :=
  match x with
  | .claim i _ _ _ => inferInstanceAs (Decidable (w.frames i = none))
  | .deliver j i _ _ => inferInstanceAs (Decidable (w.frames j ≠ none ∧ j ≠ i))

/-- The order of member ids. -/
def rank (node : ι → GroupNode) (i : ι) : ℕ := (node i).memberId.toNat

/-- The ballot of nodes that have not claimed yet. -/
def ballot (node : ι → GroupNode) : Ballot ι where
  holds i := (node i).isCoordinator
  claimed _ := false
  heard _ _ := false

/-- A node follows the ballot: it differs from its start in the flag the ballot gives it, in
its counters and in its window, which marks exactly the claims it has heard. -/
structure Tracks (node : ι → GroupNode) (b : Ballot ι) (i : ι) (n : GroupNode) : Prop where
  shape : ∃ q window seen evs, n = { node i with
    isCoordinator := b.holds i, outSeq := q, inHw := window, coordinatorLastSeen := seen,
    events := evs }
  counters : b.claimed i = false → n.outSeq = (node i).outSeq
  unheard : ∀ j, b.heard i j = false →
    n.inHw.read (.control, (node j).memberStreamId 0) =
      (node i).inHw.read (.control, (node j).memberStreamId 0)
  heard : ∀ j, b.heard i j = true →
    (node j).claimSeq ≤ n.inHw.read (.control, (node j).memberStreamId 0)

section Runs

variable [Ciborium] {S : Type} [Sealer S]

/-- The campaign after a call. -/
def step [DecidableEq ι] (w : Campaign ι) : CampaignCall ι S → Campaign ι
  | .claim i s target now =>
    let r := (w.nodes i).claimCoordinator s target now
    { nodes := Function.update w.nodes i r.2.1
      frames :=
        match r.1 with
        | .ok o => Function.update w.frames i (some o.wire)
        | .error _ => w.frames }
  | .deliver j i s now =>
    match w.frames j with
    | some wire => { w with nodes := Function.update w.nodes i ((w.nodes i).onWire s wire now).2.1 }
    | none => w

/-- A frame is the sealed claim of a member. -/
def Seals (S : Type) [Sealer S] (n : GroupNode) (wire : Bytes) : Prop :=
  ∃ (s : S) (ct : Bytes), (Sealer.seal s .control n.claimSeq n.claimMessage.toCbor).1 = .ok ct ∧
    ct.length < 2 ^ 32 ∧ wire = (n.claimFrame ct).toCbor

/-- The campaign follows the ballot. -/
structure Simulates (S : Type) [Sealer S] (node : ι → GroupNode) (w : Campaign ι)
    (b : Ballot ι) : Prop where
  nodes : ∀ i, Tracks node b i (w.nodes i)
  unclaimed : ∀ j, b.claimed j = false → w.frames j = none
  claimed : ∀ j, b.claimed j = true → ∃ wire, w.frames j = some wire ∧ Seals S (node j) wire

/-- The setting: active nodes with distinct ids in the asserted range, of one group and
epoch, whose windows are below each other's control counters. -/
structure Setting (node : ι → GroupNode) : Prop where
  distinct : ∀ i j, (node i).memberId = (node j).memberId → i = j
  range : ∀ i, (node i).memberId < 1000000
  group : ∀ i j, (node i).groupId = (node j).groupId
  epoch : ∀ i j, (node i).currentEpoch = (node j).currentEpoch
  active : ∀ i, (node i).state = .active
  fresh : ∀ i j, i ≠ j →
    (node i).inHw.read (.control, (node j).memberStreamId 0) < (node j).claimSeq

omit [Ciborium] in
theorem Setting.streamId_ne {node : ι → GroupNode} (h : Setting node) {j k : ι} (hne : j ≠ k) :
    ((.control, (node j).memberStreamId 0) : StreamKey) ≠ (.control, (node k).memberStreamId 0) := by
  intro heq
  have hid := memberStreamId_inj (h.range j) (h.range k) (congrArg Prod.snd heq)
  exact hne (h.distinct j k hid)

omit [Ciborium] in
/-- The claim a node makes is the one it would have made at its start. -/
theorem Tracks.claim {node : ι → GroupNode} {b : Ballot ι} {i : ι} {n : GroupNode}
    (h : Tracks node b i n) (hfree : b.claimed i = false) :
    n.claimSeq = (node i).claimSeq ∧ n.claimMessage = (node i).claimMessage ∧
      (∀ ct, n.claimFrame ct = (node i).claimFrame ct) ∧ n.state = (node i).state := by
  have hq := h.counters hfree
  obtain ⟨q, window, seen, evs, rfl⟩ := h.shape
  obtain rfl : q = (node i).outSeq := hq
  exact ⟨rfl, rfl, fun _ => rfl, rfl⟩

variable [DecidableEq ι]

/-- The node that makes a claim follows the ballot. -/
theorem tracks_claim {node : ι → GroupNode} {b : Ballot ι} {i : ι} {n : GroupNode}
    (h : Tracks node b i n) (s : S) (target : MemberId) (now : Instant) :
    Tracks node (turn (rank node) b (.claim i)) i (n.claimCoordinator s target now).2.1 := by
  obtain ⟨q, hq⟩ := n.claimCoordinator_node s target now
  obtain ⟨q', window, seen, evs, hshape⟩ := h.shape
  rw [hq]
  constructor
  · rw [hshape]
    refine ⟨q, window, some now, evs ++ [.becameCoordinator], ?_⟩
    simp only [turn, Function.update_self]
  · intro hno
    simp only [turn, Function.update_self] at hno
    cases hno
  · exact h.unheard
  · exact h.heard

omit [Ciborium] in
/-- A node follows the ballot through the claim of another one. -/
theorem Tracks.claim_other {node : ι → GroupNode} {b : Ballot ι} {i k : ι} {n : GroupNode}
    (h : Tracks node b k n) (hne : k ≠ i) : Tracks node (turn (rank node) b (.claim i)) k n := by
  constructor
  · simp only [turn, Function.update_of_ne hne]
    exact h.shape
  · simp only [turn, Function.update_of_ne hne]
    exact h.counters
  · exact h.unheard
  · exact h.heard

/-- A claim keeps the simulation. -/
theorem simulates_claim {node : ι → GroupNode} (hset : Setting node) {w : Campaign ι}
    {b : Ballot ι} (h : Simulates S node w b) {i : ι} (hfree : b.claimed i = false) {s : S}
    {ct : Bytes} (target : MemberId) (now : Instant)
    (hseal : (Sealer.seal s .control (node i).claimSeq (node i).claimMessage.toCbor).1 = .ok ct)
    (hlen : ct.length < 2 ^ 32) :
    Simulates S node (w.step (.claim i s target now)) (turn (rank node) b (.claim i)) := by
  obtain ⟨hseq, hmsg, hframe, hstate⟩ := (h.nodes i).claim hfree
  have hok : ((w.nodes i).claimCoordinator s target now).1 =
      .ok ⟨target, ((node i).claimFrame ct).toCbor⟩ := by
    rw [← hframe ct]
    apply claimCoordinator_ok (hstate.trans (hset.active i))
    rw [hseq, hmsg]
    exact hseal
  have hframes : (w.step (.claim i s target now)).frames =
      Function.update w.frames i (some ((node i).claimFrame ct).toCbor) := by
    simp only [step, hok]
  constructor
  · intro k
    by_cases hk : k = i
    · subst hk
      have hnode : (w.step (.claim k s target now)).nodes k =
          ((w.nodes k).claimCoordinator s target now).2.1 := Function.update_self ..
      rw [hnode]
      exact tracks_claim (h.nodes k) s target now
    · have hnode : (w.step (.claim i s target now)).nodes k = w.nodes k :=
        Function.update_of_ne hk ..
      rw [hnode]
      exact (h.nodes k).claim_other hk
  · intro j hj
    have hji : j ≠ i := by
      rintro rfl
      simp only [turn, Function.update_self] at hj
      cases hj
    simp only [turn, Function.update_of_ne hji] at hj
    rw [hframes, Function.update_of_ne hji]
    exact h.unclaimed j hj
  · intro j hj
    rw [hframes]
    by_cases hji : j = i
    · subst hji
      exact ⟨_, Function.update_self .., s, ct, hseal, hlen, rfl⟩
    · simp only [turn, Function.update_of_ne hji] at hj
      rw [Function.update_of_ne hji]
      exact h.claimed j hj

/-- The node a claim reaches follows the ballot. -/
theorem tracks_deliver (hS : Sealer.OpenInverse S) {node : ι → GroupNode} (hset : Setting node)
    {b : Ballot ι} {i j : ι} (hne : i ≠ j) {n : GroupNode} (h : Tracks node b i n) {wire : Bytes}
    (hwire : Seals S (node j) wire) (s : S) (now : Instant) :
    Tracks node (turn (rank node) b (.deliver j i)) i (n.onWire s wire now).2.1 := by
  obtain ⟨r, ct, hseal, hlen, rfl⟩ := hwire
  have hshape := h.shape
  obtain ⟨q, window, seen, evs, hn⟩ := hshape
  have hgroup : (node j).groupId = n.groupId := by
    rw [hn]
    exact hset.group j i
  have hepoch : (node j).currentEpoch = n.currentEpoch := by
    rw [hn]
    exact hset.epoch j i
  by_cases hh : b.heard i j = true
  · rw [onWire_claim_stale hlen hgroup hepoch (h.heard j hh) s now, turn, if_pos hh]
    refine ⟨⟨q, window, seen, [], by rw [hn]⟩, h.counters, h.unheard, h.heard⟩
  · have hfresh : n.inHw.read (.control, (node j).memberStreamId 0) < (node j).claimSeq := by
      rw [h.unheard j (Bool.eq_false_iff.mpr hh)]
      exact hset.fresh i j hne
    rw [onWire_claim_fresh hS hseal hlen hgroup hepoch hfresh s now, turn, if_neg hh]
    constructor
    · refine ⟨q, window.insert (.control, (node j).memberStreamId 0) (node j).claimSeq, some now,
        [], ?_⟩
      have hlow : decide ((node j).memberId < (node i).memberId) =
          decide (rank node j < rank node i) := decide_eq_decide.mpr UInt32.lt_iff_toNat_lt
      rw [hn]
      simp only [Function.update_self, hlow]
    · exact h.counters
    · intro k hk
      have hkj : k ≠ j := by
        rintro rfl
        simp only [Function.update_self] at hk
        cases hk
      simp only [Function.update_self, Function.update_of_ne hkj] at hk
      rw [Counters.read_insert_ne _ _ (hset.streamId_ne hkj)]
      exact h.unheard k hk
    · intro k hk
      by_cases hkj : k = j
      · subst hkj
        rw [Counters.read_insert_self]
        exact UInt32.le_refl _
      · simp only [Function.update_self, Function.update_of_ne hkj] at hk
        rw [Counters.read_insert_ne _ _ (hset.streamId_ne hkj)]
        exact h.heard k hk

/-- A delivery keeps the simulation. -/
theorem simulates_deliver (hS : Sealer.OpenInverse S) {node : ι → GroupNode}
    (hset : Setting node) {w : Campaign ι} {b : Ballot ι} (h : Simulates S node w b) {i j : ι}
    (hclaimed : b.claimed j = true) (hne : i ≠ j) (s : S) (now : Instant) :
    Simulates S node (w.step (.deliver j i s now)) (turn (rank node) b (.deliver j i)) := by
  obtain ⟨wire, hframe, hwire⟩ := h.claimed j hclaimed
  have hclaims : (turn (rank node) b (.deliver j i)).claimed = b.claimed := by
    rw [turn]
    split <;> rfl
  have hstep : w.step (.deliver j i s now) =
      { w with nodes := Function.update w.nodes i ((w.nodes i).onWire s wire now).2.1 } := by
    simp only [step, hframe]
  rw [hstep]
  constructor
  · intro k
    by_cases hk : k = i
    · subst hk
      simp only [Function.update_self]
      exact tracks_deliver hS hset hne (h.nodes k) hwire s now
    · simp only [Function.update_of_ne hk]
      have hholds : (turn (rank node) b (.deliver j i)).holds k = b.holds k := by
        rw [turn]
        split
        · rfl
        · exact Function.update_of_ne hk ..
      have hheard : (turn (rank node) b (.deliver j i)).heard k = b.heard k := by
        rw [turn]
        split
        · rfl
        · exact Function.update_of_ne hk ..
      have htrack := h.nodes k
      constructor
      · rw [hholds]
        exact htrack.shape
      · rw [hclaims]
        exact htrack.counters
      · rw [hheard]
        exact htrack.unheard
      · rw [hheard]
        exact htrack.heard
  · rw [hclaims]
    exact h.unclaimed
  · rw [hclaims]
    exact h.claimed

omit [DecidableEq ι] in
theorem simulates_start (node : ι → GroupNode) : Simulates S node (start node) (ballot node) := by
  constructor
  · intro i
    refine ⟨⟨_, _, _, _, rfl⟩, fun _ => rfl, fun _ _ => rfl, ?_⟩
    intro j hj
    cases hj
  · intro j _
    rfl
  · intro j hj
    cases hj

/-- Every claim of the run can be sealed, and briefly. -/
def Sealable (node : ι → GroupNode) (xs : List (CampaignCall ι S)) : Prop :=
  ∀ i s target now, .claim i s target now ∈ xs → ∃ ct,
    (Sealer.seal s .control (node i).claimSeq (node i).claimMessage.toCbor).1 = .ok ct ∧
      ct.length < 2 ^ 32

/-- One call of the campaign is one legal turn of the election. -/
theorem simulates_step (hS : Sealer.OpenInverse S) {node : ι → GroupNode} (hset : Setting node)
    {xs : List (CampaignCall ι S)} (hseal : Sealable node xs) {x : CampaignCall ι S} (hx : x ∈ xs)
    {w : Campaign ι} {b : Ballot ι} (h : Simulates S node w b) (ho : w.Orderly x) :
    Legal b x.turn ∧ Simulates S node (w.step x) (turn (rank node) b x.turn) := by
  cases x with
  | claim i s target now =>
      have hfree : b.claimed i = false := by
        by_contra hc
        obtain ⟨wire, hframe, -⟩ := h.claimed i (Bool.eq_true_of_not_eq_false hc)
        rw [show w.frames i = none from ho] at hframe
        cases hframe
      obtain ⟨ct, hct, hlen⟩ := hseal i s target now hx
      exact ⟨hfree, simulates_claim hset h hfree target now hct hlen⟩
  | deliver j i s now =>
      have hclaimed : b.claimed j = true := by
        by_contra hc
        exact ho.1 (h.unclaimed j (Bool.eq_false_iff.mpr hc))
      exact ⟨⟨hclaimed, ho.2⟩, simulates_deliver hS hset h hclaimed ho.2.symm s now⟩

/-- A run of the campaign is a legal run of the election. -/
theorem simulates_run (hS : Sealer.OpenInverse S) {node : ι → GroupNode} (hset : Setting node)
    {xs : List (CampaignCall ι S)} (hseal : Sealable node xs) {w : Campaign ι} {b : Ballot ι}
    (h : Simulates S node w b) (ho : Machine.Along step Orderly w xs) :
    Machine.Along (turn (rank node)) Legal b (xs.map CampaignCall.turn) ∧
      Simulates S node (Machine.run step w xs)
        (Machine.run (turn (rank node)) b (xs.map CampaignCall.turn)) := by
  induction xs generalizing w b with
  | nil => exact ⟨trivial, h⟩
  | cons x xs ih =>
      obtain ⟨hlegal, hnext⟩ := simulates_step hS hset hseal (List.mem_cons_self ..) h ho.1
      have hrest : Sealable node xs :=
        fun i s target now hmem => hseal i s target now (List.mem_cons_of_mem _ hmem)
      obtain ⟨halong, hrun⟩ := ih hrest hnext ho.2
      exact ⟨⟨hlegal, halong⟩, hrun⟩

end Runs

section Outcome

variable {S : Type}

/-- The member claims somewhere in the run. -/
def Claimant (xs : List (CampaignCall ι S)) (i : ι) : Prop :=
  ∃ s target now, .claim i s target now ∈ xs

/-- The claim of one member reaches another somewhere in the run. -/
def Receives (xs : List (CampaignCall ι S)) (i j : ι) : Prop :=
  ∃ s now, .deliver j i s now ∈ xs

/-- Exactly one claimant is coordinator, the one with the lowest id. -/
def Elects (node : ι → GroupNode) (xs : List (CampaignCall ι S)) (w : Campaign ι) : Prop :=
  ∃ low, Claimant xs low ∧
    (∀ j, Claimant xs j → (node low).memberId ≤ (node j).memberId) ∧
    ∀ i, Claimant xs i → ((w.nodes i).isCoordinator = true ↔ i = low)

/-- Every claimant but the lowest claims before it has received the claims of all lower
claimants. -/
def ClaimsEarly (node : ι → GroupNode) (xs : List (CampaignCall ι S)) : Prop :=
  ∀ earlier i s target now later, xs = earlier ++ .claim i s target now :: later →
    (∀ j, Claimant xs j → (node i).memberId ≤ (node j).memberId) ∨
      ∃ j, Claimant xs j ∧ (node j).memberId < (node i).memberId ∧ ¬Receives earlier i j

theorem mem_turn_claim {xs : List (CampaignCall ι S)} {i : ι} :
    Turn.claim i ∈ xs.map CampaignCall.turn ↔ Claimant xs i := by
  constructor
  · intro h
    obtain ⟨x, hx, heq⟩ := List.mem_map.mp h
    cases x with
    | claim k s target now =>
        cases heq
        exact ⟨s, target, now, hx⟩
    | deliver j k s now => cases heq
  · rintro ⟨s, target, now, hmem⟩
    exact List.mem_map.mpr ⟨_, hmem, rfl⟩

theorem mem_turn_deliver {xs : List (CampaignCall ι S)} {i j : ι} :
    Turn.deliver j i ∈ xs.map CampaignCall.turn ↔ Receives xs i j := by
  constructor
  · intro h
    obtain ⟨x, hx, heq⟩ := List.mem_map.mp h
    cases x with
    | claim k s target now => cases heq
    | deliver l k s now =>
        cases heq
        exact ⟨s, now, hx⟩
  · rintro ⟨s, now, hmem⟩
    exact List.mem_map.mpr ⟨_, hmem, rfl⟩

variable [DecidableEq ι]

/-- In the abstract election, claiming in time is claiming early. -/
theorem claimsInTime_iff {node : ι → GroupNode} {xs : List (CampaignCall ι S)} {final : Ballot ι}
    (hfinal : ∀ i, final.claimed i = true ↔ Claimant xs i) :
    Machine.Along (turn (rank node)) (Election.ClaimsInTime (rank node) final) (ballot node)
        (xs.map CampaignCall.turn) ↔ ClaimsEarly node xs := by
  have hheard : ∀ ys i j, (Machine.run (turn (rank node)) (ballot node)
      (List.map (CampaignCall.turn (S := S)) ys)).heard i j = true ↔ Receives ys i j := by
    intro ys i j
    rw [run_heard, mem_turn_deliver]
    constructor
    · rintro (h | h)
      · cases h
      · exact h
    · exact Or.inr
  rw [Machine.along_iff]
  constructor
  · intro h earlier i s target now later hsplit
    have hmap : xs.map CampaignCall.turn =
        earlier.map CampaignCall.turn ++ .claim i :: later.map CampaignCall.turn := by
      rw [hsplit, List.map_append, List.map_cons]
      rfl
    rcases h _ _ _ hmap with ⟨-, hlow⟩ | ⟨j, hj, hlt, hh⟩
    · left
      intro j hj
      exact UInt32.le_iff_toNat_le.mpr (hlow j ((hfinal j).mpr hj))
    · right
      refine ⟨j, (hfinal j).mp hj, UInt32.lt_iff_toNat_lt.mpr hlt, ?_⟩
      intro hr
      rw [(hheard earlier i j).mpr hr] at hh
      cases hh
  · intro h earlier' t later' hmap
    obtain ⟨earlier, rest, rfl, rfl, hrest⟩ := List.map_eq_append_iff.mp hmap
    obtain ⟨x, later, rfl, rfl, rfl⟩ := List.map_eq_cons_iff.mp hrest
    cases x with
    | deliver j i s now => exact trivial
    | claim i s target now =>
        have hclaim : Claimant (earlier ++ .claim i s target now :: later) i :=
          ⟨s, target, now, by simp⟩
        rcases h earlier i s target now later rfl with hlow | ⟨j, hj, hlt, hr⟩
        · refine Or.inl ⟨(hfinal i).mpr hclaim, fun j hj => ?_⟩
          exact UInt32.le_iff_toNat_le.mp (hlow j ((hfinal j).mp hj))
        · refine Or.inr ⟨j, (hfinal j).mpr hj, UInt32.lt_iff_toNat_lt.mp hlt, ?_⟩
          exact Bool.eq_false_iff.mpr (mt (hheard earlier i j).mp hr)

end Outcome

section Result

variable [Ciborium] {S : Type} [Sealer S] [DecidableEq ι]

/-- Over every run in which active members of one group and epoch claim the role at most once
each, and every claim reaches every other member at least once in any order: exactly one
claimant ends as coordinator, the lowest, exactly when every other claimant claims before it
has received the claims of all lower claimants. -/
theorem coordinator_election_iff (hS : Sealer.OpenInverse S) (node : ι → GroupNode)
    (hset : Setting node) (xs : List (CampaignCall ι S)) (hseal : Sealable node xs)
    (horder : Machine.Along step Orderly (start node) xs)
    (hdelivered : ∀ i j, Claimant xs j → i ≠ j → Receives xs i j)
    (hsome : ∃ i, Claimant xs i) :
    Elects node xs (Machine.run step (start node) xs) ↔ ClaimsEarly node xs := by
  obtain ⟨hlegal, hsim⟩ := simulates_run hS hset hseal (simulates_start node) horder
  have hcomplete : Complete (rank node) (ballot node) (xs.map CampaignCall.turn) := by
    refine ⟨fun _ => rfl, fun _ _ => rfl, hlegal, fun i j hj hne => ?_⟩
    exact mem_turn_deliver.mpr (hdelivered i j (mem_turn_claim.mp hj) hne)
  have hrank : Function.Injective (rank node) := by
    intro i j hij
    exact hset.distinct i j (UInt32.toNat_inj.mp hij)
  have hfinal : ∀ i, (Machine.run (turn (rank node)) (ballot node)
      (xs.map CampaignCall.turn)).claimed i = true ↔ Claimant xs i := by
    intro i
    rw [hcomplete.claimed_iff, mem_turn_claim]
  have hconv := hcomplete.converged_iff hrank (hsome.imp fun i hi => mem_turn_claim.mpr hi)
  rw [claimsInTime_iff hfinal] at hconv
  rw [← hconv]
  have hflag : ∀ i, ((Machine.run step (start node) xs).nodes i).isCoordinator =
      (Machine.run (turn (rank node)) (ballot node) (xs.map CampaignCall.turn)).holds i := by
    intro i
    obtain ⟨q, window, seen, evs, hn⟩ := (hsim.nodes i).shape
    rw [hn]
  constructor
  · rintro ⟨low, hlow, hmin, hone⟩
    refine ⟨low, ⟨(hfinal low).mpr hlow, fun j hj => ?_⟩, fun i hi => ?_⟩
    · exact UInt32.le_iff_toNat_le.mp (hmin j ((hfinal j).mp hj))
    · rw [← hflag]
      exact hone i ((hfinal i).mp hi)
  · rintro ⟨low, ⟨hlow, hmin⟩, hone⟩
    refine ⟨low, (hfinal low).mp hlow, fun j hj => ?_, fun i hi => ?_⟩
    · exact UInt32.le_iff_toNat_le.mpr (hmin j ((hfinal j).mpr hj))
    · rw [hflag]
      exact hone i ((hfinal i).mpr hi)

end Result

/-- Members 1 and 2 of the test group. -/
def twoMembers (i : Fin 2) : GroupNode :=
  bootstrapped (UInt32.ofNat (i + 1)) (Vector.replicate 16 0) (.creator 0)

theorem twoMembers_setting : Setting twoMembers where
  distinct := by decide +kernel
  range := by decide +kernel
  group := by decide +kernel
  epoch := by decide +kernel
  active := by decide +kernel
  fresh := by decide +kernel

theorem twoMembers_sealable (xs : List (CampaignCall (Fin 2) PlainSealer)) :
    Sealable twoMembers xs := by
  have hshort : ∀ i, (twoMembers i).claimMessage.toCbor.length < 2 ^ 32 := by decide +kernel
  intro i s target now _
  exact ⟨(twoMembers i).claimMessage.toCbor, rfl, hshort i⟩

/-- Member 2 claims after it has received the claim of member 1. -/
def lateClaim : List (CampaignCall (Fin 2) PlainSealer) :=
  [.claim 0 .plain 0 0, .deliver 0 1 .plain 1, .claim 1 .plain 0 2, .deliver 1 0 .plain 3]

/-- Both members claim before either claim arrives. -/
def crossingClaims : List (CampaignCall (Fin 2) PlainSealer) :=
  [.claim 0 .plain 0 0, .claim 1 .plain 0 1, .deliver 0 1 .plain 2, .deliver 1 0 .plain 3]

theorem lateClaim_delivered : ∀ i j, Claimant lateClaim j → i ≠ j → Receives lateClaim i j := by
  intro i j _ hne
  match i, j, hne with
  | 0, 0, h => exact absurd rfl h
  | 0, 1, _ => exact ⟨.plain, 3, by simp [lateClaim]⟩
  | 1, 0, _ => exact ⟨.plain, 1, by simp [lateClaim]⟩
  | 1, 1, h => exact absurd rfl h

theorem crossingClaims_delivered :
    ∀ i j, Claimant crossingClaims j → i ≠ j → Receives crossingClaims i j := by
  intro i j _ hne
  match i, j, hne with
  | 0, 0, h => exact absurd rfl h
  | 0, 1, _ => exact ⟨.plain, 3, by simp [crossingClaims]⟩
  | 1, 0, _ => exact ⟨.plain, 2, by simp [crossingClaims]⟩
  | 1, 1, h => exact absurd rfl h

/-- A late claimant keeps the role beside the lowest: both members end as coordinator. -/
theorem late_claim_splits :
    let w := Machine.run step (start twoMembers) lateClaim
    Setting twoMembers ∧ Machine.Along step Orderly (start twoMembers) lateClaim ∧
      (∀ i j, Claimant lateClaim j → i ≠ j → Receives lateClaim i j) ∧
      (w.nodes 0).isCoordinator = true ∧ (w.nodes 1).isCoordinator = true ∧
      ¬Elects twoMembers lateClaim w := by
  intro w
  have hzero : (w.nodes 0).isCoordinator = true := by decide +kernel
  have hone : (w.nodes 1).isCoordinator = true := by decide +kernel
  refine ⟨twoMembers_setting, by decide +kernel, lateClaim_delivered, hzero, hone, ?_⟩
  rintro ⟨low, -, -, helect⟩
  have hlow := (helect 0 ⟨.plain, 0, 0, by simp [lateClaim]⟩).mp hzero
  have hlow' := (helect 1 ⟨.plain, 0, 2, by simp [lateClaim]⟩).mp hone
  exact absurd (hlow.trans hlow'.symm) (by decide)

theorem crossingClaims_early : ClaimsEarly twoMembers crossingClaims := by
  intro earlier i s target now later hsplit
  match earlier, hsplit with
  | [], h =>
      cases h
      have hlow : ∀ j, (twoMembers 0).memberId ≤ (twoMembers j).memberId := by decide +kernel
      exact Or.inl fun j _ => hlow j
  | [_], h =>
      cases h
      refine Or.inr ⟨0, ⟨.plain, 0, 0, by simp [crossingClaims]⟩, by decide +kernel, ?_⟩
      rintro ⟨r, at', hmem⟩
      simp at hmem
  | [_, _], h => cases h
  | [_, _, _], h => cases h
  | _ :: _ :: _ :: _ :: _, h => simp [crossingClaims] at h

theorem crossing_claims_elect :
    Elects twoMembers crossingClaims (Machine.run step (start twoMembers) crossingClaims) :=
  (coordinator_election_iff PlainSealer.openInverse twoMembers twoMembers_setting crossingClaims
    (twoMembers_sealable _) (by decide +kernel) crossingClaims_delivered
    ⟨0, .plain, 0, 0, by simp [crossingClaims]⟩).mpr crossingClaims_early

end Campaign

end GroupProtocol
