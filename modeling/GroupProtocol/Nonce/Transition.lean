import GroupProtocol.Base.Serde
import GroupProtocol.Node.Calls
import GroupProtocol.Nonce.Group

/-!
# Nonces of one sender across transitions

The key changes when the pending commit is merged, the counters restart when the node
applies the transition, and the EXECUTE is sealed in between. In every MLS epoch the
numbers used between the merge and the apply therefore continue the previous count, while
the numbers used afterwards start again at one: they stay apart only as long as the
restarted counters have not caught up.
-/

namespace GroupProtocol

open GroupNode

/-- How far the current transition has come. -/
inductive Phase
  | idle
  | prepared (tid : TransitionId)
  | finalized (tid : TransitionId)
  | executed (tid : TransitionId)
  deriving DecidableEq, Repr

/-- The commit is merged and the transition not yet applied. -/
def Phase.inGap : Phase → Bool
  | finalized _ => true
  | executed _ => true
  | _ => false

/-- One node and its MLS context, with every seal call and the counts the condition reads. -/
structure SoleSender (G C : Type) where
  node : GroupNode
  ctx : MlsContext G C
  calls : List SealCall
  phase : Phase
  /-- The sends on each stream since the transition was last applied. -/
  since : StreamKey → ℕ
  /-- The sends on each stream between the apply before the last merge and that merge. -/
  before : StreamKey → ℕ
  /-- The sends on each stream between the last merge and its apply. -/
  gap : StreamKey → ℕ

/-- The steps of a transition in the documented order, and further sends. A step out of order
does nothing. -/
inductive SoleOp (G : Type)
  | sendPayload (target : MemberId) (st : StreamType) (sid : StreamId) (flags : UInt16)
      (pt : Bytes) (codec : PayloadCodec)
  | sendControl (now : Instant) (target : MemberId) (op : ControlOpcode) (tid : TransitionId)
      (rid : UInt32) (args : Bytes)
  /-- Stage a commit, which leaves the group `staged`, and broadcast it. -/
  | prepare (now : Instant) (staged : G) (target : MemberId) (tid : TransitionId)
      (rid : UInt32) (args : Bytes)
  | finalizePendingCommit
  | execute (now : Instant) (target : MemberId) (rid : UInt32) (args : Bytes)
  | applyTransition

namespace SoleSender

variable {G C : Type} [OpenMls G C]

/-- A group with a staged commit: same epoch, and merging the commit enters the next one. -/
def stages (C : Type) [OpenMls G C] (group staged : G) : Bool :=
  OpenMls.epoch C staged == OpenMls.epoch C group &&
    match OpenMls.mergePendingCommit C staged with
    | .ok merged => (OpenMls.epoch C merged).toNat == (OpenMls.epoch C group).toNat + 1
    | .error _ => false

/-- A node right after its bootstrap. -/
def start (memberId : MemberId) (groupId : GroupId) (b : Bootstrap) (group : G) :
    SoleSender G C where
  node := bootstrapped memberId groupId b
  ctx := ⟨group, none⟩
  calls := []
  phase := .idle
  since := fun _ => 0
  before := fun _ => 0
  gap := fun _ => 0

/-- Count one send. -/
def count (w : SoleSender G C) (k : StreamKey) : SoleSender G C :=
  { w with
    since := Function.update w.since k (w.since k + 1)
    gap := if w.phase.inGap then Function.update w.gap k (w.gap k + 1) else w.gap }

/-- The stream of the node's control sends. -/
def controlKey (w : SoleSender G C) : StreamKey := (.control, w.node.memberStreamId 0)

/-- The stream a step seals on, if it seals. -/
def sealKey (w : SoleSender G C) : SoleOp G → Option StreamKey
  | .sendPayload _ st sid _ _ _ => some (st, sid)
  | .sendControl .. => some w.controlKey
  | .prepare _ staged _ _ _ _ =>
    if w.phase = .idle ∧ stages C w.ctx.group staged = true then some w.controlKey else none
  | .finalizePendingCommit => none
  | .execute .. =>
    match w.phase with
    | .finalized _ => some w.controlKey
    | _ => none
  | .applyTransition => none

section Step

variable [ChaCha20Poly1305] [Ciborium]

/-- A control send. -/
def control (w : SoleSender G C) (now : Instant) (target : MemberId) (op : ControlOpcode)
    (tid : TransitionId) (rid : UInt32) (args : Bytes) : SoleSender G C :=
  let r := w.node.sendControl (⟨w.ctx, w.calls⟩ : Recorder G C) target op tid rid args now
  { w.count w.controlKey with node := r.2.1, ctx := r.2.2.ctx, calls := r.2.2.calls }

/-- One step. -/
def step (w : SoleSender G C) : SoleOp G → SoleSender G C
  | .sendPayload target st sid flags pt codec =>
    let r := w.node.sendPayload (⟨w.ctx, w.calls⟩ : Recorder G C) target st sid flags pt codec
    { w.count (st, sid) with node := r.2.1, ctx := r.2.2.ctx, calls := r.2.2.calls }
  | .sendControl now target op tid rid args => w.control now target op tid rid args
  | .prepare now staged target tid rid args =>
    if w.phase = .idle ∧ stages C w.ctx.group staged = true then
      { { w with ctx := { w.ctx with group := staged } }.control now target .prepareTransition tid
          rid args with
        phase := .prepared tid }
    else w
  | .finalizePendingCommit =>
    match w.phase with
    | .prepared tid =>
      { w with
        ctx := w.ctx.finalizePendingCommit.2
        phase := .finalized tid
        before := w.since
        gap := fun _ => 0 }
    | _ => w
  | .execute now target rid args =>
    match w.phase with
    | .finalized tid =>
      { w.control now target .executeTransition tid rid args with phase := .executed tid }
    | _ => w
  | .applyTransition =>
    match w.phase with
    | .executed tid =>
      { w with node := w.node.applyTransition tid, phase := .idle, since := fun _ => 0 }
    | _ => w

end Step

/-- The condition on a send, with its count on its stream since the last apply: the count does
not wrap. Outside the gap no other stream of the class has been used since the apply, and the
count stays at most at what each stream used in the gap had reached before it. Inside the gap
the count is outside the range another stream of the class has passed through in it. -/
def SafeSend (w : SoleSender G C) (k : StreamKey) : Prop :=
  w.since k + 1 ≤ 2 ^ 32 ∧
    if w.phase.inGap then
      ∀ sid, (k.1, sid) ≠ k →
        ¬(w.before (k.1, sid) < w.since k + 1 ∧
          w.since k + 1 ≤ w.before (k.1, sid) + w.gap (k.1, sid))
    else
      ∀ sid, ((k.1, sid) ≠ k → w.since (k.1, sid) = 0) ∧
        (0 < w.gap (k.1, sid) → w.since k + 1 ≤ w.before (k.1, sid))

/-- Every send of a run meets the condition. -/
def SafeRun [ChaCha20Poly1305] [Ciborium] (w : SoleSender G C) (xs : List (SoleOp G)) : Prop :=
  Machine.Along step (fun w x => ∀ k, w.sealKey x = some k → w.SafeSend k) w xs

/-! The invariant of a safe run. -/

/-- The calls of the current MLS epoch are explained by the counts: each was made in the gap,
or since the apply that closed it. -/
structure Inv (w : SoleSender G C) : Prop where
  active : w.node.state = .active
  unstaged : w.ctx.pendingStaged = none
  staged : ∀ tid, w.phase = .prepared tid → ∃ merged,
    OpenMls.mergePendingCommit C w.ctx.group = .ok merged ∧
      (OpenMls.epoch C merged).toNat = w.ctx.epoch.toNat + 1
  counts : ∀ k, w.node.outSeq.read k = UInt32.ofNat (w.since k)
  continues : w.phase.inGap = true → ∀ k, w.since k = w.before k + w.gap k
  past : ∀ c ∈ w.calls, c.epoch.toNat ≤ w.ctx.epoch.toNat
  current : ∀ c ∈ w.calls, c.epoch = w.ctx.epoch → ∃ k v,
    c.label = labelFor k.1 ∧ c.seq = UInt32.ofNat v ∧ v ≤ 2 ^ 32 ∧
      (w.before k < v ∧ v ≤ w.before k + w.gap k ∨
        w.phase.inGap = false ∧ 0 < v ∧ v ≤ w.since k)
  nodup : w.calls.Nodup

theorem inv_start (id : MemberId) (gid : GroupId) (b : Bootstrap) (group : G) :
    (start id gid b group : SoleSender G C).Inv := by
  have hnode : (bootstrapped id gid b).state = .active ∧ (bootstrapped id gid b).outSeq = ∅ := by
    cases b with
    | creator epoch => exact ⟨rfl, rfl⟩
    | joiner epoch tid =>
        rw [bootstrapped, bootstrapAsJoiner_new]
        exact ⟨rfl, rfl⟩
  refine ⟨hnode.1, rfl, ?_, ?_, ?_, ?_, ?_, List.nodup_nil⟩
  · intro tid h
    cases h
  · intro k
    simp only [start, hnode.2, Counters.read_empty]
    rfl
  · intro h
    cases h
  · intro c hc
    cases hc
  · intro c hc
    cases hc

/-- One seal call on a stream, as a change of the world. -/
structure Seals (w next : SoleSender G C) (k : StreamKey) : Prop where
  state : next.node.state = w.node.state
  outSeq : next.node.outSeq = w.node.outSeq.insert k (w.node.outSeq.read k + 1)
  ctx : next.ctx = w.ctx
  calls : next.calls = w.calls ++ [⟨w.ctx.epoch, labelFor k.1, w.node.outSeq.read k + 1⟩]
  phase : next.phase = w.phase
  since : next.since = Function.update w.since k (w.since k + 1)
  before : next.before = w.before
  gap : next.gap = if w.phase.inGap then Function.update w.gap k (w.gap k + 1) else w.gap

private theorem le_update_succ (f : StreamKey → ℕ) (k j : StreamKey) :
    f j ≤ Function.update f k (f k + 1) j := by
  by_cases hj : j = k
  · subst hj
    rw [Function.update_self]
    omega
  · rw [Function.update_of_ne hj]

namespace Seals

variable {w next : SoleSender G C} {k : StreamKey}

theorem since_self (hs : Seals w next k) : next.since k = w.since k + 1 := by
  rw [hs.since, Function.update_self]

theorem gap_self (hs : Seals w next k) (hgap : w.phase.inGap = true) :
    next.gap k = w.gap k + 1 := by
  rw [hs.gap, if_pos hgap, Function.update_self]

/-- The counts only grow. -/
theorem since_le (hs : Seals w next k) (j : StreamKey) : w.since j ≤ next.since j := by
  rw [hs.since]
  exact le_update_succ w.since k j

theorem gap_le (hs : Seals w next k) (j : StreamKey) : w.gap j ≤ next.gap j := by
  rw [hs.gap]
  split
  · exact le_update_succ w.gap k j
  · exact le_refl _

end Seals

private theorem ofNat_inj_of_range {u v : ℕ} (hu : 0 < u) (hv : 0 < v) (hu' : u ≤ 2 ^ 32)
    (hv' : v ≤ 2 ^ 32) (h : UInt32.ofNat u = UInt32.ofNat v) : u = v := by
  have htoNat := congrArg UInt32.toNat h
  simp only [UInt32.toNat_ofNat'] at htoNat
  omega

/-- A safe send uses a number that its class has not used in this MLS epoch. -/
theorem Inv.fresh {w : SoleSender G C} (h : w.Inv) {k : StreamKey} (hsafe : w.SafeSend k) :
    ⟨w.ctx.epoch, labelFor k.1, UInt32.ofNat (w.since k + 1)⟩ ∉ w.calls := by
  intro hmem
  obtain ⟨hbound, hapart⟩ := hsafe
  obtain ⟨j, v, hlabel, hseq, hv, hrange⟩ := h.current _ hmem rfl
  have hclass : k.1 = j.1 := labelFor_injective hlabel
  have hpos : 0 < v := by
    rcases hrange with ⟨hlt, -⟩ | ⟨-, hlt, -⟩
    · omega
    · exact hlt
  have heq : w.since k + 1 = v := ofNat_inj_of_range (Nat.succ_pos _) hpos hbound hv hseq
  obtain ⟨st, sid⟩ := j
  dsimp only at hclass
  subst hclass
  by_cases hgap : w.phase.inGap = true
  · rw [if_pos hgap] at hapart
    rcases hrange with hin | ⟨hout, -, -⟩
    · by_cases hsame : (k.1, sid) = k
      · have hcont := h.continues hgap k
        rw [hsame] at hin
        omega
      · exact hapart sid hsame ⟨by omega, by omega⟩
    · rw [hgap] at hout
      cases hout
  · rw [if_neg hgap] at hapart
    obtain ⟨hsingle, hbehind⟩ := hapart sid
    rcases hrange with hin | ⟨-, -, hle⟩
    · have hcaught := hbehind (by omega)
      omega
    · by_cases hsame : (k.1, sid) = k
      · rw [hsame] at hle
        omega
      · have hunused := hsingle hsame
        omega

namespace Seals

variable {w next : SoleSender G C} {k : StreamKey}

theorem number_eq (h : w.Inv) : w.node.outSeq.read k + 1 = UInt32.ofNat (w.since k + 1) := by
  rw [h.counts, UInt32.ofNat_add]
  rfl

/-- The send counters follow the counts. -/
theorem counts (hs : Seals w next k) (h : w.Inv) (j : StreamKey) :
    next.node.outSeq.read j = UInt32.ofNat (next.since j) := by
  rw [hs.outSeq, hs.since, number_eq h]
  by_cases hj : j = k
  · subst hj
    rw [Counters.read_insert_self, Function.update_self]
  · rw [Counters.read_insert_ne _ _ hj, Function.update_of_ne hj, h.counts]

/-- In the gap the counts go on from those before it. -/
theorem continues (hs : Seals w next k) (h : w.Inv) (hgap : w.phase.inGap = true)
    (j : StreamKey) : next.since j = next.before j + next.gap j := by
  by_cases hj : j = k
  · subst hj
    rw [hs.since_self, hs.before, hs.gap_self hgap, h.continues hgap]
    omega
  · rw [hs.since, hs.before, hs.gap, if_pos hgap, Function.update_of_ne hj,
      Function.update_of_ne hj, h.continues hgap]

/-- A number inside the ranges stays inside them. -/
theorem range_mono (hs : Seals w next k) {j : StreamKey} {v : ℕ}
    (hrange : w.before j < v ∧ v ≤ w.before j + w.gap j ∨
      w.phase.inGap = false ∧ 0 < v ∧ v ≤ w.since j) :
    next.before j < v ∧ v ≤ next.before j + next.gap j ∨
      next.phase.inGap = false ∧ 0 < v ∧ v ≤ next.since j := by
  have hgrow := hs.gap_le j
  have hmore := hs.since_le j
  rw [hs.before, hs.phase]
  rcases hrange with ⟨hlt, hle⟩ | ⟨hout, hlt, hle⟩
  · exact Or.inl ⟨hlt, by omega⟩
  · exact Or.inr ⟨hout, hlt, by omega⟩

/-- The number of the call itself is inside a range. -/
theorem range_self (hs : Seals w next k) (h : w.Inv) :
    next.before k < w.since k + 1 ∧ w.since k + 1 ≤ next.before k + next.gap k ∨
      next.phase.inGap = false ∧ 0 < w.since k + 1 ∧ w.since k + 1 ≤ next.since k := by
  rw [hs.before, hs.phase]
  by_cases hgap : w.phase.inGap = true
  · have hcont := h.continues hgap k
    rw [hs.gap_self hgap]
    exact Or.inl ⟨by omega, by omega⟩
  · rw [hs.since_self]
    exact Or.inr ⟨Bool.eq_false_iff.mpr hgap, Nat.succ_pos _, le_refl _⟩

end Seals

/-- A safe seal call keeps the invariant. -/
theorem Inv.seals {w next : SoleSender G C} (h : w.Inv) {k : StreamKey} (hsafe : w.SafeSend k)
    (hs : Seals w next k) : next.Inv := by
  have hcalls := hs.calls
  rw [Seals.number_eq h] at hcalls
  refine ⟨hs.state.trans h.active, by rw [hs.ctx, h.unstaged], ?_, hs.counts h, ?_, ?_, ?_, ?_⟩
  · intro tid hp
    rw [hs.ctx]
    exact h.staged tid (hs.phase ▸ hp)
  · intro hgap
    exact hs.continues h (hs.phase ▸ hgap)
  · intro c hc
    rw [hcalls] at hc
    rw [hs.ctx]
    rcases List.mem_append.mp hc with hc | hc
    · exact h.past c hc
    · rw [List.mem_singleton.mp hc]
  · intro c hc he
    rw [hcalls] at hc
    rw [hs.ctx] at he
    rcases List.mem_append.mp hc with hc | hc
    · obtain ⟨j, v, hlabel, hseq, hv, hrange⟩ := h.current c hc he
      exact ⟨j, v, hlabel, hseq, hv, hs.range_mono hrange⟩
    · rw [List.mem_singleton.mp hc]
      exact ⟨k, w.since k + 1, rfl, rfl, hsafe.1, hs.range_self h⟩
  · rw [hcalls]
    refine List.nodup_append.mpr ⟨h.nodup, List.nodup_singleton _, ?_⟩
    rintro c hc d hd rfl
    rw [List.mem_singleton.mp hd] at hc
    exact h.fresh hsafe hc

section Runs

variable [ChaCha20Poly1305] [Ciborium]

theorem sendPayload_seal {w : SoleSender G C} (h : w.node.state = .active) (target : MemberId)
    (st : StreamType) (sid : StreamId) (flags : UInt16) (pt : Bytes) (codec : PayloadCodec) :
    Seals w (w.step (.sendPayload target st sid flags pt codec)) (st, sid) := by
  have hsend := sendPayload_seals (assertCanSend_active h) (⟨w.ctx, w.calls⟩ : Recorder G C) target
    st sid flags pt codec
  refine ⟨?_, ?_, ?_, ?_, rfl, rfl, rfl, rfl⟩
  · simp only [step, hsend]
  · simp only [step, hsend]
  · simp only [step, hsend]
    rfl
  · simp only [step, hsend]
    rfl

theorem control_seal {w : SoleSender G C} (h : w.node.state = .active) (now : Instant)
    (target : MemberId) (op : ControlOpcode) (tid : TransitionId) (rid : UInt32) (args : Bytes) :
    Seals w (w.control now target op tid rid args) w.controlKey := by
  obtain ⟨pending, tstate, prep, exec, -, hm⟩ := w.node.mirrorControl_node op tid now
  have hcan : (w.node.mirrorControl op tid now).assertCanSend = .ok () := by
    rw [hm]
    exact assertCanSend_active h
  have hsend := sendPayload_seals hcan (⟨w.ctx, w.calls⟩ : Recorder G C) target .control
    ((w.node.mirrorControl op tid now).memberStreamId 0) (controlFlags op)
    (ControlMessage.withArgs op.asU16 rid w.node.memberId tid args).toCbor .cbor
  have hboth : (w.node.sendControl (⟨w.ctx, w.calls⟩ : Recorder G C) target op tid rid args
      now).2 = _ := hsend
  rw [hm] at hboth
  refine ⟨?_, ?_, ?_, ?_, rfl, rfl, rfl, rfl⟩
  · simp only [control, hboth]
  · simp only [control, hboth]
    rfl
  · simp only [control, hboth]
    rfl
  · simp only [control, hboth]
    rfl

/-- Merging the staged commit enters an MLS epoch without calls. -/
theorem Inv.finalize {w : SoleSender G C} (h : w.Inv) {tid : TransitionId}
    (hp : w.phase = .prepared tid) : (w.step .finalizePendingCommit).Inv := by
  obtain ⟨merged, hmerge, hepoch⟩ := h.staged tid hp
  have hctx : w.ctx.finalizePendingCommit.2 = { w.ctx with group := merged } := by
    simp only [MlsContext.finalizePendingCommit, h.unstaged, hmerge]
  have hstep : w.step .finalizePendingCommit = { w with
      ctx := { w.ctx with group := merged }, phase := .finalized tid, before := w.since,
      gap := fun _ => 0 } := by
    simp only [step, hp, hctx]
  have hnew : ∀ c ∈ w.calls, c.epoch.toNat < (OpenMls.epoch C merged).toNat := by
    intro c hc
    have := h.past c hc
    omega
  rw [hstep]
  refine ⟨h.active, h.unstaged, ?_, h.counts, ?_, ?_, ?_, h.nodup⟩
  · intro t ht
    cases ht
  · intro _ k
    exact (Nat.add_zero _).symm
  · intro c hc
    exact (hnew c hc).le
  · intro c hc he
    have hlt := hnew c hc
    rw [he] at hlt
    exact absurd hlt (lt_irrefl _)

/-- Applying the transition restarts the counters and closes the gap. -/
theorem Inv.apply {w : SoleSender G C} (h : w.Inv) {tid : TransitionId}
    (hp : w.phase = .executed tid) : (w.step .applyTransition).Inv := by
  have hstep : w.step .applyTransition = { w with
      node := w.node.applyTransition tid, phase := .idle, since := fun _ => 0 } := by
    simp only [step, hp]
  rw [hstep]
  refine ⟨h.active, h.unstaged, ?_, ?_, ?_, h.past, ?_, h.nodup⟩
  · intro t ht
    cases ht
  · intro k
    exact Counters.read_empty k
  · intro hgap
    cases hgap
  · intro c hc he
    obtain ⟨k, v, hlabel, hseq, hv, hin | ⟨hout, -, -⟩⟩ := h.current c hc he
    · exact ⟨k, v, hlabel, hseq, hv, Or.inl hin⟩
    · rw [hp] at hout
      cases hout

omit [ChaCha20Poly1305] [Ciborium] in
/-- Staging a commit leaves the MLS epoch and so the explanation of its calls. -/
theorem Inv.stage {w : SoleSender G C} (h : w.Inv) {staged : G} (hidle : w.phase = .idle)
    (hstages : stages C w.ctx.group staged = true) :
    ({ w with ctx := { w.ctx with group := staged } } : SoleSender G C).Inv := by
  simp only [stages, Bool.and_eq_true, beq_iff_eq] at hstages
  have hepoch : OpenMls.epoch C staged = w.ctx.epoch := hstages.1
  refine ⟨h.active, h.unstaged, ?_, h.counts, h.continues, ?_, ?_, h.nodup⟩
  · intro tid ht
    rw [hidle] at ht
    cases ht
  · intro c hc
    show c.epoch.toNat ≤ (OpenMls.epoch C staged).toNat
    rw [hepoch]
    exact h.past c hc
  · intro c hc he
    have he' : c.epoch = OpenMls.epoch C staged := he
    exact h.current c hc (he'.trans hepoch)

omit [ChaCha20Poly1305] [Ciborium] in
/-- A phase on the same side of the gap keeps the explanation of the calls. -/
theorem Inv.enter {w : SoleSender G C} (h : w.Inv) {p : Phase}
    (hgap : p.inGap = w.phase.inGap)
    (hstaged : ∀ tid, p = .prepared tid → ∃ merged,
      OpenMls.mergePendingCommit C w.ctx.group = .ok merged ∧
        (OpenMls.epoch C merged).toNat = w.ctx.epoch.toNat + 1) :
    ({ w with phase := p } : SoleSender G C).Inv := by
  refine ⟨h.active, h.unstaged, hstaged, h.counts, ?_, h.past, ?_, h.nodup⟩
  · intro hp
    exact h.continues (hgap ▸ hp)
  · intro c hc he
    obtain ⟨k, v, hlabel, hseq, hv, hrange⟩ := h.current c hc he
    refine ⟨k, v, hlabel, hseq, hv, hrange.imp_right ?_⟩
    rintro ⟨hout, hlt, hle⟩
    exact ⟨hgap.trans hout, hlt, hle⟩

omit [ChaCha20Poly1305] [Ciborium] in
/-- A commit that is staged merges into the next epoch. -/
theorem merges_of_stages {group staged : G} (h : stages C group staged = true) :
    ∃ merged, OpenMls.mergePendingCommit C staged = .ok merged ∧
      (OpenMls.epoch C merged).toNat = (OpenMls.epoch C staged).toNat + 1 := by
  simp only [stages, Bool.and_eq_true, beq_iff_eq] at h
  obtain ⟨hepoch, hmerge⟩ := h
  cases hm : OpenMls.mergePendingCommit C staged with
  | ok merged =>
      rw [hm] at hmerge
      exact ⟨merged, rfl, by rw [hepoch]; exact beq_iff_eq.mp hmerge⟩
  | error e =>
      rw [hm] at hmerge
      cases hmerge

/-- Every step whose send is safe keeps the invariant. -/
theorem inv_step {w : SoleSender G C} (h : w.Inv) (x : SoleOp G)
    (hsafe : ∀ k, w.sealKey x = some k → w.SafeSend k) : (w.step x).Inv := by
  cases x with
  | sendPayload target st sid flags pt codec =>
      exact h.seals (hsafe _ rfl) (sendPayload_seal h.active target st sid flags pt codec)
  | sendControl now target op tid rid args =>
      exact h.seals (hsafe _ rfl) (control_seal h.active now target op tid rid args)
  | prepare now staged target tid rid args =>
      by_cases hok : w.phase = .idle ∧ stages C w.ctx.group staged = true
      · have hkey : w.sealKey (.prepare now staged target tid rid args) = some w.controlKey := by
          simp only [sealKey, hok, and_self, if_true]
        have hstaged := h.stage hok.1 hok.2
        have hseal := control_seal hstaged.active now target .prepareTransition tid rid args
        have hsent := hstaged.seals (hsafe _ hkey) hseal
        rw [step, if_pos hok]
        refine hsent.enter (by rw [hseal.phase, hok.1]; rfl) fun t _ => ?_
        rw [hseal.ctx]
        exact merges_of_stages hok.2
      · rw [step, if_neg hok]
        exact h
  | finalizePendingCommit =>
      cases hp : w.phase with
      | prepared tid => exact h.finalize hp
      | _ =>
          simp only [step, hp]
          exact h
  | execute now target rid args =>
      cases hp : w.phase with
      | finalized tid =>
          have hkey : w.sealKey (.execute now target rid args) = some w.controlKey := by
            simp only [sealKey, hp]
          have hseal := control_seal h.active now target .executeTransition tid rid args
          have hsent := h.seals (hsafe _ hkey) hseal
          simp only [step, hp]
          refine hsent.enter (by rw [hseal.phase, hp]; rfl) fun t ht => ?_
          cases ht
      | _ =>
          simp only [step, hp]
          exact h
  | applyTransition =>
      cases hp : w.phase with
      | executed tid => exact h.apply hp
      | _ =>
          simp only [step, hp]
          exact h

/-- A safe run keeps the invariant. -/
theorem inv_run {w : SoleSender G C} (h : w.Inv) {xs : List (SoleOp G)} (hsafe : w.SafeRun xs) :
    (Machine.run step w xs).Inv :=
  Machine.Along.invariant hsafe h fun _ x hx hw => inv_step hw x hx

/-- Over every run of transitions in the documented order with further sends on any streams,
all of them meeting the condition, the triples passed to `MlsContext.seal` are distinct. -/
theorem seal_triples_distinct (id : MemberId) (gid : GroupId) (b : Bootstrap) (group : G)
    (xs : List (SoleOp G)) (hsafe : (start id gid b group : SoleSender G C).SafeRun xs) :
    (Machine.run step (start id gid b group : SoleSender G C) xs).calls.Nodup :=
  (inv_run (inv_start id gid b group) hsafe).nodup

end Runs

/-- Member 1 alone in epoch zero. -/
def founder : SoleSender PlainGroup Unit := start 1 (Vector.replicate 16 0) (.creator 0) ⟨0⟩

/-- One complete transition. -/
def oneTransition : List (SoleOp PlainGroup) :=
  [.prepare 0 ⟨0⟩ 0 1 0 [], .finalizePendingCommit, .execute 0 0 0 [], .applyTransition]

/-- One complete transition and an acknowledgement after it. -/
def oneAck : List (SoleOp PlainGroup) := oneTransition ++ [.sendControl 0 0 .ack 1 0 []]

/-- One complete transition and two acknowledgements after it. -/
def twoAcks : List (SoleOp PlainGroup) := oneAck ++ [.sendControl 0 0 .ack 1 0 []]

/-- The second acknowledgement repeats the number of the EXECUTE in the same MLS epoch. -/
theorem second_ack_repeats_execute :
    (Machine.run step founder twoAcks).calls =
        [⟨0, .control, 1⟩, ⟨1, .control, 2⟩, ⟨1, .control, 1⟩, ⟨1, .control, 2⟩] ∧
      ¬(Machine.run step founder twoAcks).calls.Nodup :=
  ⟨by decide +kernel, by decide +kernel⟩

private theorem oneAck_safe : founder.SafeRun oneAck := by
  simp only [oneAck, oneTransition, List.cons_append, List.nil_append, SafeRun, Machine.Along, and_true]
  refine ⟨?_, ?_, ?_, ?_, ?_⟩
  · intro k hk
    obtain rfl := Option.some.inj hk
    refine ⟨by decide, fun sid => ⟨fun _ => rfl, fun h => absurd h (lt_irrefl 0)⟩⟩
  · intro k hk
    cases hk
  · intro k hk
    obtain rfl := Option.some.inj hk
    exact ⟨by decide, fun sid _ h => absurd h.2 (Nat.not_le.mpr h.1)⟩
  · intro k hk
    cases hk
  · intro k hk
    obtain rfl := Option.some.inj hk
    refine ⟨by decide, fun sid => ⟨fun _ => rfl, fun h => ?_⟩⟩
    by_cases hsid : sid = 100
    · subst hsid
      decide
    · have hne : (StreamType.control, sid) ≠ (.control, 100) := fun he => hsid (congrArg Prod.snd he)
      have hunused : Function.update (fun _ : StreamKey => 0) (.control, 100) 1
          (StreamType.control, sid) = 0 := Function.update_of_ne hne _ _
      exact absurd h (Nat.not_lt.mpr hunused.le)

theorem seal_triples_distinct_oneAck : (Machine.run step founder oneAck).calls.Nodup := by
  rw [founder]
  exact seal_triples_distinct 1 (Vector.replicate 16 0) (.creator 0) (⟨0⟩ : PlainGroup) oneAck
    oneAck_safe

end SoleSender

end GroupProtocol
