import GroupProtocol.Lifecycle.Failed

/-!
# What fails a node

The error registry says which errors are fatal. A node also fails when a handler requests
an edge its state machine forbids, and a frame of another epoch requests a resync in every
state. Before bootstrap that edge is forbidden, so such a frame fails the node without a
fatal error. It is the only way to do so.
-/

namespace GroupProtocol

/-- The call bootstraps the node. -/
def ApiCall.isBootstrap {S : Type} : ApiCall S → Bool
  | .bootstrapAsCreator _ => true
  | .bootstrapAsJoiner _ _ => true
  | .node _ => false

/-- The call is not a resync request of the application. -/
def ApiCall.unforced {S : Type} : ApiCall S → Bool
  | .node ⟨_, .triggerResync⟩ => false
  | _ => true

namespace GroupNode

theorem establishing_idle {n : GroupNode} (h : n.state = .idle) :
    ((n.transition .connecting).transition .establishingGroup).state = .establishingGroup := by
  have hconnecting : (n.transition .connecting).state = .connecting := by
    simp only [transition, h]
    rfl
  generalize n.transition .connecting = m at hconnecting
  simp only [transition, hconnecting]
  rfl

theorem transition_active {n : GroupNode} (h : n.state = .establishingGroup) :
    (n.transition .active).state = .active := by
  simp only [transition, h]
  rfl

theorem bootstrapAsCreator_idle {n : GroupNode} (h : n.state = .idle) (epoch : UInt64) :
    (n.bootstrapAsCreator epoch).state = .active := by
  have hest := establishing_idle h
  simp only [bootstrapAsCreator]
  apply transition_active
  exact hest

theorem bootstrapAsJoiner_idle {n : GroupNode} (h : n.state = .idle) (epoch : UInt64)
    (tid : TransitionId) : (n.bootstrapAsJoiner epoch tid).state = .active := by
  have hest := establishing_idle h
  simp only [bootstrapAsJoiner]
  apply transition_active
  split
  · exact hest
  · exact hest

/-- The states between two calls, before and after the bootstrap. -/
def Reached (booted : Bool) (s : NodeState) : Prop :=
  s = .failed ∨ if booted then s = .active ∨ s = .resyncing else s = .idle

/-- Requests lead from such states to such states. -/
theorem Reached.heed {booted : Bool} {s : NodeState} (h : Reached booted s) (sig : Signal) :
    Reached booted (s.heed sig).1 := by
  rcases h with rfl | h
  · cases sig <;> exact Or.inl rfl
  · cases booted with
    | false =>
        obtain rfl : s = .idle := h
        cases sig with
        | quiet => exact Or.inr rfl
        | fatal => exact Or.inl rfl
        | resync => exact Or.inl rfl
        | resynced => exact Or.inr rfl
    | true =>
        rcases (h : s = .active ∨ s = .resyncing) with rfl | rfl
        · cases sig with
          | quiet => exact Or.inr (Or.inl rfl)
          | fatal => exact Or.inl rfl
          | resync => exact Or.inr (Or.inr rfl)
          | resynced => exact Or.inr (Or.inl rfl)
        · cases sig with
          | quiet => exact Or.inr (Or.inr rfl)
          | fatal => exact Or.inl rfl
          | resync => exact Or.inr (Or.inr rfl)
          | resynced => exact Or.inr (Or.inl rfl)

/-- From such a state a request fails the node only if it is fatal, or asks an idle node to
resync. -/
theorem Reached.failed_iff {booted : Bool} {s : NodeState} (h : Reached booted s)
    (hs : s ≠ .failed) (sig : Signal) :
    (s.heed sig).1 = .failed ↔ sig = .fatal ∨ s = .idle ∧ sig = .resync := by
  have hcases : s = .idle ∨ s = .active ∨ s = .resyncing := by
    rcases h with h | h
    · exact absurd h hs
    · cases booted with
      | false => exact Or.inl h
      | true => exact Or.inr h
  rcases hcases with rfl | rfl | rfl
  · cases sig <;> decide
  · cases sig <;> decide
  · cases sig <;> decide

section Runs

variable [Ciborium] {S : Type} [Sealer S]

/-- The events a call of the interface adds. -/
def apiEmitted (n : GroupNode) : ApiCall S → List Event
  | .node x => n.emitted x
  | x => (n.apiStep x).events.drop n.events.length

/-- A call that fails the node reports a fatal error. -/
def FailsLoudly (n : GroupNode) (x : ApiCall S) : Prop :=
  n.state ≠ .failed → (n.apiStep x).state = .failed →
    (n.apiEmitted x).any Event.isFatal = true

/-- The call receives a frame of this version and group but of another epoch. -/
def foreignEpoch (n : GroupNode) : ApiCall S → Bool
  | .node ⟨_, .onWire _ wire⟩ =>
    match GbpFrame.decode wire with
    | .ok f => f.version == 1 && f.groupIdArray == n.groupId && f.epoch != n.currentEpoch
    | .error _ => false
  | _ => false

/-- A control message never asks for a resync. -/
theorem controlSignal_ne_resync (plain : Bytes) : controlSignal plain ≠ .resync := by
  unfold controlSignal
  split
  · decide
  · split
    · decide
    · unfold opcodeSignal
      split
      · decide
      · decide

theorem frameSignal_resync_iff {n : GroupNode} {s : S} {f : GbpFrame} :
    n.frameSignal s f = .resync ↔
      f.version = 1 ∧ f.groupIdArray = n.groupId ∧ f.epoch ≠ n.currentEpoch := by
  unfold frameSignal
  by_cases hhead : f.version ≠ 1 ∨ f.groupIdArray ≠ n.groupId
  · rw [if_pos hhead]
    constructor
    · exact nofun
    · rintro ⟨hv, hg, -⟩
      rcases hhead with h | h
      · exact absurd hv h
      · exact absurd hg h
  · rw [if_neg hhead]
    simp only [not_or, not_not] at hhead
    by_cases he : f.epoch ≠ n.currentEpoch
    · rw [if_pos he]
      exact ⟨fun _ => ⟨hhead.1, hhead.2, he⟩, fun _ => rfl⟩
    · rw [if_neg he]
      constructor
      · intro h
        split at h
        · exact absurd h (controlSignal_ne_resync _)
        · cases h
      · rintro ⟨-, -, h⟩
        exact absurd h he

/-- Apart from the application only a frame of another epoch asks for a resync. -/
theorem signal_resync_iff {n : GroupNode} {x : TimedCall S}
    (hx : (ApiCall.node x).unforced = true) :
    n.signal x = .resync ↔ n.foreignEpoch (.node x) = true := by
  obtain ⟨now, call⟩ := x
  cases call with
  | onWire s wire =>
      cases hd : GbpFrame.decode wire with
      | error e => simp [signal, foreignEpoch, hd]
      | ok f =>
          simp only [signal, foreignEpoch, hd, frameSignal_resync_iff, Bool.and_eq_true,
            beq_iff_eq, bne_iff_ne, ne_eq, and_assoc]
  | triggerResync => cases hx
  | _ =>
      constructor <;>
        · intro h
          cases h

/-- A bootstrap makes an idle node active and leaves a failed one failed. -/
theorem apiStep_bootstrap {n : GroupNode} {x : ApiCall S} (hx : x.isBootstrap = true) :
    (n.state = .idle → (n.apiStep x).state = .active) ∧
      (n.state = .failed → (n.apiStep x).state = .failed) := by
  cases x with
  | bootstrapAsCreator epoch =>
      exact ⟨fun h => bootstrapAsCreator_idle h epoch, fun h => bootstrapAsCreator_failed h epoch⟩
  | bootstrapAsJoiner epoch tid =>
      exact ⟨fun h => bootstrapAsJoiner_idle h epoch tid,
        fun h => bootstrapAsJoiner_failed h epoch tid⟩
  | node x => cases hx

private theorem bootstrap_reached {n : GroupNode} {x : ApiCall S} (hn : Reached false n.state)
    (hx : x.isBootstrap = true) :
    Reached true (n.apiStep x).state ∧
      (n.FailsLoudly x ↔ ¬(n.state = .idle ∧ n.foreignEpoch x = true)) := by
  have hforeign : n.foreignEpoch x = false := by
    cases x with
    | node x => cases hx
    | _ => rfl
  obtain ⟨hidle, hfailed⟩ := n.apiStep_bootstrap hx
  rw [hforeign]
  rcases hn with hs | hs
  · refine ⟨Or.inl (hfailed hs), fun _ => nofun, fun _ h => ?_⟩
    exact absurd hs h
  · refine ⟨Or.inr (Or.inl (hidle hs)), fun _ => nofun, fun _ _ h => ?_⟩
    rw [hidle hs] at h
    cases h

/-- One call of a run: it stays among the states between calls, and it fails the node with a
fatal error or not at all, a frame of another epoch at an idle node apart. -/
theorem apiStep_reached {n : GroupNode} {x : ApiCall S} {booted : Bool}
    (hn : Reached booted n.state) (hx : x.unforced = true)
    (honce : booted = true → x.isBootstrap = false) :
    Reached (booted || x.isBootstrap) (n.apiStep x).state ∧
      (n.FailsLoudly x ↔ ¬(n.state = .idle ∧ n.foreignEpoch x = true)) := by
  by_cases hboot : x.isBootstrap = true
  · have hfirst : booted = false := by
      apply Bool.eq_false_iff.mpr
      intro h
      rw [honce h] at hboot
      cases hboot
    subst hfirst
    rw [hboot]
    exact bootstrap_reached hn hboot
  · cases x with
    | node x =>
        have hsig := n.step_signal x
        constructor
        · rw [ApiCall.isBootstrap, Bool.or_false, apiStep, hsig.state]
          exact hn.heed _
        · by_cases hs : n.state = .failed
          · refine ⟨fun _ h => ?_, fun _ h => absurd hs h⟩
            rw [hs] at h
            cases h.1
          · have hfail := hn.failed_iff hs (n.signal x)
            rw [← signal_resync_iff hx]
            constructor
            · intro hloud hidle
              have hfatal := hloud hs (hsig.state.trans (hfail.mpr (Or.inr hidle)))
              rw [apiEmitted, hsig.fatal, hidle.2] at hfatal
              cases hfatal
            · intro hclean _ hfailed
              rw [apiEmitted, hsig.fatal]
              rcases hfail.mp (hsig.state.symm.trans hfailed) with h | h
              · rw [h]
                rfl
              · exact absurd h hclean
    | _ => exact absurd rfl hboot

/-- The calls left of a run with at most one bootstrap. -/
private theorem run_fails_loudly_iff {n : GroupNode} {xs : List (ApiCall S)} (booted : Bool)
    (hn : Reached booted n.state) (hx : ∀ x ∈ xs, x.unforced = true)
    (honce : booted.toNat + xs.countP ApiCall.isBootstrap ≤ 1) :
    Machine.Along apiStep FailsLoudly n xs ↔
      Machine.Along apiStep (fun n x => ¬(n.state = .idle ∧ n.foreignEpoch x = true)) n xs := by
  induction xs generalizing n booted with
  | nil => exact ⟨fun _ => trivial, fun _ => trivial⟩
  | cons x xs ih =>
      have hcount : booted.toNat + (x.isBootstrap.toNat + xs.countP ApiCall.isBootstrap) ≤ 1 := by
        rw [List.countP_cons] at honce
        cases hb : x.isBootstrap <;> simp [hb] at honce ⊢ <;> omega
      have hfirst : booted = true → x.isBootstrap = false := by
        rintro rfl
        cases hb : x.isBootstrap with
        | false => rfl
        | true => simp [hb] at hcount
      obtain ⟨hnext, hone⟩ := apiStep_reached hn (hx x (List.mem_cons_self ..)) hfirst
      have hrest : (booted || x.isBootstrap).toNat + xs.countP ApiCall.isBootstrap ≤ 1 := by
        cases booted <;> cases hb : x.isBootstrap <;> simp [hb] at hcount ⊢ <;> omega
      rw [Machine.Along, Machine.Along, hone,
        ih _ hnext (fun y hy => hx y (List.mem_cons_of_mem _ hy)) hrest]

/-- Over every run of a fresh node with at most one bootstrap and no resync request of the
application: every call that fails the node reports a fatal error exactly when no frame of
this version and group but of another epoch arrives while the node is idle. -/
theorem fails_loudly_iff (id : MemberId) (gid : GroupId) (xs : List (ApiCall S))
    (hx : ∀ x ∈ xs, x.unforced = true) (honce : xs.countP ApiCall.isBootstrap ≤ 1) :
    Machine.Along apiStep FailsLoudly (new id gid) xs ↔
      Machine.Along apiStep (fun n x => ¬(n.state = .idle ∧ n.foreignEpoch x = true))
        (new id gid) xs := by
  apply run_fails_loudly_iff false
  · exact Or.inr rfl
  · exact hx
  · simpa using honce

end Runs

/-- A frame of epoch 1 of the test group. -/
def epochOneFrame : Bytes :=
  (GbpFrame.new (Vector.replicate 16 0) 1 0 .text 100 0 1 [] 0).toCbor

/-- A frame of another epoch fails a node that has not been bootstrapped. The one error of
the call is EPOCH_MISMATCH, which is not fatal. -/
theorem epoch_mismatch_fails_idle :
    let n := new 2 (Vector.replicate 16 0)
    let x : ApiCall PlainSealer := .node ⟨0, .onWire .plain epochOneFrame⟩
    (n.apiStep x).state = .failed ∧
      n.apiEmitted x = [.error Codes.epochMismatch .state true false "got 1, expected 0",
        .stateChanged .idle .failed] ∧
      ¬Machine.Along apiStep FailsLoudly n [x] := by
  intro n x
  have hstate : (n.apiStep x).state = .failed := by decide +kernel
  have hemit : n.apiEmitted x =
      [.error Codes.epochMismatch .state true false "got 1, expected 0",
        .stateChanged .idle .failed] := by decide +kernel
  refine ⟨hstate, hemit, ?_⟩
  rintro ⟨hloud, -⟩
  have hfatal := hloud (by decide) hstate
  rw [hemit] at hfatal
  cases hfatal

theorem fails_loudly_bootstrapped :
    let x : ApiCall PlainSealer := .node ⟨0, .onWire .plain epochOneFrame⟩
    Machine.Along apiStep FailsLoudly (new 2 (Vector.replicate 16 0))
      [.bootstrapAsCreator 0, x, x] :=
  (fails_loudly_iff 2 (Vector.replicate 16 0) _ (by decide) (by decide)).mpr (by decide +kernel)

end GroupNode

end GroupProtocol
