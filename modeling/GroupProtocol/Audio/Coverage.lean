import GroupProtocol.Audio.Stream

/-!
# The overlap after an epoch change

When the client leaves an epoch it saves the marks of that epoch for the overlap time, so that late
frames of it are still classified. It saves them only when there are any: an epoch in which no frame
was taken leaves no window behind, and its late frames are refused as stale at once.
-/

namespace GroupProtocol

/-- The readings of the clock a call makes, in order. -/
def GapCall.readings {S : Type} : GapCall S → List Instant
  | .send _ _ _ _ _ _ _ now => [now]
  | .accept _ _ _ syncedAt now => [syncedAt, now]
  | .syncEpoch _ now => [now]

namespace GapClient

/-- The time at which the overlap of an epoch left at `t` is over. -/
def overlapEnd (t : Instant) : Instant := t + fromMillis Timeouts.tGapKeyOverlapMs

/-- There is a last reading before the overlap is over. -/
theorem exists_last_before (t : Instant) : ∃ now, t ≤ now ∧ overlapEnd t = now + 1 := by
  obtain ⟨k, hk⟩ : ∃ k, fromMillis Timeouts.tGapKeyOverlapMs = k + 1 :=
    Nat.exists_eq_succ_of_ne_zero (by decide)
  refine ⟨t + k, Nat.le_add_right t k, ?_⟩
  rw [overlapEnd, hk]
  rfl

/-- The client keeps a window of the epoch at least until the limit. -/
def Keeps (c : GapClient) (epoch : UInt64) (limit : Instant) : Prop :=
  ∃ w ∈ c.oldWindows, w.epoch = epoch ∧ limit ≤ w.expires

/-- Leaving the epoch at `t` leaves a window of it for the whole overlap: a frame of the epoch was
taken, or a window of it that lasts as long is there already. -/
def Saves (c : GapClient) (epoch : UInt64) (t : Instant) : Prop :=
  c.inHw.entries ≠ [] ∨ c.Keeps epoch (overlapEnd t)

/-- Synchronising before the limit does not prune the window. -/
theorem Keeps.syncEpoch {c : GapClient} {epoch : UInt64} {limit : Instant}
    (h : c.Keeps epoch limit) (next : UInt64) {now : Instant} (hnow : now < limit) :
    (c.syncEpoch next now).Keeps epoch limit := by
  obtain ⟨w, hw, hepoch, hexpires⟩ := h
  have hkept : w ∈ c.oldWindows.filter fun w => decide (w.expires > now) :=
    List.mem_filter.mpr ⟨hw, decide_eq_true (Nat.lt_of_lt_of_le hnow hexpires)⟩
  by_cases hcur : c.currentEpoch = some next
  · rw [syncEpoch_stay hcur]
    exact ⟨w, hkept, hepoch, hexpires⟩
  · rw [syncEpoch_move hcur]
    exact ⟨w, List.mem_append_left _ hkept, hepoch, hexpires⟩

/-- A client that leaves an epoch in which it took a frame saves a window. -/
theorem keeps_of_taken {c : GapClient} {epoch next : UInt64} (hcur : c.currentEpoch = some epoch)
    (hmove : epoch ≠ next) (htaken : c.inHw.entries ≠ []) (t : Instant) :
    (c.syncEpoch next t).Keeps epoch (overlapEnd t) := by
  have hne : c.currentEpoch ≠ some next := by
    rw [hcur]
    exact fun heq => hmove (Option.some.inj heq)
  have hleaving : c.leaving t = [⟨epoch, c.inHw, overlapEnd t⟩] := by
    rw [leaving, hcur]
    exact if_neg (mt List.isEmpty_iff.mp htaken)
  rw [syncEpoch_move hne, hleaving]
  exact ⟨_, List.mem_append_right _ (List.mem_singleton_self _), rfl, Nat.le_refl _⟩

/-- Whichever way a window is left, it is there after the epoch was left. -/
theorem Saves.keeps {c : GapClient} {epoch next : UInt64} {t : Instant} (h : c.Saves epoch t)
    (hcur : c.currentEpoch = some epoch) (hmove : epoch ≠ next) :
    (c.syncEpoch next t).Keeps epoch (overlapEnd t) := by
  rcases h with htaken | hkeeps
  · exact keeps_of_taken hcur hmove htaken t
  · have hpositive : t < overlapEnd t := Nat.lt_add_of_pos_right (by decide)
    exact hkeeps.syncEpoch next hpositive

/-- A client without marks saves no window. -/
theorem mem_oldWindows_of_untaken {c : GapClient} (huntaken : c.inHw.entries = []) {next : UInt64}
    {now : Instant} {w : OldEpochWindow} (hw : w ∈ (c.syncEpoch next now).oldWindows) :
    w ∈ c.oldWindows := by
  by_cases hcur : c.currentEpoch = some next
  · rw [syncEpoch_stay hcur] at hw
    exact List.mem_of_mem_filter hw
  · have hleaving : c.leaving now = [] := by
      rw [leaving, huntaken]
      cases c.currentEpoch with
      | none => rfl
      | some e => rfl
    rw [syncEpoch_move hcur, hleaving, List.append_nil] at hw
    exact List.mem_of_mem_filter hw

/-- An epoch below `2 ^ 32` is the only one with its key phase there. -/
theorem toUInt64_toUInt32 {epoch : UInt64} (h : epoch.toNat < 2 ^ 32) :
    epoch.toUInt32.toUInt64 = epoch := by
  apply UInt64.toNat_inj.mp
  rw [UInt32.toNat_toUInt64, UInt64.toNat_toUInt32, Nat.mod_eq_of_lt h]

/-- Of two successive epochs one has another key phase. -/
theorem exists_other_phase (epoch : UInt64) (phase : UInt32) :
    ∃ other : UInt64, other.toUInt32 ≠ phase := by
  by_cases h : epoch.toUInt32 = phase
  · refine ⟨epoch + 1, fun hnext => ?_⟩
    rw [← h, ← UInt32.toNat_inj, UInt64.toNat_toUInt32, UInt64.toNat_toUInt32, UInt64.toNat_add,
      UInt64.toNat_one] at hnext
    omega
  · exact ⟨epoch, h⟩

section Coverage

variable [Ciborium] [CborReader GapPayload] [Prost GbpProto.GapPayload]
  [PlanusBuilder GbpFlat.GapPayload] [ReadAsRoot GbpFlat.GapPayloadRef] {S : Type} [Sealer S]

/-- A call before the limit keeps the window. -/
theorem Keeps.step {c : GapClient} {epoch : UInt64} {limit : Instant} (h : c.Keeps epoch limit)
    {x : GapCall S} (hx : ∀ r ∈ x.readings, r < limit) : (c.step x).Keeps epoch limit := by
  cases x with
  | send n s target mediaSourceId rtpTimestamp opus codec now =>
      exact h.syncEpoch n.currentEpoch (hx now (List.mem_singleton_self now))
  | syncEpoch next now => exact h.syncEpoch next (hx now (List.mem_singleton_self now))
  | accept plaintext currentEpoch codec syncedAt now =>
      have hsynced := h.syncEpoch currentEpoch (hx syncedAt (List.mem_cons_self ..))
      rw [GapClient.step]
      rcases c.accept_cases plaintext currentEpoch codec syncedAt now with ⟨e, -, heq⟩ |
        ⟨p, -, ⟨-, heq⟩ | ⟨-, before, v, after, hsplit, -, heq⟩ | ⟨-, heq⟩⟩
      · rw [heq]
        exact hsynced
      · rw [heq]
        exact hsynced
      · -- The window that classified the frame has other marks, but its epoch and its end.
        obtain ⟨w, hw, hepoch, hexpires⟩ := hsynced
        rw [heq]
        rw [hsplit, List.mem_append, List.mem_cons] at hw
        rcases hw with hw | rfl | hw
        · exact ⟨w, List.mem_append_left _ hw, hepoch, hexpires⟩
        · exact ⟨_, List.mem_append_right _ (List.mem_cons_self ..), hepoch, hexpires⟩
        · exact ⟨w, List.mem_append_right _ (List.mem_cons_of_mem _ hw), hepoch, hexpires⟩
      · rw [heq]
        exact hsynced

/-- The payload is classified, as new or as late. -/
def Classified (r : Except GapError GapAccept) (p : GapPayload) : Prop :=
  r = .ok (.new p) ∨ r = .ok (.late p)

omit [Ciborium] [PlanusBuilder GbpFlat.GapPayload] in
/-- A payload of a live epoch is classified, any other is stale. -/
theorem classified_or_stale {plaintext : Bytes} {codec : PayloadCodec} {p : GapPayload}
    (hdecode : GapPayload.fromBytes plaintext codec = .ok p) (c : GapClient)
    (currentEpoch : UInt64) (syncedAt now : Instant) :
    ((c.syncEpoch currentEpoch syncedAt).Live p currentEpoch now ∧
        Classified (c.accept plaintext currentEpoch codec syncedAt now).1 p) ∨
      (¬ (c.syncEpoch currentEpoch syncedAt).Live p currentEpoch now ∧
        (c.accept plaintext currentEpoch codec syncedAt now).1 =
          .error (.epochStale p.keyPhase currentEpoch.toUInt32)) := by
  have hinto (hw : Counters UInt32 UInt32) : Classified (.ok (acceptInto hw p).1) p := by
    rcases acceptInto_cases hw p with ⟨-, hlate⟩ | ⟨-, hnew⟩
    · rw [hlate]
      exact Or.inr rfl
    · rw [hnew]
      exact Or.inl rfl
  rcases accept_decoded hdecode c currentEpoch syncedAt now with ⟨hphase, heq⟩ |
    ⟨-, before, w, after, hsplit, htakes, heq⟩ | ⟨hdead, heq⟩
  · rw [heq]
    exact Or.inl ⟨Or.inl hphase, hinto _⟩
  · have hw : w ∈ (c.syncEpoch currentEpoch syncedAt).oldWindows := by
      rw [hsplit]
      exact List.mem_append_right _ (List.mem_cons_self ..)
    rw [heq]
    exact Or.inl ⟨Or.inr ⟨w, hw, htakes⟩, hinto _⟩
  · rw [heq]
    exact Or.inr ⟨hdead, rfl⟩

omit [Ciborium] [PlanusBuilder GbpFlat.GapPayload] in
/-- A payload of an epoch whose window is kept is classified. -/
theorem Keeps.classified {c : GapClient} {epoch : UInt64} {limit : Instant}
    (h : c.Keeps epoch limit) {plaintext : Bytes} {codec : PayloadCodec} {p : GapPayload}
    (hdecode : GapPayload.fromBytes plaintext codec = .ok p)
    (hphase : p.keyPhase.toUInt64 = epoch) (currentEpoch : UInt64) {syncedAt now : Instant}
    (hsyncedAt : syncedAt < limit) (hnow : now < limit) :
    Classified (c.accept plaintext currentEpoch codec syncedAt now).1 p := by
  obtain ⟨w, hw, hepoch, hexpires⟩ := h.syncEpoch currentEpoch hsyncedAt
  have htakes : Takes w p now := ⟨hepoch.trans hphase.symm, Nat.lt_of_lt_of_le hnow hexpires⟩
  rcases classified_or_stale hdecode c currentEpoch syncedAt now with
    ⟨-, hclassified⟩ | ⟨hdead, -⟩
  · exact hclassified
  · exact absurd (Or.inr ⟨w, hw, htakes⟩) hdead

/-- Since the client left the epoch at `t`, and after any further calls, every decodable payload of
the epoch handed over before the overlap is over is classified. The clock does not go back. -/
def CoveredSince (S : Type) [Sealer S] (c : GapClient) (epoch : UInt64) (t : Instant) : Prop :=
  ∀ (ys : List (GapCall S)) (plaintext : Bytes) (currentEpoch : UInt64) (codec : PayloadCodec)
    (syncedAt now : Instant) (p : GapPayload),
    (t :: (ys.flatMap GapCall.readings ++ [syncedAt, now])).Pairwise (· ≤ ·) →
    now < overlapEnd t → GapPayload.fromBytes plaintext codec = .ok p →
    p.keyPhase = epoch.toUInt32 →
    Classified ((Machine.run step c ys).accept plaintext currentEpoch codec syncedAt now).1 p

/-- A window that is kept covers its epoch. -/
theorem Keeps.coveredSince {c : GapClient} {epoch : UInt64} (hsmall : epoch.toNat < 2 ^ 32)
    {t : Instant} (h : c.Keeps epoch (overlapEnd t)) : CoveredSince S c epoch t := by
  intro ys plaintext currentEpoch codec syncedAt now p hclock hnow hdecode hphase
  have hordered := (List.pairwise_append.mp (List.pairwise_cons.mp hclock).2)
  have hsyncedAt : syncedAt ≤ now :=
    (List.pairwise_cons.mp hordered.2.1).1 now (List.mem_singleton_self now)
  have hstep : ∀ d y, y ∈ ys → Keeps d epoch (overlapEnd t) →
      Keeps (GapClient.step d y) epoch (overlapEnd t) := by
    intro d y hy hd
    refine hd.step fun r hr => ?_
    have hle : r ≤ now := hordered.2.2 r (List.mem_flatMap.mpr ⟨y, hy, hr⟩) now (by simp)
    exact Nat.lt_of_le_of_lt hle hnow
  have hrun : Keeps (Machine.run GapClient.step c ys) epoch (overlapEnd t) :=
    @Machine.run_invariant _ _ _ (Keeps · epoch (overlapEnd t)) _ _ h hstep
  have hepoch : p.keyPhase.toUInt64 = epoch := by
    rw [hphase]
    exact toUInt64_toUInt32 hsmall
  exact hrun.classified hdecode hepoch currentEpoch (Nat.lt_of_le_of_lt hsyncedAt hnow) hnow

/-- Without a window that lasts, a payload at the end of the overlap is stale. -/
theorem not_coveredSince (hcbor : CborReader.Lossless GapPayload.entries)
    (hproto : Prost.Lossless GbpProto.GapPayload)
    (hflat : ReadAsRoot.Lossless GbpFlat.GapPayload.view) {c : GapClient} {epoch next : UInt64}
    (hsmall : epoch.toNat < 2 ^ 32) (hcur : c.currentEpoch ≠ some next) {t : Instant}
    (huntaken : c.inHw.entries = []) (hnone : ¬ c.Keeps epoch (overlapEnd t)) :
    ¬ CoveredSince S (c.syncEpoch next t) epoch t := by
  intro hcovered
  obtain ⟨now, hafter, hnow⟩ := exists_last_before t
  have hbefore : now < overlapEnd t := by
    rw [hnow]
    exact Nat.lt_succ_self now
  let p : GapPayload := ⟨0, 1, 0, epoch.toUInt32, []⟩
  have hdecode : GapPayload.fromBytes (p.toBytes .cbor) .cbor = .ok p :=
    GapPayload.fromBytes_toBytes hcbor hproto hflat (p := p) (show (0 : ℕ) < 2 ^ 64 by decide) .cbor
  obtain ⟨currentEpoch, hphase⟩ := exists_other_phase next epoch.toUInt32
  have hclassified := hcovered [] (p.toBytes .cbor) currentEpoch .cbor now now p
    (by simpa using hafter) hbefore hdecode rfl
  -- No window of the epoch was saved on the way, and those it had are over by then.
  have hdead : ¬ ((c.syncEpoch next t).syncEpoch currentEpoch now).Live p currentEpoch now := by
    rintro (hcurrent | ⟨w, hw, hepoch, hexpires⟩)
    · exact hphase hcurrent.symm
    · have hempty : (c.syncEpoch next t).inHw.entries = [] := by
        rw [(syncEpoch_fresh hcur t).2]
        rfl
      have hold := mem_oldWindows_of_untaken huntaken (mem_oldWindows_of_untaken hempty hw)
      refine hnone ⟨w, hold, hepoch.trans (toUInt64_toUInt32 hsmall), ?_⟩
      rw [hnow]
      exact hexpires
  rcases classified_or_stale hdecode (c.syncEpoch next t) currentEpoch now now with
    ⟨hlive, -⟩ | ⟨-, hstale⟩
  · exact hdead hlive
  · rw [Machine.run_nil, hstale] at hclassified
    rcases hclassified with h | h <;> cases h

/-- For every client in an epoch below `2 ^ 32` that moves to a later one at any time: whatever calls
follow, every decodable payload of the epoch handed over before the overlap is over is classified,
exactly when leaving the epoch leaves a window of it. -/
theorem overlap_covers_iff (hcbor : CborReader.Lossless GapPayload.entries)
    (hproto : Prost.Lossless GbpProto.GapPayload)
    (hflat : ReadAsRoot.Lossless GbpFlat.GapPayload.view) (c : GapClient) {epoch next : UInt64}
    (hcur : c.currentEpoch = some epoch) (hsmall : epoch.toNat < 2 ^ 32) (hlater : epoch < next)
    (t : Instant) :
    CoveredSince S (c.syncEpoch next t) epoch t ↔ c.Saves epoch t := by
  have hmove : epoch ≠ next := UInt64.ne_of_lt hlater
  have hne : c.currentEpoch ≠ some next := by
    rw [hcur]
    exact fun heq => hmove (Option.some.inj heq)
  constructor
  · intro hcovered
    by_contra hnot
    obtain ⟨huntaken, hnone⟩ := not_or.mp hnot
    exact not_coveredSince hcbor hproto hflat hsmall hne (not_not.mp huntaken) hnone hcovered
  · intro hsaves
    exact (hsaves.keeps hcur hmove).coveredSince hsmall

end Coverage

/-- A client that took a frame in epoch zero covers it. -/
theorem overlap_covers_iff_taken :
    CoveredSince PlainSealer ((new.step (takes 1 0)).syncEpoch 1 5) 0 5 :=
  (overlap_covers_iff GapPayload.cborLossless GapPayload.protoLossless GapPayload.flatLossless
    (new.step (takes 1 0)) (by decide +kernel) (by decide) (by decide) 5).mpr
    (Or.inl (by decide +kernel))

/-- A client enters epoch zero, hears nothing in it and moves on. A frame of epoch zero that comes one
tick later is stale. -/
theorem quiet_epoch_is_stale :
    let moved := (new.syncEpoch 0 0).syncEpoch 1 5
    (moved.accept (numbered 1).toCbor 1 .cbor 6 6).1 = .error (.epochStale 0 1) ∧
      ¬ CoveredSince PlainSealer moved 0 5 := by
  intro moved
  have hstale : (moved.accept (numbered 1).toCbor 1 .cbor 6 6).1 = .error (.epochStale 0 1) := by
    decide +kernel
  refine ⟨hstale, fun hcovered => ?_⟩
  have hclassified := hcovered [] (numbered 1).toCbor 1 .cbor 6 6 (numbered 1) (by decide)
    (by decide) (fromBytes_numbered 1) rfl
  rw [Machine.run_nil, hstale] at hclassified
  rcases hclassified with h | h <;> cases h

end GapClient

end GroupProtocol
