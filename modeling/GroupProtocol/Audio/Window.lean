import GroupProtocol.Clients.Receiving
import GroupProtocol.Lib.Machine

/-!
# The replay windows of the audio client

The client keeps one mark for each source in the current epoch and in every epoch whose window it
still keeps. As long as the epoch does not go back, a mark is the number of the last frame of its
source and epoch that was taken as new. The test against the mark compares 32-bit words, while the
numbers are counted in sixteen bits: it is serial-number arithmetic only as long as no frame from
before a wrap, no first frame numbered zero and no mark beyond sixteen bits is involved.
-/

namespace GroupProtocol

/-- The calls of an audio client, with the readings of the clock they make. -/
inductive GapCall (S : Type)
  | send (n : GroupNode) (s : S) (target : MemberId) (mediaSourceId : UInt32)
      (rtpTimestamp : UInt64) (opus : Bytes) (codec : PayloadCodec) (now : Instant)
  | accept (plaintext : Bytes) (currentEpoch : UInt64) (codec : PayloadCodec)
      (syncedAt now : Instant)
  | syncEpoch (epoch : UInt64) (now : Instant)

/-- The epoch a call hands to the client. -/
def GapCall.epoch {S : Type} : GapCall S → UInt64
  | .send n _ _ _ _ _ _ _ => n.currentEpoch
  | .accept _ currentEpoch _ _ _ => currentEpoch
  | .syncEpoch epoch _ => epoch

/-- The epoch a payload belongs to at a receiver in `current`. -/
def GapPayload.epochIn (p : GapPayload) (current : UInt64) : UInt64 :=
  if p.keyPhase = current.toUInt32 then current else p.keyPhase.toUInt64

/-- A frame taken as new. -/
structure NewFrame where
  epoch : UInt64
  source : UInt32
  seq : UInt32
  deriving DecidableEq, Repr

/-- The number of the last frame of a source and epoch taken as new. -/
def lastNew (log : List NewFrame) (epoch : UInt64) (source : UInt32) : Option UInt32 :=
  (log.reverse.find? fun f => f.epoch = epoch ∧ f.source = source).map NewFrame.seq

@[simp] theorem lastNew_nil (epoch : UInt64) (source : UInt32) : lastNew [] epoch source = none := rfl

theorem lastNew_append (log : List NewFrame) (f : NewFrame) (epoch : UInt64) (source : UInt32) :
    lastNew (log ++ [f]) epoch source =
      if f.epoch = epoch ∧ f.source = source then some f.seq else lastNew log epoch source := by
  rw [lastNew, List.reverse_append, List.reverse_singleton, List.singleton_append, List.find?_cons]
  by_cases h : f.epoch = epoch ∧ f.source = source
  · simp [h]
  · simp [h, lastNew]

/-- A frame of another epoch is not the last one of this epoch. -/
theorem lastNew_append_of_ne (log : List NewFrame) {f : NewFrame} {epoch : UInt64}
    (h : f.epoch ≠ epoch) (source : UInt32) :
    lastNew (log ++ [f]) epoch source = lastNew log epoch source := by
  rw [lastNew_append, if_neg fun hand => h hand.1]

/-- Marks that are the last numbers of an epoch stay so when a frame of it is recorded in both. -/
theorem lookup_insert_eq_lastNew {inHw : Counters UInt32 UInt32} {log : List NewFrame}
    {epoch : UInt64} (h : ∀ source, inHw.lookup source = lastNew log epoch source)
    (source seq source' : UInt32) :
    (inHw.insert source seq).lookup source' =
      lastNew (log ++ [⟨epoch, source, seq⟩]) epoch source' := by
  rw [Counters.lookup_insert_ite, lastNew_append, h source']
  by_cases hs : source' = source
  · rw [if_pos hs, if_pos ⟨rfl, hs.symm⟩]
  · rw [if_neg hs, if_neg fun hand => hs hand.2.symm]

theorem lastNew_eq_none {log : List NewFrame} {epoch : UInt64} (h : ∀ f ∈ log, f.epoch ≠ epoch)
    (source : UInt32) : lastNew log epoch source = none := by
  rw [lastNew, Option.map_eq_none_iff, List.find?_eq_none]
  intro f hf
  simp [h f (List.mem_reverse.mp hf)]

namespace GapClient

/-! Serial-number arithmetic and the word test. -/

/-- The distance from a mark to a number, counted in sixteen bits. -/
def distance (hw seq : UInt32) : ℕ := (seq.toNat + (0x10000 - hw.toNat % 0x10000)) % 0x10000

/-- A number is ahead of the last one, if there is one, by less than half the sequence space. -/
def Ahead (last : Option UInt32) (seq : UInt32) : Prop :=
  ∀ hw, last = some hw → 1 ≤ distance hw seq ∧ distance hw seq ≤ 0x7FFF

/-- The number is not exactly half the sequence space away from the last one. -/
def Decided (last : Option UInt32) (seq : UInt32) : Prop :=
  ∀ hw, last = some hw → distance hw seq ≠ 0x8000

/-- The word test of the client agrees with serial-number arithmetic on these numbers: a first number
is not zero; a number up to the mark is at most half the sequence space below it, or more than half
in sixteen bits; a number above the mark is less than half the sequence space above it. -/
def Agrees (last : Option UInt32) (seq : UInt32) : Prop :=
  match last with
  | none => seq ≠ 0
  | some hw =>
    (seq ≤ hw → hw.toNat - seq.toNat ≤ 0x7FFF ∨ 0x8001 ≤ (hw.toNat - seq.toNat) % 0x10000) ∧
      (hw < seq → seq.toNat - hw.toNat ≤ 0x7FFF)

instance : (last : Option UInt32) → (seq : UInt32) → Decidable (Agrees last seq)
  | none, seq => inferInstanceAs (Decidable (seq ≠ 0))
  | some hw, seq =>
    inferInstanceAs (Decidable
      ((seq ≤ hw → hw.toNat - seq.toNat ≤ 0x7FFF ∨ 0x8001 ≤ (hw.toNat - seq.toNat) % 0x10000) ∧
        (hw < seq → seq.toNat - hw.toNat ≤ 0x7FFF)))

/-- The word test of the client. -/
def WordLate (hw seq : UInt32) : Prop := seq ≤ hw ∧ hw - seq ≤ 0x7FFF

theorem wordLate_iff (hw seq : UInt32) :
    WordLate hw seq ↔ seq.toNat ≤ hw.toNat ∧ hw.toNat - seq.toNat ≤ 0x7FFF := by
  rw [WordLate, UInt32.le_iff_toNat_le]
  refine and_congr_right fun h => ?_
  rw [UInt32.le_iff_toNat_le, UInt32.toNat_sub_of_le _ _ (UInt32.le_iff_toNat_le.mpr h)]
  rfl

/-- Against a mark the word test and serial-number arithmetic agree exactly where they are meant
to. -/
theorem ahead_iff_not_wordLate {last : Option UInt32} {seq : UInt32} (hseq : seq ≤ 0xFFFF)
    (hdecided : Decided last seq) :
    (Ahead last seq ↔ ¬ WordLate (last.getD 0) seq) ↔ Agrees last seq := by
  have hsmall : seq.toNat ≤ 0xFFFF := UInt32.le_iff_toNat_le.mp hseq
  rw [wordLate_iff]
  cases last with
  | none =>
      have hahead : Ahead none seq := by
        intro hw h
        cases h
      have hzero : seq ≠ 0 ↔ seq.toNat ≠ 0 := by
        rw [ne_eq, ne_eq, ← UInt32.toNat_inj, UInt32.toNat_zero]
      simp only [Agrees, hahead, true_iff, Option.getD_none, UInt32.toNat_zero, hzero]
      omega
  | some hw =>
      have hd := hdecided hw rfl
      simp only [Agrees, Ahead, Option.some.injEq, forall_eq', Option.getD_some,
        UInt32.le_iff_toNat_le, UInt32.lt_iff_toNat_lt, distance] at hd ⊢
      omega

/-! What one call does to the windows. -/

/-- Either the payload is late and the window stays, or it is new and its number becomes the
mark. -/
theorem acceptInto_cases (inHw : Counters UInt32 UInt32) (p : GapPayload) :
    (WordLate (inHw.read p.mediaSourceId) p.rtpSequence ∧ acceptInto inHw p = (.late p, inHw)) ∨
      (¬ WordLate (inHw.read p.mediaSourceId) p.rtpSequence ∧
        acceptInto inHw p = (.new p, inHw.insert p.mediaSourceId p.rtpSequence)) := by
  rw [acceptInto]
  split
  · rename_i h
    exact Or.inl ⟨h, rfl⟩
  · rename_i h
    exact Or.inr ⟨h, rfl⟩

/-- A saved window takes payloads of its epoch until it expires. -/
def Takes (w : OldEpochWindow) (p : GapPayload) (now : Instant) : Prop :=
  w.epoch = p.keyPhase.toUInt64 ∧ now < w.expires

/-- The first saved window that takes the payload is the one that classifies it. -/
theorem acceptOld_cases (p : GapPayload) (now : Instant) (ws : List OldEpochWindow) :
    (acceptOld p now ws = none ∧ ∀ w ∈ ws, ¬ Takes w p now) ∨
      ∃ before w after, ws = before ++ w :: after ∧ Takes w p now ∧
        acceptOld p now ws = some ((acceptInto w.inHw p).1,
          before ++ { w with inHw := (acceptInto w.inHw p).2 } :: after) := by
  induction ws with
  | nil => exact Or.inl ⟨rfl, by simp⟩
  | cons v ws ih =>
      rw [acceptOld]
      by_cases hv : v.epoch = p.keyPhase.toUInt64 ∧ v.expires > now
      · rw [if_pos hv]
        exact Or.inr ⟨[], v, ws, rfl, hv, rfl⟩
      · rw [if_neg hv]
        rcases ih with ⟨hnone, hall⟩ | ⟨before, w, after, rfl, htakes, heq⟩
        · refine Or.inl ⟨by rw [hnone]; rfl, ?_⟩
          intro w hw
          rcases List.mem_cons.mp hw with rfl | hw
          · exact hv
          · exact hall w hw
        · exact Or.inr ⟨v :: before, w, after, rfl, htakes, by rw [heq]; rfl⟩

section Calls

variable [CborReader GapPayload] [Prost GbpProto.GapPayload] [ReadAsRoot GbpFlat.GapPayloadRef]

/-- The payload of the plaintext is of the current epoch, or of one whose window is still kept. -/
def Live (c : GapClient) (p : GapPayload) (currentEpoch : UInt64) (now : Instant) : Prop :=
  p.keyPhase = currentEpoch.toUInt32 ∨ ∃ w ∈ c.oldWindows, Takes w p now

/-- What becomes of a payload that can be read, at a client that is synchronised: the current window or
one saved window classifies it, or it is stale. -/
def Judged (synced : GapClient) (p : GapPayload) (currentEpoch : UInt64) (now : Instant)
    (r : Except GapError GapAccept × GapClient) : Prop :=
  (p.keyPhase = currentEpoch.toUInt32 ∧
      r = (.ok (acceptInto synced.inHw p).1,
        { synced with inHw := (acceptInto synced.inHw p).2 })) ∨
    (p.keyPhase ≠ currentEpoch.toUInt32 ∧ ∃ before w after,
      synced.oldWindows = before ++ w :: after ∧ Takes w p now ∧
      r = (.ok (acceptInto w.inHw p).1, { synced with
        oldWindows := before ++ { w with inHw := (acceptInto w.inHw p).2 } :: after })) ∨
    (¬ synced.Live p currentEpoch now ∧
      r = (.error (.epochStale p.keyPhase currentEpoch.toUInt32), synced))

/-- A payload that can be read is judged after synchronising. -/
theorem accept_decoded {plaintext : Bytes} {codec : PayloadCodec} {p : GapPayload}
    (hdecode : GapPayload.fromBytes plaintext codec = .ok p) (c : GapClient)
    (currentEpoch : UInt64) (syncedAt now : Instant) :
    (c.syncEpoch currentEpoch syncedAt).Judged p currentEpoch now
      (c.accept plaintext currentEpoch codec syncedAt now) := by
  by_cases hphase : p.keyPhase = currentEpoch.toUInt32
  · refine Or.inl ⟨hphase, ?_⟩
    simp only [accept, hdecode, if_pos hphase]
  · refine Or.inr ?_
    rcases acceptOld_cases p now (c.syncEpoch currentEpoch syncedAt).oldWindows with
      ⟨hnone, hall⟩ | ⟨before, w, after, hsplit, htakes, hsome⟩
    · refine Or.inr ⟨?_, ?_⟩
      · rintro (hcur | ⟨w, hw, htakes⟩)
        · exact hphase hcur
        · exact hall w hw htakes
      · simp only [accept, hdecode, if_neg hphase, hnone]
    · refine Or.inl ⟨hphase, before, w, after, hsplit, htakes, ?_⟩
      simp only [accept, hdecode, if_neg hphase, hsome]

/-- A payload is refused unread or judged. -/
theorem accept_cases (c : GapClient) (plaintext : Bytes) (currentEpoch : UInt64)
    (codec : PayloadCodec) (syncedAt now : Instant) :
    let synced := c.syncEpoch currentEpoch syncedAt
    let r := c.accept plaintext currentEpoch codec syncedAt now
    (∃ e, GapPayload.fromBytes plaintext codec = .error e ∧ r = (.error (.decode e), synced)) ∨
      ∃ p, GapPayload.fromBytes plaintext codec = .ok p ∧ synced.Judged p currentEpoch now r := by
  intro synced r
  cases hdecode : GapPayload.fromBytes plaintext codec with
  | error e =>
      refine Or.inl ⟨e, rfl, ?_⟩
      simp only [r, accept, hdecode]
      rfl
  | ok p => exact Or.inr ⟨p, rfl, accept_decoded hdecode c currentEpoch syncedAt now⟩

end Calls

/-! The windows hold the last new frames. -/

/-- The client's windows and the frames taken as new so far: every mark is the last number of its
source and epoch, saved windows are of different earlier epochs, and no frame is of a later one. -/
structure Tracks (c : GapClient) (log : List NewFrame) : Prop where
  current : ∀ e, c.currentEpoch = some e → ∀ source, c.inHw.lookup source = lastNew log e source
  old : ∀ w ∈ c.oldWindows, ∀ source, w.inHw.lookup source = lastNew log w.epoch source
  ordered : c.oldWindows.Pairwise fun v w => v.epoch < w.epoch
  earlier : ∀ e, c.currentEpoch = some e → ∀ w ∈ c.oldWindows, w.epoch < e
  logged : ∀ e, c.currentEpoch = some e → ∀ f ∈ log, f.epoch ≤ e
  fresh : c.currentEpoch = none → c.oldWindows = [] ∧ log = []

theorem tracks_new : Tracks new [] where
  current e h := by cases h
  old w hw := by cases hw
  ordered := List.Pairwise.nil
  earlier e h := by cases h
  logged e h := by cases h
  fresh _ := ⟨rfl, rfl⟩

/-- The client's own numbers do not matter. -/
theorem Tracks.outRtpSeq {c : GapClient} {log : List NewFrame} (h : Tracks c log)
    (q : Counters UInt32 UInt32) : Tracks { c with outRtpSeq := q } log :=
  ⟨h.current, h.old, h.ordered, h.earlier, h.logged, h.fresh⟩

/-- Pruning leaves the rest as it was. -/
theorem Tracks.prune {c : GapClient} {log : List NewFrame} (h : Tracks c log)
    (keep : OldEpochWindow → Bool) :
    Tracks { c with oldWindows := c.oldWindows.filter keep } log where
  current := h.current
  old w hw := h.old w (List.mem_of_mem_filter hw)
  ordered := h.ordered.filter keep
  earlier e he w hw := h.earlier e he w (List.mem_of_mem_filter hw)
  logged := h.logged
  fresh hnone := ⟨by rw [(h.fresh hnone).1]; rfl, (h.fresh hnone).2⟩

/-- A synchronised client is in the epoch it was given. -/
theorem syncEpoch_currentEpoch (c : GapClient) (epoch : UInt64) (now : Instant) :
    (c.syncEpoch epoch now).currentEpoch = some epoch := by
  rw [syncEpoch]
  dsimp only
  split
  · rfl
  · rename_i h
    exact (not_not.mp h).symm

/-- The window of the epoch that is left, if there is one and it is not empty. -/
def leaving (c : GapClient) (now : Instant) : List OldEpochWindow :=
  match c.currentEpoch with
  | some oldEpoch =>
    if c.inHw.entries.isEmpty then []
    else [⟨oldEpoch, c.inHw, now + fromMillis Timeouts.tGapKeyOverlapMs⟩]
  | none => []

theorem leaving_cases {c : GapClient} {e : UInt64} (h : c.currentEpoch = some e) (now : Instant) :
    c.leaving now = [] ∨
      c.leaving now = [⟨e, c.inHw, now + fromMillis Timeouts.tGapKeyOverlapMs⟩] := by
  rw [leaving, h]
  dsimp only
  split
  · exact Or.inl rfl
  · exact Or.inr rfl

theorem mem_leaving {c : GapClient} {e : UInt64} (h : c.currentEpoch = some e) {now : Instant}
    {w : OldEpochWindow} (hw : w ∈ c.leaving now) : w.epoch = e ∧ w.inHw = c.inHw := by
  rcases leaving_cases h now with hnone | hone
  · rw [hnone] at hw
    cases hw
  · rw [hone] at hw
    rw [List.mem_singleton.mp hw]
    exact ⟨rfl, rfl⟩

theorem syncEpoch_stay {c : GapClient} {epoch : UInt64} (h : c.currentEpoch = some epoch)
    (now : Instant) :
    c.syncEpoch epoch now =
      { c with oldWindows := c.oldWindows.filter fun w => decide (w.expires > now) } := by
  rw [syncEpoch]
  exact if_neg (not_not.mpr h.symm)

theorem syncEpoch_move {c : GapClient} {epoch : UInt64} (h : c.currentEpoch ≠ some epoch)
    (now : Instant) :
    c.syncEpoch epoch now = ⟨∅, ∅, some epoch,
      (c.oldWindows.filter fun w => decide (w.expires > now)) ++ c.leaving now⟩ := by
  rw [syncEpoch]
  exact if_pos (Ne.symm h)

/-- Entering a later epoch keeps the old marks and starts without any. -/
theorem Tracks.move {c : GapClient} {log : List NewFrame} (h : Tracks c log) {epoch : UInt64}
    (hlater : ∀ e, c.currentEpoch = some e → e < epoch) (now : Instant) :
    Tracks ⟨∅, ∅, some epoch, c.oldWindows ++ c.leaving now⟩ log := by
  cases hcur : c.currentEpoch with
  | none =>
      obtain ⟨hold, rfl⟩ := h.fresh hcur
      have hleaving : c.leaving now = [] := by rw [leaving, hcur]
      rw [hold, hleaving]
      exact ⟨fun e _ source => rfl, by simp, List.Pairwise.nil, by simp, by simp, by simp⟩
  | some e =>
      have hlt := hlater e hcur
      refine ⟨?_, ?_, ?_, ?_, ?_, nofun⟩
      · intro e' he' source
        obtain rfl := Option.some.inj he'
        rw [lastNew_eq_none fun f hf heq => ?_]
        · rfl
        · exact absurd (h.logged e hcur f hf) (UInt64.not_le.mpr (heq ▸ hlt))
      · intro w hw source
        rcases List.mem_append.mp hw with hw | hw
        · exact h.old w hw source
        · obtain ⟨hepoch, hwindow⟩ := mem_leaving hcur hw
          rw [hepoch, hwindow]
          exact h.current e hcur source
      · refine List.pairwise_append.mpr ⟨h.ordered, ?_, ?_⟩
        · rcases leaving_cases hcur now with hnone | hone
          · rw [hnone]
            exact List.Pairwise.nil
          · rw [hone]
            exact List.pairwise_singleton ..
        · intro v hv w hw
          rw [(mem_leaving hcur hw).1]
          exact h.earlier e hcur v hv
      · intro e' he' w hw
        obtain rfl := Option.some.inj he'
        rcases List.mem_append.mp hw with hw | hw
        · exact UInt64.lt_trans (h.earlier e hcur w hw) hlt
        · rw [(mem_leaving hcur hw).1]
          exact hlt
      · intro e' he' f hf
        obtain rfl := Option.some.inj he'
        exact UInt64.le_of_lt (UInt64.lt_of_le_of_lt (h.logged e hcur f hf) hlt)

/-- Synchronising with an epoch that is not earlier keeps the windows in step. -/
theorem Tracks.syncEpoch {c : GapClient} {log : List NewFrame} (h : Tracks c log) {epoch : UInt64}
    (hforward : ∀ e, c.currentEpoch = some e → e ≤ epoch) (now : Instant) :
    Tracks (c.syncEpoch epoch now) log := by
  have hpruned := h.prune fun w => decide (w.expires > now)
  by_cases hcur : c.currentEpoch = some epoch
  · rw [syncEpoch_stay hcur]
    exact hpruned
  · rw [syncEpoch_move hcur]
    refine hpruned.move (fun e he => ?_) now
    exact UInt64.lt_of_le_of_ne (hforward e he) fun heq => hcur (heq ▸ he)

/-- A new frame of the current epoch. -/
theorem Tracks.recordCurrent {c : GapClient} {log : List NewFrame} (h : Tracks c log) {e : UInt64}
    (hcur : c.currentEpoch = some e) (source seq : UInt32) :
    Tracks { c with inHw := c.inHw.insert source seq } (log ++ [⟨e, source, seq⟩]) where
  current e' he' source' := by
    obtain rfl : e = e' := Option.some.inj (hcur.symm.trans he')
    exact lookup_insert_eq_lastNew (h.current e hcur) source seq source'
  old w hw source' := by
    have hne : e ≠ w.epoch := (UInt64.ne_of_lt (h.earlier e hcur w hw)).symm
    rw [lastNew_append_of_ne log hne]
    exact h.old w hw source'
  ordered := h.ordered
  earlier := h.earlier
  logged e' he' f hf := by
    rcases List.mem_append.mp hf with hf | hf
    · exact h.logged e' he' f hf
    · rw [List.mem_singleton.mp hf]
      exact UInt64.le_of_eq (Option.some.inj (hcur.symm.trans he'))
  fresh hnone := by
    rw [hcur] at hnone
    cases hnone

/-- A new frame of a saved epoch. -/
theorem Tracks.recordOld {c : GapClient} {log : List NewFrame} (h : Tracks c log)
    {before after : List OldEpochWindow} {w : OldEpochWindow}
    (hsplit : c.oldWindows = before ++ w :: after) (source seq : UInt32) :
    Tracks { c with oldWindows := before ++ { w with inHw := w.inHw.insert source seq } :: after }
      (log ++ [⟨w.epoch, source, seq⟩]) := by
  have hw : w ∈ c.oldWindows := by rw [hsplit]; simp
  have hordered := h.ordered
  rw [hsplit, List.pairwise_append, List.pairwise_cons] at hordered
  obtain ⟨hbefore, ⟨hafter, hafter'⟩, hcross⟩ := hordered
  -- the other saved windows are of other epochs
  have hothers : ∀ v, v ∈ before ∨ v ∈ after → w.epoch ≠ v.epoch := by
    rintro v (hv | hv)
    · exact (UInt64.ne_of_lt (hcross v hv w (List.mem_cons_self ..))).symm
    · exact UInt64.ne_of_lt (hafter v hv)
  have hkept : ∀ v, v ∈ before ∨ v ∈ after → v ∈ c.oldWindows := by
    intro v hv
    rw [hsplit, List.mem_append, List.mem_cons]
    exact hv.imp_right Or.inr
  have hmem : ∀ v ∈ before ++ { w with inHw := w.inHw.insert source seq } :: after,
      v = { w with inHw := w.inHw.insert source seq } ∨ v ∈ before ∨ v ∈ after := by
    intro v hv
    rw [List.mem_append, List.mem_cons] at hv
    exact or_left_comm.mp hv
  refine ⟨?_, ?_, ?_, ?_, ?_, ?_⟩
  · intro e he source'
    have hne : w.epoch ≠ e := UInt64.ne_of_lt (h.earlier e he w hw)
    rw [lastNew_append_of_ne log hne]
    exact h.current e he source'
  · intro v hv source'
    rcases hmem v hv with rfl | hv
    · exact lookup_insert_eq_lastNew (h.old w hw) source seq source'
    · rw [lastNew_append_of_ne log (hothers v hv)]
      exact h.old v (hkept v hv) source'
  · refine List.pairwise_append.mpr ⟨hbefore, List.pairwise_cons.mpr ⟨hafter, hafter'⟩, ?_⟩
    intro u hu v hv
    rcases List.mem_cons.mp hv with rfl | hv
    · exact hcross u hu w (List.mem_cons_self ..)
    · exact hcross u hu v (List.mem_cons_of_mem w hv)
  · intro e he v hv
    rcases hmem v hv with rfl | hv
    · exact h.earlier e he w hw
    · exact h.earlier e he v (hkept v hv)
  · intro e he f hf
    rcases List.mem_append.mp hf with hf | hf
    · exact h.logged e he f hf
    · rw [List.mem_singleton.mp hf]
      exact UInt64.le_of_lt (h.earlier e he w hw)
  · intro hnone
    rw [(h.fresh hnone).1] at hw
    cases hw

section Runs

variable [Ciborium] [CborReader GapPayload] [Prost GbpProto.GapPayload]
  [PlanusBuilder GbpFlat.GapPayload] [ReadAsRoot GbpFlat.GapPayloadRef] {S : Type} [Sealer S]

/-- The client after a call. -/
def step (c : GapClient) : GapCall S → GapClient
  | .send n s target mediaSourceId rtpTimestamp opus codec now =>
    (c.send n s target mediaSourceId rtpTimestamp opus codec now).2.1
  | .accept plaintext currentEpoch codec syncedAt now =>
    (c.accept plaintext currentEpoch codec syncedAt now).2
  | .syncEpoch epoch now => c.syncEpoch epoch now

/-- The frame a call takes as new, if it does. -/
def newFrames (c : GapClient) : GapCall S → List NewFrame
  | .accept plaintext currentEpoch codec syncedAt now =>
    match (c.accept plaintext currentEpoch codec syncedAt now).1 with
    | .ok (.new p) => [⟨p.epochIn currentEpoch, p.mediaSourceId, p.rtpSequence⟩]
    | _ => []
  | _ => []

omit [CborReader GapPayload] [ReadAsRoot GbpFlat.GapPayloadRef] in
/-- Sending moves the client to the node's epoch and counts the frame. -/
theorem send_client (c : GapClient) (n : GroupNode) (s : S) (target : MemberId)
    (mediaSourceId : UInt32) (rtpTimestamp : UInt64) (opus : Bytes) (codec : PayloadCodec)
    (now : Instant) :
    ∃ q, (c.send n s target mediaSourceId rtpTimestamp opus codec now).2.1 =
      { c.syncEpoch n.currentEpoch now with outRtpSeq := q } := ⟨_, rfl⟩

/-- One call keeps the windows in step with the frames taken as new. -/
theorem Tracks.step {c : GapClient} {log : List NewFrame} (h : Tracks c log) {x : GapCall S}
    (hforward : ∀ e, c.currentEpoch = some e → e ≤ x.epoch) :
    Tracks (c.step x) (log ++ c.newFrames x) := by
  cases x with
  | send n s target mediaSourceId rtpTimestamp opus codec now =>
      obtain ⟨q, hq⟩ := c.send_client n s target mediaSourceId rtpTimestamp opus codec now
      simp only [newFrames, List.append_nil, GapClient.step, hq]
      exact (h.syncEpoch hforward now).outRtpSeq q
  | syncEpoch epoch now =>
      simp only [newFrames, List.append_nil, GapClient.step]
      exact h.syncEpoch hforward now
  | accept plaintext currentEpoch codec syncedAt now =>
      have hsynced : Tracks (c.syncEpoch currentEpoch syncedAt) log :=
        h.syncEpoch hforward syncedAt
      have hcur := c.syncEpoch_currentEpoch currentEpoch syncedAt
      simp only [newFrames, GapClient.step]
      rcases c.accept_cases plaintext currentEpoch codec syncedAt now with ⟨e, -, heq⟩ |
        ⟨p, -, ⟨hphase, heq⟩ | ⟨hphase, before, w, after, hsplit, htakes, heq⟩ | ⟨-, heq⟩⟩
      · simpa only [heq, List.append_nil] using hsynced
      · rcases acceptInto_cases (c.syncEpoch currentEpoch syncedAt).inHw p with
          ⟨-, hlate⟩ | ⟨-, hnew⟩
        · simp only [heq, hlate, List.append_nil]
          exact hsynced
        · simp only [heq, hnew, GapPayload.epochIn, if_pos hphase]
          exact hsynced.recordCurrent hcur p.mediaSourceId p.rtpSequence
      · rcases acceptInto_cases w.inHw p with ⟨-, hlate⟩ | ⟨-, hnew⟩
        · simp only [heq, hlate, List.append_nil]
          rw [← hsplit]
          exact hsynced
        · simp only [heq, hnew, GapPayload.epochIn, if_neg hphase]
          rw [← htakes.1]
          exact hsynced.recordOld hsplit p.mediaSourceId p.rtpSequence
      · simpa only [heq, List.append_nil] using hsynced

/-! A frame whose window is kept. -/

omit [Ciborium] [PlanusBuilder GbpFlat.GapPayload] in
/-- A frame whose window is kept is tested against the last number of its source and epoch taken as
new. -/
theorem accept_live {c : GapClient} {log : List NewFrame} {plaintext : Bytes}
    {currentEpoch : UInt64} {codec : PayloadCodec} {syncedAt now : Instant} {p : GapPayload}
    (h : Tracks (c.syncEpoch currentEpoch syncedAt) log)
    (hdecode : GapPayload.fromBytes plaintext codec = .ok p)
    (hlive : (c.syncEpoch currentEpoch syncedAt).Live p currentEpoch now) :
    let last := lastNew log (p.epochIn currentEpoch) p.mediaSourceId
    let r := c.accept plaintext currentEpoch codec syncedAt now
    (WordLate (last.getD 0) p.rtpSequence ∧
        r = (.ok (.late p), c.syncEpoch currentEpoch syncedAt)) ∨
      (¬ WordLate (last.getD 0) p.rtpSequence ∧ r.1 = .ok (.new p)) := by
  intro last r
  rcases accept_decoded hdecode c currentEpoch syncedAt now with ⟨hphase, heq⟩ |
    ⟨hphase, before, w, after, hsplit, htakes, heq⟩ | ⟨hdead, -⟩
  · have hlast : (c.syncEpoch currentEpoch syncedAt).inHw.read p.mediaSourceId = last.getD 0 := by
      rw [Counters.read, h.current _ (c.syncEpoch_currentEpoch currentEpoch syncedAt)]
      simp only [last, GapPayload.epochIn, if_pos hphase]
    rcases acceptInto_cases (c.syncEpoch currentEpoch syncedAt).inHw p with
      ⟨htest, hlate⟩ | ⟨htest, hnew⟩
    · rw [hlast] at htest
      exact Or.inl ⟨htest, by simp only [r, heq, hlate]⟩
    · rw [hlast] at htest
      exact Or.inr ⟨htest, by simp only [r, heq, hnew]⟩
  · have hw : w ∈ (c.syncEpoch currentEpoch syncedAt).oldWindows := by rw [hsplit]; simp
    have hlast : w.inHw.read p.mediaSourceId = last.getD 0 := by
      rw [Counters.read, h.old w hw, htakes.1]
      simp only [last, GapPayload.epochIn, if_neg hphase]
    rcases acceptInto_cases w.inHw p with ⟨htest, hlate⟩ | ⟨htest, hnew⟩
    · rw [hlast] at htest
      refine Or.inl ⟨htest, ?_⟩
      simp only [r, heq, hlate]
      rw [← hsplit]
    · rw [hlast] at htest
      exact Or.inr ⟨htest, by simp only [r, heq, hnew]⟩
  · exact absurd hlive hdead

omit [Ciborium] [PlanusBuilder GbpFlat.GapPayload] [Sealer S] in
/-- A sixteen-bit frame whose window is kept is classified by serial-number arithmetic exactly when
its number is one on which the word test agrees. -/
theorem accept_serially_iff {c : GapClient} {log : List NewFrame} {plaintext : Bytes}
    {currentEpoch : UInt64} {codec : PayloadCodec} {syncedAt now : Instant} {p : GapPayload}
    (h : Tracks (c.syncEpoch currentEpoch syncedAt) log)
    (hdecode : GapPayload.fromBytes plaintext codec = .ok p) (hseq : p.rtpSequence ≤ 0xFFFF)
    (hlive : (c.syncEpoch currentEpoch syncedAt).Live p currentEpoch now)
    (hdecided : Decided (lastNew log (p.epochIn currentEpoch) p.mediaSourceId) p.rtpSequence) :
    let last := lastNew log (p.epochIn currentEpoch) p.mediaSourceId
    let r := c.accept plaintext currentEpoch codec syncedAt now
    ((Ahead last p.rtpSequence → r.1 = .ok (.new p) ∧
        lastNew (log ++ c.newFrames (.accept plaintext currentEpoch codec syncedAt now : GapCall S))
          (p.epochIn currentEpoch) p.mediaSourceId = some p.rtpSequence) ∧
      (¬ Ahead last p.rtpSequence → r = (.ok (.late p), c.syncEpoch currentEpoch syncedAt))) ↔
      Agrees last p.rtpSequence := by
  intro last r
  rw [← ahead_iff_not_wordLate hseq hdecided]
  rcases accept_live h hdecode hlive with ⟨htest, heq⟩ | ⟨htest, heq⟩
  · have hnot : r.1 ≠ .ok (.new p) := by
      simp only [r, heq]
      simp
    constructor
    · rintro ⟨hnew, -⟩
      exact iff_of_false (fun hahead => hnot (hnew hahead).1) (not_not.mpr htest)
    · intro hiff
      exact ⟨fun hahead => absurd htest (hiff.mp hahead), fun _ => heq⟩
  · have hnot : r ≠ (.ok (.late p), c.syncEpoch currentEpoch syncedAt) := by
      intro hlate
      simp only [r] at hlate
      rw [hlate] at heq
      simp at heq
    have hlogged : lastNew
        (log ++ c.newFrames (.accept plaintext currentEpoch codec syncedAt now : GapCall S))
        (p.epochIn currentEpoch) p.mediaSourceId = some p.rtpSequence := by
      simp only [newFrames]
      rw [heq]
      exact (lastNew_append ..).trans (if_pos ⟨rfl, rfl⟩)
    constructor
    · rintro ⟨-, hlate⟩
      refine iff_of_true ?_ htest
      by_contra hbehind
      exact hnot (hlate hbehind)
    · intro hiff
      exact ⟨fun _ => ⟨heq, hlogged⟩, fun hbehind => absurd (hiff.mpr htest) hbehind⟩

end Runs

/-- A payload of source 7 in epoch zero. -/
def numbered (seq : UInt32) : GapPayload := ⟨7, seq, 960, 0, [1]⟩

/-- A receiver in epoch zero takes a payload. -/
def takes (seq : UInt32) (now : Instant) : GapCall PlainSealer :=
  .accept (numbered seq).toCbor 0 .cbor now now

theorem fromBytes_numbered (seq : UInt32) :
    GapPayload.fromBytes (numbered seq).toCbor .cbor = .ok (numbered seq) :=
  GapPayload.fromBytes_toBytes GapPayload.cborLossless GapPayload.protoLossless
    GapPayload.flatLossless (p := numbered seq) (show (1 : ℕ) < 2 ^ 64 by decide) .cbor

end GapClient

end GroupProtocol
