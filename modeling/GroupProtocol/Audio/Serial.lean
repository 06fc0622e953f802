import GroupProtocol.Audio.Coverage

/-!
# Serial-number classification of audio frames

Frames of the current epoch and of every epoch left less than the overlap time ago are to be judged
by serial-number arithmetic, against the last number of their source and epoch that was taken as
new. The client does so as long as its word test agrees with that arithmetic and, for a frame of an
epoch that was left, as long as it kept a window of that epoch: a frame of it was taken, and the key
phase has room for it.
-/

namespace GroupProtocol

/-- The reading of the clock at which a call synchronises the client. -/
def GapCall.syncedAt {S : Type} : GapCall S → Instant
  | .send _ _ _ _ _ _ _ now => now
  | .accept _ _ _ syncedAt _ => syncedAt
  | .syncEpoch _ now => now

/-- The last reading of the clock a call makes. -/
def GapCall.returnedAt {S : Type} : GapCall S → Instant
  | .send _ _ _ _ _ _ _ now => now
  | .accept _ _ _ _ now => now
  | .syncEpoch _ now => now

/-- The epoch that is left when the client synchronises, with the time of leaving. -/
def GapClient.leaves (c : GapClient) (epoch : UInt64) (now : Instant) : List (UInt64 × Instant) :=
  match c.currentEpoch with
  | some e => if e = epoch then [] else [(e, now)]
  | none => []

/-- A client and what is noted of it: the frames it took as new, the epochs it left with the times of
leaving, and the last reading of the clock. -/
structure Watched where
  client : GapClient
  taken : List NewFrame
  left : List (UInt64 × Instant)
  clock : Instant

namespace Watched

open GapClient

/-- A new client. -/
def new : Watched := ⟨GapClient.new, [], [], 0⟩

/-- The client is synchronised with an epoch. -/
def synced (st : Watched) (epoch : UInt64) (now : Instant) : Watched where
  client := st.client.syncEpoch epoch now
  taken := st.taken
  left := st.left ++ st.client.leaves epoch now
  clock := now

/-- A frame of the epoch was taken as new. -/
def Heard (st : Watched) (epoch : UInt64) : Prop := ∃ f ∈ st.taken, f.epoch = epoch

/-- A payload is of this epoch, which is the current one or was left less than the overlap time
ago. A payload with the key phase of the current epoch is of the current epoch. -/
def Awaits (st : Watched) (p : GapPayload) (currentEpoch : UInt64) (now : Instant)
    (epoch : UInt64) : Prop :=
  p.keyPhase = epoch.toUInt32 ∧
    (epoch = currentEpoch ∨
      p.keyPhase ≠ currentEpoch.toUInt32 ∧ ∃ t, (epoch, t) ∈ st.left ∧ now < overlapEnd t)

/-- The epoch is the current one, or its key phase names it and a window of it was kept. -/
def Windowed (st : Watched) (currentEpoch epoch : UInt64) : Prop :=
  epoch = currentEpoch ∨ epoch.toNat < 2 ^ 32 ∧ st.Heard epoch

/-- What holds between calls: the marks are those of the frames taken, every kept window is of an
epoch that was heard, the epochs left are earlier ones, and of each that was heard a window is kept
until its overlap is over. -/
structure Sound (st : Watched) : Prop where
  tracks : Tracks st.client st.taken
  filled : ∀ w ∈ st.client.oldWindows, st.Heard w.epoch
  earlier : ∀ d ∈ st.left, ∃ e, st.client.currentEpoch = some e ∧ d.1 < e
  kept : ∀ d ∈ st.left, st.Heard d.1 → st.clock < overlapEnd d.2 →
    st.client.Keeps d.1 (overlapEnd d.2)

theorem sound_new : Sound new where
  tracks := tracks_new
  filled _ h := absurd h List.not_mem_nil
  earlier _ h := absurd h List.not_mem_nil
  kept _ h := absurd h List.not_mem_nil

/-- A source has a last number in an epoch exactly when a frame of both was taken. -/
theorem lastNew_ne_none_iff {log : List NewFrame} {epoch : UInt64} {source : UInt32} :
    lastNew log epoch source ≠ none ↔ ∃ f ∈ log, f.epoch = epoch ∧ f.source = source := by
  rw [lastNew, ne_eq, Option.map_eq_none_iff, List.find?_eq_none]
  simp

/-- Marks that are the last numbers of an epoch are there exactly when the epoch was heard. -/
theorem entries_ne_nil_iff {st : Watched} {inHw : Counters UInt32 UInt32} {epoch : UInt64}
    (h : ∀ source, inHw.lookup source = lastNew st.taken epoch source) :
    inHw.entries ≠ [] ↔ st.Heard epoch := by
  constructor
  · intro hne
    obtain ⟨⟨source, seq⟩, hmem⟩ := List.exists_mem_of_ne_nil _ hne
    have hmark : lastNew st.taken epoch source ≠ none := by
      rw [← h source, AList.mem_lookup_iff.mpr hmem]
      exact Option.some_ne_none seq
    obtain ⟨f, hf, hepoch, -⟩ := lastNew_ne_none_iff.mp hmark
    exact ⟨f, hf, hepoch⟩
  · rintro ⟨f, hf, hepoch⟩ hnil
    have hmark := lastNew_ne_none_iff.mpr ⟨f, hf, hepoch, rfl⟩
    rw [← h f.source] at hmark
    refine hmark ?_
    rw [AList.lookup_eq_none, AList.mem_keys, AList.keys, hnil]
    exact List.not_mem_nil

/-- Leaving an epoch saves a window of it exactly when a frame of it was taken. -/
theorem Sound.saves_iff {st : Watched} (h : Sound st) {e : UInt64}
    (hcur : st.client.currentEpoch = some e) (t : Instant) :
    st.client.Saves e t ↔ st.Heard e := by
  rw [← entries_ne_nil_iff (h.tracks.current e hcur), Saves, or_iff_left]
  rintro ⟨w, hw, hepoch, -⟩
  exact UInt64.lt_irrefl e (hepoch ▸ h.tracks.earlier e hcur w hw)

theorem mem_leaves {c : GapClient} {epoch : UInt64} {now : Instant} {d : UInt64 × Instant}
    (h : d ∈ c.leaves epoch now) :
    c.currentEpoch = some d.1 ∧ d.1 ≠ epoch ∧ d.2 = now := by
  rw [leaves] at h
  cases hcur : c.currentEpoch with
  | none =>
      rw [hcur] at h
      exact absurd h List.not_mem_nil
  | some e =>
      rw [hcur] at h
      dsimp only at h
      split at h
      · exact absurd h List.not_mem_nil
      · rename_i hne
        obtain rfl := List.mem_singleton.mp h
        exact ⟨rfl, hne, rfl⟩

/-- Synchronising with an epoch and at a time that are not earlier. -/
theorem Sound.synced {st : Watched} (h : Sound st) {epoch : UInt64} {now : Instant}
    (hforward : ∀ e, st.client.currentEpoch = some e → e ≤ epoch) (hnow : st.clock ≤ now) :
    Sound (st.synced epoch now) where
  tracks := h.tracks.syncEpoch hforward now
  filled w hw := by
    have hold : ∀ v ∈ st.client.oldWindows.filter fun w => decide (w.expires > now),
        st.Heard v.epoch := fun v hv => h.filled v (List.mem_of_mem_filter hv)
    by_cases hcur : st.client.currentEpoch = some epoch
    · rw [Watched.synced, syncEpoch_stay hcur] at hw
      exact hold w hw
    · rw [Watched.synced, syncEpoch_move hcur] at hw
      rcases List.mem_append.mp hw with hw | hw
      · exact hold w hw
      · cases he : st.client.currentEpoch with
        | none =>
            rw [leaving, he] at hw
            exact absurd hw List.not_mem_nil
        | some e =>
            obtain ⟨hepoch, -⟩ := mem_leaving he hw
            rw [hepoch]
            refine (entries_ne_nil_iff (h.tracks.current e he)).mp fun hnil => ?_
            rw [leaving, he, hnil] at hw
            exact absurd hw List.not_mem_nil
  earlier d hd := by
    refine ⟨epoch, st.client.syncEpoch_currentEpoch epoch now, ?_⟩
    rcases List.mem_append.mp hd with hd | hd
    · obtain ⟨e, he, hlt⟩ := h.earlier d hd
      exact UInt64.lt_of_lt_of_le hlt (hforward e he)
    · obtain ⟨hcur, hne, -⟩ := mem_leaves hd
      exact UInt64.lt_of_le_of_ne (hforward _ hcur) hne
  kept d hd hheard hclock := by
    rcases List.mem_append.mp hd with hd | hd
    · exact (h.kept d hd hheard (Nat.lt_of_le_of_lt hnow hclock)).syncEpoch epoch hclock
    · obtain ⟨hcur, hne, hat⟩ := mem_leaves hd
      rw [hat]
      exact ((h.saves_iff hcur now).mpr hheard).keeps hcur hne

/-- A payload whose epoch kept a window finds it. -/
theorem Awaits.live {st : Watched} (h : Sound st) {p : GapPayload} {currentEpoch : UInt64}
    {now : Instant} {epoch : UInt64} (hawaits : st.Awaits p currentEpoch now epoch)
    (hnow : st.clock ≤ now) (hwindow : st.Windowed currentEpoch epoch) :
    st.client.Live p currentEpoch now ∧ p.epochIn currentEpoch = epoch := by
  obtain ⟨hphase, hepoch⟩ := hawaits
  by_cases hcur : epoch = currentEpoch
  · rw [hcur] at hphase ⊢
    exact ⟨Or.inl hphase, if_pos hphase⟩
  · obtain ⟨hother, t, hleft, hbefore⟩ := hepoch.resolve_left hcur
    obtain ⟨hsmall, hheard⟩ := hwindow.resolve_left hcur
    have hnamed : p.keyPhase.toUInt64 = epoch := by
      rw [hphase]
      exact toUInt64_toUInt32 hsmall
    obtain ⟨w, hw, hof, hlasts⟩ := h.kept (epoch, t) hleft hheard (Nat.lt_of_le_of_lt hnow hbefore)
    refine ⟨Or.inr ⟨w, hw, hof.trans hnamed.symm, Nat.lt_of_lt_of_le hbefore hlasts⟩, ?_⟩
    rw [GapPayload.epochIn, if_neg hother, hnamed]

/-- A payload that finds a window is of an epoch that was heard, or of the current one. -/
theorem Awaits.windowed {st : Watched} (h : Sound st) {p : GapPayload} {currentEpoch : UInt64}
    {now : Instant} {epoch : UInt64} (hawaits : st.Awaits p currentEpoch now epoch)
    (hsmall : epoch.toNat < 2 ^ 32) (hlive : st.client.Live p currentEpoch now) :
    st.Windowed currentEpoch epoch := by
  obtain ⟨hphase, hepoch⟩ := hawaits
  rcases hepoch with hcur | ⟨hother, -⟩
  · exact Or.inl hcur
  · obtain ⟨w, hw, hof, -⟩ := hlive.resolve_left hother
    refine Or.inr ⟨hsmall, ?_⟩
    rw [← toUInt64_toUInt32 hsmall, ← hphase, ← hof]
    exact h.filled w hw

/-- The epochs and the ends of the windows a client keeps. -/
def spans (c : GapClient) : List (UInt64 × Instant) :=
  c.oldWindows.map fun w => (w.epoch, w.expires)

theorem keeps_of_spans {c d : GapClient} (hspans : spans d = spans c) {epoch : UInt64}
    {limit : Instant} (h : c.Keeps epoch limit) : d.Keeps epoch limit := by
  obtain ⟨w, hw, hepoch, hlasts⟩ := h
  have hspan : (w.epoch, w.expires) ∈ spans d := by
    rw [hspans]
    exact List.mem_map_of_mem hw
  obtain ⟨v, hv, heq⟩ := List.mem_map.mp hspan
  obtain ⟨hve, hvx⟩ := Prod.mk.inj heq
  exact ⟨v, hv, hve.trans hepoch, hvx ▸ hlasts⟩

/-- A call that keeps the epoch and the spans of the windows, and takes frames of the current epoch
or of one that was heard. -/
theorem Sound.update {st : Watched} (h : Sound st) {c : GapClient} {fs : List NewFrame}
    (htracks : Tracks c (st.taken ++ fs)) (hcur : c.currentEpoch = st.client.currentEpoch)
    (hspans : spans c = spans st.client)
    (hof : ∀ f ∈ fs, st.client.currentEpoch = some f.epoch ∨ st.Heard f.epoch) {now : Instant}
    (hnow : st.clock ≤ now) : Sound ⟨c, st.taken ++ fs, st.left, now⟩ where
  tracks := htracks
  filled w hw := by
    have hspan : (w.epoch, w.expires) ∈ spans st.client := by
      rw [← hspans]
      exact List.mem_map_of_mem hw
    obtain ⟨v, hv, heq⟩ := List.mem_map.mp hspan
    obtain ⟨f, hf, hepoch⟩ := h.filled v hv
    exact ⟨f, List.mem_append_left fs hf, hepoch.trans (Prod.mk.inj heq).1⟩
  earlier d hd := by
    obtain ⟨e, he, hlt⟩ := h.earlier d hd
    exact ⟨e, hcur.trans he, hlt⟩
  kept d hd hheard hclock := by
    obtain ⟨f, hf, hepoch⟩ := hheard
    have hbefore : st.Heard d.1 := by
      rcases List.mem_append.mp hf with hf | hf
      · exact ⟨f, hf, hepoch⟩
      · rcases hof f hf with hnow | hheard
        · obtain ⟨e, he, hlt⟩ := h.earlier d hd
          rw [Option.some.inj (he.symm.trans hnow), hepoch] at hlt
          exact absurd hlt (UInt64.lt_irrefl d.1)
        · exact hepoch ▸ hheard
    exact keeps_of_spans hspans (h.kept d hd hbefore (Nat.lt_of_le_of_lt hnow hclock))

section Runs

variable [Ciborium] [CborReader GapPayload] [Prost GbpProto.GapPayload]
  [PlanusBuilder GbpFlat.GapPayload] [ReadAsRoot GbpFlat.GapPayloadRef] {S : Type} [Sealer S]

/-- What is noted of the client after a call. -/
def step (st : Watched) (x : GapCall S) : Watched where
  client := st.client.step x
  taken := st.taken ++ st.client.newFrames x
  left := st.left ++ st.client.leaves x.epoch x.syncedAt
  clock := x.returnedAt

/-- Neither the epoch nor the clock goes back. -/
def Forward (st : Watched) (x : GapCall S) : Prop :=
  (∀ e, st.client.currentEpoch = some e → e ≤ x.epoch) ∧
    st.clock ≤ x.syncedAt ∧ x.syncedAt ≤ x.returnedAt

/-- A frame with a sixteen-bit number, of the current epoch or of one left less than the overlap time
ago, is classified by serial-number arithmetic: it is new and becomes the last one when it is ahead
of the last one, and it is late and changes nothing otherwise. -/
def Serially (st : Watched) : GapCall S → Prop
  | .accept plaintext currentEpoch codec syncedAt now =>
    ∀ p epoch, GapPayload.fromBytes plaintext codec = .ok p → p.rtpSequence ≤ 0xFFFF →
      (st.synced currentEpoch syncedAt).Awaits p currentEpoch now epoch →
      let last := lastNew st.taken epoch p.mediaSourceId
      let r := st.client.accept plaintext currentEpoch codec syncedAt now
      Decided last p.rtpSequence →
        (Ahead last p.rtpSequence → r.1 = .ok (.new p) ∧
          lastNew (st.step (.accept plaintext currentEpoch codec syncedAt now : GapCall S)).taken
            epoch p.mediaSourceId = some p.rtpSequence) ∧
        (¬ Ahead last p.rtpSequence →
          r = (.ok (.late p), st.client.syncEpoch currentEpoch syncedAt))
  | _ => True

/-- Every such frame is of the current epoch or of one that kept a window, and has a number on which
the word test agrees. -/
def InRange (st : Watched) : GapCall S → Prop
  | .accept plaintext currentEpoch codec syncedAt now =>
    ∀ p epoch, GapPayload.fromBytes plaintext codec = .ok p → p.rtpSequence ≤ 0xFFFF →
      (st.synced currentEpoch syncedAt).Awaits p currentEpoch now epoch →
      let last := lastNew st.taken epoch p.mediaSourceId
      Decided last p.rtpSequence → st.Windowed currentEpoch epoch ∧ Agrees last p.rtpSequence
  | _ => True

/-- The condition on a step: epoch and clock go forward, and what arrives is in range. -/
def Meets (st : Watched) (x : GapCall S) : Prop := st.Forward x ∧ st.InRange x

/-- A frame that is handed over leaves the epoch and the spans of the windows as synchronising made
them. It is taken as one of the current epoch or of an epoch with a window. -/
theorem accept_keeps (c : GapClient) (plaintext : Bytes) (currentEpoch : UInt64)
    (codec : PayloadCodec) (syncedAt now : Instant) :
    let synced := c.syncEpoch currentEpoch syncedAt
    let x : GapCall S := .accept plaintext currentEpoch codec syncedAt now
    (c.step x).currentEpoch = synced.currentEpoch ∧ spans (c.step x) = spans synced ∧
      ∀ f ∈ c.newFrames x, f.epoch = currentEpoch ∨ ∃ w ∈ synced.oldWindows, w.epoch = f.epoch := by
  intro synced x
  simp only [x, GapClient.step, newFrames]
  rcases c.accept_cases plaintext currentEpoch codec syncedAt now with ⟨e, -, heq⟩ |
    ⟨p, -, ⟨hphase, heq⟩ | ⟨hphase, before, w, after, hsplit, htakes, heq⟩ | ⟨-, heq⟩⟩
  · rw [heq]
    exact ⟨rfl, rfl, fun f hf => absurd hf List.not_mem_nil⟩
  · rw [heq]
    refine ⟨rfl, rfl, fun f hf => ?_⟩
    rcases acceptInto_cases synced.inHw p with ⟨-, hlate⟩ | ⟨-, hnew⟩
    · rw [hlate] at hf
      exact absurd hf List.not_mem_nil
    · rw [hnew] at hf
      obtain rfl := List.mem_singleton.mp hf
      exact Or.inl (if_pos hphase)
  · rw [heq]
    refine ⟨rfl, ?_, fun f hf => ?_⟩
    · simp only [spans, synced, hsplit, List.map_append, List.map_cons]
    · rcases acceptInto_cases w.inHw p with ⟨-, hlate⟩ | ⟨-, hnew⟩
      · rw [hlate] at hf
        exact absurd hf List.not_mem_nil
      · rw [hnew] at hf
        obtain rfl := List.mem_singleton.mp hf
        have hw : w ∈ synced.oldWindows := by
          rw [hsplit]
          exact List.mem_append_right _ (List.mem_cons_self ..)
        exact Or.inr ⟨w, hw, htakes.1.trans (if_neg hphase).symm⟩
  · rw [heq]
    exact ⟨rfl, rfl, fun f hf => absurd hf List.not_mem_nil⟩

/-- Every call keeps what is noted sound. -/
theorem Sound.step {st : Watched} (h : Sound st) {x : GapCall S} (hx : st.Forward x) :
    Sound (st.step x) := by
  obtain ⟨hepoch, hsynced, hreturned⟩ := hx
  have htracks := h.tracks.step hepoch
  have hs := h.synced hepoch hsynced
  rw [Watched.step]
  cases x with
  | send n s target mediaSourceId rtpTimestamp opus codec now =>
      exact hs.update htracks rfl rfl (fun f hf => absurd hf List.not_mem_nil) hreturned
  | syncEpoch epoch now =>
      exact hs.update htracks rfl rfl (fun f hf => absurd hf List.not_mem_nil) hreturned
  | accept plaintext currentEpoch codec syncedAt now =>
      obtain ⟨hcur, hspans, htaken⟩ :=
        accept_keeps (S := S) st.client plaintext currentEpoch codec syncedAt now
      refine hs.update htracks hcur hspans (fun f hf => ?_) hreturned
      rcases htaken f hf with hnow | ⟨w, hw, hold⟩
      · rw [hnow]
        exact Or.inl (st.client.syncEpoch_currentEpoch currentEpoch syncedAt)
      · rw [← hold]
        exact Or.inr (hs.filled w hw)

/-- A call that meets the condition classifies serially. -/
theorem Meets.serially {st : Watched} (h : Sound st) {x : GapCall S} (hx : st.Meets x) :
    st.Serially x := by
  cases x with
  | send => exact trivial
  | syncEpoch => exact trivial
  | accept plaintext currentEpoch codec syncedAt now =>
      intro p epoch hdecode hseq hawaits last r hdecided
      have hs := h.synced hx.1.1 hx.1.2.1
      obtain ⟨hwindow, hagrees⟩ := hx.2 p epoch hdecode hseq hawaits hdecided
      obtain ⟨hlive, rfl⟩ := hawaits.live hs hx.1.2.2 hwindow
      exact (accept_serially_iff hs.tracks hdecode hseq hlive hdecided).mpr hagrees

/-- The epochs of a run whose calls hand over small ones are small. -/
def Narrow (st : Watched) : Prop := ∀ d ∈ st.left, d.1.toNat < 2 ^ 32

omit [CborReader GapPayload] [Prost GbpProto.GapPayload] [PlanusBuilder GbpFlat.GapPayload]
  [ReadAsRoot GbpFlat.GapPayloadRef] [Ciborium] [Sealer S] in
theorem Narrow.synced {st : Watched} (h : st.Narrow) {epoch : UInt64}
    (hforward : ∀ e, st.client.currentEpoch = some e → e ≤ epoch) (hepoch : epoch.toNat < 2 ^ 32)
    (now : Instant) : (st.synced epoch now).Narrow := by
  intro d hd
  rcases List.mem_append.mp hd with hd | hd
  · exact h d hd
  · have hle := hforward _ (mem_leaves hd).1
    exact Nat.lt_of_le_of_lt (UInt64.le_iff_toNat_le.mp hle) hepoch

/-- A payload that finds no window is neither new nor late. -/
theorem windowed_of_serially {st : Watched} (h : Sound st) (hsmall : st.Narrow)
    {plaintext : Bytes} {currentEpoch : UInt64} {codec : PayloadCodec} {syncedAt now : Instant}
    (hx : st.Forward (.accept plaintext currentEpoch codec syncedAt now : GapCall S))
    (hepoch : currentEpoch.toNat < 2 ^ 32)
    (hserially : st.Serially (.accept plaintext currentEpoch codec syncedAt now : GapCall S))
    {p : GapPayload} {epoch : UInt64} (hdecode : GapPayload.fromBytes plaintext codec = .ok p)
    (hseq : p.rtpSequence ≤ 0xFFFF)
    (hawaits : (st.synced currentEpoch syncedAt).Awaits p currentEpoch now epoch) :
    (st.synced currentEpoch syncedAt).Windowed currentEpoch epoch := by
  have hs := h.synced hx.1 hx.2.1
  have hnarrow : epoch.toNat < 2 ^ 32 := by
    rcases hawaits.2 with hcur | ⟨-, t, hleft, -⟩
    · rw [hcur]
      exact hepoch
    · exact hsmall.synced hx.1 hepoch syncedAt (epoch, t) hleft
  by_contra hnone
  have hunheard : ∀ f ∈ st.taken, f.epoch ≠ epoch :=
    fun f hf heq => hnone (Or.inr ⟨hnarrow, f, hf, heq⟩)
  have hlast : lastNew st.taken epoch p.mediaSourceId = none := lastNew_eq_none hunheard _
  have hnew := (hserially p epoch hdecode hseq hawaits (by rw [hlast]; exact nofun)).1
    (by rw [hlast]; exact nofun)
  rcases classified_or_stale hdecode st.client currentEpoch syncedAt now with
    ⟨hlive, -⟩ | ⟨-, hstale⟩
  · exact hnone (hawaits.windowed hs hnarrow hlive)
  · rw [hnew.1] at hstale
    cases hstale

/-- A call that classifies serially meets the condition, where the key phase has room for every
epoch. -/
theorem Serially.inRange {st : Watched} (h : Sound st) (hsmall : st.Narrow) {x : GapCall S}
    (hx : st.Forward x) (hepoch : x.epoch.toNat < 2 ^ 32) (hserially : st.Serially x) :
    st.InRange x := by
  cases x with
  | send => exact trivial
  | syncEpoch => exact trivial
  | accept plaintext currentEpoch codec syncedAt now =>
      intro p epoch hdecode hseq hawaits last hdecided
      have hs := h.synced hx.1 hx.2.1
      have hwindow := windowed_of_serially h hsmall hx hepoch hserially hdecode hseq hawaits
      have hjudged := hserially p epoch hdecode hseq hawaits hdecided
      refine ⟨hwindow, ?_⟩
      obtain ⟨hlive, rfl⟩ := hawaits.live hs hx.2.2 hwindow
      exact (accept_serially_iff hs.tracks hdecode hseq hlive hdecided).mp hjudged

/-- Along every run of an audio client whose calls meet the condition, every sixteen-bit frame of the
current epoch and of the epochs still in the overlap is classified by serial-number arithmetic; and
a run in which epoch and clock go forward and the key phase has room for every epoch does so only if
its calls meet the condition. -/
theorem gap_serial_iff (xs : List (GapCall S)) :
    (Machine.Along step Meets new xs → Machine.Along step Serially new xs) ∧
      (Machine.Along step (fun st x => st.Forward x ∧ x.epoch.toNat < 2 ^ 32) new xs →
        Machine.Along step Serially new xs → Machine.Along step Meets new xs) := by
  constructor
  · intro hmeets
    exact hmeets.derive Sound sound_new (fun st x hx h => hx.serially h) fun st x hx h => h.step hx.1
  · intro hforward hserially
    have hstart : Sound new ∧ Narrow new := ⟨sound_new, fun d hd => absurd hd List.not_mem_nil⟩
    refine (hforward.and hserially).derive (fun st => Sound st ∧ Narrow st) hstart
      (fun st x hx h => ?_) fun st x hx h => ?_
    · obtain ⟨⟨hgoes, hepoch⟩, hserial⟩ := hx
      exact ⟨hgoes, hserial.inRange h.1 h.2 hgoes hepoch⟩
    · obtain ⟨⟨hgoes, hepoch⟩, -⟩ := hx
      exact ⟨h.1.step hgoes, h.2.synced hgoes.1 hepoch x.syncedAt⟩

end Runs

/-- The receiver of `takes` moves to epoch one as it takes the payload. -/
def takesMoved (seq : UInt32) (now : Instant) : GapCall PlainSealer :=
  .accept (numbered seq).toCbor 1 .cbor now now

/-- In epoch zero the payloads are of the current epoch. -/
theorem inRange_takes {st : Watched} {seq : UInt32} (h : Agrees (lastNew st.taken 0 7) seq)
    (now : Instant) : st.InRange (takes seq now) := by
  intro p epoch hp _ hawaits last _
  obtain rfl : numbered seq = p := Except.ok.inj ((fromBytes_numbered seq).symm.trans hp)
  obtain rfl : epoch = 0 := hawaits.2.resolve_right fun hold => hold.1 rfl
  exact ⟨Or.inl rfl, h⟩

/-- In epoch one they are of an epoch that was left. -/
theorem inRange_takesMoved {st : Watched} {seq : UInt32} {now : Instant}
    (hleft : (st.synced 1 now).left = [(0, now)]) (hheard : st.Heard 0)
    (h : Agrees (lastNew st.taken 0 7) seq) : st.InRange (takesMoved seq now) := by
  intro p epoch hp _ hawaits last _
  obtain rfl : numbered seq = p := Except.ok.inj ((fromBytes_numbered seq).symm.trans hp)
  rcases hawaits.2 with rfl | ⟨-, t, hmem, -⟩
  · have hphase : (0 : UInt32) = (1 : UInt64).toUInt32 := hawaits.1
    exact absurd hphase (by decide)
  · rw [hleft] at hmem
    obtain ⟨rfl, -⟩ := Prod.mk.inj (List.mem_singleton.mp hmem)
    exact ⟨Or.inr ⟨by decide, hheard⟩, h⟩

/-- Number three overtakes number two, which comes after the transition. -/
theorem gap_serial_iff_overtaken :
    Machine.Along step Serially new [takes 1 0, takes 3 1, takesMoved 2 2] := by
  have hforward : ∀ {st : Watched} {x : GapCall PlainSealer} {e : UInt64},
      st.client.currentEpoch = some e → e ≤ x.epoch → st.clock ≤ x.syncedAt →
      x.syncedAt ≤ x.returnedAt → st.Forward x := by
    intro st x e he hle hsynced hreturned
    exact ⟨fun e' he' => Option.some.inj (he.symm.trans he') ▸ hle, hsynced, hreturned⟩
  refine (gap_serial_iff _).1 ⟨⟨?_, ?_⟩, ⟨?_, ?_⟩, ⟨?_, ?_⟩, trivial⟩
  · exact ⟨nofun, Nat.le_refl 0, Nat.le_refl 0⟩
  · exact inRange_takes (by decide +kernel) 0
  · exact hforward (e := 0) (by decide +kernel) (by decide) (by decide) (by decide)
  · exact inRange_takes (by decide +kernel) 1
  · exact hforward (e := 0) (by decide +kernel) (by decide) (by decide) (by decide)
  · refine inRange_takesMoved (by decide +kernel) ?_ (by decide +kernel)
    exact ⟨⟨0, 7, 1⟩, by decide +kernel, rfl⟩

/-- Numbers 65534 and 1 lie three apart across a wrap. A replay of the first one is behind, but is
taken as new. -/
theorem replay_across_wrap_is_new :
    let st : Watched := Machine.run step new [takes 0xFFFE 0, takes 1 1]
    lastNew st.taken 0 7 = some 1 ∧ distance 1 0xFFFE = 0xFFFD ∧
      (st.client.accept (numbered 0xFFFE).toCbor 0 .cbor 2 2).1 = .ok (.new (numbered 0xFFFE)) ∧
      ¬ st.Serially (takes 0xFFFE 2) := by
  intro st
  have hresult : (st.client.accept (numbered 0xFFFE).toCbor 0 .cbor 2 2).1 =
      .ok (.new (numbered 0xFFFE)) := by decide +kernel
  have hlast : lastNew st.taken 0 7 = some 1 := by decide +kernel
  refine ⟨hlast, by decide, hresult, fun h => ?_⟩
  have hdecided : Decided (lastNew st.taken 0 7) 0xFFFE := by
    intro hw heq
    rw [← Option.some.inj (hlast.symm.trans heq)]
    decide
  have hbehind : ¬ Ahead (lastNew st.taken 0 7) 0xFFFE := by
    intro hahead
    exact absurd (hahead 1 hlast).2 (by decide)
  have hlate := (h (numbered 0xFFFE) 0 (fromBytes_numbered _) (by decide) ⟨rfl, Or.inl rfl⟩
    hdecided).2 hbehind
  rw [hlate] at hresult
  cases hresult

end Watched

end GroupProtocol
