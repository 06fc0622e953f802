import GroupProtocol.Audio.Window

/-!
# An audio stream in order

The frames of one source are numbered by the sender's counter, which wraps after sixteen bits. A
receiver gets them in order, with losses shorter than half the sequence space, between frames of
other sources and of older epochs. Its mark then follows the stream around every wrap, and no frame
is taken for a late one.
-/

namespace GroupProtocol

namespace GapClient

/-- The number of the `k`-th frame of a stream. -/
def streamNumber (k : ℕ) : UInt32 := UInt32.ofNat (k % 0x10000)

theorem toNat_streamNumber (k : ℕ) : (streamNumber k).toNat = k % 0x10000 := by
  rw [streamNumber, UInt32.toNat_ofNat']
  omega

theorem streamNumber_le (k : ℕ) : streamNumber k ≤ 0xFFFF := by
  rw [UInt32.le_iff_toNat_le, toNat_streamNumber]
  exact Nat.lt_succ_iff.mp (Nat.mod_lt k (by decide))

/-- The counter steps from one number to the next, around the wrap. -/
theorem streamNumber_succ (k : ℕ) : (streamNumber k + 1) &&& 0xFFFF = streamNumber (k + 1) := by
  apply UInt32.toNat_inj.mp
  rw [UInt32.toNat_and, UInt32.toNat_add, toNat_streamNumber, toNat_streamNumber]
  have hmask : UInt32.toNat 0xFFFF = 2 ^ 16 - 1 := rfl
  rw [hmask, Nat.and_two_pow_sub_one_eq_mod, UInt32.toNat_one]
  omega

/-- A later number of the stream, less than half the sequence space ahead, passes the test. -/
theorem not_wordLate_of_ahead {k i : ℕ} (hle : k ≤ i) (hlost : i - k < 0x7FFF) :
    ¬ WordLate (streamNumber k) (streamNumber (i + 1)) := by
  rw [wordLate_iff, toNat_streamNumber, toNat_streamNumber]
  omega

/-- A client that is in an epoch already keeps its counters and marks. -/
theorem syncEpoch_counters {c : GapClient} {epoch : UInt64} (h : c.currentEpoch = some epoch)
    (now : Instant) :
    (c.syncEpoch epoch now).outRtpSeq = c.outRtpSeq ∧ (c.syncEpoch epoch now).inHw = c.inHw := by
  rw [syncEpoch_stay h]
  exact ⟨rfl, rfl⟩

/-- A client that enters an epoch has none. -/
theorem syncEpoch_fresh {c : GapClient} {epoch : UInt64} (h : c.currentEpoch ≠ some epoch)
    (now : Instant) :
    (c.syncEpoch epoch now).outRtpSeq = ∅ ∧ (c.syncEpoch epoch now).inHw = ∅ := by
  rw [syncEpoch_move h]
  exact ⟨rfl, rfl⟩

/-- The counter of a source that a client which is in an epoch, or enters it, reads. -/
def counterIn (c : GapClient) (epoch : UInt64) (source : UInt32) : UInt32 :=
  if c.currentEpoch = some epoch then c.outRtpSeq.read source else 0

theorem read_syncEpoch (c : GapClient) (epoch : UInt64) (source : UInt32) (now : Instant) :
    (c.syncEpoch epoch now).outRtpSeq.read source = c.counterIn epoch source := by
  rw [counterIn]
  split
  · rename_i hcur
    rw [(syncEpoch_counters hcur now).1]
  · rename_i hcur
    rw [(syncEpoch_fresh hcur now).1, Counters.read_empty]

/-- In the epoch, the client's mark of the source is at the `k`-th frame. -/
def Marked (c : GapClient) (epoch : UInt64) (source : UInt32) (k : ℕ) : Prop :=
  ∀ now, (c.syncEpoch epoch now).inHw.read source = streamNumber k

section Streams

variable {S : Type}

/-- The payload that sending a frame builds. -/
def payloadOf (c : GapClient) (n : GroupNode) (mediaSourceId : UInt32) (rtpTimestamp : UInt64)
    (opus : Bytes) (now : Instant) : GapPayload :=
  ⟨mediaSourceId, ((c.syncEpoch n.currentEpoch now).outRtpSeq.read mediaSourceId + 1) &&& 0xFFFF,
    rtpTimestamp, n.currentEpoch.toUInt32, opus⟩

/-- The payloads a call builds. -/
def built (c : GapClient) : GapCall S → List GapPayload
  | .send n _ _ mediaSourceId rtpTimestamp opus _ now =>
    [c.payloadOf n mediaSourceId rtpTimestamp opus now]
  | _ => []

/-- The payloads of a source that a call builds. -/
def builtOf (source : UInt32) (c : GapClient) (x : GapCall S) : List GapPayload :=
  (c.built x).filter fun p => p.mediaSourceId = source

/-- A call builds at most one frame of a source. -/
theorem builtOf_cases (source : UInt32) (c : GapClient) (x : GapCall S) :
    builtOf source c x = [] ∨ ∃ p, builtOf source c x = [p] := by
  cases x with
  | send n s target mediaSourceId rtpTimestamp opus codec now =>
      rw [builtOf, built, List.filter_singleton]
      cases decide ((c.payloadOf n mediaSourceId rtpTimestamp opus now).mediaSourceId = source) with
      | true => exact Or.inr ⟨_, rfl⟩
      | false => exact Or.inl rfl
  | accept => exact Or.inl rfl
  | syncEpoch => exact Or.inl rfl

variable [Ciborium] [CborReader GapPayload] [Prost GbpProto.GapPayload]
  [PlanusBuilder GbpFlat.GapPayload] [ReadAsRoot GbpFlat.GapPayloadRef] [Sealer S]

omit [CborReader GapPayload] [ReadAsRoot GbpFlat.GapPayloadRef] in
/-- What is sealed is the payload, and its number becomes the counter. -/
theorem send_eq (c : GapClient) (n : GroupNode) (s : S) (target : MemberId)
    (mediaSourceId : UInt32) (rtpTimestamp : UInt64) (opus : Bytes) (codec : PayloadCodec)
    (now : Instant) :
    let p := c.payloadOf n mediaSourceId rtpTimestamp opus now
    let r := n.sendPayload s target .audio (n.memberStreamId 2) GbpFlags.orderedOnly
      (p.toBytes codec) codec
    c.send n s target mediaSourceId rtpTimestamp opus codec now =
      (r.1, { c.syncEpoch n.currentEpoch now with
        outRtpSeq := (c.syncEpoch n.currentEpoch now).outRtpSeq.insert mediaSourceId
          p.rtpSequence }, r.2.1, r.2.2) := rfl

/-- The payloads of one source built along a run, in order. -/
def stream (c : GapClient) (source : UInt32) (xs : List (GapCall S)) : List GapPayload :=
  (Machine.observe step built c xs).filter fun p => p.mediaSourceId = source

omit [Ciborium] [PlanusBuilder GbpFlat.GapPayload] in
/-- Accepting leaves the counters of the synchronised client. -/
theorem accept_keeps (c : GapClient) (plaintext : Bytes) (currentEpoch : UInt64)
    (codec : PayloadCodec) (syncedAt now : Instant) :
    (c.accept plaintext currentEpoch codec syncedAt now).2.outRtpSeq =
        (c.syncEpoch currentEpoch syncedAt).outRtpSeq ∧
      (c.accept plaintext currentEpoch codec syncedAt now).2.currentEpoch = some currentEpoch := by
  have hcur := c.syncEpoch_currentEpoch currentEpoch syncedAt
  rcases c.accept_cases plaintext currentEpoch codec syncedAt now with ⟨e, -, heq⟩ |
    ⟨p, -, ⟨-, heq⟩ | ⟨-, before, w, after, -, -, heq⟩ | ⟨-, heq⟩⟩ <;>
  · rw [heq]
    exact ⟨rfl, hcur⟩

/-- After a call the client is in the epoch of the call. -/
theorem step_currentEpoch (c : GapClient) (x : GapCall S) :
    (c.step x).currentEpoch = some x.epoch := by
  cases x with
  | send n s target mediaSourceId rtpTimestamp opus codec now =>
      exact c.syncEpoch_currentEpoch n.currentEpoch now
  | accept plaintext currentEpoch codec syncedAt now =>
      exact (c.accept_keeps plaintext currentEpoch codec syncedAt now).2
  | syncEpoch epoch now => exact c.syncEpoch_currentEpoch epoch now

theorem counterIn_step (c : GapClient) (x : GapCall S) (source : UInt32) :
    (c.step x).counterIn x.epoch source = (c.step x).outRtpSeq.read source :=
  if_pos (c.step_currentEpoch x)

/-- After a call, the counters of every other epoch start anew. -/
theorem counterIn_elsewhere (c : GapClient) (x : GapCall S) {epoch : UInt64} (h : x.epoch ≠ epoch)
    (source : UInt32) : (c.step x).counterIn epoch source = 0 := by
  rw [counterIn, c.step_currentEpoch x]
  exact if_neg fun heq => h (Option.some.inj heq)

/-- A bound on the counter in the epoch of a call is one in every epoch. -/
theorem counterIn_step_le {c : GapClient} {x : GapCall S} {source bound : UInt32}
    (hbound : (c.step x).counterIn x.epoch source ≤ bound) (epoch : UInt64) :
    (c.step x).counterIn epoch source ≤ bound := by
  by_cases hx : x.epoch = epoch
  · rw [← hx]
    exact hbound
  · rw [counterIn_elsewhere c x hx]
    exact UInt32.zero_le

/-- A call that builds no frame of a source leaves its counter. -/
theorem counterIn_other {c : GapClient} {source : UInt32} {x : GapCall S}
    (hother : builtOf source c x = []) :
    (c.step x).counterIn x.epoch source = c.counterIn x.epoch source := by
  rw [counterIn_step]
  cases x with
  | send n s target mediaSourceId rtpTimestamp opus codec sentAt =>
      have hne : source ≠ mediaSourceId := by
        rintro rfl
        simp [builtOf, built, payloadOf] at hother
      rw [step, send_eq]
      exact (Counters.read_insert_ne _ _ hne).trans (c.read_syncEpoch n.currentEpoch source sentAt)
  | accept plaintext currentEpoch codec syncedAt now =>
      rw [step, (c.accept_keeps plaintext currentEpoch codec syncedAt now).1]
      exact c.read_syncEpoch currentEpoch source syncedAt
  | syncEpoch epoch now => exact c.read_syncEpoch epoch source now

/-- A call that builds a frame of a source gives it the next number. -/
theorem counterIn_next {c : GapClient} {source : UInt32} {x : GapCall S} {p : GapPayload}
    (hone : builtOf source c x = [p]) :
    p.mediaSourceId = source ∧ p.rtpSequence = (c.counterIn x.epoch source + 1) &&& 0xFFFF ∧
      p.keyPhase = x.epoch.toUInt32 ∧ (c.step x).counterIn x.epoch source = p.rtpSequence := by
  rw [counterIn_step]
  cases x with
  | send n s target mediaSourceId rtpTimestamp opus codec sentAt =>
      have hp : p ∈ builtOf source c
          (.send n s target mediaSourceId rtpTimestamp opus codec sentAt : GapCall S) := by
        rw [hone]
        exact List.mem_singleton_self p
      obtain ⟨hmem, hsource⟩ := List.mem_filter.mp hp
      obtain rfl := List.mem_singleton.mp hmem
      obtain rfl : mediaSourceId = source := of_decide_eq_true hsource
      refine ⟨rfl, ?_, rfl, ?_⟩
      · rw [GapCall.epoch, ← c.read_syncEpoch n.currentEpoch mediaSourceId sentAt]
        rfl
      · rw [step, send_eq]
        exact Counters.read_insert_self _ _ _
  | accept plaintext currentEpoch codec syncedAt now => cases hone
  | syncEpoch epoch now => cases hone

theorem stream_cons (c : GapClient) (source : UInt32) (x : GapCall S) (xs : List (GapCall S)) :
    c.stream source (x :: xs) = builtOf source c x ++ (c.step x).stream source xs :=
  List.filter_append ..

/-- The frames of a source sent in one epoch are numbered one after the other. -/
theorem stream_numbered {c : GapClient} {epoch : UInt64} {source : UInt32} {k : ℕ}
    (h : c.counterIn epoch source = streamNumber k) {xs : List (GapCall S)}
    (hxs : ∀ x ∈ xs, x.epoch = epoch) {i : ℕ} {p : GapPayload}
    (hp : (c.stream source xs)[i]? = some p) :
    p.mediaSourceId = source ∧ p.rtpSequence = streamNumber (k + i + 1) ∧
      p.keyPhase = epoch.toUInt32 := by
  induction xs generalizing c k i with
  | nil => cases hp
  | cons x xs ih =>
      obtain rfl := hxs x (List.mem_cons_self ..)
      have hrest : ∀ y ∈ xs, y.epoch = x.epoch := fun y hy => hxs y (List.mem_cons_of_mem x hy)
      rw [stream_cons] at hp
      rcases builtOf_cases source c x with hnone | ⟨q, hone⟩
      · rw [hnone, List.nil_append] at hp
        exact ih ((counterIn_other hnone).trans h) hrest hp
      · obtain ⟨hsource, hseq, hphase, hnext⟩ := counterIn_next hone
        rw [h, streamNumber_succ] at hseq
        rw [hone] at hp
        cases i with
        | zero =>
            obtain rfl : q = p := Option.some.inj hp
            exact ⟨hsource, hseq, hphase⟩
        | succ i =>
            have hnumber := ih (hnext.trans hseq) hrest hp
            rwa [show k + 1 + i + 1 = k + (i + 1) + 1 by omega] at hnumber

/-! Receiving the stream. -/

/-- A call on the receiver's client, and the place in the stream of the frame it brings, if it
brings one. -/
structure StreamCall (S : Type) where
  call : GapCall S
  place : Option ℕ

/-- The receiver's client after a call. -/
def receive (c : GapClient) (d : StreamCall S) : GapClient := c.step d.call

/-- A call in the epoch that brings no frame of the source in it: a frame of another source or of
an older epoch, bytes that cannot be read, or a call of the receiver's own. -/
def Foreign (epoch : UInt64) (source : UInt32) (x : GapCall S) : Prop :=
  x.epoch = epoch ∧
    match x with
    | .accept plaintext _ codec _ _ => ∀ p, GapPayload.fromBytes plaintext codec = .ok p →
        p.mediaSourceId ≠ source ∨ p.keyPhase ≠ epoch.toUInt32
    | _ => True

/-- The call hands over the frame at its place in the stream, in the epoch, or is foreign. -/
def Brings (epoch : UInt64) (source : UInt32) (frames : List GapPayload) (d : StreamCall S) :
    Prop :=
  match d.place with
  | some i => ∃ p codec syncedAt now, frames[i]? = some p ∧
      d.call = .accept (p.toBytes codec) epoch codec syncedAt now
  | none => Foreign epoch source d.call

/-- The places are in order, and fewer than `0x7FFF` frames are lost before each of them; `next` is
the place after the last one. -/
def Spaced (next : ℕ) : List ℕ → Prop
  | [] => True
  | i :: places => next ≤ i ∧ i - next < 0x7FFF ∧ Spaced (i + 1) places

/-- The frame at a call's place in the stream is taken as new. -/
def TakenNew (frames : List GapPayload) (c : GapClient) (d : StreamCall S) : Prop :=
  ∀ i, d.place = some i → ∃ p plaintext epoch codec syncedAt now, frames[i]? = some p ∧
    d.call = .accept plaintext epoch codec syncedAt now ∧
    (c.accept plaintext epoch codec syncedAt now).1 = .ok (.new p)

/-- A foreign call leaves the mark of the source. -/
theorem Marked.foreign {c : GapClient} {epoch : UInt64} {source : UInt32} {k : ℕ}
    (h : Marked c epoch source k) {x : GapCall S} (hx : Foreign epoch source x) :
    Marked (c.step x) epoch source k := by
  obtain ⟨rfl, hforeign⟩ := hx
  intro later
  rw [(syncEpoch_counters (c.step_currentEpoch x) later).2]
  cases x with
  | send n s target mediaSourceId rtpTimestamp opus codec sentAt => exact h sentAt
  | syncEpoch epoch now => exact h now
  | accept plaintext currentEpoch codec syncedAt now =>
      rw [step]
      rcases c.accept_cases plaintext currentEpoch codec syncedAt now with ⟨e, -, heq⟩ |
        ⟨p, hp, ⟨hphase, heq⟩ | ⟨-, before, w, after, -, -, heq⟩ | ⟨-, heq⟩⟩
      · rw [heq]
        exact h syncedAt
      · have hne : source ≠ p.mediaSourceId :=
          ((hforeign p hp).resolve_right (not_not.mpr hphase)).symm
        rw [heq]
        rcases acceptInto_cases (c.syncEpoch currentEpoch syncedAt).inHw p with
          ⟨-, hlate⟩ | ⟨-, hnew⟩
        · rw [hlate]
          exact h syncedAt
        · rw [hnew]
          exact (Counters.read_insert_ne _ _ hne).trans (h syncedAt)
      · rw [heq]
        exact h syncedAt
      · rw [heq]
        exact h syncedAt

/-- The next frame of the stream that arrives is new and moves the mark. -/
theorem Marked.next {c : GapClient} {epoch : UInt64} {source : UInt32} {k i : ℕ}
    (h : Marked c epoch source k) (hle : k ≤ i) (hlost : i - k < 0x7FFF) {p : GapPayload}
    (hp : p.mediaSourceId = source ∧ p.rtpSequence = streamNumber (i + 1) ∧
      p.keyPhase = epoch.toUInt32) {plaintext : Bytes} {codec : PayloadCodec}
    (hdecode : GapPayload.fromBytes plaintext codec = .ok p) (syncedAt now : Instant) :
    (c.accept plaintext epoch codec syncedAt now).1 = .ok (.new p) ∧
      Marked (c.step (.accept plaintext epoch codec syncedAt now : GapCall S)) epoch source
        (i + 1) := by
  obtain ⟨rfl, hseq, hphase⟩ := hp
  have htest : ¬ WordLate ((c.syncEpoch epoch syncedAt).inHw.read p.mediaSourceId)
      p.rtpSequence := by
    rw [h syncedAt, hseq]
    exact not_wordLate_of_ahead hle hlost
  have hnew := (acceptInto_cases (c.syncEpoch epoch syncedAt).inHw p).resolve_left
    fun hlate => htest hlate.1
  have haccept : c.accept plaintext epoch codec syncedAt now = (.ok (.new p),
      { c.syncEpoch epoch syncedAt with
        inHw := (c.syncEpoch epoch syncedAt).inHw.insert p.mediaSourceId p.rtpSequence }) := by
    simp only [accept, hdecode, if_pos hphase, hnew.2]
  have hcur : (c.step (.accept plaintext epoch codec syncedAt now : GapCall S)).currentEpoch =
      some epoch := c.step_currentEpoch _
  refine ⟨by rw [haccept], fun later => ?_⟩
  rw [(syncEpoch_counters hcur later).2, step, haccept]
  exact (Counters.read_insert_self _ _ _).trans hseq

/-- The mark follows the stream. -/
theorem stream_taken_new {c : GapClient} {epoch : UInt64} {source : UInt32} {k : ℕ}
    (h : Marked c epoch source k) {frames : List GapPayload}
    (hframes : ∀ i p, frames[i]? = some p → p.mediaSourceId = source ∧
      p.rtpSequence = streamNumber (i + 1) ∧ p.keyPhase = epoch.toUInt32)
    (hdecode : ∀ p ∈ frames, ∀ codec, GapPayload.fromBytes (p.toBytes codec) codec = .ok p)
    {ds : List (StreamCall S)} (hbrings : ∀ d ∈ ds, Brings epoch source frames d)
    (hspaced : Spaced k (ds.filterMap StreamCall.place)) :
    Machine.Along receive (TakenNew frames) c ds := by
  induction ds generalizing c k with
  | nil => exact trivial
  | cons d ds ih =>
      have hrest : ∀ d ∈ ds, Brings epoch source frames d :=
        fun d' hd' => hbrings d' (List.mem_cons_of_mem d hd')
      have hd := hbrings d (List.mem_cons_self ..)
      obtain ⟨call, place⟩ := d
      cases place with
      | none =>
          exact ⟨nofun, ih (h.foreign hd) hrest hspaced⟩
      | some i =>
          obtain ⟨hle, hlost, hlater⟩ : Spaced k (i :: ds.filterMap StreamCall.place) := hspaced
          obtain ⟨p, codec, syncedAt, now, hp, rfl⟩ := hd
          obtain ⟨hnew, hnext⟩ := h.next (S := S) hle hlost (hframes i p hp)
            (hdecode p (List.mem_of_getElem? hp) codec) syncedAt now
          refine ⟨?_, ih hnext hrest hlater⟩
          intro j hj
          obtain rfl : i = j := Option.some.inj hj
          exact ⟨p, _, _, _, _, _, hp, rfl, hnew⟩

/-- An in-order stream is never misjudged late. The frames of one source that a sender builds in one
epoch, of any number and around any number of wraps, reach a receiver in that epoch in order, with
fewer than `0x7FFF` of them lost in a row, between frames of other sources and of older epochs:
every one of them is taken as new. -/
theorem in_order_stream_is_new (hcbor : CborReader.Lossless GapPayload.entries)
    (hproto : Prost.Lossless GbpProto.GapPayload)
    (hflat : ReadAsRoot.Lossless GbpFlat.GapPayload.view)
    (epoch : UInt64) (source : UInt32) (sender receiver : GapClient)
    (hsender : sender.currentEpoch = some epoch → sender.outRtpSeq.read source = 0)
    (hreceiver : receiver.currentEpoch = some epoch → receiver.inHw.read source = 0)
    (xs : List (GapCall S)) (hxs : ∀ x ∈ xs, x.epoch = epoch)
    (hshort : ∀ p ∈ sender.stream source xs, p.opusFrame.length < 2 ^ 64)
    (ds : List (StreamCall S))
    (hbrings : ∀ d ∈ ds, Brings epoch source (sender.stream source xs) d)
    (hspaced : Spaced 0 (ds.filterMap StreamCall.place)) :
    Machine.Along receive (TakenNew (sender.stream source xs)) receiver ds := by
  have hcounted : sender.counterIn epoch source = streamNumber 0 := by
    rw [counterIn]
    split
    · rename_i hcur
      exact hsender hcur
    · rfl
  have hmarked : Marked receiver epoch source 0 := by
    intro now
    by_cases hcur : receiver.currentEpoch = some epoch
    · rw [(syncEpoch_counters hcur now).2, hreceiver hcur]
      rfl
    · rw [(syncEpoch_fresh hcur now).2, Counters.read_empty]
      rfl
  refine stream_taken_new hmarked (fun i p hp => ?_) (fun p hp codec => ?_) hbrings hspaced
  · have hnumber := stream_numbered hcounted hxs hp
    rwa [Nat.zero_add] at hnumber
  · exact GapPayload.fromBytes_toBytes hcbor hproto hflat (hshort p hp) codec

end Streams

/-- A member in epoch zero sends a frame of a source. -/
def speaks (source : UInt32) (now : Instant) : GapCall PlainSealer :=
  .send (GroupNode.new 1 (Vector.replicate 16 0)) .plain 2 source 960 [1] .cbor now

/-- The second of three frames is lost, and a frame of another source arrives in its place. -/
theorem in_order_stream_is_new_lossy :
    let frames := new.stream 7 [speaks 7 0, speaks 8 1, speaks 7 2, speaks 7 3]
    frames = [numbered 1, numbered 2, numbered 3] ∧
      Machine.Along receive (TakenNew frames) new
        [⟨takes 1 4, some 0⟩, ⟨.accept (GapPayload.toCbor ⟨8, 1, 960, 0, [1]⟩) 0 .cbor 5 5, none⟩,
          ⟨takes 3 6, some 2⟩] := by
  intro frames
  have hframes : frames = [numbered 1, numbered 2, numbered 3] := by decide +kernel
  have hother : GapPayload.fromBytes (GapPayload.toCbor ⟨8, 1, 960, 0, [1]⟩) .cbor =
      .ok ⟨8, 1, 960, 0, [1]⟩ := by decide +kernel
  refine ⟨hframes, in_order_stream_is_new GapPayload.cborLossless GapPayload.protoLossless
    GapPayload.flatLossless 0 7 new new nofun nofun _ ?_ ?_ _ ?_ ?_⟩
  · simp only [List.forall_mem_cons, List.not_mem_nil, false_implies, implies_true, and_true]
    exact ⟨rfl, rfl, rfl, rfl⟩
  · intro p hp
    rw [show new.stream 7 _ = _ from hframes] at hp
    simp only [List.mem_cons, List.not_mem_nil, or_false] at hp
    rcases hp with rfl | rfl | rfl <;> exact (by decide : (1 : ℕ) < 2 ^ 64)
  · rw [show new.stream 7 _ = _ from hframes]
    simp only [List.forall_mem_cons, List.not_mem_nil, false_implies, implies_true, and_true]
    refine ⟨⟨_, .cbor, 4, 4, rfl, rfl⟩, ⟨rfl, fun p hp => Or.inl ?_⟩, ⟨_, .cbor, 6, 6, rfl, rfl⟩⟩
    rw [← Except.ok.inj (hother.symm.trans hp)]
    decide
  · simp [Spaced]

end GapClient

end GroupProtocol
