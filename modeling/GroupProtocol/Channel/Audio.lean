import GroupProtocol.Audio.Stream
import GroupProtocol.Channel.Order

/-!
# Audio from end to end

The audio client behind the receive loop. The node hands the frames of a source on in the order of
sending, whatever the network does; the client's mark follows them around every wrap of their
sixteen-bit numbers, and takes every one as new as long as the losses in a row stay short.
-/

namespace GroupProtocol

/-- The source of an audio send. -/
def SendOp.voice : SendOp → Option UInt32
  | .audio _ mediaSourceId .. => some mediaSourceId
  | _ => none

namespace GapClient

section Receiving

variable [CborReader GapPayload] [Prost GbpProto.GapPayload] [ReadAsRoot GbpFlat.GapPayloadRef]

/-- The audio client in the receive loop, with the readings of the clock it is going to make. -/
def client : Client (GapClient × (ℕ → Instant × Instant)) (Except GapError GapAccept) where
  stream := .audio
  take s epoch p :=
    let r := s.1.accept p.plaintext epoch p.codec (s.2 0).1 (s.2 0).2
    (r.1, r.2, fun n => s.2 (n + 1))

/-- The frames taken as new. -/
def news (answers : List (Except GapError GapAccept)) : List GapPayload :=
  answers.filterMap fun
    | .ok (.new p) => some p
    | _ => none

/-- The audio frame in a payload. -/
def read (p : DeliveredPayload) : Option GapPayload :=
  (GapPayload.fromBytes p.plaintext p.codec).toOption

theorem read_eq_some {p : DeliveredPayload} {q : GapPayload} :
    read p = some q ↔ GapPayload.fromBytes p.plaintext p.codec = .ok q := by
  rw [read]
  cases GapPayload.fromBytes p.plaintext p.codec with
  | error e => exact ⟨nofun, nofun⟩
  | ok q' => exact ⟨fun h => congrArg _ (Option.some.inj h), fun h => congrArg _ (Except.ok.inj h)⟩

/-- The frames of a source among some. -/
def ofSource (source : UInt32) (qs : List GapPayload) : List GapPayload :=
  qs.filter fun q => q.mediaSourceId = source

/-- The payloads that carry a frame of a source. -/
def carrying (source : UInt32) (ps : List DeliveredPayload) : List DeliveredPayload :=
  ps.filter fun p => (read p).any fun q => q.mediaSourceId = source

/-- The payload can be read, and a frame of the source in it is the one at its place in the stream
of the epoch. -/
def Placed (epoch : UInt64) (source : UInt32) (place : DeliveredPayload → ℕ)
    (p : DeliveredPayload) : Prop :=
  ∃ q, read p = some q ∧ (q.mediaSourceId = source →
    q.rtpSequence = streamNumber (place p + 1) ∧ q.keyPhase = epoch.toUInt32)

theorem news_answers (s : GapClient × (ℕ → Instant × Instant)) (epoch : UInt64)
    (p : DeliveredPayload) (ps : List DeliveredPayload) :
    news (client.answers epoch s (p :: ps)) =
      news [(client.take s epoch p).1] ++ news (client.answers epoch (client.taking epoch s p) ps) :=
  List.filterMap_append (l := [(client.take s epoch p).1])

omit [CborReader GapPayload] [Prost GbpProto.GapPayload] [ReadAsRoot GbpFlat.GapPayloadRef] in
theorem ofSource_append (source : UInt32) (qs more : List GapPayload) :
    ofSource source (qs ++ more) = ofSource source qs ++ ofSource source more :=
  List.filter_append ..

theorem filterMap_read_cons (p : DeliveredPayload) (ps : List DeliveredPayload) :
    (p :: ps).filterMap read = (read p).toList ++ ps.filterMap read := by
  rw [List.filterMap_cons]
  cases read p <;> rfl

/-- A frame taken as new is the one in the payload. -/
theorem read_of_news {s : GapClient × (ℕ → Instant × Instant)} {epoch : UInt64}
    {p : DeliveredPayload} {q : GapPayload} (hq : q ∈ news [(client.take s epoch p).1]) :
    read p = some q := by
  have hinto : ∀ {inHw : Counters UInt32 UInt32} {q' : GapPayload},
      (acceptInto inHw q').1 = .new q → q' = q := by
    intro inHw q' h
    rcases acceptInto_cases inHw q' with ⟨-, heq⟩ | ⟨-, heq⟩ <;> rw [heq] at h
    · cases h
    · exact GapAccept.new.inj h
  have hanswer : (client.take s epoch p).1 = .ok (.new q) := by
    obtain ⟨r, hr, hnew⟩ := List.mem_filterMap.mp hq
    obtain rfl := List.mem_singleton.mp hr
    split at hnew
    · rename_i q' heq
      rw [heq, Option.some.inj hnew]
    · cases hnew
  rw [read_eq_some]
  rcases s.1.accept_cases p.plaintext epoch p.codec (s.2 0).1 (s.2 0).2 with ⟨e, -, heq⟩ |
    ⟨q', hq', ⟨-, heq⟩ | ⟨-, before, w, after, -, -, heq⟩ | ⟨-, heq⟩⟩ <;>
    simp only [client, heq] at hanswer
  · cases hanswer
  · rw [hq', hinto (Except.ok.inj hanswer)]
  · rw [hq', hinto (Except.ok.inj hanswer)]
  · cases hanswer

/-- While the frames of a source come in order and few are lost in a row, every one of them is taken
as new, whatever frames of other sources are between them. -/
theorem ofSource_news {epoch : UInt64} {source : UInt32} {place : DeliveredPayload → ℕ}
    {s : GapClient × (ℕ → Instant × Instant)} {k : ℕ} (h : s.1.Marked epoch source k)
    {ps : List DeliveredPayload} (hplaced : ∀ p ∈ ps, Placed epoch source place p)
    (hspaced : Spaced k ((carrying source ps).map place)) :
    ofSource source (news (client.answers epoch s ps)) = ofSource source (ps.filterMap read) := by
  induction ps generalizing s k with
  | nil => rfl
  | cons p ps ih =>
      obtain ⟨q, hread, hplace⟩ := hplaced p (List.mem_cons_self ..)
      have hrest : ∀ p ∈ ps, Placed epoch source place p :=
        fun p' hp' => hplaced p' (List.mem_cons_of_mem p hp')
      have hdecode := read_eq_some.mp hread
      rw [news_answers, ofSource_append, filterMap_read_cons, ofSource_append, hread,
        Option.toList_some]
      by_cases hq : q.mediaSourceId = source
      · obtain ⟨hseq, hphase⟩ := hplace hq
        rw [carrying, List.filter_cons_of_pos (by simp [hread, hq])] at hspaced
        obtain ⟨hle, hlost, hlater⟩ := hspaced
        obtain ⟨hnew, hnext⟩ := h.next (S := PlainSealer) hle hlost ⟨hq, hseq, hphase⟩ hdecode
          (s.2 0).1 (s.2 0).2
        refine congrArg₂ (· ++ ·) ?_ (ih (s := client.taking epoch s p) hnext hrest hlater)
        exact congrArg (fun a => ofSource source (news [a])) hnew
      · rw [carrying, List.filter_cons_of_neg (by simp [hread, hq])] at hspaced
        have hforeign : Foreign epoch source
            (.accept p.plaintext epoch p.codec (s.2 0).1 (s.2 0).2 : GapCall PlainSealer) := by
          refine ⟨rfl, fun q' hq' => Or.inl ?_⟩
          rw [← Except.ok.inj (hdecode.symm.trans hq')]
          exact hq
        have hnone : ofSource source (news [(client.take s epoch p).1]) = [] := by
          rw [ofSource, List.filter_eq_nil_iff]
          intro q' hq' heq
          obtain rfl := Option.some.inj (hread.symm.trans (read_of_news hq'))
          exact hq (of_decide_eq_true heq)
        rw [hnone, ih (s := client.taking epoch s p) (h.foreign hforeign) hrest hspaced]
        simp [ofSource, hq]

end Receiving

section Counting

variable [Ciborium] [CborReader GapPayload] [Prost GbpProto.GapPayload]
  [PlanusBuilder GbpFlat.GapPayload] [ReadAsRoot GbpFlat.GapPayloadRef] [Codegen GtpMessage]
  [Codegen GspSignal] {S : Type} [Sealer S]

/-- A send of a member moves the counter of a source when it is an audio send of this source, and
leaves it otherwise. -/
theorem counterIn_send (m : Member) (s : S) (op : SendOp) (now : Instant) (source : UInt32) :
    (m.send s op now).2.1.gap.counterIn m.node.currentEpoch source =
      if op.voice = some source then
        (m.gap.counterIn m.node.currentEpoch source + 1) &&& 0xFFFF
      else m.gap.counterIn m.node.currentEpoch source := by
  cases op with
  | audio target mediaSourceId rtpTimestamp opus codec =>
      let x : GapCall S := .send m.node s target mediaSourceId rtpTimestamp opus codec now
      have hgap : (m.send s (.audio target mediaSourceId rtpTimestamp opus codec) now).2.1.gap =
          m.gap.step x := rfl
      have hepoch : x.epoch = m.node.currentEpoch := rfl
      have hvoice : (SendOp.audio target mediaSourceId rtpTimestamp opus codec).voice =
          some mediaSourceId := rfl
      rw [hgap, ← hepoch, hvoice]
      by_cases hsource : mediaSourceId = source
      · have hone : builtOf source m.gap x =
            [m.gap.payloadOf m.node mediaSourceId rtpTimestamp opus now] := by
          simp [builtOf, built, x, payloadOf, hsource]
        obtain ⟨-, hseq, -, hnext⟩ := counterIn_next hone
        rw [if_pos (congrArg some hsource), hnext, hseq]
      · have hnone : builtOf source m.gap x = [] := by
          simp [builtOf, built, x, payloadOf, hsource]
        rw [if_neg fun heq => hsource (Option.some.inj heq), counterIn_other hnone]
  | text target messageId text codec => rfl
  | signal target signal roleClaim requestId args codec => rfl
  | control target opcode tid rid args => rfl

end Counting

end GapClient

/-- The three audio codecs read back what they write. -/
structure AudioCodecs [CborReader GapPayload] [Prost GbpProto.GapPayload]
    [PlanusBuilder GbpFlat.GapPayload] [ReadAsRoot GbpFlat.GapPayloadRef] : Prop where
  cbor : CborReader.Lossless GapPayload.entries
  proto : Prost.Lossless GbpProto.GapPayload
  flat : ReadAsRoot.Lossless GbpFlat.GapPayload.view

/-- The send is no audio frame, or its length fits the length field. -/
def SendOp.OpusFits (op : SendOp) : Prop :=
  ∀ target mediaSourceId rtpTimestamp opus codec,
    op = .audio target mediaSourceId rtpTimestamp opus codec → opus.length < 2 ^ 64

namespace Delivering

variable {ι : Type} [DecidableEq ι] [Ciborium] [CborReader GapPayload]
  [Prost GbpProto.GapPayload] [PlanusBuilder GbpFlat.GapPayload] [ReadAsRoot GbpFlat.GapPayloadRef]
  [Codegen GtpMessage] [Codegen GspSignal] {S : Type} [Sealer S]

/-- The source a member speaks with in a send, if the send is an audio send of its own. -/
def spoken (x : ClientSend ι S) (i : ι) : Option UInt32 :=
  if x.sender = i then x.op.voice else none

/-- The sources of the audio sends of a member, in order. -/
def voices (xs : List (ClientSend ι S)) (i : ι) : List UInt32 := xs.filterMap fun x => spoken x i

/-- How many frames of a source the member had sent before the one in a payload. -/
def earlier (members : ι → Member) (xs : List (ClientSend ι S)) (i : ι) (source : UInt32)
    (p : DeliveredPayload) : ℕ :=
  ((voices xs i).take (p.sequenceNo.toNat - (used members (i, .audio)).toNat - 1)).count source

omit [DecidableEq ι] [Sealer S] in
/-- The frame of an audio send carries its source. -/
theorem voice_payloadOf (hcodecs : AudioCodecs) {x : ClientSend ι S} (hfits : x.op.OpusFits)
    (haudio : x.op.stream = .audio) (m : Member) :
    ∃ q, GapClient.read (payloadOf m x.op x.now) = some q ∧ x.op.voice = some q.mediaSourceId ∧
      q.keyPhase = m.node.currentEpoch.toUInt32 ∧
      q.rtpSequence = (m.gap.counterIn m.node.currentEpoch q.mediaSourceId + 1) &&& 0xFFFF := by
  obtain ⟨sender, provider, op, now⟩ := x
  cases op with
  | audio target mediaSourceId rtpTimestamp opus codec =>
      refine ⟨m.gap.payloadOf m.node mediaSourceId rtpTimestamp opus now, ?_, rfl, rfl, ?_⟩
      · exact GapClient.read_eq_some.mpr (GapPayload.fromBytes_toBytes hcodecs.cbor hcodecs.proto
          hcodecs.flat (hfits target mediaSourceId rtpTimestamp opus codec rfl) codec)
      · rw [← m.gap.read_syncEpoch m.node.currentEpoch _ now]
        rfl
  | _ => cases haudio

omit [Ciborium] [CborReader GapPayload] [Prost GbpProto.GapPayload]
  [PlanusBuilder GbpFlat.GapPayload] [ReadAsRoot GbpFlat.GapPayloadRef] [Codegen GtpMessage]
  [Codegen GspSignal] [Sealer S] in
theorem voices_cons (x : ClientSend ι S) (xs : List (ClientSend ι S)) (i : ι) :
    voices (x :: xs) i = (spoken x i).toList ++ voices xs i := by
  rw [voices, List.filterMap_cons]
  cases spoken x i <;> rfl

omit [Ciborium] [CborReader GapPayload] [Prost GbpProto.GapPayload]
  [PlanusBuilder GbpFlat.GapPayload] [ReadAsRoot GbpFlat.GapPayloadRef] [Codegen GtpMessage]
  [Codegen GspSignal] [Sealer S] in
theorem spoken_isSome {x : ClientSend ι S} {i : ι} :
    (spoken x i).isSome = true ↔ (i, StreamType.audio) = (x.sender, x.op.stream) := by
  obtain ⟨sender, provider, op, now⟩ := x
  rw [spoken, Prod.mk.injEq, eq_comm (a := i)]
  by_cases h : sender = i
  · cases op <;> simp [h, SendOp.voice, SendOp.stream]
  · simp [h]

/-- A send moves the counter of a source when its sender speaks with this source. -/
theorem counterIn_sendStep {epoch : UInt64} {members : ι → Member}
    (hepoch : ∀ i, (members i).node.currentEpoch = epoch) (x : ClientSend ι S) (i : ι)
    (source : UInt32) {b : ℕ}
    (hcounter : (members i).gap.counterIn epoch source = GapClient.streamNumber b) :
    (sendStep members x i).gap.counterIn epoch source =
      GapClient.streamNumber (b + (spoken x i).toList.count source) := by
  by_cases hi : x.sender = i
  · subst hi
    have hsend := GapClient.counterIn_send (members x.sender) x.provider x.op x.now source
    rw [hepoch, hcounter, GapClient.streamNumber_succ] at hsend
    rw [sendStep, Function.update_self, hsend, spoken, if_pos rfl]
    cases x.op.voice with
    | none => rfl
    | some source' =>
        rw [Option.toList_some, List.count_singleton]
        by_cases hsource : source' = source
        · rw [if_pos (congrArg some hsource), if_pos (beq_iff_eq.mpr hsource)]
        · rw [if_neg fun h => hsource (Option.some.inj h), if_neg (mt beq_iff_eq.mp hsource)]
          rfl
  · rw [sendStep, Function.update_of_ne (Ne.symm hi), hcounter, spoken, if_neg hi]
    rfl

omit [CborReader GapPayload] [ReadAsRoot GbpFlat.GapPayloadRef] in
/-- A send before a frame counts when its sender speaks with the source. -/
theorem earlier_cons {members : ι → Member}
    (hactive : ∀ i, (members i).node.state = .active) (x : ClientSend ι S)
    {xs : List (ClientSend ι S)} {i : ι} (source : UInt32)
    (hcount : (used members (i, .audio)).toNat + sendsOf (x :: xs) i .audio < 2 ^ 32)
    {p : DeliveredPayload} (hlater : used (sendStep members x) (i, .audio) < p.sequenceNo) :
    earlier members (x :: xs) i source p =
      (spoken x i).toList.count source + earlier (sendStep members x) xs i source p := by
  have hused := used_sendStep hactive x (i, .audio)
  rw [earlier, earlier, voices_cons]
  cases hspoken : spoken x i with
  | none =>
      have hother : (i, StreamType.audio) ≠ (x.sender, x.op.stream) := fun h => by
        have hsome := spoken_isSome.mpr h
        rw [hspoken] at hsome
        cases hsome
      rw [hused, if_neg hother, Option.toList_none, List.nil_append, List.count_nil, Nat.zero_add]
  | some source' =>
      have hown : (i, StreamType.audio) = (x.sender, x.op.stream) :=
        spoken_isSome.mp (by rw [hspoken]; rfl)
      rw [if_pos hown] at hused
      have hgrows := (used_sendStep_bound hactive x xs (i, .audio) hcount).2.2 hown
      have hpos : p.sequenceNo.toNat - (used members (i, .audio)).toNat - 1 =
          p.sequenceNo.toNat - (used (sendStep members x) (i, .audio)).toNat - 1 + 1 := by
        rw [hused] at hlater ⊢
        rw [UInt32.lt_iff_toNat_lt, UInt32.toNat_add, UInt32.toNat_one] at hgrows hlater
        rw [UInt32.toNat_add, UInt32.toNat_one]
        omega
      rw [hpos, Option.toList_some, List.singleton_append, List.take_succ_cons,
        ← List.singleton_append, List.count_append]

/-- The audio frames of a member are numbered by what it had sent of their source before, failed
sends included. -/
theorem sent_placed (hcodecs : AudioCodecs) {gid : GroupId} {epoch : UInt64} {members : ι → Member}
    (hplace : Together gid epoch members) {xs : List (ClientSend ι S)}
    (hfits : ∀ x ∈ xs, x.op.OpusFits) {i : ι} {source : UInt32} {b : ℕ}
    (hcounter : (members i).gap.counterIn epoch source = GapClient.streamNumber b)
    (hcount : (used members (i, .audio)).toNat + sendsOf xs i .audio < 2 ^ 32) :
    ∀ f ∈ sent members xs, f.origin = (i, .audio) →
      GapClient.Placed epoch source (fun p => b + earlier members xs i source p) f.payload := by
  induction xs generalizing members b with
  | nil => simp [sent]
  | cons x xs ih =>
      intro f hf horigin
      have hcount' := (used_sendStep_bound hplace.active x xs (i, .audio) hcount).1
      rcases List.mem_append.mp hf with hf | hf
      · -- the frame of this send: nothing is before it
        rcases produced_cases members x with hnone | ⟨g, tid, hone, hsender, hpayload, -, -⟩
        · rw [hnone] at hf
          cases hf
        · rw [hone] at hf
          obtain rfl := List.mem_singleton.mp hf
          have hown : (x.sender, x.op.stream) = (i, StreamType.audio) := by
            rw [← horigin, SentFrame.origin, hsender, hpayload]
            rfl
          obtain ⟨rfl, hstream⟩ := Prod.mk.inj hown
          obtain ⟨q, hread, -, hphase, hseq⟩ := voice_payloadOf hcodecs
            (hfits x (List.mem_cons_self ..)) hstream (members x.sender)
          rw [hplace.epoch] at hphase hseq
          have hfirst : earlier members (x :: xs) x.sender source f.payload = 0 := by
            have hnumber : f.payload.sequenceNo = used members (x.sender, .audio) + 1 := by
              rw [hpayload, ← hstream]
              rfl
            have hgrows := (used_sendStep_bound hplace.active x xs (x.sender, .audio) hcount).2.2
              hown.symm
            have hzero : (used members (x.sender, .audio) + 1).toNat -
                (used members (x.sender, .audio)).toNat - 1 = 0 := by
              rw [UInt32.lt_iff_toNat_lt] at hgrows
              rw [UInt32.toNat_add, UInt32.toNat_one] at hgrows ⊢
              omega
            rw [earlier, hnumber, hzero, List.take_zero, List.count_nil]
          refine ⟨q, hpayload ▸ hread, fun hsource => ⟨?_, hphase⟩⟩
          rw [hseq, hsource, hcounter, GapClient.streamNumber_succ]
          dsimp only
          rw [hfirst, Nat.add_zero]
      · have hlater := (sent_increasing (hplace.sendStep x).active xs (i, .audio) hcount').2 f hf
          horigin
        obtain ⟨q, hread, hnumber⟩ := ih (hplace.sendStep x)
          (fun y hy => hfits y (List.mem_cons_of_mem x hy))
          (counterIn_sendStep hplace.epoch x i source hcounter) hcount' f hf horigin
        refine ⟨q, hread, fun hsource => ?_⟩
        dsimp only
        rw [earlier_cons hplace.active x source hcount hlater, ← Nat.add_assoc]
        exact hnumber hsource

variable {R : GroupNode} {members : ι → Member} {xs : List (ClientSend ι S)}
  {turns : List (Turn ι S)}

/-- When one member alone speaks with a source, the frames of the others carry other sources. -/
theorem other_source (hcodecs : AudioCodecs) (hfits : ∀ x ∈ xs, x.op.OpusFits) {i : ι}
    {source : UInt32} (hown : ∀ x ∈ xs, x.op.voice = some source → x.sender = i)
    {f : SentFrame ι} (hf : f ∈ sent members xs) (hclass : f.payload.streamType = .audio)
    (hi : f.sender ≠ i) :
    ∃ q, GapClient.read f.payload = some q ∧ q.mediaSourceId ≠ source := by
  obtain ⟨x, hx, hcarries⟩ := mem_sent hf
  have hstream : x.op.stream = .audio := (congrArg Prod.snd hcarries.origin).symm.trans hclass
  obtain ⟨hsender, m, -, hpayload⟩ := hcarries
  obtain ⟨q, hread, hvoice, -, -⟩ := voice_payloadOf hcodecs (hfits x hx) hstream m
  refine ⟨q, hpayload ▸ hread, fun hsource => hi ?_⟩
  rw [hsender]
  exact hown x hx (hvoice.trans (congrArg some hsource))

/-- When one member alone speaks with a source, the frames of this source are among its frames. -/
theorem ofSource_frames (hcodecs : AudioCodecs) (hfits : ∀ x ∈ xs, x.op.OpusFits) {i : ι}
    {source : UInt32} (hown : ∀ x ∈ xs, x.op.voice = some source → x.sender = i)
    {fs : List (SentFrame ι)} (hfs : ∀ f ∈ fs, f ∈ sent members xs) :
    GapClient.ofSource source
        ((GapClient.client.mine (fs.map SentFrame.payload)).filterMap GapClient.read) =
      GapClient.ofSource source
        ((fs.filter fun f => f.origin = (i, .audio)).filterMap fun f => GapClient.read f.payload) := by
  rw [Client.mine, List.filter_map, List.filterMap_map, GapClient.ofSource, GapClient.ofSource,
    List.filter_filterMap, List.filter_filterMap, List.filterMap_filter, List.filterMap_filter]
  refine List.filterMap_congr fun f hf => ?_
  have hmine : ((fun p : DeliveredPayload => decide (p.streamType = GapClient.client.stream)) ∘
      SentFrame.payload) f = decide (f.payload.streamType = .audio) := rfl
  rw [hmine]
  by_cases hclass : f.payload.streamType = .audio
  · rw [if_pos (decide_eq_true hclass)]
    by_cases hi : f.sender = i
    · rw [if_pos (decide_eq_true (Prod.ext hi hclass))]
      rfl
    · obtain ⟨q, hread, hne⟩ := other_source hcodecs hfits hown (hfs f hf) hclass hi
      have horigin : f.origin ≠ (i, .audio) := fun h => hi (congrArg Prod.fst h)
      rw [if_neg (mt of_decide_eq_true horigin), Function.comp_apply, hread]
      exact Option.filter_some_neg (by simpa using hne)
  · have horigin : f.origin ≠ (i, .audio) := fun h => hclass (congrArg Prod.snd h)
    rw [if_neg (mt of_decide_eq_true hclass), if_neg (mt of_decide_eq_true horigin)]

/-- Every audio payload that is handed out is at its place in the stream of a source, when one
member alone speaks with it. -/
theorem OnNetwork.audio_placed (h : OnNetwork R members xs turns) (hcodecs : AudioCodecs)
    (hfits : ∀ x ∈ xs, x.op.OpusFits) {i : ι} {source : UInt32} {b : ℕ}
    (hcounter : (members i).gap.counterIn R.currentEpoch source = GapClient.streamNumber b)
    (hown : ∀ x ∈ xs, x.op.voice = some source → x.sender = i) :
    ∀ p ∈ GapClient.client.mine (R.inbox turns),
      GapClient.Placed R.currentEpoch source (fun p => b + earlier members xs i source p) p := by
  intro p hp
  rw [h.inbox_eq] at hp
  obtain ⟨hp, haudio⟩ := List.mem_filter.mp hp
  obtain ⟨f, hf, rfl⟩ := List.mem_map.mp hp
  have hsent := h.mem_delivered hf
  have hclass : f.payload.streamType = .audio := of_decide_eq_true haudio
  by_cases hi : f.sender = i
  · exact sent_placed hcodecs h.place hfits hcounter (h.count i .audio) f hsent
      (Prod.ext hi hclass)
  · obtain ⟨q, hread, hne⟩ := other_source hcodecs hfits hown hsent hclass hi
    exact ⟨q, hread, fun hsource => absurd hsource hne⟩

/-- Audio from end to end, on any network. A member alone speaks with a source, and the receiver's
mark is at the `k`-th frame of it. Then the receiver's client takes every frame of the source that
the node hands out as new, in the order of sending and none twice, whatever was lost, repeated or
reordered, as long as fewer than `0x7FFF` frames of the source are missing in a row. -/
theorem audio_heard (h : OnNetwork R members xs turns) (hcodecs : AudioCodecs)
    (hfits : ∀ x ∈ xs, x.op.OpusFits) (i : ι) (source : UInt32) (b : ℕ)
    (hcounter : (members i).gap.counterIn R.currentEpoch source = GapClient.streamNumber b)
    (hown : ∀ x ∈ xs, x.op.voice = some source → x.sender = i) (c : GapClient) (k : ℕ)
    (hmark : c.Marked R.currentEpoch source k) (clock : ℕ → Instant × Instant)
    (hspaced : GapClient.Spaced k
      ((GapClient.carrying source (GapClient.client.mine (R.inbox turns))).map fun p =>
        b + earlier members xs i source p)) :
    let heard := GapClient.ofSource source
      (GapClient.news (GapClient.client.replies R (c, clock) turns))
    heard = GapClient.ofSource source
        ((GapClient.client.mine (R.inbox turns)).filterMap GapClient.read) ∧
      heard.Sublist (GapClient.ofSource source
        (((sent members xs).filter fun f => f.origin = (i, .audio)).filterMap
          fun f => GapClient.read f.payload)) := by
  intro heard
  have hheard : heard = GapClient.ofSource source
      ((GapClient.client.mine (R.inbox turns)).filterMap GapClient.read) := by
    rw [← GapClient.ofSource_news (s := (c, clock)) hmark
      (h.audio_placed hcodecs hfits hcounter hown) hspaced,
      ← (GapClient.client.serve_inbox h.listening (c, clock) h.calm h.deliverable).1]
  refine ⟨hheard, ?_⟩
  rw [hheard, h.inbox_eq, ofSource_frames hcodecs hfits hown fun f => h.mem_delivered]
  exact ((h.delivered_sublist (i, .audio)).filterMap _).filter _

end Delivering

namespace Delivering

/-- Three audio frames of member 2, with a text and another source of member 1 between them. -/
def voiceSends : List (ClientSend Bool PlainSealer) :=
  [⟨true, .plain, .audio 0 7 960 [1] .cbor, 0⟩, ⟨false, .plain, .text 0 1 "a" .cbor, 0⟩,
    ⟨true, .plain, .audio 0 7 1920 [2] .protobuf, 0⟩, ⟨false, .plain, .audio 0 8 960 [3] .cbor, 0⟩,
    ⟨true, .plain, .audio 0 7 2880 [4] .flatBuffers, 0⟩]

theorem onNetwork_voices (positions : List ℕ) :
    OnNetwork (freshNode 3) twoSenders voiceSends (twoTurns voiceSends positions) :=
  onNetwork_two (by simp [voiceSends, SendOp.stream])
    (fun i st => by cases i <;> cases st <;> decide) (by decide +kernel) positions

theorem audioCodecs : AudioCodecs :=
  ⟨GapPayload.cborLossless, GapPayload.protoLossless, GapPayload.flatLossless⟩

/-- The last frame of the source overtakes the second one, and the first one comes again late. -/
theorem audio_heard_overtaken :
    GapClient.ofSource 7 (GapClient.news (GapClient.client.replies (freshNode 3)
      (GapClient.new, fun _ => (0, 0)) (twoTurns voiceSends [0, 3, 4, 2, 0]))) =
        [⟨7, 1, 960, 0, [1]⟩, ⟨7, 3, 2880, 0, [4]⟩] := by
  have hheard := audio_heard (onNetwork_voices [0, 3, 4, 2, 0]) audioCodecs ?_ true 7 0 rfl ?_
    GapClient.new 0 (fun _ => rfl) (fun _ => (0, 0)) ?_
  · rw [hheard.1]
    decide +kernel
  · intro x hx target mediaSourceId rtpTimestamp opus codec hop
    simp only [voiceSends, List.mem_cons, List.not_mem_nil, or_false] at hx
    rcases hx with rfl | rfl | rfl | rfl | rfl <;> cases hop <;> decide
  · decide
  · rw [show (GapClient.carrying 7 (GapClient.client.mine ((freshNode 3).inbox
      (twoTurns voiceSends [0, 3, 4, 2, 0])))).map (fun p => 0 + earlier twoSenders voiceSends true 7 p) =
        [0, 2] by decide +kernel]
    simp [GapClient.Spaced]

end Delivering

end GroupProtocol
