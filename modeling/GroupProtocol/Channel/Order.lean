import GroupProtocol.Channel.Inbox

/-!
# The order of delivery

The members of a group send, and a receiver gets their frames from a network that may lose, repeat
and reorder them. From each member and class the receiver gets a sublist of what was sent, in the
order of sending and nothing twice. When no frame is overtaken for good, it is all that arrives.
-/

namespace GroupProtocol

namespace Delivering

variable {ι : Type} [DecidableEq ι] [Ciborium] [Codegen GtpMessage] [Codegen GapPayload]
  [Codegen GspSignal] {S : Type} [Sealer S]

/-- The frame is from the sender of the send, with the payload of the send under its identity. -/
def Carries (members : ι → Member) (f : SentFrame ι) (x : ClientSend ι S) : Prop :=
  f.sender = x.sender ∧ ∃ m : Member,
    m.node.memberId = (members x.sender).node.memberId ∧ f.payload = payloadOf m x.op x.now

omit [DecidableEq ι] [Sealer S] in
theorem Carries.origin {members : ι → Member} {f : SentFrame ι} {x : ClientSend ι S}
    (h : Carries members f x) : f.origin = (x.sender, x.op.stream) := by
  obtain ⟨hsender, m, -, hpayload⟩ := h
  rw [SentFrame.origin, hsender, hpayload]
  rfl

/-- Behind the frames of a series of sends stand some of the sends, in order. -/
theorem sent_sends (members : ι → Member) (xs : List (ClientSend ι S)) :
    ∃ ys, ys.Sublist xs ∧ List.Forall₂ (Carries members) (sent members xs) ys := by
  induction xs generalizing members with
  | nil => exact ⟨[], List.Sublist.refl [], List.Forall₂.nil⟩
  | cons x xs ih =>
      obtain ⟨ys, hys, hcarries⟩ := ih (sendStep members x)
      have hsent : sent members (x :: xs) =
        produced members x ++ sent (sendStep members x) xs := rfl
      have hrest : List.Forall₂ (Carries members) (sent (sendStep members x) xs) ys := by
        refine hcarries.imp fun f y ⟨hsender, m, hid, hpayload⟩ => ⟨hsender, m, ?_, hpayload⟩
        exact hid.trans (sendStep_keeps members x y.sender).1
      rw [hsent]
      rcases produced_cases members x with hnone | ⟨f, tid, hone, hsender, hpayload, -, -⟩
      · rw [hnone]
        exact ⟨ys, hys.cons x, hrest⟩
      · rw [hone]
        exact ⟨x :: ys, hys.cons_cons x,
          List.Forall₂.cons ⟨hsender, members x.sender, rfl, hpayload⟩ hrest⟩

/-- A frame carries one of the sends. -/
theorem mem_sent {members : ι → Member} {xs : List (ClientSend ι S)} {f : SentFrame ι}
    (hf : f ∈ sent members xs) : ∃ x ∈ xs, Carries members f x := by
  obtain ⟨ys, hys, hcarries⟩ := sent_sends members xs
  obtain ⟨k, hk, rfl⟩ := List.getElem_of_mem hf
  have hk' : k < ys.length := hcarries.length_eq ▸ hk
  exact ⟨ys[k], hys.subset (List.getElem_mem hk'), hcarries.get hk hk'⟩

section Reading

variable {β : Type} {read : DeliveredPayload → Option β} {members : ι → Member}
  {xs : List (ClientSend ι S)} {st : StreamType}

/-- When the payloads of some streams read back as `want` says, the frames of these streams carry
what the members wanted to send on them, less what failed to be sent. -/
theorem sent_reads {P : ι × StreamType → Prop} [DecidablePred P]
    {want : ClientSend ι S → Option β}
    (hread : ∀ x ∈ xs, P (x.sender, x.op.stream) → ∀ m : Member,
      m.node.memberId = (members x.sender).node.memberId →
        read (payloadOf m x.op x.now) = want x) :
    (((sent members xs).filter fun f => P f.origin).filterMap fun f => read f.payload).Sublist
      ((xs.filter fun x => P (x.sender, x.op.stream)).filterMap want) := by
  obtain ⟨ys, hys, hcarries⟩ := sent_sends members xs
  refine List.Sublist.trans ?_ ((hys.filter _).filterMap want)
  replace hread := fun x hx => hread x (hys.subset hx)
  clear hys
  generalize sent members xs = fs at hcarries
  induction hcarries with
  | nil => exact List.Sublist.refl []
  | @cons f y fs ys hcarry _ ih =>
      have hrest := ih fun x hx => hread x (List.mem_cons_of_mem y hx)
      have horigin := hcarry.origin
      by_cases ho : P f.origin
      · have hy : P (y.sender, y.op.stream) := horigin ▸ ho
        obtain ⟨-, m, hid, hpayload⟩ := hcarry
        have hone := hread y (List.mem_cons_self ..) hy m hid
        rw [List.filter_cons_of_pos (by simpa using ho),
          List.filter_cons_of_pos (by simpa using hy), List.filterMap_cons, List.filterMap_cons,
          hpayload, hone]
        cases want y with
        | none => exact hrest
        | some b => exact hrest.cons_cons b
      · have hy : ¬P (y.sender, y.op.stream) := horigin ▸ ho
        rw [List.filter_cons_of_neg (by simpa using ho),
          List.filter_cons_of_neg (by simpa using hy)]
        exact hrest

/-- When every item read from a class names its sender, the items under the identity of a member
are those in its frames. -/
theorem filter_reads {owner : β → MemberId}
    (hids : Function.Injective fun i => (members i).node.memberId)
    (howner : ∀ f ∈ sent members xs, f.payload.streamType = st → ∀ b,
      read f.payload = some b → owner b = (members f.sender).node.memberId)
    {fs : List (SentFrame ι)} (hfs : ∀ f ∈ fs, f ∈ sent members xs) (i : ι) :
    (((fs.map SentFrame.payload).filter fun p => p.streamType = st).filterMap read).filter
        (fun b => owner b = (members i).node.memberId) =
      (fs.filter fun f => f.origin = (i, st)).filterMap fun f => read f.payload := by
  induction fs with
  | nil => rfl
  | cons f fs ih =>
      have hrest := ih fun g hg => hfs g (List.mem_cons_of_mem f hg)
      by_cases hst : f.payload.streamType = st
      · rw [List.map_cons, List.filter_cons_of_pos (by simpa using hst)]
        have hmatch : ∀ b, read f.payload = some b →
            (owner b = (members i).node.memberId ↔ f.origin = (i, st)) := by
          intro b hb
          rw [howner f (hfs f (List.mem_cons_self ..)) hst b hb]
          constructor
          · exact fun h => Prod.ext (hids h) hst
          · intro h
            rw [show f.sender = i from congrArg Prod.fst h]
        cases hb : read f.payload with
        | none =>
            rw [List.filterMap_cons_none hb]
            by_cases ho : f.origin = (i, st)
            · rw [List.filter_cons_of_pos (by simpa using ho),
                List.filterMap_cons_none (f := fun f : SentFrame ι => read f.payload) hb]
              exact hrest
            · rw [List.filter_cons_of_neg (by simpa using ho)]
              exact hrest
        | some b =>
            rw [List.filterMap_cons_some hb]
            by_cases ho : f.origin = (i, st)
            · rw [List.filter_cons_of_pos (by simpa using (hmatch b hb).mpr ho),
                List.filter_cons_of_pos (by simpa using ho),
                List.filterMap_cons_some (f := fun f : SentFrame ι => read f.payload) hb]
              exact congrArg (b :: ·) hrest
            · rw [List.filter_cons_of_neg (by simpa using mt (hmatch b hb).mp ho),
                List.filter_cons_of_neg (by simpa using ho)]
              exact hrest
      · have ho : f.origin ≠ (i, st) := fun h => hst (congrArg Prod.snd h)
        rw [List.map_cons, List.filter_cons_of_neg (by simpa using hst), hrest,
          List.filter_cons_of_neg (by simpa using ho)]

end Reading

/-- The members send `xs`, and whatever arrives at the receiver in its turns is one of their frames.
The members share the group and epoch of the receiver, no counter wraps, the receiver has no mark
above the counter of its sender, and the providers open what the others seal. -/
structure OnNetwork (R : GroupNode) (members : ι → Member) (xs : List (ClientSend ι S))
    (turns : List (Turn ι S)) : Prop where
  place : Together R.groupId R.currentEpoch members
  ids : Function.Injective fun i => (members i).node.memberId
  small : ∀ i, (members i).node.memberId < 1000000
  queue : payloadsOf R.events = []
  marks : ∀ i st, R.inHw.read ((members i).node.ownStream st) ≤
    (members i).node.outSeq.read ((members i).node.ownStream st)
  app : ∀ x ∈ xs, x.op.stream ≠ .control
  count : ∀ i st, ((members i).node.outSeq.read ((members i).node.ownStream st)).toNat +
    sendsOf xs i st < 2 ^ 32
  short : ∀ f ∈ sent members xs, f.sealedBytes.length < 2 ^ 32
  calm : ∀ t ∈ turns, t.Calm
  genuine : ∀ f ∈ Turn.arrived turns, f ∈ sent members xs
  opens : ∀ x ∈ xs, ∀ a, Turn.arrival a ∈ turns → Opens x.provider a.provider

namespace OnNetwork

variable {R : GroupNode} {members : ι → Member} {xs : List (ClientSend ι S)}
  {turns : List (Turn ι S)}

theorem deliverable (h : OnNetwork R members xs turns) (a : Arrival ι S)
    (ha : Turn.arrival a ∈ turns) : Deliverable R.groupId R.currentEpoch a := by
  have hsent := h.genuine _ (Turn.mem_arrived ha)
  obtain ⟨-, ⟨x, hx, hst, hflags, hseal⟩, hframed⟩ := sent_genuine h.place xs _ hsent
  refine ⟨hframed, h.short _ hsent, ?_, ?_, h.opens x hx a ha _ _ _ _ hseal⟩
  · rw [hst]
    exact h.app x hx
  · rw [hflags]
    exact SendOp.uncritical (h.app x hx)

theorem listening (h : OnNetwork R members xs turns) :
    R.Listening R.groupId R.currentEpoch := ⟨rfl, rfl, h.queue⟩

/-- The frames the receiver delivers, in order. -/
def delivered (R : GroupNode) (turns : List (Turn ι S)) : List (SentFrame ι) :=
  Records.records SentFrame.key SentFrame.number R.marks (Turn.arrived turns)

theorem inbox_eq (h : OnNetwork R members xs turns) :
    R.inbox turns = (delivered R turns).map SentFrame.payload :=
  GroupNode.inbox_eq_records h.listening h.calm h.deliverable

theorem mem_delivered (h : OnNetwork R members xs turns) {f : SentFrame ι}
    (hf : f ∈ delivered R turns) : f ∈ sent members xs :=
  h.genuine f ((Records.records_sublist _ _).subset hf)

/-- A stream is one member and one class. -/
theorem key_eq_iff (h : OnNetwork R members xs turns) {f : SentFrame ι}
    (hf : f ∈ sent members xs) (o : ι × StreamType) :
    f.key = (members o.1).node.ownStream o.2 ↔ f.origin = o := by
  have hgen := sent_genuine h.place xs f hf
  rw [hgen.stream]
  constructor
  · intro heq
    have hst : f.payload.streamType = o.2 := congrArg Prod.fst heq
    have hid := GroupNode.memberStreamId_inj (h.small f.sender) (h.small o.1)
      (hst ▸ congrArg Prod.snd heq)
    exact Prod.ext (h.ids hid) hst
  · rintro rfl
    rfl

/-- What a member sends in a class ascends. -/
theorem series_ascends (h : OnNetwork R members xs turns) (o : ι × StreamType) :
    ((sent members xs).filter fun f => f.origin = o).Pairwise fun f g => f.number < g.number :=
  (sent_increasing h.place.active xs o (h.count o.1 o.2)).1.imp UInt32.lt_iff_toNat_lt.mp

theorem filter_key (h : OnNetwork R members xs turns) {fs : List (SentFrame ι)}
    (hfs : ∀ f ∈ fs, f ∈ sent members xs) (o : ι × StreamType) :
    (fs.filter fun f => f.key = (members o.1).node.ownStream o.2) =
      fs.filter fun f => f.origin = o :=
  List.filter_congr fun f hf => decide_eq_decide.mpr (h.key_eq_iff (hfs f hf) o)

/-- From each member and class the receiver delivers a sublist of what was sent. -/
theorem delivered_sublist (h : OnNetwork R members xs turns) (o : ι × StreamType) :
    ((delivered R turns).filter fun f => f.origin = o).Sublist
      ((sent members xs).filter fun f => f.origin = o) := by
  rw [← h.filter_key (fun f => h.mem_delivered) o]
  refine Records.records_sublist_series _ _ (h.series_ascends o) fun f hf hkey => ?_
  have hsent := h.genuine f hf
  exact List.mem_filter.mpr ⟨hsent, decide_eq_true ((h.key_eq_iff hsent o).mp hkey)⟩

/-- Every frame lies above the receiver's mark of its stream. -/
theorem mark_lt (h : OnNetwork R members xs turns) {f : SentFrame ι} (hf : f ∈ sent members xs) :
    R.marks f.key < f.number := by
  have hkey := (h.key_eq_iff hf f.origin).mpr rfl
  have hused := (sent_increasing h.place.active xs f.origin (h.count ..)).2 f hf rfl
  rw [GroupNode.marks, hkey]
  exact UInt32.lt_iff_toNat_lt.mp (UInt32.lt_of_le_of_lt (h.marks ..) hused)

/-- The frames of a stream are sent with ascending numbers. -/
theorem sent_ascend (h : OnNetwork R members xs turns) :
    (sent members xs).Pairwise fun f g => f.key = g.key → f.number < g.number := by
  have hpair : (sent members xs).Pairwise fun f g => f.origin = g.origin → f.number < g.number :=
    pairwise_of_streams h.series_ascends
  refine hpair.imp_of_mem ?_
  intro f g hf hg hlt hkey
  exact hlt (Genuine.origin_eq h.ids h.small (sent_genuine h.place xs f hf)
    (sent_genuine h.place xs g hg) hkey)

/-- Frames that arrive in the order of sending are all delivered. -/
theorem delivered_eq_arrived (h : OnNetwork R members xs turns)
    (harrived : (Turn.arrived turns).Sublist (sent members xs)) :
    delivered R turns = Turn.arrived turns :=
  Records.records_eq_self (fun _ hf => h.mark_lt (harrived.subset hf))
    (h.sent_ascend.sublist harrived)

/-- The wire bytes name the frame. -/
theorem wire_inj (h : OnNetwork R members xs turns) {f g : SentFrame ι}
    (hf : f ∈ sent members xs) (hg : g ∈ sent members xs) (hwire : f.wire = g.wire) : f = g := by
  have hgenf := sent_genuine h.place xs f hf
  have hgeng := sent_genuine h.place xs g hg
  obtain ⟨tid, hwiref⟩ := hgenf.framed
  obtain ⟨tid', hwireg⟩ := hgeng.framed
  have hdecode : GbpFrame.decode f.wire = .ok (f.framed R.groupId R.currentEpoch tid) := by
    rw [hwiref]
    exact GbpFrame.decode_toCbor_new (h.short f hf)
  rw [hwire, hwireg, SentFrame.framed, GbpFrame.decode_toCbor_new (h.short g hg)] at hdecode
  have hframed : g.framed R.groupId R.currentEpoch tid' = f.framed R.groupId R.currentEpoch tid :=
    Except.ok.inj hdecode
  have hst : g.payload.streamType = f.payload.streamType := by
    have htyped := congrArg GbpFrame.streamTypeTyped hframed
    rw [SentFrame.framed, SentFrame.framed, GbpFrame.streamTypeTyped_new,
      GbpFrame.streamTypeTyped_new] at htyped
    exact Except.ok.inj htyped
  have hkey : f.key = g.key :=
    Prod.ext hst.symm (congrArg GbpFrame.streamId hframed).symm
  have horigin : f.origin = g.origin := Genuine.origin_eq h.ids h.small hgenf hgeng hkey
  exact Records.eq_of_num_eq (h.series_ascends g.origin)
    (List.mem_filter.mpr ⟨hf, decide_eq_true horigin⟩)
    (List.mem_filter.mpr ⟨hg, decide_eq_true rfl⟩)
    (congrArg (fun x : GbpFrame => x.sequenceNo.toNat) hframed).symm

/-- When no frame is overtaken for good, the receiver delivers from each member and class
everything that arrives, in the order of sending. -/
theorem delivered_eq (h : OnNetwork R members xs turns)
    (horder : Records.NoOvertaking SentFrame.key SentFrame.number (Turn.arrived turns))
    (o : ι × StreamType) :
    ((delivered R turns).filter fun f => f.origin = o) =
      ((sent members xs).filter fun f => f.origin = o).filter fun f =>
        f ∈ Turn.arrived turns := by
  rw [← h.filter_key (fun f => h.mem_delivered) o]
  refine Records.records_eq_arrived _ _ (h.series_ascends o) ?_ ?_ ?_ horder
  · intro f hf
    obtain ⟨hsent, ho⟩ := List.mem_filter.mp hf
    exact (h.key_eq_iff hsent o).mpr (of_decide_eq_true ho)
  · intro f hf
    obtain ⟨hsent, ho⟩ := List.mem_filter.mp hf
    rw [← (h.key_eq_iff hsent o).mpr (of_decide_eq_true ho)]
    exact h.mark_lt hsent
  · intro f hf hkey
    have hsent := h.genuine f hf
    exact List.mem_filter.mpr ⟨hsent, decide_eq_true ((h.key_eq_iff hsent o).mp hkey)⟩

omit [DecidableEq ι] [Ciborium] [Codegen GtpMessage] [Codegen GapPayload] [Codegen GspSignal]
  [Sealer S] in
/-- No frame is delivered twice. -/
theorem delivered_nodup (R : GroupNode) (turns : List (Turn ι S)) : (delivered R turns).Nodup := by
  refine (Records.records_pairwise R.marks (Turn.arrived turns)).imp ?_
  rintro f g hlt rfl
  exact Nat.lt_irrefl _ (hlt rfl)

/-- What differs in the frames that were sent differs in those delivered. -/
theorem delivered_filterMap_nodup {β : Type} (h : OnNetwork R members xs turns)
    (p : SentFrame ι → Bool) {g : SentFrame ι → Option β}
    (hsent : (((sent members xs).filter p).filterMap g).Nodup) :
    (((delivered R turns).filter p).filterMap g).Nodup := by
  obtain ⟨fs, hperm, hfs⟩ := (List.subperm_of_subset (delivered_nodup R turns) fun f hf =>
    h.mem_delivered hf).filter p
  exact (hperm.filterMap g).nodup_iff.mp (hsent.sublist (hfs.filterMap g))

end OnNetwork

/-- Each frame of some sends of two members that a list of positions names, as an arrival. -/
def twoTurns (xs : List (ClientSend Bool PlainSealer)) (positions : List ℕ) :
    List (Turn Bool PlainSealer) :=
  positions.flatMap fun k =>
    (sent twoSenders xs)[k]?.toList.map fun f => .arrival ⟨f, .plain, 0⟩

theorem onNetwork_two {xs : List (ClientSend Bool PlainSealer)}
    (happ : ∀ x ∈ xs, x.op.stream ≠ .control) (hcount : ∀ i st, sendsOf xs i st < 2 ^ 32)
    (hshort : ∀ f ∈ sent twoSenders xs, f.sealedBytes.length < 2 ^ 32) (positions : List ℕ) :
    OnNetwork (freshNode 3) twoSenders xs (twoTurns xs positions) where
  place := ⟨by decide, by decide, by decide⟩
  ids i j := by cases i <;> cases j <;> decide
  small := by decide
  queue := by decide
  marks i st := UInt32.zero_le
  app := happ
  count i st := by
    rw [show ((twoSenders i).node.outSeq.read ((twoSenders i).node.ownStream st)).toNat = 0 by
      cases i <;> cases st <;> decide, Nat.zero_add]
    exact hcount i st
  short := hshort
  calm t ht := by
    obtain ⟨k, -, ht⟩ := List.mem_flatMap.mp ht
    obtain ⟨f, -, rfl⟩ := List.mem_map.mp ht
    exact trivial
  genuine f hf := by
    obtain ⟨t, ht, hf⟩ := List.mem_flatMap.mp hf
    obtain ⟨k, -, ht⟩ := List.mem_flatMap.mp ht
    obtain ⟨g, hg, rfl⟩ := List.mem_map.mp ht
    obtain rfl := List.mem_singleton.mp hf
    exact List.mem_of_getElem? (Option.mem_toList.mp hg)
  opens x _ a _ := PlainSealer.openInverse x.provider a.provider

end Delivering

end GroupProtocol
