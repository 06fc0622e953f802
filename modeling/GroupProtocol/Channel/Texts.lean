import GroupProtocol.Channel.Order
import GroupProtocol.Clients.Receiving

/-!
# Texts from end to end

The text client behind the receive loop. What it reports as new from a member are texts that member
sent, in the order of sending and none twice, whatever the network does. When no frame is overtaken
for good and a member does not use a message id twice, they are all the texts that arrive.
-/

namespace GroupProtocol

namespace GtpClient

variable [CborReader GtpMessage] [Prost GbpProto.GtpMessage] [ReadAsRoot GbpFlat.GtpMessageRef]

/-- The text client in the receive loop. -/
def client : Client GtpClient (Except GtpError GtpAccept) where
  stream := .text
  take c epoch p := c.accept p.plaintext epoch p.codec

/-- The messages reported as new. -/
def news (answers : List (Except GtpError GtpAccept)) : List GtpMessage :=
  answers.filterMap fun
    | .ok (.new m) => some m
    | _ => none

/-- The message in a payload. -/
def read (p : DeliveredPayload) : Option GtpMessage :=
  (GtpMessage.fromBytes p.plaintext p.codec).toOption

/-- A delivered payload as a call of the client. -/
def delivery (epoch : UInt64) (p : DeliveredPayload) : GtpDelivery := ⟨p.plaintext, epoch, p.codec⟩

theorem read_eq_some {p : DeliveredPayload} {m : GtpMessage} :
    read p = some m ↔ GtpMessage.fromBytes p.plaintext p.codec = .ok m := by
  rw [read]
  cases GtpMessage.fromBytes p.plaintext p.codec with
  | error e => exact ⟨nofun, nofun⟩
  | ok m' => exact ⟨fun h => congrArg _ (Option.some.inj h), fun h => congrArg _ (Except.ok.inj h)⟩

theorem news_answers (c : GtpClient) (epoch : UInt64) (p : DeliveredPayload)
    (ps : List DeliveredPayload) :
    news (client.answers epoch c (p :: ps)) =
      news [(client.take c epoch p).1] ++ news (client.answers epoch (client.taking epoch c p) ps) :=
  List.filterMap_append (l := [(client.take c epoch p).1])

theorem filterMap_read_cons (p : DeliveredPayload) (ps : List DeliveredPayload) :
    (p :: ps).filterMap read = (read p).toList ++ ps.filterMap read := by
  rw [List.filterMap_cons]
  cases read p <;> rfl

theorem news_sublist_read (c : GtpClient) (epoch : UInt64) (p : DeliveredPayload) :
    (news [(client.take c epoch p).1]).Sublist (read p).toList := by
  simp only [news, client, accept]
  cases hread : GtpMessage.fromBytes p.plaintext p.codec with
  | error e => exact List.nil_sublist _
  | ok m =>
      rw [read_eq_some.mpr hread]
      dsimp only
      split <;> simp

/-- What is reported as new is what the payloads carry, less some of it. -/
theorem news_sublist (c : GtpClient) (epoch : UInt64) (ps : List DeliveredPayload) :
    (news (client.answers epoch c ps)).Sublist (ps.filterMap read) := by
  induction ps generalizing c with
  | nil => exact List.Sublist.refl _
  | cons p ps ih =>
      rw [news_answers, filterMap_read_cons]
      exact (news_sublist_read c epoch p).append (ih _)

omit [CborReader GtpMessage] [Prost GbpProto.GtpMessage] [ReadAsRoot GbpFlat.GtpMessageRef] in
theorem mem_of_mem_recentPairs {log : List (UInt64 × MemberId × UInt64)} {epoch : UInt64}
    {pair : MemberId × UInt64} (h : pair ∈ recentPairs log epoch) : pair ∈ log.map Prod.snd :=
  ((List.filter_sublist (l := log)).map Prod.snd).subset ((List.drop_sublist ..).subset h)

/-- A client reports every payload as new while their pairs all differ from each other and from
those it has reported. -/
theorem news_eq {c : GtpClient} {epoch : UInt64} {log : List (UInt64 × MemberId × UInt64)}
    (h : c.Tracks log) (hcurrent : ∀ e, c.currentEpoch = some e → e = epoch)
    {ps : List DeliveredPayload} (hreads : ∀ p ∈ ps, (read p).isSome)
    (hdistinct : (log.map Prod.snd ++
      (ps.filterMap read).map fun m => (m.senderId, m.messageId)).Nodup) :
    news (client.answers epoch c ps) = ps.filterMap read := by
  induction ps generalizing c log with
  | nil => rfl
  | cons p ps ih =>
      obtain ⟨m, hm⟩ := Option.isSome_iff_exists.mp (hreads p (List.mem_cons_self ..))
      have hmono : ∀ e, c.currentEpoch = some e → e ≤ (delivery epoch p).epoch := fun e he =>
        hcurrent e he ▸ UInt64.le_refl _
      obtain ⟨hanswer, htracks⟩ := h.accept hmono (read_eq_some.mp hm)
      rw [filterMap_read_cons, hm, Option.toList_some, List.map_append, List.map_singleton] at hdistinct
      have hfresh : (m.senderId, m.messageId) ∉ recentPairs log (delivery epoch p).epoch := fun hmem =>
        (List.nodup_append.mp hdistinct).2.2 _ (mem_of_mem_recentPairs hmem) _
          (List.mem_append_left _ (List.mem_singleton_self _)) rfl
      rw [if_neg hfresh] at hanswer
      have hpair : c.newPair (delivery epoch p) = [(epoch, m.senderId, m.messageId)] := by
        rw [newPair, hanswer]
        rfl
      rw [hpair] at htracks
      rw [news_answers, filterMap_read_cons, hm]
      refine congrArg₂ (· ++ ·) ?_ (ih htracks ?_ (fun q hq => hreads q (List.mem_cons_of_mem p hq)) ?_)
      · exact congrArg (fun a => news [a]) hanswer
      · intro e he
        exact (Option.some.inj ((c.receive_currentEpoch (delivery epoch p)).symm.trans he)).symm
      · rw [List.map_append, List.append_assoc]
        exact hdistinct

end GtpClient

/-- The text message of a send. -/
def ClientSend.text {ι S : Type} (members : ι → Member) (x : ClientSend ι S) : Option GtpMessage :=
  match x.op with
  | .text _ messageId text _ =>
    some (GtpMessage.plain (members x.sender).node.memberId messageId text)
  | _ => none

/-- The send is no text, or its length fits the length field. -/
def ClientSend.Fits {ι S : Type} (x : ClientSend ι S) : Prop :=
  ∀ target messageId text codec, x.op = .text target messageId text codec →
    text.utf8ByteSize < 2 ^ 32

/-- The three text codecs read back what they write. -/
structure TextCodecs [CborReader GtpMessage] [Prost GbpProto.GtpMessage]
    [PlanusBuilder GbpFlat.GtpMessage] [ReadAsRoot GbpFlat.GtpMessageRef] : Prop where
  cbor : CborReader.Lossless GtpMessage.entries
  proto : Prost.Lossless GbpProto.GtpMessage
  flat : ReadAsRoot.Lossless GbpFlat.GtpMessage.view

theorem length_byteArray_loop (bs : ByteArray) (i : ℕ) (read : Bytes) :
    (ByteArray.toList.loop bs i read).length = read.length + (bs.size - i) := by
  fun_induction ByteArray.toList.loop bs i read with
  | case1 i read hlt ih =>
      rw [ih, List.length_cons]
      omega
  | case2 i read hge =>
      rw [List.length_reverse]
      omega

theorem length_byteArray (bs : ByteArray) : bs.toList.length = bs.size := by
  rw [ByteArray.toList, length_byteArray_loop, List.length_nil]
  omega

theorem GtpMessage.plain_length {text : String} (h : text.utf8ByteSize < 2 ^ 32)
    (senderId : MemberId) (messageId : UInt64) :
    (plain senderId messageId text).contentLength.toNat =
      (plain senderId messageId text).content.length := by
  have hsize : text.toUTF8.toList.length = text.utf8ByteSize := length_byteArray text.toUTF8
  simp only [plain, hsize]
  exact UInt32.toNat_ofNat_of_lt' h

namespace Delivering

variable {ι : Type} [DecidableEq ι] [Ciborium] [CborReader GtpMessage]
  [Prost GbpProto.GtpMessage] [PlanusBuilder GbpFlat.GtpMessage] [ReadAsRoot GbpFlat.GtpMessageRef]
  [Codegen GapPayload] [Codegen GspSignal] {S : Type} [Sealer S]

omit [DecidableEq ι] [Sealer S] in
/-- The frame of a text carries the message that was sent. -/
theorem read_payloadOf (hcodecs : TextCodecs) {members : ι → Member} {x : ClientSend ι S}
    (hfits : x.Fits) (htext : x.op.stream = .text) {m : Member}
    (hid : m.node.memberId = (members x.sender).node.memberId) :
    GtpClient.read (payloadOf m x.op x.now) = x.text members := by
  obtain ⟨sender, provider, op, now⟩ := x
  cases op with
  | text target messageId text codec =>
      rw [ClientSend.text, ← hid]
      exact GtpClient.read_eq_some.mpr (GtpMessage.fromBytes_toBytes hcodecs.cbor hcodecs.proto
        hcodecs.flat (GtpMessage.plain_length (hfits target messageId text codec rfl) _ _) codec)
  | _ => cases htext

/-- The texts in the frames of a member are its texts, less those whose send failed. -/
theorem sent_texts (hcodecs : TextCodecs) (members : ι → Member) {xs : List (ClientSend ι S)}
    (hfits : ∀ x ∈ xs, x.Fits) (i : ι) :
    (((sent members xs).filter fun f => f.origin = (i, .text)).filterMap
        fun f => GtpClient.read f.payload).Sublist
      ((xs.filter fun x => x.sender = i).filterMap (ClientSend.text members)) := by
  refine (sent_reads (P := fun o => o = (i, .text)) fun x hx ho _ hid =>
    read_payloadOf hcodecs (hfits x hx) (congrArg Prod.snd ho) hid).trans ?_
  refine (List.monotone_filter_right xs fun x hx => ?_).filterMap _
  simpa using congrArg Prod.fst (of_decide_eq_true hx)

/-- A text frame carries a message under the identity of its sender. -/
theorem read_sent (hcodecs : TextCodecs) (members : ι → Member) {xs : List (ClientSend ι S)}
    (hfits : ∀ x ∈ xs, x.Fits) {f : SentFrame ι} (hf : f ∈ sent members xs)
    (htext : f.payload.streamType = .text) :
    ∃ m, GtpClient.read f.payload = some m ∧ m.senderId = (members f.sender).node.memberId := by
  obtain ⟨x, hx, hcarries⟩ := mem_sent hf
  have hstream : x.op.stream = .text := (congrArg Prod.snd hcarries.origin).symm.trans htext
  obtain ⟨hsender, m, hid, hpayload⟩ := hcarries
  rw [hpayload, read_payloadOf hcodecs (hfits x hx) hstream hid, hsender]
  obtain ⟨sender, provider, op, now⟩ := x
  cases op with
  | text target messageId text codec => exact ⟨_, rfl, rfl⟩
  | _ => cases hstream

/-- Among the texts in some frames, those under the identity of a member are those in its
frames. -/
theorem filter_texts (hcodecs : TextCodecs) {members : ι → Member}
    (hids : Function.Injective fun i => (members i).node.memberId) {xs : List (ClientSend ι S)}
    (hfits : ∀ x ∈ xs, x.Fits) {fs : List (SentFrame ι)} (hfs : ∀ f ∈ fs, f ∈ sent members xs)
    (i : ι) :
    ((GtpClient.client.mine (fs.map SentFrame.payload)).filterMap GtpClient.read).filter
        (fun m => m.senderId = (members i).node.memberId) =
      (fs.filter fun f => f.origin = (i, .text)).filterMap fun f => GtpClient.read f.payload := by
  refine filter_reads hids (fun f hf htext b hb => ?_) hfs i
  obtain ⟨m, hread, hsender⟩ := read_sent hcodecs members hfits hf htext
  obtain rfl := Option.some.inj (hb.symm.trans hread)
  exact hsender

variable {R : GroupNode} {members : ι → Member} {xs : List (ClientSend ι S)}
  {turns : List (Turn ι S)}

theorem OnNetwork.texts_eq (h : OnNetwork R members xs turns) (c : GtpClient) :
    GtpClient.client.replies R c turns = GtpClient.client.answers R.currentEpoch c
      (GtpClient.client.mine ((OnNetwork.delivered R turns).map SentFrame.payload)) := by
  rw [(GtpClient.client.serve_inbox h.listening c h.calm h.deliverable).1, h.inbox_eq]

/-- Texts from end to end, on any network. What a receiver's text client reports as new from a
member is a sublist of the texts that member sent: in the order of sending, each at most once, with
the content it was sent with, whatever was lost, repeated or reordered and whatever the client had
seen before. -/
theorem texts_in_order (h : OnNetwork R members xs turns) (hcodecs : TextCodecs)
    (hfits : ∀ x ∈ xs, x.Fits) (c : GtpClient) (i : ι) :
    ((GtpClient.news (GtpClient.client.replies R c turns)).filter fun m =>
        m.senderId = (members i).node.memberId).Sublist
      ((xs.filter fun x => x.sender = i).filterMap (ClientSend.text members)) := by
  rw [h.texts_eq c]
  refine ((GtpClient.news_sublist ..).filter _).trans ?_
  rw [filter_texts hcodecs h.ids hfits (fun _ => h.mem_delivered) i]
  exact ((h.delivered_sublist (i, .text)).filterMap _).trans (sent_texts hcodecs members hfits i)

/-- The texts delivered to a receiver differ in their sender or message id, when those sent do. -/
theorem OnNetwork.delivered_distinct (h : OnNetwork R members xs turns) (hcodecs : TextCodecs)
    (hfits : ∀ x ∈ xs, x.Fits)
    (hdistinct : ∀ i, (((xs.filter fun x => x.sender = i).filterMap
      (ClientSend.text members)).map GtpMessage.messageId).Nodup) :
    (((GtpClient.client.mine ((OnNetwork.delivered R turns).map SentFrame.payload)).filterMap
      GtpClient.read).map fun m => (m.senderId, m.messageId)).Nodup := by
  rw [List.Nodup, List.pairwise_map]
  refine List.Pairwise.imp (R := fun a b : GtpMessage => a.senderId = b.senderId → a.messageId ≠ b.messageId)
    (fun hne heq => hne (Prod.mk.inj heq).1 (Prod.mk.inj heq).2) ?_
  refine pairwise_of_streams fun s => ?_
  by_cases hs : ∃ i, (members i).node.memberId = s
  · obtain ⟨i, rfl⟩ := hs
    rw [filter_texts hcodecs h.ids hfits (fun _ => h.mem_delivered) i]
    exact (List.pairwise_map.mp (hdistinct i)).sublist
      (((h.delivered_sublist (i, .text)).filterMap _).trans (sent_texts hcodecs members hfits i))
  · -- every text is under the identity of some member
    rw [List.filter_eq_nil_iff.mpr]
    · exact List.Pairwise.nil
    · intro m hm heq
      obtain ⟨p, hp, hread⟩ := List.mem_filterMap.mp hm
      obtain ⟨hp, htext⟩ := List.mem_filter.mp hp
      obtain ⟨f, hf, rfl⟩ := List.mem_map.mp hp
      obtain ⟨m', hread', hsender⟩ := read_sent hcodecs members hfits (h.mem_delivered hf)
        (of_decide_eq_true htext)
      rw [hread] at hread'
      obtain rfl := Option.some.inj hread'
      exact hs ⟨f.sender, hsender.symm.trans (of_decide_eq_true heq)⟩

theorem OnNetwork.reads_delivered (h : OnNetwork R members xs turns) (hcodecs : TextCodecs)
    (hfits : ∀ x ∈ xs, x.Fits) :
    ∀ p ∈ GtpClient.client.mine ((OnNetwork.delivered R turns).map SentFrame.payload),
      (GtpClient.read p).isSome := by
  intro p hp
  obtain ⟨hp, htext⟩ := List.mem_filter.mp hp
  obtain ⟨f, hf, rfl⟩ := List.mem_map.mp hp
  obtain ⟨m, hread, -⟩ := read_sent hcodecs members hfits (h.mem_delivered hf)
    (of_decide_eq_true htext)
  exact Option.isSome_iff_exists.mpr ⟨m, hread⟩

/-- When no member uses a message id twice, a fresh text client reports the delivered texts. -/
theorem OnNetwork.news_eq (h : OnNetwork R members xs turns) (hcodecs : TextCodecs)
    (hfits : ∀ x ∈ xs, x.Fits)
    (hdistinct : ∀ i, (((xs.filter fun x => x.sender = i).filterMap
      (ClientSend.text members)).map GtpMessage.messageId).Nodup) (i : ι) :
    ((GtpClient.news (GtpClient.client.replies R GtpClient.new turns)).filter fun m =>
        m.senderId = (members i).node.memberId) =
      ((OnNetwork.delivered R turns).filter fun f => f.origin = (i, .text)).filterMap fun f =>
        GtpClient.read f.payload := by
  rw [h.texts_eq, GtpClient.news_eq GtpClient.tracks_new nofun (h.reads_delivered hcodecs hfits)
    (h.delivered_distinct hcodecs hfits hdistinct),
    filter_texts hcodecs h.ids hfits (fun _ => h.mem_delivered) i]

/-- Exactly once. When no frame is overtaken for good and no member uses a message id twice, a
fresh text client reports as new from a member exactly the texts of its frames that arrive, in the
order of sending, however often each of them arrives. -/
theorem texts_exactly_once (h : OnNetwork R members xs turns) (hcodecs : TextCodecs)
    (hfits : ∀ x ∈ xs, x.Fits)
    (hdistinct : ∀ i, (((xs.filter fun x => x.sender = i).filterMap
      (ClientSend.text members)).map GtpMessage.messageId).Nodup)
    (horder : Records.NoOvertaking SentFrame.key SentFrame.number (Turn.arrived turns)) (i : ι) :
    ((GtpClient.news (GtpClient.client.replies R GtpClient.new turns)).filter fun m =>
        m.senderId = (members i).node.memberId) =
      (((sent members xs).filter fun f => f.origin = (i, .text)).filter fun f =>
        f ∈ Turn.arrived turns).filterMap fun f => GtpClient.read f.payload := by
  rw [h.news_eq hcodecs hfits hdistinct, h.delivered_eq horder]

end Delivering

namespace Delivering

theorem onNetwork_mixed (positions : List ℕ) :
    OnNetwork (freshNode 3) twoSenders mixedSends (twoTurns mixedSends positions) :=
  onNetwork_two (by simp [mixedSends, SendOp.stream])
    (fun i st => by cases i <;> cases st <;> decide) (by decide +kernel) positions

theorem mixed_fits : ∀ x ∈ mixedSends, x.Fits := by
  intro x hx target messageId text codec hop
  simp only [mixedSends, List.mem_cons, List.not_mem_nil, or_false] at hx
  rcases hx with rfl | rfl | rfl
  · cases hop
    decide
  · cases hop
  · cases hop
    decide

theorem textCodecs : TextCodecs :=
  ⟨GtpMessage.cborLossless, GtpMessage.protoLossless, GtpMessage.flatLossless⟩

/-- The second text of member 1 overtakes the first one, which is then not delivered. -/
theorem texts_in_order_overtaken :
    GtpClient.news (GtpClient.client.replies (freshNode 3) GtpClient.new (twoTurns mixedSends [2, 0, 1, 2])) =
        [GtpMessage.plain 1 2 "b"] ∧
      ((GtpClient.news (GtpClient.client.replies (freshNode 3) GtpClient.new
        (twoTurns mixedSends [2, 0, 1, 2]))).filter fun m => m.senderId = 1).Sublist
        [GtpMessage.plain 1 1 "a", GtpMessage.plain 1 2 "b"] :=
  ⟨by decide +kernel, texts_in_order (onNetwork_mixed _) textCodecs mixed_fits GtpClient.new false⟩

/-- Both texts of member 1 are delivered once each, although the first one comes again late. -/
theorem texts_exactly_once_repeated :
    ((GtpClient.news (GtpClient.client.replies (freshNode 3) GtpClient.new
      (twoTurns mixedSends [0, 0, 1, 2, 0]))).filter fun m => m.senderId = 1) =
        [GtpMessage.plain 1 1 "a", GtpMessage.plain 1 2 "b"] := by
  have horder : Records.NoOvertaking SentFrame.key SentFrame.number
      (Turn.arrived (twoTurns mixedSends [0, 0, 1, 2, 0])) := by
    have hsplit : twoTurns mixedSends [0, 0, 1, 2, 0] = twoTurns mixedSends [0, 0, 1, 2] ++ twoTurns mixedSends [0] := by
      rw [twoTurns, twoTurns, twoTurns, ← List.flatMap_append]
      rfl
    rw [hsplit, Turn.arrived, List.flatMap_append]
    refine Records.NoOvertaking.repeated (Records.noOvertaking_of_pairwise ?_) ?_
    · decide +kernel
    · decide +kernel
  refine (texts_exactly_once (onNetwork_mixed _) textCodecs mixed_fits (fun i => ?_) horder
    false).trans ?_
  · cases i <;> decide +kernel
  · decide +kernel

end Delivering

end GroupProtocol
