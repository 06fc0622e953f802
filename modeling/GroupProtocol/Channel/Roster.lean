import GroupProtocol.Channel.Order
import GroupProtocol.Clients.Membership

/-!
# Rosters from end to end

The signal client behind the receive loop. A signal changes the place of its own sender only, and
the signals of one sender are delivered in the order of sending, so a receiver's roster depends on
which signals it is handed and not on how those of different senders interleave.
-/

namespace GroupProtocol

/-- The place of a member on a roster. -/
structure Standing where
  member : Bool
  muted : Bool
  deriving DecidableEq, Repr

namespace Standing

theorem ext_iff {t u : Standing} :
    t = u ↔ (t.member = true ↔ u.member = true) ∧ (t.muted = true ↔ u.muted = true) := by
  obtain ⟨m, q⟩ := t
  obtain ⟨m', q'⟩ := u
  rw [mk.injEq]
  exact and_congr Bool.eq_iff_iff Bool.eq_iff_iff

/-- The place of a member after a signal of its own. -/
def after (t : Standing) : SignalType → Standing
  | .join => { t with member := true }
  | .leave => ⟨false, false⟩
  | .mute => { t with muted := true }
  | .unmute => { t with muted := false }
  | _ => t

/-- The newest of some signals that is of one of the given kinds. -/
def newest (kinds signals : List SignalType) : Option SignalType :=
  signals.reverse.find? fun x => kinds.contains x

theorem newest_concat (kinds signals : List SignalType) (x : SignalType) :
    newest kinds (signals ++ [x]) =
      if kinds.contains x = true then some x else newest kinds signals := by
  rw [newest, List.reverse_append, List.reverse_singleton, List.singleton_append, List.find?_cons]
  cases kinds.contains x <;> rfl

/-- Whether a member belongs to the group is decided by its newest JOIN or LEAVE. -/
theorem member_foldl (t : Standing) (signals : List SignalType) :
    (signals.foldl after t).member = true ↔
      newest [.join, .leave] signals = some .join ∨
        (newest [.join, .leave] signals = none ∧ t.member = true) := by
  induction signals using List.reverseRecOn with
  | nil => simp [newest]
  | append_singleton signals x ih =>
      rw [List.foldl_append, List.foldl_cons, List.foldl_nil, newest_concat]
      cases x with
      | join => simp [after]
      | leave => simp [after]
      | _ => exact ih

/-- Whether a member is muted is decided by its newest MUTE, UNMUTE or LEAVE. -/
theorem muted_foldl (t : Standing) (signals : List SignalType) :
    (signals.foldl after t).muted = true ↔
      newest [.mute, .unmute, .leave] signals = some .mute ∨
        (newest [.mute, .unmute, .leave] signals = none ∧ t.muted = true) := by
  induction signals using List.reverseRecOn with
  | nil => simp [newest]
  | append_singleton signals x ih =>
      rw [List.foldl_append, List.foldl_cons, List.foldl_nil, newest_concat]
      cases x with
      | mute => simp [after]
      | unmute => simp [after]
      | leave => simp [after]
      | _ => exact ih

end Standing

namespace BoundedSeen

variable {α : Type} [DecidableEq α] {b : BoundedSeen α} {item x : α}

theorem insert_fst (h : item ∉ b.set) : (b.insert item).1 = true := by
  rw [insert, if_neg h]
  dsimp only
  split
  · split <;> rfl
  · rfl

theorem mem_set_insert (h : x ∈ (b.insert item).2.set) : x = item ∨ x ∈ b.set := by
  rw [insert] at h
  split at h
  · exact .inr h
  · dsimp only at h
    split at h
    · split at h
      · exact Finset.mem_insert.mp (Finset.mem_of_mem_erase h)
      · exact Finset.mem_insert.mp h
    · exact Finset.mem_insert.mp h

end BoundedSeen

namespace GspClient

/-- The place of a member on the client's roster. -/
def standing (c : GspClient) (s : MemberId) : Standing := ⟨s ∈ c.members, s ∈ c.muted⟩

@[simp] theorem member_standing (c : GspClient) (s : MemberId) :
    (c.standing s).member = true ↔ s ∈ c.members := decide_eq_true_iff

@[simp] theorem muted_standing (c : GspClient) (s : MemberId) :
    (c.standing s).muted = true ↔ s ∈ c.muted := decide_eq_true_iff

theorem standing_apply (c : GspClient) (signal : SignalType) (senderId s : MemberId) :
    (c.apply signal senderId).standing s =
      if senderId = s then (c.standing s).after signal else c.standing s := by
  rw [Standing.ext_iff]
  by_cases h : senderId = s
  · subst h
    rw [if_pos rfl]
    cases signal <;> simp [apply, Standing.after]
  · have h' : s ≠ senderId := fun heq => h heq.symm
    rw [if_neg h]
    cases signal <;> simp [apply, h']

theorem standing_syncEpoch (c : GspClient) (epoch : UInt64) (s : MemberId) :
    (c.syncEpoch epoch).standing s = c.standing s := by
  rw [standing, syncEpoch_members, syncEpoch_muted, standing]

/-- The request ids the client would refuse in an epoch. -/
def refuses (c : GspClient) (epoch : UInt64) : Finset UInt32 := (c.syncEpoch epoch).seenRequests.set

/-- A client that enters an epoch refuses no request id in it. -/
theorem not_mem_refuses {c : GspClient} {epoch : UInt64} (hc : c.currentEpoch ≠ some epoch)
    (as : List GspAccept) : ∀ a ∈ as, a.requestId ∉ c.refuses epoch := by
  intro a _ hmem
  rw [refuses, syncEpoch, if_pos hc.symm] at hmem
  cases hmem

variable [CborReader GspSignal] [Prost GbpProto.GspSignal] [ReadAsRoot GbpFlat.GspSignalRef]
  [ItemReader]

/-- The signal client in the receive loop. -/
def client : Client GspClient (Except GspError GspAccept) where
  stream := .signal
  take c epoch p := c.accept p.plaintext epoch p.codec

/-- The signal in a payload, unless it is malformed. -/
def read (p : DeliveredPayload) : Option GspAccept :=
  (GspDelivery.mk p.plaintext p.codec).outcome.toOption

theorem read_eq_some {p : DeliveredPayload} {a : GspAccept} :
    read p = some a ↔ (GspDelivery.mk p.plaintext p.codec).outcome = .ok a := by
  rw [read]
  cases (GspDelivery.mk p.plaintext p.codec).outcome with
  | error e => exact ⟨nofun, nofun⟩
  | ok b => exact ⟨fun h => congrArg _ (Option.some.inj h), fun h => congrArg _ (Except.ok.inj h)⟩

/-- A malformed payload only synchronises the epoch. -/
theorem taking_none {p : DeliveredPayload} (hread : read p = none) (c : GspClient)
    (epoch : UInt64) : client.taking epoch c p = c.syncEpoch epoch := by
  have hshow : client.taking epoch c p = (c.accept p.plaintext epoch p.codec).2 := rfl
  rw [hshow, c.accept_eq epoch ⟨p.plaintext, p.codec⟩]
  rw [read] at hread
  cases h : (GspDelivery.mk p.plaintext p.codec).outcome with
  | error e => rfl
  | ok a =>
      rw [h] at hread
      cases hread

/-- A signal whose request id is new is applied to its sender. -/
theorem taking_some {p : DeliveredPayload} {a : GspAccept} (hread : read p = some a)
    {c : GspClient} {epoch : UInt64} (hnew : a.requestId ∉ c.refuses epoch) :
    client.taking epoch c p = GspClient.apply { c.syncEpoch epoch with
      seenRequests := ((c.syncEpoch epoch).seenRequests.insert a.requestId).2 }
        a.signal a.senderId := by
  have hshow : client.taking epoch c p = (c.accept p.plaintext epoch p.codec).2 := rfl
  rw [hshow, accept_ok (x := ⟨p.plaintext, p.codec⟩) (read_eq_some.mp hread)]
  dsimp only
  rw [if_pos (BoundedSeen.insert_fst hnew)]

/-- One payload changes the place of its sender, as far as it is well formed. -/
theorem standing_taking {c : GspClient} {epoch : UInt64} {p : DeliveredPayload}
    (hnew : ∀ a, read p = some a → a.requestId ∉ c.refuses epoch) (s : MemberId) :
    (client.taking epoch c p).standing s =
      (((read p).toList.filter fun a => a.senderId = s).map GspAccept.signal).foldl Standing.after
        (c.standing s) := by
  cases hread : read p with
  | none =>
      rw [taking_none hread, standing_syncEpoch]
      rfl
  | some a =>
      have hsync : (GspClient.mk ((c.syncEpoch epoch).seenRequests.insert a.requestId).2
          (c.syncEpoch epoch).muted (c.syncEpoch epoch).members
          (c.syncEpoch epoch).currentEpoch).standing s = c.standing s :=
        standing_syncEpoch c epoch s
      rw [taking_some hread (hnew a hread), standing_apply, hsync, Option.toList_some]
      by_cases hs : a.senderId = s
      · rw [if_pos hs, List.filter_cons_of_pos (by simpa using hs)]
        rfl
      · rw [if_neg hs, List.filter_cons_of_neg (by simpa using hs)]
        rfl

/-- One payload adds at most its own request id to those refused. -/
theorem mem_refuses_taking {c : GspClient} {epoch : UInt64} {p : DeliveredPayload} {r : UInt32}
    (hnew : ∀ a, read p = some a → a.requestId ∉ c.refuses epoch)
    (hr : r ∈ (client.taking epoch c p).refuses epoch) :
    r ∈ c.refuses epoch ∨ ∃ a, read p = some a ∧ a.requestId = r := by
  cases hread : read p with
  | none =>
      rw [taking_none hread, refuses, syncEpoch_of_current (c.syncEpoch_currentEpoch epoch)] at hr
      exact .inl hr
  | some a =>
      have hcurrent : (client.taking epoch c p).currentEpoch = some epoch := by
        rw [taking_some hread (hnew a hread), apply_currentEpoch]
        exact c.syncEpoch_currentEpoch epoch
      rw [refuses, syncEpoch_of_current hcurrent, taking_some hread (hnew a hread),
        apply_seenRequests] at hr
      rcases BoundedSeen.mem_set_insert hr with rfl | hr
      · exact .inr ⟨a, rfl, rfl⟩
      · exact .inl hr

/-- Payloads whose request ids are new and differ change the place of a member as its own signals
among them say. -/
theorem standing_after {c : GspClient} {epoch : UInt64} {ps : List DeliveredPayload}
    (hnew : ∀ a ∈ ps.filterMap read, a.requestId ∉ c.refuses epoch)
    (hdistinct : ((ps.filterMap read).map GspAccept.requestId).Nodup) (s : MemberId) :
    (client.after epoch c ps).standing s =
      (((ps.filterMap read).filter fun a => a.senderId = s).map GspAccept.signal).foldl
        Standing.after (c.standing s) := by
  induction ps generalizing c with
  | nil => rfl
  | cons p ps ih =>
      have hsplit : (p :: ps).filterMap read = (read p).toList ++ ps.filterMap read := by
        rw [List.filterMap_cons]
        cases read p <;> rfl
      rw [hsplit, List.map_append, List.nodup_append] at hdistinct
      have hp : ∀ a, read p = some a → a.requestId ∉ c.refuses epoch := fun a ha =>
        hnew a (hsplit ▸ List.mem_append_left _ (Option.mem_toList.mpr ha))
      have hnext : ∀ a ∈ ps.filterMap read,
          a.requestId ∉ (client.taking epoch c p).refuses epoch := by
        intro a ha hmem
        rcases mem_refuses_taking hp hmem with hold | ⟨b, hb, heq⟩
        · exact hnew a (hsplit ▸ List.mem_append_right _ ha) hold
        · refine hdistinct.2.2 _ (List.mem_map_of_mem (Option.mem_toList.mpr hb)) _
            (List.mem_map_of_mem ha) heq
      rw [Client.after, Machine.run_cons, ← Client.after, ih hnext hdistinct.2.1,
        standing_taking hp, hsplit, List.filter_append, List.map_append, List.foldl_append]

end GspClient

/-- The length of the arguments of a signal fits the length field. -/
def ClientSend.ArgsFit {ι S : Type} (x : ClientSend ι S) : Prop :=
  ∀ target signal roleClaim requestId args codec,
    x.op = .signal target signal roleClaim requestId args codec → args.length < 2 ^ 32

/-- What the signal of a send says, unless its arguments break the schema of the signal. -/
def ClientSend.signal {ι S : Type} [ItemReader] (members : ι → Member) (x : ClientSend ι S) :
    Option GspAccept :=
  match x.op with
  | .signal _ signal roleClaim requestId args _ =>
    match GspArgs.validateArgs signal args with
    | .ok _ => some ⟨signal, (members x.sender).node.memberId, roleClaim, requestId⟩
    | .error _ => none
  | _ => none

/-- The three signal codecs read back what they write. -/
structure SignalCodecs [CborReader GspSignal] [Prost GbpProto.GspSignal]
    [PlanusBuilder GbpFlat.GspSignal] [ReadAsRoot GbpFlat.GspSignalRef] : Prop where
  cbor : CborReader.Lossless GspSignal.entries
  proto : Prost.Lossless GbpProto.GspSignal
  flat : ReadAsRoot.Lossless GbpFlat.GspSignal.view

namespace Delivering

variable {ι : Type} [DecidableEq ι] [Ciborium] [CborReader GspSignal] [Prost GbpProto.GspSignal]
  [PlanusBuilder GbpFlat.GspSignal] [ReadAsRoot GbpFlat.GspSignalRef] [ItemReader]
  [Codegen GtpMessage] [Codegen GapPayload] {S : Type} [Sealer S]

omit [DecidableEq ι] [Sealer S] in
/-- The frame of a signal says what was sent. -/
theorem signal_payloadOf (hcodecs : SignalCodecs) (members : ι → Member) {x : ClientSend ι S}
    (hfits : x.ArgsFit) (hsignal : x.op.stream = .signal) {m : Member}
    (hid : m.node.memberId = (members x.sender).node.memberId) :
    GspClient.read (payloadOf m x.op x.now) = x.signal members := by
  obtain ⟨sender, provider, op, now⟩ := x
  cases op with
  | signal target signal roleClaim requestId args codec =>
      have hlen : (UInt32.ofNat args.length).toNat = args.length :=
        UInt32.toNat_ofNat_of_lt' (hfits target signal roleClaim requestId args codec rfl)
      have hbytes := GspSignal.fromBytes_toBytes hcodecs.cbor hcodecs.proto hcodecs.flat
        (s := ⟨signal.asU32, requestId, m.node.memberId, roleClaim, UInt32.ofNat args.length, args⟩)
        hlen codec
      have hkind : SignalType.tryFrom signal.asU32 = .ok signal := by cases signal <;> rfl
      have hplain : (payloadOf m (.signal target signal roleClaim requestId args codec) now).plaintext =
        (GspSignal.mk signal.asU32 requestId m.node.memberId roleClaim (UInt32.ofNat args.length)
          args).toBytes codec := rfl
      rw [GspClient.read, ClientSend.signal, GspDelivery.outcome, ← hid]
      simp only [hplain]
      rw [show (payloadOf m (.signal target signal roleClaim requestId args codec) now).codec = codec
        from rfl, hbytes]
      simp only [hkind]
      cases GspArgs.validateArgs signal args <;> rfl
  | _ => cases hsignal

/-- A signal frame speaks under the identity of its sender. -/
theorem senderId_sent (hcodecs : SignalCodecs) (members : ι → Member) {xs : List (ClientSend ι S)}
    (hfits : ∀ x ∈ xs, x.ArgsFit) {f : SentFrame ι} (hf : f ∈ sent members xs)
    (hsignal : f.payload.streamType = .signal) {a : GspAccept}
    (hread : GspClient.read f.payload = some a) :
    a.senderId = (members f.sender).node.memberId := by
  obtain ⟨x, hx, hcarries⟩ := mem_sent hf
  have hstream : x.op.stream = .signal := (congrArg Prod.snd hcarries.origin).symm.trans hsignal
  obtain ⟨hsender, m, hid, hpayload⟩ := hcarries
  rw [hpayload, signal_payloadOf hcodecs members (hfits x hx) hstream hid] at hread
  obtain ⟨sender, provider, op, now⟩ := x
  cases op with
  | signal target signal roleClaim requestId args codec =>
      rw [ClientSend.signal] at hread
      dsimp only at hread
      split at hread
      · rw [← Option.some.inj hread, hsender]
      · cases hread
  | _ => cases hstream

/-- The signals a member's frames among those delivered carry. -/
def signalsFrom (fs : List (SentFrame ι)) (i : ι) : List SignalType :=
  ((fs.filter fun f => f.origin = (i, .signal)).filterMap fun f => GspClient.read f.payload).map
    GspAccept.signal

/-- The signals a member's frames that arrive carry, in the order of sending. -/
def arrivedSignals (members : ι → Member) (xs : List (ClientSend ι S)) (turns : List (Turn ι S))
    (i : ι) : List SignalType :=
  signalsFrom ((sent members xs).filter fun f => f ∈ Turn.arrived turns) i

/-- The client of a receiver at the end of its turns. -/
def roster (R : GroupNode) (c : GspClient) (turns : List (Turn ι S)) : GspClient :=
  (Machine.run GspClient.client.serve (R, c) turns).2

namespace OnNetwork

variable {R : GroupNode} {members : ι → Member} {xs : List (ClientSend ι S)}
  {turns : List (Turn ι S)}

theorem roster_eq (h : OnNetwork R members xs turns) (c : GspClient) :
    roster R c turns =
      GspClient.client.after R.currentEpoch c
        (GspClient.client.mine ((delivered R turns).map SentFrame.payload)) := by
  rw [roster, (GspClient.client.serve_inbox h.listening c h.calm h.deliverable).2, h.inbox_eq]

/-- The signals handed to the client have different request ids, when those sent do. -/
theorem requestIds_nodup (h : OnNetwork R members xs turns) (hcodecs : SignalCodecs)
    (hfits : ∀ x ∈ xs, x.ArgsFit)
    (hdistinct : ((xs.filterMap (ClientSend.signal members)).map GspAccept.requestId).Nodup) :
    (((GspClient.client.mine ((delivered R turns).map SentFrame.payload)).filterMap
      GspClient.read).map GspAccept.requestId).Nodup := by
  have hsent := (sent_reads (P := fun o => o.2 = .signal) fun x hx ho _ hid =>
    signal_payloadOf hcodecs members (hfits x hx) ho hid).trans
      (List.filter_sublist.filterMap _)
  replace hsent := hdistinct.sublist (hsent.map GspAccept.requestId)
  rw [List.map_filterMap] at hsent
  have hdelivered := h.delivered_filterMap_nodup _ hsent
  rw [Client.mine, List.filter_map, List.filterMap_map, List.map_filterMap]
  exact hdelivered

/-- Whoever is not the sender of any frame keeps its place. -/
theorem standing_stranger (h : OnNetwork R members xs turns) (hcodecs : SignalCodecs)
    (hfits : ∀ x ∈ xs, x.ArgsFit)
    (hdistinct : ((xs.filterMap (ClientSend.signal members)).map GspAccept.requestId).Nodup)
    {c : GspClient} (hc : c.currentEpoch ≠ some R.currentEpoch) {s : MemberId}
    (hs : ∀ i, (members i).node.memberId ≠ s) :
    (roster R c turns).standing s = c.standing s := by
  rw [h.roster_eq, GspClient.standing_after (GspClient.not_mem_refuses hc _)
    (h.requestIds_nodup hcodecs hfits hdistinct), List.filter_eq_nil_iff.mpr]
  · rfl
  · intro a ha heq
    obtain ⟨p, hp, hread⟩ := List.mem_filterMap.mp ha
    obtain ⟨hp, hsignal⟩ := List.mem_filter.mp hp
    obtain ⟨f, hf, rfl⟩ := List.mem_map.mp hp
    have hsender := senderId_sent hcodecs members hfits (h.mem_delivered hf)
      (of_decide_eq_true hsignal) hread
    exact hs f.sender (hsender.symm.trans (of_decide_eq_true heq))

/-- The place of a member after the turns is decided by its own signals among those delivered. -/
theorem standing_eq (h : OnNetwork R members xs turns) (hcodecs : SignalCodecs)
    (hfits : ∀ x ∈ xs, x.ArgsFit)
    (hdistinct : ((xs.filterMap (ClientSend.signal members)).map GspAccept.requestId).Nodup)
    {c : GspClient} (hc : c.currentEpoch ≠ some R.currentEpoch) (i : ι) :
    (roster R c turns).standing (members i).node.memberId =
      (signalsFrom (delivered R turns) i).foldl Standing.after
        (c.standing (members i).node.memberId) := by
  rw [h.roster_eq, GspClient.standing_after (GspClient.not_mem_refuses hc _)
    (h.requestIds_nodup hcodecs hfits hdistinct)]
  have hown := filter_reads h.ids
    (fun f hf hsignal a hread => senderId_sent hcodecs members hfits hf hsignal hread)
    (fun f hf => h.mem_delivered hf) i
  rw [signalsFrom, ← hown]
  rfl

/-- Receivers that hand out the same signal payloads deliver the same signals of each member, in
the same order. -/
theorem signalsFrom_congr {R' : GroupNode} {turns' : List (Turn ι S)}
    (h : OnNetwork R members xs turns) (h' : OnNetwork R' members xs turns')
    (hsame : ∀ p : DeliveredPayload, p.streamType = .signal →
      (p ∈ R.inbox turns ↔ p ∈ R'.inbox turns')) (i : ι) :
    signalsFrom (delivered R turns) i = signalsFrom (delivered R' turns') i := by
  have hseries := h.series_ascends (i, .signal)
  have honly {Q : GroupNode} {us vs : List (Turn ι S)} {Q' : GroupNode}
      (hQ : OnNetwork Q members xs us) (hQ' : OnNetwork Q' members xs vs)
      (hsub : ∀ p : DeliveredPayload, p.streamType = .signal → p ∈ Q.inbox us → p ∈ Q'.inbox vs)
      (f : SentFrame ι) (hf : f ∈ (delivered Q us).filter fun f => f.origin = (i, .signal)) :
      f ∈ (delivered Q' vs).filter fun f => f.origin = (i, .signal) := by
    obtain ⟨hf, ho⟩ := List.mem_filter.mp hf
    have horigin : f.origin = (i, .signal) := of_decide_eq_true ho
    have hpayload : f.payload ∈ Q'.inbox vs := by
      refine hsub f.payload (congrArg Prod.snd horigin) ?_
      rw [hQ.inbox_eq]
      exact List.mem_map_of_mem hf
    rw [hQ'.inbox_eq] at hpayload
    obtain ⟨g, hg, heq⟩ := List.mem_map.mp hpayload
    -- the payload names the stream and the number, so it is the same frame
    have hkey : g.key = f.key := by rw [SentFrame.key, SentFrame.key, heq]
    have hgo : g.origin = (i, .signal) := by
      rw [← hQ'.key_eq_iff (hQ'.mem_delivered hg), hkey]
      exact (hQ.key_eq_iff (hQ.mem_delivered hf) _).mpr horigin
    have hgf : g = f := Records.eq_of_num_eq hseries
      (List.mem_filter.mpr ⟨hQ'.mem_delivered hg, decide_eq_true hgo⟩)
      (List.mem_filter.mpr ⟨hQ.mem_delivered hf, ho⟩)
      (by rw [SentFrame.number, SentFrame.number, heq])
    exact List.mem_filter.mpr ⟨hgf ▸ hg, ho⟩
  have : Std.Antisymm fun a b : SentFrame ι => a.number < b.number :=
    ⟨fun _ _ hab hba => absurd hab (Nat.lt_asymm hba)⟩
  have : Std.Irrefl fun a b : SentFrame ι => a.number < b.number :=
    ⟨fun a => Nat.lt_irrefl a.number⟩
  have heq : ((delivered R turns).filter fun f => f.origin = (i, .signal)) =
      (delivered R' turns').filter fun f => f.origin = (i, .signal) :=
    List.Pairwise.eq_of_mem_iff (hseries.sublist (h.delivered_sublist (i, .signal)))
      (hseries.sublist (h'.delivered_sublist (i, .signal))) fun f =>
        ⟨honly h h' (fun p hp => (hsame p hp).mp) f, honly h' h (fun p hp => (hsame p hp).mpr) f⟩
  rw [signalsFrom, heq, signalsFrom]

end OnNetwork

variable {R : GroupNode} {members : ι → Member} {xs : List (ClientSend ι S)}
  {turns : List (Turn ι S)}

/-- A roster from end to end. When no frame is overtaken for good and the well-formed signals have
different request ids, a member belongs to the roster of a receiver exactly when its newest JOIN
or LEAVE that arrives is a JOIN, and is muted exactly when its newest MUTE, UNMUTE or LEAVE that
arrives is a MUTE; where none arrives, its place is what it was when the epoch began. -/
theorem roster_newest (h : OnNetwork R members xs turns) (hcodecs : SignalCodecs)
    (hfits : ∀ x ∈ xs, x.ArgsFit)
    (hdistinct : ((xs.filterMap (ClientSend.signal members)).map GspAccept.requestId).Nodup)
    (horder : Records.NoOvertaking SentFrame.key SentFrame.number (Turn.arrived turns))
    {c : GspClient} (hc : c.currentEpoch ≠ some R.currentEpoch) (i : ι) :
    ((members i).node.memberId ∈ (roster R c turns).members ↔
        Standing.newest [.join, .leave] (arrivedSignals members xs turns i) = some .join ∨
          (Standing.newest [.join, .leave] (arrivedSignals members xs turns i) = none ∧
            (members i).node.memberId ∈ c.members)) ∧
      ((members i).node.memberId ∈ (roster R c turns).muted ↔
        Standing.newest [.mute, .unmute, .leave] (arrivedSignals members xs turns i) =
            some .mute ∨
          (Standing.newest [.mute, .unmute, .leave] (arrivedSignals members xs turns i) = none ∧
            (members i).node.memberId ∈ c.muted)) := by
  have hown : signalsFrom (OnNetwork.delivered R turns) i = arrivedSignals members xs turns i := by
    rw [signalsFrom, h.delivered_eq horder, List.filter_comm]
    rfl
  have hstanding := h.standing_eq hcodecs hfits hdistinct hc i
  rw [hown] at hstanding
  constructor
  · rw [← GspClient.member_standing, ← GspClient.member_standing c, hstanding]
    exact Standing.member_foldl ..
  · rw [← GspClient.muted_standing, ← GspClient.muted_standing c, hstanding]
    exact Standing.muted_foldl ..

/-- Rosters converge. Two receivers that begin an epoch with one roster and are handed the same
signal payloads end with one roster, on whatever networks, however the signals of different
members interleave. -/
theorem rosters_agree {R' : GroupNode} {turns' : List (Turn ι S)}
    (h : OnNetwork R members xs turns) (h' : OnNetwork R' members xs turns')
    (hcodecs : SignalCodecs) (hfits : ∀ x ∈ xs, x.ArgsFit)
    (hdistinct : ((xs.filterMap (ClientSend.signal members)).map GspAccept.requestId).Nodup)
    (hsame : ∀ p : DeliveredPayload, p.streamType = .signal →
      (p ∈ R.inbox turns ↔ p ∈ R'.inbox turns'))
    {c c' : GspClient} (hc : c.currentEpoch ≠ some R.currentEpoch)
    (hc' : c'.currentEpoch ≠ some R'.currentEpoch)
    (hstart : c.members = c'.members ∧ c.muted = c'.muted) :
    (roster R c turns).members = (roster R' c' turns').members ∧
      (roster R c turns).muted = (roster R' c' turns').muted := by
  have hbegin (s : MemberId) : c.standing s = c'.standing s := by
    rw [GspClient.standing, hstart.1, hstart.2, GspClient.standing]
  have hend (s : MemberId) :
      (roster R c turns).standing s = (roster R' c' turns').standing s := by
    by_cases hs : ∃ i, (members i).node.memberId = s
    · obtain ⟨i, rfl⟩ := hs
      rw [h.standing_eq hcodecs hfits hdistinct hc i, h'.standing_eq hcodecs hfits hdistinct hc' i,
        h.signalsFrom_congr h' hsame, hbegin]
    · have hs' : ∀ i, (members i).node.memberId ≠ s := fun i hi => hs ⟨i, hi⟩
      rw [h.standing_stranger hcodecs hfits hdistinct hc hs',
        h'.standing_stranger hcodecs hfits hdistinct hc' hs', hbegin]
  constructor
  · ext s
    rw [← GspClient.member_standing, hend, GspClient.member_standing]
  · ext s
    rw [← GspClient.muted_standing, hend, GspClient.muted_standing]

end Delivering

namespace Delivering

/-- Two members join; the first mutes itself and the second leaves. -/
def signalSends : List (ClientSend Bool PlainSealer) :=
  [⟨false, .plain, .signal 0 .join 0 1 [] .cbor, 0⟩,
    ⟨true, .plain, .signal 0 .join 0 2 [] .protobuf, 0⟩,
    ⟨false, .plain, .signal 0 .mute 0 3 (Cbor.encodeMap [(.uint 0, .uint 1)]) .cbor, 0⟩,
    ⟨true, .plain, .signal 0 .leave 0 4 [] .flatBuffers, 0⟩]

theorem onNetwork_signals (positions : List ℕ) :
    OnNetwork (freshNode 3) twoSenders signalSends (twoTurns signalSends positions) :=
  onNetwork_two (by simp [signalSends, SendOp.stream])
    (fun i st => by cases i <;> cases st <;> decide) (by decide +kernel) positions

theorem signals_fit : ∀ x ∈ signalSends, x.ArgsFit := by
  intro x hx target signal roleClaim requestId args codec hop
  simp only [signalSends, List.mem_cons, List.not_mem_nil, or_false] at hx
  rcases hx with rfl | rfl | rfl | rfl <;> cases hop <;> decide

theorem signalCodecs : SignalCodecs :=
  ⟨GspSignal.cborLossless, GspSignal.protoLossless, GspSignal.flatLossless⟩

/-- The MUTE of member 1 arrives and is repeated late: it is on the roster, and muted. -/
theorem roster_newest_muted :
    1 ∈ (roster (freshNode 3) GspClient.new (twoTurns signalSends [0, 1, 2, 0])).members ∧
      1 ∈ (roster (freshNode 3) GspClient.new (twoTurns signalSends [0, 1, 2, 0])).muted := by
  have horder : Records.NoOvertaking SentFrame.key SentFrame.number
      (Turn.arrived (twoTurns signalSends [0, 1, 2, 0])) := by
    have hsplit : twoTurns signalSends [0, 1, 2, 0] =
        twoTurns signalSends [0, 1, 2] ++ twoTurns signalSends [0] := by
      rw [twoTurns, twoTurns, twoTurns, ← List.flatMap_append]
      rfl
    rw [hsplit, Turn.arrived, List.flatMap_append]
    refine Records.NoOvertaking.repeated (Records.noOvertaking_of_pairwise ?_) ?_
    · decide +kernel
    · decide +kernel
  obtain ⟨hmember, hmuted⟩ := roster_newest (onNetwork_signals _) signalCodecs signals_fit
    (by decide +kernel) horder (c := GspClient.new) nofun false
  have hid : (twoSenders false).node.memberId = 1 := rfl
  rw [hid] at hmember hmuted
  have hjoin : Standing.newest [.join, .leave]
      (arrivedSignals twoSenders signalSends (twoTurns signalSends [0, 1, 2, 0]) false) =
        some .join := by
    decide +kernel
  have hmute : Standing.newest [.mute, .unmute, .leave]
      (arrivedSignals twoSenders signalSends (twoTurns signalSends [0, 1, 2, 0]) false) =
        some .mute := by
    decide +kernel
  constructor
  · rw [hmember]
    exact Or.inl hjoin
  · rw [hmuted]
    exact Or.inl hmute

/-- Two orders of the four signals leave one roster. -/
theorem rosters_agree_two :
    (roster (freshNode 3) GspClient.new (twoTurns signalSends [0, 1, 2, 3])).members =
        (roster (freshNode 3) GspClient.new (twoTurns signalSends [1, 3, 1, 0, 2])).members ∧
      (roster (freshNode 3) GspClient.new (twoTurns signalSends [0, 1, 2, 3])).muted =
        (roster (freshNode 3) GspClient.new (twoTurns signalSends [1, 3, 1, 0, 2])).muted := by
  have hperm : ((freshNode 3).inbox (twoTurns signalSends [0, 1, 2, 3])).Perm
      ((freshNode 3).inbox (twoTurns signalSends [1, 3, 1, 0, 2])) := by
    decide +kernel
  exact rosters_agree (onNetwork_signals _) (onNetwork_signals _) signalCodecs signals_fit
    (by decide +kernel) (fun p _ => hperm.mem_iff) nofun nofun ⟨rfl, rfl⟩

end Delivering

end GroupProtocol
