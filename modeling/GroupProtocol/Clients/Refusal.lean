import GroupProtocol.Clients.Membership

/-!
# Refused signals

Every refusal of the signal client comes before its first state change: what is left of a
refused signal is the synchronised epoch. Later signals of that epoch see no difference, and a
signal that is accepted without the refused one before it is accepted with it.
-/

namespace GroupProtocol

theorem BoundedSeen.insert_fresh_fst {α : Type} [DecidableEq α] {b : BoundedSeen α} {item : α}
    (h : item ∉ b.set) : (b.insert item).1 = true := by
  rw [insert, if_neg h]
  dsimp only
  split
  · split <;> rfl
  · rfl

theorem BoundedSeen.insert_fst_iff {α : Type} [DecidableEq α] {b : BoundedSeen α} {item : α} :
    (b.insert item).1 = true ↔ item ∉ b.set := by
  refine ⟨fun hfresh hold => ?_, insert_fresh_fst⟩
  rw [insert_old hold] at hfresh
  cases hfresh

namespace GspClient

variable [CborReader GspSignal] [Prost GbpProto.GspSignal] [ReadAsRoot GbpFlat.GspSignalRef]
  [ItemReader]

omit [CborReader GspSignal] [Prost GbpProto.GspSignal] [ReadAsRoot GbpFlat.GspSignalRef]
  [ItemReader] in
@[simp] theorem syncEpoch_syncEpoch (c : GspClient) (epoch : UInt64) :
    (c.syncEpoch epoch).syncEpoch epoch = c.syncEpoch epoch :=
  syncEpoch_of_current (c.syncEpoch_currentEpoch epoch)

/-- A call sees no more of the client than its synchronised state. -/
theorem accept_syncEpoch (c : GspClient) (plaintext : Bytes) (epoch : UInt64)
    (codec : PayloadCodec) :
    (c.syncEpoch epoch).accept plaintext epoch codec = c.accept plaintext epoch codec := by
  rw [accept, accept, syncEpoch_syncEpoch]

/-- A refused signal leaves the client as synchronising its epoch does. -/
theorem accept_error {c : GspClient} {x : GspDelivery} {epoch : UInt64} {e : GspError}
    (h : (c.accept x.plaintext epoch x.codec).1 = .error e) :
    (c.accept x.plaintext epoch x.codec).2 = c.syncEpoch epoch := by
  rw [accept_eq] at h ⊢
  dsimp only at h ⊢
  cases hx : x.outcome with
  | error reason => rfl
  | ok a =>
      rw [hx] at h
      dsimp only at h ⊢
      by_cases hold : a.requestId ∈ (c.syncEpoch epoch).seenRequests.set
      · rw [BoundedSeen.insert_old hold]
        rfl
      · rw [BoundedSeen.insert_fresh_fst hold, if_pos rfl] at h
        cases h

/-- The answers to a list of deliveries in one epoch. -/
def answers (epoch : UInt64) (c : GspClient) (xs : List GspDelivery) :
    List (Except GspError GspAccept) :=
  Machine.observe (receive epoch) (fun c x => [(c.accept x.plaintext epoch x.codec).1]) c xs

/-- Synchronising before a list of deliveries changes neither the answers nor, up to the epoch,
the client after them. -/
theorem answers_syncEpoch (epoch : UInt64) (c : GspClient) (xs : List GspDelivery) :
    answers epoch (c.syncEpoch epoch) xs = answers epoch c xs ∧
      (Machine.run (receive epoch) (c.syncEpoch epoch) xs).syncEpoch epoch =
        (Machine.run (receive epoch) c xs).syncEpoch epoch := by
  cases xs with
  | nil => exact ⟨rfl, c.syncEpoch_syncEpoch epoch⟩
  | cons x xs =>
      have hreceive : (c.syncEpoch epoch).receive epoch x = c.receive epoch x := by
        rw [receive, receive, accept_syncEpoch]
      rw [answers, answers, Machine.observe_cons, Machine.observe_cons, accept_syncEpoch, hreceive,
        Machine.run_cons, Machine.run_cons, hreceive]
      exact ⟨rfl, rfl⟩

omit [CborReader GspSignal] [Prost GbpProto.GspSignal] [ReadAsRoot GbpFlat.GspSignalRef]
  [ItemReader] in
/-- Entering another epoch in between can only empty the deduplication set. -/
theorem syncEpoch_between {c : GspClient} {epoch later : UInt64} {rid : UInt32}
    (h : rid ∉ (c.syncEpoch later).seenRequests.set) :
    rid ∉ ((c.syncEpoch epoch).syncEpoch later).seenRequests.set := by
  by_cases hepoch : later = epoch
  · rwa [hepoch, syncEpoch_syncEpoch, ← hepoch]
  · have hother : some later ≠ (c.syncEpoch epoch).currentEpoch := by
      rw [syncEpoch_currentEpoch]
      exact fun heq => hepoch (Option.some.inj heq)
    rw [syncEpoch, if_pos hother]
    exact Finset.notMem_empty rid

omit [CborReader GspSignal] [Prost GbpProto.GspSignal] [ReadAsRoot GbpFlat.GspSignalRef]
  [ItemReader] in
/-- The effect of a signal depends on the member and mute lists alone. -/
theorem apply_congr {c d : GspClient} (hmembers : c.members = d.members)
    (hmuted : c.muted = d.muted) (signal : SignalType) (senderId : MemberId) :
    (c.apply signal senderId).members = (d.apply signal senderId).members ∧
      (c.apply signal senderId).muted = (d.apply signal senderId).muted := by
  constructor
  · ext s
    rw [mem_apply_members, mem_apply_members, hmembers]
  · rw [apply_muted, apply_muted, hmuted]

/-- A fresh well-formed signal is accepted and has its effect on the members. -/
theorem accept_fresh {x : GspDelivery} {a : GspAccept} (hx : x.outcome = .ok a) {c : GspClient}
    {epoch : UInt64} (hfresh : a.requestId ∉ (c.syncEpoch epoch).seenRequests.set) :
    (c.accept x.plaintext epoch x.codec).1 = .ok a ∧
      (c.receive epoch x).members = (c.apply a.signal a.senderId).members ∧
      (c.receive epoch x).muted = (c.apply a.signal a.senderId).muted := by
  rw [receive, accept_ok hx]
  dsimp only
  rw [BoundedSeen.insert_fresh_fst hfresh, if_pos rfl]
  refine ⟨rfl, apply_congr ?_ ?_ a.signal a.senderId⟩
  · exact c.syncEpoch_members epoch
  · exact c.syncEpoch_muted epoch

/-- An accepted signal is well formed and fresh. -/
theorem fresh_of_accept_ok {x : GspDelivery} {a : GspAccept} {c : GspClient} {epoch : UInt64}
    (h : (c.accept x.plaintext epoch x.codec).1 = .ok a) :
    x.outcome = .ok a ∧ a.requestId ∉ (c.syncEpoch epoch).seenRequests.set := by
  rw [accept_eq] at h
  dsimp only at h
  cases hx : x.outcome with
  | error e =>
      rw [hx] at h
      cases h
  | ok b =>
      rw [hx] at h
      dsimp only at h
      cases hnew : ((c.syncEpoch epoch).seenRequests.insert b.requestId).1 with
      | false =>
          rw [hnew, if_neg Bool.false_ne_true] at h
          cases h
      | true =>
          rw [hnew, if_pos rfl] at h
          cases h
          exact ⟨rfl, BoundedSeen.insert_fst_iff.mp hnew⟩

/-- A refused signal has no effect: the client is the one after `syncEpoch`, every later list of
signals of the epoch is answered as if it had never arrived, and so a later well-formed signal
whose request id was not used is accepted and applied; a signal of any later epoch that is
accepted without the refused one is accepted with it, to the same effect on the members. -/
theorem refused_signal_has_no_effect (c : GspClient) (epoch : UInt64) (x : GspDelivery)
    (e : GspError) (h : (c.accept x.plaintext epoch x.codec).1 = .error e) :
    c.receive epoch x = c.syncEpoch epoch ∧
    (∀ later : List GspDelivery,
      answers epoch (c.receive epoch x) later = answers epoch c later ∧
      (Machine.run (receive epoch) (c.receive epoch x) later).syncEpoch epoch =
        (Machine.run (receive epoch) c later).syncEpoch epoch) ∧
    (∀ (y : GspDelivery) (a : GspAccept), y.outcome = .ok a →
      a.requestId ∉ (c.syncEpoch epoch).seenRequests.set →
      ((c.receive epoch x).accept y.plaintext epoch y.codec).1 = .ok a ∧
      ((c.receive epoch x).receive epoch y).members = (c.apply a.signal a.senderId).members ∧
      ((c.receive epoch x).receive epoch y).muted = (c.apply a.signal a.senderId).muted) ∧
    ∀ (y : GspDelivery) (later : UInt64) (a : GspAccept),
      (c.accept y.plaintext later y.codec).1 = .ok a →
      ((c.receive epoch x).accept y.plaintext later y.codec).1 = .ok a ∧
      ((c.receive epoch x).receive later y).members = (c.receive later y).members ∧
      ((c.receive epoch x).receive later y).muted = (c.receive later y).muted := by
  have hstate : c.receive epoch x = c.syncEpoch epoch := accept_error h
  have heffect (signal : SignalType) (senderId : MemberId) :=
    apply_congr (c.syncEpoch_members epoch) (c.syncEpoch_muted epoch) signal senderId
  rw [hstate]
  refine ⟨rfl, fun later => answers_syncEpoch epoch c later, ?_, ?_⟩
  · intro y a hy hfresh
    have hstill : a.requestId ∉ ((c.syncEpoch epoch).syncEpoch epoch).seenRequests.set := by
      rwa [syncEpoch_syncEpoch]
    have hnew := accept_fresh hy hstill
    obtain ⟨hmembers, hmuted⟩ := heffect a.signal a.senderId
    rw [hmembers, hmuted] at hnew
    exact hnew
  · intro y later a hy
    obtain ⟨houtcome, hfresh⟩ := fresh_of_accept_ok hy
    obtain ⟨-, hwithout, hwithoutMuted⟩ := accept_fresh houtcome hfresh
    obtain ⟨hok, hwith, hwithMuted⟩ := accept_fresh houtcome (syncEpoch_between hfresh)
    obtain ⟨hmembers, hmuted⟩ := heffect a.signal a.senderId
    refine ⟨hok, ?_, ?_⟩
    · rw [hwith, hwithout, hmembers]
    · rw [hwithMuted, hwithoutMuted, hmuted]

end GspClient

/-- A MUTE without arguments is refused by its schema; a JOIN with the same request id is
accepted after it. -/
theorem refused_signal_has_no_effect_mute :
    let x : GspDelivery := ⟨(GspSignal.bare SignalType.mute.asU32 1 10).toCbor, .cbor⟩
    let y : GspDelivery := ⟨(GspSignal.bare SignalType.join.asU32 1 10).toCbor, .cbor⟩
    let c := GspClient.new.receive 5 x
    (GspClient.new.accept x.plaintext 5 x.codec).1 =
        .error (.badSchema "MUTE/UNMUTE: args must be a CBOR map") ∧
      (c.accept y.plaintext 5 y.codec).1 = .ok ⟨.join, 10, 0, 1⟩ ∧ 10 ∈ (c.receive 5 y).members := by
  intro x y c
  have hrefused : (GspClient.new.accept x.plaintext 5 x.codec).1 =
      .error (.badSchema "MUTE/UNMUTE: args must be a CBOR map") := by decide +kernel
  have h := GspClient.refused_signal_has_no_effect GspClient.new 5 x _ hrefused
  obtain ⟨hok, hmembers, -⟩ := h.2.2.1 y ⟨.join, 10, 0, 1⟩ (by decide +kernel) (by decide +kernel)
  refine ⟨hrefused, hok, ?_⟩
  rw [hmembers]
  decide +kernel

end GroupProtocol
