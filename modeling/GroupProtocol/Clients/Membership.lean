import GroupProtocol.Clients.Receiving

/-!
# Signals over whole sequences

The signal client keeps one set of request ids for all senders and applies every effect to the
sender of a signal. For a sender this is the same as being alone exactly while nobody else has
used its request ids before, and the mute list follows the targets of the signals exactly while
it does not matter whether a signal acts on its sender or on its target.
-/

namespace GroupProtocol

/-- One call of the signal client's `accept` in a given epoch. -/
structure GspDelivery where
  plaintext : Bytes
  codec : PayloadCodec
  deriving DecidableEq, Repr

namespace GspClient

@[simp] theorem syncEpoch_currentEpoch (c : GspClient) (epoch : UInt64) :
    (c.syncEpoch epoch).currentEpoch = some epoch := by
  rw [syncEpoch]
  by_cases h : some epoch = c.currentEpoch
  · rw [if_neg (not_not_intro h), h]
  · rw [if_pos h]

theorem syncEpoch_of_current {c : GspClient} {epoch : UInt64} (h : c.currentEpoch = some epoch) :
    c.syncEpoch epoch = c := by
  rw [syncEpoch, if_neg (not_not_intro h.symm)]

@[simp] theorem syncEpoch_members (c : GspClient) (epoch : UInt64) :
    (c.syncEpoch epoch).members = c.members := by
  rw [syncEpoch]
  split <;> rfl

@[simp] theorem syncEpoch_muted (c : GspClient) (epoch : UInt64) :
    (c.syncEpoch epoch).muted = c.muted := by
  rw [syncEpoch]
  split <;> rfl

/-- Whether a member belongs to the group after a signal of its own. -/
def memberAfter (signal : SignalType) (before : Prop) : Prop :=
  match signal with
  | .join => True
  | .leave => False
  | _ => before

theorem mem_apply_members (c : GspClient) (signal : SignalType) (senderId s : MemberId) :
    s ∈ (c.apply signal senderId).members ↔
      if senderId = s then memberAfter signal (s ∈ c.members) else s ∈ c.members := by
  by_cases h : senderId = s
  · subst h
    rw [if_pos rfl]
    cases signal <;> simp [apply, memberAfter]
  · have h' : s ≠ senderId := fun heq => h heq.symm
    rw [if_neg h]
    cases signal <;> simp [apply, h']

/-- The mute list after a signal. -/
def mutedAfter (signal : SignalType) (senderId : MemberId) (muted : Finset MemberId) :
    Finset MemberId :=
  match signal with
  | .leave | .unmute => muted.erase senderId
  | .mute => insert senderId muted
  | _ => muted

theorem apply_muted (c : GspClient) (signal : SignalType) (senderId : MemberId) :
    (c.apply signal senderId).muted = mutedAfter signal senderId c.muted := by
  cases signal <;> rfl

@[simp] theorem apply_seenRequests (c : GspClient) (signal : SignalType) (senderId : MemberId) :
    (c.apply signal senderId).seenRequests = c.seenRequests := by
  cases signal <;> rfl

@[simp] theorem apply_currentEpoch (c : GspClient) (signal : SignalType) (senderId : MemberId) :
    (c.apply signal senderId).currentEpoch = c.currentEpoch := by
  cases signal <;> rfl

/-- In the epoch the client has seen exactly the request ids listed, and none has been evicted. -/
structure Seen (epoch : UInt64) (c : GspClient) (rids : List UInt32) : Prop where
  inStep : (c.syncEpoch epoch).seenRequests.InStep
  cap : (c.syncEpoch epoch).seenRequests.cap = 10000
  mem : ∀ r, r ∈ (c.syncEpoch epoch).seenRequests.order ↔ r ∈ rids
  length : (c.syncEpoch epoch).seenRequests.order.length ≤ rids.length

theorem Seen.of_current {c : GspClient} {epoch : UInt64} {rids : List UInt32}
    (hepoch : c.currentEpoch = some epoch) (hstep : c.seenRequests.InStep)
    (hcap : c.seenRequests.cap = 10000) (hmem : ∀ r, r ∈ c.seenRequests.order ↔ r ∈ rids)
    (hlen : c.seenRequests.order.length ≤ rids.length) : c.Seen epoch rids := by
  have hsync := syncEpoch_of_current hepoch
  refine ⟨?_, ?_, ?_, ?_⟩ <;> rw [hsync] <;> assumption

/-- A client that enters an epoch has seen nothing in it. -/
theorem seen_nil {c : GspClient} {epoch : UInt64} (hepoch : c.currentEpoch ≠ some epoch)
    (hcap : c.seenRequests.cap = 10000) : c.Seen epoch [] := by
  have hclear : (c.syncEpoch epoch).seenRequests = c.seenRequests.clear := by
    rw [syncEpoch, if_pos hepoch.symm]
  refine ⟨?_, ?_, ?_, ?_⟩
  · rw [hclear]
    exact ⟨rfl, List.nodup_nil, Nat.zero_le _⟩
  · rw [hclear]
    exact hcap
  · intro r
    rw [hclear]
    exact Iff.rfl
  · rw [hclear]
    exact Nat.le_refl 0

end GspClient

theorem forall_mem_insert_iff {α : Type} [DecidableEq α] {M : Finset α} {a t : α} :
    (∀ m, m ∈ insert a M ↔ m = t ∨ m ∈ M) ↔ a = t ∨ (a ∈ M ∧ t ∈ M) := by
  constructor
  · intro h
    have ha := (h a).mp (Finset.mem_insert_self a M)
    have ht := (h t).mpr (.inl rfl)
    rw [Finset.mem_insert] at ht
    grind
  · rintro (rfl | ⟨ha, ht⟩) m
    · exact Finset.mem_insert
    · rw [Finset.insert_eq_of_mem ha]
      grind

theorem forall_mem_erase_iff {α : Type} [DecidableEq α] {M : Finset α} {a t : α} :
    (∀ m, m ∈ M.erase a ↔ m ≠ t ∧ m ∈ M) ↔ a = t ∨ (a ∉ M ∧ t ∉ M) := by
  constructor
  · intro h
    have ha := h a
    have ht := h t
    rw [Finset.mem_erase] at ha ht
    grind
  · rintro (rfl | ⟨ha, ht⟩) m
    · exact Finset.mem_erase
    · rw [Finset.erase_eq_of_notMem ha]
      grind

/-- A flat item. -/
def CborItem.ofValue : Cbor.Value → CborItem
  | .uint n => .integer n.toNat
  | _ => .other

section

variable [CborReader GspSignal] [Prost GbpProto.GspSignal] [ReadAsRoot GbpFlat.GspSignalRef]
  [ItemReader]

namespace GspDelivery

/-- The answer to a delivery whose request id has not been seen. -/
def outcome (x : GspDelivery) : Except GspError GspAccept :=
  match GspSignal.fromBytes x.plaintext x.codec with
  | .error e => .error (.decode e)
  | .ok s =>
    match SignalType.tryFrom s.signalType with
    | .error other => .error (.unknownSignal other)
    | .ok signal =>
      match GspArgs.validateArgs signal s.args with
      | .error reason => .error (.badSchema reason)
      | .ok () => .ok ⟨signal, s.senderId, s.roleClaim, s.requestId⟩

/-- The delivery decodes, names a known signal and carries arguments of its schema. -/
def WellFormed (x : GspDelivery) : Prop := x.outcome.isOk = true

instance (x : GspDelivery) : Decidable x.WellFormed :=
  inferInstanceAs (Decidable (x.outcome.isOk = true))

theorem WellFormed.outcome {x : GspDelivery} (h : x.WellFormed) : ∃ a, x.outcome = .ok a := by
  rw [WellFormed] at h
  cases hx : x.outcome with
  | error e => rw [hx] at h; cases h
  | ok a => exact ⟨a, rfl⟩

/-- Whether the sender of a delivery belongs to the group after it. -/
def memberAfter (x : GspDelivery) (before : Prop) : Prop :=
  match x.outcome with
  | .ok a => GspClient.memberAfter a.signal before
  | .error _ => before

/-- The delivery is well formed and comes from a member. -/
def isFrom (s : MemberId) (x : GspDelivery) : Bool :=
  x.outcome.toOption.any fun a => a.senderId == s

/-- The request id of a well-formed delivery. -/
def requestId (x : GspDelivery) : Option UInt32 := x.outcome.toOption.map (·.requestId)

/-- The sender of a well-formed delivery. -/
def sender (x : GspDelivery) : Option MemberId := x.outcome.toOption.map (·.senderId)

theorem sender_of_isFrom {s : MemberId} {x : GspDelivery} (h : x.isFrom s = true) :
    x.sender = some s := by
  rw [isFrom, Option.any_eq_true] at h
  obtain ⟨a, ha, heq⟩ := h
  rw [sender, ha, Option.map_some, eq_of_beq heq]

end GspDelivery

namespace GspClient

/-- The client after a delivery. -/
def receive (epoch : UInt64) (c : GspClient) (x : GspDelivery) : GspClient :=
  (c.accept x.plaintext epoch x.codec).2

/-- The answers to the deliveries of one sender. -/
def resultsOf (s : MemberId) (epoch : UInt64) (c : GspClient) (xs : List GspDelivery) :
    List (Except GspError GspAccept) :=
  Machine.observe (receive epoch)
    (fun c x => if x.isFrom s then [(c.accept x.plaintext epoch x.codec).1] else []) c xs

theorem resultsOf_cons (s : MemberId) (epoch : UInt64) (c : GspClient) (x : GspDelivery)
    (xs : List GspDelivery) :
    resultsOf s epoch c (x :: xs) =
      (if x.isFrom s then [(c.accept x.plaintext epoch x.codec).1] else []) ++
        resultsOf s epoch (c.receive epoch x) xs := rfl

/-- A delivery that is not well formed only synchronises the epoch; a well-formed one is
screened by its request id and then applies its effect. -/
theorem accept_eq (c : GspClient) (epoch : UInt64) (x : GspDelivery) :
    c.accept x.plaintext epoch x.codec =
      let c := c.syncEpoch epoch
      match x.outcome with
      | .error e => (.error e, c)
      | .ok a =>
        let seen := c.seenRequests.insert a.requestId
        let c := { c with seenRequests := seen.2 }
        if seen.1 then (.ok a, c.apply a.signal a.senderId)
        else (.error (.duplicateRequest a.requestId), c) := by
  rw [accept, GspDelivery.outcome]
  cases GspSignal.fromBytes x.plaintext x.codec with
  | error e => rfl
  | ok s =>
      dsimp only
      cases SignalType.tryFrom s.signalType with
      | error other => rfl
      | ok signal =>
          dsimp only
          cases GspArgs.validateArgs signal s.args with
          | error reason => rfl
          | ok u => rfl

theorem accept_ok {x : GspDelivery} {a : GspAccept} (hx : x.outcome = .ok a) (c : GspClient)
    (epoch : UInt64) :
    c.accept x.plaintext epoch x.codec =
      let c := c.syncEpoch epoch
      let seen := c.seenRequests.insert a.requestId
      let c := { c with seenRequests := seen.2 }
      if seen.1 then (.ok a, c.apply a.signal a.senderId)
      else (.error (.duplicateRequest a.requestId), c) := by
  rw [accept_eq, hx]

/-- A well-formed delivery is answered by its outcome unless its request id was seen, and its
request id is seen from then on. -/
theorem Seen.receive {c : GspClient} {epoch : UInt64} {rids : List UInt32} (h : c.Seen epoch rids)
    (hlen : rids.length < 10000) {x : GspDelivery} {a : GspAccept} (hx : x.outcome = .ok a) :
    (c.accept x.plaintext epoch x.codec).1 =
        (if a.requestId ∈ rids then .error (.duplicateRequest a.requestId) else .ok a) ∧
      (c.receive epoch x).Seen epoch (rids ++ [a.requestId]) := by
  rw [GspClient.receive, accept_ok hx]
  dsimp only
  by_cases hold : a.requestId ∈ rids
  · have hset : a.requestId ∈ (c.syncEpoch epoch).seenRequests.set :=
      h.inStep.mem_set.mpr ((h.mem _).mpr hold)
    rw [BoundedSeen.insert_old hset, if_neg Bool.false_ne_true, if_pos hold]
    refine ⟨rfl, Seen.of_current (c.syncEpoch_currentEpoch epoch) h.inStep h.cap ?_ ?_⟩
    · intro r
      rw [h.mem, List.mem_append, List.mem_singleton]
      exact ⟨Or.inl, fun hr => hr.elim id fun heq => heq ▸ hold⟩
    · rw [List.length_append]
      exact Nat.le_add_right_of_le h.length
  · have hset : a.requestId ∉ (c.syncEpoch epoch).seenRequests.set := fun hin =>
      hold ((h.mem _).mp (h.inStep.mem_set.mp hin))
    obtain ⟨seen, hinsert, hstep, hwindow, hcap⟩ := h.inStep.insert_new hset
    -- fewer than ten thousand ids are listed, so nothing is evicted
    have hroom : ((c.syncEpoch epoch).seenRequests.order ++ [a.requestId]).length ≤ 10000 := by
      have := h.length
      rw [List.length_append, List.length_singleton]
      omega
    have horder : seen.order = (c.syncEpoch epoch).seenRequests.order ++ [a.requestId] := by
      rw [hwindow, h.cap, List.rtake, Nat.sub_eq_zero_of_le hroom, List.drop_zero]
    rw [hinsert, if_pos rfl, if_neg hold]
    refine ⟨rfl, Seen.of_current ?_ ?_ ?_ ?_ ?_⟩
    · rw [apply_currentEpoch]
      exact c.syncEpoch_currentEpoch epoch
    · rw [apply_seenRequests]
      exact hstep
    · rw [apply_seenRequests]
      exact hcap.trans h.cap
    · intro r
      rw [apply_seenRequests, horder, List.mem_append, List.mem_append, h.mem]
    · rw [apply_seenRequests, horder, List.length_append, List.length_append]
      exact Nat.add_le_add_right h.length _

/-- All of a sender's signals get their outcome exactly when none of them repeats a request id
that was used before, by whomever. -/
theorem resultsOf_eq_outcomes_iff {s : MemberId} {epoch : UInt64} {c : GspClient}
    {rids : List UInt32} {xs : List GspDelivery} (h : c.Seen epoch rids)
    (hlen : rids.length + xs.length ≤ 10000) (hwf : ∀ x ∈ xs, x.WellFormed) :
    resultsOf s epoch c xs = (xs.filter (·.isFrom s)).map GspDelivery.outcome ↔
      (xs.Pairwise fun y x => x.isFrom s = true → y.requestId ≠ x.requestId) ∧
        ∀ x ∈ xs, x.isFrom s = true → ∀ r ∈ rids, x.requestId ≠ some r := by
  induction xs generalizing c rids with
  | nil => simp [resultsOf]
  | cons x xs ih =>
      obtain ⟨a, ha⟩ := (hwf x (List.mem_cons_self ..)).outcome
      rw [List.length_cons] at hlen
      obtain ⟨hanswer, hnext⟩ := h.receive (by omega) ha
      have hrid : x.requestId = some a.requestId := by rw [GspDelivery.requestId, ha]; rfl
      have hrest := ih hnext (by rw [List.length_append, List.length_singleton]; omega)
        fun y hy => hwf y (List.mem_cons_of_mem x hy)
      have hlater : (∀ y ∈ xs, y.isFrom s = true → ∀ r ∈ rids ++ [a.requestId],
          y.requestId ≠ some r) ↔
          (∀ y ∈ xs, y.isFrom s = true → x.requestId ≠ y.requestId) ∧
            ∀ y ∈ xs, y.isFrom s = true → ∀ r ∈ rids, y.requestId ≠ some r := by
        rw [hrid]
        grind
      rw [resultsOf_cons, List.pairwise_cons, List.forall_mem_cons]
      cases hfrom : x.isFrom s with
      | false =>
          rw [if_neg Bool.false_ne_true, List.nil_append,
            List.filter_cons_of_neg (by rw [hfrom]; exact Bool.false_ne_true), hrest, hlater]
          simp only [Bool.false_eq_true, false_implies, true_and]
          rw [and_assoc]
          exact and_left_comm
      | true =>
          rw [if_pos rfl, List.singleton_append, List.filter_cons_of_pos hfrom, List.map_cons,
            List.cons_eq_cons, hrest, hlater, hanswer, ha, hrid]
          have hhead : (if a.requestId ∈ rids then
              (.error (.duplicateRequest a.requestId) : Except GspError GspAccept) else .ok a) =
                .ok a ↔ ∀ r ∈ rids, some a.requestId ≠ some r := by
            by_cases hin : a.requestId ∈ rids
            · rw [if_pos hin]
              exact iff_of_false (by intro he; cases he) fun hall => hall _ hin rfl
            · rw [if_neg hin]
              refine iff_of_true rfl fun r hr heq => hin ?_
              rw [Option.some.inj heq]
              exact hr
          rw [hhead]
          constructor
          · rintro ⟨hfirst, hpairs, hheads, htails⟩
            exact ⟨⟨hheads, hpairs⟩, fun _ => hfirst, htails⟩
          · rintro ⟨⟨hheads, hpairs⟩, hfirst, htails⟩
            exact ⟨hfirst rfl, hpairs, hheads, htails⟩

/-- A signal of somebody else does not touch a member. -/
theorem mem_receive_of_other {s : MemberId} {x : GspDelivery} (hwf : x.WellFormed)
    (hx : x.isFrom s = false) (c : GspClient) (epoch : UInt64) :
    s ∈ (c.receive epoch x).members ↔ s ∈ c.members := by
  obtain ⟨a, ha⟩ := hwf.outcome
  have hne : a.senderId ≠ s := by
    rintro rfl
    simp [GspDelivery.isFrom, ha, Except.toOption] at hx
  rw [receive, accept_ok ha]
  dsimp only
  by_cases hfresh : ((c.syncEpoch epoch).seenRequests.insert a.requestId).1 = true
  · rw [if_pos hfresh, mem_apply_members, if_neg hne]
    dsimp only
    rw [syncEpoch_members]
  · rw [if_neg hfresh]
    dsimp only
    rw [syncEpoch_members]

/-- A signal of its own that gets its outcome decides a member's membership. -/
theorem mem_receive_of_own {s : MemberId} {x : GspDelivery} (hwf : x.WellFormed)
    (hx : x.isFrom s = true) {c : GspClient} {epoch : UInt64}
    (hanswer : (c.accept x.plaintext epoch x.codec).1 = x.outcome) :
    s ∈ (c.receive epoch x).members ↔ x.memberAfter (s ∈ c.members) := by
  obtain ⟨a, ha⟩ := hwf.outcome
  have hsender : a.senderId = s := by
    simpa [GspDelivery.isFrom, ha, Except.toOption] using hx
  rw [receive, GspDelivery.memberAfter, ha]
  rw [accept_ok ha, ha] at hanswer
  rw [accept_ok ha]
  dsimp only at hanswer ⊢
  by_cases hfresh : ((c.syncEpoch epoch).seenRequests.insert a.requestId).1 = true
  · rw [if_pos hfresh, mem_apply_members, if_pos hsender]
    dsimp only
    rw [syncEpoch_members]
  · rw [if_neg hfresh] at hanswer
    cases hanswer

/-- Where all of a sender's signals get their outcome, they alone decide its membership. -/
theorem mem_run_members {s : MemberId} {epoch : UInt64} {c : GspClient} {xs : List GspDelivery}
    (hwf : ∀ x ∈ xs, x.WellFormed)
    (hall : resultsOf s epoch c xs = (xs.filter (·.isFrom s)).map GspDelivery.outcome) :
    s ∈ (Machine.run (receive epoch) c xs).members ↔
      (xs.filter (·.isFrom s)).foldl (fun before x => x.memberAfter before) (s ∈ c.members) := by
  induction xs generalizing c with
  | nil => exact Iff.rfl
  | cons x xs ih =>
      have hx := hwf x (List.mem_cons_self ..)
      have hxs : ∀ y ∈ xs, y.WellFormed := fun y hy => hwf y (List.mem_cons_of_mem x hy)
      rw [resultsOf_cons] at hall
      rw [Machine.run_cons]
      cases hfrom : x.isFrom s with
      | false =>
          have hskip : ¬x.isFrom s = true := by rw [hfrom]; exact Bool.false_ne_true
          rw [hfrom, if_neg Bool.false_ne_true, List.nil_append,
            List.filter_cons_of_neg hskip] at hall
          rw [ih hxs hall, List.filter_cons_of_neg hskip,
            propext (mem_receive_of_other hx hfrom c epoch)]
      | true =>
          rw [hfrom, if_pos rfl, List.singleton_append, List.filter_cons_of_pos hfrom,
            List.map_cons, List.cons_eq_cons] at hall
          rw [ih hxs hall.2, List.filter_cons_of_pos hfrom, List.foldl_cons,
            propext (mem_receive_of_own hx hfrom hall.1)]

/-- The sender is answered, and belongs to the group afterwards, as when only its own signals of
the sequence are accepted. -/
def Undisturbed (s : MemberId) (epoch : UInt64) (c : GspClient) (xs : List GspDelivery) : Prop :=
  resultsOf s epoch c xs = resultsOf s epoch c (xs.filter (·.isFrom s)) ∧
    (s ∈ (Machine.run (receive epoch) c xs).members ↔
      s ∈ (Machine.run (receive epoch) c (xs.filter (·.isFrom s))).members)

instance (s : MemberId) (epoch : UInt64) (c : GspClient) (xs : List GspDelivery) :
    Decidable (c.Undisturbed s epoch xs) :=
  inferInstanceAs (Decidable (_ ∧ _))

/-- A sender is undisturbed exactly when none of its signals carries a request id that another
sender has used before it. -/
theorem gsp_undisturbed_iff {c : GspClient} {epoch : UInt64}
    (hepoch : c.currentEpoch ≠ some epoch) (hcap : c.seenRequests.cap = 10000)
    {xs : List GspDelivery} (hwf : ∀ x ∈ xs, x.WellFormed) (hlen : xs.length < 10000)
    (hunique : xs.Pairwise fun x y => x.sender = y.sender → x.requestId ≠ y.requestId)
    (s : MemberId) :
    c.Undisturbed s epoch xs ↔
      xs.Pairwise fun y x => x.isFrom s = true → y.isFrom s = false →
        y.requestId ≠ x.requestId := by
  have hstart := seen_nil hepoch hcap
  have hown {x y : GspDelivery} (hx : x.isFrom s = true) (hy : y.isFrom s = true) :
      x.sender = y.sender :=
    (GspDelivery.sender_of_isFrom hx).trans (GspDelivery.sender_of_isFrom hy).symm
  have halone : resultsOf s epoch c (xs.filter (·.isFrom s)) =
      ((xs.filter (·.isFrom s)).filter (·.isFrom s)).map GspDelivery.outcome := by
    have hlen' : ([] : List UInt32).length + (xs.filter (·.isFrom s)).length ≤ 10000 := by
      have := List.length_filter_le (·.isFrom s) xs
      rw [List.length_nil]
      omega
    refine (resultsOf_eq_outcomes_iff hstart hlen' fun x hx =>
      hwf x (List.mem_filter.mp hx).1).mpr ⟨?_, fun _ _ _ r hr => absurd hr List.not_mem_nil⟩
    refine (hunique.sublist List.filter_sublist).imp_of_mem ?_
    intro y x hy hx hne _
    exact hne (hown (List.mem_filter.mp hy).2 (List.mem_filter.mp hx).2)
  have hfilter : (xs.filter (·.isFrom s)).filter (·.isFrom s) = xs.filter (·.isFrom s) := by
    rw [List.filter_filter]
    simp only [Bool.and_self]
  have hall : resultsOf s epoch c xs = (xs.filter (·.isFrom s)).map GspDelivery.outcome ↔
      xs.Pairwise fun y x => x.isFrom s = true → y.isFrom s = false →
        y.requestId ≠ x.requestId := by
    rw [resultsOf_eq_outcomes_iff hstart (by rw [List.length_nil]; omega) hwf]
    constructor
    · rintro ⟨hpair, -⟩
      exact hpair.imp fun hne hx _ => hne hx
    · intro hpair
      refine ⟨hpair.imp₂ ?_ hunique, fun _ _ _ r hr => absurd hr List.not_mem_nil⟩
      intro y x hne hsame hx
      cases hy : y.isFrom s with
      | false => exact hne hx hy
      | true => exact hsame (hown hy hx)
  rw [Undisturbed, halone, hfilter]
  rw [hfilter] at halone
  constructor
  · intro h
    exact hall.mp h.1
  · intro h
    have hsame := hall.mpr h
    refine ⟨hsame, ?_⟩
    rw [mem_run_members hwf hsame, mem_run_members (fun x hx => hwf x (List.mem_filter.mp hx).1)
      (halone.trans (by rw [hfilter])), hfilter]

end GspClient

/-! Mute state. -/

namespace GspDelivery

/-- The member that key 0 of the arguments names. -/
def target (x : GspDelivery) : Option MemberId :=
  match GspSignal.fromBytes x.plaintext x.codec with
  | .error _ => none
  | .ok s =>
    ((GspArgs.decodeMap s.args).bind (GspArgs.requireUintKey · 0)).bind fun n =>
      if n.toNat < 2 ^ 32 then some n.toUInt32 else none

/-- A MUTE or UNMUTE names a member. -/
def namesTarget (x : GspDelivery) : Bool :=
  match x.outcome with
  | .ok a => if a.signal = .mute ∨ a.signal = .unmute then x.target.isSome else true
  | .error _ => true

/-- The delivery is a MUTE. -/
def mutes (x : GspDelivery) : Bool := x.outcome.toOption.any fun a => a.signal == .mute

/-- The delivery is a MUTE or UNMUTE with a member as its target or a LEAVE sent by it. -/
def concerns (m : MemberId) (x : GspDelivery) : Bool :=
  match x.outcome with
  | .ok a =>
    match a.signal with
    | .mute | .unmute => x.target == some m
    | .leave => a.senderId == m
    | _ => false
  | .error _ => false

/-- The latest delivery that concerns a member is a MUTE. -/
def latestMutes (m : MemberId) (xs : List GspDelivery) : Bool :=
  (xs.reverse.find? (·.concerns m)).any (·.mutes)

/-- It makes no difference to the mute list whether the signal acts on its sender or on its
target: they are the same, or both are in the state the signal brings about. -/
def Indifferent (muted : Finset MemberId) (x : GspDelivery) : Prop :=
  ∀ a ∈ x.outcome.toOption, ∀ t ∈ x.target,
    (a.signal = .mute → a.senderId = t ∨ (a.senderId ∈ muted ∧ t ∈ muted)) ∧
      (a.signal = .unmute → a.senderId = t ∨ (a.senderId ∉ muted ∧ t ∉ muted))

instance (muted : Finset MemberId) (x : GspDelivery) : Decidable (x.Indifferent muted) :=
  -- spelled out: the search otherwise tries to enumerate the members
  @Option.decidableForallMem _ _
    (fun _ => @Option.decidableForallMem _ _ (fun _ => inferInstanceAs (Decidable (_ ∧ _))) x.target)
    x.outcome.toOption

theorem latestMutes_concat (m : MemberId) (past : List GspDelivery) (x : GspDelivery) :
    latestMutes m (past ++ [x]) = if x.concerns m then x.mutes else latestMutes m past := by
  rw [latestMutes, List.reverse_append, List.reverse_singleton, List.singleton_append,
    List.find?_cons]
  cases x.concerns m with
  | true => rw [if_pos rfl, Option.any_some]
  | false => rfl

/-- A MUTE or UNMUTE concerns the member it names and nobody else. -/
theorem concerns_target {x : GspDelivery} {a : GspAccept} {t : MemberId}
    (ha : x.outcome = .ok a) (hsig : a.signal = .mute ∨ a.signal = .unmute)
    (ht : x.target = some t) (m : MemberId) : x.concerns m = (t == m) := by
  rcases hsig with hsig | hsig
  · simp [concerns, ha, hsig, ht]
  · simp [concerns, ha, hsig, ht]

theorem exists_target {x : GspDelivery} {a : GspAccept} (htarget : x.namesTarget = true)
    (ha : x.outcome = .ok a) (hsig : a.signal = .mute ∨ a.signal = .unmute) :
    ∃ t, x.target = some t := by
  rw [namesTarget, ha] at htarget
  dsimp only at htarget
  rw [if_pos hsig] at htarget
  exact Option.isSome_iff_exists.mp htarget

end GspDelivery

namespace GspClient

/-- A delivery that is accepted as new is well formed and applies its effect. -/
theorem receive_of_isOk {c : GspClient} {epoch : UInt64} {x : GspDelivery}
    (h : (c.accept x.plaintext epoch x.codec).1.isOk = true) :
    ∃ a seen, x.outcome = .ok a ∧
      c.receive epoch x =
        ({ c.syncEpoch epoch with seenRequests := seen } : GspClient).apply a.signal a.senderId := by
  cases hx : x.outcome with
  | error e => rw [accept_eq, hx] at h; cases h
  | ok a =>
      rw [receive]
      rw [accept_ok hx] at h ⊢
      dsimp only at h ⊢
      by_cases hfresh : ((c.syncEpoch epoch).seenRequests.insert a.requestId).1 = true
      · rw [if_pos hfresh]
        exact ⟨a, _, rfl, rfl⟩
      · rw [if_neg hfresh] at h
        cases h

/-- The mute list follows the targets. -/
def Follows (c : GspClient) (past : List GspDelivery) : Prop :=
  ∀ m, m ∈ c.muted ↔ GspDelivery.latestMutes m past = true

/-- After an accepted signal the mute list follows the targets exactly when the signal's effect on
its sender is what the members it concerns call for. -/
theorem Follows.receive {c : GspClient} {past : List GspDelivery} (h : c.Follows past)
    {epoch : UInt64} {x : GspDelivery}
    (hx : (c.accept x.plaintext epoch x.codec).1.isOk = true) :
    ∃ a, x.outcome = .ok a ∧ ((c.receive epoch x).Follows (past ++ [x]) ↔
      ∀ m, m ∈ mutedAfter a.signal a.senderId c.muted ↔
        if x.concerns m then a.signal = .mute else m ∈ c.muted) := by
  obtain ⟨a, seen, ha, hnext⟩ := receive_of_isOk hx
  have hmutes : x.mutes = (a.signal == .mute) := by
    rw [GspDelivery.mutes, ha]
    rfl
  have hmuted : (c.receive epoch x).muted = mutedAfter a.signal a.senderId c.muted := by
    rw [hnext, apply_muted]
    exact congrArg _ (c.syncEpoch_muted epoch)
  refine ⟨a, ha, forall_congr' fun m => ?_⟩
  rw [GspDelivery.latestMutes_concat, hmutes, h m, hmuted]
  cases x.concerns m <;> simp

/-- One accepted signal keeps the mute list on the targets exactly when it is indifferent. -/
theorem Follows.receive_iff {c : GspClient} {past : List GspDelivery} (h : c.Follows past)
    {epoch : UInt64} {x : GspDelivery}
    (hx : (c.accept x.plaintext epoch x.codec).1.isOk = true) (htarget : x.namesTarget = true) :
    (c.receive epoch x).Follows (past ++ [x]) ↔ x.Indifferent c.muted := by
  obtain ⟨a, ha, hgoal⟩ := h.receive hx
  have hnamed := GspDelivery.exists_target htarget ha
  rw [hgoal]
  cases hsig : a.signal with
  | mute =>
      obtain ⟨t, ht⟩ := hnamed (.inl hsig)
      have hindifferent : x.Indifferent c.muted ↔
          a.senderId = t ∨ (a.senderId ∈ c.muted ∧ t ∈ c.muted) := by
        simp [GspDelivery.Indifferent, ha, ht, hsig, Except.toOption]
      rw [hindifferent, ← forall_mem_insert_iff]
      refine forall_congr' fun m => ?_
      rw [GspDelivery.concerns_target ha (.inl hsig) ht]
      by_cases hm : t = m
      · simp [mutedAfter, hm]
      · simp [mutedAfter, hm, Ne.symm hm]
  | unmute =>
      obtain ⟨t, ht⟩ := hnamed (.inr hsig)
      have hindifferent : x.Indifferent c.muted ↔
          a.senderId = t ∨ (a.senderId ∉ c.muted ∧ t ∉ c.muted) := by
        simp [GspDelivery.Indifferent, ha, ht, hsig, Except.toOption]
      rw [hindifferent, ← forall_mem_erase_iff]
      refine forall_congr' fun m => ?_
      rw [GspDelivery.concerns_target ha (.inr hsig) ht]
      by_cases hm : t = m
      · simp [mutedAfter, hm]
      · simp [mutedAfter, hm, Ne.symm hm]
  | leave =>
      have hindifferent : x.Indifferent c.muted := by
        simp [GspDelivery.Indifferent, ha, hsig, Except.toOption]
      refine iff_of_true (fun m => ?_) hindifferent
      rw [show x.concerns m = (a.senderId == m) by simp [GspDelivery.concerns, ha, hsig]]
      by_cases hm : a.senderId = m
      · simp [mutedAfter, hm]
      · simp [mutedAfter, hm, Ne.symm hm]
  | _ =>
      have hindifferent : x.Indifferent c.muted := by
        simp [GspDelivery.Indifferent, ha, hsig, Except.toOption]
      refine iff_of_true (fun m => ?_) hindifferent
      rw [show x.concerns m = false by simp [GspDelivery.concerns, ha, hsig]]
      simp [mutedAfter]

/-- Over a sequence of signals that are all accepted as new, the mute list follows their targets
at every point exactly when every MUTE and UNMUTE is indifferent to acting on its sender. -/
theorem gsp_mute_follows_targets_iff {epoch : UInt64} {c : GspClient} (hc : c.muted = ∅)
    {xs : List GspDelivery}
    (hxs : Machine.Along (receive epoch) (fun c x =>
      (c.accept x.plaintext epoch x.codec).1.isOk = true ∧ x.namesTarget = true) c xs) :
    (∀ ys, ys <+: xs → ∀ m, m ∈ (Machine.run (receive epoch) c ys).muted ↔
        GspDelivery.latestMutes m ys = true) ↔
      Machine.Along (receive epoch) (fun c x => x.Indifferent c.muted) c xs := by
  have hstart : c.Follows [] := by
    intro m
    rw [hc]
    exact iff_of_false (Finset.notMem_empty m) Bool.false_ne_true
  exact Machine.prefix_history_iff Follows [] hxs hstart fun t past x hx ht =>
    ht.receive_iff hx.1 hx.2

end GspClient

end

/-- Flat items and maps of flat items. -/
instance : ItemReader where
  fromReader args :=
    match Cbor.decodeMap args with
    | some es => .ok (.map (es.map fun e => (CborItem.ofValue e.1, CborItem.ofValue e.2)))
    | none =>
      match Cbor.Value.decode args with
      | some (v, _) => .ok (CborItem.ofValue v)
      | none => .error "malformed item"

/-- A signal without arguments in CBOR. -/
private def bareDelivery (signal : SignalType) (requestId : UInt32) (senderId : MemberId) :
    GspDelivery :=
  ⟨(GspSignal.bare signal.asU32 requestId senderId).toCbor, .cbor⟩

/-- Two members join, each with request id 1: the second is refused as a duplicate of the first
and does not become a member. -/
theorem gsp_senders_disturb :
    let xs := [bareDelivery .join 1 10, bareDelivery .join 1 20]
    (∀ x ∈ xs, x.WellFormed) ∧
      (xs.Pairwise fun x y => x.sender = y.sender → x.requestId ≠ y.requestId) ∧
      ¬GspClient.new.Undisturbed 20 5 xs := by
  decide +kernel

/-- With request ids 1 and 2 the second member is undisturbed. -/
theorem gsp_undisturbed_two :
    let xs := [bareDelivery .join 1 10, bareDelivery .join 2 20]
    (∀ x ∈ xs, x.WellFormed) ∧ GspClient.new.Undisturbed 20 5 xs := by
  intro xs
  have hwf : ∀ x ∈ xs, x.WellFormed := by decide +kernel
  have hunique : xs.Pairwise fun x y => x.sender = y.sender → x.requestId ≠ y.requestId := by
    decide +kernel
  have hapart : xs.Pairwise fun y x => x.isFrom 20 = true → y.isFrom 20 = false →
      y.requestId ≠ x.requestId := by
    decide +kernel
  exact ⟨hwf, (GspClient.gsp_undisturbed_iff (by decide) rfl hwf (by decide) hunique 20).mpr
    hapart⟩

/-- A MUTE or UNMUTE with a target in CBOR. -/
private def muteDelivery (signal : SignalType) (requestId : UInt32) (senderId target : MemberId) :
    GspDelivery :=
  let args := Cbor.encodeMap [(.uint 0, .uint target.toUInt64)]
  ⟨({ GspSignal.bare signal.asU32 requestId senderId with
    argsLength := UInt32.ofNat args.length, args := args } : GspSignal).toCbor, .cbor⟩

/-- A moderator mutes another member: the moderator is muted and the member is not. -/
theorem gsp_mute_hits_sender :
    let x := muteDelivery .mute 1 10 20
    let c := GspClient.new.receive 5 x
    (GspClient.new.accept x.plaintext 5 x.codec).1.isOk = true ∧ x.target = some 20 ∧
      10 ∈ c.muted ∧ ¬(20 ∈ c.muted ↔ GspDelivery.latestMutes 20 [x] = true) := by
  decide +kernel

/-- A member mutes and unmutes itself. -/
theorem gsp_mute_follows_targets_self :
    let xs := [muteDelivery .mute 1 20 20, muteDelivery .unmute 2 20 20]
    Machine.Along (GspClient.receive 5) (fun c x =>
        (c.accept x.plaintext 5 x.codec).1.isOk = true ∧ x.namesTarget = true)
        GspClient.new xs ∧
      ∀ ys, ys <+: xs → ∀ m, m ∈ (Machine.run (GspClient.receive 5) GspClient.new ys).muted ↔
        GspDelivery.latestMutes m ys = true := by
  intro xs
  have hxs : Machine.Along (GspClient.receive 5) (fun c x =>
      (c.accept x.plaintext 5 x.codec).1.isOk = true ∧ x.namesTarget = true) GspClient.new xs := by
    decide +kernel
  exact ⟨hxs, (GspClient.gsp_mute_follows_targets_iff rfl hxs).mpr (by decide +kernel)⟩

end GroupProtocol
