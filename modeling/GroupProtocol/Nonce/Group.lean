import GroupProtocol.Base.Serde
import GroupProtocol.Clients.Member
import GroupProtocol.Lib.Machine
import GroupProtocol.Lib.Numbering

/-!
# Nonces of a whole group in one epoch

All members share the key of a stream label, and the nonce of a seal is its sequence
number alone. Every member counts from one on its own streams, so the pairs of label and
nonce are distinct exactly when no two members send on the same class and no counter
wraps.
-/

namespace GroupProtocol

/-- One call of `MlsContext.seal`: the epoch of the group, the label and the number. -/
structure SealCall where
  epoch : UInt64
  label : StreamLabel
  seq : SequenceNo
  deriving DecidableEq, Repr

/-- An MLS context together with every seal call made so far. -/
structure Recorder (G C : Type) where
  ctx : MlsContext G C
  calls : List SealCall

instance {G C : Type} [OpenMls G C] [ChaCha20Poly1305] : Sealer (Recorder G C) where
  «seal» r st seq pt :=
    (r.ctx.seal (labelFor st) seq pt,
      { r with calls := r.calls ++ [⟨r.ctx.epoch, labelFor st, seq⟩] })
  «open» r st seq ct := (r.ctx.open (labelFor st) seq ct, r)

/-- A send of one member of a group. -/
structure GroupSend (ι : Type) where
  sender : ι
  op : SendOp
  now : Instant

/-- The members of a group, their MLS contexts and all seal calls of the group. -/
structure Senders (ι G C : Type) where
  member : ι → Member
  ctx : ι → MlsContext G C
  calls : List SealCall

namespace Senders

/-- What the key and the nonce of a call are made of within one epoch. -/
def keyNonce (c : SealCall) : StreamLabel × Bytes := (c.label, nonceOf c.seq)

private theorem keyNonce_injective :
    Function.Injective fun p : StreamType × UInt32 => (labelFor p.1, nonceOf p.2) := by
  intro p q hpq
  exact Prod.ext (labelFor_injective (congrArg Prod.fst hpq))
    (nonceOf_injective (congrArg Prod.snd hpq))

section Runs

variable {ι G C : Type} [DecidableEq ι] [OpenMls G C] [ChaCha20Poly1305] [Ciborium]
  [Codegen GtpMessage] [Codegen GapPayload] [Codegen GspSignal]

/-- One send. -/
def step (w : Senders ι G C) (x : GroupSend ι) : Senders ι G C :=
  let r := (w.member x.sender).send (⟨w.ctx x.sender, w.calls⟩ : Recorder G C) x.op x.now
  { member := Function.update w.member x.sender r.2.1
    ctx := Function.update w.ctx x.sender r.2.2.ctx
    calls := r.2.2.calls }

/-- The members' counters agree with given counts. -/
structure Counted (w : Senders ι G C) (c : ι × StreamType → ℕ) : Prop where
  active : ∀ i, (w.member i).node.state = .active
  counts : ∀ i st, (w.member i).node.outSeq.read ((w.member i).node.ownStream st) =
    UInt32.ofNat (c (i, st))

/-- One send makes one seal call, under the next number of its sender and class. -/
theorem step_counted {w : Senders ι G C} {c : ι × StreamType → ℕ} (h : w.Counted c)
    (x : GroupSend ι) :
    (w.step x).Counted (Function.update c (x.sender, x.op.stream) (c (x.sender, x.op.stream) + 1))
      ∧ (w.step x).calls.map keyNonce = w.calls.map keyNonce ++
        [(labelFor x.op.stream, nonceOf (UInt32.ofNat (c (x.sender, x.op.stream) + 1)))] := by
  obtain ⟨⟨pending, tstate, prep, exec, hnode⟩, hseal⟩ := (w.member x.sender).send_active
    (h.active x.sender) (⟨w.ctx x.sender, w.calls⟩ : Recorder G C) x.op x.now
  have hnext : (w.member x.sender).node.outSeq.read
      ((w.member x.sender).node.ownStream x.op.stream) + 1 =
      UInt32.ofNat (c (x.sender, x.op.stream) + 1) := by
    rw [h.counts, UInt32.ofNat_add]
    rfl
  rw [hnext] at hnode hseal
  refine ⟨⟨?_, ?_⟩, ?_⟩
  · intro i
    by_cases hi : i = x.sender
    · subst hi
      simp only [step, Function.update_self, hnode]
      exact h.active x.sender
    · simp only [step, Function.update_of_ne hi]
      exact h.active i
  · intro i st
    by_cases hi : i = x.sender
    · subst hi
      simp only [step, Function.update_self, hnode]
      by_cases hst : st = x.op.stream
      · subst hst
        rw [Function.update_self]
        exact Counters.read_insert_self ..
      · have hne : (x.sender, st) ≠ (x.sender, x.op.stream) := fun he =>
          hst (congrArg Prod.snd he)
        rw [Function.update_of_ne hne, ← h.counts]
        exact Counters.read_insert_ne _ _ fun he => hst (congrArg Prod.fst he)
    · have hne : (i, st) ≠ (x.sender, x.op.stream) := fun he => hi (congrArg Prod.fst he)
      simp only [step, Function.update_of_ne hi, Function.update_of_ne hne]
      exact h.counts i st
  · simp only [step, hseal]
    exact List.map_append ..

/-- The pairs of a run are the numbers of independent counters. -/
theorem run_calls {w : Senders ι G C} {c : ι × StreamType → ℕ} (h : w.Counted c)
    (xs : List (GroupSend ι)) :
    (Machine.run step w xs).calls.map keyNonce = w.calls.map keyNonce ++
      (Numbering.numbered c (xs.map fun x => (x.sender, x.op.stream))).map
        fun p => (labelFor p.1, nonceOf p.2) := by
  induction xs generalizing w c with
  | nil => exact (List.append_nil _).symm
  | cons x xs ih =>
      obtain ⟨hnext, hcalls⟩ := step_counted h x
      rw [Machine.run_cons, ih hnext, hcalls, List.append_assoc]
      rfl

/-- From active members with unused counters, no two seal calls of the group share a label
and a nonce exactly when every class has a single sender and at most `2 ^ 32` sends. -/
theorem keyNonce_nodup_iff (member : ι → Member) (ctx : ι → MlsContext G C)
    (hactive : ∀ i, (member i).node.state = .active)
    (hunused : ∀ i, (member i).node.outSeq = ∅) (xs : List (GroupSend ι)) :
    ((Machine.run step ⟨member, ctx, []⟩ xs).calls.map keyNonce).Nodup ↔
      (∀ x ∈ xs, ∀ y ∈ xs, x.op.stream = y.op.stream → x.sender = y.sender) ∧
        ∀ st, (xs.filter fun x => x.op.stream = st).length ≤ 2 ^ 32 := by
  have hstart : (⟨member, ctx, []⟩ : Senders ι G C).Counted fun _ => 0 :=
    ⟨hactive, fun i st => by simp only [hunused i, Counters.read_empty]; rfl⟩
  rw [run_calls hstart, List.map_nil, List.nil_append,
    List.nodup_map_iff keyNonce_injective, Numbering.nodup_numbered_iff]
  refine and_congr ⟨?_, ?_⟩ (forall_congr' fun st => ?_)
  · intro h x hx y hy hst
    exact congrArg Prod.fst (h _ (List.mem_map_of_mem hx) _ (List.mem_map_of_mem hy) hst)
  · intro h p hp q hq hst
    obtain ⟨x, hx, rfl⟩ := List.mem_map.mp hp
    obtain ⟨y, hy, rfl⟩ := List.mem_map.mp hq
    exact Prod.ext (h x hx y hy hst) hst
  · rw [List.filter_map, List.length_map]
    rfl

end Runs

section TwoMembers

local instance : Codegen GtpMessage := ⟨GtpMessage.toCbor, GtpMessage.toCbor⟩

local instance : Codegen GapPayload := ⟨GapPayload.toCbor, GapPayload.toCbor⟩

local instance : Codegen GspSignal := ⟨GspSignal.toCbor, GspSignal.toCbor⟩

/-- Members 1 and 2 of one group in epoch zero. -/
def twoMembers (i : Bool) : Member :=
  .new (((GroupNode.new (if i then 2 else 1) (Vector.replicate 16 0))).bootstrapAsCreator 0)

/-- The runs of the two members. -/
def ofTwo (xs : List (GroupSend Bool)) : Senders Bool PlainGroup Unit :=
  Machine.run step ⟨twoMembers, fun _ => ⟨⟨0⟩, none⟩, []⟩ xs

/-- One text from each member. -/
def twoTexts : List (GroupSend Bool) :=
  [⟨false, .text 0 1 "a" .cbor, 0⟩, ⟨true, .text 0 2 "b" .cbor, 0⟩]

/-- Both texts are sealed under the same label and the same nonce. -/
theorem two_texts_share_nonce :
    (ofTwo twoTexts).calls = [⟨0, .text, 1⟩, ⟨0, .text, 1⟩] ∧
      ¬((ofTwo twoTexts).calls.map keyNonce).Nodup := by
  have hcalls : (ofTwo twoTexts).calls = [⟨0, .text, 1⟩, ⟨0, .text, 1⟩] := by
    decide +kernel
  refine ⟨hcalls, ?_⟩
  rw [hcalls]
  decide +kernel

/-- Member 1 sends two texts around a signal of member 2. -/
def separateClasses : List (GroupSend Bool) :=
  [⟨false, .text 0 1 "a" .cbor, 0⟩, ⟨true, .signal 0 .join 0 1 [] .cbor, 0⟩,
    ⟨false, .text 0 2 "b" .cbor, 0⟩]

theorem keyNonce_nodup_iff_separateClasses :
    ((ofTwo separateClasses).calls.map keyNonce).Nodup := by
  refine (keyNonce_nodup_iff twoMembers _ (by decide) (fun i => ?_) separateClasses).mpr ⟨?_, ?_⟩
  · rfl
  · unfold separateClasses
    simp [SendOp.stream]
  · intro st
    cases st <;> decide

end TwoMembers

end Senders

end GroupProtocol
