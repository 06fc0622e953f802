import GroupProtocol.Audio.Jitter
import GroupProtocol.Audio.Stream

/-!
# Playing a stream

A receiver that loses nothing pushes every frame of a source and pops one after each push. The buffer
expects the successor of the last number in 32 bits, while the sender counts in sixteen and starts
anew in every epoch. The stream plays exactly as long as the sender's counter neither wraps nor
starts anew between two of its frames.
-/

namespace GroupProtocol

/-- Every number is the successor of the one before, the first one that of the number expected. -/
def Consecutive : Option UInt32 → List GapPayload → Prop
  | _, [] => True
  | next, p :: frames =>
    (∀ n, next = some n → p.rtpSequence = n) ∧ Consecutive (some (p.rtpSequence + 1)) frames

namespace JitterBuffer

/-- The buffer after a frame is pushed and one is popped. -/
def play (source : UInt32) (b : JitterBuffer) (p : GapPayload) : JitterBuffer :=
  ((b.push p).2.popInOrder source).2

/-- The frame is accepted, and it is the one popped. -/
def Plays (source : UInt32) (b : JitterBuffer) (p : GapPayload) : Prop :=
  (b.push p).1 = .accepted ∧ ((b.push p).2.popInOrder source).1 = some p

/-- The answers to a push and the pop after it, and the state they leave, are those of the source. -/
theorem play_spec (b : JitterBuffer) (p : GapPayload) :
    let pushed := (b.stateOf p.mediaSourceId).push p b.capacityPerSource
    (b.push p).1 = pushed.1 ∧
      ((b.push p).2.popInOrder p.mediaSourceId).1 = pushed.2.popInOrder.1 ∧
      (play p.mediaSourceId b p).stateOf p.mediaSourceId = pushed.2.popInOrder.2 := by
  intro pushed
  have hstate : (b.push p).2.stateOf p.mediaSourceId = pushed.2 := by
    rw [push, stateOf_put, if_pos rfl]
  obtain ⟨hanswer, -, hafter⟩ := popWith_spec SourceState.popInOrder rfl (b.push p).2
    p.mediaSourceId p.mediaSourceId
  rw [hstate] at hanswer hafter
  rw [if_pos rfl] at hafter
  exact ⟨rfl, hanswer, hafter⟩

end JitterBuffer

namespace SourceState

/-- A source with nothing waiting plays a frame exactly when it is the one expected. -/
theorem push_popInOrder_empty (next : Option UInt32) (p : GapPayload) {capacity : ℕ}
    (hcapacity : 0 < capacity) :
    let pushed := push ⟨[], next⟩ p capacity
    (pushed.1 = .accepted ∧ pushed.2.popInOrder.1 = some p ↔
        ∀ n, next = some n → p.rtpSequence = n) ∧
      (pushed.2.popInOrder.1 = some p →
        pushed.2.popInOrder.2 = ⟨[], some (p.rtpSequence + 1)⟩) := by
  intro pushed
  have hroom : ¬ 1 > capacity := Nat.not_lt.mpr hcapacity
  have hinsert : insert ⟨[], next⟩ p capacity = (none, ⟨[p], next⟩) := by
    simp [insert, holds, hroom]
  cases next with
  | none =>
      have heq : pushed = (.accepted, ⟨[p], none⟩) := by
        simp only [pushed, push, hinsert, Option.any_none, Bool.false_eq_true, if_false]
      simp [heq, popInOrder]
  | some n =>
      by_cases hlate : p.rtpSequence < n
      · have heq : pushed = (.late, ⟨[], some n⟩) := by simp [pushed, push, hlate]
        have hne : p.rtpSequence ≠ n := UInt32.ne_of_lt hlate
        simp [heq, popInOrder, hne]
      · have heq : pushed = (.accepted, ⟨[p], some n⟩) := by simp [pushed, push, hlate, hinsert]
        by_cases hseq : p.rtpSequence = n
        · simp [heq, popInOrder, hseq]
        · simp [heq, popInOrder, hseq]

end SourceState

namespace JitterBuffer

/-- Frames of a source play through a buffer with nothing waiting exactly when their numbers are
consecutive. -/
theorem plays_iff_consecutive {source : UInt32} {b : JitterBuffer} {next : Option UInt32}
    (hb : b.stateOf source = ⟨[], next⟩) {frames : List GapPayload}
    (hframes : ∀ p ∈ frames, p.mediaSourceId = source) :
    Machine.Along (play source) (Plays source) b frames ↔ Consecutive next frames := by
  induction frames generalizing b next with
  | nil => exact Iff.rfl
  | cons p frames ih =>
      obtain rfl := hframes p (List.mem_cons_self ..)
      have hrest : ∀ q ∈ frames, q.mediaSourceId = p.mediaSourceId :=
        fun q hq => hframes q (List.mem_cons_of_mem p hq)
      obtain ⟨hpush, hpop, hstate⟩ := b.play_spec p
      rw [hb] at hpush hpop hstate
      obtain ⟨hplays, hleft⟩ := SourceState.push_popInOrder_empty next p b.positive
      rw [Machine.Along, Consecutive, Plays, hpush, hpop, hplays]
      refine and_congr_right fun hnext => ih ?_ hrest
      rw [hstate]
      exact hleft (hplays.mpr hnext).2

end JitterBuffer

namespace GapClient

/-- The sixteen-bit successor of a counter is the successor of the last number exactly when the
counter is at that number and does not wrap. -/
theorem mask_eq_succ_iff {counter last : UInt32} (hcounter : counter ≤ 0xFFFF)
    (hlast : last ≤ 0xFFFF) :
    (counter + 1) &&& 0xFFFF = last + 1 ↔ last ≠ 0xFFFF ∧ counter = last := by
  have hc : counter.toNat ≤ 0xFFFF := UInt32.le_iff_toNat_le.mp hcounter
  have hl : last.toNat ≤ 0xFFFF := UInt32.le_iff_toNat_le.mp hlast
  have hmask : UInt32.toNat 0xFFFF = 2 ^ 16 - 1 := rfl
  rw [ne_eq, ← UInt32.toNat_inj, ← UInt32.toNat_inj, ← UInt32.toNat_inj, UInt32.toNat_and, hmask,
    Nat.and_two_pow_sub_one_eq_mod, UInt32.toNat_add, UInt32.toNat_add, UInt32.toNat_one]
  omega

theorem mask_le (seq : UInt32) : seq &&& 0xFFFF ≤ 0xFFFF := by
  rw [UInt32.le_iff_toNat_le, UInt32.toNat_and]
  exact Nat.and_le_right

/-- Numbers of a stream after its `k`-th frame are consecutive exactly when the stream ends before the
wrap. -/
theorem consecutive_iff_length {frames : List GapPayload} {k : ℕ}
    (hframes : ∀ i p, frames[i]? = some p → p.rtpSequence = streamNumber (k + i + 1)) :
    Consecutive (some (streamNumber k + 1)) frames ↔
      k % 0x10000 + frames.length < 0x10000 := by
  induction frames generalizing k with
  | nil =>
      have hlt : k % 0x10000 < 0x10000 := Nat.mod_lt _ (by decide)
      exact iff_of_true trivial hlt
  | cons p frames ih =>
      have hp : p.rtpSequence = streamNumber (k + 1) := hframes 0 p rfl
      have hrest := ih (k := k + 1) fun i q hq => by
        rw [hframes (i + 1) q hq]
        exact congrArg streamNumber (by omega)
      have hwrap : streamNumber k = 0xFFFF ↔ k % 0x10000 = 0xFFFF := by
        rw [← UInt32.toNat_inj, toNat_streamNumber]
        rfl
      have hnumber : p.rtpSequence = streamNumber k + 1 ↔ k % 0x10000 ≠ 0xFFFF := by
        rw [hp, ← streamNumber_succ, mask_eq_succ_iff (streamNumber_le k) (streamNumber_le k), ne_eq,
          hwrap]
        simp
      rw [Consecutive, hp, hrest, ← hp]
      simp only [Option.some.injEq, forall_eq', hnumber, List.length_cons]
      omega

section Playing

variable [Ciborium] [CborReader GapPayload] [Prost GbpProto.GapPayload]
  [PlanusBuilder GbpFlat.GapPayload] [ReadAsRoot GbpFlat.GapPayloadRef] {S : Type} [Sealer S]

/-- The sender and the number of its last frame of the source, after a call. -/
def sendOn (source : UInt32) (st : GapClient × Option UInt32) (x : GapCall S) :
    GapClient × Option UInt32 :=
  (st.1.step x, ((builtOf source st.1 x).getLast?.map GapPayload.rtpSequence).or st.2)

/-- A frame of the source that is not the first one is sent while the counter is at the number of the
last one, so that it was not started anew, and below the wrap. -/
def Continues (source : UInt32) (st : GapClient × Option UInt32) (x : GapCall S) : Prop :=
  builtOf source st.1 x ≠ [] → ∀ last, st.2 = some last →
    last ≠ 0xFFFF ∧ st.1.counterIn x.epoch source = last

/-- Once a frame was sent, the counter has sixteen bits in every epoch. -/
def Masked (source : UInt32) (st : GapClient × Option UInt32) : Prop :=
  ∀ last, st.2 = some last → last ≤ 0xFFFF ∧ ∀ epoch, st.1.counterIn epoch source ≤ 0xFFFF

/-- One call keeps the counter at sixteen bits. -/
theorem Masked.sendOn {source : UInt32} {st : GapClient × Option UInt32} (h : Masked source st)
    (x : GapCall S) : Masked source (sendOn source st x) := by
  obtain ⟨c, last⟩ := st
  intro l hl
  rcases builtOf_cases source c x with hnone | ⟨p, hone⟩
  · rw [GapClient.sendOn, hnone] at hl
    obtain ⟨hle, hall⟩ := h l hl
    refine ⟨hle, counterIn_step_le ?_⟩
    rw [counterIn_other hnone]
    exact hall x.epoch
  · rw [GapClient.sendOn, hone] at hl
    obtain rfl : p.rtpSequence = l := Option.some.inj hl
    obtain ⟨-, hseq, -, hnext⟩ := counterIn_next hone
    have hle : p.rtpSequence ≤ 0xFFFF := by
      rw [hseq]
      exact mask_le _
    refine ⟨hle, counterIn_step_le ?_⟩
    rw [hnext]
    exact hle

/-- The numbers of a stream are consecutive exactly when every frame continues it. -/
theorem consecutive_iff_continues {source : UInt32} {st : GapClient × Option UInt32}
    (h : Masked source st) (xs : List (GapCall S)) :
    Consecutive (st.2.map (· + 1)) (st.1.stream source xs) ↔
      Machine.Along (sendOn source) (Continues source) st xs := by
  induction xs generalizing st with
  | nil => exact Iff.rfl
  | cons x xs ih =>
      have hrest := ih (h.sendOn x)
      obtain ⟨c, last⟩ := st
      rw [Machine.Along, ← hrest, stream_cons]
      rcases builtOf_cases source c x with hnone | ⟨p, hone⟩
      · have hcontinues : Continues source (c, last) x := fun hbuilt => absurd hnone hbuilt
        simp only [hcontinues, true_and, GapClient.sendOn, hnone, List.nil_append, List.getLast?_nil,
          Option.map_none, Option.none_or]
      · have hbuilt : builtOf source c x ≠ [] := by
          rw [hone]
          exact List.cons_ne_nil p []
        have hnumber : (∀ n, last.map (· + 1) = some n → p.rtpSequence = n) ↔
            Continues source (c, last) x := by
          obtain ⟨-, hseq, -, -⟩ := counterIn_next hone
          cases last with
          | none =>
              constructor
              · intro _ _ l hl
                cases hl
              · intro _ n hn
                cases hn
          | some l =>
              obtain ⟨hle, hall⟩ := h l rfl
              rw [Continues, Option.map_some, hseq]
              simp only [Option.some.injEq, forall_eq', ne_eq, hbuilt, not_false_eq_true, true_implies]
              exact mask_eq_succ_iff (hall x.epoch) hle
        rw [hone, List.singleton_append, Consecutive, hnumber, GapClient.sendOn, hone]
        rfl

theorem mediaSourceId_of_mem_stream {c : GapClient} {source : UInt32} {xs : List (GapCall S)}
    {p : GapPayload} (hp : p ∈ c.stream source xs) : p.mediaSourceId = source :=
  of_decide_eq_true (List.mem_filter.mp hp).2

/-- For every capacity above zero, every source and every run of a sender: the frames of the source,
pushed in order with one pop after each of them, are all accepted and popped at once, exactly when
every frame but the first continues the numbers of the one before. -/
theorem playout_iff (capacity : ℕ) (hcapacity : 0 < capacity) (source : UInt32) (c : GapClient)
    (xs : List (GapCall S)) :
    Machine.Along (JitterBuffer.play source) (JitterBuffer.Plays source)
        (JitterBuffer.new capacity hcapacity) (c.stream source xs) ↔
      Machine.Along (sendOn source) (Continues source) (c, none) xs := by
  have hfresh : Masked source (c, none) := nofun
  rw [← consecutive_iff_continues hfresh xs]
  exact JitterBuffer.plays_iff_consecutive rfl fun p hp => mediaSourceId_of_mem_stream hp

/-! A stream of one epoch. -/

/-- In one epoch, from the `k`-th number of the counter on, a stream plays exactly when it ends before
the wrap. -/
theorem plays_in_epoch_iff {capacity : ℕ} (hcapacity : 0 < capacity) {c : GapClient}
    {epoch : UInt64} {source : UInt32} {k : ℕ} (hc : c.counterIn epoch source = streamNumber k)
    {xs : List (GapCall S)} (hxs : ∀ x ∈ xs, x.epoch = epoch) :
    Machine.Along (JitterBuffer.play source) (JitterBuffer.Plays source)
        (JitterBuffer.new capacity hcapacity) (c.stream source xs) ↔
      c.stream source xs = [] ∨ (k + 1) % 0x10000 + (c.stream source xs).length ≤ 0x10000 := by
  have hnumbers := fun i p hp => (stream_numbered (i := i) (p := p) hc hxs hp).2.1
  rw [JitterBuffer.plays_iff_consecutive rfl fun p hp => mediaSourceId_of_mem_stream hp]
  generalize c.stream source xs = frames at hnumbers ⊢
  cases frames with
  | nil => exact iff_of_true trivial (Or.inl rfl)
  | cons p frames =>
      have hp : p.rtpSequence = streamNumber (k + 1) := hnumbers 0 p rfl
      have hrest : Consecutive (some (streamNumber (k + 1) + 1)) frames ↔
          (k + 1) % 0x10000 + frames.length < 0x10000 := by
        refine consecutive_iff_length fun i q hq => ?_
        rw [hnumbers (i + 1) q hq]
        exact congrArg streamNumber (by omega)
      rw [Consecutive, hp, hrest, List.length_cons]
      refine ⟨fun h => Or.inr h.2, ?_⟩
      rintro (hnil | hle)
      · cases hnil
      · exact ⟨nofun, hle⟩

end Playing

/-- A call that sends one frame of source 7 builds one. -/
theorem length_stream_speaks (c : GapClient) (count : ℕ) :
    (c.stream 7 (List.replicate count (speaks 7 0))).length = count := by
  induction count generalizing c with
  | zero => rfl
  | succ count ih =>
      rw [List.replicate_succ, stream_cons, List.length_append, ih, Nat.add_comm]
      rfl

/-- Two frames play through a buffer for one. -/
theorem playout_iff_two :
    Machine.Along (JitterBuffer.play 7) (JitterBuffer.Plays 7) (JitterBuffer.new 1 (by decide))
      (new.stream 7 [speaks 7 0, speaks 7 1]) := by
  refine (playout_iff 1 (by decide) 7 new _).mpr ⟨nofun, fun _ last hlast => ?_, trivial⟩
  have hone : (sendOn 7 (new, none) (speaks 7 0)).2 = some 1 := by decide +kernel
  obtain rfl : 1 = last := Option.some.inj (hone.symm.trans hlast)
  exact ⟨by decide, by decide +kernel⟩

/-- After 65535 frames the sender counts zero and the buffer expects 65536. -/
theorem playout_stops_at_wrap :
    ¬ Machine.Along (JitterBuffer.play 7) (JitterBuffer.Plays 7) (JitterBuffer.new 16 (by decide))
      (new.stream 7 (List.replicate 0x10000 (speaks 7 0))) := by
  have hxs : ∀ x ∈ List.replicate 0x10000 (speaks 7 0), x.epoch = 0 := by
    intro x hx
    rw [List.eq_of_mem_replicate hx]
    rfl
  have hstart : new.counterIn 0 7 = streamNumber 0 := rfl
  have hlength := length_stream_speaks new 0x10000
  rw [plays_in_epoch_iff (by decide) hstart hxs, hlength]
  rintro (hnil | hle)
  · rw [hnil] at hlength
    exact absurd hlength (by decide)
  · exact absurd hle (by decide)

end GapClient

end GroupProtocol
