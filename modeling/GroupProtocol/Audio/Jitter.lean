import GroupProtocol.Clients.Messages
import GroupProtocol.Lib.Ascending
import GroupProtocol.Lib.Counters
import GroupProtocol.Lib.Machine

/-!
# The jitter buffer

A receiver may hold the frames of each source in a bounded window, ordered by their numbers, and pop
them in order. A source has a window and the number it expects next. The window stays in order and
bounded, no frame in it is behind the number expected, and every frame that is pushed is waiting or
has exactly one fate. Sources do not disturb each other.
-/

namespace GroupProtocol

open Ascending

/-- What the buffer holds of one source: the frames waiting, by ascending number, and the number
expected next. -/
structure SourceState where
  waiting : List GapPayload
  next : Option UInt32
  deriving DecidableEq, Repr

/-- The outcome of pushing a frame. -/
inductive JitterPush
  | accepted
  | late
  | evicted (frame : GapPayload)
  deriving DecidableEq, Repr

namespace SourceState

def new : SourceState := ⟨[], none⟩

/-- A frame with this number is waiting. -/
def holds (s : SourceState) (seq : UInt32) : Bool :=
  s.waiting.any fun q => q.rtpSequence == seq

/-- The frame goes before the first waiting one with a larger number. When the window is then too
long, its first frame is evicted. -/
def insert (s : SourceState) (p : GapPayload) (capacity : ℕ) : Option GapPayload × SourceState :=
  if s.holds p.rtpSequence then (none, s)
  else
    let pos := s.waiting.findIdx fun q => decide (q.rtpSequence > p.rtpSequence)
    let waiting := s.waiting.insertIdx pos p
    if waiting.length > capacity then (waiting.head?, { s with waiting := waiting.tail })
    else (none, { s with waiting })

/-- Pushing a frame, at the state of its source. -/
def push (s : SourceState) (frame : GapPayload) (capacity : ℕ) : JitterPush × SourceState :=
  if s.next.any fun next => frame.rtpSequence < next then (.late, s)
  else
    match s.insert frame capacity with
    | (some evicted, s) => (.evicted evicted, s)
    | (none, s) => (.accepted, s)

/-- Popping the first frame when it is the one expected, at the state of its source. -/
def popInOrder (s : SourceState) : Option GapPayload × SourceState :=
  match s.waiting with
  | [] => (none, s)
  | head :: rest =>
    if s.next.any fun next => head.rtpSequence ≠ next then (none, s)
    else (some head, ⟨rest, some (head.rtpSequence + 1)⟩)

/-- Popping the first frame, at the state of its source. -/
def popForce (s : SourceState) : Option GapPayload × SourceState :=
  match s.waiting with
  | [] => (none, s)
  | head :: rest => (some head, ⟨rest, some (head.rtpSequence + 1)⟩)

end SourceState

/-- The buffer of all sources. The constructor of the source refuses a capacity of zero. -/
structure JitterBuffer where
  capacityPerSource : ℕ
  positive : 0 < capacityPerSource
  sources : AList fun _ : UInt32 => SourceState

/-- The calls on a buffer. -/
inductive JitterCall
  | push (frame : GapPayload)
  | popInOrder (mediaSourceId : UInt32)
  | popForce (mediaSourceId : UInt32)
  deriving DecidableEq, Repr

/-- The source a call is for. -/
def JitterCall.source : JitterCall → UInt32
  | .push frame => frame.mediaSourceId
  | .popInOrder mediaSourceId => mediaSourceId
  | .popForce mediaSourceId => mediaSourceId

/-- What a call returns. -/
inductive JitterAnswer
  | pushed (outcome : JitterPush)
  | popped (frame : Option GapPayload)
  deriving DecidableEq, Repr

namespace JitterBuffer

def new (capacityPerSource : ℕ) (positive : 0 < capacityPerSource) : JitterBuffer :=
  ⟨capacityPerSource, positive, ∅⟩

/-- Writes the state of a source back. -/
def put (b : JitterBuffer) (mediaSourceId : UInt32) (s : SourceState) : JitterBuffer :=
  { b with sources := b.sources.insert mediaSourceId s }

/-- The state of a source, or that of a source never heard of. -/
def stateOf (b : JitterBuffer) (mediaSourceId : UInt32) : SourceState :=
  (b.sources.lookup mediaSourceId).getD SourceState.new

def push (b : JitterBuffer) (frame : GapPayload) : JitterPush × JitterBuffer :=
  -- A source that pushes for the first time gets a state.
  let s := b.stateOf frame.mediaSourceId
  let (outcome, s) := s.push frame b.capacityPerSource
  (outcome, b.put frame.mediaSourceId s)

/-- A pop at the state of a source, when there is one. -/
def popWith (pop : SourceState → Option GapPayload × SourceState) (b : JitterBuffer)
    (mediaSourceId : UInt32) : Option GapPayload × JitterBuffer :=
  match b.sources.lookup mediaSourceId with
  | none => (none, b)
  | some s => ((pop s).1, b.put mediaSourceId (pop s).2)

def popInOrder (b : JitterBuffer) (mediaSourceId : UInt32) : Option GapPayload × JitterBuffer :=
  popWith SourceState.popInOrder b mediaSourceId

def popForce (b : JitterBuffer) (mediaSourceId : UInt32) : Option GapPayload × JitterBuffer :=
  popWith SourceState.popForce b mediaSourceId

/-- The number of frames waiting of a source. -/
def lenFor (b : JitterBuffer) (mediaSourceId : UInt32) : ℕ :=
  ((b.sources.lookup mediaSourceId).map fun s => s.waiting.length).getD 0

/-- A call on the buffer. -/
def call (b : JitterBuffer) : JitterCall → JitterAnswer × JitterBuffer
  | .push frame => let (outcome, b) := b.push frame; (.pushed outcome, b)
  | .popInOrder mediaSourceId => let (frame, b) := b.popInOrder mediaSourceId; (.popped frame, b)
  | .popForce mediaSourceId => let (frame, b) := b.popForce mediaSourceId; (.popped frame, b)

/-- The buffer after a call. -/
def step (b : JitterBuffer) (x : JitterCall) : JitterBuffer := (b.call x).2

end JitterBuffer

/-! What a call does to the state of its source. -/

namespace SourceState

/-- A call at the state of its source. -/
def respond (capacity : ℕ) (s : SourceState) : JitterCall → JitterAnswer × SourceState
  | .push frame => let (outcome, s) := s.push frame capacity; (.pushed outcome, s)
  | .popInOrder _ => let (frame, s) := s.popInOrder; (.popped frame, s)
  | .popForce _ => let (frame, s) := s.popForce; (.popped frame, s)

/-- The number of a frame, as a key. -/
def number (p : GapPayload) : ℕ := p.rtpSequence.toNat

/-- A frame is behind the number its source expects. -/
def Behind (s : SourceState) (p : GapPayload) : Prop :=
  ∃ next, s.next = some next ∧ p.rtpSequence < next

/-- All a call can do at the state of its source. -/
inductive Responds (capacity : ℕ) (s : SourceState) : JitterCall → JitterAnswer × SourceState → Prop
  | late (p : GapPayload) (hbehind : s.Behind p) : Responds capacity s (.push p) (.pushed .late, s)
  | dropped (p : GapPayload) (hahead : ¬ s.Behind p) (hheld : s.holds p.rtpSequence = true) :
      Responds capacity s (.push p) (.pushed .accepted, s)
  | queued (p : GapPayload) (hahead : ¬ s.Behind p) (hnew : s.holds p.rtpSequence = false)
      (hroom : (insertOrdered number p s.waiting).length ≤ capacity) :
      Responds capacity s (.push p)
        (.pushed .accepted, { s with waiting := insertOrdered number p s.waiting })
  | evicted (p first : GapPayload) (rest : List GapPayload) (hahead : ¬ s.Behind p)
      (hnew : s.holds p.rtpSequence = false)
      (hsplit : insertOrdered number p s.waiting = first :: rest) (hfull : capacity ≤ rest.length) :
      Responds capacity s (.push p) (.pushed (.evicted first), { s with waiting := rest })
  | waits (x : JitterCall) (hpop : ∀ p, x ≠ .push p) : Responds capacity s x (.popped none, s)
  | popped (x : JitterCall) (hpop : ∀ p, x ≠ .push p) (head : GapPayload) (rest : List GapPayload)
      (hsplit : s.waiting = head :: rest) :
      Responds capacity s x (.popped (some head), ⟨rest, some (head.rtpSequence + 1)⟩)

/-- The place a frame is inserted at is the one by its number. -/
theorem insertIdx_eq_insertOrdered (p : GapPayload) (waiting : List GapPayload) :
    waiting.insertIdx (waiting.findIdx fun q => decide (q.rtpSequence > p.rtpSequence)) p =
      insertOrdered number p waiting := by
  have hkey : (fun q : GapPayload => decide (q.rtpSequence > p.rtpSequence)) =
      fun q => decide (number p < number q) := by
    funext q
    exact decide_eq_decide.mpr UInt32.lt_iff_toNat_lt
  rw [hkey, insertOrdered]

theorem any_lt_iff_behind (s : SourceState) (p : GapPayload) :
    (s.next.any fun next => p.rtpSequence < next) = true ↔ s.Behind p := by
  cases h : s.next with
  | none => simp [Behind, h]
  | some next => simp [Behind, h]

theorem responds_push (capacity : ℕ) (s : SourceState) (p : GapPayload) :
    Responds capacity s (.push p) (s.respond capacity (.push p)) := by
  rw [respond, push]
  by_cases hbehind : s.Behind p
  · rw [if_pos ((any_lt_iff_behind s p).mpr hbehind)]
    exact .late p hbehind
  · rw [if_neg (mt (any_lt_iff_behind s p).mp hbehind), insert]
    cases hheld : s.holds p.rtpSequence with
    | true => exact .dropped p hbehind hheld
    | false =>
        simp only [Bool.false_eq_true, if_false, insertIdx_eq_insertOrdered]
        by_cases hfull : (insertOrdered number p s.waiting).length > capacity
        · rw [if_pos hfull]
          cases hsplit : insertOrdered number p s.waiting with
          | nil => simp [hsplit] at hfull
          | cons first rest =>
              rw [hsplit, List.length_cons] at hfull
              exact .evicted p first rest hbehind hheld hsplit (Nat.lt_succ_iff.mp hfull)
        · rw [if_neg hfull]
          exact .queued p hbehind hheld (Nat.not_lt.mp hfull)

theorem responds (capacity : ℕ) (s : SourceState) (x : JitterCall) :
    Responds capacity s x (s.respond capacity x) := by
  cases x with
  | push p => exact responds_push capacity s p
  | popInOrder source =>
      rw [respond, popInOrder]
      cases hwaiting : s.waiting with
      | nil => exact .waits (.popInOrder source) nofun
      | cons head rest =>
          dsimp only
          split
          · exact .waits (.popInOrder source) nofun
          · exact .popped (.popInOrder source) nofun head rest hwaiting
  | popForce source =>
      rw [respond, popForce]
      cases hwaiting : s.waiting with
      | nil => exact .waits (.popForce source) nofun
      | cons head rest => exact .popped (.popForce source) nofun head rest hwaiting

/-! The order of the window. -/

/-- The window is in order and bounded, and no frame in it is behind the number expected. The numbers
in it have a successor. -/
structure Sound (capacity : ℕ) (s : SourceState) : Prop where
  ascending : Ascends number s.waiting
  bounded : s.waiting.length ≤ capacity
  ahead : ∀ p ∈ s.waiting, ¬ s.Behind p
  small : ∀ p ∈ s.waiting, p.rtpSequence < 0xFFFFFFFF

theorem sound_new (capacity : ℕ) : Sound capacity new :=
  ⟨List.Pairwise.nil, Nat.zero_le _, nofun, nofun⟩

/-- The number after a small one is the next larger. -/
theorem toNat_succ_of_small {seq : UInt32} (h : seq < 0xFFFFFFFF) :
    (seq + 1).toNat = seq.toNat + 1 := by
  have hlt : seq.toNat < 0xFFFFFFFF := UInt32.lt_iff_toNat_lt.mp h
  rw [UInt32.toNat_add, UInt32.toNat_one]
  omega

/-- The frame pushed by a call has a successor of its number. -/
def Small (x : JitterCall) : Prop := ∀ p, x = .push p → p.rtpSequence < 0xFFFFFFFF

theorem ne_of_not_holds {s : SourceState} {p : GapPayload} (h : s.holds p.rtpSequence = false) :
    ∀ q ∈ s.waiting, number q ≠ number p := by
  intro q hq heq
  have hne : ¬ (q.rtpSequence == p.rtpSequence) = true := List.any_eq_false.mp h q hq
  exact hne (beq_iff_eq.mpr (UInt32.toNat_inj.mp heq))

/-- The window with a new frame inserted, before any eviction. -/
theorem Sound.inserted {capacity : ℕ} {s : SourceState} (h : Sound capacity s) {p : GapPayload}
    (hsmall : p.rtpSequence < 0xFFFFFFFF) (hahead : ¬ s.Behind p)
    (hnew : s.holds p.rtpSequence = false) :
    Ascends number (insertOrdered number p s.waiting) ∧
      ∀ q ∈ insertOrdered number p s.waiting, ¬ s.Behind q ∧ q.rtpSequence < 0xFFFFFFFF := by
  refine ⟨h.ascending.insertOrdered (ne_of_not_holds hnew), fun q hq => ?_⟩
  rcases List.mem_cons.mp ((insertOrdered_perm number p s.waiting).mem_iff.mp hq) with rfl | hq
  · exact ⟨hahead, hsmall⟩
  · exact ⟨h.ahead q hq, h.small q hq⟩

/-- One call keeps the window in order. -/
theorem Sound.respond {capacity : ℕ} {s : SourceState} (h : Sound capacity s) {x : JitterCall}
    (hx : Small x) : Sound capacity (s.respond capacity x).2 := by
  have hr := s.responds capacity x
  generalize s.respond capacity x = r at hr ⊢
  cases hr with
  | late => exact h
  | dropped => exact h
  | waits => exact h
  | queued p hahead hnew hroom =>
      obtain ⟨hasc, hall⟩ := h.inserted (hx p rfl) hahead hnew
      exact ⟨hasc, hroom, fun q hq => (hall q hq).1, fun q hq => (hall q hq).2⟩
  | evicted p first rest hahead hnew hsplit hfull =>
      obtain ⟨hasc, hall⟩ := h.inserted (hx p rfl) hahead hnew
      have hlength := (insertOrdered_perm number p s.waiting).length_eq
      rw [hsplit] at hasc hall hlength
      refine ⟨(List.pairwise_cons.mp hasc).2, ?_, fun q hq => ?_, fun q hq => ?_⟩
      · rw [List.length_cons, List.length_cons] at hlength
        exact Nat.succ.inj hlength ▸ h.bounded
      · exact (hall q (List.mem_cons_of_mem first hq)).1
      · exact (hall q (List.mem_cons_of_mem first hq)).2
  | popped x hpop head rest hsplit =>
      obtain ⟨hasc, hbounded, hahead, hsmall⟩ := h
      rw [hsplit] at hasc hbounded hsmall
      obtain ⟨hhead, hrest⟩ := List.pairwise_cons.mp hasc
      refine ⟨hrest, Nat.le_of_succ_le hbounded, ?_, fun q hq => hsmall q (List.mem_cons_of_mem _ hq)⟩
      rintro q hq ⟨next, hnext, hlt⟩
      have hsucc := toNat_succ_of_small (hsmall head (List.mem_cons_self ..))
      rw [← Option.some.inj hnext, UInt32.lt_iff_toNat_lt, hsucc] at hlt
      exact absurd (hhead q hq) (Nat.not_lt.mpr (Nat.lt_succ_iff.mp hlt))

/-! The fates of the frames. -/

end SourceState

/-- What becomes of a frame that is pushed and not waiting any more. -/
inductive Fate
  | popped
  | evicted
  | late
  | dropped
  deriving DecidableEq, Repr

/-- The frames a call pushes. -/
def JitterCall.frames : JitterCall → List GapPayload
  | .push frame => [frame]
  | _ => []

/-- The fates that a call and its answer decide, at the state of the source before it. A frame that is
accepted while one with its number is waiting is dropped. -/
def JitterCall.fates (s : SourceState) : JitterCall → JitterAnswer → List (Fate × GapPayload)
  | .push p, .pushed .late => [(.late, p)]
  | .push p, .pushed .accepted => if s.holds p.rtpSequence then [(.dropped, p)] else []
  | .push _, .pushed (.evicted q) => [(.evicted, q)]
  | .push _, .popped _ => []
  | _, .popped (some q) => [(.popped, q)]
  | _, _ => []

/-- The frames popped, in order. -/
def poppedOf (fates : List (Fate × GapPayload)) : List GapPayload :=
  (fates.filter fun f => f.1 = .popped).map Prod.snd

namespace SourceState

theorem fates_of_pop {x : JitterCall} (hpop : ∀ p, x ≠ .push p) (s : SourceState)
    (frame : Option GapPayload) :
    x.fates s (.popped frame) = (frame.map fun q => (Fate.popped, q)).toList ∧ x.frames = [] := by
  cases x with
  | push p => exact absurd rfl (hpop p)
  | popInOrder source => cases frame <;> exact ⟨rfl, rfl⟩
  | popForce source => cases frame <;> exact ⟨rfl, rfl⟩

/-- One call neither loses nor doubles a frame. -/
theorem respond_perm (capacity : ℕ) (s : SourceState) (x : JitterCall) :
    (x.frames ++ s.waiting).Perm
      ((x.fates s (s.respond capacity x).1).map Prod.snd ++ (s.respond capacity x).2.waiting) := by
  have hr := s.responds capacity x
  generalize s.respond capacity x = r at hr ⊢
  cases hr with
  | late p => exact List.Perm.refl _
  | dropped p hahead hheld =>
      rw [JitterCall.fates, if_pos hheld]
      exact List.Perm.refl _
  | queued p hahead hnew hroom =>
      rw [JitterCall.fates, hnew]
      exact (insertOrdered_perm number p s.waiting).symm
  | evicted p first rest hahead hnew hsplit =>
      have hperm := (insertOrdered_perm number p s.waiting).symm
      rw [hsplit] at hperm
      exact hperm
  | waits x hpop =>
      rw [(fates_of_pop hpop s none).1, (fates_of_pop hpop s none).2]
      exact List.Perm.refl _
  | popped x hpop head rest hsplit =>
      rw [(fates_of_pop hpop s _).1, (fates_of_pop hpop s none).2, hsplit]
      exact List.Perm.refl _

/-- The state of a source after a call for it. -/
def after (capacity : ℕ) (s : SourceState) (x : JitterCall) : SourceState :=
  (s.respond capacity x).2

/-- The fates that the calls for a source decide, in order. -/
def fates (capacity : ℕ) (s : SourceState) (xs : List JitterCall) : List (Fate × GapPayload) :=
  Machine.observe (after capacity) (fun s x => x.fates s (s.respond capacity x).1) s xs

open scoped List in
/-- A run of calls for a source neither loses nor doubles a frame. -/
theorem run_perm (capacity : ℕ) (s : SourceState) (xs : List JitterCall) :
    xs.flatMap JitterCall.frames ++ s.waiting ~
      (s.fates capacity xs).map Prod.snd ++ (Machine.run (after capacity) s xs).waiting := by
  induction xs generalizing s with
  | nil => exact List.Perm.refl _
  | cons x xs ih =>
      have hone := respond_perm capacity s x
      have hrest := ih (s.after capacity x)
      rw [fates, Machine.observe_cons, List.flatMap_cons, List.map_append, Machine.run_cons,
        List.append_assoc, List.append_assoc]
      calc x.frames ++ (xs.flatMap JitterCall.frames ++ s.waiting)
          _ ~ xs.flatMap JitterCall.frames ++ (x.frames ++ s.waiting) :=
            List.perm_append_comm_assoc ..
          _ ~ xs.flatMap JitterCall.frames ++
              ((x.fates s (s.respond capacity x).1).map Prod.snd ++
                (s.after capacity x).waiting) := hone.append_left _
          _ ~ (x.fates s (s.respond capacity x).1).map Prod.snd ++
              (xs.flatMap JitterCall.frames ++ (s.after capacity x).waiting) :=
            List.perm_append_comm_assoc ..
          _ ~ _ := hrest.append_left _

/-- A call pops nothing and leaves the number expected, or pops the first frame. -/
theorem popped_cases (capacity : ℕ) (s : SourceState) (x : JitterCall) :
    (poppedOf (x.fates s (s.respond capacity x).1) = [] ∧
        (s.after capacity x).next = s.next) ∨
      ∃ head rest, s.waiting = head :: rest ∧
        poppedOf (x.fates s (s.respond capacity x).1) = [head] ∧
        s.after capacity x = ⟨rest, some (head.rtpSequence + 1)⟩ := by
  have hr := s.responds capacity x
  rw [after]
  generalize s.respond capacity x = r at hr ⊢
  cases hr with
  | late p => exact Or.inl ⟨rfl, rfl⟩
  | dropped p hahead hheld =>
      rw [JitterCall.fates, if_pos hheld]
      exact Or.inl ⟨rfl, rfl⟩
  | queued p hahead hnew =>
      rw [JitterCall.fates, hnew]
      exact Or.inl ⟨rfl, rfl⟩
  | evicted p first rest => exact Or.inl ⟨rfl, rfl⟩
  | waits x hpop =>
      rw [(fates_of_pop hpop s none).1]
      exact Or.inl ⟨rfl, rfl⟩
  | popped x hpop head rest hsplit =>
      rw [(fates_of_pop hpop s _).1]
      exact Or.inr ⟨head, rest, hsplit, rfl, rfl⟩

/-- Between a frame that is behind and one that is not lies the number expected. -/
theorem number_lt_of_behind {s : SourceState} {p q : GapPayload} (hp : s.Behind p)
    (hq : ¬ s.Behind q) : number p < number q := by
  obtain ⟨next, hnext, hlt⟩ := hp
  by_contra hle
  refine hq ⟨next, hnext, UInt32.lt_iff_toNat_lt.mpr ?_⟩
  exact Nat.lt_of_le_of_lt (Nat.not_lt.mp hle) (UInt32.lt_iff_toNat_lt.mp hlt)

/-- The first frame popped is behind afterwards, and so is whatever was behind before. -/
theorem Sound.behind_popped {capacity : ℕ} {s : SourceState} (h : Sound capacity s)
    {head : GapPayload} {rest : List GapPayload} (hsplit : s.waiting = head :: rest) {q : GapPayload}
    (hq : q = head ∨ s.Behind q) : Behind ⟨rest, some (head.rtpSequence + 1)⟩ q := by
  have hmem : head ∈ s.waiting := by
    rw [hsplit]
    exact List.mem_cons_self ..
  refine ⟨_, rfl, UInt32.lt_iff_toNat_lt.mpr ?_⟩
  rw [toNat_succ_of_small (h.small head hmem)]
  rcases hq with rfl | hq
  · exact Nat.lt_succ_self _
  · exact Nat.lt_succ_of_lt (number_lt_of_behind hq (h.ahead head hmem))

/-- The frames popped along a run have ascending numbers, and none is behind at the start. -/
theorem Sound.popped_ascend {capacity : ℕ} {s : SourceState} (h : Sound capacity s)
    {xs : List JitterCall} (hxs : ∀ x ∈ xs, Small x) :
    Ascends number (poppedOf (s.fates capacity xs)) ∧
      ∀ p ∈ poppedOf (s.fates capacity xs), ¬ s.Behind p := by
  induction xs generalizing s with
  | nil => exact ⟨List.Pairwise.nil, nofun⟩
  | cons x xs ih =>
      have hnext : Sound capacity (s.after capacity x) := h.respond (hxs x (List.mem_cons_self ..))
      obtain ⟨hasc, hahead⟩ := ih hnext fun y hy => hxs y (List.mem_cons_of_mem x hy)
      have hsplit : poppedOf (s.fates capacity (x :: xs)) =
          poppedOf (x.fates s (s.respond capacity x).1) ++
            poppedOf ((s.after capacity x).fates capacity xs) := by
        rw [fates, Machine.observe_cons, poppedOf, List.filter_append, List.map_append]
        rfl
      rw [hsplit]
      rcases popped_cases capacity s x with ⟨hnone, hsame⟩ | ⟨head, rest, hwaiting, hone, heq⟩
      · rw [hnone, List.nil_append]
        refine ⟨hasc, fun p hp hbehind => hahead p hp ?_⟩
        rw [Behind, hsame]
        exact hbehind
      · have hmem : head ∈ s.waiting := by
          rw [hwaiting]
          exact List.mem_cons_self ..
        rw [hone, List.singleton_append]
        rw [heq] at hahead hasc ⊢
        constructor
        · refine List.pairwise_cons.mpr ⟨fun p hp => ?_, hasc⟩
          exact number_lt_of_behind (h.behind_popped hwaiting (Or.inl rfl)) (hahead p hp)
        · intro p hp hbehind
          rcases List.mem_cons.mp hp with rfl | hp
          · exact h.ahead p hmem hbehind
          · exact hahead p hp (h.behind_popped hwaiting (Or.inr hbehind))

end SourceState

/-! The whole buffer. -/

namespace JitterBuffer

theorem stateOf_put (b : JitterBuffer) (mediaSourceId source : UInt32) (s : SourceState) :
    (b.put mediaSourceId s).stateOf source =
      if source = mediaSourceId then s else b.stateOf source := by
  rw [stateOf, put, Counters.lookup_insert_ite, apply_ite (Option.getD · SourceState.new)]
  rfl

theorem lenFor_eq (b : JitterBuffer) (source : UInt32) :
    b.lenFor source = (b.stateOf source).waiting.length := by
  rw [lenFor, stateOf]
  cases b.sources.lookup source <;> rfl

/-- A pop of a source that was never heard of is one at a new state. -/
theorem popWith_spec (pop : SourceState → Option GapPayload × SourceState)
    (hnew : pop .new = (none, .new)) (b : JitterBuffer) (mediaSourceId source : UInt32) :
    (popWith pop b mediaSourceId).1 = (pop (b.stateOf mediaSourceId)).1 ∧
      (popWith pop b mediaSourceId).2.capacityPerSource = b.capacityPerSource ∧
      (popWith pop b mediaSourceId).2.stateOf source =
        if source = mediaSourceId then (pop (b.stateOf source)).2 else b.stateOf source := by
  cases hlookup : b.sources.lookup mediaSourceId with
  | none =>
      have hstate : b.stateOf mediaSourceId = .new := by rw [stateOf, hlookup]; rfl
      have heq : popWith pop b mediaSourceId = (none, b) := by rw [popWith, hlookup]
      rw [heq, hstate, hnew]
      refine ⟨rfl, rfl, ?_⟩
      by_cases h : source = mediaSourceId
      · rw [if_pos h, h, hstate, hnew]
      · rw [if_neg h]
  | some s =>
      have hstate : b.stateOf mediaSourceId = s := by rw [stateOf, hlookup]; rfl
      have heq : popWith pop b mediaSourceId = ((pop s).1, b.put mediaSourceId (pop s).2) := by
        rw [popWith, hlookup]
      rw [heq, hstate]
      refine ⟨rfl, rfl, ?_⟩
      rw [stateOf_put]
      by_cases h : source = mediaSourceId
      · rw [if_pos h, if_pos h, h, hstate]
      · rw [if_neg h, if_neg h]

/-- A call answers from the state of its source, and moves that state alone. -/
theorem call_spec (b : JitterBuffer) (x : JitterCall) (source : UInt32) :
    (b.call x).1 = ((b.stateOf x.source).respond b.capacityPerSource x).1 ∧
      (b.step x).capacityPerSource = b.capacityPerSource ∧
      (b.step x).stateOf source = if source = x.source
        then (b.stateOf source).after b.capacityPerSource x else b.stateOf source := by
  cases x with
  | push frame =>
      refine ⟨rfl, rfl, ?_⟩
      rw [step, call, push, stateOf_put, JitterCall.source]
      by_cases h : source = frame.mediaSourceId
      · rw [if_pos h, if_pos h, h]
        rfl
      · rw [if_neg h, if_neg h]
  | popInOrder mediaSourceId =>
      obtain ⟨hanswer, hcapacity, hstate⟩ :=
        popWith_spec SourceState.popInOrder rfl b mediaSourceId source
      exact ⟨congrArg JitterAnswer.popped hanswer, hcapacity, hstate⟩
  | popForce mediaSourceId =>
      obtain ⟨hanswer, hcapacity, hstate⟩ :=
        popWith_spec SourceState.popForce rfl b mediaSourceId source
      exact ⟨congrArg JitterAnswer.popped hanswer, hcapacity, hstate⟩

/-- The calls for a source. -/
def callsFor (source : UInt32) (xs : List JitterCall) : List JitterCall :=
  xs.filter fun x => x.source = source

theorem callsFor_cons_of_eq {source : UInt32} {x : JitterCall} (h : x.source = source)
    (xs : List JitterCall) : callsFor source (x :: xs) = x :: callsFor source xs :=
  List.filter_cons_of_pos (decide_eq_true h)

theorem callsFor_cons_of_ne {source : UInt32} {x : JitterCall} (h : x.source ≠ source)
    (xs : List JitterCall) : callsFor source (x :: xs) = callsFor source xs :=
  List.filter_cons_of_neg (by simpa using h)

/-- What is observed of the calls for a source, from the state of the source before each of them and
its answer. -/
def observed {β : Type} (out : SourceState → JitterCall → JitterAnswer → List β) (source : UInt32)
    (b : JitterBuffer) (xs : List JitterCall) : List β :=
  Machine.observe step
    (fun b x => if x.source = source then out (b.stateOf source) x (b.call x).1 else []) b xs

/-- The answers to the calls for a source. -/
def answersOf (source : UInt32) (b : JitterBuffer) (xs : List JitterCall) : List JitterAnswer :=
  observed (fun _ _ answer => [answer]) source b xs

/-- The fates that the calls for a source decide. -/
def fatesOf (source : UInt32) (b : JitterBuffer) (xs : List JitterCall) :
    List (Fate × GapPayload) :=
  observed (fun s x answer => x.fates s answer) source b xs

/-- The state of a source moves by its own calls alone. -/
theorem stateOf_run (source : UInt32) (b : JitterBuffer) (xs : List JitterCall) :
    (Machine.run step b xs).stateOf source =
      Machine.run (SourceState.after b.capacityPerSource) (b.stateOf source)
        (callsFor source xs) := by
  induction xs generalizing b with
  | nil => rfl
  | cons x xs ih =>
      obtain ⟨-, hcapacity, hstate⟩ := b.call_spec x source
      rw [Machine.run_cons, ih, hcapacity, hstate]
      by_cases h : x.source = source
      · rw [if_pos h.symm, callsFor_cons_of_eq h, Machine.run_cons]
      · rw [if_neg (Ne.symm h), callsFor_cons_of_ne h]

/-- What is observed of a source is observed of its own calls alone. -/
theorem observed_eq {β : Type} (out : SourceState → JitterCall → JitterAnswer → List β)
    (source : UInt32) (b : JitterBuffer) (xs : List JitterCall) :
    observed out source b xs =
      Machine.observe (SourceState.after b.capacityPerSource)
        (fun s x => out s x (s.respond b.capacityPerSource x).1) (b.stateOf source)
        (callsFor source xs) := by
  induction xs generalizing b with
  | nil => rfl
  | cons x xs ih =>
      obtain ⟨hanswer, hcapacity, hstate⟩ := b.call_spec x source
      have hrest := ih (b.step x)
      rw [observed] at hrest ⊢
      rw [Machine.observe_cons, hrest, hcapacity, hstate]
      by_cases h : x.source = source
      · rw [if_pos h, if_pos h.symm, callsFor_cons_of_eq h, Machine.observe_cons, hanswer, h]
      · rw [if_neg h, if_neg (Ne.symm h), callsFor_cons_of_ne h, List.nil_append]

theorem callsFor_callsFor (source : UInt32) (xs : List JitterCall) :
    callsFor source (callsFor source xs) = callsFor source xs := by
  rw [callsFor, callsFor, List.filter_filter]
  simp only [Bool.and_self]

/-- The numbers of the frames strictly ascend. -/
def InOrder (frames : List GapPayload) : Prop :=
  frames.Pairwise fun p q => p.rtpSequence < q.rtpSequence

theorem inOrder_of_ascends {frames : List GapPayload} (h : Ascends SourceState.number frames) :
    InOrder frames :=
  h.imp UInt32.lt_iff_toNat_lt.mpr

open scoped List in
/-- For every capacity above zero, every sequence of calls that pushes numbers below `2 ^ 32 - 1`, and
every source: its window is in order, is no longer than the capacity and holds nothing behind the
number expected; the frames popped have ascending numbers; every frame pushed is waiting or has
exactly one fate; and its state and the answers it gets are those of its own calls alone. -/
theorem jitter_buffer_sound (capacity : ℕ) (hcapacity : 0 < capacity) (xs : List JitterCall)
    (hxs : ∀ p, .push p ∈ xs → p.rtpSequence < 0xFFFFFFFF) (source : UInt32) :
    let start := new capacity hcapacity
    let b := Machine.run step start xs
    let mine := callsFor source xs
    InOrder (b.stateOf source).waiting ∧
      b.lenFor source ≤ capacity ∧
      (∀ next, (b.stateOf source).next = some next →
        ∀ p ∈ (b.stateOf source).waiting, next ≤ p.rtpSequence) ∧
      InOrder (poppedOf (fatesOf source start xs)) ∧
      mine.flatMap JitterCall.frames ~
        (fatesOf source start xs).map Prod.snd ++ (b.stateOf source).waiting ∧
      (Machine.run step start mine).stateOf source = b.stateOf source ∧
      answersOf source start mine = answersOf source start xs := by
  intro start b mine
  have hmine : ∀ x ∈ mine, SourceState.Small x := by
    rintro x hx p rfl
    exact hxs p (List.mem_of_mem_filter hx)
  have hfates : fatesOf source start xs = SourceState.new.fates capacity mine :=
    observed_eq _ source start xs
  have hstate : b.stateOf source = Machine.run (SourceState.after capacity) .new mine :=
    stateOf_run source start xs
  have hsound : SourceState.Sound capacity (b.stateOf source) := by
    rw [hstate]
    exact Machine.run_invariant (SourceState.sound_new capacity) fun s x hx hs =>
      hs.respond (hmine x hx)
  refine ⟨inOrder_of_ascends hsound.ascending, ?_, ?_, ?_, ?_, ?_, ?_⟩
  · rw [lenFor_eq]
    exact hsound.bounded
  · intro next hnext p hp
    exact UInt32.not_lt.mp fun hlt => hsound.ahead p hp ⟨next, hnext, hlt⟩
  · rw [hfates]
    exact inOrder_of_ascends ((SourceState.sound_new capacity).popped_ascend hmine).1
  · have hperm := SourceState.run_perm capacity .new mine
    rw [hfates, hstate]
    simpa only [SourceState.new, List.append_nil] using hperm
  · rw [hstate, stateOf_run, callsFor_callsFor]
    rfl
  · rw [answersOf, answersOf, observed_eq, observed_eq, callsFor_callsFor]

/-- A frame with a number from one source. -/
def frame (source seq : UInt32) : GapPayload := ⟨source, seq, 0, 0, []⟩

/-- Two sources share a buffer of two frames. Frame 3 waits, frame 1 is popped, frame 0 is late, and
frame 2, popped next, comes before a second frame 3 is dropped. -/
theorem jitter_buffer_sound_shared :
    let xs : List JitterCall := [.push (frame 1 3), .push (frame 2 9), .push (frame 1 1),
      .popInOrder 1, .push (frame 1 0), .push (frame 1 2), .popInOrder 1, .push (frame 1 3)]
    let start := new 2 (by decide)
    fatesOf 1 start xs =
        [(.popped, frame 1 1), (.late, frame 1 0), (.popped, frame 1 2), (.dropped, frame 1 3)] ∧
      InOrder (poppedOf (fatesOf 1 start xs)) ∧
      (Machine.run step start (callsFor 1 xs)).stateOf 1 = (Machine.run step start xs).stateOf 1 := by
  intro xs start
  have hxs : ∀ p, .push p ∈ xs → p.rtpSequence < 0xFFFFFFFF := by
    intro p hp
    simp only [xs, List.mem_cons, JitterCall.push.injEq, reduceCtorEq, List.not_mem_nil, or_false,
      false_or] at hp
    rcases hp with rfl | rfl | rfl | rfl | rfl | rfl <;> decide
  obtain ⟨-, -, -, hpopped, -, hstate, -⟩ := jitter_buffer_sound 2 (by decide) xs hxs 1
  exact ⟨by decide +kernel, hpopped, hstate⟩

end JitterBuffer

end GroupProtocol
