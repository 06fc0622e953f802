import GroupProtocol.Clients.Receiving
import GroupProtocol.Lib.HighWater

/-!
# Message history and resync watermark

The history is a bounded buffer that refuses a pair of sender and message identifier it still
holds; the watermark keeps the largest message identifier observed of each sender. A resync
query returns the buffered messages above the watermark.
-/

namespace GroupProtocol

/-- Per-sender high-water mark of accepted message identifiers. -/
structure Watermark where
  lastSeenMap : Marks MemberId UInt64

namespace Watermark

/-- Empty watermark. -/
def new : Watermark := ⟨∅⟩

/-- Records that a message identifier has been observed. Keeps the maximum. -/
def observe (w : Watermark) (call : MemberId × UInt64) : Watermark := ⟨w.lastSeenMap.track call⟩

/-- The last observed message identifier of a sender. -/
def lastSeen (w : Watermark) (senderId : MemberId) : Option UInt64 := w.lastSeenMap.lookup senderId

/-- The watermark after a list of observations. -/
def observing (calls : List (MemberId × UInt64)) : Watermark := Machine.run observe new calls

theorem lastSeenMap_run (w : Watermark) (calls : List (MemberId × UInt64)) :
    (Machine.run observe w calls).lastSeenMap = Machine.run Marks.track w.lastSeenMap calls := by
  induction calls generalizing w with
  | nil => rfl
  | cons call calls ih => exact ih (w.observe call)

/-- The last seen identifier of a sender is the largest one observed of it. -/
theorem summary_lastSeen (calls : List (MemberId × UInt64)) (senderId : MemberId) :
    Marks.Summary calls senderId ((observing calls).lastSeen senderId) := by
  rw [lastSeen, observing, lastSeenMap_run]
  exact Marks.summary_run (fun v => UInt64.le_iff_toNat_le.mpr (Nat.zero_le v.toNat)) calls senderId

/-- Neither the order nor the repetition of observations matters. -/
theorem lastSeen_congr {calls other : List (MemberId × UInt64)}
    (h : ∀ call, call ∈ other ↔ call ∈ calls) (senderId : MemberId) :
    (observing other).lastSeen senderId = (observing calls).lastSeen senderId :=
  ((summary_lastSeen other senderId).congr h).unique (summary_lastSeen calls senderId)

theorem observing_append (calls more : List (MemberId × UInt64)) :
    Machine.run observe (observing calls) more = observing (calls ++ more) := by
  rw [observing, observing, Machine.run_append]

end Watermark

/-- The pair that identifies a message. -/
def GtpMessage.pair (m : GtpMessage) : MemberId × UInt64 := (m.senderId, m.messageId)

/-- Bounded ring buffer of recent messages. -/
structure MessageHistory where
  capacity : ℕ
  positive : 0 < capacity
  buffer : List GtpMessage

namespace MessageHistory

/-- A history that retains up to `capacity` messages. -/
def withCapacity (capacity : ℕ) (positive : 0 < capacity) : MessageHistory where
  capacity := capacity
  positive := positive
  buffer := []

/-- Whether the pair is present. -/
def contains (h : MessageHistory) (senderId : MemberId) (messageId : UInt64) : Bool :=
  h.buffer.any fun m => m.senderId == senderId && m.messageId == messageId

/-- Records a message unless its pair is present. -/
def push (h : MessageHistory) (msg : GtpMessage) : MessageHistory × Bool :=
  if h.contains msg.senderId msg.messageId then (h, false)
  else
    let buffer := if h.buffer.length = h.capacity then h.buffer.tail else h.buffer
    ({ h with buffer := buffer ++ [msg] }, true)

/-- Every message produced after the watermark, in insertion order. -/
def since (h : MessageHistory) (watermark : Watermark) : List GtpMessage :=
  h.buffer.filter fun m =>
    ((watermark.lastSeenMap.lookup m.senderId).map fun hw => decide (m.messageId > hw)).getD true

/-- Every message of one sender produced strictly after an identifier. -/
def sinceForSender (h : MessageHistory) (senderId : MemberId) (sinceMessageId : UInt64) :
    List GtpMessage :=
  h.buffer.filter fun m => m.senderId == senderId && decide (m.messageId > sinceMessageId)

/-- The history after one push. -/
def pushed (h : MessageHistory) (msg : GtpMessage) : MessageHistory := (h.push msg).1

/-- The message of a push that returned `true`. -/
def added (h : MessageHistory) (msg : GtpMessage) : List GtpMessage :=
  if (h.push msg).2 then [msg] else []

theorem contains_iff {h : MessageHistory} {msg : GtpMessage} :
    h.contains msg.senderId msg.messageId = true ↔ msg.pair ∈ h.buffer.map GtpMessage.pair := by
  simp [contains, GtpMessage.pair]

/-- Making room before the insertion keeps the same window as cutting after it. -/
theorem evict_append {buffer : List GtpMessage} {capacity : ℕ} (hpos : 0 < capacity)
    (hlen : buffer.length ≤ capacity) (msg : GtpMessage) :
    (if buffer.length = capacity then buffer.tail else buffer) ++ [msg] =
      (buffer ++ [msg]).rtake capacity := by
  have hnext : (buffer ++ [msg]).length = buffer.length + 1 := by
    rw [List.length_append, List.length_singleton]
  rw [BoundedSeen.rtake_of_length_le (by omega)]
  by_cases hfull : buffer.length = capacity
  · have hne : buffer ≠ [] := by
      rintro rfl
      rw [List.length_nil] at hfull
      omega
    rw [if_pos hfull, if_pos (by omega), List.tail_append_of_ne_nil hne]
  · rw [if_neg hfull, if_neg (by omega)]

/-- The buffer is the end of what was added, without repetition of a pair. -/
structure Holds (capacity : ℕ) (h : MessageHistory) (log : List GtpMessage) : Prop where
  capacity_eq : h.capacity = capacity
  buffer_eq : h.buffer = log.rtake capacity
  nodup : (h.buffer.map GtpMessage.pair).Nodup

namespace Holds

variable {capacity : ℕ} {h : MessageHistory} {log : List GtpMessage}

theorem length_le (hh : Holds capacity h log) : h.buffer.length ≤ capacity := by
  rw [hh.buffer_eq, List.rtake_eq_reverse_take_reverse, List.length_reverse, List.length_take]
  exact Nat.min_le_left ..

/-- One push moves the window over what was added. -/
theorem push (hh : Holds capacity h log) (msg : GtpMessage) :
    Holds capacity (h.pushed msg) (log ++ h.added msg) := by
  by_cases hold : h.contains msg.senderId msg.messageId = true
  · have hpush : h.push msg = (h, false) := if_pos hold
    rw [pushed, added, hpush, if_neg Bool.false_ne_true, List.append_nil]
    exact hh
  · have hfresh : msg.pair ∉ h.buffer.map GtpMessage.pair := fun hmem => hold (contains_iff.mpr hmem)
    have hpush : h.push msg = ({ h with
        buffer := (if h.buffer.length = h.capacity then h.buffer.tail else h.buffer) ++ [msg] },
        true) := if_neg hold
    have hwindow : (if h.buffer.length = h.capacity then h.buffer.tail else h.buffer) ++ [msg] =
        (h.buffer ++ [msg]).rtake capacity := by
      rw [hh.capacity_eq]
      exact evict_append (hh.capacity_eq ▸ h.positive) hh.length_le msg
    rw [pushed, added, hpush, if_pos rfl, hwindow]
    refine ⟨hh.capacity_eq, ?_, ?_⟩
    · rw [hh.buffer_eq, rtake_append_singleton]
    · have hnodup : ((h.buffer ++ [msg]).map GtpMessage.pair).Nodup := by
        rw [List.map_append, List.map_singleton, List.nodup_append]
        refine ⟨hh.nodup, List.nodup_singleton _, fun a ha b hb => ?_⟩
        rintro rfl
        exact hfresh (List.mem_singleton.mp hb ▸ ha)
      exact hnodup.sublist ((List.drop_sublist _ _).map _)

end Holds

/-- The history after a list of pushes. -/
def pushing (capacity : ℕ) (positive : 0 < capacity) (msgs : List GtpMessage) : MessageHistory :=
  Machine.run pushed (withCapacity capacity positive) msgs

/-- The messages whose push returned `true`, oldest first. -/
def accepted (capacity : ℕ) (positive : 0 < capacity) (msgs : List GtpMessage) :
    List GtpMessage :=
  Machine.observe pushed added (withCapacity capacity positive) msgs

theorem holds_pushing (capacity : ℕ) (positive : 0 < capacity) (msgs : List GtpMessage) :
    Holds capacity (pushing capacity positive msgs) (accepted capacity positive msgs) := by
  have hempty : Holds capacity (withCapacity capacity positive) [] :=
    ⟨rfl, (List.rtake_nil capacity).symm, List.nodup_nil⟩
  have hany : Machine.Along pushed (fun _ _ => True) (withCapacity capacity positive) msgs :=
    Machine.along_of_forall (fun _ _ => trivial) pushed _
  exact Machine.along_invariant added (Holds capacity) hempty hany
    fun t log msg _ ht => ht.push msg

/-! Queries against a watermark that was built by observations. -/

/-- No observed identifier of the sender reaches the message. -/
def Missed (calls : List (MemberId × UInt64)) (m : GtpMessage) : Prop :=
  ∀ call ∈ calls, ¬(call.1 = m.senderId ∧ m.messageId ≤ call.2)

instance (calls : List (MemberId × UInt64)) : DecidablePred (Missed calls) := fun m =>
  -- over the list: the type of the calls is finite too, and far too large to search
  List.decidableBAll (fun call : MemberId × UInt64 => ¬(call.1 = m.senderId ∧ m.messageId ≤ call.2))
    calls

/-- The test of the query, read on the observations. -/
theorem above_iff_missed (calls : List (MemberId × UInt64)) (m : GtpMessage) :
    ((((Watermark.observing calls).lastSeen m.senderId).map
      fun hw => decide (m.messageId > hw)).getD true) = true ↔ Missed calls m := by
  have hsummary := Watermark.summary_lastSeen calls m.senderId
  cases hseen : (Watermark.observing calls).lastSeen m.senderId with
  | none =>
      rw [hseen] at hsummary
      refine iff_of_true rfl fun call hcall hreach => hsummary call.2 ?_
      rw [← hreach.1]
      exact hcall
  | some hw =>
      rw [hseen] at hsummary
      simp only [Option.map_some, Option.getD_some, decide_eq_true_eq]
      constructor
      · rintro habove ⟨sender, id⟩ hcall ⟨rfl, hreach⟩
        exact UInt64.not_le.mpr habove (UInt64.le_trans hreach (hsummary.upper id hcall))
      · intro hmissed
        exact UInt64.not_le.mp fun hle => hmissed (m.senderId, hw) hsummary.mem ⟨rfl, hle⟩

theorem since_observing (h : MessageHistory) (calls : List (MemberId × UInt64)) :
    h.since (Watermark.observing calls) = h.buffer.filter (Missed calls) := by
  refine List.filter_congr fun m _ => ?_
  rw [Bool.eq_iff_iff, decide_eq_true_eq]
  exact above_iff_missed calls m

/-- Restricted to a sender that was seen, the query is the one for that sender. -/
theorem since_sender (h : MessageHistory) {watermark : Watermark} {senderId : MemberId}
    {hw : UInt64} (hseen : watermark.lastSeen senderId = some hw) :
    (h.since watermark).filter (·.senderId == senderId) = h.sinceForSender senderId hw := by
  rw [since, sinceForSender, List.filter_filter]
  refine List.filter_congr fun m _ => ?_
  by_cases hsender : m.senderId = senderId
  · have hlookup : watermark.lastSeenMap.lookup m.senderId = some hw := by
      rw [hsender]
      exact hseen
    simp [hlookup]
  · have hother : (m.senderId == senderId) = false := beq_false_of_ne hsender
    rw [hother, Bool.false_and, Bool.false_and]

/-- Once everything the query yields is observed, it yields nothing. -/
theorem since_after_observing (h : MessageHistory) (calls : List (MemberId × UInt64)) :
    h.since (Machine.run Watermark.observe (Watermark.observing calls)
      ((h.since (Watermark.observing calls)).map GtpMessage.pair)) = [] := by
  rw [Watermark.observing_append, since_observing, since_observing, List.filter_eq_nil_iff]
  intro m hm
  rw [decide_eq_true_eq]
  intro hmissed
  have hbefore : Missed calls m := fun call hcall => hmissed call (List.mem_append_left _ hcall)
  have hyielded : m.pair ∈ (h.buffer.filter (Missed calls)).map GtpMessage.pair :=
    List.mem_map_of_mem (List.mem_filter.mpr ⟨hm, decide_eq_true hbefore⟩)
  exact hmissed m.pair (List.mem_append_right _ hyielded) ⟨rfl, UInt64.le_refl m.messageId⟩

/-- Message history and watermark implement resync: the buffer is the window of the latest
accepted pushes without a repeated pair, a query yields exactly what no observation reaches and
nothing once that is observed, and the watermark depends on the set of observations alone. -/
theorem history_resync (capacity : ℕ) (positive : 0 < capacity) (msgs : List GtpMessage)
    (calls : List (MemberId × UInt64)) :
    let history := pushing capacity positive msgs
    let watermark := Watermark.observing calls
    ((history.buffer.map GtpMessage.pair).Nodup ∧
      history.buffer.length ≤ capacity ∧
      history.buffer = (accepted capacity positive msgs).rtake capacity) ∧
    history.since watermark = history.buffer.filter (Missed calls) ∧
    (∀ senderId hw, watermark.lastSeen senderId = some hw →
      (history.since watermark).filter (·.senderId == senderId) =
        history.sinceForSender senderId hw) ∧
    history.since (Machine.run Watermark.observe watermark
      ((history.since watermark).map GtpMessage.pair)) = [] ∧
    ∀ other, (∀ call, call ∈ other ↔ call ∈ calls) →
      ∀ senderId, (Watermark.observing other).lastSeen senderId = watermark.lastSeen senderId := by
  intro history watermark
  have hholds := holds_pushing capacity positive msgs
  exact ⟨⟨hholds.nodup, hholds.length_le, hholds.buffer_eq⟩, since_observing history calls,
    fun senderId hw hseen => since_sender history hseen, since_after_observing history calls,
    fun other hsame senderId => Watermark.lastSeen_congr hsame senderId⟩

/-- A history of two messages after four pushes, one of them repeated, asked for what lies above
message 2. -/
theorem history_resync_evicts :
    let m (id : UInt64) := GtpMessage.plain 7 id "x"
    0 < 2 ∧ (pushing 2 (by decide) [m 1, m 2, m 1, m 3]).buffer = [m 2, m 3] ∧
      (pushing 2 (by decide) [m 1, m 2, m 1, m 3]).since
        (Watermark.observing [(7, 2), (7, 0), (7, 2)]) = [m 3] := by
  intro m
  have h := history_resync 2 (by decide) [m 1, m 2, m 1, m 3] [(7, 2), (7, 0), (7, 2)]
  refine ⟨by decide, ?_, ?_⟩
  · rw [h.1.2.2]
    decide +kernel
  · rw [h.2.1]
    decide +kernel

end MessageHistory

end GroupProtocol
