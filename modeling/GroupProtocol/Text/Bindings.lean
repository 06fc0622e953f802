import GroupProtocol.Text.History

/-!
# The watermarks of the language bindings

The Python, JavaScript and C# packages carry their own history and watermark. Each stores an
observed identifier only when it lies above the stored one, with zero for an absent entry; the
Rust watermark gives the sender an entry first. Identifiers are integers of arbitrary size in
Python and JavaScript and 64-bit words in C#.
-/

namespace GroupProtocol

/-- One entry of the history of a binding; `V` is its type of message identifiers. -/
structure MessageEntry (V : Type) where
  senderId : MemberId
  messageId : V
  text : String
  deriving DecidableEq, Repr

/-- The entry of a message, with its identifier and its text as the binding has them. -/
def GtpMessage.entry {V : Type} (ofId : UInt64 → V) (text : GtpMessage → String)
    (m : GtpMessage) : MessageEntry V :=
  ⟨m.senderId, ofId m.messageId, text m⟩

/-- The buffered entries of a binding that its watermark does not reach. -/
def sinceEntries {V : Type} [LT V] [DecidableLT V] (lastSeen : MemberId → Option V)
    (buffer : List (MessageEntry V)) : List (MessageEntry V) :=
  buffer.filter fun m =>
    match lastSeen m.senderId with
    | none => true
    | some hw => decide (m.messageId > hw)

namespace Python

/-- The watermark of the Python package. -/
abbrev Watermark := Marks MemberId ℤ

def Watermark.observe (w : Watermark) (senderId : MemberId) (messageId : ℤ) : Watermark :=
  w.raise (senderId, messageId)

def Watermark.lastSeen (w : Watermark) (senderId : MemberId) : Option ℤ := w.lookup senderId

def since (watermark : Watermark) (buffer : List (MessageEntry ℤ)) : List (MessageEntry ℤ) :=
  sinceEntries watermark.lastSeen buffer

end Python

namespace JavaScript

/-- The watermark of the JavaScript package. -/
abbrev Watermark := Marks MemberId ℤ

def Watermark.observe (w : Watermark) (senderId : MemberId) (messageId : ℤ) : Watermark :=
  w.raise (senderId, messageId)

def Watermark.lastSeen (w : Watermark) (senderId : MemberId) : Option ℤ := w.lookup senderId

def since (watermark : Watermark) (buffer : List (MessageEntry ℤ)) : List (MessageEntry ℤ) :=
  sinceEntries watermark.lastSeen buffer

end JavaScript

namespace CSharp

/-- The watermark of the C# package. -/
abbrev Watermark := Marks MemberId UInt64

def Watermark.observe (w : Watermark) (senderId : MemberId) (messageId : UInt64) : Watermark :=
  w.raise (senderId, messageId)

def Watermark.lastSeen (w : Watermark) (senderId : MemberId) : Option UInt64 := w.lookup senderId

def since (watermark : Watermark) (buffer : List (MessageEntry UInt64)) :
    List (MessageEntry UInt64) :=
  sinceEntries watermark.lastSeen buffer

end CSharp

/-- An identifier as an integer. -/
def integerId (id : UInt64) : ℤ := id.toNat

theorem integerId_lt (a b : UInt64) : integerId a < integerId b ↔ a < b := by
  rw [integerId, integerId, Int.ofNat_lt, UInt64.lt_iff_toNat_lt]

/-- The watermark of each binding after the same observations. -/
def pythonObserving (calls : List (MemberId × UInt64)) : Python.Watermark :=
  Machine.run (fun w (call : MemberId × UInt64) => w.observe call.1 (integerId call.2)) ∅ calls

@[inherit_doc pythonObserving]
def javaScriptObserving (calls : List (MemberId × UInt64)) : JavaScript.Watermark :=
  Machine.run (fun w (call : MemberId × UInt64) => w.observe call.1 (integerId call.2)) ∅ calls

@[inherit_doc pythonObserving]
def cSharpObserving (calls : List (MemberId × UInt64)) : CSharp.Watermark :=
  Machine.run (fun w (call : MemberId × UInt64) => w.observe call.1 call.2) ∅ calls

/-- The four watermarks answer alike: for every sender, and for every history the bindings hold
the entries of. -/
structure WatermarksAgree (calls : List (MemberId × UInt64)) : Prop where
  lastSeen : ∀ senderId,
    (pythonObserving calls).lastSeen senderId =
        ((Watermark.observing calls).lastSeen senderId).map integerId ∧
      (javaScriptObserving calls).lastSeen senderId =
        ((Watermark.observing calls).lastSeen senderId).map integerId ∧
      (cSharpObserving calls).lastSeen senderId = (Watermark.observing calls).lastSeen senderId
  since : ∀ (history : MessageHistory) (text : GtpMessage → String),
    Python.since (pythonObserving calls) (history.buffer.map (·.entry integerId text)) =
        (history.since (Watermark.observing calls)).map (·.entry integerId text) ∧
      JavaScript.since (javaScriptObserving calls) (history.buffer.map (·.entry integerId text)) =
        (history.since (Watermark.observing calls)).map (·.entry integerId text) ∧
      CSharp.since (cSharpObserving calls) (history.buffer.map (·.entry id text)) =
        (history.since (Watermark.observing calls)).map (·.entry id text)

/-- A watermark that reads as the Rust one through an order embedding selects the same
messages. -/
theorem sinceEntries_entry {V : Type} [LT V] [DecidableLT V] {ofId : UInt64 → V}
    (hlt : ∀ a b, ofId a < ofId b ↔ a < b) (text : GtpMessage → String) (history : MessageHistory)
    {watermark : Watermark} {lastSeen : MemberId → Option V}
    (hseen : ∀ senderId, lastSeen senderId = (watermark.lastSeen senderId).map ofId) :
    sinceEntries lastSeen (history.buffer.map (·.entry ofId text)) =
      (history.since watermark).map (·.entry ofId text) := by
  rw [sinceEntries, MessageHistory.since, List.filter_map]
  refine congrArg (List.map _) (List.filter_congr fun m _ => ?_)
  have hlookup : watermark.lastSeen m.senderId = watermark.lastSeenMap.lookup m.senderId := rfl
  simp only [Function.comp_apply, GtpMessage.entry, hseen, hlookup]
  cases watermark.lastSeenMap.lookup m.senderId with
  | none => rfl
  | some hw => simp only [Option.map_some, Option.getD_some, gt_iff_lt, hlt]

theorem lastSeen_integers (calls : List (MemberId × UInt64)) (senderId : MemberId) :
    (pythonObserving calls).lastSeen senderId =
      ((cSharpObserving calls).lastSeen senderId).map integerId := by
  have hmap := Marks.lookup_run_map integerId_lt rfl calls senderId
  rw [Machine.run, List.foldl_map] at hmap
  exact hmap

/-- The other watermarks miss a sender of the Rust one exactly when it was observed with zero
alone. -/
theorem lastSeen_cSharp_iff (calls : List (MemberId × UInt64)) (senderId : MemberId) :
    (cSharpObserving calls).lastSeen senderId = (Watermark.observing calls).lastSeen senderId ↔
      ((∃ id, (senderId, id) ∈ calls) → ∃ id, 0 < id ∧ (senderId, id) ∈ calls) := by
  rw [Watermark.lastSeen, Watermark.observing, Watermark.lastSeenMap_run]
  exact Marks.lookup_run_eq_iff
    (fun v => UInt64.le_iff_toNat_le.mpr (Nat.zero_le v.toNat)) calls senderId

/-- The four watermarks agree exactly when every observed sender was observed with a positive
identifier. -/
theorem watermarks_agree_iff (calls : List (MemberId × UInt64)) :
    WatermarksAgree calls ↔
      ∀ senderId, (∃ id, (senderId, id) ∈ calls) → ∃ id, 0 < id ∧ (senderId, id) ∈ calls := by
  constructor
  · intro h senderId
    exact (lastSeen_cSharp_iff calls senderId).mp (h.lastSeen senderId).2.2
  · intro h
    have hcs (senderId : MemberId) := (lastSeen_cSharp_iff calls senderId).mpr (h senderId)
    have hpy (senderId : MemberId) : (pythonObserving calls).lastSeen senderId =
        ((Watermark.observing calls).lastSeen senderId).map integerId := by
      rw [lastSeen_integers, hcs senderId]
    have hid (senderId : MemberId) : (cSharpObserving calls).lastSeen senderId =
        ((Watermark.observing calls).lastSeen senderId).map id := by
      rw [hcs senderId, Option.map_id, id]
    -- The JavaScript watermark is the Python one, word for word.
    refine ⟨fun senderId => ⟨hpy senderId, hpy senderId, hcs senderId⟩, fun history text => ?_⟩
    exact ⟨sinceEntries_entry integerId_lt text history hpy,
      sinceEntries_entry integerId_lt text history hpy,
      sinceEntries_entry (fun _ _ => Iff.rfl) text history hid⟩

/-- Sender 7 is observed with message 0 alone: Rust has seen it and no longer yields the
message, the others have not and yield it. -/
theorem watermarks_disagree_at_zero :
    let calls : List (MemberId × UInt64) := [(7, 0)]
    let m := GtpMessage.plain 7 0 "x"
    let history := (MessageHistory.withCapacity 4 (by decide)).pushed m
    (Watermark.observing calls).lastSeen 7 = some 0 ∧
      (pythonObserving calls).lastSeen 7 = none ∧
      history.since (Watermark.observing calls) = [] ∧
      Python.since (pythonObserving calls) (history.buffer.map (·.entry integerId fun _ => "x")) =
        [⟨7, 0, "x"⟩] ∧
      ¬WatermarksAgree calls := by
  intro calls m history
  have hrust : (Watermark.observing calls).lastSeen 7 = some 0 := by decide +kernel
  have hpython : (pythonObserving calls).lastSeen 7 = none := by decide +kernel
  refine ⟨hrust, hpython, by decide +kernel, by decide +kernel, fun h => ?_⟩
  have hsame := (h.lastSeen 7).1
  rw [hrust, hpython] at hsame
  cases hsame

end GroupProtocol
