import GroupProtocol.Base.Serde
import GroupProtocol.Node.Context

/-!
# Forged frames against genuine ones

A receiver is run twice: once on genuine calls alone and once with forged frames inserted,
which pass the header checks and then fail to open. A forged frame leaves nothing behind
but a report and a mark in the replay window, since the number of a frame is recorded
before its payload is opened. Everything that decides what a genuine frame surfaces is
therefore the same in both runs, except for the marks.
-/

namespace GroupProtocol

/-- Two windows of one receiver, the second with forged numbers: it is never lower, it
covers every forged number, and where it is higher, a forged number is its mark. -/
structure Level (low high : Counters StreamKey SequenceNo)
    (marks : List (StreamKey × SequenceNo)) : Prop where
  le : ∀ k, low.read k ≤ high.read k
  covers : ∀ m ∈ marks, m.2 ≤ high.read m.1
  source : ∀ k, high.read k = low.read k ∨ ∃ m ∈ marks, m.1 = k ∧ m.2 = high.read k

namespace Level

variable {low high : Counters StreamKey SequenceNo} {marks : List (StreamKey × SequenceNo)}
  {key : StreamKey} {seq : SequenceNo}

theorem refl (h : Counters StreamKey SequenceNo) : Level h h [] :=
  ⟨fun _ => UInt32.le_refl _, by simp, fun _ => Or.inl rfl⟩

/-- Both windows record a number above the higher mark. -/
theorem record (h : Level low high marks) (hseq : high.read key < seq) :
    Level (low.insert key seq) (high.insert key seq) marks := by
  refine ⟨fun k => ?_, fun m hm => ?_, fun k => ?_⟩
  · rw [Counters.read_insert, Counters.read_insert]
    split
    · exact UInt32.le_refl _
    · exact h.le k
  · rw [Counters.read_insert]
    split
    · rename_i hk
      exact UInt32.le_of_lt (UInt32.lt_of_le_of_lt (hk ▸ h.covers m hm) hseq)
    · exact h.covers m hm
  · rw [Counters.read_insert, Counters.read_insert]
    split
    · exact Or.inl rfl
    · exact h.source k

/-- Only the lower window records a number, still below the higher mark. -/
theorem recordLow (h : Level low high marks) (hlow : low.read key < seq)
    (hhigh : seq ≤ high.read key) : Level (low.insert key seq) high marks := by
  refine ⟨fun k => ?_, h.covers, fun k => ?_⟩
  · rw [Counters.read_insert]
    split
    · rename_i hk
      exact hk ▸ hhigh
    · exact h.le k
  · rw [Counters.read_insert]
    split
    · rename_i hk
      subst hk
      refine Or.inr ((h.source k).resolve_left fun he => ?_)
      rw [he] at hhigh
      exact absurd hlow (UInt32.not_lt.mpr hhigh)
    · exact h.source k

/-- A forged number the higher window already covers. -/
theorem covered (h : Level low high marks) (hseq : seq ≤ high.read key) :
    Level low high (marks ++ [(key, seq)]) := by
  refine ⟨h.le, fun m hm => ?_, fun k => ?_⟩
  · rcases List.mem_append.mp hm with hm | hm
    · exact h.covers m hm
    · rw [List.mem_singleton.mp hm]
      exact hseq
  · rcases h.source k with he | ⟨m, hm, hmk⟩
    · exact Or.inl he
    · exact Or.inr ⟨m, List.mem_append_left _ hm, hmk⟩

/-- A forged number the higher window records. -/
theorem forge (h : Level low high marks) (hseq : high.read key < seq) :
    Level low (high.insert key seq) (marks ++ [(key, seq)]) := by
  refine ⟨fun k => ?_, fun m hm => ?_, fun k => ?_⟩
  · rw [Counters.read_insert]
    split
    · rename_i hk
      exact UInt32.le_of_lt (UInt32.lt_of_le_of_lt (hk ▸ h.le k) hseq)
    · exact h.le k
  · rw [Counters.read_insert]
    rcases List.mem_append.mp hm with hm | hm
    · split
      · rename_i hk
        exact UInt32.le_of_lt (UInt32.lt_of_le_of_lt (hk ▸ h.covers m hm) hseq)
      · exact h.covers m hm
    · rw [List.mem_singleton.mp hm, if_pos rfl]
      exact UInt32.le_refl _
  · rw [Counters.read_insert]
    split
    · rename_i hk
      exact Or.inr ⟨(key, seq), by simp, hk.symm, rfl⟩
    · rcases h.source k with he | ⟨m, hm, hmk⟩
      · exact Or.inl he
      · exact Or.inr ⟨m, List.mem_append_left _ hm, hmk⟩

/-- A number above the lower mark passes the higher one exactly when it is above every
forged number of its stream. -/
theorem passes_iff (h : Level low high marks) (hlow : low.read key < seq) :
    high.read key < seq ↔ ∀ m ∈ marks, m.1 = key → m.2 < seq := by
  constructor
  · rintro hlt m hm rfl
    exact UInt32.lt_of_le_of_lt (h.covers m hm) hlt
  · intro hall
    rcases h.source key with he | ⟨m, hm, hmk, hms⟩
    · rw [he]
      exact hlow
    · rw [← hms]
      exact hall m hm hmk

end Level

/-- An item of the second run: a call of the first run or an inserted frame. -/
inductive Insertion (S : Type)
  | genuine (x : TimedCall S)
  | forged (x : TimedCall S)

/-- The receiver in both runs, and the forged frames that reached the window of the second
run in the current epoch. -/
structure Twin where
  alone : GroupNode
  attacked : GroupNode
  marks : List (StreamKey × SequenceNo)

namespace Twin

section Runs

variable [Ciborium] {S : Type}

/-- Where a frame marks the window if it reaches it. -/
def marking (n : GroupNode) (x : TimedCall S) : List (StreamKey × SequenceNo) :=
  match x.call with
  | .onWire _ wire =>
    match GbpFrame.decode wire with
    | .ok f => (n.reaching f).toList.map fun st => ((st, f.streamId), f.sequenceNo)
    | .error _ => []
  | _ => []

variable [Sealer S]

/-- A genuine call is made in both runs, a forged frame arrives in the second one only. -/
def step (w : Twin) : Insertion S → Twin
  | .genuine x =>
    { alone := w.alone.step x
      attacked := w.attacked.step x
      marks := if (w.alone.step x).currentEpoch = w.alone.currentEpoch then w.marks else [] }
  | .forged x =>
    { w with attacked := w.attacked.step x, marks := w.marks ++ marking w.attacked x }

/-- An inserted frame has version 1, the receiver's group and epoch and its true size, and
fails to open. -/
def Forged (w : Twin) : Insertion S → Prop
  | .genuine _ => True
  | .forged x => ∃ s wire f, x.call = .onWire s wire ∧ GbpFrame.decode wire = .ok f ∧
      f.version = 1 ∧ f.groupIdArray = w.attacked.groupId ∧
      f.epoch = w.attacked.currentEpoch ∧ f.validatePayloadSize = .ok () ∧
      ∀ st, f.streamTypeTyped = .ok st →
        ∃ e, (Sealer.open s st f.sequenceNo f.encryptedPayload).1 = .error e

/-- A genuine call surfaces the same payloads and control messages in both runs. -/
def Unharmed (w : Twin) : Insertion S → Prop
  | .genuine x => w.attacked.surfaced x = w.alone.surfaced x
  | .forged _ => True

/-- A genuine frame with content that the first run admits carries a number above every
forged frame that reached the window before it, in its epoch and on its stream. -/
def Above (w : Twin) : Insertion S → Prop
  | .genuine x => ∀ s wire f st, x.call = .onWire s wire → GbpFrame.decode wire = .ok f →
      w.alone.admitted f = some st → w.alone.content s st f ≠ [] →
      ∀ m ∈ w.marks, m.1 = (st, f.streamId) → m.2 < f.sequenceNo
  | .forged _ => True

/-- The two runs agree on all that decides what a frame surfaces, and differ in the window
by forged marks only. -/
structure Aligned (w : Twin) : Prop where
  context : w.alone.context = w.attacked.context
  level : Level w.alone.inHw w.attacked.inHw w.marks

/-- A forged frame leaves nothing but its mark. -/
theorem Aligned.forged {w : Twin} (h : w.Aligned) {x : TimedCall S}
    (hx : w.Forged (.forged x)) : (w.step (.forged x)).Aligned := by
  obtain ⟨now, call⟩ := x
  obtain ⟨s, wire, f, hcall, hd, -, -, -, -, hfails⟩ := hx
  obtain rfl : call = .onWire s wire := hcall
  have hmarking : marking w.attacked (⟨now, .onWire s wire⟩ : TimedCall S) =
      (w.attacked.reaching f).toList.map fun st => ((st, f.streamId), f.sequenceNo) := by
    simp only [marking, hd]
  cases hadm : w.attacked.admitted f with
  | none =>
      obtain ⟨-, hcontext, hwindow⟩ :=
        GroupNode.step_refused (s := s) now (GroupNode.refused_of_decode hd hadm)
      refine ⟨h.context.trans hcontext.symm, ?_⟩
      simp only [step]
      rw [hwindow, hmarking]
      cases hreach : w.attacked.reaching f with
      | none => simpa using h.level
      | some st =>
          refine h.level.covered (UInt32.not_lt.mp fun hlt => ?_)
          rw [GroupNode.admitted_iff_reaching.mpr ⟨hreach, hlt⟩] at hadm
          cases hadm
  | some st =>
      obtain ⟨hreach, hlt⟩ := GroupNode.admitted_iff_reaching.mp hadm
      obtain ⟨e, he⟩ := hfails st (GroupNode.admitted_eq_some.mp hadm).stream
      have hnone : w.attacked.content s st f = [] := by
        simp only [GroupNode.content, he]
      obtain ⟨-, -, hkeeps⟩ := GroupNode.step_admitted (s := s) now hd hadm
      have hcontext := hkeeps hnone
      refine ⟨h.context.trans hcontext.symm, ?_⟩
      simp only [step]
      rw [GroupNode.step_window, if_pos (GroupNode.epoch_of_context hcontext),
        GroupNode.recorded_admitted now hd hadm, hmarking, hreach]
      exact h.level.forge hlt

/-- A genuine call keeps the runs aligned if it leads to one context and to windows that
differ by forged marks. -/
theorem Aligned.genuine {w : Twin} (h : w.Aligned) {x : TimedCall S}
    (hcontext : (w.alone.step x).context = (w.attacked.step x).context)
    (hlevel : Level (w.alone.recorded x) (w.attacked.recorded x) w.marks) :
    (w.step (.genuine x)).Aligned := by
  refine ⟨hcontext, ?_⟩
  simp only [step]
  rw [GroupNode.step_window, GroupNode.step_window, ← GroupNode.epoch_of_context hcontext,
    ← GroupNode.epoch_of_context h.context]
  split
  · exact hlevel
  · exact Level.refl ∅

/-- A call without data in either run, and without an admitted frame in the first, is
unharmed, and it raises no condition. -/
theorem Aligned.both_silent {w : Twin} {x : TimedCall S}
    (halone : w.alone.surfaced x = []) (hattacked : w.attacked.surfaced x = [])
    (hnone : ∀ s wire f, x.call = .onWire s wire → GbpFrame.decode wire = .ok f →
      w.alone.admitted f = none)
    (hnext : (w.step (.genuine x)).Aligned) :
    (w.Unharmed (.genuine x) ↔ w.Above (.genuine x)) ∧
      (w.Above (.genuine x) → (w.step (.genuine x)).Aligned) := by
  refine ⟨⟨fun _ => ?_, fun _ => hattacked.trans halone.symm⟩, fun _ => hnext⟩
  intro s wire f st hcall hd hadm
  rw [hnone s wire f hcall hd] at hadm
  cases hadm

omit [Ciborium] in
/-- What the second run admits, the first run admits. -/
theorem Aligned.admitted {w : Twin} (h : w.Aligned) {f : GbpFrame} {st : StreamType}
    (hadm : w.attacked.admitted f = some st) : w.alone.admitted f = some st := by
  obtain ⟨hreach, hlt⟩ := GroupNode.admitted_iff_reaching.mp hadm
  rw [← GroupNode.reaching_congr h.context] at hreach
  exact GroupNode.admitted_iff_reaching.mpr ⟨hreach, UInt32.lt_of_le_of_lt (h.level.le _) hlt⟩

/-- A frame that the first run refuses is refused in both. -/
theorem Aligned.refused {w : Twin} (h : w.Aligned) {s : S} {wire : Bytes} (now : Instant)
    (hrefused : ∀ f, GbpFrame.decode wire = .ok f → w.alone.admitted f = none) :
    (w.Unharmed (.genuine (⟨now, .onWire s wire⟩ : TimedCall S)) ↔
        w.Above (.genuine (⟨now, .onWire s wire⟩ : TimedCall S))) ∧
      (w.Above (.genuine (⟨now, .onWire s wire⟩ : TimedCall S)) →
        (w.step (.genuine (⟨now, .onWire s wire⟩ : TimedCall S))).Aligned) := by
  have hrefused' : ∀ f, GbpFrame.decode wire = .ok f → w.attacked.admitted f = none := by
    intro f hd
    cases hadm : w.attacked.admitted f with
    | none => rfl
    | some st =>
        rw [← hrefused f hd, h.admitted hadm]
  obtain ⟨halone, hcontext, -⟩ := GroupNode.step_refused (s := s) now hrefused
  obtain ⟨hattacked, hcontext', -⟩ := GroupNode.step_refused (s := s) now hrefused'
  refine Aligned.both_silent halone hattacked ?_ (h.genuine ?_ ?_)
  · rintro s' wire' f hcall hd
    cases hcall
    exact hrefused f hd
  · rw [hcontext, hcontext', h.context]
  · rw [GroupNode.recorded_refused now hrefused, GroupNode.recorded_refused now hrefused']
    exact h.level

/-- A frame that the first run admits surfaces its content there. In the second run it
does so if its number is above the forged ones, and otherwise it is refused. -/
theorem Aligned.admits {w : Twin} (h : w.Aligned) {s : S} {wire : Bytes} {f : GbpFrame}
    {st : StreamType} (now : Instant) (hd : GbpFrame.decode wire = .ok f)
    (hadm : w.alone.admitted f = some st) :
    (w.Unharmed (.genuine (⟨now, .onWire s wire⟩ : TimedCall S)) ↔
        w.Above (.genuine (⟨now, .onWire s wire⟩ : TimedCall S))) ∧
      (w.Above (.genuine (⟨now, .onWire s wire⟩ : TimedCall S)) →
        (w.step (.genuine (⟨now, .onWire s wire⟩ : TimedCall S))).Aligned) := by
  obtain ⟨hreach, hlow⟩ := GroupNode.admitted_iff_reaching.mp hadm
  have hreach' := hreach
  rw [GroupNode.reaching_congr h.context] at hreach'
  obtain ⟨halone, hcontext, hkeeps⟩ := GroupNode.step_admitted (s := s) now hd hadm
  have habove : w.Above (.genuine (⟨now, .onWire s wire⟩ : TimedCall S)) ↔
      (w.alone.content s st f ≠ [] → w.attacked.inHw.read (st, f.streamId) < f.sequenceNo) := by
    rw [h.level.passes_iff hlow]
    constructor
    · intro ha
      exact ha s wire f st rfl hd hadm
    · rintro ha s' wire' f' st' hcall hd' hadm'
      cases hcall
      obtain rfl := Except.ok.inj (hd.symm.trans hd')
      obtain rfl := Option.some.inj (hadm.symm.trans hadm')
      exact ha
  rw [habove]
  by_cases hpass : w.attacked.inHw.read (st, f.streamId) < f.sequenceNo
  · -- Both runs admit the frame and dispatch it in one context.
    have hadm' := GroupNode.admitted_iff_reaching.mpr ⟨hreach', hpass⟩
    obtain ⟨hattacked, hcontext', -⟩ := GroupNode.step_admitted (s := s) now hd hadm'
    have hcontent : w.attacked.content s st f = w.alone.content s st f := by
      rw [← GroupNode.content_context, ← h.context, GroupNode.content_context]
    refine ⟨⟨fun _ _ => hpass, fun _ => ?_⟩, fun _ => h.genuine ?_ ?_⟩
    · exact hattacked.trans (hcontent.trans halone.symm)
    · rw [hcontext, hcontext']
      exact (GroupNode.contextual_dispatch s st f now).congr h.context
    · rw [GroupNode.recorded_admitted now hd hadm, GroupNode.recorded_admitted now hd hadm']
      exact h.level.record hpass
  · -- Only the first run admits the frame.
    have hrefused : w.attacked.admitted f = none := by
      cases hadm' : w.attacked.admitted f with
      | none => rfl
      | some st' =>
          obtain rfl := Option.some.inj (hadm.symm.trans (h.admitted hadm'))
          exact absurd (GroupNode.admitted_iff_reaching.mp hadm').2 hpass
    have hrefused := GroupNode.refused_of_decode hd hrefused
    obtain ⟨hattacked, hcontext', -⟩ := GroupNode.step_refused (s := s) now hrefused
    have hnone (hc : w.alone.content s st f ≠ [] →
        w.attacked.inHw.read (st, f.streamId) < f.sequenceNo) : w.alone.content s st f = [] := by
      by_contra hne
      exact hpass (hc hne)
    constructor
    · constructor
      · intro hsame hne
        exact absurd (halone.symm.trans (Eq.symm hsame |>.trans hattacked)) hne
      · intro hc
        exact hattacked.trans (halone.trans (hnone hc)).symm
    · intro hc
      refine h.genuine ?_ ?_
      · rw [hkeeps (hnone hc), hcontext', h.context]
      · rw [GroupNode.recorded_admitted now hd hadm, GroupNode.recorded_refused now hrefused]
        exact h.level.recordLow hlow (UInt32.not_lt.mp hpass)

/-- One genuine call: it is unharmed exactly when its number is above the forged ones, and
then the runs stay aligned. -/
theorem Aligned.unharmed_iff {w : Twin} (h : w.Aligned) (x : TimedCall S) :
    (w.Unharmed (.genuine x) ↔ w.Above (.genuine x)) ∧
      (w.Above (.genuine x) → (w.step (.genuine x)).Aligned) := by
  cases hx : GroupNode.receives x with
  | false =>
      refine Aligned.both_silent (GroupNode.surfaced_quiet hx) (GroupNode.surfaced_quiet hx) ?_
        (h.genuine ((GroupNode.contextual_step hx).congr h.context) ?_)
      · intro s wire f hcall
        rw [GroupNode.receives, hcall] at hx
        cases hx
      · rw [GroupNode.recorded_quiet hx, GroupNode.recorded_quiet hx]
        exact h.level
  | true =>
      obtain ⟨now, call⟩ := x
      cases call with
      | onWire s wire =>
          by_cases hrefused : ∀ f, GbpFrame.decode wire = .ok f → w.alone.admitted f = none
          · exact h.refused now hrefused
          · push Not at hrefused
            obtain ⟨f, hd, hadm⟩ := hrefused
            obtain ⟨st, hst⟩ := Option.ne_none_iff_exists'.mp hadm
            exact h.admits now hd hst
      | _ => cases hx

/-- Along aligned runs, all genuine calls are unharmed exactly when all are above. -/
theorem Aligned.along_iff {w : Twin} (h : w.Aligned) {xs : List (Insertion S)}
    (hforged : Machine.Along step Forged w xs) :
    Machine.Along step Unharmed w xs ↔ Machine.Along step Above w xs := by
  induction xs generalizing w with
  | nil => exact Iff.rfl
  | cons x xs ih =>
      cases x with
      | forged x => exact and_congr Iff.rfl (ih (h.forged hforged.1) hforged.2)
      | genuine x =>
          obtain ⟨hiff, hnext⟩ := h.unharmed_iff x
          constructor
          · rintro ⟨hx, hxs⟩
            have ha := hiff.mp hx
            exact ⟨ha, (ih (hnext ha) hforged.2).mp hxs⟩
          · rintro ⟨ha, hxs⟩
            exact ⟨hiff.mpr ha, (ih (hnext ha) hforged.2).mpr hxs⟩

/-- The calls of the first run. -/
def genuineCalls (xs : List (Insertion S)) : List (TimedCall S) :=
  xs.filterMap fun
    | .genuine x => some x
    | .forged _ => none

/-- The calls of the second run. -/
def allCalls (xs : List (Insertion S)) : List (TimedCall S) :=
  xs.map fun
    | .genuine x => x
    | .forged x => x

theorem run_nodes (w : Twin) (xs : List (Insertion S)) :
    (Machine.run step w xs).alone = Machine.run GroupNode.step w.alone (genuineCalls xs) ∧
      (Machine.run step w xs).attacked =
        Machine.run GroupNode.step w.attacked (allCalls xs) := by
  induction xs generalizing w with
  | nil => exact ⟨rfl, rfl⟩
  | cons x xs ih =>
      cases x with
      | genuine x => exact ih (w.step (.genuine x))
      | forged x => exact ih (w.step (.forged x))

/-- Every genuine call surfaces the same payloads and control messages in the run with the
insertions and in the run without them. -/
def AllUnharmed (n : GroupNode) (xs : List (Insertion S)) : Prop :=
  ∀ earlier x later, xs = earlier ++ .genuine x :: later →
    (Machine.run GroupNode.step n (allCalls earlier)).surfaced x =
      (Machine.run GroupNode.step n (genuineCalls earlier)).surfaced x

/-- For every run of a receiver and every insertion of forged frames into it: no genuine
call is harmed exactly when every genuine frame with content carries a number above all
forged frames that reached the window before it, in its epoch and on its stream. -/
theorem genuine_unharmed_iff (n : GroupNode) (xs : List (Insertion S))
    (hforged : Machine.Along step Forged ⟨n, n, []⟩ xs) :
    AllUnharmed n xs ↔ Machine.Along step Above ⟨n, n, []⟩ xs := by
  have hstart : (⟨n, n, []⟩ : Twin).Aligned := ⟨rfl, Level.refl n.inHw⟩
  rw [← hstart.along_iff hforged, Machine.along_iff]
  constructor
  · intro h earlier x later hsplit
    cases x with
    | forged x => exact trivial
    | genuine x =>
        obtain ⟨halone, hattacked⟩ := run_nodes ⟨n, n, []⟩ earlier
        rw [Unharmed, halone, hattacked]
        exact h earlier x later hsplit
  · intro h earlier x later hsplit
    obtain ⟨halone, hattacked⟩ := run_nodes ⟨n, n, []⟩ earlier
    have hx := h earlier (.genuine x) later hsplit
    rw [Unharmed, halone, hattacked] at hx
    exact hx

end Runs

section OneText

/-- A fresh receiver in epoch zero. -/
def receiver : GroupNode := (GroupNode.new 2 (Vector.replicate 16 0)).bootstrapAsCreator 0

/-- A text frame of member 1 with a given number and payload. -/
def textFrame (seq : SequenceNo) (payload : Bytes) : GbpFrame :=
  GbpFrame.new (Vector.replicate 16 0) 0 0 .text 101 GbpFlags.orderedReliableAck seq payload 0

/-- The arrival of a frame where only the text under number 5 was sealed. -/
def arrives (f : GbpFrame) : TimedCall Ledger := ⟨0, .onWire ⟨0, [(0, .text, 5, [97])]⟩ f.toCbor⟩

/-- A forged frame before the text with number 5. -/
def forgedFirst (seq : SequenceNo) : List (Insertion Ledger) :=
  [.forged (arrives (textFrame seq [0])), .genuine (arrives (textFrame 5 [97]))]

theorem forged_forgedFirst (seq : SequenceNo) :
    Machine.Along step Forged ⟨receiver, receiver, []⟩ (forgedFirst seq) := by
  refine ⟨⟨_, _, textFrame seq [0], rfl, GbpFrame.decode_toCbor_new (by decide), rfl,
    GbpFrame.groupIdArray_new .., rfl, GbpFrame.validatePayloadSize_new (by decide), ?_⟩,
    trivial, trivial⟩
  intro st _
  refine ⟨.aead "open", ?_⟩
  simp [Sealer.open, textFrame, GbpFrame.new]

/-- A forged number below the text's own one does not harm it. -/
theorem genuine_unharmed_iff_lowerForgery : AllUnharmed receiver (forgedFirst 3) := by
  refine (genuine_unharmed_iff receiver (forgedFirst 3) (forged_forgedFirst 3)).mpr
    ⟨trivial, ?_, trivial⟩
  intro s wire f st hcall hd hadm _ m hm _
  cases hcall
  have hf : f = textFrame 5 [97] := GbpFrame.decode_toCbor_eq hd
  have hmarks : (step ⟨receiver, receiver, []⟩ (.forged (arrives (textFrame 3 [0])))).marks =
      [((.text, 101), 3)] := by
    decide +kernel
  rw [hmarks] at hm
  rw [List.mem_singleton.mp hm, hf]
  decide

/-- A forged frame with the largest number suppresses the text. -/
theorem forged_number_suppresses_text :
    Machine.Along step Forged ⟨receiver, receiver, []⟩ (forgedFirst 0xFFFFFFFF) ∧
      receiver.surfaced (arrives (textFrame 5 [97])) =
        [.payloadReceived ⟨.text, 101, 5, GbpFlags.orderedReliableAck, [97], .cbor⟩] ∧
      (receiver.step (arrives (textFrame 0xFFFFFFFF [0]))).surfaced
        (arrives (textFrame 5 [97])) = [] ∧
      ¬AllUnharmed receiver (forgedFirst 0xFFFFFFFF) := by
  have halone : receiver.surfaced (arrives (textFrame 5 [97])) =
      [.payloadReceived ⟨.text, 101, 5, GbpFlags.orderedReliableAck, [97], .cbor⟩] := by
    decide +kernel
  have hattacked : (receiver.step (arrives (textFrame 0xFFFFFFFF [0]))).surfaced
      (arrives (textFrame 5 [97])) = [] := by
    decide +kernel
  refine ⟨forged_forgedFirst _, halone, hattacked, ?_⟩
  intro h
  have hsame := h [.forged (arrives (textFrame 0xFFFFFFFF [0]))] _ [] rfl
  cases hattacked.symm.trans (hsame.trans halone)

end OneText

end Twin

end GroupProtocol
