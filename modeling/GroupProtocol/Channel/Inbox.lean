import GroupProtocol.Lib.Records
import GroupProtocol.Node.Context
import GroupProtocol.Node.Queue
import GroupProtocol.Replay.Delivery

/-!
# What a network delivers

A network may lose, repeat and reorder the frames of the senders in any way, and the receiver may
do anything else in between that keeps its epoch. The payloads the receiver hands out are then the
records of the arrivals: of each stream, the frames above everything that came before them.
-/

namespace GroupProtocol

/-- One turn of a receiver: a frame arrives, or the member makes a call of its own. -/
inductive Turn (ι S : Type)
  | arrival (a : Arrival ι S)
  | own (x : TimedCall S)

namespace Turn

variable {ι S : Type}

/-- The call a turn makes. -/
def call : Turn ι S → TimedCall S
  | arrival a => a.call
  | own x => x

/-- The frame of a turn, if one arrives. -/
def frames : Turn ι S → List (SentFrame ι)
  | arrival a => [a.frame]
  | own _ => []

/-- The turn keeps the epoch and brings no frame beside the arrivals. -/
def Calm : Turn ι S → Prop
  | arrival _ => True
  | own x => GroupNode.receives x = false ∧ ∀ tid, x.call ≠ .applyTransition tid

/-- The frames of all turns, in the order they arrive. -/
def arrived (turns : List (Turn ι S)) : List (SentFrame ι) := turns.flatMap frames

theorem mem_arrived {a : Arrival ι S} {turns : List (Turn ι S)} (ha : arrival a ∈ turns) :
    a.frame ∈ arrived turns :=
  List.mem_flatMap.mpr ⟨_, ha, List.mem_singleton_self _⟩

end Turn

/-- The number of a frame within its stream. -/
def SentFrame.number {ι : Type} (f : SentFrame ι) : ℕ := f.payload.sequenceNo.toNat

/-- The payload of an event. -/
def Event.payload : Event → Option DeliveredPayload
  | .payloadReceived p => some p
  | _ => none

/-- The payloads among some events. -/
def payloadsOf (evs : List Event) : List DeliveredPayload := evs.filterMap Event.payload

theorem payloadsOf_append (evs more : List Event) :
    payloadsOf (evs ++ more) = payloadsOf evs ++ payloadsOf more := List.filterMap_append

namespace GroupNode

theorem payloadsOf_filter_isData (evs : List Event) :
    payloadsOf (evs.filter isData) = payloadsOf evs := by
  rw [payloadsOf, List.filterMap_filter]
  refine List.filterMap_congr fun e _ => ?_
  cases e <;> rfl

/-- The mark of every stream. -/
def marks (n : GroupNode) (k : StreamKey) : ℕ := (n.inHw.read k).toNat

theorem marks_insert (n : GroupNode) (k : StreamKey) (seq : SequenceNo) (evs : List Event) :
    marks { n with inHw := n.inHw.insert k seq, events := evs } =
      Function.update n.marks k seq.toNat := by
  funext j
  by_cases h : j = k
  · subst h
    rw [Function.update_self, marks, Counters.read_insert_self]
  · rw [Function.update_of_ne h, marks, Counters.read_insert_ne _ _ h, marks]

section Turns

variable {ι : Type} [Ciborium] {S : Type} [Sealer S]

/-- The payloads a call hands out. -/
def handed (n : GroupNode) (x : TimedCall S) : List DeliveredPayload := payloadsOf (n.returned x)

/-- The node after a turn. -/
def turn (n : GroupNode) (t : Turn ι S) : GroupNode := n.step t.call

/-- The payloads a receiver hands out along its turns. -/
def inbox (n : GroupNode) (turns : List (Turn ι S)) : List DeliveredPayload :=
  Machine.observe turn (fun n t => n.handed t.call) n turns

theorem handed_append (n : GroupNode) (x : TimedCall S) (hqueue : payloadsOf n.events = []) :
    n.handed x ++ payloadsOf (n.step x).events = payloadsOf (n.surfaced x) := by
  rw [handed, ← payloadsOf_append, returned_append, payloadsOf_append, hqueue, List.nil_append,
    surfaced, payloadsOf_filter_isData]

/-- A receiver in the group and epoch of the frames, with no payload waiting. -/
structure Listening (gid : GroupId) (epoch : UInt64) (n : GroupNode) : Prop where
  group : n.groupId = gid
  epoch : n.currentEpoch = epoch
  queue : payloadsOf n.events = []

/-- A call of the receiver's own hands out no payload and moves no mark. -/
theorem own_step {gid : GroupId} {epoch : UInt64} {n : GroupNode} (h : Listening gid epoch n)
    {x : TimedCall S} (hcalm : (Turn.own x : Turn ι S).Calm) :
    n.handed x = [] ∧ Listening gid epoch (n.step x) ∧ (n.step x).marks = n.marks := by
  obtain ⟨hreceives, happly⟩ := hcalm
  have hnone := n.handed_append x h.queue
  rw [surfaced_quiet hreceives] at hnone
  obtain ⟨hhanded, hqueue⟩ := List.append_eq_nil_iff.mp hnone
  have hcall {s : S} {wire : Bytes} (hc : x.call = .onWire s wire) : False := by
    rw [receives, hc] at hreceives
    cases hreceives
  cases n.step_effect x with
  | quiet keeps window admits pending events =>
      refine ⟨hhanded, ⟨keeps.groupId.trans h.group, keeps.epoch.trans h.epoch, hqueue⟩, ?_⟩
      funext k
      rw [marks, window, marks]
  | applied tid call => exact absurd call (happly tid)
  | received s wire f st call => exact (hcall call).elim
  | executed s wire f plain c call => exact (hcall call).elim

theorem step_onWire_events (n : GroupNode) (s : S) (wire : Bytes) (now : Instant) :
    (n.step (⟨now, .onWire s wire⟩ : TimedCall S)).events = [] := by
  rcases n.onWire_cases s wire now with ⟨m, -, -, heq⟩ | ⟨f, st, -, -, heq⟩ <;> simp only [step, heq]

/-- A frame at or below its mark hands out nothing and moves no mark. -/
theorem stale_step {gid : GroupId} {epoch : UInt64} {n : GroupNode} (h : Listening gid epoch n)
    {a : Arrival ι S} (ha : Delivering.Deliverable gid epoch a)
    (hstale : ¬n.inHw.read a.frame.key < a.frame.payload.sequenceNo) :
    n.handed a.call = [] ∧ Listening gid epoch (n.step a.call) ∧
      (n.step a.call).marks = n.marks := by
  obtain ⟨tid, hwire⟩ := ha.framed
  have hdecode : GbpFrame.decode a.frame.wire = .ok (a.frame.framed gid epoch tid) := by
    rw [hwire]
    exact GbpFrame.decode_toCbor_new ha.short
  have hnone : n.admitted (a.frame.framed gid epoch tid) = none := by
    rw [Option.eq_none_iff_forall_ne_some]
    intro st hst
    obtain ⟨-, -, -, -, htyped, -, hfresh⟩ := admitted_eq_some.mp hst
    have htype : (a.frame.framed gid epoch tid).streamTypeTyped = .ok a.frame.payload.streamType :=
      GbpFrame.streamTypeTyped_new ..
    rw [htype] at htyped
    rw [← Except.ok.inj htyped] at hfresh
    exact hstale hfresh
  obtain ⟨hsurfaced, hcontext, hwindow⟩ :=
    step_refused (s := a.provider) a.now (refused_of_decode hdecode hnone)
  have hhanded := n.handed_append a.call h.queue
  have hdrained : (n.step a.call).events = [] := step_onWire_events ..
  rw [show n.surfaced a.call = [] from hsurfaced, hdrained] at hhanded
  refine ⟨(List.append_eq_nil_iff.mp hhanded).1, ⟨?_, ?_, by rw [hdrained]; rfl⟩, ?_⟩
  · exact (congrArg groupId hcontext).trans h.group
  · exact (congrArg currentEpoch hcontext).trans h.epoch
  · funext k
    rw [marks, show (n.step a.call).inHw = n.inHw from hwindow, marks]

/-- A frame above its mark is handed out and becomes the mark. -/
theorem fresh_step {gid : GroupId} {epoch : UInt64} {n : GroupNode} (h : Listening gid epoch n)
    {a : Arrival ι S} (ha : Delivering.Deliverable gid epoch a)
    (hfresh : n.inHw.read a.frame.key < a.frame.payload.sequenceNo) :
    n.handed a.call = [a.frame.payload] ∧ Listening gid epoch (n.step a.call) ∧
      (n.step a.call).marks = Function.update n.marks a.frame.key a.frame.number := by
  obtain ⟨rfl, rfl, hqueue⟩ := h
  obtain ⟨hemitted, hstep⟩ := Delivering.arrival_step ha hfresh
  refine ⟨?_, ?_, ?_⟩
  · have hhanded := n.returned_append a.call
    rw [hstep, List.append_nil, hemitted] at hhanded
    rw [handed, hhanded, payloadsOf_append, hqueue]
    rfl
  · rw [hstep]
    exact ⟨rfl, rfl, rfl⟩
  · rw [hstep, marks_insert]
    rfl

/-- Whatever the network does, the payloads a receiver hands out are the records of the arriving
frames above its marks. -/
theorem inbox_eq_records {gid : GroupId} {epoch : UInt64} {n : GroupNode}
    (h : Listening gid epoch n) {turns : List (Turn ι S)} (hcalm : ∀ t ∈ turns, t.Calm)
    (hgood : ∀ a, Turn.arrival a ∈ turns → Delivering.Deliverable gid epoch a) :
    n.inbox turns =
      (Records.records SentFrame.key SentFrame.number n.marks (Turn.arrived turns)).map
        SentFrame.payload := by
  induction turns generalizing n with
  | nil => rfl
  | cons t turns ih =>
      have ht := hcalm t (List.mem_cons_self ..)
      have hcalm' : ∀ u ∈ turns, u.Calm := fun u hu => hcalm u (List.mem_cons_of_mem t hu)
      have hgood' : ∀ a, Turn.arrival a ∈ turns → Delivering.Deliverable gid epoch a :=
        fun a ha => hgood a (List.mem_cons_of_mem t ha)
      have hcons : n.inbox (t :: turns) = n.handed t.call ++ (n.turn t).inbox turns := rfl
      cases t with
      | own x =>
          obtain ⟨hhanded, hnext, hmarks⟩ := own_step (ι := ι) h ht
          have harrived : Turn.arrived (Turn.own x :: turns) = Turn.arrived turns := rfl
          rw [hcons, harrived, ← hmarks]
          exact congrArg₂ (· ++ ·) hhanded (ih (n := n.turn (.own x : Turn ι S)) hnext hcalm' hgood')
      | arrival a =>
          have ha := hgood a (List.mem_cons_self ..)
          have harrived : Turn.arrived (Turn.arrival a :: turns) =
            a.frame :: Turn.arrived turns := rfl
          have hmark : n.marks a.frame.key < a.frame.number ↔
              n.inHw.read a.frame.key < a.frame.payload.sequenceNo := UInt32.lt_iff_toNat_lt.symm
          rw [hcons, harrived, Records.records]
          by_cases hfresh : n.inHw.read a.frame.key < a.frame.payload.sequenceNo
          · obtain ⟨hhanded, hnext, hmarks⟩ := fresh_step h ha hfresh
            rw [if_pos (hmark.mpr hfresh), List.map_cons, ← hmarks]
            exact congrArg₂ (· ++ ·) hhanded (ih (n := n.turn (.arrival a)) hnext hcalm' hgood')
          · obtain ⟨hhanded, hnext, hmarks⟩ := stale_step h ha hfresh
            rw [if_neg (mt hmark.mp hfresh), ← hmarks]
            exact congrArg₂ (· ++ ·) hhanded (ih (n := n.turn (.arrival a)) hnext hcalm' hgood')

theorem Listening.turn {gid : GroupId} {epoch : UInt64} {n : GroupNode}
    (h : Listening gid epoch n) {t : Turn ι S} (hcalm : t.Calm)
    (hgood : ∀ a, t = .arrival a → Delivering.Deliverable gid epoch a) :
    Listening gid epoch (n.turn t) := by
  cases t with
  | own x => exact (own_step h hcalm).2.1
  | arrival a =>
      by_cases hfresh : n.inHw.read a.frame.key < a.frame.payload.sequenceNo
      · exact (fresh_step h (hgood a rfl) hfresh).2.1
      · exact (stale_step h (hgood a rfl) hfresh).2.1

end Turns

end GroupNode

/-- A sub-protocol client: its stream class and what it makes of a payload of that class at an
epoch. -/
structure Client (C β : Type) where
  stream : StreamType
  take : C → UInt64 → DeliveredPayload → β × C

namespace Client

variable {C β : Type} (k : Client C β)

/-- The client after a payload. -/
def taking (epoch : UInt64) (c : C) (p : DeliveredPayload) : C := (k.take c epoch p).2

/-- What the client makes of some payloads, one after the other. -/
def answers (epoch : UInt64) (c : C) (ps : List DeliveredPayload) : List β :=
  Machine.observe (k.taking epoch) (fun c p => [(k.take c epoch p).1]) c ps

/-- The client after some payloads. -/
def after (epoch : UInt64) (c : C) (ps : List DeliveredPayload) : C :=
  Machine.run (k.taking epoch) c ps

/-- The payloads of the client's class. -/
def mine (ps : List DeliveredPayload) : List DeliveredPayload :=
  ps.filter fun p => p.streamType = k.stream

variable {ι : Type} [Ciborium] {S : Type} [Sealer S]

/-- The receive loop of an application: after every call, the payloads of the class that it hands
out go to the client, at the epoch of the node. -/
def serve (s : GroupNode × C) (t : Turn ι S) : GroupNode × C :=
  let n := s.1.turn t
  (n, k.after n.currentEpoch s.2 (k.mine (s.1.handed t.call)))

/-- What the client answers in a turn of the loop. -/
def served (s : GroupNode × C) (t : Turn ι S) : List β :=
  k.answers (s.1.turn t).currentEpoch s.2 (k.mine (s.1.handed t.call))

/-- The answers of the loop along some turns. -/
def replies (n : GroupNode) (c : C) (turns : List (Turn ι S)) : List β :=
  Machine.observe k.serve k.served (n, c) turns

/-- Within one epoch the loop answers as the client alone does on everything handed out. -/
theorem serve_inbox {gid : GroupId} {epoch : UInt64} {n : GroupNode}
    (h : n.Listening gid epoch) (c : C) {turns : List (Turn ι S)} (hcalm : ∀ t ∈ turns, t.Calm)
    (hgood : ∀ a, Turn.arrival a ∈ turns → Delivering.Deliverable gid epoch a) :
    k.replies n c turns = k.answers epoch c (k.mine (n.inbox turns)) ∧
      (Machine.run k.serve (n, c) turns).2 = k.after epoch c (k.mine (n.inbox turns)) := by
  induction turns generalizing n c with
  | nil => exact ⟨rfl, rfl⟩
  | cons t turns ih =>
      have hnext : (n.turn t).Listening gid epoch := h.turn (hcalm t (List.mem_cons_self ..))
        fun a ha => hgood a (ha ▸ List.mem_cons_self ..)
      have hinbox : k.mine (n.inbox (t :: turns)) =
          k.mine (n.handed t.call) ++ k.mine ((n.turn t).inbox turns) := List.filter_append ..
      obtain ⟨hreplies, hafter⟩ := ih hnext (k.after epoch c (k.mine (n.handed t.call)))
        (fun u hu => hcalm u (List.mem_cons_of_mem t hu))
        fun a ha => hgood a (List.mem_cons_of_mem t ha)
      have hserve : k.serve (n, c) t =
          (n.turn t, k.after epoch c (k.mine (n.handed t.call))) := by
        rw [serve, hnext.epoch]
      have hserved : k.served (n, c) t = k.answers epoch c (k.mine (n.handed t.call)) := by
        rw [served, hnext.epoch]
      rw [hinbox, answers, after, Machine.observe_append, Machine.run_append]
      constructor
      · rw [replies, Machine.observe_cons, hserved, hserve]
        exact congrArg (_ ++ ·) hreplies
      · rw [Machine.run_cons, hserve]
        exact hafter

end Client

end GroupProtocol
