import GroupProtocol.Lib.Prefixed

/-!
# Streams in segments and length-prefixed messages over them

The receiving end of a connection yields its elements in segments of any size and then ends
with an error. The sending end takes elements until it breaks, if it ever does. Reading an
exact number of elements depends on the concatenation of the segments only.

A framed reader and a framed writer exchange sections of at most `limit` bytes. Their
specifications say what one call does with the bytes still to arrive or already sent; the
results about lists of messages follow from them for any connection.
-/

namespace GroupProtocol

namespace Streams

variable {α ε : Type}

/-- A receiving end: the segments still to arrive, and the error of a read that got only a
number of elements before they ran out. -/
structure Source (α ε : Type) where
  segments : List (List α)
  ended : ℕ → ε

/-- A sending end: the elements it has taken and, if it is going to break, how many more it
takes before and the error it reports then. -/
structure Sink (α ε : Type) where
  sent : List α
  breaks : Option (ℕ × ε)

/-- The state an operation leaves, whether it succeeds or not. -/
def leaves {σ β : Type} (op : EStateM ε σ β) (s : σ) : σ :=
  match op s with
  | .ok _ s' => s'
  | .error _ s' => s'

/-- Fills a buffer of `n` elements, segment by segment. -/
def fill (n : ℕ) (buf : List α) : List (List α) → List α × List (List α)
  | [] => (buf, [])
  | segment :: segments =>
    if n - buf.length < segment.length then
      (buf ++ segment.take (n - buf.length), segment.drop (n - buf.length) :: segments)
    else fill n (buf ++ segment) segments

/-- A filled buffer and the segments left behind are a cut of the concatenation. -/
theorem fill_eq {n : ℕ} {buf : List α} (h : buf.length ≤ n) (segments : List (List α)) :
    (fill n buf segments).1 = (buf ++ segments.flatten).take n ∧
      (fill n buf segments).2.flatten = (buf ++ segments.flatten).drop n := by
  induction segments generalizing buf with
  | nil =>
      rw [fill, List.flatten_nil, List.append_nil, List.take_of_length_le h,
        List.drop_of_length_le h]
      exact ⟨rfl, rfl⟩
  | cons segment segments ih =>
      rw [fill, List.flatten_cons]
      split
      · -- the segment ends the buffer and its rest stays in front
        next hneed =>
        have hle : n - buf.length ≤ segment.length := Nat.le_of_lt hneed
        constructor
        · rw [List.take_append, List.take_of_length_le h, List.take_append_of_le_length hle]
        · rw [List.drop_append, List.drop_of_length_le h, List.nil_append, List.flatten_cons,
            List.drop_append_of_le_length hle]
      · next hneed =>
        have hbuf : (buf ++ segment).length ≤ n := by
          rw [List.length_append]
          omega
        rw [← List.append_assoc]
        exact ih hbuf

namespace Source

/-- The elements still to arrive. -/
def rest (s : Source α ε) : List α := s.segments.flatten

/-- Reads `n` elements or reports the end of the stream. -/
def readExact (n : ℕ) : EStateM ε (Source α ε) (List α) := fun s =>
  let (buf, segments) := fill n [] s.segments
  if buf.length < n then .error (s.ended buf.length) { s with segments := segments }
  else .ok buf { s with segments := segments }

theorem fill_rest (n : ℕ) (s : Source α ε) :
    (fill n [] s.segments).1 = s.rest.take n ∧
      (fill n [] s.segments).2.flatten = s.rest.drop n :=
  fill_eq (Nat.zero_le n) s.segments

/-- With enough to come, a read returns exactly the next `n` elements. -/
theorem readExact_of_le {n : ℕ} {s : Source α ε} (h : n ≤ s.rest.length) :
    ∃ s', readExact n s = .ok (s.rest.take n) s' ∧ s'.rest = s.rest.drop n ∧
      s'.ended = s.ended := by
  obtain ⟨hbuf, hsegments⟩ := fill_rest n s
  refine ⟨{ s with segments := (fill n [] s.segments).2 }, ?_, hsegments, rfl⟩
  have hfull : ¬(fill n [] s.segments).1.length < n := by
    rw [hbuf, List.length_take]
    omega
  rw [readExact, ← hbuf]
  exact if_neg hfull

/-- With too little to come, a read takes all of it and reports the end. -/
theorem readExact_of_lt {n : ℕ} {s : Source α ε} (h : s.rest.length < n) :
    ∃ s', readExact n s = .error (s.ended s.rest.length) s' ∧ s'.rest = [] ∧
      s'.ended = s.ended := by
  obtain ⟨hbuf, hsegments⟩ := fill_rest n s
  rw [List.take_of_length_le (Nat.le_of_lt h)] at hbuf
  rw [List.drop_of_length_le (Nat.le_of_lt h)] at hsegments
  refine ⟨{ s with segments := (fill n [] s.segments).2 }, ?_, hsegments, rfl⟩
  have hshort : (fill n [] s.segments).1.length < n := by rwa [hbuf]
  rw [readExact, ← hbuf]
  exact if_pos hshort

end Source

namespace Sink

/-- Writes all elements, or as many as the connection takes before it breaks. -/
def writeAll (data : List α) : EStateM ε (Sink α ε) Unit := fun s =>
  match s.breaks with
  | none => .ok () { s with sent := s.sent ++ data }
  | some (room, fault) =>
    if data.length ≤ room then
      .ok () { sent := s.sent ++ data, breaks := some (room - data.length, fault) }
    else .error fault { sent := s.sent ++ data.take room, breaks := some (0, fault) }

theorem writeAll_of_intact {s : Sink α ε} (h : s.breaks = none) (data : List α) :
    writeAll data s = .ok () { s with sent := s.sent ++ data } := by
  rw [writeAll, h]

/-- A sending end that is going to break keeps a cut of what is written behind its room. -/
theorem writeAll_of_break {s : Sink α ε} {room : ℕ} {fault : ε} {data : List α}
    (h : s.breaks = some (room, fault)) (hroom : room < data.length) :
    writeAll data s =
      .error fault { sent := s.sent ++ data.take room, breaks := some (0, fault) } := by
  simp only [writeAll, h]
  rw [if_neg (by omega)]

theorem writeAll_nil (s : Sink α ε) : writeAll [] s = .ok () s := by
  obtain ⟨sent, breaks⟩ := s
  cases breaks with
  | none => simp [writeAll]
  | some next => simp [writeAll]

/-- Writing in two parts is writing the concatenation, also where the connection breaks. -/
theorem writeAll_append (first second : List α) :
    (writeAll first >>= fun _ => writeAll second : EStateM ε (Sink α ε) Unit) =
      writeAll (first ++ second) := by
  funext s
  obtain ⟨sent, breaks⟩ := s
  cases breaks with
  | none => simp [bind, EStateM.bind, writeAll]
  | some next =>
      obtain ⟨room, fault⟩ := next
      by_cases hfirst : first.length ≤ room
      · by_cases hboth : second.length ≤ room - first.length
        · have hlen : first.length + second.length ≤ room := by omega
          simp only [bind, EStateM.bind, writeAll, if_pos hfirst, if_pos hboth,
            List.length_append, if_pos hlen, List.append_assoc, Nat.sub_sub]
        · have hlen : ¬first.length + second.length ≤ room := by omega
          simp only [bind, EStateM.bind, writeAll, if_pos hfirst, if_neg hboth,
            List.length_append, if_neg hlen, List.append_assoc, List.take_append,
            List.take_of_length_le hfirst]
      · have hlen : ¬first.length + second.length ≤ room := by omega
        have hzero : room - first.length = 0 := by omega
        simp only [bind, EStateM.bind, writeAll, if_neg hfirst, List.length_append, if_neg hlen,
          List.take_append, hzero, List.take_zero, List.append_nil]

/-- What a sending end has taken grows by a cut of what is written. -/
theorem sent_leaves_writeAll (data : List α) (s : Sink α ε) :
    (leaves (writeAll data) s).sent <+: s.sent ++ data := by
  obtain ⟨sent, breaks⟩ := s
  cases breaks with
  | none => exact List.prefix_rfl
  | some next =>
      obtain ⟨room, fault⟩ := next
      by_cases hroom : data.length ≤ room
      · simp only [leaves, writeAll, if_pos hroom]
        exact List.prefix_rfl
      · simp only [leaves, writeAll, if_neg hroom]
        exact (List.prefix_append_right_inj _).mpr (List.take_prefix room data)

end Sink

/-- A component of a state that is read and replaced on its own. -/
structure Part (σ τ : Type) where
  get : σ → τ
  set : τ → σ → σ
  get_set : ∀ t s, get (set t s) = t
  set_get : ∀ s, set (get s) s = s
  set_set : ∀ t u s, set t (set u s) = set t s

namespace Part

variable {σ τ φ β : Type} (part : Part σ τ) (wrap : φ → ε)

/-- Runs an operation of the component, with its errors wrapped. -/
def lift (op : EStateM φ τ β) : EStateM ε σ β := fun s =>
  match op (part.get s) with
  | .ok b t => .ok b (part.set t s)
  | .error e t => .error (wrap e) (part.set t s)

theorem lift_bind {γ : Type} (op : EStateM φ τ β) (next : β → EStateM φ τ γ) :
    part.lift wrap (op >>= next) =
      (part.lift wrap op >>= fun b => part.lift wrap (next b) : EStateM ε σ γ) := by
  funext s
  simp only [bind, EStateM.bind, lift]
  cases op (part.get s) with
  | error e t => rfl
  | ok b t =>
      simp only [part.get_set]
      cases next b t <;> simp only [part.set_set]

end Part

/-- The same for the sending end of a connection. -/
theorem sent_leaves_lift {σ φ : Type} (part : Part σ (Sink UInt8 φ)) (wrap : φ → ε)
    (data : List UInt8) (s : σ) :
    (part.get (leaves (part.lift wrap (Sink.writeAll data)) s)).sent <+:
      (part.get s).sent ++ data := by
  have hsink := Sink.sent_leaves_writeAll data (part.get s)
  rw [leaves] at hsink ⊢
  rw [Part.lift]
  cases hop : Sink.writeAll data (part.get s) with
  | ok u t =>
      rw [hop] at hsink
      simp only [part.get_set]
      exact hsink
  | error e t =>
      rw [hop] at hsink
      simp only [part.get_set]
      exact hsink

/-- Reads a number of messages. -/
def readMany {σ β : Type} (read : EStateM ε σ β) : ℕ → EStateM ε σ (List β)
  | 0 => pure []
  | count + 1 => do
    let message ← read
    let messages ← readMany read count
    return message :: messages

section Framed

variable {σ φ : Type} (limit : ℕ) (tooLarge : ℕ → ε)

/-- Writes the section of a message that is not over the limit. -/
def writeFramed (writeAll : List UInt8 → EStateM ε σ Unit) (data : List UInt8) :
    EStateM ε σ Unit := do
  if limit < data.length then throw (tooLarge data.length)
  writeAll (leBytes 4 data.length)
  writeAll data

/-- Reads a section whose length is not over the limit. -/
def readFramed (readExact : ℕ → EStateM ε σ (List UInt8)) : EStateM ε σ (List UInt8) := do
  let header ← readExact 4
  if limit < leNat header then throw (tooLarge (leNat header))
  readExact (leNat header)

variable {limit}

/-- A message over the limit is refused before anything is written. -/
theorem writeFramed_of_lt {data : List UInt8} (h : limit < data.length)
    (writeAll : List UInt8 → EStateM ε σ Unit) (s : σ) :
    writeFramed limit tooLarge writeAll data s = .error (tooLarge data.length) s := by
  rw [writeFramed, if_pos h]
  rfl

section Sending

variable (part : Part σ (Sink UInt8 φ)) (wrap : φ → ε)

/-- A message within the limit is written as its section. -/
theorem writeFramed_eq {data : List UInt8} (h : data.length ≤ limit) :
    writeFramed limit tooLarge (fun data => part.lift wrap (Sink.writeAll data)) data =
      part.lift wrap (Sink.writeAll (Prefixed.put data)) := by
  rw [Prefixed.put, ← Sink.writeAll_append, Part.lift_bind, writeFramed, if_neg (by omega)]

/-- Messages within the limit are written as the concatenation of their sections. -/
theorem forM_writeFramed {blobs : List (List UInt8)} (h : ∀ blob ∈ blobs, blob.length ≤ limit) :
    forM blobs (writeFramed limit tooLarge fun data => part.lift wrap (Sink.writeAll data)) =
      part.lift wrap (Sink.writeAll (blobs.flatMap Prefixed.put)) := by
  induction blobs with
  | nil =>
      funext s
      rw [List.flatMap_nil, Part.lift, Sink.writeAll_nil]
      exact congrArg (EStateM.Result.ok ()) (part.set_get s).symm
  | cons blob blobs ih =>
      rw [List.forM_cons, List.flatMap_cons, ← Sink.writeAll_append, Part.lift_bind,
        writeFramed_eq tooLarge part wrap (h blob (List.mem_cons_self ..)),
        ih fun other hother => h other (List.mem_cons_of_mem blob hother)]

end Sending

section Receiving

variable (part : Part σ (Source UInt8 φ)) (wrap : φ → ε)

/-- The reader over the receiving end of a connection. -/
def readLifted (n : ℕ) : EStateM ε σ (List UInt8) := part.lift wrap (Source.readExact n)

variable {s : σ}

theorem readLifted_of_le {n : ℕ} (h : n ≤ (part.get s).rest.length) :
    ∃ s', readLifted part wrap n s = .ok ((part.get s).rest.take n) s' ∧
      (part.get s').rest = (part.get s).rest.drop n ∧
      (part.get s').ended = (part.get s).ended := by
  obtain ⟨t, hread, hrest, hended⟩ := Source.readExact_of_le h
  refine ⟨part.set t s, ?_, ?_, ?_⟩
  · rw [readLifted, Part.lift, hread]
  · rw [part.get_set, hrest]
  · rw [part.get_set, hended]

theorem readLifted_of_lt {n : ℕ} (h : (part.get s).rest.length < n) :
    ∃ s' got, readLifted part wrap n s = .error (wrap ((part.get s).ended got)) s' := by
  obtain ⟨t, hread, -, -⟩ := Source.readExact_of_lt h
  refine ⟨part.set t s, (part.get s).rest.length, ?_⟩
  rw [readLifted, Part.lift, hread]

/-- The header is read first, whatever the segments are. -/
theorem readLifted_header {header body : List UInt8} (hlen : header.length = 4)
    (h : (part.get s).rest = header ++ body) :
    ∃ s', readLifted part wrap 4 s = .ok header s' ∧ (part.get s').rest = body ∧
      (part.get s').ended = (part.get s).ended := by
  have hle : 4 ≤ (part.get s).rest.length := by
    rw [h, List.length_append]
    omega
  obtain ⟨s', hread, hrest, hended⟩ := readLifted_of_le part wrap hle
  rw [h, List.take_left' hlen] at hread
  rw [h, List.drop_left' hlen] at hrest
  exact ⟨s', hread, hrest, hended⟩

/-- A header over the limit is refused, and the bytes behind it stay where they are. -/
theorem readFramed_of_lt {header body : List UInt8} (hlen : header.length = 4)
    (hlimit : limit < leNat header) (h : (part.get s).rest = header ++ body) :
    ∃ s', readFramed limit tooLarge (readLifted part wrap) s =
        .error (tooLarge (leNat header)) s' ∧ (part.get s').rest = body := by
  obtain ⟨s', hread, hrest, -⟩ := readLifted_header part wrap hlen h
  refine ⟨s', ?_, hrest⟩
  simp only [readFramed, bind, EStateM.bind, hread, if_pos hlimit]
  rfl

/-- A section within the limit is read back, and the bytes behind it stay. -/
theorem readFramed_put {data tail : List UInt8} (hwidth : limit < 2 ^ 32)
    (hdata : data.length ≤ limit) (h : (part.get s).rest = Prefixed.put data ++ tail) :
    ∃ s', readFramed limit tooLarge (readLifted part wrap) s = .ok data s' ∧
      (part.get s').rest = tail ∧ (part.get s').ended = (part.get s).ended := by
  rw [Prefixed.put, List.append_assoc] at h
  have hnat : leNat (leBytes 4 data.length) = data.length := leNat_leBytes (by omega)
  obtain ⟨s₁, hheader, hrest, hended⟩ := readLifted_header part wrap (length_leBytes 4 _) h
  have hle : data.length ≤ (part.get s₁).rest.length := by
    rw [hrest, List.length_append]
    omega
  obtain ⟨s₂, hbody, hrest₂, hended₂⟩ := readLifted_of_le part wrap hle
  rw [hrest, List.take_left] at hbody
  rw [hrest, List.drop_left] at hrest₂
  refine ⟨s₂, ?_, hrest₂, hended₂.trans hended⟩
  simp only [readFramed, bind, EStateM.bind, hheader, hnat, if_neg (Nat.not_lt.mpr hdata)]
  exact hbody

/-- Too few bytes for a header report the end. -/
theorem readFramed_of_short_header (h : (part.get s).rest.length < 4) :
    ∃ s' got, readFramed limit tooLarge (readLifted part wrap) s =
      .error (wrap ((part.get s).ended got)) s' := by
  obtain ⟨s', got, hread⟩ := readLifted_of_lt part wrap h
  refine ⟨s', got, ?_⟩
  simp only [readFramed, bind, EStateM.bind, hread]

/-- Too few bytes for the announced body report the end. -/
theorem readFramed_of_short_body {n : ℕ} {body : List UInt8} (hwidth : limit < 2 ^ 32)
    (hn : n ≤ limit) (h : (part.get s).rest = leBytes 4 n ++ body) (hshort : body.length < n) :
    ∃ s' got, readFramed limit tooLarge (readLifted part wrap) s =
      .error (wrap ((part.get s).ended got)) s' := by
  have hnat : leNat (leBytes 4 n) = n := leNat_leBytes (by omega)
  obtain ⟨s₁, hheader, hrest, hended⟩ := readLifted_header part wrap (length_leBytes 4 n) h
  have hlt : (part.get s₁).rest.length < n := by rwa [hrest]
  obtain ⟨s', got, hread⟩ := readLifted_of_lt part wrap hlt
  refine ⟨s', got, ?_⟩
  rw [hended] at hread
  simp only [readFramed, bind, EStateM.bind, hheader, hnat, if_neg (Nat.not_lt.mpr hn)]
  exact hread

/-- Sections within the limit are read back one by one, and the bytes behind them stay. -/
theorem readMany_put {blobs : List (List UInt8)} {tail : List UInt8} (hwidth : limit < 2 ^ 32)
    (hfit : ∀ blob ∈ blobs, blob.length ≤ limit)
    (h : (part.get s).rest = blobs.flatMap Prefixed.put ++ tail) :
    ∃ s', readMany (readFramed limit tooLarge (readLifted part wrap)) blobs.length s =
        .ok blobs s' ∧
      (part.get s').rest = tail ∧ (part.get s').ended = (part.get s).ended := by
  induction blobs generalizing s with
  | nil => exact ⟨s, rfl, h, rfl⟩
  | cons blob blobs ih =>
      rw [List.flatMap_cons, List.append_assoc] at h
      obtain ⟨s₁, hread, hrest, hended⟩ :=
        readFramed_put tooLarge part wrap hwidth (hfit blob (List.mem_cons_self ..)) h
      obtain ⟨s₂, hreads, hrest₂, hended₂⟩ :=
        ih (fun other hother => hfit other (List.mem_cons_of_mem blob hother)) hrest
      refine ⟨s₂, ?_, hrest₂, hended₂.trans hended⟩
      simp only [List.length_cons, readMany, bind, EStateM.bind, hread, hreads]
      rfl

/-- The number of complete sections in a cut stream. -/
structure CompleteIn (blobs : List (List UInt8)) (p : List UInt8) (k : ℕ) : Prop where
  le : k ≤ blobs.length
  inside : (blobs.take k).flatMap Prefixed.put <+: p
  last : ∀ m, k < m → m ≤ blobs.length → ¬(blobs.take m).flatMap Prefixed.put <+: p

/-- A stream shorter than the first section has no complete one. -/
theorem completeIn_zero {blob : List UInt8} {blobs : List (List UInt8)} {p : List UInt8}
    (h : p.length < 4 + blob.length) : CompleteIn (blob :: blobs) p 0 where
  le := Nat.zero_le _
  inside := List.nil_prefix
  last m hm _ hprefix := by
    obtain ⟨m, rfl⟩ := Nat.exists_eq_add_of_lt hm
    have hlen := hprefix.length_le
    rw [Nat.zero_add, List.take_succ_cons, List.flatMap_cons, List.length_append,
      Prefixed.length_put] at hlen
    omega

/-- Behind a complete section the count goes on. -/
theorem CompleteIn.cons {blob : List UInt8} {blobs : List (List UInt8)} {q : List UInt8} {k : ℕ}
    (h : CompleteIn blobs q k) : CompleteIn (blob :: blobs) (Prefixed.put blob ++ q) (k + 1) where
  le := Nat.succ_le_succ h.le
  inside := by
    rw [List.take_succ_cons, List.flatMap_cons]
    exact (List.prefix_append_right_inj _).mpr h.inside
  last m hm hle hprefix := by
    obtain ⟨m, rfl⟩ := Nat.exists_eq_add_of_lt hm
    rw [show k + 1 + m + 1 = (k + m + 1) + 1 by omega] at hle hprefix
    rw [List.take_succ_cons, List.flatMap_cons] at hprefix
    exact h.last (k + m + 1) (by omega) (Nat.le_of_succ_le_succ hle)
      ((List.prefix_append_right_inj _).mp hprefix)

/-- A stream cut anywhere yields its complete sections and then reports the end. -/
theorem readMany_cut {blobs : List (List UInt8)} (hwidth : limit < 2 ^ 32)
    (hfit : ∀ blob ∈ blobs, blob.length ≤ limit)
    (h : (part.get s).rest <+: blobs.flatMap Prefixed.put) :
    ∃ k, CompleteIn blobs (part.get s).rest k ∧ ∃ s₁ s₂ got,
      readMany (readFramed limit tooLarge (readLifted part wrap)) k s = .ok (blobs.take k) s₁ ∧
      readFramed limit tooLarge (readLifted part wrap) s₁ =
        .error (wrap ((part.get s).ended got)) s₂ := by
  induction blobs generalizing s with
  | nil =>
      have hnil : (part.get s).rest = [] := List.prefix_nil.mp h
      have hshort : (part.get s).rest.length < 4 := by
        rw [hnil]
        decide
      obtain ⟨s₂, got, hread⟩ := readFramed_of_short_header tooLarge part wrap hshort
      refine ⟨0, ⟨Nat.le_refl 0, List.nil_prefix, fun m hm hle => ?_⟩, s, s₂, got, rfl, hread⟩
      exact absurd hle (Nat.not_le.mpr hm)
  | cons blob blobs ih =>
      have hblob := hfit blob (List.mem_cons_self ..)
      rw [List.flatMap_cons] at h
      rcases Prefixed.prefix_put_cases h with hshort | ⟨body, hbody, hshort⟩ | ⟨q, hq, hprefix⟩
      · -- cut inside the length
        obtain ⟨s₂, got, hread⟩ := readFramed_of_short_header tooLarge part wrap hshort
        exact ⟨0, completeIn_zero (by omega), s, s₂, got, rfl, hread⟩
      · -- cut inside the content
        obtain ⟨s₂, got, hread⟩ :=
          readFramed_of_short_body tooLarge part wrap hwidth hblob hbody hshort
        refine ⟨0, completeIn_zero ?_, s, s₂, got, rfl, hread⟩
        rw [hbody, List.length_append, length_leBytes]
        omega
      · obtain ⟨s₀, hfirst, hrest, hended⟩ := readFramed_put tooLarge part wrap hwidth hblob hq
        rw [← hrest] at hprefix
        obtain ⟨k, hk, s₁, s₂, got, hreads, hlast⟩ :=
          ih (fun other hother => hfit other (List.mem_cons_of_mem blob hother)) hprefix
        rw [hended] at hlast
        rw [hrest] at hk
        refine ⟨k + 1, ?_, s₁, s₂, got, ?_, hlast⟩
        · rw [hq]
          exact hk.cons
        · simp only [readMany, bind, EStateM.bind, hfirst, hreads]
          rfl

end Receiving

end Framed

end Streams

end GroupProtocol
