import GroupProtocol.Lib.BigEndian
import Mathlib.Data.List.Infix

/-!
# Well-formed CBOR data items

Every well-formed data item: arguments of any width, strings of definite and indefinite length,
arrays, maps, tags, simple values and floats, nested in any way. An item is encoded piece by
piece, a piece being a head together with the bytes it announces. Two adjacent bytes of an
encoding lie in one piece, or end one piece and start the next.
-/

namespace GroupProtocol.Cbor

/-! Adjacent elements of a concatenation. -/

section Adjacent

variable {α : Type*} {a b : α}

theorem pair_infix_cons_iff {x : α} {xs : List α} :
    [a, b] <:+: x :: xs ↔ (x = a ∧ xs.head? = some b) ∨ [a, b] <:+: xs := by
  rw [List.infix_cons_iff]
  refine or_congr_left ?_
  cases xs with
  | nil => simp
  | cons y ys =>
      rw [List.cons_prefix_cons, List.cons_prefix_cons, List.head?_cons, Option.some.injEq]
      constructor
      · rintro ⟨hx, hy, -⟩
        exact ⟨hx.symm, hy.symm⟩
      · rintro ⟨hx, hy⟩
        exact ⟨hx.symm, hy.symm, List.nil_prefix⟩

/-- Two adjacent elements of a concatenation lie on one side or meet in the middle. -/
theorem pair_infix_append_iff {xs ys : List α} :
    [a, b] <:+: xs ++ ys ↔
      [a, b] <:+: xs ∨ [a, b] <:+: ys ∨ (xs.getLast? = some a ∧ ys.head? = some b) := by
  induction xs with
  | nil => simp
  | cons x xs ih =>
      rw [List.cons_append, pair_infix_cons_iff, pair_infix_cons_iff, ih]
      cases xs with
      | nil =>
          simp only [List.nil_append, List.head?_nil, List.getLast?_singleton, List.getLast?_nil,
            Option.some.injEq, reduceCtorEq, false_and, and_false, or_false, false_or]
          exact or_comm.trans or_assoc
      | cons y xs =>
          have hlast : (x :: y :: xs).getLast? = (y :: xs).getLast? := by simp [List.getLast?_cons]
          rw [hlast]
          simp only [List.cons_append, List.head?_cons]
          exact or_assoc.symm

theorem head?_flatten_eq_some_iff {ps : List (List α)} (hne : ∀ p ∈ ps, p ≠ []) :
    ps.flatten.head? = some b ↔ ∃ q, ps.head? = some q ∧ q.head? = some b := by
  cases ps with
  | nil => simp
  | cons p ps =>
      cases p with
      | nil => exact absurd rfl (hne [] (List.mem_cons_self ..))
      | cons x xs => simp

/-- Two adjacent elements of a concatenation of nonempty lists lie in one of them, or end one and
start the next. -/
theorem pair_infix_flatten_iff {ps : List (List α)} (hne : ∀ p ∈ ps, p ≠ []) :
    [a, b] <:+: ps.flatten ↔
      (∃ p ∈ ps, [a, b] <:+: p) ∨
        ∃ p q, [p, q] <:+: ps ∧ p.getLast? = some a ∧ q.head? = some b := by
  induction ps with
  | nil => simp
  | cons p ps ih =>
      have hps : ∀ q ∈ ps, q ≠ [] := fun q hq => hne q (List.mem_cons_of_mem p hq)
      rw [List.flatten_cons, pair_infix_append_iff, ih hps, head?_flatten_eq_some_iff hps,
        List.exists_mem_cons_iff]
      simp only [pair_infix_cons_iff]
      constructor
      · rintro (h | (h | ⟨q, r, hin, hlast, hhead⟩) | ⟨hlast, q, hq, hhead⟩)
        · exact Or.inl (Or.inl h)
        · exact Or.inl (Or.inr h)
        · exact Or.inr ⟨q, r, Or.inr hin, hlast, hhead⟩
        · exact Or.inr ⟨p, q, Or.inl ⟨rfl, hq⟩, hlast, hhead⟩
      · rintro ((h | h) | ⟨q, r, ⟨rfl, hr⟩ | hin, hlast, hhead⟩)
        · exact Or.inl h
        · exact Or.inr (Or.inl (Or.inl h))
        · exact Or.inr (Or.inr ⟨hlast, r, hr, hhead⟩)
        · exact Or.inr (Or.inl (Or.inr ⟨q, r, hin, hlast, hhead⟩))

end Adjacent

/-! Data items. -/

/-- The forms of a head's argument: in the initial byte, or in one, two, four or eight bytes
after it. -/
inductive Width
  | short
  | one
  | two
  | four
  | eight
  deriving DecidableEq, Repr

namespace Width

/-- The bytes after the initial byte. -/
def size : Width → ℕ
  | short => 0
  | one => 1
  | two => 2
  | four => 4
  | eight => 8

/-- The arguments of this form lie below. -/
def limit : Width → ℕ
  | short => 24
  | w => 256 ^ w.size

/-- The additional information of the initial byte. -/
def info (w : Width) (v : ℕ) : ℕ :=
  match w with
  | short => v
  | one => 24
  | two => 25
  | four => 26
  | eight => 27

/-- The head of a major type with an argument in this form. -/
def head (w : Width) (major v : ℕ) : List UInt8 :=
  UInt8.ofNat (major * 32 + w.info v) :: beBytes w.size v

end Width

/-- An argument in a form that can hold it. -/
structure Argument where
  width : Width
  value : ℕ
  fits : value < width.limit

/-- A string of definite length. -/
structure Segment where
  width : Width
  data : List UInt8
  fits : data.length < width.limit

/-- The three floating-point formats. -/
inductive Precision
  | half
  | single
  | double
  deriving DecidableEq, Repr

/-- The bytes of a float. -/
def Precision.size : Precision → ℕ
  | half => 2
  | single => 4
  | double => 8

/-- The initial byte of a float. -/
def Precision.initial : Precision → UInt8
  | half => 0xF9
  | single => 0xFA
  | double => 0xFB

mutual

/-- A well-formed data item. The counts of arrays and maps are those of their contents. -/
inductive Item : Type
  | uint (a : Argument)
  | nint (a : Argument)
  | bytes (s : Segment)
  | text (s : Segment)
  | openBytes (segments : List Segment)
  | openText (segments : List Segment)
  | array {n : ℕ} (w : Width) (items : Items n) (fits : n < w.limit)
  | openArray {n : ℕ} (items : Items n)
  | map {n : ℕ} (w : Width) (entries : Entries n) (fits : n < w.limit)
  | openMap {n : ℕ} (entries : Entries n)
  | tag (a : Argument) (item : Item)
  | simple (v : ℕ) (short : v < 24)
  | extended (v : UInt8) (long : 32 ≤ v)
  | float (p : Precision) (bits : Vector UInt8 p.size)

/-- The elements of an array. -/
inductive Items : ℕ → Type
  | nil : Items 0
  | cons {n : ℕ} (item : Item) (rest : Items n) : Items (n + 1)

/-- The keys and values of a map. -/
inductive Entries : ℕ → Type
  | nil : Entries 0
  | cons {n : ℕ} (key value : Item) (rest : Entries n) : Entries (n + 1)

end

/-- A string with its head. -/
def Segment.piece (s : Segment) (major : ℕ) : List UInt8 :=
  s.width.head major s.data.length ++ s.data

/-- The value `true`. -/
def Item.yes : Item := .simple 21 (by decide)

mutual

/-- The pieces of an item: every head with the bytes it announces, and every break. -/
def Item.pieces : Item → List (List UInt8)
  | .uint a => [a.width.head 0 a.value]
  | .nint a => [a.width.head 1 a.value]
  | .bytes s => [s.piece 2]
  | .text s => [s.piece 3]
  | .openBytes segments => [0x5F] :: segments.map (·.piece 2) ++ [[0xFF]]
  | .openText segments => [0x7F] :: segments.map (·.piece 3) ++ [[0xFF]]
  | .array (n := n) w items _ => w.head 4 n :: items.pieces
  | .openArray items => [0x9F] :: items.pieces ++ [[0xFF]]
  | .map (n := n) w entries _ => w.head 5 n :: entries.pieces
  | .openMap entries => [0xBF] :: entries.pieces ++ [[0xFF]]
  | .tag a item => a.width.head 6 a.value :: item.pieces
  | .simple v _ => [[UInt8.ofNat (0xE0 + v)]]
  | .extended v _ => [[0xF8, v]]
  | .float p bits => [p.initial :: bits.toList]

/-- The pieces of the elements. -/
def Items.pieces {n : ℕ} : Items n → List (List UInt8)
  | .nil => []
  | .cons item rest => item.pieces ++ rest.pieces

/-- The pieces of the keys and values. -/
def Entries.pieces {n : ℕ} : Entries n → List (List UInt8)
  | .nil => []
  | .cons key value rest => key.pieces ++ value.pieces ++ rest.pieces

end

/-- The encoding of an item. -/
def Item.encode (i : Item) : List UInt8 := i.pieces.flatten

/-- The keys and values of a map as a list. -/
def Entries.toList {n : ℕ} : Entries n → List (Item × Item)
  | .nil => []
  | .cons key value rest => (key, value) :: rest.toList

/-! The initial byte of `true` starts no other piece. -/

/-- A piece is not empty, and starts with the initial byte of `true` only if it is `true`. -/
def Proper (p : List UInt8) : Prop := p ≠ [] ∧ (p.head? = some 0xF5 → p = [0xF5])

theorem proper_cons {x : UInt8} (h : x ≠ 0xF5) (xs : List UInt8) : Proper (x :: xs) :=
  ⟨List.cons_ne_nil x xs, fun hx => absurd (Option.some.inj hx) h⟩

theorem Width.info_lt {w : Width} {v : ℕ} (h : v < w.limit) : w.info v < 28 := by
  cases w with
  | short =>
      have hv : v < 24 := h
      exact Nat.lt_trans hv (by decide)
  | _ => simp only [info]; omega

/-- The heads of the major types below seven are proper. -/
theorem Width.head_proper {w : Width} {major v : ℕ} (hmajor : major ≤ 6) (h : v < w.limit)
    (rest : List UInt8) : Proper (w.head major v ++ rest) := by
  refine proper_cons (fun heq => ?_) _
  have hinfo := Width.info_lt h
  have hnat := congrArg UInt8.toNat heq
  rw [UInt8.toNat_ofNat'] at hnat
  have hvalue : UInt8.toNat 0xF5 = 245 := rfl
  omega

theorem Segment.piece_proper (s : Segment) {major : ℕ} (h : major ≤ 6) :
    Proper (s.piece major) := Width.head_proper h s.fits s.data

theorem Argument.head_proper (a : Argument) {major : ℕ} (h : major ≤ 6) :
    Proper (a.width.head major a.value) := by
  have hp := Width.head_proper h a.fits []
  rwa [List.append_nil] at hp

/-- An item of indefinite length ends with a break. -/
theorem open_proper {x : UInt8} (hx : x ≠ 0xF5) {ps : List (List UInt8)}
    (hps : ∀ p ∈ ps, Proper p) : ∀ p ∈ [x] :: ps ++ [[0xFF]], Proper p := by
  intro p hp
  rcases List.mem_append.mp hp with hp | hp
  · rcases List.mem_cons.mp hp with rfl | hp
    · exact proper_cons hx []
    · exact hps p hp
  · rw [List.mem_singleton.mp hp]
    exact proper_cons (by decide) []

theorem segments_proper (segments : List Segment) {major : ℕ} (h : major ≤ 6) :
    ∀ p ∈ segments.map (·.piece major), Proper p :=
  List.forall_mem_map.mpr fun s _ => s.piece_proper h

mutual

theorem Item.pieces_proper : (i : Item) → ∀ p ∈ i.pieces, Proper p
  | .uint a => by
      rw [Item.pieces, List.forall_mem_singleton]
      exact a.head_proper (by decide)
  | .nint a => by
      rw [Item.pieces, List.forall_mem_singleton]
      exact a.head_proper (by decide)
  | .bytes s => by
      rw [Item.pieces, List.forall_mem_singleton]
      exact s.piece_proper (by decide)
  | .text s => by
      rw [Item.pieces, List.forall_mem_singleton]
      exact s.piece_proper (by decide)
  | .openBytes segments => open_proper (by decide) (segments_proper segments (by decide))
  | .openText segments => open_proper (by decide) (segments_proper segments (by decide))
  | .array w items fits => by
      rw [Item.pieces, List.forall_mem_cons]
      exact ⟨Argument.head_proper ⟨w, _, fits⟩ (by decide), items.pieces_proper⟩
  | .openArray items => open_proper (by decide) items.pieces_proper
  | .map w entries fits => by
      rw [Item.pieces, List.forall_mem_cons]
      exact ⟨Argument.head_proper ⟨w, _, fits⟩ (by decide), entries.pieces_proper⟩
  | .openMap entries => open_proper (by decide) entries.pieces_proper
  | .tag a item => by
      rw [Item.pieces, List.forall_mem_cons]
      exact ⟨a.head_proper (by decide), item.pieces_proper⟩
  | .simple v short => by
      rw [Item.pieces, List.forall_mem_singleton]
      exact ⟨List.cons_ne_nil _ _, fun h => by rw [Option.some.inj h]⟩
  | .extended v long => by
      rw [Item.pieces, List.forall_mem_singleton]
      exact proper_cons (by decide) _
  | .float p bits => by
      rw [Item.pieces, List.forall_mem_singleton]
      exact proper_cons (by cases p <;> decide) _

theorem Items.pieces_proper {n : ℕ} : (items : Items n) → ∀ p ∈ items.pieces, Proper p
  | .nil => by simp [Items.pieces]
  | .cons item rest => by
      simp only [Items.pieces, List.forall_mem_append]
      exact ⟨item.pieces_proper, rest.pieces_proper⟩

theorem Entries.pieces_proper {n : ℕ} : (entries : Entries n) → ∀ p ∈ entries.pieces, Proper p
  | .nil => by simp [Entries.pieces]
  | .cons key value rest => by
      simp only [Entries.pieces, List.forall_mem_append]
      exact ⟨⟨key.pieces_proper, value.pieces_proper⟩, rest.pieces_proper⟩

end

/-- The bytes `00 F5` occur in an encoding within one piece, or where a piece that ends in a zero
byte is followed by `true`. -/
theorem Item.pair_infix_encode_iff (i : Item) (a : UInt8) :
    [a, 0xF5] <:+: i.encode ↔
      (∃ p ∈ i.pieces, [a, 0xF5] <:+: p) ∨
        ∃ p, [p, [0xF5]] <:+: i.pieces ∧ p.getLast? = some a := by
  rw [encode, pair_infix_flatten_iff fun p hp => (i.pieces_proper p hp).1]
  refine or_congr_right ⟨?_, ?_⟩
  · rintro ⟨p, q, hin, hlast, hhead⟩
    have hq : q ∈ i.pieces := hin.subset (by simp)
    rw [(i.pieces_proper q hq).2 hhead] at hin
    exact ⟨p, hin, hlast⟩
  · rintro ⟨p, hin, hlast⟩
    exact ⟨p, [0xF5], hin, hlast, rfl⟩

/-- Every width of the integer zero ends in a zero byte. -/
theorem Width.getLast?_head_zero (w : Width) : (w.head 0 0).getLast? = some 0 := by
  cases w <;> decide

/-- An entry of a map is encoded key first. -/
theorem Entries.infix_pieces {n : ℕ} {key value : Item} :
    (entries : Entries n) → (key, value) ∈ entries.toList →
      key.pieces ++ value.pieces <:+: entries.pieces
  | .nil, h => by simp [toList] at h
  | .cons k v rest, h => by
      rw [Entries.pieces]
      rcases List.mem_cons.mp h with heq | hrest
      · obtain ⟨rfl, rfl⟩ := Prod.mk.inj heq
        exact (List.prefix_append _ _).isInfix
      · exact (rest.infix_pieces hrest).trans (List.suffix_append _ _).isInfix

end GroupProtocol.Cbor
