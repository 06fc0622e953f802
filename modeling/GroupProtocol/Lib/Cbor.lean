import GroupProtocol.Lib.BigEndian

/-!
# Flat CBOR maps

Unsigned integers, byte strings and text strings with their shortest heads, and
definite-length maps of them. Decoding an encoding followed by any suffix returns
the value and that suffix. A string of at least `2 ^ 64` bytes has no head: its
encoding is the reserved head, which the decoder rejects.
-/

namespace GroupProtocol.Cbor

/-- The initial byte and argument of a data item, shortest form. -/
def head (major n : ℕ) : List UInt8 :=
  if n < 24 then [UInt8.ofNat (major * 32 + n)]
  else if n < 256 ^ 1 then UInt8.ofNat (major * 32 + 24) :: beBytes 1 n
  else if n < 256 ^ 2 then UInt8.ofNat (major * 32 + 25) :: beBytes 2 n
  else if n < 256 ^ 4 then UInt8.ofNat (major * 32 + 26) :: beBytes 4 n
  else if n < 256 ^ 8 then UInt8.ofNat (major * 32 + 27) :: beBytes 8 n
  else [UInt8.ofNat (major * 32 + 28)]

/-- Read a `k`-byte argument. -/
def takeArgument (major k : ℕ) (bs : List UInt8) : Option (ℕ × ℕ × List UInt8) :=
  if bs.length < k then none else some (major, beNat 0 (bs.take k), bs.drop k)

/-- Read the major type and the argument of a data item. -/
def decodeHead : List UInt8 → Option (ℕ × ℕ × List UInt8)
  | [] => none
  | b :: bs =>
    let major := b.toNat / 32
    let info := b.toNat % 32
    if info < 24 then some (major, info, bs)
    else if info = 24 then takeArgument major 1 bs
    else if info = 25 then takeArgument major 2 bs
    else if info = 26 then takeArgument major 4 bs
    else if info = 27 then takeArgument major 8 bs
    else none

private theorem takeArgument_beBytes (major k n : ℕ) (rest : List UInt8) (hn : n < 256 ^ k) :
    takeArgument major k (beBytes k n ++ rest) = some (major, n, rest) := by
  have hlen : ¬ (beBytes k n ++ rest).length < k := by
    simp only [List.length_append, length_beBytes]; omega
  rw [takeArgument, if_neg hlen, List.take_left' (length_beBytes k n),
    List.drop_left' (length_beBytes k n), beNat_beBytes, Nat.mod_eq_of_lt hn, Nat.zero_mul,
    Nat.zero_add]

/-- Reading an initial byte splits it into its major type and additional information. -/
private theorem decodeHead_initial {major info : ℕ} (hm : major < 8) (hi : info < 32)
    (bs : List UInt8) :
    decodeHead (UInt8.ofNat (major * 32 + info) :: bs) =
      if info < 24 then some (major, info, bs)
      else if info = 24 then takeArgument major 1 bs
      else if info = 25 then takeArgument major 2 bs
      else if info = 26 then takeArgument major 4 bs
      else if info = 27 then takeArgument major 8 bs
      else none := by
  have hb : (UInt8.ofNat (major * 32 + info)).toNat = major * 32 + info := by
    rw [UInt8.toNat_ofNat']; omega
  have hq : (major * 32 + info) / 32 = major := by omega
  have hr : (major * 32 + info) % 32 = info := by omega
  simp only [decodeHead, hb, hq, hr]

/-- A representable argument reads back from its shortest head; a larger one is rejected. -/
theorem decodeHead_head {major : ℕ} (hm : major < 8) (n : ℕ) (rest : List UInt8) :
    decodeHead (head major n ++ rest) = if n < 2 ^ 64 then some (major, n, rest) else none := by
  rw [show (2 ^ 64 : ℕ) = 256 ^ 8 by norm_num, head]
  by_cases h0 : n < 24
  · rw [if_pos h0, List.singleton_append, decodeHead_initial hm (by omega), if_pos h0,
      if_pos (by omega)]
  by_cases h1 : n < 256 ^ 1
  · rw [if_neg h0, if_pos h1, List.cons_append, decodeHead_initial hm (by omega),
      takeArgument_beBytes major 1 n rest h1, if_pos (show n < 256 ^ 8 by omega)]
    rfl
  by_cases h2 : n < 256 ^ 2
  · rw [if_neg h0, if_neg h1, if_pos h2, List.cons_append, decodeHead_initial hm (by omega),
      takeArgument_beBytes major 2 n rest h2, if_pos (show n < 256 ^ 8 by omega)]
    rfl
  by_cases h4 : n < 256 ^ 4
  · rw [if_neg h0, if_neg h1, if_neg h2, if_pos h4, List.cons_append,
      decodeHead_initial hm (by omega), takeArgument_beBytes major 4 n rest h4,
      if_pos (show n < 256 ^ 8 by omega)]
    rfl
  by_cases h8 : n < 256 ^ 8
  · rw [if_neg h0, if_neg h1, if_neg h2, if_neg h4, if_pos h8, List.cons_append,
      decodeHead_initial hm (by omega), takeArgument_beBytes major 8 n rest h8, if_pos h8]
    rfl
  · rw [if_neg h0, if_neg h1, if_neg h2, if_neg h4, if_neg h8, List.singleton_append,
      decodeHead_initial hm (by omega), if_neg h8]
    rfl

/-- The flat data items: unsigned integers, byte strings and UTF-8 text. -/
inductive Value
  | uint (n : UInt64)
  | bytes (b : List UInt8)
  | text (b : List UInt8)
  deriving DecidableEq, Repr

namespace Value

/-- The length of a string fits its head. -/
def fits : Value → Bool
  | uint _ => true
  | bytes b => b.length < 2 ^ 64
  | text b => b.length < 2 ^ 64

/-- The encoding of one item. -/
def encode : Value → List UInt8
  | uint n => head 0 n.toNat
  | bytes b => head 2 b.length ++ b
  | text b => head 3 b.length ++ b

/-- Split off a string body of the announced length. -/
def takeBody (make : List UInt8 → Value) (n : ℕ) (bs : List UInt8) :
    Option (Value × List UInt8) :=
  if bs.length < n then none else some (make (bs.take n), bs.drop n)

/-- Read one item and return what follows it. -/
def decode (bs : List UInt8) : Option (Value × List UInt8) :=
  match decodeHead bs with
  | some (0, n, rest) => some (uint (UInt64.ofNat n), rest)
  | some (2, n, rest) => takeBody bytes n rest
  | some (3, n, rest) => takeBody text n rest
  | _ => none

private theorem takeBody_append (make : List UInt8 → Value) (b rest : List UInt8) :
    takeBody make b.length (b ++ rest) = some (make b, rest) := by
  have hlen : ¬ (b ++ rest).length < b.length := by
    simp only [List.length_append]; omega
  rw [takeBody, if_neg hlen, List.take_left, List.drop_left]

/-- An item reads back exactly, whatever follows it, unless its string is too long. -/
theorem decode_encode (v : Value) (rest : List UInt8) :
    decode (v.encode ++ rest) = if v.fits then some (v, rest) else none := by
  cases v with
  | uint n =>
      have hn : n.toNat < 2 ^ 64 := n.toNat_lt
      simp only [encode, decode, decodeHead_head (show 0 < 8 by omega), if_pos hn, fits,
        if_true, UInt64.ofNat_toNat]
  | bytes b =>
      rw [encode, List.append_assoc, decode, decodeHead_head (by omega)]
      by_cases hb : b.length < 2 ^ 64
      · simp only [if_pos hb, takeBody_append, fits, decide_eq_true hb, if_true]
      · simp only [if_neg hb, fits, decide_eq_false hb, Bool.false_eq_true, if_false]
  | text b =>
      rw [encode, List.append_assoc, decode, decodeHead_head (by omega)]
      by_cases hb : b.length < 2 ^ 64
      · simp only [if_pos hb, takeBody_append, fits, decide_eq_true hb, if_true]
      · simp only [if_neg hb, fits, decide_eq_false hb, Bool.false_eq_true, if_false]

end Value

/-- The entries of a map, keys and values alternating. -/
def encodeEntries : List (Value × Value) → List UInt8
  | [] => []
  | (k, v) :: es => k.encode ++ (v.encode ++ encodeEntries es)

/-- Read the announced number of entries. -/
def decodeEntries : ℕ → List UInt8 → Option (List (Value × Value) × List UInt8)
  | 0, bs => some ([], bs)
  | n + 1, bs =>
    match Value.decode bs with
    | none => none
    | some (k, bs) =>
      match Value.decode bs with
      | none => none
      | some (v, bs) =>
        match decodeEntries n bs with
        | none => none
        | some (es, bs) => some ((k, v) :: es, bs)

/-- A definite-length map. -/
def encodeMap (es : List (Value × Value)) : List UInt8 :=
  head 5 es.length ++ encodeEntries es

/-- Read a definite-length map of flat items; what follows it is not looked at. -/
def decodeMap (bs : List UInt8) : Option (List (Value × Value)) :=
  match decodeHead bs with
  | some (5, n, rest) => (decodeEntries n rest).map Prod.fst
  | _ => none

/-- Every key and value has a head. -/
def entriesFit (es : List (Value × Value)) : Bool := es.all fun e => e.1.fits && e.2.fits

theorem decodeEntries_encodeEntries (es : List (Value × Value)) (rest : List UInt8) :
    decodeEntries es.length (encodeEntries es ++ rest) =
      if entriesFit es then some (es, rest) else none := by
  induction es with
  | nil => rfl
  | cons e es ih =>
      obtain ⟨k, v⟩ := e
      have hall : entriesFit ((k, v) :: es) = (k.fits && v.fits && entriesFit es) := rfl
      simp only [List.length_cons, encodeEntries, decodeEntries, List.append_assoc,
        Value.decode_encode, hall]
      by_cases hk : k.fits
      · by_cases hv : v.fits
        · simp only [hk, hv, if_true, Value.decode_encode, ih, Bool.true_and]
          cases entriesFit es <;> rfl
        · simp [hk, hv, Value.decode_encode]
      · simp [hk]

/-- A map reads back exactly when all its strings have heads, and is rejected otherwise. -/
theorem decodeMap_encodeMap {es : List (Value × Value)} (hlen : es.length < 2 ^ 64) :
    decodeMap (encodeMap es) = if entriesFit es then some es else none := by
  have hh := decodeEntries_encodeEntries es []
  rw [List.append_nil] at hh
  rw [encodeMap, decodeMap, decodeHead_head (by omega), if_pos hlen]
  simp only [hh]
  split <;> rfl

end GroupProtocol.Cbor
