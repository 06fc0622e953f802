import Mathlib.Algebra.Group.Nat.Defs
import Mathlib.Data.Nat.Notation
import Mathlib.Data.List.Basic

/-!
# Base64 with padding

The standard alphabet and the two directions of the encoding, on numbers: three bytes are one
number of twenty-four bits and four characters are its digits in base 64. A last group of one
or two bytes is padded. The decoder is strict: it refuses characters outside the alphabet,
incomplete groups, padding anywhere but at the end, and pad bits that are not zero.
-/

namespace GroupProtocol.Base64

/-- The character of a value below 64. -/
def charOf (v : ℕ) : Char :=
  if v < 26 then Char.ofNat (65 + v)
  else if v < 52 then Char.ofNat (71 + v)
  else if v < 62 then Char.ofNat (v - 4)
  else if v = 62 then '+'
  else '/'

/-- The value of a character of the alphabet. -/
def valueOf (c : Char) : Option ℕ :=
  if 'A' ≤ c ∧ c ≤ 'Z' then some (c.toNat - 65)
  else if 'a' ≤ c ∧ c ≤ 'z' then some (c.toNat - 71)
  else if '0' ≤ c ∧ c ≤ '9' then some (c.toNat + 4)
  else if c = '+' then some 62
  else if c = '/' then some 63
  else none

/-- The character that pads a last group. -/
def pad : Char := '='

theorem valueOf_charOf {v : ℕ} (h : v < 64) : valueOf (charOf v) = some v := by
  have hall : ∀ v < 64, valueOf (charOf v) = some v := by decide
  exact hall v h

/-- Padding is outside the alphabet. -/
theorem valueOf_pad : valueOf pad = none := by decide

theorem charOf_ne_pad {v : ℕ} (h : v < 64) : charOf v ≠ pad := by
  intro heq
  have hvalue := valueOf_charOf h
  rw [heq, valueOf_pad] at hvalue
  cases hvalue

/-- The number of a group of three bytes. -/
def word (x y z : UInt8) : ℕ := x.toNat * 2 ^ 16 + y.toNat * 2 ^ 8 + z.toNat

/-- The encoding of a byte string. -/
def encode : List UInt8 → List Char
  | [] => []
  | [x] => [charOf (word x 0 0 / 2 ^ 18), charOf (word x 0 0 / 2 ^ 12 % 64), pad, pad]
  | [x, y] => [charOf (word x y 0 / 2 ^ 18), charOf (word x y 0 / 2 ^ 12 % 64),
      charOf (word x y 0 / 2 ^ 6 % 64), pad]
  | x :: y :: z :: rest => charOf (word x y z / 2 ^ 18) :: charOf (word x y z / 2 ^ 12 % 64) ::
      charOf (word x y z / 2 ^ 6 % 64) :: charOf (word x y z % 64) :: encode rest

/-- The number of a group of four values. -/
def joined (a b c d : ℕ) : ℕ := a * 2 ^ 18 + b * 2 ^ 12 + c * 2 ^ 6 + d

/-- The bytes of a group of four characters. -/
def decodeFull (a b c d : Char) : Option (List UInt8) := do
  let n := joined (← valueOf a) (← valueOf b) (← valueOf c) (← valueOf d)
  return [UInt8.ofNat (n / 2 ^ 16), UInt8.ofNat (n / 2 ^ 8), UInt8.ofNat n]

/-- The byte of a group with two characters of padding, whose pad bits have to be zero. -/
def oneByte (n : ℕ) : Option (List UInt8) :=
  if n % 2 ^ 16 = 0 then some [UInt8.ofNat (n / 2 ^ 16)] else none

/-- The bytes of a group with one character of padding, whose pad bits have to be zero. -/
def twoBytes (n : ℕ) : Option (List UInt8) :=
  if n % 2 ^ 8 = 0 then some [UInt8.ofNat (n / 2 ^ 16), UInt8.ofNat (n / 2 ^ 8)] else none

/-- The bytes of a last group with padding. -/
def decodePadded (a b c : Char) : Option (List UInt8) :=
  if c = pad then do
    oneByte (joined (← valueOf a) (← valueOf b) 0 0)
  else do
    twoBytes (joined (← valueOf a) (← valueOf b) (← valueOf c) 0)

/-- The bytes that a text encodes. -/
def decode : List Char → Option (List UInt8)
  | [] => some []
  | a :: b :: c :: d :: rest =>
    if d = pad ∧ rest = [] then decodePadded a b c
    else do
      let group ← decodeFull a b c d
      let bytes ← decode rest
      return group ++ bytes
  | _ => none

/-- Every group of three bytes, full or not, gives four characters. -/
theorem length_encode (bytes : List UInt8) :
    (encode bytes).length = 4 * ((bytes.length + 2) / 3) := by
  fun_induction encode bytes with
  | case1 => rfl
  | case2 x => simp
  | case3 x y => simp
  | case4 x y z rest ih =>
    simp only [List.length_cons, ih]
    omega

theorem word_lt (x y z : UInt8) : word x y z < 2 ^ 24 := by
  have hx := x.toNat_lt
  have hy := y.toNat_lt
  have hz := z.toNat_lt
  simp only [word]
  omega

/-- How many characters of padding a byte string of a length needs. -/
def padding (length : ℕ) : ℕ := (3 - length % 3) % 3

/-- The digits are characters of the alphabet, and nothing but the padding follows them. -/
theorem encode_eq_append_padding (bytes : List UInt8) :
    ∃ digits : List Char, encode bytes = digits ++ List.replicate (padding bytes.length) pad ∧
      ∀ c ∈ digits, ∃ v < 64, c = charOf v := by
  fun_induction encode bytes with
  | case1 => exact ⟨[], rfl, by simp⟩
  | case2 x =>
    have hw := word_lt x 0 0
    refine ⟨[_, _], rfl, ?_⟩
    simp only [List.forall_mem_cons]
    exact ⟨⟨_, by omega, rfl⟩, ⟨_, by omega, rfl⟩, by simp⟩
  | case3 x y =>
    have hw := word_lt x y 0
    refine ⟨[_, _, _], rfl, ?_⟩
    simp only [List.forall_mem_cons]
    exact ⟨⟨_, by omega, rfl⟩, ⟨_, by omega, rfl⟩, ⟨_, by omega, rfl⟩, by simp⟩
  | case4 x y z rest ih =>
    obtain ⟨digits, heq, halphabet⟩ := ih
    have hw := word_lt x y z
    have hpadding : padding (x :: y :: z :: rest).length = padding rest.length := by
      simp only [padding, List.length_cons]
      omega
    rw [hpadding, heq]
    refine ⟨_ :: _ :: _ :: _ :: digits, rfl, ?_⟩
    simp only [List.forall_mem_cons]
    exact ⟨⟨_, by omega, rfl⟩, ⟨_, by omega, rfl⟩, ⟨_, by omega, rfl⟩, ⟨_, by omega, rfl⟩,
      halphabet⟩

/-- A text of characters of one byte each has as many bytes as characters. -/
theorem utf8ByteSize_eq_length {s : String} (h : ∀ c ∈ s.toList, c.utf8Size = 1) :
    s.utf8ByteSize = s.length := by
  induction s using String.push_induction with
  | empty => rfl
  | push s c ih =>
    rw [String.toList_push] at h
    rw [String.utf8ByteSize_push, String.length_push, ih (fun d hd => h d (by simp [hd])),
      h c (by simp)]

/-- All characters of an encoding are of the ASCII range. -/
theorem utf8Size_encode (bytes : List UInt8) : ∀ c ∈ encode bytes, c.utf8Size = 1 := by
  have hdigit : ∀ v < 64, (charOf v).utf8Size = 1 := by decide
  obtain ⟨digits, heq, halphabet⟩ := encode_eq_append_padding bytes
  intro c hc
  rw [heq, List.mem_append] at hc
  cases hc with
  | inl hc =>
    obtain ⟨v, hv, rfl⟩ := halphabet c hc
    exact hdigit v hv
  | inr hc =>
    rw [List.eq_of_mem_replicate hc]
    rfl

/-- The digits of a number of twenty-four bits make it up again. -/
theorem joined_digits (w : ℕ) :
    joined (w / 2 ^ 18) (w / 2 ^ 12 % 64) (w / 2 ^ 6 % 64) (w % 64) = w := by
  simp only [joined]
  omega

theorem byte_word_fst (x y z : UInt8) : UInt8.ofNat (word x y z / 2 ^ 16) = x := by
  have hy := y.toNat_lt
  have hz := z.toNat_lt
  have hval : word x y z / 2 ^ 16 = x.toNat := by
    simp only [word]
    omega
  rw [hval, UInt8.ofNat_toNat]

theorem byte_word_snd (x y z : UInt8) : UInt8.ofNat (word x y z / 2 ^ 8) = y := by
  have hy := y.toNat_lt
  have hz := z.toNat_lt
  apply UInt8.toNat_inj.mp
  simp only [word, UInt8.toNat_ofNat']
  omega

theorem byte_word_thd (x y z : UInt8) : UInt8.ofNat (word x y z) = z := by
  have hz := z.toNat_lt
  apply UInt8.toNat_inj.mp
  simp only [word, UInt8.toNat_ofNat']
  omega

/-- A full group is read back. -/
theorem decodeFull_word (x y z : UInt8) :
    decodeFull (charOf (word x y z / 2 ^ 18)) (charOf (word x y z / 2 ^ 12 % 64))
      (charOf (word x y z / 2 ^ 6 % 64)) (charOf (word x y z % 64)) = some [x, y, z] := by
  have hw := word_lt x y z
  rw [decodeFull, valueOf_charOf (by omega), valueOf_charOf (by omega),
    valueOf_charOf (by omega), valueOf_charOf (by omega)]
  simp only [Option.bind_eq_bind, Option.bind_some, joined_digits, byte_word_fst, byte_word_snd,
    byte_word_thd, Option.pure_def]

/-- A last group of two bytes is read back. -/
theorem decodePadded_two (x y : UInt8) :
    decodePadded (charOf (word x y 0 / 2 ^ 18)) (charOf (word x y 0 / 2 ^ 12 % 64))
      (charOf (word x y 0 / 2 ^ 6 % 64)) = some [x, y] := by
  have hw := word_lt x y 0
  have hlow : word x y 0 % 2 ^ 8 = 0 := by
    simp only [word, UInt8.toNat_zero]
    omega
  have hjoined : joined (word x y 0 / 2 ^ 18) (word x y 0 / 2 ^ 12 % 64)
      (word x y 0 / 2 ^ 6 % 64) 0 = word x y 0 := by
    simp only [joined]
    omega
  rw [decodePadded, if_neg (charOf_ne_pad (by omega)), valueOf_charOf (by omega),
    valueOf_charOf (by omega), valueOf_charOf (by omega), Option.bind_eq_bind,
    Option.bind_some, Option.bind_some, Option.bind_some, hjoined, twoBytes, if_pos hlow,
    byte_word_fst, byte_word_snd]

/-- A last group of one byte is read back. -/
theorem decodePadded_one (x : UInt8) :
    decodePadded (charOf (word x 0 0 / 2 ^ 18)) (charOf (word x 0 0 / 2 ^ 12 % 64)) pad
      = some [x] := by
  have hw := word_lt x 0 0
  have hlow : word x 0 0 % 2 ^ 16 = 0 := by
    simp only [word, UInt8.toNat_zero]
    omega
  have hjoined : joined (word x 0 0 / 2 ^ 18) (word x 0 0 / 2 ^ 12 % 64) 0 0 = word x 0 0 := by
    simp only [joined]
    omega
  rw [decodePadded, if_pos rfl, valueOf_charOf (by omega), valueOf_charOf (by omega),
    Option.bind_eq_bind, Option.bind_some, Option.bind_some, hjoined, oneByte, if_pos hlow,
    byte_word_fst]

/-- The decoder inverts the encoding. -/
theorem decode_encode (bytes : List UInt8) : decode (encode bytes) = some bytes := by
  fun_induction encode bytes with
  | case1 => rfl
  | case2 x => rw [decode, if_pos ⟨rfl, rfl⟩, decodePadded_one]
  | case3 x y => rw [decode, if_pos ⟨rfl, rfl⟩, decodePadded_two]
  | case4 x y z rest ih =>
    -- the fourth digit is a character of the alphabet, so the group is a full one
    have hdigit : charOf (word x y z % 64) ≠ pad := charOf_ne_pad (Nat.mod_lt _ (by decide))
    rw [decode, if_neg (fun h => hdigit h.1), decodeFull_word, ih]
    rfl

end GroupProtocol.Base64
