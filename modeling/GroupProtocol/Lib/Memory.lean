import Mathlib.Algebra.Group.Nat.Defs
import Mathlib.Data.Nat.Log

/-!
# Memory of a target

The width of a pointer bounds what one allocation may have, and with it the length of a
slice and the capacity that a container can be asked for.
-/

namespace GroupProtocol

/-- The pointer widths of the supported targets. -/
inductive PointerWidth
  | w32
  | w64
  deriving DecidableEq, Repr

namespace PointerWidth

/-- The number of bits of `usize`. -/
def bits : PointerWidth → ℕ
  | w32 => 32
  | w64 => 64

/-- `isize::MAX`, the largest number of bytes one allocation may have. -/
def isizeMax (w : PointerWidth) : ℕ := 2 ^ (w.bits - 1) - 1

/-- The cast `as usize`. -/
def asUsize (w : PointerWidth) (n : UInt64) : ℕ := n.toNat % 2 ^ w.bits

theorem isizeMax_lt (w : PointerWidth) : w.isizeMax < 2 ^ 63 := by cases w <;> decide

/-- The length of an object in memory survives the way to `u64` and back. -/
theorem asUsize_ofNat {w : PointerWidth} {n : ℕ} (h : n ≤ w.isizeMax) :
    w.asUsize (UInt64.ofNat n) = n := by
  have h64 : n < 2 ^ 64 := h.trans_lt (w.isizeMax_lt.trans (by decide))
  have hw : n < 2 ^ w.bits := by
    refine h.trans_lt ?_
    cases w <;> decide
  rw [asUsize, UInt64.toNat_ofNat', Nat.mod_eq_of_lt h64, Nat.mod_eq_of_lt hw]

/-- The bytes of a vector: a pointer, a capacity and a length. -/
def vecBytes (w : PointerWidth) : ℕ := 3 * (w.bits / 8)

/-- The bytes of a hash table for a number of entries. Its number of buckets is a power of two of
which the entries fill seven eighths at most, and each bucket has a control byte, with a group of
sixteen at the end. -/
def tableBytes (entryBytes capacity : ℕ) : ℕ :=
  2 ^ Nat.clog 2 (capacity * 8 / 7) * (entryBytes + 1) + 16

/-- A hash table from vectors to vectors can be laid out for this many entries. -/
def TableFits (w : PointerWidth) (capacity : ℕ) : Prop :=
  tableBytes (2 * w.vecBytes) capacity ≤ w.isizeMax

instance (w : PointerWidth) (capacity : ℕ) : Decidable (TableFits w capacity) :=
  inferInstanceAs (Decidable (_ ≤ _))

/-- With pointers of 64 bits every 32-bit number of entries can be laid out. -/
theorem tableFits_w64 {capacity : ℕ} (h : capacity < 2 ^ 32) : TableFits w64 capacity := by
  have hlog : Nat.clog 2 (capacity * 8 / 7) ≤ 33 := by
    apply Nat.clog_le_of_le_pow
    omega
  have hbuckets : 2 ^ Nat.clog 2 (capacity * 8 / 7) ≤ 2 ^ 33 := Nat.pow_le_pow_right (by decide) hlog
  have hentry : 2 * vecBytes w64 = 48 := rfl
  have hmax : isizeMax w64 = 2 ^ 63 - 1 := rfl
  rw [TableFits, tableBytes, hentry, hmax]
  omega

end PointerWidth

end GroupProtocol
