import Mathlib.Data.Nat.Notation
import Mathlib.Tactic.Ring

/-!
# Big-endian bytes

Writing a number in a fixed number of bytes and reading it back. Below the range of
that many bytes the writing is injective.
-/

namespace GroupProtocol

/-- The `k` low big-endian bytes of `n`. -/
def beBytes : ℕ → ℕ → List UInt8
  | 0, _ => []
  | k + 1, n => UInt8.ofNat (n / 256 ^ k) :: beBytes k n

/-- The number written in big-endian bytes, continuing from `acc`. -/
def beNat (acc : ℕ) : List UInt8 → ℕ
  | [] => acc
  | b :: bs => beNat (acc * 256 + b.toNat) bs

@[simp] theorem length_beBytes (k n : ℕ) : (beBytes k n).length = k := by
  induction k with
  | zero => rfl
  | succ k ih => simp only [beBytes, List.length_cons, ih]

/-- Reading back the low bytes recovers the number modulo their range. -/
theorem beNat_beBytes (acc k n : ℕ) : beNat acc (beBytes k n) = acc * 256 ^ k + n % 256 ^ k := by
  induction k generalizing acc with
  | zero => simp only [beBytes, beNat, pow_zero, Nat.mod_one]; omega
  | succ k ih =>
      have hsplit : n % 256 ^ (k + 1) = n / 256 ^ k % 256 * 256 ^ k + n % 256 ^ k := by
        rw [pow_succ, Nat.mod_mul]; ring
      rw [beBytes, beNat, ih, hsplit, UInt8.toNat_ofNat']
      ring

/-- Equal low bytes mean equal numbers below their range. -/
theorem beBytes_injective {k m n : ℕ} (hm : m < 256 ^ k) (hn : n < 256 ^ k)
    (h : beBytes k m = beBytes k n) : m = n := by
  have hread := congrArg (beNat 0) h
  rw [beNat_beBytes, beNat_beBytes, Nat.mod_eq_of_lt hm, Nat.mod_eq_of_lt hn] at hread
  omega

end GroupProtocol
