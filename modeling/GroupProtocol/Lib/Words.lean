import Mathlib.Algebra.Group.Nat.Defs
import Mathlib.Data.Finset.Card
import Mathlib.Data.Nat.ModEq

/-!
# Counting with machine words

Offsets from a fixed word stay apart until the word wraps, identifiers in strides stay
apart up to the odd part of the stride, and a strictly increasing list of words is never
longer than the word has values.
-/

namespace GroupProtocol.Words

/-- A word never equals its successor. -/
theorem succ_ne (e : UInt64) : e + 1 ≠ e := by
  grind

/-- The successor of a 32-bit word below its limit. -/
theorem toNat_succ {w : UInt32} (h : w.toNat + 1 < 2 ^ 32) : (w + 1).toNat = w.toNat + 1 := by
  rw [UInt32.toNat_add, UInt32.toNat_one]
  exact Nat.mod_eq_of_lt h

/-- Offsets below a full wrap of a 64-bit word are distinct. -/
theorem offset64_inj {e : UInt64} {j k : ℕ} (hj : j < 2 ^ 64) (hk : k < 2 ^ 64)
    (h : e + UInt64.ofNat j = e + UInt64.ofNat k) : j = k := by
  have hofNat : UInt64.ofNat j = UInt64.ofNat k := (UInt64.add_right_inj _).mp h
  have htoNat := congrArg UInt64.toNat hofNat
  rwa [UInt64.toNat_ofNat_of_lt' hj, UInt64.toNat_ofNat_of_lt' hk] at htoNat

/-- Offsets below a full wrap of a 32-bit word are distinct. -/
theorem offset32_ne {n k : ℕ} (hpos : 0 < k) (hk : k < 2 ^ 32) :
    UInt32.ofNat (n + k) ≠ UInt32.ofNat n := by
  intro h
  have htoNat := congrArg UInt32.toNat h
  simp only [UInt32.toNat_ofNat'] at htoNat
  omega

/-- Identifiers made of a base below `d` and an index in strides of `d * c`, in words of
`d * m` values with `c` prime to `m`: they agree when the bases are equal and the indices
agree modulo `m`. -/
theorem strided_modEq_iff {d c m x y a b : ℕ} (hcoprime : Nat.gcd m c = 1) (hx : x < d)
    (hy : y < d) :
    x + d * (c * a) ≡ y + d * (c * b) [MOD d * m] ↔ a ≡ b [MOD m] ∧ x = y := by
  constructor
  · intro h
    -- modulo `d` only the bases are left
    have hbase : x + d * (c * a) ≡ y + d * (c * b) [MOD d] := h.of_mul_right m
    rw [Nat.ModEq, Nat.add_mul_mod_self_left, Nat.add_mul_mod_self_left, Nat.mod_eq_of_lt hx,
      Nat.mod_eq_of_lt hy] at hbase
    subst hbase
    have hstride : c * a ≡ c * b [MOD m] :=
      (Nat.ModEq.add_left_cancel' x h).mul_left_cancel' (Nat.ne_of_gt (Nat.zero_lt_of_lt hx))
    exact ⟨hstride.cancel_left_of_coprime hcoprime, rfl⟩
  · rintro ⟨hab, rfl⟩
    exact ((hab.mul_left c).mul_left' d).add_left x

/-- A list of distinct 32-bit words has at most `2 ^ 32` entries. -/
theorem length_le_of_nodup {ws : List UInt32} (h : ws.Nodup) : ws.length ≤ 2 ^ 32 := by
  have hnodup : (ws.map UInt32.toNat).Nodup := h.map fun a b => UInt32.toNat_inj.mp
  have hsub : (ws.map UInt32.toNat).toFinset ⊆ Finset.range (2 ^ 32) := by
    intro k hk
    obtain ⟨t, -, rfl⟩ := List.mem_map.mp (List.mem_toFinset.mp hk)
    exact Finset.mem_range.mpr t.toNat_lt
  have hcard := Finset.card_le_card hsub
  rwa [List.toFinset_card_of_nodup hnodup, List.length_map, Finset.card_range] at hcard

/-- A strictly increasing list of 32-bit words has at most `2 ^ 32` entries. -/
theorem length_le_of_sorted {ws : List UInt32} (h : ws.Pairwise (· < ·)) :
    ws.length ≤ 2 ^ 32 := by
  refine length_le_of_nodup (h.imp ?_)
  rintro a b hab rfl
  exact UInt32.lt_irrefl _ hab

end GroupProtocol.Words
