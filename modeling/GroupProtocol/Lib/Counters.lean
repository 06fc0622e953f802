import Mathlib.Data.List.AList

/-!
# Finite counter maps with default zero

A finite map from keys to counters in which an absent key reads as zero. Reading
after one insertion and after clearing are the only facts the users need.
-/

namespace GroupProtocol

variable {K V : Type} [DecidableEq K]

/-- A finite map of counters, one entry for each key that was ever written. -/
abbrev Counters (K V : Type) := AList fun _ : K => V

namespace Counters

/-- The stored counter of `k`, or zero when `k` has no entry. -/
def read [OfNat V 0] (m : Counters K V) (k : K) : V := (m.lookup k).getD 0

@[simp] theorem read_empty [OfNat V 0] (k : K) : read (∅ : Counters K V) k = 0 := by
  simp only [read, AList.lookup_empty, Option.getD_none]

theorem lookup_insert_ite (m : Counters K V) (k j : K) (v : V) :
    (m.insert k v).lookup j = if j = k then some v else m.lookup j := by
  by_cases h : j = k
  · subst h
    rw [AList.lookup_insert, if_pos rfl]
  · rw [AList.lookup_insert_ne h, if_neg h]

theorem read_insert [OfNat V 0] (m : Counters K V) (k j : K) (v : V) :
    read (m.insert k v) j = if j = k then v else read m j := by
  rw [read, lookup_insert_ite, apply_ite (Option.getD · 0), Option.getD_some, read]

@[simp] theorem read_insert_self [OfNat V 0] (m : Counters K V) (k : K) (v : V) :
    read (m.insert k v) k = v := by
  rw [read_insert, if_pos rfl]

theorem read_insert_ne [OfNat V 0] (m : Counters K V) {k j : K} (v : V) (h : j ≠ k) :
    read (m.insert k v) j = read m j := by
  rw [read_insert, if_neg h]

end Counters

end GroupProtocol
