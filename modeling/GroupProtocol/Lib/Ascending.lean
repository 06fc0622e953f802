import Mathlib.Data.List.Basic
import Mathlib.Order.Lattice

/-!
# Lists ascending in a key

A list whose elements have strictly ascending keys, and the insertion of an element before the first
one with a larger key. Insertion keeps the order when the key is new.
-/

namespace GroupProtocol.Ascending

variable {α κ : Type*} [LinearOrder κ] (key : α → κ)

/-- The keys of the list strictly ascend. -/
def Ascends (l : List α) : Prop := l.Pairwise fun a b => key a < key b

/-- Insertion before the first element with a larger key, or at the end. -/
def insertOrdered (a : α) (l : List α) : List α :=
  l.insertIdx (l.findIdx fun b => decide (key a < key b)) a

variable {key}

theorem insertOrdered_cons (a b : α) (l : List α) :
    insertOrdered key a (b :: l) =
      if key a < key b then a :: b :: l else b :: insertOrdered key a l := by
  rw [insertOrdered, List.findIdx_cons]
  by_cases h : key a < key b
  · simp [h]
  · simp [h, insertOrdered]

theorem insertOrdered_perm (key : α → κ) (a : α) (l : List α) :
    (insertOrdered key a l).Perm (a :: l) :=
  List.perm_insertIdx a l List.findIdx_le_length

/-- Inserting an element with a new key keeps the order. -/
theorem Ascends.insertOrdered {l : List α} (h : Ascends key l) {a : α}
    (hfresh : ∀ b ∈ l, key b ≠ key a) : Ascends key (insertOrdered key a l) := by
  induction l with
  | nil => exact List.pairwise_singleton ..
  | cons b l ih =>
      obtain ⟨hb, hl⟩ := List.pairwise_cons.mp h
      rw [insertOrdered_cons]
      by_cases hab : key a < key b
      · rw [if_pos hab]
        refine List.pairwise_cons.mpr ⟨fun c hc => ?_, h⟩
        rcases List.mem_cons.mp hc with rfl | hc
        · exact hab
        · exact lt_trans hab (hb c hc)
      · rw [if_neg hab]
        have hba : key b < key a :=
          lt_of_le_of_ne (not_lt.mp hab) (hfresh b (List.mem_cons_self ..))
        refine List.pairwise_cons.mpr
          ⟨fun c hc => ?_, ih hl fun c hc => hfresh c (List.mem_cons_of_mem b hc)⟩
        rcases List.mem_cons.mp ((insertOrdered_perm key a l).mem_iff.mp hc) with rfl | hc
        · exact hba
        · exact hb c hc

end GroupProtocol.Ascending
