import Mathlib.Data.List.AList
import Mathlib.Data.Finset.Card
import Mathlib.Data.List.Defs

/-!
# Slots that are filled once, and lists cut in blocks

A finite map in which the first value written for a key stays, and the count of its keys
when they are the first numbers: a full count means that no number is missing. Cutting a
list in blocks loses nothing, whatever the size of the blocks.
-/

namespace GroupProtocol

/-- A finite map whose entries are written once. -/
abbrev Slots (K V : Type) := AList fun _ : K => V

namespace Slots

variable {K V : Type} [DecidableEq K]

/-- Write a key unless it holds a value already. -/
def orInsert (m : Slots K V) (k : K) (v : V) : Slots K V := if k ∈ m then m else m.insert k v

theorem lookup_orInsert (m : Slots K V) (k j : K) (v : V) :
    (m.orInsert k v).lookup j = (m.lookup j).or (if j = k then some v else none) := by
  by_cases hk : k ∈ m
  · obtain ⟨u, hu⟩ := Option.isSome_iff_exists.mp (AList.lookup_isSome.mpr hk)
    rw [orInsert, if_pos hk]
    by_cases hj : j = k
    · rw [hj, hu, Option.some_or]
    · rw [if_neg hj, Option.or_none]
  · rw [orInsert, if_neg hk]
    by_cases hj : j = k
    · rw [hj, AList.lookup_insert, AList.lookup_eq_none.mpr hk, if_pos rfl, Option.none_or]
    · rw [AList.lookup_insert_ne hj, if_neg hj, Option.or_none]

@[simp] theorem mem_orInsert {m : Slots K V} {k j : K} {v : V} :
    j ∈ m.orInsert k v ↔ j ∈ m ∨ j = k := by
  rw [← AList.lookup_isSome, lookup_orInsert, Option.isSome_or, Bool.or_eq_true,
    AList.lookup_isSome]
  by_cases hj : j = k <;> simp [hj]

/-- A second write changes nothing. -/
theorem orInsert_of_mem {m : Slots K V} {k : K} (h : k ∈ m) (v : V) : m.orInsert k v = m :=
  if_pos h

/-- A first write adds one key. -/
theorem length_keys_orInsert {m : Slots K V} {k : K} (h : k ∉ m) (v : V) :
    (m.orInsert k v).keys.length = m.keys.length + 1 := by
  have hkeys : ¬k ∈ m.keys := h
  rw [orInsert, if_neg h, AList.keys_insert, List.length_cons, List.erase_of_not_mem hkeys]

/-- When the keys are numbered, their count is the count of the numbers that occur. -/
theorem length_keys_eq_card (m : Slots K V) {index : ℕ → K} {n : ℕ}
    (hinj : Set.InjOn index (Finset.range n)) (hkeys : ∀ k ∈ m, ∃ i < n, index i = k) :
    m.keys.length = ((Finset.range n).filter (index · ∈ m)).card := by
  have himage : m.keys.toFinset = ((Finset.range n).filter (index · ∈ m)).image index := by
    ext k
    simp only [List.mem_toFinset, Finset.mem_image, Finset.mem_filter, Finset.mem_range]
    constructor
    · intro hk
      obtain ⟨i, hi, rfl⟩ := hkeys k hk
      exact ⟨i, ⟨hi, hk⟩, rfl⟩
    · rintro ⟨i, ⟨-, hk⟩, rfl⟩
      exact hk
  have hnodup : m.keys.Nodup := m.nodupKeys
  rw [← List.toFinset_card_of_nodup hnodup, himage,
    Finset.card_image_of_injOn (hinj.mono (Finset.coe_subset.mpr (Finset.filter_subset _ _)))]

/-- An injection keeps the number of distinct elements of a list. -/
theorem card_toFinset_map {α β : Type} [DecidableEq α] [DecidableEq β] {f : α → β}
    (hf : Function.Injective f) (l : List α) : (l.map f).toFinset.card = l.toFinset.card := by
  have himage : (l.map f).toFinset = l.toFinset.image f := by
    ext b
    simp only [List.mem_toFinset, List.mem_map, Finset.mem_image]
  rw [himage, Finset.card_image_of_injective _ hf]

/-- A full count leaves no number out. -/
theorem card_filter_range_eq_iff {p : ℕ → Prop} [DecidablePred p] {n : ℕ} :
    ((Finset.range n).filter p).card = n ↔ ∀ i < n, p i := by
  have hcard := Finset.card_filter_eq_iff (s := Finset.range n) (p := p)
  simpa only [Finset.card_range, Finset.mem_range] using hcard

end Slots

/-! Blocks of a list. -/

theorem flatten_toChunks_go {α : Type} (n : ℕ) (xs : List α) (block : Array α)
    (blocks : Array (List α)) :
    (List.toChunks.go n xs block blocks).flatten =
      blocks.toList.flatten ++ block.toList ++ xs := by
  induction xs generalizing block blocks with
  | nil => simp [List.toChunks.go]
  | cons x xs ih =>
      rw [List.toChunks.go]
      split
      · rw [ih]
        simp
      · rw [ih]
        simp

/-- Cutting a list in blocks loses and reorders nothing. -/
theorem flatten_toChunks {α : Type} (n : ℕ) (xs : List α) : (xs.toChunks n).flatten = xs := by
  cases xs with
  | nil => cases n <;> rfl
  | cons x xs =>
      cases n with
      | zero => simp [List.toChunks]
      | succ n =>
          rw [List.toChunks, flatten_toChunks_go]
          · simp
          · simp

end GroupProtocol
