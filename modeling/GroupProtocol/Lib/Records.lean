import Mathlib.Data.List.Pairwise
import Mathlib.Data.List.Sort
import Mathlib.Logic.Function.Basic

/-!
# Records of numbered arrivals

Numbered items arrive for several keys, in any order, with repetitions and gaps. A record is an
item above everything that came for its key before it. Records of one key ascend, so they are a
sublist of every ascending series the items are taken from; and when no item is overtaken for
good, they are the whole part of the series that arrives.
-/

namespace GroupProtocol.Records

open Function

variable {α κ : Type*} [DecidableEq κ] (key : α → κ) (num : α → ℕ)

/-- The items above the mark of their key when they come; each one is the next mark. -/
def records : (κ → ℕ) → List α → List α
  | _, [] => []
  | mark, x :: xs =>
    if mark (key x) < num x then x :: records (update mark (key x) (num x)) xs
    else records mark xs

/-- Whatever comes behind a higher item of its key has come before. -/
def NoOvertaking (xs : List α) : Prop :=
  ∀ pre x post, xs = pre ++ x :: post → ∀ b ∈ pre, key b = key x → num x < num b → x ∈ pre

variable {key num}

theorem records_sublist (mark : κ → ℕ) (xs : List α) : (records key num mark xs).Sublist xs := by
  induction xs generalizing mark with
  | nil => exact List.Sublist.refl []
  | cons x xs ih =>
      rw [records]
      split
      · exact (ih _).cons_cons x
      · exact (ih _).cons x

/-- A record lies above the first mark of its key. -/
theorem mark_lt_of_mem {mark : κ → ℕ} {xs : List α} {x : α} (h : x ∈ records key num mark xs) :
    mark (key x) < num x := by
  induction xs generalizing mark with
  | nil => cases h
  | cons y ys ih =>
      rw [records] at h
      split at h
      · rename_i hlt
        rcases List.mem_cons.mp h with rfl | h
        · exact hlt
        · have hnext := ih h
          by_cases hk : key x = key y
          · rw [hk, update_self] at hnext
            rw [hk]
            exact hlt.trans hnext
          · rwa [update_of_ne hk] at hnext
      · exact ih h

/-- The records of one key ascend. -/
theorem records_pairwise (mark : κ → ℕ) (xs : List α) :
    (records key num mark xs).Pairwise fun a b => key a = key b → num a < num b := by
  induction xs generalizing mark with
  | nil => exact List.Pairwise.nil
  | cons x xs ih =>
      rw [records]
      split
      · refine List.pairwise_cons.mpr ⟨fun b hb hk => ?_, ih _⟩
        have hlt := mark_lt_of_mem hb
        rwa [← hk, update_self] at hlt
      · exact ih mark

/-- An item above its first mark and above all earlier ones of its key is a record. -/
theorem mem_records {mark : κ → ℕ} {pre post : List α} {x : α} (hmark : mark (key x) < num x)
    (hpre : ∀ b ∈ pre, key b = key x → num b < num x) :
    x ∈ records key num mark (pre ++ x :: post) := by
  induction pre generalizing mark with
  | nil =>
      rw [List.nil_append, records, if_pos hmark]
      exact List.mem_cons_self ..
  | cons b pre ih =>
      have hrest := fun c hc => hpre c (List.mem_cons_of_mem b hc)
      rw [List.cons_append, records]
      split
      · refine List.mem_cons_of_mem b (ih ?_ hrest)
        by_cases hk : key x = key b
        · rw [hk, update_self]
          exact hpre b (List.mem_cons_self ..) hk.symm
        · rwa [update_of_ne hk]
      · exact ih hmark hrest

/-- Items that ascend above their marks are all records. -/
theorem records_eq_self {mark : κ → ℕ} {xs : List α} (hmark : ∀ x ∈ xs, mark (key x) < num x)
    (hasc : xs.Pairwise fun a b => key a = key b → num a < num b) :
    records key num mark xs = xs := by
  induction xs generalizing mark with
  | nil => rfl
  | cons x xs ih =>
      obtain ⟨hx, hxs⟩ := List.pairwise_cons.mp hasc
      rw [records, if_pos (hmark x (List.mem_cons_self ..)), ih (fun y hy => ?_) hxs]
      by_cases hk : key y = key x
      · rw [hk, update_self]
        exact hx y hy hk.symm
      · rw [update_of_ne hk]
        exact hmark y (List.mem_cons_of_mem x hy)

theorem ascends_filter (mark : κ → ℕ) (xs : List α) (k : κ) :
    ((records key num mark xs).filter fun x => key x = k).Pairwise fun a b => num a < num b := by
  refine ((records_pairwise mark xs).sublist List.filter_sublist).imp_of_mem fun ha hb h => h ?_
  exact (of_decide_eq_true (List.mem_filter.mp ha).2).trans
    (of_decide_eq_true (List.mem_filter.mp hb).2).symm

/-- In an ascending series a number names its item. -/
theorem eq_of_num_eq {series : List α} (hseries : series.Pairwise fun a b => num a < num b)
    {a b : α} (ha : a ∈ series) (hb : b ∈ series) (h : num a = num b) : a = b := by
  have : Std.Symm fun a b : α => num a ≠ num b := ⟨fun _ _ hne => hne.symm⟩
  by_contra hne
  exact (hseries.imp Nat.ne_of_lt).forall ha hb hne h

/-- Whatever arrives of an ascending series, its records come in the order of the series, each
item at most once. -/
theorem records_sublist_series (mark : κ → ℕ) {xs series : List α} (k : κ)
    (hseries : series.Pairwise fun a b => num a < num b)
    (hfrom : ∀ x ∈ xs, key x = k → x ∈ series) :
    ((records key num mark xs).filter fun x => key x = k).Sublist series := by
  have : Std.Antisymm fun a b : α => num a < num b :=
    ⟨fun _ _ hab hba => absurd hab (Nat.lt_asymm hba)⟩
  have : Std.Irrefl fun a b : α => num a < num b := ⟨fun a => Nat.lt_irrefl (num a)⟩
  have hasc : ((records key num mark xs).filter fun x => key x = k).Pairwise fun a b =>
    num a < num b := ascends_filter mark xs k
  refine List.sublist_of_subperm_of_pairwise (List.subperm_of_subset hasc.nodup fun x hx => ?_)
    hasc hseries
  obtain ⟨hx, hk⟩ := List.mem_filter.mp hx
  exact hfrom x ((records_sublist mark xs).subset hx) (of_decide_eq_true hk)

/-- When nothing is overtaken for good, the records of an ascending series above the mark are
all of it that arrives. -/
theorem records_eq_arrived [DecidableEq α] (mark : κ → ℕ) {xs series : List α} (k : κ)
    (hseries : series.Pairwise fun a b => num a < num b)
    (hkey : ∀ x ∈ series, key x = k) (hmark : ∀ x ∈ series, mark k < num x)
    (hfrom : ∀ x ∈ xs, key x = k → x ∈ series) (horder : NoOvertaking key num xs) :
    ((records key num mark xs).filter fun x => key x = k) = series.filter fun x => x ∈ xs := by
  have : Std.Antisymm fun a b : α => num a < num b :=
    ⟨fun _ _ hab hba => absurd hab (Nat.lt_asymm hba)⟩
  have : Std.Irrefl fun a b : α => num a < num b := ⟨fun a => Nat.lt_irrefl (num a)⟩
  refine List.Pairwise.eq_of_mem_iff (r := fun a b => num a < num b)
    (ascends_filter mark xs k) (hseries.sublist List.filter_sublist) fun x => ?_
  rw [List.mem_filter, List.mem_filter, decide_eq_true_iff, decide_eq_true_iff]
  constructor
  · rintro ⟨hx, hk⟩
    have hmem := (records_sublist mark xs).subset hx
    exact ⟨hfrom x hmem hk, hmem⟩
  · rintro ⟨hx, hmem⟩
    refine ⟨?_, hkey x hx⟩
    obtain ⟨pre, post, rfl, hnew⟩ := List.eq_append_cons_of_mem hmem
    refine mem_records (by rw [hkey x hx]; exact hmark x hx) fun b hb hk => ?_
    rcases Nat.lt_trichotomy (num b) (num x) with hlt | heq | hgt
    · exact hlt
    · have hb' : b ∈ series := hfrom b (List.mem_append_left _ hb) (hk.trans (hkey x hx))
      exact absurd (eq_of_num_eq hseries hb' hx heq ▸ hb) hnew
    · exact absurd (horder pre x post rfl b hb hk hgt) hnew

omit [DecidableEq κ] in
/-- Items that never go back overtake nothing. -/
theorem noOvertaking_of_pairwise {xs : List α}
    (h : xs.Pairwise fun a b => key a = key b → num a ≤ num b) : NoOvertaking key num xs := by
  rintro pre x post rfl b hb hk hlt
  have hle := (List.pairwise_append.mp h).2.2 b hb x (List.mem_cons_self ..) hk
  exact absurd hlt (Nat.not_lt.mpr hle)

omit [DecidableEq κ] in
/-- Late repetitions overtake nothing. -/
theorem NoOvertaking.repeated {xs ys : List α} (h : NoOvertaking key num xs)
    (hys : ∀ y ∈ ys, y ∈ xs) : NoOvertaking key num (xs ++ ys) := by
  intro pre x post hsplit b hb hk hlt
  obtain ⟨rest, rfl, hrest⟩ | ⟨rest, rfl, hrest⟩ := List.append_eq_append_iff.mp hsplit
  · -- the item is among the repetitions
    have hx : x ∈ ys := hrest ▸ List.mem_append_right rest (List.mem_cons_self ..)
    exact List.mem_append_left rest (hys x hx)
  · cases rest with
    | nil =>
        have hx : x ∈ ys := by
          rw [List.nil_append] at hrest
          exact hrest ▸ List.mem_cons_self ..
        simpa using hys x hx
    | cons y rest =>
        rw [List.cons_append] at hrest
        obtain ⟨rfl, rfl⟩ := List.cons.inj hrest
        exact h pre x rest rfl b hb hk hlt

end GroupProtocol.Records
