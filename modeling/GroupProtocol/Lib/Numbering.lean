import GroupProtocol.Lib.Words
import Mathlib.Logic.Function.Basic

/-!
# Independent counters under shared labels

Many sources number their items independently: a source keeps one 32-bit counter for each
label and every use takes the next number. The numbers are unique under each label exactly
when no two sources share a label and no counter wraps.
-/

namespace GroupProtocol.Numbering

open Function

variable {ι L : Type*} [DecidableEq ι] [DecidableEq L]

/-- The labelled numbers of a series of uses, from given counters. -/
def numbered : (ι × L → ℕ) → List (ι × L) → List (L × UInt32)
  | _, [] => []
  | c, x :: xs => (x.2, UInt32.ofNat (c x + 1)) :: numbered (update c x (c x + 1)) xs

/-- Every number is some use's counter plus its rank among the later uses. -/
theorem mem_numbered {c : ι × L → ℕ} {xs : List (ι × L)} {p : L × UInt32}
    (h : p ∈ numbered c xs) :
    ∃ x ∈ xs, ∃ k, 0 < k ∧ k ≤ xs.count x ∧ p = (x.2, UInt32.ofNat (c x + k)) := by
  induction xs generalizing c with
  | nil => cases h
  | cons y ys ih =>
      rcases List.mem_cons.mp h with rfl | h
      · refine ⟨y, List.mem_cons_self .., 1, Nat.one_pos, ?_, rfl⟩
        rw [List.count_cons_self]
        omega
      · obtain ⟨x, hx, k, hpos, hk, rfl⟩ := ih h
        by_cases hxy : x = y
        · subst hxy
          refine ⟨x, List.mem_cons_self .., k + 1, Nat.succ_pos k, ?_, ?_⟩
          · rw [List.count_cons_self]
            omega
          · rw [update_self, Nat.add_assoc, Nat.add_comm 1 k]
        · refine ⟨x, List.mem_cons_of_mem _ hx, k, hpos, ?_, ?_⟩
          · rw [List.count_cons_of_ne (Ne.symm hxy)]
            exact hk
          · rw [update_of_ne hxy]

/-- Every use of a source takes its next number at some point. -/
theorem first_mem_numbered {c : ι × L → ℕ} {xs : List (ι × L)} {x : ι × L} (h : x ∈ xs) :
    (x.2, UInt32.ofNat (c x + 1)) ∈ numbered c xs := by
  induction xs generalizing c with
  | nil => cases h
  | cons y ys ih =>
      by_cases hxy : x = y
      · subst hxy
        exact List.mem_cons_self ..
      · have hrest := ih (c := update c y (c y + 1)) ((List.mem_cons.mp h).resolve_left hxy)
        rw [update_of_ne hxy] at hrest
        exact List.mem_cons_of_mem _ hrest

/-- One label carries as many numbers as uses. -/
theorem length_filter_numbered (c : ι × L → ℕ) (xs : List (ι × L)) (l : L) :
    ((numbered c xs).filter fun p => p.1 = l).length =
      (xs.filter fun x => x.2 = l).length := by
  induction xs generalizing c with
  | nil => rfl
  | cons y ys ih =>
      by_cases hy : y.2 = l
      · simp only [numbered, List.filter_cons, hy, decide_true, if_true, List.length_cons, ih]
      · simp only [numbered, List.filter_cons, hy, decide_false, Bool.false_eq_true, if_false, ih]

/-- Two sources with equal counters under one label collide. -/
theorem not_nodup_of_shared {c : ι × L → ℕ} {xs : List (ι × L)} {x y : ι × L} (hx : x ∈ xs)
    (hy : y ∈ xs) (hne : x ≠ y) (hl : x.2 = y.2) (hc : c x = c y) : ¬(numbered c xs).Nodup := by
  induction xs generalizing c with
  | nil => cases hx
  | cons z zs ih =>
      intro hnodup
      obtain ⟨hhead, htail⟩ := List.nodup_cons.mp hnodup
      by_cases hzx : x = z
      · subst hzx
        have hmem := first_mem_numbered (c := update c x (c x + 1))
          ((List.mem_cons.mp hy).resolve_left (Ne.symm hne))
        rw [update_of_ne (Ne.symm hne), ← hl, ← hc] at hmem
        exact hhead hmem
      · by_cases hzy : y = z
        · subst hzy
          have hmem := first_mem_numbered (c := update c y (c y + 1))
            ((List.mem_cons.mp hx).resolve_left hne)
          rw [update_of_ne hne, hl, hc] at hmem
          exact hhead hmem
        · refine ih ((List.mem_cons.mp hx).resolve_left hzx)
            ((List.mem_cons.mp hy).resolve_left hzy) ?_ htail
          rw [update_of_ne hzx, update_of_ne hzy, hc]

/-- With one source for each label and no counter wrapping, all numbers are distinct. -/
theorem nodup_of_separate {c : ι × L → ℕ} {xs : List (ι × L)}
    (hone : ∀ x ∈ xs, ∀ y ∈ xs, x.2 = y.2 → x = y) (hwrap : ∀ x, xs.count x ≤ 2 ^ 32) :
    (numbered c xs).Nodup := by
  induction xs generalizing c with
  | nil => exact List.nodup_nil
  | cons z zs ih =>
      have hcount (x : ι × L) : zs.count x ≤ (z :: zs).count x := List.count_le_count_cons
      refine List.nodup_cons.mpr ⟨?_, ih ?_ fun x => (hcount x).trans (hwrap x)⟩
      · intro hmem
        obtain ⟨x, hx, k, hpos, hk, heq⟩ := mem_numbered hmem
        have hxz : z = x := hone z (List.mem_cons_self ..) x (List.mem_cons_of_mem _ hx)
          (congrArg Prod.fst heq)
        subst hxz
        have hz := hwrap z
        rw [List.count_cons_self] at hz
        rw [update_self] at heq
        exact Words.offset32_ne hpos (by omega) (congrArg Prod.snd heq).symm
      · intro x hx y hy
        exact hone x (List.mem_cons_of_mem _ hx) y (List.mem_cons_of_mem _ hy)

/-- From zero counters the labelled numbers are distinct exactly when each label has one
source and at most `2 ^ 32` uses. -/
theorem nodup_numbered_iff (xs : List (ι × L)) :
    (numbered (fun _ => 0) xs).Nodup ↔
      (∀ x ∈ xs, ∀ y ∈ xs, x.2 = y.2 → x = y) ∧
        ∀ l, (xs.filter fun x => x.2 = l).length ≤ 2 ^ 32 := by
  constructor
  · intro hnodup
    constructor
    · intro x hx y hy hl
      by_contra hne
      exact not_nodup_of_shared hx hy hne hl rfl hnodup
    · intro l
      have hwords : (((numbered (fun _ => 0) xs).filter fun p => p.1 = l).map Prod.snd).Nodup := by
        refine List.Nodup.map_on ?_ (hnodup.filter _)
        intro p hp q hq hpq
        have hpl := of_decide_eq_true (List.mem_filter.mp hp).2
        have hql := of_decide_eq_true (List.mem_filter.mp hq).2
        exact Prod.ext (hpl.trans hql.symm) hpq
      have hlen := Words.length_le_of_nodup hwords
      rwa [List.length_map, length_filter_numbered] at hlen
  · rintro ⟨hone, hcount⟩
    refine nodup_of_separate hone fun x => ?_
    refine le_trans ?_ (hcount x.2)
    rw [List.count_eq_length_filter]
    refine List.Sublist.length_le (List.monotone_filter_right _ ?_)
    intro y hy
    rw [beq_iff_eq.mp hy]
    exact decide_eq_true rfl

end GroupProtocol.Numbering
