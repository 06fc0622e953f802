import Mathlib.Data.List.Nodup
import Mathlib.Data.List.Basic

/-!
# Labelled dispensers in a growing arena

Cells are allocated one after another and never freed. A cell has a label and a level, and it
hands out the value at its level and then rises. As long as no two cells share a label, no
labelled value is handed out twice.
-/

namespace GroupProtocol.Dispenser

variable {C L V : Type*}

/-- No labelled value was spent twice, every label belongs to one cell, and the values spent
under a label are below the level of its cell. -/
structure Spent (label : C → L) (level : C → ℕ) (rank : V → ℕ) (cells : List C)
    (used : List (L × V)) : Prop where
  fresh : used.Nodup
  labels : (cells.map label).Nodup
  below : ∀ p ∈ used, ∃ c ∈ cells, label c = p.1 ∧ rank p.2 < level c

variable {label : C → L} {level : C → ℕ} {rank : V → ℕ} {cells : List C} {used : List (L × V)}

theorem Spent.nil : Spent label level rank ([] : List C) [] :=
  ⟨List.nodup_nil, List.nodup_nil, fun _ h => absurd h List.not_mem_nil⟩

/-- A cell with a label of its own is allocated. -/
theorem Spent.alloc (h : Spent label level rank cells used) {c : C}
    (hnew : label c ∉ cells.map label) : Spent label level rank (cells ++ [c]) used := by
  refine ⟨h.fresh, ?_, fun p hp => ?_⟩
  · rw [List.map_append]
    apply List.Nodup.append h.labels (List.nodup_singleton _)
    intro l hl hc
    exact hnew (List.mem_singleton.mp hc ▸ hl)
  · obtain ⟨d, hd, hlabel, hlt⟩ := h.below p hp
    exact ⟨d, List.mem_append_left _ hd, hlabel, hlt⟩

/-- Writing a cell under its own label keeps all labels. -/
theorem map_label_set {i : ℕ} {c c' : C} (hc : cells[i]? = some c) (hlabel : label c' = label c) :
    (cells.set i c').map label = cells.map label := by
  obtain ⟨hlen, rfl⟩ := List.getElem?_eq_some_iff.mp hc
  rw [List.map_set, hlabel, ← List.getElem_map label, List.set_getElem_self]
  rwa [List.length_map]

/-- A cell rises without handing anything out. -/
theorem Spent.rise (h : Spent label level rank cells used) {i : ℕ} {c c' : C}
    (hc : cells[i]? = some c) (hlabel : label c' = label c) (hlevel : level c ≤ level c') :
    Spent label level rank (cells.set i c') used := by
  refine ⟨h.fresh, by rw [map_label_set hc hlabel]; exact h.labels, fun p hp => ?_⟩
  obtain ⟨d, hd, hp1, hlt⟩ := h.below p hp
  obtain ⟨j, hj⟩ := List.mem_iff_getElem?.mp hd
  by_cases hij : i = j
  · subst hij
    obtain rfl : c = d := Option.some.inj (hc.symm.trans hj)
    have hlen : i < cells.length := (List.getElem?_eq_some_iff.mp hc).1
    exact ⟨c', List.mem_set hlen _, hlabel.trans hp1, Nat.lt_of_lt_of_le hlt hlevel⟩
  · refine ⟨d, List.mem_iff_getElem?.mpr ⟨j, ?_⟩, hp1, hlt⟩
    rw [List.getElem?_set_ne hij, hj]

/-- Two cells with one label are the same cell. -/
theorem Spent.unique (h : Spent label level rank cells used) {c d : C} (hc : c ∈ cells)
    (hd : d ∈ cells) (hlabel : label c = label d) : c = d :=
  List.inj_on_of_nodup_map h.labels hc hd hlabel

/-- A cell hands out the value at its level. -/
theorem Spent.take (h : Spent label level rank cells used) {i : ℕ} {c c' : C} {v : V}
    (hc : cells[i]? = some c) (hlabel : label c' = label c) (hv : rank v = level c)
    (hlevel : level c < level c') :
    Spent label level rank (cells.set i c') (used ++ [(label c, v)]) := by
  have hmem : c ∈ cells := List.mem_of_getElem? hc
  have hrise := h.rise hc hlabel (Nat.le_of_lt hlevel)
  have hunused : (label c, v) ∉ used := by
    intro hp
    obtain ⟨d, hd, hsame, hlt⟩ := h.below _ hp
    obtain rfl := h.unique hd hmem hsame
    exact absurd hv (Nat.ne_of_lt hlt)
  refine ⟨?_, hrise.labels, fun p hp => ?_⟩
  · apply List.Nodup.append h.fresh (List.nodup_singleton _)
    intro p hp hq
    rw [List.mem_singleton] at hq
    exact hunused (hq ▸ hp)
  · rcases List.mem_append.mp hp with hp | hp
    · exact hrise.below p hp
    · obtain rfl := List.mem_singleton.mp hp
      have hlen : i < cells.length := (List.getElem?_eq_some_iff.mp hc).1
      exact ⟨c', List.mem_set hlen _, hlabel, hv ▸ hlevel⟩

end GroupProtocol.Dispenser
