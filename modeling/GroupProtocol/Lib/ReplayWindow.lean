import Mathlib.Data.List.Pairwise
import Mathlib.Logic.Function.Basic
import Mathlib.Order.Nat

/-!
# High-water replay windows

The abstract window keeps one high-water mark for each key and accepts a number
only above its mark. Clearing forgets every mark and opens a new generation. Along
any trace the accepted numbers of one key and one generation strictly increase, so
no mark is ever accepted twice.
-/

namespace GroupProtocol

open Function

/-- One high-water mark for each key, inside a numbered generation. -/
structure Window (K : Type*) where
  /-- How often the window has been cleared. -/
  gen : ℕ
  /-- The largest number accepted for each key in this generation. -/
  high : K → ℕ

/-- One acceptance: the generation it happened in, its key and its number. -/
structure Mark (K : Type*) where
  gen : ℕ
  key : K
  seq : ℕ

namespace Window

variable {K : Type*} [DecidableEq K]

/-- Record an accepted number as the new mark of its key. -/
def accept (w : Window K) (k : K) (s : ℕ) : Window K := { w with high := update w.high k s }

/-- Forget every mark and open the next generation. -/
def clear (w : Window K) : Window K := ⟨w.gen + 1, fun _ => 0⟩

/-- The traces of a window: its acceptances in order and the window they leave. -/
inductive Trace (start : Window K) : List (Mark K) → Window K → Prop
  | nil : Trace start [] start
  | accept {log w k s} : Trace start log w → w.high k < s →
      Trace start (log ++ [⟨w.gen, k, s⟩]) (w.accept k s)
  | clear {log w} : Trace start log w → Trace start log w.clear

/-- Traces compose at their common window. -/
theorem Trace.trans {u v w : Window K} {first second : List (Mark K)}
    (hu : Trace u first v) (hv : Trace v second w) : Trace u (first ++ second) w := by
  induction hv with
  | nil => simpa only [List.append_nil] using hu
  | accept _ hlt ih => simpa only [List.append_assoc] using ih.accept hlt
  | clear _ ih => exact ih.clear

/-- Every acceptance lies in a past generation or at most at its key's mark. -/
theorem Trace.le_high {start w : Window K} {log : List (Mark K)} (h : Trace start log w) :
    ∀ m ∈ log, m.gen ≤ w.gen ∧ (m.gen = w.gen → m.seq ≤ w.high m.key) := by
  induction h with
  | nil => simp
  | @accept log w k s _ hlt ih =>
      intro m hm
      rcases List.mem_append.mp hm with hm | hm
      · obtain ⟨hg, hs⟩ := ih m hm
        refine ⟨hg, fun he => ?_⟩
        by_cases hk : m.key = k
        · have := hs he
          simp only [Window.accept, hk, update_self]
          exact (hk ▸ this).trans hlt.le
        · simpa only [Window.accept, update_of_ne hk] using hs he
      · obtain rfl := List.mem_singleton.mp hm
        exact ⟨le_refl _, fun _ => by simp only [Window.accept, update_self]; exact le_refl s⟩
  | @clear log w _ ih =>
      intro m hm
      have hg : m.gen < w.gen + 1 := Nat.lt_succ_of_le (ih m hm).1
      exact ⟨hg.le, fun he => absurd he hg.ne⟩

/-- Within one generation the accepted numbers of each key strictly increase. -/
theorem Trace.strict {start w : Window K} {log : List (Mark K)} (h : Trace start log w) :
    log.Pairwise fun a b => a.gen = b.gen → a.key = b.key → a.seq < b.seq := by
  induction h with
  | nil => exact List.Pairwise.nil
  | @accept log w k s ht hlt ih =>
      refine List.pairwise_append.mpr ⟨ih, List.pairwise_singleton _ _, ?_⟩
      intro m hm b hb
      obtain rfl := List.mem_singleton.mp hb
      rintro hg rfl
      exact ((ht.le_high m hm).2 hg).trans_lt hlt
  | clear _ ih => exact ih

end Window

end GroupProtocol
