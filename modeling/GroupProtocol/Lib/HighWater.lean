import GroupProtocol.Lib.Machine
import GroupProtocol.Lib.Slots

/-!
# High-water marks

A finite map that keeps the largest value observed for each key. `raise` takes an absent mark
for zero and stores only what lies above it; `track` first gives the key an entry at zero. Both
keep the greatest observed value, and they differ exactly on keys observed with zero alone.
-/

namespace GroupProtocol

/-- The mark of each key. -/
abbrev Marks (K V : Type) := AList fun _ : K => V

namespace Marks

section Observations

variable {K V : Type}

theorem mem_append_ne {xs : List (K × V)} {x : K × V} {k : K} (hk : k ≠ x.1) (v : V) :
    (k, v) ∈ xs ++ [x] ↔ (k, v) ∈ xs := by
  rw [List.mem_append, List.mem_singleton]
  exact or_iff_left fun heq => hk (congrArg Prod.fst heq)

variable [LE V]

/-- `h` is the largest value of `k` among the observations. -/
structure Greatest (xs : List (K × V)) (k : K) (h : V) : Prop where
  mem : (k, h) ∈ xs
  upper : ∀ v, (k, v) ∈ xs → v ≤ h

/-- A mark is the largest observation of its key; no mark means no observation. -/
def Summary (xs : List (K × V)) (k : K) : Option V → Prop
  | none => ∀ v, (k, v) ∉ xs
  | some h => Greatest xs k h

/-- A summary reads the observations as a set. -/
theorem Summary.congr {xs ys : List (K × V)} (h : ∀ x, x ∈ xs ↔ x ∈ ys) {k : K} {a : Option V}
    (ha : Summary xs k a) : Summary ys k a := by
  cases a with
  | none => exact fun v hv => ha v ((h (k, v)).mpr hv)
  | some g => exact ⟨(h (k, g)).mp ha.mem, fun v hv => ha.upper v ((h (k, v)).mpr hv)⟩

/-- An observation of another key changes no greatest value. -/
theorem Greatest.append_ne {xs : List (K × V)} {x : K × V} {k : K} {h : V} (hk : k ≠ x.1)
    (hg : Greatest xs k h) : Greatest (xs ++ [x]) k h :=
  ⟨(mem_append_ne hk h).mpr hg.mem, fun v hv => hg.upper v ((mem_append_ne hk v).mp hv)⟩

/-- An observation at most as large leaves the greatest value. -/
theorem Greatest.append_le {xs : List (K × V)} {k : K} {h v : V} (hg : Greatest xs k h)
    (hv : v ≤ h) : Greatest (xs ++ [(k, v)]) k h := by
  refine ⟨List.mem_append_left _ hg.mem, fun u hu => ?_⟩
  rcases List.mem_append.mp hu with hold | hnew
  · exact hg.upper u hold
  · rwa [(Prod.mk.inj (List.mem_singleton.mp hnew)).2]

variable [Std.IsLinearOrder V]

/-- An observation at least as large as all before it is the greatest value. -/
theorem Greatest.append_ge {xs : List (K × V)} {k : K} {v : V}
    (h : ∀ u, (k, u) ∈ xs → u ≤ v) : Greatest (xs ++ [(k, v)]) k v := by
  refine ⟨List.mem_append_right _ (List.mem_singleton_self _), fun u hu => ?_⟩
  rcases List.mem_append.mp hu with hold | hnew
  · exact h u hold
  · rw [(Prod.mk.inj (List.mem_singleton.mp hnew)).2]
    exact Std.le_refl v

theorem Greatest.unique {xs : List (K × V)} {k : K} {g h : V} (hg : Greatest xs k g)
    (hh : Greatest xs k h) : g = h :=
  Std.le_antisymm (hh.upper g hg.mem) (hg.upper h hh.mem)

theorem Summary.unique {xs : List (K × V)} {k : K} {a b : Option V} (ha : Summary xs k a)
    (hb : Summary xs k b) : a = b := by
  cases a with
  | none =>
      cases b with
      | none => rfl
      | some h => exact absurd hb.mem (ha h)
  | some g =>
      cases b with
      | none => exact absurd ha.mem (hb g)
      | some h => exact congrArg some (Greatest.unique ha hb)

end Observations

variable {K V : Type} [DecidableEq K]

/-- A reading of the marks that holds of no observations and that one observation keeps holds
after all of them. -/
theorem run_reading {S : List (K × V) → K → Option V → Prop}
    {step : Marks K V → K × V → Marks K V} (hempty : ∀ k, S [] k none)
    (hstep : ∀ m past x, (∀ k, S past k (m.lookup k)) →
      ∀ k, S (past ++ [x]) k ((step m x).lookup k)) (xs : List (K × V)) (k : K) :
    S xs k ((Machine.run step ∅ xs).lookup k) := by
  have hrun (past ys : List (K × V)) (m : Marks K V) (h : ∀ k, S past k (m.lookup k)) :
      ∀ k, S (past ++ ys) k ((Machine.run step m ys).lookup k) := by
    induction ys generalizing past m with
    | nil => rwa [List.append_nil]
    | cons y ys ih =>
        have hnext := ih (past ++ [y]) (step m y) (hstep m past y h)
        rwa [List.append_assoc, List.singleton_append] at hnext
  exact hrun [] xs ∅ (fun k => by rw [AList.lookup_empty]; exact hempty k) k

variable [OfNat V 0] [LT V] [DecidableLT V]

/-- Raise the mark of a key to a value above it; an absent mark stands at zero. -/
def raise (m : Marks K V) (x : K × V) : Marks K V :=
  if (m.lookup x.1).getD 0 < x.2 then m.insert x.1 x.2 else m

/-- Give the key a mark at zero if it has none, then raise it. -/
def track (m : Marks K V) (x : K × V) : Marks K V := raise (Slots.orInsert m x.1 0) x

theorem lookup_raise (m : Marks K V) (x : K × V) (k : K) :
    (m.raise x).lookup k =
      if k = x.1 ∧ (m.lookup x.1).getD 0 < x.2 then some x.2 else m.lookup k := by
  by_cases h : (m.lookup x.1).getD 0 < x.2
  · by_cases hk : k = x.1
    · rw [raise, if_pos h, if_pos ⟨hk, h⟩, hk, AList.lookup_insert]
    · rw [raise, if_pos h, if_neg fun hboth => hk hboth.1, AList.lookup_insert_ne hk]
  · rw [raise, if_neg h, if_neg fun hboth => h hboth.2]

theorem lookup_track (m : Marks K V) (x : K × V) (k : K) :
    (m.track x).lookup k =
      if k = x.1 then
        some (if (m.lookup x.1).getD 0 < x.2 then x.2 else (m.lookup x.1).getD 0)
      else m.lookup k := by
  have hentry : (Slots.orInsert m x.1 0).lookup x.1 = some ((m.lookup x.1).getD 0) := by
    rw [Slots.lookup_orInsert, if_pos rfl]
    cases m.lookup x.1 <;> rfl
  rw [track, lookup_raise, hentry, Option.getD_some]
  by_cases hk : k = x.1
  · rw [if_pos hk, hk, hentry, ← apply_ite some]
    simp only [true_and]
  · rw [if_neg hk, if_neg fun hboth => hk hboth.1, Slots.lookup_orInsert, if_neg hk,
      Option.or_none]

/-- Marks raised by values read through an order embedding that keeps zero are the marks of the
values, read through it. -/
theorem lookup_run_map {W : Type} [OfNat W 0] [LT W] [DecidableLT W] {f : V → W}
    (hlt : ∀ a b, f a < f b ↔ a < b) (hzero : f 0 = 0) (xs : List (K × V)) (k : K) :
    (Machine.run raise (∅ : Marks K W) (xs.map fun x => (x.1, f x.2))).lookup k =
      ((Machine.run raise (∅ : Marks K V) xs).lookup k).map f := by
  have hrun (ys : List (K × V)) (m : Marks K V) (n : Marks K W)
      (h : ∀ k, n.lookup k = (m.lookup k).map f) :
      ∀ k, (Machine.run raise n (ys.map fun x => (x.1, f x.2))).lookup k =
        ((Machine.run raise m ys).lookup k).map f := by
    induction ys generalizing m n with
    | nil => exact h
    | cons y ys ih =>
        refine ih (m.raise y) (n.raise (y.1, f y.2)) fun j => ?_
        have hstands : (n.lookup y.1).getD 0 = f ((m.lookup y.1).getD 0) := by
          rw [h y.1, ← hzero]
          cases m.lookup y.1 <;> rfl
        rw [lookup_raise, lookup_raise, hstands, h j, apply_ite (Option.map f), Option.map_some]
        simp only [hlt]
  exact hrun xs ∅ ∅ (fun j => by rw [AList.lookup_empty, AList.lookup_empty, Option.map_none]) k

variable [LE V] [Std.IsLinearOrder V] [Std.LawfulOrderLT V]

/-- A mark is the largest observation of its key and above zero; no mark means that nothing
above zero was observed. -/
def AboveZero (xs : List (K × V)) (k : K) : Option V → Prop
  | none => ∀ v, (k, v) ∈ xs → v ≤ 0
  | some h => 0 < h ∧ Greatest xs k h

/-- One observation keeps every mark that is tracked from zero, the least value. -/
theorem summary_track (hzero : ∀ v : V, 0 ≤ v) {m : Marks K V} {past : List (K × V)}
    (h : ∀ k, Summary past k (m.lookup k)) (x : K × V) (k : K) :
    Summary (past ++ [x]) k ((m.track x).lookup k) := by
  rw [lookup_track]
  by_cases hk : k = x.1
  · obtain ⟨j, v⟩ := x
    subst hk
    have hold := h k
    rw [if_pos rfl]
    cases hm : m.lookup k with
    | none =>
        rw [hm] at hold
        have hv : (if 0 < v then v else 0) = v := by
          by_cases hpos : 0 < v
          · rw [if_pos hpos]
          · rw [if_neg hpos]
            exact Std.le_antisymm (hzero v) (Std.not_lt.mp hpos)
        rw [Option.getD_none, hv]
        exact Greatest.append_ge fun u hu => absurd hu (hold u)
    | some g =>
        rw [hm] at hold
        rw [Option.getD_some]
        by_cases hlt : g < v
        · rw [if_pos hlt]
          exact Greatest.append_ge fun u hu => Std.le_trans (hold.upper u hu) (Std.le_of_lt hlt)
        · rw [if_neg hlt]
          exact Greatest.append_le hold (Std.not_lt.mp hlt)
  · rw [if_neg hk]
    have hold := h k
    cases hm : m.lookup k with
    | none =>
        rw [hm] at hold
        exact fun v hv => hold v ((mem_append_ne hk v).mp hv)
    | some g =>
        rw [hm] at hold
        exact Greatest.append_ne hk hold

/-- One observation keeps every mark that is raised above zero. -/
theorem aboveZero_raise {m : Marks K V} {past : List (K × V)}
    (h : ∀ k, AboveZero past k (m.lookup k)) (x : K × V) (k : K) :
    AboveZero (past ++ [x]) k ((m.raise x).lookup k) := by
  rw [lookup_raise]
  by_cases hk : k = x.1
  · obtain ⟨j, v⟩ := x
    subst hk
    have hold := h k
    cases hm : m.lookup k with
    | none =>
        rw [hm] at hold
        simp only [Option.getD_none, true_and]
        by_cases hpos : 0 < v
        · rw [if_pos hpos]
          exact ⟨hpos, Greatest.append_ge fun u hu => Std.le_trans (hold u hu) (Std.le_of_lt hpos)⟩
        · rw [if_neg hpos]
          intro u hu
          rcases List.mem_append.mp hu with hmem | hnew
          · exact hold u hmem
          · rw [(Prod.mk.inj (List.mem_singleton.mp hnew)).2]
            exact Std.not_lt.mp hpos
    | some g =>
        rw [hm] at hold
        simp only [Option.getD_some, true_and]
        by_cases hlt : g < v
        · rw [if_pos hlt]
          exact ⟨Std.lt_trans hold.1 hlt,
            Greatest.append_ge fun u hu => Std.le_trans (hold.2.upper u hu) (Std.le_of_lt hlt)⟩
        · rw [if_neg hlt]
          exact ⟨hold.1, Greatest.append_le hold.2 (Std.not_lt.mp hlt)⟩
  · rw [if_neg fun hboth => hk hboth.1]
    have hold := h k
    cases hm : m.lookup k with
    | none =>
        rw [hm] at hold
        exact fun v hv => hold v ((mem_append_ne hk v).mp hv)
    | some g =>
        rw [hm] at hold
        exact ⟨hold.1, Greatest.append_ne hk hold.2⟩

/-- After any observations, a tracked mark is the largest one of its key. -/
theorem summary_run (hzero : ∀ v : V, 0 ≤ v) (xs : List (K × V)) (k : K) :
    Summary xs k ((Machine.run track (∅ : Marks K V) xs).lookup k) :=
  run_reading (S := Summary) (fun _ _ => List.not_mem_nil) (fun _ _ x h => summary_track hzero h x) xs k

/-- After any observations, a raised mark is the largest one of its key above zero. -/
theorem aboveZero_run (xs : List (K × V)) (k : K) :
    AboveZero xs k ((Machine.run raise (∅ : Marks K V) xs).lookup k) :=
  run_reading (S := AboveZero) (fun _ _ h => absurd h List.not_mem_nil)
    (fun _ _ x h => aboveZero_raise h x) xs k

/-- The two rules give a key the same mark exactly when it was observed above zero or never. -/
theorem lookup_run_eq_iff (hzero : ∀ v : V, 0 ≤ v) (xs : List (K × V)) (k : K) :
    (Machine.run raise (∅ : Marks K V) xs).lookup k =
        (Machine.run track (∅ : Marks K V) xs).lookup k ↔
      ((∃ v, (k, v) ∈ xs) → ∃ v, 0 < v ∧ (k, v) ∈ xs) := by
  have htrack := summary_run hzero xs k
  have hraise := aboveZero_run xs k
  cases hr : (Machine.run raise (∅ : Marks K V) xs).lookup k with
  | some g =>
      rw [hr] at hraise
      refine iff_of_true ?_ fun _ => ⟨g, hraise.1, hraise.2.mem⟩
      exact Summary.unique (a := some g) hraise.2 htrack
  | none =>
      rw [hr] at hraise
      have hzeros : ¬∃ v, 0 < v ∧ (k, v) ∈ xs := by
        rintro ⟨v, hpos, hv⟩
        exact Std.not_le.mpr hpos (hraise v hv)
      cases ht : (Machine.run track (∅ : Marks K V) xs).lookup k with
      | none =>
          rw [ht] at htrack
          refine iff_of_true rfl ?_
          rintro ⟨v, hv⟩
          exact absurd hv (htrack v)
      | some h =>
          rw [ht] at htrack
          refine iff_of_false (by simp) fun himp => hzeros (himp ⟨h, htrack.mem⟩)

end Marks

end GroupProtocol
