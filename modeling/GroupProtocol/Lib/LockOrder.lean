import GroupProtocol.Lib.Machine
import Mathlib.Algebra.BigOperators.Group.Finset.Basic
import Mathlib.Algebra.Order.BigOperators.Group.Finset
import Mathlib.Data.Finset.Max

/-!
# Threads that take locks in order

Threads acquire and release mutexes along fixed scripts, in any interleaving. A script keeps the
order when it acquires only locks above those it holds, releases what it holds and ends with none.
Threads with such scripts never wait for one another in a circle, so a scheduler that comes back
to every thread brings all of them to their end.
-/

namespace GroupProtocol.LockOrder

variable {L ι : Type*}

/-- An operation of a thread on a mutex. -/
inductive Op (L : Type*)
  | acquire (l : L)
  | release (l : L)

/-- A thread: the locks it holds and the operations before it. -/
structure Thread (L : Type*) where
  held : List L
  rest : List (Op L)

/-- From some held locks on, the operations keep the order and end with no lock held. -/
def Ordered [DecidableEq L] (rank : L → ℕ) : List L → List (Op L) → Prop
  | held, [] => held = []
  | held, .acquire l :: ops => (∀ k ∈ held, rank k < rank l) ∧ Ordered rank (l :: held) ops
  | held, .release l :: ops => l ∈ held ∧ Ordered rank (held.erase l) ops

/-- The mutex is held by no thread. -/
def Free (s : ι → Thread L) (l : L) : Prop := ∀ i, l ∉ (s i).held

instance [Fintype ι] [DecidableEq L] (s : ι → Thread L) (l : L) : Decidable (Free s l) :=
  inferInstanceAs (Decidable (∀ i, l ∉ (s i).held))

/-- The scheduler picks a thread: it performs its next operation, or waits for a mutex. -/
def step [Fintype ι] [DecidableEq ι] [DecidableEq L] (s : ι → Thread L) (i : ι) : ι → Thread L :=
  match (s i).rest with
  | [] => s
  | .acquire l :: ops =>
    if Free s l then Function.update s i ⟨l :: (s i).held, ops⟩ else s
  | .release l :: ops => Function.update s i ⟨(s i).held.erase l, ops⟩

/-- Every thread has come to its end. -/
def Finished (s : ι → Thread L) : Prop := ∀ i, (s i).rest = []

/-- Every thread keeps the order. -/
def Keeps [DecidableEq L] (rank : L → ℕ) (s : ι → Thread L) : Prop :=
  ∀ i, Ordered rank (s i).held (s i).rest

/-- No mutex is held by two threads. -/
def Exclusive (s : ι → Thread L) : Prop :=
  ∀ i j l, l ∈ (s i).held → l ∈ (s j).held → i = j

/-- The operations that are left. -/
def work [Fintype ι] (s : ι → Thread L) : ℕ := ∑ i, (s i).rest.length

/-- The place of the mutex that comes next, when the next operation acquires one. -/
def wanted (rank : L → ℕ) (t : Thread L) : ℕ :=
  match t.rest with
  | .acquire l :: _ => rank l
  | _ => 0

section Scripts

variable [DecidableEq L] {rank : L → ℕ}

/-- Scripts that keep the order keep it one after the other. -/
theorem Ordered.append {held : List L} {ops more : List (Op L)} (h : Ordered rank held ops)
    (hmore : Ordered rank [] more) : Ordered rank held (ops ++ more) := by
  induction ops generalizing held with
  | nil =>
      rw [show held = [] from h]
      exact hmore
  | cons op ops ih =>
      cases op with
      | acquire l => exact ⟨h.1, ih h.2⟩
      | release l => exact ⟨h.1, ih h.2⟩

theorem ordered_flatten {scripts : List (List (Op L))} (h : ∀ ops ∈ scripts, Ordered rank [] ops) :
    Ordered rank [] scripts.flatten := by
  induction scripts with
  | nil => rfl
  | cons ops scripts ih =>
      rw [List.flatten_cons]
      exact (h ops (List.mem_cons_self ..)).append
        (ih fun ops' hops' => h ops' (List.mem_cons_of_mem ops hops'))

/-- A guard that lives while the body runs. -/
def guarded (l : L) (body : List (Op L)) : List (Op L) := .acquire l :: body ++ [.release l]

/-- Under any held locks below the bound, the operations keep the order, and they give back what
they take. -/
def Above (rank : L → ℕ) (bound : ℕ) (ops : List (Op L)) : Prop :=
  ∀ held more, (∀ k ∈ held, rank k < bound) → Ordered rank held more →
    Ordered rank held (ops ++ more)

theorem above_nil (bound : ℕ) : Above rank bound [] := fun _ _ _ hmore => hmore

theorem Above.append {bound : ℕ} {ops more : List (Op L)} (h : Above rank bound ops)
    (hmore : Above rank bound more) : Above rank bound (ops ++ more) := by
  intro held rest hheld hrest
  rw [List.append_assoc]
  exact h held _ hheld (hmore held rest hheld hrest)

/-- A guard is above what its mutex is above, when its body is above the mutex. -/
theorem Above.guarded {bound : ℕ} {l : L} {body : List (Op L)}
    (hbody : Above rank (rank l + 1) body) (hl : bound ≤ rank l) :
    Above rank bound (guarded l body) := by
  intro held rest hheld hrest
  have hbelow : ∀ k ∈ held, rank k < rank l := fun k hk => (hheld k hk).trans_le hl
  rw [LockOrder.guarded, List.cons_append, List.cons_append, List.append_assoc]
  refine ⟨hbelow, hbody _ _ ?_ ⟨List.mem_cons_self .., ?_⟩⟩
  · intro k hk
    rcases List.mem_cons.mp hk with rfl | hk
    · exact Nat.lt_succ_self _
    · exact (hbelow k hk).trans (Nat.lt_succ_self _)
  · rwa [List.erase_cons_head]

theorem Above.ordered {bound : ℕ} {ops : List (Op L)} (h : Above rank bound ops) :
    Ordered rank [] ops := by
  have hall := h [] [] nofun rfl
  rwa [List.append_nil] at hall

end Scripts

section Runs

variable [Fintype ι] [DecidableEq ι] [DecidableEq L] {rank : L → ℕ} {s : ι → Thread L}

/-- A thread that is picked acquires a free mutex or releases one; else nothing changes, because it
has come to its end or waits. -/
theorem step_cases (s : ι → Thread L) (i : ι) :
    (step s i = s ∧ ((s i).rest = [] ∨ ∃ l ops, (s i).rest = .acquire l :: ops ∧ ¬Free s l)) ∨
      (∃ l ops, (s i).rest = .acquire l :: ops ∧ Free s l ∧
        step s i = Function.update s i ⟨l :: (s i).held, ops⟩) ∨
      ∃ l ops, (s i).rest = .release l :: ops ∧
        step s i = Function.update s i ⟨(s i).held.erase l, ops⟩ := by
  cases hrest : (s i).rest with
  | nil => exact Or.inl ⟨by simp only [step, hrest], Or.inl rfl⟩
  | cons op ops =>
      cases op with
      | acquire l =>
          by_cases hfree : Free s l
          · exact Or.inr (Or.inl ⟨l, ops, rfl, hfree, by simp only [step, hrest, if_pos hfree]⟩)
          · refine Or.inl ⟨by simp only [step, hrest, if_neg hfree], Or.inr ⟨l, ops, rfl, hfree⟩⟩
      | release l => exact Or.inr (Or.inr ⟨l, ops, rfl, by simp only [step, hrest]⟩)

omit [Fintype ι] in
theorem Keeps.update (h : Keeps rank s) {i : ι} {t : Thread L} (ht : Ordered rank t.held t.rest) :
    Keeps rank (Function.update s i t) := by
  intro j
  by_cases hj : j = i
  · subst hj
    rw [Function.update_self]
    exact ht
  · rw [Function.update_of_ne hj]
    exact h j

theorem Keeps.step (h : Keeps rank s) (i : ι) : Keeps rank (step s i) := by
  have hi := h i
  rcases step_cases s i with ⟨heq, -⟩ | ⟨l, ops, hrest, -, heq⟩ | ⟨l, ops, hrest, heq⟩ <;> rw [heq]
  · exact h
  · rw [hrest] at hi
    exact h.update hi.2
  · rw [hrest] at hi
    exact h.update hi.2

/-- A mutex stays with one thread. -/
theorem Exclusive.step (h : Exclusive s) (i : ι) : Exclusive (step s i) := by
  rcases step_cases s i with ⟨heq, -⟩ | ⟨l, ops, -, hfree, heq⟩ | ⟨l, ops, -, heq⟩ <;> rw [heq]
  · exact h
  · intro j k m hj hk
    by_cases hji : j = i <;> by_cases hki : k = i
    · exact hji.trans hki.symm
    · rw [Function.update_of_ne hki] at hk
      rw [hji, Function.update_self] at hj
      rcases List.mem_cons.mp hj with rfl | hj
      · exact absurd hk (hfree k)
      · exact hji.trans (h i k m hj hk)
    · rw [Function.update_of_ne hji] at hj
      rw [hki, Function.update_self] at hk
      rcases List.mem_cons.mp hk with rfl | hk
      · exact absurd hj (hfree j)
      · exact (h j i m hj hk).trans hki.symm
    · rw [Function.update_of_ne hji] at hj
      rw [Function.update_of_ne hki] at hk
      exact h j k m hj hk
  · intro j k m hj hk
    have hsub : ∀ j, m ∈ (Function.update s i ⟨(s i).held.erase l, ops⟩ j).held →
        m ∈ (s j).held := by
      intro j hj
      by_cases hji : j = i
      · subst hji
        rw [Function.update_self] at hj
        exact List.mem_of_mem_erase hj
      · rwa [Function.update_of_ne hji] at hj
    exact h j k m (hsub j hj) (hsub k hk)

omit [DecidableEq L] in
theorem work_update {i : ι} {op : Op L} {ops : List (Op L)} (held : List L)
    (hrest : (s i).rest = op :: ops) : work (Function.update s i ⟨held, ops⟩) + 1 = work s := by
  have hothers : ∑ j ∈ Finset.univ.erase i, (Function.update s i ⟨held, ops⟩ j).rest.length =
      ∑ j ∈ Finset.univ.erase i, (s j).rest.length :=
    Finset.sum_congr rfl fun j hj => by rw [Function.update_of_ne (Finset.ne_of_mem_erase hj)]
  rw [work, work, ← Finset.add_sum_erase _ _ (Finset.mem_univ i), hothers, Function.update_self,
    ← Finset.add_sum_erase _ _ (Finset.mem_univ i), hrest, List.length_cons]
  exact Nat.add_right_comm ..

/-- A pick performs one operation or changes nothing. -/
theorem work_step (s : ι → Thread L) (i : ι) : step s i = s ∨ work (step s i) + 1 = work s := by
  rcases step_cases s i with ⟨heq, -⟩ | ⟨l, ops, hrest, -, heq⟩ | ⟨l, ops, hrest, heq⟩
  · exact Or.inl heq
  · exact Or.inr (heq ▸ work_update _ hrest)
  · exact Or.inr (heq ▸ work_update _ hrest)

/-- Some thread can go on, unless all have come to their end. -/
theorem exists_work_step (h : Keeps rank s) (hunfinished : ¬Finished s) :
    ∃ i, work (step s i) < work s := by
  by_contra hstuck
  rw [not_exists] at hstuck
  -- every unfinished thread waits for a mutex that some thread holds
  have hwaits : ∀ i, (s i).rest ≠ [] → ∃ l ops, (s i).rest = .acquire l :: ops ∧
      ∃ j, l ∈ (s j).held := by
    intro i hi
    rcases step_cases s i with ⟨-, hnil | ⟨l, ops, hrest, hheld⟩⟩ | ⟨l, ops, hrest, -, heq⟩ |
      ⟨l, ops, hrest, heq⟩
    · exact absurd hnil hi
    · rw [Free, not_forall] at hheld
      obtain ⟨j, hj⟩ := hheld
      exact ⟨l, ops, hrest, j, not_not.mp hj⟩
    · have hless := work_update (l :: (s i).held) hrest
      rw [← heq] at hless
      exact absurd (by omega) (hstuck i)
    · have hless := work_update ((s i).held.erase l) hrest
      rw [← heq] at hless
      exact absurd (by omega) (hstuck i)
  -- the one that waits for the highest mutex: its holder waits for a higher one
  rw [Finished, not_forall] at hunfinished
  obtain ⟨i₀, hi₀⟩ := hunfinished
  obtain ⟨i, hi, hmax⟩ := (Finset.univ.filter fun i => (s i).rest ≠ []).exists_max_image
    (fun i => wanted rank (s i)) ⟨i₀, Finset.mem_filter.mpr ⟨Finset.mem_univ _, hi₀⟩⟩
  obtain ⟨l, ops, hrest, j, hj⟩ := hwaits i (Finset.mem_filter.mp hi).2
  have hunfinished' : (s j).rest ≠ [] := by
    intro hnil
    have hkeeps := h j
    rw [hnil] at hkeeps
    rw [show (s j).held = [] from hkeeps] at hj
    cases hj
  obtain ⟨l', ops', hrest', -⟩ := hwaits j hunfinished'
  have hkeeps := h j
  rw [hrest'] at hkeeps
  have hlt : rank l < rank l' := hkeeps.1 l hj
  have hle := hmax j (Finset.mem_filter.mpr ⟨Finset.mem_univ _, hunfinished'⟩)
  simp only [wanted, hrest, hrest'] at hle
  omega

theorem work_run_le (s : ι → Thread L) (picks : List ι) : work (Machine.run step s picks) ≤ work s := by
  induction picks generalizing s with
  | nil => exact Nat.le_refl _
  | cons i picks ih =>
      refine (ih (step s i)).trans ?_
      rcases work_step s i with heq | hless
      · exact heq.symm ▸ Nat.le_refl _
      · exact hless ▸ Nat.le_succ _

/-- A schedule that picks a thread which can go on performs an operation. -/
theorem work_run_lt {i : ι} (hi : work (step s i) < work s) {picks : List ι} (hmem : i ∈ picks) :
    work (Machine.run step s picks) < work s := by
  induction picks with
  | nil => cases hmem
  | cons j picks ih =>
      rw [Machine.run_cons]
      rcases work_step s j with heq | hless
      · -- nothing has changed before the thread is picked
        rw [heq]
        rcases List.mem_cons.mp hmem with rfl | hmem
        · exact absurd hi (heq.symm ▸ Nat.lt_irrefl _)
        · exact ih hmem
      · exact (work_run_le (step s j) picks).trans_lt (hless ▸ Nat.lt_succ_self _)

omit [DecidableEq ι] [DecidableEq L] in
theorem finished_of_work (h : work s = 0) : Finished s := fun i =>
  List.length_eq_zero_iff.mp (Finset.sum_eq_zero_iff.mp h i (Finset.mem_univ i))

theorem Finished.run (h : Finished s) (picks : List ι) : Machine.run step s picks = s := by
  induction picks with
  | nil => rfl
  | cons i picks ih =>
      have hstep : step s i = s := by simp only [step, h i]
      rw [Machine.run_cons, hstep, ih]

/-- Enough rounds of the scheduler, each of which picks every thread, bring every thread to its
end. -/
theorem finished_of_rounds (h : Keeps rank s) {rounds : List (List ι)}
    (hfair : ∀ picks ∈ rounds, ∀ i, i ∈ picks) (henough : work s ≤ rounds.length) :
    Finished (Machine.run step s rounds.flatten) := by
  induction rounds generalizing s with
  | nil => exact finished_of_work (Nat.le_zero.mp henough)
  | cons picks rounds ih =>
      rw [List.flatten_cons, Machine.run_append]
      by_cases hdone : Finished s
      · rw [hdone.run, hdone.run]
        exact hdone
      · obtain ⟨i, hi⟩ := exists_work_step h hdone
        have hless := work_run_lt hi (hfair picks (List.mem_cons_self ..) i)
        refine ih (Machine.run_invariant h fun s i _ hs => Keeps.step hs i)
          (fun picks' hpicks' => hfair picks' (List.mem_cons_of_mem picks hpicks')) ?_
        rw [List.length_cons] at henough
        omega

end Runs

end GroupProtocol.LockOrder
