import Mathlib.Data.List.Basic

/-!
# Runs and observations of a deterministic machine

A machine is a step function on states and inputs. A run folds the step over a
list of inputs, and an observation collects what each step emits. The invariant
rules reduce a statement about every run to one statement about a single step.
-/

namespace GroupProtocol.Machine

variable {σ α β : Type*}

/-- The state reached from `s` by the inputs `xs`, in order. -/
def run (step : σ → α → σ) (s : σ) (xs : List α) : σ := xs.foldl step s

/-- Everything emitted along the run of `xs` from `s`, oldest first. -/
def observe (step : σ → α → σ) (out : σ → α → List β) : σ → List α → List β
  | _, [] => []
  | s, x :: xs => out s x ++ observe step out (step s x) xs

@[simp] theorem run_nil (step : σ → α → σ) (s : σ) : run step s [] = s := rfl

@[simp] theorem run_cons (step : σ → α → σ) (s : σ) (x : α) (xs : List α) :
    run step s (x :: xs) = run step (step s x) xs := rfl

@[simp] theorem observe_nil (step : σ → α → σ) (out : σ → α → List β) (s : σ) :
    observe step out s [] = [] := rfl

@[simp] theorem observe_cons (step : σ → α → σ) (out : σ → α → List β) (s : σ) (x : α)
    (xs : List α) :
    observe step out s (x :: xs) = out s x ++ observe step out (step s x) xs := rfl

theorem run_append (step : σ → α → σ) (s : σ) (xs ys : List α) :
    run step s (xs ++ ys) = run step (run step s xs) ys := by
  simp only [run, List.foldl_append]

theorem observe_append (step : σ → α → σ) (out : σ → α → List β) (s : σ) (xs ys : List α) :
    observe step out s (xs ++ ys) =
      observe step out s xs ++ observe step out (run step s xs) ys := by
  induction xs generalizing s with
  | nil => rfl
  | cons x xs ih =>
      rw [List.cons_append, observe_cons, observe_cons, ih, List.append_assoc, run_cons]

/-- Observing less at every step observes a sublist. -/
theorem observe_sublist {step : σ → α → σ} {small large : σ → α → List β}
    (h : ∀ s x, (small s x).Sublist (large s x)) (s : σ) (xs : List α) :
    (observe step small s xs).Sublist (observe step large s xs) := by
  induction xs generalizing s with
  | nil => exact List.Sublist.refl []
  | cons x xs ih => exact (h s x).append (ih (step s x))

/-- What every admissible step preserves holds after every admissible run. -/
theorem run_invariant {step : σ → α → σ} {Inv : σ → Prop} {xs : List α} {s : σ}
    (hs : Inv s) (hstep : ∀ t x, x ∈ xs → Inv t → Inv (step t x)) : Inv (run step s xs) := by
  induction xs generalizing s with
  | nil => exact hs
  | cons x xs ih =>
      exact ih (hstep s x (List.mem_cons_self ..) hs)
        fun t y hy ht => hstep t y (List.mem_cons_of_mem _ hy) ht

/-- A relation between states and inputs holds at every step of a run. -/
def Along (step : σ → α → σ) (P : σ → α → Prop) : σ → List α → Prop
  | _, [] => True
  | s, x :: xs => P s x ∧ Along step P (step s x) xs

instance decidableAlong (step : σ → α → σ) (P : σ → α → Prop) [∀ s x, Decidable (P s x)] :
    (s : σ) → (xs : List α) → Decidable (Along step P s xs)
  | _, [] => isTrue trivial
  | s, x :: xs =>
    have := decidableAlong step P (step s x) xs
    inferInstanceAs (Decidable (P s x ∧ Along step P (step s x) xs))

/-- What holds along a run holds at the state every prefix reaches. -/
theorem along_iff {step : σ → α → σ} {P : σ → α → Prop} {s : σ} {xs : List α} :
    Along step P s xs ↔
      ∀ earlier x later, xs = earlier ++ x :: later → P (run step s earlier) x := by
  induction xs generalizing s with
  | nil => simp [Along]
  | cons y xs ih =>
      rw [Along, ih]
      constructor
      · rintro ⟨hy, hxs⟩ earlier x later hsplit
        cases earlier with
        | nil =>
            obtain ⟨rfl, rfl⟩ := List.cons.inj hsplit
            exact hy
        | cons z earlier =>
            obtain ⟨rfl, hrest⟩ := List.cons.inj hsplit
            exact hxs earlier x later hrest
      · intro h
        refine ⟨h [] y xs rfl, fun earlier x later hsplit => ?_⟩
        exact h (y :: earlier) x later (congrArg (y :: ·) hsplit)

theorem along_append {step : σ → α → σ} {P : σ → α → Prop} {s : σ} {xs ys : List α} :
    Along step P s (xs ++ ys) ↔ Along step P s xs ∧ Along step P (run step s xs) ys := by
  induction xs generalizing s with
  | nil => exact ⟨fun h => ⟨trivial, h⟩, fun h => h.2⟩
  | cons x xs ih =>
      simp only [List.cons_append, Along, ih, run_cons, and_assoc]

theorem along_of_forall {Q : α → Prop} {xs : List α} (h : ∀ x ∈ xs, Q x) (step : σ → α → σ)
    (s : σ) : Along step (fun _ x => Q x) s xs := by
  induction xs generalizing s with
  | nil => exact trivial
  | cons x xs ih =>
      exact ⟨h x (List.mem_cons_self ..), ih (fun y hy => h y (List.mem_cons_of_mem x hy)) _⟩

theorem along_mono {step : σ → α → σ} {P Q : σ → α → Prop} {s : σ} {xs : List α}
    (hP : Along step P s xs) (h : ∀ s x, P s x → Q s x) : Along step Q s xs := by
  induction xs generalizing s with
  | nil => exact trivial
  | cons x xs ih => exact ⟨h s x hP.1, ih hP.2⟩

theorem Along.and {step : σ → α → σ} {P Q : σ → α → Prop} {s : σ} {xs : List α}
    (hP : Along step P s xs) (hQ : Along step Q s xs) :
    Along step (fun s x => P s x ∧ Q s x) s xs := by
  induction xs generalizing s with
  | nil => exact trivial
  | cons x xs ih => exact ⟨⟨hP.1, hQ.1⟩, ih hP.2 hQ.2⟩

/-- The invariant rule for steps that are constrained by the state they start from. -/
theorem Along.invariant {step : σ → α → σ} {P : σ → α → Prop} {Inv : σ → Prop} {xs : List α}
    {s : σ} (hP : Along step P s xs) (hs : Inv s)
    (hstep : ∀ t x, P t x → Inv t → Inv (step t x)) : Inv (run step s xs) := by
  induction xs generalizing s with
  | nil => exact hs
  | cons x xs ih => exact ih hP.2 (hstep s x hP.1 hs)

/-- Along a constrained run that keeps an invariant, what the two give at one step holds at every
step. -/
theorem Along.derive {step : σ → α → σ} {P Q : σ → α → Prop} {xs : List α} {s : σ}
    (hP : Along step P s xs) (Inv : σ → Prop) (hs : Inv s) (hgive : ∀ t x, P t x → Inv t → Q t x)
    (hkeep : ∀ t x, P t x → Inv t → Inv (step t x)) : Along step Q s xs := by
  induction xs generalizing s with
  | nil => exact trivial
  | cons x xs ih => exact ⟨hgive s x hP.1 hs, ih hP.2 (hkeep s x hP.1 hs)⟩

/-- Along a constrained run, two relations that agree wherever the invariant holds hold along the
same runs, when the first one keeps the invariant. -/
theorem along_congr {step : σ → α → σ} {A P Q : σ → α → Prop} (Inv : σ → Prop) {s : σ}
    {xs : List α} (hA : Along step A s xs) (hs : Inv s)
    (hiff : ∀ s x, A s x → Inv s → (P s x ↔ Q s x))
    (hkeep : ∀ s x, A s x → Inv s → P s x → Inv (step s x)) :
    Along step P s xs ↔ Along step Q s xs := by
  induction xs generalizing s with
  | nil => exact Iff.rfl
  | cons x xs ih =>
      constructor
      · rintro ⟨hx, hxs⟩
        exact ⟨(hiff s x hA.1 hs).mp hx, (ih hA.2 (hkeep s x hA.1 hs hx)).mp hxs⟩
      · rintro ⟨hx, hxs⟩
        have hP := (hiff s x hA.1 hs).mpr hx
        exact ⟨hP, (ih hA.2 (hkeep s x hA.1 hs hP)).mpr hxs⟩

/-- Where a step keeps an invariant of the state and the inputs so far exactly under a condition,
every point of a run keeps it exactly when every step meets the condition. -/
theorem prefix_history_iff {step : σ → α → σ} {P Q : σ → α → Prop} (Inv : σ → List α → Prop)
    (past : List α) {xs : List α} {s : σ} (hP : Along step P s xs) (hs : Inv s past)
    (hstep : ∀ t past x, P t x → Inv t past → (Inv (step t x) (past ++ [x]) ↔ Q t x)) :
    (∀ ys, ys <+: xs → Inv (run step s ys) (past ++ ys)) ↔ Along step Q s xs := by
  induction xs generalizing s past with
  | nil =>
      constructor
      · intro _
        exact trivial
      · intro _ ys hys
        rw [List.prefix_nil.mp hys, List.append_nil]
        exact hs
  | cons x xs ih =>
      have hone := hstep s past x hP.1 hs
      have hsplit (ys : List α) : past ++ x :: ys = past ++ [x] ++ ys := by
        rw [List.append_assoc, List.singleton_append]
      constructor
      · intro h
        have hnext : Inv (step s x) (past ++ [x]) := h [x] (List.prefix_append [x] xs)
        refine ⟨hone.mp hnext, (ih _ hP.2 hnext).mp fun ys hys => ?_⟩
        rw [← hsplit]
        exact h (x :: ys) ((List.prefix_cons_inj x).mpr hys)
      · rintro ⟨hx, hxs⟩ ys hys
        cases ys with
        | nil =>
            rw [List.append_nil]
            exact hs
        | cons y ys =>
            obtain ⟨rfl, htail⟩ := List.cons_prefix_cons.mp hys
            rw [hsplit]
            exact (ih _ hP.2 (hone.mpr hx)).mpr hxs ys htail

/-- Where a step keeps the invariant exactly under a condition, every point of a run keeps it
exactly when every step meets the condition. -/
theorem prefix_invariant_iff {step : σ → α → σ} {P Q : σ → α → Prop} (Inv : σ → Prop)
    {xs : List α} {s : σ} (hP : Along step P s xs) (hs : Inv s)
    (hstep : ∀ t x, P t x → Inv t → (Inv (step t x) ↔ Q t x)) :
    (∀ ys, ys <+: xs → Inv (run step s ys)) ↔ Along step Q s xs :=
  prefix_history_iff (fun t _ => Inv t) [] hP hs fun t _ x hx ht => hstep t x hx ht

/-- A property of the inputs so far that the invariant gives, and that the next input keeps
exactly under a condition which also keeps the invariant, holds at every point of a run exactly
when every step meets the condition. -/
theorem prefix_property_iff {step : σ → α → σ} {Q : σ → α → Prop} {S : List α → Prop}
    (Inv : σ → List α → Prop) (past : List α) {xs : List α} {s : σ} (hs : Inv s past)
    (hholds : ∀ t past, Inv t past → S past)
    (hiff : ∀ t past x, Inv t past → (S (past ++ [x]) ↔ Q t x))
    (hkeep : ∀ t past x, Inv t past → Q t x → Inv (step t x) (past ++ [x])) :
    (∀ ys, ys <+: xs → S (past ++ ys)) ↔ Along step Q s xs := by
  induction xs generalizing s past with
  | nil =>
      constructor
      · intro _
        exact trivial
      · intro _ ys hys
        rw [List.prefix_nil.mp hys, List.append_nil]
        exact hholds s past hs
  | cons x xs ih =>
      have hsplit (ys : List α) : past ++ x :: ys = past ++ [x] ++ ys := by
        rw [List.append_assoc, List.singleton_append]
      constructor
      · intro h
        have hx : Q s x := (hiff s past x hs).mp (h [x] (List.prefix_append [x] xs))
        refine ⟨hx, (ih _ (hkeep s past x hs hx)).mp fun ys hys => ?_⟩
        rw [← hsplit]
        exact h (x :: ys) ((List.prefix_cons_inj x).mpr hys)
      · rintro ⟨hx, hxs⟩ ys hys
        cases ys with
        | nil =>
            rw [List.append_nil]
            exact hholds s past hs
        | cons y ys =>
            obtain ⟨rfl, htail⟩ := List.cons_prefix_cons.mp hys
            rw [hsplit]
            exact (ih _ (hkeep s past y hs hx)).mpr hxs ys htail

/-- The invariant rule for steps that are constrained by the state they start from, with an
invariant that also reads everything observed so far. -/
theorem along_invariant {step : σ → α → σ} {P : σ → α → Prop} (out : σ → α → List β)
    (Inv : σ → List β → Prop) {xs : List α} {s : σ} {log : List β}
    (hs : Inv s log) (hP : Along step P s xs)
    (hstep : ∀ t log x, P t x → Inv t log → Inv (step t x) (log ++ out t x)) :
    Inv (run step s xs) (log ++ observe step out s xs) := by
  induction xs generalizing s log with
  | nil => simpa only [run_nil, observe_nil, List.append_nil] using hs
  | cons x xs ih =>
      have hnext := ih (hstep s log x hP.1 hs) hP.2
      simpa only [run_cons, observe_cons, List.append_assoc] using hnext

theorem observe_map {γ : Type*} (step : σ → α → σ) (out : σ → α → List β) (f : β → γ) (s : σ)
    (xs : List α) :
    observe step (fun s x => (out s x).map f) s xs = (observe step out s xs).map f := by
  induction xs generalizing s with
  | nil => rfl
  | cons x xs ih => simp only [observe_cons, List.map_append, ih]

/-- Only what is emitted at the inputs of the run matters. -/
theorem observe_congr {step : σ → α → σ} {out out' : σ → α → List β} {xs : List α}
    (h : ∀ s x, x ∈ xs → out s x = out' s x) (s : σ) :
    observe step out s xs = observe step out' s xs := by
  induction xs generalizing s with
  | nil => rfl
  | cons x xs ih =>
      rw [observe_cons, observe_cons, h s x (List.mem_cons_self ..),
        ih fun t y hy => h t y (List.mem_cons_of_mem x hy)]

/-- Inputs that neither show nor change what the others depend on can be left out. -/
theorem observe_filter {step : σ → α → σ} {out : σ → α → List β} (rel : σ → σ → Prop)
    (keep : α → Bool)
    (hkept : ∀ s t x, keep x = true → rel s t → rel (step s x) (step t x))
    (hleft : ∀ s t x, keep x = false → rel s t → rel (step s x) t)
    (hout : ∀ s t x, keep x = true → rel s t → out s x = out t x)
    (hsilent : ∀ s x, keep x = false → out s x = []) {s t : σ} (h : rel s t) (xs : List α) :
    observe step out s xs = observe step out t (xs.filter keep) := by
  induction xs generalizing s t with
  | nil => rfl
  | cons x xs ih =>
      cases hx : keep x with
      | true =>
          rw [List.filter_cons_of_pos hx, observe_cons, observe_cons, hout s t x hx h,
            ih (hkept s t x hx h)]
      | false =>
          rw [List.filter_cons_of_neg (by rw [hx]; exact Bool.false_ne_true), observe_cons,
            hsilent s x hx, List.nil_append, ih (hleft s t x hx h)]

section Projection

variable {τ δ : Type*} {step : σ → α → σ} {part : τ → δ → τ} {select : α → Option δ}

/-- A component that moves by its own inputs alone observes the same alone as in the
whole. -/
theorem observe_part (view : σ → τ) (out : τ → δ → List β)
    (hmoves : ∀ s x y, select x = some y → view (step s x) = part (view s) y)
    (hrests : ∀ s x, select x = none → view (step s x) = view s) (s : σ) (xs : List α) :
    observe step (fun s x => ((select x).map (out (view s))).getD []) s xs =
      observe part out (view s) (xs.filterMap select) := by
  induction xs generalizing s with
  | nil => rfl
  | cons x xs ih =>
      cases hx : select x with
      | none =>
          rw [List.filterMap_cons_none hx, observe_cons, ih, hrests s x hx, hx]
          rfl
      | some y =>
          rw [List.filterMap_cons_some hx, observe_cons, observe_cons, ih, hmoves s x y hx, hx]
          rfl

end Projection

end GroupProtocol.Machine
