import GroupProtocol.Lib.Machine
import Mathlib.Logic.Function.Basic
import Mathlib.Order.WellFounded

/-!
# Election by claims

Members claim a role and tell each other. Whoever holds the role and hears the claim of a
lower member for the first time gives it up. Nothing is remembered about claims heard
before one's own, so the outcome depends on what each member had heard when it claimed.
-/

namespace GroupProtocol.Election

variable {ι : Type*}

/-- Who holds the role, who claimed it, and whose claim each member has heard. -/
structure Ballot (ι : Type*) where
  holds : ι → Bool
  claimed : ι → Bool
  heard : ι → ι → Bool

/-- A member claims, or the claim of one member reaches another. -/
inductive Turn (ι : Type*)
  | claim (i : ι)
  | deliver (source target : ι)

section Turns

variable [DecidableEq ι] (rank : ι → ℕ)

/-- The ballot after a turn. -/
def turn (b : Ballot ι) : Turn ι → Ballot ι
  | .claim i =>
    { b with
      holds := Function.update b.holds i true
      claimed := Function.update b.claimed i true }
  | .deliver j i =>
    if b.heard i j then b
    else
      { b with
        holds := Function.update b.holds i (b.holds i && !decide (rank j < rank i))
        heard := Function.update b.heard i (Function.update (b.heard i) j true) }

/-- Nobody claims twice, and only claims that were made are delivered, to others. -/
def Legal (b : Ballot ι) : Turn ι → Prop
  | .claim i => b.claimed i = false
  | .deliver j i => b.claimed j = true ∧ j ≠ i

/-- The member is the lowest of those who claimed. -/
def IsLowest (b : Ballot ι) (i : ι) : Prop :=
  b.claimed i = true ∧ ∀ j, b.claimed j = true → rank i ≤ rank j

/-- Exactly one claimant holds the role, the lowest. -/
def Converged (b : Ballot ι) : Prop :=
  ∃ low, IsLowest rank b low ∧ ∀ i, b.claimed i = true → (b.holds i = true ↔ i = low)

/-- Some lower claimant of the whole election has not been heard yet when a member claims that
is not the lowest. -/
def ClaimsInTime (final b : Ballot ι) : Turn ι → Prop
  | .claim i => IsLowest rank final i ∨
      ∃ j, final.claimed j = true ∧ rank j < rank i ∧ b.heard i j = false
  | .deliver _ _ => True

variable {rank}

theorem turn_claimed {b : Ballot ι} {t : Turn ι} {i : ι} :
    (turn rank b t).claimed i = true ↔ b.claimed i = true ∨ t = .claim i := by
  cases t with
  | claim k =>
      by_cases h : i = k
      · subst h
        simp [turn]
      · simp [turn, Function.update_of_ne h, Ne.symm h]
  | deliver j k =>
      have hsame : (turn rank b (.deliver j k)).claimed = b.claimed := by
        rw [turn]
        split <;> rfl
      simp [hsame]

/-- Those who claimed are those with a claim in the run. -/
theorem run_claimed {b : Ballot ι} {ts : List (Turn ι)} {i : ι} :
    (Machine.run (turn rank) b ts).claimed i = true ↔
      b.claimed i = true ∨ Turn.claim i ∈ ts := by
  induction ts generalizing b with
  | nil => simp
  | cons t ts ih =>
      rw [Machine.run_cons, ih, turn_claimed, List.mem_cons, or_assoc, eq_comm (a := t)]

theorem turn_heard {b : Ballot ι} {t : Turn ι} {i j : ι} :
    (turn rank b t).heard i j = true ↔ b.heard i j = true ∨ t = .deliver j i := by
  cases t with
  | claim k => simp [turn]
  | deliver l k =>
      rw [turn]
      by_cases hh : b.heard k l = true
      · rw [if_pos hh]
        constructor
        · exact Or.inl
        · rintro (h | h)
          · exact h
          · cases h
            exact hh
      · rw [if_neg hh]
        by_cases hk : i = k
        · subst hk
          by_cases hl : j = l
          · subst hl
            simp
          · simp [Function.update_of_ne hl, Ne.symm hl]
        · simp [Function.update_of_ne hk, Ne.symm hk]

/-- What is heard is what was delivered. -/
theorem run_heard {b : Ballot ι} {ts : List (Turn ι)} {i j : ι} :
    (Machine.run (turn rank) b ts).heard i j = true ↔
      b.heard i j = true ∨ Turn.deliver j i ∈ ts := by
  induction ts generalizing b with
  | nil => simp
  | cons t ts ih =>
      rw [Machine.run_cons, ih, turn_heard, List.mem_cons, or_assoc, eq_comm (a := t)]

/-- The first delivery of a claim takes the role from a member that ranks above it. -/
theorem turn_holds_first {b : Ballot ι} {i j : ι} (hh : b.heard i j ≠ true) :
    (turn rank b (.deliver j i)).holds i = true ↔ b.holds i = true ∧ ¬rank j < rank i := by
  rw [turn, if_neg hh]
  simp only [Function.update_self, Bool.and_eq_true, Bool.not_eq_true', decide_eq_false_iff_not]

/-- Any other turn of someone else leaves the role. -/
theorem turn_holds_other {b : Ballot ι} {t : Turn ι} {i : ι} (hclaim : t ≠ .claim i)
    (hheard : ∀ j, t = .deliver j i → b.heard i j = true) :
    (turn rank b t).holds i = b.holds i := by
  cases t with
  | claim k =>
      have hk : i ≠ k := by
        rintro rfl
        exact hclaim rfl
      exact Function.update_of_ne hk ..
  | deliver j k =>
      rw [turn]
      split
      · rfl
      · rename_i hh
        have hk : i ≠ k := by
          rintro rfl
          exact hh (hheard j rfl)
        exact Function.update_of_ne hk ..

/-- A member that claimed with some claims heard holds the role as long as it hears no other
lower one. -/
structure Waiting (rank : ι → ℕ) (i : ι) (before : ι → Bool) (b : Ballot ι) : Prop where
  claimed : b.claimed i = true
  heard : ∀ j, before j = true → b.heard i j = true
  holds : b.holds i = true ↔ ∀ j, rank j < rank i → b.heard i j = true → before j = true

theorem Waiting.turn {i : ι} {before : ι → Bool} {b : Ballot ι} {t : Turn ι}
    (hlegal : Legal b t) (h : Waiting rank i before b) :
    Waiting rank i before (Election.turn rank b t) := by
  have hclaimed : (Election.turn rank b t).claimed i = true := turn_claimed.mpr (Or.inl h.claimed)
  have hheard : ∀ j, before j = true → (Election.turn rank b t).heard i j = true := by
    intro j hj
    exact turn_heard.mpr (Or.inl (h.heard j hj))
  refine ⟨hclaimed, hheard, ?_⟩
  by_cases hfirst : ∃ j, t = .deliver j i ∧ b.heard i j ≠ true
  · obtain ⟨j, rfl, hh⟩ := hfirst
    rw [turn_holds_first hh, h.holds]
    constructor
    · rintro ⟨hall, hnot⟩ l hl hlh
      rcases turn_heard.mp hlh with hlh | heq
      · exact hall l hl hlh
      · cases heq
        exact absurd hl hnot
    · intro hall
      refine ⟨fun l hl hlh => hall l hl (turn_heard.mpr (Or.inl hlh)), fun hlow => ?_⟩
      -- a lower claim heard now for the first time is not among those before
      exact hh (h.heard j (hall j hlow (turn_heard.mpr (Or.inr rfl))))
  · have hknown : ∀ j, t = .deliver j i → b.heard i j = true := by
      intro j ht
      by_contra hh
      exact hfirst ⟨j, ht, hh⟩
    have hother : t ≠ .claim i := by
      rintro rfl
      have hfree : b.claimed i = false := hlegal
      rw [h.claimed] at hfree
      cases hfree
    have hsame (j : ι) : (Election.turn rank b t).heard i j = true ↔ b.heard i j = true := by
      rw [turn_heard]
      exact or_iff_left_of_imp (hknown j)
    rw [turn_holds_other hother hknown, h.holds]
    simp only [hsame]

/-- A run of the election: a fresh ballot, legal turns, and every claim delivered to every
other member. -/
structure Complete (rank : ι → ℕ) (b : Ballot ι) (ts : List (Turn ι)) : Prop where
  unclaimed : ∀ i, b.claimed i = false
  unheard : ∀ i j, b.heard i j = false
  legal : Machine.Along (turn rank) Legal b ts
  delivered : ∀ i j, Turn.claim j ∈ ts → i ≠ j → Turn.deliver j i ∈ ts

namespace Complete

variable {b : Ballot ι} {ts : List (Turn ι)}

theorem claimed_iff (h : Complete rank b ts) (i : ι) :
    (Machine.run (turn rank) b ts).claimed i = true ↔ Turn.claim i ∈ ts := by
  rw [run_claimed, h.unclaimed i]
  simp

/-- In the end every other member has heard exactly the claims that were made. -/
theorem heard_iff (h : Complete rank b ts) {i j : ι} (hne : i ≠ j) :
    (Machine.run (turn rank) b ts).heard i j = true ↔
      (Machine.run (turn rank) b ts).claimed j = true := by
  rw [run_heard, h.unheard i j, h.claimed_iff]
  constructor
  · rintro (hf | hd)
    · cases hf
    · obtain ⟨earlier, later, hsplit⟩ := List.append_of_mem hd
      have hlegal := Machine.along_iff.mp h.legal earlier _ later hsplit
      have hclaim := run_claimed.mp hlegal.1
      rw [h.unclaimed j] at hclaim
      rw [hsplit]
      exact List.mem_append_left _ (hclaim.resolve_left (by decide))
  · intro hc
    exact Or.inr (h.delivered i j hc hne)

/-- A claimant ends with the role exactly when it had heard every lower claimant before its
own claim. -/
theorem holds_iff (h : Complete rank b ts) {earlier later : List (Turn ι)} {i : ι}
    (hsplit : ts = earlier ++ .claim i :: later) :
    (Machine.run (turn rank) b ts).holds i = true ↔
      ∀ j, rank j < rank i → (Machine.run (turn rank) b ts).claimed j = true →
        (Machine.run (turn rank) b earlier).heard i j = true := by
  have hlegal := h.legal
  rw [hsplit] at hlegal
  obtain ⟨-, -, hlater⟩ := Machine.along_append.mp hlegal
  have hstart : Waiting rank i ((Machine.run (turn rank) b earlier).heard i)
      (turn rank (Machine.run (turn rank) b earlier) (.claim i)) := by
    refine ⟨Function.update_self .., fun _ hj => hj, ?_⟩
    constructor
    · intro _ j _ hj
      exact hj
    · intro _
      exact Function.update_self ..
  have hend := hlater.invariant hstart fun _ _ hl hw => hw.turn hl
  rw [← Machine.run_cons, ← Machine.run_append, ← hsplit] at hend
  rw [hend.holds]
  constructor
  · intro hall j hlow hc
    apply hall j hlow
    exact (h.heard_iff (fun hij => by rw [hij] at hlow; exact lt_irrefl _ hlow)).mpr hc
  · intro hall j hlow hh
    apply hall j hlow
    exact (h.heard_iff (fun hij => by rw [hij] at hlow; exact lt_irrefl _ hlow)).mp hh

/-- The election converges exactly when every claimant but the lowest claims before it has
heard all lower claimants. -/
theorem converged_iff (h : Complete rank b ts) (hrank : Function.Injective rank)
    (hsome : ∃ i, Turn.claim i ∈ ts) :
    Converged rank (Machine.run (turn rank) b ts) ↔
      Machine.Along (turn rank) (ClaimsInTime rank (Machine.run (turn rank) b ts)) b ts := by
  constructor
  · rintro ⟨low, hlow, hone⟩
    apply Machine.along_iff.mpr
    intro earlier t later hsplit
    cases t with
    | deliver j i => exact trivial
    | claim i =>
        have hi : (Machine.run (turn rank) b ts).claimed i = true := by
          rw [h.claimed_iff, hsplit]
          exact List.mem_append_right _ (List.mem_cons_self ..)
        by_cases heq : i = low
        · subst heq
          exact Or.inl hlow
        · right
          have hnot := mt (hone i hi).mp heq
          rw [h.holds_iff hsplit] at hnot
          push Not at hnot
          obtain ⟨j, hj, hc, hh⟩ := hnot
          exact ⟨j, hc, hj, Bool.eq_false_iff.mpr hh⟩
  · intro htime
    obtain ⟨low, hmem, hmin⟩ := WellFounded.has_min (measure rank).wf
      {i | (Machine.run (turn rank) b ts).claimed i = true}
      (hsome.imp fun i hi => (h.claimed_iff i).mpr hi)
    have hlow : IsLowest rank (Machine.run (turn rank) b ts) low :=
      ⟨hmem, fun j hj => not_lt.mp (hmin j hj)⟩
    refine ⟨low, hlow, fun i hi => ?_⟩
    obtain ⟨earlier, later, hsplit⟩ := List.append_of_mem ((h.claimed_iff i).mp hi)
    rw [h.holds_iff hsplit]
    constructor
    · intro hall
      rcases Machine.along_iff.mp htime earlier _ later hsplit with hlowest | ⟨j, hc, hj, hh⟩
      · exact hrank (le_antisymm (hlowest.2 low hmem) (hlow.2 i hi))
      · rw [hall j hj hc] at hh
        cases hh
    · rintro rfl j hj hc
      exact absurd hj (not_lt.mpr (hlow.2 j hc))

end Complete

end Turns

end GroupProtocol.Election
