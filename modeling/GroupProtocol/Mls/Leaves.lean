import GroupProtocol.Mls.Commits
import Mathlib.Data.List.DropRight

/-!
# Leaf indices and the range check of a removal

The leaves of the ratchet tree as they are allocated: an added member takes the leftmost blank
leaf or a new one at the right end, a removal blanks a leaf, and blank leaves at the right end
are cut off. A removal by leaf index is refused when the index is not below the number of
members, so it is the blank leaves that decide whether every member can be removed.
-/

namespace GroupProtocol

/-- The leaf list with a member in its leftmost blank leaf, or in a new leaf. -/
def placeLeaf {α : Type} (a : α) : List (Option α) → List (Option α)
  | [] => [some a]
  | none :: rest => some a :: rest
  | some b :: rest => some b :: placeLeaf a rest

/-- The leaves from left to right: the last one is not blank, and their indices have 32 bits. -/
structure LeafTree (α : Type) where
  leaves : List (Option α)
  trimmed : leaves.getLast? ≠ some none
  bounded : leaves.length < 2 ^ 32

/-- What happens to the leaves of a group. -/
inductive LeafEvent (α : Type)
  | add (member : α)
  | remove (leaf : ℕ)

namespace LeafTree

variable {α : Type}

theorem getLast?_placeLeaf (a : α) {leaves : List (Option α)}
    (h : leaves.getLast? ≠ some none) : (placeLeaf a leaves).getLast? ≠ some none := by
  induction leaves with
  | nil => simp [placeLeaf]
  | cons leaf leaves ih =>
      cases leaves with
      | nil => cases leaf <;> simp [placeLeaf]
      | cons next leaves =>
          rw [List.getLast?_cons_cons] at h
          cases leaf with
          | none =>
              rw [placeLeaf, List.getLast?_cons_cons]
              exact h
          | some b =>
              obtain ⟨first, rest, hplaced⟩ : ∃ first rest,
                  placeLeaf a (next :: leaves) = first :: rest := by
                cases next <;> exact ⟨_, _, rfl⟩
              have hnext := ih h
              rw [placeLeaf, hplaced, List.getLast?_cons_cons, ← hplaced]
              exact hnext

theorem getLast?_rdropWhile (leaves : List (Option α)) :
    (leaves.rdropWhile Option.isNone).getLast? ≠ some none := by
  intro h
  have hne : leaves.rdropWhile Option.isNone ≠ [] := by
    intro hnil
    rw [hnil] at h
    cases h
  have hkept := List.rdropWhile_last_not Option.isNone leaves hne
  rw [List.getLast?_eq_some_getLast hne] at h
  rw [Option.some.inj h] at hkept
  exact hkept rfl

/-- The tree of a group that was just created. -/
def founder (a : α) : LeafTree α where
  leaves := [some a]
  trimmed := by simp
  bounded := by simp

/-- Adds a member; a tree without a free index stays as it is. -/
def add (t : LeafTree α) (a : α) : LeafTree α :=
  if h : (placeLeaf a t.leaves).length < 2 ^ 32 then
    ⟨placeLeaf a t.leaves, getLast?_placeLeaf a t.trimmed, h⟩
  else t

/-- Blanks a leaf and cuts off the blank leaves at the right end. -/
def remove (t : LeafTree α) (leaf : ℕ) : LeafTree α where
  leaves := (t.leaves.set leaf none).rdropWhile Option.isNone
  trimmed := getLast?_rdropWhile _
  bounded := by
    have hle := (List.rdropWhile_prefix Option.isNone (t.leaves.set leaf none)).length_le
    rw [List.length_set] at hle
    exact hle.trans_lt t.bounded

/-- The tree after an event. -/
def step (t : LeafTree α) : LeafEvent α → LeafTree α
  | .add member => t.add member
  | .remove leaf => t.remove leaf

/-- The tree of a group after its history. -/
def after (a : α) (events : List (LeafEvent α)) : LeafTree α :=
  Machine.run step (founder a) events

/-- The number of members: the leaves that are not blank. -/
def memberCount (t : LeafTree α) : ℕ := t.leaves.countP Option.isSome

/-- A current member holds the leaf index. -/
def Holds (t : LeafTree α) (idx : UInt32) : Prop := ∃ a, t.leaves[idx.toNat]? = some (some a)

/-- Some leaf is blank. -/
def HasBlank (t : LeafTree α) : Prop := none ∈ t.leaves

theorem memberCount_le (t : LeafTree α) : t.memberCount ≤ t.leaves.length := List.countP_le_length

/-- Only blank leaves keep the member count below the number of leaves. -/
theorem memberCount_eq_iff (t : LeafTree α) :
    t.memberCount = t.leaves.length ↔ ¬t.HasBlank := by
  rw [memberCount, List.countP_eq_length, HasBlank]
  constructor
  · intro h hblank
    exact absurd (h none hblank) Bool.false_ne_true
  · intro h leaf hleaf
    cases leaf with
    | none => exact absurd hleaf h
    | some a => rfl

/-- The last leaf is a member's. -/
theorem holds_last (t : LeafTree α) (hne : t.leaves ≠ []) :
    t.Holds (UInt32.ofNat (t.leaves.length - 1)) := by
  have hlt : t.leaves.length - 1 < 2 ^ 32 := (Nat.sub_le _ _).trans_lt t.bounded
  rw [Holds, UInt32.toNat_ofNat_of_lt' hlt, ← List.getLast?_eq_getElem?]
  cases hlast : t.leaves.getLast? with
  | none => exact absurd (List.getLast?_eq_none_iff.mp hlast) hne
  | some leaf =>
      cases leaf with
      | none => exact absurd hlast t.trimmed
      | some a => exact ⟨a, rfl⟩

/-- Every index that a member holds lies below the member count exactly when no leaf is blank. -/
theorem held_below_iff (t : LeafTree α) :
    (∀ idx, t.Holds idx → idx.toNat < t.memberCount) ↔ ¬t.HasBlank := by
  rw [← memberCount_eq_iff]
  constructor
  · intro h
    by_cases hne : t.leaves = []
    · rw [memberCount, hne]
      rfl
    · have hlt : t.leaves.length - 1 < 2 ^ 32 := (Nat.sub_le _ _).trans_lt t.bounded
      have hlast := h _ (t.holds_last hne)
      rw [UInt32.toNat_ofNat_of_lt' hlt] at hlast
      have hle := t.memberCount_le
      omega
  · rintro h idx ⟨a, ha⟩
    rw [h]
    exact (List.getElem?_eq_some_iff.mp ha).1

end LeafTree

namespace MlsContext

variable {G C M W : Type} [MlsGroup G C M W] [MlsMessage M]

/-- The error for an index beyond the group size. -/
def outOfRange (m : MlsContext G C) (idx : UInt32) : MlsError :=
  let groupSize := (MlsGroup.membersCount m.group).toUInt32
  .openMls s!"leaf_index {idx} out of range (group size {groupSize})"

/-- What `removeMembers` does once its range check has passed. -/
def removeFromGroup (m : MlsContext G C) (leafIndices : List UInt32) :
    Except MlsError Bytes × MlsContext G C :=
  match MlsGroup.removeMembers m.group leafIndices with
  | (.error e, group) => (.error (.openMls s!"remove_members: {e}"), { m with group := group })
  | (.ok commit, group) => (serialize "commit" commit, { m with group := group })

/-- The call reaches the group and is not refused as out of range. -/
def Reaches (m : MlsContext G C) (leafIndices : List UInt32) : Prop :=
  m.removeMembers leafIndices = m.removeFromGroup leafIndices ∧
    ∀ idx, (m.removeMembers leafIndices).1 ≠ .error (m.outOfRange idx)

omit [MlsMessage M] in
/-- A text that starts with another letter is not that of the range error. -/
theorem ne_outOfRange_of_head {text rest : String} {c : Char} {cs : List Char}
    (htext : text.toList = c :: cs) (hc : c ≠ 'l') (m : MlsContext G C) (idx : UInt32) :
    MlsError.openMls (text ++ rest) ≠ m.outOfRange idx := by
  intro h
  have hleaf : "leaf_index ".toList = 'l' :: "eaf_index ".toList := by decide
  have hchars := congrArg String.toList (MlsError.openMls.inj h)
  simp only [toString, String.toList_append, htext, hleaf, List.cons_append,
    List.cons.injEq] at hchars
  exact hc hchars.1

/-- What the group and the serialisation answer is never the range error. -/
theorem removeFromGroup_ne (m : MlsContext G C) (leafIndices : List UInt32) (idx : UInt32) :
    (m.removeFromGroup leafIndices).1 ≠ .error (m.outOfRange idx) := by
  have hremove : "remove_members: ".toList = 'r' :: "emove_members: ".toList := by decide
  have hcommit : "commit serialize: ".toList = 'c' :: "ommit serialize: ".toList := by decide
  rw [removeFromGroup]
  split
  · intro h
    exact ne_outOfRange_of_head hremove (by decide) m idx (Except.error.inj h)
  · rw [serialize]
    split
    · exact fun h => by cases h
    · intro h
      exact ne_outOfRange_of_head hcommit (by decide) m idx (Except.error.inj h)

/-- A call reaches the group exactly when all its indices lie below the group size. -/
theorem reaches_iff (m : MlsContext G C) (leafIndices : List UInt32) :
    m.Reaches leafIndices ↔
      ∀ idx ∈ leafIndices, idx < (MlsGroup.membersCount m.group).toUInt32 := by
  constructor
  · intro h idx hidx
    by_contra hlt
    obtain ⟨bad, hbad⟩ : ∃ bad,
        leafIndices.find? ((MlsGroup.membersCount m.group).toUInt32 ≤ ·) = some bad := by
      refine Option.isSome_iff_exists.mp (List.find?_isSome.mpr ⟨idx, hidx, ?_⟩)
      exact decide_eq_true (UInt32.not_lt.mp hlt)
    refine h.2 bad ?_
    rw [removeMembers]
    simp only [hbad]
    rfl
  · intro h
    have hnone : leafIndices.find? ((MlsGroup.membersCount m.group).toUInt32 ≤ ·) = none := by
      refine List.find?_eq_none.mpr fun idx hidx hle => ?_
      exact UInt32.not_le.mpr (h idx hidx) (of_decide_eq_true hle)
    have hpass : m.removeMembers leafIndices = m.removeFromGroup leafIndices := by
      rw [removeMembers]
      simp only [hnone]
      rfl
    refine ⟨hpass, fun idx => ?_⟩
    rw [hpass]
    exact removeFromGroup_ne m leafIndices idx

/-- After every history of adds and removes, every member can be removed by its leaf index exactly
when the tree has no blank leaf. -/
theorem members_removable_iff {α : Type} (a : α) (events : List (LeafEvent α)) (m : MlsContext G C)
    (hcount : MlsGroup.membersCount m.group = (LeafTree.after a events).memberCount) :
    (∀ leafIndices, (∀ idx ∈ leafIndices, (LeafTree.after a events).Holds idx) →
      m.Reaches leafIndices) ↔ ¬(LeafTree.after a events).HasBlank := by
  have hsmall : (LeafTree.after a events).memberCount < 2 ^ 32 :=
    (LeafTree.memberCount_le _).trans_lt (LeafTree.bounded _)
  have hbelow (idx : UInt32) : idx < (MlsGroup.membersCount m.group).toUInt32 ↔
      idx.toNat < (LeafTree.after a events).memberCount := by
    rw [UInt32.lt_iff_toNat_lt, hcount, Nat.toUInt32, UInt32.toNat_ofNat_of_lt' hsmall]
  simp only [reaches_iff, hbelow]
  rw [← LeafTree.held_below_iff]
  constructor
  · intro h idx hidx
    refine h [idx] ?_ idx (List.mem_singleton_self idx)
    intro other hother
    rwa [List.mem_singleton.mp hother]
  · intro h leafIndices hheld idx hidx
    exact h idx (hheld idx hidx)

/-- A member whose leaf lies behind a blank one cannot be removed: with the leaves 0 and 2 held, the
group has two members and leaf 2 is out of range. -/
theorem member_not_removable :
    let tree := LeafTree.after 10 [.add 11, .add 12, .remove 1]
    let m : MlsContext LoggedGroup LoggedCommit := ⟨⟨none, [5]⟩, none⟩
    tree.leaves = [some 10, none, some 12] ∧ tree.Holds 2 ∧
      MlsGroup.membersCount m.group = tree.memberCount ∧
      (m.removeMembers [2]).1 =
        .error (.openMls "leaf_index 2 out of range (group size 2)") ∧ ¬m.Reaches [2] := by
  intro tree m
  have hleaves : tree.leaves = [some 10, none, some 12] := by decide +kernel
  refine ⟨hleaves, ⟨12, by rw [hleaves]; rfl⟩, ?_, by decide +kernel, fun h => ?_⟩
  · rw [LeafTree.memberCount, hleaves]
    rfl
  · exact absurd ((m.reaches_iff [2]).mp h 2 (List.mem_singleton_self 2)) (by decide +kernel)

/-- A leaf that was blanked and taken again leaves every member removable. -/
theorem members_removable_refilled :
    let tree := LeafTree.after 10 [.add 11, .add 12, .remove 1, .add 13, .remove 2]
    let m : MlsContext LoggedGroup LoggedCommit := ⟨⟨none, [5]⟩, none⟩
    MlsGroup.membersCount m.group = tree.memberCount ∧
      ∀ leafIndices, (∀ idx ∈ leafIndices, tree.Holds idx) → m.Reaches leafIndices := by
  intro tree m
  have hleaves : tree.leaves = [some 10, some 13] := by decide +kernel
  have hcount : MlsGroup.membersCount m.group = tree.memberCount := by
    rw [LeafTree.memberCount, hleaves]
    rfl
  refine ⟨hcount, (members_removable_iff 10 _ m hcount).mpr ?_⟩
  rw [LeafTree.HasBlank, hleaves]
  decide

end MlsContext

end GroupProtocol
