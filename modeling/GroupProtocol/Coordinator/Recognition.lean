import GroupProtocol.Coordinator.Claims
import GroupProtocol.Lib.CborItem

/-!
# Recognising a coordinator claim

A claim is a CBOR map in which the integer zero is mapped to `true`. The recogniser looks for the
two bytes `00 F5` anywhere in the encoding. It finds every claim, whatever the width of its key
and whatever else the map holds; it also finds maps that put the two bytes next to each other in
another way.
-/

namespace GroupProtocol

namespace Cbor

/-- Some entry maps the unsigned integer zero, of any width, to `true`. -/
def Entries.HasClaim {n : ℕ} (entries : Entries n) : Prop :=
  ∃ a : Argument, a.value = 0 ∧ (Item.uint a, Item.yes) ∈ entries.toList

/-- The item is a map that holds a coordinator claim. -/
def Item.HasClaim : Item → Prop
  | .map _ entries _ => entries.HasClaim
  | .openMap entries => entries.HasClaim
  | _ => False

/-- The bytes `00 F5` lie within one head, string or float of the item, or a `true` follows a head,
string or float that ends in a zero byte. -/
def Item.Stray (i : Item) : Prop :=
  (∃ p ∈ i.pieces, [0x00, 0xF5] <:+: p) ∨ ∃ p, [p, [0xF5]] <:+: i.pieces ∧ p.getLast? = some 0x00

/-- A claim puts a zero key directly before a `true`. -/
theorem Entries.HasClaim.pieces {n : ℕ} {entries : Entries n} (h : entries.HasClaim) :
    ∃ p, [p, [0xF5]] <:+: entries.pieces ∧ p.getLast? = some 0x00 := by
  obtain ⟨a, hzero, hmem⟩ := h
  refine ⟨a.width.head 0 a.value, ?_, ?_⟩
  · have hin := entries.infix_pieces hmem
    rw [Item.pieces, Item.yes, Item.pieces] at hin
    exact hin
  · rw [hzero]
    exact a.width.getLast?_head_zero

theorem Item.HasClaim.stray {i : Item} (h : i.HasClaim) : i.Stray := by
  cases i with
  | map w entries fits =>
      obtain ⟨p, hin, hlast⟩ := Entries.HasClaim.pieces h
      refine Or.inr ⟨p, ?_, hlast⟩
      rw [pieces]
      exact hin.trans (List.suffix_cons _ _).isInfix
  | openMap entries =>
      obtain ⟨p, hin, hlast⟩ := Entries.HasClaim.pieces h
      refine Or.inr ⟨p, ?_, hlast⟩
      rw [pieces]
      exact (hin.trans (List.suffix_cons _ _).isInfix).trans (List.prefix_append _ _).isInfix
  | _ => exact h.elim

end Cbor

namespace GroupNode

open Cbor

theorem hasClaimPair_iff (bs : Bytes) : hasClaimPair bs = true ↔ [0x00, 0xF5] <:+: bs := by
  induction bs with
  | nil => simp [hasClaimPair]
  | cons x xs ih =>
      rw [pair_infix_cons_iff]
      cases xs with
      | nil => simp [hasClaimPair]
      | cons y ys => rw [hasClaimPair, Bool.or_eq_true, ih]; simp

/-- The short cut for the minimal claim accepts nothing that the scan would not. -/
theorem isCoordinatorClaim_iff (bs : Bytes) :
    isCoordinatorClaim bs = true ↔ [0x00, 0xF5] <:+: bs := by
  rw [isCoordinatorClaim, Bool.or_eq_true, hasClaimPair_iff, or_iff_right_iff_imp]
  intro h
  rw [beq_iff_eq.mp h]
  exact (List.suffix_cons _ _).isInfix

/-- On a well-formed item the recogniser reports exactly the stray pairs. -/
theorem isCoordinatorClaim_encode_iff (i : Item) :
    isCoordinatorClaim i.encode = true ↔ i.Stray := by
  rw [isCoordinatorClaim_iff, Item.pair_infix_encode_iff]
  rfl

/-- The recogniser is exact on an item: it reports the item exactly when it holds a claim, an
advertisement that is none is without effect, and a claim restarts the silence timer and is
surfaced. -/
structure Recognises (i : Item) : Prop where
  reported : isCoordinatorClaim i.encode = true ↔ i.HasClaim
  ignored : ¬ i.HasClaim → ∀ (n : GroupNode) (c : ControlMessage) (now : Instant),
    c.args = i.encode → n.applyControl .capabilitiesAdvertise c now = n
  heeded : i.HasClaim → ∀ (n : GroupNode) (c : ControlMessage) (now : Instant),
    c.args = i.encode →
      (n.applyControl .capabilitiesAdvertise c now).coordinatorLastSeen = some now ∧
      (n.applyControl .capabilitiesAdvertise c now).events =
        n.events ++ [.coordinatorClaim c.senderId]

/-- The effects follow the report. -/
theorem recognises_iff_reported (i : Item) :
    Recognises i ↔ (isCoordinatorClaim i.encode = true ↔ i.HasClaim) := by
  refine ⟨fun h => h.reported, fun h => ⟨h, ?_, ?_⟩⟩
  · intro hno n c now hargs
    have hfalse : ¬ isCoordinatorClaim c.args = true := by
      rw [hargs, h]
      exact hno
    rw [applyControl, if_neg hfalse]
  · intro hyes n c now hargs
    have htrue : isCoordinatorClaim c.args = true := by
      rw [hargs, h]
      exact hyes
    rw [applyControl_claim n c now htrue]
    exact ⟨rfl, rfl⟩

/-- The recogniser is exact on a well-formed item exactly when the item holds a claim, or nothing
in it puts the bytes `00 F5` next to each other. -/
theorem claim_recogniser_exact_iff (i : Item) : Recognises i ↔ i.HasClaim ∨ ¬ i.Stray := by
  rw [recognises_iff_reported, isCoordinatorClaim_encode_iff]
  constructor
  · intro h
    by_cases hclaim : i.HasClaim
    · exact Or.inl hclaim
    · exact Or.inr fun hstray => hclaim (h.mp hstray)
  · rintro (hclaim | hclean)
    · exact iff_of_true hclaim.stray hclaim
    · exact iff_of_false hclean fun hclaim => hclean hclaim.stray

/-- A claim is never missed. -/
theorem isCoordinatorClaim_of_hasClaim {i : Item} (h : i.HasClaim) :
    isCoordinatorClaim i.encode = true := (isCoordinatorClaim_encode_iff i).mpr h.stray

/-- The map from 256 to `true`. -/
def twoFiftySix : Item :=
  .map .short (.cons (.uint ⟨.two, 256, by decide⟩) .yes .nil) (by decide)

/-- The map from 256 to `true` holds no claim, but is taken for one: a coordinator gives up its role
to a lower member that advertises it. -/
theorem wide_key_taken_for_claim :
    twoFiftySix.encode = [0xA1, 0x19, 0x01, 0x00, 0xF5] ∧ ¬ twoFiftySix.HasClaim ∧
      isCoordinatorClaim twoFiftySix.encode = true ∧
      let n := { new 2 (Vector.replicate 16 0) with isCoordinator := true }
      let c := ControlMessage.withArgs ControlOpcode.capabilitiesAdvertise.asU16 0 1 0
        twoFiftySix.encode
      (n.applyControl .capabilitiesAdvertise c 5).isCoordinator = false ∧
        (n.applyControl .capabilitiesAdvertise c 5).coordinatorLastSeen = some 5 := by
  have hno : ¬ twoFiftySix.HasClaim := by
    rintro ⟨a, hzero, hmem⟩
    have hkey := (Prod.mk.inj (List.mem_singleton.mp hmem)).1
    rw [(Item.uint.inj hkey)] at hzero
    cases hzero
  exact ⟨by decide, hno, by decide, by decide, by decide⟩

end GroupNode

end GroupProtocol
