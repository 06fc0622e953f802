import GroupProtocol.SFrame.Session

/-!
# Key ids of senders

A key id carries the low sixteen bits of the epoch and a field of sixteen bits for the member
index. A session takes every leaf index of thirty-two bits and never checks that it fits, so
a key id names its sender exactly as long as the field is not exceeded.
-/

namespace GroupProtocol

open SFrameHeader

/-- A key id keeps the low bits of the epoch and of the member index, and nothing else of
them comes back. -/
def MlsKeyId.Packs [MlsKeyId] : Prop :=
  ∀ epoch index : UInt64,
    (epochLsb (new 0 epoch index 16 16) 16 16).toNat = epoch.toNat % 2 ^ 16 ∧
      (memberIndex (new 0 epoch index 16 16) 16 16).toNat = index.toNat % 2 ^ 16

/-- The layout of the crate packs the two fields. -/
theorem MlsKeyId.packs : MlsKeyId.Packs := by
  intro epoch index
  simp only [MlsKeyId.new, MlsKeyId.epochLsb, MlsKeyId.memberIndex, UInt64.toNat_ofNat',
    UInt64.toNat_zero, UInt8.reduceToNat]
  omega

namespace SFrameHeader

variable [MlsKeyId]

theorem epochFromKid_kidFrom (hpacks : MlsKeyId.Packs) (epoch : UInt64) (leaf : UInt32) :
    (epochFromKid (kidFrom epoch leaf)).toNat = epoch.toNat % 2 ^ 16 :=
  (hpacks epoch leaf.toUInt64).1

theorem leafFromKid_kidFrom (hpacks : MlsKeyId.Packs) (epoch : UInt64) (leaf : UInt32) :
    (leafFromKid (kidFrom epoch leaf)).toNat = leaf.toNat % 2 ^ 16 := by
  have hindex := (hpacks epoch leaf.toUInt64).2
  rw [UInt32.toNat_toUInt64] at hindex
  rw [leafFromKid, UInt64.toNat_toUInt32]
  exact (congrArg (· % 2 ^ 32) hindex).trans (Nat.mod_eq_of_lt (by omega))

/-- A leaf comes back from its key id when it fits the field. -/
theorem leafFromKid_eq_iff (hpacks : MlsKeyId.Packs) (epoch : UInt64) (leaf : UInt32) :
    leafFromKid (kidFrom epoch leaf) = leaf ↔ leaf < 65536 := by
  rw [← UInt32.toNat_inj, leafFromKid_kidFrom hpacks, UInt32.lt_iff_toNat_lt]
  exact ⟨fun h => h ▸ Nat.mod_lt _ (by decide), Nat.mod_eq_of_lt⟩

end SFrameHeader

namespace SessionHandles

/-- The key ids of two leaves in an epoch identify them: epoch and leaf come back from each,
distinct leaves have distinct ones, and so have all handles that any session of the epoch
gives for them in any run. -/
structure SendersIdentified (K C : Type) [MlsKeyId] [MonotonicCounter C] [EncryptionKey K]
    (epoch : UInt64) (leaf leaf' : UInt32) : Prop where
  leaf_left : leafFromKid (kidFrom epoch leaf) = leaf
  leaf_right : leafFromKid (kidFrom epoch leaf') = leaf'
  epoch_left : (epochFromKid (kidFrom epoch leaf)).toNat = epoch.toNat % 2 ^ 16
  epoch_right : (epochFromKid (kidFrom epoch leaf')).toNat = epoch.toNat % 2 ^ 16
  distinct : leaf ≠ leaf' → kidFrom epoch leaf ≠ kidFrom epoch leaf'
  apart : leaf ≠ leaf' → ∀ (baseKey : BaseKey) (suite : CipherSuite) (xs : List SessionCall),
    let s : SessionHandles K C := start baseKey epoch suite
    ∀ e e', (leaf, e) ∈ Machine.observe step obtained s xs →
      (leaf', e') ∈ Machine.observe step obtained s xs → e.kid ≠ e'.kid

/-- For every epoch and all leaf indices that a session accepts, the key ids identify the
senders exactly when both indices fit the field. -/
theorem sendersIdentified_iff (K C : Type) [MlsKeyId] [MonotonicCounter C] [EncryptionKey K]
    (hpacks : MlsKeyId.Packs) (epoch : UInt64) (leaf leaf' : UInt32) :
    SendersIdentified K C epoch leaf leaf' ↔ leaf < 65536 ∧ leaf' < 65536 := by
  constructor
  · intro h
    exact ⟨(leafFromKid_eq_iff hpacks epoch leaf).mp h.leaf_left,
      (leafFromKid_eq_iff hpacks epoch leaf').mp h.leaf_right⟩
  · rintro ⟨hleaf, hleaf'⟩
    have hback := (leafFromKid_eq_iff hpacks epoch leaf).mpr hleaf
    have hback' := (leafFromKid_eq_iff hpacks epoch leaf').mpr hleaf'
    have hdistinct : leaf ≠ leaf' → kidFrom epoch leaf ≠ kidFrom epoch leaf' := by
      intro hne heq
      rw [← hback, ← hback', heq] at hne
      exact hne rfl
    refine ⟨hback, hback', epochFromKid_kidFrom hpacks epoch leaf,
      epochFromKid_kidFrom hpacks epoch leaf', hdistinct, ?_⟩
    intro hne baseKey suite xs s e e' he he'
    have hstart : Keyed epoch s := keyed_start baseKey epoch suite
    have hkid : e.kid = kidFrom epoch leaf := run_keyed hstart xs (leaf, e) he
    have hkid' : e'.kid = kidFrom epoch leaf' := run_keyed hstart xs (leaf', e') he'
    rw [hkid, hkid']
    exact hdistinct hne

/-- Leaves 1 and 65535 are told apart. -/
theorem sendersIdentified_iff_last : SendersIdentified PlainKey PlainCounter 5 1 65535 :=
  (sendersIdentified_iff PlainKey PlainCounter MlsKeyId.packs 5 1 65535).mpr
    ⟨by decide, by decide⟩

/-- Leaf 65537 gets the key id and the key of leaf 1 and a counter of its own: the first
frames of both carry one key id and counter. -/
theorem leaves_share_key :
    let s : SessionHandles PlainKey PlainCounter := start (Vector.replicate 32 7) 5 .aes128Gcm
    let xs : List SessionCall := [.encryptor 1, .encryptor 65537, .encrypt 0 [1] [],
      .encrypt 1 [2] []]
    let keys := (Machine.run step s xs).cells.map (·.value.key)
    ¬SendersIdentified PlainKey PlainCounter 5 1 65537 ∧
      leafFromKid (kidFrom 5 65537) = 1 ∧ kidFrom 5 1 = kidFrom 5 65537 ∧
      keys.length = 2 ∧ keys[0]? = keys[1]? ∧
      Machine.observe step nonces s xs = [(kidFrom 5 1, 0), (kidFrom 5 1, 0)] := by
  intro s xs keys
  refine ⟨?_, by decide +kernel⟩
  intro h
  exact h.distinct (by decide) (by decide +kernel)

end SessionHandles

end GroupProtocol
