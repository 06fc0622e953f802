import GroupProtocol.SFrame.Decryptor
import GroupProtocol.SFrame.KeyIds

/-!
# The frames of an epoch

Any number of devices derive the session of one epoch and encrypt frames for the leaves they own,
through any number of handles. Every frame carries the key id of its leaf, a receiver of the epoch
can open it, and its key id and counter name it among the frames of all devices.
-/

namespace GroupProtocol

open SFrameHeader

/-- A frame as its sender made it: the leaf, key id and counter, the media and what goes out. -/
structure SpokenFrame where
  leaf : UInt32
  header : FrameHeader
  media : Bytes
  sealedFrame : SealedFrame
  deriving DecidableEq, Repr

/-- What the receiver reports of a frame. -/
def SpokenFrame.said (f : SpokenFrame) : Bytes × UInt32 := (f.media, f.leaf)

/-- The crate reads back the headers it writes and opens with the receiver key what it has encrypted
with the sender key. -/
structure SFrameCodec (K D : Type) [EncryptionKey K] [DecryptionKey D] [EncryptedFrameView] :
    Prop where
  header : ∀ (key : K) frame out, EncryptionKey.encrypt key frame = .ok out →
    EncryptedFrameView.tryWithMetaData (out.drop frame.metaData.length) frame.metaData =
      .ok ⟨EncryptionKey.keyId key, frame.counter⟩
  opens : ∀ suite kid base frame out,
    EncryptionKey.encrypt (EncryptionKey.deriveFrom suite kid base : K) frame = .ok out →
      DecryptionKey.decrypt (DecryptionKey.deriveFrom suite kid base : D)
        (out.drop frame.metaData.length) frame.metaData = .ok frame.payload

theorem MlsKeyId.Packs.unpacks [MlsKeyId] (h : MlsKeyId.Packs) : MlsKeyId.Unpacks := by
  intro epoch index hindex
  apply UInt64.toNat_inj.mp
  rw [(h epoch index).2]
  exact Nat.mod_eq_of_lt (UInt64.lt_iff_toNat_lt.mp hindex)

namespace SessionHandles

/-! Speaking. -/

section Senders

variable {K C : Type} [MonotonicCounter C] [EncryptionKey K]

/-- The frame that a successful encrypt call makes. -/
def spoken (w : SessionHandles K C) : SessionCall → List SpokenFrame
  | .encrypt i plaintext extraAad =>
    match w.handles[i]? with
    | some h =>
      match (h.2.encrypt w.cells plaintext extraAad).1, h.2.nonce w.cells plaintext extraAad with
      | some (.ok payload), some nonce =>
        [⟨h.1, ⟨nonce.1, nonce.2⟩, plaintext, ⟨payload, extraAad⟩⟩]
      | _, _ => []
    | none => []
  | _ => []

/-- An encrypt call that succeeds encrypts with the key of its cell, under the counter it reports. -/
theorem encrypt_ok {e : SFrameEncryptor} {cells : Cells K C} {plaintext extraAad payload : Bytes}
    (h : (e.encrypt cells plaintext extraAad).1 = some (.ok payload)) :
    ∃ m ctr out, cells[e.state]? = some m ∧
      EncryptionKey.encrypt m.value.key ⟨ctr, plaintext, extraAad⟩ = .ok out ∧
      payload = out.drop extraAad.length ∧
      e.nonce cells plaintext extraAad = some (EncryptionKey.keyId m.value.key, ctr) := by
  rw [SFrameEncryptor.encrypt] at h
  cases hm : cells[e.state]? with
  | none =>
      rw [hm] at h
      cases h
  | some m =>
      rw [hm] at h
      have hcall : (EncryptorState.encrypt e.kid m plaintext extraAad).1 = some (.ok payload) := h
      simp only [EncryptorState.encrypt] at h
      split at h
      · cases h
      split at h
      · cases h
      split at h
      · cases h
      · rename_i frame counter hframe
        obtain ⟨r, hr, hmk⟩ := Option.map_eq_some_iff.mp hframe
        obtain ⟨rfl, -⟩ := Prod.mk.inj hmk
        split at h
        · cases h
        · rename_i out hout
          split at h
          · have hpayload : out.drop extraAad.length = payload :=
              Except.ok.inj (Option.some.inj h)
            refine ⟨m, r.1, out, rfl, hout, hpayload.symm, ?_⟩
            rw [SFrameEncryptor.nonce, hm]
            dsimp only
            rw [hcall, hframe]
          · cases h

/-- An encrypt call that does not succeed reports no nonce. -/
theorem nonce_of_not_ok {e : SFrameEncryptor} {cells : Cells K C} {plaintext extraAad : Bytes}
    (h : ∀ payload, (e.encrypt cells plaintext extraAad).1 ≠ some (.ok payload)) :
    e.nonce cells plaintext extraAad = none := by
  rw [SFrameEncryptor.nonce]
  cases hm : cells[e.state]? with
  | none => rfl
  | some m =>
      rw [SFrameEncryptor.encrypt, hm] at h
      dsimp only at h ⊢
      split
      · rename_i payload frame counter hok hframe
        exact absurd hok (h payload)
      · rfl

/-- A frame that is made has the key id and counter of its nonce. -/
theorem spoken_nonces (w : SessionHandles K C) (x : SessionCall) :
    ((w.spoken x).map fun f => (f.header.keyId, f.header.counter)) = w.nonces x := by
  cases x with
  | encrypt i plaintext extraAad =>
      rw [spoken, nonces]
      cases w.handles[i]? with
      | none => rfl
      | some h =>
          dsimp only
          split
          · rename_i payload nonce hok hnonce
            rw [hnonce]
            rfl
          · rename_i hnot
            rw [nonce_of_not_ok]
            · rfl
            · intro payload hok
              obtain ⟨m, ctr, out, -, -, -, hnonce⟩ := encrypt_ok hok
              exact hnot payload _ hok hnonce
  | encryptor leaf => rfl
  | clone i => rfl
  | drop i => rfl

theorem encrypt_key (kid : KeyId) (m : Mutex (EncryptorState K C)) (plaintext extraAad : Bytes) :
    (EncryptorState.encrypt kid m plaintext extraAad).2.value.key = m.value.key := by
  simp only [EncryptorState.encrypt]
  split
  · rfl
  split
  · rfl
  split
  · rfl
  split
  · rfl
  split <;> rfl

/-- A call keeps the key of every cell. -/
theorem encrypt_keys {e : SFrameEncryptor} {cells : Cells K C} (plaintext extraAad : Bytes) {i : ℕ}
    {m : Mutex (EncryptorState K C)} (hi : cells[i]? = some m) :
    ∃ m', (e.encrypt cells plaintext extraAad).2[i]? = some m' ∧ m'.value.key = m.value.key := by
  rw [SFrameEncryptor.encrypt]
  cases hm : cells[e.state]? with
  | none => exact ⟨m, hi, rfl⟩
  | some m₀ =>
      dsimp only
      by_cases hcell : e.state = i
      · obtain rfl : m₀ = m := Option.some.inj (hm.symm.trans (hcell ▸ hi))
        have hlen : i < cells.length := (List.getElem?_eq_some_iff.mp hi).1
        rw [hcell, List.getElem?_set_self hlen]
        exact ⟨_, rfl, encrypt_key ..⟩
      · rw [List.getElem?_set_ne hcell]
        exact ⟨m, hi, rfl⟩

variable [MlsKeyId]

/-- A session of the epoch: every encryptor has the key of its leaf, and the leaf was asked for. -/
structure Derived (baseKey : BaseKey) (epoch : UInt64) (suite : CipherSuite)
    (asked : UInt32 → Prop) (w : SessionHandles K C) : Prop where
  sameKey : w.session.baseKey = baseKey
  sameEpoch : w.session.epoch = epoch
  sameSuite : w.session.suite = suite
  entries : ∀ leaf e, w.session.encryptors.lookup leaf = some e → asked leaf ∧
    ∃ m, w.cells[e.state]? = some m ∧
      m.value.key = EncryptionKey.deriveFrom suite (kidFrom epoch leaf) baseKey
  handles : ∀ p ∈ w.handles, w.session.encryptors.lookup p.1 = some p.2

omit [MonotonicCounter C] in
theorem derived_start (baseKey : BaseKey) (epoch : UInt64) (suite : CipherSuite)
    (asked : UInt32 → Prop) :
    Derived baseKey epoch suite asked (start baseKey epoch suite : SessionHandles K C) where
  sameKey := rfl
  sameEpoch := rfl
  sameSuite := rfl
  entries leaf e h := by
    cases (AList.lookup_empty leaf).symm.trans h
  handles _ h := absurd h List.not_mem_nil

/-- Every call keeps the session derived. -/
theorem Derived.step {baseKey : BaseKey} {epoch : UInt64} {suite : CipherSuite}
    {asked : UInt32 → Prop} {w : SessionHandles K C} (h : Derived baseKey epoch suite asked w)
    {x : SessionCall} (hx : ∀ leaf, x = .encryptor leaf → asked leaf) :
    Derived baseKey epoch suite asked (w.step x) := by
  cases x with
  | encryptor leaf =>
      rcases encryptor_cases w.session w.cells leaf with ⟨e, hfound, heq⟩ | ⟨hfree, heq⟩
      · rw [SessionHandles.step, heq]
        refine ⟨h.sameKey, h.sameEpoch, h.sameSuite, h.entries, fun p hp => ?_⟩
        rcases List.mem_append.mp hp with hp | hp
        · exact h.handles p hp
        · obtain rfl := List.mem_singleton.mp hp
          exact hfound
      · rw [SessionHandles.step, heq]
        refine ⟨h.sameKey, h.sameEpoch, h.sameSuite, ?_, fun p hp => ?_⟩
        · intro leaf' e he
          rw [Counters.lookup_insert_ite] at he
          split at he
          · rename_i hleaf
            obtain rfl := Option.some.inj he
            rw [hleaf, h.sameKey, h.sameEpoch, h.sameSuite]
            exact ⟨hx leaf rfl, _, List.getElem?_concat_length, rfl⟩
          · obtain ⟨hasked, m, hm, hkey⟩ := h.entries leaf' e he
            have hlen := (List.getElem?_eq_some_iff.mp hm).1
            exact ⟨hasked, m, (List.getElem?_append_left hlen).trans hm, hkey⟩
        · rw [Counters.lookup_insert_ite]
          rcases List.mem_append.mp hp with hp | hp
          · have hold := h.handles p hp
            rw [if_neg, hold]
            rintro rfl
            cases hfree.symm.trans hold
          · obtain rfl := List.mem_singleton.mp hp
            exact if_pos rfl
  | clone i =>
      refine ⟨h.sameKey, h.sameEpoch, h.sameSuite, h.entries, fun p hp => ?_⟩
      rcases List.mem_append.mp hp with hp | hp
      · exact h.handles p hp
      · exact h.handles p (List.mem_of_getElem? (Option.mem_toList.mp hp))
  | drop i =>
      exact ⟨h.sameKey, h.sameEpoch, h.sameSuite, h.entries, fun p hp =>
        h.handles p (List.mem_of_mem_eraseIdx hp)⟩
  | encrypt i plaintext extraAad =>
      rw [SessionHandles.step]
      cases w.handles[i]? with
      | none => exact h
      | some p =>
          refine ⟨h.sameKey, h.sameEpoch, h.sameSuite, fun leaf e he => ?_, h.handles⟩
          obtain ⟨hasked, m, hm, hkey⟩ := h.entries leaf e he
          obtain ⟨m', hm', hkey'⟩ := encrypt_keys (e := p.2) plaintext extraAad hm
          exact ⟨hasked, m', hm', hkey'.trans hkey⟩

/-- A frame as a receiver of the epoch can open it. -/
structure Authentic (D : Type) [DecryptionKey D] [EncryptedFrameView] (baseKey : BaseKey)
    (epoch : UInt64) (suite : CipherSuite) (f : SpokenFrame) : Prop where
  keyId : f.header.keyId = kidFrom epoch f.leaf
  header : EncryptedFrameView.tryWithMetaData f.sealedFrame.payload f.sealedFrame.extraAad =
    .ok f.header
  opens : DecryptionKey.decrypt (DecryptionKey.deriveFrom suite f.header.keyId baseKey : D)
    f.sealedFrame.payload f.sealedFrame.extraAad = .ok f.media

/-- The frames a derived session makes are authentic, for leaves that were asked for. -/
theorem Derived.spoken {D : Type} [DecryptionKey D] [EncryptedFrameView]
    (hK : EncryptionKey.Serialises K) (hcodec : SFrameCodec K D) {baseKey : BaseKey}
    {epoch : UInt64} {suite : CipherSuite} {asked : UInt32 → Prop} {w : SessionHandles K C}
    (h : Derived baseKey epoch suite asked w) {x : SessionCall} {f : SpokenFrame}
    (hf : f ∈ w.spoken x) : asked f.leaf ∧ Authentic D baseKey epoch suite f := by
  cases x with
  | encrypt i plaintext extraAad =>
      rw [SessionHandles.spoken] at hf
      cases hi : w.handles[i]? with
      | none =>
          rw [hi] at hf
          cases hf
      | some p =>
          rw [hi] at hf
          dsimp only at hf
          split at hf
          · rename_i payload nonce hok hnonce
            obtain rfl := List.mem_singleton.mp hf
            obtain ⟨hasked, m, hm, hkey⟩ := h.entries p.1 p.2
              (h.handles p (List.mem_of_getElem? hi))
            obtain ⟨m', ctr, out, hm', hout, rfl, hnonce'⟩ := encrypt_ok hok
            obtain rfl : m' = m := Option.some.inj (hm'.symm.trans hm)
            obtain rfl := Option.some.inj (hnonce.symm.trans hnonce')
            have hkid : EncryptionKey.keyId m'.value.key = kidFrom epoch p.1 := by
              rw [hkey, hK.keyId_deriveFrom]
            refine ⟨hasked, hkid, hcodec.header _ _ _ hout, ?_⟩
            dsimp only
            rw [hkid]
            rw [hkey] at hout
            exact hcodec.opens _ _ _ _ _ hout
          · cases hf
  | encryptor leaf => cases hf
  | clone i => cases hf
  | drop i => cases hf

theorem Derived.observed {D : Type} [DecryptionKey D] [EncryptedFrameView]
    (hK : EncryptionKey.Serialises K) (hcodec : SFrameCodec K D) {baseKey : BaseKey}
    {epoch : UInt64} {suite : CipherSuite} {asked : UInt32 → Prop} {w : SessionHandles K C}
    (h : Derived baseKey epoch suite asked w) {xs : List SessionCall}
    (hxs : ∀ leaf, .encryptor leaf ∈ xs → asked leaf) :
    ∀ f ∈ Machine.observe SessionHandles.step SessionHandles.spoken w xs,
      asked f.leaf ∧ Authentic D baseKey epoch suite f := by
  induction xs generalizing w with
  | nil => exact fun f hf => absurd hf List.not_mem_nil
  | cons x xs ih =>
      intro f hf
      rcases List.mem_append.mp hf with hf | hf
      · exact h.spoken hK hcodec hf
      · refine ih (h.step fun leaf hx => ?_) (fun leaf hmem => ?_) f hf
        · exact hxs leaf (hx ▸ List.mem_cons_self ..)
        · exact hxs leaf (List.mem_cons_of_mem x hmem)

/-- Every frame of an epoch that one of its devices makes. -/
def Spoken {ι : Type} (K C : Type) [MonotonicCounter C] [EncryptionKey K]
    (baseKey : BaseKey) (epoch : UInt64) (suite : CipherSuite) (calls : ι → List SessionCall)
    (f : SpokenFrame) : Prop :=
  ∃ i, f ∈ Machine.observe step SessionHandles.spoken
    (start baseKey epoch suite : SessionHandles K C) (calls i)

/-- The devices of an epoch: each leaf fits its field and is asked for on one device only. -/
structure Owned {ι : Type} (calls : ι → List SessionCall) : Prop where
  range : ∀ i leaf, .encryptor leaf ∈ calls i → leaf < 65536
  alone : ∀ i j leaf, .encryptor leaf ∈ calls i → .encryptor leaf ∈ calls j → i = j

/-- The header of a frame names the frame. -/
theorem Spoken.header_inj {ι D : Type} [DecryptionKey D] [EncryptedFrameView]
    (hpacks : MlsKeyId.Packs) (hC : MonotonicCounter.Successive C)
    (hK : EncryptionKey.Serialises K) (hcodec : SFrameCodec K D) {baseKey : BaseKey}
    {epoch : UInt64} {suite : CipherSuite} {calls : ι → List SessionCall} (howned : Owned calls)
    {f g : SpokenFrame} (hf : Spoken K C baseKey epoch suite calls f)
    (hg : Spoken K C baseKey epoch suite calls g) (h : f.header = g.header) : f = g := by
  obtain ⟨i, hf⟩ := hf
  obtain ⟨j, hg⟩ := hg
  have hfacts := fun k => (derived_start (K := K) (C := C) baseKey epoch suite
    (fun leaf => SessionCall.encryptor leaf ∈ calls k)).observed hK hcodec fun leaf hmem => hmem
  obtain ⟨haskedf, hauthf⟩ := hfacts i f hf
  obtain ⟨haskedg, hauthg⟩ := hfacts j g hg
  have hleaf : f.leaf = g.leaf := by
    refine kidFrom_inj hpacks.unpacks epoch (howned.range i _ haskedf) (howned.range j _ haskedg) ?_
    rw [← hauthf.keyId, ← hauthg.keyId, h]
  obtain rfl : i = j := howned.alone i j f.leaf haskedf (hleaf ▸ haskedg)
  -- within one device no nonce comes twice
  have hin : ∀ x ∈ calls i, InRange x := by
    intro x hx
    cases x with
    | encryptor leaf => exact howned.range i leaf hx
    | clone i => exact trivial
    | drop i => exact trivial
    | encrypt i plaintext extraAad => exact trivial
  have hnodup := (run_spent hpacks.unpacks hC hK (wired_start (K := K) (C := C) baseKey epoch suite)
    Dispenser.Spent.nil hin).2.fresh
  rw [List.nil_append, ← Machine.observe_congr (fun w x _ => spoken_nonces w x),
    Machine.observe_map] at hnodup
  exact List.inj_on_of_nodup_map hnodup hf hg (by rw [h])

end Senders

end SessionHandles

end GroupProtocol
