import GroupProtocol.Lib.Counters
import GroupProtocol.Lib.Dispenser
import GroupProtocol.Mls.Context

/-!
# SFrame encryptors

The sender side of the SFrame layer: key ids, the base key of an epoch, the encryptor of one
leaf and the session that keeps one encryptor for each leaf. Key ids, counters and frame
encryption belong to the `sframe` crate and enter as the classes `MlsKeyId`,
`MonotonicCounter` and `EncryptionKey`. Encryptors share their state through reference-counted
cells; a cell is an index into the list of all cells ever allocated.
-/

namespace GroupProtocol

open Dispenser

/-- An SFrame key id. -/
abbrev KeyId := UInt64

/-- A thirty-two byte base key. -/
abbrev BaseKey := Vector UInt8 32

/-- The SFrame ciphersuites. -/
inductive CipherSuite
  | aes128Gcm
  | aes256Gcm
  deriving DecidableEq, Repr

/-- The suite with a numeric discriminant. -/
def CipherSuite.fromU8 : UInt8 → Option CipherSuite
  | 0 => some aes128Gcm
  | 1 => some aes256Gcm
  | _ => none

/-- Errors of the SFrame layer. -/
inductive SFrameError
  | mlsExport (reason : String)
  | encrypt
  | decrypt
  | header (reason : String)
  | replay (kid ctr : UInt64)
  | counterExhausted (kid : KeyId)
  | unknownKid (kid : KeyId)
  deriving DecidableEq, Repr

/-- A number in lower-case hexadecimal with its sign `0x`. -/
def hexText (n : UInt64) : String := "0x" ++ String.ofList (Nat.toDigits 16 n.toNat)

/-- The text of an SFrame error. -/
def SFrameError.display : SFrameError → String
  | mlsExport reason => s!"MLS export failed: {reason}"
  | encrypt => "AEAD encryption failed"
  | decrypt => "AEAD decryption failed"
  | header reason => s!"invalid SFrame header: {reason}"
  | replay kid ctr => s!"replay detected: KID={kid} CTR={ctr}"
  | counterExhausted kid => s!"counter exhausted for KID {hexText kid}: rotate the epoch"
  | unknownKid kid => s!"unknown KID {hexText kid}: epoch or sender not registered"

/-- Key ids packed from a context, the low bits of an epoch and a member index. -/
class MlsKeyId where
  new : UInt64 → UInt64 → UInt64 → UInt8 → UInt8 → KeyId
  epochLsb : KeyId → UInt8 → UInt8 → UInt64
  memberIndex : KeyId → UInt8 → UInt8 → UInt64

/-- A frame counter; `next` gives nothing where the crate panics. -/
class MonotonicCounter (C : Type) where
  default : C
  current : C → UInt64
  isExhausted : C → Bool
  next : C → Option (UInt64 × C)

/-- A frame with the counter value it was built with. -/
structure MediaFrameView where
  counter : UInt64
  payload : Bytes
  metaData : Bytes

/-- A sender key, derived from a suite, a key id and a base key, and what it makes of a frame. -/
class EncryptionKey (K : Type) where
  deriveFrom : CipherSuite → KeyId → BaseKey → K
  keyId : K → KeyId
  encrypt : K → MediaFrameView → Except String Bytes

namespace SFrameHeader

variable [MlsKeyId]

/-- Bits of the epoch in a key id. -/
def epochBits : UInt8 := 16

/-- Bits of the member index in a key id. -/
def indexBits : UInt8 := 16

/-- The context of every key id. -/
def contextId : UInt64 := 0

/-- The key id of a leaf in an epoch. -/
def kidFrom (epoch : UInt64) (leafIndex : UInt32) : KeyId :=
  MlsKeyId.new contextId epoch leafIndex.toUInt64 epochBits indexBits

/-- The low bits of the epoch in a key id. -/
def epochFromKid (kid : KeyId) : UInt64 := MlsKeyId.epochLsb kid epochBits indexBits

/-- The low bits of an epoch, as a key id carries them. -/
def epochLsb (epoch : UInt64) : UInt64 := epochFromKid (kidFrom epoch 0)

/-- The leaf of a key id. -/
def leafFromKid (kid : KeyId) : UInt32 := (MlsKeyId.memberIndex kid epochBits indexBits).toUInt32

end SFrameHeader

/-- A key id gives back every member index that fits its field. -/
def MlsKeyId.Unpacks [MlsKeyId] : Prop :=
  ∀ epoch index : UInt64, index < 65536 →
    memberIndex (new 0 epoch index 16 16) 16 16 = index

/-- Leaves below the field's capacity have distinct key ids. -/
theorem SFrameHeader.kidFrom_inj [MlsKeyId] (h : MlsKeyId.Unpacks) (epoch : UInt64)
    {leaf leaf' : UInt32} (hleaf : leaf < 65536) (hleaf' : leaf' < 65536)
    (heq : kidFrom epoch leaf = kidFrom epoch leaf') : leaf = leaf' := by
  have hwide : ∀ l : UInt32, l < 65536 → l.toUInt64 < 65536 := by
    intro l hl
    rw [UInt64.lt_iff_toNat_lt, UInt32.toNat_toUInt64]
    exact UInt32.lt_iff_toNat_lt.mp hl
  have hindex := congrArg (fun kid => MlsKeyId.memberIndex kid 16 16) heq
  have hsame : leaf.toUInt64 = leaf'.toUInt64 := by
    rw [← h epoch _ (hwide leaf hleaf), ← h epoch _ (hwide leaf' hleaf')]
    exact hindex
  have hnat := congrArg UInt64.toNat hsame
  rw [UInt32.toNat_toUInt64, UInt32.toNat_toUInt64] at hnat
  exact UInt32.toNat_inj.mp hnat

/-- A counter hands out successive values, reports that it is exhausted after the last one and
panics only then. -/
structure MonotonicCounter.Successive (C : Type) [MonotonicCounter C] : Prop where
  panics : ∀ c : C, next c = none → isExhausted c = true
  value : ∀ (c : C) v c', next c = some (v, c') → v = current c
  successor : ∀ (c : C) v c', next c = some (v, c') → isExhausted c' = false →
    (current c').toNat = v.toNat + 1

/-- A key keeps the key id it was derived for, and an encrypted frame starts with its
metadata. -/
structure EncryptionKey.Serialises (K : Type) [EncryptionKey K] : Prop where
  keyId_deriveFrom : ∀ suite kid base, keyId (deriveFrom suite kid base : K) = kid
  metaData_prefix : ∀ (key : K) frame out, encrypt key frame = .ok out → frame.metaData <+: out

/-- The position of a counter: its next value, or past all values when exhausted. -/
def MonotonicCounter.level {C : Type} [MonotonicCounter C] (c : C) : ℕ :=
  if isExhausted c then 2 ^ 64 else (current c).toNat

theorem MonotonicCounter.Successive.level_next {C : Type} [MonotonicCounter C]
    (h : Successive C) {c c' : C} {v : UInt64} (hlive : isExhausted c = false)
    (hnext : next c = some (v, c')) : v.toNat = level c ∧ level c < level c' := by
  have hv : v.toNat = level c := by
    rw [level, hlive, if_neg Bool.false_ne_true, h.value c v c' hnext]
  refine ⟨hv, ?_⟩
  rw [← hv]
  cases hc' : isExhausted c' with
  | true =>
      rw [level, hc', if_pos rfl]
      exact v.toNat_lt
  | false =>
      rw [level, hc', if_neg Bool.false_ne_true, h.successor c v c' hnext hc']
      exact Nat.lt_succ_self _

/-- The base key of an epoch; the result is missing where the copy of a secret of another
length panics. -/
def deriveBaseKey {G S : Type} [OpenMls G S] (mls : MlsContext G S) (label : String)
    (epoch : UInt64) : Option (Except SFrameError BaseKey) :=
  match mls.exportRaw label (beBytes 8 epoch.toNat) 32 with
  | .error e => some (.error (.mlsExport e.display))
  | .ok raw =>
    if h : raw.length = 32 then some (.ok ⟨raw.toArray, by rw [List.size_toArray, h]⟩) else none

/-- The key and counter of one key id. -/
structure EncryptorState (K C : Type) where
  key : K
  counter : C

/-- A lock: what it guards, and whether a holder panicked. -/
structure Mutex (α : Type) where
  value : α
  poisoned : Bool

/-- The cells all encryptors share; a reference is an index. -/
abbrev Cells (K C : Type) := List (Mutex (EncryptorState K C))

/-- A handle to a shared cell and the key id it was created for. -/
structure SFrameEncryptor where
  state : ℕ
  kid : KeyId
  deriving DecidableEq, Repr

section Encryptor

variable {K C : Type} [MonotonicCounter C] [EncryptionKey K]

/-- A frame takes its counter value as it is built. -/
def MediaFrameView.withMetaData (counter : C) (payload metaData : Bytes) :
    Option (MediaFrameView × C) :=
  (MonotonicCounter.next counter).map fun r => (⟨r.1, payload, metaData⟩, r.2)

/-- A fresh cell whose counter starts over. -/
def EncryptorState.fresh (baseKey : BaseKey) (kid : KeyId) (suite : CipherSuite) :
    Mutex (EncryptorState K C) where
  value := ⟨EncryptionKey.deriveFrom suite kid baseKey, MonotonicCounter.default⟩
  poisoned := false

/-- A new encryptor allocates a cell of its own. -/
def SFrameEncryptor.new (cells : Cells K C) (baseKey : BaseKey) (kid : KeyId)
    (suite : CipherSuite) : SFrameEncryptor × Cells K C :=
  (⟨cells.length, kid⟩, cells ++ [EncryptorState.fresh baseKey kid suite])

/-- One call under the lock of a cell; the result is missing where the call panics. -/
def EncryptorState.encrypt (kid : KeyId) (m : Mutex (EncryptorState K C))
    (plaintext extraAad : Bytes) :
    Option (Except SFrameError Bytes) × Mutex (EncryptorState K C) :=
  if m.poisoned then (none, m)
  else if MonotonicCounter.isExhausted m.value.counter then
    (some (.error (.counterExhausted kid)), m)
  else
    match MediaFrameView.withMetaData m.value.counter plaintext extraAad with
    | none => (none, { m with poisoned := true })
    | some (frame, counter) =>
      -- the counter has moved whether or not the encryption succeeds
      let m := { m with value := { m.value with counter := counter } }
      match EncryptionKey.encrypt m.value.key frame with
      | .error _ => (some (.error .encrypt), m)
      | .ok encrypted =>
        if extraAad.length ≤ encrypted.length then
          (some (.ok (encrypted.drop extraAad.length)), m)
        else (none, { m with poisoned := true })

/-- An encrypt call locks the cell of its handle. -/
def SFrameEncryptor.encrypt (e : SFrameEncryptor) (cells : Cells K C)
    (plaintext extraAad : Bytes) : Option (Except SFrameError Bytes) × Cells K C :=
  match cells[e.state]? with
  | none => (none, cells)
  | some m =>
    let r := EncryptorState.encrypt e.kid m plaintext extraAad
    (r.1, cells.set e.state r.2)

/-- The key id and counter of the frame that a successful call returns. -/
def SFrameEncryptor.nonce (e : SFrameEncryptor) (cells : Cells K C) (plaintext extraAad : Bytes) :
    Option (KeyId × UInt64) :=
  match cells[e.state]? with
  | none => none
  | some m =>
    match (EncryptorState.encrypt e.kid m plaintext extraAad).1,
      MediaFrameView.withMetaData m.value.counter plaintext extraAad with
    | some (.ok _), some (frame, _) => some (EncryptionKey.keyId m.value.key, frame.counter)
    | _, _ => none

/-- The key id of a cell. -/
def cellKid (m : Mutex (EncryptorState K C)) : KeyId := EncryptionKey.keyId m.value.key

/-- The position of a cell's counter. -/
def cellLevel (m : Mutex (EncryptorState K C)) : ℕ := MonotonicCounter.level m.value.counter

theorem cellKid_fresh (hK : EncryptionKey.Serialises K) (baseKey : BaseKey) (kid : KeyId)
    (suite : CipherSuite) :
    cellKid (EncryptorState.fresh baseKey kid suite : Mutex (EncryptorState K C)) = kid :=
  hK.keyId_deriveFrom suite kid baseKey

/-- What a call does to its cell: nothing where the lock is poisoned or the counter exhausted;
else the counter moves, and the lock is poisoned exactly where the call panics. -/
theorem EncryptorState.encrypt_cases (hC : MonotonicCounter.Successive C) (kid : KeyId)
    (m : Mutex (EncryptorState K C)) (plaintext extraAad : Bytes) :
    (m.poisoned = true ∧ EncryptorState.encrypt kid m plaintext extraAad = (none, m)) ∨
      (m.poisoned = false ∧ MonotonicCounter.isExhausted m.value.counter = true ∧
        EncryptorState.encrypt kid m plaintext extraAad =
          (some (.error (.counterExhausted kid)), m)) ∨
      ∃ ctr counter result poisoned,
        m.poisoned = false ∧ MonotonicCounter.isExhausted m.value.counter = false ∧
        MonotonicCounter.next m.value.counter = some (ctr, counter) ∧
        EncryptorState.encrypt kid m plaintext extraAad =
          (result, ⟨⟨m.value.key, counter⟩, poisoned⟩) ∧
        (poisoned = true → ∃ out,
          EncryptionKey.encrypt m.value.key ⟨ctr, plaintext, extraAad⟩ = .ok out ∧
            out.length < extraAad.length) ∧
        (result = none → poisoned = true) := by
  cases hp : m.poisoned with
  | true => exact Or.inl ⟨rfl, by rw [EncryptorState.encrypt, hp, if_pos rfl]⟩
  | false =>
      right
      cases hx : MonotonicCounter.isExhausted m.value.counter with
      | true =>
          left
          simp only [EncryptorState.encrypt, hp, hx, Bool.false_eq_true, if_false, if_true,
            and_self]
      | false =>
          right
          cases hn : MonotonicCounter.next m.value.counter with
          | none =>
              rw [hC.panics _ hn] at hx
              cases hx
          | some r =>
              obtain ⟨ctr, counter⟩ := r
              have hframe : MediaFrameView.withMetaData m.value.counter plaintext extraAad =
                  some (⟨ctr, plaintext, extraAad⟩, counter) := by
                rw [MediaFrameView.withMetaData, hn, Option.map_some]
              have hstep : EncryptorState.encrypt kid m plaintext extraAad =
                  match EncryptionKey.encrypt m.value.key ⟨ctr, plaintext, extraAad⟩ with
                  | .error _ => (some (.error .encrypt), ⟨⟨m.value.key, counter⟩, false⟩)
                  | .ok out =>
                    if extraAad.length ≤ out.length then
                      (some (.ok (out.drop extraAad.length)), ⟨⟨m.value.key, counter⟩, false⟩)
                    else (none, ⟨⟨m.value.key, counter⟩, true⟩) := by
                simp only [EncryptorState.encrypt, hp, hx, hframe, Bool.false_eq_true, if_false]
              refine ⟨ctr, counter, (EncryptorState.encrypt kid m plaintext extraAad).1,
                (EncryptorState.encrypt kid m plaintext extraAad).2.poisoned, rfl, rfl, rfl, ?_⟩
              rw [hstep]
              cases henc : EncryptionKey.encrypt m.value.key ⟨ctr, plaintext, extraAad⟩ with
              | error e => exact ⟨rfl, nofun, nofun⟩
              | ok out =>
                  by_cases hlen : extraAad.length ≤ out.length
                  · simp only [if_pos hlen]
                    exact ⟨trivial, nofun, nofun⟩
                  · simp only [if_neg hlen]
                    exact ⟨trivial, fun _ => ⟨out, rfl, Nat.lt_of_not_le hlen⟩, fun _ => trivial⟩

/-- Whatever a call does, it spends at most the next value of its cell. -/
theorem SFrameEncryptor.encrypt_spent (hC : MonotonicCounter.Successive C) {cells : Cells K C}
    {used : List (KeyId × UInt64)} (h : Spent cellKid cellLevel UInt64.toNat cells used)
    (e : SFrameEncryptor) (plaintext extraAad : Bytes) :
    Spent cellKid cellLevel UInt64.toNat (e.encrypt cells plaintext extraAad).2
      (used ++ (e.nonce cells plaintext extraAad).toList) := by
  rw [SFrameEncryptor.encrypt, SFrameEncryptor.nonce]
  cases hc : cells[e.state]? with
  | none => simpa using h
  | some m =>
      simp only
      rcases EncryptorState.encrypt_cases hC e.kid m plaintext extraAad with
        ⟨-, heq⟩ | ⟨-, -, heq⟩ | ⟨ctr, counter, result, poisoned, -, hlive, hnext, heq, -, -⟩
      · rw [heq]
        simpa using h.rise hc rfl (Nat.le_refl _)
      · rw [heq]
        simpa using h.rise hc rfl (Nat.le_refl _)
      · rw [heq, MediaFrameView.withMetaData, hnext, Option.map_some]
        obtain ⟨hv, hlt⟩ := hC.level_next hlive hnext
        have hrise : Spent cellKid cellLevel UInt64.toNat
            (cells.set e.state ⟨⟨m.value.key, counter⟩, poisoned⟩) used :=
          h.rise hc rfl (Nat.le_of_lt hlt)
        cases result with
        | none => simpa using hrise
        | some r =>
            cases r with
            | error e => simpa using hrise
            | ok out => exact h.take hc rfl hv hlt

/-- A call keeps the key id of every cell. -/
theorem SFrameEncryptor.encrypt_kids (hC : MonotonicCounter.Successive C) (cells : Cells K C)
    (e : SFrameEncryptor) (plaintext extraAad : Bytes) :
    (e.encrypt cells plaintext extraAad).2.map cellKid = cells.map cellKid := by
  rw [SFrameEncryptor.encrypt]
  cases hc : cells[e.state]? with
  | none => rfl
  | some m =>
      apply map_label_set hc
      rcases EncryptorState.encrypt_cases hC e.kid m plaintext extraAad with
        ⟨-, heq⟩ | ⟨-, -, heq⟩ | ⟨ctr, counter, result, poisoned, -, -, -, heq, -, -⟩
      · rw [heq]
      · rw [heq]
      · rw [heq]
        rfl

/-- A cell with an exhausted counter no longer changes. -/
theorem SFrameEncryptor.encrypt_exhausted (hC : MonotonicCounter.Successive C)
    {cells : Cells K C} {i : ℕ} {m : Mutex (EncryptorState K C)} (hi : cells[i]? = some m)
    (hx : MonotonicCounter.isExhausted m.value.counter = true) (e : SFrameEncryptor)
    (plaintext extraAad : Bytes) :
    (e.encrypt cells plaintext extraAad).2[i]? = some m := by
  rw [SFrameEncryptor.encrypt]
  cases hc : cells[e.state]? with
  | none => exact hi
  | some m' =>
      simp only
      by_cases hei : e.state = i
      · obtain rfl : m' = m := Option.some.inj (hc.symm.trans (hei ▸ hi))
        have hlen : i < cells.length := (List.getElem?_eq_some_iff.mp hi).1
        have hsame : (EncryptorState.encrypt e.kid m' plaintext extraAad).2 = m' := by
          rcases EncryptorState.encrypt_cases hC e.kid m' plaintext extraAad with
            ⟨-, heq⟩ | ⟨-, -, heq⟩ | ⟨ctr, counter, result, poisoned, -, hlive, -⟩
          · rw [heq]
          · rw [heq]
          · rw [hx] at hlive
            cases hlive
        rw [hsame, hei, List.getElem?_set_self hlen]
      · rw [List.getElem?_set_ne hei, hi]

/-- With no lock poisoned, a call returns and poisons none. -/
theorem SFrameEncryptor.encrypt_returns (hC : MonotonicCounter.Successive C)
    (hK : EncryptionKey.Serialises K) {cells : Cells K C}
    (hcells : ∀ m ∈ cells, m.poisoned = false) {e : SFrameEncryptor}
    {m : Mutex (EncryptorState K C)} (he : cells[e.state]? = some m)
    (plaintext extraAad : Bytes) :
    (∃ r, (e.encrypt cells plaintext extraAad).1 = some r) ∧
      ∀ m ∈ (e.encrypt cells plaintext extraAad).2, m.poisoned = false := by
  have hm := hcells m (List.mem_of_getElem? he)
  have hcall : (∃ r, (EncryptorState.encrypt e.kid m plaintext extraAad).1 = some r) ∧
      (EncryptorState.encrypt e.kid m plaintext extraAad).2.poisoned = false := by
    rcases EncryptorState.encrypt_cases hC e.kid m plaintext extraAad with
      ⟨hp, -⟩ | ⟨hp, -, heq⟩ | ⟨ctr, counter, result, poisoned, -, -, -, heq, hpanic, hnone⟩
    · rw [hm] at hp
      cases hp
    · rw [heq]
      exact ⟨⟨_, rfl⟩, hp⟩
    · have hclean : poisoned = false := by
        apply Bool.eq_false_iff.mpr
        intro hp
        obtain ⟨out, hout, hshort⟩ := hpanic hp
        have hlong := (hK.metaData_prefix _ _ _ hout).length_le
        exact absurd hlong (Nat.not_le_of_lt hshort)
      rw [heq]
      refine ⟨?_, hclean⟩
      cases result with
      | none =>
          rw [hnone rfl] at hclean
          cases hclean
      | some r => exact ⟨r, rfl⟩
  rw [SFrameEncryptor.encrypt, he]
  refine ⟨hcall.1, fun m' hm' => ?_⟩
  rcases List.mem_or_eq_of_mem_set hm' with h | rfl
  · exact hcells m' h
  · exact hcall.2

end Encryptor

/-- A session of one epoch with the encryptors it has created. -/
structure SFrameSession where
  baseKey : BaseKey
  epoch : UInt64
  suite : CipherSuite
  encryptors : AList fun _ : UInt32 => SFrameEncryptor

namespace SFrameSession

/-- A session without encryptors. -/
def new (baseKey : BaseKey) (epoch : UInt64) (suite : CipherSuite) : SFrameSession :=
  ⟨baseKey, epoch, suite, ∅⟩

/-- The session of a group's current epoch. -/
def fromMls {G S : Type} [OpenMls G S] (mls : MlsContext G S) (label : String)
    (suite : CipherSuite) : Option (Except SFrameError SFrameSession) :=
  (deriveBaseKey mls label mls.epoch).map fun r => r.map fun base => new base mls.epoch suite

variable {K C : Type} [MlsKeyId] [MonotonicCounter C] [EncryptionKey K]

/-- The encryptor of a leaf, created at the first request. -/
def encryptor (s : SFrameSession) (cells : Cells K C) (leafIndex : UInt32) :
    SFrameEncryptor × SFrameSession × Cells K C :=
  match s.encryptors.lookup leafIndex with
  | some e => (e, s, cells)
  | none =>
    let kid := SFrameHeader.kidFrom s.epoch leafIndex
    let r := SFrameEncryptor.new cells s.baseKey kid s.suite
    (r.1, { s with encryptors := s.encryptors.insert leafIndex r.1 }, r.2)

end SFrameSession

section Linked

variable {K C : Type} [MlsKeyId] [EncryptionKey K]

/-- A directory from leaves to encryptors fits the cells: an entry points to a cell with its
key id, and every cell belongs to an entry. -/
structure Linked (epoch : UInt64) (find : UInt32 → Option SFrameEncryptor)
    (cells : Cells K C) : Prop where
  entry : ∀ leaf e, find leaf = some e → leaf < 65536 ∧ e.kid = SFrameHeader.kidFrom epoch leaf ∧
    ∃ m, cells[e.state]? = some m
  owner : ∀ kid ∈ cells.map cellKid, ∃ leaf, find leaf ≠ none ∧
    kid = SFrameHeader.kidFrom epoch leaf

theorem Linked.empty (epoch : UInt64) {find : UInt32 → Option SFrameEncryptor}
    (h : ∀ leaf, find leaf = none) : Linked epoch find ([] : Cells K C) where
  entry leaf e he := by
    rw [h leaf] at he
    cases he
  owner _ hkid := absurd hkid List.not_mem_nil

/-- The key id of a leaf without an entry is new to the cells. -/
theorem Linked.kid_new (hkid : MlsKeyId.Unpacks) {epoch : UInt64}
    {find : UInt32 → Option SFrameEncryptor} {cells : Cells K C} (h : Linked epoch find cells)
    {leaf : UInt32} (hleaf : leaf < 65536) (hfree : find leaf = none) :
    SFrameHeader.kidFrom epoch leaf ∉ cells.map cellKid := by
  intro hmem
  obtain ⟨leaf', hfound, heq⟩ := h.owner _ hmem
  obtain ⟨e, he⟩ := Option.ne_none_iff_exists'.mp hfound
  obtain rfl := SFrameHeader.kidFrom_inj hkid epoch hleaf (h.entry leaf' e he).1 heq
  exact hfound hfree

/-- A leaf without an entry gets an encryptor with a cell of its own. -/
theorem Linked.insert [MonotonicCounter C] (hK : EncryptionKey.Serialises K) {epoch : UInt64}
    {find find' : UInt32 → Option SFrameEncryptor} {cells : Cells K C}
    (h : Linked epoch find cells) {leaf : UInt32} (hleaf : leaf < 65536) (baseKey : BaseKey)
    (suite : CipherSuite)
    (hfind : ∀ l, find' l = if l = leaf then
      some ⟨cells.length, SFrameHeader.kidFrom epoch leaf⟩ else find l) :
    Linked epoch find'
      (cells ++ [EncryptorState.fresh baseKey (SFrameHeader.kidFrom epoch leaf) suite]) := by
  constructor
  · intro l e he
    rw [hfind] at he
    by_cases hl : l = leaf
    · rw [if_pos hl] at he
      cases he
      subst hl
      exact ⟨hleaf, rfl, _, List.getElem?_concat_length⟩
    · rw [if_neg hl] at he
      obtain ⟨hlt, hkid, m, hm⟩ := h.entry l e he
      have hlen : e.state < cells.length := (List.getElem?_eq_some_iff.mp hm).1
      exact ⟨hlt, hkid, m, (List.getElem?_append_left hlen).trans hm⟩
  · intro kid hmem
    rw [List.map_append, List.mem_append] at hmem
    rcases hmem with hmem | hmem
    · obtain ⟨l, hfound, heq⟩ := h.owner kid hmem
      refine ⟨l, ?_, heq⟩
      rw [hfind]
      by_cases hl : l = leaf
      · rw [if_pos hl]
        exact Option.some_ne_none _
      · rw [if_neg hl]
        exact hfound
    · rw [List.map_singleton, cellKid_fresh hK, List.mem_singleton] at hmem
      refine ⟨leaf, ?_, hmem⟩
      rw [hfind, if_pos rfl]
      exact Option.some_ne_none _

/-- Writing cells in place under their key ids keeps the links. -/
theorem Linked.write {epoch : UInt64} {find : UInt32 → Option SFrameEncryptor}
    {cells cells' : Cells K C} (h : Linked epoch find cells)
    (hkids : cells'.map cellKid = cells.map cellKid) : Linked epoch find cells' := by
  refine ⟨fun leaf e he => ?_, by rw [hkids]; exact h.owner⟩
  obtain ⟨hlt, hkid, m, hm⟩ := h.entry leaf e he
  refine ⟨hlt, hkid, ?_⟩
  have hlen : cells'.length = cells.length := by
    have hmap := congrArg List.length hkids
    rwa [List.length_map, List.length_map] at hmap
  have hlt' : e.state < cells'.length := by
    rw [hlen]
    exact (List.getElem?_eq_some_iff.mp hm).1
  exact ⟨_, List.getElem?_eq_getElem hlt'⟩

end Linked

/-! The crate's key ids and counters with a transparent cipher, for closed runs. -/

/-- Context, member index and epoch bits, from high to low. -/
instance : MlsKeyId where
  new context epoch index epochBits indexBits :=
    UInt64.ofNat ((context.toNat * 2 ^ indexBits.toNat + index.toNat % 2 ^ indexBits.toNat) *
      2 ^ epochBits.toNat + epoch.toNat % 2 ^ epochBits.toNat)
  epochLsb kid epochBits _ := UInt64.ofNat (kid.toNat % 2 ^ epochBits.toNat)
  memberIndex kid epochBits indexBits :=
    UInt64.ofNat (kid.toNat / 2 ^ epochBits.toNat % 2 ^ indexBits.toNat)

theorem MlsKeyId.unpacks : MlsKeyId.Unpacks := by
  intro epoch index hindex
  have hlt : index.toNat < 65536 := UInt64.lt_iff_toNat_lt.mp hindex
  apply UInt64.toNat_inj.mp
  simp only [MlsKeyId.new, MlsKeyId.memberIndex, UInt64.toNat_ofNat', UInt64.toNat_zero,
    UInt8.reduceToNat]
  omega

/-- A counter over all 64-bit values. -/
structure PlainCounter where
  value : UInt64
  exhausted : Bool
  deriving DecidableEq, Repr

instance : MonotonicCounter PlainCounter where
  default := ⟨0, false⟩
  current c := c.value
  isExhausted c := c.exhausted
  next c :=
    if c.exhausted then none
    else if c.value = 0xFFFFFFFFFFFFFFFF then some (c.value, { c with exhausted := true })
    else some (c.value, { c with value := c.value + 1 })

theorem PlainCounter.successive : MonotonicCounter.Successive PlainCounter where
  panics c h := by
    by_cases hx : c.exhausted = true
    · exact hx
    · simp only [MonotonicCounter.next, if_neg hx] at h
      split at h <;> cases h
  value c v c' h := by
    simp only [MonotonicCounter.next] at h
    split at h
    · cases h
    · split at h <;> cases h <;> rfl
  successor c v c' h hlive := by
    simp only [MonotonicCounter.next] at h
    split at h
    · cases h
    · split at h
      · cases h
        cases hlive
      · next hmax =>
          cases h
          have hne : c.value.toNat ≠ 2 ^ 64 - 1 := fun heq => hmax (UInt64.toNat_inj.mp heq)
          have hlt := c.value.toNat_lt
          change (c.value + 1).toNat = c.value.toNat + 1
          rw [UInt64.toNat_add, UInt64.toNat_one]
          omega

/-- A key that is nothing but its inputs. -/
structure PlainKey where
  suite : CipherSuite
  kid : KeyId
  baseKey : BaseKey
  deriving DecidableEq

/-- The frame spells out its metadata, header and payload. -/
instance : EncryptionKey PlainKey where
  deriveFrom := PlainKey.mk
  keyId key := key.kid
  encrypt key frame := .ok (frame.metaData ++ beBytes 8 key.kid.toNat ++
    beBytes 8 frame.counter.toNat ++ frame.payload)

theorem PlainKey.serialises : EncryptionKey.Serialises PlainKey where
  keyId_deriveFrom _ _ _ := rfl
  metaData_prefix key frame out h := by
    cases h
    simp only [List.append_assoc]
    exact List.prefix_append _ _

end GroupProtocol
