import GroupProtocol.Core.Vocabulary
import GroupProtocol.Lib.BigEndian

/-!
# MLS context and per-stream AEAD

The member-side wrapper of an MLS group. The group itself and the cipher live in
foreign crates and enter as the classes `OpenMls` and `ChaCha20Poly1305`; what the
wrapper adds is the key label of each stream class, the nonce of each sequence
number and the point at which a pending commit is merged.
-/

namespace GroupProtocol

/-- Exporter label that binds a key to a stream class. -/
inductive StreamLabel
  | control
  | audio
  | text
  | signal
  deriving DecidableEq, Repr

/-- The stable exporter label string. -/
def StreamLabel.asStr : StreamLabel → String
  | control => "gbp/control"
  | audio => "gbp/audio"
  | text => "gbp/text"
  | signal => "gbp/signal"

/-- The label of a stream class. -/
def labelFor : StreamType → StreamLabel
  | .control => .control
  | .audio => .audio
  | .text => .text
  | .signal => .signal

/-- Distinct stream classes have distinct labels. -/
theorem labelFor_injective : Function.Injective labelFor := by
  intro a b h
  cases a <;> cases b <;> first | rfl | cases h

/-- Errors of the MLS and AEAD layer. -/
inductive MlsError
  | openMls (reason : String)
  | aead (reason : String)
  | transitionInProgress
  deriving DecidableEq, Repr

/-- The text of an MLS error. -/
def MlsError.display : MlsError → String
  | openMls reason => s!"openmls: {reason}"
  | aead reason => s!"aead: {reason}"
  | transitionInProgress => "transition in progress: pending staged commit exists"

/-- The group operations the wrapper calls; `C` is the type of staged commits. -/
class OpenMls (G C : Type) where
  epoch : G → UInt64
  exportSecret : G → String → Bytes → ℕ → Except String Bytes
  mergeStagedCommit : G → C → Except String G
  mergePendingCommit : G → Except String G

/-- The cipher: key, nonce and text. -/
class ChaCha20Poly1305 where
  encrypt : Bytes → Bytes → Bytes → Except String Bytes
  decrypt : Bytes → Bytes → Bytes → Except String Bytes

/-- The twelve-byte nonce: the sequence number in bytes 0 to 3, zeros after it. -/
def nonceOf (seq : UInt32) : Bytes := beBytes 4 seq.toNat ++ List.replicate 8 0

@[simp] theorem length_nonceOf (seq : UInt32) : (nonceOf seq).length = 12 := by
  simp only [nonceOf, List.length_append, length_beBytes, List.length_replicate]

/-- Distinct sequence numbers have distinct nonces. -/
theorem nonceOf_injective : Function.Injective nonceOf := by
  intro a b h
  have hbytes : beBytes 4 a.toNat = beBytes 4 b.toNat := List.append_cancel_right h
  exact UInt32.toNat_inj.mp (beBytes_injective a.toNat_lt b.toNat_lt hbytes)

/-- A member's group and the staged commit that still waits for its transition. -/
structure MlsContext (G C : Type) where
  group : G
  pendingStaged : Option C

namespace MlsContext

variable {G C : Type} [OpenMls G C] [ChaCha20Poly1305]

/-- The current group epoch. -/
def epoch (m : MlsContext G C) : UInt64 := OpenMls.epoch C m.group

/-- The thirty-two byte secret of a stream label in the current epoch. -/
def exportStreamKey (m : MlsContext G C) (label : StreamLabel) : Except MlsError Bytes :=
  match OpenMls.exportSecret C m.group label.asStr [] 32 with
  | .ok secret => .ok secret
  | .error e => .error (.openMls s!"export: {e}")

/-- A secret of the requested length for any label and context, in the current epoch. -/
def exportRaw (m : MlsContext G C) (label : String) (context : Bytes) (len : ℕ) :
    Except MlsError Bytes :=
  match OpenMls.exportSecret C m.group label context len with
  | .ok secret => .ok secret
  | .error e => .error (.openMls s!"export_raw: {e}")

/-- Encrypts under the label's key and the sequence number's nonce. -/
def «seal» (m : MlsContext G C) (label : StreamLabel) (seq : UInt32) (plaintext : Bytes) :
    Except MlsError Bytes :=
  match m.exportStreamKey label with
  | .error e => .error e
  | .ok key =>
    match ChaCha20Poly1305.encrypt key (nonceOf seq) plaintext with
    | .ok ciphertext => .ok ciphertext
    | .error e => .error (.aead e)

/-- Decrypts with the same parameters. -/
def «open» (m : MlsContext G C) (label : StreamLabel) (seq : UInt32) (ciphertext : Bytes) :
    Except MlsError Bytes :=
  match m.exportStreamKey label with
  | .error e => .error e
  | .ok key =>
    match ChaCha20Poly1305.decrypt key (nonceOf seq) ciphertext with
    | .ok plaintext => .ok plaintext
    | .error e => .error (.aead e)

/-- Merges a staged commit if one waits, then the own pending commit. A missing own
commit is not an error: members that only received a commit have none. -/
def finalizePendingCommit (m : MlsContext G C) : Except MlsError Unit × MlsContext G C :=
  match m.pendingStaged with
  | some staged =>
    match OpenMls.mergeStagedCommit m.group staged with
    | .error e => (.error (.openMls s!"merge_staged: {e}"), { m with pendingStaged := none })
    | .ok group =>
      match OpenMls.mergePendingCommit C group with
      | .ok group => (.ok (), ⟨group, none⟩)
      | .error _ => (.ok (), ⟨group, none⟩)
  | none =>
    match OpenMls.mergePendingCommit C m.group with
    | .ok group => (.ok (), { m with group := group })
    | .error _ => (.ok (), m)

omit [ChaCha20Poly1305] in
/-- Whatever it returns, finalizing takes the staged commit. -/
@[simp] theorem finalizePendingCommit_pendingStaged (m : MlsContext G C) :
    m.finalizePendingCommit.2.pendingStaged = none := by
  unfold finalizePendingCommit
  repeat' split
  all_goals first | rfl | assumption

end MlsContext

/-! A transparent group and cipher, for closed runs. -/

/-- A group that is nothing but its epoch. -/
structure PlainGroup where
  number : UInt64
  deriving DecidableEq, Repr

/-- Secrets spell out the epoch and the label; every merge enters the next epoch. -/
instance : OpenMls PlainGroup Unit where
  epoch g := g.number
  exportSecret g label _ n :=
    .ok ((beBytes 8 g.number.toNat ++ label.toUTF8.toList ++ List.replicate n 0).take n)
  mergeStagedCommit g _ := .ok ⟨g.number + 1⟩
  mergePendingCommit g := .ok ⟨g.number + 1⟩

/-- The ciphertext carries its key and nonce, and opens under no others. -/
instance : ChaCha20Poly1305 where
  encrypt key nonce pt := .ok (key ++ nonce ++ pt)
  decrypt key nonce ct :=
    if ct.take (key.length + nonce.length) = key ++ nonce then
      .ok (ct.drop (key.length + nonce.length))
    else .error "aead::Error"

end GroupProtocol
