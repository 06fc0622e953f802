import GroupProtocol.Lib.Memory
import GroupProtocol.Lib.Prefixed
import GroupProtocol.Lib.Words
import GroupProtocol.Mls.Commits
import Mathlib.Algebra.Order.BigOperators.Group.Multiset

/-!
# Persisting an MLS context

A context is exported as four length-prefixed sections: the provider's storage, the
signer, the identity and the group id. The group comes back from its storage, own
pending commit included. The staged commit lives in memory only and is not exported:
a restart forgets it, and the two contexts then finalize into the same epoch and
secrets only where forgetting makes no difference.
-/

namespace GroupProtocol

/-- The order in which a hash map yields its entries: any order, each entry once. -/
class HashMapIter where
  iter : Prefixed.ByteMap → AList fun _ : Bytes => Bytes
  toFinmap_iter : ∀ map, (iter map).toFinmap = map

/-- The storage of a group's provider, and loading a group from a storage. -/
class MlsStorage (G : Type) where
  storage : G → Prefixed.ByteMap
  groupId : G → Bytes
  load : Prefixed.ByteMap → Bytes → Except String (Option G)

/-- The codec of a signing key pair. -/
class SignatureKeyPair (K : Type) where
  tlsSerializeDetached : K → Except String Bytes
  tlsDeserializeExactBytes : Bytes → Except String K

section Storage

variable [HashMapIter]

/-- The number of entries, then every entry as a record. -/
def serializeStorage (map : Prefixed.ByteMap) : Bytes :=
  leBytes 4 (HashMapIter.iter map).entries.length ++
    Prefixed.putRecords (HashMapIter.iter map).entries

/-- Reads a storage blob back into a map, once there is room for the announced number of
entries. -/
def deserializeStorage (bytes : Bytes) : Except MlsError Prefixed.ByteMap :=
  match Prefixed.readU32 (.openMls "truncated storage blob") bytes with
  | .error e => .error e
  | .ok (count, cur) => Prefixed.readRecords (.openMls "truncated storage blob") count ∅ cur

/-- `HashMap::with_capacity`, which panics when the table cannot be laid out. -/
def hashMapWithCapacity (w : PointerWidth) (capacity : ℕ) : Option Prefixed.ByteMap :=
  if w.TableFits capacity then some ∅ else none

/-- Reads a storage blob on a target: the map is made for the announced number of entries before any
of them is read. The result is missing where the call panics. -/
def deserializeStorageOn (w : PointerWidth) (bytes : Bytes) :
    Option (Except MlsError Prefixed.ByteMap) :=
  match Prefixed.readU32 (.openMls "truncated storage blob") bytes with
  | .error e => some (.error e)
  | .ok (count, cur) =>
    (hashMapWithCapacity w count).map
      fun map => Prefixed.readRecords (.openMls "truncated storage blob") count map cur

omit [HashMapIter] in
/-- Where the announced number of entries has room, the request for it does not show. -/
theorem deserializeStorageOn_eq {w : PointerWidth} {bytes : Bytes}
    (h : ∀ count cur, Prefixed.readU32 (MlsError.openMls "truncated storage blob") bytes =
      .ok (count, cur) → w.TableFits count) :
    deserializeStorageOn w bytes = some (deserializeStorage bytes) := by
  rw [deserializeStorageOn, deserializeStorage]
  cases hread : Prefixed.readU32 (MlsError.openMls "truncated storage blob") bytes with
  | error e => rfl
  | ok next =>
      obtain ⟨count, cur⟩ := next
      dsimp only
      rw [hashMapWithCapacity, if_pos (h count cur hread), Option.map_some]

/-- The length of a storage blob, whatever the order of its entries. -/
def storageSize (map : Prefixed.ByteMap) : ℕ := 4 + (map.entries.map Prefixed.recordSize).sum

theorem iter_entries (map : Prefixed.ByteMap) :
    ((HashMapIter.iter map).entries : Multiset _) = map.entries :=
  congrArg Finmap.entries (HashMapIter.toFinmap_iter map)

theorem length_serializeStorage (map : Prefixed.ByteMap) :
    (serializeStorage map).length = storageSize map := by
  rw [serializeStorage, List.length_append, length_leBytes, Prefixed.length_putRecords,
    storageSize, ← iter_entries, Multiset.map_coe, Multiset.sum_coe]

/-- Fewer than `2 ^ 32` entries, and every key and every value shorter than `2 ^ 32` bytes. -/
structure StorageFits (map : Prefixed.ByteMap) : Prop where
  count : map.entries.card < 2 ^ 32
  entries : ∀ entry ∈ map.entries, entry.1.length < 2 ^ 32 ∧ entry.2.length < 2 ^ 32

namespace StorageFits

variable {map : Prefixed.ByteMap}

omit [HashMapIter] in
/-- A storage below the limit of a section fits. -/
theorem of_storageSize (h : storageSize map < 2 ^ 32) : StorageFits map where
  count := by
    have hcard : (map.entries.map Prefixed.recordSize).card • 1 ≤
        (map.entries.map Prefixed.recordSize).sum := by
      apply Multiset.card_nsmul_le_sum
      intro size hsize
      obtain ⟨entry, -, rfl⟩ := Multiset.mem_map.mp hsize
      exact Nat.le_add_right_of_le (Nat.le_add_right_of_le (by decide))
    rw [Multiset.card_map, Nat.nsmul_eq_mul, Nat.mul_one] at hcard
    rw [storageSize] at h
    omega
  entries entry hentry := by
    have hone : Prefixed.recordSize entry ≤ (map.entries.map Prefixed.recordSize).sum :=
      Multiset.le_sum_of_mem (Multiset.mem_map_of_mem _ hentry)
    rw [Prefixed.recordSize] at hone
    rw [storageSize] at h
    omega

theorem length_iter (h : StorageFits map) :
    (HashMapIter.iter map).entries.length < 2 ^ 32 := by
  rw [← Multiset.coe_card, iter_entries]
  exact h.count

theorem recordsFit (h : StorageFits map) :
    Prefixed.RecordsFit (HashMapIter.iter map).entries := by
  intro entry hentry
  refine h.entries entry ?_
  rw [← iter_entries, Multiset.mem_coe]
  exact hentry

/-- The map is read back from its blob. -/
theorem deserializeStorage (h : StorageFits map) :
    deserializeStorage (serializeStorage map) = .ok map := by
  obtain ⟨read, hread, hentries⟩ := Prefixed.readRecords_of_fit
    (MlsError.openMls "truncated storage blob") h.recordsFit (HashMapIter.iter map).nodupKeys ∅
    (fun _ _ => Finmap.notMem_empty) []
  rw [List.append_nil] at hread
  have hmap : read = map := by
    refine Finmap.ext (hentries.trans ?_)
    rw [iter_entries]
    exact add_zero _
  unfold GroupProtocol.deserializeStorage serializeStorage
  simp only [Prefixed.readU32_leBytes h.length_iter]
  rw [hread, hmap]

end StorageFits

end Storage

/-- How merging moves the epoch and the secrets: every merged commit enters the next epoch, and
without an own pending commit there is nothing to merge. One commit leads to the same secrets
from either slot, and another commit to others. -/
structure CommitView.Advances {G C M W X I : Type} [MlsGroup G C M W]
    (v : CommitView G C M X I) : Prop where
  staged_epoch : ∀ {g g' : G} {staged : C}, OpenMls.mergeStagedCommit g staged = .ok g' →
    OpenMls.epoch C g' = OpenMls.epoch C g + 1
  pending_epoch : ∀ {g g' : G} {i}, v.own g = some i →
    OpenMls.mergePendingCommit C g = .ok g' → OpenMls.epoch C g' = OpenMls.epoch C g + 1
  pending_none : ∀ {g g' : G}, v.own g = none → OpenMls.mergePendingCommit C g = .ok g' → g' = g
  secrets_same : ∀ {g g₁ g₂ : G} {staged : C}, v.own g = some (v.ident staged) →
    OpenMls.mergeStagedCommit g staged = .ok g₁ → OpenMls.mergePendingCommit C g = .ok g₂ →
      OpenMls.exportSecret C g₁ = OpenMls.exportSecret C g₂
  secrets_apart : ∀ {g g₁ g₂ : G} {staged : C} {i}, v.own g = some i → i ≠ v.ident staged →
    OpenMls.mergeStagedCommit g staged = .ok g₁ → OpenMls.mergePendingCommit C g = .ok g₂ →
      ∃ label context len secret₁ secret₂,
        OpenMls.exportSecret C g₁ label context len = .ok secret₁ ∧
        OpenMls.exportSecret C g₂ label context len = .ok secret₂ ∧ secret₁ ≠ secret₂

namespace MlsContext

section Restart

variable {G C M W X I : Type} [MlsGroup G C M W] {v : CommitView G C M X I} {m : MlsContext G C}

/-- The two contexts are at the same epoch and export the same secrets. -/
def SameKeys (m m' : MlsContext G C) : Prop :=
  m.epoch = m'.epoch ∧
    ∀ label context len, m.exportRaw label context len = m'.exportRaw label context len

/-- No received commit waits, or the one that waits is also the group's own pending commit, or it
does not merge any more and the group has no pending commit. -/
def Restartable (v : CommitView G C M X I) (m : MlsContext G C) : Prop :=
  ∀ staged, m.pendingStaged = some staged →
    match OpenMls.mergeStagedCommit m.group staged with
    | .ok _ => v.own m.group = some (v.ident staged)
    | .error _ => v.own m.group = none

/-- Without a commit in either slot, finalizing changes nothing. -/
theorem finalize_idle (hadv : v.Advances) {g : G} (hown : v.own g = none) :
    (⟨g, none⟩ : MlsContext G C).finalizePendingCommit.2 = ⟨g, none⟩ := by
  unfold finalizePendingCommit
  dsimp only
  split
  · rename_i g' hmerge
    rw [hadv.pending_none hown hmerge]
  · rfl

/-- The own pending commit is merged when no staged one waits. -/
theorem finalize_own (hv : v.Lawful) {g : G} {i : I} (hown : v.own g = some i) :
    ∃ g', OpenMls.mergePendingCommit C g = .ok g' ∧
      (⟨g, none⟩ : MlsContext G C).finalizePendingCommit.2 = ⟨g', none⟩ := by
  obtain ⟨g', hmerge, -, -⟩ := hv.mergePendingCommit_own hown
  refine ⟨g', hmerge, ?_⟩
  simp only [finalizePendingCommit, hmerge]

/-- A staged commit that merges is the only one merged. -/
theorem finalize_staged (hv : v.Lawful) (hadv : v.Advances) {g g' : G} {staged : C}
    (hmerge : OpenMls.mergeStagedCommit g staged = .ok g') :
    (⟨g, some staged⟩ : MlsContext G C).finalizePendingCommit.2 = ⟨g', none⟩ := by
  simp only [finalizePendingCommit, hmerge]
  split
  · rename_i g'' hpending
    rw [hadv.pending_none (hv.mergeStagedCommit_ok hmerge).1 hpending]
  · rfl

/-- Groups an epoch apart do not have the same keys. -/
theorem not_sameKeys_of_epoch {g g' : G}
    (h : OpenMls.epoch C g' = OpenMls.epoch C g + 1) :
    ¬SameKeys (⟨g', none⟩ : MlsContext G C) ⟨g, none⟩ := by
  intro hsame
  exact Words.succ_ne (OpenMls.epoch C g) (h.symm.trans hsame.1)

theorem SameKeys.symm {m m' : MlsContext G C} (h : SameKeys m m') : SameKeys m' m :=
  ⟨h.1.symm, fun label context len => (h.2 label context len).symm⟩

/-- Merging the staged commit or the own one leads to the same keys exactly when they are one
commit. -/
theorem sameKeys_merged_iff (hadv : v.Advances) {g g₁ g₂ : G} {staged : C} {i : I}
    (hown : v.own g = some i) (hstaged : OpenMls.mergeStagedCommit g staged = .ok g₁)
    (hpending : OpenMls.mergePendingCommit C g = .ok g₂) :
    SameKeys (⟨g₁, none⟩ : MlsContext G C) ⟨g₂, none⟩ ↔ i = v.ident staged := by
  constructor
  · intro hsame
    by_contra hne
    obtain ⟨label, context, len, secret₁, secret₂, h₁, h₂, hapart⟩ :=
      hadv.secrets_apart hown hne hstaged hpending
    have hraw := hsame.2 label context len
    simp only [exportRaw, h₁, h₂] at hraw
    exact hapart (Except.ok.inj hraw)
  · rintro rfl
    refine ⟨(hadv.staged_epoch hstaged).trans (hadv.pending_epoch hown hpending).symm, ?_⟩
    intro label context len
    simp only [exportRaw, hadv.secrets_same hown hstaged hpending]

/-- Forgetting the staged commit goes unnoticed exactly in the restartable contexts. -/
theorem sameKeys_forgotten_iff (hv : v.Lawful) (hadv : v.Advances) :
    SameKeys m.finalizePendingCommit.2
      (⟨m.group, none⟩ : MlsContext G C).finalizePendingCommit.2 ↔ m.Restartable v := by
  obtain ⟨g, pending⟩ := m
  cases pending with
  | none => exact iff_of_true ⟨rfl, fun _ _ _ => rfl⟩ fun staged h => by cases h
  | some staged =>
      -- the restored context merges its own commit or nothing
      unfold Restartable
      simp only [Option.some.injEq, forall_eq']
      cases hmerge : OpenMls.mergeStagedCommit g staged with
      | ok g₁ =>
          rw [finalize_staged hv hadv hmerge]
          cases hown : v.own g with
          | none =>
              rw [finalize_idle hadv hown]
              exact iff_of_false (not_sameKeys_of_epoch (hadv.staged_epoch hmerge)) (by simp)
          | some i =>
              obtain ⟨g₂, hpending, hfinal⟩ := finalize_own hv hown
              rw [hfinal, sameKeys_merged_iff hadv hown hmerge hpending, Option.some.injEq]
      | error e =>
          have hkept : (⟨g, some staged⟩ : MlsContext G C).finalizePendingCommit.2 =
              ⟨g, none⟩ := by
            simp only [finalizePendingCommit, hmerge]
          rw [hkept]
          cases hown : v.own g with
          | none =>
              rw [finalize_idle hadv hown]
              exact iff_of_true ⟨rfl, fun _ _ _ => rfl⟩ rfl
          | some i =>
              obtain ⟨g₂, hpending, hfinal⟩ := finalize_own hv hown
              rw [hfinal]
              refine iff_of_false (fun hsame => ?_) (by simp)
              exact not_sameKeys_of_epoch (hadv.pending_epoch hown hpending) hsame.symm

end Restart

end MlsContext

/-- A member's context with what it signs with and what it calls itself. -/
structure MemberContext (G C K : Type) extends MlsContext G C where
  signer : K
  identity : Bytes

namespace MemberContext

variable {G C K : Type} [MlsStorage G] [SignatureKeyPair K]

section State

variable [HashMapIter]

/-- The four sections of the exported state. -/
def stateParts (c : MemberContext G C K) : Except MlsError (List Bytes) :=
  match SignatureKeyPair.tlsSerializeDetached c.signer with
  | .error e => .error (.openMls s!"signer serialize: {e}")
  | .ok signerBuf =>
    .ok [serializeStorage (MlsStorage.storage c.group), signerBuf, c.identity,
      MlsStorage.groupId c.group]

/-- Writes the sections one after the other. -/
def exportState (c : MemberContext G C K) : Except MlsError Bytes :=
  match c.stateParts with
  | .error e => .error e
  | .ok parts => .ok (parts.flatMap Prefixed.put)

end State

/-- Reads the next section of a state blob. -/
def take (cur : Bytes) : Except MlsError (Bytes × Bytes) :=
  Prefixed.read (.openMls "truncated state blob (length)") (.openMls "truncated state blob (body)")
    cur

/-- The signer in a section. -/
def parseSigner (bytes : Bytes) : Except MlsError K :=
  match SignatureKeyPair.tlsDeserializeExactBytes bytes with
  | .ok signer => .ok signer
  | .error e => .error (.openMls s!"signer parse: {e}")

/-- The group a storage holds under an id. -/
def loadGroup (map : Prefixed.ByteMap) (groupId : Bytes) : Except MlsError G :=
  match MlsStorage.load map groupId with
  | .error e => .error (.openMls s!"group load: {e}")
  | .ok none => .error (.openMls "no group in restored state")
  | .ok (some group) => .ok group

/-- Reads the four sections, refills a storage and loads the group. No commit is staged. The
request for room is left to `deserializeStorageOn`. -/
def restoreState (blob : Bytes) : Except MlsError (MemberContext G C K) := do
  let (storageBytes, cur) ← take blob
  let (signerBytes, cur) ← take cur
  let (identity, cur) ← take cur
  let (gidBytes, _) ← take cur
  let map ← deserializeStorage storageBytes
  let signer ← parseSigner signerBytes
  let group ← loadGroup map gidBytes
  return { group := group, pendingStaged := none, signer := signer, identity := identity }

/-- A stored group loads as it was persisted, and a signer survives its codec. -/
structure Durable (G K : Type) [MlsStorage G] [SignatureKeyPair K] : Prop where
  load_storage : ∀ g : G,
    MlsStorage.load (MlsStorage.storage g) (MlsStorage.groupId g) = .ok (some g)
  signer_codec : ∀ signer : K, ∃ bytes,
    SignatureKeyPair.tlsSerializeDetached signer = .ok bytes ∧
      SignatureKeyPair.tlsDeserializeExactBytes bytes = .ok signer

/-- Every section of the exported state fits its length prefix. -/
def Fits (c : MemberContext G C K) : Prop :=
  storageSize (MlsStorage.storage c.group) < 2 ^ 32 ∧
    (∀ bytes, SignatureKeyPair.tlsSerializeDetached c.signer = .ok bytes → bytes.length < 2 ^ 32) ∧
    c.identity.length < 2 ^ 32 ∧ (MlsStorage.groupId c.group).length < 2 ^ 32

theorem take_put {part : Bytes} (h : part.length < 2 ^ 32) (rest : Bytes) :
    take (Prefixed.put part ++ rest) = .ok (part, rest) :=
  Prefixed.read_put h _ _ rest

/-- Exporting and restoring gives the context back without its staged commit. -/
theorem restoreState_exportState [HashMapIter] (hdurable : Durable G K) {c : MemberContext G C K}
    (hfits : c.Fits) :
    ∃ blob, c.exportState = .ok blob ∧
      restoreState blob = .ok ({ c with pendingStaged := none } : MemberContext G C K) := by
  obtain ⟨hstorage, hsigner, hidentity, hgid⟩ := hfits
  obtain ⟨signerBuf, hwrite, hparse⟩ := hdurable.signer_codec c.signer
  refine ⟨[serializeStorage (MlsStorage.storage c.group), signerBuf, c.identity,
    MlsStorage.groupId c.group].flatMap Prefixed.put, ?_, ?_⟩
  · simp only [exportState, stateParts, hwrite]
  · have hstorageLen := hstorage
    rw [← length_serializeStorage] at hstorageLen
    simp only [restoreState, List.flatMap_cons, take_put hstorageLen,
      take_put (hsigner signerBuf hwrite), take_put hidentity, take_put hgid,
      (StorageFits.of_storageSize hstorage).deserializeStorage, parseSigner, hparse, loadGroup,
      hdurable.load_storage, bind, Except.bind, pure, Except.pure]

section Restart

variable {M W X I : Type} [MlsGroup G C M W]

/-- The context restored from its own export has the same epoch and secrets, at once and after
both finalize. -/
def SurvivesRestart [HashMapIter] (c : MemberContext G C K) : Prop :=
  ∃ blob, ∃ c' : MemberContext G C K,
    c.exportState = .ok blob ∧ restoreState blob = .ok c' ∧
      MlsContext.SameKeys c.toMlsContext c'.toMlsContext ∧
      MlsContext.SameKeys c.finalizePendingCommit.2 c'.finalizePendingCommit.2

variable {v : CommitView G C M X I} {c : MemberContext G C K}

/-- A restart is survived exactly when forgetting the staged commit does not change what
finalizing leads to. -/
theorem restart_unnoticed_iff [HashMapIter] (hdurable : Durable G K) (hfits : c.Fits) :
    c.SurvivesRestart ↔
      MlsContext.SameKeys c.finalizePendingCommit.2
        (⟨c.group, none⟩ : MlsContext G C).finalizePendingCommit.2 := by
  obtain ⟨blob, hexport, hrestore⟩ := restoreState_exportState hdurable hfits
  constructor
  · rintro ⟨blob', c', hexport', hrestore', -, hfinal⟩
    obtain rfl := Except.ok.inj (hexport.symm.trans hexport')
    obtain rfl := Except.ok.inj (hrestore.symm.trans hrestore')
    exact hfinal
  · intro hfinal
    exact ⟨blob, _, hexport, hrestore, ⟨rfl, fun _ _ _ => rfl⟩, hfinal⟩

variable [MlsMessage M]

/-- The member's context after a call. -/
def step (c : MemberContext G C K) (call : MlsCall) : MemberContext G C K :=
  { c with toMlsContext := c.toMlsContext.step call }

/-- In every state that any calls lead to, and whose sections fit their prefixes, the context
survives a restart exactly when it is restartable. -/
theorem survives_restart_iff [HashMapIter] (hdurable : Durable G K) (hv : v.Lawful)
    (hadv : v.Advances) (c₀ : MemberContext G C K) (calls : List MlsCall)
    (hfits : (Machine.run step c₀ calls).Fits) :
    (Machine.run step c₀ calls).SurvivesRestart ↔ (Machine.run step c₀ calls).Restartable v := by
  rw [restart_unnoticed_iff hdurable hfits, MlsContext.sameKeys_forgotten_iff hv hadv]

end Restart

end MemberContext

/-- Some order of the entries, for closed runs. -/
noncomputable instance someOrder : HashMapIter where
  iter map := ⟨map.entries.toList, by
    have hnodup := map.nodupKeys
    rw [← map.entries.coe_toList] at hnodup
    exact Multiset.coe_nodupKeys.mp hnodup⟩
  toFinmap_iter map := Finmap.ext map.entries.coe_toList

namespace LoggedGroup

/-- The own pending commit, if any, and then the log. -/
def encode : LoggedGroup → Bytes
  | ⟨none, log⟩ => 0 :: log
  | ⟨some author, log⟩ => 1 :: author :: log

def decode : Bytes → Option LoggedGroup
  | 0 :: log => some ⟨none, log⟩
  | 1 :: author :: log => some ⟨some author, log⟩
  | _ => none

/-- One entry, under the id of the group. -/
instance : MlsStorage LoggedGroup where
  storage g := Finmap.singleton [103] g.encode
  groupId _ := [103]
  load map groupId :=
    match map.lookup groupId with
    | none => .ok none
    | some bytes =>
      match decode bytes with
      | some g => .ok (some g)
      | none => .error "DeserializationError"

/-- A signer that is its own bytes. -/
instance : SignatureKeyPair Bytes where
  tlsSerializeDetached := .ok
  tlsDeserializeExactBytes := .ok

theorem durable : MemberContext.Durable LoggedGroup Bytes where
  load_storage := by
    rintro ⟨own, log⟩
    cases own <;> simp [MlsStorage.load, MlsStorage.storage, MlsStorage.groupId, encode, decode,
      Finmap.lookup_singleton_eq]
  signer_codec signer := ⟨signer, rfl, rfl⟩

theorem advances_view : view.Advances where
  staged_epoch := by
    rintro g g' staged h
    simp only [OpenMls.mergeStagedCommit] at h
    split at h <;> cases h
    simp [OpenMls.epoch]
  pending_epoch := by
    rintro ⟨own, log⟩ g' i hown h
    cases hown
    cases h
    simp [OpenMls.epoch]
  pending_none := by
    rintro ⟨own, log⟩ g' hown h
    cases hown
    cases h
  secrets_same := by
    rintro ⟨own, log⟩ g₁ g₂ staged hown hstaged hpending
    cases hown
    cases hpending
    simp only [OpenMls.mergeStagedCommit] at hstaged
    split at hstaged <;> cases hstaged
    rfl
  secrets_apart := by
    rintro ⟨own, log⟩ g₁ g₂ staged i hown hne hstaged hpending
    cases hown
    cases hpending
    simp only [OpenMls.mergeStagedCommit] at hstaged
    split at hstaged <;> cases hstaged
    refine ⟨"", [], 1, [staged.author], [i], by simp [OpenMls.exportSecret],
      by simp [OpenMls.exportSecret], fun h => hne ?_⟩
    exact (List.cons.inj h).1.symm

/-- The founding member with a signer and an identity. -/
def member : MemberContext LoggedGroup LoggedCommit Bytes :=
  { founder with signer := [5], identity := [6] }

end LoggedGroup

namespace MemberContext

open LoggedGroup

/-- A restart between an invitation and its transition keeps the own pending commit. -/
theorem survives_restart_invited :
    (Machine.run step member [.inviteFull [[7]]]).SurvivesRestart := by
  refine (survives_restart_iff durable lawful_view advances_view member [.inviteFull [[7]]]
    ⟨?_, ?_, ?_, ?_⟩).mpr fun staged h => ?_
  · decide
  · rintro bytes h
    cases h
    decide
  · decide
  · decide
  · cases h

/-- A commit received before the restart is gone after it. -/
theorem restart_loses_commit :
    ¬(Machine.run step member [.processMessage received]).SurvivesRestart := by
  have hfits : (Machine.run step member [.processMessage received]).Fits := by
    refine ⟨by decide, ?_, by decide, by decide⟩
    rintro bytes h
    cases h
    decide
  rw [restart_unnoticed_iff durable hfits]
  rintro ⟨hepoch, -⟩
  revert hepoch
  decide

end MemberContext

end GroupProtocol
