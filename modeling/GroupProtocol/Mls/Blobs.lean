import GroupProtocol.Mls.Persistence

/-!
# State blobs are read exactly

A serialized storage gives its map back in whatever order the map yields its entries, and the
four sections of a state blob are read back as they were written. Both formats are
self-delimiting: a blob that was cut off anywhere is refused, so a truncated file is never
restored as a smaller state. Reading a storage asks for room for the announced number of entries
before any of them is read; a prefix announces no more entries than the map had, so the request
panics only where the map itself could not exist.
-/

namespace GroupProtocol

namespace StorageFits

variable [HashMapIter] {map : Prefixed.ByteMap}

/-- Every prefix of a blob announces the number of its entries, or nothing. -/
theorem count_of_prefix (h : StorageFits map) {p : Bytes} (hp : p <+: serializeStorage map)
    {count : ℕ} {cur : Bytes}
    (hread : Prefixed.readU32 (MlsError.openMls "truncated storage blob") p = .ok (count, cur)) :
    count = map.entries.card := by
  rw [serializeStorage] at hp
  rcases Prefixed.prefix_append_cases hp with ⟨-, hshort⟩ | ⟨q, rfl, -⟩
  · rw [length_leBytes] at hshort
    rw [Prefixed.readU32, if_pos hshort] at hread
    cases hread
  · rw [Prefixed.readU32_leBytes h.length_iter] at hread
    cases hread
    rw [← iter_entries, Multiset.coe_card]

/-- The request for capacity does not show on a prefix of the blob of a map that can be laid out. -/
theorem deserializeStorageOn_eq (h : StorageFits map) {w : PointerWidth}
    (htable : w.TableFits map.entries.card) {p : Bytes} (hp : p <+: serializeStorage map) :
    deserializeStorageOn w p = some (GroupProtocol.deserializeStorage p) := by
  apply GroupProtocol.deserializeStorageOn_eq
  intro count cur hread
  rw [h.count_of_prefix hp hread]
  exact htable

/-- A blob that was cut off is refused. -/
theorem deserializeStorage_prefix (h : StorageFits map) {p : Bytes}
    (hp : p <+: serializeStorage map) (hne : p ≠ serializeStorage map) :
    GroupProtocol.deserializeStorage p = .error (.openMls "truncated storage blob") := by
  rw [GroupProtocol.deserializeStorage]
  rw [serializeStorage] at hp hne
  rcases Prefixed.prefix_append_cases hp with ⟨-, hshort⟩ | ⟨q, rfl, hq⟩
  · rw [length_leBytes] at hshort
    rw [Prefixed.readU32, if_pos hshort]
  · rw [Prefixed.readU32_leBytes h.length_iter]
    refine Prefixed.readRecords_prefix _ h.recordsFit ∅ hq ?_
    rintro rfl
    exact hne rfl

end StorageFits

namespace MemberContext

/-- The four sections that `restoreState` reads first. -/
def sections (blob : Bytes) : Except MlsError (List Bytes × Bytes) :=
  Prefixed.readSections (.openMls "truncated state blob (length)")
    (.openMls "truncated state blob (body)") 4 blob

variable {G C K : Type} [MlsStorage G] [SignatureKeyPair K]

/-- What `restoreState` does with the sections it has read. -/
def rebuild (storageBytes signerBytes identity gidBytes : Bytes) :
    Except MlsError (MemberContext G C K) := do
  let map ← deserializeStorage storageBytes
  let signer ← parseSigner signerBytes
  let group ← loadGroup map gidBytes
  return { group := group, pendingStaged := none, signer := signer, identity := identity }

/-- Restoring starts with the sections and fails where reading them fails. -/
theorem restoreState_of_sections_error {blob : Bytes} {e : MlsError}
    (h : sections blob = .error e) :
    (restoreState blob : Except MlsError (MemberContext G C K)) = .error e := by
  rcases Prefixed.readSections_error h with hstorage | ⟨storage, cur₁, hstorage, h₁⟩
  · simp only [restoreState, take, hstorage, bind, Except.bind]
  rcases Prefixed.readSections_error h₁ with hsigner | ⟨signer, cur₂, hsigner, h₂⟩
  · simp only [restoreState, take, hstorage, hsigner, bind, Except.bind]
  rcases Prefixed.readSections_error h₂ with hidentity | ⟨identity, cur₃, hidentity, h₃⟩
  · simp only [restoreState, take, hstorage, hsigner, hidentity, bind, Except.bind]
  rcases Prefixed.readSections_error h₃ with hgid | ⟨gid, cur₄, hgid, h₄⟩
  · simp only [restoreState, take, hstorage, hsigner, hidentity, hgid, bind, Except.bind]
  · cases h₄

/-- The four strings that a context is exported from. -/
structure Holds [HashMapIter] (c : MemberContext G C K) (storage signer identity gid : Bytes) :
    Prop where
  storage : serializeStorage (MlsStorage.storage c.group) = storage
  signer : SignatureKeyPair.tlsSerializeDetached c.signer = .ok signer
  identity : c.identity = identity
  groupId : MlsStorage.groupId c.group = gid

theorem Holds.exportState [HashMapIter] {c : MemberContext G C K}
    {storage signer identity gid : Bytes} (h : c.Holds storage signer identity gid) :
    c.exportState = .ok ([storage, signer, identity, gid].flatMap Prefixed.put) := by
  rw [MemberContext.exportState, stateParts, h.signer, h.storage, h.identity, h.groupId]

/-- State blobs decode exactly on every target: a storage that fits gives its map back in every order
of its entries, the four sections that a context exports are read back, and no blob of either kind
is accepted once it was cut off. -/
theorem state_blobs_decode_exactly [HashMapIter] (w : PointerWidth) (map : Prefixed.ByteMap)
    (hmap : StorageFits map) (htable : w = .w32 → PointerWidth.TableFits .w32 map.entries.card)
    (storage signer identity gid : Bytes) (hstorage : storage.length < 2 ^ 32)
    (hsigner : signer.length < 2 ^ 32) (hidentity : identity.length < 2 ^ 32)
    (hgid : gid.length < 2 ^ 32) :
    let container := [storage, signer, identity, gid].flatMap Prefixed.put
    deserializeStorageOn w (serializeStorage map) = some (.ok map) ∧
    (∀ c : MemberContext G C K, c.Holds storage signer identity gid →
      c.exportState = .ok container) ∧
    sections container = .ok ([storage, signer, identity, gid], []) ∧
    (restoreState container : Except MlsError (MemberContext G C K)) =
      rebuild storage signer identity gid ∧
    (∀ p, p <+: serializeStorage map → p ≠ serializeStorage map →
      deserializeStorageOn w p = some (.error (.openMls "truncated storage blob"))) ∧
    ∀ p, p <+: container → p ≠ container →
      ∃ e, sections p = .error e ∧
        (restoreState p : Except MlsError (MemberContext G C K)) = .error e := by
  intro container
  have hparts : ∀ part ∈ [storage, signer, identity, gid], part.length < 2 ^ 32 := by
    simp only [List.mem_cons, List.not_mem_nil, or_false]
    rintro part (rfl | rfl | rfl | rfl) <;> assumption
  have hroom : w.TableFits map.entries.card := by
    cases w with
    | w32 => exact htable rfl
    | w64 => exact PointerWidth.tableFits_w64 hmap.count
  refine ⟨?_, fun c hc => hc.exportState, ?_, ?_, fun p hp hne => ?_, fun p hp hne => ?_⟩
  · rw [hmap.deserializeStorageOn_eq hroom (List.prefix_refl _), hmap.deserializeStorage]
  · have hread := Prefixed.readSections_put hparts
      (MlsError.openMls "truncated state blob (length)")
      (MlsError.openMls "truncated state blob (body)") []
    rwa [List.append_nil] at hread
  · simp only [restoreState, rebuild, container, List.flatMap_cons, take_put hstorage,
      take_put hsigner, take_put hidentity, take_put hgid, bind, Except.bind]
  · rw [hmap.deserializeStorageOn_eq hroom hp, hmap.deserializeStorage_prefix hp hne]
  · obtain ⟨e, he⟩ := Prefixed.readSections_prefix hparts
      (MlsError.openMls "truncated state blob (length)")
      (MlsError.openMls "truncated state blob (body)") hp hne
    exact ⟨e, he, restoreState_of_sections_error he⟩

end MemberContext

/-- One entry on a 32-bit target, and the state of the founding member that lost its last byte. -/
theorem state_blobs_decode_exactly_cut :
    let map : Prefixed.ByteMap := Finmap.singleton [1] [2, 3]
    let blob : Bytes := [14, 0, 0, 0, 1, 0, 0, 0, 1, 0, 0, 0, 103, 1, 0, 0, 0, 0, 1, 0, 0, 0, 5, 1,
      0, 0, 0, 6, 1, 0, 0, 0, 103]
    deserializeStorageOn .w32 (serializeStorage map) = some (.ok map) ∧
      LoggedGroup.member.exportState = .ok blob ∧
      ∃ e, MemberContext.sections blob.dropLast = .error e := by
  intro map blob
  have hmap : StorageFits map := by
    refine ⟨by decide, fun entry hentry => ?_⟩
    have heq : entry = ⟨[1], [2, 3]⟩ := Multiset.mem_singleton.mp hentry
    rw [heq]
    decide
  have hiter : (HashMapIter.iter (MlsStorage.storage LoggedGroup.member.group)).entries =
      [⟨[103], [0]⟩] := by
    apply Multiset.coe_eq_singleton.mp
    rw [iter_entries]
    rfl
  have hholds : LoggedGroup.member.Holds [1, 0, 0, 0, 1, 0, 0, 0, 103, 1, 0, 0, 0, 0] [5] [6]
      [103] := by
    refine ⟨?_, rfl, rfl, rfl⟩
    rw [serializeStorage, hiter]
    decide
  have h := MemberContext.state_blobs_decode_exactly (G := LoggedGroup) (C := LoggedCommit)
    (K := Bytes) .w32 map hmap (by decide +kernel) [1, 0, 0, 0, 1, 0, 0, 0, 103, 1, 0, 0, 0, 0]
    [5] [6] [103] (by decide) (by decide) (by decide) (by decide)
  obtain ⟨e, he, -⟩ := h.2.2.2.2.2 blob.dropLast (List.dropLast_prefix blob) (by decide)
  exact ⟨h.1, h.2.1 _ hholds, e, he⟩

end GroupProtocol
