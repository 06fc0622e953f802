import Mathlib.Data.Finmap
import GroupProtocol.Lib.BigEndian

/-!
# Length-prefixed sections

A section is its length in four little-endian bytes and then its content. Reading
moves a cursor over the remaining bytes and fails with an error of the caller's choice
when too few are left. A section shorter than `2 ^ 32` is read back exactly, whatever
follows it.
-/

namespace GroupProtocol

/-- The `k` low little-endian bytes of `n`. -/
def leBytes (k n : ℕ) : List UInt8 := (beBytes k n).reverse

/-- The number written in little-endian bytes. -/
def leNat (bytes : List UInt8) : ℕ := beNat 0 bytes.reverse

@[simp] theorem length_leBytes (k n : ℕ) : (leBytes k n).length = k := by
  rw [leBytes, List.length_reverse, length_beBytes]

theorem leNat_leBytes {k n : ℕ} (h : n < 256 ^ k) : leNat (leBytes k n) = n := by
  rw [leNat, leBytes, List.reverse_reverse, beNat_beBytes, Nat.zero_mul, Nat.zero_add,
    Nat.mod_eq_of_lt h]

namespace Prefixed

variable {ε : Type}

/-- The section of a content. Only the low thirty-two bits of its length are written. -/
def put (part : List UInt8) : List UInt8 := leBytes 4 part.length ++ part

/-- Reads a four-byte length and the bytes after it. -/
def readU32 (short : ε) (cur : List UInt8) : Except ε (ℕ × List UInt8) :=
  if cur.length < 4 then .error short else .ok (leNat (cur.take 4), cur.drop 4)

/-- Reads a content of a known length. -/
def readBytes (short : ε) (len : ℕ) (cur : List UInt8) : Except ε (List UInt8 × List UInt8) :=
  if cur.length < len then .error short else .ok (cur.take len, cur.drop len)

/-- Reads a section, with one error for its length and one for its content. -/
def read (shortLength shortBody : ε) (cur : List UInt8) : Except ε (List UInt8 × List UInt8) :=
  match readU32 shortLength cur with
  | .error e => .error e
  | .ok (len, cur) => readBytes shortBody len cur

@[simp] theorem length_put (part : List UInt8) : (put part).length = 4 + part.length := by
  rw [put, List.length_append, length_leBytes]

theorem readU32_leBytes {n : ℕ} (h : n < 2 ^ 32) (short : ε) (rest : List UInt8) :
    readU32 short (leBytes 4 n ++ rest) = .ok (n, rest) := by
  have hlen : ¬(leBytes 4 n ++ rest).length < 4 := by
    rw [List.length_append, length_leBytes]
    omega
  rw [readU32, if_neg hlen, List.take_left' (length_leBytes 4 n),
    List.drop_left' (length_leBytes 4 n), leNat_leBytes h]

theorem readBytes_append (short : ε) (part rest : List UInt8) :
    readBytes short part.length (part ++ rest) = .ok (part, rest) := by
  have hlen : ¬(part ++ rest).length < part.length := by
    rw [List.length_append]
    omega
  rw [readBytes, if_neg hlen, List.take_left, List.drop_left]

/-- A section that fits its prefix is read back, and the bytes after it remain. -/
theorem read_put {part : List UInt8} (h : part.length < 2 ^ 32) (shortLength shortBody : ε)
    (rest : List UInt8) :
    read shortLength shortBody (put part ++ rest) = .ok (part, rest) := by
  rw [put, List.append_assoc]
  simp only [read, readU32_leBytes h]
  exact readBytes_append shortBody part rest

/-- A prefix of two parts ends inside the first one or goes on into the second. -/
theorem prefix_append_cases {α : Type} {p a b : List α} (h : p <+: a ++ b) :
    p <+: a ∧ p.length < a.length ∨ ∃ q, p = a ++ q ∧ q <+: b := by
  obtain ⟨t, ht⟩ := h
  rcases List.append_eq_append_iff.mp ht with ⟨c, ha, -⟩ | ⟨q, hp, hb⟩
  · cases c with
    | nil => exact .inr ⟨[], by rw [ha, List.append_nil, List.append_nil], List.nil_prefix⟩
    | cons x c =>
        refine .inl ⟨⟨x :: c, ha.symm⟩, ?_⟩
        rw [ha, List.length_append, List.length_cons]
        omega
  · exact .inr ⟨q, hp, ⟨t, hb.symm⟩⟩

/-- Where a prefix of a section and what follows it can end: inside the length, inside the
content, or behind it. -/
theorem prefix_put_cases {p part rest : List UInt8} (h : p <+: put part ++ rest) :
    p.length < 4 ∨
      (∃ body, p = leBytes 4 part.length ++ body ∧ body.length < part.length) ∨
      ∃ q, p = put part ++ q ∧ q <+: rest := by
  rw [put, List.append_assoc] at h
  rcases prefix_append_cases h with ⟨-, hshort⟩ | ⟨body, rfl, hbody⟩
  · rw [length_leBytes] at hshort
    exact .inl hshort
  · rcases prefix_append_cases hbody with ⟨-, hshort⟩ | ⟨q, rfl, hq⟩
    · exact .inr (.inl ⟨body, rfl, hshort⟩)
    · refine .inr (.inr ⟨q, ?_, hq⟩)
      rw [put, List.append_assoc]

/-- Cut inside a section, reading it fails; cut behind it, reading goes on. -/
theorem read_prefix {part : List UInt8} (h : part.length < 2 ^ 32) (shortLength shortBody : ε)
    {p rest : List UInt8} (hp : p <+: put part ++ rest) (hne : p ≠ put part ++ rest) :
    (read shortLength shortBody p = .error shortLength ∨
        read shortLength shortBody p = .error shortBody) ∨
      ∃ q, read shortLength shortBody p = .ok (part, q) ∧ q <+: rest ∧ q ≠ rest := by
  rcases prefix_put_cases hp with hshort | ⟨body, rfl, hshort⟩ | ⟨q, rfl, hq⟩
  · refine .inl (.inl ?_)
    rw [read, readU32, if_pos hshort]
  · refine .inl (.inr ?_)
    rw [read, readU32_leBytes h]
    exact if_pos hshort
  · refine .inr ⟨q, read_put h shortLength shortBody q, hq, ?_⟩
    rintro rfl
    exact hne rfl

/-- Reads a number of sections. -/
def readSections (shortLength shortBody : ε) : ℕ → List UInt8 →
    Except ε (List (List UInt8) × List UInt8)
  | 0, cur => .ok ([], cur)
  | count + 1, cur =>
    match read shortLength shortBody cur with
    | .error e => .error e
    | .ok (part, cur) =>
      match readSections shortLength shortBody count cur with
      | .error e => .error e
      | .ok (parts, cur) => .ok (part :: parts, cur)

/-- Reading sections fails at the first one or behind it. -/
theorem readSections_error {shortLength shortBody : ε} {count : ℕ} {cur : List UInt8} {e : ε}
    (h : readSections shortLength shortBody (count + 1) cur = .error e) :
    read shortLength shortBody cur = .error e ∨
      ∃ part rest, read shortLength shortBody cur = .ok (part, rest) ∧
        readSections shortLength shortBody count rest = .error e := by
  rw [readSections] at h
  cases hread : read shortLength shortBody cur with
  | error e₁ =>
      rw [hread] at h
      cases h
      exact .inl rfl
  | ok next =>
      rw [hread] at h
      refine .inr ⟨next.1, next.2, rfl, ?_⟩
      dsimp only at h
      cases hrest : readSections shortLength shortBody count next.2 with
      | error e₂ =>
          rw [hrest] at h
          exact h
      | ok parts =>
          rw [hrest] at h
          cases h

/-- Sections that fit their prefixes are read back one by one. -/
theorem readSections_put {parts : List (List UInt8)} (h : ∀ part ∈ parts, part.length < 2 ^ 32)
    (shortLength shortBody : ε) (rest : List UInt8) :
    readSections shortLength shortBody parts.length (parts.flatMap put ++ rest) =
      .ok (parts, rest) := by
  induction parts with
  | nil => rfl
  | cons part parts ih =>
      rw [List.flatMap_cons, List.append_assoc, List.length_cons, readSections,
        read_put (h part (List.mem_cons_self ..))]
      simp only
      rw [ih fun other hother => h other (List.mem_cons_of_mem part hother)]

/-- Cut anywhere, reading the sections fails. -/
theorem readSections_prefix {parts : List (List UInt8)} (h : ∀ part ∈ parts, part.length < 2 ^ 32)
    (shortLength shortBody : ε) {p : List UInt8} (hp : p <+: parts.flatMap put)
    (hne : p ≠ parts.flatMap put) :
    ∃ e, readSections shortLength shortBody parts.length p = .error e := by
  induction parts generalizing p with
  | nil => exact absurd (List.prefix_nil.mp hp) hne
  | cons part parts ih =>
      have hpart := h part (List.mem_cons_self ..)
      rw [List.flatMap_cons] at hp hne
      rw [List.length_cons, readSections]
      rcases read_prefix hpart shortLength shortBody hp hne with
        (hread | hread) | ⟨q, hread, hq, hqne⟩
      · exact ⟨shortLength, by rw [hread]⟩
      · exact ⟨shortBody, by rw [hread]⟩
      · obtain ⟨e, he⟩ := ih (fun other hother => h other (List.mem_cons_of_mem part hother)) hq hqne
        exact ⟨e, by rw [hread]; simp only [he]⟩

section Records

variable (short : ε)

/-- A map of byte strings. -/
abbrev ByteMap := Finmap fun _ : List UInt8 => List UInt8

/-- The records of a list of entries: each key and each value as a section. -/
def putRecords (entries : List (Σ _ : List UInt8, List UInt8)) : List UInt8 :=
  entries.flatMap fun entry => put entry.1 ++ put entry.2

/-- Reads a number of records into a map; a repeated key keeps its last value. -/
def readRecords : ℕ → ByteMap → List UInt8 → Except ε ByteMap
  | 0, map, _ => .ok map
  | count + 1, map, cur =>
    match read short short cur with
    | .error e => .error e
    | .ok (key, cur) =>
      match read short short cur with
      | .error e => .error e
      | .ok (value, cur) => readRecords count (map.insert key value) cur

/-- The number of bytes of one record. -/
def recordSize (entry : Σ _ : List UInt8, List UInt8) : ℕ :=
  8 + entry.1.length + entry.2.length

theorem length_putRecords (entries : List (Σ _ : List UInt8, List UInt8)) :
    (putRecords entries).length = (entries.map recordSize).sum := by
  induction entries with
  | nil => rfl
  | cons entry entries ih =>
      rw [putRecords, List.flatMap_cons, List.length_append, ← putRecords, ih, List.map_cons,
        List.sum_cons, List.length_append, length_put, length_put, recordSize]
      omega

/-- Every key and every value fits its prefix. -/
def RecordsFit (entries : List (Σ _ : List UInt8, List UInt8)) : Prop :=
  ∀ entry ∈ entries, entry.1.length < 2 ^ 32 ∧ entry.2.length < 2 ^ 32

theorem putRecords_cons (entry : Σ _ : List UInt8, List UInt8)
    (entries : List (Σ _ : List UInt8, List UInt8)) :
    putRecords (entry :: entries) = put entry.1 ++ (put entry.2 ++ putRecords entries) := by
  rw [putRecords, List.flatMap_cons, List.append_assoc, ← putRecords]

/-- Fitting records with distinct keys, all new to the map, are read back into it. -/
theorem readRecords_of_fit {entries : List (Σ _ : List UInt8, List UInt8)}
    (hfit : RecordsFit entries) (hnodup : entries.NodupKeys) (map : ByteMap)
    (hnew : ∀ key ∈ entries.keys, key ∉ map) (rest : List UInt8) :
    ∃ read, readRecords short entries.length map (putRecords entries ++ rest) = .ok read ∧
      read.entries = ↑entries + map.entries := by
  induction entries generalizing map with
  | nil => exact ⟨map, rfl, (zero_add _).symm⟩
  | cons entry entries ih =>
      obtain ⟨key, value⟩ := entry
      obtain ⟨hkeyLen, hvalueLen⟩ := hfit ⟨key, value⟩ (List.mem_cons_self ..)
      rw [List.nodupKeys_cons] at hnodup
      have hkey : key ∉ map := hnew key (List.mem_cons_self ..)
      obtain ⟨read, hread, hentries⟩ := ih
        (fun entry hentry => hfit entry (List.mem_cons_of_mem _ hentry)) hnodup.2
        (map.insert key value) fun other hother hmem => by
          rcases Finmap.mem_insert.mp hmem with rfl | hold
          · exact hnodup.1 hother
          · exact hnew other (List.mem_cons_of_mem key hother) hold
      refine ⟨read, ?_, ?_⟩
      · rw [putRecords_cons, List.append_assoc, List.append_assoc, List.length_cons, readRecords,
          read_put hkeyLen]
        simp only
        rw [read_put hvalueLen]
        exact hread
      · rw [hentries, Finmap.entries_insert_of_notMem hkey, Multiset.add_cons,
          ← Multiset.cons_coe, Multiset.cons_add]

/-- Cut anywhere, reading the records fails. -/
theorem readRecords_prefix {entries : List (Σ _ : List UInt8, List UInt8)}
    (hfit : RecordsFit entries) (map : ByteMap) {p : List UInt8} (hp : p <+: putRecords entries)
    (hne : p ≠ putRecords entries) :
    readRecords short entries.length map p = .error short := by
  induction entries generalizing map p with
  | nil => exact absurd (List.prefix_nil.mp hp) hne
  | cons entry entries ih =>
      obtain ⟨hkeyLen, hvalueLen⟩ := hfit entry (List.mem_cons_self ..)
      rw [putRecords_cons] at hp hne
      rw [List.length_cons, readRecords]
      rcases read_prefix hkeyLen short short hp hne with (hkey | hkey) | ⟨q, hkey, hq, hqne⟩
      · rw [hkey]
      · rw [hkey]
      · rw [hkey]
        simp only
        rcases read_prefix hvalueLen short short hq hqne with
          (hvalue | hvalue) | ⟨r, hvalue, hr, hrne⟩
        · rw [hvalue]
        · rw [hvalue]
        · rw [hvalue]
          exact ih (fun other hother => hfit other (List.mem_cons_of_mem entry hother)) _ hr hrne

end Records

end Prefixed

end GroupProtocol
