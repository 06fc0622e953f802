import GroupProtocol.Lib.Machine
import GroupProtocol.SFrame.Encryptor

/-!
# Encryptor handles over the foreign interface

Threads create, free and use encryptor handles. A call is a few critical sections and other
threads may run between them: a creation looks up the shared encryptor of its leaf, and only
if there is none derives a session, stores a new encryptor and registers it in a second
section.
-/

namespace GroupProtocol

open Dispenser SFrameHeader

/-- A table of handles: the next id and what each live id stands for. -/
structure Registry (V : Type) where
  next : Int32
  map : AList fun _ : Int32 => V

namespace Registry

variable {V : Type}

/-- An empty table; ids start at one. -/
def new : Registry V := ⟨1, ∅⟩

/-- Registers a value under the next id, which wraps around. -/
def insert (r : Registry V) (v : V) : Int32 × Registry V :=
  (r.next, ⟨r.next + 1, r.map.insert r.next v⟩)

/-- Forgets an id. -/
def remove (r : Registry V) (id : Int32) : Registry V := { r with map := r.map.erase id }

/-- The value of an id. -/
def get (r : Registry V) (id : Int32) : Option V := r.map.lookup id

@[simp] theorem get_insert (r : Registry V) (v : V) : (r.insert v).2.get (r.insert v).1 = some v :=
  AList.lookup_insert r.map

end Registry

/-- The tables of the interface that encryptor calls read and write: group contexts, live
session handles, encryptor handles, the shared encryptor of each session and leaf, and the
cells behind them. -/
structure Ffi (G S K C : Type) where
  mls : Registry (MlsContext G S)
  sessions : List Int32
  encryptors : Registry SFrameEncryptor
  bySessionLeaf : AList fun _ : Int32 × UInt32 => SFrameEncryptor
  cells : Cells K C

/-- What a call returns; a failure carries the text of the last error. -/
inductive FfiReply
  | handle (id : Int32)
  | buffer (payload : Bytes)
  | freed
  | failed (lastError : String)
  | panicked
  deriving DecidableEq, Repr

/-- The encryptor calls. -/
inductive FfiCall
  | encryptorCreate (mlsHandle sessionHandle : Int32) (leafIndex : UInt32) (suite : UInt8)
      (label : String)
  | encryptorFree (handle : Int32)
  | encrypt (encHandle : Int32) (plaintext aad : Bytes)
  deriving DecidableEq, Repr

/-- The second section of a call, with what the first one found. -/
inductive Pending
  | create (mlsHandle sessionHandle : Int32) (leafIndex : UInt32) (suite : CipherSuite)
      (label : String)
  | encrypt (enc : SFrameEncryptor) (plaintext aad : Bytes)
  deriving DecidableEq, Repr

namespace Ffi

variable {G S K C : Type} [OpenMls G S] [MlsKeyId] [MonotonicCounter C] [EncryptionKey K]

/-- The first section of a creation: a shared encryptor is registered again. -/
def encryptorLookup (f : Ffi G S K C) (mlsHandle sessionHandle : Int32) (leafIndex : UInt32)
    (suite : UInt8) (label : String) : (FfiReply ⊕ Pending) × Ffi G S K C :=
  match CipherSuite.fromU8 suite with
  | none => (.inl (.failed s!"unknown ciphersuite {suite}"), f)
  | some suite =>
    if sessionHandle ∉ f.sessions then (.inl (.failed "invalid session handle"), f)
    else
      match f.bySessionLeaf.lookup (sessionHandle, leafIndex) with
      | some existing =>
        let r := f.encryptors.insert existing
        (.inl (.handle r.1), { f with encryptors := r.2 })
      | none => (.inr (.create mlsHandle sessionHandle leafIndex suite label), f)

/-- The second section of a creation: a new session makes the encryptor, which is stored over
any entry of its leaf. -/
def encryptorDerive (f : Ffi G S K C) (mlsHandle sessionHandle : Int32) (leafIndex : UInt32)
    (suite : CipherSuite) (label : String) : FfiReply × Ffi G S K C :=
  match f.mls.get mlsHandle with
  | none => (.failed "invalid MLS handle", f)
  | some mls =>
    match SFrameSession.fromMls mls label suite with
    | none => (.panicked, f)
    | some (.error e) => (.failed e.display, f)
    | some (.ok session) =>
      let r := session.encryptor f.cells leafIndex
      let reg := f.encryptors.insert r.1
      (.handle reg.1,
        { f with
          encryptors := reg.2
          bySessionLeaf := f.bySessionLeaf.insert (sessionHandle, leafIndex) r.1
          cells := r.2.2 })

/-- The first section of a call: its reply, or what is left to do. -/
def enter (f : Ffi G S K C) : FfiCall → (FfiReply ⊕ Pending) × Ffi G S K C
  | .encryptorCreate mlsHandle sessionHandle leafIndex suite label =>
    f.encryptorLookup mlsHandle sessionHandle leafIndex suite label
  | .encryptorFree handle => (.inl .freed, { f with encryptors := f.encryptors.remove handle })
  | .encrypt encHandle plaintext aad =>
    match f.encryptors.get encHandle with
    | none => (.inl (.failed "invalid encryptor handle"), f)
    | some enc => (.inr (.encrypt enc plaintext aad), f)

/-- The second section of a call. -/
def finish (f : Ffi G S K C) : Pending → FfiReply × Ffi G S K C
  | .create mlsHandle sessionHandle leafIndex suite label =>
    f.encryptorDerive mlsHandle sessionHandle leafIndex suite label
  | .encrypt enc plaintext aad =>
    let r := enc.encrypt f.cells plaintext aad
    let f := { f with cells := r.2 }
    match r.1 with
    | none => (.panicked, f)
    | some (.ok payload) => (.buffer payload, f)
    | some (.error e) => (.failed e.display, f)

/-- The encryptor behind the handle of a reply. -/
def behind (f : Ffi G S K C) : FfiReply → Option SFrameEncryptor
  | .handle id => f.encryptors.get id
  | .buffer _ => none
  | .freed => none
  | .failed _ => none
  | .panicked => none

end Ffi

/-- The interface and the calls its threads are in. -/
structure FfiThreads (ι G S K C : Type) where
  ffi : Ffi G S K C
  pending : ι → Option Pending

/-- A thread enters a call, or runs the second section of the call it is in. -/
inductive FfiStep (ι : Type)
  | call (thread : ι) (c : FfiCall)
  | resume (thread : ι)
  deriving DecidableEq, Repr

namespace FfiThreads

section Runs

variable {ι G S K C : Type} [OpenMls G S] [MlsKeyId] [MonotonicCounter C] [EncryptionKey K]

/-- A process with some group contexts and sessions and no encryptor yet. -/
def start (mls : Registry (MlsContext G S)) (sessions : List Int32) : FfiThreads ι G S K C :=
  ⟨⟨mls, sessions, .new, ∅, []⟩, fun _ => none⟩

/-- The state after a step; a thread inside a call enters no other. -/
def step [DecidableEq ι] (w : FfiThreads ι G S K C) : FfiStep ι → FfiThreads ι G S K C
  | .call thread c =>
    match w.pending thread with
    | some _ => w
    | none =>
      match w.ffi.enter c with
      | (.inl _, f) => { w with ffi := f }
      | (.inr p, f) => ⟨f, Function.update w.pending thread (some p)⟩
  | .resume thread =>
    match w.pending thread with
    | none => w
    | some p => ⟨(w.ffi.finish p).2, Function.update w.pending thread none⟩

/-- The encryptor a creation returns a handle to, under its session and leaf. -/
def issued (w : FfiThreads ι G S K C) : FfiStep ι → List ((Int32 × UInt32) × SFrameEncryptor)
  | .call thread c =>
    match w.pending thread, c with
    | none, .encryptorCreate mlsHandle sessionHandle leafIndex suite label =>
      match w.ffi.encryptorLookup mlsHandle sessionHandle leafIndex suite label with
      | (.inl reply, f) => (f.behind reply).toList.map fun e => ((sessionHandle, leafIndex), e)
      | (.inr _, _) => []
    | _, _ => []
  | .resume thread =>
    match w.pending thread with
    | some (.create mlsHandle sessionHandle leafIndex suite label) =>
      let r := w.ffi.encryptorDerive mlsHandle sessionHandle leafIndex suite label
      (r.2.behind r.1).toList.map fun e => ((sessionHandle, leafIndex), e)
    | _ => []

/-- The key id and counter of the frame a successful encrypt call returns. All keys of a run
with one context, label and suite come from one base key. -/
def nonces (w : FfiThreads ι G S K C) : FfiStep ι → List (KeyId × UInt64)
  | .call _ _ => []
  | .resume thread =>
    match w.pending thread with
    | some (.encrypt enc plaintext aad) => (enc.nonce w.ffi.cells plaintext aad).toList
    | _ => []

/-- No creation runs its second section after another one has stored an encryptor for its
session and leaf. -/
def Unraced (w : FfiThreads ι G S K C) : FfiStep ι → Prop
  | .call _ _ => True
  | .resume thread =>
    match w.pending thread with
    | some (.create _ sessionHandle leafIndex _ _) =>
      w.ffi.bySessionLeaf.lookup (sessionHandle, leafIndex) = none
    | _ => True

instance (w : FfiThreads ι G S K C) (x : FfiStep ι) : Decidable (w.Unraced x) :=
  match x with
  | .call _ _ => isTrue trivial
  | .resume thread =>
    match h : w.pending thread with
    | some (.create _ sessionHandle leafIndex _ _) =>
      decidable_of_iff (w.ffi.bySessionLeaf.lookup (sessionHandle, leafIndex) = none)
        (by simp only [Unraced, h])
    | some (.encrypt _ _ _) => isTrue (by simp only [Unraced, h])
    | none => isTrue (by simp only [Unraced, h])

/-- Every creation names the session under test with its context, suite and label, and a leaf
below the capacity of the index field. -/
def SameSession (mlsHandle sessionHandle : Int32) (suite : UInt8) (label : String) :
    FfiStep ι → Prop
  | .call _ (.encryptorCreate m s leaf su l) =>
    m = mlsHandle ∧ s = sessionHandle ∧ leaf < 65536 ∧ su = suite ∧ l = label
  | .call _ (.encryptorFree _) => True
  | .call _ (.encrypt _ _ _) => True
  | .resume _ => True

instance (mlsHandle sessionHandle : Int32) (suite : UInt8) (label : String) (x : FfiStep ι) :
    Decidable (SameSession mlsHandle sessionHandle suite label x) :=
  match x with
  | .call _ (.encryptorCreate m s leaf su l) => inferInstanceAs
    (Decidable (m = mlsHandle ∧ s = sessionHandle ∧ leaf < 65536 ∧ su = suite ∧ l = label))
  | .call _ (.encryptorFree _) => isTrue trivial
  | .call _ (.encrypt _ _ _) => isTrue trivial
  | .resume _ => isTrue trivial

omit [MlsKeyId] in
/-- A derived session is new and belongs to the epoch of its context. -/
theorem fromMls_ok {mls : MlsContext G S} {label : String} {suite : CipherSuite}
    {session : SFrameSession} (h : SFrameSession.fromMls mls label suite = some (.ok session)) :
    ∃ base, session = .new base mls.epoch suite := by
  rw [SFrameSession.fromMls] at h
  cases hb : deriveBaseKey mls label mls.epoch with
  | none =>
      rw [hb] at h
      cases h
  | some r =>
      rw [hb] at h
      cases r with
      | error e => cases h
      | ok base =>
          cases h
          exact ⟨base, rfl⟩

/-- A new session makes a new encryptor. -/
theorem new_encryptor (base : BaseKey) (epoch : UInt64) (suite : CipherSuite) (cells : Cells K C)
    (leaf : UInt32) :
    (SFrameSession.new base epoch suite).encryptor cells leaf =
      (⟨cells.length, kidFrom epoch leaf⟩,
        { SFrameSession.new base epoch suite with
          encryptors := (∅ : AList fun _ : UInt32 => SFrameEncryptor).insert leaf
            ⟨cells.length, kidFrom epoch leaf⟩ },
        cells ++ [EncryptorState.fresh base (kidFrom epoch leaf) suite]) := by
  rw [SFrameSession.encryptor]
  simp only [SFrameSession.new, AList.lookup_empty]
  rfl

/-- What the second section of a creation does. -/
theorem encryptorDerive_cases (f : Ffi G S K C) (mlsHandle sessionHandle : Int32)
    (leaf : UInt32) (suite : CipherSuite) (label : String) :
    (∃ mls base, f.mls.get mlsHandle = some mls ∧
      SFrameSession.fromMls mls label suite = some (.ok (.new base mls.epoch suite)) ∧
      ∃ reg, f.encryptorDerive mlsHandle sessionHandle leaf suite label =
        (.handle f.encryptors.next,
          { f with
            encryptors := reg
            bySessionLeaf := f.bySessionLeaf.insert (sessionHandle, leaf)
              ⟨f.cells.length, kidFrom mls.epoch leaf⟩
            cells := f.cells ++ [EncryptorState.fresh base (kidFrom mls.epoch leaf) suite] }) ∧
        reg.get f.encryptors.next = some ⟨f.cells.length, kidFrom mls.epoch leaf⟩) ∨
      ((∀ mls session, f.mls.get mlsHandle = some mls →
        SFrameSession.fromMls mls label suite ≠ some (.ok session)) ∧
        (f.encryptorDerive mlsHandle sessionHandle leaf suite label).2 = f ∧
        f.behind (f.encryptorDerive mlsHandle sessionHandle leaf suite label).1 = none) := by
  rw [Ffi.encryptorDerive]
  cases hmls : f.mls.get mlsHandle with
  | none => exact Or.inr ⟨nofun, rfl, rfl⟩
  | some mls =>
      simp only
      cases hs : SFrameSession.fromMls mls label suite with
      | none =>
          refine Or.inr ⟨?_, rfl, rfl⟩
          rintro _ session ⟨⟩ h
          rw [hs] at h
          cases h
      | some r =>
          cases r with
          | error e =>
              refine Or.inr ⟨?_, rfl, rfl⟩
              rintro _ session ⟨⟩ h
              rw [hs] at h
              cases h
          | ok session =>
              obtain ⟨base, rfl⟩ := fromMls_ok hs
              refine Or.inl ⟨mls, base, rfl, hs, _, ?_, f.encryptors.get_insert _⟩
              simp only [new_encryptor]
              rfl

omit [OpenMls G S] [MlsKeyId] [MonotonicCounter C] [EncryptionKey K] in
/-- What the first section of a creation does: it returns the shared encryptor, or it leaves the
tables alone. -/
theorem encryptorLookup_cases (f : Ffi G S K C) (mlsHandle sessionHandle : Int32)
    (leaf : UInt32) (suite : UInt8) (label : String) :
    (∃ e id reg, f.bySessionLeaf.lookup (sessionHandle, leaf) = some e ∧
      f.encryptorLookup mlsHandle sessionHandle leaf suite label =
        (.inl (.handle id), { f with encryptors := reg }) ∧ reg.get id = some e) ∨
      (∃ suite', CipherSuite.fromU8 suite = some suite' ∧
        f.encryptorLookup mlsHandle sessionHandle leaf suite label =
          (.inr (.create mlsHandle sessionHandle leaf suite' label), f)) ∨
      ∃ text, f.encryptorLookup mlsHandle sessionHandle leaf suite label =
        (.inl (.failed text), f) := by
  rw [Ffi.encryptorLookup]
  cases hsuite : CipherSuite.fromU8 suite with
  | none => exact Or.inr (Or.inr ⟨_, rfl⟩)
  | some suite' =>
      simp only
      by_cases hlive : sessionHandle ∉ f.sessions
      · rw [if_pos hlive]
        exact Or.inr (Or.inr ⟨_, rfl⟩)
      · rw [if_neg hlive]
        cases hfound : f.bySessionLeaf.lookup (sessionHandle, leaf) with
        | none => exact Or.inr (Or.inl ⟨suite', rfl, rfl⟩)
        | some e => exact Or.inl ⟨e, _, _, rfl, rfl, f.encryptors.get_insert e⟩

omit [OpenMls G S] [MlsKeyId] [MonotonicCounter C] [EncryptionKey K] in
/-- The first section of a call changes only the table of encryptor handles. -/
theorem enter_tables (f : Ffi G S K C) (c : FfiCall) :
    ∃ reg, (f.enter c).2 = { f with encryptors := reg } := by
  cases c with
  | encryptorCreate mlsHandle sessionHandle leaf suite label =>
      rw [Ffi.enter]
      rcases encryptorLookup_cases f mlsHandle sessionHandle leaf suite label with
        ⟨e, id, reg, -, heq, -⟩ | ⟨suite', -, heq⟩ | ⟨text, heq⟩
      · exact ⟨reg, by rw [heq]⟩
      · exact ⟨f.encryptors, by rw [heq]⟩
      · exact ⟨f.encryptors, by rw [heq]⟩
  | encryptorFree handle => exact ⟨_, rfl⟩
  | encrypt encHandle plaintext aad =>
      refine ⟨f.encryptors, ?_⟩
      rw [Ffi.enter]
      cases f.encryptors.get encHandle <;> rfl

/-- A first section issues only what the directory holds. -/
theorem issued_call (w : FfiThreads ι G S K C) (thread : ι) (c : FfiCall) :
    ∀ p ∈ w.issued (.call thread c), w.ffi.bySessionLeaf.lookup p.1 = some p.2 := by
  intro p hmem
  cases hp : w.pending thread with
  | some q => simp [issued, hp] at hmem
  | none =>
      cases c with
      | encryptorFree handle => simp [issued, hp] at hmem
      | encrypt encHandle plaintext aad => simp [issued, hp] at hmem
      | encryptorCreate mlsHandle sessionHandle leaf suite label =>
          rcases encryptorLookup_cases w.ffi mlsHandle sessionHandle leaf suite label with
            ⟨e, id, reg, hfound, heq, hget⟩ | ⟨suite', -, heq⟩ | ⟨text, heq⟩
          · simp only [issued, hp, heq, Ffi.behind, hget, Option.toList_some,
              List.map_singleton, List.mem_singleton] at hmem
            subst hmem
            exact hfound
          · simp [issued, hp, heq] at hmem
          · simp [issued, hp, heq, Ffi.behind] at hmem

variable [DecidableEq ι]

theorem step_call (w : FfiThreads ι G S K C) (thread : ι) (c : FfiCall) :
    ∃ reg, (w.step (.call thread c)).ffi = { w.ffi with encryptors := reg } := by
  obtain ⟨reg, hreg⟩ := enter_tables w.ffi c
  rw [step]
  cases w.pending thread with
  | some p => exact ⟨_, rfl⟩
  | none =>
      refine ⟨reg, ?_⟩
      simp only
      match h : w.ffi.enter c with
      | (.inl reply, f) =>
          rw [h] at hreg
          exact hreg
      | (.inr p, f) =>
          rw [h] at hreg
          exact hreg

/-- What a step does to the shared encryptors and cells: nothing, an encryption in one cell, or
the creation of a new encryptor over any entry of its leaf. -/
theorem step_cases (w : FfiThreads ι G S K C) (x : FfiStep ι) :
    ((w.step x).ffi.bySessionLeaf = w.ffi.bySessionLeaf ∧ (w.step x).ffi.cells = w.ffi.cells ∧
        w.nonces x = [] ∧
        ∀ p ∈ w.issued x, w.ffi.bySessionLeaf.lookup p.1 = some p.2) ∨
      (∃ (e : SFrameEncryptor) (plaintext aad : Bytes), (w.step x).ffi.bySessionLeaf = w.ffi.bySessionLeaf ∧
        (w.step x).ffi.cells = (e.encrypt w.ffi.cells plaintext aad).2 ∧
        w.nonces x = (e.nonce w.ffi.cells plaintext aad).toList ∧ w.issued x = []) ∨
      ∃ thread mlsHandle sessionHandle leaf suite label mls base e,
        x = .resume thread ∧
        w.pending thread = some (.create mlsHandle sessionHandle leaf suite label) ∧
        w.ffi.mls.get mlsHandle = some mls ∧
        SFrameSession.fromMls mls label suite = some (.ok (.new base mls.epoch suite)) ∧
        e = ⟨w.ffi.cells.length, kidFrom mls.epoch leaf⟩ ∧
        (w.step x).ffi.bySessionLeaf = w.ffi.bySessionLeaf.insert (sessionHandle, leaf) e ∧
        (w.step x).ffi.cells = w.ffi.cells ++ [EncryptorState.fresh base e.kid suite] ∧
        w.nonces x = [] ∧ w.issued x = [((sessionHandle, leaf), e)] := by
  cases x with
  | call thread c =>
      left
      obtain ⟨reg, hreg⟩ := step_call w thread c
      rw [hreg]
      exact ⟨rfl, rfl, rfl, issued_call w thread c⟩
  | resume thread =>
      cases hp : w.pending thread with
      | none =>
          left
          simp [step, issued, nonces, hp]
      | some p =>
          cases p with
          | encrypt e plaintext aad =>
              right; left
              refine ⟨e, plaintext, aad, ?_⟩
              simp only [step, issued, nonces, hp, Ffi.finish]
              cases (e.encrypt w.ffi.cells plaintext aad).1 with
              | none => exact ⟨rfl, rfl, trivial, trivial⟩
              | some r => cases r <;> exact ⟨rfl, rfl, trivial, trivial⟩
          | create mlsHandle sessionHandle leaf suite label =>
              rcases encryptorDerive_cases w.ffi mlsHandle sessionHandle leaf suite label with
                ⟨mls, base, hmls, hsession, reg, heq, hget⟩ | ⟨-, hsame, hnone⟩
              · right; right
                refine ⟨thread, mlsHandle, sessionHandle, leaf, suite, label, mls, base, _, rfl, hp,
                  hmls, hsession, rfl, ?_⟩
                simp [step, issued, nonces, hp, Ffi.finish, heq, Ffi.behind, hget]
              · left
                simp [step, issued, nonces, hp, Ffi.finish, hsame, hnone]

omit [DecidableEq ι] in
theorem finish_mls (f : Ffi G S K C) (p : Pending) : (f.finish p).2.mls = f.mls := by
  cases p with
  | encrypt e plaintext aad =>
      rw [Ffi.finish]
      cases (e.encrypt f.cells plaintext aad).1 with
      | none => rfl
      | some r => cases r <;> rfl
  | create mlsHandle sessionHandle leaf suite label =>
      rw [Ffi.finish]
      rcases encryptorDerive_cases f mlsHandle sessionHandle leaf suite label with
        ⟨mls, base, -, -, reg, heq, -⟩ | ⟨-, hsame, -⟩
      · rw [heq]
      · rw [hsame]

/-- No step touches the group contexts. -/
theorem step_mls (w : FfiThreads ι G S K C) (x : FfiStep ι) : (w.step x).ffi.mls = w.ffi.mls := by
  cases x with
  | call thread c =>
      obtain ⟨reg, hreg⟩ := step_call w thread c
      rw [hreg]
  | resume thread =>
      rw [step]
      cases w.pending thread with
      | none => rfl
      | some p => exact finish_mls w.ffi p

omit [OpenMls G S] [MlsKeyId] [MonotonicCounter C] [EncryptionKey K] [DecidableEq ι] in
/-- Only a creation whose lookup finds no entry is left to create one. -/
theorem enter_create {f : Ffi G S K C} {c : FfiCall} {mlsHandle sessionHandle : Int32}
    {leaf : UInt32} {suite : CipherSuite} {label : String}
    (h : (f.enter c).1 = .inr (.create mlsHandle sessionHandle leaf suite label)) :
    ∃ suite', CipherSuite.fromU8 suite' = some suite ∧
      c = .encryptorCreate mlsHandle sessionHandle leaf suite' label := by
  cases c with
  | encryptorCreate m s leaf' suite' l =>
      rw [Ffi.enter] at h
      rcases encryptorLookup_cases f m s leaf' suite' l with
        ⟨e, id, reg, -, heq, -⟩ | ⟨su, hsuite, heq⟩ | ⟨text, heq⟩
      · rw [heq] at h
        cases h
      · rw [heq] at h
        cases h
        exact ⟨suite', hsuite, rfl⟩
      · rw [heq] at h
        cases h
  | encryptorFree handle => cases h
  | encrypt encHandle plaintext aad =>
      rw [Ffi.enter] at h
      cases he : f.encryptors.get encHandle with
      | none =>
          rw [he] at h
          cases h
      | some e =>
          rw [he] at h
          cases h

/-- A creation waits for its second section only after its first one. -/
theorem step_pending (w : FfiThreads ι G S K C) (x : FfiStep ι) {thread : ι}
    {mlsHandle sessionHandle : Int32} {leaf : UInt32} {suite : CipherSuite} {label : String}
    (h : (w.step x).pending thread = some (.create mlsHandle sessionHandle leaf suite label)) :
    w.pending thread = some (.create mlsHandle sessionHandle leaf suite label) ∨
      ∃ suite', CipherSuite.fromU8 suite' = some suite ∧
        x = .call thread (.encryptorCreate mlsHandle sessionHandle leaf suite' label) := by
  cases x with
  | call thread' c =>
      cases hp : w.pending thread' with
      | some p =>
          simp only [step, hp] at h
          exact Or.inl h
      | none =>
          simp only [step, hp] at h
          match henter : w.ffi.enter c with
          | (.inl reply, f) =>
              rw [henter] at h
              exact Or.inl h
          | (.inr p, f) =>
              rw [henter] at h
              by_cases ht : thread = thread'
              · subst ht
                simp only [Function.update_self, Option.some.injEq] at h
                subst h
                obtain ⟨suite', hsuite, rfl⟩ := enter_create (congrArg Prod.fst henter)
                exact Or.inr ⟨suite', hsuite, rfl⟩
              · simp only [Function.update_of_ne ht] at h
                exact Or.inl h
  | resume thread' =>
      cases hp : w.pending thread' with
      | none =>
          simp only [step, hp] at h
          exact Or.inl h
      | some p =>
          simp only [step, hp] at h
          by_cases ht : thread = thread'
          · subst ht
            rw [Function.update_self] at h
            cases h
          · rw [Function.update_of_ne ht] at h
            exact Or.inl h

/-- The context is the given one, and every creation in its second section is one of the
session under test. -/
structure Scoped (mls : Registry (MlsContext G S)) (mlsHandle sessionHandle : Int32)
    (suite : UInt8) (label : String) (w : FfiThreads ι G S K C) : Prop where
  context : w.ffi.mls = mls
  creations : ∀ thread m s leaf su l, w.pending thread = some (.create m s leaf su l) →
    m = mlsHandle ∧ s = sessionHandle ∧ leaf < 65536 ∧ CipherSuite.fromU8 suite = some su ∧
      l = label

theorem step_scoped {mls : Registry (MlsContext G S)} {mlsHandle sessionHandle : Int32}
    {suite : UInt8} {label : String} {w : FfiThreads ι G S K C}
    (h : Scoped mls mlsHandle sessionHandle suite label w) {x : FfiStep ι}
    (hx : SameSession mlsHandle sessionHandle suite label x) :
    Scoped mls mlsHandle sessionHandle suite label (w.step x) := by
  refine ⟨(step_mls w x).trans h.context, fun thread m s leaf su l hp => ?_⟩
  rcases step_pending w x hp with hp | ⟨suite', hsuite, rfl⟩
  · exact h.creations thread m s leaf su l hp
  · obtain ⟨hm, hs, hleaf, rfl, hl⟩ := hx
    exact ⟨hm, hs, hleaf, hsuite, hl⟩

/-- The epoch of the context a handle stands for. -/
def epochOf (mls : Registry (MlsContext G S)) (mlsHandle : Int32) : UInt64 :=
  ((mls.get mlsHandle).map MlsContext.epoch).getD 0

omit [MlsKeyId] [MonotonicCounter C] [EncryptionKey K] [DecidableEq ι] in
theorem Scoped.epochOf_eq {mls : Registry (MlsContext G S)} {mlsHandle sessionHandle : Int32}
    {suite : UInt8} {label : String} {w : FfiThreads ι G S K C}
    (h : Scoped mls mlsHandle sessionHandle suite label w) {m : Int32} {ctx : MlsContext G S}
    (hctx : w.ffi.mls.get m = some ctx) : epochOf mls m = ctx.epoch := by
  rw [← h.context, epochOf, hctx]
  rfl

omit [OpenMls G S] [MlsKeyId] [MonotonicCounter C] [EncryptionKey K] [DecidableEq ι] in
/-- A creation without a race finds no entry in its second section. -/
theorem unraced_create {w : FfiThreads ι G S K C} {thread : ι} {m s : Int32} {leaf : UInt32}
    {su : CipherSuite} {l : String} (hp : w.pending thread = some (.create m s leaf su l))
    (hx : w.Unraced (.resume thread)) : w.ffi.bySessionLeaf.lookup (s, leaf) = none := by
  simpa only [Unraced, hp] using hx

/-- Without a race the directory fits the cells and holds everything issued. -/
structure Shared (epoch : UInt64) (sessionHandle : Int32) (w : FfiThreads ι G S K C)
    (given : List ((Int32 × UInt32) × SFrameEncryptor)) : Prop where
  linked : Linked epoch (fun leaf => w.ffi.bySessionLeaf.lookup (sessionHandle, leaf)) w.ffi.cells
  given : ∀ p ∈ given, w.ffi.bySessionLeaf.lookup p.1 = some p.2

/-- A step without a race keeps every entry. -/
theorem step_shared (hC : MonotonicCounter.Successive C) (hK : EncryptionKey.Serialises K)
    {mls : Registry (MlsContext G S)} {mlsHandle sessionHandle : Int32} {suite : UInt8}
    {label : String} {w : FfiThreads ι G S K C}
    (hscope : Scoped mls mlsHandle sessionHandle suite label w)
    {given : List ((Int32 × UInt32) × SFrameEncryptor)}
    (h : Shared (epochOf mls mlsHandle) sessionHandle w given) {x : FfiStep ι}
    (hx : w.Unraced x) :
    Shared (epochOf mls mlsHandle) sessionHandle (w.step x) (given ++ w.issued x) := by
  rcases step_cases w x with ⟨hdir, hcells, -, hissued⟩ | ⟨e, plaintext, aad, hdir, hcells, -, hissued⟩ |
    ⟨thread, m, s, leaf, su, l, ctx, base, e, rfl, hp, hctx, -, rfl, hdir, hcells, -, hissued⟩
  · constructor
    · rw [hdir, hcells]
      exact h.linked
    · intro p hp
      rw [hdir]
      exact (List.mem_append.mp hp).elim (h.given p) (hissued p)
  · constructor
    · rw [hdir, hcells]
      exact h.linked.write (SFrameEncryptor.encrypt_kids hC w.ffi.cells e plaintext aad)
    · rw [hdir, hissued, List.append_nil]
      exact h.given
  · obtain ⟨rfl, rfl, hleaf, -, -⟩ := hscope.creations _ _ _ _ _ _ hp
    have hfree := unraced_create hp hx
    have hepoch := hscope.epochOf_eq hctx
    rw [hepoch] at h ⊢
    constructor
    · rw [hcells]
      apply h.linked.insert hK hleaf base su
      intro leaf'
      rw [hdir, Counters.lookup_insert_ite]
      simp only [Prod.mk.injEq, true_and]
    · intro p hmem
      rw [hdir, Counters.lookup_insert_ite]
      rw [hissued] at hmem
      rcases List.mem_append.mp hmem with hmem | hmem
      · have hold := h.given p hmem
        rw [if_neg, hold]
        intro heq
        rw [heq, hfree] at hold
        cases hold
      · obtain rfl := List.mem_singleton.mp hmem
        exact if_pos rfl

/-- A step without a race spends no nonce twice. -/
theorem step_spent (hkid : MlsKeyId.Unpacks) (hC : MonotonicCounter.Successive C)
    (hK : EncryptionKey.Serialises K) {mls : Registry (MlsContext G S)}
    {mlsHandle sessionHandle : Int32} {suite : UInt8} {label : String}
    {w : FfiThreads ι G S K C} (hscope : Scoped mls mlsHandle sessionHandle suite label w)
    {given : List ((Int32 × UInt32) × SFrameEncryptor)}
    (h : Shared (epochOf mls mlsHandle) sessionHandle w given) {used : List (KeyId × UInt64)}
    (hused : Spent cellKid cellLevel UInt64.toNat w.ffi.cells used) {x : FfiStep ι}
    (hx : w.Unraced x) :
    Spent cellKid cellLevel UInt64.toNat (w.step x).ffi.cells (used ++ w.nonces x) := by
  rcases step_cases w x with ⟨-, hcells, hnonces, -⟩ | ⟨e, plaintext, aad, -, hcells, hnonces, -⟩ |
    ⟨thread, m, s, leaf, su, l, ctx, base, e, rfl, hp, hctx, -, rfl, -, hcells, hnonces, -⟩
  · rw [hcells, hnonces, List.append_nil]
    exact hused
  · rw [hcells, hnonces]
    exact SFrameEncryptor.encrypt_spent hC hused e plaintext aad
  · obtain ⟨rfl, rfl, hleaf, -, -⟩ := hscope.creations _ _ _ _ _ _ hp
    have hfree := unraced_create hp hx
    have hepoch := hscope.epochOf_eq hctx
    rw [hcells, hnonces, List.append_nil]
    apply hused.alloc
    rw [cellKid_fresh hK, ← hepoch]
    exact h.linked.kid_new hkid hleaf hfree

/-- Every entry was issued and points to an existing cell, and its session could be derived. -/
def Recorded (mls : Registry (MlsContext G S)) (mlsHandle : Int32) (suite : UInt8)
    (label : String) (w : FfiThreads ι G S K C)
    (given : List ((Int32 × UInt32) × SFrameEncryptor)) : Prop :=
  ∀ k e, w.ffi.bySessionLeaf.lookup k = some e → (k, e) ∈ given ∧ e.state < w.ffi.cells.length ∧
    ∃ ctx su session, mls.get mlsHandle = some ctx ∧ CipherSuite.fromU8 suite = some su ∧
      SFrameSession.fromMls ctx label su = some (.ok session)

/-- Every step keeps the record, raced or not. -/
theorem step_recorded (hC : MonotonicCounter.Successive C) {mls : Registry (MlsContext G S)}
    {mlsHandle sessionHandle : Int32} {suite : UInt8} {label : String}
    {w : FfiThreads ι G S K C} (hscope : Scoped mls mlsHandle sessionHandle suite label w)
    {given : List ((Int32 × UInt32) × SFrameEncryptor)}
    (h : Recorded mls mlsHandle suite label w given) (x : FfiStep ι) :
    Recorded mls mlsHandle suite label (w.step x) (given ++ w.issued x) := by
  intro k e hk
  rcases step_cases w x with ⟨hdir, hcells, -, -⟩ | ⟨e', plaintext, aad, hdir, hcells, -, -⟩ |
    ⟨thread, m, s, leaf, su, l, ctx, base, e', rfl, hp, hctx, hfrom, rfl, hdir, hcells, -, hissued⟩
  · rw [hdir] at hk
    obtain ⟨hmem, hlt, hsession⟩ := h k e hk
    exact ⟨List.mem_append_left _ hmem, hcells ▸ hlt, hsession⟩
  · rw [hdir] at hk
    obtain ⟨hmem, hlt, hsession⟩ := h k e hk
    refine ⟨List.mem_append_left _ hmem, ?_, hsession⟩
    have hlen := congrArg List.length
      (SFrameEncryptor.encrypt_kids hC w.ffi.cells e' plaintext aad)
    rw [List.length_map, List.length_map] at hlen
    rw [hcells, hlen]
    exact hlt
  · obtain ⟨rfl, rfl, -, hsuite, rfl⟩ := hscope.creations _ _ _ _ _ _ hp
    rw [hdir, Counters.lookup_insert_ite] at hk
    rw [hcells, hissued, List.length_append, List.length_singleton]
    by_cases heq : k = (s, leaf)
    · rw [if_pos heq] at hk
      cases hk
      refine ⟨List.mem_append_right _ (by rw [heq]; exact List.mem_singleton_self _),
        Nat.lt_succ_self _, ctx, su, _, ?_, hsuite, hfrom⟩
      rw [← hscope.context]
      exact hctx
    · rw [if_neg heq] at hk
      obtain ⟨hmem, hlt, hsession⟩ := h k e hk
      exact ⟨List.mem_append_left _ hmem, Nat.lt_succ_of_lt hlt, hsession⟩

omit [DecidableEq ι] in
/-- A raced step issues a second encryptor for a session and leaf. -/
theorem raced_issues {mls : Registry (MlsContext G S)} {mlsHandle sessionHandle : Int32}
    {suite : UInt8} {label : String} {w : FfiThreads ι G S K C}
    (hscope : Scoped mls mlsHandle sessionHandle suite label w)
    {given : List ((Int32 × UInt32) × SFrameEncryptor)}
    (h : Recorded mls mlsHandle suite label w given) {x : FfiStep ι} (hraced : ¬w.Unraced x) :
    ∃ k e e', (k, e) ∈ given ∧ (k, e') ∈ w.issued x ∧ e.state ≠ e'.state := by
  cases x with
  | call thread c => exact absurd trivial hraced
  | resume thread =>
      match hp : w.pending thread with
      | none =>
          simp only [Unraced, hp, not_true_eq_false] at hraced
      | some (.encrypt e plaintext aad) =>
          simp only [Unraced, hp, not_true_eq_false] at hraced
      | some (.create m s leaf su l) =>
          simp only [Unraced, hp] at hraced
          obtain ⟨e, he⟩ := Option.ne_none_iff_exists'.mp hraced
          obtain ⟨hmem, hlt, ctx, su', session, hctx, hsuite', hsession⟩ := h (s, leaf) e he
          obtain ⟨rfl, rfl, -, hsuite, rfl⟩ := hscope.creations _ _ _ _ _ _ hp
          obtain rfl : su' = su := Option.some.inj (hsuite'.symm.trans hsuite)
          rw [← hscope.context] at hctx
          rcases encryptorDerive_cases w.ffi m s leaf su' l with
            ⟨ctx', base, -, -, reg, heq, hget⟩ | ⟨hnone, -, -⟩
          · refine ⟨(s, leaf), e, ⟨w.ffi.cells.length, kidFrom ctx'.epoch leaf⟩, hmem, ?_,
              Nat.ne_of_lt hlt⟩
            simp only [issued, hp, heq, Ffi.behind, hget, Option.toList_some, List.map_singleton,
              List.mem_singleton]
          · exact absurd hsession (hnone ctx session hctx)

/-- The record of a whole run. -/
theorem run_recorded (hC : MonotonicCounter.Successive C) (mls : Registry (MlsContext G S))
    (sessions : List Int32) {mlsHandle sessionHandle : Int32} {suite : UInt8} {label : String}
    {xs : List (FfiStep ι)} (hcalls : ∀ x ∈ xs, SameSession mlsHandle sessionHandle suite label x) :
    let w : FfiThreads ι G S K C := start mls sessions
    Scoped mls mlsHandle sessionHandle suite label (Machine.run step w xs) ∧
      Recorded mls mlsHandle suite label (Machine.run step w xs)
        (Machine.observe step issued w xs) := by
  intro w
  have hfirst : Scoped mls mlsHandle sessionHandle suite label w ∧
      Recorded mls mlsHandle suite label w [] := ⟨⟨rfl, nofun⟩, nofun⟩
  exact Machine.along_invariant issued
    (fun w given => Scoped mls mlsHandle sessionHandle suite label w ∧
      Recorded mls mlsHandle suite label w given) hfirst (Machine.along_of_forall hcalls step w)
    fun w given x hx h => ⟨step_scoped h.1 hx, step_recorded hC h.1 h.2 x⟩

/-- The directory and the nonces of a whole run without a race. -/
theorem run_shared (hkid : MlsKeyId.Unpacks) (hC : MonotonicCounter.Successive C)
    (hK : EncryptionKey.Serialises K) {mls : Registry (MlsContext G S)} {sessions : List Int32}
    {mlsHandle sessionHandle : Int32} {suite : UInt8} {label : String} {xs : List (FfiStep ι)}
    (hcalls : ∀ x ∈ xs, SameSession mlsHandle sessionHandle suite label x)
    (hunraced : Machine.Along step Unraced (start mls sessions : FfiThreads ι G S K C) xs) :
    let w : FfiThreads ι G S K C := start mls sessions
    (∃ epoch, Shared epoch sessionHandle (Machine.run step w xs)
      (Machine.observe step issued w xs)) ∧ (Machine.observe step nonces w xs).Nodup := by
  intro w
  have halong := (Machine.along_of_forall hcalls step w).and hunraced
  have hlink : Linked (epochOf mls mlsHandle)
      (fun leaf => w.ffi.bySessionLeaf.lookup (sessionHandle, leaf)) w.ffi.cells := by
    apply Linked.empty
    intro leaf
    exact AList.lookup_empty _
  constructor
  · have hfirst : Scoped mls mlsHandle sessionHandle suite label w ∧
        Shared (epochOf mls mlsHandle) sessionHandle w [] := ⟨⟨rfl, nofun⟩, hlink, nofun⟩
    have hinv := Machine.along_invariant issued
      (fun w given => Scoped mls mlsHandle sessionHandle suite label w ∧
        Shared (epochOf mls mlsHandle) sessionHandle w given) hfirst halong
      fun w given x hx h => ⟨step_scoped h.1 hx.1, step_shared hC hK h.1 h.2 hx.2⟩
    exact ⟨_, hinv.2⟩
  · have hfirst : (Scoped mls mlsHandle sessionHandle suite label w ∧
        Shared (epochOf mls mlsHandle) sessionHandle w []) ∧
        Spent cellKid cellLevel UInt64.toNat w.ffi.cells ([] : List (KeyId × UInt64)) :=
      ⟨⟨⟨rfl, nofun⟩, hlink, nofun⟩, Spent.nil⟩
    have hinv := Machine.along_invariant nonces
      (fun w used => (Scoped mls mlsHandle sessionHandle suite label w ∧
        Shared (epochOf mls mlsHandle) sessionHandle w []) ∧
        Spent cellKid cellLevel UInt64.toNat w.ffi.cells used) hfirst halong
      fun w used x hx h =>
        ⟨⟨step_scoped h.1.1 hx.1, (step_shared hC hK h.1.1 h.1.2 hx.2).linked, nofun⟩,
          step_spent hkid hC hK h.1.1 h.1.2 h.2 hx.2⟩
    exact hinv.2.fresh

/-- Over every interleaving of threads that create, free and use encryptors of one session: no
two frames carry the same key id and counter and all encryptors issued for a leaf share one
cell, exactly when no creation finds another's entry in its second section. -/
theorem ffi_nonces_unique_iff (hkid : MlsKeyId.Unpacks) (hC : MonotonicCounter.Successive C)
    (hK : EncryptionKey.Serialises K) (mls : Registry (MlsContext G S)) (sessions : List Int32)
    (mlsHandle sessionHandle : Int32) (suite : UInt8) (label : String) (xs : List (FfiStep ι))
    (hcalls : ∀ x ∈ xs, SameSession mlsHandle sessionHandle suite label x) :
    let w : FfiThreads ι G S K C := start mls sessions
    ((Machine.observe step nonces w xs).Nodup ∧
      ∀ p ∈ Machine.observe step issued w xs, ∀ q ∈ Machine.observe step issued w xs,
        p.1 = q.1 → p.2.state = q.2.state) ↔
      Machine.Along step Unraced w xs := by
  intro w
  constructor
  · rintro ⟨-, hshare⟩
    rw [Machine.along_iff]
    rintro earlier x later rfl
    by_contra hraced
    have hearlier : ∀ y ∈ earlier, SameSession mlsHandle sessionHandle suite label y :=
      fun y hy => hcalls y (List.mem_append_left _ hy)
    obtain ⟨hscope, hrecord⟩ := run_recorded (K := K) hC mls sessions hearlier
    obtain ⟨k, e, e', hold, hnew, hne⟩ := raced_issues hscope hrecord hraced
    rw [Machine.observe_append, Machine.observe_cons] at hshare
    have hsame := hshare (k, e) (List.mem_append_left _ hold) (k, e')
      (List.mem_append_right _ (List.mem_append_left _ hnew)) rfl
    exact hne hsame
  · intro hunraced
    obtain ⟨⟨epoch, hshared⟩, hnonces⟩ := run_shared hkid hC hK hcalls hunraced
    refine ⟨hnonces, fun p hp q hq hkey => ?_⟩
    have hpq := hshared.given p hp
    rw [hkey, hshared.given q hq] at hpq
    exact congrArg SFrameEncryptor.state (Option.some.inj hpq).symm

end Runs

/-- A process with one context in epoch 5 and one session. -/
def oneSession : FfiThreads ℕ PlainGroup Unit PlainKey PlainCounter :=
  start (Registry.insert .new ⟨⟨5⟩, none⟩).2 [1]

/-- Two threads create the encryptor of leaf 3 and use it; both look it up before either
stores it. -/
def racingCreations : List (FfiStep ℕ) :=
  [.call 0 (.encryptorCreate 1 1 3 0 "gbp/sframe v1"),
    .call 1 (.encryptorCreate 1 1 3 0 "gbp/sframe v1"), .resume 0, .resume 1,
    .call 0 (.encrypt 1 [1] []), .resume 0, .call 1 (.encrypt 2 [2] []), .resume 1]

/-- The same calls one after the other. -/
def orderlyCreations : List (FfiStep ℕ) :=
  [.call 0 (.encryptorCreate 1 1 3 0 "gbp/sframe v1"), .resume 0,
    .call 1 (.encryptorCreate 1 1 3 0 "gbp/sframe v1"),
    .call 0 (.encrypt 1 [1] []), .resume 0, .call 1 (.encrypt 2 [2] []), .resume 1]

theorem ffi_nonces_unique_orderly :
    (Machine.observe step nonces oneSession orderlyCreations).map (·.2) = [0, 1] ∧
      (Machine.observe step nonces oneSession orderlyCreations).Nodup := by
  have hcalls : ∀ x ∈ orderlyCreations, SameSession 1 1 0 "gbp/sframe v1" x := by
    decide +kernel
  refine ⟨by decide +kernel, ?_⟩
  exact ((ffi_nonces_unique_iff MlsKeyId.unpacks PlainCounter.successive PlainKey.serialises
    _ _ _ _ _ _ _ hcalls).mpr (by decide +kernel)).1

/-- Racing creations use one key with one key id and counter twice. -/
theorem racing_creations_reuse_nonce :
    let keys := (Machine.run step oneSession racingCreations).ffi.cells.map (·.value.key)
    (∀ x ∈ racingCreations, SameSession 1 1 0 "gbp/sframe v1" x) ∧
      keys.length = 2 ∧ keys[0]? = keys[1]? ∧
      Machine.observe step nonces oneSession racingCreations =
        [(kidFrom 5 3, 0), (kidFrom 5 3, 0)] ∧
      ¬(Machine.observe step nonces oneSession racingCreations).Nodup := by
  decide +kernel

end FfiThreads

end GroupProtocol
