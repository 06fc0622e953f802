import GroupProtocol.Lib.Machine
import GroupProtocol.SFrame.Encryptor

/-!
# Counters of one SFrame session

Handles of one session are requested, cloned, dropped and used in any order. All handles of a
leaf reach one cell and leaves have distinct key ids, so the cells of a session form an arena
of labelled dispensers, and an exhausted cell refuses every further call.
-/

namespace GroupProtocol

open Dispenser SFrameHeader

/-- A session, the shared cells, and the handles in use with the leaf each was requested for. -/
structure SessionHandles (K C : Type) where
  session : SFrameSession
  cells : Cells K C
  handles : List (UInt32 × SFrameEncryptor)

/-- A handle is requested, cloned, dropped or used; handles are numbered in their list. -/
inductive SessionCall
  | encryptor (leafIndex : UInt32)
  | clone (i : ℕ)
  | drop (i : ℕ)
  | encrypt (i : ℕ) (plaintext extraAad : Bytes)

namespace SessionHandles

section Runs

variable {K C : Type} [MlsKeyId] [MonotonicCounter C] [EncryptionKey K]

/-- A new session. -/
def start (baseKey : BaseKey) (epoch : UInt64) (suite : CipherSuite) : SessionHandles K C :=
  ⟨.new baseKey epoch suite, [], []⟩

/-- The state after a call. -/
def step (w : SessionHandles K C) : SessionCall → SessionHandles K C
  | .encryptor leafIndex =>
    let r := w.session.encryptor w.cells leafIndex
    ⟨r.2.1, r.2.2, w.handles ++ [(leafIndex, r.1)]⟩
  | .clone i => { w with handles := w.handles ++ w.handles[i]?.toList }
  | .drop i => { w with handles := w.handles.eraseIdx i }
  | .encrypt i plaintext extraAad =>
    match w.handles[i]? with
    | some h => { w with cells := (h.2.encrypt w.cells plaintext extraAad).2 }
    | none => w

/-- The handle a call returns, with its leaf. -/
def obtained (w : SessionHandles K C) : SessionCall → List (UInt32 × SFrameEncryptor)
  | .encryptor leafIndex => [(leafIndex, (w.session.encryptor w.cells leafIndex).1)]
  | .clone i => w.handles[i]?.toList
  | .drop _ => []
  | .encrypt _ _ _ => []

/-- The key id and counter of the frame a successful call returns. -/
def nonces (w : SessionHandles K C) : SessionCall → List (KeyId × UInt64)
  | .encrypt i plaintext extraAad =>
    match w.handles[i]? with
    | some h => (h.2.nonce w.cells plaintext extraAad).toList
    | none => []
  | .encryptor _ => []
  | .clone _ => []
  | .drop _ => []

/-- The counter of a leaf is used up. -/
def Exhausted (w : SessionHandles K C) (leafIndex : UInt32) : Prop :=
  ∃ e m, w.session.encryptors.lookup leafIndex = some e ∧ w.cells[e.state]? = some m ∧
    MonotonicCounter.isExhausted m.value.counter = true

/-- The session's directory fits the cells, the handles are its entries and no lock is
poisoned. -/
structure Wired (epoch : UInt64) (w : SessionHandles K C) : Prop where
  sameEpoch : w.session.epoch = epoch
  linked : Linked epoch w.session.encryptors.lookup w.cells
  handles : ∀ p ∈ w.handles, w.session.encryptors.lookup p.1 = some p.2
  clean : ∀ m ∈ w.cells, m.poisoned = false

omit [MonotonicCounter C] in
theorem wired_start (baseKey : BaseKey) (epoch : UInt64) (suite : CipherSuite) :
    Wired epoch (start baseKey epoch suite : SessionHandles K C) where
  sameEpoch := rfl
  linked := by
    apply Linked.empty
    intro leaf
    exact AList.lookup_empty leaf
  handles _ h := absurd h List.not_mem_nil
  clean _ h := absurd h List.not_mem_nil

/-- A request finds the entry of its leaf or makes it. -/
theorem encryptor_cases (s : SFrameSession) (cells : Cells K C) (leaf : UInt32) :
    (∃ e, s.encryptors.lookup leaf = some e ∧ s.encryptor cells leaf = (e, s, cells)) ∨
      (s.encryptors.lookup leaf = none ∧
        s.encryptor cells leaf =
          (⟨cells.length, kidFrom s.epoch leaf⟩,
            { s with
              encryptors := s.encryptors.insert leaf ⟨cells.length, kidFrom s.epoch leaf⟩ },
            cells ++ [EncryptorState.fresh s.baseKey (kidFrom s.epoch leaf) s.suite])) := by
  cases h : s.encryptors.lookup leaf with
  | some e => exact Or.inl ⟨e, rfl, by rw [SFrameSession.encryptor, h]⟩
  | none =>
      right
      refine ⟨rfl, ?_⟩
      rw [SFrameSession.encryptor, h]
      rfl

/-- The session stays in its epoch, and its entries and the handles in use carry the key id
of their leaf. -/
structure Keyed (epoch : UInt64) (w : SessionHandles K C) : Prop where
  sameEpoch : w.session.epoch = epoch
  entries : ∀ leaf e, w.session.encryptors.lookup leaf = some e → e.kid = kidFrom epoch leaf
  handles : ∀ p ∈ w.handles, p.2.kid = kidFrom epoch p.1

omit [MonotonicCounter C] [EncryptionKey K] in
theorem keyed_start (baseKey : BaseKey) (epoch : UInt64) (suite : CipherSuite) :
    Keyed epoch (start baseKey epoch suite : SessionHandles K C) where
  sameEpoch := rfl
  entries leaf e h := by
    cases (AList.lookup_empty leaf).symm.trans h
  handles _ h := absurd h List.not_mem_nil

/-- The handle a keyed session gives for a leaf has the leaf's key id. -/
theorem encryptor_kid {epoch : UInt64} {w : SessionHandles K C} (h : Keyed epoch w)
    (leaf : UInt32) : (w.session.encryptor w.cells leaf).1.kid = kidFrom epoch leaf := by
  rcases encryptor_cases w.session w.cells leaf with ⟨e, hfound, heq⟩ | ⟨-, heq⟩
  · rw [heq]
    exact h.entries leaf e hfound
  · rw [heq, h.sameEpoch]

/-- Every handle a keyed session returns has the key id of its leaf, in the field or not. -/
theorem obtained_keyed {epoch : UInt64} {w : SessionHandles K C} (h : Keyed epoch w)
    (x : SessionCall) : ∀ p ∈ w.obtained x, p.2.kid = kidFrom epoch p.1 := by
  intro p hp
  cases x with
  | encryptor leaf =>
      obtain rfl := List.mem_singleton.mp hp
      exact encryptor_kid h leaf
  | clone i => exact h.handles p (List.mem_of_getElem? (Option.mem_toList.mp hp))
  | drop i => exact absurd hp List.not_mem_nil
  | encrypt i plaintext extraAad => exact absurd hp List.not_mem_nil

/-- Every call keeps the session keyed. -/
theorem step_keyed {epoch : UInt64} {w : SessionHandles K C} (h : Keyed epoch w)
    (x : SessionCall) : Keyed epoch (w.step x) := by
  cases x with
  | encryptor leaf =>
      have hhandles : ∀ p ∈ w.handles ++ [(leaf, (w.session.encryptor w.cells leaf).1)],
          p.2.kid = kidFrom epoch p.1 := by
        intro p hp
        rcases List.mem_append.mp hp with hp | hp
        · exact h.handles p hp
        · exact obtained_keyed h (.encryptor leaf) p hp
      rcases encryptor_cases w.session w.cells leaf with ⟨e, hfound, heq⟩ | ⟨hfree, heq⟩
      · refine ⟨?_, ?_, hhandles⟩
        · rw [step, heq]
          exact h.sameEpoch
        · rw [step, heq]
          exact h.entries
      · refine ⟨?_, ?_, hhandles⟩
        · rw [step, heq]
          exact h.sameEpoch
        · rw [step, heq]
          intro leaf' e he
          rw [Counters.lookup_insert_ite] at he
          split at he
          · rename_i hleaf
            cases he
            rw [hleaf, h.sameEpoch]
          · exact h.entries leaf' e he
  | clone i =>
      refine ⟨h.sameEpoch, h.entries, fun p hp => ?_⟩
      rcases List.mem_append.mp hp with hp | hp
      · exact h.handles p hp
      · exact obtained_keyed h (.clone i) p hp
  | drop i =>
      exact ⟨h.sameEpoch, h.entries, fun p hp => h.handles p (List.mem_of_mem_eraseIdx hp)⟩
  | encrypt i plaintext extraAad =>
      rw [step]
      cases w.handles[i]? with
      | none => exact h
      | some p => exact ⟨h.sameEpoch, h.entries, h.handles⟩

/-- Every handle of a whole run has the key id of its leaf. -/
theorem run_keyed {epoch : UInt64} {w : SessionHandles K C} (h : Keyed epoch w)
    (xs : List SessionCall) :
    ∀ p ∈ Machine.observe step obtained w xs, p.2.kid = kidFrom epoch p.1 := by
  induction xs generalizing w with
  | nil => exact fun p hp => absurd hp List.not_mem_nil
  | cons x xs ih =>
      intro p hp
      rcases List.mem_append.mp hp with hp | hp
      · exact obtained_keyed h x p hp
      · exact ih (step_keyed h x) p hp

omit [MonotonicCounter C] in
/-- A wired session is keyed. -/
theorem Wired.keyed {epoch : UInt64} {w : SessionHandles K C} (h : Wired epoch w) :
    Keyed epoch w where
  sameEpoch := h.sameEpoch
  entries leaf e he := (h.linked.entry leaf e he).2.1
  handles p hp := (h.linked.entry p.1 p.2 (h.handles p hp)).2.1

/-- What a request does to a wired session: the handle is the entry of its leaf, other entries
and cells stay. -/
theorem encryptor_wired (hK : EncryptionKey.Serialises K) {epoch : UInt64} {w : SessionHandles K C}
    (h : Wired epoch w) {leaf : UInt32} (hleaf : leaf < 65536) :
    Wired epoch (w.step (.encryptor leaf)) := by
  rcases encryptor_cases w.session w.cells leaf with ⟨e, hfound, heq⟩ | ⟨hfree, heq⟩
  · have hstep : w.step (.encryptor leaf) = { w with handles := w.handles ++ [(leaf, e)] } := by
      rw [step, heq]
    rw [hstep]
    refine ⟨h.sameEpoch, h.linked, fun p hp => ?_, h.clean⟩
    rcases List.mem_append.mp hp with hp | hp
    · exact h.handles p hp
    · obtain rfl := List.mem_singleton.mp hp
      exact hfound
  · rw [step, heq, h.sameEpoch]
    refine ⟨rfl, ?_, fun p hp => ?_, fun m hm => ?_⟩
    · exact h.linked.insert hK hleaf w.session.baseKey w.session.suite
        fun l => Counters.lookup_insert_ite w.session.encryptors leaf l _
    · rw [Counters.lookup_insert_ite]
      rcases List.mem_append.mp hp with hp | hp
      · have hold := h.handles p hp
        rw [if_neg, hold]
        rintro rfl
        rw [hfree] at hold
        cases hold
      · obtain rfl := List.mem_singleton.mp hp
        exact if_pos rfl
    · rcases List.mem_append.mp hm with hm | hm
      · exact h.clean m hm
      · obtain rfl := List.mem_singleton.mp hm
        rfl

/-- Requests stay below the capacity of the index field. -/
def InRange : SessionCall → Prop
  | .encryptor leafIndex => leafIndex < 65536
  | .clone _ => True
  | .drop _ => True
  | .encrypt _ _ _ => True

/-- Every call keeps the session wired. -/
theorem step_wired (hC : MonotonicCounter.Successive C) (hK : EncryptionKey.Serialises K)
    {epoch : UInt64} {w : SessionHandles K C} (h : Wired epoch w) {x : SessionCall} (hx : InRange x) :
    Wired epoch (w.step x) := by
  cases x with
  | encryptor leaf => exact encryptor_wired hK h hx
  | clone i =>
      refine ⟨h.sameEpoch, h.linked, fun p hp => ?_, h.clean⟩
      rcases List.mem_append.mp hp with hp | hp
      · exact h.handles p hp
      · exact h.handles p (List.mem_of_getElem? (Option.mem_toList.mp hp))
  | drop i =>
      refine ⟨h.sameEpoch, h.linked, fun p hp => ?_, h.clean⟩
      exact h.handles p (List.mem_of_mem_eraseIdx hp)
  | encrypt i plaintext extraAad =>
      rw [step]
      cases hi : w.handles[i]? with
      | none => exact h
      | some p =>
          have hentry := h.handles p (List.mem_of_getElem? hi)
          obtain ⟨-, -, m, hm⟩ := h.linked.entry p.1 p.2 hentry
          refine ⟨h.sameEpoch, ?_, h.handles, ?_⟩
          · exact h.linked.write (SFrameEncryptor.encrypt_kids hC w.cells p.2 plaintext extraAad)
          · exact (SFrameEncryptor.encrypt_returns hC hK h.clean hm plaintext extraAad).2

/-- A wired session spends no nonce twice. -/
theorem step_spent (hkid : MlsKeyId.Unpacks) (hC : MonotonicCounter.Successive C)
    (hK : EncryptionKey.Serialises K) {epoch : UInt64} {w : SessionHandles K C}
    (h : Wired epoch w) {used : List (KeyId × UInt64)}
    (hused : Spent cellKid cellLevel UInt64.toNat w.cells used) {x : SessionCall}
    (hx : InRange x) :
    Spent cellKid cellLevel UInt64.toNat (w.step x).cells (used ++ w.nonces x) := by
  cases x with
  | encryptor leaf =>
      rw [nonces, List.append_nil]
      rcases encryptor_cases w.session w.cells leaf with ⟨e, -, heq⟩ | ⟨hfree, heq⟩
      · rw [step, heq]
        exact hused
      · rw [step, heq, h.sameEpoch]
        apply hused.alloc
        rw [cellKid_fresh hK]
        exact h.linked.kid_new hkid hx hfree
  | clone i =>
      rw [nonces, List.append_nil]
      exact hused
  | drop i =>
      rw [nonces, List.append_nil]
      exact hused
  | encrypt i plaintext extraAad =>
      rw [step, nonces]
      cases hi : w.handles[i]? with
      | none => simpa using hused
      | some p => exact SFrameEncryptor.encrypt_spent hC hused p.2 plaintext extraAad

/-- The entry of a leaf and its exhausted cell stay. -/
theorem step_exhausted (hC : MonotonicCounter.Successive C) {w : SessionHandles K C}
    {leaf : UInt32} (hexhausted : w.Exhausted leaf) (x : SessionCall) :
    (w.step x).Exhausted leaf := by
  obtain ⟨e, m, hentry, hm, hx⟩ := hexhausted
  cases x with
  | encryptor leaf' =>
      rcases encryptor_cases w.session w.cells leaf' with ⟨e', -, heq⟩ | ⟨hfree, heq⟩
      · rw [step, heq]
        exact ⟨e, m, hentry, hm, hx⟩
      · rw [step, heq]
        have hlen : e.state < w.cells.length := (List.getElem?_eq_some_iff.mp hm).1
        refine ⟨e, m, ?_, (List.getElem?_append_left hlen).trans hm, hx⟩
        rw [Counters.lookup_insert_ite, if_neg, hentry]
        rintro rfl
        rw [hfree] at hentry
        cases hentry
  | clone i => exact ⟨e, m, hentry, hm, hx⟩
  | drop i => exact ⟨e, m, hentry, hm, hx⟩
  | encrypt i plaintext extraAad =>
      rw [step]
      cases hi : w.handles[i]? with
      | none => exact ⟨e, m, hentry, hm, hx⟩
      | some p =>
          refine ⟨e, m, hentry, ?_, hx⟩
          exact SFrameEncryptor.encrypt_exhausted hC hm hx p.2 plaintext extraAad

theorem run_exhausted (hC : MonotonicCounter.Successive C) {w : SessionHandles K C}
    {leaf : UInt32} (h : w.Exhausted leaf) (xs : List SessionCall) :
    (Machine.run step w xs).Exhausted leaf := by
  induction xs generalizing w with
  | nil => exact h
  | cons x xs ih => exact ih (step_exhausted hC h x)

/-- A call for an exhausted leaf is refused. -/
theorem encrypt_refused {epoch : UInt64} {w : SessionHandles K C} (h : Wired epoch w)
    {p : UInt32 × SFrameEncryptor} (hp : p ∈ w.handles) (hexhausted : w.Exhausted p.1) (plaintext extraAad : Bytes) :
    (p.2.encrypt w.cells plaintext extraAad).1 = some (.error (.counterExhausted p.2.kid)) := by
  obtain ⟨e, m, hentry, hm, hx⟩ := hexhausted
  rw [h.handles p hp] at hentry
  cases hentry
  have hclean := h.clean m (List.mem_of_getElem? hm)
  simp only [SFrameEncryptor.encrypt, EncryptorState.encrypt, hm, hclean, hx, Bool.false_eq_true,
    if_false, if_true]

/-- Every handle a wired session returns belongs to a leaf in range. -/
theorem obtained_lt {epoch : UInt64} {w : SessionHandles K C} (h : Wired epoch w)
    {x : SessionCall} (hx : InRange x) {p : UInt32 × SFrameEncryptor} (hp : p ∈ w.obtained x) :
    p.1 < 65536 := by
  cases x with
  | encryptor leaf =>
      obtain rfl := List.mem_singleton.mp hp
      exact hx
  | clone i =>
      have hmem := List.mem_of_getElem? (Option.mem_toList.mp hp)
      exact (h.linked.entry p.1 p.2 (h.handles p hmem)).1
  | drop i => exact absurd hp List.not_mem_nil
  | encrypt i plaintext extraAad => exact absurd hp List.not_mem_nil

/-- A session stays wired, and the nonces of a whole run are spent. -/
theorem run_spent (hkid : MlsKeyId.Unpacks) (hC : MonotonicCounter.Successive C)
    (hK : EncryptionKey.Serialises K) {epoch : UInt64} {w : SessionHandles K C}
    (h : Wired epoch w) {used : List (KeyId × UInt64)}
    (hused : Spent cellKid cellLevel UInt64.toNat w.cells used) {xs : List SessionCall}
    (hin : ∀ x ∈ xs, InRange x) :
    Wired epoch (Machine.run step w xs) ∧
      Spent cellKid cellLevel UInt64.toNat (Machine.run step w xs).cells
        (used ++ Machine.observe step nonces w xs) :=
  Machine.along_invariant nonces
    (fun w used => Wired epoch w ∧ Spent cellKid cellLevel UInt64.toNat w.cells used)
    ⟨h, hused⟩ (Machine.along_of_forall hin step w)
    fun _ _ _ hx h => ⟨step_wired hC hK h.1 hx, step_spent hkid hC hK h.1 h.2 hx⟩

/-- Every handle of a whole run belongs to a leaf in range. -/
theorem run_obtained_lt (hC : MonotonicCounter.Successive C) (hK : EncryptionKey.Serialises K)
    {epoch : UInt64} {w : SessionHandles K C} (h : Wired epoch w) {xs : List SessionCall}
    (hin : ∀ x ∈ xs, InRange x) : ∀ p ∈ Machine.observe step obtained w xs, p.1 < 65536 := by
  induction xs generalizing w with
  | nil => exact fun p hp => absurd hp List.not_mem_nil
  | cons x xs ih =>
      have hx := hin x (List.mem_cons_self ..)
      intro p hp
      rcases List.mem_append.mp hp with hp | hp
      · exact obtained_lt h hx hp
      · exact ih (step_wired hC hK h hx) (fun y hy => hin y (List.mem_cons_of_mem x hy)) p hp

/-- Over every order of requests, clones, drops and encrypt calls on one session: no two frames
carry the same key id and counter, handles of different leaves have different key ids, and
once the counter of a leaf is exhausted every later call for it returns an error. -/
theorem session_counters_unique (hkid : MlsKeyId.Unpacks) (hC : MonotonicCounter.Successive C)
    (hK : EncryptionKey.Serialises K) (baseKey : BaseKey) (epoch : UInt64) (suite : CipherSuite)
    (xs : List SessionCall) (hrange : ∀ leaf, .encryptor leaf ∈ xs → leaf < 65536) :
    let s : SessionHandles K C := start baseKey epoch suite
    (Machine.observe step nonces s xs).Nodup ∧
      (∀ p ∈ Machine.observe step obtained s xs, ∀ q ∈ Machine.observe step obtained s xs,
        p.1 ≠ q.1 → p.2.kid ≠ q.2.kid) ∧
      ∀ earlier mid i plaintext extraAad later p,
        xs = earlier ++ mid ++ .encrypt i plaintext extraAad :: later →
        (Machine.run step s earlier).Exhausted p.1 →
        (Machine.run step s (earlier ++ mid)).handles[i]? = some p →
        (p.2.encrypt (Machine.run step s (earlier ++ mid)).cells plaintext extraAad).1 =
          some (.error (.counterExhausted p.2.kid)) := by
  intro s
  have hin : ∀ x ∈ xs, InRange x := by
    intro x hx
    cases x with
    | encryptor leaf => exact hrange leaf hx
    | clone i => exact trivial
    | drop i => exact trivial
    | encrypt i plaintext extraAad => exact trivial
  have hstart : Wired epoch s := wired_start baseKey epoch suite
  have hfresh : Spent cellKid cellLevel UInt64.toNat s.cells ([] : List (KeyId × UInt64)) :=
    Spent.nil
  refine ⟨(run_spent hkid hC hK hstart hfresh hin).2.fresh, ?_, ?_⟩
  · intro p hp q hq hne heq
    rw [run_keyed hstart.keyed xs p hp, run_keyed hstart.keyed xs q hq] at heq
    exact hne (kidFrom_inj hkid epoch (run_obtained_lt hC hK hstart hin p hp)
      (run_obtained_lt hC hK hstart hin q hq) heq)
  · rintro earlier mid i plaintext extraAad later p rfl hexhausted hi
    have hprefix : ∀ x ∈ earlier ++ mid, InRange x := fun x hx => hin x (List.mem_append_left _ hx)
    have hlater : (Machine.run step s (earlier ++ mid)).Exhausted p.1 := by
      rw [Machine.run_append]
      exact run_exhausted hC hexhausted mid
    exact encrypt_refused (run_spent hkid hC hK hstart hfresh hprefix).1 (List.mem_of_getElem? hi)
      hlater plaintext extraAad

end Runs

/-- Two handles of leaf 3, one of leaf 4, and a clone, used in turn. -/
theorem session_counters_unique_shared :
    let s : SessionHandles PlainKey PlainCounter := start (Vector.replicate 32 7) 5 .aes128Gcm
    let xs : List SessionCall := [.encryptor 3, .encryptor 4, .encryptor 3, .clone 0,
      .encrypt 0 [1] [], .encrypt 2 [1] [], .encrypt 1 [1] [9], .drop 0, .encrypt 2 [2] []]
    (Machine.observe step nonces s xs).map (·.2) = [0, 1, 0, 2] ∧
      (Machine.observe step nonces s xs).Nodup := by
  refine ⟨by decide +kernel, ?_⟩
  exact (session_counters_unique MlsKeyId.unpacks PlainCounter.successive PlainKey.serialises
    _ _ _ _ (by simp)).1

end SessionHandles

end GroupProtocol
