import GroupProtocol.Lib.Machine
import GroupProtocol.SFrame.Encryptor

/-!
# SFrame decryptor

The receiver side of one epoch. A frame is screened against the replay records, opened with
the key of its sender, which is derived at the first frame and cached, and recorded once it
is authentic. Header parsing, decryption and the replay records belong to the `sframe` crate
and enter as classes. Without its cache the decryptor is a function of the replay records
alone.
-/

namespace GroupProtocol

/-- The key id and counter of an encrypted frame. -/
structure FrameHeader where
  keyId : KeyId
  counter : UInt64
  deriving DecidableEq, Repr

/-- The header of a payload with its metadata. -/
class EncryptedFrameView where
  tryWithMetaData : Bytes → Bytes → Except String FrameHeader

/-- A receiver key and what it makes of a payload with its metadata. -/
class DecryptionKey (D : Type) where
  deriveFrom : CipherSuite → KeyId → BaseKey → D
  decrypt : D → Bytes → Bytes → Except String Bytes

/-- Replay records: inspecting a header does not record it, validating does. -/
class ReplayStore (R : Type) where
  withTolerance : UInt64 → R
  inspect : R → FrameHeader → Bool
  validate : R → FrameHeader → Bool × R

/-- Inspecting answers as validating would, and a validated header is refused ever after. -/
structure ReplayStore.Records (R : Type) [ReplayStore R] : Prop where
  answer : ∀ (s : R) h, (validate s h).1 = inspect s h
  refuses : ∀ (s : R) h gs, (validate s h).1 = true →
    inspect (Machine.run (fun t g => (validate t g).2) (validate s h).2 gs) h = false

/-- The records of one key id decide its headers, and only its headers change them. -/
structure ReplayStore.Independent {R V : Type} [ReplayStore R] (view : R → KeyId → V) : Prop where
  inspect : ∀ (s t : R) h, view s h.keyId = view t h.keyId → inspect s h = inspect t h
  own : ∀ (s t : R) h, view s h.keyId = view t h.keyId →
    view (validate s h).2 h.keyId = view (validate t h).2 h.keyId
  other : ∀ (s : R) h k, k ≠ h.keyId → view (validate s h).2 k = view s k

/-- The decryptor of one epoch. -/
structure SFrameDecryptor (D R : Type) where
  baseKey : BaseKey
  epoch : UInt64
  suite : CipherSuite
  keys : AList fun _ : KeyId => D
  replay : R

/-- A payload handed to the decryptor with its additional data. -/
structure SealedFrame where
  payload : Bytes
  extraAad : Bytes
  deriving DecidableEq, Repr

/-- The header of a payload, where it has one. -/
def SealedFrame.header [EncryptedFrameView] (x : SealedFrame) : Option FrameHeader :=
  (EncryptedFrameView.tryWithMetaData x.payload x.extraAad).toOption

/-- The payload carries one of the key ids `own`. -/
def SealedFrame.carries [EncryptedFrameView] (own : KeyId → Bool) (x : SealedFrame) : Bool :=
  x.header.any fun h => own h.keyId

namespace SFrameDecryptor

variable {D R : Type} [MlsKeyId] [EncryptedFrameView] [DecryptionKey D] [ReplayStore R]

/-- The replay window in frames. -/
def replayWindow : UInt64 := 1024

/-- A decryptor without keys and records. -/
def new (baseKey : BaseKey) (epoch : UInt64) (suite : CipherSuite) : SFrameDecryptor D R :=
  ⟨baseKey, epoch, suite, ∅, ReplayStore.withTolerance replayWindow⟩

/-- The key of a key id, derived at its first frame. -/
def key (d : SFrameDecryptor D R) (kid : KeyId) : D × SFrameDecryptor D R :=
  match d.keys.lookup kid with
  | some key => (key, d)
  | none =>
    let key := DecryptionKey.deriveFrom d.suite kid d.baseKey
    (key, { d with keys := d.keys.insert kid key })

/-- Opens a payload and names its sender. -/
def decrypt (d : SFrameDecryptor D R) (x : SealedFrame) :
    Except SFrameError (Bytes × UInt32) × SFrameDecryptor D R :=
  match EncryptedFrameView.tryWithMetaData x.payload x.extraAad with
  | .error e => (.error (.header e), d)
  | .ok h =>
    if SFrameHeader.epochFromKid h.keyId ≠ SFrameHeader.epochLsb d.epoch then
      (.error (.unknownKid h.keyId), d)
    else
      let leaf := SFrameHeader.leafFromKid h.keyId
      if ReplayStore.inspect d.replay h = false then
        (.error (.replay h.keyId h.counter), d)
      else
        let (key, d) := d.key h.keyId
        match DecryptionKey.decrypt key x.payload x.extraAad with
        | .error _ => (.error .decrypt, d)
        | .ok media =>
          let r := ReplayStore.validate d.replay h
          let d := { d with replay := r.2 }
          if r.1 then (.ok (media, leaf), d) else (.error (.replay h.keyId h.counter), d)

/-- The answers to a sequence of payloads. -/
def results (d : SFrameDecryptor D R) (xs : List SealedFrame) :
    List (Except SFrameError (Bytes × UInt32)) :=
  Machine.observe (fun d x => (d.decrypt x).2) (fun d x => [(d.decrypt x).1]) d xs

/-- The answers to the payloads of a sequence that carry one of the key ids `own`. -/
def resultsOf (own : KeyId → Bool) (d : SFrameDecryptor D R) (xs : List SealedFrame) :
    List (Except SFrameError (Bytes × UInt32)) :=
  Machine.observe (fun d x => (d.decrypt x).2)
    (fun d x => if x.carries own then [(d.decrypt x).1] else []) d xs

/-- The payloads of a sequence that were opened. -/
def opened (d : SFrameDecryptor D R) (xs : List SealedFrame) : List SealedFrame :=
  Machine.observe (fun d x => (d.decrypt x).2)
    (fun d x => if (d.decrypt x).1.isOk then [x] else []) d xs

theorem results_cons (d : SFrameDecryptor D R) (x : SealedFrame) (xs : List SealedFrame) :
    d.results (x :: xs) = (d.decrypt x).1 :: (d.decrypt x).2.results xs := rfl

theorem opened_cons (d : SFrameDecryptor D R) (x : SealedFrame) (xs : List SealedFrame) :
    d.opened (x :: xs) =
      (if (d.decrypt x).1.isOk then [x] else []) ++ (d.decrypt x).2.opened xs := rfl

/-- The headers of the payloads that were opened. -/
def accepted (d : SFrameDecryptor D R) (xs : List SealedFrame) : List FrameHeader :=
  Machine.observe (fun d x => (d.decrypt x).2)
    (fun d x => if (d.decrypt x).1.isOk then x.header.toList else []) d xs

/-- Every cached key is the one its key id derives. -/
def Cached (d : SFrameDecryptor D R) : Prop :=
  ∀ kid key, d.keys.lookup kid = some key →
    key = DecryptionKey.deriveFrom d.suite kid d.baseKey

/-- The answer to a payload by a decryptor that derives the key anew and does not look at its
cache. -/
def verdict (d : SFrameDecryptor D R) (x : SealedFrame) : Except SFrameError (Bytes × UInt32) :=
  match EncryptedFrameView.tryWithMetaData x.payload x.extraAad with
  | .error e => .error (.header e)
  | .ok h =>
    if SFrameHeader.epochFromKid h.keyId ≠ SFrameHeader.epochLsb d.epoch then
      .error (.unknownKid h.keyId)
    else if ReplayStore.inspect d.replay h = false then .error (.replay h.keyId h.counter)
    else
      match DecryptionKey.decrypt (DecryptionKey.deriveFrom d.suite h.keyId d.baseKey : D)
        x.payload x.extraAad with
      | .error _ => .error .decrypt
      | .ok media => .ok (media, SFrameHeader.leafFromKid h.keyId)

/-- The records after a payload whose answer is the verdict. -/
def recorded (d : SFrameDecryptor D R) (x : SealedFrame) : R :=
  match d.verdict x, x.header with
  | .ok _, some h => (ReplayStore.validate d.replay h).2
  | _, _ => d.replay

omit [MlsKeyId] [EncryptedFrameView] [ReplayStore R] in
theorem key_cached {d : SFrameDecryptor D R} (h : d.Cached) (kid : KeyId) :
    ∃ keys, d.key kid =
        (DecryptionKey.deriveFrom d.suite kid d.baseKey, { d with keys := keys }) ∧
      ({ d with keys := keys } : SFrameDecryptor D R).Cached := by
  rw [key]
  cases hk : d.keys.lookup kid with
  | some k =>
      rw [← h kid k hk]
      exact ⟨d.keys, rfl, h⟩
  | none =>
      refine ⟨_, rfl, ?_⟩
      intro kid' k hk'
      rw [Counters.lookup_insert_ite] at hk'
      by_cases heq : kid' = kid
      · rw [if_pos heq] at hk'
        rw [heq]
        exact (Option.some.inj hk').symm
      · rw [if_neg heq] at hk'
        exact h kid' k hk'

/-- What a call does, whatever the cache holds: it gives the verdict, and it records the header
exactly where it accepts. -/
theorem decrypt_spec (hR : ReplayStore.Records R) {d : SFrameDecryptor D R} (h : d.Cached)
    (x : SealedFrame) :
    ∃ keys, d.decrypt x = (d.verdict x, { d with keys := keys, replay := d.recorded x }) ∧
      ({ d with keys := keys, replay := d.recorded x } : SFrameDecryptor D R).Cached := by
  rw [decrypt, recorded, verdict, SealedFrame.header]
  cases hview : EncryptedFrameView.tryWithMetaData x.payload x.extraAad with
  | error e => exact ⟨d.keys, rfl, h⟩
  | ok g =>
      dsimp only
      by_cases hepoch : SFrameHeader.epochFromKid g.keyId ≠ SFrameHeader.epochLsb d.epoch
      · rw [if_pos hepoch, if_pos hepoch]
        exact ⟨d.keys, rfl, h⟩
      rw [if_neg hepoch, if_neg hepoch]
      by_cases hseen : ReplayStore.inspect d.replay g = false
      · rw [if_pos hseen, if_pos hseen]
        exact ⟨d.keys, rfl, h⟩
      rw [if_neg hseen, if_neg hseen]
      obtain ⟨keys, hkey, hcached⟩ := key_cached h g.keyId
      rw [hkey]
      dsimp only
      cases hopen : DecryptionKey.decrypt
        (DecryptionKey.deriveFrom d.suite g.keyId d.baseKey : D) x.payload x.extraAad with
      | error e => exact ⟨keys, rfl, hcached⟩
      | ok media =>
          have hvalid : (ReplayStore.validate d.replay g).1 = true := by
            rw [hR.answer]
            exact Bool.of_not_eq_false hseen
          dsimp only
          rw [if_pos hvalid]
          exact ⟨keys, rfl, hcached⟩

/-- The verdict and the records depend on the records of the payload's own key id alone. -/
theorem verdict_congr {V : Type} {view : R → KeyId → V} (hI : ReplayStore.Independent view)
    {d e : SFrameDecryptor D R} (hkey : e.baseKey = d.baseKey) (hepoch : e.epoch = d.epoch)
    (hsuite : e.suite = d.suite) {x : SealedFrame}
    (hview : ∀ h, x.header = some h → view d.replay h.keyId = view e.replay h.keyId) :
    d.verdict x = e.verdict x := by
  rw [verdict, verdict, hkey, hepoch, hsuite]
  cases hx : EncryptedFrameView.tryWithMetaData x.payload x.extraAad with
  | error _ => rfl
  | ok h =>
      have hheader : x.header = some h := by rw [SealedFrame.header, hx]; rfl
      dsimp only
      rw [hI.inspect _ _ h (hview h hheader)]

/-- Two decryptors of one epoch whose records agree on the key ids `own`. -/
structure Alike {V : Type} (view : R → KeyId → V) (own : KeyId → Bool)
    (d e : SFrameDecryptor D R) : Prop where
  left : d.Cached
  right : e.Cached
  baseKey : e.baseKey = d.baseKey
  epoch : e.epoch = d.epoch
  suite : e.suite = d.suite
  view : ∀ k, own k = true → view d.replay k = view e.replay k

namespace Alike

variable {V : Type} {view : R → KeyId → V} {own : KeyId → Bool} {d e : SFrameDecryptor D R}

theorem verdict (h : Alike view own d e) (hI : ReplayStore.Independent view) {x : SealedFrame}
    (hx : x.carries own = true) : d.verdict x = e.verdict x := by
  refine verdict_congr hI h.baseKey h.epoch h.suite fun g hg => h.view g.keyId ?_
  rwa [SealedFrame.carries, hg] at hx

theorem decrypt (h : Alike view own d e) (hI : ReplayStore.Independent view)
    (hR : ReplayStore.Records R) {x : SealedFrame} (hx : x.carries own = true) :
    Alike view own (d.decrypt x).2 (e.decrypt x).2 := by
  obtain ⟨keys, hd, hdc⟩ := decrypt_spec hR h.left x
  obtain ⟨keys', he, hec⟩ := decrypt_spec hR h.right x
  rw [hd, he]
  refine ⟨hdc, hec, h.baseKey, h.epoch, h.suite, fun k hk => ?_⟩
  dsimp only [recorded]
  rw [h.verdict hI hx]
  cases hv : e.verdict x with
  | error _ => exact h.view k hk
  | ok _ =>
      cases hg : x.header with
      | none => exact h.view k hk
      | some g =>
          dsimp only
          by_cases hkg : k = g.keyId
          · rw [hkg]
            exact hI.own _ _ g (h.view g.keyId (hkg ▸ hk))
          · rw [hI.other _ g k hkg, hI.other _ g k hkg]
            exact h.view k hk

/-- A payload of another sender leaves the two alike. -/
theorem decrypt_left (h : Alike view own d e) (hI : ReplayStore.Independent view)
    (hR : ReplayStore.Records R) {x : SealedFrame} (hx : x.carries own = false) :
    Alike view own (d.decrypt x).2 e := by
  obtain ⟨keys, hd, hdc⟩ := decrypt_spec hR h.left x
  rw [hd]
  refine ⟨hdc, h.right, h.baseKey, h.epoch, h.suite, fun k hk => ?_⟩
  dsimp only [recorded]
  cases hv : d.verdict x with
  | error _ => exact h.view k hk
  | ok _ =>
      cases hg : x.header with
      | none => exact h.view k hk
      | some g =>
          dsimp only
          have hkg : k ≠ g.keyId := by
            rintro rfl
            rw [SealedFrame.carries, hg, Option.any_some, hk] at hx
            exact Bool.noConfusion hx
          rw [hI.other _ g k hkg]
          exact h.view k hk

end Alike

/-- The frames of other senders are invisible to a sender, and so is the cache. -/
theorem resultsOf_eq (hR : ReplayStore.Records R) {V : Type} {view : R → KeyId → V}
    (hI : ReplayStore.Independent view) {own : KeyId → Bool} {d e : SFrameDecryptor D R}
    (h : Alike view own d e) (xs : List SealedFrame) :
    resultsOf own d xs = results e (xs.filter (·.carries own)) := by
  have hfilter : resultsOf own d xs = resultsOf own e (xs.filter (·.carries own)) := by
    refine Machine.observe_filter (Alike view own) (·.carries own) ?_ ?_ ?_ ?_ h xs
    · intro s t x hx hst
      exact hst.decrypt hI hR hx
    · intro s t x hx hst
      exact hst.decrypt_left hI hR hx
    · intro s t x hx hst
      obtain ⟨_, hs, _⟩ := decrypt_spec hR hst.left x
      obtain ⟨_, ht, _⟩ := decrypt_spec hR hst.right x
      rw [if_pos hx, if_pos hx, hs, ht, hst.verdict hI hx]
    · intro s x hx
      rw [hx]
      rfl
  rw [hfilter, resultsOf, results]
  refine Machine.observe_congr ?_ _
  intro s x hx
  rw [if_pos (List.mem_filter.mp hx).2]

omit [MlsKeyId] [EncryptedFrameView] [ReplayStore R] in
/-- The cache may be exchanged for any other that fits. -/
theorem alike_keys {V : Type} (view : R → KeyId → V) (own : KeyId → Bool)
    {d : SFrameDecryptor D R} {keys : AList fun _ : KeyId => D} (hd : d.Cached)
    (hkeys : ({ d with keys := keys } : SFrameDecryptor D R).Cached) :
    Alike view own { d with keys := keys } d :=
  ⟨hkeys, hd, rfl, rfl, rfl, fun _ _ => rfl⟩

/-- Only a payload with a header is opened. -/
theorem header_of_isOk (hR : ReplayStore.Records R) {d : SFrameDecryptor D R} (h : d.Cached)
    {x : SealedFrame} (hx : (d.decrypt x).1.isOk = true) :
    ∃ g, x.header = some g ∧ ReplayStore.inspect d.replay g = true ∧
      (d.decrypt x).2.replay = (ReplayStore.validate d.replay g).2 := by
  obtain ⟨keys, hd, -⟩ := decrypt_spec hR h x
  rw [hd] at hx ⊢
  dsimp only [recorded] at hx ⊢
  cases hv : d.verdict x with
  | error _ => rw [hv] at hx; exact Bool.noConfusion hx
  | ok _ =>
      rw [verdict] at hv
      cases hview : EncryptedFrameView.tryWithMetaData x.payload x.extraAad with
      | error _ => rw [hview] at hv; cases hv
      | ok g =>
          have hheader : x.header = some g := by rw [SealedFrame.header, hview]; rfl
          rw [hview] at hv
          dsimp only at hv
          by_cases hepoch : SFrameHeader.epochFromKid g.keyId ≠ SFrameHeader.epochLsb d.epoch
          · rw [if_pos hepoch] at hv
            cases hv
          rw [if_neg hepoch] at hv
          by_cases hseen : ReplayStore.inspect d.replay g = false
          · rw [if_pos hseen] at hv
            cases hv
          rw [hheader]
          exact ⟨g, rfl, Bool.of_not_eq_false hseen, rfl⟩

/-- A call that fails leaves the records alone. -/
theorem decrypt_error (hR : ReplayStore.Records R) {d : SFrameDecryptor D R} (h : d.Cached)
    {x : SealedFrame} (hx : (d.decrypt x).1.isOk = false) :
    (d.decrypt x).2.replay = d.replay := by
  obtain ⟨keys, hd, -⟩ := decrypt_spec hR h x
  rw [hd] at hx ⊢
  dsimp only [recorded] at hx ⊢
  cases hv : d.verdict x with
  | error _ => rfl
  | ok _ => rw [hv] at hx; exact Bool.noConfusion hx

theorem Alike.decrypt_error {V : Type} {view : R → KeyId → V} {own : KeyId → Bool}
    {d e : SFrameDecryptor D R} (h : Alike view own d e) (hR : ReplayStore.Records R)
    {x : SealedFrame} (hx : (d.decrypt x).1.isOk = false) : Alike view own (d.decrypt x).2 e := by
  obtain ⟨keys, hd, hdc⟩ := decrypt_spec hR h.left x
  have hreplay := SFrameDecryptor.decrypt_error hR h.left hx
  rw [hd] at hreplay ⊢
  refine ⟨hdc, h.right, h.baseKey, h.epoch, h.suite, fun k hk => ?_⟩
  rw [hreplay]
  exact h.view k hk

/-- Without the calls that failed the others answer the same. -/
theorem results_opened (hR : ReplayStore.Records R) {V : Type} {view : R → KeyId → V}
    (hI : ReplayStore.Independent view) {d e : SFrameDecryptor D R}
    (h : d.Alike view (fun _ => true) e) (xs : List SealedFrame) :
    results e (opened d xs) = (results d xs).filter (·.isOk) := by
  induction xs generalizing d e with
  | nil => rfl
  | cons x xs ih =>
      rw [results_cons, opened_cons]
      cases hx : (d.decrypt x).1.isOk with
      | false =>
          have hrest := ih (h.decrypt_error hR hx)
          rw [if_neg Bool.false_ne_true, List.nil_append, hrest,
            List.filter_cons_of_neg (by rw [hx]; exact Bool.false_ne_true)]
      | true =>
          obtain ⟨g, hg, -, -⟩ := header_of_isOk hR h.left hx
          have hcarries : x.carries (fun _ => true) = true := by rw [SealedFrame.carries, hg]; rfl
          have hrest := ih (h.decrypt hI hR hcarries)
          have hsame : (e.decrypt x).1 = (d.decrypt x).1 := by
            obtain ⟨_, hd, _⟩ := decrypt_spec hR h.left x
            obtain ⟨_, he, _⟩ := decrypt_spec hR h.right x
            rw [hd, he, h.verdict hI hcarries]
          rw [if_pos rfl, List.singleton_append, results_cons, hsame, hrest,
            List.filter_cons_of_pos hx]

/-- A header that was accepted is refused by the records from then on. -/
def Refused (d : SFrameDecryptor D R) (log : List FrameHeader) : Prop :=
  d.Cached ∧ log.Nodup ∧ ∀ h ∈ log, ∀ gs,
    ReplayStore.inspect (Machine.run (fun t g => (ReplayStore.validate t g).2) d.replay gs) h = false

theorem Refused.decrypt (hR : ReplayStore.Records R) {d : SFrameDecryptor D R}
    {log : List FrameHeader} (h : d.Refused log) (x : SealedFrame) :
    (d.decrypt x).2.Refused
      (log ++ if (d.decrypt x).1.isOk then x.header.toList else []) := by
  obtain ⟨hcached, hnodup, hrefused⟩ := h
  have hcached' : (d.decrypt x).2.Cached := by
    obtain ⟨_, hd, hc⟩ := decrypt_spec hR hcached x
    rw [hd]
    exact hc
  cases hx : (d.decrypt x).1.isOk with
  | false =>
      rw [if_neg Bool.false_ne_true, List.append_nil]
      refine ⟨hcached', hnodup, ?_⟩
      rw [decrypt_error hR hcached hx]
      exact hrefused
  | true =>
      obtain ⟨g, hg, hfresh, hnext⟩ := header_of_isOk hR hcached hx
      have hnew : g ∉ log := by
        intro hmem
        have hold := hrefused g hmem []
        rw [Machine.run_nil, hfresh] at hold
        cases hold
      rw [if_pos rfl, hg, Option.toList_some]
      refine ⟨hcached', ?_, ?_⟩
      · exact List.nodup_append.mpr ⟨hnodup, List.nodup_singleton g, by
          rintro a ha b hb rfl
          exact hnew (List.mem_singleton.mp hb ▸ ha)⟩
      · intro h hh gs
        rw [hnext]
        rcases List.mem_append.mp hh with hold | hthis
        · exact hrefused h hold (g :: gs)
        · rw [List.mem_singleton.mp hthis]
          exact hR.refuses d.replay g gs ((hR.answer d.replay g).trans hfresh)

omit [MlsKeyId] [EncryptedFrameView] in
theorem cached_new (baseKey : BaseKey) (epoch : UInt64) (suite : CipherSuite) :
    (new baseKey epoch suite : SFrameDecryptor D R).Cached := by
  intro kid key hkey
  rw [new, AList.lookup_empty] at hkey
  cases hkey

theorem cached_run (hR : ReplayStore.Records R) {d : SFrameDecryptor D R} (h : d.Cached)
    (xs : List SealedFrame) : (Machine.run (fun d x => (d.decrypt x).2) d xs).Cached := by
  refine Machine.run_invariant h fun e x _ he => ?_
  obtain ⟨_, hx, hc⟩ := decrypt_spec hR he x
  rw [hx]
  exact hc

/-- Replay safety of the decryptor of one epoch, for every sequence of payloads. No header is
accepted twice; a call that fails leaves the records alone, and without the calls that failed the
others answer the same; the answers to the payloads of some key ids are the answers to these
payloads alone, from any point of the sequence on and with whatever keys the cache holds there. -/
theorem decryptor_replay_safe (hR : ReplayStore.Records R) {V : Type} {view : R → KeyId → V}
    (hI : ReplayStore.Independent view) (baseKey : BaseKey) (epoch : UInt64)
    (suite : CipherSuite) (xs : List SealedFrame) :
    let d : SFrameDecryptor D R := new baseKey epoch suite
    let after := Machine.run (fun d x => (decrypt d x).2) d
    (accepted d xs).Nodup ∧
      (∀ earlier x later, xs = earlier ++ x :: later →
        ((after earlier).decrypt x).1.isOk = false →
          ((after earlier).decrypt x).2.replay = (after earlier).replay) ∧
      results d (opened d xs) = (results d xs).filter (·.isOk) ∧
      ∀ own earlier later keys, xs = earlier ++ later →
        ({ after earlier with keys := keys } : SFrameDecryptor D R).Cached →
          resultsOf own { after earlier with keys := keys } later =
            results (after earlier) (later.filter (·.carries own)) := by
  intro d after
  have hnew : d.Cached := cached_new baseKey epoch suite
  have hafter : ∀ ys, (after ys).Cached := cached_run hR hnew
  refine ⟨?_, ?_, ?_, ?_⟩
  · have hall : Machine.Along (fun d x => (decrypt d x).2) (fun _ _ => True) d xs :=
      Machine.along_of_forall (fun _ _ => trivial) _ d
    have hstart : d.Refused [] := ⟨hnew, List.nodup_nil, fun _ hh => absurd hh List.not_mem_nil⟩
    have hend := Machine.along_invariant
      (fun d x => if (decrypt d x).1.isOk then x.header.toList else []) Refused hstart hall
      fun e log x _ he => he.decrypt hR x
    exact hend.2.1
  · intro earlier x later _ hx
    exact decrypt_error hR (hafter earlier) hx
  · exact results_opened hR hI (alike_keys view _ hnew hnew) xs
  · intro own earlier later keys _ hkeys
    exact resultsOf_eq hR hI (alike_keys view own (hafter earlier) hkeys) later

end SFrameDecryptor


/-! A transparent cipher that checks the metadata and a store that keeps every header. -/

/-- Eight bytes of key id and eight of counter follow the metadata. -/
instance : EncryptedFrameView where
  tryWithMetaData payload extraAad :=
    let rest := payload.drop extraAad.length
    if rest.length < 16 then .error "buffer too small"
    else .ok ⟨UInt64.ofNat (beNat 0 (rest.take 8)), UInt64.ofNat (beNat 0 ((rest.drop 8).take 8))⟩

instance : DecryptionKey PlainKey where
  deriveFrom := PlainKey.mk
  decrypt _ payload extraAad :=
    if payload.take extraAad.length = extraAad then .ok (payload.drop (extraAad.length + 16))
    else .error "authentication failed"

/-- The headers validated so far. -/
abbrev SeenHeaders := List FrameHeader

instance : ReplayStore SeenHeaders where
  withTolerance _ := []
  inspect s h := !decide (h ∈ s)
  validate s h := (!decide (h ∈ s), if h ∈ s then s else h :: s)

/-- The headers of one key id. -/
def SeenHeaders.view (s : SeenHeaders) (k : KeyId) : List FrameHeader :=
  s.filter fun g => g.keyId = k

theorem SeenHeaders.records : ReplayStore.Records SeenHeaders where
  answer _ _ := rfl
  refuses s h gs hfresh := by
    have hnew : h ∉ s := of_decide_eq_false (Bool.not_eq_true' _ ▸ hfresh)
    have hmem : h ∈ Machine.run (fun t g => (ReplayStore.validate t g).2)
        (ReplayStore.validate s h).2 gs := by
      refine Machine.run_invariant ?_ fun t g _ ht => ?_
      · change h ∈ if h ∈ s then s else h :: s
        rw [if_neg hnew]
        exact List.mem_cons_self ..
      · change h ∈ if g ∈ t then t else g :: t
        split
        · exact ht
        · exact List.mem_cons_of_mem g ht
    exact congrArg not (decide_eq_true hmem)

theorem SeenHeaders.mem_iff_of_view {s t : SeenHeaders} {h : FrameHeader}
    (hview : s.view h.keyId = t.view h.keyId) : h ∈ s ↔ h ∈ t := by
  have hmem : ∀ u : SeenHeaders, h ∈ u.view h.keyId ↔ h ∈ u := by
    intro u
    rw [view, List.mem_filter, decide_eq_true rfl]
    exact and_iff_left rfl
  rw [← hmem s, ← hmem t, hview]

theorem SeenHeaders.independent : ReplayStore.Independent SeenHeaders.view where
  inspect s t h hview := congrArg not (decide_eq_decide.mpr (mem_iff_of_view hview))
  own s t h hview := by
    change view (if h ∈ s then s else h :: s) h.keyId = view (if h ∈ t then t else h :: t) h.keyId
    by_cases hs : h ∈ s
    · rw [if_pos hs, if_pos ((mem_iff_of_view hview).mp hs)]
      exact hview
    · rw [if_neg hs, if_neg fun ht => hs ((mem_iff_of_view hview).mpr ht)]
      simp only [view, List.filter_cons, decide_true, if_true]
      exact congrArg _ hview
  other s h k hk := by
    change view (if h ∈ s then s else h :: s) k = view s k
    by_cases hs : h ∈ s
    · rw [if_pos hs]
    · rw [if_neg hs, view, view, List.filter_cons_of_neg]
      exact fun heq => hk (of_decide_eq_true heq).symm

/-- A payload of a leaf in epoch five with a counter and one byte of media, and the metadata it
was made with. -/
private def leafFrame (leaf : UInt32) (counter : ℕ) (madeWith : Bytes) : SealedFrame :=
  ⟨madeWith ++ beBytes 8 (SFrameHeader.kidFrom 5 leaf).toNat ++ beBytes 8 counter ++ [7], [1]⟩

/-- Two senders with equal counters, a duplicate and a forgery that does not use its counter up. -/
theorem decryptor_replay_safe_six :
    let d : SFrameDecryptor PlainKey SeenHeaders :=
      SFrameDecryptor.new (Vector.replicate 32 0) 5 .aes128Gcm
    let xs := [leafFrame 1 0 [1], leafFrame 2 0 [1], leafFrame 1 0 [1], leafFrame 1 1 [9],
      leafFrame 1 1 [1], leafFrame 2 1 [1]]
    d.results xs = [.ok ([7], 1), .ok ([7], 2),
        .error (.replay (SFrameHeader.kidFrom 5 1) 0), .error .decrypt, .ok ([7], 1),
        .ok ([7], 2)] ∧
      (d.accepted xs).Nodup ∧ d.results (d.opened xs) = (d.results xs).filter (·.isOk) :=
  have hsafe := SFrameDecryptor.decryptor_replay_safe (D := PlainKey) SeenHeaders.records
    SeenHeaders.independent (Vector.replicate 32 0) 5 .aes128Gcm
    [leafFrame 1 0 [1], leafFrame 2 0 [1], leafFrame 1 0 [1], leafFrame 1 1 [9],
      leafFrame 1 1 [1], leafFrame 2 1 [1]]
  ⟨by decide +kernel, hsafe.1, hsafe.2.2.1⟩

end GroupProtocol
