import GroupProtocol.SFrame.Speaking

/-!
# Encrypted audio from end to end

The frames of the devices of an epoch reach a receiver of that epoch. What it opens are frames that
were spoken, each under the leaf that spoke it and each once, whatever the network does and whatever
forgeries it adds; inside the replay window it opens every frame that arrives.
-/

namespace GroupProtocol

open SFrameHeader

/-- The replay records let a header through that was not recorded yet and is not as far as the
tolerance behind any recorded one of its key id. -/
def ReplayStore.Slides (R : Type) [ReplayStore R] : Prop :=
  ∀ tolerance (hs : List FrameHeader) h, h ∉ hs →
    (∀ g ∈ hs, g.keyId = h.keyId → g.counter.toNat < h.counter.toNat + tolerance.toNat) →
      inspect (Machine.run (fun t g => (validate t g).2) (withTolerance tolerance : R) hs) h = true

/-- What arrives at a receiver: a frame that was spoken, or something else. -/
inductive VoiceArrival
  | genuine (f : SpokenFrame)
  | forged (x : SealedFrame)

namespace VoiceArrival

/-- The bytes that arrive. -/
def sealedFrame : VoiceArrival → SealedFrame
  | genuine f => f.sealedFrame
  | forged x => x

/-- The frame that arrives, if it was spoken. -/
def frame : VoiceArrival → Option SpokenFrame
  | genuine f => some f
  | forged _ => none

/-- The frames among some arrivals. -/
def frames (as : List VoiceArrival) : List SpokenFrame := as.filterMap frame

/-- Every frame that arrives is less than the window behind the frames of its leaf before it. -/
def InWindow (as : List VoiceArrival) : Prop :=
  ∀ earlier f later, as = earlier ++ .genuine f :: later → ∀ g ∈ frames earlier, g.leaf = f.leaf →
    g.header.counter.toNat < f.header.counter.toNat + SFrameDecryptor.replayWindow.toNat

end VoiceArrival

namespace SFrameDecryptor

open SessionHandles VoiceArrival

variable {D R : Type} [MlsKeyId] [EncryptedFrameView] [DecryptionKey D] [ReplayStore R]

/-- The media a receiver opens along some arrivals, with the leaf it reports for each. -/
def heard (d : SFrameDecryptor D R) (as : List VoiceArrival) : List (Bytes × UInt32) :=
  (d.results (as.map sealedFrame)).filterMap Except.toOption

/-- The spoken frames that the records let through. -/
def kept (r : R) : List VoiceArrival → List SpokenFrame
  | [] => []
  | .genuine f :: as =>
    if ReplayStore.inspect r f.header then f :: kept (ReplayStore.validate r f.header).2 as
    else kept r as
  | .forged _ :: as => kept r as

/-- The payload does not open under the key that its header names. -/
def Forged (D : Type) [DecryptionKey D] (baseKey : BaseKey) (suite : CipherSuite)
    (x : SealedFrame) : Prop :=
  ∀ h media, x.header = some h →
    DecryptionKey.decrypt (DecryptionKey.deriveFrom suite h.keyId baseKey : D) x.payload
      x.extraAad ≠ .ok media

omit [EncryptedFrameView] in
/-- The epoch of a key id of the epoch passes, and its leaf comes back. -/
theorem kidFrom_fits (hpacks : MlsKeyId.Packs) (epoch : UInt64) {leaf : UInt32}
    (hleaf : leaf < 65536) :
    epochFromKid (kidFrom epoch leaf) = epochLsb epoch ∧ leafFromKid (kidFrom epoch leaf) = leaf := by
  refine ⟨?_, (leafFromKid_eq_iff hpacks epoch leaf).mpr hleaf⟩
  apply UInt64.toNat_inj.mp
  rw [epochFromKid_kidFrom hpacks, epochLsb, epochFromKid_kidFrom hpacks]

/-- A receiver of the epoch whose cached keys are right. -/
structure Hears (baseKey : BaseKey) (epoch : UInt64) (suite : CipherSuite)
    (d : SFrameDecryptor D R) : Prop where
  cached : d.Cached
  sameKey : d.baseKey = baseKey
  sameEpoch : d.epoch = epoch
  sameSuite : d.suite = suite

section Hearing

variable {baseKey : BaseKey} {epoch : UInt64} {suite : CipherSuite} {d : SFrameDecryptor D R}

theorem Hears.decrypt (hR : ReplayStore.Records R) (h : Hears baseKey epoch suite d)
    (x : SealedFrame) :
    (d.decrypt x).1 = d.verdict x ∧ (d.decrypt x).2.replay = d.recorded x ∧
      Hears baseKey epoch suite (d.decrypt x).2 := by
  obtain ⟨keys, heq, hcached⟩ := decrypt_spec hR h.cached x
  rw [heq]
  exact ⟨rfl, rfl, hcached, h.sameKey, h.sameEpoch, h.sameSuite⟩

/-- A spoken frame is opened when the records let it through. -/
theorem Hears.genuine (hpacks : MlsKeyId.Packs) (hR : ReplayStore.Records R)
    (h : Hears baseKey epoch suite d) {f : SpokenFrame} (hf : Authentic D baseKey epoch suite f)
    (hleaf : f.leaf < 65536) :
    (d.decrypt f.sealedFrame).1.toOption =
        (if ReplayStore.inspect d.replay f.header then some f.said else none) ∧
      (d.decrypt f.sealedFrame).2.replay =
        if ReplayStore.inspect d.replay f.header then (ReplayStore.validate d.replay f.header).2
        else d.replay := by
  obtain ⟨hanswer, hreplay, -⟩ := h.decrypt hR f.sealedFrame
  obtain ⟨hepoch, hback⟩ := kidFrom_fits hpacks epoch hleaf
  rw [← hf.keyId] at hepoch hback
  have hverdict : d.verdict f.sealedFrame =
      if ReplayStore.inspect d.replay f.header = false then
        .error (.replay f.header.keyId f.header.counter)
      else .ok f.said := by
    rw [verdict, hf.header, h.sameEpoch, h.sameKey, h.sameSuite]
    dsimp only
    rw [if_neg (not_not.mpr hepoch), hf.opens, hback]
    rfl
  have hheader : f.sealedFrame.header = some f.header := by
    rw [SealedFrame.header, hf.header]
    rfl
  rw [hanswer, hreplay, recorded, hheader, hverdict]
  cases ReplayStore.inspect d.replay f.header <;> exact ⟨rfl, rfl⟩

/-- What does not authenticate is refused and changes nothing. -/
theorem Hears.forged (hR : ReplayStore.Records R) (h : Hears baseKey epoch suite d)
    {x : SealedFrame} (hx : Forged D baseKey suite x) :
    (d.decrypt x).1.toOption = none ∧ (d.decrypt x).2.replay = d.replay := by
  obtain ⟨hanswer, hreplay, -⟩ := h.decrypt hR x
  have hverdict : ∃ e, d.verdict x = .error e := by
    rw [verdict, h.sameKey, h.sameSuite]
    cases hview : EncryptedFrameView.tryWithMetaData x.payload x.extraAad with
    | error e => exact ⟨_, rfl⟩
    | ok g =>
        have hheader : x.header = some g := by
          rw [SealedFrame.header, hview]
          rfl
        dsimp only
        split
        · exact ⟨_, rfl⟩
        split
        · exact ⟨_, rfl⟩
        split
        · exact ⟨_, rfl⟩
        · rename_i media hmedia
          exact absurd hmedia (hx g media hheader)
  obtain ⟨e, he⟩ := hverdict
  rw [hanswer, hreplay, recorded, he]
  exact ⟨rfl, rfl⟩

/-- A receiver hears what its records let through. -/
theorem heard_eq (hpacks : MlsKeyId.Packs) (hR : ReplayStore.Records R)
    (h : Hears baseKey epoch suite d) {as : List VoiceArrival}
    (hgenuine : ∀ f ∈ frames as, f.leaf < 65536 ∧ Authentic D baseKey epoch suite f)
    (hforged : ∀ x, .forged x ∈ as → Forged D baseKey suite x) :
    d.heard as = (kept d.replay as).map SpokenFrame.said := by
  induction as generalizing d with
  | nil => rfl
  | cons a as ih =>
      have hrest := ih (h.decrypt hR a.sealedFrame).2.2
        (fun f hf => hgenuine f (List.Sublist.subset (List.Sublist.filterMap _ (List.sublist_cons_self a as)) hf))
        fun x hx => hforged x (List.mem_cons_of_mem a hx)
      have hcons : d.heard (a :: as) =
          (d.decrypt a.sealedFrame).1.toOption.toList ++ (d.decrypt a.sealedFrame).2.heard as := by
        rw [heard, List.map_cons, results_cons, List.filterMap_cons]
        cases (d.decrypt a.sealedFrame).1.toOption <;> rfl
      rw [hcons, hrest]
      cases a with
      | forged x =>
          obtain ⟨hanswer, hreplay⟩ := h.forged hR (hforged x (List.mem_cons_self ..))
          rw [sealedFrame, hanswer, hreplay]
          rfl
      | genuine f =>
          obtain ⟨hleaf, hauth⟩ := hgenuine f (List.mem_cons_self ..)
          obtain ⟨hanswer, hreplay⟩ := h.genuine hpacks hR hauth hleaf
          rw [sealedFrame, hanswer, hreplay, kept]
          cases ReplayStore.inspect d.replay f.header <;> rfl

end Hearing

/-! What the records let through. -/

omit [MlsKeyId] [EncryptedFrameView] in
theorem kept_sublist (r : R) (as : List VoiceArrival) : (kept r as).Sublist (frames as) := by
  induction as generalizing r with
  | nil => exact List.Sublist.refl []
  | cons a as ih =>
      cases a with
      | forged x => exact ih r
      | genuine f =>
          rw [kept]
          split
          · exact (ih _).cons_cons f
          · exact (ih r).cons f

omit [MlsKeyId] [EncryptedFrameView] in
/-- A header that is refused for good is not let through. -/
theorem header_ne_of_refused {r : R} {h : FrameHeader}
    (hrefused : ∀ gs, ReplayStore.inspect
      (Machine.run (fun t g => (ReplayStore.validate t g).2) r gs) h = false)
    (as : List VoiceArrival) : ∀ f ∈ kept r as, f.header ≠ h := by
  induction as generalizing r with
  | nil => exact fun f hf => absurd hf List.not_mem_nil
  | cons a as ih =>
      cases a with
      | forged x => exact ih hrefused
      | genuine g =>
          rw [kept]
          split
          · rename_i hpass
            intro f hf
            rcases List.mem_cons.mp hf with rfl | hf
            · rintro rfl
              cases hpass.symm.trans (hrefused [])
            · exact ih (fun gs => hrefused (g.header :: gs)) f hf
          · exact ih hrefused

omit [MlsKeyId] [EncryptedFrameView] in
/-- No header is let through twice. -/
theorem kept_pairwise (hR : ReplayStore.Records R) (r : R) (as : List VoiceArrival) :
    (kept r as).Pairwise fun f g => f.header ≠ g.header := by
  induction as generalizing r with
  | nil => exact List.Pairwise.nil
  | cons a as ih =>
      cases a with
      | forged x => exact ih r
      | genuine f =>
          rw [kept]
          split
          · rename_i hpass
            refine List.pairwise_cons.mpr ⟨fun g hg => ?_, ih _⟩
            exact (header_ne_of_refused (fun gs => hR.refuses r f.header gs
              ((hR.answer r f.header).trans hpass)) as g hg).symm
          · exact ih r

/-- The records hold the headers of the frames let through so far, and refuse them for good. -/
structure Holding (hs : List SpokenFrame) (r : R) : Prop where
  records : r = Machine.run (fun t g => (ReplayStore.validate t g).2)
    (ReplayStore.withTolerance replayWindow) (hs.map SpokenFrame.header)
  refused : ∀ f ∈ hs, ∀ gs, ReplayStore.inspect
    (Machine.run (fun t g => (ReplayStore.validate t g).2) r gs) f.header = false

omit [MlsKeyId] [EncryptedFrameView] in
theorem Holding.validate (hR : ReplayStore.Records R) {hs : List SpokenFrame} {r : R}
    (h : Holding hs r) {f : SpokenFrame} (hpass : ReplayStore.inspect r f.header = true) :
    Holding (hs ++ [f]) (ReplayStore.validate r f.header).2 := by
  constructor
  · rw [List.map_append, Machine.run_append, ← h.records]
    rfl
  · intro g hg gs
    rcases List.mem_append.mp hg with hg | hg
    · exact h.refused g hg (f.header :: gs)
    · obtain rfl := List.mem_singleton.mp hg
      exact hR.refuses r g.header gs ((hR.answer r g.header).trans hpass)

omit [MlsKeyId] [EncryptedFrameView] in
/-- Inside the window every frame is let through when it arrives first. -/
theorem kept_eq_eraseDups (hR : ReplayStore.Records R) (hslides : ReplayStore.Slides R)
    {S : SpokenFrame → Prop}
    (hinj : ∀ f g, S f → S g → f.header = g.header → f = g)
    (hleaf : ∀ f g, S f → S g → f.header.keyId = g.header.keyId → f.leaf = g.leaf)
    {hs : List SpokenFrame} {r : R} (h : Holding hs r) (hhs : ∀ f ∈ hs, S f)
    {as : List VoiceArrival} (has : ∀ f ∈ frames as, S f)
    (hwindow : ∀ earlier f later, as = earlier ++ .genuine f :: later →
      ∀ g ∈ hs ++ frames earlier, g.leaf = f.leaf →
        g.header.counter.toNat < f.header.counter.toNat + replayWindow.toNat) :
    kept r as = ((frames as).filter fun f => f ∉ hs).eraseDups := by
  induction as generalizing hs r with
  | nil => rfl
  | cons a as ih =>
      cases a with
      | forged x =>
          refine ih h hhs has fun earlier f later heq => ?_
          exact hwindow (.forged x :: earlier) f later (congrArg (_ :: ·) heq)
      | genuine f =>
          have hf : S f := has f (List.mem_cons_self ..)
          have has' : ∀ g ∈ frames as, S g := fun g hg => has g (List.mem_cons_of_mem f hg)
          have hframes : frames (.genuine f :: as) = f :: frames as := rfl
          rw [kept, hframes]
          by_cases hmem : f ∈ hs
          · have hrefused : ReplayStore.inspect r f.header = false := h.refused f hmem []
            rw [if_neg (by rw [hrefused]; exact Bool.false_ne_true),
              List.filter_cons_of_neg (by simpa using hmem)]
            refine ih h hhs has' fun earlier g later heq g' hg' => ?_
            refine hwindow (.genuine f :: earlier) g later (congrArg (_ :: ·) heq) g' ?_
            rcases List.mem_append.mp hg' with hg' | hg'
            · exact List.mem_append_left _ hg'
            · exact List.mem_append_right _ (List.mem_cons_of_mem f hg')
          · have hpass : ReplayStore.inspect r f.header = true := by
              rw [h.records]
              refine hslides _ _ _ ?_ ?_
              · intro hold
                obtain ⟨g, hg, heq⟩ := List.mem_map.mp hold
                exact hmem (hinj g f (hhs g hg) hf heq ▸ hg)
              · intro h' hh' hkid
                obtain ⟨g, hg, rfl⟩ := List.mem_map.mp hh'
                exact hwindow [] f as rfl g (List.mem_append_left _ hg)
                  (hleaf g f (hhs g hg) hf hkid)
            rw [if_pos hpass, List.filter_cons_of_pos (by simpa using hmem), List.eraseDups_cons,
              List.filter_filter]
            refine congrArg (f :: ·) ((ih (h.validate hR hpass) ?_ has' ?_).trans ?_)
            · intro g hg
              rcases List.mem_append.mp hg with hg | hg
              · exact hhs g hg
              · exact List.mem_singleton.mp hg ▸ hf
            · intro earlier g later heq g' hg'
              refine hwindow (.genuine f :: earlier) g later (congrArg (_ :: ·) heq) g' ?_
              rcases List.mem_append.mp hg' with hg' | hg'
              · rcases List.mem_append.mp hg' with hg' | hg'
                · exact List.mem_append_left _ hg'
                · exact List.mem_append_right _ (List.mem_singleton.mp hg' ▸ List.mem_cons_self ..)
              · exact List.mem_append_right _ (List.mem_cons_of_mem f hg')
            · refine congrArg List.eraseDups (List.filter_congr fun g _ => ?_)
              rw [Bool.eq_iff_iff]
              simp [and_comm]

/-- Encrypted audio from end to end. Devices of one epoch that own their leaves make any calls, and
a receiver of the epoch gets their frames lost, repeated and reordered in any way, with forgeries
between them. What it opens are frames that arrived, in the order of their arrival and each once,
with the media that was encrypted and the leaf that spoke; inside the replay window it opens every
frame that arrives. -/
theorem spoken_heard_once {ι K C : Type} [MonotonicCounter C] [EncryptionKey K]
    (hpacks : MlsKeyId.Packs) (hC : MonotonicCounter.Successive C)
    (hK : EncryptionKey.Serialises K) (hcodec : SFrameCodec K D) (hR : ReplayStore.Records R)
    (hslides : ReplayStore.Slides R) (baseKey : BaseKey) (epoch : UInt64) (suite : CipherSuite)
    {calls : ι → List SessionCall} (howned : Owned calls) (as : List VoiceArrival)
    (hgenuine : ∀ f ∈ frames as, Spoken K C baseKey epoch suite calls f)
    (hforged : ∀ x, .forged x ∈ as → Forged D baseKey suite x) :
    let media := (new baseKey epoch suite : SFrameDecryptor D R).heard as
    (∃ fs : List SpokenFrame, fs.Sublist (frames as) ∧ fs.Nodup ∧ media = fs.map SpokenFrame.said) ∧
      (InWindow as → media = (frames as).eraseDups.map SpokenFrame.said) := by
  intro media
  have hfacts : ∀ f, Spoken K C baseKey epoch suite calls f →
      f.leaf < 65536 ∧ Authentic D baseKey epoch suite f := by
    rintro f ⟨i, hf⟩
    obtain ⟨hasked, hauth⟩ := (derived_start (K := K) (C := C) baseKey epoch suite
      fun leaf => SessionCall.encryptor leaf ∈ calls i).observed hK hcodec (fun leaf hmem => hmem) f hf
    exact ⟨howned.range i _ hasked, hauth⟩
  have hmedia : media = (kept (ReplayStore.withTolerance replayWindow : R) as).map
      SpokenFrame.said :=
    heard_eq hpacks hR ⟨cached_new baseKey epoch suite, rfl, rfl, rfl⟩
      (fun f hf => hfacts f (hgenuine f hf)) hforged
  refine ⟨⟨_, kept_sublist _ as, ?_, hmedia⟩, fun hwindow => ?_⟩
  · refine (kept_pairwise hR _ as).imp ?_
    rintro f g hne rfl
    exact hne rfl
  · have hkept := kept_eq_eraseDups hR hslides (S := Spoken K C baseKey epoch suite calls)
      (fun f g hf hg => hf.header_inj hpacks hC hK hcodec howned hg)
      (fun f g hf hg hkid => kidFrom_inj hpacks.unpacks epoch (hfacts f hf).1 (hfacts g hg).1
        (by rw [← (hfacts f hf).2.keyId, ← (hfacts g hg).2.keyId, hkid]))
      (⟨rfl, nofun⟩ : Holding [] (ReplayStore.withTolerance replayWindow : R)) nofun hgenuine hwindow
    have hall : ((frames as).filter fun f => decide (f ∉ ([] : List SpokenFrame))) = frames as :=
      List.filter_eq_self.mpr fun f _ => decide_eq_true List.not_mem_nil
    rw [hmedia, hkept, hall]

end SFrameDecryptor

/-- The records hold nothing but what was validated. -/
theorem SeenHeaders.mem_run {s : SeenHeaders} {hs : List FrameHeader} {g : FrameHeader}
    (hg : g ∈ Machine.run (fun t g => (ReplayStore.validate t g).2) s hs) : g ∈ s ∨ g ∈ hs := by
  induction hs generalizing s with
  | nil => exact Or.inl hg
  | cons h hs ih =>
      rcases ih hg with hg | hg
      · change g ∈ (if h ∈ s then s else h :: s) at hg
        split at hg
        · exact Or.inl hg
        · rcases List.mem_cons.mp hg with rfl | hg
          · exact Or.inr (List.mem_cons_self ..)
          · exact Or.inl hg
      · exact Or.inr (List.mem_cons_of_mem h hg)

theorem SeenHeaders.slides : ReplayStore.Slides SeenHeaders := by
  intro tolerance hs h hnew _
  refine congrArg not (decide_eq_false fun hmem => ?_)
  rcases SeenHeaders.mem_run hmem with hstart | hlater
  · cases hstart
  · exact hnew hlater

/-! A cipher that binds the key id and the metadata, between two devices. -/

/-- A key that is nothing but its inputs. -/
structure BoundKey where
  suite : CipherSuite
  kid : KeyId
  baseKey : BaseKey
  deriving DecidableEq

namespace BoundKey

/-- The header of eight bytes for the key id and eight for the counter. -/
def headerBytes (kid : KeyId) (counter : UInt64) : Bytes :=
  beBytes 8 kid.toNat ++ beBytes 8 counter.toNat

/-- What stands in for the tag: the metadata with its length. -/
def tag (metaData : Bytes) : Bytes := beBytes 8 metaData.length ++ metaData

theorem length_headerBytes (kid : KeyId) (counter : UInt64) :
    (headerBytes kid counter).length = 16 := by
  rw [headerBytes, List.length_append, length_beBytes, length_beBytes]

theorem ofNat_beNat_beBytes (n : UInt64) : UInt64.ofNat (beNat 0 (beBytes 8 n.toNat)) = n := by
  have hlt : n.toNat < 256 ^ 8 := n.toNat_lt
  rw [beNat_beBytes, Nat.zero_mul, Nat.zero_add, Nat.mod_eq_of_lt hlt, UInt64.ofNat_toNat]

instance : EncryptionKey BoundKey where
  deriveFrom := BoundKey.mk
  keyId key := key.kid
  encrypt key frame := .ok (frame.metaData ++
    (headerBytes key.kid frame.counter ++ (tag frame.metaData ++ frame.payload)))

instance : DecryptionKey BoundKey where
  deriveFrom := BoundKey.mk
  decrypt key payload extraAad :=
    let body := payload.drop 16
    if payload.take 8 = beBytes 8 key.kid.toNat ∧ body.take (tag extraAad).length = tag extraAad then
      .ok (body.drop (tag extraAad).length)
    else .error "authentication failed"

/-- The header stands in front of the payload. -/
local instance : EncryptedFrameView where
  tryWithMetaData payload _ :=
    if payload.length < 16 then .error "buffer too small"
    else .ok ⟨UInt64.ofNat (beNat 0 (payload.take 8)),
      UInt64.ofNat (beNat 0 ((payload.drop 8).take 8))⟩

theorem serialises : EncryptionKey.Serialises BoundKey where
  keyId_deriveFrom _ _ _ := rfl
  metaData_prefix key frame out h := by
    cases h
    exact List.prefix_append ..

theorem codec : SFrameCodec BoundKey BoundKey where
  header key frame out h := by
    obtain rfl := Except.ok.inj h
    rw [List.drop_left]
    simp only [EncryptedFrameView.tryWithMetaData]
    rw [if_neg (by rw [List.length_append, length_headerBytes]; omega), headerBytes,
      List.append_assoc, List.take_left' (length_beBytes 8 _), List.drop_left' (length_beBytes 8 _),
      List.take_left' (length_beBytes 8 _), ofNat_beNat_beBytes, ofNat_beNat_beBytes]
    rfl
  opens suite kid base frame out h := by
    obtain rfl := Except.ok.inj h
    rw [List.drop_left]
    simp only [DecryptionKey.decrypt, DecryptionKey.deriveFrom]
    rw [List.drop_left' (length_headerBytes ..), List.take_left, List.drop_left, headerBytes,
      List.append_assoc, List.take_left' (length_beBytes 8 _), if_pos ⟨rfl, rfl⟩]

/-- One device encrypts twice for leaf 1, the other once for leaf 2. -/
def twoDevices : Bool → List SessionCall
  | false => [.encryptor 1, .encrypt 0 [10] [1], .encrypt 0 [11] [1]]
  | true => [.encryptor 2, .encrypt 0 [20] []]

/-- The frames of a device in epoch five. -/
def framesOf (i : Bool) : List SpokenFrame :=
  Machine.observe SessionHandles.step SessionHandles.spoken
    (.start (Vector.replicate 32 7) 5 .aes128Gcm : SessionHandles BoundKey PlainCounter)
    (twoDevices i)

/-- A frame of leaf 1 whose metadata was changed. -/
def tampered : SealedFrame := ⟨headerBytes (SFrameHeader.kidFrom 5 1) 1 ++ tag [1] ++ [11], [9]⟩

/-- The frames of one device backwards, a forgery, and the frames of both devices. -/
def shuffled : List VoiceArrival :=
  (framesOf false).reverse.map .genuine ++ .forged tampered ::
    (framesOf true ++ framesOf false).map .genuine

theorem twoDevices_owned : SessionHandles.Owned twoDevices where
  range i leaf h := by
    cases i <;> simp [twoDevices] at h <;> rw [h] <;> decide
  alone i j leaf hi hj := by
    cases i <;> cases j <;> simp [twoDevices] at hi hj ⊢ <;> rw [hi] at hj <;> cases hj

/-- Every frame is opened once, although one comes again and a forgery is between them. -/
theorem spoken_heard_once_shuffled :
    (SFrameDecryptor.new (Vector.replicate 32 7) 5 .aes128Gcm :
      SFrameDecryptor BoundKey SeenHeaders).heard shuffled = [([11], 1), ([10], 1), ([20], 2)] := by
  have hframes : ∀ f ∈ VoiceArrival.frames shuffled, f ∈ framesOf false ∨ f ∈ framesOf true := by
    intro f hf
    obtain ⟨a, ha, hframe⟩ := List.mem_filterMap.mp hf
    rcases List.mem_append.mp ha with ha | ha
    · obtain ⟨g, hg, rfl⟩ := List.mem_map.mp ha
      exact Or.inl (List.mem_reverse.mp (Option.some.inj hframe ▸ hg))
    · rcases List.mem_cons.mp ha with rfl | ha
      · cases hframe
      · obtain ⟨g, hg, rfl⟩ := List.mem_map.mp ha
        obtain rfl := Option.some.inj hframe
        exact (List.mem_append.mp hg).symm
  have hmedia := (SFrameDecryptor.spoken_heard_once (K := BoundKey) (C := PlainCounter)
    (D := BoundKey) MlsKeyId.packs PlainCounter.successive serialises codec SeenHeaders.records
    SeenHeaders.slides (Vector.replicate 32 7) 5 .aes128Gcm twoDevices_owned shuffled
    ?_ ?_).2 ?_
  · rw [hmedia]
    decide +kernel
  · intro f hf
    rcases hframes f hf with hf | hf
    · exact ⟨false, hf⟩
    · exact ⟨true, hf⟩
  · intro x hx h media hheader
    obtain rfl : x = tampered := by
      rcases List.mem_append.mp hx with hx | hx
      · obtain ⟨g, -, heq⟩ := List.mem_map.mp hx
        cases heq
      · rcases List.mem_cons.mp hx with heq | hx
        · exact VoiceArrival.forged.inj heq
        · obtain ⟨g, -, heq⟩ := List.mem_map.mp hx
          cases heq
    have hview : tampered.header = some ⟨SFrameHeader.kidFrom 5 1, 1⟩ := by decide +kernel
    obtain rfl := Option.some.inj (hview.symm.trans hheader)
    have hfails : DecryptionKey.decrypt (DecryptionKey.deriveFrom .aes128Gcm
        (SFrameHeader.kidFrom 5 1) (Vector.replicate 32 7) : BoundKey) tampered.payload
        tampered.extraAad = .error "authentication failed" := by decide +kernel
    rw [hfails]
    nofun
  · intro earlier f later heq g hg _
    have hsmall : ∀ i, ∀ g ∈ framesOf i, g.header.counter.toNat < 1024 := by
      intro i
      cases i <;> decide +kernel
    have hg : g ∈ VoiceArrival.frames shuffled := by
      rw [heq, VoiceArrival.frames, List.filterMap_append]
      exact List.mem_append_left _ hg
    have hlt : g.header.counter.toNat < 1024 := by
      rcases hframes g hg with hg | hg
      · exact hsmall false g hg
      · exact hsmall true g hg
    exact hlt.trans_le (Nat.le_add_left _ _)

end BoundKey

end GroupProtocol
