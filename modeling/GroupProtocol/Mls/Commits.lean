import GroupProtocol.Lib.Machine
import GroupProtocol.Mls.Context

/-!
# Pending commits of an MLS context

A context holds two commits that may wait: the group's own one, made by inviting or
removing members, and a received one, staged by `processMessage` until its
transition is executed. The wrapper guards only the second slot against itself. As
long as no call fills one slot while the other is taken, at most one commit waits,
the staged one belongs to the current group, and every `invite` merges the commit of
the Welcome it returns.
-/

namespace GroupProtocol

/-- The body of a parsed MLS message. -/
inductive MlsMessageBodyIn (M : Type)
  | publicMessage (message : M)
  | privateMessage (message : M)
  | welcome (message : M)
  | groupInfo (message : M)
  | keyPackage (message : M)
  deriving DecidableEq, Repr

/-- What the group makes of a protocol message; `C` is the type of staged commits. -/
inductive ProcessedMessageContent (C : Type)
  | applicationMessage
  | proposalMessage
  | externalJoinProposalMessage
  | stagedCommitMessage (staged : C)
  deriving DecidableEq, Repr

/-- The category of a processed message. -/
inductive ProcessedKind
  | commit
  | application
  | proposal
  | «external»
  deriving DecidableEq, Repr

/-- The message codec of the MLS crate. -/
class MlsMessage (M : Type) where
  tlsSerializeDetached : M → Except String Bytes
  tlsDeserializeExactBytes : Bytes → Except String (MlsMessageBodyIn M)
  debug : MlsMessageBodyIn M → String

/-- The calls that make, receive and drop commits. Every call returns its result together
with the group it leaves, on failure too. Key packages are bytes and `W` is the type of
staged Welcomes. -/
class MlsGroup (G : Type) (C M W : outParam Type) extends OpenMls G C where
  membersCount : G → ℕ
  addMembers : G → List Bytes → Except String (M × M) × G
  removeMembers : G → List UInt32 → Except String M × G
  clearPendingCommit : G → Except String Unit × G
  processMessage : G → M → Except String (ProcessedMessageContent C) × G
  newFromWelcome : G → M → Except String W × G
  intoGroup : G → W → Except String G × G

namespace MlsContext

section Calls

variable {G C M W : Type} [MlsGroup G C M W]

/-- Drops the staged commit and the group's own one. -/
def clearPendingCommit (m : MlsContext G C) : Except MlsError Unit × MlsContext G C :=
  match MlsGroup.clearPendingCommit m.group with
  | (.error e, group) => (.error (.openMls s!"clear: {e}"), ⟨group, none⟩)
  | (.ok (), group) => (.ok (), ⟨group, none⟩)

@[simp] theorem clearPendingCommit_pendingStaged (m : MlsContext G C) :
    m.clearPendingCommit.2.pendingStaged = none := by
  unfold clearPendingCommit
  split <;> rfl

variable [MlsMessage M]

/-- Serialises one message; the text names the message that could not be written. -/
def serialize (what : String) (message : M) : Except MlsError Bytes :=
  match MlsMessage.tlsSerializeDetached message with
  | .ok bytes => .ok bytes
  | .error e => .error (.openMls s!"{what} serialize: {e}")

/-- The Commit for the existing members and the Welcome for the joiners. The commit stays
pending, also when a serialisation fails. -/
def inviteFull (m : MlsContext G C) (keyPackages : List Bytes) :
    Except MlsError (Bytes × Bytes) × MlsContext G C :=
  match MlsGroup.addMembers m.group keyPackages with
  | (.error e, group) => (.error (.openMls s!"add_members: {e}"), { m with group := group })
  | (.ok (commit, welcome), group) =>
    match serialize "commit" commit with
    | .error e => (.error e, { m with group := group })
    | .ok commitBytes =>
      match serialize "welcome" welcome with
      | .error e => (.error e, { m with group := group })
      | .ok welcomeBytes => (.ok (commitBytes, welcomeBytes), { m with group := group })

/-- Invites, merges at once and returns the Welcome alone. -/
def invite (m : MlsContext G C) (keyPackages : List Bytes) :
    Except MlsError Bytes × MlsContext G C :=
  match m.inviteFull keyPackages with
  | (.error e, m) => (.error e, m)
  | (.ok (_, welcome), m) =>
    match m.finalizePendingCommit with
    | (.error e, m) => (.error e, m)
    | (.ok (), m) => (.ok welcome, m)

/-- The Commit that removes the given leaves. The first index beyond the group size is
refused before the group is called. -/
def removeMembers (m : MlsContext G C) (leafIndices : List UInt32) :
    Except MlsError Bytes × MlsContext G C :=
  let groupSize := (MlsGroup.membersCount m.group).toUInt32
  match leafIndices.find? (groupSize ≤ ·) with
  | some idx =>
    (.error (.openMls s!"leaf_index {idx} out of range (group size {groupSize})"), m)
  | none =>
    match MlsGroup.removeMembers m.group leafIndices with
    | (.error e, group) => (.error (.openMls s!"remove_members: {e}"), { m with group := group })
    | (.ok commit, group) => (serialize "commit" commit, { m with group := group })

/-- The protocol message in the bytes, of either framing. -/
def protocolMessage (msgBytes : Bytes) : Except MlsError M :=
  match MlsMessage.tlsDeserializeExactBytes msgBytes with
  | .error e => .error (.openMls s!"msg parse: {e}")
  | .ok (.publicMessage message) => .ok message
  | .ok (.privateMessage message) => .ok message
  | .ok other =>
    let shown := MlsMessage.debug other
    .error (.openMls s!"expected protocol message, got {shown}")

/-- Hands a message to the group. A commit is staged and waits for its transition; a second
one is refused while the first waits. -/
def processMessage (m : MlsContext G C) (msgBytes : Bytes) :
    Except MlsError ProcessedKind × MlsContext G C :=
  match protocolMessage msgBytes with
  | .error e => (.error e, m)
  | .ok message =>
    match MlsGroup.processMessage m.group message with
    | (.error e, group) => (.error (.openMls s!"process: {e}"), { m with group := group })
    | (.ok (.stagedCommitMessage staged), group) =>
      match m.pendingStaged with
      | some _ => (.error .transitionInProgress, { m with group := group })
      | none => (.ok .commit, ⟨group, some staged⟩)
    | (.ok .applicationMessage, group) => (.ok .application, { m with group := group })
    | (.ok .proposalMessage, group) => (.ok .proposal, { m with group := group })
    | (.ok .externalJoinProposalMessage, group) => (.ok .external, { m with group := group })

/-- The Welcome in the bytes. -/
def welcomeMessage (welcomeBytes : Bytes) : Except MlsError M :=
  match MlsMessage.tlsDeserializeExactBytes welcomeBytes with
  | .error e => .error (.openMls s!"welcome parse: {e}")
  | .ok (.welcome message) => .ok message
  | .ok other =>
    let shown := MlsMessage.debug other
    .error (.openMls s!"expected welcome, got {shown}")

/-- Replaces the group by the one a Welcome describes. The staged commit is not touched. -/
def acceptWelcome (m : MlsContext G C) (welcomeBytes : Bytes) :
    Except MlsError Unit × MlsContext G C :=
  match welcomeMessage welcomeBytes with
  | .error e => (.error e, m)
  | .ok welcome =>
    match MlsGroup.newFromWelcome m.group welcome with
    | (.error e, group) => (.error (.openMls s!"staged: {e}"), { m with group := group })
    | (.ok staged, group) =>
      match MlsGroup.intoGroup group staged with
      | (.error e, group) => (.error (.openMls s!"into_group: {e}"), { m with group := group })
      | (.ok joined, _) => (.ok (), { m with group := joined })

end Calls

end MlsContext

/-- The calls on a context that move its group or its staged commit. -/
inductive MlsCall
  | inviteFull (keyPackages : List Bytes)
  | invite (keyPackages : List Bytes)
  | removeMembers (leafIndices : List UInt32)
  | processMessage (msgBytes : Bytes)
  | finalizePendingCommit
  | clearPendingCommit
  | acceptWelcome (welcomeBytes : Bytes)
  deriving DecidableEq, Repr

/-- What the calls of a group are observed to do. A commit goes by an identifier in `I`, a
group at one epoch by its context in `X`. -/
structure CommitView (G C M X I : Type) where
  own : G → Option I
  context : G → X
  applied : G → List I
  base : C → X
  ident : C → I
  welcomed : M → I

namespace CommitView

variable {G C M W X I : Type}

/-- A call that neither made, dropped nor merged a commit. -/
def Keeps (v : CommitView G C M X I) (g g' : G) : Prop :=
  v.own g' = v.own g ∧ v.context g' = v.context g

/-- The group calls move commits as OpenMLS documents: adding and removing members make the
own pending commit, a processed commit is staged against the current group, a merge
advances the group by one commit, and a failed call changes no commit. -/
structure Lawful [MlsGroup G C M W] (v : CommitView G C M X I) : Prop where
  addMembers_ok : ∀ {g g' kps commit welcome},
    MlsGroup.addMembers g kps = (.ok (commit, welcome), g') →
      v.own g' = some (v.welcomed welcome) ∧ v.context g' = v.context g ∧
        v.applied g' = v.applied g
  addMembers_error : ∀ {g g' kps e}, MlsGroup.addMembers g kps = (.error e, g') → v.Keeps g g'
  removeMembers_ok : ∀ {g g' leaves commit},
    MlsGroup.removeMembers g leaves = (.ok commit, g') →
      v.own g' ≠ none ∧ v.context g' = v.context g
  removeMembers_error : ∀ {g g' leaves e},
    MlsGroup.removeMembers g leaves = (.error e, g') → v.Keeps g g'
  clearPendingCommit_ok : ∀ {g g' : G},
    MlsGroup.clearPendingCommit g = (.ok (), g') →
      v.own g' = none ∧ v.context g' = v.context g
  processMessage_keeps : ∀ (g : G) message,
    v.Keeps g (MlsGroup.processMessage g message).2
  processMessage_staged : ∀ {g g' : G} {message staged},
    MlsGroup.processMessage g message = (.ok (.stagedCommitMessage staged), g') →
      v.base staged = v.context g
  newFromWelcome_keeps : ∀ (g : G) welcome, v.Keeps g (MlsGroup.newFromWelcome g welcome).2
  intoGroup_error : ∀ {g g' : G} {staged e},
    MlsGroup.intoGroup g staged = (.error e, g') → v.Keeps g g'
  mergeStagedCommit_ok : ∀ {g g' : G} {staged},
    OpenMls.mergeStagedCommit g staged = .ok g' →
      v.own g' = none ∧ v.applied g' = v.applied g ++ [v.ident staged]
  mergePendingCommit_own : ∀ {g : G} {i}, v.own g = some i →
    ∃ g', OpenMls.mergePendingCommit C g = .ok g' ∧ v.own g' = none ∧
      v.applied g' = v.applied g ++ [i]

end CommitView

namespace MlsContext

section Model

variable {G C M W X I : Type} {v : CommitView G C M X I} {m : MlsContext G C}

/-- At most one commit waits, and a staged one was staged against the current group. -/
structure Coherent (v : CommitView G C M X I) (m : MlsContext G C) : Prop where
  one_pending : v.own m.group = none ∨ m.pendingStaged = none
  staged_current : ∀ staged, m.pendingStaged = some staged → v.base staged = v.context m.group

/-- Without a staged commit there is nothing to contradict. -/
theorem Coherent.of_none (h : m.pendingStaged = none) : Coherent v m where
  one_pending := .inr h
  staged_current staged hstaged := by
    rw [h] at hstaged
    cases hstaged

theorem Coherent.of_keeps (hm : Coherent v m) {g : G} (hg : v.Keeps m.group g) :
    Coherent v { m with group := g } where
  one_pending := by
    rw [hg.1]
    exact hm.one_pending
  staged_current staged hstaged := by
    rw [hg.2]
    exact hm.staged_current staged hstaged

variable [MlsGroup G C M W] [MlsMessage M]

/-- The context after a call, whether or not the call succeeded. -/
def step (m : MlsContext G C) : MlsCall → MlsContext G C
  | .inviteFull keyPackages => (m.inviteFull keyPackages).2
  | .invite keyPackages => (m.invite keyPackages).2
  | .removeMembers leafIndices => (m.removeMembers leafIndices).2
  | .processMessage msgBytes => (m.processMessage msgBytes).2
  | .finalizePendingCommit => m.finalizePendingCommit.2
  | .clearPendingCommit => m.clearPendingCommit.2
  | .acceptWelcome welcomeBytes => (m.acceptWelcome welcomeBytes).2

/-- An `invite` that returns a Welcome merged the one commit that Welcome was created
with. -/
def WelcomesMatch (v : CommitView G C M X I) (m : MlsContext G C) : MlsCall → Prop
  | .invite keyPackages =>
    ∀ welcomeBytes, (m.invite keyPackages).1 = .ok welcomeBytes →
      ∃ commit welcome group,
        MlsGroup.addMembers m.group keyPackages = (.ok (commit, welcome), group) ∧
        MlsMessage.tlsSerializeDetached welcome = .ok welcomeBytes ∧
        v.applied (m.invite keyPackages).2.group = v.applied m.group ++ [v.welcomed welcome]
  | _ => True

/-- The call does not cross the two slots: no own commit is made and no group is joined
while a staged commit waits, and no commit is staged while an own one waits. -/
def Uncrossed (v : CommitView G C M X I) (m : MlsContext G C) : MlsCall → Prop
  | .inviteFull keyPackages | .invite keyPackages =>
    m.pendingStaged = none ∨ ∃ e, (MlsGroup.addMembers m.group keyPackages).1 = .error e
  | .removeMembers leafIndices =>
    m.pendingStaged = none ∨
      (∃ idx ∈ leafIndices, (MlsGroup.membersCount m.group).toUInt32 ≤ idx) ∨
      ∃ e, (MlsGroup.removeMembers m.group leafIndices).1 = .error e
  | .processMessage msgBytes =>
    v.own m.group = none ∨ ∀ message staged, protocolMessage msgBytes = .ok message →
      (MlsGroup.processMessage m.group message).1 ≠ .ok (.stagedCommitMessage staged)
  | .acceptWelcome welcomeBytes =>
    m.pendingStaged = none ∨ ∀ welcome staged, welcomeMessage welcomeBytes = .ok welcome →
      (MlsGroup.newFromWelcome m.group welcome).1 = .ok staged →
      ∃ e, (MlsGroup.intoGroup (MlsGroup.newFromWelcome m.group welcome).2 staged).1 = .error e
  | .finalizePendingCommit | .clearPendingCommit => True

/-- Whatever it returns, `inviteFull` leaves the group that `addMembers` left. -/
theorem inviteFull_context (m : MlsContext G C) (keyPackages : List Bytes) :
    (m.inviteFull keyPackages).2 =
      { m with group := (MlsGroup.addMembers m.group keyPackages).2 } := by
  unfold inviteFull
  repeat' split
  all_goals simp only [*]

/-- A successful `inviteFull` returns the serialised messages of a successful `addMembers`. -/
theorem inviteFull_ok {keyPackages : List Bytes} {commitBytes welcomeBytes : Bytes}
    (h : (m.inviteFull keyPackages).1 = .ok (commitBytes, welcomeBytes)) :
    ∃ commit welcome group,
      MlsGroup.addMembers m.group keyPackages = (.ok (commit, welcome), group) ∧
      MlsMessage.tlsSerializeDetached welcome = .ok welcomeBytes := by
  unfold inviteFull at h
  split at h
  · cases h
  · rename_i commit welcome group hadd
    refine ⟨commit, welcome, group, hadd, ?_⟩
    split at h
    · cases h
    · split at h
      · cases h
      · rename_i hwelcome
        obtain ⟨-, rfl⟩ := Prod.mk.inj (Except.ok.inj h)
        unfold serialize at hwelcome
        split at hwelcome
        · rename_i hbytes
          rw [hbytes, Except.ok.inj hwelcome]
        · cases hwelcome

/-- A failed `addMembers` ends an invitation. -/
theorem invite_of_refused {keyPackages : List Bytes} {e : String}
    (h : (MlsGroup.addMembers m.group keyPackages).1 = .error e) :
    m.invite keyPackages =
      (.error (.openMls s!"add_members: {e}"), (m.inviteFull keyPackages).2) := by
  have hfull : (m.inviteFull keyPackages).1 = .error (.openMls s!"add_members: {e}") := by
    unfold inviteFull
    split <;> simp_all
  unfold invite
  split <;> simp_all

theorem invite_pendingStaged (hm : m.pendingStaged = none) (keyPackages : List Bytes) :
    (m.invite keyPackages).2.pendingStaged = none := by
  have hfull : (m.inviteFull keyPackages).2.pendingStaged = none := by
    rw [inviteFull_context]
    exact hm
  unfold invite
  split
  · simp_all
  · split
    · rename_i hfinal
      exact (congrArg (·.2.pendingStaged) hfinal).symm.trans
        (finalizePendingCommit_pendingStaged _)
    · rename_i hfinal
      exact (congrArg (·.2.pendingStaged) hfinal).symm.trans
        (finalizePendingCommit_pendingStaged _)

/-- With no staged commit in the way, `invite` merges the commit of its Welcome. -/
theorem welcomesMatch_of_none (hv : v.Lawful) (hm : m.pendingStaged = none)
    (keyPackages : List Bytes) : WelcomesMatch v m (.invite keyPackages) := by
  intro welcomeBytes h
  obtain ⟨commitBytes, hfull⟩ :
      ∃ commitBytes, (m.inviteFull keyPackages).1 = .ok (commitBytes, welcomeBytes) := by
    unfold invite at h
    split at h
    · cases h
    · rename_i commitBytes welcome m' hfull
      split at h
      · cases h
      · rw [hfull, ← Except.ok.inj h]
        exact ⟨commitBytes, rfl⟩
  obtain ⟨commit, welcome, group, hadd, hbytes⟩ := inviteFull_ok hfull
  obtain ⟨hown, -, happlied⟩ := hv.addMembers_ok hadd
  obtain ⟨merged, hmerge, -, hlog⟩ := hv.mergePendingCommit_own hown
  refine ⟨commit, welcome, group, hadd, hbytes, ?_⟩
  have hcontext : (m.inviteFull keyPackages).2 = ⟨group, none⟩ := by
    rw [inviteFull_context, hadd, hm]
  have hfinal : (⟨group, none⟩ : MlsContext G C).finalizePendingCommit =
      (.ok (), ⟨merged, none⟩) := by
    simp only [finalizePendingCommit, hmerge]
  have hinvite : (m.invite keyPackages).2 = ⟨merged, none⟩ := by
    have hpair : m.inviteFull keyPackages = (.ok (commitBytes, welcomeBytes), ⟨group, none⟩) :=
      Prod.ext hfull hcontext
    simp only [invite, hpair, hfinal]
  rw [hinvite, hlog, happlied]

/-- A refused removal leaves the context coherent. -/
theorem coherent_removeMembers (hv : v.Lawful) (hm : Coherent v m) {leafIndices : List UInt32}
    (h : Uncrossed v m (.removeMembers leafIndices)) :
    Coherent v (m.removeMembers leafIndices).2 := by
  unfold removeMembers
  dsimp only
  split
  · exact hm
  · rename_i hrange
    split
    · rename_i hgroup
      exact hm.of_keeps (hv.removeMembers_error hgroup)
    · rename_i hgroup
      rcases h with hnone | ⟨idx, hmem, hidx⟩ | ⟨e, he⟩
      · exact .of_none hnone
      · exact absurd (decide_eq_true hidx) (List.find?_eq_none.mp hrange idx hmem)
      · rw [hgroup] at he
        cases he

theorem coherent_processMessage (hv : v.Lawful) (hm : Coherent v m) {msgBytes : Bytes}
    (h : Uncrossed v m (.processMessage msgBytes)) :
    Coherent v (m.processMessage msgBytes).2 := by
  unfold processMessage
  split
  · exact hm
  · rename_i message hmessage
    have hkeeps := hv.processMessage_keeps m.group message
    split
    all_goals rename_i hgroup; rw [hgroup] at hkeeps
    case h_2 staged group =>
      split
      · exact hm.of_keeps hkeeps
      · -- the only branch that fills the slot
        rcases h with hown | hnot
        · refine ⟨.inl (hkeeps.1.trans hown), fun c hc => ?_⟩
          rw [← Option.some.inj hc, hv.processMessage_staged hgroup]
          exact hkeeps.2.symm
        · exact absurd (congrArg Prod.fst hgroup) (hnot message staged hmessage)
    all_goals exact hm.of_keeps hkeeps

theorem coherent_acceptWelcome (hv : v.Lawful) (hm : Coherent v m) {welcomeBytes : Bytes}
    (h : Uncrossed v m (.acceptWelcome welcomeBytes)) :
    Coherent v (m.acceptWelcome welcomeBytes).2 := by
  unfold acceptWelcome
  split
  · exact hm
  · rename_i welcome hwelcome
    have hkeeps := hv.newFromWelcome_keeps m.group welcome
    split
    · rename_i hstaged
      rw [hstaged] at hkeeps
      exact hm.of_keeps hkeeps
    · rename_i staged group hstaged
      rw [hstaged] at hkeeps
      split
      · rename_i hjoin
        exact (hm.of_keeps hkeeps).of_keeps (hv.intoGroup_error hjoin)
      · rename_i joined left hjoin
        rcases h with hnone | hfails
        · exact .of_none hnone
        · obtain ⟨e, he⟩ := hfails welcome staged hwelcome (congrArg Prod.fst hstaged)
          rw [hstaged, hjoin] at he
          cases he

/-- An uncrossed call keeps the context coherent. -/
theorem coherent_step (hv : v.Lawful) (hm : Coherent v m) {call : MlsCall}
    (h : Uncrossed v m call) : Coherent v (m.step call) := by
  have hfull (keyPackages : List Bytes) (h : Uncrossed v m (.inviteFull keyPackages)) :
      Coherent v (m.inviteFull keyPackages).2 := by
    rw [inviteFull_context]
    rcases h with hnone | ⟨e, he⟩
    · exact .of_none hnone
    · exact hm.of_keeps (hv.addMembers_error (Prod.ext_iff.mpr ⟨he, rfl⟩))
  cases call with
  | inviteFull keyPackages => exact hfull keyPackages h
  | invite keyPackages =>
      rcases h with hnone | ⟨e, he⟩
      · exact .of_none (invite_pendingStaged hnone keyPackages)
      · rw [step, invite_of_refused he]
        exact hfull keyPackages (.inr ⟨e, he⟩)
  | removeMembers leafIndices => exact coherent_removeMembers hv hm h
  | processMessage msgBytes => exact coherent_processMessage hv hm h
  | finalizePendingCommit => exact .of_none (finalizePendingCommit_pendingStaged m)
  | clearPendingCommit => exact .of_none (clearPendingCommit_pendingStaged m)
  | acceptWelcome welcomeBytes => exact coherent_acceptWelcome hv hm h

/-- An uncrossed `invite` returns the Welcome of the commit it merged. -/
theorem welcomesMatch_of_uncrossed (hv : v.Lawful) {call : MlsCall} (h : Uncrossed v m call) :
    WelcomesMatch v m call := by
  cases call with
  | invite keyPackages =>
      rcases h with hnone | ⟨e, he⟩
      · exact welcomesMatch_of_none hv hnone keyPackages
      · intro welcomeBytes hok
        rw [invite_of_refused he] at hok
        cases hok
  | _ => exact trivial

/-- Along every run that never crosses the two slots, at most one commit waits at every
point, a staged one was staged against the current group, and every Welcome returned by
`invite` belongs to the commit that `invite` merged. -/
theorem one_pending_commit (hv : v.Lawful) (hm : m.pendingStaged = none) {calls : List MlsCall}
    (h : Machine.Along step (Uncrossed v) m calls) :
    (∀ earlier, earlier <+: calls → Coherent v (Machine.run step m earlier)) ∧
      Machine.Along step (WelcomesMatch v) m calls := by
  constructor
  · rintro earlier ⟨later, rfl⟩
    exact (Machine.along_append.mp h).1.invariant (.of_none hm)
      fun t call hcall ht => coherent_step hv ht hcall
  · exact Machine.along_mono h fun t call hcall => welcomesMatch_of_uncrossed hv hcall

end Model

end MlsContext

/-! A group that is its own log, for closed runs. -/

/-- A staged commit: the log it was made against and its author. -/
structure LoggedCommit where
  base : Bytes
  author : UInt8
  deriving DecidableEq, Repr

/-- A group that keeps the authors of its commits, and of the one it has pending. -/
structure LoggedGroup where
  own : Option UInt8
  log : Bytes
  deriving DecidableEq, Repr

inductive LoggedMessage
  | commit (content : LoggedCommit)
  | welcome (content : LoggedCommit)
  deriving DecidableEq, Repr

/-- One tag byte, the author and the log. -/
instance : MlsMessage LoggedMessage where
  tlsSerializeDetached
    | .commit c => .ok (1 :: c.author :: c.base)
    | .welcome c => .ok (2 :: c.author :: c.base)
  tlsDeserializeExactBytes
    | 1 :: author :: base => .ok (.publicMessage (.commit ⟨base, author⟩))
    | 2 :: author :: base => .ok (.welcome (.welcome ⟨base, author⟩))
    | _ => .error "DecodingError"
  debug _ := "message"

/-- A commit is authored by the first byte of what it adds or removes. A second own commit
is refused while one is pending, and a commit merges only into the log it was made
against. -/
instance : MlsGroup LoggedGroup LoggedCommit LoggedMessage Bytes where
  epoch g := g.log.length.toUInt64
  exportSecret g label context n :=
    .ok ((g.log.reverse ++ label.toUTF8.toList ++ context ++ List.replicate n 0).take n)
  mergeStagedCommit g c :=
    if c.base = g.log then .ok ⟨none, g.log ++ [c.author]⟩ else .error "WrongEpoch"
  mergePendingCommit g :=
    match g.own with
    | some author => .ok ⟨none, g.log ++ [author]⟩
    | none => .error "NoPendingCommit"
  membersCount g := g.log.length + 1
  addMembers g keyPackages :=
    match g.own with
    | some _ => (.error "PendingCommit", g)
    | none =>
      let c : LoggedCommit := ⟨g.log, keyPackages.flatten.headD 0⟩
      (.ok (.commit c, .welcome c), { g with own := some c.author })
  removeMembers g leaves :=
    match g.own with
    | some _ => (.error "PendingCommit", g)
    | none =>
      let c : LoggedCommit := ⟨g.log, (leaves.headD 0).toUInt8⟩
      (.ok (.commit c), { g with own := some c.author })
  clearPendingCommit g := (.ok (), { g with own := none })
  processMessage g message :=
    match message with
    | .commit c =>
      if c.base = g.log then (.ok (.stagedCommitMessage c), g) else (.error "WrongEpoch", g)
    | .welcome _ => (.error "WrongWireFormat", g)
  newFromWelcome g message :=
    match message with
    | .commit _ => (.error "WrongWireFormat", g)
    | .welcome c => (.ok (c.base ++ [c.author]), g)
  intoGroup g joined := (.ok ⟨none, joined⟩, g)

namespace LoggedGroup

/-- A logged group at one epoch is its log, and a commit goes by its author. -/
def view : CommitView LoggedGroup LoggedCommit LoggedMessage Bytes UInt8 where
  own := LoggedGroup.own
  context := LoggedGroup.log
  applied := LoggedGroup.log
  base := LoggedCommit.base
  ident := LoggedCommit.author
  welcomed
    | .commit c => c.author
    | .welcome c => c.author

theorem lawful_view : view.Lawful where
  addMembers_ok := by
    rintro ⟨own, log⟩ g' kps commit welcome h
    cases own <;> cases h
    exact ⟨rfl, rfl, rfl⟩
  addMembers_error := by
    rintro ⟨own, log⟩ g' kps e h
    cases own <;> cases h
    exact ⟨rfl, rfl⟩
  removeMembers_ok := by
    rintro ⟨own, log⟩ g' leaves commit h
    cases own <;> cases h
    exact ⟨Option.some_ne_none _, rfl⟩
  removeMembers_error := by
    rintro ⟨own, log⟩ g' leaves e h
    cases own <;> cases h
    exact ⟨rfl, rfl⟩
  clearPendingCommit_ok := by
    rintro g g' h
    cases h
    exact ⟨rfl, rfl⟩
  processMessage_keeps := by
    rintro g (c | c)
    · simp only [MlsGroup.processMessage]
      split <;> exact ⟨rfl, rfl⟩
    · exact ⟨rfl, rfl⟩
  processMessage_staged := by
    rintro g g' (c | c) staged h
    · simp only [MlsGroup.processMessage] at h
      split at h
      · rename_i hbase
        cases h
        exact hbase
      · cases h
    · cases h
  newFromWelcome_keeps := by
    rintro g (c | c) <;> exact ⟨rfl, rfl⟩
  intoGroup_error := by
    rintro g g' staged e h
    cases h
  mergeStagedCommit_ok := by
    rintro g g' staged h
    simp only [OpenMls.mergeStagedCommit] at h
    split at h <;> cases h
    exact ⟨rfl, rfl⟩
  mergePendingCommit_own := by
    rintro ⟨own, log⟩ i h
    cases h
    exact ⟨⟨none, log ++ [i]⟩, rfl, rfl, rfl⟩

/-- A member alone in its group. -/
def founder : MlsContext LoggedGroup LoggedCommit := ⟨⟨none, []⟩, none⟩

/-- The Commit another member, with author byte nine, sends in the first epoch. -/
def received : Bytes := [1, 9]

end LoggedGroup

namespace MlsContext

open LoggedGroup

/-- Finalizing the received commit first leaves the slots free for the invitation. -/
theorem one_pending_commit_in_turn :
    (∀ earlier, earlier <+: [.processMessage received, .finalizePendingCommit, .invite [[7]]] →
      Coherent LoggedGroup.view (Machine.run step founder earlier)) ∧
      Machine.Along step (WelcomesMatch LoggedGroup.view) founder
        [.processMessage received, .finalizePendingCommit, .invite [[7]]] := by
  refine one_pending_commit lawful_view rfl ?_
  exact ⟨.inl rfl, trivial, .inl rfl, trivial⟩

/-- A received commit waits while `inviteFull` makes an own one. An `invite` in its place merges the
received commit and returns the Welcome of the other. -/
theorem crossed_commits :
    ¬Coherent LoggedGroup.view
        (Machine.run step founder [.processMessage received, .inviteFull [[7]]]) ∧
      ¬WelcomesMatch LoggedGroup.view
        (Machine.run step founder [.processMessage received]) (.invite [[7]]) := by
  constructor
  · intro h
    rcases h.one_pending with hown | hstaged
    · cases hown
    · cases hstaged
  · intro h
    obtain ⟨commit, welcome, group, hadd, -, happlied⟩ := h [2, 7] rfl
    cases hadd
    revert happlied
    decide

end MlsContext

end GroupProtocol
