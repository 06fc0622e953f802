import GroupProtocol.Lib.LockOrder

/-!
# The mutexes of the foreign interface

Every table of handles, every object behind a handle, the key packages, the shared encryptors and
the state of each shared encryptor has a mutex of its own. Each function of `gbp-stack-ffi/src/lib.rs`
is its script of acquisitions and releases, for whatever its checks and lookups find. All scripts
take objects before the tables, a client before the node and the node before the group, so calls
from any number of threads never wait for one another in a circle.

Two locks further in are left out, since no two threads can meet at them: that of the encryptors
of an `SFrameSession`, since each session is local to one call, and that of the storage of an MLS
provider, which is reached under the mutex of its group alone.
-/

namespace GroupProtocol.Interface

open LockOrder

/-- The tables of handles. -/
inductive Table
  | mls
  | nodes
  | gtps
  | gaps
  | gsps
  | sframeSessions
  | sframeEncryptors
  deriving DecidableEq, Repr

/-- The mutexes: of a table, of an object behind a handle, of the key packages, of the shared
encryptors and of the state that all handles of one encryptor share. -/
inductive Mutex
  | map (t : Table)
  | object (t : Table) (o : ℕ)
  | bundles
  | bySessionLeaf
  | state (cell : ℕ)
  deriving DecidableEq, Repr

/-- The place of a mutex in the order. -/
def Mutex.rank : Mutex → ℕ
  | object .gtps _ | object .gaps _ | object .gsps _ => 0
  | object .nodes _ => 1
  | object .mls _ => 2
  | object .sframeSessions _ | object .sframeEncryptors _ => 3
  | bySessionLeaf => 4
  | state _ => 5
  | map _ | bundles => 6

/-- What a call finds: whether its arguments pass the checks, the objects behind its handles,
whether what it does to them succeeds, and whether its encryptor is shared already, with the state
behind it. -/
structure Answers where
  valid : Bool
  object : Table → Option ℕ
  succeeds : Bool
  shared : Bool
  cell : ℕ

/-- A function of the interface, as far as mutexes go. -/
abbrev Script := Answers → List (Op Mutex)

namespace Table

/-- `insert`: registers an object. -/
def insert (t : Table) : List (Op Mutex) := guarded (.map t) []

/-- `remove`: forgets a handle. -/
def remove (t : Table) : List (Op Mutex) := guarded (.map t) []

/-- `get`: looks a handle up; the guard of the table ends before the object is used. -/
def get (t : Table) : List (Op Mutex) := guarded (.map t) []

/-- A call that works on one object. -/
def work (t : Table) : Script := fun a =>
  t.get ++
    match a.object t with
    | none => []
    | some o => guarded (.object t o) []

/-- A send through a client: its arguments are checked, then client, node and group are looked up
and locked in this order. -/
def send (t : Table) : Script := fun a =>
  if a.valid then
    t.get ++ nodes.get ++ mls.get ++
      match a.object t, a.object nodes, a.object mls with
      | some c, some n, some m =>
        guarded (.object t c) (guarded (.object nodes n) (guarded (.object mls m) []))
      | _, _, _ => []
  else []

end Table

open Table

/-- A call that takes no mutex. -/
def unlocked : Script := fun _ => []

/-- A call that registers a new object, unless making it fails. -/
def create (t : Table) : Script := fun a => if a.succeeds then t.insert else []

/-! The functions of the interface. -/

def gbpBufferFree : Script := unlocked
def gbpStringFree : Script := unlocked
def gbpLastError : Script := unlocked
def gbpVersion : Script := unlocked

/-- The handle is in the table before its key package is stored. -/
def gbpMlsCreate : Script := fun a => if a.succeeds then mls.insert ++ guarded .bundles [] else []

def gbpMlsDestroy : Script := fun _ => mls.remove ++ guarded .bundles []
def gbpMlsEpoch : Script := mls.work
def gbpMlsGroupId : Script := mls.work

/-- The key package is serialised under the guard of all of them. -/
def gbpMlsExportKeyPackage : Script := fun _ => guarded .bundles []

def gbpMlsInvite : Script := mls.work
def gbpMlsInviteFull : Script := mls.work
def gbpMlsRemove : Script := mls.work
def gbpMlsProcessMessage : Script := mls.work
def gbpMlsFinalizeCommit : Script := mls.work
def gbpMlsClearPendingCommit : Script := mls.work
def gbpMlsAcceptWelcome : Script := mls.work
def gbpMlsExportState : Script := mls.work
def gbpMlsRestoreState : Script := create mls

def gbpNodeCreate : Script := fun _ => nodes.insert
def gbpNodeDestroy : Script := fun _ => nodes.remove
def gbpNodeBootstrapCreator : Script := nodes.work
def gbpNodeBootstrapJoiner : Script := nodes.work
def gbpNodeState : Script := nodes.work
def gbpNodeEpoch : Script := nodes.work
def gbpNodeLastTransitionId : Script := nodes.work
def gbpNodeSetEpoch : Script := nodes.work
def gbpNodeApplyTransition : Script := nodes.work

/-- A node works with a group: both are looked up, then the node is locked before the group. -/
def nodeWithMls : Script := fun a =>
  nodes.get ++ mls.get ++
    match a.object nodes, a.object mls with
    | some n, some m => guarded (.object nodes n) (guarded (.object mls m) [])
    | _, _ => []

/-- An unknown opcode ends the call before any lookup. -/
def gbpNodeSendControl : Script := fun a => if a.valid then nodeWithMls a else []

def gbpNodeOnWire : Script := nodeWithMls
def gbpNodeDrainEvents : Script := nodes.work

def gtpClientCreate : Script := fun _ => gtps.insert
def gtpClientDestroy : Script := fun _ => gtps.remove
def gtpClientReset : Script := gtps.work
def gtpClientSend : Script := gtps.send
def gtpClientAccept : Script := gtps.work

def gapClientCreate : Script := fun _ => gaps.insert
def gapClientDestroy : Script := fun _ => gaps.remove
def gapClientReset : Script := gaps.work

/-- An audio send has nothing to check. -/
def gapClientSend : Script := fun a => gaps.send { a with valid := true }

def gapClientAccept : Script := gaps.work

def gspClientCreate : Script := fun _ => gsps.insert
def gspClientDestroy : Script := fun _ => gsps.remove
def gspClientReset : Script := gsps.work
def gspClientSend : Script := gsps.send
def gspClientSendWithArgs : Script := gsps.send
def gspClientAccept : Script := gsps.work

def gbpFrameEncodeV : Script := unlocked
def gbpErrorLookup : Script := unlocked

/-- The session is registered while the group is locked. -/
def gbpSframeSessionCreate : Script := fun a =>
  if a.valid then
    mls.get ++
      match a.object mls with
      | some m => guarded (.object mls m) (create sframeSessions a)
      | none => []
  else []

def gbpSframeSessionFree : Script := fun _ => sframeSessions.remove ++ guarded .bySessionLeaf []

/-- A shared encryptor is registered under the guard of the shared ones. Else the group is locked
while a new encryptor is stored among them and registered. -/
def gbpSframeEncryptorCreate : Script := fun a =>
  if a.valid then
    sframeSessions.get ++
      if (a.object sframeSessions).isNone then []
      else if a.shared then guarded .bySessionLeaf sframeEncryptors.insert
      else
        guarded .bySessionLeaf [] ++ mls.get ++
          match a.object mls with
          | some m =>
            guarded (.object mls m)
              (if a.succeeds then guarded .bySessionLeaf [] ++ sframeEncryptors.insert else [])
          | none => []
  else []

def gbpSframeEncryptorFree : Script := fun _ => sframeEncryptors.remove

/-- The handle is locked while the encryptor locks the state that it shares with others. -/
def gbpSframeEncrypt : Script := fun a =>
  sframeEncryptors.get ++
    match a.object sframeEncryptors with
    | some e => guarded (.object sframeEncryptors e) (guarded (.state a.cell) [])
    | none => []

def gbpSframeDecrypt : Script := sframeSessions.work

/-- All functions of the interface. -/
def interface : List Script :=
  [gbpBufferFree, gbpStringFree, gbpLastError, gbpVersion, gbpMlsCreate, gbpMlsDestroy, gbpMlsEpoch,
    gbpMlsGroupId, gbpMlsExportKeyPackage, gbpMlsInvite, gbpMlsInviteFull, gbpMlsRemove,
    gbpMlsProcessMessage, gbpMlsFinalizeCommit, gbpMlsClearPendingCommit, gbpMlsAcceptWelcome,
    gbpMlsExportState, gbpMlsRestoreState, gbpNodeCreate, gbpNodeDestroy, gbpNodeBootstrapCreator,
    gbpNodeBootstrapJoiner, gbpNodeState, gbpNodeEpoch, gbpNodeLastTransitionId, gbpNodeSetEpoch,
    gbpNodeApplyTransition, gbpNodeSendControl, gbpNodeOnWire, gbpNodeDrainEvents, gtpClientCreate,
    gtpClientDestroy, gtpClientReset, gtpClientSend, gtpClientAccept, gapClientCreate,
    gapClientDestroy, gapClientReset, gapClientSend, gapClientAccept, gspClientCreate,
    gspClientDestroy, gspClientReset, gspClientSend, gspClientSendWithArgs, gspClientAccept,
    gbpFrameEncodeV, gbpErrorLookup, gbpSframeSessionCreate, gbpSframeSessionFree,
    gbpSframeEncryptorCreate, gbpSframeEncryptorFree, gbpSframeEncrypt, gbpSframeDecrypt]

/-- A call of the interface, with what it finds. -/
structure LockingCall where
  function : Script
  exported : function ∈ interface
  answers : Answers

/-- What the call does to the mutexes. -/
def LockingCall.ops (c : LockingCall) : List (Op Mutex) := c.function c.answers

/-- Threads before their calls. -/
def threads {ι : Type} (calls : ι → List LockingCall) : ι → Thread Mutex := fun i =>
  ⟨[], ((calls i).map LockingCall.ops).flatten⟩

/-! The scripts take their mutexes in order, whatever they find. -/

/-- A guard with nothing under it. -/
theorem above_leaf {bound : ℕ} {m : Mutex} (hm : bound ≤ m.rank) :
    Above Mutex.rank bound (guarded m []) := (above_nil _).guarded hm

/-- The tables come last. -/
theorem above_table {bound : ℕ} (hbound : bound ≤ 6) (t : Table) :
    Above Mutex.rank bound (guarded (.map t) []) := above_leaf hbound

theorem above_create {bound : ℕ} (hbound : bound ≤ 6) (t : Table) (a : Answers) :
    Above Mutex.rank bound (create t a) := by
  rw [create]
  split
  · exact above_table hbound t
  · exact above_nil _

theorem above_work (t : Table) (a : Answers) : Above Mutex.rank 0 (t.work a) := by
  refine (above_table (Nat.zero_le 6) t).append ?_
  split
  · exact above_nil _
  · exact above_leaf (Nat.zero_le _)

theorem above_nodeWithMls (a : Answers) : Above Mutex.rank 0 (nodeWithMls a) := by
  refine ((above_table (Nat.zero_le 6) nodes).append (above_table (Nat.zero_le 6) mls)).append ?_
  split
  · exact (above_leaf (Nat.le_refl 2)).guarded (Nat.zero_le _)
  · exact above_nil _

/-- A client comes before the nodes, and the nodes before the groups. -/
theorem above_send {t : Table} (ht : ∀ o, (Mutex.object t o).rank = 0) (a : Answers) :
    Above Mutex.rank 0 (t.send a) := by
  rw [Table.send]
  split
  · refine (((above_table (Nat.zero_le 6) t).append (above_table (Nat.zero_le 6) nodes)).append
      (above_table (Nat.zero_le 6) mls)).append ?_
    split
    · rename_i c n m hc hn hm
      have hnode : Above Mutex.rank 1 (guarded (.object nodes n) (guarded (.object mls m) [])) :=
        (above_leaf (Nat.le_refl 2)).guarded (Nat.le_refl 1)
      refine Above.guarded ?_ (Nat.zero_le _)
      rw [ht c]
      exact hnode
    · exact above_nil _
  · exact above_nil _

theorem above_encryptorCreate (a : Answers) : Above Mutex.rank 0 (gbpSframeEncryptorCreate a) := by
  rw [gbpSframeEncryptorCreate]
  split
  · refine (above_table (Nat.zero_le 6) sframeSessions).append ?_
    split
    · exact above_nil _
    · split
      · exact (above_table (by decide) sframeEncryptors).guarded (Nat.zero_le _)
      · refine ((above_leaf (Nat.zero_le _)).append (above_table (Nat.zero_le 6) mls)).append ?_
        split
        · refine Above.guarded ?_ (Nat.zero_le _)
          split
          · exact (above_leaf (Nat.le_succ 3)).append
              (above_table (by decide : 3 ≤ 6) sframeEncryptors)
          · exact above_nil _
        · exact above_nil _
  · exact above_nil _

theorem above_encrypt (a : Answers) : Above Mutex.rank 0 (gbpSframeEncrypt a) := by
  refine (above_table (Nat.zero_le 6) sframeEncryptors).append ?_
  split
  · exact (above_leaf (Nat.le_succ 4)).guarded (Nat.zero_le _)
  · exact above_nil _

theorem above_sessionCreate (a : Answers) : Above Mutex.rank 0 (gbpSframeSessionCreate a) := by
  rw [gbpSframeSessionCreate]
  split
  · refine (above_table (Nat.zero_le 6) mls).append ?_
    split
    · exact (above_create (by decide : 3 ≤ 6) sframeSessions a).guarded (Nat.zero_le _)
    · exact above_nil _
  · exact above_nil _

theorem above_mlsCreate (a : Answers) : Above Mutex.rank 0 (gbpMlsCreate a) := by
  rw [gbpMlsCreate]
  split
  · exact (above_table (Nat.zero_le 6) mls).append (above_leaf (Nat.zero_le _))
  · exact above_nil _

theorem above_sendControl (a : Answers) : Above Mutex.rank 0 (gbpNodeSendControl a) := by
  rw [gbpNodeSendControl]
  split
  · exact above_nodeWithMls a
  · exact above_nil _

/-- Every function of the interface takes its mutexes in order. -/
theorem above_interface {f : Script} (hf : f ∈ interface) (a : Answers) :
    Above Mutex.rank 0 (f a) := by
  have hunlocked : Above Mutex.rank 0 (unlocked a) := above_nil _
  have htable : ∀ t, Above Mutex.rank 0 (guarded (.map t) []) := above_table (Nat.zero_le 6)
  have hbundles : Above Mutex.rank 0 (guarded .bundles []) := above_leaf (Nat.zero_le _)
  have hshared : Above Mutex.rank 0 (guarded .bySessionLeaf []) := above_leaf (Nat.zero_le _)
  have hwork : ∀ t, Above Mutex.rank 0 (Table.work t a) := fun t => above_work t a
  have hgtps : ∀ o, (Mutex.object gtps o).rank = 0 := fun _ => rfl
  have hgaps : ∀ o, (Mutex.object gaps o).rank = 0 := fun _ => rfl
  have hgsps : ∀ o, (Mutex.object gsps o).rank = 0 := fun _ => rfl
  revert f
  simp only [interface, List.forall_mem_cons, List.not_mem_nil, false_implies, implies_true, and_true]
  exact ⟨hunlocked, hunlocked, hunlocked, hunlocked, above_mlsCreate a, (htable mls).append hbundles,
    hwork mls, hwork mls, hbundles, hwork mls, hwork mls, hwork mls, hwork mls, hwork mls, hwork mls,
    hwork mls, hwork mls, above_create (Nat.zero_le 6) mls a, htable nodes, htable nodes,
    hwork nodes, hwork nodes, hwork nodes, hwork nodes, hwork nodes, hwork nodes, hwork nodes,
    above_sendControl a, above_nodeWithMls a, hwork nodes, htable gtps, htable gtps, hwork gtps,
    above_send hgtps a, hwork gtps, htable gaps, htable gaps, hwork gaps, above_send hgaps _,
    hwork gaps, htable gsps, htable gsps, hwork gsps, above_send hgsps a, above_send hgsps a,
    hwork gsps, hunlocked, hunlocked, above_sessionCreate a,
    (htable sframeSessions).append hshared, above_encryptorCreate a, htable sframeEncryptors,
    above_encrypt a, hwork sframeSessions⟩

theorem keeps_threads {ι : Type} (calls : ι → List LockingCall) :
    Keeps Mutex.rank (threads calls) := by
  intro i
  refine ordered_flatten fun ops hops => ?_
  obtain ⟨c, -, rfl⟩ := List.mem_map.mp hops
  exact (above_interface c.exported c.answers).ordered

/-- The interface cannot deadlock. Any number of threads make any calls of the interface, whatever
the calls find, in any interleaving. At every point each mutex is held by one thread at most, some
thread can go on unless all calls are done, and once the scheduler has come back to every thread as
often as there are operations left, all calls are done. -/
theorem calls_complete {ι : Type} [Fintype ι] [DecidableEq ι] (calls : ι → List LockingCall)
    (picks : List ι) :
    let s := Machine.run step (threads calls) picks
    Exclusive s ∧ (¬Finished s → ∃ i, work (step s i) < work s) ∧
      ∀ rounds : List (List ι), (∀ round ∈ rounds, ∀ i, i ∈ round) → work s ≤ rounds.length →
        Finished (Machine.run step s rounds.flatten) := by
  intro s
  have hkeeps : Keeps Mutex.rank s :=
    Machine.run_invariant (keeps_threads calls) fun s i _ hs => Keeps.step hs i
  have hexclusive : Exclusive s :=
    Machine.run_invariant (fun i j l hi => by cases hi) fun s i _ hs => Exclusive.step hs i
  exact ⟨hexclusive, exists_work_step hkeeps, fun rounds => finished_of_rounds hkeeps⟩

end GroupProtocol.Interface
