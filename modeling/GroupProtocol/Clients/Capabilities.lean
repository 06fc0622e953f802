import GroupProtocol.Core.Vocabulary
import GroupProtocol.Lib.Machine
import Mathlib.Data.Finset.Sort
import Mathlib.Data.List.AList
import Mathlib.Data.String.Basic

/-!
# Capability negotiation and conformance classes

Every member advertises a set of capability tokens; what the group may use is the intersection.
The queries walk the member map in whatever order it yields its entries. The class of the group
is a running minimum over the members and leaves early when a member has no class; inferring a
class commutes with intersection, so the order and the early exit do not show.
-/

namespace GroupProtocol

/-- Interoperability conformance class. -/
inductive ConformanceClass
  | a
  | b
  | c
  deriving DecidableEq, Repr

namespace ConformanceClass

def tokenA : String := "gbp/class-a"
def tokenB : String := "gbp/class-b"
def tokenC : String := "gbp/class-c"

/-- The position in the declaration order, by which classes are compared. -/
def rank : ConformanceClass → ℕ
  | a => 0
  | b => 1
  | c => 2

instance : Min ConformanceClass := ⟨fun x y => if x.rank ≤ y.rank then x else y⟩

/-- All capability tokens that must be advertised for the class. -/
def tokens : ConformanceClass → List String
  | a => [tokenA]
  | b => [tokenA, tokenB]
  | c => [tokenA, tokenB, tokenC]

/-- The three flags of `fromTokens` after one more token. -/
def note (flags : Bool × Bool × Bool) (t : String) : Bool × Bool × Bool :=
  if t = tokenA then (true, flags.2.1, flags.2.2)
  else if t = tokenB then (flags.1, true, flags.2.2)
  else if t = tokenC then (flags.1, flags.2.1, true)
  else flags

/-- The class the flags stand for. -/
def ofFlags (flags : Bool × Bool × Bool) : Option ConformanceClass :=
  if flags.1 && flags.2.1 && flags.2.2 then some c
  else if flags.1 && flags.2.1 then some b
  else if flags.1 then some a
  else none

/-- Infers the highest conformance class from capability tokens. -/
def fromTokens (ts : List String) : Option ConformanceClass :=
  ofFlags (ts.foldl note (false, false, false))

/-- The smaller of two classes, where both are declared. -/
def meet : Option ConformanceClass → Option ConformanceClass → Option ConformanceClass
  | some x, some y => some (min x y)
  | _, _ => none

@[simp] theorem meet_none (x : Option ConformanceClass) : meet x none = none := by cases x <;> rfl

/-- Flags that both sides have give the smaller class. -/
theorem ofFlags_and (f g : Bool × Bool × Bool) :
    ofFlags (f.1 && g.1, f.2.1 && g.2.1, f.2.2 && g.2.2) = meet (ofFlags f) (ofFlags g) := by
  obtain ⟨fa, fb, fc⟩ := f
  obtain ⟨ga, gb, gc⟩ := g
  cases fa <;> cases ga <;> cases fb <;> cases gb <;> cases fc <;> cases gc <;> rfl

/-- The flags say which of the three tokens occur. -/
theorem foldl_note (ts : List String) (flags : Bool × Bool × Bool) :
    ts.foldl note flags =
      (flags.1 || decide (tokenA ∈ ts), flags.2.1 || decide (tokenB ∈ ts),
        flags.2.2 || decide (tokenC ∈ ts)) := by
  have hab : tokenA ≠ tokenB := by decide
  have hac : tokenA ≠ tokenC := by decide
  have hbc : tokenB ≠ tokenC := by decide
  induction ts generalizing flags with
  | nil => simp
  | cons t ts ih =>
      rw [List.foldl_cons, ih, note]
      by_cases ha : t = tokenA
      · simp [ha, hab.symm, hac.symm]
      by_cases hb : t = tokenB
      · simp [hb, hab, hab.symm, hbc.symm]
      by_cases hc : t = tokenC
      · simp [hc, hac, hbc, hac.symm, hbc.symm]
      · simp [ha, hb, hc, Ne.symm ha, Ne.symm hb, Ne.symm hc]

end ConformanceClass

/-- Per-member set of advertised capability tokens. -/
structure CapabilitiesNegotiator where
  advertised : AList fun _ : MemberId => Finset String

namespace CapabilitiesNegotiator

open ConformanceClass

/-- Empty negotiator. -/
def new : CapabilitiesNegotiator := ⟨∅⟩

/-- Records an advertisement in the place of any prior one of the member. -/
def advertise (n : CapabilitiesNegotiator) (member : MemberId) (capabilities : List String) :
    CapabilitiesNegotiator :=
  ⟨n.advertised.insert member capabilities.toFinset⟩

/-- Removes a member's advertisement. -/
def forget (n : CapabilitiesNegotiator) (member : MemberId) : CapabilitiesNegotiator :=
  ⟨n.advertised.erase member⟩

/-- Adds the tokens of a class to what the member advertised. -/
def declareClass (n : CapabilitiesNegotiator) (member : MemberId) (cls : ConformanceClass) :
    CapabilitiesNegotiator :=
  let entry := (n.advertised.lookup member).getD ∅
  ⟨n.advertised.insert member (cls.tokens.foldl (fun entry token => insert token entry) entry)⟩

/-- Clears all advertisements. -/
def resetForEpoch (_ : CapabilitiesNegotiator) : CapabilitiesNegotiator := new

/-- One walk over the member map: its entries in the order in which it yields them. -/
structure Walk (n : CapabilitiesNegotiator) where
  entries : List (Sigma fun _ : MemberId => Finset String)
  perm : entries.Perm n.advertised.entries

/-- Whether every advertised member supports the capability. -/
def groupSupports (n : CapabilitiesNegotiator) (walk : n.Walk) (cap : String) : Bool :=
  if n.advertised.entries.isEmpty then false
  else walk.entries.all fun e => decide (cap ∈ e.2)

/-- The capabilities that every member advertises. -/
def intersection (n : CapabilitiesNegotiator) (walk : n.Walk) : Finset String :=
  match walk.entries with
  | [] => ∅
  | first :: rest => rest.foldl (fun acc e => acc.filter (· ∈ e.2)) first.2

/-- The members that did not advertise the capability. -/
def missing (n : CapabilitiesNegotiator) (walk : n.Walk) (cap : String) : List MemberId :=
  walk.entries.filterMap fun e => if cap ∈ e.2 then none else some e.1

/-- The class of a set of tokens, which is walked in ascending order. -/
def classOf (caps : Finset String) : Option ConformanceClass := fromTokens (caps.sort (· ≤ ·))

/-- The loop of `groupClass`: `none` as the running class means that no member came yet. -/
def minimumClass : Option ConformanceClass →
    List (Sigma fun _ : MemberId => Finset String) → Option ConformanceClass
  | cls, [] => cls
  | cls, e :: rest =>
    match cls, classOf e.2 with
    | none, none => none
    | none, some mc => minimumClass (some mc) rest
    | some current, some mc => minimumClass (some (min current mc)) rest
    | some _, none => none

/-- The highest class that every member supports. -/
def groupClass (n : CapabilitiesNegotiator) (walk : n.Walk) : Option ConformanceClass :=
  if n.advertised.entries.isEmpty then none else minimumClass none walk.entries

/-- A call that changes the negotiator. -/
inductive Call
  | advertise (member : MemberId) (capabilities : List String)
  | forget (member : MemberId)
  | declareClass (member : MemberId) (cls : ConformanceClass)
  | resetForEpoch

/-- The negotiator after a call. -/
def step (n : CapabilitiesNegotiator) : Call → CapabilitiesNegotiator
  | .advertise member capabilities => n.advertise member capabilities
  | .forget member => n.forget member
  | .declareClass member cls => n.declareClass member cls
  | .resetForEpoch => n.resetForEpoch

variable {n : CapabilitiesNegotiator}

theorem Walk.entries_eq_nil_iff (walk : n.Walk) :
    walk.entries = [] ↔ n.advertised.entries = [] :=
  ⟨fun h => (h ▸ walk.perm).nil_eq.symm, fun h => (h ▸ walk.perm).eq_nil⟩

theorem Walk.mem_entries_iff (walk : n.Walk) {e : Sigma fun _ : MemberId => Finset String} :
    e ∈ walk.entries ↔ e ∈ n.advertised.entries :=
  walk.perm.mem_iff

theorem mem_foldl_retain {entries : List (Sigma fun _ : MemberId => Finset String)}
    {acc : Finset String} {cap : String} :
    cap ∈ entries.foldl (fun acc e => acc.filter (· ∈ e.2)) acc ↔
      cap ∈ acc ∧ ∀ e ∈ entries, cap ∈ e.2 := by
  induction entries generalizing acc with
  | nil => simp
  | cons e entries ih =>
      rw [List.foldl_cons, ih, Finset.mem_filter, List.forall_mem_cons, and_assoc]

/-- A capability is in the intersection when some member is registered and each has it. -/
theorem mem_intersection_iff (walk : n.Walk) {cap : String} :
    cap ∈ n.intersection walk ↔
      n.advertised.entries ≠ [] ∧ ∀ e ∈ n.advertised.entries, cap ∈ e.2 := by
  rw [ne_eq, ← walk.entries_eq_nil_iff]
  simp only [← walk.mem_entries_iff]
  rw [intersection]
  cases walk.entries with
  | nil => simp
  | cons first rest => simp [mem_foldl_retain]

theorem groupSupports_iff (walk : n.Walk) {cap : String} :
    n.groupSupports walk cap = true ↔
      n.advertised.entries ≠ [] ∧ ∀ e ∈ n.advertised.entries, cap ∈ e.2 := by
  simp [groupSupports, List.all_eq_true, walk.mem_entries_iff]

theorem missing_eq_nil_iff (walk : n.Walk) {cap : String} :
    n.missing walk cap = [] ↔ ∀ e ∈ n.advertised.entries, cap ∈ e.2 := by
  simp [missing, List.filterMap_eq_nil_iff, ← walk.mem_entries_iff]

/-! The class of the group. -/

/-- The class of a set depends on which of the three tokens it holds. -/
theorem classOf_eq (caps : Finset String) :
    classOf caps =
      ofFlags (decide (tokenA ∈ caps), decide (tokenB ∈ caps), decide (tokenC ∈ caps)) := by
  rw [classOf, fromTokens, foldl_note]
  simp

/-- Inferring a class commutes with intersection. -/
theorem classOf_retain (acc caps : Finset String) :
    classOf (acc.filter (· ∈ caps)) = meet (classOf acc) (classOf caps) := by
  rw [classOf_eq, classOf_eq, classOf_eq, ← ofFlags_and]
  simp only [Finset.mem_filter, Bool.decide_and]

theorem classOf_foldl_retain (entries : List (Sigma fun _ : MemberId => Finset String))
    (acc : Finset String) :
    classOf (entries.foldl (fun acc e => acc.filter (· ∈ e.2)) acc) =
      entries.foldl (fun cls e => meet cls (classOf e.2)) (classOf acc) := by
  induction entries generalizing acc with
  | nil => rfl
  | cons e entries ih => rw [List.foldl_cons, ih, classOf_retain, List.foldl_cons]

/-- Once a member has no class, no later one brings it back. -/
theorem foldl_meet_none (entries : List (Sigma fun _ : MemberId => Finset String)) :
    entries.foldl (fun cls e => meet cls (classOf e.2)) none = none := by
  induction entries with
  | nil => rfl
  | cons e entries ih => exact ih

/-- The loop with its early exit is the fold without it. -/
theorem minimumClass_some (entries : List (Sigma fun _ : MemberId => Finset String))
    (cls : ConformanceClass) :
    minimumClass (some cls) entries =
      entries.foldl (fun cls e => meet cls (classOf e.2)) (some cls) := by
  induction entries generalizing cls with
  | nil => rfl
  | cons e entries ih =>
      cases hclass : classOf e.2 with
      | none => simp only [minimumClass, hclass, List.foldl_cons, meet_none, foldl_meet_none]
      | some mc =>
          simp only [minimumClass, hclass, List.foldl_cons]
          exact ih (min cls mc)

theorem groupClass_eq (walk other : n.Walk) :
    n.groupClass walk = classOf (n.intersection other) := by
  have hother : n.intersection other = n.intersection walk := by
    ext cap
    rw [mem_intersection_iff, mem_intersection_iff]
  rw [hother, groupClass, intersection]
  cases hentries : walk.entries with
  | nil =>
      rw [List.isEmpty_iff.mpr (walk.entries_eq_nil_iff.mp hentries), if_pos rfl, classOf_eq]
      rfl
  | cons first rest =>
      have hne : n.advertised.entries.isEmpty = false := by
        rw [List.isEmpty_eq_false_iff, ne_eq, ← walk.entries_eq_nil_iff, hentries]
        exact List.cons_ne_nil first rest
      rw [hne, if_neg Bool.false_ne_true, classOf_foldl_retain]
      cases hclass : classOf first.2 with
      | none => simp only [minimumClass, hclass, foldl_meet_none]
      | some cls =>
          simp only [minimumClass, hclass]
          exact minimumClass_some rest cls

/-- Capability negotiation is consistent after any calls and for any order of the member map in
each query: support, membership in the intersection and an empty list of missing members say the
same, and the class of the group is the class of the intersection. -/
theorem negotiation_consistent (calls : List Call) :
    let n := Machine.run step new calls
    ∀ (supports walk missed classes : n.Walk) (cap : String),
      (n.groupSupports supports cap = true ↔ cap ∈ n.intersection walk) ∧
      (n.groupSupports supports cap = true ↔
        n.advertised.entries ≠ [] ∧ n.missing missed cap = []) ∧
      n.groupClass classes = fromTokens ((n.intersection walk).sort (· ≤ ·)) := by
  intro n supports walk missed classes cap
  refine ⟨?_, ?_, groupClass_eq classes walk⟩
  · rw [groupSupports_iff, mem_intersection_iff]
  · rw [groupSupports_iff, missing_eq_nil_iff]

end CapabilitiesNegotiator

end GroupProtocol
