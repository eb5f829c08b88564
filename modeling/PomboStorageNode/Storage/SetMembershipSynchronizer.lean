import PomboStorageNode.Library.OrderedMap
import Mathlib.Data.Prod.Lex
import Mathlib.Data.Set.Basic

/-!
# The set membership synchronizer is a last-writer-wins set

`SetMembershipSynchronizer.ts` keeps the set of stream parts assigned to the node from two sources:
snapshots of the whole set and patches that add or remove some elements, both numbered by block.
`ingestSnapshot` and `ingestPatch` follow the source, marker map and returned diffs included.

`Tracks` is the invariant that couples a synchronizer state with the items delivered so far, the
initial empty set counting as a snapshot numbered zero: the snapshot number is the highest one
delivered, a marker is the highest patch number of its element above it, and membership is what the
winning item says. Every delivery keeps it (`tracks_ingestSnapshot`, `tracks_ingestPatch`), so after
any deliveries, in any order and with repetitions, the state is the one the highest-ranked items
describe (`mem_getState_iff`). `replay_diffs` shows that the returned diffs, applied in order to the
empty set, rebuild the state.
-/

set_option autoImplicit false

namespace PomboStorageNode.Storage.SetMembershipSynchronizer

open Library

variable {E : Type*} [DecidableEq E]

/-! ### The source -/

/-- The `operation` argument of `ingestPatch`. -/
inductive Operation
  | added
  | removed
  deriving DecidableEq

/-- The elements an ingestion added to and removed from the state. -/
structure Diff (E : Type*) where
  added : List E
  removed : List E
  deriving DecidableEq

/-- `EMPTY_DIFF`. -/
def emptyDiff : Diff E := ⟨[], []⟩

/-- The three fields of the class; `state` is the snapshot with the patches applied. -/
structure Synchronizer (E : Type*) where
  lastSnapshotSequenceNo : ℤ
  state : OrderedSet E
  lastSequenceNoByElement : OrderedMap E ℤ

/-- A synchronizer as the class initializes it. -/
def initial : Synchronizer E := ⟨0, OrderedSet.empty, OrderedMap.empty⟩

/-- `getState`. -/
def getState (synchronizer : Synchronizer E) : OrderedSet E := synchronizer.state

/-- `setDifference`, in the order of the first set. -/
def setDifference (first second : OrderedSet E) : List E :=
  first.elements.filter (· ∉ second)

/-- The loop of `ingestSnapshot` that carries the patched elements over from the previous state. -/
def applyPatches (previous : OrderedSet E) : List E → OrderedSet E → OrderedSet E
  | [], state => state
  | element :: elements, state =>
    applyPatches previous elements
      (if element ∈ previous then state.add element else state.delete element)

/-- `ingestSnapshot`. -/
def ingestSnapshot (synchronizer : Synchronizer E) (elements : OrderedSet E) (sequenceNo : ℤ) :
    Synchronizer E × Diff E :=
  if sequenceNo ≤ synchronizer.lastSnapshotSequenceNo then (synchronizer, emptyDiff)
  else
    let markers := synchronizer.lastSequenceNoByElement.filter fun entry ↦ ¬ entry.2 ≤ sequenceNo
    let state := applyPatches synchronizer.state markers.keys elements
    (⟨sequenceNo, state, markers⟩,
      ⟨setDifference state synchronizer.state, setDifference synchronizer.state state⟩)

/-- The elements of a patch that no newer patch has overtaken. -/
def nonStaleElements (synchronizer : Synchronizer E) (elements : OrderedSet E) (sequenceNo : ℤ) :
    List E :=
  elements.elements.filter fun element ↦
    (synchronizer.lastSequenceNoByElement.get? element).getD 0 < sequenceNo

/-- The loop of `ingestPatch` that marks the elements it applies. -/
def markElements (sequenceNo : ℤ) : List E → OrderedMap E ℤ → OrderedMap E ℤ
  | [], markers => markers
  | element :: elements, markers => markElements sequenceNo elements (markers.set element sequenceNo)

/-- The filter with which an `added` patch extends the state, and the elements it keeps. -/
def addElements : List E → OrderedSet E → OrderedSet E × List E
  | [], state => (state, [])
  | element :: elements, state =>
    let rest := addElements elements (state.add element)
    (rest.1, if element ∉ state then element :: rest.2 else rest.2)

/-- The filter with which a `removed` patch shrinks the state, and the elements it keeps. -/
def removeElements : List E → OrderedSet E → OrderedSet E × List E
  | [], state => (state, [])
  | element :: elements, state =>
    let rest := removeElements elements (state.delete element)
    (rest.1, if element ∈ state then element :: rest.2 else rest.2)

/-- `ingestPatch`. -/
def ingestPatch (synchronizer : Synchronizer E) (elements : OrderedSet E) (operation : Operation)
    (sequenceNo : ℤ) : Synchronizer E × Diff E :=
  if sequenceNo ≤ synchronizer.lastSnapshotSequenceNo then (synchronizer, emptyDiff)
  else
    let nonStale := nonStaleElements synchronizer elements sequenceNo
    let markers := markElements sequenceNo nonStale synchronizer.lastSequenceNoByElement
    match operation with
    | .added =>
      let result := addElements nonStale synchronizer.state
      (⟨synchronizer.lastSnapshotSequenceNo, result.1, markers⟩, ⟨result.2, []⟩)
    | .removed =>
      let result := removeElements nonStale synchronizer.state
      (⟨synchronizer.lastSnapshotSequenceNo, result.1, markers⟩, ⟨[], result.2⟩)

/-! ### The loops -/

/-- The state after the carry-over loop: a patched element keeps its previous membership, every
other element has that of the snapshot. -/
theorem mem_applyPatches (previous : OrderedSet E) (elements : List E) (state : OrderedSet E)
    (element : E) : element ∈ applyPatches previous elements state ↔
      if element ∈ elements then element ∈ previous else element ∈ state := by
  induction elements generalizing state with
  | nil => simp [applyPatches]
  | cons first elements ih =>
    rw [applyPatches, ih]
    by_cases heq : element = first
    · subst heq
      by_cases hprevious : element ∈ previous <;> simp [hprevious]
    · by_cases hprevious : first ∈ previous <;> simp [hprevious, heq]

/-- The markers after the marking loop. -/
theorem get?_markElements (sequenceNo : ℤ) (elements : List E) (markers : OrderedMap E ℤ)
    (element : E) : (markElements sequenceNo elements markers).get? element =
      if element ∈ elements then some sequenceNo else markers.get? element := by
  induction elements generalizing markers with
  | nil => simp [markElements]
  | cons first elements ih =>
    rw [markElements, ih]
    by_cases heq : element = first
    · subst heq
      simp
    · simp [heq]

theorem mem_addElements (elements : List E) (state : OrderedSet E) (element : E) :
    element ∈ (addElements elements state).1 ↔ element ∈ elements ∨ element ∈ state := by
  induction elements generalizing state with
  | nil => simp [addElements]
  | cons first elements ih =>
    simp only [addElements, ih, OrderedSet.mem_add, List.mem_cons]
    tauto

theorem mem_removeElements (elements : List E) (state : OrderedSet E) (element : E) :
    element ∈ (removeElements elements state).1 ↔ element ∉ elements ∧ element ∈ state := by
  induction elements generalizing state with
  | nil => simp [removeElements]
  | cons first elements ih =>
    simp only [removeElements, ih, OrderedSet.mem_delete, List.mem_cons]
    tauto

/-! ### Deliveries -/

/-- A snapshot or a patch, as the poller and the event listener deliver them. -/
inductive Item (E : Type*)
  | snapshot (elements : OrderedSet E) (sequenceNo : ℤ)
  | patch (elements : OrderedSet E) (operation : Operation) (sequenceNo : ℤ)

namespace Item

/-- The sequence number of an item. -/
def sequenceNo : Item E → ℤ
  | .snapshot _ sequenceNo => sequenceNo
  | .patch _ _ sequenceNo => sequenceNo

/-- Whether an item is a snapshot. -/
def IsSnapshot : Item E → Prop
  | .snapshot _ _ => True
  | .patch _ _ _ => False

/-- A snapshot speaks about every element, a patch about the elements it carries. -/
def Speaks : Item E → E → Prop
  | .snapshot _ _, _ => True
  | .patch elements _ _, element => element ∈ elements

/-- Whether an element is a member according to an item that speaks about it. -/
def Says : Item E → E → Prop
  | .snapshot elements _, element => element ∈ elements
  | .patch _ operation _, _ => operation = .added

/-- The second item has the higher number, or the same one without being a patch against a
snapshot. -/
def AtMost (first second : Item E) : Prop :=
  first.sequenceNo < second.sequenceNo ∨
    first.sequenceNo = second.sequenceNo ∧ (first.IsSnapshot → second.IsSnapshot)

end Item

/-- Membership of an element according to the highest-ranked item that speaks about it. -/
def MemberByHighest (items : List (Item E)) (element : E) : Prop :=
  ∃ item ∈ items, item.Speaks element ∧ item.Says element ∧
    ∀ other ∈ items, other.Speaks element → other.AtMost item

/-- The numbering of the items: snapshots have positive numbers, two snapshots with one number are
the same, and so are two patches that mention one element with one number. -/
structure WellNumbered (items : List (Item E)) : Prop where
  snapshot_pos : ∀ elements sequenceNo, .snapshot elements sequenceNo ∈ items → 0 < sequenceNo
  snapshot_unique : ∀ first second sequenceNo, .snapshot first sequenceNo ∈ items →
    .snapshot second sequenceNo ∈ items → first = second
  patch_unique : ∀ first firstOperation second secondOperation sequenceNo element,
    .patch first firstOperation sequenceNo ∈ items →
    .patch second secondOperation sequenceNo ∈ items → element ∈ first → element ∈ second →
    first = second ∧ firstOperation = secondOperation

/-- Delivery of one item. -/
def ingest (synchronizer : Synchronizer E) : Item E → Synchronizer E × Diff E
  | .snapshot elements sequenceNo => ingestSnapshot synchronizer elements sequenceNo
  | .patch elements operation sequenceNo => ingestPatch synchronizer elements operation sequenceNo

/-- Delivery of items one after the other, with the diffs they return. -/
def ingestAll : Synchronizer E → List (Item E) → Synchronizer E × List (Diff E)
  | synchronizer, [] => (synchronizer, [])
  | synchronizer, item :: items =>
    let first := ingest synchronizer item
    let rest := ingestAll first.1 items
    (rest.1, first.2 :: rest.2)

/-! ### What a synchronizer knows about the delivered items -/

/-- The state of a synchronizer in terms of the items it has been given. -/
structure Tracks (items : List (Item E)) (synchronizer : Synchronizer E) : Prop where
  nonneg : 0 ≤ synchronizer.lastSnapshotSequenceNo
  snapshot_mem : ∃ elements, .snapshot elements synchronizer.lastSnapshotSequenceNo ∈ items ∧
    ∀ element, synchronizer.lastSequenceNoByElement.get? element = none →
      (element ∈ synchronizer.state ↔ element ∈ elements)
  snapshot_le : ∀ elements sequenceNo, .snapshot elements sequenceNo ∈ items →
    sequenceNo ≤ synchronizer.lastSnapshotSequenceNo
  marker : ∀ element sequenceNo,
    synchronizer.lastSequenceNoByElement.get? element = some sequenceNo →
      synchronizer.lastSnapshotSequenceNo < sequenceNo ∧
        ∃ elements operation, .patch elements operation sequenceNo ∈ items ∧
          element ∈ elements ∧ (element ∈ synchronizer.state ↔ operation = .added)
  patch_le : ∀ elements operation sequenceNo element,
    .patch elements operation sequenceNo ∈ items → element ∈ elements →
      sequenceNo ≤ synchronizer.lastSnapshotSequenceNo ∨
        ∃ newest, synchronizer.lastSequenceNoByElement.get? element = some newest ∧
          sequenceNo ≤ newest

/-- The empty set a synchronizer starts with, as a snapshot. -/
def initialSnapshot : Item E := .snapshot OrderedSet.empty 0

theorem tracks_initial : Tracks [initialSnapshot] (initial : Synchronizer E) where
  nonneg := le_refl 0
  snapshot_mem := ⟨OrderedSet.empty, List.mem_singleton.mpr rfl, fun _ _ ↦ Iff.rfl⟩
  snapshot_le := by
    intro elements sequenceNo hmem
    rw [List.mem_singleton, initialSnapshot, Item.snapshot.injEq] at hmem
    exact le_of_eq hmem.2
  marker := by
    intro element sequenceNo hmarker
    simp [initial] at hmarker
  patch_le := by
    intro elements operation sequenceNo element hmem
    simp [initialSnapshot] at hmem

/-- An item that is no newer than the last snapshot adds nothing to the description. -/
theorem Tracks.append_stale {items : List (Item E)} {synchronizer : Synchronizer E}
    (htracks : Tracks items synchronizer) {item : Item E}
    (hstale : item.sequenceNo ≤ synchronizer.lastSnapshotSequenceNo) :
    Tracks (items ++ [item]) synchronizer := by
  obtain ⟨last, hlast, hstate⟩ := htracks.snapshot_mem
  refine ⟨htracks.nonneg, ⟨last, List.mem_append_left _ hlast, hstate⟩, ?_, ?_, ?_⟩
  · intro elements sequenceNo hmem
    rcases List.mem_append.mp hmem with hold | hnew
    · exact htracks.snapshot_le elements sequenceNo hold
    · rw [← List.mem_singleton.mp hnew] at hstale
      exact hstale
  · intro element sequenceNo hmarker
    obtain ⟨hlt, elements, operation, hmem, hrest⟩ := htracks.marker element sequenceNo hmarker
    exact ⟨hlt, elements, operation, List.mem_append_left _ hmem, hrest⟩
  · intro elements operation sequenceNo element hmem hspeaks
    rcases List.mem_append.mp hmem with hold | hnew
    · exact htracks.patch_le elements operation sequenceNo element hold hspeaks
    · rw [← List.mem_singleton.mp hnew] at hstale
      exact Or.inl hstale

/-- A snapshot keeps the description of the state. -/
theorem tracks_ingestSnapshot {items : List (Item E)} {synchronizer : Synchronizer E}
    (htracks : Tracks items synchronizer) (elements : OrderedSet E) (sequenceNo : ℤ) :
    Tracks (items ++ [.snapshot elements sequenceNo])
      (ingestSnapshot synchronizer elements sequenceNo).1 := by
  unfold ingestSnapshot
  split_ifs with hstale
  · exact htracks.append_stale hstale
  · -- the markers above the new number survive, and with them the membership they stand for
    have hfresh := not_le.mp hstale
    dsimp only
    set markers := synchronizer.lastSequenceNoByElement.filter fun entry ↦
      ¬ entry.2 ≤ sequenceNo
    have hget : ∀ element, markers.get? element =
        (synchronizer.lastSequenceNoByElement.get? element).filter (¬ · ≤ sequenceNo) :=
      fun element ↦ OrderedMap.get?_filter _ _ element
    have hkeys : ∀ element, element ∈ markers.keys ↔
        ∃ number, markers.get? element = some number := fun element ↦ OrderedMap.mem_keys_iff
    refine ⟨le_of_lt (lt_of_le_of_lt htracks.nonneg hfresh), ⟨elements, by simp, ?_⟩, ?_, ?_, ?_⟩
    · intro element hnone
      rw [mem_applyPatches, if_neg]
      simp [hkeys, hnone]
    · intro other number hmem
      rcases List.mem_append.mp hmem with hold | hnew
      · exact le_trans (htracks.snapshot_le other number hold) (le_of_lt hfresh)
      · rw [List.mem_singleton, Item.snapshot.injEq] at hnew
        exact le_of_eq hnew.2
    · intro element number hmarker
      have hkept := hmarker
      rw [hget, Option.filter_eq_some_iff] at hkept
      obtain ⟨hold, habove⟩ := hkept
      obtain ⟨-, others, operation, hmem, hspeaks, hverdict⟩ := htracks.marker element number hold
      refine ⟨not_le.mp (by simpa using habove), others, operation, List.mem_append_left _ hmem,
        hspeaks, ?_⟩
      rw [mem_applyPatches, if_pos ((hkeys element).mpr ⟨number, hmarker⟩)]
      exact hverdict
    · intro others operation number element hmem hspeaks
      simp only [List.mem_append, List.mem_singleton, reduceCtorEq, or_false] at hmem
      rcases htracks.patch_le others operation number element hmem hspeaks with hle | hnewest
      · exact Or.inl (le_trans hle (le_of_lt hfresh))
      · obtain ⟨newest, hmarker, hle⟩ := hnewest
        by_cases habove : newest ≤ sequenceNo
        · exact Or.inl (le_trans hle habove)
        · refine Or.inr ⟨newest, ?_, hle⟩
          rw [hget, hmarker, Option.filter_some, if_pos (decide_eq_true habove)]

theorem mem_nonStaleElements {synchronizer : Synchronizer E} {elements : OrderedSet E}
    {sequenceNo : ℤ} {element : E} :
    element ∈ nonStaleElements synchronizer elements sequenceNo ↔ element ∈ elements ∧
      (synchronizer.lastSequenceNoByElement.get? element).getD 0 < sequenceNo := by
  simp [nonStaleElements, OrderedSet.mem_def]

/-- The fields after a patch that is newer than the last snapshot, for both operations. -/
theorem ingestPatch_of_lt {synchronizer : Synchronizer E} {sequenceNo : ℤ}
    (hfresh : synchronizer.lastSnapshotSequenceNo < sequenceNo) (elements : OrderedSet E)
    (operation : Operation) :
    ∃ state markers, (ingestPatch synchronizer elements operation sequenceNo).1 =
        ⟨synchronizer.lastSnapshotSequenceNo, state, markers⟩ ∧
      ∀ element, markers.get? element =
          (if element ∈ nonStaleElements synchronizer elements sequenceNo then some sequenceNo
            else synchronizer.lastSequenceNoByElement.get? element) ∧
        (element ∈ state ↔
          if element ∈ nonStaleElements synchronizer elements sequenceNo then operation = .added
          else element ∈ synchronizer.state) := by
  unfold ingestPatch
  rw [if_neg (not_le.mpr hfresh)]
  cases operation with
  | added =>
    refine ⟨_, _, rfl, fun element ↦ ⟨get?_markElements _ _ _ _, ?_⟩⟩
    rw [mem_addElements]
    split_ifs with hmem <;> simp [hmem]
  | removed =>
    refine ⟨_, _, rfl, fun element ↦ ⟨get?_markElements _ _ _ _, ?_⟩⟩
    rw [mem_removeElements]
    split_ifs with hmem <;> simp [hmem]

/-- A patch keeps the description of the state. -/
theorem tracks_ingestPatch {items : List (Item E)} {synchronizer : Synchronizer E}
    (htracks : Tracks items synchronizer) (elements : OrderedSet E) (operation : Operation)
    (sequenceNo : ℤ) :
    Tracks (items ++ [.patch elements operation sequenceNo])
      (ingestPatch synchronizer elements operation sequenceNo).1 := by
  by_cases hstale : sequenceNo ≤ synchronizer.lastSnapshotSequenceNo
  · have hsame : (ingestPatch synchronizer elements operation sequenceNo).1 = synchronizer := by
      rw [ingestPatch, if_pos hstale]
    rw [hsame]
    exact htracks.append_stale hstale
  · have hfresh := not_le.mp hstale
    obtain ⟨last, hlast, hstate⟩ := htracks.snapshot_mem
    obtain ⟨state, markers, hresult, hafter⟩ := ingestPatch_of_lt hfresh elements operation
    rw [hresult]
    refine ⟨htracks.nonneg, ⟨last, List.mem_append_left _ hlast, ?_⟩, ?_, ?_, ?_⟩
    · intro element hnone
      obtain ⟨hmarker, hmember⟩ := hafter element
      by_cases hmem : element ∈ nonStaleElements synchronizer elements sequenceNo
      · rw [if_pos hmem] at hmarker
        exact absurd (hmarker.symm.trans hnone) (by simp)
      · rw [if_neg hmem] at hmarker hmember
        exact hmember.trans (hstate element (hmarker.symm.trans hnone))
    · intro other number hmem
      simp only [List.mem_append, List.mem_singleton, reduceCtorEq, or_false] at hmem
      exact htracks.snapshot_le other number hmem
    · intro element number hsome
      obtain ⟨hmarker, hmember⟩ := hafter element
      by_cases hmem : element ∈ nonStaleElements synchronizer elements sequenceNo
      · rw [if_pos hmem] at hmarker hmember
        have hnumber : sequenceNo = number := Option.some.inj (hmarker.symm.trans hsome)
        subst hnumber
        exact ⟨hfresh, elements, operation, by simp, (mem_nonStaleElements.mp hmem).1, hmember⟩
      · rw [if_neg hmem] at hmarker hmember
        obtain ⟨hlt, others, other, hold, hspeaks, hverdict⟩ :=
          htracks.marker element number (hmarker.symm.trans hsome)
        exact ⟨hlt, others, other, List.mem_append_left _ hold, hspeaks, hmember.trans hverdict⟩
    · intro others other number element hmem hspeaks
      obtain ⟨hmarker, -⟩ := hafter element
      by_cases hnew : element ∈ nonStaleElements synchronizer elements sequenceNo
      · -- the marker is now the number of this patch, above every older marker of the element
        rw [if_pos hnew] at hmarker
        refine Or.inr ⟨sequenceNo, hmarker, ?_⟩
        rcases List.mem_append.mp hmem with hold | hlast
        · rcases htracks.patch_le others other number element hold hspeaks with hle | hnewest
          · exact le_trans hle (le_of_lt hfresh)
          · obtain ⟨newest, hget, hle⟩ := hnewest
            have habove := (mem_nonStaleElements.mp hnew).2
            rw [hget, Option.getD_some] at habove
            exact le_trans hle (le_of_lt habove)
        · rw [List.mem_singleton, Item.patch.injEq] at hlast
          exact le_of_eq hlast.2.2
      · rw [if_neg hnew] at hmarker
        rcases List.mem_append.mp hmem with hold | hlast
        · rw [hmarker]
          exact htracks.patch_le others other number element hold hspeaks
        · rw [List.mem_singleton, Item.patch.injEq] at hlast
          obtain ⟨rfl, -, rfl⟩ := hlast
          have hbelow : ¬ (synchronizer.lastSequenceNoByElement.get? element).getD 0 < number :=
            fun hlt ↦ hnew (mem_nonStaleElements.mpr ⟨hspeaks, hlt⟩)
          cases hget : synchronizer.lastSequenceNoByElement.get? element with
          | none =>
            rw [hget, Option.getD_none] at hbelow
            exact absurd (lt_of_le_of_lt htracks.nonneg hfresh) hbelow
          | some newest =>
            rw [hget, Option.getD_some] at hbelow
            exact Or.inr ⟨newest, hmarker.trans hget, not_lt.mp hbelow⟩

/-- Any deliveries keep the description of the state. -/
theorem tracks_ingestAll {items : List (Item E)} {synchronizer : Synchronizer E}
    (htracks : Tracks items synchronizer) (deliveries : List (Item E)) :
    Tracks (items ++ deliveries) (ingestAll synchronizer deliveries).1 := by
  induction deliveries generalizing items synchronizer with
  | nil =>
    rw [List.append_nil]
    exact htracks
  | cons item deliveries ih =>
    have hitem : Tracks (items ++ [item]) (ingest synchronizer item).1 := by
      cases item with
      | snapshot elements sequenceNo => exact tracks_ingestSnapshot htracks elements sequenceNo
      | patch elements operation sequenceNo =>
        exact tracks_ingestPatch htracks elements operation sequenceNo
    rw [List.append_cons]
    exact ih hitem

/-! ### Last writer wins -/

omit [DecidableEq E] in
/-- The numbering of the delivered items stays good when the initial empty set counts as a snapshot
numbered zero, as its number is below all others. -/
theorem WellNumbered.snapshot_unique_initial {items : List (Item E)} (hnumbered : WellNumbered items)
    {first second : OrderedSet E} {sequenceNo : ℤ}
    (hfirst : .snapshot first sequenceNo ∈ initialSnapshot :: items)
    (hsecond : .snapshot second sequenceNo ∈ initialSnapshot :: items) : first = second := by
  simp only [initialSnapshot, List.mem_cons, Item.snapshot.injEq] at hfirst hsecond
  rcases hfirst with ⟨rfl, rfl⟩ | hfirst
  · rcases hsecond with ⟨rfl, -⟩ | hsecond
    · rfl
    · exact absurd (hnumbered.snapshot_pos _ _ hsecond) (lt_irrefl 0)
  · rcases hsecond with ⟨rfl, rfl⟩ | hsecond
    · exact absurd (hnumbered.snapshot_pos _ _ hfirst) (lt_irrefl 0)
    · exact hnumbered.snapshot_unique _ _ _ hfirst hsecond

/-- The winner among the items about an element without a marker is the last snapshot. -/
theorem Tracks.atMost_snapshot {items : List (Item E)} {synchronizer : Synchronizer E}
    (htracks : Tracks items synchronizer) {element : E}
    (hnone : synchronizer.lastSequenceNoByElement.get? element = none) (elements : OrderedSet E)
    {other : Item E} (hmem : other ∈ items) (hspeaks : other.Speaks element) :
    other.AtMost (.snapshot elements synchronizer.lastSnapshotSequenceNo) := by
  cases other with
  | snapshot others number =>
    rcases lt_or_eq_of_le (htracks.snapshot_le others number hmem) with hlt | heq
    · exact Or.inl hlt
    · exact Or.inr ⟨heq, fun _ ↦ trivial⟩
  | patch others operation number =>
    rcases htracks.patch_le others operation number element hmem hspeaks with hle | hnewest
    · rcases lt_or_eq_of_le hle with hlt | heq
      · exact Or.inl hlt
      · exact Or.inr ⟨heq, fun _ ↦ trivial⟩
    · obtain ⟨newest, hget, -⟩ := hnewest
      exact absurd (hnone.symm.trans hget) (by simp)

/-- The winner among the items about an element with a marker is a patch with that number. -/
theorem Tracks.atMost_patch {items : List (Item E)} {synchronizer : Synchronizer E}
    (htracks : Tracks items synchronizer) {element : E} {sequenceNo : ℤ}
    (hsome : synchronizer.lastSequenceNoByElement.get? element = some sequenceNo)
    (elements : OrderedSet E) (operation : Operation) {other : Item E} (hmem : other ∈ items)
    (hspeaks : other.Speaks element) : other.AtMost (.patch elements operation sequenceNo) := by
  have hbelow := (htracks.marker element sequenceNo hsome).1
  cases other with
  | snapshot others number =>
    exact Or.inl (lt_of_le_of_lt (htracks.snapshot_le others number hmem) hbelow)
  | patch others otherOperation number =>
    rcases htracks.patch_le others otherOperation number element hmem hspeaks with hle | hnewest
    · exact Or.inl (lt_of_le_of_lt hle hbelow)
    · obtain ⟨newest, hget, hle⟩ := hnewest
      have hnewest : newest = sequenceNo := Option.some.inj (hget.symm.trans hsome)
      rcases lt_or_eq_of_le (hnewest ▸ hle) with hlt | heq
      · exact Or.inl hlt
      · exact Or.inr ⟨heq, fun hfalse ↦ hfalse⟩

/-- A tracked state contains exactly the members according to the highest-ranked items. -/
theorem mem_state_iff_memberByHighest {deliveries : List (Item E)} {synchronizer : Synchronizer E}
    (hnumbered : WellNumbered deliveries)
    (htracks : Tracks (initialSnapshot :: deliveries) synchronizer) (element : E) :
    element ∈ synchronizer.state ↔ MemberByHighest (initialSnapshot :: deliveries) element := by
  obtain ⟨last, hlast, hstate⟩ := htracks.snapshot_mem
  cases hget : synchronizer.lastSequenceNoByElement.get? element with
  | none =>
    rw [hstate element hget]
    constructor
    · intro hmem
      exact ⟨_, hlast, trivial, hmem, fun other hother hspeaks ↦
        htracks.atMost_snapshot hget last hother hspeaks⟩
    · rintro ⟨winner, hwinner, hspeaks, hverdict, hhighest⟩
      have habove := hhighest _ hlast trivial
      have hbelow := htracks.atMost_snapshot hget last hwinner hspeaks
      cases winner with
      | patch elements operation number =>
        simp only [Item.AtMost, Item.sequenceNo, Item.IsSnapshot, true_imp_iff, false_imp_iff,
          and_false, and_true, or_false] at habove hbelow
        omega
      | snapshot elements number =>
        simp only [Item.AtMost, Item.sequenceNo] at habove hbelow
        obtain rfl : number = synchronizer.lastSnapshotSequenceNo := by omega
        exact hnumbered.snapshot_unique_initial hwinner hlast ▸ hverdict
  | some sequenceNo =>
    obtain ⟨habove, elements, operation, hpatch, hspeaks, hverdict⟩ :=
      htracks.marker element sequenceNo hget
    rw [hverdict]
    constructor
    · intro hadded
      exact ⟨_, hpatch, hspeaks, hadded, fun other hother hother' ↦
        htracks.atMost_patch hget elements operation hother hother'⟩
    · rintro ⟨winner, hwinner, hwinnerSpeaks, hwinnerSays, hhighest⟩
      have hover := hhighest _ hpatch hspeaks
      have hunder := htracks.atMost_patch hget elements operation hwinner hwinnerSpeaks
      cases winner with
      | snapshot others number =>
        simp only [Item.AtMost, Item.sequenceNo, Item.IsSnapshot, true_imp_iff, false_imp_iff,
          and_false, and_true, or_false] at hover hunder
        omega
      | patch others other number =>
        simp only [Item.AtMost, Item.sequenceNo] at hover hunder
        obtain rfl : number = sequenceNo := by omega
        simp only [initialSnapshot, List.mem_cons, reduceCtorEq, false_or] at hpatch hwinner
        exact (hnumbered.patch_unique _ _ _ _ _ _ hpatch hwinner hspeaks hwinnerSpeaks).2 ▸
          hwinnerSays

/-! ### The returned diffs -/

/-- A set of members after a diff, as the listener of `StorageConfig.handleDiff` applies it: first
the added elements, then the removed ones. -/
def applyDiff (members : Set E) (diff : Diff E) : Set E :=
  (members ∪ {element | element ∈ diff.added}) \ {element | element ∈ diff.removed}

/-- The members of the current state. -/
def members (synchronizer : Synchronizer E) : Set E :=
  {element | element ∈ getState synchronizer}

theorem mem_addElements_changed (elements : List E) (state : OrderedSet E) (element : E) :
    element ∈ (addElements elements state).2 ↔ element ∈ elements ∧ element ∉ state := by
  induction elements generalizing state with
  | nil => simp [addElements]
  | cons first elements ih =>
    simp only [addElements, List.mem_cons]
    by_cases heq : element = first
    · subst heq
      by_cases hmem : element ∈ state <;> simp [hmem, ih]
    · by_cases hmem : first ∈ state <;> simp [hmem, ih, heq]

theorem mem_removeElements_changed (elements : List E) (state : OrderedSet E) (element : E) :
    element ∈ (removeElements elements state).2 ↔ element ∈ elements ∧ element ∈ state := by
  induction elements generalizing state with
  | nil => simp [removeElements]
  | cons first elements ih =>
    simp only [removeElements, List.mem_cons]
    by_cases heq : element = first
    · subst heq
      by_cases hmem : element ∈ state <;> simp [hmem, ih]
    · by_cases hmem : first ∈ state <;> simp [hmem, ih, heq]

omit [DecidableEq E] in
theorem applyDiff_emptyDiff (set : Set E) : applyDiff set emptyDiff = set := by
  ext element
  simp [applyDiff, emptyDiff]

/-- The diff of one ingestion takes the old members to the new ones. -/
theorem applyDiff_ingest (synchronizer : Synchronizer E) (item : Item E) :
    applyDiff (members synchronizer) (ingest synchronizer item).2 =
      members (ingest synchronizer item).1 := by
  cases item with
  | snapshot elements sequenceNo =>
    simp only [ingest, ingestSnapshot]
    split_ifs with hstale
    · exact applyDiff_emptyDiff _
    · ext element
      simp only [applyDiff, members, getState, setDifference, Set.mem_sdiff, Set.mem_union,
        Set.mem_ofPred_eq, List.mem_filter, decide_eq_true_eq, OrderedSet.mem_def]
      tauto
  | patch elements operation sequenceNo =>
    simp only [ingest, ingestPatch]
    split_ifs with hstale
    · exact applyDiff_emptyDiff _
    · cases operation with
      | added =>
        ext element
        simp only [applyDiff, members, getState, Set.mem_sdiff, Set.mem_union, Set.mem_ofPred_eq,
          mem_addElements_changed, mem_addElements, List.not_mem_nil, not_false_iff, and_true]
        tauto
      | removed =>
        ext element
        simp only [applyDiff, members, getState, Set.mem_sdiff, Set.mem_union, Set.mem_ofPred_eq,
          mem_removeElements_changed, mem_removeElements, List.not_mem_nil, or_false]
        tauto

/-- The diffs of any deliveries take the old members to the new ones. -/
theorem foldl_applyDiff_ingestAll (synchronizer : Synchronizer E) (deliveries : List (Item E)) :
    (ingestAll synchronizer deliveries).2.foldl applyDiff (members synchronizer) =
      members (ingestAll synchronizer deliveries).1 := by
  induction deliveries generalizing synchronizer with
  | nil => rfl
  | cons item deliveries ih =>
    simp only [ingestAll, List.foldl_cons, applyDiff_ingest]
    exact ih _

/-! ### The synchronizer as a whole -/

/-- For any deliveries of well-numbered items, in any order and with any repetitions, the state
contains an element exactly when the highest-ranked item that speaks about it says so, where the
empty set the synchronizer starts with ranks as a snapshot numbered zero; and the returned diffs,
applied in order to the empty set, give exactly the state. Assumes: well-numbered deliveries. -/
theorem getState_lastWriterWins (deliveries : List (Item E))
    (hnumbered : WellNumbered deliveries) :
    (∀ element, element ∈ getState (ingestAll initial deliveries).1 ↔
      MemberByHighest (initialSnapshot :: deliveries) element) ∧
    (ingestAll initial deliveries).2.foldl applyDiff ∅ =
      {element | element ∈ getState (ingestAll initial deliveries).1} := by
  refine ⟨mem_state_iff_memberByHighest hnumbered (tracks_ingestAll tracks_initial deliveries), ?_⟩
  have hempty : members (initial : Synchronizer E) = ∅ := Set.eq_empty_of_forall_notMem
    fun element ↦ OrderedSet.notMem_empty element
  rw [← hempty]
  exact foldl_applyDiff_ingestAll initial deliveries

/-- A set with one element. -/
def singleton (element : E) : OrderedSet E := ⟨[element], List.nodup_singleton element⟩

/-- A snapshot without the element arrives after a newer patch that adds it, and once more. -/
theorem getState_lastWriterWins_late_snapshot :
    (1 : ℕ) ∈ getState (ingestAll initial
      [.patch (singleton 1) .added 5, .snapshot (singleton 2) 4, .snapshot (singleton 2) 4]).1 := by
  have hnumbered : WellNumbered ([.patch (singleton 1) .added 5, .snapshot (singleton 2) 4,
      .snapshot (singleton 2) 4] : List (Item ℕ)) := by
    constructor <;> simp
    grind
  refine ((getState_lastWriterWins _ hnumbered).1 1).mpr ⟨.patch (singleton 1) .added 5, ?_⟩
  simp [initialSnapshot, Item.Speaks, Item.Says, Item.AtMost, Item.sequenceNo, Item.IsSnapshot,
    singleton, OrderedSet.mem_def, OrderedSet.empty]

/-- A patch numbered zero is well numbered and speaks alone about its element, and yet the element
is not in the state. -/
theorem patch_numbered_zero_ignored :
    WellNumbered ([.patch (singleton 1) .added 0] : List (Item ℕ)) ∧
      MemberByHighest [.patch (singleton 1) .added 0] (1 : ℕ) ∧
      (1 : ℕ) ∉ getState (ingestAll initial [.patch (singleton 1) .added 0]).1 := by
  refine ⟨?_, ⟨.patch (singleton 1) .added 0, ?_⟩, by decide⟩
  · constructor <;> simp
    grind
  · simp [Item.Speaks, Item.Says, Item.AtMost, singleton, OrderedSet.mem_def]

end PomboStorageNode.Storage.SetMembershipSynchronizer
