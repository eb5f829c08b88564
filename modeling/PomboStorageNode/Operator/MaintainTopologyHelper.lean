import PomboStorageNode.Library.OrderedMap
import PomboStorageNode.Library.Transition
import Mathlib.Data.Fintype.Basic
import Mathlib.Data.List.Perm.Subperm
import Mathlib.Logic.Function.Basic

/-!
# The streams an operator is staked on

`MaintainTopologyHelper.ts` keeps, for each sponsorship that the operator has staked on, its stream,
and counts the sponsorships of each stream. It announces a stream when the count becomes positive
and withdraws it when the count becomes zero. A `Staked` event is recorded only behind a lookup of
the stream, an `Unstaked` event at once, and the items of the initial snapshot in between.

The counts and the announcements always agree with what is recorded (`Helper.Counts`). What is
recorded need not be what is on chain: an `Unstaked` event that overtakes the lookup for its
sponsorship, or comes before its item of the snapshot, is ignored, and the sponsorship is recorded
behind it. `tracksStakes_of_reachable` is about runs in which that does not happen;
`unstake_overtakes_stake` shows runs in which it does.
-/

set_option autoImplicit false

namespace PomboStorageNode.Operator.MaintainTopologyHelper

open Library

variable {Sponsorship StreamID : Type} [DecidableEq Sponsorship] [DecidableEq StreamID]

/-! ### The helper -/

/-- `MaintainTopologyHelperEvents`. -/
inductive Emission (StreamID : Type)
  | addStakedStreams (streamIds : List StreamID)
  | removeStakedStream (streamId : StreamID)
  deriving DecidableEq

/-- A stream was announced, and not withdrawn since. The last emission is the first in the list. -/
def isAnnounced (streamId : StreamID) : List (Emission StreamID) → Bool
  | [] => false
  | .addStakedStreams streamIds :: before => decide (streamId ∈ streamIds) ||
    isAnnounced streamId before
  | .removeStakedStream removed :: before => decide (removed ≠ streamId) &&
    isAnnounced streamId before

/-- `MaintainTopologyHelper`, with what it has emitted, the last first. -/
structure Helper (Sponsorship StreamID : Type) where
  streamIdOfSponsorship : OrderedMap Sponsorship StreamID
  sponsorshipCountOfStream : OrderedMap StreamID ℕ
  emitted : List (Emission StreamID)

namespace Helper

/-- A helper that has just been started. -/
def create : Helper Sponsorship StreamID := ⟨.empty, .empty, []⟩

/-- `this.sponsorshipCountOfStream.get(streamId) ?? 0`. -/
def count (helper : Helper Sponsorship StreamID) (streamId : StreamID) : ℕ :=
  (helper.sponsorshipCountOfStream.get? streamId).getD 0

/-- A sponsorship is recorded and counted. -/
def record (helper : Helper Sponsorship StreamID) (sponsorship : Sponsorship)
    (streamId : StreamID) : Helper Sponsorship StreamID :=
  { helper with
    streamIdOfSponsorship := helper.streamIdOfSponsorship.set sponsorship streamId
    sponsorshipCountOfStream :=
      helper.sponsorshipCountOfStream.set streamId (helper.count streamId + 1) }

/-- `onStakedListener`, behind the lookup of the stream. -/
def onStaked (helper : Helper Sponsorship StreamID) (sponsorship : Sponsorship)
    (streamId : StreamID) : Helper Sponsorship StreamID :=
  if helper.streamIdOfSponsorship.has sponsorship then helper
  else
    let recorded := helper.record sponsorship streamId
    if recorded.count streamId = 1 then
      { recorded with emitted := .addStakedStreams [streamId] :: recorded.emitted }
    else recorded

/-- `onUnstakedListener`. The count of a stream of a recorded sponsorship is positive. -/
def onUnstaked (helper : Helper Sponsorship StreamID) (sponsorship : Sponsorship) :
    Helper Sponsorship StreamID :=
  match helper.streamIdOfSponsorship.get? sponsorship with
  | none => helper
  | some streamId =>
    let sponsorshipCount := helper.count streamId - 1
    if sponsorshipCount = 0 then
      { streamIdOfSponsorship := helper.streamIdOfSponsorship.delete sponsorship
        sponsorshipCountOfStream :=
          (helper.sponsorshipCountOfStream.set streamId sponsorshipCount).delete streamId
        emitted := .removeStakedStream streamId :: helper.emitted }
    else
      { helper with
        streamIdOfSponsorship := helper.streamIdOfSponsorship.delete sponsorship
        sponsorshipCountOfStream :=
          helper.sponsorshipCountOfStream.set streamId sponsorshipCount }

/-- An item of the snapshot. -/
def onItem (helper : Helper Sponsorship StreamID) (sponsorship : Sponsorship)
    (streamId : StreamID) : Helper Sponsorship StreamID :=
  if helper.streamIdOfSponsorship.get? sponsorship ≠ some streamId then
    helper.record sponsorship streamId
  else helper

/-- The end of the snapshot. -/
def onSnapshotEnded (helper : Helper Sponsorship StreamID) : Helper Sponsorship StreamID :=
  if 0 < helper.sponsorshipCountOfStream.keys.length then
    { helper with
      emitted := .addStakedStreams helper.sponsorshipCountOfStream.keys :: helper.emitted }
  else helper

/-- The sponsorships that are recorded. -/
def recorded (helper : Helper Sponsorship StreamID) : List Sponsorship :=
  helper.streamIdOfSponsorship.keys

end Helper

/-! ### The chain -/

/-- An event of a sponsorship. -/
inductive Kind
  | staked
  | unstaked
  deriving DecidableEq

/-- The snapshot of `pullStakedStreams`: it is still to be taken, has items that are still to be
processed, or was processed. -/
inductive Snapshot (Sponsorship : Type)
  | awaited
  | taken (items : List Sponsorship)
  | ended
  deriving DecidableEq

/-- The items that are still to be processed. -/
def Snapshot.items : Snapshot Sponsorship → List Sponsorship
  | .awaited | .ended => []
  | .taken items => items

/-- The helper and the chain: the sponsorships that are staked, the events of each sponsorship that
are still to be delivered, the number of lookups in progress for it, and the snapshot. -/
structure State (Sponsorship StreamID : Type) where
  helper : Helper Sponsorship StreamID
  staked : OrderedSet Sponsorship
  undelivered : Sponsorship → List Kind
  lookups : Sponsorship → ℕ
  snapshot : Snapshot Sponsorship

/-- What happens: an event is mined, or delivered; a lookup returns, or fails; the snapshot is
taken; an item of it is processed; it ends. -/
inductive Event (Sponsorship : Type)
  | mined (kind : Kind) (sponsorship : Sponsorship)
  | delivered (sponsorship : Sponsorship)
  | lookedUp (sponsorship : Sponsorship)
  | lookupFailed (sponsorship : Sponsorship)
  | snapshotTaken (items : List Sponsorship)
  | item
  | snapshotEnded

namespace State

/-- What is staked when the helper starts. -/
def start (staked : OrderedSet Sponsorship) : State Sponsorship StreamID :=
  ⟨.create, staked, fun _ ↦ [], fun _ ↦ 0, .awaited⟩

/-- The state after an event, or `none` when it cannot happen. Each sponsorship is on one stream. -/
def step (streamOf : Sponsorship → StreamID) (state : State Sponsorship StreamID) :
    Event Sponsorship → Option (State Sponsorship StreamID)
  | .mined kind sponsorship => some { state with
      staked := match kind with
        | .staked => state.staked.add sponsorship
        | .unstaked => state.staked.delete sponsorship
      undelivered := Function.update state.undelivered sponsorship
        (state.undelivered sponsorship ++ [kind]) }
  | .delivered sponsorship =>
    match state.undelivered sponsorship with
    | [] => none
    | .staked :: later => some { state with
        undelivered := Function.update state.undelivered sponsorship later
        lookups := Function.update state.lookups sponsorship (state.lookups sponsorship + 1) }
    | .unstaked :: later => some { state with
        undelivered := Function.update state.undelivered sponsorship later
        helper := state.helper.onUnstaked sponsorship }
  | .lookedUp sponsorship =>
    if 0 < state.lookups sponsorship then some { state with
      lookups := Function.update state.lookups sponsorship (state.lookups sponsorship - 1)
      helper := state.helper.onStaked sponsorship (streamOf sponsorship) }
    else none
  | .lookupFailed sponsorship =>
    if 0 < state.lookups sponsorship then some { state with
      lookups := Function.update state.lookups sponsorship (state.lookups sponsorship - 1) }
    else none
  | .snapshotTaken items =>
    if state.snapshot = .awaited ∧ items.Perm state.staked.elements then
      some { state with snapshot := .taken items }
    else none
  | .item =>
    match state.snapshot with
    | .taken (sponsorship :: items) => some { state with
        snapshot := .taken items
        helper := state.helper.onItem sponsorship (streamOf sponsorship) }
    | .awaited | .taken [] | .ended => none
  | .snapshotEnded =>
    if state.snapshot = .taken [] then
      some { state with snapshot := .ended, helper := state.helper.onSnapshotEnded }
    else none

/-- Everything has been processed. -/
def Processed (state : State Sponsorship StreamID) : Prop :=
  (∀ sponsorship, state.undelivered sponsorship = []) ∧
    (∀ sponsorship, state.lookups sponsorship = 0) ∧ state.snapshot = .ended

/-- The announced streams are those with a staked sponsorship, and the counts are those of the
staked sponsorships. -/
def Exact (streamOf : Sponsorship → StreamID) (state : State Sponsorship StreamID) : Prop :=
  (∀ streamId, isAnnounced streamId state.helper.emitted = true ↔
    ∃ sponsorship ∈ state.staked, streamOf sponsorship = streamId) ∧
  ∀ streamId, state.helper.count streamId =
    state.staked.elements.countP fun sponsorship ↦ decide (streamOf sponsorship = streamId)

/-- When everything has been processed, what is announced and counted is exact. -/
def TracksStakes (streamOf : Sponsorship → StreamID) (state : State Sponsorship StreamID) : Prop :=
  state.Processed → state.Exact streamOf

/-- The sponsorship is recorded, or will be: a lookup is in progress or its item is to come. -/
def willBeRecorded (state : State Sponsorship StreamID) (sponsorship : Sponsorship) : Bool :=
  state.helper.streamIdOfSponsorship.has sponsorship || decide (0 < state.lookups sponsorship) ||
    decide (sponsorship ∈ state.snapshot.items)

/-- The condition. When the last event of a sponsorship that is to come is an `Unstaked` one and is
delivered, no lookup is in progress for the sponsorship and no item of the snapshot is to come for
it. When the only lookup in progress for a sponsorship fails, its events are to come, or the
snapshot is, or its item of it, or it is recorded already. -/
def inOrder (state : State Sponsorship StreamID) : Event Sponsorship → Bool
  | .delivered sponsorship => decide (state.undelivered sponsorship ≠ [.unstaked]) ||
    (decide (state.lookups sponsorship = 0) && decide (sponsorship ∉ state.snapshot.items))
  | .lookupFailed sponsorship => decide (state.undelivered sponsorship ≠ []) ||
    decide (state.snapshot = .awaited) || decide (1 < state.lookups sponsorship) ||
    state.helper.streamIdOfSponsorship.has sponsorship ||
    decide (sponsorship ∈ state.snapshot.items)
  | .mined .. | .lookedUp _ | .snapshotTaken _ | .item | .snapshotEnded => true

end State

/-! ### What is recorded is counted and announced -/

namespace Helper

/-- The number of recorded sponsorships of a stream. -/
def recordedOn (streamOf : Sponsorship → StreamID) (helper : Helper Sponsorship StreamID)
    (streamId : StreamID) : ℕ :=
  helper.recorded.countP fun sponsorship ↦ decide (streamOf sponsorship = streamId)

/-- The counts are those of the recorded sponsorships, and only streams that are counted are
announced. -/
structure Counts (streamOf : Sponsorship → StreamID) (helper : Helper Sponsorship StreamID) :
    Prop where
  streams : ∀ sponsorship streamId, helper.streamIdOfSponsorship.get? sponsorship = some streamId →
    streamOf sponsorship = streamId
  counts : ∀ streamId, helper.count streamId = helper.recordedOn streamOf streamId
  counted : ∀ streamId, helper.sponsorshipCountOfStream.has streamId =
    decide (0 < helper.recordedOn streamOf streamId)
  announced : ∀ streamId, isAnnounced streamId helper.emitted = true →
    0 < helper.recordedOn streamOf streamId

/-- All streams that are counted are announced. -/
def AnnouncesAll (streamOf : Sponsorship → StreamID) (helper : Helper Sponsorship StreamID) :
    Prop :=
  ∀ streamId, 0 < helper.recordedOn streamOf streamId → isAnnounced streamId helper.emitted = true

variable {streamOf : Sponsorship → StreamID} {helper : Helper Sponsorship StreamID}
  {sponsorship : Sponsorship}

theorem counts_create : Counts streamOf (create : Helper Sponsorship StreamID) where
  streams := by
    rintro sponsorship streamId hget
    cases (OrderedMap.get?_empty sponsorship).symm.trans hget
  counts := fun _ ↦ rfl
  counted := fun _ ↦ rfl
  announced := fun _ hannounced ↦ nomatch hannounced

/-- A new sponsorship is one more of its stream. -/
theorem recordedOn_record (hnew : helper.streamIdOfSponsorship.has sponsorship = false)
    (streamId : StreamID) :
    (helper.record sponsorship (streamOf sponsorship)).recordedOn streamOf streamId =
      helper.recordedOn streamOf streamId + if streamOf sponsorship = streamId then 1 else 0 := by
  have hperm : (helper.record sponsorship (streamOf sponsorship)).recorded.Perm
      (sponsorship :: helper.recorded) := OrderedMap.keys_set_perm _ _ hnew
  rw [recordedOn, hperm.countP_eq, List.countP_cons, recordedOn]
  simp

/-- Recording a new sponsorship keeps the counts, apart from the announcement. -/
theorem Counts.record (hcounts : helper.Counts streamOf)
    (hnew : helper.streamIdOfSponsorship.has sponsorship = false) :
    (helper.record sponsorship (streamOf sponsorship)).Counts streamOf where
  streams := by
    intro other streamId hget
    rcases OrderedMap.get?_set_eq_some_iff.mp hget with ⟨rfl, rfl⟩ | ⟨-, hold⟩
    · rfl
    · exact hcounts.streams other streamId hold
  counts := by
    intro streamId
    rw [recordedOn_record hnew, ← hcounts.counts]
    by_cases hstream : streamOf sponsorship = streamId
    · subst hstream
      rw [if_pos rfl, count, Helper.record, OrderedMap.get?_set_self]
      rfl
    · rw [if_neg hstream, count, Helper.record, OrderedMap.get?_set_of_ne _ _ (Ne.symm hstream)]
      rfl
  counted := by
    intro streamId
    rw [recordedOn_record hnew, Bool.eq_iff_iff, Helper.record, OrderedMap.has_set,
      hcounts.counted, decide_eq_true_eq, decide_eq_true_eq]
    split_ifs with hstream
    · exact iff_of_true (.inl hstream.symm) (Nat.succ_pos _)
    · simp [Ne.symm hstream]
  announced := by
    intro streamId hannounced
    rw [recordedOn_record hnew]
    exact Nat.lt_of_lt_of_le (hcounts.announced streamId hannounced) (Nat.le_add_right _ _)

/-- A stake is announced if it is the first one of its stream. -/
theorem Counts.onStaked (hcounts : helper.Counts streamOf) (sponsorship : Sponsorship) :
    (helper.onStaked sponsorship (streamOf sponsorship)).Counts streamOf ∧
      (helper.AnnouncesAll streamOf →
        (helper.onStaked sponsorship (streamOf sponsorship)).AnnouncesAll streamOf) := by
  unfold Helper.onStaked
  by_cases hhas : helper.streamIdOfSponsorship.has sponsorship = true
  · rw [if_pos hhas]
    exact ⟨hcounts, id⟩
  have hnew := Bool.eq_false_iff.mpr hhas
  have hrecorded := hcounts.record hnew
  rw [if_neg hhas]
  dsimp only
  rw [hrecorded.counts, recordedOn_record hnew, if_pos rfl]
  split_ifs with hfirst
  · refine ⟨{ hrecorded with announced := ?_ }, fun hall ↦ ?_⟩
    · intro streamId hannounced
      rcases Bool.or_eq_true_iff.mp hannounced with hstream | hbefore
      · rw [List.mem_singleton.mp (of_decide_eq_true hstream)]
        exact (recordedOn_record hnew _).symm ▸ (by rw [if_pos rfl]; exact Nat.succ_pos _)
      · exact hrecorded.announced streamId hbefore
    · intro streamId hpositive
      change 0 < (helper.record _ _).recordedOn streamOf streamId at hpositive
      rw [recordedOn_record hnew] at hpositive
      refine Bool.or_eq_true_iff.mpr ?_
      by_cases hstream : streamOf sponsorship = streamId
      · exact Or.inl (decide_eq_true (hstream ▸ List.mem_singleton_self _))
      · rw [if_neg hstream] at hpositive
        exact Or.inr (hall streamId hpositive)
  · refine ⟨hrecorded, fun hall streamId hpositive ↦ hall streamId ?_⟩
    rw [recordedOn_record hnew] at hpositive
    by_cases hstream : streamOf sponsorship = streamId
    · rw [← hstream]
      omega
    · rwa [if_neg hstream] at hpositive

theorem Counts.onItem (hcounts : helper.Counts streamOf) (sponsorship : Sponsorship) :
    (helper.onItem sponsorship (streamOf sponsorship)).Counts streamOf := by
  unfold Helper.onItem
  split_ifs with hdiffers
  · refine hcounts.record ?_
    cases hget : helper.streamIdOfSponsorship.get? sponsorship with
    | none => rw [OrderedMap.has, hget, Option.isSome_none]
    | some streamId => exact absurd (hcounts.streams _ _ hget ▸ hget) hdiffers
  · exact hcounts

/-- A recorded sponsorship that is removed is one less of its stream. -/
theorem recordedOn_delete (streamOf : Sponsorship → StreamID)
    (hhas : helper.streamIdOfSponsorship.has sponsorship = true)
    (counts : OrderedMap StreamID ℕ) (emitted : List (Emission StreamID)) (streamId : StreamID) :
    helper.recordedOn streamOf streamId =
      recordedOn streamOf ⟨helper.streamIdOfSponsorship.delete sponsorship, counts, emitted⟩
        streamId + if streamOf sponsorship = streamId then 1 else 0 := by
  have hperm : helper.recorded.Perm
      (sponsorship :: (helper.streamIdOfSponsorship.delete sponsorship).keys) :=
    OrderedMap.keys_delete_perm _ hhas
  rw [recordedOn, hperm.countP_eq, List.countP_cons, recordedOn, recorded]
  simp

theorem getD_filter_pos (count : ℕ) : ((some count).filter (0 < ·)).getD 0 = count := by
  rcases Nat.eq_zero_or_pos count with rfl | hpositive
  · rfl
  · rw [Option.filter_some, if_pos (decide_eq_true hpositive), Option.getD_some]

/-- A stream is counted exactly when its count is positive. -/
theorem Counts.get?_eq (hcounts : helper.Counts streamOf) (streamId : StreamID) :
    helper.sponsorshipCountOfStream.get? streamId =
      (some (helper.count streamId)).filter (0 < ·) := by
  have hcounted := hcounts.counted streamId
  rw [← hcounts.counts, OrderedMap.has, count] at hcounted
  rw [count]
  cases hget : helper.sponsorshipCountOfStream.get? streamId with
  | none => rfl
  | some count =>
    rw [hget, Option.isSome_some, Option.getD_some] at hcounted
    rw [Option.getD_some, Option.filter_some, if_pos hcounted.symm]

theorem Counts.isAnnounced_and_has (hcounts : helper.Counts streamOf) (streamId : StreamID) :
    (isAnnounced streamId helper.emitted && helper.sponsorshipCountOfStream.has streamId) =
      isAnnounced streamId helper.emitted := by
  rw [Bool.and_eq_left_iff_imp]
  intro hannounced
  rw [hcounts.counted]
  exact decide_eq_true (hcounts.announced streamId hannounced)

/-- The count of the stream of a sponsorship that is removed is one less, and a count of zero is
removed. The streams that remain announced are those that are still counted. -/
theorem Counts.remove (hcounts : helper.Counts streamOf)
    (hhas : helper.streamIdOfSponsorship.has sponsorship = true)
    {counts : OrderedMap StreamID ℕ} {emitted : List (Emission StreamID)}
    (hsame : ∀ streamId, streamOf sponsorship ≠ streamId →
      counts.get? streamId = helper.sponsorshipCountOfStream.get? streamId)
    (hless : counts.get? (streamOf sponsorship) =
      (some (helper.count (streamOf sponsorship) - 1)).filter (0 < ·))
    (hemitted : ∀ streamId, isAnnounced streamId emitted =
      (isAnnounced streamId helper.emitted && counts.has streamId)) :
    Counts streamOf ⟨helper.streamIdOfSponsorship.delete sponsorship, counts, emitted⟩ ∧
      (helper.AnnouncesAll streamOf → AnnouncesAll streamOf
        ⟨helper.streamIdOfSponsorship.delete sponsorship, counts, emitted⟩) := by
  have hrecorded := recordedOn_delete streamOf hhas counts emitted
  have hget (streamId : StreamID) : counts.get? streamId =
      (some (recordedOn streamOf
        ⟨helper.streamIdOfSponsorship.delete sponsorship, counts, emitted⟩ streamId)).filter
          (0 < ·) := by
    have hone := hrecorded streamId
    by_cases hstream : streamOf sponsorship = streamId
    · subst hstream
      rw [if_pos rfl] at hone
      rw [hless, hcounts.counts, hone, Nat.add_sub_cancel]
    · rw [if_neg hstream, Nat.add_zero] at hone
      rw [hsame streamId hstream, ← hone, ← hcounts.counts, hcounts.get?_eq]
  have hcounted (streamId : StreamID) : counts.has streamId =
      decide (0 < recordedOn streamOf
        ⟨helper.streamIdOfSponsorship.delete sponsorship, counts, emitted⟩ streamId) := by
    rw [OrderedMap.has, hget, Option.isSome_filter, Option.any_some]
  refine ⟨⟨fun other streamId hother ↦ ?_, fun streamId ↦ ?_, hcounted, fun streamId hold ↦ ?_⟩,
    fun hall streamId hpositive ↦ ?_⟩
  · exact hcounts.streams other streamId (OrderedMap.get?_delete_eq_some_iff.mp hother).2
  · rw [count, hget]
    exact getD_filter_pos _
  · rw [hemitted, Bool.and_eq_true, hcounted, decide_eq_true_eq] at hold
    exact hold.2
  · rw [hemitted, hcounted, decide_eq_true hpositive, Bool.and_true]
    refine hall streamId ?_
    rw [hrecorded]
    exact Nat.lt_of_lt_of_le hpositive (Nat.le_add_right _ _)

/-- A stream is withdrawn with its last sponsorship. -/
theorem Counts.onUnstaked (hcounts : helper.Counts streamOf) (sponsorship : Sponsorship) :
    (helper.onUnstaked sponsorship).Counts streamOf ∧
      (helper.AnnouncesAll streamOf → (helper.onUnstaked sponsorship).AnnouncesAll streamOf) := by
  unfold Helper.onUnstaked
  cases hget : helper.streamIdOfSponsorship.get? sponsorship with
  | none => exact ⟨hcounts, id⟩
  | some streamId =>
    dsimp only
    have hhas : helper.streamIdOfSponsorship.has sponsorship = true := by
      rw [OrderedMap.has, hget, Option.isSome_some]
    obtain rfl := hcounts.streams sponsorship streamId hget
    split_ifs with hlast
    · refine hcounts.remove hhas (fun other hother ↦ ?_) ?_ (fun other ↦ ?_)
      · rw [OrderedMap.get?_delete_of_ne _ (Ne.symm hother),
          OrderedMap.get?_set_of_ne _ _ (Ne.symm hother)]
      · rw [OrderedMap.get?_delete_self, hlast]
        rfl
      · rw [isAnnounced]
        by_cases hother : streamOf sponsorship = other
        · rw [← hother, OrderedMap.has, OrderedMap.get?_delete_self, Option.isSome_none,
            Bool.and_false, decide_eq_false (not_not_intro rfl), Bool.false_and]
        · rw [OrderedMap.has, OrderedMap.get?_delete_of_ne _ (Ne.symm hother),
            OrderedMap.get?_set_of_ne _ _ (Ne.symm hother), ← OrderedMap.has,
            hcounts.isAnnounced_and_has, decide_eq_true hother, Bool.true_and]
    · refine hcounts.remove hhas (fun other hother ↦ ?_) ?_ (fun other ↦ ?_)
      · rw [OrderedMap.get?_set_of_ne _ _ (Ne.symm hother)]
      · rw [OrderedMap.get?_set_self, Option.filter_some,
          if_pos (decide_eq_true (Nat.pos_of_ne_zero hlast))]
      · refine Eq.symm (Bool.and_eq_left_iff_imp.mpr fun hannounced ↦ ?_)
        rw [← hcounts.isAnnounced_and_has, Bool.and_eq_true] at hannounced
        exact OrderedMap.has_set.mpr (Or.inr hannounced.2)

theorem Counts.onSnapshotEnded (hcounts : helper.Counts streamOf) :
    helper.onSnapshotEnded.Counts streamOf ∧ helper.onSnapshotEnded.AnnouncesAll streamOf := by
  have hcounted (streamId : StreamID) : streamId ∈ helper.sponsorshipCountOfStream.keys ↔
      0 < helper.recordedOn streamOf streamId := by
    rw [← OrderedMap.has_iff_mem_keys, hcounts.counted, decide_eq_true_eq]
  unfold Helper.onSnapshotEnded
  split_ifs with hsome
  · refine ⟨{ hcounts with announced := ?_ }, fun streamId hpositive ↦ ?_⟩
    · intro streamId hannounced
      rcases Bool.or_eq_true_iff.mp hannounced with hkey | hbefore
      · exact (hcounted streamId).mp (of_decide_eq_true hkey)
      · exact hcounts.announced streamId hbefore
    · exact Bool.or_eq_true_iff.mpr (Or.inl (decide_eq_true ((hcounted streamId).mpr hpositive)))
  · refine ⟨hcounts, fun streamId hpositive ↦ ?_⟩
    exact absurd (List.length_pos_of_mem ((hcounted streamId).mpr hpositive)) hsome

/-! ### What the operations record -/

theorem has_record (helper : Helper Sponsorship StreamID) {sponsorship other : Sponsorship}
    {streamId : StreamID} :
    (helper.record sponsorship streamId).streamIdOfSponsorship.has other = true ↔
      other = sponsorship ∨ helper.streamIdOfSponsorship.has other = true :=
  OrderedMap.has_set

/-- Behind the lookup a sponsorship is recorded, whether it is new or not. -/
theorem has_onStaked (helper : Helper Sponsorship StreamID) {sponsorship other : Sponsorship}
    {streamId : StreamID} :
    (helper.onStaked sponsorship streamId).streamIdOfSponsorship.has other = true ↔
      other = sponsorship ∨ helper.streamIdOfSponsorship.has other = true := by
  unfold onStaked
  split_ifs with hhas
  · exact ⟨Or.inr, fun hor ↦ hor.elim (fun heq ↦ heq ▸ hhas) id⟩
  · dsimp only
    split_ifs
    · exact helper.has_record
    · exact helper.has_record

theorem has_onUnstaked (helper : Helper Sponsorship StreamID) {sponsorship other : Sponsorship} :
    (helper.onUnstaked sponsorship).streamIdOfSponsorship.has other = true ↔
      helper.streamIdOfSponsorship.has other = true ∧ other ≠ sponsorship := by
  unfold onUnstaked
  cases hget : helper.streamIdOfSponsorship.get? sponsorship with
  | none =>
    refine ⟨fun hhas ↦ ⟨hhas, ?_⟩, And.left⟩
    rintro rfl
    rw [OrderedMap.has, hget] at hhas
    cases hhas
  | some streamId =>
    dsimp only
    split_ifs
    · exact OrderedMap.has_delete
    · exact OrderedMap.has_delete

theorem has_onItem (helper : Helper Sponsorship StreamID) {sponsorship other : Sponsorship}
    {streamId : StreamID} :
    (helper.onItem sponsorship streamId).streamIdOfSponsorship.has other = true ↔
      other = sponsorship ∨ helper.streamIdOfSponsorship.has other = true := by
  unfold onItem
  split_ifs with hdiffers
  · exact helper.has_record
  · refine ⟨Or.inr, fun hor ↦ hor.elim (fun heq ↦ ?_) id⟩
    rw [heq, OrderedMap.has, not_not.mp hdiffers, Option.isSome_some]

omit [DecidableEq Sponsorship] [DecidableEq StreamID] in
theorem onSnapshotEnded_streamIdOfSponsorship (helper : Helper Sponsorship StreamID) :
    helper.onSnapshotEnded.streamIdOfSponsorship = helper.streamIdOfSponsorship := by
  unfold onSnapshotEnded
  split_ifs <;> rfl

omit [DecidableEq StreamID] in
theorem mem_recorded {helper : Helper Sponsorship StreamID} {sponsorship : Sponsorship} :
    sponsorship ∈ helper.recorded ↔ helper.streamIdOfSponsorship.has sponsorship = true :=
  OrderedMap.has_iff_mem_keys.symm

end Helper

/-! ### Runs -/

namespace State

variable {streamOf : Sponsorship → StreamID} {state after : State Sponsorship StreamID}
  {event : Event Sponsorship}

omit [DecidableEq StreamID] in
theorem willBeRecorded_iff {sponsorship : Sponsorship} :
    state.willBeRecorded sponsorship = true ↔
      state.helper.streamIdOfSponsorship.has sponsorship = true ∨
        0 < state.lookups sponsorship ∨ sponsorship ∈ state.snapshot.items := by
  simp [willBeRecorded, or_assoc]

/-- What the run keeps for one sponsorship: the last event that is to come says whether it is
staked, and when none is to come, exactly a staked sponsorship will be recorded. -/
structure Settles (state : State Sponsorship StreamID) (sponsorship : Sponsorship) : Prop where
  last : ∀ kind, (state.undelivered sponsorship).getLast? = some kind →
    (kind = .staked ↔ sponsorship ∈ state.staked)
  staked : state.undelivered sponsorship = [] → state.willBeRecorded sponsorship = true →
    sponsorship ∈ state.staked
  recorded : state.undelivered sponsorship = [] → state.snapshot ≠ .awaited →
    sponsorship ∈ state.staked → state.willBeRecorded sponsorship = true

/-- Every step keeps the counts, and the announcements from the end of the snapshot on. -/
theorem counts_step (hcounts : state.helper.Counts streamOf)
    (hannounced : state.snapshot = .ended → state.helper.AnnouncesAll streamOf)
    (hstep : state.step streamOf event = some after) :
    after.helper.Counts streamOf ∧
      (after.snapshot = .ended → after.helper.AnnouncesAll streamOf) := by
  cases event with
  | mined kind sponsorship =>
    cases hstep
    exact ⟨hcounts, hannounced⟩
  | delivered sponsorship =>
    rw [step] at hstep
    split at hstep
    · cases hstep
    · cases hstep
      exact ⟨hcounts, hannounced⟩
    · cases hstep
      obtain ⟨hkept, hall⟩ := hcounts.onUnstaked sponsorship
      exact ⟨hkept, fun hended ↦ hall (hannounced hended)⟩
  | lookedUp sponsorship =>
    rw [step] at hstep
    split_ifs at hstep
    cases hstep
    obtain ⟨hkept, hall⟩ := hcounts.onStaked sponsorship
    exact ⟨hkept, fun hended ↦ hall (hannounced hended)⟩
  | lookupFailed sponsorship =>
    rw [step] at hstep
    split_ifs at hstep
    cases hstep
    exact ⟨hcounts, hannounced⟩
  | snapshotTaken items =>
    rw [step] at hstep
    split_ifs at hstep
    cases hstep
    exact ⟨hcounts, fun hended ↦ nomatch hended⟩
  | item =>
    rw [step] at hstep
    split at hstep
    · cases hstep
      exact ⟨hcounts.onItem _, fun hended ↦ nomatch hended⟩
    all_goals cases hstep
  | snapshotEnded =>
    rw [step] at hstep
    split_ifs at hstep
    cases hstep
    exact ⟨hcounts.onSnapshotEnded.1, fun _ ↦ hcounts.onSnapshotEnded.2⟩

omit [DecidableEq StreamID] in
/-- A sponsorship settles in a state that has the same of it. -/
theorem Settles.of_same {sponsorship : Sponsorship} (hsettles : state.Settles sponsorship)
    (hundelivered : after.undelivered sponsorship = state.undelivered sponsorship)
    (hstaked : sponsorship ∈ after.staked ↔ sponsorship ∈ state.staked)
    (hsnapshot : after.snapshot ≠ .awaited → state.snapshot ≠ .awaited)
    (hrecorded : (after.helper.streamIdOfSponsorship.has sponsorship = true ∨
        0 < after.lookups sponsorship ∨ sponsorship ∈ after.snapshot.items) ↔
      state.helper.streamIdOfSponsorship.has sponsorship = true ∨
        0 < state.lookups sponsorship ∨ sponsorship ∈ state.snapshot.items) :
    after.Settles sponsorship := by
  rw [← willBeRecorded_iff, ← willBeRecorded_iff] at hrecorded
  refine ⟨?_, ?_, ?_⟩
  · rw [hundelivered, hstaked]
    exact hsettles.last
  · rw [hundelivered, hstaked, hrecorded]
    exact hsettles.staked
  · rw [hundelivered, hstaked, hrecorded]
    exact fun hnone htaken ↦ hsettles.recorded hnone (hsnapshot htaken)

theorem settles_mined {kind : Kind} {sponsorship other : Sponsorship}
    (hsettles : state.Settles other)
    (hstep : state.step streamOf (.mined kind sponsorship) = some after) :
    after.Settles other := by
  cases hstep
  by_cases heq : other = sponsorship
  · subst heq
    refine ⟨fun last hlast ↦ ?_, fun hnone ↦ ?_, fun hnone ↦ ?_⟩
    · dsimp only at hlast ⊢
      rw [Function.update_self, List.getLast?_append, List.getLast?_singleton,
        Option.some_or, Option.some.injEq] at hlast
      subst hlast
      cases kind with
      | staked => simp
      | unstaked => simp
    · dsimp only at hnone
      rw [Function.update_self] at hnone
      simp at hnone
    · dsimp only at hnone
      rw [Function.update_self] at hnone
      simp at hnone
  · refine hsettles.of_same ?_ ?_ id Iff.rfl
    · exact Function.update_of_ne heq _ _
    · cases kind with
      | staked => simp [heq]
      | unstaked => simp [heq]

/-- A delivery that is not the last leaves the last event; a stake starts a lookup, and the last
unstake, which under the condition finds no lookup and no item, removes what is recorded. -/
theorem settles_delivered {sponsorship other : Sponsorship} (hsettles : state.Settles other)
    (hinOrder : state.inOrder (.delivered sponsorship) = true)
    (hstep : state.step streamOf (.delivered sponsorship) = some after) :
    after.Settles other := by
  rw [step] at hstep
  split at hstep
  case h_1 => cases hstep
  case h_2 later hundelivered =>
    cases hstep
    by_cases heq : other = sponsorship
    · subst heq
      refine ⟨fun kind hlast ↦ hsettles.last kind ?_, fun hnone _ ↦ ?_, fun _ _ _ ↦ ?_⟩
      · dsimp only at hlast
        rw [Function.update_self] at hlast
        rw [hundelivered, List.getLast?_cons, hlast, Option.getD_some]
      · dsimp only at hnone
        rw [Function.update_self] at hnone
        exact (hsettles.last .staked (by rw [hundelivered, hnone]; rfl)).mp rfl
      · rw [willBeRecorded_iff]
        dsimp only
        rw [Function.update_self]
        exact Or.inr (Or.inl (Nat.succ_pos _))
    · refine hsettles.of_same (Function.update_of_ne heq _ _) Iff.rfl id ?_
      dsimp only
      rw [Function.update_of_ne heq]
  case h_3 later hundelivered =>
    cases hstep
    by_cases heq : other = sponsorship
    · subst heq
      refine ⟨fun kind hlast ↦ hsettles.last kind ?_, fun hnone hrecorded ↦ ?_,
        fun hnone _ hstaked ↦ ?_⟩
      · dsimp only at hlast
        rw [Function.update_self] at hlast
        rw [hundelivered, List.getLast?_cons, hlast, Option.getD_some]
      · dsimp only at hnone
        rw [Function.update_self] at hnone
        rw [inOrder, hundelivered, hnone] at hinOrder
        rw [willBeRecorded_iff] at hrecorded
        dsimp only at hrecorded
        rw [Helper.has_onUnstaked] at hrecorded
        simp only [ne_eq, not_true_eq_false, decide_false, Bool.false_or, Bool.and_eq_true,
          decide_eq_true_eq] at hinOrder
        obtain ⟨hlookups, hitems⟩ := hinOrder
        rcases hrecorded with ⟨-, hne⟩ | hlookup | hitem
        · exact absurd rfl hne
        · exact absurd hlookups (Nat.ne_of_gt hlookup)
        · exact absurd hitem hitems
      · dsimp only at hnone hstaked
        rw [Function.update_self] at hnone
        have hlast := hsettles.last .unstaked (by rw [hundelivered, hnone]; rfl)
        cases hlast.mpr hstaked
    · refine hsettles.of_same (Function.update_of_ne heq _ _) Iff.rfl id ?_
      dsimp only
      rw [Helper.has_onUnstaked, and_iff_left heq]

theorem settles_lookedUp {sponsorship other : Sponsorship} (hsettles : state.Settles other)
    (hstep : state.step streamOf (.lookedUp sponsorship) = some after) :
    after.Settles other := by
  rw [step] at hstep
  split_ifs at hstep with hlookup
  cases hstep
  by_cases heq : other = sponsorship
  · subst heq
    refine hsettles.of_same rfl Iff.rfl id ?_
    exact iff_of_true (Or.inl ((Helper.has_onStaked _).mpr (Or.inl rfl))) (Or.inr (Or.inl hlookup))
  · refine hsettles.of_same rfl Iff.rfl id ?_
    dsimp only
    rw [Helper.has_onStaked, or_iff_right heq, Function.update_of_ne heq]

/-- A lookup that fails under the condition leaves a sponsorship without events that is staked
another lookup, its item or its record. -/
theorem settles_lookupFailed {sponsorship other : Sponsorship} (hsettles : state.Settles other)
    (hinOrder : state.inOrder (.lookupFailed sponsorship) = true)
    (hstep : state.step streamOf (.lookupFailed sponsorship) = some after) :
    after.Settles other := by
  rw [step] at hstep
  split_ifs at hstep with hlookup
  cases hstep
  by_cases heq : other = sponsorship
  · subst heq
    refine ⟨hsettles.last, fun hnone hrecorded ↦ hsettles.staked hnone ?_, fun hnone htaken _ ↦ ?_⟩
    · exact willBeRecorded_iff.mpr (Or.inr (Or.inl hlookup))
    · simp only [inOrder, Bool.or_eq_true, decide_eq_true_eq] at hinOrder
      rw [willBeRecorded_iff]
      dsimp only
      rw [Function.update_self]
      rcases hinOrder with (((hevents | hawaited) | hmore) | hhas) | hitem
      · exact absurd hnone hevents
      · exact absurd hawaited htaken
      · exact Or.inr (Or.inl (Nat.sub_pos_of_lt hmore))
      · exact Or.inl hhas
      · exact Or.inr (Or.inr hitem)
  · refine hsettles.of_same rfl Iff.rfl id ?_
    dsimp only
    rw [Function.update_of_ne heq]

/-- The snapshot has an item for exactly the sponsorships that are staked. -/
theorem settles_snapshotTaken {items : List Sponsorship} {other : Sponsorship}
    (hsettles : state.Settles other)
    (hstep : state.step streamOf (.snapshotTaken items) = some after) : after.Settles other := by
  rw [step] at hstep
  split_ifs at hstep with htaken
  obtain ⟨hawaited, hitems⟩ := htaken
  cases hstep
  refine ⟨hsettles.last, fun hnone hrecorded ↦ ?_, fun _ _ hstaked ↦ ?_⟩
  · rcases willBeRecorded_iff.mp hrecorded with hhas | hlookup | hitem
    · exact hsettles.staked hnone (willBeRecorded_iff.mpr (Or.inl hhas))
    · exact hsettles.staked hnone (willBeRecorded_iff.mpr (Or.inr (Or.inl hlookup)))
    · exact hitems.subset hitem
  · exact willBeRecorded_iff.mpr (Or.inr (Or.inr (hitems.symm.subset hstaked)))

/-- An item that is processed becomes a record. -/
theorem settles_item {other : Sponsorship} (hsettles : state.Settles other)
    (hstep : state.step streamOf .item = some after) : after.Settles other := by
  rw [step] at hstep
  split at hstep
  case h_1 sponsorship items hsnapshot =>
    cases hstep
    refine hsettles.of_same rfl Iff.rfl (fun _ ↦ hsnapshot ▸ nofun) ?_
    dsimp only
    rw [Helper.has_onItem, hsnapshot, Snapshot.items, Snapshot.items, List.mem_cons]
    tauto
  all_goals cases hstep

theorem settles_snapshotEnded {other : Sponsorship} (hsettles : state.Settles other)
    (hstep : state.step streamOf .snapshotEnded = some after) : after.Settles other := by
  rw [step] at hstep
  split_ifs at hstep with hsnapshot
  cases hstep
  refine hsettles.of_same rfl Iff.rfl (fun _ ↦ hsnapshot ▸ nofun) ?_
  dsimp only
  rw [Helper.onSnapshotEnded_streamIdOfSponsorship, hsnapshot]
  rfl

theorem settles_step {other : Sponsorship} (hsettles : state.Settles other)
    (hinOrder : state.inOrder event = true) (hstep : state.step streamOf event = some after) :
    after.Settles other := by
  cases event with
  | mined kind sponsorship => exact settles_mined hsettles hstep
  | delivered sponsorship => exact settles_delivered hsettles hinOrder hstep
  | lookedUp sponsorship => exact settles_lookedUp hsettles hstep
  | lookupFailed sponsorship => exact settles_lookupFailed hsettles hinOrder hstep
  | snapshotTaken items => exact settles_snapshotTaken hsettles hstep
  | item => exact settles_item hsettles hstep
  | snapshotEnded => exact settles_snapshotEnded hsettles hstep

omit [DecidableEq StreamID] in
theorem settles_start (staked : OrderedSet Sponsorship) (sponsorship : Sponsorship) :
    (start staked : State Sponsorship StreamID).Settles sponsorship where
  last := fun _ hlast ↦ nomatch hlast
  staked := fun _ hrecorded ↦ nomatch hrecorded
  recorded := fun _ htaken ↦ absurd rfl htaken

/-- The invariant of runs under the condition. -/
structure Invariant (streamOf : Sponsorship → StreamID) (state : State Sponsorship StreamID) :
    Prop where
  counts : state.helper.Counts streamOf
  announced : state.snapshot = .ended → state.helper.AnnouncesAll streamOf
  settles : ∀ sponsorship, state.Settles sponsorship

/-- When everything has been processed, what is recorded is what is staked. -/
theorem Invariant.recorded_perm (hinvariant : state.Invariant streamOf)
    (hprocessed : state.Processed) : state.helper.recorded.Perm state.staked.elements := by
  obtain ⟨hundelivered, hlookups, hended⟩ := hprocessed
  refine (List.perm_ext_iff_of_nodup state.helper.streamIdOfSponsorship.nodup_keys
    state.staked.nodup).mpr fun sponsorship ↦ ?_
  have hrecorded : state.willBeRecorded sponsorship = true ↔
      state.helper.streamIdOfSponsorship.has sponsorship = true := by
    rw [willBeRecorded_iff, hlookups, hended]
    simp [Snapshot.items]
  have hsettles := hinvariant.settles sponsorship
  refine Helper.mem_recorded.trans (hrecorded.symm.trans ⟨fun hwill ↦ ?_, fun hstaked ↦ ?_⟩)
  · exact hsettles.staked (hundelivered sponsorship) hwill
  · exact hsettles.recorded (hundelivered sponsorship) (hended ▸ nofun) hstaked

theorem invariant_start (staked : OrderedSet Sponsorship) :
    (start staked : State Sponsorship StreamID).Invariant streamOf where
  counts := Helper.counts_create
  announced := fun hended ↦ nomatch hended
  settles := settles_start staked

theorem Invariant.step (hinvariant : state.Invariant streamOf)
    (hinOrder : state.inOrder event = true) (hstep : state.step streamOf event = some after) :
    after.Invariant streamOf where
  counts := (counts_step hinvariant.counts hinvariant.announced hstep).1
  announced := (counts_step hinvariant.counts hinvariant.announced hstep).2
  settles := fun sponsorship ↦ settles_step (hinvariant.settles sponsorship) hinOrder hstep

/-- In every run from any stakes in which every step meets the condition: when everything has been
processed, exactly the streams with a staked sponsorship are announced, with their exact counts. -/
theorem tracksStakes_of_reachable {staked : OrderedSet Sponsorship}
    (hreachable : Transition.Reachable (step streamOf)
      (fun state event ↦ state.inOrder event = true) (· = start staked) state) :
    state.TracksStakes streamOf := by
  intro hprocessed
  have hinvariant : state.Invariant streamOf := by
    refine hreachable.invariant ?_ ?_
    · rintro _ rfl
      exact invariant_start staked
    · intro before event next _ hbefore hinOrder hstep
      exact hbefore.step hinOrder hstep
  have hperm := hinvariant.recorded_perm hprocessed
  refine ⟨fun streamId ↦ ?_, fun streamId ↦ ?_⟩
  · have hpositive : isAnnounced streamId state.helper.emitted = true ↔
        0 < state.helper.recordedOn streamOf streamId :=
      ⟨hinvariant.counts.announced streamId, hinvariant.announced hprocessed.2.2 streamId⟩
    rw [hpositive, Helper.recordedOn, hperm.countP_eq, List.countP_pos_iff]
    simp only [decide_eq_true_eq]
    rfl
  · rw [hinvariant.counts.counts, Helper.recordedOn, hperm.countP_eq]

instance [Fintype Sponsorship] (state : State Sponsorship StreamID) : Decidable state.Processed :=
  inferInstanceAs (Decidable (_ ∧ _ ∧ _))

/-- `Processed`, evaluated. -/
def isProcessed (state : State (Fin 2) ℕ) : Bool := decide state.Processed

/-- Two sponsorships of one stream. -/
def sampleStream : Fin 2 → ℕ := fun _ ↦ 7

/-- Both are staked before the start, and come with the snapshot. Both are unstaked later, and one
is staked again. -/
def stakedAgain : List (Event (Fin 2)) :=
  [.snapshotTaken [1, 0], .item, .mined .unstaked 0, .item, .snapshotEnded, .mined .unstaked 1,
    .delivered 1, .delivered 0, .mined .staked 1, .delivered 1, .lookedUp 1]

theorem tracksStakes_stakedAgain : ∃ state,
    Transition.checkedRun (step sampleStream) inOrder (start ⟨[0, 1], by decide⟩) stakedAgain =
      some state ∧ state.Processed ∧ state.Exact sampleStream := by
  have hsome : (Transition.checkedRun (step sampleStream) inOrder (start ⟨[0, 1], by decide⟩)
      stakedAgain).any isProcessed = true := by
    decide +kernel
  obtain ⟨state, hrun, hprocessed⟩ := (Option.any_eq_true _ _).mp hsome
  exact ⟨state, hrun, of_decide_eq_true hprocessed, tracksStakes_of_reachable
    (.of_checkedRun _ (fun _ _ hcheck ↦ hcheck) (.start rfl) hrun) (of_decide_eq_true hprocessed)⟩

/-- The unstake is delivered while the lookup for the stake is in progress. -/
def unstakedDuringLookup : List (Event (Fin 2)) :=
  [.snapshotTaken [], .snapshotEnded, .mined .staked 0, .mined .unstaked 0, .delivered 0,
    .delivered 0, .lookedUp 0]

/-- The unstake is delivered before the item of the snapshot is processed. -/
def unstakedDuringSnapshot : List (Event (Fin 2)) :=
  [.snapshotTaken [0], .mined .unstaked 0, .delivered 0, .item, .snapshotEnded]

/-- The lookup for the stake fails. -/
def lookupLost : List (Event (Fin 2)) :=
  [.snapshotTaken [], .snapshotEnded, .mined .staked 0, .delivered 0, .lookupFailed 0]

/-- Everything has been processed, and the announcement of the stream is wrong. -/
def isWrong (state : State (Fin 2) ℕ) : Bool :=
  isProcessed state &&
    (isAnnounced 7 state.helper.emitted ^^ decide (∃ sponsorship, sponsorship ∈ state.staked))

theorem exists_not_tracksStakes {result : Option (State (Fin 2) ℕ)}
    (hwrong : result.any isWrong = true) :
    ∃ state, result = some state ∧ ¬ state.TracksStakes sampleStream := by
  obtain ⟨state, hresult, hwrong⟩ := (Option.any_eq_true _ _).mp hwrong
  obtain ⟨hprocessed, hannounced⟩ := Bool.and_eq_true_iff.mp hwrong
  refine ⟨state, hresult, fun htracks ↦ ?_⟩
  have hexact := (htracks (of_decide_eq_true hprocessed)).1 7
  have hsame : isAnnounced 7 state.helper.emitted =
      decide (∃ sponsorship, sponsorship ∈ state.staked) := by
    rw [Bool.eq_iff_iff, hexact, decide_eq_true_eq]
    exact exists_congr fun sponsorship ↦ and_iff_left rfl
  rw [hsame, Bool.xor_self] at hannounced
  cases hannounced

/-- A stream stays announced that has no staked sponsorship, or is not announced although it has
one. -/
theorem unstake_overtakes_stake :
    (∃ state, Transition.run (step sampleStream) (start .empty) unstakedDuringLookup = some state ∧
      ¬ state.TracksStakes sampleStream) ∧
    (∃ state, Transition.run (step sampleStream) (start ⟨[0], by decide⟩) unstakedDuringSnapshot =
      some state ∧ ¬ state.TracksStakes sampleStream) ∧
    ∃ state, Transition.run (step sampleStream) (start .empty) lookupLost = some state ∧
      ¬ state.TracksStakes sampleStream :=
  ⟨exists_not_tracksStakes (by decide +kernel), exists_not_tracksStakes (by decide +kernel),
    exists_not_tracksStakes (by decide +kernel)⟩

end State

end PomboStorageNode.Operator.MaintainTopologyHelper
