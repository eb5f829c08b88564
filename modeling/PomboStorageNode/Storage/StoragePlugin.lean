import PomboStorageNode.Storage.BucketPlacement
import PomboStorageNode.Storage.IngestValidator

/-!
# From the network to the tables

The message listener of `StoragePlugin` validates a message that belongs to the node and stores it
if the verdict says so. A message comes with its serialized form, which is what `store` puts into
the row. `store` waits for a bucket, as in `BucketPlacement`; once a message has its bucket, its
row is written by a batch, at a time of its own or never, and perhaps more than once.

The system refines the placement of messages: `placementOf` forgets what `BucketPlacement` does not
read, and every step is a step there, or none (`step_placementOf`). A row comes from a message that
was placed in the bucket of the row (`recorded_of_reachable`), and such a message was received and
let through by the validator (`arrived_of_reachable`).
-/

set_option autoImplicit false

namespace PomboStorageNode.Storage.StoragePlugin

open Library Tables BucketManager IngestValidator

/-! ### Storing messages -/

/-- The arguments of `store`, with the serialized message. -/
structure Arrival where
  message : StreamMessage
  payload : List UInt8
  storedAt : ℤ
  deriving DecidableEq

/-- The bucket manager, the messages that wait for the next try, the table of the rows, and, of the
past, the messages that were stored and the bucket each placed message went to. -/
structure State where
  manager : BucketManager.State
  pendingStores : List Arrival
  arrived : List Arrival
  placed : List (Arrival × BucketId)
  data : StreamData

/-- The row of a message. -/
def rowOf (arrival : Arrival) (bucketId : BucketId) : DataRow :=
  (⟨arrival.message.streamPart, bucketId, arrival.message.timestamp,
      arrival.message.sequenceNumber, arrival.message.getPublisherId, arrival.message.msgChainId⟩,
    ⟨some arrival.payload, some arrival.storedAt⟩)

/-- `store`, up to the hand-over to the batches. -/
def store (state : State) (arrival : Arrival) (now : ℤ) : State :=
  match getBucketId state.manager arrival.message.streamPart arrival.message.timestamp with
  | (some bucketId, manager) =>
    { state with
      manager := incrementBucket manager bucketId arrival.payload.length now
      placed := (arrival, bucketId) :: state.placed }
  | (none, manager) =>
    { state with manager := manager, pendingStores := state.pendingStores ++ [arrival] }

/-- What can happen: a message is received and the validation ends with the given outcomes on the
chain, where `hasStreamPart` says whether the stream part belongs to the node; a waiting message is
tried again; a batch writes the row of a placed message; or the bucket manager takes a step of its
timers. -/
inductive Event
  | receive (payload : List UInt8) (hasStreamPart : Bool) (chain : ChainOutcomes)
      (receivedAt now : ℤ)
  | retry (index : ℕ) (now : ℤ)
  | write (index : ℕ)
  | timer (event : BucketManager.Event)

variable (package : HeapPackage) (options : BucketManagerOptions) (sdk : Sdk)
  (config : ValidationConfig)

/-- The listener stores the message. -/
def IsStored (chain : ChainOutcomes) (hasStreamPart : Bool) (message : StreamMessage) : Prop :=
  message.messageType = .message ∧ hasStreamPart = true ∧
    validate sdk config chain message = .store

instance (chain : ChainOutcomes) (hasStreamPart : Bool) (message : StreamMessage) :
    Decidable (IsStored sdk config chain hasStreamPart message) :=
  inferInstanceAs (Decidable (_ ∧ _ ∧ _))

/-- The step relation. -/
def step (state : State) : Event → Option State
  | .receive payload hasStreamPart chain receivedAt now =>
    (sdk.convertBytesToStreamMessage payload).map fun message ↦
      if IsStored sdk config chain hasStreamPart message then
        store { state with arrived := ⟨message, payload, receivedAt⟩ :: state.arrived }
          ⟨message, payload, receivedAt⟩ now
      else state
  | .retry index now =>
    state.pendingStores[index]?.map fun arrival ↦
      store { state with pendingStores := state.pendingStores.eraseIdx index } arrival now
  | .write index =>
    state.placed[index]?.map fun entry ↦
      { state with data := state.data.set (rowOf entry.1 entry.2).1 (rowOf entry.1 entry.2).2 }
  | .timer event =>
    if isCall event then none
    else (BucketManager.step package options state.manager event).map fun manager ↦
      { state with manager := manager }

/-! ### The placement of the messages -/

/-- What the placement reads of a message. -/
def placementMessage (arrival : Arrival) : BucketPlacement.Message :=
  ⟨arrival.message.streamPart, arrival.message.timestamp, arrival.payload.length⟩

/-- The state as the placement sees it. -/
def placementOf (state : State) : BucketPlacement.State where
  manager := state.manager
  pendingStores := state.pendingStores.map placementMessage
  arrived := state.arrived.map placementMessage
  placed := state.placed.map fun entry ↦ (placementMessage entry.1, entry.2)

/-- The event as the placement sees it, if it does. -/
def placementEvent : Event → Option BucketPlacement.Event
  | .receive payload hasStreamPart chain receivedAt now =>
    (sdk.convertBytesToStreamMessage payload).bind fun message ↦
      if IsStored sdk config chain hasStreamPart message then
        some (.arrive (placementMessage ⟨message, payload, receivedAt⟩) now)
      else none
  | .retry index now => some (.retry index now)
  | .write _ => none
  | .timer event => some (.timer event)

/-- A start of the node with an empty table of rows. -/
structure Start (state : State) : Prop where
  placement : BucketPlacement.Start (placementOf state)
  data : state.data = OrderedMap.empty

variable {package options sdk config} {state after : State} {event : Event}

theorem placementOf_store (state : State) (arrival : Arrival) (now : ℤ) :
    placementOf (store state arrival now) =
      BucketPlacement.store (placementOf state) (placementMessage arrival) now := by
  have hget : getBucketId (placementOf state).manager (placementMessage arrival).streamPart
      (placementMessage arrival).timestamp =
        getBucketId state.manager arrival.message.streamPart arrival.message.timestamp := rfl
  rw [store, BucketPlacement.store, hget]
  obtain ⟨found, manager⟩ :=
    getBucketId state.manager arrival.message.streamPart arrival.message.timestamp
  cases found with
  | none =>
    change BucketPlacement.State.mk _
      ((state.pendingStores ++ [arrival]).map placementMessage) _ _ = _
    rw [List.map_append]
    rfl
  | some bucketId => rfl

/-- Every step is a step of the placement, or leaves it alone. -/
theorem step_placementOf (hstep : step package options sdk config state event = some after) :
    match placementEvent sdk config event with
    | some placement =>
      BucketPlacement.step package options (placementOf state) placement = some (placementOf after)
    | none => placementOf after = placementOf state := by
  cases event with
  | receive payload hasStreamPart chain receivedAt now =>
    obtain ⟨message, hmessage, rfl⟩ := Option.map_eq_some_iff.mp hstep
    simp only [placementEvent, hmessage, Option.bind_some]
    split_ifs with hstored
    · have harrived : placementOf
          { state with arrived := ⟨message, payload, receivedAt⟩ :: state.arrived } =
            { placementOf state with
              arrived := placementMessage ⟨message, payload, receivedAt⟩ ::
                (placementOf state).arrived } := rfl
      simp only [BucketPlacement.step]
      rw [placementOf_store, harrived]
    · rfl
  | retry index now =>
    obtain ⟨arrival, harrival, rfl⟩ := Option.map_eq_some_iff.mp hstep
    have hpending : (placementOf state).pendingStores[index]? =
        some (placementMessage arrival) := by
      rw [placementOf, List.getElem?_map, harrival, Option.map_some]
    simp only [placementEvent, BucketPlacement.step, hpending, Option.map_some, placementOf_store]
    simp only [placementOf, List.eraseIdx_map]
  | write index =>
    obtain ⟨entry, -, rfl⟩ := Option.map_eq_some_iff.mp hstep
    rfl
  | timer event =>
    simp only [step] at hstep
    split_ifs at hstep with hcall
    obtain ⟨manager, hmanager, rfl⟩ := Option.map_eq_some_iff.mp hstep
    simp only [placementEvent, BucketPlacement.step, hcall, placementOf]
    rw [if_neg Bool.false_ne_true, hmanager, Option.map_some]

/-- The placement of the messages is in order. -/
def InOrder (sdk : Sdk) (config : ValidationConfig) (state : State) (event : Event) : Prop :=
  ∀ placement, placementEvent sdk config event = some placement →
    BucketPlacement.InOrder (placementOf state) placement

/-- The placement reaches what the node reaches.
Assumes: the guard of the run keeps the placement in order. -/
theorem placement_reachable {guard : State → Event → Prop}
    (hinOrder : ∀ state event, guard state event → InOrder sdk config state event)
    (hreachable : Transition.Reachable (step package options sdk config) guard Start state) :
    Transition.Reachable (BucketPlacement.step package options) BucketPlacement.InOrder
      BucketPlacement.Start (placementOf state) := by
  refine hreachable.simulated placementOf (fun _ hstart ↦ hstart.placement) ?_
  intro before event next _ hguard hstep
  have hsimulated := step_placementOf hstep
  have hplacement := hinOrder before event hguard
  unfold InOrder at hplacement
  cases hevent : placementEvent sdk config event with
  | none =>
    rw [hevent] at hsimulated
    exact Or.inl hsimulated
  | some placement =>
    rw [hevent] at hsimulated
    exact Or.inr ⟨placement, hplacement placement hevent, hsimulated⟩

/-! ### Where rows come from -/

/-- The messages that wait or were placed have arrived, and the rows are those of placed
messages. -/
structure Recorded (state : State) : Prop where
  pending : ∀ arrival ∈ state.pendingStores, arrival ∈ state.arrived
  placed : ∀ entry ∈ state.placed, entry.1 ∈ state.arrived
  rows : ∀ row ∈ state.data.entries, ∃ entry ∈ state.placed, row = rowOf entry.1 entry.2

/-- What `store` does to the lists: the message goes to a bucket, or waits. -/
theorem store_spec (state : State) (arrival : Arrival) (now : ℤ) :
    (store state arrival now).arrived = state.arrived ∧
      (store state arrival now).data = state.data ∧
      (((store state arrival now).pendingStores = state.pendingStores ∧
        ∃ bucketId, (store state arrival now).placed = (arrival, bucketId) :: state.placed) ∨
      ((store state arrival now).pendingStores = state.pendingStores ++ [arrival] ∧
        (store state arrival now).placed = state.placed)) := by
  unfold store
  split
  · exact ⟨rfl, rfl, Or.inl ⟨rfl, _, rfl⟩⟩
  · exact ⟨rfl, rfl, Or.inr ⟨rfl, rfl⟩⟩

theorem Recorded.store (hrecorded : Recorded state) {arrival : Arrival} (now : ℤ)
    (harrived : arrival ∈ state.arrived) : Recorded (store state arrival now) := by
  obtain ⟨hsame, hdata, ⟨hpending, bucketId, hplaced⟩ | ⟨hpending, hplaced⟩⟩ :=
    store_spec state arrival now
  · refine ⟨fun other hother ↦ ?_, fun entry hentry ↦ ?_, fun row hrow ↦ ?_⟩
    · rw [hpending] at hother
      exact hsame ▸ hrecorded.pending other hother
    · rw [hsame]
      rw [hplaced] at hentry
      rcases List.mem_cons.mp hentry with rfl | hentry
      · exact harrived
      · exact hrecorded.placed entry hentry
    · rw [hdata] at hrow
      obtain ⟨entry, hentry, heq⟩ := hrecorded.rows row hrow
      exact ⟨entry, hplaced ▸ List.mem_cons_of_mem _ hentry, heq⟩
  · refine ⟨fun other hother ↦ ?_, fun entry hentry ↦ ?_, fun row hrow ↦ ?_⟩
    · rw [hsame]
      rw [hpending] at hother
      rcases List.mem_append.mp hother with hother | hother
      · exact hrecorded.pending other hother
      · exact List.mem_singleton.mp hother ▸ harrived
    · rw [hplaced] at hentry
      exact hsame ▸ hrecorded.placed entry hentry
    · rw [hdata] at hrow
      exact hplaced ▸ hrecorded.rows row hrow

theorem Recorded.step (hrecorded : Recorded state)
    (hstep : step package options sdk config state event = some after) : Recorded after := by
  cases event with
  | receive payload hasStreamPart chain receivedAt now =>
    obtain ⟨message, -, rfl⟩ := Option.map_eq_some_iff.mp hstep
    split_ifs with hstored
    · have harrived : Recorded
          { state with arrived := ⟨message, payload, receivedAt⟩ :: state.arrived } :=
        ⟨fun other hother ↦ List.mem_cons_of_mem _ (hrecorded.pending other hother),
          fun entry hentry ↦ List.mem_cons_of_mem _ (hrecorded.placed entry hentry),
          hrecorded.rows⟩
      exact harrived.store now List.mem_cons_self
    · exact hrecorded
  | retry index now =>
    obtain ⟨arrival, harrival, rfl⟩ := Option.map_eq_some_iff.mp hstep
    have hremoved : Recorded
        { state with pendingStores := state.pendingStores.eraseIdx index } :=
      ⟨fun other hother ↦ hrecorded.pending other (List.mem_of_mem_eraseIdx hother),
        hrecorded.placed, hrecorded.rows⟩
    exact hremoved.store now (hrecorded.pending arrival (List.mem_of_getElem? harrival))
  | write index =>
    obtain ⟨entry, hentry, rfl⟩ := Option.map_eq_some_iff.mp hstep
    refine ⟨hrecorded.pending, hrecorded.placed, fun row hrow ↦ ?_⟩
    rcases OrderedMap.mem_entries_set.mp hrow with hnew | ⟨hold, -⟩
    · exact ⟨entry, List.mem_of_getElem? hentry, hnew⟩
    · exact hrecorded.rows row hold
  | timer event =>
    simp only [StoragePlugin.step] at hstep
    split_ifs at hstep with hcall
    obtain ⟨manager, -, rfl⟩ := Option.map_eq_some_iff.mp hstep
    exact ⟨hrecorded.pending, hrecorded.placed, hrecorded.rows⟩

/-- What every stored message satisfies, all messages that arrived satisfy. -/
theorem arrived_of_reachable {guard : State → Event → Prop} (property : Arrival → Prop)
    (hreceive : ∀ state payload hasStreamPart chain receivedAt now message,
      guard state (.receive payload hasStreamPart chain receivedAt now) →
      sdk.convertBytesToStreamMessage payload = some message →
      IsStored sdk config chain hasStreamPart message → property ⟨message, payload, receivedAt⟩)
    (hreachable : Transition.Reachable (step package options sdk config) guard Start state) :
    ∀ arrival ∈ state.arrived, property arrival := by
  refine Transition.Reachable.invariant
    (?_ : ∀ state, _ → ∀ arrival ∈ state.arrived, property arrival) ?_ hreachable
  · intro start hstart arrival harrival
    have hnone : start.arrived = [] := List.map_eq_nil_iff.mp hstart.placement.arrived
    rw [hnone] at harrival
    cases harrival
  · intro before event next _ hbefore hguard hstep
    cases event with
    | receive payload hasStreamPart chain receivedAt now =>
      obtain ⟨message, hmessage, rfl⟩ := Option.map_eq_some_iff.mp hstep
      split_ifs with hstored
      · rw [(store_spec _ _ _).1]
        rintro arrival (_ | ⟨_, harrival⟩)
        · exact hreceive before _ _ _ _ _ message hguard hmessage hstored
        · exact hbefore arrival harrival
      · exact hbefore
    | retry index now =>
      obtain ⟨arrival, -, rfl⟩ := Option.map_eq_some_iff.mp hstep
      rw [(store_spec _ _ _).1]
      exact hbefore
    | write index =>
      obtain ⟨entry, -, rfl⟩ := Option.map_eq_some_iff.mp hstep
      exact hbefore
    | timer event =>
      simp only [step] at hstep
      split_ifs at hstep with hcall
      obtain ⟨manager, -, rfl⟩ := Option.map_eq_some_iff.mp hstep
      exact hbefore

/-- Every row is that of a message that was stored and placed in the bucket of the row. -/
theorem recorded_of_reachable {guard : State → Event → Prop}
    (hreachable : Transition.Reachable (step package options sdk config) guard Start state) :
    Recorded state := by
  refine hreachable.invariant (fun start hstart ↦ ?_) fun _ _ _ _ hbefore _ hstep ↦
    hbefore.step hstep
  have hpending : start.pendingStores = [] :=
    List.map_eq_nil_iff.mp hstart.placement.pendingStores
  have hplaced : start.placed = [] := List.map_eq_nil_iff.mp hstart.placement.placed
  refine ⟨fun arrival harrival ↦ ?_, fun entry hentry ↦ ?_, fun row hrow ↦ ?_⟩
  · rw [hpending] at harrival
    cases harrival
  · rw [hplaced] at hentry
    cases hentry
  · rw [hstart.data] at hrow
    cases hrow

end PomboStorageNode.Storage.StoragePlugin
