import PomboStorageNode.TrackerlessNetwork.FifoMapWithTTL
import PomboStorageNode.Library.Transition

/-!
# Propagation of messages to neighbours

`Propagation.ts` sends a message to the targets it was fed with, and keeps a task for it in
`PropagationTaskStore.ts` until enough neighbours acknowledged it; a neighbour that joins meanwhile
is sent the message too. Sends end later, when the task may be stale.

A step of the system is a call of `feedUnseenMessage` or `onNeighborJoined`, or the end of a send.
`Propagates` is what the component promises. All of it but the last part holds in every run: with
`minPropagationTargets = 0` a task stays in the store until its first send succeeds, and until then
a joining neighbour is sent the message although it was not among the targets
(`joined_before_first_success`). `propagates_of_joinsWithinTargets` gives the promise for the runs
without such a join, and says that such a join always breaks it.
-/

set_option autoImplicit false

namespace PomboStorageNode.TrackerlessNetwork.Propagation

open Library

/-! ### The state -/

/-- A stream message; the task store knows it by its `messageId`. -/
structure StreamMessage (MessageRef Content : Type*) where
  messageId : MessageRef
  content : Content
  deriving DecidableEq

/-- `PropagationTask`, and what the task was fed with: the time and the targets, which the source
does not keep. -/
structure PropagationTask (MessageRef Content DhtAddress : Type*) where
  message : StreamMessage MessageRef Content
  source : Option DhtAddress
  handledNeighbors : OrderedSet DhtAddress
  fedAt : ℤ
  targets : List DhtAddress

/-- How far a call of `sendToNeighbor` has come. -/
inductive Outcome
  | pending
  | acknowledged
  | failed
  deriving DecidableEq

/-- A call of `sendToNeighbor` for a task. -/
structure Send (DhtAddress : Type*) where
  task : ℕ
  neighborId : DhtAddress
  outcome : Outcome
  deriving DecidableEq

/-- The options of the constructor. -/
structure Options where
  minPropagationTargets : ℕ
  maxMessages : ℕ
  ttl : ℕ

/-- The options of the task store. -/
def Options.storeOptions (options : Options) : FifoMapWithTtlOptions :=
  ⟨options.ttl, options.maxMessages⟩

/-- All tasks in the order in which they were fed, the task store with their indices, all sends,
and the time of the last call. -/
structure State (MessageRef Content DhtAddress : Type*) where
  tasks : List (PropagationTask MessageRef Content DhtAddress)
  activeTaskStore : FifoMapWithTTL MessageRef ℕ
  sends : List (Send DhtAddress)
  now : ℤ

variable {MessageRef Content DhtAddress : Type*}

/-- A new instance. -/
def State.create (now : ℤ) : State MessageRef Content DhtAddress :=
  ⟨[], FifoMapWithTTL.create, [], now⟩

variable [DecidableEq MessageRef] [DecidableEq DhtAddress]

/-! ### Steps -/

/-- Whether `sendAndAwaitThenMark` sends the message of a task to a neighbour. -/
def PropagationTask.wants (task : PropagationTask MessageRef Content DhtAddress)
    (neighborId : DhtAddress) : Bool :=
  neighborId ∉ task.handledNeighbors ∧ some neighborId ≠ task.source

/-- `sendAndAwaitThenMark` up to its `await`. -/
def sendAndAwaitThenMark (state : State MessageRef Content DhtAddress) (task : ℕ)
    (neighborId : DhtAddress) : State MessageRef Content DhtAddress :=
  match state.tasks[task]? with
  | some entry =>
    if entry.wants neighborId then
      { state with sends := state.sends ++ [⟨task, neighborId, .pending⟩] }
    else state
  | none => state

/-- `feedUnseenMessage`, or `none` when an assertion of the store fails. -/
def feedUnseenMessage (options : Options) (state : State MessageRef Content DhtAddress) (now : ℤ)
    (message : StreamMessage MessageRef Content) (targets : List DhtAddress)
    (source : Option DhtAddress) : Option (State MessageRef Content DhtAddress) :=
  let task := state.tasks.length
  (state.activeTaskStore.set options.storeOptions now message.messageId task).map fun store ↦
    targets.foldl (fun state target ↦ sendAndAwaitThenMark state task target)
      { state with
        tasks := state.tasks ++ [⟨message, source, OrderedSet.empty, now, targets⟩]
        activeTaskStore := store
        now := now }

/-- `onNeighborJoined`. -/
def onNeighborJoined (state : State MessageRef Content DhtAddress) (now : ℤ)
    (neighborId : DhtAddress) : State MessageRef Content DhtAddress :=
  let tasks := state.activeTaskStore.values now
  tasks.1.foldl (fun state task ↦ sendAndAwaitThenMark state task neighborId)
    { state with activeTaskStore := tasks.2, now := now }

/-- `sendAndAwaitThenMark` behind its `await`, when the send succeeded. -/
def markHandled (options : Options) (state : State MessageRef Content DhtAddress) (task : ℕ)
    (entry : PropagationTask MessageRef Content DhtAddress) (neighborId : DhtAddress) :
    State MessageRef Content DhtAddress :=
  let handledNeighbors := entry.handledNeighbors.add neighborId
  { state with
    tasks := state.tasks.set task { entry with handledNeighbors := handledNeighbors }
    activeTaskStore :=
      if options.minPropagationTargets ≤ handledNeighbors.elements.length then
        state.activeTaskStore.delete entry.message.messageId
      else state.activeTaskStore }

/-- What can happen. -/
inductive Event (MessageRef Content DhtAddress : Type*)
  | feedUnseenMessage (now : ℤ) (message : StreamMessage MessageRef Content)
      (targets : List DhtAddress) (source : Option DhtAddress)
  | onNeighborJoined (now : ℤ) (neighborId : DhtAddress)
  | sendSucceeds (send : ℕ)
  | sendFails (send : ℕ)

/-- One step; the times of the calls do not decrease, and a send ends once. -/
def step (options : Options) (state : State MessageRef Content DhtAddress) :
    Event MessageRef Content DhtAddress → Option (State MessageRef Content DhtAddress)
  | .feedUnseenMessage now message targets source =>
    if state.now ≤ now then feedUnseenMessage options state now message targets source else none
  | .onNeighborJoined now neighborId =>
    if state.now ≤ now then some (onNeighborJoined state now neighborId) else none
  | .sendSucceeds send =>
    match state.sends[send]? with
    | some ⟨task, neighborId, .pending⟩ =>
      state.tasks[task]?.map fun entry ↦
        markHandled options
          { state with sends := state.sends.set send ⟨task, neighborId, .acknowledged⟩ } task
          entry neighborId
    | _ => none
  | .sendFails send =>
    match state.sends[send]? with
    | some ⟨task, neighborId, .pending⟩ =>
      some { state with sends := state.sends.set send ⟨task, neighborId, .failed⟩ }
    | _ => none

/-! ### The promise -/

/-- Whether a neighbour acknowledged a message. -/
def Acknowledged (state : State MessageRef Content DhtAddress) (messageId : MessageRef)
    (neighborId : DhtAddress) : Prop :=
  ∃ send ∈ state.sends, send.outcome = .acknowledged ∧ send.neighborId = neighborId ∧
    ∃ task, state.tasks[send.task]? = some task ∧ task.message.messageId = messageId

/-- At least `minPropagationTargets` distinct neighbours acknowledged the message. -/
def EnoughAcknowledged (options : Options) (state : State MessageRef Content DhtAddress)
    (messageId : MessageRef) : Prop :=
  ∃ neighbors : List DhtAddress, neighbors.Nodup ∧
    options.minPropagationTargets ≤ neighbors.length ∧
    ∀ neighborId ∈ neighbors, Acknowledged state messageId neighborId

/-- The entry of a message whose time to live is over at the time of the last call. -/
def Expired (options : Options) (before after : State MessageRef Content DhtAddress)
    (messageId : MessageRef) : Prop :=
  ∃ item task, before.activeTaskStore.items.get? messageId = some item ∧
    before.tasks[item.value]? = some task ∧ task.fedAt + options.ttl ≤ after.now

/-- The entry of a message was the first of a full store, and another message was fed. -/
def Evicted (options : Options) (before after : State MessageRef Content DhtAddress)
    (messageId : MessageRef) : Prop :=
  ∃ item, before.activeTaskStore.items.get? messageId = some item ∧
    before.activeTaskStore.size = options.maxMessages ∧
    before.tasks.length < after.tasks.length ∧
    ∀ other otherItem, before.activeTaskStore.items.get? other = some otherItem →
      other ≠ messageId → item.value < otherItem.value

/-- What `Propagation` promises whatever its options are, as far as a state and the steps from it
are concerned. -/
structure Propagates (options : Options) (state : State MessageRef Content DhtAddress) : Prop where
  /-- A message is never sent to its source. -/
  notSource : ∀ send ∈ state.sends, ∃ task, state.tasks[send.task]? = some task ∧
    task.source ≠ some send.neighborId
  /-- A message leaves the store after enough acknowledgements, by its time to live or by
  eviction. -/
  leaves : ∀ event after, step options state event = some after →
    ∀ messageId, state.activeTaskStore.items.has messageId →
      ¬after.activeTaskStore.items.has messageId →
      EnoughAcknowledged options after messageId ∨ Expired options state after messageId ∨
        Evicted options state after messageId
  /-- A neighbour that joins is sent every message of the store but those it is the source of and
  those it acknowledged. -/
  joined : ∀ now neighborId after,
    step options state (.onNeighborJoined now neighborId) = some after →
    ∀ messageId item, after.activeTaskStore.items.get? messageId = some item →
      ∃ task, after.tasks[item.value]? = some task ∧ task.message.messageId = messageId ∧
        (task.source ≠ some neighborId → ¬Acknowledged state messageId neighborId →
          ⟨item.value, neighborId, .pending⟩ ∈ after.sends.drop state.sends.length)
  /-- No assertion fails: at any later time a message can be fed, and a neighbour can join. -/
  accepts : ∀ now, state.now ≤ now →
    (∀ message targets source,
      (step options state (.feedUnseenMessage now message targets source)).isSome) ∧
    ∀ neighborId, (step options state (.onNeighborJoined now neighborId)).isSome

/-- Without reattempts a message is sent to the targets it was fed with only. -/
def WithinTargets (options : Options) (state : State MessageRef Content DhtAddress) : Prop :=
  options.minPropagationTargets = 0 → ∀ send ∈ state.sends,
    ∃ task, state.tasks[send.task]? = some task ∧ send.neighborId ∈ task.targets

/-- Without reattempts, a neighbour joins only while every task of the store whose time is not over
has it among its targets, has it as its source or was acknowledged by it. -/
def JoinsWithinTargets (options : Options) (state : State MessageRef Content DhtAddress) :
    Event MessageRef Content DhtAddress → Prop
  | .onNeighborJoined now neighborId =>
    options.minPropagationTargets = 0 → ∀ entry ∈ state.activeTaskStore.items.entries,
      now < entry.2.expiresAt →
      ∀ task, state.tasks[entry.2.value]? = some task →
        neighborId ∈ task.targets ∨ task.source = some neighborId ∨
          neighborId ∈ task.handledNeighbors
  | _ => True

/-! ### The invariant -/

/-- What holds in every reachable state. The entries of the store are tasks under their message
ids, in the order in which they were fed, with the time they were fed for; a task counts a
neighbour as handled only after the neighbour acknowledged it. -/
structure Invariant (options : Options) (state : State MessageRef Content DhtAddress) : Prop where
  sound : state.activeTaskStore.Sound options.storeOptions
  stored : ∀ entry ∈ state.activeTaskStore.items.entries,
    ∃ task, state.tasks[entry.2.value]? = some task ∧ task.message.messageId = entry.1 ∧
      entry.2.expiresAt = task.fedAt + options.ttl
  fifo : state.activeTaskStore.items.entries.Pairwise fun first second ↦
    first.2.value < second.2.value
  sent : ∀ send ∈ state.sends, ∃ task, state.tasks[send.task]? = some task ∧
    task.source ≠ some send.neighborId
  handled : ∀ (index : ℕ) (task : PropagationTask MessageRef Content DhtAddress),
    state.tasks[index]? = some task → ∀ neighborId ∈ task.handledNeighbors,
      ⟨index, neighborId, .acknowledged⟩ ∈ state.sends

omit [DecidableEq MessageRef] in
theorem wants_iff {task : PropagationTask MessageRef Content DhtAddress}
    {neighborId : DhtAddress} : task.wants neighborId = true ↔
      neighborId ∉ task.handledNeighbors ∧ task.source ≠ some neighborId := by
  rw [PropagationTask.wants, decide_eq_true_eq, ne_comm]

/-- The calls of `sendAndAwaitThenMark` in a loop. -/
def sendAll (state : State MessageRef Content DhtAddress) (calls : List (ℕ × DhtAddress)) :
    State MessageRef Content DhtAddress :=
  calls.foldl (fun state call ↦ sendAndAwaitThenMark state call.1 call.2) state

omit [DecidableEq MessageRef] in
/-- What a loop of `sendAndAwaitThenMark` does: it adds the sends that the tasks want. -/
theorem sendAll_spec (state : State MessageRef Content DhtAddress)
    (calls : List (ℕ × DhtAddress)) :
    ∃ sent, sendAll state calls = { state with sends := state.sends ++ sent } ∧
      ∀ send, send ∈ sent ↔ send.outcome = .pending ∧ (send.task, send.neighborId) ∈ calls ∧
        ∃ task, state.tasks[send.task]? = some task ∧ task.wants send.neighborId = true := by
  induction calls generalizing state with
  | nil => exact ⟨[], by simp [sendAll], by simp⟩
  | cons call calls ih =>
    show ∃ sent, sendAll (sendAndAwaitThenMark state call.1 call.2) calls = _ ∧ _
    by_cases hwants : ∃ task, state.tasks[call.1]? = some task ∧ task.wants call.2 = true
    · obtain ⟨task, htask, hwant⟩ := hwants
      have hsend : sendAndAwaitThenMark state call.1 call.2 =
          { state with sends := state.sends ++ [⟨call.1, call.2, .pending⟩] } := by
        unfold sendAndAwaitThenMark
        rw [htask]
        exact if_pos hwant
      obtain ⟨sent, hsent, hmem⟩ := ih (sendAndAwaitThenMark state call.1 call.2)
      refine ⟨⟨call.1, call.2, .pending⟩ :: sent, ?_, fun send ↦ ?_⟩
      · rw [hsent, hsend]
        simp
      · rw [List.mem_cons, hmem, hsend]
        constructor
        · rintro (rfl | ⟨hpending, hcall, hentry⟩)
          · exact ⟨rfl, List.mem_cons_self, task, htask, hwant⟩
          · exact ⟨hpending, List.mem_cons_of_mem call hcall, hentry⟩
        · rintro ⟨hpending, hcall, hentry⟩
          rcases List.mem_cons.mp hcall with heq | hcall
          · left
            obtain ⟨index, neighborId, outcome⟩ := send
            dsimp only at hpending heq
            rw [hpending, ← heq]
          · exact Or.inr ⟨hpending, hcall, hentry⟩
    · have hsend : sendAndAwaitThenMark state call.1 call.2 = state := by
        unfold sendAndAwaitThenMark
        split
        case _ task htask => exact if_neg fun hwant ↦ hwants ⟨task, htask, hwant⟩
        · rfl
      obtain ⟨sent, hsent, hmem⟩ := ih (sendAndAwaitThenMark state call.1 call.2)
      rw [hsend] at hsent hmem
      refine ⟨sent, ?_, fun send ↦ ?_⟩
      · rw [hsend]
        exact hsent
      rw [hmem]
      refine and_congr_right fun _ ↦ ?_
      constructor
      · exact fun ⟨hcall, hentry⟩ ↦ ⟨List.mem_cons_of_mem call hcall, hentry⟩
      · rintro ⟨hcall, hentry⟩
        rcases List.mem_cons.mp hcall with heq | hcall
        · rw [← heq] at hwants
          exact absurd hentry hwants
        · exact ⟨hcall, hentry⟩

/-- A call of `feedUnseenMessage` that does not fail: the state behind the store's `set`, and the
sends to the targets. -/
theorem feedUnseenMessage_eq_some {options : Options} {state after : State MessageRef Content
    DhtAddress} {now : ℤ} {message : StreamMessage MessageRef Content} {targets : List DhtAddress}
    {source : Option DhtAddress}
    (hfeed : feedUnseenMessage options state now message targets source = some after) :
    ∃ store sent,
      state.activeTaskStore.set options.storeOptions now message.messageId state.tasks.length =
        some store ∧
      after = ⟨state.tasks ++ [⟨message, source, OrderedSet.empty, now, targets⟩], store,
        state.sends ++ sent, now⟩ ∧
      ∀ send ∈ sent, send.outcome = .pending ∧ send.task = state.tasks.length ∧
        send.neighborId ∈ targets ∧ source ≠ some send.neighborId := by
  obtain ⟨store, hstore, rfl⟩ := Option.map_eq_some_iff.mp hfeed
  obtain ⟨sent, hsent, hmem⟩ := sendAll_spec
    (⟨state.tasks ++ [⟨message, source, OrderedSet.empty, now, targets⟩], store, state.sends, now⟩ :
      State MessageRef Content DhtAddress)
    (targets.map fun target ↦ (state.tasks.length, target))
  rw [sendAll, List.foldl_map] at hsent
  refine ⟨store, sent, hstore, hsent, fun send hsend ↦ ?_⟩
  obtain ⟨hpending, hcall, task, htask, hwant⟩ := (hmem send).mp hsend
  obtain ⟨target, htarget, heq⟩ := List.mem_map.mp hcall
  rw [Prod.mk.injEq] at heq
  rw [← heq.1, List.getElem?_concat_length, Option.some.injEq] at htask
  refine ⟨hpending, heq.1.symm, heq.2 ▸ htarget, ?_⟩
  have hsource := (wants_iff.mp hwant).2
  rw [← htask] at hsource
  exact hsource

/-- A message that is fed is sent to each of its targets but its source. -/
theorem mem_sends_of_feedUnseenMessage {options : Options}
    {state after : State MessageRef Content DhtAddress} {now : ℤ}
    {message : StreamMessage MessageRef Content} {targets : List DhtAddress}
    {source : Option DhtAddress}
    (hfeed : feedUnseenMessage options state now message targets source = some after)
    {target : DhtAddress} (htarget : target ∈ targets) (hsource : source ≠ some target) :
    ⟨state.tasks.length, target, .pending⟩ ∈ after.sends := by
  obtain ⟨store, -, rfl⟩ := Option.map_eq_some_iff.mp hfeed
  obtain ⟨sent, hsent, hmem⟩ := sendAll_spec
    (⟨state.tasks ++ [⟨message, source, OrderedSet.empty, now, targets⟩], store, state.sends, now⟩ :
      State MessageRef Content DhtAddress)
    (targets.map fun target ↦ (state.tasks.length, target))
  rw [sendAll, List.foldl_map] at hsent
  rw [hsent]
  refine List.mem_append_right _ ((hmem _).mpr ⟨rfl, ?_, _, List.getElem?_concat_length, ?_⟩)
  · exact List.mem_map.mpr ⟨target, htarget, rfl⟩
  · exact wants_iff.mpr ⟨OrderedSet.notMem_empty target, hsource⟩

/-- What `onNeighborJoined` does: the tasks whose time is over leave the store, and the others send
to the neighbour if they want to. -/
theorem onNeighborJoined_spec (options : Options) (state : State MessageRef Content DhtAddress)
    (now : ℤ) (neighborId : DhtAddress)
    (hsound : state.activeTaskStore.Sound options.storeOptions) :
    ∃ store sent,
      onNeighborJoined state now neighborId =
        ⟨state.tasks, store, state.sends ++ sent, now⟩ ∧
      store.Sound options.storeOptions ∧
      (store.items.entries = state.activeTaskStore.items.entries.filter fun entry ↦
        ¬entry.2.expiresAt ≤ now) ∧
      ∀ send, send ∈ sent ↔ send.outcome = .pending ∧ send.neighborId = neighborId ∧
        (∃ entry ∈ state.activeTaskStore.items.entries, now < entry.2.expiresAt ∧
          entry.2.value = send.task) ∧
        ∃ task, state.tasks[send.task]? = some task ∧ task.wants neighborId = true := by
  obtain ⟨hafter, hentries, hvalues⟩ := FifoMapWithTTL.values_spec now hsound
  obtain ⟨sent, hsent, hmem⟩ := sendAll_spec
    { state with activeTaskStore := (state.activeTaskStore.values now).2, now := now }
    ((state.activeTaskStore.values now).1.map fun task ↦ (task, neighborId))
  rw [sendAll, List.foldl_map] at hsent
  refine ⟨_, sent, hsent, hafter, hentries, fun send ↦ ?_⟩
  rw [hmem]
  refine and_congr_right fun _ ↦ ?_
  constructor
  · rintro ⟨hcall, task, htask, hwant⟩
    obtain ⟨index, hindex, heq⟩ := List.mem_map.mp hcall
    rw [Prod.mk.injEq] at heq
    refine ⟨heq.2.symm, ?_, task, htask, heq.2 ▸ hwant⟩
    exact (hvalues send.task).mp (heq.1 ▸ hindex)
  · rintro ⟨hneighbor, hentry, task, htask, hwant⟩
    refine ⟨List.mem_map.mpr ⟨send.task, (hvalues send.task).mpr hentry, ?_⟩, task, htask, ?_⟩
    · rw [hneighbor]
    · rw [hneighbor]
      exact hwant

/-! ### Every step keeps the invariant -/

omit [DecidableEq MessageRef] [DecidableEq DhtAddress] in
theorem invariant_create (options : Options) (now : ℤ) :
    Invariant options (State.create now : State MessageRef Content DhtAddress) where
  sound := FifoMapWithTTL.sound_create _
  stored := by simp [State.create, FifoMapWithTTL.create, OrderedMap.empty]
  fifo := by simp [State.create, FifoMapWithTTL.create, OrderedMap.empty]
  sent := by simp [State.create]
  handled := by simp [State.create]

/-- The tasks of one state are still there in another, with what they were fed with. -/
def KeepsFeeds (before after : State MessageRef Content DhtAddress) : Prop :=
  ∀ (index : ℕ) (task : PropagationTask MessageRef Content DhtAddress),
    before.tasks[index]? = some task → ∃ later, after.tasks[index]? = some later ∧
      later.message = task.message ∧ later.source = task.source ∧ later.fedAt = task.fedAt ∧
      later.targets = task.targets

omit [DecidableEq MessageRef] [DecidableEq DhtAddress] in
theorem KeepsFeeds.of_append {before after : State MessageRef Content DhtAddress}
    {added : List (PropagationTask MessageRef Content DhtAddress)}
    (htasks : after.tasks = before.tasks ++ added) : KeepsFeeds before after := by
  intro index task htask
  have hlt := (List.getElem?_eq_some_iff.mp htask).1
  refine ⟨task, ?_, rfl, rfl, rfl, rfl⟩
  rw [htasks, List.getElem?_append_left hlt, htask]

/-- A send that succeeds. -/
theorem sendSucceeds_eq_some {options : Options} {state after : State MessageRef Content
    DhtAddress} {send : ℕ} (hstep : step options state (.sendSucceeds send) = some after) :
    ∃ index neighborId task, state.sends[send]? = some ⟨index, neighborId, .pending⟩ ∧
      state.tasks[index]? = some task ∧
      after = markHandled options
        { state with sends := state.sends.set send ⟨index, neighborId, .acknowledged⟩ } index task
        neighborId := by
  simp only [step] at hstep
  split at hstep
  case _ index neighborId hsend =>
    obtain ⟨task, htask, rfl⟩ := Option.map_eq_some_iff.mp hstep
    exact ⟨index, neighborId, task, hsend, htask, rfl⟩
  · cases hstep

/-- A send that fails. -/
theorem sendFails_eq_some {options : Options} {state after : State MessageRef Content
    DhtAddress} {send : ℕ} (hstep : step options state (.sendFails send) = some after) :
    ∃ index neighborId, state.sends[send]? = some ⟨index, neighborId, .pending⟩ ∧
      after = { state with sends := state.sends.set send ⟨index, neighborId, .failed⟩ } := by
  simp only [step] at hstep
  split at hstep
  case _ index neighborId hsend =>
    rw [Option.some.injEq] at hstep
    exact ⟨index, neighborId, hsend, hstep.symm⟩
  · cases hstep

omit [DecidableEq MessageRef] in
/-- A neighbour is added to the handled ones of a task. -/
theorem keepsFeeds_set {state after : State MessageRef Content DhtAddress} {index : ℕ}
    {task : PropagationTask MessageRef Content DhtAddress} {neighborId : DhtAddress}
    (htask : state.tasks[index]? = some task)
    (hafter : after.tasks = state.tasks.set index
      { task with handledNeighbors := task.handledNeighbors.add neighborId }) :
    KeepsFeeds state after := by
  intro other entry hentry
  rw [hafter, List.getElem?_set]
  split_ifs with heq hlt
  · subst heq
    rw [htask, Option.some.injEq] at hentry
    subst hentry
    exact ⟨_, rfl, rfl, rfl, rfl, rfl⟩
  · subst heq
    exact absurd (List.getElem?_eq_some_iff.mp hentry).1 hlt
  · exact ⟨entry, hentry, rfl, rfl, rfl, rfl⟩

/-- An element that is not the one at a position stays when that position is set. -/
private theorem mem_set_of_ne {Element : Type*} {list : List Element} {position : ℕ}
    {element old new : Element} (hmem : element ∈ list) (hold : list[position]? = some old)
    (hne : element ≠ old) : element ∈ list.set position new := by
  obtain ⟨other, hother⟩ := List.mem_iff_getElem?.mp hmem
  have hposition : position ≠ other := by
    rintro rfl
    rw [hother, Option.some.injEq] at hold
    exact hne hold
  refine List.mem_iff_getElem?.mpr ⟨other, ?_⟩
  rw [List.getElem?_set_ne hposition, hother]

omit [DecidableEq MessageRef] [DecidableEq DhtAddress] in
/-- The part of the invariant about the store holds of every part of the store. -/
theorem Invariant.stored_of_sublist {options : Options}
    {state after : State MessageRef Content DhtAddress} (hinv : Invariant options state)
    (hfeeds : KeepsFeeds state after)
    {entries : List (MessageRef × Item ℕ)}
    (hsub : entries.Sublist state.activeTaskStore.items.entries) :
    (∀ entry ∈ entries, ∃ task, after.tasks[entry.2.value]? = some task ∧
      task.message.messageId = entry.1 ∧ entry.2.expiresAt = task.fedAt + options.ttl) ∧
    entries.Pairwise fun first second ↦ first.2.value < second.2.value := by
  refine ⟨fun entry hentry ↦ ?_, hinv.fifo.sublist hsub⟩
  obtain ⟨task, htask, hmessage, hexpires⟩ := hinv.stored entry (hsub.subset hentry)
  obtain ⟨later, hlater, hsame, -, hfedAt, -⟩ := hfeeds entry.2.value task htask
  exact ⟨later, hlater, hsame ▸ hmessage, hfedAt ▸ hexpires⟩

omit [DecidableEq MessageRef] [DecidableEq DhtAddress] in
/-- The part of the invariant about the sends holds of sends that were made before. -/
theorem Invariant.sent_of_keepsFeeds {options : Options}
    {state after : State MessageRef Content DhtAddress} (hinv : Invariant options state)
    (hfeeds : KeepsFeeds state after) {send : Send DhtAddress} (hsend : send ∈ state.sends) :
    ∃ task, after.tasks[send.task]? = some task ∧ task.source ≠ some send.neighborId := by
  obtain ⟨task, htask, hsource⟩ := hinv.sent send hsend
  obtain ⟨later, hlater, -, hsame, -, -⟩ := hfeeds send.task task htask
  exact ⟨later, hlater, hsame ▸ hsource⟩

theorem Invariant.feed {options : Options} {state after : State MessageRef Content DhtAddress}
    {now : ℤ} {message : StreamMessage MessageRef Content} {targets : List DhtAddress}
    {source : Option DhtAddress} (hinv : Invariant options state)
    (hfeed : feedUnseenMessage options state now message targets source = some after) :
    Invariant options after := by
  obtain ⟨store, sent, hstore, hafter, hsent⟩ := feedUnseenMessage_eq_some hfeed
  have hfeeds : KeepsFeeds state after := .of_append (congrArg State.tasks hafter)
  have hnew : after.tasks[state.tasks.length]? =
      some ⟨message, source, OrderedSet.empty, now, targets⟩ := by
    rw [hafter, List.getElem?_concat_length]
  obtain ⟨hsound, kept, added, hentries, hkept, hone, hadded⟩ :=
    FifoMapWithTTL.set_eq_some hinv.sound hstore
  obtain ⟨hstored, hfifo⟩ := hinv.stored_of_sublist hfeeds hkept
  have hstoreAfter : after.activeTaskStore = store := congrArg State.activeTaskStore hafter
  refine ⟨hstoreAfter ▸ hsound, ?_, ?_, ?_, ?_⟩
  · rw [hstoreAfter, hentries]
    intro entry hentry
    rcases List.mem_append.mp hentry with hentry | hentry
    · exact hstored entry hentry
    · rw [hadded entry hentry]
      exact ⟨_, hnew, rfl, rfl⟩
  · rw [hstoreAfter, hentries, List.pairwise_append]
    refine ⟨hfifo, ?_, fun first hfirst second hsecond ↦ ?_⟩
    · match added, hone with
      | [], _ => exact List.Pairwise.nil
      | [entry], _ => exact List.pairwise_singleton _ entry
    · rw [hadded second hsecond]
      obtain ⟨task, htask, -⟩ := hinv.stored first (hkept.subset hfirst)
      exact (List.getElem?_eq_some_iff.mp htask).1
  · have hsends : after.sends = state.sends ++ sent := congrArg State.sends hafter
    intro send hsend
    rw [hsends] at hsend
    rcases List.mem_append.mp hsend with hsend | hsend
    · exact hinv.sent_of_keepsFeeds hfeeds hsend
    · obtain ⟨-, htask, -, hsource⟩ := hsent send hsend
      exact ⟨_, htask ▸ hnew, hsource⟩
  · intro index task htask neighborId hneighbor
    rw [hafter, List.getElem?_append] at htask
    rw [hafter]
    split_ifs at htask with hlt
    · exact List.mem_append_left _ (hinv.handled index task htask neighborId hneighbor)
    · rw [List.getElem?_singleton] at htask
      split_ifs at htask
      rw [Option.some.injEq] at htask
      rw [← htask] at hneighbor
      exact absurd hneighbor (OrderedSet.notMem_empty neighborId)

theorem Invariant.join {options : Options} {state : State MessageRef Content DhtAddress}
    (hinv : Invariant options state) (now : ℤ) (neighborId : DhtAddress) :
    Invariant options (onNeighborJoined state now neighborId) := by
  obtain ⟨store, sent, hafter, hsound, hentries, hmem⟩ :=
    onNeighborJoined_spec options state now neighborId hinv.sound
  rw [hafter]
  have hfeeds : KeepsFeeds state (⟨state.tasks, store, state.sends ++ sent, now⟩ :
      State MessageRef Content DhtAddress) := fun _ task htask ↦ ⟨task, htask, rfl, rfl, rfl, rfl⟩
  have hsub : store.items.entries.Sublist state.activeTaskStore.items.entries := by
    rw [hentries]
    exact List.filter_sublist
  obtain ⟨hstored, hfifo⟩ := hinv.stored_of_sublist hfeeds hsub
  refine ⟨hsound, hstored, hfifo, fun send hsend ↦ ?_, fun index task htask other hother ↦ ?_⟩
  · rcases List.mem_append.mp hsend with hsend | hsend
    · exact hinv.sent_of_keepsFeeds hfeeds hsend
    · obtain ⟨-, hneighbor, -, task, htask, hwant⟩ := (hmem send).mp hsend
      exact ⟨task, htask, hneighbor ▸ (wants_iff.mp hwant).2⟩
  · exact List.mem_append_left _ (hinv.handled index task htask other hother)

theorem Invariant.succeed {options : Options} {state after : State MessageRef Content DhtAddress}
    {send : ℕ} (hinv : Invariant options state)
    (hstep : step options state (.sendSucceeds send) = some after) : Invariant options after := by
  obtain ⟨index, neighborId, task, hsend, htask, rfl⟩ := sendSucceeds_eq_some hstep
  have hfeeds : KeepsFeeds state (markHandled options
      { state with sends := state.sends.set send ⟨index, neighborId, .acknowledged⟩ } index task
      neighborId) := keepsFeeds_set htask rfl
  have hstore : ∀ store, (if options.minPropagationTargets ≤
      (task.handledNeighbors.add neighborId).elements.length then
        state.activeTaskStore.delete task.message.messageId else state.activeTaskStore) = store →
      store.Sound options.storeOptions ∧
        store.items.entries.Sublist state.activeTaskStore.items.entries := by
    rintro store rfl
    split_ifs
    · refine ⟨hinv.sound.delete _, ?_⟩
      rw [FifoMapWithTTL.entries_delete]
      exact List.filter_sublist
    · exact ⟨hinv.sound, List.Sublist.refl _⟩
  obtain ⟨hsound, hsub⟩ := hstore _ rfl
  obtain ⟨hstored, hfifo⟩ := hinv.stored_of_sublist hfeeds hsub
  have hlength := (List.getElem?_eq_some_iff.mp hsend).1
  refine ⟨hsound, hstored, hfifo, fun other hother ↦ ?_,
    fun other entry hentry handled hhandled ↦ ?_⟩
  · rcases List.mem_or_eq_of_mem_set hother with hother | rfl
    · exact hinv.sent_of_keepsFeeds hfeeds hother
    · have hpending : (⟨index, neighborId, .pending⟩ : Send DhtAddress) ∈ state.sends :=
        List.mem_of_getElem? hsend
      have hold := hinv.sent_of_keepsFeeds hfeeds hpending
      exact hold
  · show _ ∈ state.sends.set send _
    have hold : ∀ other handled, ⟨other, handled, .acknowledged⟩ ∈ state.sends →
        ⟨other, handled, .acknowledged⟩ ∈
          state.sends.set send ⟨index, neighborId, .acknowledged⟩ :=
      fun _ _ hmem ↦ mem_set_of_ne hmem hsend (by simp)
    change (state.tasks.set index _)[other]? = some entry at hentry
    rw [List.getElem?_set] at hentry
    split_ifs at hentry with heq hlt
    · subst heq
      rw [Option.some.injEq] at hentry
      rw [← hentry, OrderedSet.mem_add] at hhandled
      rcases hhandled with rfl | hhandled
      · exact List.mem_set hlength _
      · exact hold index handled (hinv.handled index task htask handled hhandled)
    · exact hold other handled (hinv.handled other entry hentry handled hhandled)

omit [DecidableEq MessageRef] [DecidableEq DhtAddress] in
/-- The end of a pending send without success leaves all acknowledged sends. -/
theorem Invariant.fail {options : Options} {state : State MessageRef Content DhtAddress}
    {send index : ℕ} {neighborId : DhtAddress} (hinv : Invariant options state)
    (hsend : state.sends[send]? = some ⟨index, neighborId, .pending⟩) :
    Invariant options
      { state with sends := state.sends.set send ⟨index, neighborId, .failed⟩ } := by
  refine ⟨hinv.sound, hinv.stored, hinv.fifo, fun other hother ↦ ?_, ?_⟩
  · rcases List.mem_or_eq_of_mem_set hother with hother | rfl
    · exact hinv.sent other hother
    · exact hinv.sent ⟨index, neighborId, .pending⟩ (List.mem_of_getElem? hsend)
  · intro other entry hentry handled hhandled
    exact mem_set_of_ne (hinv.handled other entry hentry handled hhandled) hsend (by simp)

theorem step_invariant {options : Options} {state after : State MessageRef Content DhtAddress}
    {event : Event MessageRef Content DhtAddress} (hinv : Invariant options state)
    (hstep : step options state event = some after) : Invariant options after := by
  cases event with
  | feedUnseenMessage now message targets source =>
    simp only [step] at hstep
    split_ifs at hstep
    exact hinv.feed hstep
  | onNeighborJoined now neighborId =>
    simp only [step] at hstep
    split_ifs at hstep
    rw [Option.some.injEq] at hstep
    exact hstep ▸ hinv.join now neighborId
  | sendSucceeds send => exact hinv.succeed hstep
  | sendFails send =>
    obtain ⟨index, neighborId, hsend, rfl⟩ := sendFails_eq_some hstep
    exact hinv.fail hsend

/-- The sends of one state are still there in another, at their indices. -/
def KeepsSends (before after : State MessageRef Content DhtAddress) : Prop :=
  ∀ (index : ℕ) (send : Send DhtAddress), before.sends[index]? = some send →
    ∃ later, after.sends[index]? = some later ∧ later.task = send.task ∧
      later.neighborId = send.neighborId

omit [DecidableEq MessageRef] [DecidableEq DhtAddress] in
theorem KeepsSends.of_append {before after : State MessageRef Content DhtAddress}
    {added : List (Send DhtAddress)} (hsends : after.sends = before.sends ++ added) :
    KeepsSends before after := by
  intro index send hsend
  have hlt := (List.getElem?_eq_some_iff.mp hsend).1
  exact ⟨send, by rw [hsends, List.getElem?_append_left hlt, hsend], rfl, rfl⟩

omit [DecidableEq MessageRef] [DecidableEq DhtAddress] in
/-- The outcome of a send is set. -/
theorem KeepsSends.of_set {before after : State MessageRef Content DhtAddress}
    {index task : ℕ} {neighborId : DhtAddress} {outcome : Outcome}
    (hsend : before.sends[index]? = some ⟨task, neighborId, .pending⟩)
    (hsends : after.sends = before.sends.set index ⟨task, neighborId, outcome⟩) :
    KeepsSends before after := by
  intro other send hother
  rw [hsends, List.getElem?_set]
  split_ifs with heq hlt
  · subst heq
    rw [hsend, Option.some.injEq] at hother
    subst hother
    exact ⟨_, rfl, rfl, rfl⟩
  · subst heq
    exact absurd (List.getElem?_eq_some_iff.mp hother).1 hlt
  · exact ⟨send, hother, rfl, rfl⟩

/-- Every step keeps the tasks, with what they were fed with, and the sends. -/
theorem step_keeps {options : Options} {state after : State MessageRef Content DhtAddress}
    {event : Event MessageRef Content DhtAddress}
    (hsound : state.activeTaskStore.Sound options.storeOptions)
    (hstep : step options state event = some after) :
    KeepsFeeds state after ∧ KeepsSends state after := by
  cases event with
  | feedUnseenMessage now message targets source =>
    simp only [step] at hstep
    split_ifs at hstep
    obtain ⟨store, sent, -, rfl, -⟩ := feedUnseenMessage_eq_some hstep
    exact ⟨.of_append rfl, .of_append rfl⟩
  | onNeighborJoined now neighborId =>
    simp only [step] at hstep
    split_ifs at hstep
    obtain ⟨store, sent, heq, -⟩ := onNeighborJoined_spec options state now neighborId hsound
    rw [heq, Option.some.injEq] at hstep
    subst hstep
    exact ⟨fun _ task htask ↦ ⟨task, htask, rfl, rfl, rfl, rfl⟩, .of_append rfl⟩
  | sendSucceeds send =>
    obtain ⟨index, neighborId, task, hsend, htask, rfl⟩ := sendSucceeds_eq_some hstep
    exact ⟨keepsFeeds_set htask rfl, .of_set hsend rfl⟩
  | sendFails send =>
    obtain ⟨index, neighborId, hsend, rfl⟩ := sendFails_eq_some hstep
    exact ⟨fun _ task htask ↦ ⟨task, htask, rfl, rfl, rfl, rfl⟩, .of_set hsend rfl⟩

/-- A step that feeds no message adds no task. -/
theorem exists_old_task {options : Options} {state after : State MessageRef Content DhtAddress}
    {event : Event MessageRef Content DhtAddress}
    (hevent : ∀ now message targets source, event ≠ .feedUnseenMessage now message targets source)
    (hstep : step options state event = some after) {index : ℕ}
    {task : PropagationTask MessageRef Content DhtAddress}
    (htask : after.tasks[index]? = some task) :
    ∃ old, state.tasks[index]? = some old ∧ old.message = task.message := by
  cases event with
  | feedUnseenMessage now message targets source => exact absurd rfl (hevent _ _ _ _)
  | onNeighborJoined now neighborId =>
    simp only [step] at hstep
    split_ifs at hstep
    rw [Option.some.injEq] at hstep
    have htasks : after.tasks = state.tasks := by
      obtain ⟨sent, hsent, -⟩ := sendAll_spec
        { state with activeTaskStore := (state.activeTaskStore.values now).2, now := now }
        ((state.activeTaskStore.values now).1.map fun task ↦ (task, neighborId))
      rw [sendAll, List.foldl_map] at hsent
      have htasks := congrArg State.tasks hsent
      rw [← hstep]
      exact htasks
    exact ⟨task, htasks ▸ htask, rfl⟩
  | sendSucceeds send =>
    obtain ⟨position, neighborId, entry, -, hentry, rfl⟩ := sendSucceeds_eq_some hstep
    have hset : (state.tasks.set position { entry with
        handledNeighbors := entry.handledNeighbors.add neighborId })[index]? = some task := htask
    rw [List.getElem?_set] at hset
    split_ifs at hset with heq
    · rw [Option.some.injEq] at hset
      exact ⟨entry, heq ▸ hentry, by rw [← hset]⟩
    · exact ⟨task, hset, rfl⟩
  | sendFails send =>
    obtain ⟨position, neighborId, -, rfl⟩ := sendFails_eq_some hstep
    exact ⟨task, htask, rfl⟩

/-- The invariant holds in every state of every run, with any guard on its steps. -/
theorem invariant_of_reachable {options : Options} {start : ℤ}
    {guard : State MessageRef Content DhtAddress → Event MessageRef Content DhtAddress → Prop}
    {state : State MessageRef Content DhtAddress}
    (hreachable : Transition.Reachable (step options) guard (· = State.create start) state) :
    Invariant options state := by
  refine hreachable.invariant ?_ ?_
  · rintro state rfl
    exact invariant_create options start
  · intro state event after _ hinv _ hstep
    exact step_invariant hinv hstep

/-! ### The parts of the promise -/

omit [DecidableEq MessageRef] [DecidableEq DhtAddress] in
/-- Only an acknowledgement makes a neighbour handled. -/
theorem Invariant.acknowledged {options : Options} {state : State MessageRef Content DhtAddress}
    (hinv : Invariant options state) {index : ℕ}
    {task : PropagationTask MessageRef Content DhtAddress}
    (htask : state.tasks[index]? = some task) {neighborId : DhtAddress}
    (hhandled : neighborId ∈ task.handledNeighbors) :
    Acknowledged state task.message.messageId neighborId :=
  ⟨_, hinv.handled index task htask neighborId hhandled, rfl, rfl, task, htask, rfl⟩

omit [DecidableEq DhtAddress] in
theorem has_iff {state : State MessageRef Content DhtAddress} {messageId : MessageRef} :
    state.activeTaskStore.items.has messageId = true ↔
      ∃ item, (messageId, item) ∈ state.activeTaskStore.items.entries := by
  rw [OrderedMap.has, Option.isSome_iff_exists]
  exact exists_congr fun item ↦ OrderedMap.get?_eq_some_iff

/-- A message that leaves the store when another is fed was evicted. -/
theorem Invariant.evicted_of_feed {options : Options}
    {state after : State MessageRef Content DhtAddress} {now : ℤ}
    {message : StreamMessage MessageRef Content} {targets : List DhtAddress}
    {source : Option DhtAddress} (hinv : Invariant options state)
    (hfeed : feedUnseenMessage options state now message targets source = some after)
    {messageId : MessageRef} (hbefore : state.activeTaskStore.items.has messageId)
    (hgone : ¬after.activeTaskStore.items.has messageId) :
    Evicted options state after messageId := by
  obtain ⟨store, sent, hstore, hafter, -⟩ := feedUnseenMessage_eq_some hfeed
  obtain ⟨item, hitem⟩ := has_iff.mp hbefore
  rw [has_iff, hafter] at hgone
  have hpos : 0 < options.storeOptions.maxSize := by
    by_contra hzero
    rw [FifoMapWithTTL.set, if_pos (Nat.eq_zero_of_not_pos hzero), Option.some.injEq] at hstore
    exact hgone ⟨item, hstore ▸ hitem⟩
  obtain ⟨result, dropped, kept, hresult, -, hentries, hkept, hone, hfull⟩ :=
    FifoMapWithTTL.set_spec hinv.sound hpos now message.messageId state.tasks.length
  rw [hresult, Option.some.injEq] at hstore
  rw [← hstore] at hgone
  dsimp only at hgone
  rw [hentries] at hgone
  have hne : messageId ≠ message.messageId := by
    rintro rfl
    exact hgone ⟨_, List.mem_append_right kept List.mem_cons_self⟩
  have hmem : (messageId, item) ∈ dropped ++ kept := by
    rw [← hkept, List.mem_filter, decide_eq_true_eq]
    exact ⟨hitem, hne⟩
  have hdropped : (messageId, item) ∈ dropped := by
    rcases List.mem_append.mp hmem with hdropped | hin
    · exact hdropped
    · exact absurd ⟨item, List.mem_append_left _ hin⟩ hgone
  obtain ⟨hsize, hall⟩ := hfull (List.ne_nil_of_mem hdropped)
  have hsingle : dropped = [(messageId, item)] := by
    obtain ⟨entry, rfl⟩ := List.length_eq_one_iff.mp
      (le_antisymm hone (List.length_pos_of_mem hdropped))
    rw [List.mem_singleton.mp hdropped]
  refine ⟨item, OrderedMap.get?_eq_some_iff.mpr hitem, hsize, ?_,
    fun other otherItem hother hdiffer ↦ ?_⟩
  · rw [hafter, List.length_append, List.length_singleton]
    exact Nat.lt_succ_self _
  · have hfifo := hinv.fifo
    rw [hall, hsingle, List.singleton_append, List.pairwise_cons] at hfifo
    have hotherMem := OrderedMap.get?_eq_some_iff.mp hother
    rw [hall, hsingle, List.singleton_append, List.mem_cons, Prod.mk.injEq] at hotherMem
    rcases hotherMem with heq | hotherMem
    · exact absurd heq.1 hdiffer
    · exact hfifo.1 _ hotherMem

/-- A message that leaves the store when a neighbour joins has lived its time. -/
theorem Invariant.expired_of_join {options : Options}
    {state : State MessageRef Content DhtAddress} (hinv : Invariant options state) {now : ℤ}
    {neighborId : DhtAddress} {messageId : MessageRef}
    (hbefore : state.activeTaskStore.items.has messageId)
    (hgone : ¬(onNeighborJoined state now neighborId).activeTaskStore.items.has messageId) :
    Expired options state (onNeighborJoined state now neighborId) messageId := by
  obtain ⟨store, sent, hafter, -, hentries, -⟩ :=
    onNeighborJoined_spec options state now neighborId hinv.sound
  obtain ⟨item, hitem⟩ := has_iff.mp hbefore
  rw [has_iff, hafter] at hgone
  dsimp only at hgone
  rw [hentries] at hgone
  obtain ⟨task, htask, -, hexpires⟩ := hinv.stored _ hitem
  refine ⟨item, task, OrderedMap.get?_eq_some_iff.mpr hitem, htask, ?_⟩
  rw [hafter]
  by_contra hlives
  refine hgone ⟨item, List.mem_filter.mpr ⟨hitem, ?_⟩⟩
  rw [decide_eq_true_eq, hexpires]
  exact hlives

/-- A message that leaves the store when a send succeeds was acknowledged often enough. -/
theorem Invariant.enough_of_succeed {options : Options}
    {state after : State MessageRef Content DhtAddress} (hinv : Invariant options state) {send : ℕ}
    (hstep : step options state (.sendSucceeds send) = some after) {messageId : MessageRef}
    (hbefore : state.activeTaskStore.items.has messageId)
    (hgone : ¬after.activeTaskStore.items.has messageId) :
    EnoughAcknowledged options after messageId := by
  have hinvAfter := hinv.succeed hstep
  obtain ⟨index, neighborId, task, hsend, htask, hafter⟩ := sendSucceeds_eq_some hstep
  have hmarked : after.tasks[index]? =
      some { task with handledNeighbors := task.handledNeighbors.add neighborId } := by
    have hlt := (List.getElem?_eq_some_iff.mp htask).1
    rw [hafter]
    exact List.getElem?_set_self hlt
  have hstore : after.activeTaskStore = if options.minPropagationTargets ≤
      (task.handledNeighbors.add neighborId).elements.length then
        state.activeTaskStore.delete task.message.messageId else state.activeTaskStore := by
    rw [hafter]
    rfl
  split_ifs at hstore with henough
  · have hsame : task.message.messageId = messageId := by
      obtain ⟨item, hitem⟩ := has_iff.mp hbefore
      by_contra hne
      refine hgone (has_iff.mpr ⟨item, ?_⟩)
      rw [hstore, FifoMapWithTTL.entries_delete, List.mem_filter, decide_eq_true_eq]
      exact ⟨hitem, Ne.symm hne⟩
    refine ⟨(task.handledNeighbors.add neighborId).elements,
      (task.handledNeighbors.add neighborId).nodup, henough, fun handled hhandled ↦ ?_⟩
    rw [← hsame]
    exact hinvAfter.acknowledged hmarked hhandled
  · rw [hstore] at hgone
    exact absurd hbefore hgone

theorem Invariant.leaves {options : Options} {state after : State MessageRef Content DhtAddress}
    {event : Event MessageRef Content DhtAddress} (hinv : Invariant options state)
    (hstep : step options state event = some after) {messageId : MessageRef}
    (hbefore : state.activeTaskStore.items.has messageId)
    (hgone : ¬after.activeTaskStore.items.has messageId) :
    EnoughAcknowledged options after messageId ∨ Expired options state after messageId ∨
      Evicted options state after messageId := by
  cases event with
  | feedUnseenMessage now message targets source =>
    simp only [step] at hstep
    split_ifs at hstep
    exact Or.inr (Or.inr (hinv.evicted_of_feed hstep hbefore hgone))
  | onNeighborJoined now neighborId =>
    simp only [step] at hstep
    split_ifs at hstep
    rw [Option.some.injEq] at hstep
    subst hstep
    exact Or.inr (Or.inl (hinv.expired_of_join hbefore hgone))
  | sendSucceeds send => exact Or.inl (hinv.enough_of_succeed hstep hbefore hgone)
  | sendFails send =>
    obtain ⟨index, neighborId, -, rfl⟩ := sendFails_eq_some hstep
    exact absurd hbefore hgone

theorem Invariant.joined {options : Options} {state after : State MessageRef Content DhtAddress}
    (hinv : Invariant options state) {now : ℤ} {neighborId : DhtAddress}
    (hstep : step options state (.onNeighborJoined now neighborId) = some after)
    {messageId : MessageRef} {item : Item ℕ}
    (hitem : after.activeTaskStore.items.get? messageId = some item) :
    ∃ task, after.tasks[item.value]? = some task ∧ task.message.messageId = messageId ∧
      (task.source ≠ some neighborId → ¬Acknowledged state messageId neighborId →
        ⟨item.value, neighborId, .pending⟩ ∈ after.sends.drop state.sends.length) := by
  obtain ⟨store, sent, hafter, -, hentries, hmem⟩ :=
    onNeighborJoined_spec options state now neighborId hinv.sound
  simp only [step] at hstep
  split_ifs at hstep
  rw [hafter, Option.some.injEq] at hstep
  subst hstep
  have hentry := OrderedMap.get?_eq_some_iff.mp hitem
  dsimp only at hentry
  rw [hentries, List.mem_filter, decide_eq_true_eq, not_le] at hentry
  obtain ⟨task, htask, hmessage, -⟩ := hinv.stored _ hentry.1
  have hsame : task.message.messageId = messageId := hmessage
  refine ⟨task, htask, hsame, fun hsource hnot ↦ ?_⟩
  rw [List.drop_left, hmem]
  refine ⟨rfl, rfl, ⟨_, hentry.1, hentry.2, rfl⟩, task, htask, wants_iff.mpr ⟨?_, hsource⟩⟩
  intro hhandled
  exact hnot (hsame ▸ hinv.acknowledged htask hhandled)

theorem Invariant.propagates {options : Options} {state : State MessageRef Content DhtAddress}
    (hinv : Invariant options state) : Propagates options state where
  notSource := hinv.sent
  leaves := fun _ _ hstep _ hbefore hgone ↦ hinv.leaves hstep hbefore hgone
  joined := fun _ _ _ hstep _ _ hitem ↦ hinv.joined hstep hitem
  accepts := by
    intro now hnow
    refine ⟨fun message targets source ↦ ?_, fun neighborId ↦ ?_⟩
    · rw [step, if_pos hnow, feedUnseenMessage, Option.isSome_map]
      exact FifoMapWithTTL.set_isSome hinv.sound now message.messageId state.tasks.length
    · rw [step, if_pos hnow]
      rfl

/-! ### The fire-and-forget mode -/

omit [DecidableEq MessageRef] [DecidableEq DhtAddress] in
/-- Sends that were within their targets stay so. -/
theorem WithinTargets.of_keepsFeeds {options : Options}
    {state after : State MessageRef Content DhtAddress} (hwithin : WithinTargets options state)
    (hfeeds : KeepsFeeds state after)
    (hsends : options.minPropagationTargets = 0 → ∀ send ∈ after.sends,
      (∃ old ∈ state.sends, old.task = send.task ∧ old.neighborId = send.neighborId) ∨
        ∃ task, after.tasks[send.task]? = some task ∧ send.neighborId ∈ task.targets) :
    WithinTargets options after := by
  intro hzero send hsend
  rcases hsends hzero send hsend with ⟨old, hold, htask, hneighbor⟩ | hnew
  · obtain ⟨task, hentry, htarget⟩ := hwithin hzero old hold
    obtain ⟨later, hlater, -, -, -, hsame⟩ := hfeeds old.task task hentry
    refine ⟨later, htask ▸ hlater, ?_⟩
    rw [hsame, ← hneighbor]
    exact htarget
  · exact hnew

omit [DecidableEq MessageRef] [DecidableEq DhtAddress] in
/-- The end of a send changes its outcome only. -/
theorem exists_old_of_mem_set {state : State MessageRef Content DhtAddress} {send index : ℕ}
    {neighborId : DhtAddress} {outcome : Outcome}
    (hsend : state.sends[send]? = some ⟨index, neighborId, .pending⟩) {other : Send DhtAddress}
    (hother : other ∈ state.sends.set send ⟨index, neighborId, outcome⟩) :
    ∃ old ∈ state.sends, old.task = other.task ∧ old.neighborId = other.neighborId := by
  rcases List.mem_or_eq_of_mem_set hother with hmem | rfl
  · exact ⟨other, hmem, rfl, rfl⟩
  · exact ⟨_, List.mem_of_getElem? hsend, rfl, rfl⟩

/-- Without reattempts, a step that meets the condition sends within the targets. -/
theorem WithinTargets.step {options : Options}
    {state after : State MessageRef Content DhtAddress}
    {event : Event MessageRef Content DhtAddress} (hinv : Invariant options state)
    (hwithin : WithinTargets options state) (hjoins : JoinsWithinTargets options state event)
    (hstep : step options state event = some after) : WithinTargets options after := by
  cases event with
  | feedUnseenMessage now message targets source =>
    simp only [Propagation.step] at hstep
    split_ifs at hstep
    obtain ⟨store, sent, -, rfl, hsent⟩ := feedUnseenMessage_eq_some hstep
    refine hwithin.of_keepsFeeds (.of_append rfl) fun _ send hsend ↦ ?_
    rcases List.mem_append.mp hsend with hold | hnew
    · exact Or.inl ⟨send, hold, rfl, rfl⟩
    · obtain ⟨-, htask, htarget, -⟩ := hsent send hnew
      refine Or.inr ⟨⟨message, source, OrderedSet.empty, now, targets⟩, ?_, htarget⟩
      rw [htask, List.getElem?_concat_length]
  | onNeighborJoined now neighborId =>
    obtain ⟨store, sent, hafter, -, -, hmem⟩ :=
      onNeighborJoined_spec options state now neighborId hinv.sound
    simp only [Propagation.step] at hstep
    split_ifs at hstep
    rw [hafter, Option.some.injEq] at hstep
    subst hstep
    refine hwithin.of_keepsFeeds (fun _ task htask ↦ ⟨task, htask, rfl, rfl, rfl, rfl⟩)
      fun hzero send hsend ↦ ?_
    rcases List.mem_append.mp hsend with hold | hnew
    · exact Or.inl ⟨send, hold, rfl, rfl⟩
    · obtain ⟨-, rfl, ⟨entry, hentry, htime, hvalue⟩, task, htask, hwant⟩ := (hmem send).mp hnew
      have hnot := wants_iff.mp hwant
      rcases hjoins hzero entry hentry htime task (hvalue ▸ htask) with htarget | hsource | hhandled
      · exact Or.inr ⟨task, htask, htarget⟩
      · exact absurd hsource hnot.2
      · exact absurd hhandled hnot.1
  | sendSucceeds send =>
    obtain ⟨index, neighborId, task, hsend, htask, rfl⟩ := sendSucceeds_eq_some hstep
    exact hwithin.of_keepsFeeds (keepsFeeds_set htask rfl) fun _ other hother ↦
      Or.inl (exists_old_of_mem_set hsend hother)
  | sendFails send =>
    obtain ⟨index, neighborId, hsend, rfl⟩ := sendFails_eq_some hstep
    exact hwithin.of_keepsFeeds (fun _ task htask ↦ ⟨task, htask, rfl, rfl, rfl, rfl⟩)
      fun _ other hother ↦ Or.inl (exists_old_of_mem_set hsend hother)

/-- A step that does not meet the condition sends outside the targets. -/
theorem not_withinTargets_of_step {options : Options}
    {state after : State MessageRef Content DhtAddress}
    {event : Event MessageRef Content DhtAddress} (hinv : Invariant options state)
    (hjoins : ¬JoinsWithinTargets options state event)
    (hstep : step options state event = some after) : ¬WithinTargets options after := by
  cases event with
  | onNeighborJoined now neighborId =>
    obtain ⟨store, sent, hafter, -, -, hmem⟩ :=
      onNeighborJoined_spec options state now neighborId hinv.sound
    simp only [step] at hstep
    split_ifs at hstep
    rw [hafter, Option.some.injEq] at hstep
    subst hstep
    simp only [JoinsWithinTargets, not_forall, not_or] at hjoins
    obtain ⟨hzero, entry, hentry, htime, task, htask, htarget, hsource, hhandled⟩ := hjoins
    intro hwithin
    have hsend : (⟨entry.2.value, neighborId, .pending⟩ : Send DhtAddress) ∈ sent :=
      (hmem _).mpr ⟨rfl, rfl, ⟨entry, hentry, htime, rfl⟩, task, htask,
        wants_iff.mpr ⟨hhandled, hsource⟩⟩
    obtain ⟨other, hother, hin⟩ := hwithin hzero _ (List.mem_append_right state.sends hsend)
    dsimp only at hother hin
    rw [htask, Option.some.injEq] at hother
    exact htarget (hother ▸ hin)
  | feedUnseenMessage now message targets source => exact absurd trivial hjoins
  | sendSucceeds send => exact absurd trivial hjoins
  | sendFails send => exact absurd trivial hjoins

omit [DecidableEq MessageRef] [DecidableEq DhtAddress] in
theorem withinTargets_create (options : Options) (now : ℤ) :
    WithinTargets options (State.create now : State MessageRef Content DhtAddress) :=
  fun _ _ hsend ↦ absurd hsend List.not_mem_nil

/-- `Propagation` keeps its promise in every run: no message goes back to its source, a message
leaves the store after enough acknowledgements, by its time to live or by eviction, and a joining
neighbour is sent what is in the store. Without reattempts, messages are sent within their targets
in every run whose joins are within the targets of the stored tasks, and any other join sends
outside of them. -/
theorem propagates_of_joinsWithinTargets (options : Options) (start : ℤ)
    (state : State MessageRef Content DhtAddress) :
    (Transition.Reachable (step options) (fun _ _ ↦ True) (· = State.create start) state →
      Propagates options state) ∧
    (Transition.Reachable (step options) (JoinsWithinTargets options) (· = State.create start)
        state →
      WithinTargets options state ∧ ∀ event after, step options state event = some after →
        ¬JoinsWithinTargets options state event → ¬WithinTargets options after) := by
  refine ⟨fun hreachable ↦ (invariant_of_reachable hreachable).propagates, fun hreachable ↦ ?_⟩
  refine ⟨?_, fun event after hstep hjoins ↦ ?_⟩
  · refine hreachable.invariant ?_ ?_
    · rintro state rfl
      exact withinTargets_create options start
    · intro state event after hbefore hwithin hjoins hstep
      exact hwithin.step (invariant_of_reachable hbefore) hjoins hstep
  · exact not_withinTargets_of_step (invariant_of_reachable hreachable) hjoins hstep

/-- The options of a node without reattempts, with the default buffer. -/
def fireAndForget : Options := ⟨0, 150, 10000⟩

/-- `JoinsWithinTargets`, evaluated. -/
def joinsWithinTargets? (options : Options) (state : State MessageRef Content DhtAddress) :
    Event MessageRef Content DhtAddress → Bool
  | .onNeighborJoined now neighborId =>
    options.minPropagationTargets = 0 → state.activeTaskStore.items.entries.all fun entry ↦
      decide (entry.2.expiresAt ≤ now) ||
        state.tasks[entry.2.value]?.all fun task ↦
          decide (neighborId ∈ task.targets) || decide (task.source = some neighborId) ||
            decide (neighborId ∈ task.handledNeighbors)
  | _ => true

omit [DecidableEq MessageRef] in
theorem joinsWithinTargets_of_eval {options : Options}
    (state : State MessageRef Content DhtAddress) (event : Event MessageRef Content DhtAddress)
    (heval : joinsWithinTargets? options state event = true) :
    JoinsWithinTargets options state event := by
  cases event with
  | onNeighborJoined now neighborId =>
    intro hzero entry hentry htime task htask
    rw [joinsWithinTargets?, decide_eq_true_eq] at heval
    have hall := List.all_eq_true.mp (heval hzero) entry hentry
    rw [htask, Option.all_some, Bool.or_eq_true, decide_eq_true_eq] at hall
    rcases hall with hover | htargets
    · exact absurd htime (not_lt.mpr hover)
    · simpa [or_assoc] using htargets
  | feedUnseenMessage now message targets source => trivial
  | sendSucceeds send => trivial
  | sendFails send => trivial

/-- A message is fed for two neighbours; one of them joins again while the sends are pending, a
send succeeds, and a third neighbour joins. Three sends were made, all to the targets. -/
theorem joined_within_targets :
    ∃ state : State ℕ Unit ℕ,
      Transition.Reachable (step fireAndForget) (JoinsWithinTargets fireAndForget)
        (· = State.create 0) state ∧
      state.sends.length = 3 ∧ WithinTargets fireAndForget state := by
  have hrun : (Transition.checkedRun (step fireAndForget) (joinsWithinTargets? fireAndForget)
      (State.create 0 : State ℕ Unit ℕ)
      [.feedUnseenMessage 0 ⟨7, ()⟩ [1, 2] (some 4), .onNeighborJoined 5 1, .sendSucceeds 1,
        .onNeighborJoined 6 3]).map (·.sends.length) = some 3 := by
    decide +kernel
  obtain ⟨state, hstate, hlength⟩ := Option.map_eq_some_iff.mp hrun
  have hreachable : Transition.Reachable (step fireAndForget) (JoinsWithinTargets fireAndForget)
      (· = State.create 0) state :=
    .of_checkedRun _ joinsWithinTargets_of_eval (.start rfl) hstate
  exact ⟨state, hreachable, hlength,
    ((propagates_of_joinsWithinTargets fireAndForget 0 state).2 hreachable).1⟩

/-- Without reattempts a message is fed for one neighbour, and another one joins while the send is
pending: it is sent the message, although it was not among the targets. -/
theorem joined_before_first_success :
    ∃ state : State ℕ Unit ℕ,
      Transition.Reachable (step fireAndForget) (fun _ _ ↦ True) (· = State.create 0) state ∧
      ¬WithinTargets fireAndForget state := by
  have hrun : (Transition.run (step fireAndForget) (State.create 0 : State ℕ Unit ℕ)
      [.feedUnseenMessage 0 ⟨7, ()⟩ [1] none, .onNeighborJoined 5 2]).map
        (fun state ↦ (state.sends, state.tasks.map (·.targets))) =
      some ([⟨0, 1, .pending⟩, ⟨0, 2, .pending⟩], [[1]]) := by
    decide +kernel
  obtain ⟨state, hstate, hfacts⟩ := Option.map_eq_some_iff.mp hrun
  rw [Prod.mk.injEq] at hfacts
  have hreachable : Transition.Reachable (step fireAndForget) (fun _ _ ↦ True)
      (· = State.create 0) state :=
    .of_run _ (fun _ _ _ ↦ trivial) (.start rfl) hstate
  refine ⟨state, hreachable, fun hwithin ↦ ?_⟩
  have hsend : (⟨0, 2, .pending⟩ : Send ℕ) ∈ state.sends := by
    rw [hfacts.1]
    decide
  obtain ⟨task, htask, htarget⟩ := hwithin rfl _ hsend
  have htargets : (state.tasks.map (·.targets))[0]? = some task.targets := by
    rw [List.getElem?_map, htask]
    rfl
  rw [hfacts.2, List.getElem?_cons_zero, Option.some.injEq] at htargets
  rw [← htargets] at htarget
  exact absurd htarget (by decide)

end PomboStorageNode.TrackerlessNetwork.Propagation
