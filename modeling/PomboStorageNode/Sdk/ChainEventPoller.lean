import PomboStorageNode.Sdk.FailoverProvider

/-!
# Polling for chain events

`ChainEventPoller.ts` asks a provider for the logs of the events that its listeners are for, from
the block behind the last one that it has dealt with (`fromBlock`). It decodes the logs one after
the other, passes the decoded ones to the listeners of the same contract and event name, and moves
`fromBlock` behind them. When `fromBlock` has not moved for a while, it also asks for the block
number, and without any event moves `fromBlock` behind that block.

The model is one session, from `start` until the last listener is removed. A provider has seen a
prefix of the chain, which grows. An answer is one that the provider could give at some time after
it was asked. Each registration of a listener is a listener of its own.

When a log cannot be decoded, the logs behind it are given up, and `fromBlock` moves all the same;
and an event reaches all listeners for its name. `keepsEvents` says when no event is lost by the
first, and none gets to another listener by the second.
-/

set_option autoImplicit false

namespace PomboStorageNode.Sdk.ChainEventPoller

open Library FailoverProvider

/-! ### Chain and listeners -/

/-- `EventFragment`: its name, topic hash and minimal format. -/
structure EventFragment where
  name : String
  topicHash : String
  minimal : String
  deriving DecidableEq

/-- `EventListenerDefinition`, with a number for its callback. -/
structure EventListenerDefinition where
  onEvent : ℕ
  contractInterfaceFragment : EventFragment
  contractAddress : String
  deriving DecidableEq

/-- `Log`, with its address as `toEthereumAddress` gives it. -/
structure Log where
  blockNumber : ℕ
  logIndex : ℕ
  address : String
  topics : List String
  data : List UInt8
  deriving DecidableEq

/-- The filter of a query: the addresses, the hashes for the first topic, and the first block. -/
structure LogFilter where
  address : List String
  topics : List String
  fromBlock : ℕ

/-- The logs of a chain, by their blocks. -/
structure Chain where
  logs : ℕ → List Log
  blockNumber_eq : ∀ block, ∀ log ∈ logs block, log.blockNumber = block
  nodup : ∀ block, (logs block).Nodup

/-- Whether a log matches the addresses and topics of a filter. -/
def LogFilter.accepts (filter : LogFilter) (log : Log) : Bool :=
  filter.address.contains log.address && log.topics.head?.any filter.topics.contains

/-- `getLogs` of a provider that has seen the blocks up to a given one. -/
def Chain.getLogs (chain : Chain) (filter : LogFilter) (seen : ℕ) : List Log :=
  (List.range' filter.fromBlock (seen + 1 - filter.fromBlock)).flatMap fun block ↦
    (chain.logs block).filter filter.accepts

/-- A registered listener, with the number of its registration. -/
structure Listener where
  registration : ℕ
  definition : EventListenerDefinition
  deriving DecidableEq

namespace Listener

/-- The name of the event. -/
def name (listener : Listener) : String := listener.definition.contractInterfaceFragment.name

/-- The topic hash of the event. -/
def topicHash (listener : Listener) : String :=
  listener.definition.contractInterfaceFragment.topicHash

/-- The address of the contract. -/
def contractAddress (listener : Listener) : String := listener.definition.contractAddress

/-- A log is of the contract and the event that a listener is for. -/
def Matches (listener : Listener) (log : Log) : Prop :=
  listener.contractAddress = log.address ∧ log.topics.head? = some listener.topicHash

instance (listener : Listener) (log : Log) : Decidable (listener.Matches log) :=
  inferInstanceAs (Decidable (_ ∧ _))

/-- Whether `off` removes a listener. -/
def isOff (definition : EventListenerDefinition) (listener : Listener) : Bool :=
  listener.contractAddress = definition.contractAddress ∧
    listener.topicHash = definition.contractInterfaceFragment.topicHash ∧
    listener.definition.onEvent = definition.onEvent

end Listener

/-- A decoded event, with the log it comes from. -/
structure LogEvent (Args : Type*) where
  contractAddress : String
  name : String
  args : Args
  blockNumber : ℕ
  log : Log

/-! ### Decoding -/

section Decoding

/- `decodeEventLog` of an interface with one event, given by the minimal format of its fragment. -/
variable {Args : Type*} (decodeEventLog : EventFragment → Log → Option Args)

/-- The definition that a log is decoded for. -/
def definitionOf (listeners : List Listener) (log : Log) : Option Listener :=
  listeners.find? fun listener ↦ listener.Matches log

/-- The events of the logs, up to the first one that cannot be decoded. -/
def decodeLogs (listeners : List Listener) : List Log → List (LogEvent Args)
  | [] => []
  | logItem :: logItems =>
    match definitionOf listeners logItem with
    | none => decodeLogs listeners logItems
    | some definition =>
      match decodeEventLog definition.definition.contractInterfaceFragment logItem with
      | none => []
      | some args =>
        ⟨definition.contractAddress, definition.name, args, logItem.blockNumber, logItem⟩ ::
          decodeLogs listeners logItems

/-- Whether a listener can decode a log. -/
def canDecode (listener : Listener) (log : Log) : Bool :=
  (decodeEventLog listener.definition.contractInterfaceFragment log).isSome

/-- A log does not end the decoding: it has no definition, or can be decoded. -/
def passes (listeners : List Listener) (log : Log) : Bool :=
  (definitionOf listeners log).all fun definition ↦ canDecode decodeEventLog definition log

theorem matches_of_definitionOf {listeners : List Listener} {log : Log} {definition : Listener}
    (hdefinition : definitionOf listeners log = some definition) : definition.Matches log := by
  have hfound := @List.find?_some _ (fun listener : Listener ↦ decide (listener.Matches log))
    definition listeners hdefinition
  exact of_decide_eq_true hfound

/-- A log that matches a listener has a definition. -/
theorem isSome_definitionOf {listeners : List Listener} {log : Log} {listener : Listener}
    (hmem : listener ∈ listeners) (hmatches : listener.Matches log) :
    (definitionOf listeners log).isSome = true :=
  List.find?_isSome.mpr ⟨listener, hmem, decide_eq_true hmatches⟩

/-- The logs that are decoded. -/
def decodedLogs (listeners : List Listener) (logs : List Log) : List Log :=
  (logs.takeWhile (passes decodeEventLog listeners)).filter fun log ↦
    (definitionOf listeners log).isSome

/-- The logs that are given up: the first one that cannot be decoded, and those behind it. -/
def givenUp (listeners : List Listener) (logs : List Log) : List Log :=
  logs.dropWhile (passes decodeEventLog listeners)

/-- The events come from the logs that are decoded. -/
theorem map_log_decodeLogs (listeners : List Listener) (logs : List Log) :
    (decodeLogs decodeEventLog listeners logs).map LogEvent.log =
      decodedLogs decodeEventLog listeners logs := by
  unfold decodedLogs
  induction logs with
  | nil => rfl
  | cons log logs ih =>
    rw [decodeLogs, List.takeWhile_cons, passes]
    cases hdefinition : definitionOf listeners log with
    | none =>
      rw [Option.all_none, if_pos rfl, List.filter_cons_of_neg (by simp [hdefinition])]
      exact ih
    | some definition =>
      rw [Option.all_some, canDecode]
      dsimp only
      cases decodeEventLog definition.definition.contractInterfaceFragment log with
      | none => rfl
      | some args =>
        rw [Option.isSome_some, if_pos rfl, List.filter_cons_of_pos (by rw [hdefinition]; rfl),
          ← ih]
        rfl

/-- The address and the block of an event are those of its log. -/
theorem eq_of_mem_decodeLogs {listeners : List Listener} {logs : List Log}
    {event : LogEvent Args} (hmem : event ∈ decodeLogs decodeEventLog listeners logs) :
    event.contractAddress = event.log.address ∧ event.blockNumber = event.log.blockNumber := by
  induction logs with
  | nil => cases hmem
  | cons log logs ih =>
    rw [decodeLogs] at hmem
    cases hdefinition : definitionOf listeners log with
    | none =>
      rw [hdefinition] at hmem
      exact ih hmem
    | some definition =>
      rw [hdefinition] at hmem
      dsimp only at hmem
      cases hdecode : decodeEventLog definition.definition.contractInterfaceFragment log with
      | none =>
        rw [hdecode] at hmem
        cases hmem
      | some args =>
        rw [hdecode] at hmem
        rcases List.mem_cons.mp hmem with rfl | hmem
        · exact ⟨(matches_of_definitionOf hdefinition).1, rfl⟩
        · exact ih hmem

end Decoding

/-! ### The session -/

/-- `POLLS_SINCE_LAST_FROM_BLOCK_UPDATE_THRESHOLD`. -/
def pollsSinceLastFromBlockUpdateThreshold : ℕ := 30

/-- Where a session is. In a query the first provider is asked, and the others are left for when it
fails; `asked` is how far the provider had seen the chain when it was asked. -/
inductive Phase (Provider Args : Type*)
  | starting
  | queryingBlockNumber (providers : List Provider) (asked : ℕ)
  | waiting
  | queryingHead (providers : List Provider) (asked : ℕ)
  | queryingLogs (providers : List Provider) (filter : LogFilter) (newFromBlock asked : ℕ)
  | dispatching (events remaining : List (LogEvent Args)) (newFromBlock : ℕ)
  | stopped

variable {Provider Args : Type*}

/-- A session of `ChainEventPoller`, with how far each provider has seen the chain. What was
delivered is kept, the first `fromBlock`, and the listeners that were registered in all polls. -/
structure Session (Provider Args : Type*) where
  listeners : List Listener
  registrations : ℕ
  health : ProviderHealth Provider
  heights : Provider → ℕ
  fromBlock : Option ℕ
  pollsSinceFromBlockUpdate : ℕ
  aborted : Bool
  phase : Phase Provider Args
  delivered : List (Listener × LogEvent Args)
  initialFromBlock : Option ℕ
  throughout : List Listener

/-- What happens to a session: listeners come and go, providers see more of the chain, a query
begins, the provider that is asked answers or fails, an event is dispatched, a poll ends. -/
inductive Event (Provider : Type*)
  | on (definition : EventListenerDefinition)
  | off (definition : EventListenerDefinition)
  | see (provider : Provider) (height : ℕ)
  | ask (now : ℤ) (roll : (i : ℕ) → Fin (i + 1))
  | poll (now : ℤ) (roll : (i : ℕ) → Fin (i + 1))
  | blockNumber (number : ℕ)
  | logs (seen : ℕ)
  | failed (err : JsError) (now : ℤ)
  | dispatch
  | pollEnds

namespace Session

/-- `start`, for the first listener. -/
def start (definition : EventListenerDefinition) (health : ProviderHealth Provider)
    (heights : Provider → ℕ) : Session Provider Args where
  listeners := [⟨0, definition⟩]
  registrations := 1
  health := health
  heights := heights
  fromBlock := none
  pollsSinceFromBlockUpdate := 0
  aborted := false
  phase := .starting
  delivered := []
  initialFromBlock := none
  throughout := []

/-- `on`, for a further listener. -/
def on (definition : EventListenerDefinition) (session : Session Provider Args) :
    Session Provider Args :=
  { session with
    listeners := session.listeners ++ [⟨session.registrations, definition⟩]
    registrations := session.registrations + 1 }

/-- A part of a session has ended; an aborted one does not go on. -/
def wait (session : Session Provider Args) : Session Provider Args :=
  { session with phase := if session.aborted then .stopped else .waiting }

/-- `off`. Without listeners the session is aborted, which ends a wait. -/
def off (definition : EventListenerDefinition) (session : Session Provider Args) :
    Session Provider Args :=
  let listeners := session.listeners.filter fun listener ↦ !listener.isOff definition
  { session with
    listeners := listeners
    throughout := session.throughout.filter fun listener ↦ !listener.isOff definition
    aborted := session.aborted || listeners.isEmpty
    phase := match session.phase with
      | .waiting => if listeners.isEmpty then .stopped else .waiting
      | phase => phase }

/-- The query of the first block number goes to the next provider. -/
def queryBlockNumber (providers : List Provider) (session : Session Provider Args) :
    Session Provider Args :=
  match providers with
  | [] => { session with phase := .starting }
  | provider :: _ =>
    { session with phase := .queryingBlockNumber providers (session.heights provider) }

/-- A poll that has no events, since the queries failed. -/
def pollFailed (session : Session Provider Args) : Session Provider Args :=
  wait <|
    if session.aborted then session
    else { session with pollsSinceFromBlockUpdate := session.pollsSinceFromBlockUpdate + 1 }

/-- The filter for the listeners. -/
def filter (session : Session Provider Args) (fromBlock : ℕ) : LogFilter where
  address := (session.listeners.map Listener.contractAddress).eraseDups
  topics := (session.listeners.map Listener.topicHash).eraseDups
  fromBlock := fromBlock

/-- The query of the logs. -/
def queryLogs (provider : Provider) (others : List Provider) (newFromBlock : ℕ)
    (session : Session Provider Args) : Session Provider Args :=
  { session with
    phase := .queryingLogs (provider :: others) (session.filter (session.fromBlock.getD 0))
      newFromBlock (session.heights provider) }

/-- The task of a poll at the next provider. -/
def queryProvider (providers : List Provider) (session : Session Provider Args) :
    Session Provider Args :=
  match providers with
  | [] => session.pollFailed
  | provider :: others =>
    if pollsSinceLastFromBlockUpdateThreshold ≤ session.pollsSinceFromBlockUpdate then
      { session with phase := .queryingHead providers (session.heights provider) }
    else session.queryLogs provider others 0

/-- The greatest block number of some events. -/
def maxBlockNumber (events : List (LogEvent Args)) : ℕ :=
  (events.map LogEvent.blockNumber).foldr max 0

/-- The new `fromBlock` of a poll with some events. -/
def nextFromBlock (events : List (LogEvent Args)) (newFromBlock : ℕ) : ℕ :=
  if events.isEmpty then newFromBlock else maxBlockNumber events + 1

/-- An event is passed to the listeners of its contract and name. -/
def dispatch (event : LogEvent Args) (session : Session Provider Args) :
    Session Provider Args :=
  let listeners := session.listeners.filter fun listener ↦
    listener.contractAddress = event.contractAddress ∧ listener.name = event.name
  { session with
    delivered := session.delivered ++ listeners.map fun listener ↦ (listener, event) }

/-- The end of a poll. -/
def endPoll (events : List (LogEvent Args)) (newFromBlock : ℕ) (session : Session Provider Args) :
    Session Provider Args :=
  wait <|
    if session.fromBlock.getD 0 < nextFromBlock events newFromBlock then
      { session with
        fromBlock := some (nextFromBlock events newFromBlock)
        pollsSinceFromBlockUpdate := 0 }
    else { session with pollsSinceFromBlockUpdate := session.pollsSinceFromBlockUpdate + 1 }

section Step

variable [DecidableEq Provider] (providers : List Provider) (chain : Chain)
  (decodeEventLog : EventFragment → Log → Option Args)

/-- A provider has answered. -/
def recordSuccess (provider : Provider) (session : Session Provider Args) :
    Session Provider Args :=
  { session with health := session.health.recordSuccess provider }

/-- A provider has failed. -/
def recordFailure (provider : Provider) (now : ℤ) (session : Session Provider Args) :
    Session Provider Args :=
  { session with health := session.health.recordFailure provider now }

/-- The answer to a query of the block number: at the start it is the first `fromBlock`, and in a
poll the logs are queried next. -/
def onBlockNumber (number : ℕ) (session : Session Provider Args) :
    Option (Session Provider Args) :=
  match session.phase with
  | .queryingBlockNumber (provider :: _) asked =>
    if asked ≤ number ∧ number ≤ session.heights provider then
      some (wait { session.recordSuccess provider with
        fromBlock := some number
        initialFromBlock := some number
        throughout := session.listeners })
    else none
  | .queryingHead (provider :: others) asked =>
    if asked ≤ number ∧ number ≤ session.heights provider then
      some (if session.aborted then wait (session.recordSuccess provider)
        else session.queryLogs provider others (number + 1))
    else none
  | _ => none

/-- The answer to a query of the logs. -/
def onLogs (seen : ℕ) (session : Session Provider Args) : Option (Session Provider Args) :=
  match session.phase with
  | .queryingLogs (provider :: _) filter newFromBlock asked =>
    if asked ≤ seen ∧ seen ≤ session.heights provider then
      let events := decodeLogs decodeEventLog session.listeners (chain.getLogs filter seen)
      let session := session.recordSuccess provider
      some (if session.aborted then session.wait
        else { session with phase := .dispatching events events newFromBlock })
    else none
  | _ => none

/-- The provider that is asked fails, or its time is over. -/
def onFailed (err : JsError) (now : ℤ) (session : Session Provider Args) :
    Option (Session Provider Args) :=
  match session.phase with
  | .queryingBlockNumber (provider :: others) _ =>
    some (if isProviderFailure err then
        (session.recordFailure provider now).queryBlockNumber others
      else { session.recordSuccess provider with phase := .starting })
  | .queryingHead (provider :: others) _ | .queryingLogs (provider :: others) _ _ _ =>
    some (if isProviderFailure err then (session.recordFailure provider now).queryProvider others
      else (session.recordSuccess provider).pollFailed)
  | _ => none

/-- One event. -/
def step (session : Session Provider Args) :
    Event Provider → Option (Session Provider Args)
  | .on definition => if session.listeners.isEmpty then none else some (session.on definition)
  | .off definition => some (session.off definition)
  | .see provider height =>
    some { session with
      heights := Function.update session.heights provider (max (session.heights provider) height) }
  | .ask now roll =>
    match session.phase with
    | .starting => some (session.queryBlockNumber (session.health.order now roll providers))
    | _ => none
  | .poll now roll =>
    match session.phase with
    | .waiting => some (session.queryProvider (session.health.order now roll providers))
    | _ => none
  | .blockNumber number => session.onBlockNumber number
  | .logs seen => session.onLogs chain decodeEventLog seen
  | .failed err now => session.onFailed err now
  | .dispatch =>
    match session.phase with
    | .dispatching events (event :: remaining) newFromBlock =>
      some { session.dispatch event with phase := .dispatching events remaining newFromBlock }
    | _ => none
  | .pollEnds =>
    match session.phase with
    | .dispatching events [] newFromBlock => some (session.endPoll events newFromBlock)
    | _ => none

/-- The condition for a step to keep the events: when some logs are given up, the ones among them
that match a listener which can decode them are in later blocks than all decoded ones, or without
decoded ones than the block that was queried; and the listeners for the contract and the name of an
event are those for its log. -/
def keepsEvents (session : Session Provider Args) : Event Provider → Bool
  | .logs seen =>
    match session.phase with
    | .queryingLogs _ filter newFromBlock _ =>
      let logs := chain.getLogs filter seen
      let decoded := decodedLogs decodeEventLog session.listeners logs
      decide (∀ log ∈ givenUp decodeEventLog session.listeners logs,
        ∀ listener ∈ session.throughout, listener.Matches log →
          canDecode decodeEventLog listener log = true →
            (∀ earlier ∈ decoded, earlier.blockNumber < log.blockNumber) ∧
              (decoded = [] → newFromBlock ≤ log.blockNumber))
    | _ => true
  | .dispatch =>
    match session.phase with
    | .dispatching _ (event :: _) _ =>
      decide ((∀ listener ∈ session.listeners, listener.contractAddress = event.contractAddress →
          listener.name = event.name → listener.Matches event.log) ∧
        ∀ listener ∈ session.throughout, listener.Matches event.log →
          canDecode decodeEventLog listener event.log = true → listener.name = event.name)
    | _ => true
  | _ => true

end Step

/-! ### What is delivered -/

/-- The events that are still to be dispatched. -/
def pending (session : Session Provider Args) : List (LogEvent Args) :=
  match session.phase with
  | .dispatching _ remaining _ => remaining
  | _ => []

/-- The `fromBlock` behind the events that are still to be dispatched. -/
def cursor (session : Session Provider Args) : ℕ :=
  match session.phase with
  | .dispatching events _ newFromBlock =>
    max (session.fromBlock.getD 0) (nextFromBlock events newFromBlock)
  | _ => session.fromBlock.getD 0

/-- How often a log was passed to a listener. -/
def deliveries (session : Session Provider Args) (listener : Listener) (log : Log) : ℕ :=
  session.delivered.countP fun delivery ↦ delivery.1 = listener ∧ delivery.2.log = log

/-- How many of some events come from a log. -/
def eventsOf (events : List (LogEvent Args)) (log : Log) : ℕ :=
  events.countP fun event ↦ event.log = log

/-- The logs of the blocks before `fromBlock` were passed once to each listener that was registered
throughout, matches them and can decode them; and whatever was passed to a listener matches it. -/
def DeliversOnce (chain : Chain) (decodeEventLog : EventFragment → Log → Option Args)
    (session : Session Provider Args) : Prop :=
  (∀ first fromBlock, session.initialFromBlock = some first → session.fromBlock = some fromBlock →
    ∀ listener ∈ session.throughout, ∀ log ∈ chain.logs log.blockNumber,
      listener.Matches log → canDecode decodeEventLog listener log = true →
      first ≤ log.blockNumber → log.blockNumber < fromBlock →
      session.deliveries listener log = 1) ∧
  ∀ delivery ∈ session.delivered, delivery.1.Matches delivery.2.log

/-! ### Steps without events -/

/-- The session is not between two events. -/
def Undispatching (session : Session Provider Args) : Prop :=
  match session.phase with
  | .dispatching _ _ _ => False
  | _ => True

theorem pending_of_undispatching {session : Session Provider Args}
    (hphase : session.Undispatching) : session.pending = [] := by
  unfold Undispatching at hphase
  unfold pending
  cases hcase : session.phase with
  | dispatching events remaining newFromBlock =>
    rw [hcase] at hphase
    exact hphase.elim
  | _ => rfl

theorem cursor_of_undispatching {session : Session Provider Args}
    (hphase : session.Undispatching) : session.cursor = session.fromBlock.getD 0 := by
  unfold Undispatching at hphase
  unfold cursor
  cases hcase : session.phase with
  | dispatching events remaining newFromBlock =>
    rw [hcase] at hphase
    exact hphase.elim
  | _ => rfl

/-- The phase of a session fits the rest of its state: the filter of a query of logs is for all
blocks from `fromBlock` and for all listeners, and the block number that was queried before is not
greater than what the provider had seen then. -/
def Fits (session : Session Provider Args) : Prop :=
  match session.phase with
  | .starting | .queryingBlockNumber _ _ => session.fromBlock = none
  | .waiting | .queryingHead _ _ => session.fromBlock ≠ none
  | .queryingLogs _ filter newFromBlock asked => session.fromBlock ≠ none ∧
      filter.fromBlock = session.fromBlock.getD 0 ∧ newFromBlock ≤ asked + 1 ∧
      ∀ listener ∈ session.throughout, ∀ log, listener.Matches log → filter.accepts log = true
  | .dispatching _ remaining _ => session.fromBlock ≠ none ∧
      ∀ event ∈ remaining, session.fromBlock.getD 0 ≤ event.log.blockNumber ∧
        event.contractAddress = event.log.address
  | .stopped => True

/-- Nothing has happened between two states but queries. -/
structure Quiet (before after : Session Provider Args) : Prop where
  listeners : after.listeners = before.listeners
  registrations : after.registrations = before.registrations
  fromBlock : after.fromBlock = before.fromBlock
  delivered : after.delivered = before.delivered
  initialFromBlock : after.initialFromBlock = before.initialFromBlock
  throughout : after.throughout = before.throughout
  undispatching : after.Undispatching

/-- The filter of a query accepts what matches a listener. -/
theorem accepts_filter {session : Session Provider Args} {listener : Listener}
    (hmem : listener ∈ session.listeners) {log : Log} (hmatches : listener.Matches log)
    (fromBlock : ℕ) : (session.filter fromBlock).accepts log = true := by
  have haddress : listener.contractAddress ∈ (session.filter fromBlock).address :=
    List.mem_eraseDups.mpr (List.mem_map_of_mem hmem)
  have htopic : listener.topicHash ∈ (session.filter fromBlock).topics :=
    List.mem_eraseDups.mpr (List.mem_map_of_mem hmem)
  rw [LogFilter.accepts, ← hmatches.1, hmatches.2, Option.any_some, Bool.and_eq_true]
  exact ⟨List.contains_iff_mem.mpr haddress, List.contains_iff_mem.mpr htopic⟩

section Queries

variable {session : Session Provider Args}

theorem quiet_wait (session : Session Provider Args) : Quiet session session.wait := by
  refine ⟨rfl, rfl, rfl, rfl, rfl, rfl, ?_⟩
  unfold Undispatching wait
  dsimp only
  split_ifs <;> trivial

theorem fits_wait (hstarted : session.fromBlock ≠ none) : session.wait.Fits := by
  unfold Fits wait
  dsimp only
  split_ifs
  · trivial
  · exact hstarted

theorem quiet_pollFailed (session : Session Provider Args) :
    Quiet session session.pollFailed := by
  unfold pollFailed
  split_ifs
  · exact quiet_wait session
  · exact ⟨rfl, rfl, rfl, rfl, rfl, rfl, (quiet_wait _).undispatching⟩

theorem fits_pollFailed (hstarted : session.fromBlock ≠ none) : session.pollFailed.Fits := by
  unfold pollFailed
  split_ifs
  · exact fits_wait hstarted
  · exact fits_wait hstarted

theorem quiet_queryBlockNumber (providers : List Provider) :
    Quiet session (session.queryBlockNumber providers) := by
  cases providers with
  | nil => exact ⟨rfl, rfl, rfl, rfl, rfl, rfl, trivial⟩
  | cons provider others => exact ⟨rfl, rfl, rfl, rfl, rfl, rfl, trivial⟩

theorem fits_queryBlockNumber (hunstarted : session.fromBlock = none)
    (providers : List Provider) : (session.queryBlockNumber providers).Fits := by
  cases providers with
  | nil => exact hunstarted
  | cons provider others => exact hunstarted

theorem quiet_queryLogs (provider : Provider) (others : List Provider) (newFromBlock : ℕ) :
    Quiet session (session.queryLogs provider others newFromBlock) :=
  ⟨rfl, rfl, rfl, rfl, rfl, rfl, trivial⟩

theorem fits_queryLogs (hstarted : session.fromBlock ≠ none)
    (hthroughout : ∀ listener ∈ session.throughout, listener ∈ session.listeners)
    {provider : Provider} (others : List Provider) {newFromBlock : ℕ}
    (hnew : newFromBlock ≤ session.heights provider + 1) :
    (session.queryLogs provider others newFromBlock).Fits :=
  ⟨hstarted, rfl, hnew, fun listener hmem _ hmatches ↦
    accepts_filter (hthroughout listener hmem) hmatches _⟩

theorem quiet_queryProvider (providers : List Provider) :
    Quiet session (session.queryProvider providers) := by
  cases providers with
  | nil => exact quiet_pollFailed session
  | cons provider others =>
    unfold queryProvider
    dsimp only
    split_ifs
    · exact ⟨rfl, rfl, rfl, rfl, rfl, rfl, trivial⟩
    · exact quiet_queryLogs provider others 0

theorem fits_queryProvider (hstarted : session.fromBlock ≠ none)
    (hthroughout : ∀ listener ∈ session.throughout, listener ∈ session.listeners)
    (providers : List Provider) : (session.queryProvider providers).Fits := by
  cases providers with
  | nil => exact fits_pollFailed hstarted
  | cons provider others =>
    unfold queryProvider
    dsimp only
    split_ifs
    · exact hstarted
    · exact fits_queryLogs hstarted hthroughout others (Nat.zero_le _)

end Queries

/-! ### The invariant -/

section Invariant

variable (chain : Chain) (decodeEventLog : EventFragment → Log → Option Args)

/-- A log of a block before the cursor was passed to a listener once, or is to be; one of a later
block was not. -/
def PassedOnce (session : Session Provider Args) : Prop :=
  ∀ first, session.initialFromBlock = some first → ∀ listener ∈ session.throughout,
    ∀ log ∈ chain.logs log.blockNumber, listener.Matches log → first ≤ log.blockNumber →
    (log.blockNumber < session.cursor → canDecode decodeEventLog listener log = true →
      session.deliveries listener log + eventsOf session.pending log = 1) ∧
    (session.cursor ≤ log.blockNumber →
      session.deliveries listener log + eventsOf session.pending log = 0)

/-- What holds in every state of a session. -/
structure Invariant (session : Session Provider Args) : Prop where
  nodup : session.listeners.Nodup
  numbered : ∀ listener ∈ session.listeners, listener.registration < session.registrations
  throughout : ∀ listener ∈ session.throughout, listener ∈ session.listeners
  unstarted : session.fromBlock = none →
    session.initialFromBlock = none ∧ session.delivered = []
  fits : session.Fits
  passedOnce : PassedOnce chain decodeEventLog session
  matching : ∀ delivery ∈ session.delivered, delivery.1.Matches delivery.2.log

variable {chain decodeEventLog}

/-- Queries keep the invariant. -/
theorem Invariant.of_quiet {before after : Session Provider Args}
    (hinvariant : Invariant chain decodeEventLog before) (hbefore : before.Undispatching)
    (hquiet : Quiet before after) (hfits : after.Fits) :
    Invariant chain decodeEventLog after where
  nodup := hquiet.listeners ▸ hinvariant.nodup
  numbered := by
    rw [hquiet.listeners, hquiet.registrations]
    exact hinvariant.numbered
  throughout := by
    rw [hquiet.listeners, hquiet.throughout]
    exact hinvariant.throughout
  unstarted := by
    rw [hquiet.fromBlock, hquiet.initialFromBlock, hquiet.delivered]
    exact hinvariant.unstarted
  fits := hfits
  passedOnce := by
    have hpassed := hinvariant.passedOnce
    unfold PassedOnce deliveries at hpassed ⊢
    rw [cursor_of_undispatching hbefore, pending_of_undispatching hbefore] at hpassed
    rw [cursor_of_undispatching hquiet.undispatching,
      pending_of_undispatching hquiet.undispatching, hquiet.fromBlock, hquiet.initialFromBlock,
      hquiet.throughout, hquiet.delivered]
    exact hpassed
  matching := by
    rw [hquiet.delivered]
    exact hinvariant.matching

end Invariant

/-! ### Logs become events -/

section Logs

theorem mem_getLogs {chain : Chain} {filter : LogFilter} {seen : ℕ} {log : Log} :
    log ∈ chain.getLogs filter seen ↔ log ∈ chain.logs log.blockNumber ∧
      filter.accepts log = true ∧ filter.fromBlock ≤ log.blockNumber ∧
      log.blockNumber ≤ seen := by
  unfold Chain.getLogs
  simp only [List.mem_flatMap, List.mem_range'_1, List.mem_filter]
  constructor
  · rintro ⟨block, ⟨hfrom, hto⟩, hmem, haccepts⟩
    obtain rfl := chain.blockNumber_eq block log hmem
    exact ⟨hmem, haccepts, hfrom, by omega⟩
  · rintro ⟨hmem, haccepts, hfrom, hto⟩
    exact ⟨log.blockNumber, ⟨hfrom, by omega⟩, hmem, haccepts⟩

theorem nodup_getLogs (chain : Chain) (filter : LogFilter) (seen : ℕ) :
    (chain.getLogs filter seen).Nodup := by
  unfold Chain.getLogs
  rw [List.nodup_flatMap]
  refine ⟨fun block _ ↦ (chain.nodup block).filter _, ?_⟩
  have hblocks := @List.nodup_range' filter.fromBlock (seen + 1 - filter.fromBlock) 1
  refine List.Pairwise.imp (fun {first second} hne log hfirst hsecond ↦ ?_) hblocks
  have hfirst := chain.blockNumber_eq first log (List.mem_of_mem_filter hfirst)
  have hsecond := chain.blockNumber_eq second log (List.mem_of_mem_filter hsecond)
  exact hne (hfirst.symm.trans hsecond)

variable {decodeEventLog : EventFragment → Log → Option Args} {listeners : List Listener}
  {logs : List Log} {log : Log}

theorem eventsOf_eq_count (events : List (LogEvent Args)) (log : Log) :
    eventsOf events log = (events.map LogEvent.log).count log := by
  rw [eventsOf, List.count, List.countP_map]
  exact List.countP_congr fun event _ ↦ by simp

/-- A log that is decoded and has a definition gives one event. -/
theorem eventsOf_decodeLogs (hnodup : logs.Nodup)
    (hmem : log ∈ logs.takeWhile (passes decodeEventLog listeners))
    (hdefinition : (definitionOf listeners log).isSome = true) :
    eventsOf (decodeLogs decodeEventLog listeners logs) log = 1 := by
  rw [eventsOf_eq_count, map_log_decodeLogs]
  refine List.count_eq_one_of_mem ?_ (List.mem_filter.mpr ⟨hmem, hdefinition⟩)
  exact (hnodup.sublist (List.takeWhile_sublist _)).filter _

/-- The events come from logs. -/
theorem log_mem_of_mem_decodeLogs {event : LogEvent Args}
    (hmem : event ∈ decodeLogs decodeEventLog listeners logs) : event.log ∈ logs := by
  have hlog : event.log ∈ (decodeLogs decodeEventLog listeners logs).map LogEvent.log :=
    List.mem_map_of_mem hmem
  rw [map_log_decodeLogs] at hlog
  exact (List.takeWhile_sublist _).mem (List.mem_of_mem_filter hlog)

/-- A log has no events if none comes from it. -/
theorem eventsOf_eq_zero {events : List (LogEvent Args)}
    (hne : ∀ event ∈ events, event.log ≠ log) : eventsOf events log = 0 :=
  List.countP_eq_zero.mpr fun event hmem ↦ by simpa using hne event hmem

theorem lt_nextFromBlock {events : List (LogEvent Args)} {event : LogEvent Args}
    (hmem : event ∈ events) (newFromBlock : ℕ) :
    event.blockNumber < nextFromBlock events newFromBlock := by
  have hle : event.blockNumber ≤ maxBlockNumber events := by
    unfold maxBlockNumber
    induction events with
    | nil => cases hmem
    | cons first events ih =>
      rw [List.map_cons, List.foldr_cons]
      rcases List.mem_cons.mp hmem with rfl | hrest
      · exact le_max_left _ _
      · exact (ih hrest).trans (le_max_right _ _)
  have hne : ¬events.isEmpty = true := fun hempty ↦
    List.not_mem_nil (List.isEmpty_iff.mp hempty ▸ hmem)
  rw [nextFromBlock, if_neg hne]
  exact Nat.lt_succ_of_le hle

/-- The new `fromBlock` is behind one of the events, or is the queried one. -/
theorem nextFromBlock_eq (events : List (LogEvent Args)) (newFromBlock : ℕ) :
    (events = [] ∧ nextFromBlock events newFromBlock = newFromBlock) ∨
      ∃ event ∈ events, nextFromBlock events newFromBlock = event.blockNumber + 1 := by
  have hmax (events : List (LogEvent Args)) (hne : events ≠ []) :
      ∃ event ∈ events, maxBlockNumber events = event.blockNumber := by
    induction events with
    | nil => exact absurd rfl hne
    | cons first events ih =>
      have hcons : maxBlockNumber (first :: events) =
          max first.blockNumber (maxBlockNumber events) := rfl
      cases events with
      | nil => exact ⟨first, List.mem_cons_self, hcons.trans (max_eq_left (Nat.zero_le _))⟩
      | cons second events =>
        obtain ⟨event, hmem, heq⟩ := ih (List.cons_ne_nil _ _)
        rcases max_choice first.blockNumber (maxBlockNumber (second :: events)) with hle | hle
        · exact ⟨first, List.mem_cons_self, hcons.trans hle⟩
        · exact ⟨event, List.mem_cons_of_mem _ hmem, hcons.trans (hle.trans heq)⟩
  cases events with
  | nil => exact Or.inl ⟨rfl, rfl⟩
  | cons first events =>
    obtain ⟨event, hmem, heq⟩ := hmax (first :: events) (List.cons_ne_nil _ _)
    exact Or.inr ⟨event, hmem, congrArg (· + 1) heq⟩

end Logs

/-! ### Steps with events -/

section Steps

variable {chain : Chain} {decodeEventLog : EventFragment → Log → Option Args}
  {session : Session Provider Args}

theorem invariant_start (definition : EventListenerDefinition) (health : ProviderHealth Provider)
    (heights : Provider → ℕ) :
    Invariant chain decodeEventLog (start definition health heights) where
  nodup := List.nodup_singleton _
  numbered listener hmem := by
    obtain rfl := List.mem_singleton.mp hmem
    exact Nat.zero_lt_one
  throughout _ hmem := absurd hmem List.not_mem_nil
  unstarted _ := ⟨rfl, rfl⟩
  fits := rfl
  passedOnce first hfirst := absurd hfirst nofun
  matching _ hmem := absurd hmem List.not_mem_nil

/-- A new listener was not registered before. -/
theorem Invariant.on (hinvariant : Invariant chain decodeEventLog session)
    (definition : EventListenerDefinition) :
    Invariant chain decodeEventLog (session.on definition) where
  nodup := by
    refine List.nodup_append.mpr ⟨hinvariant.nodup, List.nodup_singleton _, ?_⟩
    rintro old hold new hnew rfl
    obtain rfl := List.mem_singleton.mp hnew
    exact Nat.lt_irrefl _ (hinvariant.numbered _ hold)
  numbered listener hmem := by
    rcases List.mem_append.mp hmem with hold | hnew
    · exact (hinvariant.numbered listener hold).trans (Nat.lt_succ_self _)
    · obtain rfl := List.mem_singleton.mp hnew
      exact Nat.lt_succ_self _
  throughout listener hmem := List.mem_append_left _ (hinvariant.throughout listener hmem)
  unstarted := hinvariant.unstarted
  fits := hinvariant.fits
  passedOnce := hinvariant.passedOnce
  matching := hinvariant.matching

theorem pending_off (definition : EventListenerDefinition) :
    (session.off definition).pending = session.pending := by
  unfold pending off
  dsimp only
  cases session.phase with
  | waiting =>
    dsimp only
    split_ifs <;> rfl
  | _ => rfl

theorem cursor_off (definition : EventListenerDefinition) :
    (session.off definition).cursor = session.cursor := by
  unfold cursor off
  dsimp only
  cases session.phase with
  | waiting =>
    dsimp only
    split_ifs <;> rfl
  | _ => rfl

/-- A removed listener was not registered throughout. -/
theorem Invariant.off (hinvariant : Invariant chain decodeEventLog session)
    (definition : EventListenerDefinition) :
    Invariant chain decodeEventLog (session.off definition) where
  nodup := hinvariant.nodup.filter _
  numbered listener hmem := hinvariant.numbered listener (List.mem_of_mem_filter hmem)
  throughout listener hmem := by
    obtain ⟨hold, hkeeps⟩ := List.mem_filter.mp hmem
    exact List.mem_filter.mpr ⟨hinvariant.throughout listener hold, hkeeps⟩
  unstarted := hinvariant.unstarted
  fits := by
    have hfits := hinvariant.fits
    unfold Fits Session.off at *
    dsimp only
    cases hphase : session.phase with
    | waiting =>
      rw [hphase] at hfits
      dsimp only
      split_ifs
      · trivial
      · exact hfits
    | queryingLogs providers filter newFromBlock asked =>
      rw [hphase] at hfits
      obtain ⟨hstarted, hfrom, hnew, haccepts⟩ := hfits
      exact ⟨hstarted, hfrom, hnew, fun listener hmem ↦
        haccepts listener (List.mem_of_mem_filter hmem)⟩
    | _ =>
      rw [hphase] at hfits
      exact hfits
  passedOnce first hfirst listener hmem := by
    rw [cursor_off, pending_off]
    exact hinvariant.passedOnce first hfirst listener (List.mem_of_mem_filter hmem)
  matching := hinvariant.matching

/-- The first block number comes before all deliveries. -/
theorem Invariant.started (hinvariant : Invariant chain decodeEventLog session)
    (hunstarted : session.fromBlock = none) (number : ℕ) :
    Invariant chain decodeEventLog (wait { session with
      fromBlock := some number
      initialFromBlock := some number
      throughout := session.listeners }) where
  nodup := hinvariant.nodup
  numbered := hinvariant.numbered
  throughout _ hmem := hmem
  unstarted hnone := absurd hnone (Option.some_ne_none number)
  fits := fits_wait (Option.some_ne_none number)
  passedOnce := by
    intro first hfirst listener _ log _ _ hle
    obtain rfl : number = first := Option.some.inj hfirst
    have hundispatching := (quiet_wait { session with
      fromBlock := some number
      initialFromBlock := some number
      throughout := session.listeners }).undispatching
    have hnothing : session.deliveries listener log = 0 := by
      rw [deliveries, (hinvariant.unstarted hunstarted).2]
      rfl
    rw [cursor_of_undispatching hundispatching, pending_of_undispatching hundispatching]
    exact ⟨fun hlt ↦ absurd hlt hle.not_gt, fun _ ↦ hnothing⟩
  matching := hinvariant.matching

/-- The events of an answer: none of them is behind the new `fromBlock`, and a log that a listener
can decode has one event, or is not before it. -/
theorem eventsOf_answer {listener : Listener} (hlistener : listener ∈ session.listeners)
    {filter : LogFilter} {newFromBlock seen : ℕ} (hnew : newFromBlock ≤ seen + 1)
    (haccepts : ∀ log, listener.Matches log → filter.accepts log = true)
    (hgivenUp : ∀ log ∈ givenUp decodeEventLog session.listeners (chain.getLogs filter seen),
      listener.Matches log → canDecode decodeEventLog listener log = true →
        (∀ earlier ∈ decodedLogs decodeEventLog session.listeners (chain.getLogs filter seen),
          earlier.blockNumber < log.blockNumber) ∧
        (decodedLogs decodeEventLog session.listeners (chain.getLogs filter seen) = [] →
          newFromBlock ≤ log.blockNumber))
    {log : Log} (hlog : log ∈ chain.logs log.blockNumber) (hmatches : listener.Matches log)
    (hfrom : filter.fromBlock ≤ log.blockNumber)
    (hcan : canDecode decodeEventLog listener log = true)
    (hlt : log.blockNumber < nextFromBlock
      (decodeLogs decodeEventLog session.listeners (chain.getLogs filter seen)) newFromBlock) :
    eventsOf (decodeLogs decodeEventLog session.listeners (chain.getLogs filter seen)) log = 1 := by
  have hnext := nextFromBlock_eq
    (decodeLogs decodeEventLog session.listeners (chain.getLogs filter seen)) newFromBlock
  have hseen : log.blockNumber ≤ seen := by
    rcases hnext with ⟨-, heq⟩ | ⟨event, hevent, heq⟩
    · omega
    · have hblock := (mem_getLogs.mp (log_mem_of_mem_decodeLogs hevent)).2.2.2
      have hsame := (eq_of_mem_decodeLogs decodeEventLog hevent).2
      omega
  have hanswered : log ∈ chain.getLogs filter seen :=
    mem_getLogs.mpr ⟨hlog, haccepts log hmatches, hfrom, hseen⟩
  have hsplit := @List.takeWhile_append_dropWhile _ (passes decodeEventLog session.listeners)
    (chain.getLogs filter seen)
  rw [← hsplit] at hanswered
  rcases List.mem_append.mp hanswered with hdecoded | hrest
  · exact eventsOf_decodeLogs (nodup_getLogs chain filter seen) hdecoded
      (isSome_definitionOf hlistener hmatches)
  · -- a log that was given up is not before the new `fromBlock`
    obtain ⟨hlater, hqueried⟩ := hgivenUp log hrest hmatches hcan
    rw [← map_log_decodeLogs] at hlater hqueried
    rcases hnext with ⟨hempty, heq⟩ | ⟨event, hevent, heq⟩
    · have hle := hqueried (List.map_eq_nil_iff.mpr hempty)
      omega
    · have hearlier := hlater event.log (List.mem_map_of_mem hevent)
      have hsame := (eq_of_mem_decodeLogs decodeEventLog hevent).2
      omega

/-- The logs of an answer become the events that are to be dispatched. -/
theorem Invariant.answered (hinvariant : Invariant chain decodeEventLog session)
    {providers : List Provider} {filter : LogFilter} {newFromBlock asked seen : ℕ}
    (hphase : session.phase = .queryingLogs providers filter newFromBlock asked)
    (hseen : asked ≤ seen)
    (hkeeps : session.keepsEvents chain decodeEventLog (.logs seen : Event Provider) = true)
    (health : ProviderHealth Provider) :
    Invariant chain decodeEventLog { session with
      health := health
      phase := .dispatching
        (decodeLogs decodeEventLog session.listeners (chain.getLogs filter seen))
        (decodeLogs decodeEventLog session.listeners (chain.getLogs filter seen))
        newFromBlock } := by
  have hfits := hinvariant.fits
  rw [Fits, hphase] at hfits
  obtain ⟨hstarted, hfrom, hnew, haccepts⟩ := hfits
  have hundispatching : session.Undispatching := by
    rw [Undispatching, hphase]
    trivial
  rw [keepsEvents, hphase] at hkeeps
  have hgivenUp := of_decide_eq_true hkeeps
  refine ⟨hinvariant.nodup, hinvariant.numbered, hinvariant.throughout, hinvariant.unstarted,
    ⟨hstarted, ?_⟩, ?_, hinvariant.matching⟩
  · intro event hevent
    obtain ⟨haddress, -⟩ := eq_of_mem_decodeLogs decodeEventLog hevent
    exact ⟨hfrom ▸ (mem_getLogs.mp (log_mem_of_mem_decodeLogs hevent)).2.2.1, haddress⟩
  · intro first hfirst listener hlistener log hlog hmatches hle
    have hbefore := hinvariant.passedOnce first hfirst listener hlistener log hlog hmatches hle
    rw [cursor_of_undispatching hundispatching, pending_of_undispatching hundispatching] at hbefore
    obtain ⟨hpassed, hnot⟩ := hbefore
    have hevents : ∀ event ∈ decodeLogs decodeEventLog session.listeners
        (chain.getLogs filter seen), event.log = log →
          filter.fromBlock ≤ log.blockNumber ∧ log.blockNumber < nextFromBlock (decodeLogs
            decodeEventLog session.listeners (chain.getLogs filter seen)) newFromBlock := by
      rintro event hevent rfl
      have hlt := lt_nextFromBlock hevent newFromBlock
      rw [(eq_of_mem_decodeLogs decodeEventLog hevent).2] at hlt
      exact ⟨(mem_getLogs.mp (log_mem_of_mem_decodeLogs hevent)).2.2.1, hlt⟩
    change (_ < max _ _ → _ → session.deliveries listener log + eventsOf (decodeLogs decodeEventLog
      session.listeners (chain.getLogs filter seen)) log = 1) ∧ (max _ _ ≤ _ →
        session.deliveries listener log + eventsOf (decodeLogs decodeEventLog session.listeners
          (chain.getLogs filter seen)) log = 0)
    rw [← hfrom] at hpassed hnot ⊢
    rcases Nat.lt_or_ge log.blockNumber filter.fromBlock with hlt | hge
    · have hnone : eventsOf (decodeLogs decodeEventLog session.listeners
          (chain.getLogs filter seen)) log = 0 :=
        eventsOf_eq_zero fun event hevent heq ↦
          absurd (hevents event hevent heq).1 hlt.not_ge
      rw [hnone]
      exact ⟨fun _ ↦ hpassed hlt, fun hmax ↦ absurd ((le_max_left _ _).trans hmax) hlt.not_ge⟩
    · have hzero : session.deliveries listener log = 0 := hnot hge
      rw [hzero, Nat.zero_add]
      constructor
      · intro hlt hcan
        exact eventsOf_answer (hinvariant.throughout listener hlistener) (by omega)
          (haccepts listener hlistener)
          (fun log hmem ↦ hgivenUp log hmem listener hlistener) hlog hmatches hge hcan
          ((lt_max_iff.mp hlt).resolve_left hge.not_gt)
      · intro hmax
        exact eventsOf_eq_zero fun event hevent heq ↦
          absurd (hevents event hevent heq).2 ((le_max_right _ _).trans hmax).not_gt

/-- A dispatched event is passed once to each listener of its contract and name. -/
theorem deliveries_dispatch (hnodup : session.listeners.Nodup) (event : LogEvent Args)
    (listener : Listener) (log : Log) :
    (session.dispatch event).deliveries listener log = session.deliveries listener log +
      if event.log = log ∧ listener ∈ session.listeners ∧
        listener.contractAddress = event.contractAddress ∧ listener.name = event.name then 1
      else 0 := by
  unfold deliveries dispatch
  rw [List.countP_append, List.countP_map, Nat.add_left_cancel_iff]
  by_cases hlog : event.log = log
  · have hcount : (session.listeners.filter fun listener ↦
        listener.contractAddress = event.contractAddress ∧ listener.name = event.name).count
          listener = _ := (hnodup.filter _).count
    rw [List.count] at hcount
    simp only [hlog, true_and, List.mem_filter, decide_eq_true_eq] at hcount ⊢
    rw [← hcount]
    exact List.countP_congr fun other _ ↦ by simp [hlog]
  · rw [if_neg fun hand ↦ hlog hand.1]
    exact List.countP_eq_zero.mpr fun other _ ↦ by simp [hlog]

theorem eventsOf_cons (event : LogEvent Args) (events : List (LogEvent Args)) (log : Log) :
    eventsOf (event :: events) log = eventsOf events log + if event.log = log then 1 else 0 := by
  unfold eventsOf
  rw [List.countP_cons]
  simp

/-- An event that is dispatched is no longer to be. -/
theorem Invariant.dispatched (hinvariant : Invariant chain decodeEventLog session)
    {events remaining : List (LogEvent Args)} {event : LogEvent Args} {newFromBlock : ℕ}
    (hphase : session.phase = .dispatching events (event :: remaining) newFromBlock)
    (hkeeps : session.keepsEvents chain decodeEventLog (.dispatch : Event Provider) = true) :
    Invariant chain decodeEventLog
      { session.dispatch event with phase := .dispatching events remaining newFromBlock } := by
  have hfits := hinvariant.fits
  rw [Fits, hphase] at hfits
  obtain ⟨hstarted, hevents⟩ := hfits
  rw [keepsEvents, hphase] at hkeeps
  obtain ⟨hothers, hnamed⟩ := of_decide_eq_true hkeeps
  refine ⟨hinvariant.nodup, hinvariant.numbered, hinvariant.throughout, ?_,
    ⟨hstarted, fun other hother ↦ hevents other (List.mem_cons_of_mem _ hother)⟩, ?_, ?_⟩
  · exact fun hnone ↦ absurd hnone hstarted
  · intro first hfirst listener hlistener log hlog hmatches hle
    have hbefore := hinvariant.passedOnce first hfirst listener hlistener log hlog hmatches hle
    rw [cursor, pending, hphase] at hbefore
    dsimp only at hbefore
    rw [eventsOf_cons] at hbefore
    have hdeliveries := deliveries_dispatch hinvariant.nodup event listener log
    change (_ < max _ _ → _ → (session.dispatch event).deliveries listener log +
      eventsOf remaining log = 1) ∧ (max _ _ ≤ _ →
        (session.dispatch event).deliveries listener log + eventsOf remaining log = 0)
    obtain ⟨hpassed, hnot⟩ := hbefore
    by_cases heq : event.log = log
    · subst heq
      rw [if_pos rfl] at hpassed hnot
      refine ⟨fun hlt hcan ↦ ?_, fun hge ↦ absurd (hnot hge) (by omega)⟩
      have haddress : listener.contractAddress = event.contractAddress :=
        hmatches.1.trans (hevents event List.mem_cons_self).2.symm
      have hone := hpassed hlt hcan
      rw [if_pos ⟨rfl, hinvariant.throughout listener hlistener, haddress,
        hnamed listener hlistener hmatches hcan⟩] at hdeliveries
      omega
    · rw [if_neg heq] at hpassed hnot
      rw [if_neg fun hand ↦ heq hand.1] at hdeliveries
      rw [hdeliveries]
      exact ⟨hpassed, hnot⟩
  · intro delivery hdelivery
    rcases List.mem_append.mp hdelivery with hold | hnew
    · exact hinvariant.matching delivery hold
    · obtain ⟨listener, hlistener, rfl⟩ := List.mem_map.mp hnew
      obtain ⟨hmem, hsame⟩ := List.mem_filter.mp hlistener
      obtain ⟨haddress, hname⟩ := of_decide_eq_true hsame
      exact hothers listener hmem haddress hname

/-- At the end of a poll `fromBlock` has come to the cursor. -/
theorem Invariant.pollEnded (hinvariant : Invariant chain decodeEventLog session)
    {events : List (LogEvent Args)} {newFromBlock : ℕ}
    (hphase : session.phase = .dispatching events [] newFromBlock) :
    Invariant chain decodeEventLog (session.endPoll events newFromBlock) := by
  have hfits := hinvariant.fits
  rw [Fits, hphase] at hfits
  obtain ⟨hstarted, -⟩ := hfits
  have hended : (session.endPoll events newFromBlock).fromBlock ≠ none ∧
      (session.endPoll events newFromBlock).fromBlock.getD 0 =
        max (session.fromBlock.getD 0) (nextFromBlock events newFromBlock) := by
    unfold endPoll wait
    dsimp only
    split_ifs with hlt
    · exact ⟨Option.some_ne_none _, (max_eq_right hlt.le).symm⟩
    · exact ⟨hstarted, (max_eq_left (not_lt.mp hlt)).symm⟩
  have hundispatching : (session.endPoll events newFromBlock).Undispatching := by
    unfold endPoll
    exact (quiet_wait _).undispatching
  have hframe : (session.endPoll events newFromBlock).listeners = session.listeners ∧
      (session.endPoll events newFromBlock).registrations = session.registrations ∧
      (session.endPoll events newFromBlock).throughout = session.throughout ∧
      (session.endPoll events newFromBlock).initialFromBlock = session.initialFromBlock ∧
      (session.endPoll events newFromBlock).delivered = session.delivered := by
    unfold endPoll
    split_ifs <;> exact ⟨rfl, rfl, rfl, rfl, rfl⟩
  obtain ⟨hlisteners, hregistrations, hthroughout, hinitial, hdelivered⟩ := hframe
  refine ⟨hlisteners ▸ hinvariant.nodup, ?_, ?_, fun hnone ↦ absurd hnone hended.1, ?_, ?_, ?_⟩
  · rw [hlisteners, hregistrations]
    exact hinvariant.numbered
  · rw [hlisteners, hthroughout]
    exact hinvariant.throughout
  · have hwait (session : Session Provider Args) (hstarted : session.wait.fromBlock ≠ none) :
        session.wait.Fits := fits_wait hstarted
    exact hwait _ hended.1
  · have hpassed := hinvariant.passedOnce
    unfold PassedOnce deliveries at hpassed ⊢
    rw [cursor, pending, hphase] at hpassed
    rw [cursor_of_undispatching hundispatching, pending_of_undispatching hundispatching, hended.2,
      hinitial, hthroughout, hdelivered]
    exact hpassed
  · rw [hdelivered]
    exact hinvariant.matching

variable [DecidableEq Provider] {providers : List Provider}

/-- A verdict on a provider changes nothing else. -/
theorem Invariant.recordSuccess (hinvariant : Invariant chain decodeEventLog session)
    (provider : Provider) : Invariant chain decodeEventLog (session.recordSuccess provider) :=
  ⟨hinvariant.nodup, hinvariant.numbered, hinvariant.throughout, hinvariant.unstarted,
    hinvariant.fits, hinvariant.passedOnce, hinvariant.matching⟩

theorem Invariant.recordFailure (hinvariant : Invariant chain decodeEventLog session)
    (provider : Provider) (now : ℤ) :
    Invariant chain decodeEventLog (session.recordFailure provider now) :=
  ⟨hinvariant.nodup, hinvariant.numbered, hinvariant.throughout, hinvariant.unstarted,
    hinvariant.fits, hinvariant.passedOnce, hinvariant.matching⟩

/-- Every step that keeps the events keeps the invariant. -/
theorem Invariant.step (hinvariant : Invariant chain decodeEventLog session)
    {event : Event Provider} (hkeeps : session.keepsEvents chain decodeEventLog event = true)
    {after : Session Provider Args}
    (hstep : session.step providers chain decodeEventLog event = some after) :
    Invariant chain decodeEventLog after := by
  have hfits := hinvariant.fits
  have hundispatching (hphase : ∀ events remaining newFromBlock,
      session.phase ≠ .dispatching events remaining newFromBlock) : session.Undispatching := by
    unfold Undispatching
    split
    · exact hphase _ _ _ ‹_›
    · trivial
  unfold Fits at hfits
  cases event with
  | on definition =>
    simp only [Session.step, Option.ite_none_left_eq_some, Option.some.injEq] at hstep
    exact hstep.2 ▸ hinvariant.on definition
  | off definition =>
    obtain rfl := Option.some.inj hstep
    exact hinvariant.off definition
  | see provider height =>
    obtain rfl := Option.some.inj hstep
    exact ⟨hinvariant.nodup, hinvariant.numbered, hinvariant.throughout, hinvariant.unstarted,
      hinvariant.fits, hinvariant.passedOnce, hinvariant.matching⟩
  | ask now roll =>
    rw [Session.step] at hstep
    split at hstep
    next hphase =>
      rw [hphase] at hfits hundispatching
      obtain rfl := Option.some.inj hstep
      exact hinvariant.of_quiet (hundispatching nofun) (quiet_queryBlockNumber _)
        (fits_queryBlockNumber hfits _)
    next => cases hstep
  | poll now roll =>
    rw [Session.step] at hstep
    split at hstep
    next hphase =>
      rw [hphase] at hfits hundispatching
      obtain rfl := Option.some.inj hstep
      exact hinvariant.of_quiet (hundispatching nofun) (quiet_queryProvider _)
        (fits_queryProvider hfits hinvariant.throughout _)
    next => cases hstep
  | blockNumber number =>
    rw [Session.step, onBlockNumber] at hstep
    split at hstep
    next provider others asked hphase =>
      rw [hphase] at hfits
      simp only [Option.ite_none_right_eq_some, Option.some.injEq] at hstep
      obtain ⟨-, rfl⟩ := hstep
      exact (hinvariant.recordSuccess provider).started hfits number
    next provider others asked hphase =>
      rw [hphase] at hfits hundispatching
      simp only [Option.ite_none_right_eq_some, Option.some.injEq] at hstep
      obtain ⟨⟨-, hheight⟩, rfl⟩ := hstep
      split_ifs
      · exact (hinvariant.recordSuccess provider).of_quiet (hundispatching nofun) (quiet_wait _)
          (fits_wait hfits)
      · exact hinvariant.of_quiet (hundispatching nofun) (quiet_queryLogs provider others _)
          (fits_queryLogs hfits hinvariant.throughout others (Nat.succ_le_succ hheight))
    next => cases hstep
  | logs seen =>
    rw [Session.step, onLogs] at hstep
    split at hstep
    next provider others filter newFromBlock asked hphase =>
      simp only [Option.ite_none_right_eq_some, Option.some.injEq] at hstep
      obtain ⟨⟨hseen, -⟩, rfl⟩ := hstep
      split_ifs
      · rw [hphase] at hfits hundispatching
        exact (hinvariant.recordSuccess provider).of_quiet (hundispatching nofun) (quiet_wait _)
          (fits_wait hfits.1)
      · exact hinvariant.answered hphase hseen hkeeps _
    next => cases hstep
  | failed err now =>
    rw [Session.step, onFailed] at hstep
    split at hstep
    next provider others asked hphase =>
      rw [hphase] at hfits hundispatching
      obtain rfl := Option.some.inj hstep
      split_ifs
      · exact (hinvariant.recordFailure provider now).of_quiet (hundispatching nofun)
          (quiet_queryBlockNumber _)
          (@fits_queryBlockNumber _ _ (session.recordFailure provider now) hfits others)
      · exact hinvariant.of_quiet (hundispatching nofun)
          ⟨rfl, rfl, rfl, rfl, rfl, rfl, trivial⟩ hfits
    next provider others asked hphase =>
      rw [hphase] at hfits hundispatching
      obtain rfl := Option.some.inj hstep
      split_ifs
      · exact (hinvariant.recordFailure provider now).of_quiet (hundispatching nofun)
          (quiet_queryProvider _) (@fits_queryProvider _ _ (session.recordFailure provider now)
            hfits hinvariant.throughout others)
      · exact (hinvariant.recordSuccess provider).of_quiet (hundispatching nofun)
          (quiet_pollFailed _) (fits_pollFailed hfits)
    next provider others filter newFromBlock asked hphase =>
      rw [hphase] at hfits hundispatching
      obtain rfl := Option.some.inj hstep
      split_ifs
      · exact (hinvariant.recordFailure provider now).of_quiet (hundispatching nofun)
          (quiet_queryProvider _) (@fits_queryProvider _ _ (session.recordFailure provider now)
            hfits.1 hinvariant.throughout others)
      · exact (hinvariant.recordSuccess provider).of_quiet (hundispatching nofun)
          (quiet_pollFailed _) (fits_pollFailed hfits.1)
    next => cases hstep
  | dispatch =>
    rw [Session.step] at hstep
    split at hstep
    next events event remaining newFromBlock hphase =>
      obtain rfl := Option.some.inj hstep
      exact hinvariant.dispatched hphase hkeeps
    next => cases hstep
  | pollEnds =>
    rw [Session.step] at hstep
    split at hstep
    next events newFromBlock hphase =>
      obtain rfl := Option.some.inj hstep
      exact hinvariant.pollEnded hphase
    next => cases hstep

end Steps

/-! ### Runs -/

section Runs

variable {chain : Chain} {decodeEventLog : EventFragment → Log → Option Args}

theorem deliversOnce_of_invariant {session : Session Provider Args}
    (hinvariant : Invariant chain decodeEventLog session) :
    DeliversOnce chain decodeEventLog session := by
  refine ⟨?_, hinvariant.matching⟩
  intro first fromBlock hfirst hfrom listener hlistener log hlog hmatches hcan hle hlt
  have hpassed := (hinvariant.passedOnce first hfirst listener hlistener log hlog hmatches hle).1
  have hfits := hinvariant.fits
  rw [Fits] at hfits
  rw [cursor, pending, hfrom, Option.getD_some] at hpassed
  cases hphase : session.phase with
  | dispatching events remaining newFromBlock =>
    rw [hphase] at hfits hpassed
    -- the events that are to be dispatched are not before `fromBlock`
    have hnone : eventsOf remaining log = 0 := eventsOf_eq_zero fun event hevent heq ↦ by
      have hge := (hfits.2 event hevent).1
      rw [heq, hfrom, Option.getD_some] at hge
      omega
    have hone := hpassed (hlt.trans_le (le_max_left _ _)) hcan
    rwa [hnone, Nat.add_zero] at hone
  | _ =>
    rw [hphase] at hpassed
    exact hpassed hlt hcan

variable [DecidableEq Provider] {providers : List Provider}

/-- In every session whose steps keep the events, each log before `fromBlock` was passed once to
each listener that can decode it, and nothing to a listener that does not match it. -/
theorem deliversOnce_of_reachable {session : Session Provider Args}
    (hreachable : Transition.Reachable (step providers chain decodeEventLog)
      (fun session event ↦ session.keepsEvents chain decodeEventLog event = true)
      (fun session ↦ ∃ definition health heights, session = start definition health heights)
      session) : DeliversOnce chain decodeEventLog session := by
  refine deliversOnce_of_invariant (hreachable.invariant ?_ ?_)
  · rintro session ⟨definition, health, heights, rfl⟩
    exact invariant_start definition health heights
  · intro session event after _ hinvariant hkeeps hstep
    exact hinvariant.step hkeeps hstep

end Runs

/-! ### Three sessions -/

/-- The definition of a listener for an event with one name and a given topic hash. -/
def transferTo (topicHash : String) : EventListenerDefinition :=
  ⟨0, ⟨"Transfer", topicHash, "event Transfer(" ++ topicHash ++ ")"⟩, "0xaa"⟩

/-- A log of block 5; it can be decoded if it has data. -/
def transferLog (logIndex : ℕ) (data : List UInt8) : Log :=
  ⟨5, logIndex, "0xaa", ["uint256"], data⟩

/-- The decoding of logs with data. -/
def decodeData (_ : EventFragment) (log : Log) : Option (List UInt8) :=
  if log.data = [] then none else some log.data

/-- A chain with some logs in block 5. -/
def oneBlock (data : List (List UInt8)) : Chain where
  logs block := if block = 5 then data.mapIdx transferLog else []
  blockNumber_eq block log hmem := by
    split_ifs at hmem with hblock
    · obtain ⟨index, hindex, rfl⟩ := List.mem_mapIdx.mp hmem
      exact hblock.symm
    · cases hmem
  nodup block := by
    split_ifs
    · refine List.nodup_iff_injective_getElem.mpr fun first second hsame ↦ Fin.ext ?_
      dsimp only at hsame
      rw [List.getElem_mapIdx, List.getElem_mapIdx] at hsame
      exact congrArg Log.logIndex hsame
    · exact List.nodup_nil

/-- Two providers that have seen block 5, and a listener for a topic that the logs have. -/
def sampleStart : Session Bool (List UInt8) :=
  start (transferTo "uint256") (.create [false, true]) fun _ ↦ 5

/-- A query begins, at the clock value 0. -/
def first (i : ℕ) : Fin (i + 1) := 0

/-- The first provider fails, and the second one answers: both logs are passed to the listener. -/
theorem delivered_after_failover :
    ∃ session : Session Bool (List UInt8),
      DeliversOnce (oneBlock [[1], [2]]) decodeData session ∧ session.fromBlock = some 6 ∧
      session.delivered.map (fun delivery ↦ delivery.2.log) =
        [transferLog 0 [1], transferLog 1 [2]] := by
  have hrun : (Transition.checkedRun (step [false, true] (oneBlock [[1], [2]]) decodeData)
      (keepsEvents (oneBlock [[1], [2]]) decodeData) sampleStart
      [.ask 0 first, .blockNumber 5, .poll 0 first,
        .failed ⟨some "SERVER_ERROR", "server response 529"⟩ 0, .logs 5, .dispatch, .dispatch,
        .pollEnds]).any (fun session ↦ decide (session.fromBlock = some 6 ∧
      session.delivered.map (fun delivery ↦ delivery.2.log) =
        [transferLog 0 [1], transferLog 1 [2]])) = true := by
    decide +kernel
  obtain ⟨session, hsession, hfacts⟩ := (Option.any_eq_true _ _).mp hrun
  have hreachable : Transition.Reachable (step [false, true] (oneBlock [[1], [2]]) decodeData)
      (fun session event ↦
        session.keepsEvents (oneBlock [[1], [2]]) decodeData event = true)
      (fun session ↦ ∃ definition health heights, session = start definition health heights)
      session :=
    .of_checkedRun _ (fun _ _ hcheck ↦ hcheck) (.start ⟨_, _, _, rfl⟩) hsession
  exact ⟨session, deliversOnce_of_reachable hreachable, of_decide_eq_true hfacts⟩

/-- The second one of three logs cannot be decoded: the third one is never passed to the listener.
And a log is passed to a listener for another event of its name. -/
theorem lost_and_misdirected :
    (∃ session : Session Bool (List UInt8),
      Transition.Reachable (step [false, true] (oneBlock [[1], [], [3]]) decodeData)
        (fun _ _ ↦ True) (· = sampleStart) session ∧
      session.fromBlock = some 6 ∧
      session.deliveries ⟨0, transferTo "uint256"⟩ (transferLog 2 [3]) = 0 ∧
      ¬DeliversOnce (oneBlock [[1], [], [3]]) decodeData session) ∧
    ∃ session : Session Bool (List UInt8),
      Transition.Reachable (step [false, true] (oneBlock [[1]]) decodeData)
        (fun _ _ ↦ True) (· = sampleStart) session ∧
      session.deliveries ⟨1, transferTo "uint8"⟩ (transferLog 0 [1]) = 1 ∧
      ¬DeliversOnce (oneBlock [[1]]) decodeData session := by
  constructor
  · have hrun : (Transition.run (step [false, true] (oneBlock [[1], [], [3]]) decodeData)
        sampleStart [.ask 0 first, .blockNumber 5, .poll 0 first, .logs 5, .dispatch,
          .pollEnds]).any (fun session ↦ decide (session.fromBlock = some 6 ∧
        session.deliveries ⟨0, transferTo "uint256"⟩ (transferLog 2 [3]) = 0 ∧
        session.initialFromBlock = some 5 ∧
        session.throughout = [⟨0, transferTo "uint256"⟩])) = true := by
      decide +kernel
    obtain ⟨session, hsession, hfacts⟩ := (Option.any_eq_true _ _).mp hrun
    obtain ⟨hfrom, hnone, hinitial, hthroughout⟩ := of_decide_eq_true hfacts
    refine ⟨session, .of_run _ (fun _ _ _ ↦ trivial) (.start rfl) hsession, hfrom, hnone,
      fun hdelivers ↦ ?_⟩
    have hone := hdelivers.1 5 6 hinitial hfrom ⟨0, transferTo "uint256"⟩
      (hthroughout ▸ List.mem_singleton_self _) (transferLog 2 [3]) (by decide) (by decide)
      (by decide) (by decide) (by decide)
    exact absurd (hnone.symm.trans hone) (by decide)
  · have hrun : (Transition.run (step [false, true] (oneBlock [[1]]) decodeData) sampleStart
        [.on (transferTo "uint8"), .ask 0 first, .blockNumber 5, .poll 0 first, .logs 5,
          .dispatch]).any (fun session ↦ decide (
        session.deliveries ⟨1, transferTo "uint8"⟩ (transferLog 0 [1]) = 1 ∧
        ∃ delivery ∈ session.delivered, ¬delivery.1.Matches delivery.2.log)) = true := by
      decide +kernel
    obtain ⟨session, hsession, hfacts⟩ := (Option.any_eq_true _ _).mp hrun
    obtain ⟨hone, delivery, hmem, hnot⟩ := of_decide_eq_true hfacts
    exact ⟨session, .of_run _ (fun _ _ _ ↦ trivial) (.start rfl) hsession, hone,
      fun hdelivers ↦ hnot (hdelivers.2 delivery hmem)⟩

end Session

end PomboStorageNode.Sdk.ChainEventPoller
