import PomboStorageNode.Sdk.SubscriberKeyExchange

/-!
# Fetching group keys

`GroupKeyManager.fetchKey` looks for a key in the store, requests it from its publisher if it is not
there, and then waits until a key with the wanted id is stored. Responses may be handled, and keys
stored, while it does so, and other calls are in progress. The request becomes pending only behind
its broadcast, the listener is set up behind that, and the event it waits for has the id of the key
but not the publisher.

A call therefore may miss a key. `notLossy_of_reachable` is about runs in which every call that
begins to listen finds its key missing, or the event of the key still to come, in which valid
responses find the request pending, and in which no event for a listening call belongs to another
publisher. `missed_key` shows runs in which a key is missed.
-/

set_option autoImplicit false

namespace PomboStorageNode.Sdk.GroupKeyManager

open Library StreamMessages
open MessageFactory (EncryptedGroupKey)
open SubscriberKeyExchange (Subscriber Response Handler StoredKey isAddressedToMe validates decrypt
  decryptsAll)

/-! ### Calls -/

/-- `UserID`: the text of an id, which has no colon. -/
abbrev UserID := {text : String // ':' ∉ text.toList}

/-- Where a call of `fetchKey` is: it awaits the store, the broadcast of its request, or the return
of `requestGroupKey` for a request that is sent or pending; it waits for the event, or the event has
occurred. A call that is over has timed out, was rejected otherwise, or has returned the key it
found; beside it are the data that were stored then. -/
inductive Phase
  | checking
  | requesting
  | broadcast (requestId : String)
  | requested (requestId : String)
  | listening (requestId : String)
  | woken
  | timedOut
  | rejected
  | returned (result : Option GroupKey) (stored : Option (List UInt8))
  deriving DecidableEq

/-- A call of `fetchKey`. Further, whether its key was stored since it began and before it was over,
and whether a valid response to its request arrived in that time. -/
structure Call where
  keyId : String
  publisherId : UserID
  phase : Phase
  stored : Bool
  answered : Bool
  deriving DecidableEq

namespace Call

/-- The call is not over. -/
def isOpen (call : Call) : Bool :=
  match call.phase with
  | .checking | .requesting | .broadcast _ | .requested _ | .listening _ | .woken => true
  | .timedOut | .rejected | .returned .. => false

/-- The request that was sent, until the call is woken. -/
def request? (call : Call) : Option String :=
  match call.phase with
  | .broadcast requestId | .requested requestId | .listening requestId => some requestId
  | .checking | .requesting | .woken | .timedOut | .rejected | .returned .. => none

/-- A key is stored under an id and a publisher. -/
def noteStored (keyId publisherId : String) (call : Call) : Call :=
  if call.isOpen = true ∧ call.keyId = keyId ∧ call.publisherId.val = publisherId then
    { call with stored := true }
  else call

/-- The listener of `waitForEvent`. -/
def wake (keyId : String) (call : Call) : Call :=
  match call.phase with
  | .listening _ => if call.keyId = keyId then { call with phase := .woken } else call
  | .checking | .requesting | .broadcast _ | .requested _ | .woken | .timedOut | .rejected
  | .returned .. => call

end Call

/-- A valid response with the key that a call waits for. -/
def isAnswer (subscriber : Subscriber) (response : Response) (content : GroupKeyResponse)
    (call : Call) : Bool :=
  isAddressedToMe subscriber response content && validates subscriber response &&
    decryptsAll subscriber content && decide (response.publisherId = call.publisherId.val) &&
    content.groupKeys.any fun key ↦ decide (key.id = call.keyId)

/-- A valid response to the request of a call. -/
def isAnswerTo (subscriber : Subscriber) (response : Response) (call : Call) : Bool :=
  decide (response.message.val.messageType = .groupKeyResponse) &&
    decide (response.message.val.messageId.streamPartition < 100) &&
    match subscriber.codec.responseFromBinary response.message.val.content with
    | some content => decide (call.request? = some content.requestId) &&
      isAnswer subscriber response content call
    | none => false

/-- A response arrives. -/
def Call.noteResponse (subscriber : Subscriber) (response : Response) (call : Call) : Call :=
  if isAnswerTo subscriber response call then { call with answered := true } else call

/-! ### The system -/

/-- The key exchange with the store, the ids of the keys that were stored and whose events are still
to be emitted, and the calls. -/
structure State where
  exchange : SubscriberKeyExchange.State
  emissions : List String
  calls : OrderedMap ℕ Call

/-- What happens: a call begins, learns what the store has, has its request broadcast, then pending,
or fails in between, begins to listen, times out, is aborted, or returns behind the event; an event
is emitted; a key is stored by someone else; or the key exchange takes a step. -/
inductive Event
  | fetch (id : ℕ) (keyId : String) (publisherId : UserID)
  | checked (id : ℕ)
  | broadcast (id : ℕ) (requestId : String)
  | requested (id : ℕ)
  | requestFailed (id : ℕ)
  | listened (id : ℕ)
  | emitted (keyId : String)
  | timedOut (id : ℕ)
  | aborted (id : ℕ)
  | finished (id : ℕ)
  | storedLocally (keyId : String) (publisherId : UserID) (data : List UInt8)
  | exchange (event : SubscriberKeyExchange.Event)

namespace State

/-- No calls, and an idle key exchange. -/
def start (store : LocalGroupKeyStore) : State := ⟨.start store, [], .empty⟩

/-- The data of the key that a call wants. -/
def dataOf (state : State) (call : Call) : Option (List UInt8) :=
  state.exchange.store.dataOf call.keyId call.publisherId

/-- A call goes on. -/
def withPhase (state : State) (id : ℕ) (call : Call) (phase : Phase) : State :=
  { state with calls := state.calls.set id { call with phase := phase } }

/-- A key was written to the store; its event is emitted later. -/
def written (state : State) (keyId publisherId : String) : State :=
  { state with
    emissions := state.emissions ++ [keyId]
    calls := state.calls.mapValues (Call.noteStored keyId publisherId) }

/-- What a call does with the result of `localGroupKeyStore.get`. -/
def withResult (state : State) (id : ℕ) (call : Call) (missing : Phase) : State :=
  state.withPhase id call
    (match state.exchange.store.get call.keyId call.publisherId with
      | .ok (some key) => .returned (some key) (state.dataOf call)
      | .ok none => missing
      | .error _ => .rejected)

end State

section Fetching

variable (subscriber : Subscriber)

/-- The key that a step of the key exchange stores. -/
def storedKey (exchange : SubscriberKeyExchange.State) :
    SubscriberKeyExchange.Event → Option StoredKey
  | .decrypted id key => (exchange.handlers.get? id).bind fun handler ↦
    (decrypt subscriber handler.content key).map fun data ↦
      ⟨id, key.id, handler.response.publisherId, data⟩
  | .requestSent _ | .evicted _ | .received .. | .identified _ | .proceeded _ | .validated _ => none

/-- A step of the key exchange. Requests are sent by calls alone. -/
def exchangeStep (state : State) (event : SubscriberKeyExchange.Event) : Option State :=
  (SubscriberKeyExchange.step subscriber state.exchange event).bind fun exchange ↦
    match event with
    | .requestSent _ => none
    | .received _ response =>
      if ':' ∈ response.publisherId.toList then none
      else some { state with
        exchange := exchange
        calls := state.calls.mapValues (Call.noteResponse subscriber response) }
    | .evicted _ | .identified _ | .proceeded _ | .validated _ | .decrypted .. =>
      match storedKey subscriber state.exchange event with
      | some key => some ({ state with exchange := exchange }.written key.keyId key.publisherId)
      | none => some { state with exchange := exchange }

/-- The state after an event, or `none` when it cannot happen. -/
def step (state : State) : Event → Option State
  | .fetch id keyId publisherId =>
    if state.calls.has id then none
    else some { state with
      calls := state.calls.set id ⟨keyId, publisherId, .checking, false, false⟩ }
  | .checked id => (state.calls.get? id).bind fun call ↦
    if call.phase = .checking then some (state.withResult id call .requesting) else none
  | .broadcast id requestId => (state.calls.get? id).bind fun call ↦
    if call.phase = .requesting then some (state.withPhase id call (.broadcast requestId)) else none
  | .requested id => (state.calls.get? id).bind fun call ↦
    match call.phase with
    | .broadcast requestId =>
      (SubscriberKeyExchange.step subscriber state.exchange (.requestSent requestId)).map
        fun exchange ↦ { state with exchange := exchange }.withPhase id call (.requested requestId)
    | .checking | .requesting | .requested _ | .listening _ | .woken | .timedOut | .rejected
    | .returned .. => none
  | .requestFailed id => (state.calls.get? id).bind fun call ↦
    match call.phase with
    | .requesting | .broadcast _ => some (state.withPhase id call .rejected)
    | .checking | .requested _ | .listening _ | .woken | .timedOut | .rejected
    | .returned .. => none
  | .listened id => (state.calls.get? id).bind fun call ↦
    match call.phase with
    | .requested requestId => some (state.withPhase id call (.listening requestId))
    | .checking | .requesting | .broadcast _ | .listening _ | .woken | .timedOut | .rejected
    | .returned .. => none
  | .emitted keyId =>
    if keyId ∈ state.emissions then
      some { state with
        emissions := state.emissions.erase keyId
        calls := state.calls.mapValues (Call.wake keyId) }
    else none
  | .timedOut id => (state.calls.get? id).bind fun call ↦
    match call.phase with
    | .listening _ => some (state.withPhase id call .timedOut)
    | .checking | .requesting | .broadcast _ | .requested _ | .woken | .timedOut | .rejected
    | .returned .. => none
  | .aborted id => (state.calls.get? id).bind fun call ↦
    match call.phase with
    | .listening _ | .woken => some (state.withPhase id call .rejected)
    | .checking | .requesting | .broadcast _ | .requested _ | .timedOut | .rejected
    | .returned .. => none
  | .finished id => (state.calls.get? id).bind fun call ↦
    if call.phase = .woken then some (state.withResult id call (.returned none none)) else none
  | .storedLocally keyId publisherId data =>
    some ({ state with
      exchange := { state.exchange with
        store := state.exchange.store.set keyId publisherId data } }.written keyId publisherId)
  | .exchange event => exchangeStep subscriber state event

end Fetching

/-! ### What a call is promised -/

/-- A handler is at work on a valid response to the request of a call, and the key that the call
wants is still to be stored. -/
def worksFor (subscriber : Subscriber) (call : Call) (handler : Handler) : Bool :=
  decide (call.request? = some handler.content.requestId) &&
    match handler.phase with
    | .assigning | .assigned | .validating =>
      isAnswer subscriber handler.response handler.content call
    | .storing remaining _ => decide (handler.response.publisherId = call.publisherId.val) &&
      (remaining.any fun key ↦ decide (key.id = call.keyId)) &&
      remaining.all fun key ↦ (decrypt subscriber handler.content key).isSome
    | .ignored | .failed => false

/-- The call waits for the event. -/
def Call.isListening (call : Call) : Bool :=
  match call.phase with
  | .listening _ => true
  | .checking | .requesting | .broadcast _ | .requested _ | .woken | .timedOut | .rejected
  | .returned .. => false

/-- The condition. A call begins to listen while its key is missing or the event of the key is still
to come. Where a call listens for the event that is emitted, its key is stored. A valid response to
the request of a call finds the request pending. A call times out neither while the event of its key
is still to come nor while a handler is at work on a valid response to its request. -/
def missesNothing (subscriber : Subscriber) (state : State) : Event → Bool
  | .listened id => (state.calls.get? id).all fun call ↦
    (state.dataOf call).isNone || decide (call.keyId ∈ state.emissions)
  | .emitted keyId => state.calls.entries.all fun entry ↦
    !(entry.2.isListening && decide (entry.2.keyId = keyId)) || (state.dataOf entry.2).isSome
  | .timedOut id => (state.calls.get? id).all fun call ↦
    ((state.dataOf call).isNone || decide (call.keyId ∉ state.emissions)) &&
      state.exchange.handlers.entries.all fun entry ↦ !worksFor subscriber call entry.2
  | .exchange (.received _ response) => state.calls.entries.all fun entry ↦
    !isAnswerTo subscriber response entry.2 ||
      entry.2.request?.any fun requestId ↦ decide (requestId ∈ state.exchange.pendingRequests)
  | .fetch .. | .checked _ | .broadcast .. | .requested _ | .requestFailed _ | .aborted _
  | .finished _ | .storedLocally .. | .exchange _ => true

/-- What a call that is over has got: if it has timed out, its key was not stored in the meantime
and no valid response to its request arrived; if it has returned, then with the key that is stored.
-/
def Call.NotLossy (call : Call) : Prop :=
  (call.phase = .timedOut → call.stored = false ∧ call.answered = false) ∧
    ∀ result stored, call.phase = .returned result stored →
      ∃ key, result = some key ∧ key.id = call.keyId ∧ stored = some key.data

/-- No call is lossy. -/
def NotLossy (state : State) : Prop :=
  ∀ id call, state.calls.get? id = some call → call.NotLossy

/-- What holds of a call in its phase. -/
def Call.PhaseFits (exchange : SubscriberKeyExchange.State) (emissions : List String)
    (call : Call) : Prop :=
  match call.phase with
  | .checking | .requesting => call.answered = false
  | .listening _ => exchange.store.dataOf call.keyId call.publisherId ≠ none →
    call.keyId ∈ emissions
  | .woken => exchange.store.dataOf call.keyId call.publisherId ≠ none
  | .timedOut => call.stored = false ∧ call.answered = false
  | .returned result stored => ∃ key, result = some key ∧ key.id = call.keyId ∧
    stored = some key.data
  | .broadcast _ | .requested _ | .rejected => True

/-- A key that was stored is there; and while a request is open, the key of a valid response to it
is there or a handler is at work on it. -/
structure Call.Fits (subscriber : Subscriber) (exchange : SubscriberKeyExchange.State)
    (emissions : List String) (call : Call) : Prop where
  stored : call.stored = true → exchange.store.dataOf call.keyId call.publisherId ≠ none
  answered : call.answered = true → call.request? ≠ none →
    exchange.store.dataOf call.keyId call.publisherId ≠ none ∨
      ∃ id handler, exchange.handlers.get? id = some handler ∧
        worksFor subscriber call handler = true
  phase : call.PhaseFits exchange emissions

/-- What holds in every run that misses nothing. -/
structure Invariant (subscriber : Subscriber) (state : State) : Prop where
  calls : ∀ id call, state.calls.get? id = some call →
    call.Fits subscriber state.exchange state.emissions
  publishers : ∀ id handler, state.exchange.handlers.get? id = some handler →
    ':' ∉ handler.response.publisherId.toList

theorem notLossy_of_invariant {subscriber : Subscriber} {state : State}
    (hinvariant : Invariant subscriber state) : NotLossy state := by
  intro id call hget
  have hphase := (hinvariant.calls id call hget).phase
  refine ⟨fun htimedOut ↦ ?_, fun result stored hreturned ↦ ?_⟩
  · rwa [Call.PhaseFits, htimedOut] at hphase
  · rwa [Call.PhaseFits, hreturned] at hphase

section Steps

variable {subscriber : Subscriber} {state after : State} {call : Call} {id : ℕ}
  {exchange next : SubscriberKeyExchange.State} {emissions more : List String}

/-! #### Calls -/

/-- A call that goes on keeps its request or has none afterwards. -/
theorem Call.Fits.withPhase (hfits : call.Fits subscriber exchange emissions) {phase : Phase}
    (hrequest : Call.request? { call with phase := phase } = none ∨
      Call.request? { call with phase := phase } = call.request?)
    (hphase : Call.PhaseFits exchange emissions { call with phase := phase }) :
    Call.Fits subscriber exchange emissions { call with phase := phase } where
  stored := hfits.stored
  answered := by
    intro hanswered hopen
    have hsame := hrequest.resolve_left hopen
    rcases hfits.answered hanswered (hsame ▸ hopen) with hstored | ⟨id, handler, hget, hworks⟩
    · exact Or.inl hstored
    · refine Or.inr ⟨id, handler, hget, ?_⟩
      unfold worksFor at hworks ⊢
      rw [hsame]
      exact hworks
  phase := hphase

theorem Invariant.withCall (hinvariant : Invariant subscriber state) {phase : Phase}
    (hfits : Call.Fits subscriber state.exchange state.emissions { call with phase := phase }) :
    Invariant subscriber (state.withPhase id call phase) where
  calls := by
    intro other found hfound
    rcases OrderedMap.get?_set_eq_some_iff.mp hfound with ⟨-, rfl⟩ | ⟨-, hold⟩
    · exact hfits
    · exact hinvariant.calls other found hold
  publishers := hinvariant.publishers

/-- What a call does with the key that it finds, or does not find. -/
theorem Invariant.withResult (hinvariant : Invariant subscriber state) {missing : Phase}
    (hget : state.calls.get? id = some call)
    (hmissing : state.dataOf call = none →
      Call.Fits subscriber state.exchange state.emissions { call with phase := missing }) :
    Invariant subscriber (state.withResult id call missing) := by
  have hfits := hinvariant.calls id call hget
  refine hinvariant.withCall ?_
  cases hresult : state.exchange.store.get call.keyId call.publisherId with
  | error error => exact hfits.withPhase (Or.inl rfl) trivial
  | ok found =>
    cases found with
    | none => exact hmissing (LocalGroupKeyStore.dataOf_of_get_none hresult)
    | some key =>
      obtain ⟨hid, hdata⟩ := LocalGroupKeyStore.dataOf_of_get hresult
      exact hfits.withPhase (Or.inl rfl) ⟨key, rfl, hid, hdata⟩

/-! #### The key exchange -/

/-- A step of the key exchange stores the key that `storedKey` names, or none. -/
theorem store_of_step {event : SubscriberKeyExchange.Event}
    (hstep : SubscriberKeyExchange.step subscriber exchange event = some next) :
    next.store = match storedKey subscriber exchange event with
      | some key => exchange.store.set key.keyId key.publisherId key.data
      | none => exchange.store := by
  cases event with
  | requestSent requestId =>
    cases hstep
    rfl
  | evicted requestId =>
    obtain rfl := SubscriberKeyExchange.evicted_cases hstep
    rfl
  | received id response =>
    rcases SubscriberKeyExchange.received_cases hstep with rfl | ⟨begun, -, -, rfl⟩ <;> rfl
  | identified id =>
    obtain ⟨handler, -, -, rfl⟩ := SubscriberKeyExchange.identified_cases hstep
    rfl
  | proceeded id =>
    obtain ⟨handler, -, -, rfl⟩ := SubscriberKeyExchange.proceeded_cases hstep
    rfl
  | validated id =>
    obtain ⟨handler, -, -, rfl⟩ := SubscriberKeyExchange.validated_cases hstep
    rfl
  | decrypted id key =>
    obtain ⟨handler, hget, hnext⟩ := Option.bind_eq_some_iff.mp hstep
    obtain ⟨remaining, undecryptable, -, -, rfl⟩ :=
      SubscriberKeyExchange.storing_of_decrypted hnext
    rw [storedKey, hget, Option.bind_some, SubscriberKeyExchange.handleKey]
    cases decrypt subscriber handler.content key <;> rfl

/-- A handler that goes on belongs to the response it belonged to. -/
theorem response_of_withPhase {other : ℕ} {handler found : Handler}
    {phase : SubscriberKeyExchange.Phase} (hget : exchange.handlers.get? other = some handler)
    (hfound : (exchange.withPhase other handler phase).handlers.get? id = some found) :
    ∃ before, exchange.handlers.get? id = some before ∧ before.response = found.response := by
  rcases OrderedMap.get?_set_eq_some_iff.mp hfound with ⟨rfl, rfl⟩ | ⟨-, hold⟩
  · exact ⟨handler, hget, rfl⟩
  · exact ⟨found, hold, rfl⟩

/-- The handlers behind a step are those before it, and the one of a response that was received. -/
theorem response_of_step {event : SubscriberKeyExchange.Event}
    (hstep : SubscriberKeyExchange.step subscriber exchange event = some next) {handler : Handler}
    (hget : next.handlers.get? id = some handler) :
    (∃ before, exchange.handlers.get? id = some before ∧ before.response = handler.response) ∨
      event = .received id handler.response := by
  cases event with
  | requestSent requestId =>
    cases hstep
    exact Or.inl ⟨handler, hget, rfl⟩
  | evicted requestId =>
    obtain rfl := SubscriberKeyExchange.evicted_cases hstep
    exact Or.inl ⟨handler, hget, rfl⟩
  | received other response =>
    rcases SubscriberKeyExchange.received_cases hstep with rfl | ⟨begun, -, hbegin, rfl⟩
    · exact Or.inl ⟨handler, hget, rfl⟩
    · rcases OrderedMap.get?_set_eq_some_iff.mp hget with ⟨rfl, rfl⟩ | ⟨-, hold⟩
      · exact Or.inr (congrArg _ (SubscriberKeyExchange.response_of_beginHandling hbegin).symm)
      · exact Or.inl ⟨handler, hold, rfl⟩
  | identified other =>
    obtain ⟨found, hfound, -, rfl⟩ := SubscriberKeyExchange.identified_cases hstep
    exact Or.inl (response_of_withPhase hfound hget)
  | proceeded other =>
    obtain ⟨found, hfound, -, rfl⟩ := SubscriberKeyExchange.proceeded_cases hstep
    exact Or.inl (response_of_withPhase hfound hget)
  | validated other =>
    obtain ⟨found, hfound, -, rfl⟩ := SubscriberKeyExchange.validated_cases hstep
    exact Or.inl (response_of_withPhase hfound hget)
  | decrypted other key =>
    obtain ⟨found, hfound, hnext⟩ := Option.bind_eq_some_iff.mp hstep
    obtain ⟨remaining, undecryptable, -, -, rfl⟩ :=
      SubscriberKeyExchange.storing_of_decrypted hnext
    unfold SubscriberKeyExchange.handleKey at hget
    cases hdecrypt : decrypt subscriber found.content key <;> rw [hdecrypt] at hget <;>
      exact Or.inl (response_of_withPhase hfound hget)

/-- Another handler goes on, or this one does and stays at work. -/
theorem worksFor_withPhase {other : ℕ} {handler found : Handler}
    {phase : SubscriberKeyExchange.Phase} (hget : exchange.handlers.get? id = some handler)
    (hworks : worksFor subscriber call handler = true)
    (hfound : exchange.handlers.get? other = some found)
    (hstays : worksFor subscriber call found = true →
      worksFor subscriber call { found with phase := phase } = true) :
    ∃ behind, (exchange.withPhase other found phase).handlers.get? id = some behind ∧
      worksFor subscriber call behind = true := by
  by_cases hid : id = other
  · subst hid
    cases hget.symm.trans hfound
    exact ⟨_, OrderedMap.get?_set_self .., hstays hworks⟩
  · exact ⟨handler, (OrderedMap.get?_set_of_ne _ _ hid).trans hget, hworks⟩

/-- A valid response with the key of a call is handled to the point where the keys are stored. -/
theorem worksFor_validating {handler : Handler} (hphase : handler.phase = .validating)
    (hworks : worksFor subscriber call handler = true) :
    validates subscriber handler.response = true ∧
      worksFor subscriber call { handler with
        phase := .storing handler.content.groupKeys false } = true := by
  rw [worksFor, hphase, Bool.and_eq_true] at hworks
  simp only [isAnswer, Bool.and_eq_true] at hworks
  obtain ⟨hrequest, ⟨⟨⟨-, hvalidates⟩, hdecrypts⟩, hpublisher⟩, hkey⟩ := hworks
  refine ⟨hvalidates, ?_⟩
  rw [worksFor]
  simp only [Bool.and_eq_true]
  exact ⟨hrequest, ⟨hpublisher, hkey⟩, hdecrypts⟩

/-- A key of a valid response is decrypted: it is the one of the call, or that one remains. -/
theorem worksFor_storing {handler : Handler} {remaining : List EncryptedGroupKey}
    {undecryptable : Bool} (hphase : handler.phase = .storing remaining undecryptable)
    (hworks : worksFor subscriber call handler = true) {key : EncryptedGroupKey}
    (hmem : key ∈ remaining) :
    ∃ data, decrypt subscriber handler.content key = some data ∧
      ((key.id = call.keyId ∧ handler.response.publisherId = call.publisherId.val) ∨
        worksFor subscriber call { handler with
          phase := .storing (remaining.erase key) undecryptable } = true) := by
  rw [worksFor, hphase, Bool.and_eq_true] at hworks
  simp only [Bool.and_eq_true, decide_eq_true_eq] at hworks
  obtain ⟨hrequest, ⟨hpublisher, hkey⟩, hdecrypts⟩ := hworks
  obtain ⟨data, hdata⟩ := Option.isSome_iff_exists.mp (List.all_eq_true.mp hdecrypts key hmem)
  refine ⟨data, hdata, ?_⟩
  by_cases hid : key.id = call.keyId
  · exact Or.inl ⟨hid, hpublisher⟩
  · right
    obtain ⟨wanted, hwanted, hwantedId⟩ := List.any_eq_true.mp hkey
    have hne : wanted ≠ key := by
      rintro rfl
      exact hid (of_decide_eq_true hwantedId)
    rw [worksFor]
    simp only [Bool.and_eq_true, decide_eq_true_eq]
    refine ⟨hrequest, ⟨hpublisher, ?_⟩, ?_⟩
    · exact List.any_eq_true.mpr ⟨wanted, (List.mem_erase_of_ne hne).mpr hwanted, hwantedId⟩
    · exact List.all_eq_true.mpr fun other hother ↦
        List.all_eq_true.mp hdecrypts other (List.mem_of_mem_erase hother)

/-- A handler that is at work for a call stays so, until the key of the call is stored. -/
theorem worksFor_of_step {event : SubscriberKeyExchange.Event}
    (hstep : SubscriberKeyExchange.step subscriber exchange event = some next) {handler : Handler}
    (hget : exchange.handlers.get? id = some handler)
    (hworks : worksFor subscriber call handler = true) :
    next.store.dataOf call.keyId call.publisherId ≠ none ∨
      ∃ found, next.handlers.get? id = some found ∧ worksFor subscriber call found = true := by
  cases event with
  | requestSent requestId =>
    cases hstep
    exact Or.inr ⟨handler, hget, hworks⟩
  | evicted requestId =>
    obtain rfl := SubscriberKeyExchange.evicted_cases hstep
    exact Or.inr ⟨handler, hget, hworks⟩
  | received other response =>
    rcases SubscriberKeyExchange.received_cases hstep with rfl | ⟨begun, hnone, -, rfl⟩
    · exact Or.inr ⟨handler, hget, hworks⟩
    · have hne : id ≠ other := by
        rintro rfl
        rw [hnone] at hget
        cases hget
      exact Or.inr ⟨handler, (OrderedMap.get?_set_of_ne _ _ hne).trans hget, hworks⟩
  | identified other =>
    obtain ⟨found, hfound, hphase, rfl⟩ := SubscriberKeyExchange.identified_cases hstep
    refine Or.inr (worksFor_withPhase hget hworks hfound fun hfoundWorks ↦ ?_)
    rw [worksFor, hphase] at hfoundWorks
    split_ifs with haddressed
    · exact hfoundWorks
    · simp [isAnswer, haddressed] at hfoundWorks
  | proceeded other =>
    obtain ⟨found, hfound, hphase, rfl⟩ := SubscriberKeyExchange.proceeded_cases hstep
    refine Or.inr (worksFor_withPhase hget hworks hfound fun hfoundWorks ↦ ?_)
    rw [worksFor, hphase] at hfoundWorks
    exact hfoundWorks
  | validated other =>
    obtain ⟨found, hfound, hphase, rfl⟩ := SubscriberKeyExchange.validated_cases hstep
    refine Or.inr (worksFor_withPhase hget hworks hfound fun hfoundWorks ↦ ?_)
    split_ifs with hvalidates
    · exact (worksFor_validating hphase hfoundWorks).2
    · exact absurd (worksFor_validating hphase hfoundWorks).1 hvalidates
  | decrypted other key =>
    obtain ⟨found, hfound, hnext⟩ := Option.bind_eq_some_iff.mp hstep
    obtain ⟨remaining, undecryptable, hphase, hmem, rfl⟩ :=
      SubscriberKeyExchange.storing_of_decrypted hnext
    by_cases hid : id = other
    · subst hid
      cases hget.symm.trans hfound
      obtain ⟨data, hdata, hstored | hremains⟩ := worksFor_storing hphase hworks hmem
      · left
        rw [SubscriberKeyExchange.handleKey, hdata]
        show (exchange.store.set key.id handler.response.publisherId data).dataOf _ _ ≠ none
        rw [hstored.1, hstored.2, LocalGroupKeyStore.dataOf_set_self]
        exact Option.some_ne_none data
      · right
        rw [SubscriberKeyExchange.handleKey, hdata]
        exact ⟨_, OrderedMap.get?_set_self .., hremains⟩
    · right
      refine ⟨handler, ?_, hworks⟩
      rw [SubscriberKeyExchange.handleKey]
      cases decrypt subscriber found.content key <;>
        exact (OrderedMap.get?_set_of_ne _ _ hid).trans hget

/-! #### The store and the events -/

/-- What a call fits still fits when keys were stored whose events are to come, and when the
handlers at work stay so. -/
theorem Call.Fits.advance (hfits : call.Fits subscriber exchange emissions)
    (hkeeps : exchange.store.dataOf call.keyId call.publisherId ≠ none →
      next.store.dataOf call.keyId call.publisherId ≠ none)
    (hemitted : next.store.dataOf call.keyId call.publisherId ≠ none →
      exchange.store.dataOf call.keyId call.publisherId = none → call.keyId ∈ more)
    (hmore : call.keyId ∈ emissions → call.keyId ∈ more)
    (hworks : ∀ id handler, exchange.handlers.get? id = some handler →
      worksFor subscriber call handler = true →
        next.store.dataOf call.keyId call.publisherId ≠ none ∨
          ∃ found, next.handlers.get? id = some found ∧ worksFor subscriber call found = true) :
    call.Fits subscriber next more where
  stored := fun hstored ↦ hkeeps (hfits.stored hstored)
  answered := by
    intro hanswered hopen
    rcases hfits.answered hanswered hopen with hstored | ⟨id, handler, hget, hhandler⟩
    · exact Or.inl (hkeeps hstored)
    · exact (hworks id handler hget hhandler).imp_right fun hfound ↦ ⟨id, hfound⟩
  phase := by
    have hphase := hfits.phase
    unfold PhaseFits at hphase ⊢
    cases hcall : call.phase with
    | listening requestId =>
      rw [hcall] at hphase
      intro hstored
      by_cases hbefore : exchange.store.dataOf call.keyId call.publisherId = none
      · exact hemitted hstored hbefore
      · exact hmore (hphase hbefore)
    | woken =>
      rw [hcall] at hphase
      exact hkeeps hphase
    | checking | requesting | broadcast _ | requested _ | timedOut | rejected | returned _ _ =>
      rw [hcall] at hphase
      exact hphase

/-- The store and the handlers as they were. -/
theorem Call.Fits.of_same (hfits : call.Fits subscriber exchange emissions)
    (hstore : next.store = exchange.store) (hhandlers : next.handlers = exchange.handlers) :
    call.Fits subscriber next emissions := by
  refine hfits.advance (fun hstored ↦ hstore ▸ hstored) (fun hstored hnone ↦ ?_) id
    fun id handler hget hworks ↦ Or.inr ⟨handler, hhandlers ▸ hget, hworks⟩
  exact absurd (hstore ▸ hnone) hstored

theorem Call.Fits.noteStored (hfits : call.Fits subscriber exchange emissions)
    {keyId publisherId : String}
    (hstored : exchange.store.dataOf keyId publisherId ≠ none) :
    (call.noteStored keyId publisherId).Fits subscriber exchange emissions := by
  unfold Call.noteStored
  split_ifs with hcall
  · obtain ⟨hopen, rfl, rfl⟩ := hcall
    refine ⟨fun _ ↦ hstored, hfits.answered, ?_⟩
    have hphase := hfits.phase
    unfold Call.PhaseFits at hphase ⊢
    cases hcall : call.phase with
    | timedOut =>
      rw [Call.isOpen, hcall] at hopen
      cases hopen
    | checking | requesting | broadcast _ | requested _ | listening _ | woken | rejected
    | returned _ _ =>
      rw [hcall] at hphase
      exact hphase
  · exact hfits

/-- A key was stored, and its event is to come. -/
theorem Call.Fits.written (hfits : call.Fits subscriber exchange emissions)
    {keyId publisherId : String} {data : List UInt8} (hpublisherId : ':' ∉ publisherId.toList)
    (hstore : next.store = exchange.store.set keyId publisherId data)
    (hworks : ∀ id handler, exchange.handlers.get? id = some handler →
      worksFor subscriber call handler = true →
        next.store.dataOf call.keyId call.publisherId ≠ none ∨
          ∃ found, next.handlers.get? id = some found ∧ worksFor subscriber call found = true) :
    (call.noteStored keyId publisherId).Fits subscriber next (emissions ++ [keyId]) := by
  have hadvanced : call.Fits subscriber next (emissions ++ [keyId]) := by
    refine hfits.advance (fun hstored ↦ ?_) (fun hstored hnone ↦ ?_) (List.mem_append_left _) hworks
    · rw [hstore]
      exact LocalGroupKeyStore.dataOf_set_ne_none hstored _ _ _
    · by_cases hsame : call.keyId = keyId ∧ call.publisherId.val = publisherId
      · exact hsame.1 ▸ List.mem_append_right _ (List.mem_singleton_self _)
      · rw [hstore, LocalGroupKeyStore.dataOf_set_of_ne _ _ hpublisherId call.publisherId.2 hsame]
          at hstored
        exact absurd hnone hstored
  refine hadvanced.noteStored ?_
  rw [hstore, LocalGroupKeyStore.dataOf_set_self]
  exact Option.some_ne_none data

/-- A call that does not listen does not depend on events. -/
theorem Call.Fits.of_not_listening (hfits : call.Fits subscriber exchange emissions)
    (hlistening : call.isListening = false) : call.Fits subscriber exchange more := by
  refine { hfits with phase := ?_ }
  have hphase := hfits.phase
  unfold PhaseFits at hphase ⊢
  cases hcall : call.phase with
  | listening requestId =>
    rw [isListening, hcall] at hlistening
    cases hlistening
  | checking | requesting | broadcast _ | requested _ | woken | timedOut | rejected
  | returned _ _ =>
    rw [hcall] at hphase
    exact hphase

/-- An event is emitted: a call that listens for it has its key. -/
theorem Call.Fits.wake (hfits : call.Fits subscriber exchange emissions) {keyId : String}
    (hstored : call.isListening = true → call.keyId = keyId →
      exchange.store.dataOf call.keyId call.publisherId ≠ none) :
    (call.wake keyId).Fits subscriber exchange (emissions.erase keyId) := by
  unfold Call.wake
  cases hcall : call.phase with
  | listening requestId =>
    dsimp only
    split_ifs with hid
    · have hwoken : Call.Fits subscriber exchange emissions { call with phase := .woken } :=
        hfits.withPhase (Or.inl rfl) (hstored (by rw [Call.isListening, hcall]) hid)
      exact hwoken.of_not_listening rfl
    · refine { hfits with phase := ?_ }
      have hphase := hfits.phase
      rw [Call.PhaseFits, hcall] at hphase ⊢
      exact fun hstored ↦ (List.mem_erase_of_ne hid).mpr (hphase hstored)
  | checking | requesting | broadcast _ | requested _ | woken | timedOut | rejected
  | returned _ _ => exact hfits.of_not_listening (by rw [Call.isListening, hcall])

/-- A valid response to the request of a call begins to be handled if the request is pending. -/
theorem worksFor_of_received {response : Response}
    (hanswer : isAnswerTo subscriber response call = true)
    (hpending : (call.request?.any fun requestId ↦
      decide (requestId ∈ exchange.pendingRequests)) = true) :
    ∃ handler, SubscriberKeyExchange.beginHandling subscriber exchange response = some handler ∧
      worksFor subscriber call handler = true := by
  unfold isAnswerTo at hanswer
  rw [Bool.and_eq_true, Bool.and_eq_true, decide_eq_true_eq, decide_eq_true_eq] at hanswer
  obtain ⟨⟨htype, hpartition⟩, hcontent⟩ := hanswer
  cases hdecoded : subscriber.codec.responseFromBinary response.message.val.content with
  | none =>
    rw [hdecoded] at hcontent
    cases hcontent
  | some content =>
    rw [hdecoded, Bool.and_eq_true, decide_eq_true_eq] at hcontent
    obtain ⟨hrequest, hvalid⟩ := hcontent
    rw [hrequest, Option.any_some, decide_eq_true_eq] at hpending
    refine ⟨⟨response, content, .assigning⟩, ?_, ?_⟩
    · rw [SubscriberKeyExchange.beginHandling, if_neg (not_not.mpr htype), hdecoded,
        Option.bind_some, if_neg (by omega), if_pos hpending]
    · rw [worksFor, Bool.and_eq_true]
      exact ⟨decide_eq_true hrequest, hvalid⟩

theorem request?_of_isAnswerTo {response : Response}
    (hanswer : isAnswerTo subscriber response call = true) : call.request? ≠ none := by
  intro hnone
  unfold isAnswerTo at hanswer
  cases hdecoded : subscriber.codec.responseFromBinary response.message.val.content <;>
    simp [hdecoded, hnone] at hanswer

/-- A response arrives that a handler is at work on if it is a valid one. -/
theorem Call.Fits.noteResponse (hfits : call.Fits subscriber exchange emissions)
    {response : Response}
    (hworks : isAnswerTo subscriber response call = true → ∃ id handler,
      exchange.handlers.get? id = some handler ∧ worksFor subscriber call handler = true) :
    (call.noteResponse subscriber response).Fits subscriber exchange emissions := by
  unfold Call.noteResponse
  split_ifs with hanswer
  · refine { hfits with answered := fun _ _ ↦ Or.inr (hworks hanswer), phase := ?_ }
    have hrequest := request?_of_isAnswerTo hanswer
    have hphase := hfits.phase
    unfold Call.request? at hrequest
    unfold Call.PhaseFits at hphase ⊢
    cases hcall : call.phase with
    | checking | requesting | timedOut =>
      rw [hcall] at hrequest
      exact absurd rfl hrequest
    | broadcast _ | requested _ | listening _ | woken | rejected | returned _ _ =>
      rw [hcall] at hphase
      exact hphase
  · exact hfits

/-- A call that listens has got nothing, if its key is not stored or no event of it is to come, and
if no handler is at work for it. -/
theorem Call.Fits.unanswered (hfits : call.Fits subscriber exchange emissions) {requestId : String}
    (hphase : call.phase = .listening requestId)
    (hquiet : exchange.store.dataOf call.keyId call.publisherId = none ∨ call.keyId ∉ emissions)
    (hidle : ∀ id handler, exchange.handlers.get? id = some handler →
      worksFor subscriber call handler = false) :
    call.stored = false ∧ call.answered = false := by
  have hlistening := hfits.phase
  rw [PhaseFits, hphase] at hlistening
  have hmissing : exchange.store.dataOf call.keyId call.publisherId = none := by
    by_contra hstored
    exact hquiet.elim hstored fun hnot ↦ hnot (hlistening hstored)
  have hopen : call.request? ≠ none := by
    rw [request?, hphase]
    exact Option.some_ne_none requestId
  constructor
  · exact Bool.eq_false_iff.mpr fun hstored ↦ hfits.stored hstored hmissing
  · refine Bool.eq_false_iff.mpr fun hanswered ↦ ?_
    rcases hfits.answered hanswered hopen with hstored | ⟨id, handler, hget, hworks⟩
    · exact hstored hmissing
    · cases (hidle id handler hget).symm.trans hworks

/-- A response is received, and handled if its request is pending. -/
theorem Invariant.received (hinvariant : Invariant subscriber state) {response : Response}
    (hpending : ∀ id call, state.calls.get? id = some call →
      isAnswerTo subscriber response call = true → (call.request?.any fun requestId ↦
        decide (requestId ∈ state.exchange.pendingRequests)) = true)
    (hstep : exchangeStep subscriber state (.received id response) = some after) :
    Invariant subscriber after := by
  obtain ⟨next, hnext, hrest⟩ := Option.bind_eq_some_iff.mp hstep
  dsimp only at hrest
  split_ifs at hrest with hpublisher
  cases hrest
  have hstore := store_of_step hnext
  refine ⟨fun other found hfound ↦ ?_, fun other handler hget ↦ ?_⟩
  · rw [OrderedMap.get?_mapValues] at hfound
    obtain ⟨call, hcall, rfl⟩ := Option.map_eq_some_iff.mp hfound
    have hfits : call.Fits subscriber next state.emissions := by
      refine (hinvariant.calls other call hcall).advance (fun hstored ↦ hstore ▸ hstored)
        (fun hstored hnone ↦ absurd (hstore ▸ hnone) hstored) (fun hmem ↦ hmem)
        fun id handler hget hworks ↦ worksFor_of_step hnext hget hworks
    refine hfits.noteResponse fun hanswer ↦ ?_
    obtain ⟨handler, hbegin, hworks⟩ :=
      worksFor_of_received hanswer (hpending other call hcall hanswer)
    rw [SubscriberKeyExchange.step] at hnext
    split_ifs at hnext
    rw [hbegin] at hnext
    cases hnext
    exact ⟨id, handler, OrderedMap.get?_set_self .., hworks⟩
  · rcases response_of_step hnext hget with ⟨before, hbefore, hsame⟩ | hevent
    · exact hsame ▸ hinvariant.publishers other before hbefore
    · cases hevent
      exact hpublisher

/-- A handler goes on, or a request is pushed out. -/
theorem Invariant.handled (hinvariant : Invariant subscriber state)
    {event : SubscriberKeyExchange.Event} (hnot : ∀ id response, event ≠ .received id response)
    (hnext : SubscriberKeyExchange.step subscriber state.exchange event = some next)
    (hafter : (match storedKey subscriber state.exchange event with
      | some key => some ({ state with exchange := next }.written key.keyId key.publisherId)
      | none => some { state with exchange := next }) = some after) :
    Invariant subscriber after := by
  have hstore := store_of_step hnext
  have hpublishers : ∀ other handler, next.handlers.get? other = some handler →
      ':' ∉ handler.response.publisherId.toList := by
    intro other handler hget
    rcases response_of_step hnext hget with ⟨before, hbefore, hsame⟩ | hevent
    · exact hsame ▸ hinvariant.publishers other before hbefore
    · exact absurd hevent (hnot _ _)
  cases hkey : storedKey subscriber state.exchange event with
  | none =>
    rw [hkey] at hstore hafter
    cases hafter
    refine ⟨fun other call hget ↦ ?_, hpublishers⟩
    exact (hinvariant.calls other call hget).advance (fun hstored ↦ hstore ▸ hstored)
      (fun hstored hnone ↦ absurd (hstore ▸ hnone) hstored) (fun hmem ↦ hmem)
      fun id handler hget hworks ↦ worksFor_of_step hnext hget hworks
  | some key =>
    rw [hkey] at hstore hafter
    cases hafter
    have hpublisher : ':' ∉ key.publisherId.toList := by
      cases event with
      | decrypted other encrypted =>
        obtain ⟨handler, hget, hdata⟩ := Option.bind_eq_some_iff.mp hkey
        obtain ⟨data, -, rfl⟩ := Option.map_eq_some_iff.mp hdata
        exact hinvariant.publishers other handler hget
      | requestSent _ | evicted _ | received _ _ | identified _ | proceeded _ | validated _ =>
        cases hkey
    refine ⟨fun other found hfound ↦ ?_, hpublishers⟩
    rw [State.written, OrderedMap.get?_mapValues] at hfound
    obtain ⟨call, hcall, rfl⟩ := Option.map_eq_some_iff.mp hfound
    exact (hinvariant.calls other call hcall).written hpublisher hstore
      fun id handler hget hworks ↦ worksFor_of_step hnext hget hworks

theorem invariant_start (subscriber : Subscriber) (store : LocalGroupKeyStore) :
    Invariant subscriber (.start store) where
  calls := by
    rintro id call hget
    cases (OrderedMap.get?_empty id).symm.trans hget
  publishers := by
    rintro id handler hget
    cases (OrderedMap.get?_empty id).symm.trans hget

theorem invariant_step {event : Event} (hinvariant : Invariant subscriber state)
    (hcareful : missesNothing subscriber state event = true)
    (hstep : step subscriber state event = some after) : Invariant subscriber after := by
  cases event with
  | fetch id keyId publisherId =>
    rw [step] at hstep
    split_ifs at hstep
    cases hstep
    refine ⟨fun other found hfound ↦ ?_, hinvariant.publishers⟩
    rcases OrderedMap.get?_set_eq_some_iff.mp hfound with ⟨-, rfl⟩ | ⟨-, hold⟩
    · exact ⟨fun hstored ↦ (by cases hstored), fun hanswered ↦ (by cases hanswered), rfl⟩
    · exact hinvariant.calls other found hold
  | checked id =>
    obtain ⟨call, hget, hnext⟩ := Option.bind_eq_some_iff.mp hstep
    split_ifs at hnext with hphase
    cases hnext
    have hfits := hinvariant.calls id call hget
    have hanswered := hfits.phase
    rw [Call.PhaseFits, hphase] at hanswered
    exact hinvariant.withResult hget fun _ ↦ hfits.withPhase (Or.inl rfl) hanswered
  | broadcast id requestId =>
    obtain ⟨call, hget, hnext⟩ := Option.bind_eq_some_iff.mp hstep
    split_ifs at hnext with hphase
    cases hnext
    have hfits := hinvariant.calls id call hget
    have hanswered := hfits.phase
    rw [Call.PhaseFits, hphase] at hanswered
    refine hinvariant.withCall ⟨hfits.stored, fun htrue ↦ ?_, trivial⟩
    cases hanswered.symm.trans htrue
  | requested id =>
    obtain ⟨call, hget, hnext⟩ := Option.bind_eq_some_iff.mp hstep
    cases hphase : call.phase with
    | broadcast requestId =>
      rw [hphase] at hnext
      cases hnext
      have hsame : Invariant subscriber { state with exchange := { state.exchange with
          pendingRequests := state.exchange.pendingRequests.add requestId
          requested := requestId :: state.exchange.requested } } :=
        ⟨fun other found hfound ↦ (hinvariant.calls other found hfound).of_same rfl rfl,
          hinvariant.publishers⟩
      refine hsame.withCall ((hsame.calls id call hget).withPhase (Or.inr ?_) trivial)
      rw [Call.request?, Call.request?, hphase]
    | checking | requesting | requested _ | listening _ | woken | timedOut | rejected
    | returned _ _ =>
      rw [hphase] at hnext
      cases hnext
  | requestFailed id =>
    obtain ⟨call, hget, hnext⟩ := Option.bind_eq_some_iff.mp hstep
    have hrejected : Call.Fits subscriber state.exchange state.emissions
        { call with phase := .rejected } :=
      (hinvariant.calls id call hget).withPhase (Or.inl rfl) trivial
    cases hphase : call.phase <;> rw [hphase] at hnext <;> cases hnext <;>
      exact hinvariant.withCall hrejected
  | listened id =>
    obtain ⟨call, hget, hnext⟩ := Option.bind_eq_some_iff.mp hstep
    cases hphase : call.phase with
    | requested requestId =>
      rw [hphase] at hnext
      cases hnext
      rw [missesNothing, hget, Option.all_some, Bool.or_eq_true, Option.isNone_iff_eq_none,
        decide_eq_true_eq] at hcareful
      refine hinvariant.withCall ((hinvariant.calls id call hget).withPhase (Or.inr ?_) ?_)
      · rw [Call.request?, Call.request?, hphase]
      · exact fun hstored ↦ hcareful.resolve_left hstored
    | checking | requesting | broadcast _ | listening _ | woken | timedOut | rejected
    | returned _ _ =>
      rw [hphase] at hnext
      cases hnext
  | emitted keyId =>
    rw [step] at hstep
    split_ifs at hstep
    cases hstep
    refine ⟨fun other found hfound ↦ ?_, hinvariant.publishers⟩
    rw [OrderedMap.get?_mapValues] at hfound
    obtain ⟨call, hcall, rfl⟩ := Option.map_eq_some_iff.mp hfound
    refine (hinvariant.calls other call hcall).wake fun hlistening hid ↦ ?_
    have hentry := List.all_eq_true.mp hcareful _ (OrderedMap.get?_eq_some_iff.mp hcall)
    rw [hlistening, decide_eq_true hid] at hentry
    exact Option.isSome_iff_ne_none.mp hentry
  | timedOut id =>
    obtain ⟨call, hget, hnext⟩ := Option.bind_eq_some_iff.mp hstep
    cases hphase : call.phase with
    | listening requestId =>
      rw [hphase] at hnext
      cases hnext
      rw [missesNothing, hget, Option.all_some, Bool.and_eq_true, Bool.or_eq_true,
        Option.isNone_iff_eq_none, decide_eq_true_eq] at hcareful
      have hfits := hinvariant.calls id call hget
      refine hinvariant.withCall (hfits.withPhase (Or.inl rfl) ?_)
      refine hfits.unanswered hphase hcareful.1 fun other handler hhandler ↦ ?_
      have hentry := List.all_eq_true.mp hcareful.2 _ (OrderedMap.get?_eq_some_iff.mp hhandler)
      rwa [Bool.not_eq_true'] at hentry
    | checking | requesting | broadcast _ | requested _ | woken | timedOut | rejected
    | returned _ _ =>
      rw [hphase] at hnext
      cases hnext
  | aborted id =>
    obtain ⟨call, hget, hnext⟩ := Option.bind_eq_some_iff.mp hstep
    have hrejected : Call.Fits subscriber state.exchange state.emissions
        { call with phase := .rejected } :=
      (hinvariant.calls id call hget).withPhase (Or.inl rfl) trivial
    cases hphase : call.phase <;> rw [hphase] at hnext <;> cases hnext <;>
      exact hinvariant.withCall hrejected
  | finished id =>
    obtain ⟨call, hget, hnext⟩ := Option.bind_eq_some_iff.mp hstep
    split_ifs at hnext with hphase
    cases hnext
    have hstored := (hinvariant.calls id call hget).phase
    rw [Call.PhaseFits, hphase] at hstored
    exact hinvariant.withResult hget fun hnone ↦ absurd hnone hstored
  | storedLocally keyId publisherId data =>
    cases hstep
    refine ⟨fun other found hfound ↦ ?_, hinvariant.publishers⟩
    rw [State.written, OrderedMap.get?_mapValues] at hfound
    obtain ⟨call, hcall, rfl⟩ := Option.map_eq_some_iff.mp hfound
    exact (hinvariant.calls other call hcall).written publisherId.2 rfl
      fun id handler hget hworks ↦ Or.inr ⟨handler, hget, hworks⟩
  | exchange event =>
    cases event with
    | received id response =>
      refine hinvariant.received (fun other call hget hanswer ↦ ?_) hstep
      have hentry := List.all_eq_true.mp hcareful _ (OrderedMap.get?_eq_some_iff.mp hget)
      rw [hanswer] at hentry
      exact hentry
    | requestSent requestId =>
      rw [step, exchangeStep] at hstep
      obtain ⟨next, hnext, hafter⟩ := Option.bind_eq_some_iff.mp hstep
      cases hafter
    | evicted _ | identified _ | proceeded _ | validated _ | decrypted _ _ =>
      rw [step, exchangeStep] at hstep
      obtain ⟨next, hnext, hafter⟩ := Option.bind_eq_some_iff.mp hstep
      exact hinvariant.handled (by rintro _ _ ⟨⟩) hnext hafter

/-- No call is lossy in runs that miss nothing. -/
theorem notLossy_of_reachable {store : LocalGroupKeyStore}
    (hreachable : Transition.Reachable (step subscriber)
      (fun state event ↦ missesNothing subscriber state event = true) (· = State.start store)
      state) : NotLossy state := by
  have hinvariant : Invariant subscriber state := by
    refine hreachable.invariant ?_ ?_
    · rintro _ rfl
      exact invariant_start subscriber store
    · intro before event next _ hbefore hcareful hstep
      exact invariant_step hbefore hcareful hstep
  exact notLossy_of_invariant hinvariant

end Steps

/-! ### A call that gets its key, and calls that do not -/

/-- The data of a key. -/
def sampleData : List UInt8 := List.replicate 32 9

/-- A subscriber that decrypts every key to these data. -/
def sampleSubscriber : Subscriber :=
  { SubscriberKeyExchange.sampleSubscriber with decryptWithPrivateKey := fun _ _ ↦ some sampleData }

/-- The publisher of the key. -/
def samplePublisher : UserID := ⟨"0xaa", by decide⟩

/-- Another publisher. -/
def otherPublisher : UserID := ⟨"0xcc", by decide⟩

/-- The valid response to the request `r`. -/
def validResponse : Response := SubscriberKeyExchange.sampleResponse 1 true

/-- The call requests its key, listens, and the response arrives. -/
def answeredInTime : List Event :=
  [.fetch 1 "k" samplePublisher, .checked 1, .broadcast 1 "r", .requested 1, .listened 1,
    .exchange (.received 5 validResponse), .exchange (.identified 5), .exchange (.proceeded 5),
    .exchange (.validated 5), .exchange (.decrypted 5 SubscriberKeyExchange.goodKey),
    .emitted "k", .finished 1]

/-- A call has returned a key with the sample data. -/
def returnsSample (state : State) : Bool :=
  (state.calls.get? 1).any fun call ↦
    match call.phase with
    | .returned (some key) stored => decide (key.data = sampleData ∧ stored = some sampleData)
    | .returned none _ | .checking | .requesting | .broadcast _ | .requested _ | .listening _
    | .woken | .timedOut | .rejected => false

/-- The call returns the key. -/
theorem notLossy_answeredInTime : ∃ state,
    Transition.checkedRun (step sampleSubscriber) (missesNothing sampleSubscriber)
        (.start .empty) answeredInTime = some state ∧
      returnsSample state = true ∧ NotLossy state := by
  obtain ⟨state, hrun, hreturned⟩ : ∃ state,
      Transition.checkedRun (step sampleSubscriber) (missesNothing sampleSubscriber)
          (.start .empty) answeredInTime = some state ∧ returnsSample state = true :=
    (Option.any_eq_true _ _).mp (by decide +kernel)
  exact ⟨state, hrun, hreturned, notLossy_of_reachable
    (.of_checkedRun _ (fun _ _ hcheck ↦ hcheck) (.start rfl) hrun)⟩

/-- The key is stored between the look at the store and the listener. -/
def storedBetween : List Event :=
  [.fetch 1 "k" samplePublisher, .checked 1, .storedLocally "k" samplePublisher sampleData,
    .emitted "k", .broadcast 1 "r", .requested 1, .listened 1, .timedOut 1]

/-- The response arrives before the request is pending. -/
def answeredEarly : List Event :=
  [.fetch 1 "k" samplePublisher, .checked 1, .broadcast 1 "r",
    .exchange (.received 5 validResponse), .requested 1, .listened 1, .timedOut 1]

/-- A key of another publisher with the same id is stored. -/
def otherStored : List Event :=
  [.fetch 1 "k" samplePublisher, .checked 1, .broadcast 1 "r", .requested 1, .listened 1,
    .storedLocally "k" otherPublisher sampleData, .emitted "k", .finished 1]

/-- A call timed out although its key was stored or a valid response arrived, or it returned
nothing. -/
def isLossy (state : State) : Bool :=
  (state.calls.get? 1).any fun call ↦
    (decide (call.phase = .timedOut) && (call.stored || call.answered)) ||
      decide (call.phase = .returned none none)

theorem not_notLossy_of_isLossy {state : State} (hlossy : isLossy state = true) :
    ¬ NotLossy state := by
  obtain ⟨call, hget, hcall⟩ := (Option.any_eq_true _ _).mp hlossy
  intro hnot
  obtain ⟨htimedOut, hreturned⟩ := hnot 1 call hget
  rcases Bool.or_eq_true_iff.mp hcall with hlost | hnothing
  · obtain ⟨hphase, hgot⟩ := Bool.and_eq_true_iff.mp hlost
    obtain ⟨hstored, hanswered⟩ := htimedOut (of_decide_eq_true hphase)
    rw [hstored, hanswered] at hgot
    cases hgot
  · obtain ⟨key, hkey, -⟩ := hreturned none none (of_decide_eq_true hnothing)
    cases hkey

theorem exists_lossy {events : List Event}
    (hlossy : (Transition.run (step sampleSubscriber) (.start .empty) events).any isLossy = true) :
    ∃ state, Transition.run (step sampleSubscriber) (.start .empty) events = some state ∧
      ¬ NotLossy state := by
  obtain ⟨state, hrun, hstate⟩ := (Option.any_eq_true _ _).mp hlossy
  exact ⟨state, hrun, not_notLossy_of_isLossy hstate⟩

/-- A call misses its key in each of these runs. -/
theorem missed_key :
    (∃ state, Transition.run (step sampleSubscriber) (.start .empty) storedBetween = some state ∧
      ¬ NotLossy state) ∧
    (∃ state, Transition.run (step sampleSubscriber) (.start .empty) answeredEarly = some state ∧
      ¬ NotLossy state) ∧
    ∃ state, Transition.run (step sampleSubscriber) (.start .empty) otherStored = some state ∧
      ¬ NotLossy state :=
  ⟨exists_lossy (by decide +kernel), exists_lossy (by decide +kernel),
    exists_lossy (by decide +kernel)⟩

end PomboStorageNode.Sdk.GroupKeyManager
