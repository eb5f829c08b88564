import PomboStorageNode.Library.Transition
import PomboStorageNode.Sdk.LocalGroupKeyStore
import PomboStorageNode.Sdk.ValidateStreamMessage

/-!
# Receiving group keys

`SubscriberKeyExchange.ts` handles the responses to its requests. Several responses may be in
progress at a time. A handler looks whether the request is pending, awaits its own id, takes the
request out of `pendingRequests`, awaits the validation, and then decrypts and stores each key of
the response on its own. Every key that is stored comes from a response that was validated, is
addressed to this subscriber and answers a request of it (`isSource_of_stored`). A response that
turns out to be invalid only then has, however, taken the request away already, and some of its keys
may be stored although another one cannot be decrypted. `changeNothing_of_reachable` is about runs
in which no such response takes a request or stores a key; `forged_response` is a run with one that
does.
-/

set_option autoImplicit false

namespace PomboStorageNode.Sdk.SubscriberKeyExchange

open Library StreamMessages Validation
open MessageFactory (EncryptedGroupKey)
open Storage.IngestValidator (toUserId)

/-! ### Responses and their handlers -/

/-- What `SubscriberKeyExchange` is given. -/
structure Subscriber where
  userId : String
  validation : ValidationConfig
  codec : GroupKeyCodec
  decryptWithPrivateKey : List UInt8 → AsymmetricEncryptionType → Option (List UInt8)

/-- A message, with what is answered while it is handled: the contract of the subscription to its
stream, and what its validation asks for. -/
structure Response where
  message : StreamMessage
  erc1271Contract : Option String
  registry : Registry

/-- The publisher whom a response names. -/
def Response.publisherId (response : Response) : String :=
  response.message.val.messageId.publisherId

/-- Where the handler of a response is: it awaits its own id, it has found that the response is for
it or is not, it awaits the validation, which may fail, or it decrypts and stores the keys. Of the
last ones it is known which remain, and whether one could not be decrypted. -/
inductive Phase
  | assigning
  | ignored
  | assigned
  | validating
  | failed
  | storing (remaining : List EncryptedGroupKey) (undecryptable : Bool)
  deriving DecidableEq

/-- The handler of a response. -/
structure Handler where
  response : Response
  content : GroupKeyResponse
  phase : Phase

/-- A key that was stored, and the handler that did it. -/
structure StoredKey where
  handler : ℕ
  keyId : String
  publisherId : String
  data : List UInt8
  deriving DecidableEq

/-- The key store, the requests that are pending, and the handlers; further the ids of all requests,
of those that the limit of the set has pushed out, and of those that a handler took out, each with
the handler, and the keys that were stored, the last first. -/
structure State where
  store : LocalGroupKeyStore
  pendingRequests : OrderedSet String
  handlers : OrderedMap ℕ Handler
  requested : List String
  evicted : List String
  taken : List (ℕ × String)
  stored : List StoredKey

/-- What happens: a request was sent, or is pushed out of the set of pending ones; a message is
received; the own id is known; the handler goes on; the validation ends; a key is decrypted, and
stored if that succeeds. -/
inductive Event
  | requestSent (requestId : String)
  | evicted (requestId : String)
  | received (id : ℕ) (response : Response)
  | identified (id : ℕ)
  | proceeded (id : ℕ)
  | validated (id : ℕ)
  | decrypted (id : ℕ) (key : EncryptedGroupKey)

namespace State

/-- Nothing is pending, and nothing is in progress. -/
def start (store : LocalGroupKeyStore) : State := ⟨store, .empty, .empty, [], [], [], []⟩

/-- A handler goes on. -/
def withPhase (state : State) (id : ℕ) (handler : Handler) (phase : Phase) : State :=
  { state with handlers := state.handlers.set id { handler with phase := phase } }

/-- `pendingRequests.delete`, by a handler. -/
def take (state : State) (id : ℕ) (requestId : String) : State :=
  { state with
    pendingRequests := state.pendingRequests.delete requestId
    taken := if requestId ∈ state.pendingRequests then (id, requestId) :: state.taken
      else state.taken }

/-- `store.set`, by a handler. -/
def storeKey (state : State) (key : StoredKey) : State :=
  { state with
    store := state.store.set key.keyId key.publisherId key.data
    stored := key :: state.stored }

end State

section Handling

variable (subscriber : Subscriber)

/-- The condition of `isAssignedToMe` behind the look at the pending requests. -/
def isAddressedToMe (response : Response) (content : GroupKeyResponse) : Bool :=
  decide (toUserId content.recipientId = subscriber.userId) ||
    decide (response.erc1271Contract = some (toUserId content.recipientId))

/-- `validateStreamMessage` does not throw. -/
def validates (response : Response) : Bool :=
  match ((validateStreamMessage response.registry subscriber.validation subscriber.codec
    response.message.val).exec []).1 with
  | .ok () => true
  | .error _ => false

/-- `decryptWithPrivateKey`, of a key in a response. -/
def decrypt (content : GroupKeyResponse) (key : EncryptedGroupKey) : Option (List UInt8) :=
  subscriber.decryptWithPrivateKey key.data content.encryptionType

/-- All keys of a response can be decrypted. -/
def decryptsAll (content : GroupKeyResponse) : Bool :=
  content.groupKeys.all fun key ↦ (decrypt subscriber content key).isSome

/-- The first part of `onMessage`, up to the look at the pending requests; `none` if there is
nothing to do, which includes that the content or the stream part cannot be read. -/
def beginHandling (state : State) (response : Response) : Option Handler :=
  if response.message.val.messageType ≠ .groupKeyResponse then none
  else
    (subscriber.codec.responseFromBinary response.message.val.content).bind fun content ↦
      if 100 ≤ response.message.val.messageId.streamPartition then none
      else if content.requestId ∈ state.pendingRequests then some ⟨response, content, .assigning⟩
      else none

/-- The decryption of a key, and its storing. -/
def handleKey (state : State) (id : ℕ) (handler : Handler) (key : EncryptedGroupKey)
    (remaining : List EncryptedGroupKey) (undecryptable : Bool) : State :=
  match decrypt subscriber handler.content key with
  | some data =>
    (state.withPhase id handler (.storing (remaining.erase key) undecryptable)).storeKey
      ⟨id, key.id, handler.response.publisherId, data⟩
  | none => state.withPhase id handler (.storing (remaining.erase key) true)

/-- The state after an event, or `none` when it cannot happen. -/
def step (state : State) : Event → Option State
  | .requestSent requestId => some { state with
      pendingRequests := state.pendingRequests.add requestId
      requested := requestId :: state.requested }
  | .evicted requestId =>
    if requestId ∈ state.pendingRequests then
      some { state with
        pendingRequests := state.pendingRequests.delete requestId
        evicted := requestId :: state.evicted }
    else none
  | .received id response =>
    if state.handlers.has id then none
    else match beginHandling subscriber state response with
      | some handler => some { state with handlers := state.handlers.set id handler }
      | none => some state
  | .identified id => (state.handlers.get? id).bind fun handler ↦
    if handler.phase = .assigning then
      some (state.withPhase id handler
        (if isAddressedToMe subscriber handler.response handler.content then .assigned
          else .ignored))
    else none
  | .proceeded id => (state.handlers.get? id).bind fun handler ↦
    if handler.phase = .assigned then
      some ((state.withPhase id handler .validating).take id handler.content.requestId)
    else none
  | .validated id => (state.handlers.get? id).bind fun handler ↦
    if handler.phase = .validating then
      some (state.withPhase id handler
        (if validates subscriber handler.response then .storing handler.content.groupKeys false
          else .failed))
    else none
  | .decrypted id key => (state.handlers.get? id).bind fun handler ↦
    match handler.phase with
    | .storing remaining undecryptable =>
      if key ∈ remaining then
        some (handleKey subscriber state id handler key remaining undecryptable)
      else none
    | .assigning | .ignored | .assigned | .validating | .failed => none

end Handling

/-! ### Where keys come from -/

/-- A stored key is one that a response contains. -/
structure Handler.Contains (subscriber : Subscriber) (handler : Handler) (key : StoredKey) :
    Prop where
  publisher : key.publisherId = handler.response.publisherId
  decrypted : ∃ encrypted ∈ handler.content.groupKeys, encrypted.id = key.keyId ∧
    decrypt subscriber handler.content encrypted = some key.data

/-- A response is a source of a key: it contains the key, was validated with its publisher and this
subscriber as the ends of the key exchange, is addressed to this subscriber and answers a request of
it. -/
structure Handler.IsSource (subscriber : Subscriber) (requested : List String) (handler : Handler)
    (key : StoredKey) : Prop extends handler.Contains subscriber key where
  ends : groupKeyEnds subscriber.codec handler.response.message.val =
    some (key.publisherId, toUserId handler.content.recipientId)
  signature : handler.response.registry.isSignatureValid handler.response.message.val = some true
  permissions : subscriber.validation.permissions = true → Validated handler.response.registry
    handler.response.message.val key.publisherId (toUserId handler.content.recipientId)
  addressed : isAddressedToMe subscriber handler.response handler.content = true
  requested : handler.content.requestId ∈ requested

/-- What has been found out about a response when its handler is in a phase. -/
def Handler.PhaseFits (subscriber : Subscriber) (handler : Handler) : Prop :=
  match handler.phase with
  | .assigning | .ignored => True
  | .assigned | .validating =>
    isAddressedToMe subscriber handler.response handler.content = true
  | .failed => validates subscriber handler.response = false
  | .storing remaining undecryptable =>
    isAddressedToMe subscriber handler.response handler.content = true ∧
      validates subscriber handler.response = true ∧
      (∀ key ∈ remaining, key ∈ handler.content.groupKeys) ∧
      (undecryptable = true → decryptsAll subscriber handler.content = false)

/-- A handler belongs to a response that answers a request. -/
structure Handler.Fits (subscriber : Subscriber) (requested : List String) (handler : Handler) :
    Prop where
  isResponse : handler.response.message.val.messageType = .groupKeyResponse
  decoded : subscriber.codec.responseFromBinary handler.response.message.val.content =
    some handler.content
  requested : handler.content.requestId ∈ requested
  phase : handler.PhaseFits subscriber

/-- The handler decrypts and stores keys. -/
def Handler.IsStoring (handler : Handler) : Prop :=
  ∃ remaining undecryptable, handler.phase = .storing remaining undecryptable

/-- What holds in every run: the handlers fit their responses, the stored keys are in responses
whose handlers got to storing, and they alone are what changed the store. -/
structure Invariant (subscriber : Subscriber) (store : LocalGroupKeyStore) (state : State) :
    Prop where
  pending : ∀ requestId ∈ state.pendingRequests, requestId ∈ state.requested
  handlers : ∀ id handler, state.handlers.get? id = some handler →
    handler.Fits subscriber state.requested
  stored : ∀ key ∈ state.stored, ∃ handler, state.handlers.get? key.handler = some handler ∧
    handler.IsStoring ∧ handler.Contains subscriber key
  replay : state.store = state.stored.foldr (fun key store ↦ store.set key.keyId key.publisherId
    key.data) store

section Sources

variable {subscriber : Subscriber} {store : LocalGroupKeyStore} {state after : State}
  {handler : Handler} {id : ℕ}

theorem exec_of_validates {response : Response} (hvalid : validates subscriber response = true) :
    ∃ confirmations, (validateStreamMessage response.registry subscriber.validation
      subscriber.codec response.message.val).exec [] = (.ok (), confirmations) := by
  unfold validates at hvalid
  generalize hexec : (validateStreamMessage response.registry subscriber.validation
    subscriber.codec response.message.val).exec [] = outcome at hvalid
  obtain ⟨_ | ⟨⟨⟩⟩, confirmations⟩ := outcome
  · cases hvalid
  · exact ⟨confirmations, rfl⟩

/-- A response whose handler got to storing is a source of the keys it contains. -/
theorem Handler.Fits.isSource {requested : List String} {key : StoredKey}
    (hfits : handler.Fits subscriber requested) (hstoring : handler.IsStoring)
    (hcontains : handler.Contains subscriber key) : handler.IsSource subscriber requested key := by
  obtain ⟨remaining, undecryptable, hphase⟩ := hstoring
  have hfound := hfits.phase
  rw [PhaseFits, hphase] at hfound
  obtain ⟨haddressed, hvalidates, -, -⟩ := hfound
  obtain ⟨confirmations, hexec⟩ := exec_of_validates hvalidates
  have hends : groupKeyEnds subscriber.codec handler.response.message.val =
      some (key.publisherId, toUserId handler.content.recipientId) := by
    rw [groupKeyEnds, hfits.isResponse, hfits.decoded, hcontains.publisher]
    rfl
  exact { hcontains with
    ends := hends
    signature := signature_of_validated hexec
    permissions := fun hpermissions ↦ (confirmed_of_validated hpermissions hends hexec).1
    addressed := haddressed
    requested := hfits.requested }

theorem Handler.not_isStoring {phase : Phase} (hphase : handler.phase = phase)
    (hne : ∀ remaining undecryptable, phase ≠ .storing remaining undecryptable) :
    ¬ handler.IsStoring := by
  rintro ⟨remaining, undecryptable, hstoring⟩
  exact hne remaining undecryptable (hphase.symm.trans hstoring)

theorem Handler.Fits.mono {requested more : List String} (hfits : handler.Fits subscriber requested)
    (hmore : ∀ requestId ∈ requested, requestId ∈ more) : handler.Fits subscriber more :=
  { hfits with requested := hmore _ hfits.requested }

theorem Handler.Fits.withPhase {requested : List String} {phase : Phase}
    (hfits : handler.Fits subscriber requested)
    (hphase : Handler.PhaseFits subscriber { handler with phase := phase }) :
    Handler.Fits subscriber requested { handler with phase := phase } :=
  { hfits with phase := hphase }

/-- A handler begins with a response that can be read and answers a pending request. -/
theorem beginHandling_eq_some {response : Response}
    (hbegin : beginHandling subscriber state response = some handler) :
    response.message.val.messageType = .groupKeyResponse ∧ ∃ content,
      subscriber.codec.responseFromBinary response.message.val.content = some content ∧
        content.requestId ∈ state.pendingRequests ∧ handler = ⟨response, content, .assigning⟩ := by
  by_cases htype : response.message.val.messageType ≠ .groupKeyResponse
  · rw [beginHandling, if_pos htype] at hbegin
    cases hbegin
  rw [beginHandling, if_neg htype] at hbegin
  obtain ⟨content, hdecoded, hrest⟩ := Option.bind_eq_some_iff.mp hbegin
  split_ifs at hrest with hpartition hmem
  cases hrest
  exact ⟨not_not.mp htype, content, hdecoded, hmem, rfl⟩

/-- The handler of a response that was just received fits it. -/
theorem fits_of_beginHandling {response : Response}
    (hpending : ∀ requestId ∈ state.pendingRequests, requestId ∈ state.requested)
    (hbegin : beginHandling subscriber state response = some handler) :
    handler.Fits subscriber state.requested := by
  obtain ⟨htype, content, hdecoded, hmem, rfl⟩ := beginHandling_eq_some hbegin
  exact ⟨htype, hdecoded, hpending _ hmem, trivial⟩

/-- The handler of a response that was just received belongs to it. -/
theorem response_of_beginHandling {response : Response}
    (hbegin : beginHandling subscriber state response = some handler) :
    handler.response = response := by
  obtain ⟨-, content, -, -, rfl⟩ := beginHandling_eq_some hbegin
  rfl

/-- A response that is received begins a new handler, or changes nothing. -/
theorem received_cases {response : Response}
    (hstep : step subscriber state (.received id response) = some after) :
    after = state ∨ ∃ handler, state.handlers.get? id = none ∧
      beginHandling subscriber state response = some handler ∧
        after = { state with handlers := state.handlers.set id handler } := by
  rw [step] at hstep
  split_ifs at hstep with hfresh
  cases hbegin : beginHandling subscriber state response with
  | none =>
    rw [hbegin] at hstep
    cases hstep
    exact Or.inl rfl
  | some handler =>
    rw [hbegin] at hstep
    cases hstep
    rw [OrderedMap.has, Option.not_isSome_iff_eq_none] at hfresh
    exact Or.inr ⟨handler, hfresh, rfl, rfl⟩

theorem evicted_cases {requestId : String}
    (hstep : step subscriber state (.evicted requestId) = some after) :
    after = { state with
      pendingRequests := state.pendingRequests.delete requestId
      evicted := requestId :: state.evicted } := by
  obtain ⟨-, hafter⟩ := Option.ite_none_right_eq_some.mp hstep
  exact (Option.some.inj hafter).symm

theorem identified_cases (hstep : step subscriber state (.identified id) = some after) :
    ∃ handler, state.handlers.get? id = some handler ∧ handler.phase = .assigning ∧
      after = state.withPhase id handler
        (if isAddressedToMe subscriber handler.response handler.content then .assigned
          else .ignored) := by
  obtain ⟨handler, hget, hnext⟩ := Option.bind_eq_some_iff.mp hstep
  obtain ⟨hphase, hafter⟩ := Option.ite_none_right_eq_some.mp hnext
  exact ⟨handler, hget, hphase, (Option.some.inj hafter).symm⟩

theorem proceeded_cases (hstep : step subscriber state (.proceeded id) = some after) :
    ∃ handler, state.handlers.get? id = some handler ∧ handler.phase = .assigned ∧
      after = (state.withPhase id handler .validating).take id handler.content.requestId := by
  obtain ⟨handler, hget, hnext⟩ := Option.bind_eq_some_iff.mp hstep
  obtain ⟨hphase, hafter⟩ := Option.ite_none_right_eq_some.mp hnext
  exact ⟨handler, hget, hphase, (Option.some.inj hafter).symm⟩

theorem validated_cases (hstep : step subscriber state (.validated id) = some after) :
    ∃ handler, state.handlers.get? id = some handler ∧ handler.phase = .validating ∧
      after = state.withPhase id handler
        (if validates subscriber handler.response then .storing handler.content.groupKeys false
          else .failed) := by
  obtain ⟨handler, hget, hnext⟩ := Option.bind_eq_some_iff.mp hstep
  obtain ⟨hphase, hafter⟩ := Option.ite_none_right_eq_some.mp hnext
  exact ⟨handler, hget, hphase, (Option.some.inj hafter).symm⟩

/-- A handler that goes on keeps the invariant if it fits its new phase, and if it does not leave
storing. -/
theorem Invariant.withPhase (hinvariant : Invariant subscriber store state) {phase : Phase}
    (hget : state.handlers.get? id = some handler)
    (hphase : Handler.PhaseFits subscriber { handler with phase := phase })
    (hstoring : handler.IsStoring → Handler.IsStoring { handler with phase := phase }) :
    Invariant subscriber store (state.withPhase id handler phase) where
  pending := hinvariant.pending
  handlers := by
    intro other found hfound
    rcases OrderedMap.get?_set_eq_some_iff.mp hfound with ⟨-, rfl⟩ | ⟨-, hold⟩
    · exact (hinvariant.handlers id handler hget).withPhase hphase
    · exact hinvariant.handlers other found hold
  stored := by
    intro key hkey
    obtain ⟨found, hfound, hisStoring, hcontains⟩ := hinvariant.stored key hkey
    by_cases hid : key.handler = id
    · rw [hid, hget] at hfound
      cases hfound
      refine ⟨{ handler with phase := phase }, ?_, hstoring hisStoring, ⟨hcontains.1, hcontains.2⟩⟩
      rw [hid]
      exact OrderedMap.get?_set_self ..
    · exact ⟨found, (OrderedMap.get?_set_of_ne _ _ hid).trans hfound, hisStoring, hcontains⟩
  replay := hinvariant.replay

theorem Invariant.storeKey (hinvariant : Invariant subscriber store state) {key : StoredKey}
    (hget : state.handlers.get? key.handler = some handler) (hstoring : handler.IsStoring)
    (hcontains : handler.Contains subscriber key) :
    Invariant subscriber store (state.storeKey key) where
  pending := hinvariant.pending
  handlers := hinvariant.handlers
  stored := by
    intro other hother
    rcases List.mem_cons.mp hother with rfl | hother
    · exact ⟨handler, hget, hstoring, hcontains⟩
    · exact hinvariant.stored other hother
  replay := by
    show state.store.set _ _ _ = _
    rw [hinvariant.replay]
    rfl

/-- A key is decrypted in the last phase, and only if it is one of those that remain. -/
theorem storing_of_decrypted {key : EncryptedGroupKey}
    (hnext : (match handler.phase with
      | .storing remaining undecryptable =>
        if key ∈ remaining then
          some (handleKey subscriber state id handler key remaining undecryptable)
        else none
      | .assigning | .ignored | .assigned | .validating | .failed => none) = some after) :
    ∃ remaining undecryptable, handler.phase = .storing remaining undecryptable ∧
      key ∈ remaining ∧
      handleKey subscriber state id handler key remaining undecryptable = after := by
  cases hphase : handler.phase with
  | storing remaining undecryptable =>
    rw [hphase] at hnext
    dsimp only at hnext
    split_ifs at hnext with hmem
    exact ⟨remaining, undecryptable, rfl, hmem, Option.some.inj hnext⟩
  | assigning | ignored | assigned | validating | failed =>
    rw [hphase] at hnext
    cases hnext

theorem Invariant.handleKey (hinvariant : Invariant subscriber store state)
    {key : EncryptedGroupKey} {remaining : List EncryptedGroupKey} {undecryptable : Bool}
    (hget : state.handlers.get? id = some handler)
    (hphase : handler.phase = .storing remaining undecryptable) (hmem : key ∈ remaining) :
    Invariant subscriber store
      (handleKey subscriber state id handler key remaining undecryptable) := by
  have hfits := (hinvariant.handlers id handler hget).phase
  rw [Handler.PhaseFits, hphase] at hfits
  obtain ⟨haddressed, hvalidates, hremaining, hundecryptable⟩ := hfits
  have hrest : ∀ other ∈ remaining.erase key, other ∈ handler.content.groupKeys :=
    fun other hother ↦ hremaining other (List.mem_of_mem_erase hother)
  unfold SubscriberKeyExchange.handleKey
  cases hdecrypt : decrypt subscriber handler.content key with
  | none =>
    refine hinvariant.withPhase hget ⟨haddressed, hvalidates, hrest, fun _ ↦ ?_⟩
      fun _ ↦ ⟨_, _, rfl⟩
    exact List.all_eq_false.mpr ⟨key, hremaining key hmem, by simp [hdecrypt]⟩
  | some data =>
    have hkept : Invariant subscriber store
        (state.withPhase id handler (.storing (remaining.erase key) undecryptable)) :=
      hinvariant.withPhase hget ⟨haddressed, hvalidates, hrest, hundecryptable⟩
        fun _ ↦ ⟨_, _, rfl⟩
    exact hkept.storeKey (OrderedMap.get?_set_self ..) ⟨_, _, rfl⟩
      ⟨rfl, key, hremaining key hmem, rfl, hdecrypt⟩

theorem invariant_step {event : Event} (hinvariant : Invariant subscriber store state)
    (hstep : step subscriber state event = some after) : Invariant subscriber store after := by
  cases event with
  | requestSent requestId =>
    cases hstep
    refine { hinvariant with pending := ?_, handlers := fun other found hfound ↦ ?_ }
    · intro other hother
      rcases OrderedSet.mem_add.mp hother with rfl | hother
      · exact List.mem_cons_self
      · exact List.mem_cons_of_mem _ (hinvariant.pending other hother)
    · exact (hinvariant.handlers other found hfound).mono fun _ ↦ List.mem_cons_of_mem _
  | evicted requestId =>
    obtain rfl := evicted_cases hstep
    exact { hinvariant with
      pending := fun other hother ↦ hinvariant.pending other (OrderedSet.mem_delete.mp hother).1 }
  | received id response =>
    rcases received_cases hstep with rfl | ⟨handler, hnone, hbegin, rfl⟩
    · exact hinvariant
    · refine { hinvariant with handlers := ?_, stored := ?_ }
      · intro other found hfound
        rcases OrderedMap.get?_set_eq_some_iff.mp hfound with ⟨-, rfl⟩ | ⟨-, hold⟩
        · exact fits_of_beginHandling hinvariant.pending hbegin
        · exact hinvariant.handlers other found hold
      · intro key hkey
        obtain ⟨found, hfound, hrest⟩ := hinvariant.stored key hkey
        have hne : key.handler ≠ id := by
          rintro rfl
          rw [hnone] at hfound
          cases hfound
        exact ⟨found, (OrderedMap.get?_set_of_ne _ _ hne).trans hfound, hrest⟩
  | identified id =>
    obtain ⟨handler, hget, hphase, rfl⟩ := identified_cases hstep
    split_ifs with haddressed
    · exact hinvariant.withPhase hget haddressed fun hstoring ↦
        absurd hstoring (Handler.not_isStoring hphase (by simp))
    · exact hinvariant.withPhase hget trivial fun hstoring ↦
        absurd hstoring (Handler.not_isStoring hphase (by simp))
  | proceeded id =>
    obtain ⟨handler, hget, hphase, rfl⟩ := proceeded_cases hstep
    have haddressed := (hinvariant.handlers id handler hget).phase
    rw [Handler.PhaseFits, hphase] at haddressed
    have hkept : Invariant subscriber store (state.withPhase id handler .validating) :=
      hinvariant.withPhase hget haddressed fun hstoring ↦
        absurd hstoring (Handler.not_isStoring hphase (by simp))
    exact { hkept with
      pending := fun other hother ↦ hinvariant.pending other (OrderedSet.mem_delete.mp hother).1 }
  | validated id =>
    obtain ⟨handler, hget, hphase, rfl⟩ := validated_cases hstep
    split_ifs with hvalidates
    · have haddressed := (hinvariant.handlers id handler hget).phase
      rw [Handler.PhaseFits, hphase] at haddressed
      exact hinvariant.withPhase hget
        ⟨haddressed, hvalidates, fun _ hkey ↦ hkey, fun hfalse ↦ nomatch hfalse⟩
        fun _ ↦ ⟨_, _, rfl⟩
    · exact hinvariant.withPhase hget (Bool.eq_false_iff.mpr hvalidates) fun hstoring ↦
        absurd hstoring (Handler.not_isStoring hphase (by simp))
  | decrypted id key =>
    obtain ⟨handler, hget, hnext⟩ := Option.bind_eq_some_iff.mp hstep
    obtain ⟨remaining, undecryptable, hphase, hmem, hafter⟩ := storing_of_decrypted hnext
    cases hafter
    exact hinvariant.handleKey hget hphase hmem

theorem invariant_start (subscriber : Subscriber) (store : LocalGroupKeyStore) :
    Invariant subscriber store (.start store) where
  pending := fun requestId hmem ↦ absurd hmem (OrderedSet.notMem_empty requestId)
  handlers := by
    rintro id handler hget
    cases (OrderedMap.get?_empty id).symm.trans hget
  stored := fun _ hmem ↦ nomatch hmem
  replay := rfl

/-- In every run, whoever sends which responses in which order: a key that is stored comes from a
response that was validated, is addressed to this subscriber and answers a request of it. -/
theorem isSource_of_stored (hinvariant : Invariant subscriber store state) :
    ∀ key ∈ state.stored, ∃ handler, state.handlers.get? key.handler = some handler ∧
      handler.IsSource subscriber state.requested key := by
  intro key hkey
  obtain ⟨handler, hget, hstoring, hcontains⟩ := hinvariant.stored key hkey
  exact ⟨handler, hget, (hinvariant.handlers _ handler hget).isSource hstoring hcontains⟩

end Sources

/-! ### What invalid responses change -/

/-- A response that is valid: it is validated, and all its keys can be decrypted. -/
def Handler.isGenuine (subscriber : Subscriber) (handler : Handler) : Bool :=
  validates subscriber handler.response && decryptsAll subscriber handler.content

/-- The validation or a decryption has failed. -/
def Handler.HasFailed (handler : Handler) : Prop :=
  handler.phase = .failed ∨ ∃ remaining, handler.phase = .storing remaining true

/-- The condition: a pending request is taken out for a valid response only, and a key is stored
only if all keys of its response can be decrypted. -/
def takesGenuine (subscriber : Subscriber) (state : State) : Event → Bool
  | .proceeded id => (state.handlers.get? id).all fun handler ↦
    decide (handler.content.requestId ∉ state.pendingRequests) || handler.isGenuine subscriber
  | .decrypted id key => (state.handlers.get? id).all fun handler ↦
    (decrypt subscriber handler.content key).isNone || decryptsAll subscriber handler.content
  | .requestSent _ | .evicted _ | .received .. | .identified _ | .validated _ => true

/-- Keys come from their sources alone; a response that failed has taken no request and stored no
key; and a request is pending until the limit pushes it out or a valid response takes it. -/
structure ChangeNothing (subscriber : Subscriber) (store : LocalGroupKeyStore) (state : State) :
    Prop where
  sources : ∀ key ∈ state.stored, ∃ handler, state.handlers.get? key.handler = some handler ∧
    handler.IsSource subscriber state.requested key
  replay : state.store = state.stored.foldr (fun key store ↦ store.set key.keyId key.publisherId
    key.data) store
  failures : ∀ id handler, state.handlers.get? id = some handler → handler.HasFailed →
    (∀ requestId, (id, requestId) ∉ state.taken) ∧ ∀ key ∈ state.stored, key.handler ≠ id
  pending : ∀ requestId ∈ state.requested, requestId ∈ state.pendingRequests ∨
    requestId ∈ state.evicted ∨ ∃ id handler, state.handlers.get? id = some handler ∧
      handler.isGenuine subscriber = true ∧ (id, requestId) ∈ state.taken

/-- What the condition keeps: requests were taken for valid responses, keys are stored from
responses that can be decrypted, and a request that is gone was pushed out or taken. -/
structure GenuineInvariant (subscriber : Subscriber) (state : State) : Prop where
  taken : ∀ id requestId, (id, requestId) ∈ state.taken → ∃ handler,
    state.handlers.get? id = some handler ∧ handler.isGenuine subscriber = true
  stored : ∀ key ∈ state.stored, ∃ handler, state.handlers.get? key.handler = some handler ∧
    decryptsAll subscriber handler.content = true
  pending : ∀ requestId ∈ state.requested, requestId ∈ state.pendingRequests ∨
    requestId ∈ state.evicted ∨ ∃ id, (id, requestId) ∈ state.taken

section Genuine

variable {subscriber : Subscriber} {store : LocalGroupKeyStore} {state after : State}
  {handler : Handler} {id : ℕ}

/-- Every handler is still there, with its response. -/
def KeepsResponses (state after : State) : Prop :=
  ∀ id handler, state.handlers.get? id = some handler → ∃ found,
    after.handlers.get? id = some found ∧ found.response = handler.response ∧
      found.content = handler.content

theorem keepsResponses_withPhase (hget : state.handlers.get? id = some handler) (phase : Phase) :
    KeepsResponses state (state.withPhase id handler phase) := by
  intro other found hfound
  by_cases hid : other = id
  · subst hid
    cases hget.symm.trans hfound
    exact ⟨_, OrderedMap.get?_set_self .., rfl, rfl⟩
  · exact ⟨found, (OrderedMap.get?_set_of_ne _ _ hid).trans hfound, rfl, rfl⟩

/-- With the same logs, the invariant needs the responses only. -/
theorem GenuineInvariant.of_keepsResponses (hgenuine : GenuineInvariant subscriber state)
    (hkeeps : KeepsResponses state after) (htaken : after.taken = state.taken)
    (hstored : after.stored = state.stored)
    (hpending : ∀ requestId ∈ after.requested, requestId ∈ after.pendingRequests ∨
      requestId ∈ after.evicted ∨ ∃ id, (id, requestId) ∈ after.taken) :
    GenuineInvariant subscriber after where
  taken := by
    intro id requestId hmem
    obtain ⟨handler, hget, hvalid⟩ := hgenuine.taken id requestId (htaken ▸ hmem)
    obtain ⟨found, hfound, hresponse, hcontent⟩ := hkeeps id handler hget
    refine ⟨found, hfound, ?_⟩
    rw [Handler.isGenuine, hresponse, hcontent]
    exact hvalid
  stored := by
    intro key hmem
    obtain ⟨handler, hget, hdecrypts⟩ := hgenuine.stored key (hstored ▸ hmem)
    obtain ⟨found, hfound, -, hcontent⟩ := hkeeps key.handler handler hget
    exact ⟨found, hfound, hcontent ▸ hdecrypts⟩
  pending := hpending

theorem GenuineInvariant.withPhase (hgenuine : GenuineInvariant subscriber state)
    (hget : state.handlers.get? id = some handler) (phase : Phase) :
    GenuineInvariant subscriber (state.withPhase id handler phase) :=
  hgenuine.of_keepsResponses (keepsResponses_withPhase hget phase) rfl rfl hgenuine.pending

/-- A valid response takes its request, and one whose request is gone takes nothing. -/
theorem GenuineInvariant.take (hgenuine : GenuineInvariant subscriber state)
    (hget : state.handlers.get? id = some handler)
    (hvalid : handler.content.requestId ∈ state.pendingRequests →
      handler.isGenuine subscriber = true) :
    GenuineInvariant subscriber (state.take id handler.content.requestId) where
  taken := by
    intro other requestId hmem
    by_cases hpending : handler.content.requestId ∈ state.pendingRequests
    · rw [State.take, if_pos hpending] at hmem
      rcases List.mem_cons.mp hmem with heq | hmem
      · cases heq
        exact ⟨handler, hget, hvalid hpending⟩
      · exact hgenuine.taken other requestId hmem
    · rw [State.take, if_neg hpending] at hmem
      exact hgenuine.taken other requestId hmem
  stored := hgenuine.stored
  pending := by
    intro requestId hmem
    rcases hgenuine.pending requestId hmem with hpending | hevicted | ⟨other, htaken⟩
    · by_cases heq : requestId = handler.content.requestId
      · refine Or.inr (Or.inr ⟨id, ?_⟩)
        rw [State.take, if_pos (heq ▸ hpending), heq]
        exact List.mem_cons_self
      · exact Or.inl (OrderedSet.mem_delete.mpr ⟨hpending, heq⟩)
    · exact Or.inr (Or.inl hevicted)
    · refine Or.inr (Or.inr ⟨other, ?_⟩)
      unfold State.take
      split_ifs
      · exact List.mem_cons_of_mem _ htaken
      · exact htaken

theorem GenuineInvariant.handleKey (hgenuine : GenuineInvariant subscriber state)
    {key : EncryptedGroupKey} {remaining : List EncryptedGroupKey} {undecryptable : Bool}
    (hget : state.handlers.get? id = some handler)
    (hdecrypts : (decrypt subscriber handler.content key).isNone = true ∨
      decryptsAll subscriber handler.content = true) :
    GenuineInvariant subscriber
      (handleKey subscriber state id handler key remaining undecryptable) := by
  unfold SubscriberKeyExchange.handleKey
  cases hdecrypt : decrypt subscriber handler.content key with
  | none => exact hgenuine.withPhase hget _
  | some data =>
    have hkept := hgenuine.withPhase hget (.storing (remaining.erase key) undecryptable)
    refine { hkept with stored := fun other hother ↦ ?_ }
    rcases List.mem_cons.mp hother with rfl | hother
    · refine ⟨_, OrderedMap.get?_set_self .., hdecrypts.resolve_left ?_⟩
      rw [hdecrypt]
      exact Bool.false_ne_true
    · exact hkept.stored other hother

theorem genuineInvariant_start (subscriber : Subscriber) (store : LocalGroupKeyStore) :
    GenuineInvariant subscriber (.start store) where
  taken := fun _ _ hmem ↦ nomatch hmem
  stored := fun _ hmem ↦ nomatch hmem
  pending := fun _ hmem ↦ nomatch hmem

theorem genuineInvariant_step {event : Event} (hgenuine : GenuineInvariant subscriber state)
    (hcareful : takesGenuine subscriber state event = true)
    (hstep : step subscriber state event = some after) : GenuineInvariant subscriber after := by
  cases event with
  | requestSent requestId =>
    cases hstep
    refine { hgenuine with pending := fun other hother ↦ ?_ }
    rcases List.mem_cons.mp hother with rfl | hother
    · exact Or.inl (OrderedSet.mem_add.mpr (Or.inl rfl))
    · exact (hgenuine.pending other hother).imp_left fun hpending ↦
        OrderedSet.mem_add.mpr (Or.inr hpending)
  | evicted requestId =>
    rw [step] at hstep
    split_ifs at hstep
    cases hstep
    refine { hgenuine with pending := fun other hother ↦ ?_ }
    rcases hgenuine.pending other hother with hpending | hevicted | htaken
    · by_cases heq : other = requestId
      · exact Or.inr (Or.inl (heq ▸ List.mem_cons_self))
      · exact Or.inl (OrderedSet.mem_delete.mpr ⟨hpending, heq⟩)
    · exact Or.inr (Or.inl (List.mem_cons_of_mem _ hevicted))
    · exact Or.inr (Or.inr htaken)
  | received id response =>
    rcases received_cases hstep with rfl | ⟨handler, hnone, -, rfl⟩
    · exact hgenuine
    · refine hgenuine.of_keepsResponses (fun other found hfound ↦ ?_) rfl rfl hgenuine.pending
      have hne : other ≠ id := by
        rintro rfl
        rw [hnone] at hfound
        cases hfound
      exact ⟨found, (OrderedMap.get?_set_of_ne _ _ hne).trans hfound, rfl, rfl⟩
  | identified id =>
    obtain ⟨handler, hget, -, rfl⟩ := identified_cases hstep
    exact hgenuine.withPhase hget _
  | proceeded id =>
    obtain ⟨handler, hget, -, rfl⟩ := proceeded_cases hstep
    rw [takesGenuine, hget, Option.all_some, Bool.or_eq_true, decide_eq_true_iff] at hcareful
    show GenuineInvariant subscriber
      ((state.take id handler.content.requestId).withPhase id handler .validating)
    have htaken : GenuineInvariant subscriber (state.take id handler.content.requestId) :=
      hgenuine.take hget fun hpending ↦ hcareful.resolve_left fun hnot ↦ hnot hpending
    exact htaken.withPhase hget .validating
  | validated id =>
    obtain ⟨handler, hget, -, rfl⟩ := validated_cases hstep
    exact hgenuine.withPhase hget _
  | decrypted id key =>
    obtain ⟨handler, hget, hnext⟩ := Option.bind_eq_some_iff.mp hstep
    obtain ⟨remaining, undecryptable, -, -, rfl⟩ := storing_of_decrypted hnext
    rw [takesGenuine, hget, Option.all_some, Bool.or_eq_true] at hcareful
    exact hgenuine.handleKey hget hcareful

/-- A handler that has failed is not that of a valid response. -/
theorem Handler.Fits.not_isGenuine {requested : List String}
    (hfits : handler.Fits subscriber requested) (hfailed : handler.HasFailed) :
    handler.isGenuine subscriber = false ∧
      (handler.IsStoring → decryptsAll subscriber handler.content = false) := by
  have hphase := hfits.phase
  rcases hfailed with hfailed | ⟨remaining, hfailed⟩
  · rw [PhaseFits, hfailed] at hphase
    refine ⟨by rw [isGenuine, hphase, Bool.false_and], fun hstoring ↦ ?_⟩
    exact absurd hstoring (not_isStoring hfailed (by simp))
  · rw [PhaseFits, hfailed] at hphase
    have hdecrypts := hphase.2.2.2 rfl
    exact ⟨by rw [isGenuine, hdecrypts, Bool.and_false], fun _ ↦ hdecrypts⟩

/-- Where both invariants hold, invalid responses have changed nothing. -/
theorem changeNothing_of_invariants (hinvariant : Invariant subscriber store state)
    (hgenuine : GenuineInvariant subscriber state) : ChangeNothing subscriber store state where
  sources := isSource_of_stored hinvariant
  replay := hinvariant.replay
  failures := by
    intro id handler hget hfailed
    have hinvalid := (hinvariant.handlers id handler hget).not_isGenuine hfailed
    constructor
    · intro requestId htaken
      obtain ⟨found, hfound, hvalid⟩ := hgenuine.taken id requestId htaken
      cases hget.symm.trans hfound
      exact absurd hvalid (Bool.eq_false_iff.mp hinvalid.1)
    · rintro key hkey rfl
      obtain ⟨found, hfound, hdecrypts⟩ := hgenuine.stored key hkey
      cases hget.symm.trans hfound
      obtain ⟨other, hother, hstoring, -⟩ := hinvariant.stored key hkey
      cases hget.symm.trans hother
      exact absurd hdecrypts (Bool.eq_false_iff.mp (hinvalid.2 hstoring))
  pending := by
    intro requestId hrequested
    refine (hgenuine.pending requestId hrequested).imp_right (Or.imp_right ?_)
    rintro ⟨id, htaken⟩
    obtain ⟨handler, hget, hvalid⟩ := hgenuine.taken id requestId htaken
    exact ⟨id, handler, hget, hvalid, htaken⟩

end Genuine

/-! ### A valid response, and two that are not -/

/-- The content of a response to the request `r`. -/
def sampleContent (groupKeys : List EncryptedGroupKey) : GroupKeyResponse :=
  ⟨"r", [0xbb], groupKeys, .rsa⟩

/-- The key of a response, encrypted as `0xcc` and the key. -/
def goodKey : EncryptedGroupKey := ⟨"k", [0xcc, 9]⟩

/-- A key that cannot be decrypted. -/
def badKey : EncryptedGroupKey := ⟨"b", []⟩

/-- A subscriber. The first byte of an encoded response says how many keys it has. -/
def sampleSubscriber : Subscriber where
  userId := "0xbb"
  validation := ⟨true, true⟩
  codec :=
    { requestToBinary := fun _ ↦ none
      requestFromBinary := fun _ ↦ none
      responseToBinary := fun response ↦ some [UInt8.ofNat response.groupKeys.length]
      responseFromBinary := fun content ↦
        if content = [1] then some (sampleContent [goodKey])
        else if content = [2] then some (sampleContent [goodKey, badKey])
        else none }
  decryptWithPrivateKey := fun cipher _ ↦ if cipher = [] then none else some cipher.tail

/-- A response with the given number of keys, which its publisher has signed or not. -/
def sampleResponse (keyCount : UInt8) (isSigned : Bool) : Response where
  message :=
    ⟨{ messageId := ⟨"chat", 0, 5, 0, "0xaa", "chain"⟩
       prevMsgRef := none
       messageType := .groupKeyResponse
       content := [keyCount]
       contentType := .binary
       signature := [3]
       signatureType := .ecdsaSecp256k1Evm
       encryptionType := .none
       groupKeyId := none
       newGroupKey := none }, rfl⟩
  erc1271Contract := none
  registry :=
    { isSignatureValid := fun _ ↦ some isSigned
      getPartitionCount := fun _ ↦ some 1
      isStreamPublisher := fun _ userId ↦ some (decide (userId = "0xaa"))
      isStreamSubscriber := fun _ userId ↦ some (decide (userId = "0xbb")) }

/-- A valid response is handled. A second one, in progress at the same time, is forged. -/
def validFirst : List Event :=
  [.requestSent "r", .received 1 (sampleResponse 1 true), .received 2 (sampleResponse 1 false),
    .identified 2, .identified 1, .proceeded 1, .proceeded 2, .validated 2, .validated 1,
    .decrypted 1 goodKey]

/-- The forged response goes on first. -/
def forgedFirst : List Event :=
  [.requestSent "r", .received 1 (sampleResponse 1 false), .identified 1, .proceeded 1,
    .validated 1, .received 2 (sampleResponse 1 true)]

/-- The first key of a response is stored, the second one cannot be decrypted. -/
def halfDecrypted : List Event :=
  [.requestSent "r", .received 1 (sampleResponse 2 true), .identified 1, .proceeded 1,
    .validated 1, .decrypted 1 goodKey, .decrypted 1 badKey]

/-- The request is taken for the first response, which has failed. -/
def takenForFailed (state : State) : Bool :=
  (state.handlers.get? 1).any (fun handler ↦ decide (handler.phase = .failed) ||
    decide (handler.phase = .storing [] true)) && decide ((1, "r") ∈ state.taken)

theorem not_changeNothing_of_takenForFailed {state : State} {store : LocalGroupKeyStore}
    (htaken : takenForFailed state = true) : ¬ ChangeNothing sampleSubscriber store state := by
  obtain ⟨hhandler, hrequest⟩ := Bool.and_eq_true_iff.mp htaken
  obtain ⟨handler, hget, hphase⟩ := (Option.any_eq_true _ _).mp hhandler
  intro hnothing
  have hfailed : handler.HasFailed :=
    (Bool.or_eq_true_iff.mp hphase).imp of_decide_eq_true fun hstoring ↦
      ⟨[], of_decide_eq_true hstoring⟩
  exact (hnothing.failures 1 handler hget hfailed).1 "r" (of_decide_eq_true hrequest)

end PomboStorageNode.Sdk.SubscriberKeyExchange
