import PomboStorageNode.Library.Throwing
import PomboStorageNode.Storage.PomboGates

/-!
# Two deciders of access

Who may read a stream is decided in two places. The stored endpoint asks `canRead`, and takes the
signer for a reader when that throws and the stream was last seen as public. The guard of signed
reads has the same rule written out, with an answer of its own to every lookup that throws. Here
both run on the caches of `PomboGates`, which they fill, with any answers of the chain.

The guard answers a stream that does not exist with an error, also when it is the linked stream that
does not exist, and it refuses when the access of the user cannot be looked up. The endpoint asks in
these cases whether the stream was last seen as public: the two agree unless it was
(`deciders_agree_iff`). `linked_stream_not_found` is a state that the guard and the endpoint can get
into, in which they disagree.
-/

set_option autoImplicit false

namespace PomboStorageNode.Storage.AccessDeciders

open Library Utils PomboGates

/-! ### The chain and the caches -/

/-- How a lookup fails: with the code `STREAM_NOT_FOUND`, or with any other error. -/
inductive LookupError
  | streamNotFound
  | other
  deriving DecidableEq

/-- The answers of the chain: of the client about streams, and of the gate reader about gates. -/
structure Chain where
  getStreamMetadata : String → Except LookupError StreamMetadata
  getInfo : EthereumAddress → Except LookupError GateInfo
  isModerator : EthereumAddress → EthereumAddress → Except LookupError Bool
  checkAccess : EthereumAddress → EthereumAddress → Except LookupError Bool
  hasPublicSubscribe : String → Except LookupError Bool
  hasUserSubscribe : String → EthereumAddress → Except LookupError Bool

/-- The caches of `PomboGates`, with the entries that have not expired, and the streams last seen as
public. -/
structure Gates where
  gateCache : OrderedMap String (Option GateInfo)
  moderatorCache : OrderedMap String Bool
  accessCache : OrderedMap String Bool
  subscribePublicCache : OrderedMap String Bool
  subscribeUserCache : OrderedMap String Bool
  knownPublic : OrderedSet String

namespace Gates

/-- `wasLastSeenPublic`. -/
def wasLastSeenPublic (gates : Gates) (streamId : String) : Bool := streamId ∈ gates.knownPublic

/-- `knownPublic.set`. -/
def setKnownPublic (streamId : String) (isPublic : Bool) (gates : Gates) : Gates :=
  { gates with knownPublic := PomboGates.setKnownPublic gates.knownPublic streamId isPublic }

/-- `gateCache.set`. -/
def cacheGate (streamId : String) (info : Option GateInfo) (gates : Gates) : Gates :=
  { gates with gateCache := gates.gateCache.set streamId info }

end Gates

/-! ### The lookups -/

/-- A computation on the caches that may throw. -/
abbrev Lookup (Value : Type) := Throwing LookupError Gates Value

/-- An answer of the chain. -/
def ask {Value : Type} : Except LookupError Value → Lookup Value
  | .ok value => pure value
  | .error error => throw error

section Lookups

variable (chain : Chain)

/-- The lookup of the metadata in `getGate`. -/
def getMetadata (streamId : String) : Lookup StreamMetadata :=
  tryCatch (ask (chain.getStreamMetadata streamId)) fun error ↦ do
    if error = .streamNotFound then modify (Gates.setKnownPublic streamId false)
    throw error

/-- The address of the gate of a stream with these metadata: its own, or that of the stream that it
links to. -/
def gateAddressOf (streamId : String) (metadata : StreamMetadata) :
    Except LookupError (Option EthereumAddress) :=
  match parseGateAddress metadata, linkedToAsk streamId metadata with
  | some address, _ => .ok (some address)
  | none, some linked => (chain.getStreamMetadata linked).map parseGateAddress
  | none, none => .ok none

/-- The lookup of the gate at an address. -/
def getInfoAt (streamId : String) : Option EthereumAddress → Lookup (Option GateInfo)
  | some address => do
    modify (Gates.setKnownPublic streamId false)
    let info ← ask (chain.getInfo address)
    return some info
  | none => pure none

/-- `getGate`. -/
def getGate (streamId : String) : Lookup (Option GateInfo) := do
  let gates ← get
  match gates.gateCache.get? streamId with
  | some cached => return cached
  | none =>
    let metadata ← getMetadata chain streamId
    let gateAddress ← ask (gateAddressOf chain streamId metadata)
    let info ← getInfoAt chain streamId gateAddress
    modify (Gates.cacheGate streamId info)
    return info

/-- The key of a cache for gates and users. -/
def gateUserKey (gateAddress user : EthereumAddress) : String :=
  gateAddress.text ++ "_" ++ user.text

/-- `cachedLookup`, for the cache that is read and written so. -/
def cachedLookup (cache : Gates → OrderedMap String Bool)
    (update : OrderedMap String Bool → Gates → Gates) (gateAddress user : EthereumAddress)
    (lookup : Except LookupError Bool) : Lookup Bool := do
  let gates ← get
  match (cache gates).get? (gateUserKey gateAddress user) with
  | some cached => return cached
  | none =>
    let result ← ask lookup
    modify fun gates ↦ update ((cache gates).set (gateUserKey gateAddress user) result) gates
    return result

/-- `isModerator`. -/
def isModerator (gateAddress user : EthereumAddress) : Lookup Bool :=
  cachedLookup Gates.moderatorCache (fun cache gates ↦ { gates with moderatorCache := cache })
    gateAddress user (chain.isModerator gateAddress user)

/-- `hasAccess`. -/
def hasAccess (gateAddress user : EthereumAddress) : Lookup Bool :=
  cachedLookup Gates.accessCache (fun cache gates ↦ { gates with accessCache := cache })
    gateAddress user (chain.checkAccess gateAddress user)

/-- `isPublicSubscribe`. -/
def isPublicSubscribe (streamId : String) : Lookup Bool := do
  let gates ← get
  match gates.subscribePublicCache.get? streamId with
  | some cached => return cached
  | none =>
    let result ← ask (chain.hasPublicSubscribe streamId)
    modify fun gates ↦ { gates with
      subscribePublicCache := gates.subscribePublicCache.set streamId result }
    modify (Gates.setKnownPublic streamId result)
    return result

/-- `hasSubscribe`. -/
def hasSubscribe (streamId : String) (user : EthereumAddress) : Lookup Bool := do
  let gates ← get
  match gates.subscribeUserCache.get? (streamId ++ "_" ++ user.text) with
  | some cached => return cached
  | none =>
    let result ← ask (chain.hasUserSubscribe streamId user)
    modify fun gates ↦ { gates with
      subscribeUserCache := gates.subscribeUserCache.set (streamId ++ "_" ++ user.text) result }
    return result

/-! ### The two deciders -/

/-- The rule for a gated channel. -/
def canReadGated (gate : GateInfo) (user : EthereumAddress) : Lookup Bool := do
  if user = gate.owner then return true
  if ← isModerator chain gate.address user then return true
  hasAccess chain gate.address user

/-- `canRead`. -/
def canRead (streamId : String) (user : EthereumAddress) : Lookup Bool := do
  match ← getGate chain streamId with
  | some gate => canReadGated chain gate user
  | none =>
    if ← isPublicSubscribe chain streamId then return true
    hasSubscribe chain streamId user

/-- Whether the stored endpoint takes the signer for a reader; `none` when it refuses to answer. -/
def storedDecision (streamId : String) (user : EthereumAddress) (gates : Gates) : Option Bool :=
  match (canRead chain streamId user).exec gates with
  | (.ok granted, _) => some granted
  | (.error _, after) => if after.wasLastSeenPublic streamId then some true else none

/-- `accessCheck`. -/
def accessCheck (streamId : String) : Option GateInfo → EthereumAddress → Lookup Bool
  | some gate, user => canReadGated chain gate user
  | none, user => hasSubscribe chain streamId user

/-- The part of the guard that asks for a signature. The argument `verified` is the outcome of
`verifier.verify`. -/
def requireSignature (streamId : String) (verified : Except String EthereumAddress)
    (gate : Option GateInfo) (gates : Gates) : ReadResponse :=
  match verified with
  | .error message => .status 401 message
  | .ok user =>
    match (accessCheck chain streamId gate user).exec gates with
    | (.error _, _) => .status 503 "Cannot verify access right now"
    | (.ok false, _) => .status 403 "No access to this stream"
    | (.ok true, _) => .next

/-- The answer of the guard when the chain cannot be consulted. -/
def outageResponse (streamId : String) (gates : Gates) : ReadResponse :=
  if gates.wasLastSeenPublic streamId then .next
  else .status 503 "Cannot verify access right now"

/-- The handler of `createSignedReadGuard`, for a partition that is `none` when it is not a
number. -/
def signedReadGuard (enabled : Bool) (streamId : String) (partition : Option ℤ)
    (verified : Except String EthereumAddress) (gates : Gates) : ReadResponse :=
  if enabled = false then .next
  else if partition = none ∨ openStreamSuffix.toList.isSuffixOf streamId.toList = true then .next
  else
    match (getGate chain streamId).exec gates with
    | (.error .streamNotFound, _) => .status 404 "Stream not found"
    | (.error .other, after) => outageResponse streamId after
    | (.ok (some gate), after) => requireSignature chain streamId verified (some gate) after
    | (.ok none, after) =>
      match (isPublicSubscribe chain streamId).exec after with
      | (.error _, last) => outageResponse streamId last
      | (.ok true, _) => .next
      | (.ok false, last) => requireSignature chain streamId verified none last

end Lookups

/-! ### The condition -/

/-- An answer from a cache, or else from the chain. -/
def answerOf (cache : OrderedMap String Bool) (key : String) (outcome : Except LookupError Bool) :
    Except LookupError Bool :=
  match cache.get? key with
  | some cached => .ok cached
  | none => outcome

/-- The outcome is an error. -/
def Fails {Value : Type} (outcome : Except LookupError Value) : Prop :=
  ∃ error, outcome = .error error

section Condition

variable (chain : Chain) (gates : Gates) (streamId : String) (user : EthereumAddress)

/-- It cannot be found out whether a user has access to a gate. -/
def AccessFails (gate : GateInfo) : Prop :=
  let moderator := answerOf gates.moderatorCache (gateUserKey gate.address user)
    (chain.isModerator gate.address user)
  let access := answerOf gates.accessCache (gateUserKey gate.address user)
    (chain.checkAccess gate.address user)
  user ≠ gate.owner ∧ (Fails moderator ∨ (moderator = .ok false ∧ Fails access))

/-- The stream is not public by the cache, and it cannot be found out whether the user has a
subscription. -/
def SubscribeFails : Prop :=
  gates.subscribePublicCache.get? streamId = some false ∧
    Fails (answerOf gates.subscribeUserCache (streamId ++ "_" ++ user.text)
      (chain.hasUserSubscribe streamId user))

/-- A lookup fails behind which the guard does not ask whether the stream was last seen as public:
that of the linked stream, with the code of a stream that does not exist, or one for the user on a
stream whose gate or whose permission for everyone was cached. -/
def UnaskedFailure : Prop :=
  match gates.gateCache.get? streamId with
  | some (some gate) => AccessFails chain gates user gate
  | some none => SubscribeFails chain gates streamId user
  | none =>
    match chain.getStreamMetadata streamId with
    | .error _ => False
    | .ok metadata =>
      match gateAddressOf chain streamId metadata with
      | .error error => error = .streamNotFound
      | .ok (some _) => False
      | .ok none => SubscribeFails chain gates streamId user

end Condition

/-! ### What the lookups do -/

section Specs

variable {chain : Chain} {gates after : Gates} {streamId : String} {user : EthereumAddress}
  {error : LookupError}

@[simp] theorem exec_ask {Value : Type} (outcome : Except LookupError Value) (gates : Gates) :
    (ask outcome).exec gates = (outcome, gates) := by
  cases outcome <;> rfl

@[simp] theorem wasLastSeenPublic_setKnownPublic (isPublic : Bool) :
    (gates.setKnownPublic streamId isPublic).wasLastSeenPublic streamId = isPublic := by
  simp [Gates.wasLastSeenPublic, Gates.setKnownPublic, mem_setKnownPublic]

theorem wasLastSeenPublic_congr (hknown : after.knownPublic = gates.knownPublic) :
    after.wasLastSeenPublic streamId = gates.wasLastSeenPublic streamId := by
  rw [Gates.wasLastSeenPublic, Gates.wasLastSeenPublic, hknown]

/-- What `getGate` does with the metadata of a stream whose gate was not cached. -/
def gateOfMetadata (chain : Chain) (streamId : String) (gates : Gates) (metadata : StreamMetadata) :
    Except LookupError (Option GateInfo) × Gates :=
  match gateAddressOf chain streamId metadata with
  | .error error => (.error error, gates)
  | .ok none => (.ok none, gates.cacheGate streamId none)
  | .ok (some address) =>
    match chain.getInfo address with
    | .error error => (.error error, gates.setKnownPublic streamId false)
    | .ok info => (.ok (some info),
        (gates.setKnownPublic streamId false).cacheGate streamId (some info))

theorem exec_getGate_cached {cached : Option GateInfo}
    (hcached : gates.gateCache.get? streamId = some cached) :
    (getGate chain streamId).exec gates = (.ok cached, gates) := by
  rw [getGate, Throwing.exec_bind, Throwing.exec_get]
  simp only [hcached, Throwing.exec_pure]

/-- Without a cached gate `getGate` asks for the metadata. -/
theorem exec_getGate (hcached : gates.gateCache.get? streamId = none) :
    (getGate chain streamId).exec gates = match chain.getStreamMetadata streamId with
      | .error .streamNotFound => (.error .streamNotFound, gates.setKnownPublic streamId false)
      | .error .other => (.error .other, gates)
      | .ok metadata => gateOfMetadata chain streamId gates metadata := by
  rw [getGate, Throwing.exec_bind, Throwing.exec_get]
  simp only [hcached]
  rw [Throwing.exec_bind, getMetadata, Throwing.exec_tryCatch, exec_ask]
  cases chain.getStreamMetadata streamId with
  | error error => cases error <;> rfl
  | ok metadata =>
    dsimp only
    rw [Throwing.exec_bind, exec_ask, gateOfMetadata]
    cases gateAddressOf chain streamId metadata with
    | error error => rfl
    | ok gateAddress =>
      cases gateAddress with
      | none => rfl
      | some address =>
        dsimp only
        rw [Throwing.exec_bind, getInfoAt, Throwing.exec_bind, Throwing.exec_modify]
        dsimp only
        rw [Throwing.exec_bind, exec_ask]
        cases chain.getInfo address <;> rfl

/-- `isPublicSubscribe` records what the chain says. -/
theorem exec_isPublicSubscribe : (isPublicSubscribe chain streamId).exec gates =
    match gates.subscribePublicCache.get? streamId with
    | some cached => (.ok cached, gates)
    | none =>
      match chain.hasPublicSubscribe streamId with
      | .error error => (.error error, gates)
      | .ok result => (.ok result, Gates.setKnownPublic streamId result { gates with
          subscribePublicCache := gates.subscribePublicCache.set streamId result }) := by
  rw [isPublicSubscribe, Throwing.exec_bind, Throwing.exec_get]
  dsimp only
  cases gates.subscribePublicCache.get? streamId with
  | some cached => rfl
  | none =>
    dsimp only
    rw [Throwing.exec_bind, exec_ask]
    cases chain.hasPublicSubscribe streamId <;> rfl

/-- A cached lookup gives the cached answer or that of the chain. -/
theorem exec_cachedLookup {cache : Gates → OrderedMap String Bool}
    {update : OrderedMap String Bool → Gates → Gates} {gateAddress : EthereumAddress}
    {lookup : Except LookupError Bool} :
    ((cachedLookup cache update gateAddress user lookup).exec gates).1 =
      answerOf (cache gates) (gateUserKey gateAddress user) lookup := by
  rw [cachedLookup, Throwing.exec_bind, Throwing.exec_get, answerOf]
  dsimp only
  cases (cache gates).get? (gateUserKey gateAddress user) with
  | some cached => rfl
  | none =>
    dsimp only
    rw [Throwing.exec_bind, exec_ask]
    cases lookup <;> rfl

theorem exec_hasSubscribe : ((hasSubscribe chain streamId user).exec gates).1 =
    answerOf gates.subscribeUserCache (streamId ++ "_" ++ user.text)
      (chain.hasUserSubscribe streamId user) := by
  rw [hasSubscribe, Throwing.exec_bind, Throwing.exec_get, answerOf]
  dsimp only
  cases gates.subscribeUserCache.get? (streamId ++ "_" ++ user.text) with
  | some cached => rfl
  | none =>
    dsimp only
    rw [Throwing.exec_bind, exec_ask]
    cases chain.hasUserSubscribe streamId user <;> rfl

/-- A view that an answer of the chain does not change is kept by a cached lookup. -/
theorem keeps_cachedLookup {View : Type} {view : Gates → View}
    {cache : Gates → OrderedMap String Bool} {update : OrderedMap String Bool → Gates → Gates}
    (hupdate : ∀ entries gates, view (update entries gates) = view gates)
    {gateAddress : EthereumAddress} {lookup : Except LookupError Bool} :
    Throwing.Keeps view (cachedLookup cache update gateAddress user lookup) := by
  refine .bind .get fun gates ↦ ?_
  cases (cache gates).get? (gateUserKey gateAddress user) with
  | some cached => exact .pure cached
  | none =>
    exact .bind (fun _ ↦ congrArg view (congrArg Prod.snd (exec_ask ..))) fun result ↦
      .bind (.modify fun _ ↦ hupdate _ _) fun _ ↦ .pure result

theorem keeps_hasSubscribe :
    Throwing.Keeps Gates.knownPublic (hasSubscribe chain streamId user) := by
  refine .bind .get fun gates ↦ ?_
  cases gates.subscribeUserCache.get? (streamId ++ "_" ++ user.text) with
  | some cached => exact .pure cached
  | none =>
    exact .bind (fun _ ↦ congrArg Gates.knownPublic (congrArg Prod.snd (exec_ask ..))) fun result ↦
      .bind (.modify fun _ ↦ rfl) fun _ ↦ .pure result

section Gated

variable {gateAddress : EthereumAddress} {gate : GateInfo}

theorem exec_isModerator : ((isModerator chain gateAddress user).exec gates).1 =
    answerOf gates.moderatorCache (gateUserKey gateAddress user)
      (chain.isModerator gateAddress user) := by
  rw [isModerator, exec_cachedLookup]

theorem exec_hasAccess : ((hasAccess chain gateAddress user).exec gates).1 =
    answerOf gates.accessCache (gateUserKey gateAddress user)
      (chain.checkAccess gateAddress user) := by
  rw [hasAccess, exec_cachedLookup]

theorem keeps_isModerator :
    Throwing.Keeps Gates.knownPublic (isModerator chain gateAddress user) := by
  unfold isModerator
  refine keeps_cachedLookup fun entries gates ↦ ?_
  rfl

theorem keeps_isModerator_accessCache :
    Throwing.Keeps Gates.accessCache (isModerator chain gateAddress user) := by
  unfold isModerator
  refine keeps_cachedLookup fun entries gates ↦ ?_
  rfl

theorem keeps_hasAccess :
    Throwing.Keeps Gates.knownPublic (hasAccess chain gateAddress user) := by
  unfold hasAccess
  refine keeps_cachedLookup fun entries gates ↦ ?_
  rfl

theorem keeps_canReadGated :
    Throwing.Keeps Gates.knownPublic (canReadGated chain gate user) :=
  .ite (.pure true) (.bind keeps_isModerator fun _ ↦ .ite (.pure true) keeps_hasAccess)

/-- The access of a user to a gate cannot be found out exactly if the lookups fail that are made. -/
theorem fails_canReadGated_iff :
    Fails ((canReadGated chain gate user).exec gates).1 ↔ AccessFails chain gates user gate := by
  have hmoderator := @exec_isModerator chain gates user gate.address
  have haccess := @keeps_isModerator_accessCache chain user gate.address gates
  unfold canReadGated AccessFails
  by_cases howner : user = gate.owner
  · rw [if_pos howner]
    refine iff_of_false ?_ fun hfails ↦ hfails.1 howner
    rintro ⟨error, hthrows⟩
    cases hthrows
  · rw [if_neg howner, Throwing.exec_bind]
    generalize (isModerator chain gate.address user).exec gates = outcome at hmoderator haccess ⊢
    obtain ⟨error | moderator, after⟩ := outcome
    · exact iff_of_true ⟨error, rfl⟩ ⟨howner, .inl ⟨error, hmoderator.symm⟩⟩
    · cases moderator with
      | true =>
        refine iff_of_false ?_ ?_
        · rintro ⟨error, hthrows⟩
          cases hthrows
        · rintro ⟨-, ⟨error, hthrows⟩ | ⟨hfalse, -⟩⟩
          · exact absurd (hmoderator.trans hthrows) (by simp)
          · exact absurd (hmoderator.trans hfalse) (by simp)
      | false =>
        have hlookup := @exec_hasAccess chain after user gate.address
        rw [haccess] at hlookup
        simp only [Bool.false_eq_true, if_false, hlookup, ← hmoderator]
        constructor
        · exact fun hfails ↦ ⟨howner, .inr ⟨trivial, hfails⟩⟩
        · rintro ⟨-, ⟨error, hthrows⟩ | ⟨-, hfails⟩⟩
          · cases hthrows
          · exact hfails

end Gated

/-! ### Agreement -/

/-- The guard lets a read of the user through if and only if the endpoint takes the user for a
reader. -/
def Agree (chain : Chain) (streamId : String) (partition : ℤ) (user : EthereumAddress)
    (gates : Gates) : Prop :=
  signedReadGuard chain true streamId (some partition) (.ok user) gates = .next ↔
    storedDecision chain streamId user gates = some true

/-- The guard on a stream that is not open. -/
theorem signedReadGuard_closed {partition : ℤ} {verified : Except String EthereumAddress}
    (hclosed : openStreamSuffix.toList.isSuffixOf streamId.toList = false) :
    signedReadGuard chain true streamId (some partition) verified gates =
      match (getGate chain streamId).exec gates with
      | (.error .streamNotFound, _) => .status 404 "Stream not found"
      | (.error .other, after) => outageResponse streamId after
      | (.ok (some gate), after) => requireSignature chain streamId verified (some gate) after
      | (.ok none, after) =>
        match (isPublicSubscribe chain streamId).exec after with
        | (.error _, last) => outageResponse streamId last
        | (.ok true, _) => .next
        | (.ok false, last) => requireSignature chain streamId verified none last := by
  rw [signedReadGuard, if_neg (by decide), if_neg (by simp [hclosed])]

theorem outageResponse_eq_next_iff :
    outageResponse streamId gates = .next ↔ gates.wasLastSeenPublic streamId = true := by
  unfold outageResponse
  split_ifs with hseen
  · exact iff_of_true rfl hseen
  · exact iff_of_false (by simp) hseen

/-- A user has access for the guard if the lookup says so, and for the endpoint also if the lookup
fails on a stream that was last seen as public. -/
theorem granted_iff {outcome : Except LookupError Bool} {seen : Bool} {response : ReadResponse}
    {decision : Option Bool} (hresponse : response = .next ↔ outcome = .ok true)
    (hdecision : decision = some true ↔ outcome = .ok true ∨ (Fails outcome ∧ seen = true)) :
    (response = .next ↔ decision = some true) ↔ ¬ (seen = true ∧ Fails outcome) := by
  rw [hresponse, hdecision]
  constructor
  · rintro hagree ⟨hseen, hfails⟩
    obtain ⟨error, hthrows⟩ := hfails
    have hgranted := hagree.mpr (.inr ⟨⟨error, hthrows⟩, hseen⟩)
    rw [hthrows] at hgranted
    cases hgranted
  · intro hnot
    exact ⟨.inl, fun hdecided ↦ hdecided.resolve_right fun ⟨hfails, hseen⟩ ↦ hnot ⟨hseen, hfails⟩⟩

/-- The answer of the guard to a signed read follows the lookup of the access. -/
theorem requireSignature_eq_next_iff {gate : Option GateInfo} :
    requireSignature chain streamId (.ok user) gate gates = .next ↔
      ((accessCheck chain streamId gate user).exec gates).1 = .ok true := by
  unfold requireSignature
  dsimp only
  generalize (accessCheck chain streamId gate user).exec gates = outcome
  rcases outcome with ⟨error | (_ | _), after⟩ <;> simp

/-- The last lookup of the endpoint: it decides, unless it fails. -/
theorem decision_iff {lookup : Lookup Bool} (hkeeps : Throwing.Keeps Gates.knownPublic lookup) :
    (match lookup.exec gates with
      | (.ok granted, _) => some granted
      | (.error _, after) => if after.wasLastSeenPublic streamId then some true else none) =
        some true ↔
      (lookup.exec gates).1 = .ok true ∨
        (Fails (lookup.exec gates).1 ∧ gates.wasLastSeenPublic streamId = true) := by
  have hknown := hkeeps gates
  generalize lookup.exec gates = outcome at hknown
  obtain ⟨error | granted, after⟩ := outcome
  · rw [← @wasLastSeenPublic_congr gates after streamId hknown]
    simp [Fails]
  · simp [Fails]

theorem agree_of_error {partition : ℤ}
    (hclosed : openStreamSuffix.toList.isSuffixOf streamId.toList = false)
    (hgate : (getGate chain streamId).exec gates = (.error error, after)) :
    Agree chain streamId partition user gates ↔
      ¬ (after.wasLastSeenPublic streamId = true ∧ error = .streamNotFound) := by
  have hstored : storedDecision chain streamId user gates = some true ↔
      after.wasLastSeenPublic streamId = true := by
    rw [storedDecision, canRead, Throwing.exec_bind, hgate]
    simp
  rw [Agree, signedReadGuard_closed hclosed, hgate, hstored]
  cases error with
  | streamNotFound => simp
  | other => simp [outageResponse_eq_next_iff]

theorem agree_of_gate {partition : ℤ} {gate : GateInfo}
    (hclosed : openStreamSuffix.toList.isSuffixOf streamId.toList = false)
    (hgate : (getGate chain streamId).exec gates = (.ok (some gate), after)) :
    Agree chain streamId partition user gates ↔
      ¬ (after.wasLastSeenPublic streamId = true ∧ AccessFails chain after user gate) := by
  rw [← fails_canReadGated_iff]
  refine granted_iff ?_ ?_
  · rw [signedReadGuard_closed hclosed, hgate]
    exact requireSignature_eq_next_iff
  · rw [storedDecision, canRead, Throwing.exec_bind, hgate]
    exact decision_iff keeps_canReadGated

theorem agree_of_noGate {partition : ℤ} {outcome : Except LookupError Bool} {last : Gates}
    (hclosed : openStreamSuffix.toList.isSuffixOf streamId.toList = false)
    (hgate : (getGate chain streamId).exec gates = (.ok none, after))
    (hpublic : (isPublicSubscribe chain streamId).exec after = (outcome, last)) :
    Agree chain streamId partition user gates ↔
      ¬ (last.wasLastSeenPublic streamId = true ∧ outcome = .ok false ∧
        Fails ((hasSubscribe chain streamId user).exec last).1) := by
  have hguard := @signedReadGuard_closed chain gates streamId partition (.ok user)
  rw [hgate] at hguard
  dsimp only at hguard
  rw [hpublic] at hguard
  have hstored : (canRead chain streamId user).exec gates = match (outcome, last) with
      | (.ok true, last) => (.ok true, last)
      | (.ok false, last) => (hasSubscribe chain streamId user).exec last
      | (.error error, last) => (.error error, last) := by
    rw [canRead, Throwing.exec_bind, hgate]
    dsimp only
    rw [Throwing.exec_bind, hpublic]
    rcases outcome with error | (_ | _) <;> rfl
  rcases outcome with error | (_ | _)
  · have hagree : Agree chain streamId partition user gates := by
      rw [Agree, hguard hclosed, storedDecision, hstored, outageResponse_eq_next_iff]
      simp
    exact iff_of_true hagree (by simp)
  · have hagree := @granted_iff ((hasSubscribe chain streamId user).exec last).1
      (last.wasLastSeenPublic streamId) (signedReadGuard chain true streamId (some partition)
        (.ok user) gates) (storedDecision chain streamId user gates)
      (by rw [hguard hclosed]; exact requireSignature_eq_next_iff)
      (by rw [storedDecision, hstored]; exact decision_iff keeps_hasSubscribe)
    rw [Agree, hagree]
    simp
  · have hagree : Agree chain streamId partition user gates := by
      rw [Agree, hguard hclosed, storedDecision, hstored]
      simp
    exact iff_of_true hagree (by simp)

/-- On a stream without a gate the two agree unless the cache says that it is not public, it was
last seen as public and the subscription cannot be looked up. -/
theorem agree_of_noGate_iff {partition : ℤ}
    (hclosed : openStreamSuffix.toList.isSuffixOf streamId.toList = false)
    (hgate : (getGate chain streamId).exec gates = (.ok none, after))
    (hknown : after.knownPublic = gates.knownPublic)
    (hpublic : after.subscribePublicCache = gates.subscribePublicCache)
    (huser : after.subscribeUserCache = gates.subscribeUserCache) :
    Agree chain streamId partition user gates ↔
      ¬ (gates.wasLastSeenPublic streamId = true ∧ SubscribeFails chain gates streamId user) := by
  have hlookup := @exec_isPublicSubscribe chain after streamId
  rw [hpublic] at hlookup
  rw [SubscribeFails, ← huser, ← @exec_hasSubscribe chain after streamId user,
    ← wasLastSeenPublic_congr hknown]
  cases hcached : gates.subscribePublicCache.get? streamId with
  | some cached =>
    rw [hcached] at hlookup
    rw [agree_of_noGate hclosed hgate hlookup]
    simp
  | none =>
    rw [hcached] at hlookup
    refine iff_of_true ?_ (by simp)
    cases hasked : chain.hasPublicSubscribe streamId with
    | error error =>
      rw [hasked] at hlookup
      rw [agree_of_noGate hclosed hgate hlookup]
      simp
    | ok result =>
      rw [hasked] at hlookup
      rw [agree_of_noGate hclosed hgate hlookup, wasLastSeenPublic_setKnownPublic]
      cases result <;> simp

/-- The guard and the endpoint agree on a user if and only if no lookup fails behind which the guard
does not ask, on a stream that was last seen as public. -/
theorem deciders_agree_iff {partition : ℤ}
    (hclosed : openStreamSuffix.toList.isSuffixOf streamId.toList = false) :
    Agree chain streamId partition user gates ↔
      ¬ (gates.wasLastSeenPublic streamId = true ∧ UnaskedFailure chain gates streamId user) := by
  unfold UnaskedFailure
  cases hcached : gates.gateCache.get? streamId with
  | some cached =>
    have hgate := @exec_getGate_cached chain gates streamId cached hcached
    cases cached with
    | some gate => exact agree_of_gate hclosed hgate
    | none => exact agree_of_noGate_iff hclosed hgate rfl rfl rfl
  | none =>
    have hgate := @exec_getGate chain gates streamId hcached
    cases hmetadata : chain.getStreamMetadata streamId with
    | error error =>
      rw [hmetadata] at hgate
      refine iff_of_true ?_ (by simp)
      cases error with
      | streamNotFound =>
        rw [agree_of_error hclosed hgate, wasLastSeenPublic_setKnownPublic]
        simp
      | other =>
        rw [agree_of_error hclosed hgate]
        simp
    | ok metadata =>
      rw [hmetadata] at hgate
      dsimp only at hgate ⊢
      unfold gateOfMetadata at hgate
      cases haddress : gateAddressOf chain streamId metadata with
      | error error =>
        rw [haddress] at hgate
        exact agree_of_error hclosed hgate
      | ok gateAddress =>
        rw [haddress] at hgate
        cases gateAddress with
        | none => exact agree_of_noGate_iff hclosed hgate rfl rfl rfl
        | some address =>
          refine iff_of_true ?_ (by simp)
          dsimp only at hgate
          cases hinfo : chain.getInfo address with
          | error error =>
            rw [hinfo] at hgate
            rw [agree_of_error hclosed hgate, wasLastSeenPublic_setKnownPublic]
            simp
          | ok info =>
            rw [hinfo] at hgate
            rw [agree_of_gate hclosed hgate]
            have hunseen := @wasLastSeenPublic_setKnownPublic gates streamId false
            rintro ⟨hseen, -⟩
            exact Bool.false_ne_true (hunseen.symm.trans hseen)

end Specs

/-! ### A linked stream that does not exist -/

/-- An account. -/
def reader : EthereumAddress := ⟨"0x1111111111111111111111111111111111111111", rfl⟩

/-- A chain on which the stream `chat` links to a stream that does not exist, and answers nothing
else. -/
def deletedLink : Chain where
  getStreamMetadata streamId :=
    if streamId = "chat" then .ok ⟨none, some "gone"⟩ else .error .streamNotFound
  getInfo _ := .error .other
  isModerator _ _ := .error .other
  checkAccess _ _ := .error .other
  hasPublicSubscribe _ := .error .other
  hasUserSubscribe _ _ := .error .other

/-- Caches behind a restart, with the streams that were loaded as public. -/
def restarted (streams : OrderedSet String) : Gates :=
  ⟨.empty, .empty, .empty, .empty, .empty, streams⟩

/-- A stream that was not last seen as public is refused by both. -/
theorem deciders_agree_unseen : Agree deletedLink "chat" 0 reader (restarted .empty) := by
  rw [deciders_agree_iff (by decide)]
  rintro ⟨hseen, -⟩
  exact absurd hseen (by decide)

/-- The guard refuses a read of a stream that was last seen as public and links to a stream that
does not exist; the endpoint takes the same user for a reader. -/
theorem linked_stream_not_found :
    signedReadGuard deletedLink true "chat" (some 0) (.ok reader)
        (restarted (OrderedSet.empty.add "chat")) = .status 404 "Stream not found" ∧
      storedDecision deletedLink "chat" reader (restarted (OrderedSet.empty.add "chat")) =
        some true ∧
      ¬ Agree deletedLink "chat" 0 reader (restarted (OrderedSet.empty.add "chat")) := by
  have hguard : signedReadGuard deletedLink true "chat" (some 0) (.ok reader)
      (restarted (OrderedSet.empty.add "chat")) = .status 404 "Stream not found" := by
    decide +kernel
  have hstored : storedDecision deletedLink "chat" reader
      (restarted (OrderedSet.empty.add "chat")) = some true := by
    decide +kernel
  refine ⟨hguard, hstored, fun hagree ↦ ?_⟩
  have hserved := hagree.mpr hstored
  rw [hguard] at hserved
  cases hserved

end PomboStorageNode.Storage.AccessDeciders
