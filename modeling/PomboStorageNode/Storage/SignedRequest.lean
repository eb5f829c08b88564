import PomboStorageNode.Library.JsNumber
import PomboStorageNode.Utils
import Mathlib.Algebra.GroupWithZero.Nat

/-!
# Signed requests

`SignedRequestVerifier.verify` admits a request when its envelope is well formed, its `issuedAt` is
not too far from the clock, its signature recovers the claimed user, and its nonce was not seen
lately. Signature recovery (`verifyMessage`) and the text of a number are parameters.

Each of the two time checks has a gap. Every comparison with `NaN` is false, so an `issuedAt` that
is not a number passes the clock check, and `readEnvelope` makes one of every header that is not a
number. A nonce is remembered for twice the clock skew from its first use, and at the last moment
of that interval an envelope dated as far as possible in the future is still recent while its nonce
is already forgotten. `admitted_protected_iff` says exactly which runs are free of both.
-/

set_option autoImplicit false

namespace PomboStorageNode.Storage.SignedRequest

open Library Utils

/-! ### Envelopes -/

/-- `MAX_CLOCK_SKEW`. -/
def maxClockSkew : ℤ := 5 * 60 * 1000

/-- A field of a parsed request body. -/
inductive JsValue
  | undefined
  | null
  | boolean (value : Bool)
  | number (value : JsNumber)
  | string (value : String)
  | object
  deriving DecidableEq

/-- The fields that are read from the value that should be an envelope. -/
structure RawEnvelope where
  user : JsValue
  issuedAt : JsValue
  nonce : JsValue
  signature : JsValue
  deriving DecidableEq

/-- `SignedRequestEnvelope`. -/
structure SignedRequestEnvelope where
  user : String
  issuedAt : JsNumber
  nonce : String
  signature : String
  deriving DecidableEq

/-- The length of a text in UTF-16 code units. -/
def utf16Length (text : String) : ℕ :=
  (text.toList.map fun character ↦ if character.val < 0x10000 then 1 else 2).sum

/-- `isEnvelope`: the envelope, if the value is one. Reading a field of a missing value gives
`undefined`, which no check accepts. -/
def isEnvelope (value : Option RawEnvelope) : Option SignedRequestEnvelope :=
  match value with
  | some ⟨.string user, .number issuedAt, .string nonce, .string signature⟩ =>
    if 8 ≤ utf16Length nonce ∧ utf16Length nonce ≤ 128 then
      some ⟨user, issuedAt, nonce, signature⟩
    else none
  | _ => none

/-- The headers that `readEnvelope` reads. -/
structure SignedReadHeaders where
  user : Option String
  issuedAt : Option String
  nonce : Option String
  signature : Option String

/-- `readEnvelope`, where `toNumber` is `Number` on texts. -/
def readEnvelope (toNumber : String → JsNumber) (headers : SignedReadHeaders) :
    Option RawEnvelope :=
  match headers with
  | ⟨some user, some issuedAt, some nonce, some signature⟩ =>
    some ⟨.string user, .number (toNumber issuedAt), .string nonce, .string signature⟩
  | _ => none

/-! ### The message -/

/-- The lines of the message that a client signs. -/
def messageLines {Number : Type*} (numberToString : Number → String) (purpose streamId : String)
    (partition issuedAt : Number) (nonce : String) (payloadLines : List String) : List String :=
  ["pombo-storage-node", purpose, streamId, numberToString partition, numberToString issuedAt,
    nonce] ++ payloadLines

/-- `createSignedRequestMessage`. -/
def createSignedRequestMessage {Number : Type*} (numberToString : Number → String)
    (purpose streamId : String) (partition issuedAt : Number) (nonce : String)
    (payloadLines : List String) : String :=
  String.intercalate "\n"
    (messageLines numberToString purpose streamId partition issuedAt nonce payloadLines)

/-! ### The verifier -/

/-- What the verifier calls: the text of a number, and the recovery of the signer of a message,
which throws on a malformed signature. -/
structure Host where
  numberToString : JsNumber → String
  verifyMessage : String → String → Option String

/-- The arguments of one call of `verify`, with the clock value at which it is made. -/
structure Call where
  now : ℤ
  envelope : Option RawEnvelope
  purpose : String
  streamId : String
  partition : ℤ
  payloadLines : List String

/-- `SignedRequestVerifier`. -/
structure SignedRequestVerifier where
  seenNonces : MapWithTtl String Unit

/-- The constructor. -/
def SignedRequestVerifier.create : SignedRequestVerifier where
  seenNonces := ⟨OrderedMap.empty, fun _ ↦ 2 * maxClockSkew⟩

/-- A request whose signature was checked. -/
structure Presented where
  now : ℤ
  user : EthereumAddress
  nonce : String
  issuedAt : JsNumber
  deriving DecidableEq

/-- The checks of `verify` before the nonce: the request as presented, or the error. -/
def present (host : Host) (call : Call) : Except String Presented :=
  match isEnvelope call.envelope with
  | none => .error "Request must carry user, issuedAt, nonce and signature"
  | some envelope =>
    if JsNumber.lt (.finite maxClockSkew)
        (JsNumber.abs (JsNumber.sub (.finite call.now) envelope.issuedAt)) then
      .error "Request is too old or too far in the future"
    else
      let message := createSignedRequestMessage host.numberToString call.purpose call.streamId
        (.finite call.partition) envelope.issuedAt envelope.nonce call.payloadLines
      match toEthereumAddress envelope.user,
          (host.verifyMessage message envelope.signature).bind toEthereumAddress with
      | some user, some signer =>
        if signer ≠ user then .error "Signature does not belong to the claimed user"
        else .ok ⟨call.now, user, envelope.nonce, envelope.issuedAt⟩
      | _, _ => .error "Invalid signature"

/-- The key under which a nonce is remembered. -/
def nonceKey (user : EthereumAddress) (nonce : String) : String := user.text ++ "_" ++ nonce

/-- `verify`: the user or the error, and the verifier after the call. -/
def verify (host : Host) (verifier : SignedRequestVerifier) (call : Call) :
    Except String EthereumAddress × SignedRequestVerifier :=
  match present host call with
  | .error message => (.error message, verifier)
  | .ok request =>
    if verifier.seenNonces.has call.now (nonceKey request.user request.nonce) then
      (.error "Nonce already used", verifier)
    else
      (.ok request.user,
        ⟨verifier.seenNonces.set call.now (nonceKey request.user request.nonce) ()⟩)

/-! ### Runs -/

/-- The requests that a run of calls presents with a valid signature, in order. -/
def presented (host : Host) (calls : List Call) : List Presented :=
  calls.filterMap fun call ↦ (present host call).toOption

/-- The requests that a run of calls admits, in order. -/
def admitted (host : Host) : SignedRequestVerifier → List Call → List Presented
  | _, [] => []
  | verifier, call :: calls =>
    match verify host verifier call, present host call with
    | (.ok _, after), .ok request => request :: admitted host after calls
    | (_, after), _ => admitted host after calls

/-- What the verifier is for: every admitted request is recent, and no user's nonce is admitted
twice. -/
structure Protected (requests : List Presented) : Prop where
  recent : ∀ request ∈ requests, ∃ issuedAt, request.issuedAt = .finite issuedAt ∧
    |(request.now : ℚ) - issuedAt| ≤ maxClockSkew
  nonce_once : requests.Pairwise fun first second ↦
    ¬ (first.user = second.user ∧ first.nonce = second.nonce)

/-- The first request with a given user and nonce has a number as `issuedAt`, and no two requests
with the same user and nonce are twice the clock skew apart. -/
structure WithinMemory (requests : List Presented) : Prop where
  first_number : ∀ user nonce first, requests.find? (fun request ↦
    request.user = user ∧ request.nonce = nonce) = some first → first.issuedAt ≠ .nan
  close : requests.Pairwise fun first second ↦ first.user = second.user →
    first.nonce = second.nonce → second.now < first.now + 2 * maxClockSkew

/-! ### The nonces that are remembered -/

/-- An address has a fixed length, so the key of a nonce determines user and nonce. -/
theorem nonceKey_inj {user other : EthereumAddress} {nonce otherNonce : String} :
    nonceKey user nonce = nonceKey other otherNonce ↔ user = other ∧ nonce = otherNonce := by
  constructor
  · intro hkey
    have hlist := congrArg String.toList hkey
    simp only [nonceKey, String.toList_append, List.append_assoc] at hlist
    have hlength : user.text.toList.length = other.text.toList.length :=
      user.length_eq.trans other.length_eq.symm
    obtain ⟨huser, hrest⟩ := List.append_inj hlist hlength
    have hnonce := (List.append_inj hrest rfl).2
    refine ⟨?_, String.toList_inj.mp hnonce⟩
    cases user
    cases other
    exact (EthereumAddress.mk.injEq ..).mpr (String.toList_inj.mp huser)
  · rintro ⟨rfl, rfl⟩
    rfl

/-- The key of a request. -/
def Presented.key (request : Presented) : String := nonceKey request.user request.nonce

/-- The nonce check of `verify` over a list of requests. -/
def letThrough (seenNonces : MapWithTtl String Unit) : List Presented → List Presented
  | [] => []
  | request :: requests =>
    if seenNonces.has request.now request.key then letThrough seenNonces requests
    else request :: letThrough (seenNonces.set request.now request.key ()) requests

theorem toOption_eq_some {host : Host} {call : Call} {request : Presented} :
    (present host call).toOption = some request ↔ present host call = .ok request := by
  cases present host call with
  | error message => simp [Except.toOption]
  | ok found => simp [Except.toOption]

theorem now_of_present {host : Host} {call : Call} {request : Presented}
    (hpresent : present host call = .ok request) : request.now = call.now := by
  unfold present at hpresent
  split at hpresent
  · cases hpresent
  · dsimp only at hpresent
    split_ifs at hpresent
    split at hpresent
    · split_ifs at hpresent
      cases hpresent
      rfl
    · cases hpresent

/-- An admitted user is in lower case. -/
theorem toLowerCase_of_verify {host : Host} {verifier after : SignedRequestVerifier} {call : Call}
    {user : EthereumAddress} (hverify : verify host verifier call = (.ok user, after)) :
    toLowerCase user.text = user.text := by
  unfold verify at hverify
  cases hpresent : present host call with
  | error message =>
    rw [hpresent] at hverify
    cases (Prod.mk.inj hverify).1
  | ok request =>
    rw [hpresent] at hverify
    dsimp only at hverify
    split_ifs at hverify
    · cases (Prod.mk.inj hverify).1
    · obtain rfl := Except.ok.inj (Prod.mk.inj hverify).1
      unfold present at hpresent
      split at hpresent
      · cases hpresent
      · dsimp only at hpresent
        split_ifs at hpresent
        split at hpresent
        · rename_i found signer hfound _
          split_ifs at hpresent
          cases hpresent
          exact toLowerCase_of_toEthereumAddress hfound
        · cases hpresent

/-- A presented request is recent unless its `issuedAt` is not a number. -/
theorem recent_of_present {host : Host} {call : Call} {request : Presented}
    (hpresent : present host call = .ok request) : request.issuedAt = .nan ∨
      ∃ issuedAt, request.issuedAt = .finite issuedAt ∧
        |(request.now : ℚ) - issuedAt| ≤ maxClockSkew := by
  unfold present at hpresent
  split at hpresent
  · cases hpresent
  · dsimp only at hpresent
    split_ifs at hpresent with hskew
    split at hpresent
    · split_ifs at hpresent
      cases hpresent
      rw [Bool.not_eq_true] at hskew
      exact JsNumber.lt_abs_sub_eq_false_iff.mp hskew
    · cases hpresent

/-- A run admits what the nonce check admits of the requests it presents. -/
theorem admitted_eq_letThrough (host : Host) (verifier : SignedRequestVerifier) (calls : List Call) :
    admitted host verifier calls = letThrough verifier.seenNonces (presented host calls) := by
  induction calls generalizing verifier with
  | nil => rfl
  | cons call calls ih =>
    unfold admitted presented verify
    cases hpresent : present host call with
    | error message => simpa [presented, Except.toOption, hpresent] using ih verifier
    | ok request =>
      have hnow := now_of_present hpresent
      have hcons : (call :: calls).filterMap (fun call ↦ (present host call).toOption) =
          request :: presented host calls := by
        simp [presented, hpresent, Except.toOption]
      rw [hcons, letThrough, hnow, Presented.key]
      by_cases hseen :
          verifier.seenNonces.has call.now (nonceKey request.user request.nonce) = true
      · simpa [hseen] using ih verifier
      · simp [hseen, ih]

/-! ### What the nonce check admits -/

/-- The time for which a nonce is remembered is twice the clock skew, and no nonce was remembered
after the clock value `now`. -/
structure Remembers (seenNonces : MapWithTtl String Unit) (now : ℤ) : Prop where
  getTtl_eq : seenNonces.getTtl () = 2 * maxClockSkew
  deadline_le : ∀ key deadline, seenNonces.delegate.get? key = some ((), deadline) →
    deadline ≤ now + 2 * maxClockSkew

theorem Remembers.mono {seenNonces : MapWithTtl String Unit} {now later : ℤ}
    (hremembers : Remembers seenNonces now) (hle : now ≤ later) : Remembers seenNonces later :=
  ⟨hremembers.getTtl_eq, fun key deadline hentry ↦
    (hremembers.deadline_le key deadline hentry).trans (by omega)⟩

theorem Remembers.set {seenNonces : MapWithTtl String Unit} {now : ℤ}
    (hremembers : Remembers seenNonces now) (key : String) :
    Remembers (seenNonces.set now key ()) now := by
  refine ⟨hremembers.getTtl_eq, fun other deadline hentry ↦ ?_⟩
  by_cases heq : other = key
  · subst heq
    rw [MapWithTtl.delegate_set, OrderedMap.get?_set_self, hremembers.getTtl_eq] at hentry
    cases hentry
    exact le_rfl
  · rw [MapWithTtl.delegate_set, OrderedMap.get?_set_of_ne _ _ heq] at hentry
    exact hremembers.deadline_le other deadline hentry

/-- A key that is absent after one was set was absent before, and is another key. -/
theorem delegate_set_eq_none_iff {seenNonces : MapWithTtl String Unit} {now : ℤ}
    {key other : String} : (seenNonces.set now key ()).delegate.get? other = none ↔
      other ≠ key ∧ seenNonces.delegate.get? other = none := by
  by_cases heq : other = key
  · subst heq
    simp
  · simp [heq]

/-- The state of the check in front of the requests that are still to come: those with a remembered
key come before its deadline, and any two with one key are close. -/
structure Covered (seenNonces : MapWithTtl String Unit) (requests : List Presented) : Prop where
  before_deadline : ∀ request ∈ requests, ∀ deadline,
    seenNonces.delegate.get? request.key = some ((), deadline) → request.now < deadline
  first_number : ∀ key first, seenNonces.delegate.get? key = none →
    requests.find? (fun request ↦ request.key = key) = some first → first.issuedAt ≠ .nan
  close : requests.Pairwise fun first second ↦ first.key = second.key →
    second.now < first.now + 2 * maxClockSkew

/-- What the rest of the run admits is new, recent and without repetitions. -/
structure AdmitsOnce (seenNonces : MapWithTtl String Unit) (requests : List Presented) :
    Prop where
  fresh : ∀ request ∈ letThrough seenNonces requests,
    seenNonces.delegate.get? request.key = none
  number : ∀ request ∈ letThrough seenNonces requests, request.issuedAt ≠ .nan
  nonce_once : (letThrough seenNonces requests).Pairwise fun first second ↦ first.key ≠ second.key

section Cons

variable {seenNonces : MapWithTtl String Unit} {request : Presented} {requests : List Presented}
  {deadline : ℤ}

/-- A request with a remembered nonce is refused. -/
theorem admitsOnce_cons_remembered
    (hentry : seenNonces.delegate.get? request.key = some ((), deadline))
    (hbefore : request.now < deadline) :
    AdmitsOnce seenNonces (request :: requests) ↔ AdmitsOnce seenNonces requests := by
  have hseen : seenNonces.has request.now request.key = true :=
    MapWithTtl.has_iff.mpr ⟨(), deadline, hentry, hbefore⟩
  have hthrough : letThrough seenNonces (request :: requests) = letThrough seenNonces requests := by
    rw [letThrough, if_pos hseen]
  constructor
  · rintro ⟨hfresh, hnumber, honce⟩
    rw [hthrough] at hfresh hnumber honce
    exact ⟨hfresh, hnumber, honce⟩
  · rintro ⟨hfresh, hnumber, honce⟩
    rw [← hthrough] at hfresh hnumber honce
    exact ⟨hfresh, hnumber, honce⟩

theorem covered_cons_remembered (hremembers : Remembers seenNonces request.now)
    (hentry : seenNonces.delegate.get? request.key = some ((), deadline))
    (hbefore : request.now < deadline) :
    Covered seenNonces (request :: requests) ↔ Covered seenNonces requests := by
  have hfind : ∀ key, seenNonces.delegate.get? key = none →
      (request :: requests).find? (fun other ↦ other.key = key) =
        requests.find? fun other ↦ other.key = key := by
    intro key hnone
    have hne : request.key ≠ key := by
      rintro rfl
      rw [hentry] at hnone
      cases hnone
    exact List.find?_cons_of_neg (by simpa using hne)
  constructor
  · rintro ⟨hdeadline, hnumber, hclose⟩
    refine ⟨fun other hother ↦ hdeadline other (List.mem_cons_of_mem _ hother), ?_,
      (List.pairwise_cons.mp hclose).2⟩
    exact fun key first hnone hfirst ↦ hnumber key first hnone ((hfind key hnone).trans hfirst)
  · rintro ⟨hdeadline, hnumber, hclose⟩
    refine ⟨?_, fun key first hnone hfirst ↦
      hnumber key first hnone ((hfind key hnone).symm.trans hfirst),
      List.pairwise_cons.mpr ⟨?_, hclose⟩⟩
    · intro other hother otherDeadline hget
      rcases List.mem_cons.mp hother with rfl | hrest
      · rw [hentry] at hget
        cases hget
        exact hbefore
      · exact hdeadline other hrest otherDeadline hget
    · -- the deadline is at most twice the clock skew after this request
      intro other hother hkey
      have hother := hdeadline other hother deadline (hkey ▸ hentry)
      have hle := hremembers.deadline_le request.key deadline hentry
      omega

/-- A request whose nonce is already forgotten is admitted once more. -/
theorem not_admitsOnce_cons_forgotten
    (hentry : seenNonces.delegate.get? request.key = some ((), deadline))
    (hafter : ¬ request.now < deadline) : ¬ AdmitsOnce seenNonces (request :: requests) := by
  rintro ⟨hfresh, -, -⟩
  have hunseen : ¬ seenNonces.has request.now request.key = true := by
    rw [MapWithTtl.has_iff]
    rintro ⟨⟨⟩, other, hget, hlt⟩
    rw [hentry] at hget
    cases hget
    exact hafter hlt
  have hmem : request ∈ letThrough seenNonces (request :: requests) := by
    rw [letThrough, if_neg hunseen]
    exact List.mem_cons_self
  have hnone := hfresh request hmem
  rw [hentry] at hnone
  cases hnone

/-- A request with a new nonce is admitted, and its nonce is remembered from then on. -/
theorem admitsOnce_cons_new (hnone : seenNonces.delegate.get? request.key = none) :
    AdmitsOnce seenNonces (request :: requests) ↔ request.issuedAt ≠ .nan ∧
      AdmitsOnce (seenNonces.set request.now request.key ()) requests := by
  have hunseen : ¬ seenNonces.has request.now request.key = true := by
    rw [MapWithTtl.has_iff]
    rintro ⟨⟨⟩, other, hget, -⟩
    rw [hnone] at hget
    cases hget
  have hthrough : letThrough seenNonces (request :: requests) =
      request :: letThrough (seenNonces.set request.now request.key ()) requests := by
    rw [letThrough, if_neg hunseen]
  constructor
  · rintro ⟨hfresh, hnumber, honce⟩
    rw [hthrough] at hfresh hnumber honce
    obtain ⟨hdistinct, honce⟩ := List.pairwise_cons.mp honce
    refine ⟨hnumber request List.mem_cons_self, fun other hother ↦ ?_,
      fun other hother ↦ hnumber other (List.mem_cons_of_mem _ hother), honce⟩
    exact delegate_set_eq_none_iff.mpr
      ⟨(hdistinct other hother).symm, hfresh other (List.mem_cons_of_mem _ hother)⟩
  · rintro ⟨hhead, hfresh, hnumber, honce⟩
    refine ⟨?_, ?_, ?_⟩ <;> rw [hthrough]
    · exact List.forall_mem_cons.mpr ⟨hnone, fun other hother ↦
        (delegate_set_eq_none_iff.mp (hfresh other hother)).2⟩
    · exact List.forall_mem_cons.mpr ⟨hhead, hnumber⟩
    · exact List.pairwise_cons.mpr ⟨fun other hother ↦
        (delegate_set_eq_none_iff.mp (hfresh other hother)).1.symm, honce⟩

theorem covered_cons_new (hremembers : Remembers seenNonces request.now)
    (hnone : seenNonces.delegate.get? request.key = none) :
    Covered seenNonces (request :: requests) ↔ request.issuedAt ≠ .nan ∧
      Covered (seenNonces.set request.now request.key ()) requests := by
  have hset : (seenNonces.set request.now request.key ()).delegate.get? request.key =
      some ((), request.now + 2 * maxClockSkew) := by
    rw [MapWithTtl.delegate_set, OrderedMap.get?_set_self, hremembers.getTtl_eq]
  constructor
  · rintro ⟨hdeadline, hnumber, hclose⟩
    obtain ⟨hhead, hclose⟩ := List.pairwise_cons.mp hclose
    refine ⟨hnumber request.key request hnone (List.find?_cons_of_pos (by simp)), ?_, ?_, hclose⟩
    · intro other hother deadline hget
      by_cases heq : other.key = request.key
      · rw [heq, hset] at hget
        cases hget
        exact hhead other hother heq.symm
      · rw [MapWithTtl.delegate_set, OrderedMap.get?_set_of_ne _ _ heq] at hget
        exact hdeadline other (List.mem_cons_of_mem _ hother) deadline hget
    · intro key first hkey hfind
      obtain ⟨hne, hkey⟩ := delegate_set_eq_none_iff.mp hkey
      refine hnumber key first hkey ?_
      rw [List.find?_cons_of_neg (by simpa using Ne.symm hne)]
      exact hfind
  · rintro ⟨hhead, hdeadline, hnumber, hclose⟩
    refine ⟨?_, ?_, List.pairwise_cons.mpr ⟨fun other hother hkey ↦
      hdeadline other hother _ (hkey ▸ hset), hclose⟩⟩
    · intro other hother deadline hget
      have hne : other.key ≠ request.key := by
        intro heq
        rw [heq, hnone] at hget
        cases hget
      rcases List.mem_cons.mp hother with rfl | hrest
      · exact absurd rfl hne
      · refine hdeadline other hrest deadline ?_
        rw [MapWithTtl.delegate_set, OrderedMap.get?_set_of_ne _ _ hne]
        exact hget
    · intro key first hkey hfind
      by_cases heq : request.key = key
      · rw [List.find?_cons_of_pos (by simpa using heq), Option.some.injEq] at hfind
        exact hfind ▸ hhead
      · rw [List.find?_cons_of_neg (by simpa using heq)] at hfind
        exact hnumber key first (delegate_set_eq_none_iff.mpr ⟨Ne.symm heq, hkey⟩) hfind

end Cons

/-- The rest of the run admits every nonce once exactly when it is covered. The induction is over
the requests: a request with a remembered nonce is refused and changes nothing, and one with a new
nonce is admitted and covers those that follow it with the same nonce. -/
theorem admitsOnce_iff_covered {seenNonces : MapWithTtl String Unit} {requests : List Presented}
    (hremembers : ∀ request ∈ requests, Remembers seenNonces request.now)
    (hclock : requests.Pairwise fun first second ↦ first.now ≤ second.now) :
    AdmitsOnce seenNonces requests ↔ Covered seenNonces requests := by
  induction requests generalizing seenNonces with
  | nil =>
    refine ⟨fun _ ↦ ⟨?_, ?_, List.Pairwise.nil⟩, fun _ ↦ ⟨?_, ?_, List.Pairwise.nil⟩⟩
    all_goals simp [letThrough]
  | cons request requests ih =>
    obtain ⟨hfirst, hclock⟩ := List.pairwise_cons.mp hclock
    obtain ⟨hnow, hremembers⟩ := List.forall_mem_cons.mp hremembers
    cases hentry : seenNonces.delegate.get? request.key with
    | none =>
      rw [admitsOnce_cons_new hentry, covered_cons_new hnow hentry]
      refine and_congr_right fun _ ↦ ih (fun other hother ↦ ?_) hclock
      exact (hnow.set request.key).mono (hfirst other hother)
    | some entry =>
      obtain ⟨⟨⟩, deadline⟩ := entry
      by_cases hbefore : request.now < deadline
      · rw [admitsOnce_cons_remembered hentry hbefore, covered_cons_remembered hnow hentry hbefore]
        exact ih hremembers hclock
      · refine iff_of_false (not_admitsOnce_cons_forgotten hentry hbefore) fun hcovered ↦ ?_
        exact hbefore (hcovered.before_deadline request List.mem_cons_self deadline hentry)

/-! ### When a run is protected -/

theorem admitsOnce_create_iff (requests : List Presented) :
    AdmitsOnce SignedRequestVerifier.create.seenNonces requests ↔
      (∀ request ∈ letThrough SignedRequestVerifier.create.seenNonces requests,
        request.issuedAt ≠ .nan) ∧
      (letThrough SignedRequestVerifier.create.seenNonces requests).Pairwise fun first second ↦
        ¬ (first.user = second.user ∧ first.nonce = second.nonce) := by
  constructor
  · rintro ⟨-, hnumber, honce⟩
    exact ⟨hnumber, honce.imp fun hne hsame ↦ hne (nonceKey_inj.mpr hsame)⟩
  · rintro ⟨hnumber, honce⟩
    exact ⟨fun _ _ ↦ rfl, hnumber, honce.imp fun hne hsame ↦ hne (nonceKey_inj.mp hsame)⟩

theorem covered_create_iff (requests : List Presented) :
    Covered SignedRequestVerifier.create.seenNonces requests ↔ WithinMemory requests := by
  constructor
  · rintro ⟨-, hnumber, hclose⟩
    refine ⟨fun user nonce first hfind ↦ ?_, hclose.imp fun hlt huser hnonce ↦
      hlt (nonceKey_inj.mpr ⟨huser, hnonce⟩)⟩
    refine hnumber (nonceKey user nonce) first rfl ?_
    simpa only [Presented.key, nonceKey_inj] using hfind
  · rintro ⟨hnumber, hclose⟩
    refine ⟨fun _ _ _ hget ↦ ?_, fun key first _ hfind ↦ ?_, hclose.imp fun hlt hkey ↦ ?_⟩
    · cases hget
    · have hkey : first.key = key := by simpa using List.find?_some hfind
      refine hnumber first.user first.nonce first ?_
      simpa only [← hkey, Presented.key, nonceKey_inj] using hfind
    · obtain ⟨huser, hnonce⟩ := nonceKey_inj.mp hkey
      exact hlt huser hnonce

/-- What is admitted was presented. -/
theorem mem_of_mem_letThrough {seenNonces : MapWithTtl String Unit} {requests : List Presented}
    {request : Presented} (hmem : request ∈ letThrough seenNonces requests) : request ∈ requests := by
  induction requests generalizing seenNonces with
  | nil => exact hmem
  | cons first requests ih =>
    rw [letThrough] at hmem
    split_ifs at hmem
    · exact List.mem_cons_of_mem _ (ih hmem)
    · rcases List.mem_cons.mp hmem with rfl | hrest
      · exact List.mem_cons_self
      · exact List.mem_cons_of_mem _ (ih hrest)

/-- A run of calls admits only recent requests and every nonce once if and only if, among the
requests it presents with a valid signature, the first one with a given user and nonce has a number
as `issuedAt`, and no two with the same user and nonce are twice the clock skew apart.
Assumes: the clock does not run backwards. -/
theorem admitted_protected_iff (host : Host) (calls : List Call)
    (hclock : calls.Pairwise fun first second ↦ first.now ≤ second.now) :
    Protected (admitted host SignedRequestVerifier.create calls) ↔
      WithinMemory (presented host calls) := by
  have hsorted : (presented host calls).Pairwise fun first second ↦ first.now ≤ second.now := by
    refine List.Pairwise.filterMap _ ?_ hclock
    intro first second hle request hrequest other hother
    rw [now_of_present (toOption_eq_some.mp hrequest), now_of_present (toOption_eq_some.mp hother)]
    exact hle
  rw [← covered_create_iff, ← admitsOnce_iff_covered (fun _ _ ↦ ⟨rfl, ?_⟩) hsorted,
    admitsOnce_create_iff, admitted_eq_letThrough]
  · constructor
    · rintro ⟨hrecent, honce⟩
      refine ⟨fun request hrequest hnan ↦ ?_, honce⟩
      obtain ⟨issuedAt, hfinite, -⟩ := hrecent request hrequest
      rw [hnan] at hfinite
      cases hfinite
    · rintro ⟨hnumber, honce⟩
      refine ⟨fun request hrequest ↦ ?_, honce⟩
      obtain ⟨call, -, hcall⟩ := List.mem_filterMap.mp (mem_of_mem_letThrough hrequest)
      exact (recent_of_present (toOption_eq_some.mp hcall)).resolve_left
        (hnumber request hrequest)
  · rintro key deadline hget
    cases hget

/-! ### A forgotten nonce and a header that is not a number -/

/-- The address that signs the requests below. -/
def sampleUser : String := "0x1111111111111111111111111111111111111111"

/-- A host whose signatures name their signer. -/
def sampleHost : Host where
  numberToString := fun number ↦ match number with
    | .nan => "NaN"
    | .finite value => toString value.num
    | _ => "Infinity"
  verifyMessage := fun _ signature ↦ some signature

/-- A call with the given headers, at the given clock value. -/
def sampleCall (now : ℤ) (envelope : Option RawEnvelope) : Call where
  now := now
  envelope := envelope
  purpose := "read"
  streamId := "stream"
  partition := 0
  payloadLines := ["last", "count=1"]

/-- A request dated five minutes after the clock value zero. -/
def sampleEnvelope : Option RawEnvelope :=
  some ⟨.string sampleUser, .number (.finite 300000), .string "nonce-01", .string sampleUser⟩

/-- `Number` on the texts of the traces below. -/
def sampleToNumber (text : String) : JsNumber :=
  if text = "0" then .finite 0 else .nan

/-- An envelope whose issue time is the word `soon`. -/
def undatedEnvelope : Option RawEnvelope :=
  readEnvelope sampleToNumber
    ⟨some sampleUser, some "soon", some "nonce-02", some sampleUser⟩

/-- The address of the sample user. -/
def sampleAddress : EthereumAddress := ⟨sampleUser, by decide⟩

/-- A request that is repeated after a second is admitted once. -/
theorem admitted_protected_iff_repeated : Protected (admitted sampleHost
    SignedRequestVerifier.create [sampleCall 0 sampleEnvelope, sampleCall 1000 sampleEnvelope]) := by
  refine (admitted_protected_iff sampleHost
    [sampleCall 0 sampleEnvelope, sampleCall 1000 sampleEnvelope] (by decide)).mpr ?_
  have hpresented : presented sampleHost
      [sampleCall 0 sampleEnvelope, sampleCall 1000 sampleEnvelope] =
        [⟨0, sampleAddress, "nonce-01", .finite 300000⟩,
          ⟨1000, sampleAddress, "nonce-01", .finite 300000⟩] := by
    decide +kernel
  rw [hpresented]
  refine ⟨fun user nonce first hfind ↦ ?_, ?_⟩
  · have hmem := List.mem_of_find?_eq_some hfind
    rcases List.mem_cons.mp hmem with rfl | hsecond
    · exact JsNumber.noConfusion
    · rw [List.mem_singleton.mp hsecond]
      exact JsNumber.noConfusion
  · rw [List.pairwise_pair]
    exact fun _ _ ↦ by decide

/-- An envelope dated five minutes ahead is admitted again after ten minutes, the moment its nonce
is forgotten; and an envelope whose issue time is not a number is admitted at any time. -/
theorem not_protected_replayed_and_undated :
    (admitted sampleHost SignedRequestVerifier.create
        [sampleCall 0 sampleEnvelope, sampleCall 600000 sampleEnvelope] =
      [⟨0, sampleAddress, "nonce-01", .finite 300000⟩,
        ⟨600000, sampleAddress, "nonce-01", .finite 300000⟩] ∧
      ¬ Protected (admitted sampleHost SignedRequestVerifier.create
        [sampleCall 0 sampleEnvelope, sampleCall 600000 sampleEnvelope])) ∧
    (admitted sampleHost SignedRequestVerifier.create [sampleCall 5000000 undatedEnvelope] =
      [⟨5000000, sampleAddress, "nonce-02", .nan⟩] ∧
      ¬ Protected (admitted sampleHost SignedRequestVerifier.create
        [sampleCall 5000000 undatedEnvelope])) := by
  have hreplayed : admitted sampleHost SignedRequestVerifier.create
      [sampleCall 0 sampleEnvelope, sampleCall 600000 sampleEnvelope] =
        [⟨0, sampleAddress, "nonce-01", .finite 300000⟩,
          ⟨600000, sampleAddress, "nonce-01", .finite 300000⟩] := by
    decide +kernel
  have hundated : admitted sampleHost SignedRequestVerifier.create
      [sampleCall 5000000 undatedEnvelope] = [⟨5000000, sampleAddress, "nonce-02", .nan⟩] := by
    decide +kernel
  refine ⟨⟨hreplayed, fun hprotected ↦ ?_⟩, hundated, fun hprotected ↦ ?_⟩
  · have honce := hprotected.nonce_once
    rw [hreplayed, List.pairwise_pair] at honce
    exact honce ⟨rfl, rfl⟩
  · have hrecent := hprotected.recent
    rw [hundated] at hrecent
    obtain ⟨issuedAt, hfinite, -⟩ := hrecent _ List.mem_cons_self
    cases hfinite

end PomboStorageNode.Storage.SignedRequest
