import PomboStorageNode.Sdk.ProviderHealth
import PomboStorageNode.Library.Transition

/-!
# Calls with failover

`FailoverProvider.ts` asks one provider after the other: the next one when an attempt fails, or when
`attemptTimeout` has passed without an answer. The first answer settles the call, and so do an error
that is an answer, the timer of the call, and the failure of the last attempt. Every attempt has a
slow timer of its own, and gives one verdict to `ProviderHealth`.

`Call` is one execution of `performWithFailover`, driven by what providers and timers do, in any
order. It keeps its history, and `firstDecision` is the first event of it that decides the call.
-/

set_option autoImplicit false

namespace PomboStorageNode.Sdk.FailoverProvider

open Library

/-! ### Errors -/

/-- What a rejected promise carries: an `Error`, with its code, or another value as a text. -/
inductive Thrown
  | error (code : Option String) (message : String)
  | other (text : String)
  deriving DecidableEq

/-- An `Error`. -/
structure JsError where
  code : Option String
  message : String
  deriving DecidableEq

/-- `PROVIDER_FAILURES`. -/
def providerFailures : List String :=
  ["SERVER_ERROR", "TIMEOUT", "NETWORK_ERROR", "UNKNOWN_ERROR"]

/-- `asError`. -/
def asError : Thrown → JsError
  | .error code message => ⟨code, message⟩
  | .other text => ⟨none, text⟩

/-- `isProviderFailure`. -/
def isProviderFailure (error : JsError) : Bool :=
  providerFailures.any fun code ↦ error.code = some code

/-- The error of a call that no provider has failed when its time is over. -/
def timedOut : JsError := ⟨some "TIMEOUT", "RPC call timed out"⟩

example : isProviderFailure timedOut = true := by decide

/-! ### Calls -/

/-- How the promise of a call is settled. -/
inductive Settlement (Result : Type*)
  | resolved (result : Result)
  | rejected (error : JsError)
  deriving DecidableEq

/-- What happens during a call: the outcome of an attempt, a slow timer, the timer for the next
attempt, the timer of the call, and a verdict of another call on the same health. Where a verdict
may be recorded, the clock is read. -/
inductive Event (Provider Result : Type*)
  | answered (provider : Provider) (result : Result) (now : ℤ)
  | failed (provider : Provider) (err : Thrown) (now : ℤ)
  | slow (provider : Provider) (now : ℤ)
  | attemptTimeout
  | callTimeout
  | recorded (provider : Provider) (answered : Bool) (now : ℤ)
  deriving DecidableEq

/-- A call. Of the timers, only the armed ones are kept; `unanswered` are the attempts without an
outcome. The providers asked, the verdicts, the settlements and the events are kept in order. -/
structure Call (Provider Result : Type*) where
  queue : List Provider
  pending : ℤ
  settled : Bool
  lastFailure : Option JsError
  attemptTimer : Bool
  callTimer : Bool
  slowTimers : List Provider
  unanswered : List Provider
  health : ProviderHealth Provider
  asked : List Provider
  verdicts : List (Provider × Bool)
  settlements : List (Settlement Result)
  history : List (Event Provider Result)

/-- The providers of a `FailoverProvider`: different objects. -/
structure Providers (Provider : Type*) where
  providers : List Provider
  nodup : providers.Nodup

variable {Provider Result : Type*}

namespace Call

/-- `settle`. -/
def settle (settlement : Settlement Result) (call : Call Provider Result) : Call Provider Result :=
  if call.settled then call
  else { call with
    settled := true
    callTimer := false
    attemptTimer := false
    settlements := call.settlements ++ [settlement] }

/-- `launchNext`. -/
def launchNext (call : Call Provider Result) : Call Provider Result :=
  match call.queue with
  | [] => { call with attemptTimer := false }
  | provider :: queue =>
    if call.settled then { call with attemptTimer := false, queue := queue }
    else { call with
      queue := queue
      pending := call.pending + 1
      attemptTimer := true
      slowTimers := call.slowTimers ++ [provider]
      unanswered := call.unanswered ++ [provider]
      asked := call.asked ++ [provider] }

variable [DecidableEq Provider]

/-- `judge` of an attempt, which has been judged when its slow timer is not armed. -/
def judge (provider : Provider) (answered : Bool) (now : ℤ) (call : Call Provider Result) :
    Call Provider Result :=
  if provider ∈ call.slowTimers then { call with
    slowTimers := call.slowTimers.filter (· ≠ provider)
    verdicts := call.verdicts ++ [(provider, answered)]
    health := call.health.record provider answered now }
  else call

/-- The handler of an answer. -/
def onAnswered (provider : Provider) (result : Result) (now : ℤ) (call : Call Provider Result) :
    Call Provider Result :=
  (call.judge provider true now).settle (.resolved result)

/-- The end of the handler of a failure. -/
def retry (error : JsError) (call : Call Provider Result) : Call Provider Result :=
  if 0 < call.queue.length then call.launchNext
  else if call.pending = 0 then call.settle (.rejected error)
  else call

/-- The handler of a failure. -/
def onFailed (provider : Provider) (err : Thrown) (now : ℤ) (call : Call Provider Result) :
    Call Provider Result :=
  let call := { call with pending := call.pending - 1 }
  let error := asError err
  if !isProviderFailure error then (call.judge provider true now).settle (.rejected error)
  else retry error { call.judge provider false now with lastFailure := some error }

/-- An attempt gets its outcome. -/
def withOutcome (provider : Provider) (call : Call Provider Result) : Call Provider Result :=
  { call with unanswered := call.unanswered.filter (· ≠ provider) }

/-- One event, in the order of the code. An attempt has one outcome, and a timer fires when it is
armed. -/
def handle (call : Call Provider Result) :
    Event Provider Result → Option (Call Provider Result)
  | .answered provider result now =>
    if provider ∈ call.unanswered then
      some ((call.withOutcome provider).onAnswered provider result now)
    else none
  | .failed provider err now =>
    if provider ∈ call.unanswered then
      some ((call.withOutcome provider).onFailed provider err now)
    else none
  | .slow provider now =>
    if provider ∈ call.slowTimers then some (call.judge provider false now) else none
  | .attemptTimeout => if call.attemptTimer then some call.launchNext else none
  | .callTimeout =>
    if call.callTimer then some (call.settle (.rejected (call.lastFailure.getD timedOut)))
    else none
  | .recorded provider answered now =>
    some { call with health := call.health.record provider answered now }

/-- `handle`, with the event in the history. -/
def step (call : Call Provider Result) (event : Event Provider Result) :
    Option (Call Provider Result) :=
  handle { call with history := call.history ++ [event] } event

end Call

/-- `performWithFailover`, up to the first attempt. -/
def performWithFailover [DecidableEq Provider] (Result : Type*) (providers : Providers Provider)
    (health : ProviderHealth Provider) (now : ℤ) (roll : (i : ℕ) → Fin (i + 1)) :
    Call Provider Result :=
  Call.launchNext
    { queue := health.order now roll providers.providers
      pending := 0
      settled := false
      lastFailure := none
      attemptTimer := false
      callTimer := true
      slowTimers := []
      unanswered := []
      health := health
      asked := []
      verdicts := []
      settlements := []
      history := [] }

/-! ### Histories -/

/-- What decides a call: an answer, an error that is an answer, or the timer. -/
inductive Decision (Result : Type*)
  | answer (result : Result)
  | otherError (error : JsError)
  | timeout
  deriving DecidableEq

/-- The decision that an event is. -/
def decision : Event Provider Result → Option (Decision Result)
  | .answered _ result _ => some (.answer result)
  | .failed _ err _ =>
    if isProviderFailure (asError err) then none else some (.otherError (asError err))
  | .slow _ _ => none
  | .attemptTimeout => none
  | .callTimeout => some .timeout
  | .recorded _ _ _ => none

/-- The first decision of a history. -/
def firstDecision (history : List (Event Provider Result)) : Option (Decision Result) :=
  history.findSome? decision

section Judgements

variable [DecidableEq Provider]

/-- What an event says about the attempt at a provider: an answer, and an error that is one, is a
success, a failure of the provider and the slow timer is a failure. -/
def judgement (provider : Provider) : Event Provider Result → Option Bool
  | .answered other _ _ => if other = provider then some true else none
  | .failed other err _ =>
    if other = provider then some (!isProviderFailure (asError err)) else none
  | .slow other _ => if other = provider then some false else none
  | .attemptTimeout => none
  | .callTimeout => none
  | .recorded _ _ _ => none

/-- What a history says about the attempt at a provider. -/
def judgements (provider : Provider) (history : List (Event Provider Result)) : List Bool :=
  history.filterMap (judgement provider)

/-- The verdicts on a provider. -/
def Call.verdictsOn (call : Call Provider Result) (provider : Provider) : List Bool :=
  call.verdicts.filterMap fun verdict ↦ if verdict.1 = provider then some verdict.2 else none

end Judgements

/-- The provider whose attempt has its outcome in an event. -/
def outcomeOf : Event Provider Result → Option Provider
  | .answered provider _ _ => some provider
  | .failed provider _ _ => some provider
  | .slow _ _ => none
  | .attemptTimeout => none
  | .callTimeout => none
  | .recorded _ _ _ => none

theorem firstDecision_append (history : List (Event Provider Result))
    (event : Event Provider Result) :
    firstDecision (history ++ [event]) = (firstDecision history).or (decision event) := by
  rw [firstDecision, List.findSome?_append, List.findSome?_singleton]
  rfl

/-! ### What the parts of a handler do -/

namespace Call

theorem settle_of_settled {call : Call Provider Result} (hsettled : call.settled = true)
    (settlement : Settlement Result) : call.settle settlement = call := if_pos hsettled

theorem settle_of_not_settled {call : Call Provider Result} (hsettled : call.settled = false)
    (settlement : Settlement Result) :
    call.settle settlement = { call with
      settled := true
      callTimer := false
      attemptTimer := false
      settlements := call.settlements ++ [settlement] } :=
  if_neg (by rw [hsettled]; exact Bool.false_ne_true)

theorem launchNext_of_settled {call : Call Provider Result} (hsettled : call.settled = true) :
    call.launchNext = { call with attemptTimer := false, queue := call.queue.tail } := by
  unfold launchNext
  cases hqueue : call.queue with
  | nil => simp
  | cons provider queue => exact if_pos hsettled

theorem launchNext_of_cons {call : Call Provider Result} {provider : Provider}
    {queue : List Provider} (hsettled : call.settled = false)
    (hqueue : call.queue = provider :: queue) :
    call.launchNext = { call with
      queue := queue
      pending := call.pending + 1
      attemptTimer := true
      slowTimers := call.slowTimers ++ [provider]
      unanswered := call.unanswered ++ [provider]
      asked := call.asked ++ [provider] } := by
  unfold launchNext
  rw [hqueue]
  exact if_neg (by rw [hsettled]; exact Bool.false_ne_true)

theorem launchNext_of_nil {call : Call Provider Result} (hqueue : call.queue = []) :
    call.launchNext = { call with attemptTimer := false } := by
  unfold launchNext
  rw [hqueue]

variable [DecidableEq Provider]

/-- A property that every part of a handler keeps is kept by the handler. -/
theorem handle_rule {event : Event Provider Result} {property : Call Provider Result → Prop}
    (hsettle : ∀ call settlement, property call → property (settle settlement call))
    (hlaunch : ∀ call, property call → property call.launchNext)
    (hjudge : ∀ call provider answered now, property call →
      property (judge provider answered now call))
    (houtcome : ∀ call provider, outcomeOf event = some provider → property call →
      property (withOutcome provider call))
    (hfields : ∀ call pending lastFailure health, property call → property { call with
      pending := pending, lastFailure := lastFailure, health := health })
    {call after : Call Provider Result} (hcall : property call)
    (hhandle : handle call event = some after) : property after := by
  cases event with
  | answered provider result now =>
    rw [handle] at hhandle
    split_ifs at hhandle
    obtain rfl := Option.some.inj hhandle
    exact hsettle _ _ (hjudge _ _ _ _ (houtcome _ _ rfl hcall))
  | failed provider err now =>
    rw [handle] at hhandle
    split_ifs at hhandle
    obtain rfl := Option.some.inj hhandle
    have hstart := houtcome _ provider rfl hcall
    have hpending := hfields _ (call.pending - 1) call.lastFailure call.health hstart
    unfold onFailed
    dsimp only
    split_ifs
    · exact hsettle _ _ (hjudge _ provider true now hpending)
    · have hjudged := hjudge _ provider false now hpending
      have hfailure := hfields _ (judge provider false now { call.withOutcome provider with
        pending := call.pending - 1 }).pending (some (asError err)) (judge provider false now
          { call.withOutcome provider with pending := call.pending - 1 }).health hjudged
      unfold retry
      split_ifs
      · exact hlaunch _ hfailure
      · exact hsettle _ _ hfailure
      · exact hfailure
  | slow provider now =>
    rw [handle] at hhandle
    split_ifs at hhandle
    obtain rfl := Option.some.inj hhandle
    exact hjudge _ _ _ _ hcall
  | attemptTimeout =>
    rw [handle] at hhandle
    split_ifs at hhandle
    obtain rfl := Option.some.inj hhandle
    exact hlaunch _ hcall
  | callTimeout =>
    rw [handle] at hhandle
    split_ifs at hhandle
    obtain rfl := Option.some.inj hhandle
    exact hsettle _ _ hcall
  | recorded provider answered now =>
    obtain rfl := Option.some.inj hhandle
    exact hfields _ call.pending call.lastFailure _ hcall

/-- What `judge` leaves alone. -/
theorem judge_fields (provider : Provider) (answered : Bool) (now : ℤ)
    (call : Call Provider Result) :
    (call.judge provider answered now).queue = call.queue ∧
    (call.judge provider answered now).pending = call.pending ∧
    (call.judge provider answered now).settled = call.settled ∧
    (call.judge provider answered now).attemptTimer = call.attemptTimer ∧
    (call.judge provider answered now).callTimer = call.callTimer ∧
    (call.judge provider answered now).unanswered = call.unanswered ∧
    (call.judge provider answered now).asked = call.asked ∧
    (call.judge provider answered now).settlements = call.settlements ∧
    (call.judge provider answered now).history = call.history := by
  unfold judge
  split_ifs
  · exact ⟨rfl, rfl, rfl, rfl, rfl, rfl, rfl, rfl, rfl⟩
  · exact ⟨rfl, rfl, rfl, rfl, rfl, rfl, rfl, rfl, rfl⟩

end Call

/-! ### Each provider is asked at most once -/

/-- The providers asked and the queue, which is a rest of the order; a call that is settled may have
taken providers out of the queue without asking them. -/
structure Queued (order : List Provider) (call : Call Provider Result) : Prop where
  split : ∃ skipped, call.asked ++ skipped ++ call.queue = order ∧
    (call.settled = false → skipped = [])
  unanswered_nodup : call.unanswered.Nodup
  unanswered_asked : ∀ provider ∈ call.unanswered, provider ∈ call.asked

theorem Queued.settle {order : List Provider} {call : Call Provider Result}
    (hcall : Queued order call) (settlement : Settlement Result) :
    Queued order (call.settle settlement) := by
  cases hsettled : call.settled with
  | true => exact (Call.settle_of_settled hsettled settlement).symm ▸ hcall
  | false =>
    rw [Call.settle_of_not_settled hsettled]
    obtain ⟨skipped, hsplit, -⟩ := hcall.split
    exact ⟨⟨skipped, hsplit, nofun⟩, hcall.unanswered_nodup, hcall.unanswered_asked⟩

/-- The next provider in the queue has not been asked. -/
theorem Queued.not_mem_asked {order : List Provider} (hnodup : order.Nodup)
    {call : Call Provider Result} (hcall : Queued order call) {provider : Provider}
    {queue : List Provider} (hqueue : call.queue = provider :: queue) :
    provider ∉ call.asked := by
  obtain ⟨skipped, hsplit, -⟩ := hcall.split
  rw [← hsplit, hqueue] at hnodup
  intro hmem
  exact (List.nodup_append.mp hnodup).2.2 provider (List.mem_append_left _ hmem) provider
    List.mem_cons_self rfl

theorem Queued.launchNext {order : List Provider} (hnodup : order.Nodup)
    {call : Call Provider Result} (hcall : Queued order call) : Queued order call.launchNext := by
  obtain ⟨skipped, hsplit, hskipped⟩ := hcall.split
  cases hqueue : call.queue with
  | nil =>
    rw [Call.launchNext_of_nil hqueue]
    exact ⟨⟨skipped, hsplit, hskipped⟩, hcall.unanswered_nodup, hcall.unanswered_asked⟩
  | cons provider queue =>
    rw [hqueue] at hsplit
    cases hsettled : call.settled with
    | true =>
      rw [Call.launchNext_of_settled hsettled]
      refine ⟨⟨skipped ++ [provider], ?_, fun hnot ↦ ?_⟩, hcall.unanswered_nodup,
        hcall.unanswered_asked⟩
      · rw [← hsplit]
        simp [hqueue]
      · rw [hsettled] at hnot
        cases hnot
    | false =>
      have hnot := hcall.not_mem_asked hnodup hqueue
      rw [Call.launchNext_of_cons hsettled hqueue]
      refine ⟨⟨[], ?_, fun _ ↦ rfl⟩, ?_, fun other hother ↦ ?_⟩
      · rw [← hsplit, hskipped hsettled]
        simp
      · refine List.nodup_append.mpr ⟨hcall.unanswered_nodup, List.nodup_singleton _, ?_⟩
        rintro other hother _ hprovider rfl
        rw [List.mem_singleton] at hprovider
        exact hnot (hprovider ▸ hcall.unanswered_asked other hother)
      · refine List.mem_append.mpr ((List.mem_append.mp hother).imp_left ?_)
        exact hcall.unanswered_asked other

theorem Queued.judge [DecidableEq Provider] {order : List Provider}
    {call : Call Provider Result} (hcall : Queued order call) (provider : Provider)
    (answered : Bool) (now : ℤ) : Queued order (call.judge provider answered now) := by
  unfold Call.judge
  split_ifs
  · exact ⟨hcall.split, hcall.unanswered_nodup, hcall.unanswered_asked⟩
  · exact hcall

theorem Queued.handle [DecidableEq Provider] {order : List Provider} (hnodup : order.Nodup)
    {call after : Call Provider Result} {event : Event Provider Result}
    (hcall : Queued order call) (hhandle : call.handle event = some after) :
    Queued order after := by
  refine Call.handle_rule (fun call settlement hcall ↦ hcall.settle settlement)
    (fun call hcall ↦ hcall.launchNext hnodup)
    (fun call provider answered now hcall ↦ hcall.judge provider answered now) ?_ ?_ hcall hhandle
  · intro call provider _ hcall
    exact ⟨hcall.split, hcall.unanswered_nodup.filter _, fun other hother ↦
      hcall.unanswered_asked other (List.mem_of_mem_filter hother)⟩
  · intro call pending lastFailure health hcall
    exact ⟨hcall.split, hcall.unanswered_nodup, hcall.unanswered_asked⟩

/-! ### A settled call -/

/-- A settled call that has asked some providers. -/
structure Over (asked : List Provider) (settlements : List (Settlement Result))
    (call : Call Provider Result) : Prop where
  settled : call.settled = true
  asked_eq : call.asked = asked
  settlements_eq : call.settlements = settlements
  callTimer : call.callTimer = false
  attemptTimer : call.attemptTimer = false

/-- A settled call asks nobody and is not settled again. -/
theorem Over.handle [DecidableEq Provider] {asked : List Provider}
    {settlements : List (Settlement Result)} {call after : Call Provider Result}
    {event : Event Provider Result} (hcall : Over asked settlements call)
    (hhandle : call.handle event = some after) : Over asked settlements after := by
  refine Call.handle_rule ?_ ?_ ?_ ?_ ?_ hcall hhandle
  · intro call settlement hcall
    exact (Call.settle_of_settled hcall.settled settlement).symm ▸ hcall
  · intro call hcall
    rw [Call.launchNext_of_settled hcall.settled]
    exact ⟨hcall.settled, hcall.asked_eq, hcall.settlements_eq, hcall.callTimer, rfl⟩
  · intro call provider answered now hcall
    obtain ⟨-, -, hsettled, htimer, hcallTimer, -, hasked, hsettlements, -⟩ :=
      call.judge_fields provider answered now
    exact ⟨hsettled.trans hcall.settled, hasked.trans hcall.asked_eq,
      hsettlements.trans hcall.settlements_eq, hcallTimer.trans hcall.callTimer,
      htimer.trans hcall.attemptTimer⟩
  · intro call provider _ hcall
    exact ⟨hcall.settled, hcall.asked_eq, hcall.settlements_eq, hcall.callTimer,
      hcall.attemptTimer⟩
  · intro call pending lastFailure health hcall
    exact ⟨hcall.settled, hcall.asked_eq, hcall.settlements_eq, hcall.callTimer,
      hcall.attemptTimer⟩

/-! ### Outcomes -/

/-- The history is given, and each provider asked has an outcome in it or is unanswered. -/
structure Followed (history : List (Event Provider Result)) (call : Call Provider Result) :
    Prop where
  history_eq : call.history = history
  outcome : ∀ provider ∈ call.asked, provider ∈ call.unanswered ∨
    ∃ event ∈ history, outcomeOf event = some provider

theorem Followed.launchNext {history : List (Event Provider Result)}
    {call : Call Provider Result} (hcall : Followed history call) :
    Followed history call.launchNext := by
  cases hqueue : call.queue with
  | nil =>
    rw [Call.launchNext_of_nil hqueue]
    exact ⟨hcall.history_eq, hcall.outcome⟩
  | cons provider queue =>
    cases hsettled : call.settled with
    | true =>
      rw [Call.launchNext_of_settled hsettled]
      exact ⟨hcall.history_eq, hcall.outcome⟩
    | false =>
      rw [Call.launchNext_of_cons hsettled hqueue]
      refine ⟨hcall.history_eq, fun other hother ↦ ?_⟩
      rcases List.mem_append.mp hother with hasked | hlast
      · exact (hcall.outcome other hasked).imp_left (List.mem_append_left _)
      · exact Or.inl (List.mem_append_right _ hlast)

theorem Followed.handle [DecidableEq Provider] {history : List (Event Provider Result)}
    {call after : Call Provider Result} {event : Event Provider Result}
    (hcall : Followed history call) (hevent : event ∈ history)
    (hhandle : call.handle event = some after) : Followed history after := by
  refine Call.handle_rule ?_ (fun call hcall ↦ hcall.launchNext) ?_ ?_ ?_ hcall hhandle
  · intro call settlement hcall
    unfold Call.settle
    split_ifs
    · exact hcall
    · exact ⟨hcall.history_eq, hcall.outcome⟩
  · intro call provider answered now hcall
    unfold Call.judge
    split_ifs
    · exact ⟨hcall.history_eq, hcall.outcome⟩
    · exact hcall
  · intro call provider houtcome hcall
    refine ⟨hcall.history_eq, fun other hother ↦ ?_⟩
    by_cases heq : other = provider
    · exact Or.inr ⟨event, hevent, heq ▸ houtcome⟩
    · refine (hcall.outcome other hother).imp_left fun hmem ↦ ?_
      exact List.mem_filter.mpr ⟨hmem, by simpa using heq⟩
  · intro call pending lastFailure health hcall
    exact ⟨hcall.history_eq, hcall.outcome⟩

/-! ### Verdicts -/

section Verdicts

variable [DecidableEq Provider]

/-- The verdict on an attempt is what the first event about it says, and its slow timer is armed as
long as there is none. -/
structure Judged (history : List (Event Provider Result)) (call : Call Provider Result) :
    Prop where
  verdict : ∀ provider, call.verdictsOn provider = (judgements provider history).take 1
  armed : ∀ provider, provider ∈ call.slowTimers ↔
    provider ∈ call.asked ∧ judgements provider history = []
  not_asked : ∀ provider, provider ∉ call.asked → judgements provider history = []

theorem judgements_append (provider : Provider) (history : List (Event Provider Result))
    (event : Event Provider Result) :
    judgements provider (history ++ [event]) =
      judgements provider history ++ (judgement provider event).toList := by
  rw [judgements, List.filterMap_append, ← judgements]
  congr 1

theorem Call.verdictsOn_append {call : Call Provider Result} {verdict : Provider × Bool}
    {provider : Provider} {verdicts : List (Provider × Bool)}
    (hverdicts : call.verdicts = verdicts ++ [verdict]) :
    call.verdictsOn provider = (verdicts.filterMap fun verdict ↦
        if verdict.1 = provider then some verdict.2 else none) ++
      if verdict.1 = provider then [verdict.2] else [] := by
  rw [verdictsOn, hverdicts, List.filterMap_append]
  congr 1
  by_cases heq : verdict.1 = provider <;> simp [heq]

/-- An event that says nothing about any attempt. -/
theorem Judged.of_none {history : List (Event Provider Result)} {call : Call Provider Result}
    {event : Event Provider Result} (hcall : Judged history call)
    (hnone : ∀ provider, judgement provider event = none) : Judged (history ++ [event]) call := by
  have hsame (provider : Provider) :
      judgements provider (history ++ [event]) = judgements provider history := by
    rw [judgements_append, hnone provider]
    exact List.append_nil _
  refine ⟨fun provider ↦ ?_, fun provider ↦ ?_, fun provider hnot ↦ ?_⟩
  · rw [hsame, hcall.verdict]
  · rw [hsame, hcall.armed]
  · rw [hsame, hcall.not_asked provider hnot]

/-- An event that says something about one attempt, which is judged. -/
theorem Judged.judge {history : List (Event Provider Result)} {call : Call Provider Result}
    {event : Event Provider Result} {provider : Provider} {answered : Bool}
    (hcall : Judged history call) (hasked : provider ∈ call.asked)
    (hjudgement : ∀ other, judgement other event =
      if provider = other then some answered else none) (now : ℤ) :
    Judged (history ++ [event]) (call.judge provider answered now) := by
  have hsame (other : Provider) : judgements other (history ++ [event]) =
      judgements other history ++ if provider = other then [answered] else [] := by
    rw [judgements_append, hjudgement]
    by_cases heq : provider = other <;> simp [heq]
  unfold Call.judge
  split_ifs with harmed
  · obtain ⟨-, hnone⟩ := (hcall.armed provider).mp harmed
    refine ⟨fun other ↦ ?_, fun other ↦ ?_, fun other hnot ↦ ?_⟩
    · have hverdict := hcall.verdict other
      rw [Call.verdictsOn_append rfl, hsame, ← Call.verdictsOn, hverdict]
      by_cases heq : provider = other
      · rw [← heq, hnone]
        simp
      · simp [heq]
    · rw [List.mem_filter, hcall.armed, hsame, List.append_eq_nil_iff]
      by_cases heq : provider = other
      · simp [heq]
      · simp [heq, Ne.symm heq]
    · have hne : provider ≠ other := fun heq ↦ hnot (heq ▸ hasked)
      rw [hsame, hcall.not_asked other hnot, if_neg hne]
      rfl
  · have hsome : judgements provider history ≠ [] := fun hnone ↦
      harmed ((hcall.armed provider).mpr ⟨hasked, hnone⟩)
    refine ⟨fun other ↦ ?_, fun other ↦ ?_, fun other hnot ↦ ?_⟩
    · rw [hcall.verdict, hsame]
      by_cases heq : provider = other
      · subst heq
        cases hjudged : judgements provider history with
        | nil => exact absurd hjudged hsome
        | cons first rest => rfl
      · rw [if_neg heq, List.append_nil]
    · rw [hcall.armed, hsame, List.append_eq_nil_iff]
      by_cases heq : provider = other
      · subst heq
        simp [hsome]
      · simp [heq]
    · have hne : provider ≠ other := fun heq ↦ hnot (heq ▸ hasked)
      rw [hsame, hcall.not_asked other hnot, if_neg hne]
      rfl

theorem Judged.settle {history : List (Event Provider Result)} {call : Call Provider Result}
    (hcall : Judged history call) (settlement : Settlement Result) :
    Judged history (call.settle settlement) := by
  unfold Call.settle
  split_ifs
  · exact hcall
  · exact ⟨hcall.verdict, hcall.armed, hcall.not_asked⟩

theorem Judged.launchNext {history : List (Event Provider Result)} {call : Call Provider Result}
    {order : List Provider} (hnodup : order.Nodup) (hqueued : Queued order call)
    (hcall : Judged history call) : Judged history call.launchNext := by
  cases hqueue : call.queue with
  | nil =>
    rw [Call.launchNext_of_nil hqueue]
    exact ⟨hcall.verdict, hcall.armed, hcall.not_asked⟩
  | cons provider queue =>
    cases hsettled : call.settled with
    | true =>
      rw [Call.launchNext_of_settled hsettled]
      exact ⟨hcall.verdict, hcall.armed, hcall.not_asked⟩
    | false =>
      have hnone := hcall.not_asked provider (hqueued.not_mem_asked hnodup hqueue)
      rw [Call.launchNext_of_cons hsettled hqueue]
      refine ⟨hcall.verdict, fun other ↦ ?_, fun other hnot ↦ ?_⟩
      · rw [List.mem_append, List.mem_append, List.mem_singleton, hcall.armed, or_and_right]
        refine or_congr_right ⟨fun heq ↦ ⟨heq, heq ▸ hnone⟩, And.left⟩
      · exact hcall.not_asked other fun hmem ↦ hnot (List.mem_append_left _ hmem)

end Verdicts

/-! ### The settlement -/

/-- The settlement that a decision asks for. -/
def Settles : Decision Result → Settlement Result → Prop
  | .answer result, settlement => settlement = .resolved result
  | .otherError error, settlement => settlement = .rejected error
  | .timeout, settlement => ∃ error, settlement = .rejected error

/-- The settlement is what the first decision asks for. Without a decision everybody has been asked,
and the last attempt has failed. -/
def Justified (order : List Provider) (call : Call Provider Result)
    (settlement : Settlement Result) : Prop :=
  (∃ first, firstDecision call.history = some first ∧ Settles first settlement) ∨
    (firstDecision call.history = none ∧ call.asked = order ∧ call.unanswered = [] ∧
      ∃ error, settlement = .rejected error)

/-- A call that is not settled: its timer is armed, nothing has decided it, and `pending` counts the
attempts without an outcome. -/
structure Open (call : Call Provider Result) : Prop where
  settled : call.settled = false
  settlements_eq : call.settlements = []
  callTimer : call.callTimer = true
  undecided : firstDecision call.history = none
  pending_eq : call.pending = call.unanswered.length

/-- A call is open, or settled once for a reason. -/
def Sound (order : List Provider) (call : Call Provider Result) : Prop :=
  Open call ∨ ∃ settlement, Over call.asked [settlement] call ∧ Justified order call settlement

/-- An open call that is settled. -/
theorem Sound.settle {order : List Provider} {call : Call Provider Result}
    {settlement : Settlement Result} (hsettled : call.settled = false)
    (hnone : call.settlements = []) (hjustified : Justified order call settlement) :
    Sound order (call.settle settlement) := by
  rw [Call.settle_of_not_settled hsettled]
  refine Or.inr ⟨settlement, ⟨rfl, rfl, ?_, rfl, rfl⟩, hjustified⟩
  rw [hnone, List.nil_append]

theorem Open.launchNext {call : Call Provider Result} (hcall : Open call) :
    Open call.launchNext := by
  cases hqueue : call.queue with
  | nil =>
    rw [Call.launchNext_of_nil hqueue]
    exact ⟨hcall.settled, hcall.settlements_eq, hcall.callTimer, hcall.undecided,
      hcall.pending_eq⟩
  | cons provider queue =>
    rw [Call.launchNext_of_cons hcall.settled hqueue]
    refine ⟨hcall.settled, hcall.settlements_eq, hcall.callTimer, hcall.undecided, ?_⟩
    rw [List.length_append, List.length_singleton, hcall.pending_eq]
    exact (Nat.cast_succ _).symm

section Sound

variable [DecidableEq Provider]

theorem Open.judge {call : Call Provider Result} (hcall : Open call) (provider : Provider)
    (answered : Bool) (now : ℤ) : Open (call.judge provider answered now) := by
  unfold Call.judge
  split_ifs
  · exact ⟨hcall.settled, hcall.settlements_eq, hcall.callTimer, hcall.undecided,
      hcall.pending_eq⟩
  · exact hcall

theorem length_filter_ne {providers : List Provider} (hnodup : providers.Nodup)
    {provider : Provider} (hmem : provider ∈ providers) :
    ((providers.filter (· ≠ provider)).length : ℤ) = providers.length - 1 := by
  have herase : providers.filter (· ≠ provider) = providers.erase provider := by
    rw [hnodup.erase_eq_filter]
    exact List.filter_congr fun other _ ↦ Bool.eq_iff_iff.mpr (by simp)
  have hpos := List.length_pos_of_mem hmem
  rw [herase, List.length_erase_of_mem hmem]
  omega

omit [DecidableEq Provider] in
theorem history_launchNext (call : Call Provider Result) :
    call.launchNext.history = call.history := by
  unfold Call.launchNext
  cases call.queue with
  | nil => rfl
  | cons provider queue =>
    dsimp only
    split_ifs
    · rfl
    · rfl

/-- The handlers leave the history alone. -/
theorem history_handle {call after : Call Provider Result} {event : Event Provider Result}
    (hhandle : call.handle event = some after) : after.history = call.history := by
  refine Call.handle_rule
    (?_ : ∀ other settlement, Call.history other = call.history → _ = _) ?_ ?_ ?_ ?_ rfl hhandle
  · intro other settlement hother
    unfold Call.settle
    split_ifs <;> exact hother
  · exact fun other hother ↦ (history_launchNext other).trans hother
  · intro other provider answered now hother
    exact (other.judge_fields provider answered now).2.2.2.2.2.2.2.2.trans hother
  · exact fun _ _ _ hother ↦ hother
  · exact fun _ _ _ _ hother ↦ hother

/-- A settled call stays settled for its reason. -/
theorem Over.step {order : List Provider} {call after : Call Provider Result}
    {event : Event Provider Result} {settlement : Settlement Result}
    (hcall : Over call.asked [settlement] call) (hjustified : Justified order call settlement)
    (hstep : call.step event = some after) :
    Over call.asked [settlement] after ∧ Justified order after settlement := by
  have hover : Over call.asked [settlement] { call with history := call.history ++ [event] } :=
    ⟨hcall.settled, rfl, hcall.settlements_eq, hcall.callTimer, hcall.attemptTimer⟩
  have hhistory : after.history = call.history ++ [event] := history_handle hstep
  have hafter := hover.handle hstep
  refine ⟨hafter, ?_⟩
  rcases hjustified with
    ⟨first, hfirst, hsettles⟩ | ⟨hnone, horder, hunanswered, error, herror⟩
  · refine Or.inl ⟨first, ?_, hsettles⟩
    rw [hhistory, firstDecision_append, hfirst]
    rfl
  · have hdecision : firstDecision after.history = decision event := by
      rw [hhistory, firstDecision_append, hnone, Option.none_or]
    -- all attempts have an outcome, and no timer but the slow ones is armed
    cases event with
    | answered provider result now =>
      rw [Call.step, Call.handle, if_neg (by rw [hunanswered]; exact List.not_mem_nil)] at hstep
      cases hstep
    | failed provider err now =>
      rw [Call.step, Call.handle, if_neg (by rw [hunanswered]; exact List.not_mem_nil)] at hstep
      cases hstep
    | slow provider now =>
      rw [Call.step, Call.handle] at hstep
      split_ifs at hstep
      obtain rfl := Option.some.inj hstep
      obtain ⟨-, -, -, -, -, hsame, -⟩ := Call.judge_fields provider false now
        { call with history := call.history ++ [.slow provider now] }
      exact Or.inr ⟨hdecision, hafter.asked_eq.trans horder, hsame.trans hunanswered, error,
        herror⟩
    | attemptTimeout =>
      rw [Call.step, Call.handle, if_neg (by rw [hcall.attemptTimer]; exact Bool.false_ne_true)]
        at hstep
      cases hstep
    | callTimeout =>
      rw [Call.step, Call.handle, if_neg (by rw [hcall.callTimer]; exact Bool.false_ne_true)]
        at hstep
      cases hstep
    | recorded provider answered now =>
      obtain rfl := Option.some.inj hstep
      exact Or.inr ⟨hdecision, horder, hunanswered, error, herror⟩

omit [DecidableEq Provider] in
/-- The end of the handler of a failure, in an open call. -/
theorem Open.retry {order : List Provider} {call : Call Provider Result} (hcall : Open call)
    (hqueued : Queued order call) (error : JsError) : Sound order (call.retry error) := by
  unfold Call.retry
  split_ifs with hqueue hpending
  · exact Or.inl hcall.launchNext
  · refine Sound.settle hcall.settled hcall.settlements_eq ?_
    rw [hcall.pending_eq, Nat.cast_eq_zero] at hpending
    obtain ⟨skipped, hsplit, hskipped⟩ := hqueued.split
    rw [hskipped hcall.settled, List.append_nil,
      List.eq_nil_of_length_eq_zero (Nat.eq_zero_of_not_pos hqueue), List.append_nil] at hsplit
    exact Or.inr ⟨hcall.undecided, hsplit, List.eq_nil_of_length_eq_zero hpending, error, rfl⟩
  · exact Or.inl hcall

/-- One event in an open call. -/
theorem Open.step {order : List Provider} {call after : Call Provider Result}
    {event : Event Provider Result} (hcall : Open call) (hqueued : Queued order call)
    (hstep : call.step event = some after) : Sound order after := by
  have hdecision : firstDecision (call.history ++ [event]) = decision event := by
    rw [firstDecision_append, hcall.undecided, Option.none_or]
  -- what decides the call also settles it
  have hdecided {provider : Provider} {answered : Bool} {now : ℤ} {settlement : Settlement Result}
      {start : Call Provider Result} {first : Decision Result} (hsettled : start.settled = false)
      (hnone : start.settlements = []) (hfirst : firstDecision start.history = some first)
      (hsettles : Settles first settlement) :
      Sound order ((start.judge provider answered now).settle settlement) := by
    obtain ⟨-, -, hsettled', -, -, -, -, hnone', hhistory⟩ :=
      start.judge_fields provider answered now
    refine Sound.settle (hsettled'.trans hsettled) (hnone'.trans hnone) ?_
    exact Or.inl ⟨first, (congrArg firstDecision hhistory).trans hfirst, hsettles⟩
  cases event with
  | answered provider result now =>
    rw [Call.step, Call.handle] at hstep
    split_ifs at hstep
    obtain rfl := Option.some.inj hstep
    exact hdecided hcall.settled hcall.settlements_eq hdecision rfl
  | failed provider err now =>
    rw [Call.step, Call.handle] at hstep
    split_ifs at hstep with hmem
    obtain rfl := Option.some.inj hstep
    unfold Call.onFailed
    dsimp only
    by_cases hfailure : isProviderFailure (asError err) = true
    · rw [if_neg (by simp [hfailure])]
      have hnone : decision (.failed provider err now : Event Provider Result) = none :=
        if_pos hfailure
      have hpending : (call.pending - 1 : ℤ) =
          (call.unanswered.filter (· ≠ provider)).length := by
        rw [length_filter_ne hqueued.unanswered_nodup hmem, hcall.pending_eq]
      have hstart : Open { Call.withOutcome provider { call with
          history := call.history ++ [.failed provider err now] } with
          pending := call.pending - 1 } :=
        ⟨hcall.settled, hcall.settlements_eq, hcall.callTimer, hdecision.trans hnone, hpending⟩
      have hrest : Queued order { Call.withOutcome provider { call with
          history := call.history ++ [.failed provider err now] } with
          pending := call.pending - 1 } :=
        ⟨hqueued.split, hqueued.unanswered_nodup.filter _, fun other hother ↦
          hqueued.unanswered_asked other (List.mem_of_mem_filter hother)⟩
      have hjudged := hstart.judge provider false now
      have hrest := hrest.judge provider false now
      refine Open.retry ?_ ?_ (asError err)
      · exact ⟨hjudged.settled, hjudged.settlements_eq, hjudged.callTimer, hjudged.undecided,
          hjudged.pending_eq⟩
      · exact ⟨hrest.split, hrest.unanswered_nodup, hrest.unanswered_asked⟩
    · rw [if_pos (by simp [hfailure])]
      exact hdecided hcall.settled hcall.settlements_eq (hdecision.trans (if_neg hfailure)) rfl
  | slow provider now =>
    rw [Call.step, Call.handle] at hstep
    split_ifs at hstep
    obtain rfl := Option.some.inj hstep
    have hstart : Open { call with history := call.history ++ [.slow provider now] } :=
      ⟨hcall.settled, hcall.settlements_eq, hcall.callTimer, hdecision, hcall.pending_eq⟩
    exact Or.inl (hstart.judge provider false now)
  | attemptTimeout =>
    rw [Call.step, Call.handle] at hstep
    split_ifs at hstep
    obtain rfl := Option.some.inj hstep
    have hstart : Open { call with history := call.history ++ [.attemptTimeout] } :=
      ⟨hcall.settled, hcall.settlements_eq, hcall.callTimer, hdecision, hcall.pending_eq⟩
    exact Or.inl hstart.launchNext
  | callTimeout =>
    rw [Call.step, Call.handle] at hstep
    split_ifs at hstep
    obtain rfl := Option.some.inj hstep
    exact Sound.settle hcall.settled hcall.settlements_eq
      (Or.inl ⟨.timeout, hdecision, call.lastFailure.getD timedOut, rfl⟩)
  | recorded provider answered now =>
    obtain rfl := Option.some.inj hstep
    exact Or.inl ⟨hcall.settled, hcall.settlements_eq, hcall.callTimer, hdecision,
      hcall.pending_eq⟩

theorem Judged.step {order : List Provider} (hnodup : order.Nodup)
    {call after : Call Provider Result} {event : Event Provider Result}
    (hqueued : Queued order call) (hcall : Judged call.history call)
    (hstep : call.step event = some after) : Judged (call.history ++ [event]) after := by
  cases event with
  | answered provider result now =>
    rw [Call.step, Call.handle] at hstep
    split_ifs at hstep with hmem
    obtain rfl := Option.some.inj hstep
    have hstart : Judged call.history (Call.withOutcome provider { call with
        history := call.history ++ [.answered provider result now] }) :=
      ⟨hcall.verdict, hcall.armed, hcall.not_asked⟩
    exact (hstart.judge (hqueued.unanswered_asked provider hmem) (fun _ ↦ rfl) now).settle _
  | failed provider err now =>
    rw [Call.step, Call.handle] at hstep
    split_ifs at hstep with hmem
    obtain rfl := Option.some.inj hstep
    have hstart : Judged call.history { Call.withOutcome provider { call with
        history := call.history ++ [.failed provider err now] } with
        pending := call.pending - 1 } := ⟨hcall.verdict, hcall.armed, hcall.not_asked⟩
    have hasked := hqueued.unanswered_asked provider hmem
    unfold Call.onFailed
    dsimp only
    cases hfailure : isProviderFailure (asError err) with
    | false =>
      have hjudgement (other : Provider) : judgement other (.failed provider err now :
          Event Provider Result) = if provider = other then some true else none := by
        rw [judgement, hfailure]
        rfl
      exact (hstart.judge hasked hjudgement now).settle _
    | true =>
      have hjudgement (other : Provider) : judgement other (.failed provider err now :
          Event Provider Result) = if provider = other then some false else none := by
        rw [judgement, hfailure]
        rfl
      have hjudged := hstart.judge hasked hjudgement now
      have hrest : Queued order { Call.withOutcome provider { call with
          history := call.history ++ [.failed provider err now] } with
          pending := call.pending - 1 } :=
        ⟨hqueued.split, hqueued.unanswered_nodup.filter _, fun other hother ↦
          hqueued.unanswered_asked other (List.mem_of_mem_filter hother)⟩
      have hrest := hrest.judge provider false now
      rw [if_neg (by simp)]
      unfold Call.retry
      split_ifs
      · exact Judged.launchNext hnodup
          ⟨hrest.split, hrest.unanswered_nodup, hrest.unanswered_asked⟩
          ⟨hjudged.verdict, hjudged.armed, hjudged.not_asked⟩
      · refine Judged.settle ?_ _
        exact ⟨hjudged.verdict, hjudged.armed, hjudged.not_asked⟩
      · exact ⟨hjudged.verdict, hjudged.armed, hjudged.not_asked⟩
  | slow provider now =>
    rw [Call.step, Call.handle] at hstep
    split_ifs at hstep with hmem
    obtain rfl := Option.some.inj hstep
    have hstart : Judged call.history { call with
        history := call.history ++ [.slow provider now] } :=
      ⟨hcall.verdict, hcall.armed, hcall.not_asked⟩
    exact hstart.judge ((hcall.armed provider).mp hmem).1 (fun _ ↦ rfl) now
  | attemptTimeout =>
    rw [Call.step, Call.handle] at hstep
    split_ifs at hstep
    obtain rfl := Option.some.inj hstep
    have hsame : Judged (call.history ++ [.attemptTimeout]) call := hcall.of_none fun _ ↦ rfl
    exact Judged.launchNext hnodup ⟨hqueued.split, hqueued.unanswered_nodup,
      hqueued.unanswered_asked⟩ ⟨hsame.verdict, hsame.armed, hsame.not_asked⟩
  | callTimeout =>
    rw [Call.step, Call.handle] at hstep
    split_ifs at hstep
    obtain rfl := Option.some.inj hstep
    have hsame : Judged (call.history ++ [.callTimeout]) call := hcall.of_none fun _ ↦ rfl
    refine Judged.settle ?_ _
    exact ⟨hsame.verdict, hsame.armed, hsame.not_asked⟩
  | recorded provider answered now =>
    obtain rfl := Option.some.inj hstep
    have hsame : Judged (call.history ++ [.recorded provider answered now]) call :=
      hcall.of_none fun _ ↦ rfl
    exact ⟨hsame.verdict, hsame.armed, hsame.not_asked⟩

/-! ### Runs -/

/-- What holds in every state of a call. -/
structure Invariant (order : List Provider) (call : Call Provider Result) : Prop where
  queued : Queued order call
  followed : Followed call.history call
  judged : Judged call.history call
  sound : Sound order call

theorem Invariant.step {order : List Provider} (hnodup : order.Nodup)
    {call after : Call Provider Result} {event : Event Provider Result}
    (hcall : Invariant order call) (hstep : call.step event = some after) :
    Invariant order after := by
  have hhistory : after.history = call.history ++ [event] := history_handle hstep
  have hqueued : Queued order { call with history := call.history ++ [event] } :=
    ⟨hcall.queued.split, hcall.queued.unanswered_nodup, hcall.queued.unanswered_asked⟩
  have hfollowed : Followed (call.history ++ [event])
      { call with history := call.history ++ [event] } :=
    ⟨rfl, fun provider hmem ↦ (hcall.followed.outcome provider hmem).imp_right
      fun ⟨event, hevent, houtcome⟩ ↦ ⟨event, List.mem_append_left _ hevent, houtcome⟩⟩
  refine ⟨hqueued.handle hnodup hstep, ?_, ?_, ?_⟩
  · rw [hhistory]
    exact hfollowed.handle (List.mem_append_right _ List.mem_cons_self) hstep
  · rw [hhistory]
    exact hcall.judged.step hnodup hcall.queued hstep
  · rcases hcall.sound with hopen | ⟨settlement, hover, hjustified⟩
    · exact hopen.step hcall.queued hstep
    · obtain ⟨hover, hjustified⟩ := hover.step hjustified hstep
      exact Or.inr ⟨settlement, ⟨hover.settled, rfl, hover.settlements_eq, hover.callTimer,
        hover.attemptTimer⟩, hjustified⟩

theorem invariant_performWithFailover (providers : Providers Provider)
    (health : ProviderHealth Provider) (now : ℤ) (roll : (i : ℕ) → Fin (i + 1)) :
    Invariant (health.order now roll providers.providers)
      (performWithFailover Result providers health now roll) := by
  have hnodup := (health.order_perm now roll providers.providers).nodup_iff.mpr providers.nodup
  unfold performWithFailover
  refine ⟨Queued.launchNext hnodup ⟨⟨[], rfl, fun _ ↦ rfl⟩, List.nodup_nil, nofun⟩, ?_, ?_, ?_⟩
  · rw [history_launchNext]
    exact Followed.launchNext ⟨rfl, nofun⟩
  · rw [history_launchNext]
    exact Judged.launchNext hnodup ⟨⟨[], rfl, fun _ ↦ rfl⟩, List.nodup_nil, nofun⟩
      ⟨fun _ ↦ rfl, fun provider ↦ by simp, fun _ _ ↦ rfl⟩
  · exact Or.inl (Open.launchNext ⟨rfl, rfl, rfl, rfl, rfl⟩)

/-- What `performWithFailover` promises in every state of a call. -/
structure Performs (providers : Providers Provider) (call : Call Provider Result) : Prop where
  /-- The call is settled once and for all, or its timer will settle it. -/
  settles_once :
    (call.settlements.length = 1 ∧
      ∀ event after, call.step event = some after → after.settlements = call.settlements) ∨
    (call.settlements = [] ∧
      ∃ after, call.step .callTimeout = some after ∧ after.settlements.length = 1)
  /-- No provider is asked twice. -/
  asks_once : call.asked.Nodup ∧ ∀ provider ∈ call.asked, provider ∈ providers.providers
  /-- No provider is asked after the settlement. -/
  asks_before : call.settlements ≠ [] →
    ∀ event after, call.step event = some after → after.asked = call.asked
  /-- The call resolves with the first answer, unless something else has decided it before. -/
  resolves_iff : ∀ result, call.settlements = [.resolved result] ↔
    firstDecision call.history = some (.answer result)
  /-- An error that is an answer rejects the call, unless something else has decided it before. -/
  rejects_of_otherError : ∀ error, firstDecision call.history = some (.otherError error) →
    call.settlements = [.rejected error]
  /-- Before the timer, a failure of a provider rejects the call only if all have failed. -/
  rejects_failure : ∀ error, call.settlements = [.rejected error] →
    isProviderFailure error = true → .callTimeout ∉ call.history →
    ∀ provider ∈ providers.providers, provider ∈ call.asked ∧
      ∃ err now, .failed provider err now ∈ call.history ∧ isProviderFailure (asError err) = true
  /-- An attempt has one verdict, what the first event about it says, or its slow timer will give
  it one. -/
  judges_once : ∀ provider,
    call.verdictsOn provider = (judgements provider call.history).take 1 ∧
    (provider ∈ call.asked → call.verdictsOn provider = [] →
      ∀ now, (call.step (.slow provider now)).isSome = true) ∧
    (provider ∉ call.asked → call.verdictsOn provider = [])

/-- A timer that is armed settles the call. -/
theorem Open.callTimeout {call : Call Provider Result} (hcall : Open call) :
    ∃ after, call.step .callTimeout = some after ∧ after.settlements.length = 1 := by
  refine ⟨_, if_pos hcall.callTimer, ?_⟩
  rw [Call.settle_of_not_settled (by exact hcall.settled)]
  dsimp only
  rw [hcall.settlements_eq]
  rfl

omit [DecidableEq Provider] in
/-- An error that decides a call is no failure of a provider. -/
theorem isProviderFailure_of_decision {history : List (Event Provider Result)} {error : JsError}
    (hfirst : firstDecision history = some (.otherError error)) :
    isProviderFailure error = false := by
  obtain ⟨event, -, hdecision⟩ := List.exists_of_findSome?_eq_some hfirst
  cases event with
  | answered other result now => cases hdecision
  | failed other err now =>
    rw [decision] at hdecision
    split_ifs at hdecision with hfailure
    rw [Option.some.injEq, Decision.otherError.injEq] at hdecision
    exact hdecision ▸ Bool.eq_false_iff.mpr hfailure
  | slow other now => cases hdecision
  | attemptTimeout => cases hdecision
  | callTimeout => cases hdecision
  | recorded other answered now => cases hdecision

omit [DecidableEq Provider] in
/-- Only the timer of the call is a timeout. -/
theorem callTimeout_mem_of_decision {history : List (Event Provider Result)}
    (hfirst : firstDecision history = some .timeout) : .callTimeout ∈ history := by
  obtain ⟨event, hevent, hdecision⟩ := List.exists_of_findSome?_eq_some hfirst
  cases event with
  | answered other result now => cases hdecision
  | failed other err now =>
    rw [decision] at hdecision
    split_ifs at hdecision
    cases hdecision
  | slow other now => cases hdecision
  | attemptTimeout => cases hdecision
  | callTimeout => exact hevent
  | recorded other answered now => cases hdecision

omit [DecidableEq Provider] in
/-- A history with an outcome for a provider, but without a decision: the provider has failed. -/
theorem failed_of_undecided {history : List (Event Provider Result)} {provider : Provider}
    (hnone : firstDecision history = none) {event : Event Provider Result}
    (hevent : event ∈ history) (houtcome : outcomeOf event = some provider) :
    ∃ err now, .failed provider err now ∈ history ∧ isProviderFailure (asError err) = true := by
  have hdecision := List.findSome?_eq_none_iff.mp hnone event hevent
  cases event with
  | answered other result now => cases hdecision
  | failed other err now =>
    obtain rfl := Option.some.inj houtcome
    refine ⟨err, now, hevent, ?_⟩
    by_contra hother
    rw [decision, if_neg hother] at hdecision
    cases hdecision
  | slow other now => cases houtcome
  | attemptTimeout => cases houtcome
  | callTimeout => cases houtcome
  | recorded other answered now => cases houtcome

theorem Invariant.performs {providers : Providers Provider} {order : List Provider}
    (hperm : order.Perm providers.providers) {call : Call Provider Result}
    (hcall : Invariant order call) : Performs providers call := by
  have hnodup := hperm.nodup_iff.mpr providers.nodup
  obtain ⟨skipped, hsplit, -⟩ := hcall.queued.split
  have hasked : call.asked.Sublist order := by
    rw [← hsplit, List.append_assoc]
    exact List.sublist_append_left _ _
  refine ⟨?_, ⟨hnodup.sublist hasked, fun provider hmem ↦ hperm.subset (hasked.subset hmem)⟩, ?_,
    fun result ↦ ?_, fun error hfirst ↦ ?_, fun error hsettlements hfailure htimeout ↦ ?_,
    fun provider ↦ ⟨hcall.judged.verdict provider, fun hmem hnone now ↦ ?_, fun hnot ↦ ?_⟩⟩
  · rcases hcall.sound with hopen | ⟨settlement, hover, hjustified⟩
    · exact Or.inr ⟨hopen.settlements_eq, hopen.callTimeout⟩
    · refine Or.inl ⟨by rw [hover.settlements_eq]; rfl, fun event after hstep ↦ ?_⟩
      rw [(hover.step hjustified hstep).1.settlements_eq, hover.settlements_eq]
  · intro hsettled event after hstep
    rcases hcall.sound with hopen | ⟨settlement, hover, hjustified⟩
    · exact absurd hopen.settlements_eq hsettled
    · exact (hover.step hjustified hstep).1.asked_eq
  · rcases hcall.sound with hopen | ⟨settlement, hover, hjustified⟩
    · rw [hopen.settlements_eq, hopen.undecided]
      simp
    · rw [hover.settlements_eq]
      rcases hjustified with ⟨first, hfirst, hsettles⟩ | ⟨hnone, -, -, error, rfl⟩
      · rw [hfirst]
        cases first with
        | answer other =>
          rw [show settlement = .resolved other from hsettles]
          simp
        | otherError error =>
          rw [show settlement = .rejected error from hsettles]
          simp
        | timeout =>
          obtain ⟨error, rfl⟩ := hsettles
          simp
      · rw [hnone]
        simp
  · rcases hcall.sound with hopen | ⟨settlement, hover, hjustified⟩
    · rw [hopen.undecided] at hfirst
      cases hfirst
    · rcases hjustified with ⟨first, hfirst', hsettles⟩ | ⟨hnone, -⟩
      · rw [hfirst, Option.some.injEq] at hfirst'
        subst hfirst'
        rw [hover.settlements_eq, show settlement = .rejected error from hsettles]
      · rw [hfirst] at hnone
        cases hnone
  · rcases hcall.sound with hopen | ⟨settlement, hover, hjustified⟩
    · rw [hopen.settlements_eq] at hsettlements
      cases hsettlements
    · rw [hover.settlements_eq, List.cons.injEq] at hsettlements
      obtain ⟨rfl, -⟩ := hsettlements
      rcases hjustified with ⟨first, hfirst, hsettles⟩ | ⟨hnone, horder, hunanswered, -⟩
      · cases first with
        | answer result => cases hsettles
        | otherError other =>
          obtain rfl : error = other := Settlement.rejected.inj hsettles
          rw [isProviderFailure_of_decision hfirst] at hfailure
          cases hfailure
        | timeout => exact absurd (callTimeout_mem_of_decision hfirst) htimeout
      · intro provider hmem
        have hmem : provider ∈ call.asked := horder ▸ hperm.symm.subset hmem
        refine ⟨hmem, ?_⟩
        rcases hcall.followed.outcome provider hmem with hopen | ⟨event, hevent, houtcome⟩
        · rw [hunanswered] at hopen
          exact absurd hopen List.not_mem_nil
        · exact failed_of_undecided hnone hevent houtcome
  · rw [hcall.judged.verdict, List.take_eq_nil_iff] at hnone
    have harmed := (hcall.judged.armed provider).mpr ⟨hmem, hnone.resolve_left one_ne_zero⟩
    rw [Call.step, Call.handle, if_pos harmed]
    rfl
  · rw [hcall.judged.verdict, hcall.judged.not_asked provider hnot]
    rfl

/-- In every state of every call, whatever order answers, failures and timers come in. -/
theorem performs_of_reachable (providers : Providers Provider) (health : ProviderHealth Provider)
    (now : ℤ) (roll : (i : ℕ) → Fin (i + 1)) (call : Call Provider Result)
    (hreachable : Transition.Reachable Call.step (fun _ _ ↦ True)
      (· = performWithFailover Result providers health now roll) call) :
    Performs providers call := by
  have hperm := health.order_perm now roll providers.providers
  have hinvariant : Invariant (health.order now roll providers.providers) call := by
    refine hreachable.invariant ?_ fun call event after _ hcall _ hstep ↦
      hcall.step (hperm.nodup_iff.mpr providers.nodup) hstep
    rintro call rfl
    exact invariant_performWithFailover providers health now roll
  exact hinvariant.performs hperm

end Sound

/-- Two providers: the first one is slow, the second one is asked and fails, and the late answer of
the first one wins. -/
theorem late_answer_wins :
    ∃ call : Call ℕ String,
      Transition.Reachable Call.step (fun _ _ ↦ True)
        (· = performWithFailover String ⟨[0, 1], by decide⟩ (.create [0, 1]) 0 Fin.last) call ∧
      call.asked = [0, 1] ∧ call.settlements = [.resolved "0x"] ∧
      call.verdicts = [(0, false), (1, false)] ∧ Performs ⟨[0, 1], by decide⟩ call := by
  have hrun : (Transition.run Call.step
      (performWithFailover String ⟨[0, 1], by decide⟩ (.create [0, 1]) 0 Fin.last)
      [.slow 0 4000, .attemptTimeout, .failed 1 (.error (some "SERVER_ERROR") "502") 4500,
        .answered 0 "0x" 5000]).map
        (fun call ↦ (call.asked, call.settlements, call.verdicts)) =
      some ([0, 1], [.resolved "0x"], [(0, false), (1, false)]) := by
    decide +kernel
  obtain ⟨call, hcall, hfacts⟩ := Option.map_eq_some_iff.mp hrun
  simp only [Prod.mk.injEq] at hfacts
  have hreachable : Transition.Reachable Call.step (fun _ _ ↦ True)
      (· = performWithFailover String ⟨[0, 1], by decide⟩ (.create [0, 1]) 0 Fin.last) call :=
    .of_run _ (fun _ _ _ ↦ trivial) (.start rfl) hcall
  exact ⟨call, hreachable, hfacts.1, hfacts.2.1, hfacts.2.2,
    performs_of_reachable ⟨[0, 1], by decide⟩ (.create [0, 1]) 0 Fin.last call hreachable⟩

end PomboStorageNode.Sdk.FailoverProvider
