import PomboStorageNode.Library.OrderedMap
import PomboStorageNode.Library.Transition

/-!
# Lazily created values

`Mapping.ts` calls a factory for a value when a key is read for the first time, and lets all reads
of the key that come in the meantime wait for the same call. This is the mapping without limits on
size and age. At most one call is in flight for a key, and all reads that share a call get its
outcome (`Shares`). `invalidate` and `set` look only at the stored values: a call that is in flight
stores its value behind them, and the next reads return what was asked for before
(`stale_after_invalidate`). Nothing stale is returned while neither is called for a key that has a
call in flight (`freshMapping_of_reachable`).

The number of a read, and of the factory call that it starts, is the time at which it starts. The
times of the calls of `set` and `invalidate` are recorded with the keys that they are about, and
every stored value with the factory call that produced it.
-/

set_option autoImplicit false

namespace PomboStorageNode.Sdk.Mapping

open Library Library.Transition

/-! ### Keys -/

/-- `LookupKeyType`: a primitive value or a list of them, as the texts that `toString` gives. -/
inductive LookupKeyType
  | single (text : String)
  | list (texts : List String)
  deriving DecidableEq

/-- `formLookupKey`. -/
def formLookupKey : LookupKeyType → String
  | .single text => text
  | .list texts => String.intercalate "|" texts

/-! ### The mapping -/

variable {Value Failure : Type}

/-- `Item`, with the factory call that produced the value unless it was given to `set`. -/
structure Item (Value : Type) where
  key : LookupKeyType
  value : Value
  origin : Option ℕ
  deriving DecidableEq

/-- A call of the factory: how its promise was settled, and whether the read that made the call has
gone on behind it. -/
structure FactoryCall (Value Failure : Type) where
  key : LookupKeyType
  outcome : Option (Except Failure Value)
  resumed : Bool
  deriving DecidableEq

/-- What a read has come to: it waits for a factory call, it ended with the outcome of one, it
returned a stored value, or the factory threw before it made a promise. -/
inductive Answer (Value Failure : Type)
  | waiting (call : ℕ)
  | shared (call : ℕ) (outcome : Except Failure Value)
  | stored (item : Item Value)
  | thrown (failure : Failure)
  deriving DecidableEq

/-- The factory call from which a read has its answer, or waits for it. -/
def Answer.origin : Answer Value Failure → Option ℕ
  | waiting call | shared call _ => some call
  | stored item => item.origin
  | thrown _ => none

/-- The factory call that produced the value that a read returned. -/
def Answer.produced : Answer Value Failure → Option ℕ
  | shared call (.ok _) => some call
  | stored item => item.origin
  | shared _ (.error _) | waiting _ | thrown _ => none

theorem Answer.origin_of_produced {answer : Answer Value Failure} {call : ℕ}
    (hproduced : answer.produced = some call) : answer.origin = some call := by
  rcases answer with other | ⟨other, failure | value⟩ | item | failure
  · cases hproduced
  · cases hproduced
  · exact hproduced
  · exact hproduced
  · cases hproduced

/-- A call of `get`. -/
structure Get (Value Failure : Type) where
  key : LookupKeyType
  answer : Answer Value Failure
  deriving DecidableEq

/-- `Mapping`, with the factory calls, the reads, the calls of `set` and `invalidate` with their
times and the keys that they are about, and the time. -/
structure State (Value Failure : Type) where
  delegate : OrderedMap String (Item Value)
  pendingPromises : OrderedMap String ℕ
  calls : OrderedMap ℕ (FactoryCall Value Failure)
  gets : OrderedMap ℕ (Get Value Failure)
  updates : List (ℕ × (LookupKeyType → Bool))
  clock : ℕ

/-- What happens: the calls of the methods, where the factory may throw at once; the settlement of
the promise of a factory call; and what goes on behind it, in the read that made the call and in the
reads that joined. -/
inductive Event (Value Failure : Type)
  | get (key : LookupKeyType) (throws : Option Failure)
  | set (key : LookupKeyType) (value : Value)
  | invalidate (predicate : LookupKeyType → Bool)
  | settle (call : ℕ) (outcome : Except Failure Value)
  | resume (call : ℕ)
  | join (id : ℕ)

namespace State

/-- A new mapping. -/
def start : State Value Failure := ⟨.empty, .empty, .empty, .empty, [], 0⟩

/-- A read that has an answer at once, or waits for a call that is in flight. -/
def answered (key : LookupKeyType) (answer : Answer Value Failure) (state : State Value Failure) :
    State Value Failure :=
  { state with gets := state.gets.set state.clock ⟨key, answer⟩ }

/-- A read that calls the factory. -/
def callFactory (key : LookupKeyType) (state : State Value Failure) : State Value Failure :=
  { state with
    pendingPromises := state.pendingPromises.set (formLookupKey key) state.clock
    calls := state.calls.set state.clock ⟨key, none, false⟩
    gets := state.gets.set state.clock ⟨key, .waiting state.clock⟩ }

/-- `get`, as far as it comes without waiting. -/
def get (key : LookupKeyType) (throws : Option Failure) (state : State Value Failure) :
    State Value Failure :=
  match state.pendingPromises.get? (formLookupKey key) with
  | some call => state.answered key (.waiting call)
  | none =>
    match state.delegate.get? (formLookupKey key) with
    | some item => state.answered key (.stored item)
    | none =>
      match throws with
      | some failure => state.answered key (.thrown failure)
      | none => state.callFactory key

/-- `set`. -/
def set (key : LookupKeyType) (value : Value) (state : State Value Failure) :
    State Value Failure :=
  { state with
    delegate := state.delegate.set (formLookupKey key) ⟨key, value, none⟩
    updates := (state.clock, fun other ↦ other = key) :: state.updates }

/-- `invalidate`. -/
def invalidate (predicate : LookupKeyType → Bool) (state : State Value Failure) :
    State Value Failure :=
  { state with
    delegate := state.delegate.filter fun entry ↦ !predicate entry.2.key
    updates := (state.clock, predicate) :: state.updates }

/-- The store behind a factory call. -/
def storeOutcome (isCacheableValue : Value → Bool) (call : ℕ) (key : LookupKeyType)
    (outcome : Except Failure Value) (delegate : OrderedMap String (Item Value)) :
    OrderedMap String (Item Value) :=
  match outcome with
  | .ok value =>
    if isCacheableValue value then delegate.set (formLookupKey key) ⟨key, value, some call⟩
    else delegate
  | .error _ => delegate

/-- What the read that called the factory does behind the call. -/
def resume (isCacheableValue : Value → Bool) (call : ℕ) (key : LookupKeyType)
    (outcome : Except Failure Value) (state : State Value Failure) : State Value Failure :=
  { state with
    delegate := storeOutcome isCacheableValue call key outcome state.delegate
    pendingPromises := state.pendingPromises.delete (formLookupKey key)
    calls := state.calls.set call ⟨key, some outcome, true⟩
    gets := state.gets.set call ⟨key, .shared call outcome⟩ }

/-- The time goes on. -/
def tick (state : State Value Failure) : State Value Failure :=
  { state with clock := state.clock + 1 }

/-- The state after an event, or `none` when it cannot happen. -/
def next (isCacheableValue : Value → Bool) (state : State Value Failure) :
    Event Value Failure → Option (State Value Failure)
  | .get key throws => some (state.get key throws).tick
  | .set key value => some (state.set key value).tick
  | .invalidate predicate => some (state.invalidate predicate).tick
  | .settle call outcome =>
    match state.calls.get? call with
    | some ⟨key, none, resumed⟩ =>
      some { state with calls := state.calls.set call ⟨key, some outcome, resumed⟩ }.tick
    | some ⟨_, some _, _⟩ | none => none
  | .resume call =>
    match state.calls.get? call with
    | some ⟨key, some outcome, false⟩ => some (state.resume isCacheableValue call key outcome).tick
    | some ⟨_, some _, true⟩ | some ⟨_, none, _⟩ | none => none
  | .join id =>
    match state.gets.get? id with
    | some ⟨key, .waiting call⟩ =>
      if id = call then none
      else
        match state.calls.get? call with
        | some ⟨_, some outcome, _⟩ =>
          some { state with gets := state.gets.set id ⟨key, .shared call outcome⟩ }.tick
        | some ⟨_, none, _⟩ | none => none
    | some ⟨_, .shared ..⟩ | some ⟨_, .stored _⟩ | some ⟨_, .thrown _⟩ | none => none

/-! ### What is to hold -/

/-- No two factory calls for one key are in flight, and every read that shares a call ended with the
outcome of the call or can do so as soon as there is one. -/
structure Shares (isCacheableValue : Value → Bool) (state : State Value Failure) : Prop where
  oneInFlight : ∀ {first second firstCall secondCall},
    state.calls.get? first = some firstCall → state.calls.get? second = some secondCall →
      firstCall.resumed = false → secondCall.resumed = false → firstCall.key = secondCall.key →
        first = second
  outcome : ∀ {id get call outcome}, state.gets.get? id = some get →
    get.answer = .shared call outcome →
      ∃ record, state.calls.get? call = some record ∧ record.outcome = some outcome
  returns : ∀ {id get call record outcome}, state.gets.get? id = some get →
    get.answer = .waiting call → state.calls.get? call = some record →
      record.outcome = some outcome → ∃ event after,
        next isCacheableValue state event = some after ∧
          after.gets.get? id = some ⟨get.key, .shared call outcome⟩

/-- No read that starts behind a call of `set` or `invalidate` for its key returns a value of a
factory call that started before it. -/
def Fresh (state : State Value Failure) : Prop :=
  ∀ {id get call}, state.gets.get? id = some get → get.answer.produced = some call →
    ∀ update ∈ state.updates, update.2 get.key = true → ¬ (call < update.1 ∧ update.1 < id)

/-- The condition: `set` and `invalidate` are not called for a key while a factory call is in flight
under its lookup key, and `invalidate` also matches the key of a value that is stored under it. -/
def settled (state : State Value Failure) : Event Value Failure → Prop
  | .set key _ => state.pendingPromises.get? (formLookupKey key) = none
  | .invalidate predicate => ∀ key, predicate key = true →
    state.pendingPromises.get? (formLookupKey key) = none ∧
      ∀ item, state.delegate.get? (formLookupKey key) = some item → predicate item.key = true
  | .get .. | .settle .. | .resume _ | .join _ => True

/-! ### Calls are shared -/

/-- The invariant of the calls: the pending promises are those of the calls behind which no read has
gone on, calls and reads have the times at which they started, a read that waits has a call, and one
that made the call has not gone on. -/
structure Invariant (state : State Value Failure) : Prop where
  pending : ∀ lookup call, state.pendingPromises.get? lookup = some call ↔
    ∃ record, state.calls.get? call = some record ∧ formLookupKey record.key = lookup ∧
      record.resumed = false
  call_lt : ∀ call record, state.calls.get? call = some record → call < state.clock
  get_lt : ∀ id get, state.gets.get? id = some get → id < state.clock
  waiting : ∀ id get call, state.gets.get? id = some get → get.answer = .waiting call →
    ∃ record, state.calls.get? call = some record ∧ (id = call → record.resumed = false ∧
      get.key = record.key)
  shared : ∀ id get call outcome, state.gets.get? id = some get →
    get.answer = .shared call outcome →
      ∃ record, state.calls.get? call = some record ∧ record.outcome = some outcome

variable {state : State Value Failure} {key : LookupKeyType} {call id : ℕ}

theorem invariant_start : Invariant (start : State Value Failure) where
  pending := by simp [start]
  call_lt := by simp [start]
  get_lt := by simp [start]
  waiting := by simp [start]
  shared := by simp [start]

/-- Assumes: the invariant. A read that has an answer keeps it; what it waits for is in flight. -/
theorem Invariant.answered (hinvariant : Invariant state) {answer : Answer Value Failure}
    (hwaiting : ∀ call, answer = .waiting call →
      state.pendingPromises.get? (formLookupKey key) = some call)
    (hshared : ∀ call outcome, answer ≠ .shared call outcome) :
    Invariant (state.answered key answer).tick where
  pending := hinvariant.pending
  call_lt other record hcall := Nat.lt_succ_of_lt (hinvariant.call_lt other record hcall)
  get_lt other get hget := by
    rcases OrderedMap.get?_set_eq_some_iff.mp hget with ⟨rfl, -⟩ | ⟨-, hget⟩
    · exact Nat.lt_succ_self _
    · exact Nat.lt_succ_of_lt (hinvariant.get_lt other get hget)
  waiting other get call hget hanswer := by
    rcases OrderedMap.get?_set_eq_some_iff.mp hget with ⟨rfl, rfl⟩ | ⟨-, hget⟩
    · obtain ⟨record, hcall, -, hresumed⟩ :=
        (hinvariant.pending _ _).mp (hwaiting call hanswer)
      -- the call is older than the read that joins it
      exact ⟨record, hcall, fun heq ↦ absurd (hinvariant.call_lt call record hcall) (by omega)⟩
    · exact hinvariant.waiting other get call hget hanswer
  shared other get call outcome hget hanswer := by
    rcases OrderedMap.get?_set_eq_some_iff.mp hget with ⟨rfl, rfl⟩ | ⟨-, hget⟩
    · exact absurd hanswer (hshared call outcome)
    · exact hinvariant.shared other get call outcome hget hanswer

/-- Assumes: the invariant. A factory call for a key that has none in flight keeps it. -/
theorem Invariant.callFactory (hinvariant : Invariant state)
    (hnone : state.pendingPromises.get? (formLookupKey key) = none) :
    Invariant (state.callFactory key).tick where
  pending lookup call := by
    refine OrderedMap.get?_set_eq_some_iff.trans ⟨?_, ?_⟩
    · rintro (⟨rfl, rfl⟩ | ⟨-, hpending⟩)
      · exact ⟨⟨key, none, false⟩, OrderedMap.get?_set_self .., rfl, rfl⟩
      · obtain ⟨record, hcall, hrecord⟩ := (hinvariant.pending _ _).mp hpending
        have hbefore := hinvariant.call_lt call record hcall
        exact ⟨record, (OrderedMap.get?_set_of_ne _ _ (by omega)).trans hcall, hrecord⟩
    · rintro ⟨record, hcall, rfl, hresumed⟩
      rcases OrderedMap.get?_set_eq_some_iff.mp hcall with ⟨rfl, rfl⟩ | ⟨-, hcall⟩
      · exact .inl ⟨rfl, rfl⟩
      · have hpending := (hinvariant.pending _ _).mpr ⟨record, hcall, rfl, hresumed⟩
        refine .inr ⟨fun hsame ↦ ?_, hpending⟩
        rw [hsame, hnone] at hpending
        cases hpending
  call_lt other record hcall := by
    rcases OrderedMap.get?_set_eq_some_iff.mp hcall with ⟨rfl, -⟩ | ⟨-, hcall⟩
    · exact Nat.lt_succ_self _
    · exact Nat.lt_succ_of_lt (hinvariant.call_lt other record hcall)
  get_lt other get hget := by
    rcases OrderedMap.get?_set_eq_some_iff.mp hget with ⟨rfl, -⟩ | ⟨-, hget⟩
    · exact Nat.lt_succ_self _
    · exact Nat.lt_succ_of_lt (hinvariant.get_lt other get hget)
  waiting other get call hget hanswer := by
    rcases OrderedMap.get?_set_eq_some_iff.mp hget with ⟨rfl, rfl⟩ | ⟨-, hget⟩
    · cases hanswer
      exact ⟨⟨key, none, false⟩, OrderedMap.get?_set_self .., fun _ ↦ ⟨rfl, rfl⟩⟩
    · obtain ⟨record, hcall, hleads⟩ := hinvariant.waiting other get call hget hanswer
      have hbefore := hinvariant.call_lt call record hcall
      exact ⟨record, (OrderedMap.get?_set_of_ne _ _ (by omega)).trans hcall, hleads⟩
  shared other get call outcome hget hanswer := by
    rcases OrderedMap.get?_set_eq_some_iff.mp hget with ⟨rfl, rfl⟩ | ⟨-, hget⟩
    · cases hanswer
    · obtain ⟨record, hcall, houtcome⟩ := hinvariant.shared other get call outcome hget hanswer
      have hbefore := hinvariant.call_lt call record hcall
      exact ⟨record, (OrderedMap.get?_set_of_ne _ _ (by omega)).trans hcall, houtcome⟩

/-- Assumes: the invariant. A read keeps it, whatever it comes to. -/
theorem Invariant.get (hinvariant : Invariant state) (key : LookupKeyType)
    (throws : Option Failure) : Invariant (state.get key throws).tick := by
  unfold State.get
  cases hpending : state.pendingPromises.get? (formLookupKey key) with
  | some call =>
    refine hinvariant.answered (fun other hanswer ↦ ?_) fun _ _ hanswer ↦ nomatch hanswer
    cases hanswer
    exact hpending
  | none =>
    cases hstored : state.delegate.get? (formLookupKey key) with
    | some item =>
      exact hinvariant.answered (fun _ hanswer ↦ nomatch hanswer) fun _ _ hanswer ↦
        nomatch hanswer
    | none =>
      cases throws with
      | some failure =>
        exact hinvariant.answered (fun _ hanswer ↦ nomatch hanswer) fun _ _ hanswer ↦
        nomatch hanswer
      | none => exact hinvariant.callFactory hpending

/-- The invariant does not look at the stored values and the updates. -/
theorem Invariant.update (hinvariant : Invariant state)
    (delegate : OrderedMap String (Item Value)) (updates : List (ℕ × (LookupKeyType → Bool))) :
    Invariant { state with delegate, updates }.tick where
  pending := hinvariant.pending
  call_lt other record hcall := Nat.lt_succ_of_lt (hinvariant.call_lt other record hcall)
  get_lt other get hget := Nat.lt_succ_of_lt (hinvariant.get_lt other get hget)
  waiting := hinvariant.waiting
  shared := hinvariant.shared

/-- Assumes: the invariant. The settlement of a promise that was not settled keeps it. -/
theorem Invariant.settle (hinvariant : Invariant state) {resumed : Bool}
    (hcall : state.calls.get? call = some ⟨key, none, resumed⟩) (outcome : Except Failure Value) :
    Invariant { state with calls := state.calls.set call ⟨key, some outcome, resumed⟩ }.tick where
  pending lookup other := by
    refine (hinvariant.pending lookup other).trans ⟨?_, ?_⟩
    · rintro ⟨record, hother, hrecord⟩
      by_cases hsame : other = call
      · subst hsame
        rw [hcall] at hother
        cases hother
        exact ⟨_, OrderedMap.get?_set_self .., hrecord⟩
      · exact ⟨record, (OrderedMap.get?_set_of_ne _ _ hsame).trans hother, hrecord⟩
    · rintro ⟨record, hother, hrecord⟩
      rcases OrderedMap.get?_set_eq_some_iff.mp hother with ⟨rfl, rfl⟩ | ⟨-, hother⟩
      · exact ⟨_, hcall, hrecord⟩
      · exact ⟨record, hother, hrecord⟩
  call_lt other record hother := by
    rcases OrderedMap.get?_set_eq_some_iff.mp hother with ⟨rfl, -⟩ | ⟨-, hother⟩
    · exact Nat.lt_succ_of_lt (hinvariant.call_lt other _ hcall)
    · exact Nat.lt_succ_of_lt (hinvariant.call_lt other record hother)
  get_lt other get hget := Nat.lt_succ_of_lt (hinvariant.get_lt other get hget)
  waiting other get waited hget hanswer := by
    obtain ⟨record, hwaited, hleads⟩ := hinvariant.waiting other get waited hget hanswer
    by_cases hsame : waited = call
    · subst hsame
      rw [hcall] at hwaited
      cases hwaited
      exact ⟨_, OrderedMap.get?_set_self .., hleads⟩
    · exact ⟨record, (OrderedMap.get?_set_of_ne _ _ hsame).trans hwaited, hleads⟩
  shared other get ended result hget hanswer := by
    obtain ⟨record, hended, hresult⟩ := hinvariant.shared other get ended result hget hanswer
    by_cases hsame : ended = call
    · subst hsame
      rw [hcall] at hended
      cases hended
      cases hresult
    · exact ⟨record, (OrderedMap.get?_set_of_ne _ _ hsame).trans hended, hresult⟩

/-- Assumes: the invariant. What goes on behind a factory call keeps it: the promise is no longer
pending, and the read that made the call has ended. -/
theorem Invariant.resume (hinvariant : Invariant state) {outcome : Except Failure Value}
    (hcall : state.calls.get? call = some ⟨key, some outcome, false⟩)
    (isCacheableValue : Value → Bool) :
    Invariant (state.resume isCacheableValue call key outcome).tick where
  pending lookup other := by
    have hlookup := (hinvariant.pending _ _).mpr ⟨_, hcall, rfl, rfl⟩
    refine OrderedMap.get?_delete_eq_some_iff.trans ⟨?_, ?_⟩
    · rintro ⟨hne, hpending⟩
      obtain ⟨record, hother, rfl, hresumed⟩ := (hinvariant.pending _ _).mp hpending
      have hsame : other ≠ call := by
        rintro rfl
        rw [hcall] at hother
        cases hother
        exact hne rfl
      exact ⟨record, (OrderedMap.get?_set_of_ne _ _ hsame).trans hother, rfl, hresumed⟩
    · rintro ⟨record, hother, rfl, hresumed⟩
      rcases OrderedMap.get?_set_eq_some_iff.mp hother with ⟨rfl, rfl⟩ | ⟨hne, hother⟩
      · cases hresumed
      · have hpending := (hinvariant.pending _ _).mpr ⟨record, hother, rfl, hresumed⟩
        refine ⟨fun hsame ↦ hne ?_, hpending⟩
        rw [hsame, hlookup] at hpending
        exact (Option.some.inj hpending).symm
  call_lt other record hother := by
    rcases OrderedMap.get?_set_eq_some_iff.mp hother with ⟨rfl, -⟩ | ⟨-, hother⟩
    · exact Nat.lt_succ_of_lt (hinvariant.call_lt other _ hcall)
    · exact Nat.lt_succ_of_lt (hinvariant.call_lt other record hother)
  get_lt other get hget := by
    rcases OrderedMap.get?_set_eq_some_iff.mp hget with ⟨rfl, -⟩ | ⟨-, hget⟩
    · exact Nat.lt_succ_of_lt (hinvariant.call_lt other _ hcall)
    · exact Nat.lt_succ_of_lt (hinvariant.get_lt other get hget)
  waiting other get waited hget hanswer := by
    rcases OrderedMap.get?_set_eq_some_iff.mp hget with ⟨rfl, rfl⟩ | ⟨hother, hget⟩
    · cases hanswer
    · obtain ⟨record, hwaited, hleads⟩ := hinvariant.waiting other get waited hget hanswer
      by_cases hsame : waited = call
      · subst hsame
        exact ⟨_, OrderedMap.get?_set_self .., fun heq ↦ absurd heq hother⟩
      · exact ⟨record, (OrderedMap.get?_set_of_ne _ _ hsame).trans hwaited, hleads⟩
  shared other get ended result hget hanswer := by
    rcases OrderedMap.get?_set_eq_some_iff.mp hget with ⟨rfl, rfl⟩ | ⟨-, hget⟩
    · cases hanswer
      exact ⟨_, OrderedMap.get?_set_self .., rfl⟩
    · obtain ⟨record, hended, hresult⟩ := hinvariant.shared other get ended result hget hanswer
      by_cases hsame : ended = call
      · subst hsame
        rw [hcall] at hended
        cases hended
        exact ⟨_, OrderedMap.get?_set_self .., hresult⟩
      · exact ⟨record, (OrderedMap.get?_set_of_ne _ _ hsame).trans hended, hresult⟩

/-- Assumes: the invariant. The end of a read that joined a call keeps it. -/
theorem Invariant.join (hinvariant : Invariant state) {record : FactoryCall Value Failure}
    {outcome : Except Failure Value} {get : Get Value Failure}
    (hget : state.gets.get? id = some get)
    (hcall : state.calls.get? call = some record) (houtcome : record.outcome = some outcome) :
    Invariant { state with gets := state.gets.set id ⟨key, .shared call outcome⟩ }.tick where
  pending := hinvariant.pending
  call_lt other record hother := Nat.lt_succ_of_lt (hinvariant.call_lt other record hother)
  get_lt other found hfound := by
    rcases OrderedMap.get?_set_eq_some_iff.mp hfound with ⟨rfl, -⟩ | ⟨-, hfound⟩
    · exact Nat.lt_succ_of_lt (hinvariant.get_lt other get hget)
    · exact Nat.lt_succ_of_lt (hinvariant.get_lt other found hfound)
  waiting other found waited hfound hanswer := by
    rcases OrderedMap.get?_set_eq_some_iff.mp hfound with ⟨rfl, rfl⟩ | ⟨-, hfound⟩
    · cases hanswer
    · exact hinvariant.waiting other found waited hfound hanswer
  shared other found ended result hfound hanswer := by
    rcases OrderedMap.get?_set_eq_some_iff.mp hfound with ⟨rfl, rfl⟩ | ⟨-, hfound⟩
    · cases hanswer
      exact ⟨record, hcall, houtcome⟩
    · exact hinvariant.shared other found ended result hfound hanswer

/-! ### Nothing stale is returned -/

/-- All updates of the keys with a lookup key came before a factory call. -/
def Untouched (updates : List (ℕ × (LookupKeyType → Bool))) (lookup : String) (call : ℕ) : Prop :=
  ∀ update ∈ updates, ∀ key, formLookupKey key = lookup → update.2 key = true → update.1 < call

/-- An update of other keys leaves a lookup key untouched. -/
theorem Untouched.cons {updates : List (ℕ × (LookupKeyType → Bool))} {lookup : String}
    (huntouched : Untouched updates lookup call) {time : ℕ} {predicate : LookupKeyType → Bool}
    (hother : ∀ key, formLookupKey key = lookup → predicate key = false) :
    Untouched ((time, predicate) :: updates) lookup call := by
  intro update hupdate key hlookup hmatches
  rcases List.mem_cons.mp hupdate with rfl | hupdate
  · exact absurd ((hother key hlookup).symm.trans hmatches) Bool.false_ne_true
  · exact huntouched update hupdate key hlookup hmatches

/-- The invariant of the values: what is stored and what is in flight was asked for behind all
updates, and what a read returns or waits for was asked for behind all updates before the read. -/
structure FreshInvariant (state : State Value Failure) : Prop where
  update_lt : ∀ update ∈ state.updates, update.1 < state.clock
  stored : ∀ lookup item call, state.delegate.get? lookup = some item → item.origin = some call →
    Untouched state.updates lookup call
  pending : ∀ lookup call, state.pendingPromises.get? lookup = some call →
    Untouched state.updates lookup call
  answers : ∀ id get call, state.gets.get? id = some get → get.answer.origin = some call →
    ∀ update ∈ state.updates, update.2 get.key = true → update.1 < id → update.1 < call

theorem freshInvariant_start : FreshInvariant (start : State Value Failure) where
  update_lt := by simp [start]
  stored := by simp [start]
  pending := by simp [start]
  answers := by simp [start]

/-- Assumes: the invariant of the values. A read keeps it if its answer is from a call behind all
updates of its key. -/
theorem FreshInvariant.answered (hfresh : FreshInvariant state) {answer : Answer Value Failure}
    (horigin : ∀ call, answer.origin = some call →
      Untouched state.updates (formLookupKey key) call) :
    FreshInvariant (state.answered key answer).tick where
  update_lt update hupdate := Nat.lt_succ_of_lt (hfresh.update_lt update hupdate)
  stored := hfresh.stored
  pending := hfresh.pending
  answers other get call hget hanswer update hupdate hmatches hbefore := by
    rcases OrderedMap.get?_set_eq_some_iff.mp hget with ⟨rfl, rfl⟩ | ⟨-, hget⟩
    · exact horigin call hanswer update hupdate key rfl hmatches
    · exact hfresh.answers other get call hget hanswer update hupdate hmatches hbefore

/-- Assumes: the invariant of the values. A new factory call keeps it. -/
theorem FreshInvariant.callFactory (hfresh : FreshInvariant state) (key : LookupKeyType) :
    FreshInvariant (state.callFactory key).tick where
  update_lt update hupdate := Nat.lt_succ_of_lt (hfresh.update_lt update hupdate)
  stored := hfresh.stored
  pending lookup call hpending update hupdate other hlookup hmatches := by
    rcases OrderedMap.get?_set_eq_some_iff.mp hpending with ⟨rfl, rfl⟩ | ⟨-, hpending⟩
    · exact hfresh.update_lt update hupdate
    · exact hfresh.pending lookup call hpending update hupdate other hlookup hmatches
  answers other get call hget hanswer update hupdate hmatches hbefore := by
    rcases OrderedMap.get?_set_eq_some_iff.mp hget with ⟨rfl, rfl⟩ | ⟨-, hget⟩
    · cases hanswer
      exact hbefore
    · exact hfresh.answers other get call hget hanswer update hupdate hmatches hbefore

theorem FreshInvariant.get (hfresh : FreshInvariant state) (key : LookupKeyType)
    (throws : Option Failure) : FreshInvariant (state.get key throws).tick := by
  unfold State.get
  cases hpending : state.pendingPromises.get? (formLookupKey key) with
  | some call =>
    refine hfresh.answered fun other hanswer ↦ ?_
    cases hanswer
    exact hfresh.pending _ _ hpending
  | none =>
    cases hstored : state.delegate.get? (formLookupKey key) with
    | some item => exact hfresh.answered fun call horigin ↦ hfresh.stored _ _ call hstored horigin
    | none =>
      cases throws with
      | some failure => exact hfresh.answered fun _ hanswer ↦ nomatch hanswer
      | none => exact hfresh.callFactory key

/-- Assumes: both invariants. An update keeps the invariant of the values if no call is in flight
for its keys and no value of a call is stored for them behind it. -/
theorem FreshInvariant.update (hfresh : FreshInvariant state) (hinvariant : Invariant state)
    {predicate : LookupKeyType → Bool} {delegate : OrderedMap String (Item Value)}
    (hpending : ∀ key, predicate key = true →
      state.pendingPromises.get? (formLookupKey key) = none)
    (hstored : ∀ lookup item call, delegate.get? lookup = some item → item.origin = some call →
      state.delegate.get? lookup = some item ∧
        ∀ key, formLookupKey key = lookup → predicate key = false) :
    FreshInvariant
      { state with delegate, updates := (state.clock, predicate) :: state.updates }.tick where
  update_lt update hupdate := by
    rcases List.mem_cons.mp hupdate with rfl | hupdate
    · exact Nat.lt_succ_self _
    · exact Nat.lt_succ_of_lt (hfresh.update_lt update hupdate)
  stored lookup item call hitem horigin := by
    obtain ⟨hold, hother⟩ := hstored lookup item call hitem horigin
    exact (hfresh.stored lookup item call hold horigin).cons hother
  pending lookup call hcall := by
    refine (hfresh.pending lookup call hcall).cons fun key hlookup ↦ ?_
    refine Bool.eq_false_iff.mpr fun hmatches ↦ ?_
    have hnone := hpending key hmatches
    rw [hlookup] at hnone
    exact absurd (hcall.symm.trans hnone) (Option.some_ne_none call)
  answers other get call hget hanswer update hupdate hmatches hbefore := by
    rcases List.mem_cons.mp hupdate with rfl | hupdate
    · exact absurd (hinvariant.get_lt other get hget) (Nat.lt_asymm hbefore)
    · exact hfresh.answers other get call hget hanswer update hupdate hmatches hbefore

/-- Assumes: both invariants. What goes on behind a factory call keeps the invariant of the values:
the call was in flight, so that no update came behind it. -/
theorem FreshInvariant.resume (hfresh : FreshInvariant state) (hinvariant : Invariant state)
    {outcome : Except Failure Value}
    (hcall : state.calls.get? call = some ⟨key, some outcome, false⟩)
    (isCacheableValue : Value → Bool) :
    FreshInvariant (state.resume isCacheableValue call key outcome).tick where
  update_lt update hupdate := Nat.lt_succ_of_lt (hfresh.update_lt update hupdate)
  stored lookup item origin hitem horigin := by
    have huntouched := hfresh.pending _ _ ((hinvariant.pending _ _).mpr ⟨_, hcall, rfl, rfl⟩)
    change (storeOutcome isCacheableValue call key outcome state.delegate).get? lookup = some item
      at hitem
    unfold storeOutcome at hitem
    cases outcome with
    | error failure => exact hfresh.stored lookup item origin hitem horigin
    | ok value =>
      dsimp only at hitem
      split_ifs at hitem with hcacheable
      · rcases OrderedMap.get?_set_eq_some_iff.mp hitem with ⟨rfl, rfl⟩ | ⟨-, hitem⟩
        · cases horigin
          exact huntouched
        · exact hfresh.stored lookup item origin hitem horigin
      · exact hfresh.stored lookup item origin hitem horigin
  pending lookup other hpending :=
    hfresh.pending lookup other (OrderedMap.get?_delete_eq_some_iff.mp hpending).2
  answers other get origin hget hanswer update hupdate hmatches hbefore := by
    rcases OrderedMap.get?_set_eq_some_iff.mp hget with ⟨rfl, rfl⟩ | ⟨-, hget⟩
    · cases hanswer
      exact hbefore
    · exact hfresh.answers other get origin hget hanswer update hupdate hmatches hbefore

/-- Assumes: the invariant of the values. The end of a read that joined a call keeps it. -/
theorem FreshInvariant.join (hfresh : FreshInvariant state) {outcome : Except Failure Value}
    (hget : state.gets.get? id = some ⟨key, .waiting call⟩) :
    FreshInvariant { state with gets := state.gets.set id ⟨key, .shared call outcome⟩ }.tick where
  update_lt update hupdate := Nat.lt_succ_of_lt (hfresh.update_lt update hupdate)
  stored := hfresh.stored
  pending := hfresh.pending
  answers other get origin hother hanswer update hupdate hmatches hbefore := by
    rcases OrderedMap.get?_set_eq_some_iff.mp hother with ⟨rfl, rfl⟩ | ⟨-, hother⟩
    · cases hanswer
      exact hfresh.answers other _ call hget rfl update hupdate hmatches hbefore
    · exact hfresh.answers other get origin hother hanswer update hupdate hmatches hbefore

/-! ### Runs -/

variable {isCacheableValue : Value → Bool} {after : State Value Failure}

/-- Every event keeps the invariant of the calls. -/
theorem Invariant.next (hinvariant : Invariant state) {event : Event Value Failure}
    (hnext : state.next isCacheableValue event = some after) : Invariant after := by
  cases event with
  | get key throws =>
    cases hnext
    exact hinvariant.get key throws
  | set key value =>
    cases hnext
    exact hinvariant.update _ _
  | invalidate predicate =>
    cases hnext
    exact hinvariant.update _ _
  | settle call outcome =>
    rw [State.next] at hnext
    split at hnext
    · rename_i key resumed hcall
      cases hnext
      exact hinvariant.settle hcall outcome
    · cases hnext
    · cases hnext
  | resume call =>
    rw [State.next] at hnext
    split at hnext
    · rename_i key outcome hcall
      cases hnext
      exact hinvariant.resume hcall isCacheableValue
    · cases hnext
    · cases hnext
    · cases hnext
  | join id =>
    rw [State.next] at hnext
    split at hnext
    · rename_i key call hget
      split_ifs at hnext with hleads
      split at hnext
      · rename_i callKey outcome resumed hcall
        cases hnext
        exact hinvariant.join hget hcall rfl
      · cases hnext
      · cases hnext
    · cases hnext
    · cases hnext
    · cases hnext
    · cases hnext

/-- Assumes: the invariant of the calls. Every event that satisfies the condition keeps the
invariant of the values. -/
theorem FreshInvariant.next (hfresh : FreshInvariant state) (hinvariant : Invariant state)
    {event : Event Value Failure} (hsettled : state.settled event)
    (hnext : state.next isCacheableValue event = some after) : FreshInvariant after := by
  cases event with
  | get key throws =>
    cases hnext
    exact hfresh.get key throws
  | set key value =>
    cases hnext
    refine hfresh.update hinvariant (fun other hother ↦ ?_) fun lookup item call hitem horigin ↦ ?_
    · rw [of_decide_eq_true hother]
      exact hsettled
    · rcases OrderedMap.get?_set_eq_some_iff.mp hitem with ⟨-, rfl⟩ | ⟨hne, hitem⟩
      · cases horigin
      · refine ⟨hitem, fun other hlookup ↦ decide_eq_false ?_⟩
        rintro rfl
        exact hne hlookup.symm
  | invalidate predicate =>
    cases hnext
    refine hfresh.update hinvariant (fun key hkey ↦ (hsettled key hkey).1)
      fun lookup item call hitem horigin ↦ ?_
    rw [OrderedMap.get?_filter, Option.filter_eq_some_iff] at hitem
    refine ⟨hitem.1, fun key hlookup ↦ Bool.eq_false_iff.mpr fun hkey ↦ ?_⟩
    have hmatches := (hsettled key hkey).2 item (hlookup ▸ hitem.1)
    simp [hmatches] at hitem
  | settle call outcome =>
    rw [State.next] at hnext
    split at hnext
    · cases hnext
      exact ⟨fun update hupdate ↦ Nat.lt_succ_of_lt (hfresh.update_lt update hupdate),
        hfresh.stored, hfresh.pending, hfresh.answers⟩
    · cases hnext
    · cases hnext
  | resume call =>
    rw [State.next] at hnext
    split at hnext
    · rename_i key outcome hcall
      cases hnext
      exact hfresh.resume hinvariant hcall isCacheableValue
    · cases hnext
    · cases hnext
    · cases hnext
  | join id =>
    rw [State.next] at hnext
    split at hnext
    · rename_i key call hget
      split_ifs at hnext with hleads
      split at hnext
      · cases hnext
        exact hfresh.join hget
      · cases hnext
      · cases hnext
    · cases hnext
    · cases hnext
    · cases hnext
    · cases hnext

/-- The states that calls reach, whatever they are. -/
theorem invariant_of_reachable {guard : State Value Failure → Event Value Failure → Prop}
    (hreachable : Reachable (next isCacheableValue) guard (· = start) state) : Invariant state :=
  hreachable.invariant (fun _ hstart ↦ hstart ▸ invariant_start)
    fun _ _ _ _ hinvariant _ hnext ↦ hinvariant.next hnext

theorem freshInvariant_of_reachable
    (hreachable : Reachable (next isCacheableValue) settled (· = start) state) :
    FreshInvariant state :=
  hreachable.invariant (fun _ hstart ↦ hstart ▸ freshInvariant_start)
    fun _ _ _ hbefore hfresh hsettled hnext ↦
      hfresh.next (invariant_of_reachable hbefore) hsettled hnext

/-- A read that waits for a call goes on when the call has an outcome: behind the call itself if it
made the call, and else on its own. -/
theorem Invariant.returns (hinvariant : Invariant state) {get : Get Value Failure}
    {record : FactoryCall Value Failure} {outcome : Except Failure Value}
    (hget : state.gets.get? id = some get) (hanswer : get.answer = .waiting call)
    (hcall : state.calls.get? call = some record) (houtcome : record.outcome = some outcome) :
    ∃ event after, state.next isCacheableValue event = some after ∧
      after.gets.get? id = some ⟨get.key, .shared call outcome⟩ := by
  obtain ⟨key, answer⟩ := get
  obtain ⟨callKey, settlement, resumed⟩ := record
  obtain rfl : answer = .waiting call := hanswer
  obtain rfl : settlement = some outcome := houtcome
  by_cases hleads : id = call
  · obtain ⟨found, hfound, hleader⟩ := hinvariant.waiting id _ call hget rfl
    rw [hcall] at hfound
    cases hfound
    obtain ⟨hresumed, hkey⟩ := hleader hleads
    obtain rfl : resumed = false := hresumed
    obtain rfl : key = callKey := hkey
    refine ⟨.resume call, (state.resume isCacheableValue call key outcome).tick, ?_, ?_⟩
    · rw [State.next, hcall]
    · exact hleads ▸ OrderedMap.get?_set_self ..
  · refine ⟨.join id,
      { state with gets := state.gets.set id ⟨key, .shared call outcome⟩ }.tick, ?_, ?_⟩
    · rw [State.next, hget]
      dsimp only
      rw [if_neg hleads, hcall]
    · exact OrderedMap.get?_set_self ..

/-- Reads share calls in every run. -/
theorem shares_of_reachable {guard : State Value Failure → Event Value Failure → Prop}
    (hreachable : Reachable (next isCacheableValue) guard (· = start) state) :
    Shares isCacheableValue state := by
  have hinvariant := invariant_of_reachable hreachable
  refine ⟨fun {first second firstCall secondCall} hfirst hsecond hfirstOpen hsecondOpen hkey ↦ ?_,
    fun hget hanswer ↦ hinvariant.shared _ _ _ _ hget hanswer, hinvariant.returns⟩
  have hpending := (hinvariant.pending _ first).mpr ⟨firstCall, hfirst, rfl, hfirstOpen⟩
  have hother := (hinvariant.pending _ second).mpr ⟨secondCall, hsecond, rfl, hsecondOpen⟩
  rw [hkey, hother] at hpending
  exact (Option.some.inj hpending).symm

/-- In every run that keeps to the condition, reads share calls and return nothing stale. -/
theorem freshMapping_of_reachable
    (hreachable : Reachable (next isCacheableValue) settled (· = start) state) :
    Shares isCacheableValue state ∧ Fresh state := by
  refine ⟨shares_of_reachable hreachable, ?_⟩
  intro id get call hget hproduced update hupdate hmatches ⟨hcall, hid⟩
  have hbehind := (freshInvariant_of_reachable hreachable).answers id get call hget
    (Answer.origin_of_produced hproduced) update hupdate hmatches hid
  exact absurd hcall (Nat.lt_asymm hbehind)

end State

/-! ### A value that was invalidated -/

section Traces

/-- The key that the traces read. -/
def sampleKey : LookupKeyType := .list ["stream", "user"]

/-- A run with a factory whose values are all cached. -/
def runFrom (events : List (Event ℕ Unit)) : Option (State ℕ Unit) :=
  run (State.next fun _ ↦ true) State.start events

/-- A check that implies the condition: nothing is in flight, and all stored values match. -/
def nothingInFlight (state : State ℕ Unit) : Event ℕ Unit → Bool
  | .set _ _ => state.pendingPromises.entries.isEmpty
  | .invalidate predicate => state.pendingPromises.entries.isEmpty &&
    state.delegate.values.all fun item ↦ predicate item.key
  | .get .. | .settle .. | .resume _ | .join _ => true

theorem settled_of_nothingInFlight (state : State ℕ Unit) (event : Event ℕ Unit)
    (hcheck : nothingInFlight state event = true) : state.settled event := by
  have hnone : state.pendingPromises.entries.isEmpty = true →
      ∀ key, state.pendingPromises.get? (formLookupKey key) = none := by
    intro hempty key
    rw [OrderedMap.get?_eq_none_iff, List.isEmpty_iff.mp hempty]
    exact fun _ ↦ List.not_mem_nil
  cases event with
  | set key value => exact hnone hcheck key
  | invalidate predicate =>
    obtain ⟨hempty, hvalues⟩ := Bool.and_eq_true_iff.mp hcheck
    refine fun key _ ↦ ⟨hnone hempty key, fun item hitem ↦ ?_⟩
    refine List.all_eq_true.mp hvalues item (List.mem_map.mpr ⟨(formLookupKey key, item), ?_, rfl⟩)
    exact OrderedMap.get?_eq_some_iff.mp hitem
  | get key throws => trivial
  | settle call outcome => trivial
  | resume call => trivial
  | join id => trivial

/-- A key is read, everything is invalidated, and the key is read again: two reads share the new
call. -/
def invalidatedBehind : List (Event ℕ Unit) :=
  [.get sampleKey none, .settle 0 (.ok 7), .resume 0, .invalidate fun _ ↦ true,
    .get sampleKey none, .get sampleKey none, .settle 4 (.ok 8), .resume 4, .join 5]

/-- Both reads behind the invalidation return the new value. -/
theorem fresh_behind_invalidate : ∃ state,
    checkedRun (State.next fun _ ↦ true) nothingInFlight State.start invalidatedBehind =
        some state ∧
      state.gets.get? 5 = some ⟨sampleKey, .shared 4 (.ok 8)⟩ ∧
      state.Shares (fun _ ↦ true) ∧ state.Fresh := by
  obtain ⟨state, hrun, hget⟩ : ∃ state,
      checkedRun (State.next fun _ ↦ true) nothingInFlight State.start invalidatedBehind =
        some state ∧
      decide (state.gets.get? 5 = some ⟨sampleKey, .shared 4 (.ok 8)⟩) = true :=
    (Option.any_eq_true _ _).mp (by decide +kernel)
  exact ⟨state, hrun, of_decide_eq_true hget, State.freshMapping_of_reachable
    (Reachable.of_checkedRun _ settled_of_nothingInFlight (.start rfl) hrun)⟩

/-- A key is read again behind a factory call during which everything was invalidated. -/
def invalidatedDuring : List (Event ℕ Unit) :=
  [.get sampleKey none, .invalidate fun _ ↦ true, .settle 0 (.ok 7), .resume 0,
    .get sampleKey none]

/-- A key is read again behind a factory call during which it was set. -/
def setDuring : List (Event ℕ Unit) :=
  [.get sampleKey none, .set sampleKey 8, .settle 0 (.ok 7), .resume 0, .get sampleKey none]

/-- The last read of these runs returned the value of the first call, behind an update. -/
def returnsStale (state : State ℕ Unit) : Bool :=
  decide (state.gets.get? 4 = some ⟨sampleKey, .stored ⟨sampleKey, 7, some 0⟩⟩) &&
    state.updates.any fun update ↦ update.2 sampleKey && decide (0 < update.1 ∧ update.1 < 4)

theorem not_fresh_of_returnsStale {state : State ℕ Unit} (hstale : returnsStale state = true) :
    ¬ state.Fresh := by
  obtain ⟨hget, hupdates⟩ := Bool.and_eq_true_iff.mp hstale
  obtain ⟨update, hupdate, hmatches⟩ := List.any_eq_true.mp hupdates
  obtain ⟨hkey, hbetween⟩ := Bool.and_eq_true_iff.mp hmatches
  exact fun hfresh ↦ hfresh (of_decide_eq_true hget) rfl update hupdate hkey
    (of_decide_eq_true hbetween)

/-- The last read returns the value that was asked for before the invalidation, or before the key
was set. -/
theorem stale_after_invalidate :
    (∃ state, runFrom invalidatedDuring = some state ∧ ¬ state.Fresh) ∧
      ∃ state, runFrom setDuring = some state ∧ ¬ state.Fresh := by
  obtain ⟨first, hfirst, hfirstStale⟩ : ∃ state, runFrom invalidatedDuring = some state ∧
      returnsStale state = true := (Option.any_eq_true _ _).mp (by decide +kernel)
  obtain ⟨second, hsecond, hsecondStale⟩ : ∃ state, runFrom setDuring = some state ∧
      returnsStale state = true := (Option.any_eq_true _ _).mp (by decide +kernel)
  exact ⟨⟨first, hfirst, not_fresh_of_returnsStale hfirstStale⟩, second, hsecond,
    not_fresh_of_returnsStale hsecondStale⟩

end Traces

end PomboStorageNode.Sdk.Mapping
