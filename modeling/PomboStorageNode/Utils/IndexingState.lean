import Mathlib.Data.List.Perm.Basic
import Mathlib.Data.List.Range
import PomboStorageNode.Library.Transition

/-!
# Waiting for a block to be indexed

`IndexingState` in `TheGraphClient.ts` polls the number of the last indexed block while a caller
waits for a later one. A caller waits at a gate of its own, which a poll opens or a time-out takes
out of the set of gates. Whether a polling loop runs is read off that set, so a loop that is at its
poll or its wait when the last gate times out is not seen by the next caller, who starts another
one.

`Indexed` is what holds in every state, for the calls that have returned, those that wait and the
loops. `indexed_of_reachable` adds that at most one loop runs where no caller comes between the last
time-out and the end of the loop.
-/

set_option autoImplicit false

namespace PomboStorageNode.Utils.IndexingState

open Library

/-! ### The state -/

/-- `BlockNumberGate`, which belongs to one call of `waitUntilIndexed`. -/
structure BlockNumberGate where
  call : ℕ
  blockNumber : ℕ
  deriving DecidableEq

/-- Where a polling loop is: at its poll, or at the wait behind it. -/
inductive Position
  | polling
  | waiting
  deriving DecidableEq

/-- `IndexingState`, with the polling loops. The gates of all calls, of those that returned and of
those that timed out, and the numbers that polls reported are history. -/
structure State where
  blockNumber : ℕ
  gates : List BlockNumberGate
  loops : List Position
  calls : List BlockNumberGate
  resolved : List BlockNumberGate
  timedOut : List BlockNumberGate
  reported : List ℕ

/-- A new `IndexingState`. -/
def create : State := ⟨0, [], [], [], [], [], []⟩

/-- What happens: `waitUntilIndexed` is called; a call times out; the poll of a loop returns a
number or fails; the wait of a loop is over. -/
inductive Event
  | waitUntilIndexed (blockNumber : ℕ)
  | timedOut (gate : BlockNumberGate)
  | polled (loop : ℕ) (result : Option ℕ)
  | waited (loop : ℕ)

namespace State

/-- `startPolling`, up to its first poll. -/
def startPolling (state : State) : State :=
  if state.gates = [] then state else { state with loops := state.loops ++ [.polling] }

/-- `getOrCreateGate`; a gate that stays open lets its call return. -/
def getOrCreateGate (state : State) (gate : BlockNumberGate) : State :=
  if state.blockNumber < gate.blockNumber then
    let isPolling := state.gates ≠ []
    let added := { state with gates := state.gates ++ [gate] }
    if isPolling then added else added.startPolling
  else { state with resolved := state.resolved ++ [gate] }

/-- `waitUntilIndexed`. -/
def waitUntilIndexed (state : State) (blockNumber : ℕ) : State :=
  let gate : BlockNumberGate := ⟨state.calls.length, blockNumber⟩
  let called := { state with calls := state.calls ++ [gate] }
  if blockNumber ≤ state.blockNumber then { called with resolved := state.resolved ++ [gate] }
  else called.getOrCreateGate gate

/-- What a loop does with the result of its poll. -/
def record (state : State) : Option ℕ → State
  | none => state
  | some newBlockNumber =>
    let heard := { state with reported := state.reported ++ [newBlockNumber] }
    if newBlockNumber ≠ state.blockNumber then
      { heard with
        blockNumber := newBlockNumber
        resolved := state.resolved ++
          state.gates.filter fun gate ↦ gate.blockNumber ≤ newBlockNumber
        gates := state.gates.filter fun gate ↦ newBlockNumber < gate.blockNumber }
    else heard

/-- A loop goes on to its next position, or ends because there is no gate. -/
def proceed (state : State) (loop : ℕ) (position : Position) : State :=
  if state.gates = [] then { state with loops := state.loops.eraseIdx loop }
  else { state with loops := state.loops.set loop position }

/-- The state after an event, or `none` when it cannot happen. -/
def step (state : State) : Event → Option State
  | .waitUntilIndexed blockNumber => some (state.waitUntilIndexed blockNumber)
  | .timedOut gate =>
    if gate ∈ state.gates then
      some { state with
        gates := state.gates.erase gate
        timedOut := state.timedOut ++ [gate] }
    else none
  | .polled loop result =>
    if state.loops[loop]? = some .polling then
      some ((state.record result).proceed loop .waiting)
    else none
  | .waited loop =>
    if state.loops[loop]? = some .waiting then some (state.proceed loop .polling) else none

/-- The numbers that polls report do not decrease. -/
def Increasing (state : State) : Event → Prop
  | .polled _ (some newBlockNumber) => ∀ number ∈ state.reported, number ≤ newBlockNumber
  | _ => True

/-- No caller begins to wait while there is no gate and a loop has not ended yet. -/
def Undisturbed (state : State) : Event → Prop
  | .waitUntilIndexed blockNumber =>
    state.blockNumber < blockNumber → state.gates = [] → state.loops = []
  | _ => True

/-! ### What holds in every state -/

/-- A call has returned only where its number was reported, or is zero; a call waits only for a
number above all that were reported; every call waits, has returned or has timed out; and a loop
runs while a call waits. -/
structure Indexed (state : State) : Prop where
  known : state.blockNumber = 0 ∨ state.blockNumber ∈ state.reported
  bound : ∀ number ∈ state.reported, number ≤ state.blockNumber
  waits : ∀ gate ∈ state.gates, state.blockNumber < gate.blockNumber
  returns : ∀ gate ∈ state.resolved,
    gate.blockNumber = 0 ∨ ∃ number ∈ state.reported, gate.blockNumber ≤ number
  accounted : (state.gates ++ (state.resolved ++ state.timedOut)).Perm state.calls
  distinct : state.calls.map BlockNumberGate.call = List.range state.calls.length
  polls : state.gates ≠ [] → state.loops ≠ []

variable {state after : State}

theorem indexed_create : create.Indexed :=
  ⟨.inl rfl, nofun, nofun, nofun, .refl _, rfl, fun hgates ↦ absurd rfl hgates⟩

/-- The number that a state knows was reported, if it is not zero. -/
theorem Indexed.reported_of_le (h : state.Indexed) {blockNumber : ℕ}
    (hle : blockNumber ≤ state.blockNumber) :
    blockNumber = 0 ∨ ∃ number ∈ state.reported, blockNumber ≤ number := by
  rcases h.known with hzero | hmem
  · exact .inl (Nat.le_zero.mp (hzero ▸ hle))
  · exact .inr ⟨state.blockNumber, hmem, hle⟩

theorem waitUntilIndexed_of_le {blockNumber : ℕ} (hle : blockNumber ≤ state.blockNumber) :
    state.waitUntilIndexed blockNumber = { state with
      calls := state.calls ++ [⟨state.calls.length, blockNumber⟩]
      resolved := state.resolved ++ [⟨state.calls.length, blockNumber⟩] } := by
  rw [waitUntilIndexed, if_pos hle]

/-- A call that waits starts a loop when it is the only one. -/
theorem waitUntilIndexed_of_lt {blockNumber : ℕ} (hlt : state.blockNumber < blockNumber) :
    state.waitUntilIndexed blockNumber = { state with
      calls := state.calls ++ [⟨state.calls.length, blockNumber⟩]
      gates := state.gates ++ [⟨state.calls.length, blockNumber⟩]
      loops := if state.gates = [] then state.loops ++ [.polling] else state.loops } := by
  rw [waitUntilIndexed, if_neg hlt.not_ge, getOrCreateGate, if_pos hlt]
  dsimp only
  by_cases hgates : state.gates = []
  · rw [if_neg (not_not.mpr hgates), if_pos hgates, startPolling, if_neg]
    exact List.append_ne_nil_of_right_ne_nil _ (List.cons_ne_nil _ _)
  · rw [if_pos hgates, if_neg hgates]

theorem distinct_append {calls : List BlockNumberGate} {blockNumber : ℕ}
    (hdistinct : calls.map BlockNumberGate.call = List.range calls.length) :
    (calls ++ [(⟨calls.length, blockNumber⟩ : BlockNumberGate)]).map BlockNumberGate.call =
      List.range (calls ++ [(⟨calls.length, blockNumber⟩ : BlockNumberGate)]).length := by
  rw [List.map_append, hdistinct, List.length_append, List.length_singleton, List.range_succ]
  rfl

theorem indexed_waitUntilIndexed (h : state.Indexed) (blockNumber : ℕ) :
    (state.waitUntilIndexed blockNumber).Indexed := by
  rcases le_or_gt blockNumber state.blockNumber with hle | hlt
  · rw [waitUntilIndexed_of_le hle]
    refine { h with
      returns := ?_
      accounted := ?_
      distinct := distinct_append h.distinct }
    · intro gate hgate
      rcases List.mem_append.mp hgate with hbefore | hnew
      · exact h.returns gate hbefore
      · rw [List.mem_singleton.mp hnew]
        exact h.reported_of_le hle
    · refine .trans ?_ (h.accounted.append_right _)
      rw [List.append_assoc, List.append_assoc, List.append_assoc]
      exact (List.perm_append_comm.append_left _).append_left _
  · rw [waitUntilIndexed_of_lt hlt]
    refine { h with
      waits := ?_
      accounted := ?_
      distinct := distinct_append h.distinct
      polls := fun _ ↦ ?_ }
    · intro gate hgate
      rcases List.mem_append.mp hgate with hbefore | hnew
      · exact h.waits gate hbefore
      · rw [List.mem_singleton.mp hnew]
        exact hlt
    · refine .trans ?_ (h.accounted.append_right _)
      rw [List.append_assoc, List.append_assoc]
      exact List.perm_append_comm.append_left _
    · split_ifs with hgates
      · exact List.append_ne_nil_of_right_ne_nil _ (List.cons_ne_nil _ _)
      · exact h.polls hgates

/-- A gate times out. -/
theorem indexed_timedOut (h : state.Indexed) {gate : BlockNumberGate}
    (hgate : gate ∈ state.gates) : Indexed { state with
      gates := state.gates.erase gate
      timedOut := state.timedOut ++ [gate] } := by
  refine { h with
    waits := fun other hother ↦ h.waits other (List.mem_of_mem_erase hother)
    accounted := ?_
    polls := fun hgates ↦ h.polls (List.ne_nil_of_mem hgate) }
  refine .trans ?_ h.accounted
  show (state.gates.erase gate ++ (state.resolved ++ (state.timedOut ++ [gate]))).Perm _
  rw [← List.append_assoc, ← List.append_assoc]
  refine List.perm_append_comm.trans ?_
  rw [← List.append_assoc, ← List.append_assoc, ← List.append_assoc]
  exact ((List.perm_cons_erase hgate).symm.append_right _).append_right _

/-- What a poll reports opens the gates up to it, whether or not it is new. -/
theorem record_some (h : state.Indexed) (newBlockNumber : ℕ) :
    state.record (some newBlockNumber) = { state with
      blockNumber := newBlockNumber
      reported := state.reported ++ [newBlockNumber]
      resolved := state.resolved ++
        state.gates.filter fun gate ↦ gate.blockNumber ≤ newBlockNumber
      gates := state.gates.filter fun gate ↦ newBlockNumber < gate.blockNumber } := by
  rw [record]
  dsimp only
  split_ifs with hnew
  · rfl
  · rw [not_not] at hnew
    have hresolved : (state.gates.filter fun gate ↦ gate.blockNumber ≤ newBlockNumber) = [] := by
      refine List.filter_eq_nil_iff.mpr fun gate hgate ↦ ?_
      rw [decide_eq_true_eq, hnew]
      exact (h.waits gate hgate).not_ge
    have hgates : (state.gates.filter fun gate ↦ newBlockNumber < gate.blockNumber) =
        state.gates := by
      refine List.filter_eq_self.mpr fun gate hgate ↦ decide_eq_true ?_
      rw [hnew]
      exact h.waits gate hgate
    rw [hresolved, hgates, List.append_nil, hnew]

/-- A poll returns. -/
theorem indexed_record (h : state.Indexed) {result : Option ℕ} {loop : ℕ}
    (hincreasing : state.Increasing (.polled loop result)) : (state.record result).Indexed := by
  cases result with
  | none => exact h
  | some newBlockNumber =>
    rw [record_some h]
    refine { h with
      known := .inr (List.mem_append_right _ List.mem_cons_self)
      bound := ?_
      waits := fun gate hgate ↦ of_decide_eq_true (List.mem_filter.mp hgate).2
      returns := ?_
      accounted := ?_
      polls := fun hgates ↦ h.polls ?_ }
    · intro number hnumber
      rcases List.mem_append.mp hnumber with hbefore | hnew
      · exact hincreasing number hbefore
      · exact (List.mem_singleton.mp hnew).le
    · intro gate hgate
      rcases List.mem_append.mp hgate with hbefore | hopened
      · refine (h.returns gate hbefore).imp_right ?_
        rintro ⟨number, hnumber, hle⟩
        exact ⟨number, List.mem_append_left _ hnumber, hle⟩
      · refine .inr ⟨newBlockNumber, List.mem_append_right _ List.mem_cons_self, ?_⟩
        exact of_decide_eq_true (List.mem_filter.mp hopened).2
    · refine .trans ?_ h.accounted
      have hsplit := List.filter_append_perm (fun gate : BlockNumberGate ↦
        decide (newBlockNumber < gate.blockNumber)) state.gates
      have hclosed : (fun gate : BlockNumberGate ↦ !decide (newBlockNumber < gate.blockNumber)) =
          fun gate ↦ decide (gate.blockNumber ≤ newBlockNumber) := by
        funext gate
        rw [← decide_not, decide_eq_decide]
        exact not_lt
      rw [hclosed] at hsplit
      refine .trans ?_ (hsplit.append_right _)
      rw [List.append_assoc, List.append_assoc]
      refine List.Perm.append_left _ ?_
      rw [← List.append_assoc, ← List.append_assoc]
      exact List.perm_append_comm.append_right _
    · rintro hnil
      rw [hnil] at hgates
      exact hgates rfl

/-- A loop goes on or ends. -/
theorem indexed_proceed (h : state.Indexed) {loop : ℕ} {position : Position}
    (hloop : loop < state.loops.length) : (state.proceed loop position).Indexed := by
  unfold proceed
  split_ifs with hgates
  · exact { h with polls := fun hne ↦ absurd hgates hne }
  · refine { h with polls := fun _ hnil ↦ ?_ }
    have hlength := congrArg List.length hnil
    rw [List.length_set, List.length_nil] at hlength
    exact absurd hlength (Nat.ne_of_gt (Nat.zero_lt_of_lt hloop))

theorem lt_length_of_getElem? {loops : List Position} {loop : ℕ} {position : Position}
    (hloop : loops[loop]? = some position) : loop < loops.length :=
  (List.getElem?_eq_some_iff.mp hloop).1

theorem loops_record (result : Option ℕ) : (state.record result).loops = state.loops := by
  unfold record
  split
  · rfl
  · dsimp only
    split_ifs <;> rfl

/-- Every event keeps what holds in every state. -/
theorem indexed_step (h : state.Indexed) {event : Event} (hincreasing : state.Increasing event)
    (hstep : state.step event = some after) : after.Indexed := by
  cases event with
  | waitUntilIndexed blockNumber =>
    cases hstep
    exact indexed_waitUntilIndexed h blockNumber
  | timedOut gate =>
    simp only [step] at hstep
    split_ifs at hstep with hgate
    cases hstep
    exact indexed_timedOut h hgate
  | polled loop result =>
    simp only [step] at hstep
    split_ifs at hstep with hloop
    cases hstep
    refine indexed_proceed (indexed_record h hincreasing) ?_
    rw [loops_record]
    exact lt_length_of_getElem? hloop
  | waited loop =>
    simp only [step] at hstep
    split_ifs at hstep with hloop
    cases hstep
    exact indexed_proceed h (lt_length_of_getElem? hloop)

/-! ### Loops -/

theorem length_loops_proceed (loop : ℕ) (position : Position) :
    (state.proceed loop position).loops.length ≤ state.loops.length := by
  unfold proceed
  split_ifs
  · exact List.length_eraseIdx_le _ _
  · exact List.length_set.le

/-- No second loop is started where no caller comes between the last gate and the end of a loop. -/
theorem length_loops_step {event : Event} (hone : state.loops.length ≤ 1)
    (hundisturbed : state.Undisturbed event) (hstep : state.step event = some after) :
    after.loops.length ≤ 1 := by
  cases event with
  | waitUntilIndexed blockNumber =>
    cases hstep
    rcases le_or_gt blockNumber state.blockNumber with hle | hlt
    · rw [waitUntilIndexed_of_le hle]
      exact hone
    · rw [waitUntilIndexed_of_lt hlt]
      dsimp only
      split_ifs with hgates
      · rw [hundisturbed hlt hgates]
        rfl
      · exact hone
  | timedOut gate =>
    simp only [step] at hstep
    split_ifs at hstep
    cases hstep
    exact hone
  | polled loop result =>
    simp only [step] at hstep
    split_ifs at hstep
    cases hstep
    exact (length_loops_proceed _ _).trans ((congrArg _ (loops_record result)).trans_le hone)
  | waited loop =>
    simp only [step] at hstep
    split_ifs at hstep
    cases hstep
    exact (length_loops_proceed _ _).trans hone

/-- Where no call waits, a loop ends when its poll or its wait is over. -/
theorem loops_step_of_gates_eq_nil (hgates : state.gates = []) {loop : ℕ}
    (hstep : state.step (.waited loop) = some after ∨
      ∃ result, state.step (.polled loop result) = some after) :
    after.loops = state.loops.eraseIdx loop ∧ after.gates = [] := by
  have hrecord : ∀ result, (state.record result).gates = [] := by
    intro result
    unfold record
    split
    · exact hgates
    · dsimp only
      split_ifs
      · rw [hgates]
        rfl
      · exact hgates
  rcases hstep with hstep | ⟨result, hstep⟩
  · simp only [step] at hstep
    split_ifs at hstep
    cases hstep
    rw [proceed, if_pos hgates]
    exact ⟨rfl, hgates⟩
  · simp only [step] at hstep
    split_ifs at hstep
    cases hstep
    rw [proceed, if_pos (hrecord result)]
    exact ⟨congrArg (List.eraseIdx · loop) (loops_record result), hrecord result⟩

/-- A poll opens the gates up to the number that it reports, and no others. -/
theorem mem_of_polled (h : state.Indexed) {loop number : ℕ}
    (hstep : state.step (.polled loop (some number)) = some after) :
    ∀ gate ∈ state.gates,
      if gate.blockNumber ≤ number then gate ∈ after.resolved else gate ∈ after.gates := by
  have hsame : ∀ (state : State) (position : Position),
      (state.proceed loop position).resolved = state.resolved ∧
        (state.proceed loop position).gates = state.gates := by
    intro state position
    unfold proceed
    split_ifs <;> exact ⟨rfl, rfl⟩
  simp only [step] at hstep
  split_ifs at hstep
  cases hstep
  intro gate hgate
  rw [(hsame _ _).1, (hsame _ _).2, record_some h]
  split_ifs with hle
  · exact List.mem_append_right _ (List.mem_filter.mpr ⟨hgate, decide_eq_true hle⟩)
  · exact List.mem_filter.mpr ⟨hgate, decide_eq_true (not_le.mp hle)⟩

end State

/-! ### Runs -/

open State

/-- The states of a new `IndexingState` under any events whose reported numbers do not decrease. -/
abbrev Reachable : State → Prop := Transition.Reachable step Increasing (· = create)

/-- Those that are reached without a caller between the last gate and the end of a loop. -/
abbrev ReachableUndisturbed : State → Prop :=
  Transition.Reachable step (fun state event ↦ state.Increasing event ∧ state.Undisturbed event)
    (· = create)

theorem Reachable.indexed {state : State} (hreach : Reachable state) : state.Indexed := by
  refine hreach.invariant ?_ ?_
  · rintro _ rfl
    exact indexed_create
  · exact fun _ _ _ _ hbefore hincreasing hstep ↦ indexed_step hbefore hincreasing hstep

theorem ReachableUndisturbed.length_loops_le {state : State}
    (hreach : ReachableUndisturbed state) : state.loops.length ≤ 1 := by
  refine @Transition.Reachable.invariant _ _ _ _ _ (fun state ↦ state.loops.length ≤ 1) ?_ ?_ _
    hreach
  · rintro _ rfl
    exact Nat.zero_le _
  · exact fun _ _ _ _ hbefore hguard hstep ↦ length_loops_step hbefore hguard.2 hstep

/-- A call returns only behind a poll that reported its number or a later one, unless its number is
zero; the first such poll lets it return if it has not timed out; a loop runs while a call waits,
and every loop ends at its next step when none does. One loop runs where no caller came between the
last gate and the end of a loop. -/
theorem indexed_of_reachable {state : State} (hreach : Reachable state) :
    state.Indexed ∧
      (∀ gate ∈ state.gates, ∀ number ∈ state.reported, number < gate.blockNumber) ∧
      (∀ loop number after, state.step (.polled loop (some number)) = some after →
        ∀ gate ∈ state.gates,
          if gate.blockNumber ≤ number then gate ∈ after.resolved else gate ∈ after.gates) ∧
      (state.gates = [] → ∀ loop after, state.step (.waited loop) = some after ∨
          (∃ result, state.step (.polled loop result) = some after) →
        after.loops = state.loops.eraseIdx loop ∧ after.gates = []) ∧
      (ReachableUndisturbed state → state.gates ≠ [] → state.loops.length = 1) := by
  have h := hreach.indexed
  refine ⟨h, fun gate hgate number hnumber ↦ (h.bound number hnumber).trans_lt (h.waits gate hgate),
    fun loop number after ↦ mem_of_polled h,
    fun hgates loop after hstep ↦ loops_step_of_gates_eq_nil hgates hstep,
    fun hundisturbed hgates ↦ ?_⟩
  have hpos := List.length_pos_iff.mpr (h.polls hgates)
  exact le_antisymm hundisturbed.length_loops_le hpos

/-- The two guards, as a check. -/
theorem guards_of_check (state : State) (event : Event) (hcheck : (match event with
      | .polled _ (some number) => state.reported.all (· ≤ number)
      | .waitUntilIndexed _ => !state.gates.isEmpty || state.loops.isEmpty
      | _ => true) = true) : state.Increasing event ∧ state.Undisturbed event := by
  cases event with
  | polled loop result =>
    cases result with
    | none => exact ⟨trivial, trivial⟩
    | some number =>
      refine ⟨fun other hother ↦ ?_, trivial⟩
      exact of_decide_eq_true (List.all_eq_true.mp hcheck other hother)
  | waitUntilIndexed blockNumber =>
    refine ⟨trivial, fun _ hgates ↦ ?_⟩
    rw [hgates] at hcheck
    exact List.isEmpty_iff.mp hcheck
  | timedOut gate => exact ⟨trivial, trivial⟩
  | waited loop => exact ⟨trivial, trivial⟩

/-- Two calls wait; a poll fails, and the next one lets the first call return. -/
theorem indexed_two_calls : ∃ state,
    Transition.run step create [.waitUntilIndexed 5, .waitUntilIndexed 9, .polled 0 none, .waited 0,
      .polled 0 (some 7)] = some state ∧
    state.resolved = [⟨0, 5⟩] ∧ state.gates = [⟨1, 9⟩] ∧ state.Indexed ∧
      state.loops.length = 1 := by
  have hundisturbed : ReachableUndisturbed _ := .of_checkedRun
    [.waitUntilIndexed 5, .waitUntilIndexed 9, .polled 0 none, .waited 0, .polled 0 (some 7)]
    guards_of_check (.start rfl) rfl
  have hreach : Reachable _ := .of_checkedRun
    [.waitUntilIndexed 5, .waitUntilIndexed 9, .polled 0 none, .waited 0, .polled 0 (some 7)]
    (fun state event hcheck ↦ (guards_of_check state event hcheck).1) (.start rfl) rfl
  have h := indexed_of_reachable hreach
  exact ⟨_, rfl, rfl, rfl, h.1, h.2.2.2.2 hundisturbed (List.cons_ne_nil _ _)⟩

/-- A call for block zero returns before any poll; and a caller that comes when the only gate has
timed out starts a second loop beside the first one. -/
theorem resolved_before_poll_and_two_loops :
    (∃ state, Transition.run step create [.waitUntilIndexed 0] = some state ∧
      state.resolved = [⟨0, 0⟩] ∧ state.reported = []) ∧
    ∃ state, Transition.run step create
        [.waitUntilIndexed 5, .timedOut ⟨0, 5⟩, .waitUntilIndexed 5] = some state ∧
      state.gates = [⟨1, 5⟩] ∧ state.loops = [.polling, .polling] :=
  ⟨⟨_, rfl, rfl, rfl⟩, _, rfl, rfl, rfl⟩

end PomboStorageNode.Utils.IndexingState
