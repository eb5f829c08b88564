import Mathlib.Data.List.Forall2
import Mathlib.Data.List.Range
import Mathlib.Data.List.ReduceOption
import PomboStorageNode.Library.Transition

/-!
# Steps that are set up and torn down

`Scaffold.ts` executes a sequence of steps while a check says so, and the cleanup functions that the
steps returned, in reverse order, when it does not. Calls queue up behind one another, and each of
them moves one step up or down at a time and checks again before every move. What may take time is
an event: a check, a step, a cleanup or `onChange` returns or throws. The queue is a `pLimit` of
one: it runs its calls one at a time and in their order.

`Nested` is what holds in every state: the steps that are up are the first ones of the sequence,
each has its own cleanup at the same place of the other stack, and unwinding the executed steps with
the executed cleanups leaves just these. `settled_step` says what a call leaves behind when it
returns.
-/

set_option autoImplicit false

namespace PomboStorageNode.Sdk.Scaffold

open Library

/-! ### The scaffold -/

variable {Error : Type}

/-- The cleanup function that one execution of a step returned. -/
structure StepDown where
  step : ℕ
  execution : ℕ
  deriving DecidableEq

/-- `ScaffoldOptions`: `onError` rethrows an error, possibly another one, or suppresses it;
`onChange` is there or not. -/
structure ScaffoldOptions (Error : Type) where
  onError : Option (Error → Option Error)
  onChange : Bool

/-- Where `nextScaffoldStep` waits: for the check, for `onChange`, for a step, or for a cleanup; in
place of the cleanup of a step that threw there is a function that does nothing. -/
inductive Position
  | checking
  | changing
  | stepping (step : ℕ)
  | cleaning (onDownStep : Option StepDown)

/-- A call of the scaffold. -/
inductive Phase
  | queued
  | running (position : Position)
  | returned

/-- What is done: a step was executed and returned a cleanup, or a cleanup was begun. -/
inductive Action
  | completed (stepDown : StepDown)
  | cleaned (stepDown : StepDown)

/-- How a call ended: what the last check came to, and the errors that it threw. -/
structure Return (Error : Type) where
  call : ℕ
  shouldUp : Bool
  errors : List Error
  deriving DecidableEq

/-- The variables of `Scaffold`, with the counter and the queue of `pLimit` and all calls. An
aggregated error is the list of its errors. The number of executions, what was done and how calls
ended are history. -/
structure State (Error : Type) where
  nextSteps : List ℕ
  prevSteps : List ℕ
  onDownSteps : List (Option StepDown)
  errors : List Error
  shouldUp : Bool
  prevShouldUp : Bool
  activeCount : ℕ
  pendingQueue : List ℕ
  calls : List Phase
  executions : ℕ
  log : List Action
  returns : List (Return Error)

/-- `Scaffold`, of a sequence of so many steps. -/
def create (count : ℕ) : State Error where
  nextSteps := List.range count
  prevSteps := []
  onDownSteps := []
  errors := []
  shouldUp := false
  prevShouldUp := false
  activeCount := 0
  pendingQueue := []
  calls := []
  executions := 0
  log := []
  returns := []

/-- What happens: the scaffold is called; the queue starts the next call; the check of a call
returns or throws, or is left out because there is an error; its `onChange`, its step or its cleanup
returns or throws. -/
inductive Event (Error : Type)
  | called
  | started
  | checked (call : ℕ) (result : Except Error Bool)
  | checkSkipped (call : ℕ)
  | changed (call : ℕ) (result : Except Error Unit)
  | stepped (call : ℕ) (result : Except Error Unit)
  | cleaned (call : ℕ) (result : Except Error Unit)

namespace State

section Steps

variable (options : ScaffoldOptions Error) (state : State Error)

/-- `collectErrors`. -/
def collectErrors (error : Error) : State Error :=
  match options.onError with
  | none => { state with errors := state.errors ++ [error] }
  | some onError =>
    match onError error with
    | none => state
    | some newError => { state with errors := state.errors ++ [newError] }

/-- `collectErrors`, if something threw. -/
def collect : Except Error Unit → State Error
  | .ok _ => state
  | .error error => state.collectErrors options error

/-- A call waits somewhere. -/
def wait (call : ℕ) (position : Position) : State Error :=
  { state with calls := state.calls.set call (.running position) }

/-- A call returns, and leaves its place in the queue. -/
def finish (call : ℕ) (errors : List Error) : State Error :=
  { state with
    calls := state.calls.set call .returned
    activeCount := state.activeCount - 1
    returns := state.returns ++ [⟨call, state.shouldUp, errors⟩] }

/-- `nextScaffoldStep`, behind its check: the next move, or the end. -/
def move (call : ℕ) : State Error :=
  if state.shouldUp = true then
    match state.nextSteps with
    | step :: rest => wait { state with
      nextSteps := rest
      prevSteps := step :: state.prevSteps } call (.stepping step)
    | [] => state.finish call []
  else
    match state.onDownSteps with
    | onDownStep :: rest => wait { state with
      onDownSteps := rest
      log := state.log ++ onDownStep.toList.map Action.cleaned } call (.cleaning onDownStep)
    | [] => finish { state with errors := [] } call state.errors

/-- `nextScaffoldStep`, from the value of its check. -/
def decided (call : ℕ) (shouldUp : Bool) : State Error :=
  let didChange := state.prevShouldUp ≠ shouldUp
  let next := { state with
    shouldUp := shouldUp
    prevShouldUp := shouldUp }
  if didChange ∧ options.onChange = true then next.wait call .changing else next.move call

/-- `checkShouldUp`, from the result of the check. -/
def checked (call : ℕ) : Except Error Bool → State Error
  | .ok shouldUp => state.decided options call shouldUp
  | .error error => (state.collectErrors options error).decided options call false

/-- A step returned a cleanup, or threw. -/
def stepped (call step : ℕ) : Except Error Unit → State Error
  | .ok _ =>
    let stepDown : StepDown := ⟨step, state.executions⟩
    wait { state with
      onDownSteps := some stepDown :: state.onDownSteps
      executions := state.executions + 1
      log := state.log ++ [.completed stepDown] } call .checking
  | .error error =>
    let collected := state.collectErrors options error
    wait { collected with onDownSteps := none :: state.onDownSteps } call .checking

/-- A cleanup returned, or threw. -/
def cleaned (call : ℕ) (result : Except Error Unit) : State Error :=
  let collected := state.collect options result
  match state.prevSteps with
  | step :: rest => wait { collected with
    prevSteps := rest
    nextSteps := step :: state.nextSteps } call .checking
  | [] => collected.wait call .checking

/-- The state after an event, or `none` when it cannot happen. -/
def step : Event Error → Option (State Error)
  | .called => some { state with
    calls := state.calls ++ [.queued]
    pendingQueue := state.pendingQueue ++ [state.calls.length] }
  | .started =>
    match state.pendingQueue with
    | call :: rest =>
      if state.activeCount < 1 then
        some (wait { state with
          pendingQueue := rest
          activeCount := state.activeCount + 1 } call .checking)
      else none
    | [] => none
  | .checked call result =>
    match state.calls[call]?, state.errors with
    | some (.running .checking), [] => some (state.checked options call result)
    | _, _ => none
  | .checkSkipped call =>
    match state.calls[call]?, state.errors with
    | some (.running .checking), _ :: _ => some (state.decided options call false)
    | _, _ => none
  | .changed call result =>
    match state.calls[call]? with
    | some (.running .changing) => some ((state.collect options result).wait call .checking)
    | _ => none
  | .stepped call result =>
    match state.calls[call]? with
    | some (.running (.stepping step)) => some (state.stepped options call step result)
    | _ => none
  | .cleaned call result =>
    match state.calls[call]?, result with
    | some (.running (.cleaning none)), .error _ => none
    | some (.running (.cleaning _)), result => some (state.cleaned options call result)
    | _, _ => none

end Steps

/-! ### What holds of the stacks -/

/-- The cleanups that have not begun, when what was done is unwound; none when a cleanup was begun
that was not the last one. -/
def unwind (log : List Action) : Option (List StepDown) :=
  log.foldl (fun stack action ↦ stack.bind fun stack ↦
    match action, stack with
    | .completed stepDown, stack => some (stepDown :: stack)
    | .cleaned stepDown, last :: rest => if stepDown = last then some rest else none
    | .cleaned _, [] => none) (some [])

/-- The cleanup that an executed step returned. -/
def Action.completed? : Action → Option StepDown
  | .completed stepDown => some stepDown
  | .cleaned _ => none

/-- Every cleanup belongs to the step at its place. -/
abbrev Matches : List (Option StepDown) → List ℕ → Prop :=
  List.Forall₂ fun onDownStep step ↦ ∀ stepDown ∈ onDownStep, stepDown.step = step

/-- The two stacks, where a call waits at a position, or no call is running. -/
def Balanced (state : State Error) : Option Position → Prop
  | some (.stepping step) => ∃ rest, state.prevSteps = step :: rest ∧
      Matches state.onDownSteps rest
  | some (.cleaning onDownStep) => ∃ step rest, state.prevSteps = step :: rest ∧
      Matches (onDownStep :: state.onDownSteps) (step :: rest)
  | _ => Matches state.onDownSteps state.prevSteps

variable (count : ℕ) (options : ScaffoldOptions Error)

/-- The steps that are up are the first ones of the sequence, and each has its own cleanup; what was
done comes to these cleanups. -/
structure Stacks (position : Option Position) (state : State Error) : Prop where
  sequence : state.prevSteps.reverse ++ state.nextSteps = List.range count
  balanced : state.Balanced position
  unwinds : unwind state.log = some state.onDownSteps.reduceOption
  executed : (state.log.filterMap Action.completed?).map StepDown.execution =
    List.range state.executions
  failed : options.onError = none → none ∈ state.onDownSteps → state.errors ≠ []
  idle : position = none → state.errors = []

/-- What a call leaves behind when it returns: no error; and all steps are up and it threw nothing,
or no step is up, all cleanups were executed and the first step is the next one, whatever it
threw. -/
def Settled (ended : Return Error) (state : State Error) : Prop :=
  state.errors = [] ∧
    (ended.shouldUp = true ∧ ended.errors = [] ∧ state.nextSteps = [] ∧
        state.prevSteps.reverse = List.range count ∧
        (options.onError = none → ∀ onDownStep ∈ state.onDownSteps, onDownStep ≠ none) ∨
      ended.shouldUp = false ∧ state.nextSteps = List.range count ∧ state.prevSteps = [] ∧
        state.onDownSteps = [] ∧ unwind state.log = some [])

/-- A running call waits again, or returns. -/
def Moves (call : ℕ) (state after : State Error) : Prop :=
  after.pendingQueue = state.pendingQueue ∧
    ((∃ position, after.calls = state.calls.set call (.running position) ∧
        after.activeCount = state.activeCount ∧ after.returns = state.returns ∧
        after.Stacks count options (some position)) ∨
      after.calls = state.calls.set call .returned ∧ after.activeCount = state.activeCount - 1 ∧
        after.Stacks count options none ∧
        ∃ ended, after.returns = state.returns ++ [ended] ∧ after.Settled count options ended)

variable {count options} {state after : State Error} {call : ℕ}

theorem unwind_append_completed {log : List Action} {stack : List StepDown} {stepDown : StepDown}
    (h : unwind log = some stack) :
    unwind (log ++ [.completed stepDown]) = some (stepDown :: stack) := by
  rw [unwind, List.foldl_append, ← unwind, h]
  rfl

theorem unwind_append_cleaned {log : List Action} {rest : List (Option StepDown)}
    {onDownStep : Option StepDown}
    (h : unwind log = some (onDownStep :: rest).reduceOption) :
    unwind (log ++ onDownStep.toList.map .cleaned) = some rest.reduceOption := by
  cases onDownStep with
  | none =>
    rw [List.reduceOption_cons_of_none] at h
    rw [← h]
    exact congrArg unwind (List.append_nil log)
  | some stepDown =>
    rw [unwind, List.foldl_append, ← unwind, h, List.reduceOption_cons_of_some]
    exact if_pos rfl

/-! ### Moves -/

/-- The next step is begun. -/
theorem stacks_stepping (h : state.Stacks count options (some .checking)) {step : ℕ}
    {rest : List ℕ} (hnext : state.nextSteps = step :: rest) :
    Stacks count options (some (.stepping step)) { state with
      nextSteps := rest
      prevSteps := step :: state.prevSteps } where
  sequence := by
    have hsequence := h.sequence
    rw [hnext] at hsequence
    rw [List.reverse_cons, List.append_assoc]
    exact hsequence
  balanced := ⟨state.prevSteps, rfl, h.balanced⟩
  unwinds := h.unwinds
  executed := h.executed
  failed := h.failed
  idle := nofun

/-- The last cleanup is begun. -/
theorem stacks_cleaning (h : state.Stacks count options (some .checking))
    {onDownStep : Option StepDown} {rest : List (Option StepDown)}
    (hdown : state.onDownSteps = onDownStep :: rest) :
    Stacks count options (some (.cleaning onDownStep)) { state with
      onDownSteps := rest
      log := state.log ++ onDownStep.toList.map .cleaned } where
  sequence := h.sequence
  balanced := by
    have hbalanced : Matches state.onDownSteps state.prevSteps := h.balanced
    rw [hdown] at hbalanced
    cases hprev : state.prevSteps with
    | nil =>
      rw [hprev] at hbalanced
      cases hbalanced
    | cons step steps => exact ⟨step, steps, rfl, hprev ▸ hbalanced⟩
  unwinds := unwind_append_cleaned (hdown ▸ h.unwinds)
  executed := by
    show ((state.log ++ onDownStep.toList.map Action.cleaned).filterMap _).map _ = _
    rw [List.filterMap_append, List.map_append, h.executed]
    cases onDownStep with
    | none => exact List.append_nil _
    | some stepDown => exact List.append_nil _
  failed := fun honError hnone ↦ h.failed honError (hdown ▸ List.mem_cons_of_mem _ hnone)
  idle := nofun

/-- A call moves on behind its check. -/
theorem moves_move (h : state.Stacks count options (some .checking))
    (herrors : state.shouldUp = true → state.errors = []) (call : ℕ) :
    Moves count options call state (state.move call) := by
  unfold move
  split_ifs with hup
  · split
    · rename_i step rest hnext
      exact ⟨rfl, .inl ⟨.stepping step, rfl, rfl, rfl, { stacks_stepping h hnext with }⟩⟩
    · rename_i hnext
      refine ⟨rfl, .inr ⟨rfl, rfl, { h with idle := fun _ ↦ herrors hup }, _, rfl, herrors hup,
        .inl ?_⟩⟩
      have hsequence := h.sequence
      rw [hnext, List.append_nil] at hsequence
      refine ⟨hup, rfl, hnext, hsequence, fun honError onDownStep hmem heq ↦ ?_⟩
      exact h.failed honError (heq ▸ hmem) (herrors hup)
  · split
    · rename_i onDownStep rest hdown
      exact ⟨rfl, .inl ⟨.cleaning onDownStep, rfl, rfl, rfl, { stacks_cleaning h hdown with }⟩⟩
    · rename_i hdown
      have hprev : state.prevSteps = [] := by
        have hbalanced : Matches state.onDownSteps state.prevSteps := h.balanced
        rw [hdown] at hbalanced
        exact List.forall₂_nil_left_iff.mp hbalanced
      have hsequence := h.sequence
      rw [hprev] at hsequence
      have hunwinds := h.unwinds
      rw [hdown] at hunwinds
      refine ⟨rfl, .inr ⟨rfl, rfl, ?_, _, rfl, rfl, .inr ?_⟩⟩
      · refine { h with
          failed := fun _ hnone ↦ ?_
          idle := fun _ ↦ rfl }
        have hmem : none ∈ state.onDownSteps := hnone
        rw [hdown] at hmem
        cases hmem
      · exact ⟨Bool.eq_false_iff.mpr hup, hsequence, hprev, hdown, hunwinds⟩

theorem moves_decided (h : state.Stacks count options (some .checking)) {shouldUp : Bool}
    (herrors : shouldUp = true → state.errors = []) (call : ℕ) :
    Moves count options call state (state.decided options call shouldUp) := by
  unfold decided
  dsimp only
  split_ifs
  · exact ⟨rfl, .inl ⟨.changing, rfl, rfl, rfl, { h with
      balanced := h.balanced
      idle := nofun }⟩⟩
  · have hnext : Stacks count options (some .checking) { state with
        shouldUp := shouldUp
        prevShouldUp := shouldUp } := { h with }
    exact moves_move hnext herrors call

/-- Collecting an error changes the errors only, and without `onError` there is one then. -/
theorem collectErrors_eq (state : State Error) (error : Error) : ∃ errors,
    state.collectErrors options error = { state with errors := errors } ∧
      (state.errors ≠ [] → errors ≠ []) ∧ (options.onError = none → errors ≠ []) := by
  unfold collectErrors
  split
  · exact ⟨_, rfl, fun _ ↦ List.append_ne_nil_of_right_ne_nil _ (List.cons_ne_nil _ _),
      fun _ ↦ List.append_ne_nil_of_right_ne_nil _ (List.cons_ne_nil _ _)⟩
  · rename_i onError honError
    have hsome : options.onError ≠ none := honError ▸ Option.some_ne_none _
    split
    · exact ⟨state.errors, rfl, id, fun hnone ↦ absurd hnone hsome⟩
    · exact ⟨_, rfl, fun _ ↦ List.append_ne_nil_of_right_ne_nil _ (List.cons_ne_nil _ _),
        fun hnone ↦ absurd hnone hsome⟩

theorem collect_eq (state : State Error) (result : Except Error Unit) : ∃ errors,
    state.collect options result = { state with errors := errors } ∧
      (state.errors ≠ [] → errors ≠ []) := by
  cases result with
  | ok value => exact ⟨state.errors, rfl, id⟩
  | error error =>
    obtain ⟨errors, heq, hmore, -⟩ := @collectErrors_eq _ options state error
    exact ⟨errors, heq, hmore⟩

theorem moves_checked (h : state.Stacks count options (some .checking))
    (herrors : state.errors = []) (call : ℕ) (result : Except Error Bool) :
    Moves count options call state (state.checked options call result) := by
  cases result with
  | ok shouldUp => exact moves_decided h (fun _ ↦ herrors) call
  | error error =>
    obtain ⟨errors, hcollect, hmore, -⟩ := @collectErrors_eq _ options state error
    have hcollected : Stacks count options (some .checking) { state with errors := errors } := {
      h with
      failed := fun honError hnone ↦ hmore (h.failed honError hnone)
      idle := nofun }
    rw [checked, hcollect]
    refine moves_decided hcollected ?_ call
    exact nofun

theorem moves_changed (h : state.Stacks count options (some .changing)) (call : ℕ)
    (result : Except Error Unit) :
    Moves count options call state ((state.collect options result).wait call .checking) := by
  obtain ⟨errors, hcollect, hmore⟩ := @collect_eq _ options state result
  rw [hcollect]
  exact ⟨rfl, .inl ⟨.checking, rfl, rfl, rfl, { h with
    balanced := h.balanced
    failed := fun honError hnone ↦ hmore (h.failed honError hnone)
    idle := nofun }⟩⟩

theorem moves_stepped {step : ℕ} (h : state.Stacks count options (some (.stepping step)))
    (call : ℕ) (result : Except Error Unit) :
    Moves count options call state (state.stepped options call step result) := by
  obtain ⟨rest, hprev, hmatches⟩ := h.balanced
  cases result with
  | ok value =>
    refine ⟨rfl, .inl ⟨.checking, rfl, rfl, rfl, { h with
      balanced := ?_
      unwinds := ?_
      executed := ?_
      failed := fun honError hnone ↦ ?_
      idle := nofun }⟩⟩
    · show Matches (some _ :: state.onDownSteps) state.prevSteps
      rw [hprev]
      exact .cons (fun stepDown hmem ↦ by rw [← Option.mem_some_iff.mp hmem]) hmatches
    · show unwind (state.log ++ [.completed ⟨step, state.executions⟩]) = _
      rw [unwind_append_completed h.unwinds]
      exact congrArg some (List.reduceOption_cons_of_some _ _).symm
    · show ((state.log ++ [_]).filterMap _).map _ = List.range (state.executions + 1)
      rw [List.filterMap_append, List.map_append, h.executed, List.range_succ]
      rfl
    · rcases List.mem_cons.mp hnone with hsome | hmem
      · cases hsome
      · exact h.failed honError hmem
  | error error =>
    obtain ⟨errors, hcollect, -, hsome⟩ := @collectErrors_eq _ options state error
    rw [stepped, hcollect]
    refine ⟨rfl, .inl ⟨.checking, rfl, rfl, rfl, { h with
      balanced := ?_
      unwinds := ?_
      failed := fun honError _ ↦ hsome honError
      idle := nofun }⟩⟩
    · show Matches (none :: state.onDownSteps) state.prevSteps
      rw [hprev]
      exact .cons nofun hmatches
    · show unwind state.log = some (none :: state.onDownSteps).reduceOption
      rw [List.reduceOption_cons_of_none]
      exact h.unwinds

theorem moves_cleaned {onDownStep : Option StepDown}
    (h : state.Stacks count options (some (.cleaning onDownStep))) (call : ℕ)
    (result : Except Error Unit) :
    Moves count options call state (state.cleaned options call result) := by
  obtain ⟨step, rest, hprev, hmatches⟩ := h.balanced
  obtain ⟨errors, hcollect, hmore⟩ := @collect_eq _ options state result
  unfold cleaned
  rw [hcollect, hprev]
  refine ⟨rfl, .inl ⟨.checking, rfl, rfl, rfl, { h with
    sequence := ?_
    balanced := (List.forall₂_cons.mp hmatches).2
    failed := fun honError hnone ↦ hmore (h.failed honError hnone)
    idle := nofun }⟩⟩
  have hsequence := h.sequence
  rw [hprev, List.reverse_cons, List.append_assoc] at hsequence
  exact hsequence

/-! ### Calls -/

/-- A running call waits at a position. -/
def Waits (state : State Error) (call : ℕ) (position : Position) : Prop :=
  state.calls[call]? = some (.running position)

variable (count options) in
/-- What holds in every state: the stacks are in order where the one running call waits, or where
none is running, and the calls in the queue wait for it. -/
structure Nested (state : State Error) : Prop where
  running : ∀ call position, state.Waits call position →
    state.Stacks count options (some position)
  resting : (∀ call position, ¬ state.Waits call position) → state.Stacks count options none
  one : ∀ first second position other, state.Waits first position → state.Waits second other →
    first = second
  active : state.activeCount = 0 → ∀ call position, ¬ state.Waits call position
  queue : ∀ call ∈ state.pendingQueue, state.calls[call]? = some .queued
  distinct : state.pendingQueue.Nodup

/-- The calls behind a move of one of them. -/
theorem getElem?_set_running {calls : List Phase} {position : Position} {phase : Phase}
    (hone : ∀ (other : ℕ) (behind : Position), calls[other]? = some (.running behind) →
      other = call) {other : ℕ}
    (h : (calls.set call phase)[other]? = some (.running position)) :
    other = call ∧ phase = .running position := by
  rw [List.getElem?_set] at h
  split_ifs at h with heq hlt
  · exact ⟨heq.symm, Option.some.inj h⟩
  · exact absurd (hone other position h).symm heq

/-- A running call moves on. -/
theorem nested_moves (h : state.Nested count options) {position : Position}
    (hcall : state.Waits call position) (hmoves : Moves count options call state after) :
    after.Nested count options := by
  obtain ⟨hqueue, hmoves⟩ := hmoves
  have hone : ∀ other behind, state.Waits other behind → other = call :=
    fun other behind hother ↦ h.one _ _ _ _ hother hcall
  have hpending : ∀ phase, ∀ other ∈ after.pendingQueue,
      (state.calls.set call phase)[other]? = some .queued := by
    intro phase other hother
    have hqueued := h.queue other (hqueue ▸ hother)
    rw [List.getElem?_set_ne, hqueued]
    rintro rfl
    cases hcall.symm.trans hqueued
  have hdistinct : after.pendingQueue.Nodup := hqueue ▸ h.distinct
  rcases hmoves with ⟨next, hcalls, hactive, -, hstacks⟩ | ⟨hcalls, hactive, hstacks, -⟩
  · have hwaits : ∀ other behind, after.Waits other behind → other = call ∧ behind = next := by
      intro other behind hother
      rw [Waits, hcalls] at hother
      obtain ⟨heq, hphase⟩ := getElem?_set_running hone hother
      exact ⟨heq, (Phase.running.inj hphase).symm⟩
    refine ⟨?_, ?_, ?_, ?_, hcalls ▸ hpending _, hdistinct⟩
    · intro other behind hother
      rw [(hwaits other behind hother).2]
      exact hstacks
    · intro hnone
      refine absurd ?_ (hnone call next)
      rw [Waits, hcalls]
      exact List.getElem?_set_self (List.getElem?_eq_some_iff.mp hcall).1
    · intro first second _ _ hfirst hsecond
      rw [(hwaits _ _ hfirst).1, (hwaits _ _ hsecond).1]
    · rw [hactive]
      exact fun hzero ↦ absurd hcall (h.active hzero call position)
  · have hnone : ∀ other behind, ¬ after.Waits other behind := by
      intro other behind hother
      rw [Waits, hcalls] at hother
      cases (getElem?_set_running hone hother).2
    refine ⟨?_, fun _ ↦ hstacks, ?_, fun _ ↦ hnone, hcalls ▸ hpending _, hdistinct⟩
    · exact fun other behind hother ↦ absurd hother (hnone other behind)
    · exact fun first second behind _ hfirst ↦ absurd hfirst (hnone first behind)

/-- Every event but a call and its start moves a running call. -/
theorem moves_step (h : state.Nested count options) {event : Event Error}
    (hstep : state.step options event = some after) :
    event = .called ∨ event = .started ∨
      ∃ call position, state.Waits call position ∧ Moves count options call state after := by
  cases event with
  | called => exact .inl rfl
  | started => exact .inr (.inl rfl)
  | checked call result =>
    simp only [step] at hstep
    split at hstep
    · rename_i hcall herrors
      cases hstep
      exact .inr (.inr ⟨call, _, hcall, moves_checked (h.running _ _ hcall) herrors call result⟩)
    · cases hstep
  | checkSkipped call =>
    simp only [step] at hstep
    split at hstep
    · rename_i hcall _
      cases hstep
      refine .inr (.inr ⟨call, _, hcall, moves_decided (h.running _ _ hcall) ?_ call⟩)
      exact nofun
    · cases hstep
  | changed call result =>
    simp only [step] at hstep
    split at hstep
    · rename_i hcall
      cases hstep
      exact .inr (.inr ⟨call, _, hcall, moves_changed (h.running _ _ hcall) call result⟩)
    · cases hstep
  | stepped call result =>
    simp only [step] at hstep
    split at hstep
    · rename_i hcall
      cases hstep
      exact .inr (.inr ⟨call, _, hcall, moves_stepped (h.running _ _ hcall) call result⟩)
    · cases hstep
  | cleaned call result =>
    simp only [step] at hstep
    split at hstep
    · cases hstep
    · rename_i hcall _
      cases hstep
      exact .inr (.inr ⟨call, _, hcall, moves_cleaned (h.running _ _ hcall) call _⟩)
    · cases hstep

/-- A new call is queued. -/
theorem nested_called (h : state.Nested count options) : Nested count options { state with
    calls := state.calls ++ [.queued]
    pendingQueue := state.pendingQueue ++ [state.calls.length] } := by
  have hwaits : ∀ call position, (state.calls ++ [.queued])[call]? = some (.running position) ↔
      state.Waits call position := by
    intro call position
    rw [Waits, List.getElem?_append]
    split_ifs with hlt
    · rfl
    · have hnone : state.calls[call]? = none := List.getElem?_eq_none_iff.mpr (not_lt.mp hlt)
      rw [hnone, List.getElem?_singleton]
      split_ifs <;> exact iff_of_false nofun nofun
  have hbound : ∀ call ∈ state.pendingQueue, call < state.calls.length := fun call hcall ↦
    (List.getElem?_eq_some_iff.mp (h.queue call hcall)).1
  refine ⟨?_, ?_, ?_, ?_, ?_, ?_⟩
  · intro call position hcall
    exact { h.running call position ((hwaits call position).mp hcall) with }
  · intro hnone
    exact { h.resting fun call position hcall ↦
      hnone call position ((hwaits call position).mpr hcall) with }
  · intro first second _ _ hfirst hsecond
    exact h.one _ _ _ _ ((hwaits _ _).mp hfirst) ((hwaits _ _).mp hsecond)
  · exact fun hzero call position hcall ↦ h.active hzero call position ((hwaits _ _).mp hcall)
  · intro call hcall
    rcases List.mem_append.mp hcall with hold | hnew
    · exact (List.getElem?_append_left (hbound call hold)).trans (h.queue call hold)
    · rw [List.mem_singleton.mp hnew]
      exact List.getElem?_concat_length
  · refine List.nodup_append.mpr ⟨h.distinct, List.pairwise_singleton _ _, ?_⟩
    intro call hcall other hother
    rw [List.mem_singleton.mp hother]
    exact (hbound call hcall).ne

/-- The next call is started. -/
theorem nested_started (h : state.Nested count options)
    (hstep : state.step options .started = some after) : after.Nested count options := by
  simp only [step] at hstep
  split at hstep
  · rename_i call rest hqueue
    split_ifs at hstep with hactive
    cases hstep
    have hnone := h.active (Nat.lt_one_iff.mp hactive)
    have hmem : call ∈ state.pendingQueue := hqueue ▸ List.mem_cons_self
    have hlt : call < state.calls.length := (List.getElem?_eq_some_iff.mp (h.queue call hmem)).1
    have hdistinct := h.distinct
    rw [hqueue] at hdistinct
    have hwaits : ∀ other position,
        (state.calls.set call (.running .checking))[other]? = some (.running position) →
          other = call ∧ Phase.running .checking = .running position :=
      fun other position hother ↦
        getElem?_set_running (fun _ behind hbehind ↦ absurd hbehind (hnone _ behind)) hother
    refine ⟨?_, ?_, ?_, nofun, ?_, (List.nodup_cons.mp hdistinct).2⟩
    · intro other position hother
      have hresting := h.resting hnone
      rw [← Phase.running.inj (hwaits other position hother).2]
      exact { hresting with
        balanced := hresting.balanced
        idle := nofun }
    · intro hresting
      exact absurd (List.getElem?_set_self hlt) (hresting call .checking)
    · intro first second _ _ hfirst hsecond
      rw [(hwaits _ _ hfirst).1, (hwaits _ _ hsecond).1]
    · intro other hother
      have hne : call ≠ other := by
        rintro rfl
        exact (List.nodup_cons.mp hdistinct).1 hother
      refine (List.getElem?_set_ne hne).trans (h.queue other ?_)
      rw [hqueue]
      exact List.mem_cons_of_mem _ hother
  · cases hstep

theorem nested_step (h : state.Nested count options) {event : Event Error}
    (hstep : state.step options event = some after) : after.Nested count options := by
  rcases moves_step h hstep with rfl | rfl | ⟨call, position, hcall, hmoves⟩
  · cases hstep
    exact nested_called h
  · exact nested_started h hstep
  · exact nested_moves h hcall hmoves

/-- What a call leaves behind when it returns. -/
theorem settled_step (h : state.Nested count options) {event : Event Error}
    (hstep : state.step options event = some after) : after.returns = state.returns ∨
      ∃ ended, after.returns = state.returns ++ [ended] ∧ after.Settled count options ended := by
  rcases moves_step h hstep with rfl | rfl | ⟨call, position, hcall, -, hmoves⟩
  · cases hstep
    exact .inl rfl
  · simp only [step] at hstep
    split at hstep
    · split_ifs at hstep
      cases hstep
      exact .inl rfl
    · cases hstep
  · rcases hmoves with ⟨-, -, -, hreturns, -⟩ | ⟨-, -, -, hsettled⟩
    · exact .inl hreturns
    · exact .inr hsettled

theorem nested_create : (create count : State Error).Nested count options where
  running := fun call position hcall ↦ by cases hcall
  resting := fun _ ↦ ⟨rfl, .nil, rfl, rfl, fun _ ↦ nofun, fun _ ↦ rfl⟩
  one := fun first second position other hfirst ↦ by cases hfirst
  active := fun _ call position hcall ↦ by cases hcall
  queue := nofun
  distinct := .nil

/-- In every state the steps that are up and their cleanups are in order. -/
theorem Nested.exists_stacks (h : state.Nested count options) :
    ∃ position, state.Stacks count options position := by
  by_cases hnone : ∀ call position, ¬ state.Waits call position
  · exact ⟨none, h.resting hnone⟩
  · push Not at hnone
    obtain ⟨call, position, hcall⟩ := hnone
    exact ⟨some position, h.running call position hcall⟩

end State

/-! ### Runs -/

open State

/-- The states of a scaffold under any calls and any results of checks, steps and cleanups. -/
abbrev Reachable (count : ℕ) (options : ScaffoldOptions Error) : State Error → Prop :=
  Transition.Reachable (step options) (fun _ _ ↦ True) (· = create count)

variable {count : ℕ} {options : ScaffoldOptions Error} {state : State Error}

theorem Reachable.nested (hreach : Reachable count options state) :
    state.Nested count options := by
  refine hreach.invariant ?_ ?_
  · rintro _ rfl
    exact nested_create
  · exact fun _ _ _ _ hbefore _ hstep ↦ nested_step hbefore hstep

/-- At most one step or cleanup is executed at a time; the cleanups are executed in the reverse
order of the executions that returned them, each once; and a call that returns leaves all steps up,
if its last check was true and there was no error, and otherwise none, with every cleanup
executed. -/
theorem nested_of_reachable (hreach : Reachable count options state) :
    state.Nested count options ∧ (∃ position, state.Stacks count options position) ∧
      ∀ event after, state.step options event = some after → after.returns = state.returns ∨
        ∃ ended, after.returns = state.returns ++ [ended] ∧ after.Settled count options ended :=
  ⟨hreach.nested, hreach.nested.exists_stacks, fun _ _ hstep ↦ settled_step hreach.nested hstep⟩

/-- The one step of a subscription goes up, and down again; the cleanup throws, and the step can go
up once more. -/
theorem nested_subscription : ∃ state : State ℕ,
    Transition.run (step ⟨none, false⟩) (create 1) [.called, .called, .started,
      .checked 0 (.ok true), .stepped 0 (.ok ()), .checked 0 (.ok true), .called, .started,
      .checked 1 (.ok false), .cleaned 1 (.error 7), .checkSkipped 1, .started,
      .checked 2 (.ok true)] = some state ∧
    state.returns = [⟨0, true, []⟩, ⟨1, false, [7]⟩] ∧ state.Waits 2 (.stepping 0) ∧
      state.Nested 1 ⟨none, false⟩ :=
  ⟨_, rfl, rfl, rfl, (nested_of_reachable (.of_run [.called, .called, .started,
    .checked 0 (.ok true), .stepped 0 (.ok ()), .checked 0 (.ok true), .called, .started,
    .checked 1 (.ok false), .cleaned 1 (.error 7), .checkSkipped 1, .started,
    .checked 2 (.ok true)] (fun _ _ _ ↦ trivial) (.start rfl) rfl)).1⟩

end PomboStorageNode.Sdk.Scaffold
