import Mathlib.Data.List.Basic

/-!
# Runs of a partial transition system

A system is a partial step function: `step state event` is the state after the event, or `none`
when the event cannot happen there. `run` executes a list of events, so a concrete trace is
evaluated, and `Reachable` collects the states of all runs whose every step satisfies a guard on
the state before the step. `Reachable.invariant` is the induction over runs: a property of the
start states that every guarded step keeps holds in every reachable state. `Reachable.of_run` turns
an evaluated trace into a reachable state, and `Reachable.of_checkedRun` does so for a trace whose
guard was evaluated along the way. `Reachable.simulated` is the rule for an abstraction of the
states: when every step is a step of the other system, or leaves the abstract state alone, the
other system reaches the abstract states.
-/

set_option autoImplicit false

namespace PomboStorageNode.Library.Transition

variable {State Event : Type*}

/-- The state after a list of events, or `none` when one of them cannot happen. -/
def run (step : State → Event → Option State) : State → List Event → Option State
  | state, [] => some state
  | state, event :: events => (step state event).bind fun next ↦ run step next events

/-- The states reached from a start state by steps that all satisfy the guard. -/
inductive Reachable (step : State → Event → Option State) (guard : State → Event → Prop)
    (initial : State → Prop) : State → Prop
  | start {state : State} : initial state → Reachable step guard initial state
  | next {state after : State} {event : Event} : Reachable step guard initial state →
      guard state event → step state event = some after → Reachable step guard initial after

variable {step : State → Event → Option State} {guard : State → Event → Prop}
  {initial : State → Prop}

theorem run_append (state : State) (first second : List Event) :
    run step state (first ++ second) =
      (run step state first).bind fun middle ↦ run step middle second := by
  induction first generalizing state with
  | nil => rfl
  | cons event first ih =>
    rw [List.cons_append, run, run, Option.bind_assoc]
    congr 1
    funext next
    exact ih next

/-- The last event of a run. -/
theorem run_concat_eq_some {state after : State} {events : List Event} {event : Event} :
    run step state (events ++ [event]) = some after ↔
      ∃ before, run step state events = some before ∧ step before event = some after := by
  rw [run_append, Option.bind_eq_some_iff]
  simp [run]

/-- The invariant rule: what holds at the start and is kept by every guarded step from a reachable
state holds in every reachable state. -/
theorem Reachable.invariant {property : State → Prop}
    (hstart : ∀ state, initial state → property state)
    (hstep : ∀ state event after, Reachable step guard initial state → property state →
      guard state event → step state event = some after → property after)
    {state : State} (hreachable : Reachable step guard initial state) : property state := by
  induction hreachable with
  | start hinitial => exact hstart _ hinitial
  | next hbefore hguard hafter ih => exact hstep _ _ _ hbefore ih hguard hafter

/-- What is reached from a reachable state is reachable. -/
theorem Reachable.trans {state after : State} (hreachable : Reachable step guard initial state)
    (hafter : Reachable step guard (fun start ↦ start = state) after) :
    Reachable step guard initial after := by
  induction hafter with
  | start hinitial =>
    rw [hinitial]
    exact hreachable
  | next _ hguard hstep ih => exact ih.next hguard hstep

/-- A guard may be weakened. -/
theorem Reachable.mono {weaker : State → Event → Prop}
    (hguard : ∀ state event, guard state event → weaker state event) {state : State}
    (hreachable : Reachable step guard initial state) : Reachable step weaker initial state := by
  induction hreachable with
  | start hinitial => exact .start hinitial
  | next _ hevent hstep ih => exact ih.next (hguard _ _ hevent) hstep

/-- The simulation rule: an abstraction of the states that takes start states to start states, and
every guarded step to a guarded step of the other system or to none, takes reachable states to
reachable states. -/
theorem Reachable.simulated {Abstract Action : Type*}
    {perform : Abstract → Action → Option Abstract} {allowed : Abstract → Action → Prop}
    {first : Abstract → Prop} (abstraction : State → Abstract)
    (hstart : ∀ state, initial state → first (abstraction state))
    (hstep : ∀ state event after, Reachable step guard initial state → guard state event →
      step state event = some after → abstraction after = abstraction state ∨
        ∃ action, allowed (abstraction state) action ∧
          perform (abstraction state) action = some (abstraction after))
    {state : State} (hreachable : Reachable step guard initial state) :
    Reachable perform allowed first (abstraction state) := by
  induction hreachable with
  | start hinitial => exact .start (hstart _ hinitial)
  | next hbefore hguard hafter ih =>
    rcases hstep _ _ _ hbefore hguard hafter with hsame | ⟨action, hallowed, hperform⟩
    · exact hsame ▸ ih
    · exact ih.next hallowed hperform

/-- A trace whose events satisfy the guard in every state reaches the state it runs to. -/
theorem Reachable.of_run {state after : State} (events : List Event)
    (hguard : ∀ event ∈ events, ∀ state, guard state event)
    (hbefore : Reachable step guard initial state) (hrun : run step state events = some after) :
    Reachable step guard initial after := by
  induction events generalizing state with
  | nil =>
    rw [run, Option.some.injEq] at hrun
    exact hrun ▸ hbefore
  | cons event events ih =>
    rw [run, Option.bind_eq_some_iff] at hrun
    obtain ⟨next, hstep, hrest⟩ := hrun
    have hnext := hbefore.next (hguard event List.mem_cons_self state) hstep
    exact ih (fun other hother ↦ hguard other (List.mem_cons_of_mem event hother)) hnext hrest

/-- `run` with a check before every step; the result is `none` when a check fails. -/
def checkedRun (step : State → Event → Option State) (check : State → Event → Bool) :
    State → List Event → Option State
  | state, [] => some state
  | state, event :: events =>
    if check state event then
      (step state event).bind fun next ↦ checkedRun step check next events
    else none

/-- A trace whose checks succeed reaches the state it runs to. -/
theorem Reachable.of_checkedRun {check : State → Event → Bool} {state after : State}
    (events : List Event)
    (hcheck : ∀ state event, check state event = true → guard state event)
    (hbefore : Reachable step guard initial state)
    (hrun : checkedRun step check state events = some after) :
    Reachable step guard initial after := by
  induction events generalizing state with
  | nil =>
    rw [checkedRun, Option.some.injEq] at hrun
    exact hrun ▸ hbefore
  | cons event events ih =>
    rw [checkedRun] at hrun
    split_ifs at hrun with hchecked
    obtain ⟨next, hstep, hrest⟩ := Option.bind_eq_some_iff.mp hrun
    exact ih (hbefore.next (hcheck state event hchecked) hstep) hrest

end PomboStorageNode.Library.Transition
