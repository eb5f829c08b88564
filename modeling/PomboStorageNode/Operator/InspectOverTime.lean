import PomboStorageNode.Library.Transition
import Mathlib.Data.Bool.Count
import Mathlib.Data.List.Basic

/-!
# Inspections and what follows from them

A task of `inspectOverTime.ts` inspects a target again and again in the background, and collects the
results. `inspectRandomNode.ts` waits until an inspection passed or the task is done, and raises a
flag when there are results and all of them are failures. `reviewSuspectNode.ts` does not wait for
the task: at a fixed time it stops the task and votes on what there is.

A state has the task, suspended at one of its waits, and the caller, suspended at one of its own.
What the waits end with, and in which order, is up to the events, and so is when the operator node
aborts. A caller holds the array of the task and not a copy, so that it sees the results that were
added last.

A flag is always based on failures alone. A vote on an empty array is a vote to kick: no inspection
passed, and that is at least half of none. `justified_of_reachable` is about runs in which every
vote has results, and `votes_without_results` is a run in which one has none.
-/

set_option autoImplicit false

namespace PomboStorageNode.Operator.Inspection

open Library

/-! ### The task -/

/-- The wait at which `run` is suspended, with the number of inspections that it has completed. -/
inductive Phase
  | initializing (completed : ℕ)
  | sleeping (completed : ℕ)
  | finding (completed : ℕ)
  | inspecting (completed : ℕ)
  | destroyingFleetState (completed : ℕ)
  | ended
  deriving DecidableEq

/-- What a wait of `run` ends with. An inspection comes with whether the fleet has no online nodes
behind it, and what is thrown with whether it counts as an `AbortError`. -/
inductive Outcome
  | fleetStateReady
  | slept
  | nodesFound
  | inspected (pass noOnlineNodes : Bool)
  | fleetStateDestroyed
  | threw (isAbortError : Bool)

/-- `InspectionOverTimeTask`. A gate is `true` when it is open. -/
structure Task where
  inspectionResults : List Bool
  aborted : Bool
  passedSingleInspectionGate : Bool
  doneGate : Bool
  phase : Phase

namespace Task

/-- A task that was just started, with an abort signal that may have been given before. -/
def start (aborted : Bool) : Task := ⟨[], aborted, false, false, .initializing 0⟩

/-- `destroy`. -/
def destroy (task : Task) : Task := { task with
  aborted := true
  doneGate := true }

/-- The end of `run`, and the handler of `start` when it threw. -/
def fail (task : Task) (isAbortError : Bool) : Task :=
  if isAbortError then { task with phase := .ended }
  else { task.destroy with phase := .ended }

/-- `throwIfAborted`. The reason of the signal is an error of the platform, not an `AbortError` of
this code. -/
def unlessAborted (task : Task) (phase : Phase) : Task :=
  if task.aborted then task.fail false else { task with phase := phase }

/-- The head of the loop. -/
def nextAttempt (maxInspectionCount : ℕ) (task : Task) (completed : ℕ) : Task :=
  if completed < maxInspectionCount then { task with phase := .finding completed }
  else { task with
    doneGate := true
    phase := .ended }

/-- An inspection is completed. -/
def complete (task : Task) (pass : Bool) : Task := { task with
  inspectionResults := task.inspectionResults ++ [pass]
  passedSingleInspectionGate := task.passedSingleInspectionGate || pass }

/-- `run` goes on to its next wait. -/
def resume (maxInspectionCount : ℕ) (task : Task) (outcome : Outcome) : Option Task :=
  match task.phase, outcome with
  | .ended, _ => none
  | _, .threw isAbortError => some (task.fail isAbortError)
  | .initializing 0, .fleetStateReady => some { task with phase := .sleeping 0 }
  | .initializing completed, .fleetStateReady => some (task.unlessAborted (.sleeping completed))
  -- the sleep of an aborted task is rejected at once
  | .sleeping completed, .slept =>
    if task.aborted then none else some (task.nextAttempt maxInspectionCount completed)
  | .finding completed, .nodesFound => some (task.unlessAborted (.inspecting completed))
  | .inspecting completed, .inspected pass noOnlineNodes =>
    let inspected := task.complete pass
    if completed + 1 = maxInspectionCount then
      some (inspected.nextAttempt maxInspectionCount (completed + 1))
    else if noOnlineNodes then
      some { inspected with phase := .destroyingFleetState (completed + 1) }
    else some { inspected with phase := .sleeping (completed + 1) }
  | .destroyingFleetState completed, .fleetStateDestroyed =>
    some (task.unlessAborted (.initializing completed))
  | _, _ => none

end Task

/-! ### The callers -/

/-- The place at which a caller is suspended: behind it, the caller has consumed nothing yet, or has
the results, or has asked whether there is an open flag. -/
inductive Caller
  | waiting
  | consumed
  | checkingFlag
  | ended
  deriving DecidableEq

/-- A vote, and the results that it was based on. -/
structure Vote where
  results : List Bool
  kick : Bool
  deriving DecidableEq

/-- A task and its caller, with the results of every flag that was raised, and the votes. -/
structure State where
  task : Task
  caller : Caller
  flags : List (List Bool)
  votes : List Vote

/-- What happens: `run` goes on, the operator node aborts, or the caller goes on. -/
inductive Event
  | resumed (outcome : Outcome)
  | aborted
  | consumed
  | evaluated
  | flagChecked (flagAlreadyRaised : Option Bool)

/-- A caller that has just called `inspectOverTime`. -/
def inspectOverTime (caller : Caller) (aborted : Bool) : State := ⟨.start aborted, caller, [], []⟩

/-- The function that `inspectOverTime` returns, behind its wait. -/
def consumeResults (state : State) : State := { state with
  task := state.task.destroy
  caller := .consumed }

/-- The abort signal. -/
def abort (state : State) (caller : Caller) : State := { state with
  task := { state.task with aborted := true }
  caller := caller }

/-- `run` goes on. -/
def resume (maxInspectionCount : ℕ) (state : State) (outcome : Outcome) : Option State :=
  (state.task.resume maxInspectionCount outcome).map fun task ↦ { state with task := task }

/-- `inspectRandomNode`, from the target on. A lookup of the flag that fails is `none`. -/
def inspectRandomNode (maxInspectionCount : ℕ) (state : State) : Event → Option State
  | .resumed outcome => resume maxInspectionCount state outcome
  | .aborted => some (abort state state.caller)
  | .consumed =>
    if state.caller = .waiting ∧
        (state.task.doneGate = true ∨ state.task.passedSingleInspectionGate = true) then
      some (consumeResults state)
    else none
  | .evaluated =>
    if state.caller ≠ .consumed then none
    else if state.task.inspectionResults.length = 0 then some { state with caller := .ended }
    else if state.task.inspectionResults.any (fun pass ↦ pass) then
      some { state with caller := .ended }
    else some { state with caller := .checkingFlag }
  | .flagChecked flagAlreadyRaised =>
    if state.caller ≠ .checkingFlag then none
    else if flagAlreadyRaised = some false then some { state with
      caller := .ended
      flags := state.flags ++ [state.task.inspectionResults] }
    else some { state with caller := .ended }

/-- The start of `inspectRandomNode`, from the target on. -/
def startRandom (aborted : Bool) : State := inspectOverTime .waiting aborted

/-- The vote that `reviewSuspectNode` casts. -/
def voteOn (results : List Bool) : Vote :=
  ⟨results, decide (2 * (results.filter fun pass ↦ pass).length ≤ results.length)⟩

/-- `reviewSuspectNode`, from the scheduling of the vote on. The abort signal cancels the vote until
its time has come. -/
def reviewSuspectNode (maxInspectionCount : ℕ) (state : State) : Event → Option State
  | .resumed outcome => resume maxInspectionCount state outcome
  | .aborted => some (abort state (if state.caller = .waiting then .ended else state.caller))
  | .consumed => if state.caller = .waiting then some (consumeResults state) else none
  | .evaluated =>
    if state.caller = .consumed then some { state with
      caller := .ended
      votes := state.votes ++ [voteOn state.task.inspectionResults] }
    else none
  | .flagChecked _ => none

/-- The start of `reviewSuspectNode`, with its check of the times. -/
def startReview (now maxDelayBeforeFirstInspectionInMs startTime : ℕ) (aborted : Bool) :
    Except String State :=
  if startTime < now + maxDelayBeforeFirstInspectionInMs then
    .error "Max delay time overlaps with voting period"
  else .ok (inspectOverTime (if aborted then .ended else .waiting) aborted)

/-! ### What a step can do -/

namespace Task

/-- What `run` can do until its next wait: it may complete an inspection, opens the one gate only
for an inspection that passed, and the other one only at its end. -/
structure Resumes (task after : Task) : Prop where
  running : task.phase ≠ .ended
  results : after.inspectionResults = task.inspectionResults ∨
    ∃ pass, after.inspectionResults = task.inspectionResults ++ [pass]
  passed : after.passedSingleInspectionGate = true →
    task.passedSingleInspectionGate = true ∨ true ∈ after.inspectionResults
  done : after.doneGate = true → task.doneGate = true ∨ after.phase = .ended

variable {task : Task}

/-- A wait that leaves the results and the gates alone. -/
theorem resumes_phase (hrunning : task.phase ≠ .ended) (phase : Phase) :
    Resumes task { task with phase := phase } :=
  ⟨hrunning, .inl rfl, .inl, .inl⟩

theorem resumes_fail (hrunning : task.phase ≠ .ended) (isAbortError : Bool) :
    Resumes task (task.fail isAbortError) := by
  unfold fail
  split_ifs
  · exact resumes_phase hrunning .ended
  · exact ⟨hrunning, .inl rfl, .inl, fun _ ↦ .inr rfl⟩

theorem resumes_unlessAborted (hrunning : task.phase ≠ .ended) (phase : Phase) :
    Resumes task (task.unlessAborted phase) := by
  unfold unlessAborted
  split_ifs
  · exact resumes_fail hrunning false
  · exact resumes_phase hrunning phase

theorem resumes_nextAttempt (hrunning : task.phase ≠ .ended) (maxInspectionCount completed : ℕ) :
    Resumes task (task.nextAttempt maxInspectionCount completed) := by
  unfold nextAttempt
  split_ifs
  · exact resumes_phase hrunning (.finding completed)
  · exact ⟨hrunning, .inl rfl, .inl, fun _ ↦ .inr rfl⟩

theorem resumes_complete (hrunning : task.phase ≠ .ended) (pass : Bool) :
    Resumes task (task.complete pass) := by
  refine ⟨hrunning, .inr ⟨pass, rfl⟩, ?_, .inl⟩
  intro hpassed
  rcases (Bool.or_eq_true _ _).mp hpassed with hbefore | hpass
  · exact .inl hbefore
  · right
    show true ∈ task.inspectionResults ++ [pass]
    simp [hpass]

/-- A wait behind an inspection. -/
theorem Resumes.trans {middle after : Task} (hfirst : Resumes task middle)
    (hresults : after.inspectionResults = middle.inspectionResults)
    (hsecond : Resumes middle after) : Resumes task after := by
  refine ⟨hfirst.running, hresults ▸ hfirst.results, ?_, ?_⟩
  · intro hpassed
    rcases hsecond.passed hpassed with hmiddle | hmem
    · rw [hresults]
      exact hfirst.passed hmiddle
    · exact .inr hmem
  · intro hdone
    rcases hsecond.done hdone with hmiddle | hended
    · rcases hfirst.done hmiddle with hbefore | hended
      · exact .inl hbefore
      · exact absurd hended hsecond.running
    · exact .inr hended

theorem nextAttempt_inspectionResults (maxInspectionCount completed : ℕ) :
    (task.nextAttempt maxInspectionCount completed).inspectionResults =
      task.inspectionResults := by
  unfold nextAttempt
  split_ifs <;> rfl

theorem resumes_of_resume {maxInspectionCount : ℕ} {after : Task} {outcome : Outcome}
    (hresume : task.resume maxInspectionCount outcome = some after) : Resumes task after := by
  have hrunning : task.phase ≠ .ended := by
    intro hended
    simp [resume, hended] at hresume
  unfold resume at hresume
  split at hresume
  all_goals try cases hresume
  · exact resumes_fail hrunning _
  · exact resumes_phase hrunning (.sleeping 0)
  · exact resumes_unlessAborted hrunning _
  · split_ifs at hresume
    cases hresume
    exact resumes_nextAttempt hrunning maxInspectionCount _
  · exact resumes_unlessAborted hrunning _
  · rename_i completed pass noOnlineNodes _
    have hinspected := resumes_complete hrunning pass
    have hstill : (task.complete pass).phase ≠ .ended := hrunning
    simp only at hresume
    split_ifs at hresume <;> cases hresume
    · exact hinspected.trans (nextAttempt_inspectionResults _ _) (resumes_nextAttempt hstill _ _)
    · exact hinspected.trans rfl (resumes_phase hstill _)
    · exact hinspected.trans rfl (resumes_phase hstill _)
  · exact resumes_unlessAborted hrunning _

end Task

/-! ### Flags -/

/-- At least one inspection was completed, and none passed. -/
def AllFailed (results : List Bool) : Prop := results ≠ [] ∧ true ∉ results

/-- Along the runs of `inspectRandomNode`: an open gate stands for an inspection that passed or for
the end of the task, so that no result comes later when the caller found only failures. -/
structure Patient (state : State) : Prop where
  passed : state.task.passedSingleInspectionGate = true → true ∈ state.task.inspectionResults
  done : state.caller = .waiting → state.task.doneGate = true → state.task.phase = .ended
  consumed : state.caller = .consumed →
    state.task.phase = .ended ∨ true ∈ state.task.inspectionResults
  checking : state.caller = .checkingFlag →
    state.task.phase = .ended ∧ AllFailed state.task.inspectionResults
  flags : ∀ results ∈ state.flags, AllFailed results

theorem patient_startRandom (aborted : Bool) : Patient (startRandom aborted) :=
  ⟨nofun, nofun, nofun, nofun, nofun⟩

namespace Patient

variable {state : State}

/-- A caller that is over. -/
theorem ends (h : Patient state) : Patient { state with caller := .ended } :=
  ⟨h.passed, nofun, nofun, nofun, h.flags⟩

theorem abort (h : Patient state) : Patient (abort state state.caller) :=
  ⟨h.passed, h.done, h.consumed, h.checking, h.flags⟩

theorem resume {maxInspectionCount : ℕ} {after : State} {outcome : Outcome} (h : Patient state)
    (hresume : resume maxInspectionCount state outcome = some after) : Patient after := by
  obtain ⟨task, htask, rfl⟩ := Option.map_eq_some_iff.mp hresume
  have hresumes := Task.resumes_of_resume htask
  have hmem : true ∈ state.task.inspectionResults → true ∈ task.inspectionResults := by
    intro hmem
    rcases hresumes.results with hsame | ⟨pass, hpush⟩
    · exact hsame ▸ hmem
    · rw [hpush]
      exact List.mem_append_left [pass] hmem
  refine ⟨?_, ?_, ?_, ?_, h.flags⟩
  · intro hpassed
    rcases hresumes.passed hpassed with hbefore | hnow
    · exact hmem (h.passed hbefore)
    · exact hnow
  · intro hwaiting hdone
    rcases hresumes.done hdone with hbefore | hended
    · exact absurd (h.done hwaiting hbefore) hresumes.running
    · exact hended
  · intro hconsumed
    rcases h.consumed hconsumed with hended | hpass
    · exact absurd hended hresumes.running
    · exact .inr (hmem hpass)
  · intro hchecking
    exact absurd (h.checking hchecking).1 hresumes.running

theorem consumeResults (h : Patient state) (hwaiting : state.caller = .waiting)
    (hopen : state.task.doneGate = true ∨ state.task.passedSingleInspectionGate = true) :
    Patient (consumeResults state) := by
  refine ⟨h.passed, nofun, ?_, nofun, h.flags⟩
  intro _
  rcases hopen with hdone | hpassed
  · exact .inl (h.done hwaiting hdone)
  · exact .inr (h.passed hpassed)

theorem step {maxInspectionCount : ℕ} {after : State} {event : Event} (h : Patient state)
    (hstep : inspectRandomNode maxInspectionCount state event = some after) : Patient after := by
  cases event with
  | resumed outcome => exact h.resume hstep
  | aborted =>
    cases hstep
    exact h.abort
  | consumed =>
    simp only [inspectRandomNode] at hstep
    split_ifs at hstep with hready
    cases hstep
    exact h.consumeResults hready.1 hready.2
  | evaluated =>
    simp only [inspectRandomNode] at hstep
    split_ifs at hstep with hcaller hempty hpassed <;> cases hstep
    · exact h.ends
    · exact h.ends
    · have hnone : true ∉ state.task.inspectionResults := by simpa using hpassed
      refine ⟨h.passed, nofun, nofun, ?_, h.flags⟩
      intro _
      refine ⟨(h.consumed (not_not.mp hcaller)).resolve_right hnone, ?_, hnone⟩
      exact fun hnil ↦ hempty (List.length_eq_zero_iff.mpr hnil)
  | flagChecked flagAlreadyRaised =>
    simp only [inspectRandomNode] at hstep
    split_ifs at hstep with hcaller hraised <;> cases hstep
    · refine ⟨h.passed, nofun, nofun, nofun, ?_⟩
      intro results hmem
      rcases List.mem_append.mp hmem with hbefore | hnow
      · exact h.flags results hbefore
      · rw [List.mem_singleton.mp hnow]
        exact (h.checking (not_not.mp hcaller)).2
    · exact h.ends

end Patient

/-! ### Votes -/

/-- What a vote to kick needs: an inspection was completed without passing, and at least half of the
completed inspections failed. -/
def Vote.Justified (vote : Vote) : Prop :=
  vote.kick = true → false ∈ vote.results ∧ vote.results.length ≤ 2 * vote.results.count false

/-- No punishment without evidence. -/
structure State.Justified (state : State) : Prop where
  flags : ∀ results ∈ state.flags, AllFailed results
  votes : ∀ vote ∈ state.votes, vote.Justified

theorem filter_length_eq_count (results : List Bool) :
    (results.filter fun pass ↦ pass).length = results.count true := by
  rw [List.count_eq_length_filter]
  congr 1
  apply List.filter_congr
  simp

theorem voteOn_justified {results : List Bool} (hresults : results ≠ []) :
    (voteOn results).Justified := by
  intro hkick
  have hpassed : 2 * results.count true ≤ results.length := by
    rw [← filter_length_eq_count]
    exact of_decide_eq_true hkick
  have htotal := results.count_true_add_count_false
  have hpositive := List.length_pos_iff.mpr hresults
  refine ⟨?_, ?_⟩
  · apply List.count_pos_iff.mp
    show 0 < results.count false
    omega
  · show results.length ≤ 2 * results.count false
    omega

/-- A vote on an empty array is a vote to kick. -/
theorem not_voteOn_nil_justified : ¬ (voteOn []).Justified :=
  fun hjustified ↦ List.not_mem_nil (hjustified rfl).1

theorem voteOn_justified_iff (results : List Bool) :
    (voteOn results).Justified ↔ results ≠ [] := by
  refine ⟨?_, voteOn_justified⟩
  rintro hjustified rfl
  exact not_voteOn_nil_justified hjustified

theorem resume_reports {maxInspectionCount : ℕ} {state after : State} {outcome : Outcome}
    (hresume : resume maxInspectionCount state outcome = some after) :
    after.flags = state.flags ∧ after.votes = state.votes := by
  obtain ⟨task, _, rfl⟩ := Option.map_eq_some_iff.mp hresume
  exact ⟨rfl, rfl⟩

/-- `inspectRandomNode` does not vote. -/
theorem votes_of_inspectRandomNode {maxInspectionCount : ℕ} {state after : State} {event : Event}
    (hstep : inspectRandomNode maxInspectionCount state event = some after) :
    after.votes = state.votes := by
  cases event with
  | resumed outcome => exact (resume_reports hstep).2
  | aborted =>
    cases hstep
    rfl
  | _ =>
    simp only [inspectRandomNode] at hstep
    split_ifs at hstep <;> cases hstep <;> rfl

/-- `reviewSuspectNode` raises no flag, and votes on the results at that time. -/
theorem reports_of_reviewSuspectNode {maxInspectionCount : ℕ} {state after : State} {event : Event}
    (hstep : reviewSuspectNode maxInspectionCount state event = some after) :
    after.flags = state.flags ∧ (after.votes = state.votes ∨
      event = .evaluated ∧ after.votes = state.votes ++ [voteOn state.task.inspectionResults]) := by
  cases event with
  | resumed outcome => exact (resume_reports hstep).imp_right .inl
  | aborted =>
    cases hstep
    exact ⟨rfl, .inl rfl⟩
  | consumed =>
    simp only [reviewSuspectNode] at hstep
    split_ifs at hstep
    cases hstep
    exact ⟨rfl, .inl rfl⟩
  | evaluated =>
    simp only [reviewSuspectNode] at hstep
    split_ifs at hstep
    cases hstep
    exact ⟨rfl, .inr ⟨rfl, rfl⟩⟩
  | flagChecked flagAlreadyRaised => cases hstep

/-! ### Runs -/

/-- Every order of events. -/
def Unrestricted (_ : State) (_ : Event) : Prop := True

/-- A vote is cast when there are results. -/
def VotesOnResults (state : State) (event : Event) : Prop :=
  event = .evaluated → state.task.inspectionResults ≠ []

/-- The check of `VotesOnResults` before an event. -/
def checkVotesOnResults (state : State) : Event → Bool
  | .evaluated => !state.task.inspectionResults.isEmpty
  | _ => true

theorem votesOnResults_of_check (state : State) (event : Event)
    (hcheck : checkVotesOnResults state event = true) : VotesOnResults state event := by
  rintro rfl
  simpa [checkVotesOnResults] using hcheck

/-- `inspectRandomNode` has started a task. -/
def StartsRandom (state : State) : Prop := ∃ aborted, state = startRandom aborted

/-- `reviewSuspectNode` has started a task. -/
def StartsReview (state : State) : Prop :=
  ∃ now maxDelayBeforeFirstInspectionInMs startTime aborted,
    startReview now maxDelayBeforeFirstInspectionInMs startTime aborted = .ok state

theorem StartsReview.reports {state : State} (h : StartsReview state) :
    state.flags = [] ∧ state.votes = [] := by
  obtain ⟨now, maxDelay, startTime, aborted, hstart⟩ := h
  unfold startReview at hstart
  split_ifs at hstart <;> cases hstart <;> exact ⟨rfl, rfl⟩

theorem justified_of_inspectRandomNode {maxInspectionCount : ℕ} {state : State}
    (hreach : Transition.Reachable (inspectRandomNode maxInspectionCount) Unrestricted StartsRandom
      state) : state.Justified := by
  have hpatient : Patient state := by
    refine hreach.invariant ?_ (fun _ _ _ _ hbefore _ hstep ↦ hbefore.step hstep)
    rintro state ⟨aborted, rfl⟩
    exact patient_startRandom aborted
  have hvotes : state.votes = [] := by
    refine hreach.invariant ?_
      (fun _ _ _ _ hbefore _ hstep ↦ (votes_of_inspectRandomNode hstep).trans hbefore)
    rintro state ⟨aborted, rfl⟩
    rfl
  refine ⟨hpatient.flags, ?_⟩
  rw [hvotes]
  exact nofun

/-- The votes of a run are those of `voteOn`, and each has the results of the state in which it was
cast. -/
theorem votes_of_reviewSuspectNode {maxInspectionCount : ℕ} {guard : State → Event → Prop}
    (property : List Bool → Prop)
    (hguard : ∀ state, guard state .evaluated → property state.task.inspectionResults)
    {state : State}
    (hreach : Transition.Reachable (reviewSuspectNode maxInspectionCount) guard StartsReview
      state) :
    state.flags = [] ∧
      ∀ vote ∈ state.votes, ∃ results, vote = voteOn results ∧ property results := by
  induction hreach with
  | start hstart =>
    rw [hstart.reports.1, hstart.reports.2]
    exact ⟨rfl, nofun⟩
  | next _ hallowed hstep ih =>
    obtain ⟨hflags, hvotes⟩ := reports_of_reviewSuspectNode hstep
    refine ⟨hflags.trans ih.1, ?_⟩
    rcases hvotes with hsame | ⟨rfl, hcast⟩
    · rw [hsame]
      exact ih.2
    · rw [hcast]
      intro vote hmem
      rcases List.mem_append.mp hmem with hbefore | hnow
      · exact ih.2 vote hbefore
      · exact ⟨_, List.mem_singleton.mp hnow, hguard _ hallowed⟩

/-- No flag is raised without evidence, and no vote to kick is cast without it when there are
results at every vote. In any run, the votes that lack it are those on no results. -/
theorem justified_of_reachable (maxInspectionCount : ℕ) (state : State) :
    (Transition.Reachable (inspectRandomNode maxInspectionCount) Unrestricted StartsRandom state →
      state.Justified) ∧
    (Transition.Reachable (reviewSuspectNode maxInspectionCount) VotesOnResults StartsReview state →
      state.Justified) ∧
    (Transition.Reachable (reviewSuspectNode maxInspectionCount) Unrestricted StartsReview state →
      (state.Justified ↔ ∀ vote ∈ state.votes, vote.results ≠ [])) := by
  refine ⟨justified_of_inspectRandomNode, ?_, ?_⟩
  · intro hreach
    obtain ⟨hflags, hvotes⟩ :=
      votes_of_reviewSuspectNode (· ≠ []) (fun _ hallowed ↦ hallowed rfl) hreach
    refine ⟨?_, ?_⟩
    · rw [hflags]
      exact nofun
    · intro vote hmem
      obtain ⟨results, rfl, hresults⟩ := hvotes vote hmem
      exact voteOn_justified hresults
  · intro hreach
    obtain ⟨hflags, hvotes⟩ := votes_of_reviewSuspectNode (fun _ ↦ True) (fun _ _ ↦ trivial) hreach
    have hiff : ∀ vote ∈ state.votes, (vote.Justified ↔ vote.results ≠ []) := by
      intro vote hmem
      obtain ⟨results, rfl, _⟩ := hvotes vote hmem
      exact voteOn_justified_iff results
    refine ⟨fun h vote hmem ↦ (hiff vote hmem).mp (h.votes vote hmem), ?_⟩
    intro hresults
    refine ⟨?_, fun vote hmem ↦ (hiff vote hmem).mpr (hresults vote hmem)⟩
    rw [hflags]
    exact nofun

/-- The start of a review that votes in an hour. -/
def reviewStart : State := inspectOverTime .waiting false

theorem startsReview_reviewStart : StartsReview reviewStart := ⟨0, 0, 3600000, false, rfl⟩

/-- The time of the vote comes while the fleet state is still being started. -/
theorem votes_without_results : ∃ state,
    Transition.Reachable (reviewSuspectNode 10) Unrestricted StartsReview state ∧
      state.votes = [⟨[], true⟩] ∧ ¬ state.Justified := by
  refine ⟨_, .of_run [.consumed, .evaluated] (fun _ _ _ ↦ trivial)
    (.start startsReview_reviewStart) rfl, rfl, ?_⟩
  intro hjustified
  exact not_voteOn_nil_justified (hjustified.votes (voteOn []) List.mem_cons_self)

/-- One inspection that fails, up to the time of the caller. -/
def failingInspection : List Event :=
  [.resumed .fleetStateReady, .resumed .slept, .resumed .nodesFound,
    .resumed (.inspected false false), .consumed, .evaluated]

theorem justified_of_reachable_failing :
    (∃ state : State, state.flags = [[false]] ∧ state.Justified) ∧
      ∃ state : State, state.votes = [⟨[false], true⟩] ∧ state.Justified ∧
        (state.Justified ↔ ∀ vote ∈ state.votes, vote.results ≠ []) := by
  have hflag : Transition.Reachable (inspectRandomNode 1) Unrestricted StartsRandom _ :=
    .of_run (failingInspection ++ [.flagChecked (some false)]) (fun _ _ _ ↦ trivial)
      (.start ⟨false, rfl⟩) rfl
  have hvote : Transition.Reachable (reviewSuspectNode 2) VotesOnResults StartsReview _ :=
    .of_checkedRun failingInspection votesOnResults_of_check (.start startsReview_reviewStart) rfl
  have hrun : Transition.Reachable (reviewSuspectNode 2) Unrestricted StartsReview _ :=
    .of_run failingInspection (fun _ _ _ ↦ trivial) (.start startsReview_reviewStart) rfl
  exact ⟨⟨_, rfl, (justified_of_reachable 1 _).1 hflag⟩, _, rfl,
    (justified_of_reachable 2 _).2.1 hvote, (justified_of_reachable 2 _).2.2 hrun⟩

end PomboStorageNode.Operator.Inspection
