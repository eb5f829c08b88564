import PomboStorageNode.Sdk.PushBuffer

/-!
# Who waits at a bounded queue

A call of `next` either waits at the read gate of a `PushBuffer`, which is then empty, or the
generator answers it in at most three steps (`waits_or_answered`). A call of `push` waits, was
released or has returned (`Accounted`), and waits only at a full buffer. No item is taken out behind
`end` (`taken_step`). `faithful_of_reachable` puts these together with what the reader gets.
-/

set_option autoImplicit false

namespace PomboStorageNode.Sdk.PushBuffer

open Library

variable {Item Failure : Type}

namespace State

variable {bufferSize : ℕ} {isError : Item → Bool} {state after : State Item Failure}

/-! ### Calls that go on -/

variable (bufferSize isError) in
/-- Steps of the generator, at most `steps` of them, after which `next` was answered more than
`count` times. -/
def AnsweredWithin (count steps : ℕ) (state : State Item Failure) : Prop :=
  ∃ events : List (Event Item Failure), events.length ≤ steps ∧
    (∀ event ∈ events, event ∈ [.yieldResumes, .checkResumes, .iterateResumes]) ∧
    ∃ after, Transition.run (step bufferSize isError) state events = some after ∧
      count < after.outcomes.length

theorem answeredWithin_of_lt {count : ℕ} (steps : ℕ) (hlt : count < state.outcomes.length) :
    state.AnsweredWithin bufferSize isError count steps :=
  ⟨[], Nat.zero_le _, nofun, state, rfl, hlt⟩

theorem AnsweredWithin.step {count steps : ℕ} {event : Event Item Failure}
    (hafter : after.AnsweredWithin bufferSize isError count steps)
    (hevent : event ∈ [.yieldResumes, .checkResumes, .iterateResumes])
    (hstep : state.step bufferSize isError event = some after) :
    state.AnsweredWithin bufferSize isError count (steps + 1) := by
  obtain ⟨events, hlength, hevents, last, hrun, hlt⟩ := hafter
  refine ⟨event :: events, Nat.succ_le_succ hlength, ?_, last, ?_, hlt⟩
  · exact List.forall_mem_cons.mpr ⟨hevent, hevents⟩
  · rw [Transition.run, hstep]
    exact hrun

theorem length_outcomes_finalize (last : Outcome Item Failure) :
    state.outcomes.length < (state.finalize last).outcomes.length := by
  show _ < (state.outcomes ++ _).length
  rw [List.length_append, List.length_cons]
  omega

theorem length_outcomes_conclude : state.outcomes.length < state.conclude.outcomes.length := by
  unfold conclude
  split
  · exact length_outcomes_finalize _
  · exact length_outcomes_finalize _

theorem length_outcomes_read :
    state.outcomes.length ≤ (state.read bufferSize isError).outcomes.length := by
  unfold read
  split
  · dsimp only
    split_ifs
    · exact (length_outcomes_finalize _).le
    · exact le_rfl
  · split_ifs
    · exact length_outcomes_conclude.le
    · exact length_outcomes_conclude.le
    · split <;> exact le_rfl

theorem answeredWithin_yielding {item : Item} (hposition : state.position = .yielding item) :
    state.AnsweredWithin bufferSize isError state.outcomes.length 1 := by
  have hstep : state.step bufferSize isError .yieldResumes =
      some (state.answer bufferSize isError item) := by
    simp only [step, hposition]
  refine (answeredWithin_of_lt 0 ?_).step List.mem_cons_self hstep
  have hlength : state.outcomes.length < (state.outcomes ++ [Outcome.item item]).length := by
    rw [List.length_append]
    exact Nat.lt_succ_self _
  unfold answer
  dsimp only
  split_ifs
  · exact hlength
  · exact hlength.trans_le (@length_outcomes_read _ _ bufferSize isError { state with
      outcomes := state.outcomes ++ [.item item]
      requests := state.requests - 1 })

/-- The generator finds an item, or the end. -/
theorem answeredWithin_read (h : state.Steady bufferSize isError [])
    (hwoken : state.buffer ≠ [] ∨ state.ending ≠ none) :
    (state.read bufferSize isError).AnsweredWithin bufferSize isError state.outcomes.length 1 := by
  unfold read
  split
  · dsimp only
    split_ifs
    · exact answeredWithin_of_lt 1 (length_outcomes_finalize _)
    · exact answeredWithin_yielding rfl
  · rename_i hnotReading
    split_ifs with hwritten hdone
    · exact answeredWithin_of_lt 1 length_outcomes_conclude
    · exact answeredWithin_of_lt 1 length_outcomes_conclude
    · obtain ⟨-, hempty, hnone⟩ := h.nothing_to_do hnotReading hwritten hdone
      exact absurd hwoken (not_or.mpr ⟨not_not.mpr hempty, not_not.mpr hnone⟩)

theorem answeredWithin_checked (h : state.Running bufferSize isError) {ok : Bool}
    (hposition : state.position = .checked ok) :
    state.AnsweredWithin bufferSize isError state.outcomes.length 2 := by
  have hiterate : .iterateResumes ∈
      [Event.yieldResumes, .checkResumes, (.iterateResumes : Event Item Failure)] := by simp
  have hsteady := h.steady_nil (by rw [inFlight, hposition])
  cases ok with
  | true =>
    have hstep : state.step bufferSize isError .iterateResumes =
        some (state.iterate bufferSize isError) := by
      simp only [step, hposition]
    refine AnsweredWithin.step ?_ hiterate hstep
    unfold iterate
    split_ifs
    · exact answeredWithin_of_lt 1 length_outcomes_conclude
    · exact answeredWithin_read hsteady (h.woken (.inl ⟨true, hposition⟩))
  | false =>
    have hstep : state.step bufferSize isError .iterateResumes = some state.conclude := by
      simp only [step, hposition]
    exact (answeredWithin_of_lt 1 length_outcomes_conclude).step hiterate hstep

/-- A call of `next` either waits at the read gate, where there is nothing to read and nothing was
ended, or the generator answers it in a few steps. -/
theorem Sound.waits_or_answered (h : state.Sound bufferSize isError)
    (hrequests : state.requests ≠ 0) :
    state.readGate.waiting ≠ [] ∧ state.buffer = [] ∧ state.ending = none ∨
      state.AnsweredWithin bufferSize isError state.outcomes.length 3 := by
  rcases h with h | ⟨last, h⟩
  · cases hposition : state.position with
    | notStarted => exact absurd (h.idle.mpr (.inl hposition)) hrequests
    | suspended => exact absurd (h.idle.mpr (.inr hposition)) hrequests
    | finished last => exact absurd hposition (h.running last)
    | yielding item =>
      obtain ⟨events, hlength, hanswered⟩ := answeredWithin_yielding hposition
      exact .inr ⟨events, hlength.trans (by decide), hanswered⟩
    | checked ok =>
      obtain ⟨events, hlength, hanswered⟩ := answeredWithin_checked h hposition
      exact .inr ⟨events, hlength.trans (by decide), hanswered⟩
    | awaiting =>
      by_cases hwaiting : state.readGate.waiting = []
      · have hreader := h.reader
        rw [hposition, Gate.calls, hwaiting, List.append_nil] at hreader
        have hreleased : () ∈ state.readGate.released := hreader ▸ List.mem_cons_self
        have hstep : state.step bufferSize isError .checkResumes = some { state with
            readGate := (state.readGate.resume ()).1
            position := .checked (state.readGate.resume ()).2 } := if_pos hreleased
        have hsound := sound_checkResumes (.inl h) hreleased
        have hchecked := answeredWithin_checked (hsound.running (by rintro _ ⟨⟩)) rfl
        exact .inr (hchecked.step (List.mem_cons_of_mem _ List.mem_cons_self) hstep)
      · exact .inl ⟨hwaiting, h.steady.empty hwaiting⟩
  · exact absurd h.idle hrequests

/-! ### Calls of `push` -/

/-- Every call of `push` waits, or was released, or has returned, and only one of these. -/
def Accounted (state : State Item Failure) : Prop :=
  (state.writeGate.calls ++ state.results.map Prod.fst).Perm (List.range state.pushCalls)

/-- What the calls of `push` are at. -/
def pushes (state : State Item Failure) : List ℕ × List (ℕ × Bool) × ℕ :=
  (state.writeGate.calls, state.results, state.pushCalls)

theorem Accounted.of_pushes_eq (h : state.Accounted) (heq : after.pushes = state.pushes) :
    after.Accounted := by
  obtain ⟨hcalls, hrest⟩ := Prod.mk.inj heq
  obtain ⟨hresults, hcount⟩ := Prod.mk.inj hrest
  rw [Accounted, hcalls, hresults, hcount]
  exact h

theorem pushes_finalize (last : Outcome Item Failure) :
    (state.finalize last).pushes = state.pushes :=
  congrArg (·, state.results, state.pushCalls) (Gate.calls_lock _)

theorem pushes_conclude : state.conclude.pushes = state.pushes := by
  unfold conclude
  split
  · exact pushes_finalize _
  · exact pushes_finalize _

theorem pushes_updateWriteGate : (state.updateWriteGate bufferSize).pushes = state.pushes :=
  congrArg (·, state.results, state.pushCalls) (Gate.calls_setOpenState _ _)

theorem pushes_read : (state.read bufferSize isError).pushes = state.pushes := by
  unfold read
  split
  · rename_i item rest _ _
    dsimp only
    split_ifs
    · exact (pushes_finalize _).trans (@pushes_updateWriteGate _ _ _ { state with buffer := rest })
    · exact @pushes_updateWriteGate _ _ _ { state with buffer := rest }
  · split_ifs
    · exact pushes_conclude
    · exact pushes_conclude
    · split <;> rfl

theorem pushes_iterate : (state.iterate bufferSize isError).pushes = state.pushes := by
  unfold iterate
  split_ifs
  · exact pushes_conclude
  · exact pushes_read

theorem pushes_next : (state.next bufferSize isError).pushes = state.pushes := by
  unfold next
  split
  · exact pushes_iterate
  · exact pushes_read
  · rfl
  · rfl

theorem pushes_answer (item : Item) :
    (state.answer bufferSize isError item).pushes = state.pushes := by
  unfold answer
  dsimp only
  split_ifs
  · rfl
  · exact pushes_read

theorem accounted_push (h : state.Accounted) (item : Item) :
    (state.push bufferSize item).Accounted := by
  have hmore : ∀ calls results : List ℕ, (calls ++ results).Perm
      (state.writeGate.calls ++ state.results.map Prod.fst ++ [state.pushCalls]) →
        (calls ++ results).Perm (List.range (state.pushCalls + 1)) := by
    intro calls results hperm
    rw [List.range_succ]
    exact hperm.trans (h.append_right _)
  by_cases hwritable : state.isWritable = true
  · obtain ⟨writeGate, results, hpush, -, -, hperm⟩ :=
      @push_of_isWritable _ _ bufferSize _ hwritable item
    rw [hpush]
    exact hmore _ _ hperm
  · rw [push, if_pos (Bool.eq_false_iff.mpr hwritable)]
    refine hmore _ _ ?_
    rw [List.map_append, ← List.append_assoc]
    exact .refl _

theorem accounted_pushResumes (h : state.Accounted) {call : ℕ}
    (hreleased : call ∈ state.writeGate.released) (ok : Bool) : Accounted { state with
      writeGate := (state.writeGate.resume call).1
      results := state.results ++ [(call, ok)] } := by
  refine List.Perm.trans ?_ h
  show (state.writeGate.released.erase call ++ state.writeGate.waiting ++
    (state.results ++ [(call, ok)]).map Prod.fst).Perm
      (state.writeGate.released ++ state.writeGate.waiting ++ _)
  rw [List.map_append, ← List.append_assoc]
  refine List.perm_append_comm.trans ?_
  rw [← List.append_assoc, ← List.append_assoc]
  exact ((List.perm_cons_erase hreleased).symm.append_right _).append_right _

theorem accounted_step (h : state.Accounted) {event : Event Item Failure}
    (hstep : state.step bufferSize isError event = some after) : after.Accounted := by
  cases event with
  | push item =>
    cases hstep
    exact accounted_push h item
  | next =>
    cases hstep
    exact h.of_pushes_eq pushes_next
  | endWrite error =>
    cases hstep
    exact h.of_pushes_eq (congrArg (·, state.results, state.pushCalls) (Gate.calls_lock _))
  | ended error =>
    cases hstep
    exact h.of_pushes_eq (congrArg (·, state.results, state.pushCalls) (Gate.calls_lock _))
  | pushResumes call =>
    simp only [step] at hstep
    split_ifs at hstep with hreleased
    cases hstep
    exact accounted_pushResumes h hreleased _
  | yieldResumes =>
    simp only [step] at hstep
    split at hstep
    · cases hstep
      exact h.of_pushes_eq (pushes_answer _)
    · cases hstep
  | checkResumes =>
    simp only [step] at hstep
    split_ifs at hstep
    cases hstep
    exact h.of_pushes_eq rfl
  | iterateResumes =>
    simp only [step] at hstep
    split at hstep
    · cases hstep
      exact h.of_pushes_eq pushes_iterate
    · cases hstep
      exact h.of_pushes_eq pushes_conclude
    · cases hstep

/-! ### Behind the end of reading -/

theorem delivered_conclude : state.conclude.delivered = state.delivered := by
  unfold conclude
  split
  · exact delivered_finalize rfl
  · exact delivered_finalize rfl

theorem taken_conclude : state.conclude.taken = state.delivered := by
  have hflight : state.conclude.inFlight = [] := by
    unfold conclude
    split <;> rfl
  rw [taken, delivered_conclude, hflight, List.append_nil]

theorem isLocked_conclude : state.conclude.readGate.isLocked = true := by
  unfold conclude
  split <;> rfl

/-- The generator takes no item when the read gate is locked. -/
theorem taken_read (hlocked : state.readGate.isLocked = true) :
    (state.read bufferSize isError).taken = state.delivered ∧
      (state.read bufferSize isError).readGate.isLocked = true := by
  unfold read
  split
  · rename_i hunlocked
    cases hlocked.symm.trans hunlocked
  · have hcheck := (Gate.isLocked_check state.readGate.closed ()).trans
      ((Gate.isLocked_closed _).trans hlocked)
    split_ifs
    · exact ⟨taken_conclude, isLocked_conclude⟩
    · exact ⟨taken_conclude, isLocked_conclude⟩
    · split
      · rename_i readGate hgate
        rw [hgate] at hcheck
        exact ⟨List.append_nil _, hcheck⟩
      · rename_i readGate ok hgate
        rw [hgate] at hcheck
        exact ⟨List.append_nil _, hcheck⟩

theorem taken_iterate (hlocked : state.readGate.isLocked = true) :
    (state.iterate bufferSize isError).taken = state.delivered ∧
      (state.iterate bufferSize isError).readGate.isLocked = true := by
  rw [iterate, if_pos hlocked]
  exact ⟨taken_conclude, isLocked_conclude⟩

theorem taken_of_inFlight_eq_nil (hflight : state.inFlight = []) :
    state.taken = state.delivered := by
  rw [taken, hflight, List.append_nil]

theorem taken_next (hlocked : state.readGate.isLocked = true) :
    (state.next bufferSize isError).taken = state.taken ∧
      (state.next bufferSize isError).readGate.isLocked = true := by
  unfold next
  split
  · rename_i hposition
    rw [taken_of_inFlight_eq_nil (show state.inFlight = [] by rw [inFlight, hposition])]
    exact taken_iterate hlocked
  · rename_i hposition
    rw [taken_of_inFlight_eq_nil (show state.inFlight = [] by rw [inFlight, hposition])]
    exact taken_read hlocked
  · refine ⟨congrArg (· ++ state.inFlight) ?_, hlocked⟩
    exact filterMap_item?_done state.outcomes 1
  · exact ⟨rfl, hlocked⟩

theorem taken_answer (hlocked : state.readGate.isLocked = true) {item : Item}
    (hposition : state.position = .yielding item) :
    (state.answer bufferSize isError item).taken = state.taken ∧
      (state.answer bufferSize isError item).readGate.isLocked = true := by
  have hdelivered : delivered { state with
      outcomes := state.outcomes ++ [.item item]
      requests := state.requests - 1 } = state.taken := by
    rw [taken, inFlight, hposition]
    exact List.filterMap_append
  unfold answer
  dsimp only
  split_ifs
  · exact ⟨(List.append_nil _).trans hdelivered, hlocked⟩
  · rw [← hdelivered]
    exact taken_read hlocked

/-- No step takes an item out of the buffer when reading was ended. -/
theorem taken_step (h : state.Sound bufferSize isError) (hlocked : state.readGate.isLocked = true)
    {event : Event Item Failure} (hstep : state.step bufferSize isError event = some after) :
    after.taken = state.taken ∧ after.readGate.isLocked = true := by
  cases event with
  | push item =>
    cases hstep
    have hunwritable : state.isWritable = false := by
      rw [isWritable, hlocked]
      exact Bool.and_false _
    rw [push, if_pos hunwritable]
    exact ⟨rfl, hlocked⟩
  | next =>
    cases hstep
    exact taken_next hlocked
  | endWrite error =>
    cases hstep
    exact ⟨rfl, (Gate.isLocked_opened _).trans hlocked⟩
  | ended error =>
    cases hstep
    exact ⟨rfl, rfl⟩
  | pushResumes call =>
    simp only [step] at hstep
    split_ifs at hstep
    cases hstep
    exact ⟨rfl, hlocked⟩
  | yieldResumes =>
    simp only [step] at hstep
    split at hstep
    · rename_i item hposition
      cases hstep
      exact taken_answer hlocked hposition
    · cases hstep
  | checkResumes =>
    simp only [step] at hstep
    split_ifs at hstep with hreleased
    cases hstep
    refine ⟨?_, hlocked⟩
    rcases h with hrunning | ⟨last, hended⟩
    · have hposition := hrunning.position_of_released hreleased
      exact congrArg (state.delivered ++ ·) (show [] = state.inFlight by rw [inFlight, hposition])
    · have hmem : () ∈ state.readGate.calls := List.mem_append_left _ hreleased
      rw [hended.reader] at hmem
      cases hmem
  | iterateResumes =>
    simp only [step] at hstep
    split at hstep
    · rename_i hposition
      cases hstep
      rw [taken_of_inFlight_eq_nil (show state.inFlight = [] by rw [inFlight, hposition])]
      exact taken_iterate hlocked
    · rename_i hposition
      cases hstep
      rw [taken_of_inFlight_eq_nil (show state.inFlight = [] by rw [inFlight, hposition])]
      exact ⟨taken_conclude, isLocked_conclude⟩
    · cases hstep

/-! ### What the reader gets -/

theorem Sound.delivered_inOrder (h : state.Sound bufferSize isError) :
    state.delivered <+: state.pushed := by
  rcases h with h | ⟨last, h⟩
  · exact ⟨_, h.steady.order.symm⟩
  · rcases h.closes with ⟨item, -, -, hprefix⟩ | ⟨error, -, ⟨-, heq⟩ | ⟨-, hprefix⟩⟩
    · exact (List.prefix_append _ _).trans hprefix
    · exact heq ▸ List.prefix_rfl
    · exact hprefix

theorem Sound.answered (h : state.Sound bufferSize isError) :
    state.outcomes = state.delivered.map Outcome.item ∨ ∃ last count,
      state.outcomes = state.delivered.map Outcome.item ++ last :: List.replicate count .done ∧
        state.Closes isError last := by
  rcases h with h | ⟨last, h⟩
  · exact .inl h.steady.answered
  · obtain ⟨count, hanswered⟩ := h.answered
    exact .inr ⟨last, count, hanswered, h.closes⟩

theorem Sound.clean (h : state.Sound bufferSize isError) :
    ∀ item ∈ state.delivered, isError item = false := by
  rcases h with h | ⟨last, h⟩
  · exact fun item hmem ↦ h.steady.clean item (List.mem_append_left _ hmem)
  · exact h.clean

/-- A call of `push` waits at the write gate only while the buffer is full and writing goes on. -/
theorem Sound.full (h : state.Sound bufferSize isError) (hwaiting : state.writeGate.waiting ≠ []) :
    bufferSize ≤ state.buffer.length ∧ state.writeGate.isLocked = false ∧ state.ending = none := by
  have hunlocked : state.writeGate.isLocked = false := by
    by_contra hlocked
    rw [Bool.not_eq_false] at hlocked
    exact hwaiting (Gate.waiting_of_isLocked hlocked)
  rcases h with h | ⟨last, h⟩
  · refine ⟨h.steady.full hwaiting, hunlocked, ?_⟩
    rw [h.steady.writeLocked, Option.isSome_eq_false_iff, Option.isNone_iff_eq_none] at hunlocked
    exact hunlocked
  · cases hunlocked.symm.trans h.writeLocked

end State

/-! ### Runs -/

open State

variable (bufferSize : ℕ) (isError : Item → Bool)

/-- The states of a new buffer, and of a state, under any calls of which at most one ends the
buffer. -/
abbrev Reachable (state : State Item Failure) : State Item Failure → Prop :=
  Transition.Reachable (step bufferSize isError) Once (· = state)

variable {bufferSize isError} {state after : State Item Failure}

theorem Reachable.sound (hreach : Reachable bufferSize isError state after)
    (h : state.Sound bufferSize isError) : after.Sound bufferSize isError := by
  refine hreach.invariant ?_ ?_
  · rintro _ rfl
    exact h
  · exact fun _ _ _ _ hbefore honce hstep ↦ sound_step hbefore honce hstep

theorem Reachable.accounted (hreach : Reachable bufferSize isError state after)
    (h : state.Accounted) : after.Accounted := by
  refine hreach.invariant ?_ ?_
  · rintro _ rfl
    exact h
  · exact fun _ _ _ _ hbefore _ hstep ↦ accounted_step hbefore hstep

theorem Reachable.taken_eq (hreach : Reachable bufferSize isError state after)
    (h : state.Sound bufferSize isError) (hlocked : state.readGate.isLocked = true) :
    after.taken = state.taken := by
  refine (@Transition.Reachable.invariant _ _ _ _ _ (fun after ↦
    after.taken = state.taken ∧ after.readGate.isLocked = true) ?_ ?_ _ hreach).1
  · rintro _ rfl
    exact ⟨rfl, hlocked⟩
  · intro before event next hbefore hsame _ hstep
    obtain ⟨htaken, hnext⟩ := taken_step (Reachable.sound hbefore h) hsame.2 hstep
    exact ⟨htaken.trans hsame.1, hnext⟩

/-- What a bounded queue is for. The items of `next` are a prefix of the items that were pushed;
none of them is an error; behind them comes at most one other outcome, with a reason, and then only
the end. A call of `push` that has not returned waits at a full buffer or can go on, and a call of
`next` waits at an empty one or is answered; and nothing is taken out of the buffer once reading was
ended. -/
structure Faithful (bufferSize : ℕ) (isError : Item → Bool) (state : State Item Failure) :
    Prop where
  delivered_inOrder : state.delivered <+: state.pushed
  clean : ∀ item ∈ state.delivered, isError item = false
  answered : state.outcomes = state.delivered.map Outcome.item ∨ ∃ last count,
    state.outcomes = state.delivered.map Outcome.item ++ last :: List.replicate count .done ∧
      state.Closes isError last
  pushes : ∀ call < state.pushCalls,
    (call ∈ state.writeGate.waiting ∧ bufferSize ≤ state.buffer.length ∧
        state.writeGate.isLocked = false ∧ state.ending = none) ∨
      (call ∈ state.writeGate.released ∧
        (state.step bufferSize isError (.pushResumes call)).isSome = true) ∨
      call ∈ state.results.map Prod.fst
  nexts : state.requests ≠ 0 →
    state.readGate.waiting ≠ [] ∧ state.buffer = [] ∧ state.ending = none ∨
      state.AnsweredWithin bufferSize isError state.outcomes.length 3
  ended : state.isReadingEnded = true → ∀ after, Reachable bufferSize isError state after →
    after.taken = state.taken ∧ after.delivered <+: state.taken

/-- Under any calls of which at most one ends it, a buffer is a faithful bounded queue. Behind `end`
only an item that had been taken before it is delivered. -/
theorem faithful_of_reachable (hreach : Reachable bufferSize isError create state) :
    Faithful bufferSize isError state where
  delivered_inOrder := (hreach.sound sound_create).delivered_inOrder
  clean := (hreach.sound sound_create).clean
  answered := (hreach.sound sound_create).answered
  pushes := by
    intro call hcall
    have haccounted := hreach.accounted (.refl _)
    have hmem := haccounted.mem_iff.mpr (List.mem_range.mpr hcall)
    rcases List.mem_append.mp hmem with hpending | hreturned
    · rcases List.mem_append.mp hpending with hreleased | hwaiting
      · refine .inr (.inl ⟨hreleased, ?_⟩)
        simp only [step, if_pos hreleased]
        rfl
      · exact .inl ⟨hwaiting, (hreach.sound sound_create).full (List.ne_nil_of_mem hwaiting)⟩
    · exact .inr (.inr hreturned)
  nexts := (hreach.sound sound_create).waits_or_answered
  ended := by
    intro hended after hafter
    have hsound := hreach.sound sound_create
    have hlocked : state.readGate.isLocked = true := by
      rcases hsound with h | ⟨last, h⟩
      · exact h.steady.readLocked.trans hended
      · exact h.readLocked
    have htaken := hafter.taken_eq hsound hlocked
    exact ⟨htaken, htaken ▸ List.prefix_append _ _⟩

/-- `Once`, as a check. -/
theorem once_of_isNone (state : State Item Failure) (event : Event Item Failure)
    (hcheck : (match event with
      | .endWrite _ => state.ending.isNone
      | .ended _ => state.ending.isNone
      | _ => true) = true) : state.Once event := by
  cases event with
  | endWrite error => exact Option.isNone_iff_eq_none.mp hcheck
  | ended error => exact Option.isNone_iff_eq_none.mp hcheck
  | _ => trivial

/-- A reader and a producer that waits; then writing is ended with an error. -/
theorem faithful_two_items :
    let events : List (Event ℕ ℕ) := [.push 0, .push 1, .next, .yieldResumes, .endWrite (some 5),
      .pushResumes 0, .next, .yieldResumes, .pushResumes 1, .next, .next]
    ∃ state, Transition.run (step 1 fun item ↦ item = 9) create events = some state ∧
      state.outcomes = [.item 0, .item 1, .failed 5, .done] ∧
      Faithful 1 (fun item ↦ item = 9) state :=
  ⟨_, rfl, rfl, faithful_of_reachable
    (.of_checkedRun [.push 0, .push 1, .next, .yieldResumes, .endWrite (some 5), .pushResumes 0,
      .next, .yieldResumes, .pushResumes 1, .next, .next] once_of_isNone (.start rfl) rfl)⟩

/-- A call of `next` that has taken an item is answered with it behind `end`. -/
theorem delivered_behind_end : ∃ before after : State ℕ ℕ,
    Reachable 1 (fun _ ↦ false) create before ∧ before.ending = some (.ended none) ∧
      before.delivered = [] ∧ before.step 1 (fun _ ↦ false) .yieldResumes = some after ∧
      after.delivered = [0] :=
  ⟨_, _, .of_checkedRun [.push 0, .next, .ended none] once_of_isNone (.start rfl) rfl, rfl, rfl,
    rfl, rfl⟩

end PomboStorageNode.Sdk.PushBuffer
