import Mathlib.Data.List.Range
import Mathlib.Data.List.Perm.Basic
import PomboStorageNode.Library.Transition
import PomboStorageNode.Sdk.Gate

/-!
# A bounded queue with one reader

`PushBuffer.ts` is a queue behind two gates. A call of `push` waits at the write gate while the
buffer is full; the generator behind `next` waits at the read gate while it is empty. What the
program does between two waits is one step, and what waits goes on when the events say so: a call
of `push` whose promise was resolved, the call of `check` in the generator, the generator behind
it, and a `yield`, which awaits its item before it answers `next`.

`Running` is what holds while the generator has not returned, and `Ended` what holds behind its end:
what `next` was answered with, what a `yield` awaits and what is in the buffer are the items that
were pushed, in their order. `sound_step` is that every event keeps this.
-/

set_option autoImplicit false

namespace PomboStorageNode.Sdk.PushBuffer

open Library

/-! ### The buffer -/

variable {Item Failure : Type}

/-- What a call of `next` comes to: an item, an item that was thrown because it is an error, the
error that writing ended with, or the end. -/
inductive Outcome (Item Failure : Type)
  | item (item : Item)
  | thrown (item : Item)
  | failed (error : Failure)
  | done
  deriving DecidableEq

/-- The item of an outcome. -/
def Outcome.item? : Outcome Item Failure → Option Item
  | .item value => some value
  | _ => none

/-- Where the generator is: before its start, at the `await` of a `yield`, behind a `yield`, in
`check`, behind it, or at its end, with the outcome that ended it. -/
inductive Position (Item Failure : Type)
  | notStarted
  | yielding (item : Item)
  | suspended
  | awaiting
  | checked (ok : Bool)
  | finished (last : Outcome Item Failure)
  deriving DecidableEq

/-- The calls of `check` that the generator is in. -/
def Position.checks : Position Item Failure → List Unit
  | .awaiting => [()]
  | _ => []

/-- A call that ended the writing, or reading and writing. -/
inductive Ending (Failure : Type)
  | endWrite (error : Option Failure)
  | ended (error : Option Failure)
  deriving DecidableEq

/-- The error that a call passed. -/
def Ending.error : Ending Failure → Option Failure
  | .endWrite error => error
  | .ended error => error

/-- `PushBuffer`, with its generator, the number of calls of `next` that were not answered and of
all calls of `push`. What the calls of `push` returned, what `next` was answered with, the items
that were put into the buffer and the call that ended it are history. -/
structure State (Item Failure : Type) where
  buffer : List Item
  writeGate : Gate ℕ
  readGate : Gate Unit
  error : Option Failure
  position : Position Item Failure
  requests : ℕ
  pushCalls : ℕ
  results : List (ℕ × Bool)
  outcomes : List (Outcome Item Failure)
  pushed : List Item
  ending : Option (Ending Failure)

/-- A new buffer; both gates are closed. -/
def create : State Item Failure where
  buffer := []
  writeGate := Gate.create.closed
  readGate := Gate.create.closed
  error := none
  position := .notStarted
  requests := 0
  pushCalls := 0
  results := []
  outcomes := []
  pushed := []
  ending := none

/-- What happens: `push`, `next`, `endWrite` or `end` is called; a released call of `push` goes on;
the `await` of a `yield` is over; the released call of `check` in the generator goes on, and then
the generator. -/
inductive Event (Item Failure : Type)
  | push (item : Item)
  | next
  | endWrite (error : Option Failure)
  | ended (error : Option Failure)
  | pushResumes (call : ℕ)
  | yieldResumes
  | checkResumes
  | iterateResumes
  deriving DecidableEq

namespace State

section Steps

variable (bufferSize : ℕ) (isError : Item → Bool) (state : State Item Failure)

/-- `isFull`. -/
def isFull : Bool := bufferSize ≤ state.buffer.length

/-- `isDone`. -/
def isDone : Bool := state.writeGate.isLocked && state.readGate.isLocked

/-- `isWritable`. -/
def isWritable : Bool := !state.writeGate.isLocked && !state.readGate.isLocked

/-- `lock`. -/
def lock : State Item Failure :=
  { state with
    writeGate := state.writeGate.lock
    readGate := state.readGate.lock }

/-- `updateWriteGate`. -/
def updateWriteGate : State Item Failure :=
  { state with writeGate := state.writeGate.setOpenState !(state.isFull bufferSize) }

/-- `push`, up to its wait. -/
def push (item : Item) : State Item Failure :=
  let call := state.pushCalls
  let called := { state with pushCalls := call + 1 }
  if state.isWritable = false then
    { called with results := state.results ++ [(call, false)] }
  else
    let stored := updateWriteGate bufferSize { called with
      buffer := state.buffer ++ [item]
      pushed := state.pushed ++ [item] }
    let opened := { stored with readGate := stored.readGate.opened }
    match opened.writeGate.check call with
    | (writeGate, none) => { opened with writeGate := writeGate }
    | (writeGate, some ok) => { opened with
      writeGate := writeGate
      results := state.results ++ [(call, ok)] }

/-- `endWrite`. -/
def endWrite (error : Option Failure) : State Item Failure :=
  { state with
    error := state.error.or error
    readGate := state.readGate.opened
    writeGate := state.writeGate.lock
    ending := some (.endWrite error) }

/-- `end`. -/
def ended (error : Option Failure) : State Item Failure :=
  { state.lock with
    error := error.or state.error
    ending := some (.ended error) }

/-- The generator ends: after its `finally` the call that runs it is answered, and the calls behind
that one. -/
def finalize (last : Outcome Item Failure) : State Item Failure :=
  { state.lock with
    buffer := []
    position := .finished last
    requests := 0
    outcomes := state.outcomes ++ last :: List.replicate (state.requests - 1) .done }

/-- The generator behind its loop. -/
def conclude : State Item Failure :=
  match state.error with
  | some error => finalize { state with error := none } (.failed error)
  | none => state.finalize .done

/-- The generator, from the condition of its inner loop to its next wait. -/
def read : State Item Failure :=
  match state.buffer, state.readGate.isLocked with
  | item :: rest, false =>
    let shifted := updateWriteGate bufferSize { state with buffer := rest }
    if isError item = true then shifted.finalize (.thrown item)
    else { shifted with position := .yielding item }
  | _, _ =>
    if state.buffer = [] ∧ state.writeGate.isLocked = true then state.conclude
    else if state.isDone = true then state.conclude
    else
      match state.readGate.closed.check () with
      | (readGate, none) => { state with
        readGate := readGate
        position := .awaiting }
      | (readGate, some ok) => { state with
        readGate := readGate
        position := .checked ok }

/-- The generator, from the condition of its outer loop. -/
def iterate : State Item Failure :=
  if state.readGate.isLocked = true then state.conclude else state.read bufferSize isError

/-- `next`. -/
def next : State Item Failure :=
  match state.position with
  | .notStarted => iterate bufferSize isError { state with requests := state.requests + 1 }
  | .suspended => read bufferSize isError { state with requests := state.requests + 1 }
  | .finished _ => { state with outcomes := state.outcomes ++ [.done] }
  | _ => { state with requests := state.requests + 1 }

/-- The `await` of a `yield` is over: the call that runs the generator is answered, and the next one
runs it. -/
def answer (item : Item) : State Item Failure :=
  let answered := { state with
    outcomes := state.outcomes ++ [Outcome.item item]
    requests := state.requests - 1 }
  if answered.requests = 0 then { answered with position := .suspended }
  else answered.read bufferSize isError

/-- The state after an event, or `none` when it cannot happen. -/
def step : Event Item Failure → Option (State Item Failure)
  | .push item => some (state.push bufferSize item)
  | .next => some (state.next bufferSize isError)
  | .endWrite error => some (state.endWrite error)
  | .ended error => some (state.ended error)
  | .pushResumes call =>
    if call ∈ state.writeGate.released then
      let (writeGate, ok) := state.writeGate.resume call
      some { state with
        writeGate := writeGate
        results := state.results ++ [(call, ok)] }
    else none
  | .yieldResumes =>
    match state.position with
    | .yielding item => some (state.answer bufferSize isError item)
    | _ => none
  | .checkResumes =>
    if () ∈ state.readGate.released then
      let (readGate, ok) := state.readGate.resume ()
      some { state with
        readGate := readGate
        position := .checked ok }
    else none
  | .iterateResumes =>
    match state.position with
    | .checked true => some (state.iterate bufferSize isError)
    | .checked false => some state.conclude
    | _ => none

end Steps

/-! ### What holds of the buffer -/

/-- The items that `next` was answered with. -/
def delivered (state : State Item Failure) : List Item := state.outcomes.filterMap Outcome.item?

/-- The item that a `yield` awaits. -/
def inFlight (state : State Item Failure) : List Item :=
  match state.position with
  | .yielding item => [item]
  | _ => []

/-- The items that were taken out of the buffer to answer `next`. -/
def taken (state : State Item Failure) : List Item := state.delivered ++ state.inFlight

/-- Whether reading was ended. -/
def isReadingEnded (state : State Item Failure) : Bool :=
  match state.ending with
  | some (.ended _) => true
  | _ => false

/-- What the generator comes to behind its loop. -/
def conclusion : Option Failure → Outcome Item Failure
  | some error => .failed error
  | none => .done

variable (bufferSize : ℕ) (isError : Item → Bool)

/-- Between two steps of the generator, `flight` being what it has taken and not handed over. -/
structure Steady (flight : List Item) (state : State Item Failure) : Prop where
  order : state.pushed = state.delivered ++ (flight ++ state.buffer)
  clean : ∀ item ∈ state.delivered ++ flight, isError item = false
  answered : state.outcomes = state.delivered.map Outcome.item
  writeLocked : state.writeGate.isLocked = state.ending.isSome
  readLocked : state.readGate.isLocked = state.isReadingEnded
  error : state.error = state.ending.bind Ending.error
  full : state.writeGate.waiting ≠ [] → bufferSize ≤ state.buffer.length
  empty : state.readGate.waiting ≠ [] → state.buffer = [] ∧ state.ending = none

/-- The generator has not returned. It waits at the read gate or not at all; when it is released,
there is something to do. -/
structure Running (state : State Item Failure) : Prop where
  steady : state.Steady bufferSize isError state.inFlight
  running : ∀ last, state.position ≠ .finished last
  idle : state.requests = 0 ↔ state.position = .notStarted ∨ state.position = .suspended
  reader : state.readGate.calls = state.position.checks
  woken : (∃ ok, state.position = .checked ok) ∨
    state.position = .awaiting ∧ state.readGate.waiting = [] →
      state.buffer ≠ [] ∨ state.ending ≠ none
  refused : state.position = .checked false → state.isReadingEnded = true

/-- Why the generator returned: an item was an error, or reading or writing was ended. -/
def Closes (last : Outcome Item Failure) (state : State Item Failure) : Prop :=
  (∃ item, last = .thrown item ∧ isError item = true ∧
      state.delivered ++ [item] <+: state.pushed) ∨
    ∃ error, last = conclusion error ∧
      (state.ending = some (.endWrite error) ∧ state.delivered = state.pushed ∨
        state.ending = some (.ended error) ∧ state.delivered <+: state.pushed)

/-- The generator has returned. -/
structure Ended (last : Outcome Item Failure) (state : State Item Failure) : Prop where
  finished : state.position = .finished last
  answered : ∃ count, state.outcomes =
    state.delivered.map Outcome.item ++ last :: List.replicate count .done
  clean : ∀ item ∈ state.delivered, isError item = false
  writeLocked : state.writeGate.isLocked = true
  readLocked : state.readGate.isLocked = true
  empty : state.buffer = []
  idle : state.requests = 0
  reader : state.readGate.calls = []
  closes : state.Closes isError last

/-- The generator is running or has returned. -/
def Sound (state : State Item Failure) : Prop :=
  state.Running bufferSize isError ∨ ∃ last, state.Ended isError last

variable {bufferSize isError} {state after : State Item Failure}

/-! ### Steps of the generator -/

theorem filterMap_item?_done (outcomes : List (Outcome Item Failure)) (count : ℕ) :
    (outcomes ++ List.replicate count Outcome.done).filterMap Outcome.item? =
      outcomes.filterMap Outcome.item? := by
  have hnone : (List.replicate count (Outcome.done : Outcome Item Failure)).filterMap
      Outcome.item? = [] := by
    refine List.filterMap_eq_nil_iff.mpr fun outcome hmem ↦ ?_
    rw [List.eq_of_mem_replicate hmem]
    rfl
  rw [List.filterMap_append, hnone, List.append_nil]

theorem delivered_finalize {last : Outcome Item Failure} (hlast : last.item? = none) :
    (state.finalize last).delivered = state.delivered := by
  show (state.outcomes ++ last :: List.replicate (state.requests - 1) .done).filterMap _ = _
  rw [List.append_cons, filterMap_item?_done, List.filterMap_append, List.filterMap_cons_none hlast]
  exact List.append_nil _

/-- The generator returns. -/
theorem ended_finalize {last : Outcome Item Failure} (hclean : ∀ item ∈ state.delivered,
      isError item = false)
    (hanswered : state.outcomes = state.delivered.map Outcome.item)
    (hreader : state.readGate.calls = []) (hlast : last.item? = none)
    (hcloses : state.Closes isError last) : (state.finalize last).Ended isError last where
  finished := rfl
  answered := by
    refine ⟨state.requests - 1, ?_⟩
    rw [delivered_finalize hlast, ← hanswered]
    rfl
  clean := by
    rw [delivered_finalize hlast]
    exact hclean
  writeLocked := rfl
  readLocked := rfl
  empty := rfl
  idle := rfl
  reader := (Gate.calls_lock _).trans hreader
  closes := by
    rw [Closes, delivered_finalize hlast]
    exact hcloses

/-- A call of `push` waits only while the buffer is full. -/
theorem full_updateWriteGate (state : State Item Failure)
    (hwaiting : (state.updateWriteGate bufferSize).writeGate.waiting ≠ []) :
    bufferSize ≤ state.buffer.length := by
  by_contra hfree
  have hfull : state.isFull bufferSize = false := decide_eq_false hfree
  rw [updateWriteGate, hfull] at hwaiting
  exact hwaiting (Gate.waiting_opened _)

/-- The generator returns behind its loop. -/
theorem ended_conclude (h : state.Steady bufferSize isError [])
    (hreader : state.readGate.calls = [])
    (hending : state.ending ≠ none)
    (hempty : state.buffer = [] ∨ state.isReadingEnded = true) :
    ∃ last, state.conclude.Ended isError last := by
  have hclean : ∀ item ∈ state.delivered, isError item = false := fun item hmem ↦
    h.clean item (List.mem_append_left _ hmem)
  have horder : state.pushed = state.delivered ++ state.buffer := h.order
  have hcloses : state.Closes isError (conclusion state.error) := by
    refine .inr ⟨state.error, rfl, ?_⟩
    have herror := h.error
    rcases hcase : state.ending with _ | ending
    · exact absurd hcase hending
    · rw [hcase] at herror
      cases ending with
      | endWrite error =>
        refine .inl ⟨by rw [herror]; rfl, ?_⟩
        rcases hempty with hempty | hreading
        · rw [horder, hempty, List.append_nil]
        · rw [isReadingEnded, hcase] at hreading
          cases hreading
      | ended error =>
        refine .inr ⟨by rw [herror]; rfl, ?_⟩
        rw [horder]
        exact List.prefix_append _ _
  refine ⟨conclusion state.error, ?_⟩
  unfold conclude
  split
  · rename_i error herror
    rw [herror] at hcloses ⊢
    exact @ended_finalize _ _ _ { state with error := none } _ hclean h.answered hreader rfl hcloses
  · rename_i herror
    rw [herror] at hcloses ⊢
    exact ended_finalize hclean h.answered hreader rfl hcloses

theorem isSome_of_isReadingEnded (hended : state.isReadingEnded = true) :
    state.ending.isSome = true := by
  unfold isReadingEnded at hended
  split at hended
  · rename_i hending
    rw [hending]
    rfl
  · cases hended

/-- The generator yields an item. -/
theorem running_yielding (h : state.Steady bufferSize isError [])
    (hreader : state.readGate.calls = []) (hrequests : state.requests ≠ 0) {item : Item}
    {rest : List Item} (hbuffer : state.buffer = item :: rest) (hitem : isError item = false) :
    Running bufferSize isError { updateWriteGate bufferSize { state with buffer := rest } with
      position := .yielding item } where
  steady := {
    order := by
      have horder := h.order
      rw [hbuffer] at horder
      exact horder
    clean := by
      intro other hmem
      rcases List.mem_append.mp hmem with hdelivered | hflight
      · exact h.clean other (List.mem_append_left _ hdelivered)
      · rw [List.mem_singleton.mp hflight]
        exact hitem
    answered := h.answered
    writeLocked := (Gate.isLocked_setOpenState _ _).trans h.writeLocked
    readLocked := h.readLocked
    error := h.error
    full := full_updateWriteGate _
    empty := fun hwaiting ↦ absurd (hbuffer ▸ (h.empty hwaiting).1) (List.cons_ne_nil _ _) }
  running := nofun
  idle := iff_of_false hrequests (by rintro (hposition | hposition) <;> cases hposition)
  reader := hreader
  woken := by
    rintro (⟨ok, hposition⟩ | ⟨hposition, -⟩)
    · cases hposition
    · cases hposition
  refused := nofun

/-- The generator waits for an item. -/
theorem running_awaiting (h : state.Steady bufferSize isError [])
    (hreader : state.readGate.calls = []) (hrequests : state.requests ≠ 0)
    (hempty : state.buffer = []) (hnone : state.ending = none) :
    Running bufferSize isError { state with
      readGate := ⟨.pending (state.readGate.waiting ++ [()]), state.readGate.released⟩
      position := .awaiting } where
  steady := {
    order := h.order
    clean := h.clean
    answered := h.answered
    writeLocked := h.writeLocked
    readLocked := by
      show false = isReadingEnded _
      rw [isReadingEnded, hnone]
    error := h.error
    full := h.full
    empty := fun _ ↦ ⟨hempty, hnone⟩ }
  running := nofun
  idle := iff_of_false hrequests (by rintro (hposition | hposition) <;> cases hposition)
  reader := by
    show state.readGate.released ++ (state.readGate.waiting ++ [()]) = [()]
    rw [← List.append_assoc]
    exact congrArg (· ++ [()]) hreader
  woken := by
    rintro (⟨ok, hposition⟩ | ⟨-, hwaiting⟩)
    · cases hposition
    · exact absurd hwaiting (List.append_ne_nil_of_right_ne_nil _ (List.cons_ne_nil _ _))
  refused := nofun

/-- The generator waits only where there is nothing to read and nothing was ended. -/
theorem Steady.nothing_to_do {flight : List Item} (h : state.Steady bufferSize isError flight)
    (hnotReading : ∀ item rest, state.buffer = item :: rest → state.readGate.isLocked = false →
      False)
    (hwritten : ¬ (state.buffer = [] ∧ state.writeGate.isLocked = true))
    (hdone : ¬ state.isDone = true) :
    state.readGate.isLocked = false ∧ state.buffer = [] ∧ state.ending = none := by
  have hunlocked : state.readGate.isLocked = false := by
    by_contra hlocked
    rw [Bool.not_eq_false] at hlocked
    refine hdone (Bool.and_eq_true_iff.mpr ⟨?_, hlocked⟩)
    rw [h.writeLocked]
    exact isSome_of_isReadingEnded (h.readLocked.symm.trans hlocked)
  have hempty : state.buffer = [] := by
    by_contra hne
    obtain ⟨item, rest, hcons⟩ := List.exists_cons_of_ne_nil hne
    exact hnotReading item rest hcons hunlocked
  refine ⟨hunlocked, hempty, ?_⟩
  by_contra hsome
  refine hwritten ⟨hempty, ?_⟩
  rw [h.writeLocked]
  exact Option.isSome_iff_ne_none.mpr hsome

/-- The generator reads on. -/
theorem sound_read (h : state.Steady bufferSize isError [])
    (hreader : state.readGate.calls = []) (hrequests : state.requests ≠ 0) :
    (state.read bufferSize isError).Sound bufferSize isError := by
  have hclean : ∀ item ∈ state.delivered, isError item = false := fun item hmem ↦
    h.clean item (List.mem_append_left _ hmem)
  have horder : state.pushed = state.delivered ++ state.buffer := h.order
  unfold read
  split
  · rename_i item rest hbuffer hunlocked
    rw [hbuffer] at horder
    dsimp only
    split_ifs with hitem
    · refine .inr ⟨_, ended_finalize hclean h.answered hreader rfl (.inl ⟨item, rfl, hitem, ?_⟩)⟩
      show state.delivered ++ [item] <+: state.pushed
      exact ⟨rest, by rw [horder, List.append_assoc]; rfl⟩
    · refine .inl (running_yielding h hreader hrequests hbuffer ?_)
      exact Bool.eq_false_iff.mpr hitem
  · rename_i hnotReading
    split_ifs with hwritten hdone
    · refine .inr (ended_conclude h hreader ?_ (.inl hwritten.1))
      exact Option.isSome_iff_ne_none.mp (h.writeLocked.symm.trans hwritten.2)
    · obtain ⟨hwrite, hread⟩ := Bool.and_eq_true_iff.mp hdone
      refine .inr (ended_conclude h hreader ?_ (.inr (h.readLocked.symm.trans hread)))
      exact Option.isSome_iff_ne_none.mp (h.writeLocked.symm.trans hwrite)
    · obtain ⟨hunlocked, hempty, hnone⟩ := h.nothing_to_do hnotReading hwritten hdone
      rw [Gate.check_closed hunlocked]
      exact .inl (running_awaiting h hreader hrequests hempty hnone)

theorem sound_iterate (h : state.Steady bufferSize isError [])
    (hreader : state.readGate.calls = []) (hrequests : state.requests ≠ 0) :
    (state.iterate bufferSize isError).Sound bufferSize isError := by
  unfold iterate
  split_ifs with hlocked
  · have hended := h.readLocked.symm.trans hlocked
    have hsome := Option.isSome_iff_ne_none.mp (isSome_of_isReadingEnded hended)
    exact .inr (ended_conclude h hreader hsome (.inr hended))
  · exact sound_read h hreader hrequests

/-! ### Events -/

/-- Where the generator is neither at a `yield` nor in `check`. -/
theorem Running.steady_nil (h : state.Running bufferSize isError) (hflight : state.inFlight = []) :
    state.Steady bufferSize isError [] := hflight ▸ h.steady

/-- A call of `next` behind the end of the generator. -/
theorem Ended.done {last : Outcome Item Failure} (h : state.Ended isError last) :
    Ended isError last { state with outcomes := state.outcomes ++ [.done] } := by
  obtain ⟨count, houtcomes⟩ := h.answered
  have hdelivered : delivered { state with outcomes := state.outcomes ++ [.done] } =
      state.delivered := filterMap_item?_done state.outcomes 1
  exact { h with
    answered := by
      refine ⟨count + 1, ?_⟩
      rw [hdelivered, List.replicate_succ', ← List.cons_append, ← List.append_assoc, ← houtcomes]
    clean := hdelivered ▸ h.clean
    closes := by
      rw [Closes, hdelivered]
      exact h.closes }

/-- The generator has not returned where its position says so. -/
theorem Sound.running (h : state.Sound bufferSize isError)
    (hrunning : ∀ last, state.position ≠ .finished last) : state.Running bufferSize isError :=
  h.resolve_right fun ⟨last, hended⟩ ↦ hrunning last hended.finished

theorem sound_next (h : state.Sound bufferSize isError) :
    (state.next bufferSize isError).Sound bufferSize isError := by
  unfold next
  split
  · rename_i hposition
    have hrunning := h.running fun last heq ↦ nomatch hposition.symm.trans heq
    have hsteady := hrunning.steady_nil (by rw [inFlight, hposition])
    have hreader := hrunning.reader
    rw [hposition] at hreader
    exact sound_iterate { hsteady with } hreader (Nat.succ_ne_zero _)
  · rename_i hposition
    have hrunning := h.running fun last heq ↦ nomatch hposition.symm.trans heq
    have hsteady := hrunning.steady_nil (by rw [inFlight, hposition])
    have hreader := hrunning.reader
    rw [hposition] at hreader
    exact sound_read { hsteady with } hreader (Nat.succ_ne_zero _)
  · rename_i last hposition
    rcases h with hrunning | ⟨other, hended⟩
    · exact absurd hposition (hrunning.running last)
    · exact .inr ⟨other, hended.done⟩
  · rename_i hnotStarted hsuspended hfinished
    have hrunning := h.running hfinished
    refine .inl { hrunning with
      steady := { hrunning.steady with }
      idle := iff_of_false (Nat.succ_ne_zero _) ?_ }
    exact not_or.mpr ⟨hnotStarted, hsuspended⟩

theorem sound_answer (h : state.Running bufferSize isError) {item : Item}
    (hposition : state.position = .yielding item) :
    (state.answer bufferSize isError item).Sound bufferSize isError := by
  have hflight : state.inFlight = [item] := by rw [inFlight, hposition]
  have hsteady := h.steady
  rw [hflight] at hsteady
  have hreader := h.reader
  rw [hposition] at hreader
  have hanswered : Steady bufferSize isError [] { state with
      outcomes := state.outcomes ++ [.item item]
      requests := state.requests - 1 } := by
    have hdelivered : delivered { state with
        outcomes := state.outcomes ++ [.item item]
        requests := state.requests - 1 } = state.delivered ++ [item] := List.filterMap_append
    refine { hsteady with
      order := ?_
      clean := ?_
      answered := ?_ }
    · rw [hdelivered, hsteady.order, List.append_assoc]
      rfl
    · rw [hdelivered, List.append_nil]
      exact hsteady.clean
    · rw [hdelivered, List.map_append, ← hsteady.answered]
      rfl
  unfold answer
  dsimp only
  split_ifs with hrequests
  · refine .inl {
      steady := { hanswered with }
      running := nofun
      idle := iff_of_true hrequests (.inr rfl)
      reader := hreader
      woken := ?_
      refused := nofun }
    rintro (⟨ok, hchecked⟩ | ⟨hawaiting, -⟩)
    · cases hchecked
    · cases hawaiting
  · exact sound_read hanswered hreader hrequests

/-- A call of `push` while the buffer is writable. -/
theorem push_of_isWritable (hwritable : state.isWritable = true) (item : Item) :
    ∃ (writeGate : Gate ℕ) (results : List (ℕ × Bool)), state.push bufferSize item = { state with
        buffer := state.buffer ++ [item]
        writeGate := writeGate
        readGate := state.readGate.opened
        pushCalls := state.pushCalls + 1
        results := results
        pushed := state.pushed ++ [item] } ∧
      writeGate.isLocked = false ∧
      (writeGate.waiting ≠ [] → bufferSize ≤ (state.buffer ++ [item]).length) ∧
      (writeGate.calls ++ results.map Prod.fst).Perm
        (state.writeGate.calls ++ state.results.map Prod.fst ++ [state.pushCalls]) := by
  have hunlocked : state.writeGate.isLocked = false :=
    Bool.not_eq_true' _ ▸ (Bool.and_eq_true_iff.mp hwritable).1
  unfold push
  rw [if_neg (by rw [hwritable]; exact Bool.false_ne_true.symm)]
  by_cases hfull : bufferSize ≤ (state.buffer ++ [item]).length
  · have hgate : state.writeGate.setOpenState (!decide (bufferSize ≤
        (state.buffer ++ [item]).length)) = state.writeGate.closed := by
      rw [decide_eq_true hfull]
      rfl
    refine ⟨⟨.pending (state.writeGate.waiting ++ [state.pushCalls]), state.writeGate.released⟩,
      state.results, ?_, rfl, fun _ ↦ hfull, ?_⟩
    · dsimp only [updateWriteGate, isFull]
      rw [hgate, Gate.check_closed hunlocked]
    · show (state.writeGate.released ++ (state.writeGate.waiting ++ [state.pushCalls]) ++ _).Perm _
      rw [← List.append_assoc, List.append_assoc _ [state.pushCalls]]
      exact (List.perm_append_comm.append_left _).trans (List.append_assoc _ _ _ ▸ .refl _)
  · have hgate : state.writeGate.setOpenState (!decide (bufferSize ≤
        (state.buffer ++ [item]).length)) = state.writeGate.opened := by
      rw [decide_eq_false hfull]
      rfl
    refine ⟨state.writeGate.opened, state.results ++ [(state.pushCalls, true)], ?_, ?_,
      fun hwaiting ↦ absurd (Gate.waiting_opened _) hwaiting, ?_⟩
    · dsimp only [updateWriteGate, isFull]
      rw [hgate, Gate.check_opened, hunlocked]
      rfl
    · rw [Gate.isLocked_opened, hunlocked]
    · rw [Gate.calls_opened, List.map_append, ← List.append_assoc]
      exact .refl _

theorem Running.ending_eq_none (h : state.Running bufferSize isError)
    (hwritable : state.isWritable = true) : state.ending = none := by
  have hunlocked := (Bool.and_eq_true_iff.mp hwritable).1
  rw [h.steady.writeLocked, Bool.not_eq_true', Option.isSome_eq_false_iff,
    Option.isNone_iff_eq_none] at hunlocked
  exact hunlocked

theorem sound_push (h : state.Sound bufferSize isError) (item : Item) :
    (state.push bufferSize item).Sound bufferSize isError := by
  by_cases hwritable : state.isWritable = true
  · rcases h with hrunning | ⟨last, hended⟩
    · obtain ⟨writeGate, results, hpush, hunlocked, hfull, -⟩ :=
        @push_of_isWritable _ _ bufferSize _ hwritable item
      have hsteady := hrunning.steady
      have hnone := hrunning.ending_eq_none hwritable
      rw [hpush]
      refine .inl { hrunning with
        steady := { hsteady with
          order := ?_
          writeLocked := ?_
          readLocked := (Gate.isLocked_opened _).trans hsteady.readLocked
          full := hfull
          empty := fun hwaiting ↦ absurd (Gate.waiting_opened _) hwaiting }
        reader := (Gate.calls_opened _).trans hrunning.reader
        woken := fun _ ↦ .inl (List.append_ne_nil_of_right_ne_nil _ (List.cons_ne_nil _ _)) }
      · show state.pushed ++ [item] = _
        rw [hsteady.order, List.append_assoc, List.append_assoc]
        rfl
      · show writeGate.isLocked = state.ending.isSome
        rw [hunlocked, hnone]
        rfl
    · rw [isWritable, hended.writeLocked] at hwritable
      cases hwritable
  · have hpush : state.push bufferSize item = { state with
        pushCalls := state.pushCalls + 1
        results := state.results ++ [(state.pushCalls, false)] } := by
      rw [push, if_pos (Bool.eq_false_iff.mpr hwritable)]
    rw [hpush]
    rcases h with hrunning | ⟨last, hended⟩
    · exact .inl { hrunning with steady := { hrunning.steady with } }
    · exact .inr ⟨last, { hended with }⟩

/-- Where no call has ended the buffer, an item that is an error has. -/
theorem Closes.thrown {last : Outcome Item Failure} (h : state.Closes isError last)
    (hnone : state.ending = none) : ∃ item, last = .thrown item ∧ isError item = true ∧
      state.delivered ++ [item] <+: state.pushed := by
  rcases h with hthrown | ⟨error, -, ⟨hending, -⟩ | ⟨hending, -⟩⟩
  · exact hthrown
  · cases hnone.symm.trans hending
  · cases hnone.symm.trans hending

/-- Writing is ended, and no call has ended it before. -/
theorem sound_endWrite (h : state.Sound bufferSize isError) (hnone : state.ending = none)
    (error : Option Failure) : (state.endWrite error).Sound bufferSize isError := by
  rcases h with hrunning | ⟨last, hended⟩
  · have hsteady := hrunning.steady
    refine .inl { hrunning with
      steady := { hsteady with
        writeLocked := rfl
        readLocked := ?_
        error := ?_
        full := fun hwaiting ↦ absurd (Gate.waiting_lock _) hwaiting
        empty := fun hwaiting ↦ absurd (Gate.waiting_opened _) hwaiting }
      reader := (Gate.calls_opened _).trans hrunning.reader
      woken := fun _ ↦ .inr (Option.some_ne_none _)
      refused := fun hposition ↦ ?_ }
    · show state.readGate.opened.isLocked = false
      rw [Gate.isLocked_opened, hsteady.readLocked, isReadingEnded, hnone]
    · show state.error.or error = error
      rw [hsteady.error, hnone]
      rfl
    · have hreading := hrunning.refused hposition
      rw [isReadingEnded, hnone] at hreading
      cases hreading
  · refine .inr ⟨last, { hended with
      writeLocked := rfl
      readLocked := (Gate.isLocked_opened _).trans hended.readLocked
      reader := (Gate.calls_opened _).trans hended.reader
      closes := .inl (hended.closes.thrown hnone) }⟩

theorem sound_ended (h : state.Sound bufferSize isError) (hnone : state.ending = none)
    (error : Option Failure) : (state.ended error).Sound bufferSize isError := by
  rcases h with hrunning | ⟨last, hended⟩
  · have hsteady := hrunning.steady
    refine .inl { hrunning with
      steady := { hsteady with
        writeLocked := rfl
        readLocked := rfl
        error := ?_
        full := fun hwaiting ↦ absurd (Gate.waiting_lock _) hwaiting
        empty := fun hwaiting ↦ absurd (Gate.waiting_lock _) hwaiting }
      reader := (Gate.calls_lock _).trans hrunning.reader
      woken := fun _ ↦ .inr (Option.some_ne_none _)
      refused := fun _ ↦ rfl }
    show error.or state.error = error
    rw [hsteady.error, hnone]
    exact Option.or_none
  · refine .inr ⟨last, { hended with
      writeLocked := rfl
      readLocked := rfl
      reader := (Gate.calls_lock _).trans hended.reader
      closes := .inl (hended.closes.thrown hnone) }⟩

theorem sound_pushResumes (h : state.Sound bufferSize isError) (call : ℕ)
    (results : List (ℕ × Bool)) : Sound bufferSize isError { state with
      writeGate := (state.writeGate.resume call).1
      results := results } := by
  rcases h with hrunning | ⟨last, hended⟩
  · exact .inl { hrunning with steady := { hrunning.steady with } }
  · exact .inr ⟨last, { hended with }⟩

/-- Only in `check` is the generator released by the read gate. -/
theorem Running.position_of_released (h : state.Running bufferSize isError)
    (hreleased : () ∈ state.readGate.released) : state.position = .awaiting := by
  have hmem : () ∈ state.position.checks := h.reader ▸ List.mem_append_left _ hreleased
  unfold Position.checks at hmem
  split at hmem
  · assumption
  · cases hmem

theorem sound_checkResumes (h : state.Sound bufferSize isError)
    (hreleased : () ∈ state.readGate.released) : Sound bufferSize isError { state with
      readGate := (state.readGate.resume ()).1
      position := .checked (state.readGate.resume ()).2 } := by
  rcases h with hrunning | ⟨last, hended⟩
  · have hreader := hrunning.reader
    have hposition := hrunning.position_of_released hreleased
    rw [hposition, Gate.calls, Position.checks] at hreader
    obtain ⟨hwaiting, hone⟩ : state.readGate.waiting = [] ∧ state.readGate.released = [()] := by
      rcases List.append_eq_singleton_iff.mp hreader with ⟨hnil, -⟩ | ⟨hone, hnil⟩
      · rw [hnil] at hreleased
        cases hreleased
      · exact ⟨hnil, hone⟩
    have hsteady := hrunning.steady_nil (by rw [inFlight, hposition])
    refine .inl {
      steady := { hsteady with }
      running := by rintro _ ⟨⟩
      idle := iff_of_false (fun hrequests ↦ ?_) ?_
      reader := ?_
      woken := fun _ ↦ hrunning.woken (.inr ⟨hposition, hwaiting⟩)
      refused := fun hrefused ↦ ?_ }
    · rcases hrunning.idle.mp hrequests with hidle | hidle
      · cases hposition.symm.trans hidle
      · cases hposition.symm.trans hidle
    · rintro (hidle | hidle)
      · cases hidle
      · cases hidle
    · show state.readGate.released.erase () ++ state.readGate.waiting = []
      rw [hone, hwaiting]
      rfl
    · have hlocked : (!state.readGate.isLocked) = false := Position.checked.inj hrefused
      rw [Bool.not_eq_false'] at hlocked
      exact hsteady.readLocked.symm.trans hlocked
  · have hmem : () ∈ state.readGate.calls := List.mem_append_left _ hreleased
    rw [hended.reader] at hmem
    cases hmem

theorem Running.requests_ne_zero (h : state.Running bufferSize isError)
    (hnotStarted : state.position ≠ .notStarted) (hsuspended : state.position ≠ .suspended) :
    state.requests ≠ 0 :=
  fun hrequests ↦ (h.idle.mp hrequests).elim hnotStarted hsuspended

theorem sound_iterateResumes (h : state.Running bufferSize isError) {ok : Bool}
    (hposition : state.position = .checked ok) :
    (if ok then state.iterate bufferSize isError else state.conclude).Sound bufferSize isError := by
  have hreader := h.reader
  have hsteady := h.steady_nil (by rw [inFlight, hposition])
  rw [hposition] at hreader
  cases ok with
  | true =>
    refine sound_iterate hsteady hreader (h.requests_ne_zero ?_ ?_)
    · rw [hposition]
      exact nofun
    · rw [hposition]
      exact nofun
  | false =>
    have hended := h.refused hposition
    have hsome := Option.isSome_iff_ne_none.mp (isSome_of_isReadingEnded hended)
    exact .inr (ended_conclude hsteady hreader hsome (.inr hended))

/-- The buffer is ended at most once. -/
def Once (state : State Item Failure) : Event Item Failure → Prop
  | .endWrite _ => state.ending = none
  | .ended _ => state.ending = none
  | _ => True

theorem sound_step (h : state.Sound bufferSize isError) {event : Event Item Failure}
    (honce : state.Once event) (hstep : state.step bufferSize isError event = some after) :
    after.Sound bufferSize isError := by
  cases event with
  | push item =>
    cases hstep
    exact sound_push h item
  | next =>
    cases hstep
    exact sound_next h
  | endWrite error =>
    cases hstep
    exact sound_endWrite h honce error
  | ended error =>
    cases hstep
    exact sound_ended h honce error
  | pushResumes call =>
    simp only [step] at hstep
    split_ifs at hstep
    cases hstep
    exact sound_pushResumes h call _
  | yieldResumes =>
    simp only [step] at hstep
    split at hstep
    · rename_i item hposition
      cases hstep
      refine sound_answer (h.running fun last heq ↦ nomatch hposition.symm.trans heq) hposition
    · cases hstep
  | checkResumes =>
    simp only [step] at hstep
    split_ifs at hstep with hreleased
    cases hstep
    exact sound_checkResumes h hreleased
  | iterateResumes =>
    simp only [step] at hstep
    split at hstep
    · rename_i hposition
      cases hstep
      have hrunning := h.running fun last heq ↦ nomatch hposition.symm.trans heq
      exact sound_iterateResumes hrunning hposition
    · rename_i hposition
      cases hstep
      have hrunning := h.running fun last heq ↦ nomatch hposition.symm.trans heq
      exact sound_iterateResumes hrunning hposition
    · cases hstep

theorem sound_create : (create : State Item Failure).Sound bufferSize isError := by
  refine .inl {
    steady := ⟨rfl, nofun, rfl, rfl, rfl, rfl, fun hwaiting ↦ absurd rfl hwaiting,
      fun hwaiting ↦ absurd rfl hwaiting⟩
    running := nofun
    idle := iff_of_true rfl (.inl rfl)
    reader := rfl
    woken := ?_
    refused := nofun }
  rintro (⟨ok, hposition⟩ | ⟨hposition, -⟩)
  · cases hposition
  · cases hposition

end State

end PomboStorageNode.Sdk.PushBuffer
