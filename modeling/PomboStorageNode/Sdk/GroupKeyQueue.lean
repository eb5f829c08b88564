import PomboStorageNode.Library.OrderedMap
import PomboStorageNode.Library.Transition

/-!
# The keys of a publisher

`GroupKeyQueue.ts` has the key in use and a key that is queued to be rotated into use. `rotate` and
`rekey` store their key first and write their fields when that is done; `useGroupKey` makes a key by
a `rekey` of its own when there is none, and writes the fields again behind it. No rotation is lost
(`keepsRotations_of_reachable`) unless one is completed while `useGroupKey` waits for its own key:
both that `rekey` and the assignment behind it clear the queue, so the rotated key is neither queued
nor in use (`lost_rotation`).

The events are the calls and what happens behind their awaits. Between its start and its end a call
only uses the key store, which the queue does not read.
-/

set_option autoImplicit false

namespace PomboStorageNode.Sdk

open Library Library.Transition

variable {Key : Type}

/-! ### The queue -/

/-- `GroupKeySequence`. -/
structure GroupKeySequence (Key : Type) where
  current : Key
  next : Option Key
  deriving DecidableEq

/-- `GroupKeyQueue`. -/
structure GroupKeyQueue (Key : Type) where
  currentGroupKey : Option Key
  queuedGroupKey : Option Key
  deriving DecidableEq

namespace GroupKeyQueue

/-- The end of `rotate`. -/
def rotate (newKey : Key) (queue : GroupKeyQueue Key) : GroupKeyQueue Key :=
  { queue with queuedGroupKey := some newKey }

/-- The end of `rekey`. -/
def rekey (newKey : Key) : GroupKeyQueue Key := ⟨some newKey, none⟩

/-- The end of `useGroupKey`, with the current key: the result, and the rotation. -/
def sequence (current : Key) (queue : GroupKeyQueue Key) :
    GroupKeySequence Key × GroupKeyQueue Key :=
  (⟨current, queue.queuedGroupKey⟩,
    match queue.queuedGroupKey with
    | some queued => ⟨some queued, none⟩
    | none => queue)

/-- `useGroupKey` as far as it comes without waiting, or `none` when it makes a key. -/
def useGroupKey (queue : GroupKeyQueue Key) :
    Option (GroupKeySequence Key × GroupKeyQueue Key) :=
  match queue.currentGroupKey, queue.queuedGroupKey with
  | some current, _ => some (queue.sequence current)
  | none, some queued => some (sequence queued ⟨some queued, none⟩)
  | none, none => none

/-- `useGroupKey` behind its own `rekey`. -/
def useOwnKey (key : Key) : GroupKeySequence Key × GroupKeyQueue Key :=
  sequence key ⟨some key, none⟩

end GroupKeyQueue

/-! ### The calls -/

/-- A call of `rotate` or `rekey`. -/
inductive KeyCall
  | rotate
  | rekey
  deriving DecidableEq

/-- Where a call of `useGroupKey` is: there is none, it waits for its own `rekey`, or that has
returned a key. -/
inductive UseCall (Key : Type)
  | idle
  | rekeying
  | rekeyed (key : Key)

/-- What was completed: a call of `rotate` or `rekey`, the `rekey` of `useGroupKey`, or
`useGroupKey`. -/
inductive Completion (Key : Type)
  | rotated (key : Key)
  | rekeyed (key : Key)
  | ownRekeyed (key : Key)
  | used (result : GroupKeySequence Key)
  deriving DecidableEq

namespace Completion

/-- A call of `rotate` or `rekey` by a caller. -/
def byCaller : Completion Key → Bool
  | rotated _ | rekeyed _ => true
  | ownRekeyed _ | used _ => false

/-- A call of `useGroupKey`. -/
def isUse : Completion Key → Bool
  | used _ => true
  | rotated _ | rekeyed _ | ownRekeyed _ => false

/-- A key that was set by `rekey`, whoever called it. -/
def rekeys (key : Key) (completion : Completion Key) : Prop :=
  completion = rekeyed key ∨ completion = ownRekeyed key

end Completion

/-- A queue, the calls of `rotate` and `rekey` that have not ended with the key they were given, the
call of `useGroupKey`, and what was completed, the last first. -/
structure KeyUse (Key : Type) where
  queue : GroupKeyQueue Key
  calls : OrderedMap ℕ (KeyCall × Option Key)
  useCall : UseCall Key
  log : List (Completion Key)

namespace KeyUse

/-- What happens. A call that was given no key stores a generated one. -/
inductive Event (Key : Type)
  | call (id : ℕ) (kind : KeyCall) (newKey : Option Key)
  | stored (id : ℕ) (generated : Key)
  | failed (id : ℕ)
  | useGroupKey
  | ownStored (generated : Key)
  | ownFailed
  | ownReturned

/-- The end of a call of `useGroupKey`. -/
def finish (outcome : GroupKeySequence Key × GroupKeyQueue Key) (state : KeyUse Key) :
    KeyUse Key :=
  { state with queue := outcome.2, useCall := .idle, log := .used outcome.1 :: state.log }

/-- The end of a call of `rotate` or `rekey`. -/
def completeCall (kind : KeyCall) (newKey : Key) (state : KeyUse Key) : KeyUse Key :=
  match kind with
  | .rotate =>
    { state with queue := state.queue.rotate newKey, log := .rotated newKey :: state.log }
  | .rekey =>
    { state with queue := GroupKeyQueue.rekey newKey, log := .rekeyed newKey :: state.log }

/-- The state after an event, or `none` when it cannot happen. Calls of `useGroupKey` follow one
another. -/
def next (state : KeyUse Key) : Event Key → Option (KeyUse Key)
  | .call id kind newKey =>
    if state.calls.has id then none
    else some { state with calls := state.calls.set id (kind, newKey) }
  | .stored id generated =>
    match state.calls.get? id with
    | some (kind, newKey) =>
      some ({ state with calls := state.calls.delete id }.completeCall kind
        (newKey.getD generated))
    | none => none
  | .failed id =>
    if state.calls.has id then some { state with calls := state.calls.delete id } else none
  | .useGroupKey =>
    match state.useCall with
    | .idle =>
      match state.queue.useGroupKey with
      | some outcome => some (state.finish outcome)
      | none => some { state with useCall := .rekeying }
    | .rekeying | .rekeyed _ => none
  | .ownStored generated =>
    match state.useCall with
    | .rekeying =>
      some { state with
        queue := GroupKeyQueue.rekey generated
        useCall := .rekeyed generated
        log := .ownRekeyed generated :: state.log }
    | .idle | .rekeyed _ => none
  | .ownFailed =>
    match state.useCall with
    | .rekeying => some { state with useCall := .idle }
    | .idle | .rekeyed _ => none
  | .ownReturned =>
    match state.useCall with
    | .rekeyed key => some (state.finish (GroupKeyQueue.useOwnKey key))
    | .idle | .rekeying => none

/-- A queue as `createInstance` makes it, with the key it was given or has found. -/
def start (currentGroupKey : Option Key) : KeyUse Key :=
  ⟨⟨currentGroupKey, none⟩, .empty, .idle, []⟩

/-- The condition: nothing is queued when the `rekey` of `useGroupKey` ends, nor when `useGroupKey`
goes on behind it. -/
def keepsQueued (state : KeyUse Key) : Event Key → Bool
  | .ownStored _ | .ownReturned => state.queue.queuedGroupKey.isNone
  | .call .. | .stored .. | .failed _ | .useGroupKey | .ownFailed => true

/-! ### No rotation is lost -/

/-- The last call of `rotate` or `rekey` that was completed. -/
def lastCall (state : KeyUse Key) : Option (Completion Key) := state.log.find? Completion.byCaller

/-- Of two results that follow each other with different keys in use, the second key was announced by
the first, or set by a `rekey` in between. -/
def AnnouncesKeys (log : List (Completion Key)) : Prop :=
  ∀ newer between older first second,
    log = newer ++ .used second :: (between ++ .used first :: older) →
      (∀ completion ∈ between, completion.isUse = false) → first.current ≠ second.current →
        first.next = some second.current ∨
          ∃ completion ∈ between, completion.rekeys second.current

/-- What is to hold: when the last completed call is a rotation, its key is queued or in use, and
the results announce their keys. -/
structure KeepsRotations (state : KeyUse Key) : Prop where
  rotated : ∀ key, state.lastCall = some (.rotated key) →
    state.queue.queuedGroupKey = some key ∨ state.queue.currentGroupKey = some key
  announced : AnnouncesKeys state.log

/-- The key in use comes from the last result, or from a `rekey` behind it. -/
def FromLastResult (currentGroupKey : Option Key) (log : List (Completion Key)) : Prop :=
  ∀ newer older result, log = newer ++ .used result :: older →
    (∀ completion ∈ newer, completion.isUse = false) →
      ∃ key, currentGroupKey = some key ∧
        (result.current = key ∨ result.next = some key ∨
          ∃ completion ∈ newer, completion.rekeys key)

section Logs

variable {log : List (Completion Key)} {completion : Completion Key}
  {result : GroupKeySequence Key} {key : Key} {before after : Option Key}

theorem AnnouncesKeys.other (hlog : AnnouncesKeys log) (hother : completion.isUse = false) :
    AnnouncesKeys (completion :: log) := by
  intro newer between older first second hsplit hbetween hdiffers
  rcases List.cons_eq_append_iff.mp hsplit with ⟨-, hhead⟩ | ⟨rest, -, hrest⟩
  · have hsame := (List.cons.inj hhead).1
    rw [← hsame] at hother
    cases hother
  · exact hlog rest between older first second hrest hbetween hdiffers

theorem AnnouncesKeys.use (hlog : AnnouncesKeys log)
    (hcurrent : FromLastResult (some result.current) log) :
    AnnouncesKeys (.used result :: log) := by
  intro newer between older first second hsplit hbetween hdiffers
  rcases List.cons_eq_append_iff.mp hsplit with ⟨-, hhead⟩ | ⟨rest, -, hrest⟩
  · obtain ⟨hsame, hlast⟩ := List.cons.inj hhead
    cases hsame
    obtain ⟨key, hkey, hfrom⟩ := hcurrent between older first hlast.symm hbetween
    cases hkey
    exact hfrom.resolve_left hdiffers
  · exact hlog rest between older first second hrest hbetween hdiffers

theorem FromLastResult.other (hlog : FromLastResult before log)
    (hother : completion.isUse = false)
    (hcurrent : after = before ∨ ∃ key, after = some key ∧ completion.rekeys key) :
    FromLastResult after (completion :: log) := by
  intro newer older result hsplit hnewer
  rcases List.cons_eq_append_iff.mp hsplit with ⟨-, hhead⟩ | ⟨rest, hnew, hrest⟩
  · have hsame := (List.cons.inj hhead).1
    rw [← hsame] at hother
    cases hother
  · subst hnew
    rcases hcurrent with hsame | ⟨key, hset, hrekeys⟩
    · obtain ⟨key, hkey, hfrom⟩ := hlog rest older result hrest fun entry hentry ↦
        hnewer entry (List.mem_cons_of_mem _ hentry)
      refine ⟨key, hsame.trans hkey, hfrom.imp_right (Or.imp_right ?_)⟩
      exact fun ⟨entry, hentry, hrekeys⟩ ↦ ⟨entry, List.mem_cons_of_mem _ hentry, hrekeys⟩
    · exact ⟨key, hset, .inr (.inr ⟨completion, List.mem_cons_self, hrekeys⟩)⟩

theorem FromLastResult.use (hkey : result.current = key ∨ result.next = some key) :
    FromLastResult (some key) (.used result :: log) := by
  intro newer older last hsplit hnewer
  rcases List.cons_eq_append_iff.mp hsplit with ⟨-, hhead⟩ | ⟨rest, hnew, -⟩
  · have hsame := (List.cons.inj hhead).1
    cases hsame
    exact ⟨key, rfl, hkey.imp_right .inl⟩
  · have hused := hnewer (.used result) (hnew ▸ List.mem_cons_self)
    cases hused

end Logs

/-- The invariant: a queued key is that of the last completed call; while `useGroupKey` waits, no
rotation is in use already and there is no result; and the key in use comes from the last result. -/
structure Invariant (state : KeyUse Key) : Prop where
  rotated : ∀ key, state.lastCall = some (.rotated key) →
    state.queue.queuedGroupKey = some key ∨ state.queue.currentGroupKey = some key
  queued : ∀ key, state.queue.queuedGroupKey = some key → state.lastCall = some (.rotated key)
  waiting : state.useCall = .idle ∨ (∀ key, state.lastCall = some (.rotated key) →
    state.queue.queuedGroupKey = some key) ∧ ∀ completion ∈ state.log, completion.isUse = false
  current : FromLastResult state.queue.currentGroupKey state.log
  announced : AnnouncesKeys state.log

variable {state after : KeyUse Key}

theorem invariant_start (currentGroupKey : Option Key) : Invariant (start currentGroupKey) where
  rotated := fun _ himpossible ↦ nomatch himpossible
  queued := fun _ himpossible ↦ nomatch himpossible
  waiting := .inl rfl
  current := fun newer _ _ himpossible ↦ by cases newer <;> cases himpossible
  announced := fun newer _ _ _ _ himpossible ↦ by cases newer <;> cases himpossible

/-- No result was given, so none is to be announced. -/
theorem fromLastResult_of_unused {log : List (Completion Key)} {currentGroupKey : Option Key}
    (hunused : ∀ completion ∈ log, completion.isUse = false) :
    FromLastResult currentGroupKey log := by
  intro newer older result hsplit
  have hused := hunused (.used result) (by simp [hsplit])
  cases hused

/-- Without a key in use, no result was given. -/
theorem unused_of_fromLastResult {log : List (Completion Key)} (hlog : FromLastResult none log) :
    ∀ completion ∈ log, completion.isUse = false := by
  have himpossible : ∀ newer older result, log = newer ++ Completion.used result :: older →
      ¬ ∀ completion ∈ newer, completion.isUse = false := by
    intro newer older result hsplit hnewer
    obtain ⟨key, hkey, -⟩ := hlog newer older result hsplit hnewer
    cases hkey
  clear hlog
  induction log with
  | nil => exact fun _ hmem ↦ nomatch hmem
  | cons head rest ih =>
    have hhead : head.isUse = false := by
      cases head with
      | used result => exact absurd (fun _ hmem ↦ nomatch hmem) (himpossible [] rest result rfl)
      | rotated key | rekeyed key | ownRekeyed key => rfl
    refine List.forall_mem_cons.mpr ⟨hhead, ih fun newer older result hsplit hnewer ↦ ?_⟩
    exact himpossible (head :: newer) older result (congrArg (head :: ·) hsplit)
      (List.forall_mem_cons.mpr ⟨hhead, hnewer⟩)

/-- Assumes: the invariant. The end of a call of `rotate` or `rekey` keeps it. -/
theorem Invariant.completeCall (hinvariant : Invariant state) (kind : KeyCall) (newKey : Key) :
    Invariant (state.completeCall kind newKey) := by
  cases kind with
  | rotate =>
    refine ⟨?_, ?_, ?_, hinvariant.current.other rfl (.inl rfl), hinvariant.announced.other rfl⟩
    · intro key hkey
      cases hkey
      exact .inl rfl
    · intro key hkey
      cases hkey
      rfl
    · refine hinvariant.waiting.imp_right fun ⟨_, hunused⟩ ↦ ⟨fun key hkey ↦ ?_, ?_⟩
      · cases hkey
        rfl
      · exact List.forall_mem_cons.mpr ⟨rfl, hunused⟩
  | rekey =>
    refine ⟨?_, ?_, ?_, hinvariant.current.other rfl (.inr ⟨newKey, rfl, .inl rfl⟩),
      hinvariant.announced.other rfl⟩
    · exact fun key hkey ↦ nomatch hkey
    · exact fun key hkey ↦ nomatch hkey
    · refine hinvariant.waiting.imp_right fun ⟨_, hunused⟩ ↦ ⟨fun key hkey ↦ (nomatch hkey), ?_⟩
      exact List.forall_mem_cons.mpr ⟨rfl, hunused⟩

/-- Assumes: the invariant, and `useGroupKey` with a key in use. -/
theorem Invariant.finish {current : Key} {queue : GroupKeyQueue Key} (hinvariant : Invariant state)
    (hcurrent : queue.currentGroupKey = some current)
    (hlast : ∀ key, state.lastCall = some (.rotated key) →
      queue.queuedGroupKey = some key ∨ queue.currentGroupKey = some key)
    (hqueued : ∀ key, queue.queuedGroupKey = some key → state.lastCall = some (.rotated key))
    (hfrom : FromLastResult (some current) state.log) :
    Invariant (state.finish (queue.sequence current)) := by
  cases hnext : queue.queuedGroupKey with
  | none =>
    have hresult : queue.sequence current = (⟨current, none⟩, queue) := by
      rw [GroupKeyQueue.sequence, hnext]
    rw [hresult]
    refine ⟨hlast, hqueued, .inl rfl, ?_, hinvariant.announced.use hfrom⟩
    exact hcurrent ▸ FromLastResult.use (.inl rfl)
  | some queued =>
    have hresult : queue.sequence current = (⟨current, some queued⟩, ⟨some queued, none⟩) := by
      rw [GroupKeyQueue.sequence, hnext]
    rw [hresult]
    refine ⟨fun key hkey ↦ .inr ?_, fun key hkey ↦ (nomatch hkey), .inl rfl,
      FromLastResult.use (.inr rfl), hinvariant.announced.use hfrom⟩
    have hsame := (hqueued queued hnext).symm.trans hkey
    cases hsame
    rfl

/-- Assumes: the invariant, and an event that meets the condition. -/
theorem Invariant.next {event : Event Key} (hinvariant : Invariant state)
    (hkeeps : state.keepsQueued event = true) (hnext : state.next event = some after) :
    Invariant after := by
  cases event with
  | call id kind newKey =>
    rw [KeyUse.next] at hnext
    split_ifs at hnext
    cases hnext
    exact ⟨hinvariant.rotated, hinvariant.queued, hinvariant.waiting, hinvariant.current,
      hinvariant.announced⟩
  | stored id generated =>
    rw [KeyUse.next] at hnext
    split at hnext
    · rename_i kind newKey hcall
      cases hnext
      have hwithout : Invariant { state with calls := state.calls.delete id } :=
        ⟨hinvariant.rotated, hinvariant.queued, hinvariant.waiting, hinvariant.current,
          hinvariant.announced⟩
      exact hwithout.completeCall kind (newKey.getD generated)
    · cases hnext
  | failed id =>
    rw [KeyUse.next] at hnext
    split_ifs at hnext
    cases hnext
    exact ⟨hinvariant.rotated, hinvariant.queued, hinvariant.waiting, hinvariant.current,
      hinvariant.announced⟩
  | useGroupKey =>
    rw [KeyUse.next] at hnext
    split at hnext
    · cases hcurrent : state.queue.currentGroupKey with
      | some current =>
        have huse : state.queue.useGroupKey = some (state.queue.sequence current) := by
          rw [GroupKeyQueue.useGroupKey, hcurrent]
        rw [huse] at hnext
        cases hnext
        exact hinvariant.finish hcurrent hinvariant.rotated hinvariant.queued
          (hcurrent ▸ hinvariant.current)
      | none =>
        have hunused : ∀ completion ∈ state.log, completion.isUse = false :=
          unused_of_fromLastResult (hcurrent ▸ hinvariant.current)
        cases hqueued : state.queue.queuedGroupKey with
        | some queued =>
          have huse : state.queue.useGroupKey =
              some (GroupKeyQueue.sequence queued ⟨some queued, none⟩) := by
            rw [GroupKeyQueue.useGroupKey, hcurrent, hqueued]
          rw [huse] at hnext
          cases hnext
          refine hinvariant.finish rfl (fun key hkey ↦ .inr ?_) (fun key hkey ↦ nomatch hkey)
            (fromLastResult_of_unused hunused)
          have hsame := (hinvariant.queued queued hqueued).symm.trans hkey
          cases hsame
          rfl
        | none =>
          have huse : state.queue.useGroupKey = none := by
            rw [GroupKeyQueue.useGroupKey, hcurrent, hqueued]
          rw [huse] at hnext
          cases hnext
          refine ⟨hinvariant.rotated, hinvariant.queued, .inr ⟨fun key hkey ↦ ?_, hunused⟩,
            hinvariant.current, hinvariant.announced⟩
          have hlost := hinvariant.rotated key hkey
          rw [hcurrent, hqueued] at hlost
          rcases hlost with himpossible | himpossible <;> cases himpossible
    · cases hnext
    · cases hnext
  | ownStored generated =>
    rw [KeyUse.next] at hnext
    split at hnext
    · rename_i hcall
      cases hnext
      obtain ⟨hlast, hunused⟩ := hinvariant.waiting.resolve_left (by rw [hcall]; nofun)
      have hnone : ∀ key, state.lastCall ≠ some (.rotated key) := by
        intro key hkey
        have hqueued := hlast key hkey
        rw [Option.isNone_iff_eq_none.mp hkeeps] at hqueued
        cases hqueued
      have hunused' : ∀ completion ∈ Completion.ownRekeyed generated :: state.log,
          completion.isUse = false := List.forall_mem_cons.mpr ⟨rfl, hunused⟩
      exact ⟨fun key hkey ↦ absurd hkey (hnone key), fun key hkey ↦ (nomatch hkey),
        .inr ⟨fun key hkey ↦ absurd hkey (hnone key), hunused'⟩,
        fromLastResult_of_unused hunused', hinvariant.announced.other rfl⟩
    · cases hnext
    · cases hnext
  | ownFailed =>
    rw [KeyUse.next] at hnext
    split at hnext
    · cases hnext
      exact ⟨hinvariant.rotated, hinvariant.queued, .inl rfl, hinvariant.current,
        hinvariant.announced⟩
    · cases hnext
    · cases hnext
  | ownReturned =>
    rw [KeyUse.next] at hnext
    split at hnext
    · rename_i key hcall
      cases hnext
      obtain ⟨hlast, hunused⟩ := hinvariant.waiting.resolve_left (by rw [hcall]; nofun)
      refine hinvariant.finish rfl (fun rotated hrotated ↦ ?_)
        (fun rotated himpossible ↦ nomatch himpossible) (fromLastResult_of_unused hunused)
      have hqueued := hlast rotated hrotated
      rw [Option.isNone_iff_eq_none.mp hkeeps] at hqueued
      cases hqueued
    · cases hnext
    · cases hnext

/-- In every run whose steps meet the condition, no rotation is lost. -/
theorem keepsRotations_of_reachable {currentGroupKey : Option Key}
    (hreachable : Reachable next (fun state event ↦ state.keepsQueued event = true)
      (· = start currentGroupKey) state) :
    KeepsRotations state := by
  have hinvariant : Invariant state :=
    hreachable.invariant (fun _ hstart ↦ hstart ▸ invariant_start currentGroupKey)
      fun _ _ _ _ hbefore hkeeps hnext ↦ hbefore.next hkeeps hnext
  exact ⟨hinvariant.rotated, hinvariant.announced⟩

/-- A run in which `useGroupKey` makes a key of its own and a rotation is used behind it. -/
def rotatedRun : Option (KeyUse ℕ) :=
  checkedRun next keepsQueued (start none)
    [.useGroupKey, .ownStored 0, .ownReturned, .call 0 .rotate (some 1), .stored 0 7, .useGroupKey,
      .useGroupKey]

/-- That run keeps its rotation, which is in use at the end. -/
theorem rotation_in_use : ∃ state, rotatedRun = some state ∧
    state.queue.currentGroupKey = some 1 ∧ KeepsRotations state := by
  obtain ⟨state, hrun, hcurrent⟩ : ∃ state, rotatedRun = some state ∧
      decide (state.queue.currentGroupKey = some 1) = true :=
    (Option.any_eq_true _ _).mp (by decide)
  exact ⟨state, hrun, of_decide_eq_true hcurrent,
    keepsRotations_of_reachable (Reachable.of_checkedRun _ (fun _ _ hcheck ↦ hcheck)
      (.start rfl) hrun)⟩

/-- A run in which a rotation is completed while `useGroupKey` waits for its own key. -/
def lostRun : Option (KeyUse ℕ) :=
  run next (start none)
    [.useGroupKey, .call 0 .rotate (some 1), .stored 0 7, .ownStored 0, .ownReturned]

/-- The rotated key is neither queued nor in use behind that run. -/
theorem lost_rotation : ¬ ∀ (currentGroupKey : Option ℕ) state,
    Reachable next (fun _ _ ↦ True) (· = start currentGroupKey) state → KeepsRotations state := by
  intro hall
  obtain ⟨state, hrun, hlost⟩ : ∃ state, lostRun = some state ∧
      (decide (state.lastCall = some (.rotated 1)) &&
        decide (state.queue = ⟨some 0, none⟩)) = true :=
    (Option.any_eq_true _ _).mp (by decide)
  obtain ⟨hlast, hqueue⟩ := Bool.and_eq_true_iff.mp hlost
  have hreachable : Reachable next (fun _ _ ↦ True) (· = start none) state :=
    Reachable.of_run _ (fun _ _ _ ↦ trivial) (.start rfl) hrun
  have hkept := (hall none state hreachable).rotated 1 (of_decide_eq_true hlast)
  rw [of_decide_eq_true hqueue] at hkept
  rcases hkept with himpossible | himpossible <;> cases himpossible

end KeyUse

end PomboStorageNode.Sdk
