import Mathlib.Tactic.SplitIfs

/-!
# Computations that may throw

A computation on a state that may throw keeps the changes it made before it threw: `exec` gives the
outcome together with the state behind it. The simp lemmas execute the steps of a computation.
`Keeps` says that a computation never changes one view of the state, however it ends, and `Ensures`
that what it returns satisfies a postcondition; both are proved of a computation from its parts. A
loop goes through all items exactly when its body throws for none of them (`exec_forM_ok_iff`).
`bind_eq_ok_iff` takes apart a computation without a state that did not throw.
-/

set_option autoImplicit false

namespace PomboStorageNode.Library

variable {Error State Value Result View : Type}

/-- Two steps in a row succeed exactly if the second one succeeds on what the first one returns. -/
theorem bind_eq_ok_iff {first : Except Error Value} {second : Value → Except Error Result}
    {result : Result} :
    (first >>= second) = .ok result ↔ ∃ value, first = .ok value ∧ second value = .ok result := by
  cases first with
  | error error => simp [bind, Except.bind]
  | ok value => simp [bind, Except.bind]

/-- A computation on a state that may throw. -/
abbrev Throwing (Error State Value : Type) := ExceptT Error (StateM State) Value

namespace Throwing

/-- The outcome of a computation and the state behind it. -/
def exec (computation : Throwing Error State Value) (state : State) :
    Except Error Value × State :=
  computation.run.run state

@[simp] theorem exec_pure (value : Value) (state : State) :
    exec (pure value : Throwing Error State Value) state = (.ok value, state) := rfl

@[simp] theorem exec_get (state : State) :
    exec (get : Throwing Error State State) state = (.ok state, state) := rfl

@[simp] theorem exec_modify (change : State → State) (state : State) :
    exec (modify change : Throwing Error State PUnit) state = (.ok ⟨⟩, change state) := rfl

/-- The steps of a computation are executed one after the other, until one of them throws. -/
theorem exec_bind (first : Throwing Error State Value)
    (second : Value → Throwing Error State Result) (state : State) :
    exec (first >>= second) state = match exec first state with
      | (.ok value, next) => exec (second value) next
      | (.error error, next) => (.error error, next) := by
  show (ExceptT.bindCont second (exec first state).1).run (exec first state).2 = _
  rcases exec first state with ⟨_ | _, _⟩ <;> rfl

/-- Two steps in a row that did not throw. -/
theorem exec_bind_ok {first : Throwing Error State Value}
    {second : Value → Throwing Error State Result} {state after : State} {result : Result}
    (hexec : exec (first >>= second) state = (.ok result, after)) :
    ∃ value middle, exec first state = (.ok value, middle) ∧
      exec (second value) middle = (.ok result, after) := by
  rw [exec_bind] at hexec
  generalize exec first state = outcome at hexec
  obtain ⟨_ | value, middle⟩ := outcome
  · cases hexec
  · exact ⟨value, middle, rfl, hexec⟩

/-- A computation whose errors are renamed succeeds as the computation does. -/
theorem exec_adapt_ok {Other : Type} {rename : Error → Other}
    {computation : Throwing Error State Value} {state after : State} {value : Value}
    (hexec : exec (ExceptT.adapt rename computation : Throwing Other State Value) state =
      (.ok value, after)) : exec computation state = (.ok value, after) := by
  have hadapt : exec (ExceptT.adapt rename computation : Throwing Other State Value) state =
      ((exec computation state).1.mapError rename, (exec computation state).2) := rfl
  rw [hadapt, Prod.mk.injEq] at hexec
  obtain ⟨hvalue, rfl⟩ := hexec
  generalize hresult : exec computation state = result at hvalue
  obtain ⟨_ | found, next⟩ := result
  · cases hvalue
  · cases hvalue
    rfl

/-- The handler continues behind the changes that were made before the error was thrown. -/
theorem exec_tryCatch (body : Throwing Error State Value)
    (handler : Error → Throwing Error State Value) (state : State) :
    exec (tryCatch body handler) state = match exec body state with
      | (.ok value, next) => (.ok value, next)
      | (.error error, next) => exec (handler error) next := by
  unfold exec
  show (match (body.run.run state).1 with
    | .ok value => (pure (.ok value) : StateM State (Except Error Value))
    | .error error => handler error).run (body.run.run state).2 = _
  rcases body.run.run state with ⟨_ | _, _⟩ <;> rfl

/-- A loop whose body throws for some items, and updates the state for the others, goes through all
the items if and only if it meets none of the former. -/
theorem exec_forM_ok_iff {Item : Type} {body : Item → Throwing Error State PUnit}
    {accepts : Item → Prop} {update : State → Item → State} {items : List Item}
    {state after : State}
    (haccepts : ∀ state item, accepts item → exec (body item) state = (.ok ⟨⟩, update state item))
    (hthrows : ∀ state item, ¬accepts item →
      ∃ error after, exec (body item) state = (.error error, after)) :
    exec (items.forM body) state = (.ok ⟨⟩, after) ↔
      (∀ item ∈ items, accepts item) ∧ after = items.foldl update state := by
  induction items generalizing state with
  | nil =>
    refine ⟨fun hexec ↦ ⟨nofun, (congrArg Prod.snd hexec).symm⟩, ?_⟩
    rintro ⟨-, rfl⟩
    rfl
  | cons item items ih =>
    have hloop : exec ((item :: items).forM body) state =
        exec (body item >>= fun _ ↦ items.forM body) state := rfl
    rw [hloop, exec_bind, List.forall_mem_cons]
    by_cases haccepted : accepts item
    · rw [haccepts state item haccepted, and_iff_right haccepted]
      exact ih
    · obtain ⟨error, after, herror⟩ := hthrows state item haccepted
      rw [herror]
      exact iff_of_false nofun fun hall ↦ haccepted hall.1.1

/-- A computation keeps a view of the state, however it ends. -/
def Keeps (view : State → View) (computation : Throwing Error State Value) : Prop :=
  ∀ state, view (exec computation state).2 = view state

section Keeps

variable {view : State → View}

theorem Keeps.pure (value : Value) :
    Keeps view (Pure.pure value : Throwing Error State Value) := fun _ ↦ rfl

theorem Keeps.throw (error : Error) :
    Keeps view (MonadExcept.throw error : Throwing Error State Value) := fun _ ↦ rfl

theorem Keeps.get : Keeps view (MonadState.get : Throwing Error State State) := fun _ ↦ rfl

theorem Keeps.modify {change : State → State} (hchange : ∀ state, view (change state) = view state) :
    Keeps view (modify change : Throwing Error State PUnit) := hchange

theorem Keeps.bind {first : Throwing Error State Value}
    {second : Value → Throwing Error State Result} (hfirst : Keeps view first)
    (hsecond : ∀ value, Keeps view (second value)) : Keeps view (first >>= second) := by
  intro state
  have hview := hfirst state
  rw [exec_bind]
  generalize exec first state = outcome at hview
  obtain ⟨_ | value, next⟩ := outcome
  · exact hview
  · exact (hsecond value next).trans hview

theorem Keeps.ite {condition : Prop} [Decidable condition]
    {first second : Throwing Error State Value} (hfirst : Keeps view first)
    (hsecond : Keeps view second) : Keeps view (if condition then first else second) := by
  split_ifs
  · exact hfirst
  · exact hsecond

end Keeps

/-- What a computation returns satisfies a postcondition. -/
def Ensures (computation : Throwing Error State Value) (post : Value → Prop) : Prop :=
  ∀ state value next, exec computation state = (.ok value, next) → post value

section Ensures

variable {post : Value → Prop}

theorem Ensures.pure {value : Value} (hvalue : post value) :
    Ensures (Pure.pure value : Throwing Error State Value) post := by
  rintro state _ _ ⟨⟩
  exact hvalue

theorem Ensures.throw (error : Error) :
    Ensures (MonadExcept.throw error : Throwing Error State Value) post := by
  rintro state _ _ ⟨⟩

theorem Ensures.trivial (computation : Throwing Error State Value) :
    Ensures computation fun _ ↦ True := fun _ _ _ _ ↦ True.intro

theorem Ensures.bind {first : Throwing Error State Value}
    {second : Value → Throwing Error State Result} {behind : Result → Prop}
    (hfirst : Ensures first post) (hsecond : ∀ value, post value → Ensures (second value) behind) :
    Ensures (first >>= second) behind := by
  intro state result last hexec
  rw [exec_bind] at hexec
  have hpost := hfirst state
  generalize exec first state = outcome at hexec hpost
  obtain ⟨_ | value, next⟩ := outcome
  · cases hexec
  · exact hsecond value (hpost value next rfl) next result last hexec

theorem Ensures.ite {condition : Prop} [Decidable condition]
    {first second : Throwing Error State Value} (hfirst : condition → Ensures first post)
    (hsecond : ¬ condition → Ensures second post) :
    Ensures (if condition then first else second) post := by
  split_ifs with hcondition
  · exact hfirst hcondition
  · exact hsecond hcondition

end Ensures

end Throwing

end PomboStorageNode.Library
