import Mathlib.Data.List.Basic

/-!
# Tasks under a budget

Tasks are performed in order, each as a whole (`run`). A task that costs nothing in the present
state is skipped, and the first one that costs more than what is left of the budget ends the run.
Nothing that the tasks can change costs more than the budget in total (`measure_run_le`). Whether
anything happens at all is decided by the first task that costs something: the run performs it when
it fits into the budget (`run_of_firstFits`) and leaves the state as it is otherwise
(`run_of_not_firstFits`).
-/

set_option autoImplicit false

namespace PomboStorageNode.Library.Budget

variable {State Task : Type*} (cost : State → Task → ℕ) (perform : State → Task → State)

/-- The state after a run over the tasks, of whose budget a part is spent already. -/
def run (limit : ℕ) : List Task → State → ℕ → State
  | [], state, _ => state
  | task :: tasks, state, spent =>
    if cost state task = 0 then run limit tasks state spent
    else if limit < spent + cost state task then state
    else run limit tasks (perform state task) (spent + cost state task)

/-- The first of the tasks that costs something in this state fits into the budget. -/
def FirstFits (limit : ℕ) (tasks : List Task) (state : State) : Prop :=
  ∃ before first after, tasks = before ++ first :: after ∧
    (∀ task ∈ before, cost state task = 0) ∧ 0 < cost state first ∧ cost state first ≤ limit

variable {cost perform} {limit : ℕ} {tasks : List Task} {state : State} {spent : ℕ}

/-! ### Runs -/

/-- Nothing happens when the budget is spent. -/
theorem run_of_le (hle : limit ≤ spent) : run cost perform limit tasks state spent = state := by
  induction tasks with
  | nil => rfl
  | cons task tasks ih =>
    unfold run
    split_ifs with hzero
    · exact ih
    · rfl
    · omega

/-- What the tasks preserve holds after a run. -/
theorem run_induction {motive : State → Prop}
    (hperform : ∀ state, ∀ task ∈ tasks, motive state → motive (perform state task))
    (hstate : motive state) : motive (run cost perform limit tasks state spent) := by
  induction tasks generalizing state spent with
  | nil => exact hstate
  | cons task tasks ih =>
    have hrest := fun state other hother ↦ hperform state other (List.mem_cons_of_mem task hother)
    unfold run
    split_ifs
    · exact ih hrest hstate
    · exact hstate
    · exact ih hrest (hperform state task List.mem_cons_self hstate)

/-- A quantity that a task lowers by its cost at most is lowered by what is left of the budget at
most. -/
theorem measure_run_le {measure : State → ℕ}
    (hperform : ∀ state task, measure state ≤ measure (perform state task) + cost state task)
    (hle : spent ≤ limit) :
    measure state + spent ≤ measure (run cost perform limit tasks state spent) + limit := by
  induction tasks generalizing state spent with
  | nil => exact Nat.add_le_add_left hle _
  | cons task tasks ih =>
    unfold run
    split_ifs with hzero hlimit
    · exact ih hle
    · exact Nat.add_le_add_left hle _
    · have htask := hperform state task
      have hrest := @ih (perform state task) (spent + cost state task) (Nat.le_of_not_lt hlimit)
      omega

/-! ### The first task that costs something -/

theorem firstFits_cons_of_zero {task : Task} (hzero : cost state task = 0) :
    FirstFits cost limit (task :: tasks) state ↔ FirstFits cost limit tasks state := by
  constructor
  · rintro ⟨before, first, after, heq, hbefore, hpos, hle⟩
    cases before with
    | nil =>
      obtain ⟨rfl, -⟩ := List.cons.inj heq
      omega
    | cons other before =>
      exact ⟨before, first, after, (List.cons.inj heq).2,
        fun task htask ↦ hbefore task (List.mem_cons_of_mem other htask), hpos, hle⟩
  · rintro ⟨before, first, after, rfl, hbefore, hfirst⟩
    exact ⟨task :: before, first, after, rfl, List.forall_mem_cons.mpr ⟨hzero, hbefore⟩, hfirst⟩

theorem firstFits_cons_of_pos {task : Task} (hpos : 0 < cost state task) :
    FirstFits cost limit (task :: tasks) state ↔ cost state task ≤ limit := by
  constructor
  · rintro ⟨before, first, after, heq, hbefore, -, hle⟩
    cases before with
    | nil =>
      obtain ⟨rfl, -⟩ := List.cons.inj heq
      exact hle
    | cons other before =>
      obtain ⟨rfl, -⟩ := List.cons.inj heq
      exact absurd (hbefore task List.mem_cons_self) (Nat.ne_of_gt hpos)
  · exact fun hle ↦ ⟨[], task, tasks, rfl, nofun, hpos, hle⟩

/-- The first task that costs something is performed when it fits into the budget. -/
theorem run_of_firstFits (hfits : FirstFits cost limit tasks state) :
    ∃ first after, first ∈ tasks ∧ 0 < cost state first ∧ run cost perform limit tasks state 0 =
      run cost perform limit after (perform state first) (cost state first) := by
  obtain ⟨before, first, after, rfl, hbefore, hpos, hle⟩ := hfits
  refine ⟨first, after, by simp, hpos, ?_⟩
  induction before with
  | nil => rw [List.nil_append, run, if_neg (Nat.ne_of_gt hpos), Nat.zero_add, if_neg (by omega)]
  | cons task before ih =>
    obtain ⟨hzero, hbefore⟩ := List.forall_mem_cons.mp hbefore
    rw [List.cons_append, run, if_pos hzero, ih hbefore]

/-- Nothing happens when it does not, or when no task costs anything. -/
theorem run_of_not_firstFits (hfits : ¬ FirstFits cost limit tasks state) :
    run cost perform limit tasks state 0 = state := by
  induction tasks with
  | nil => rfl
  | cons task tasks ih =>
    rcases Nat.eq_zero_or_pos (cost state task) with hzero | hpos
    · rw [firstFits_cons_of_zero hzero] at hfits
      rw [run, if_pos hzero, ih hfits]
    · rw [firstFits_cons_of_pos hpos] at hfits
      rw [run, if_neg (Nat.ne_of_gt hpos), Nat.zero_add, if_pos (Nat.lt_of_not_le hfits)]

end PomboStorageNode.Library.Budget
