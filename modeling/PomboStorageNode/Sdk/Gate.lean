import Mathlib.Data.List.Basic

/-!
# Gates

`Gate.ts` of the client: a call of `check` waits while the gate is closed and learns, when it goes
on, whether the gate was locked. A gate that is locked is neither opened nor closed again. The calls
that wait for the pending promise are in the status of the gate; opening and locking resolve the
promise and so release them, and each goes on later, with `resume`. No change of a gate loses a call
(`calls_opened` and the lemmas behind it).
-/

set_option autoImplicit false

namespace PomboStorageNode.Sdk

/-- What a gate is: open, closed with a pending promise and the calls that await it, or locked. -/
inductive GateStatus (Call : Type)
  | free
  | pending (waiting : List Call)
  | locked

/-- `Gate`, with the calls of `check` whose promise is resolved and that have not gone on yet. -/
structure Gate (Call : Type) where
  status : GateStatus Call
  released : List Call

namespace Gate

variable {Call : Type}

/-- A new gate. -/
def create : Gate Call := ⟨.free, []⟩

/-- `isLocked`. -/
def isLocked (gate : Gate Call) : Bool :=
  match gate.status with
  | .locked => true
  | _ => false

/-- The calls that await the pending promise. -/
def waiting (gate : Gate Call) : List Call :=
  match gate.status with
  | .pending waiting => waiting
  | _ => []

/-- `open`. -/
def opened (gate : Gate Call) : Gate Call :=
  match gate.status with
  | .pending waiting => ⟨.free, gate.released ++ waiting⟩
  | _ => gate

/-- `lock`. -/
def lock (gate : Gate Call) : Gate Call := ⟨.locked, gate.released ++ gate.waiting⟩

/-- `close`. -/
def closed (gate : Gate Call) : Gate Call :=
  match gate.status with
  | .free => ⟨.pending [], gate.released⟩
  | _ => gate

/-- `setOpenState`. -/
def setOpenState (gate : Gate Call) (shouldBeOpen : Bool) : Gate Call :=
  if shouldBeOpen then gate.opened else gate.closed

/-- `check`, up to its wait: what it returns, or nothing when it waits. -/
def check (gate : Gate Call) (call : Call) : Gate Call × Option Bool :=
  match gate.status with
  | .pending waiting => (⟨.pending (waiting ++ [call]), gate.released⟩, none)
  | _ => (gate, some !gate.isLocked)

/-- A released call of `check` goes on; it returns whether the gate is not locked. -/
def resume [DecidableEq Call] (gate : Gate Call) (call : Call) : Gate Call × Bool :=
  (⟨gate.status, gate.released.erase call⟩, !gate.isLocked)

/-- The calls that have not returned. -/
def calls (gate : Gate Call) : List Call := gate.released ++ gate.waiting

variable (gate : Gate Call)

@[simp] theorem isLocked_opened : gate.opened.isLocked = gate.isLocked := by
  rcases gate with ⟨_ | _ | _, _⟩ <;> rfl

@[simp] theorem isLocked_closed : gate.closed.isLocked = gate.isLocked := by
  rcases gate with ⟨_ | _ | _, _⟩ <;> rfl

@[simp] theorem isLocked_setOpenState (shouldBeOpen : Bool) :
    (gate.setOpenState shouldBeOpen).isLocked = gate.isLocked := by
  unfold setOpenState
  split
  · exact isLocked_opened gate
  · exact isLocked_closed gate

@[simp] theorem waiting_opened : gate.opened.waiting = [] := by
  rcases gate with ⟨_ | _ | _, _⟩ <;> rfl

@[simp] theorem waiting_lock : gate.lock.waiting = [] := rfl

/-- A locked gate has no pending promise. -/
theorem waiting_of_isLocked {gate : Gate Call} (hlocked : gate.isLocked = true) :
    gate.waiting = [] := by
  unfold isLocked at hlocked
  unfold waiting
  split at hlocked
  · rename_i hstatus
    rw [hstatus]
  · cases hlocked

@[simp] theorem calls_opened : gate.opened.calls = gate.calls := by
  rcases gate with ⟨_ | _ | _, _⟩
  · rfl
  · exact List.append_nil _
  · rfl

@[simp] theorem calls_closed : gate.closed.calls = gate.calls := by
  rcases gate with ⟨_ | _ | _, _⟩ <;> rfl

@[simp] theorem calls_lock : gate.lock.calls = gate.calls := by
  rw [calls, waiting_lock, List.append_nil]
  rfl

@[simp] theorem calls_setOpenState (shouldBeOpen : Bool) :
    (gate.setOpenState shouldBeOpen).calls = gate.calls := by
  unfold setOpenState
  split
  · exact calls_opened gate
  · exact calls_closed gate

@[simp] theorem isLocked_check (call : Call) : (gate.check call).1.isLocked = gate.isLocked := by
  rcases gate with ⟨_ | _ | _, _⟩ <;> rfl

/-- A call of `check` does not wait at a gate that was opened. -/
theorem check_opened (call : Call) :
    gate.opened.check call = (gate.opened, some !gate.isLocked) := by
  rcases gate with ⟨_ | _ | _, _⟩ <;> rfl

/-- A call of `check` waits at a gate that was closed. -/
theorem check_closed {gate : Gate Call} (hunlocked : gate.isLocked = false) (call : Call) :
    gate.closed.check call = (⟨.pending (gate.waiting ++ [call]), gate.released⟩, none) := by
  rcases gate with ⟨_ | _ | _, _⟩
  · rfl
  · rfl
  · cases hunlocked

end Gate

end PomboStorageNode.Sdk
