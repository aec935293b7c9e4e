import EbmsMessaging.Correlation.Table

/-!
# Waiting for a value

A task that fetches a value takes it at once if it is there. Otherwise it enters the cell of the key
and sleeps. When it is called it looks for the value first, and only then whether its alarm has
rung; if it finds neither, it goes back to sleep. A wait without a limit has no deadline.
-/
namespace EbmsMessaging.Correlation

/-- A task's wait at a cell. -/
structure Wait where
  key : String
  cell : Nat
  startedAt : Nat
  deadline : Option Nat
deriving DecidableEq, Repr

/-- How an attempt to fetch a value ends. -/
inductive Outcome (α : Type) where
  | value (a : α)
  | timeout (key : String) (waited : Nat)
deriving DecidableEq, Repr

/-- What came of a task's turn: the end of its attempt, a wait that begins, or one that goes on. -/
inductive Attempt (α : Type) where
  | ended (outcome : Outcome α)
  | entered (wait : Wait)
  | waiting (wait : Wait)
deriving DecidableEq, Repr

namespace Table

variable {α : Type}

/-- A task begins to fetch the value of a key. A limit of zero is none. -/
def fetch (t : Table α) (now : Nat) (task : TaskId) (key : String) (limit : Nat) :
    Table α × Attempt α :=
  match t.takeReady? key with
  | some (a, t) =>
    (t.countStats fun s => { s with fetchedAtOnce := s.fetchedAtOnce + 1 },
      .ended (.value a))
  | none =>
    let (t, c) := t.withCell now key
    (t.change c.id fun c => c.enter task,
      .entered ⟨key, c.id, now, if limit = 0 then none else some (now + limit)⟩)

/-- A waiting task has its turn. -/
def resume (t : Table α) (clock : Clock) (task : TaskId) (w : Wait) : Table α × Attempt α :=
  match t.takeAwaited? w.cell with
  | some (a, t) =>
    ((t.leave w.cell task).countStats fun s =>
        { s with fetchedAfterWait := s.fetchedAfterWait + 1 },
      .ended (.value a))
  | none =>
    if w.deadline.any (· ≤ clock.rung) then
      ((t.leave w.cell task).countStats fun s => { s with timeouts := s.timeouts + 1 },
        .ended (.timeout w.key (clock.now - w.startedAt)))
    else (t.change w.cell fun c => c.sleep task, .waiting w)

/-- A waiting task is dropped. -/
def withdraw (t : Table α) (task : TaskId) (w : Wait) : Table α := t.leave w.cell task

end Table
end EbmsMessaging.Correlation
