import EbmsMessaging.Task

/-!
# Tasks in turn

Tasks that share a state take turns. A task that can go on stands in a queue, once at most. Time
stands still while tasks take turns and moves only from outside. When the queue is empty the due
alarms ring; when they have rung and nobody was called the scheduler is settled.
-/
namespace EbmsMessaging

structure Scheduler (σ τ ρ : Type) where
  clock : Clock
  nextTask : TaskId
  tasks : List (TaskId × τ)
  queue : List TaskId
  alarms : List (TaskId × Nat)
  /-- The tasks that are dropped at their next turn. -/
  aborted : List TaskId
  results : List (TaskId × ρ)
  shared : σ

namespace Scheduler

variable {σ τ ρ : Type}

/-- Nothing runs, at time zero. -/
def start (shared : σ) : Scheduler σ τ ρ := ⟨⟨0, 0⟩, 0, [], [], [], [], [], shared⟩

def now (s : Scheduler σ τ ρ) : Nat := s.clock.now

def task? (s : Scheduler σ τ ρ) (id : TaskId) : Option τ := s.tasks.lookup id

/-- Calls a task, unless it stands in the queue already. -/
def call (s : Scheduler σ τ ρ) (id : TaskId) : Scheduler σ τ ρ :=
  if id ∈ s.queue then s else { s with queue := s.queue ++ [id] }

def callAll (s : Scheduler σ τ ρ) (ids : List TaskId) : Scheduler σ τ ρ := ids.foldl call s

/-- Starts a task; it stands in the queue behind the others. -/
def spawn (s : Scheduler σ τ ρ) (t : τ) : Scheduler σ τ ρ :=
  { s with nextTask := s.nextTask + 1, tasks := s.tasks ++ [(s.nextTask, t)],
           queue := s.queue ++ [s.nextTask] }

/-- Has a task dropped at its next turn, to which it is called. -/
def abort (s : Scheduler σ τ ρ) (id : TaskId) : Scheduler σ τ ρ :=
  if (s.task? id).isSome then ({ s with aborted := id :: s.aborted } : Scheduler σ τ ρ).call id
  else s

def advance (s : Scheduler σ τ ρ) (ms : Nat) : Scheduler σ τ ρ :=
  { s with clock := { s.clock with now := s.now + ms } }

/-- Forgets a task that has ended. -/
def forget (s : Scheduler σ τ ρ) (id : TaskId) : Scheduler σ τ ρ :=
  { s with tasks := s.tasks.filter (fun t => t.1 ≠ id), aborted := s.aborted.filter (· ≠ id) }

/-- Puts a task to sleep in its present state. -/
def putToSleep (s : Scheduler σ τ ρ) (id : TaskId) (t : τ) : Scheduler σ τ ρ :=
  { s with tasks := s.tasks.map fun e => if e.1 = id then (id, t) else e }

/-- Sets the alarm of a task in place of the one before. -/
def setAlarm (s : Scheduler σ τ ρ) (id : TaskId) (alarm : Option Nat) : Scheduler σ τ ρ :=
  let others := s.alarms.filter fun a => a.1 ≠ id
  { s with alarms := others ++ alarm.toList.map fun time => (id, time) }

/-- The first task in the queue has its turn. -/
def takeTurn (b : Behaviour σ τ ρ) (s : Scheduler σ τ ρ) (id : TaskId) (t : τ) :
    Scheduler σ τ ρ :=
  if id ∈ s.aborted then
    let s : Scheduler σ τ ρ := { s with shared := b.drop s.now id t s.shared }
    s.setAlarm id none |>.forget id
  else
    let turn := b.turn s.clock id t s.shared
    let s := ({ s with shared := turn.shared } : Scheduler σ τ ρ).callAll turn.called
    let s := turn.started.foldl spawn s
    match turn.next with
    | .sleeping t alarm => (s.putToSleep id t).setAlarm id alarm
    | .resting t => s.putToSleep id t
    | .ended r =>
      let s : Scheduler σ τ ρ := { s with results := s.results ++ [(id, r)] }
      s.setAlarm id none |>.forget id

/-- The alarms that are due, the earliest first and equal ones in the order in which they were
set. -/
def dueAlarms (s : Scheduler σ τ ρ) : List (TaskId × Nat) :=
  (s.alarms.filter fun a => a.2 ≤ s.now).mergeSort fun a b => a.2 ≤ b.2

/-- Rings the due alarms. -/
def ring (s : Scheduler σ τ ρ) : Scheduler σ τ ρ :=
  let waiting := s.alarms.filter fun a => s.now < a.2
  ({ s with clock := ⟨s.now, s.now⟩, alarms := waiting } : Scheduler σ τ ρ).callAll
    (s.dueAlarms.map Prod.fst)

/-- The next thing that happens while time stands still: a turn, or the ringing of alarms. -/
def step? (b : Behaviour σ τ ρ) (s : Scheduler σ τ ρ) : Option (Scheduler σ τ ρ) :=
  match s.queue with
  | id :: rest =>
    let s := { s with queue := rest }
    some (match s.task? id with
      | some t => s.takeTurn b id t
      | none => s)
  | [] => if s.clock.rung = s.now ∧ s.dueAlarms.isEmpty then none else some s.ring

/-- A bound on the steps until nothing happens any more. -/
def stepBound (b : Behaviour σ τ ρ) (s : Scheduler σ τ ρ) : Nat :=
  let work := s.tasks.foldr (fun t n => b.work t.2 + n) 0
  let tasks := s.tasks.length + work
  s.queue.length + work * (tasks + 1) + 2 * tasks + 2

/-- At most `n` steps. -/
def run (b : Behaviour σ τ ρ) : (n : Nat) → Scheduler σ τ ρ → Scheduler σ τ ρ
  | 0, s => s
  | n + 1, s =>
    match s.step? b with
    | some s => run b n s
    | none => s

/-- Goes on until nothing happens any more. -/
def settle (b : Behaviour σ τ ρ) (s : Scheduler σ τ ρ) : Scheduler σ τ ρ := s.run b (s.stepBound b)

/-- Nothing happens until time moves on or a task is called from outside. -/
def IsSettled (b : Behaviour σ τ ρ) (s : Scheduler σ τ ρ) : Prop := s.step? b = none

/-- Changes the shared state from outside, calling tasks. -/
def change (s : Scheduler σ τ ρ) (f : σ → σ × List TaskId) : Scheduler σ τ ρ :=
  let (shared, called) := f s.shared
  ({ s with shared := shared } : Scheduler σ τ ρ).callAll called

/-- The results since the last time, in the order in which their tasks were started. -/
def takeResults (s : Scheduler σ τ ρ) : List (TaskId × ρ) × Scheduler σ τ ρ :=
  (s.results.mergeSort fun a b => a.1 ≤ b.1, { s with results := [] })

end Scheduler
end EbmsMessaging
