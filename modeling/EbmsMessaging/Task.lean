/-!
# Tasks

Tasks share a state. At its turn a task works on the shared state, may call other tasks and start
new ones, and either ends or goes to sleep, perhaps with an alarm.
-/
namespace EbmsMessaging

/-- The number of a task, in the order in which tasks are created. -/
abbrev TaskId := Nat

/-- What a task sees of time. Alarms ring only when no task can go on, so they can be behind. -/
structure Clock where
  now : Nat
  /-- The alarms up to this instant have rung. A task that would sleep until then goes on. -/
  rung : Nat
deriving DecidableEq, Repr

/-- What a task does next: sleep, perhaps until an alarm, or end. -/
inductive Next (τ ρ : Type) where
  /-- The task sleeps with this alarm in place of the one before. -/
  | sleeping (task : τ) (alarm : Option Nat)
  /-- The task sleeps again with the alarm that it has. -/
  | resting (task : τ)
  | ended (result : ρ)

/-- What a turn brings about, for a shared state in `σ`, tasks in `τ` and results in `ρ`. -/
structure Turn (σ τ ρ : Type) where
  shared : σ
  /-- The tasks that are called, in this order. -/
  called : List TaskId
  started : List τ
  next : Next τ ρ

/-- How tasks behave. -/
structure Behaviour (σ τ ρ : Type) where
  turn : (clock : Clock) → TaskId → τ → σ → Turn σ τ ρ
  /-- What a task leaves behind when it is dropped. -/
  drop : (now : Nat) → TaskId → τ → σ → σ
  /-- How many tasks it can still start, and how often it can still call others, its own new tasks
  included. -/
  work : τ → Nat

end EbmsMessaging
