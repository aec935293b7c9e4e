import EbmsMessaging.Correlation.Sweeper
import EbmsMessaging.Correlation.Waiting
import EbmsMessaging.Scheduler

/-!
# The waiting room

Tasks that fetch values from one table, and sweepers beside them. Values come from outside.
-/
namespace EbmsMessaging.Correlation

/-- What the tasks of a waiting room share. -/
structure Room (α : Type) where
  table : Table α
  /-- The reports of the sweepers. -/
  reports : List Removals

inductive RoomTask where
  | fetching (key : String) (limit : Nat)
  | waiting (wait : Wait)
  | sweeping (sweeper : Sweeper)
deriving DecidableEq, Repr

/-- A waiting room at work. Sweepers have no result. -/
abbrev WaitingRoom (α : Type) := Scheduler (Room α) RoomTask (Option (Outcome α))

namespace Room

variable {α : Type}

/-- What comes of an attempt to fetch a value. -/
def afterAttempt (r : Room α) : Table α × Attempt α → Turn (Room α) RoomTask (Option (Outcome α))
  | (t, .ended outcome) => ⟨{ r with table := t }, [], [], .ended (some outcome)⟩
  | (t, .entered w) => ⟨{ r with table := t }, [], [], .sleeping (.waiting w) w.deadline⟩
  | (t, .waiting w) => ⟨{ r with table := t }, [], [], .resting (.waiting w)⟩

/-- The turn of a sweeper. Without a period it ends at once. -/
def afterTick (r : Room α) (clock : Clock) (s : Sweeper) :
    Turn (Room α) RoomTask (Option (Outcome α)) :=
  if s.period = 0 then ⟨r, [], [], .ended none⟩
  else
    let (times, s) := s.tick clock
    let (table, reports) := r.table.sweepTimes clock.now times
    ⟨⟨table, r.reports ++ reports⟩, [], [], .sleeping (.sweeping s) (s.alarm clock.now)⟩

/-- How the tasks of a waiting room behave. None of them calls another. -/
def behaviour : Behaviour (Room α) RoomTask (Option (Outcome α)) where
  turn clock id task r :=
    match task with
    | .fetching key limit => r.afterAttempt (r.table.fetch clock.now id key limit)
    | .waiting w => r.afterAttempt (r.table.resume clock id w)
    | .sweeping s => r.afterTick clock s
  drop _ id task r :=
    match task with
    | .waiting w => { r with table := r.table.withdraw id w }
    | _ => r
  work _ := 0

end Room

namespace WaitingRoom

variable {α : Type}

/-- An empty room. -/
def start (p : Retention) : WaitingRoom α := Scheduler.start ⟨.empty p, []⟩

/-- A value arrives. Tells whether a task waits for it. -/
def deposit (w : WaitingRoom α) (key : String) (a : α) : Bool × WaitingRoom α :=
  let (table, waiting, called) := w.shared.table.deposit w.now key a
  (waiting, w.change fun r => ({ r with table := table }, called))

/-- Sweeps as of an instant before or after the present one. -/
def sweep (w : WaitingRoom α) (offset : Int) : Removals × WaitingRoom α :=
  let (table, report) := w.shared.table.sweep (w.now + offset)
  (report, w.change fun r => ({ r with table := table }, []))

/-- The reports of the sweepers since the last time. -/
def takeReports (w : WaitingRoom α) : List Removals × WaitingRoom α :=
  (w.shared.reports, w.change fun r => ({ r with reports := [] }, []))

/-- Goes on until time has to move. -/
def settle (w : WaitingRoom α) : WaitingRoom α := Scheduler.settle Room.behaviour w

end WaitingRoom
end EbmsMessaging.Correlation
