import EbmsMessaging.Scheduler
import EbmsMessaging.Service.Task

/-!
# The exchange service

A service owns one correlation table and everything that uses it: it sends messages, takes what
arrives, and sweeps the table while it is running. It is created with checked settings.
-/
namespace EbmsMessaging

open Correlation

structure Service where
  scheduler : Scheduler ServiceState ServiceTask ServiceResult
  /-- The sweeper, while the service is running. -/
  sweeper : Option TaskId

/-- Why a service cannot be started. -/
inductive StartError where
  | noScheduler
deriving DecidableEq, Repr

namespace Service

/-- A service with an empty table that is not running. -/
def create (settings : ExchangeSettings) (gateway : Option Gateway) (draws : Draws) :
    Except SettingsError Service := do
  settings.check
  return ⟨.start (.start settings gateway draws), none⟩

def state (s : Service) : ServiceState := s.scheduler.shared

def now (s : Service) : Nat := s.scheduler.now

def isRunning (s : Service) : Bool := s.sweeper.isSome

/-- Starts a task. -/
def spawn (s : Service) (t : ServiceTask) : TaskId × Service :=
  (s.scheduler.nextTask, { s with scheduler := s.scheduler.spawn t })

/-- Changes the shared state, calling tasks. -/
def change (s : Service) (f : ServiceState → ServiceState × List TaskId) : Service :=
  { s with scheduler := s.scheduler.change f }

/-- Starts the sweeper, unless it is running already. This takes a scheduler to run it on. -/
def start (s : Service) (hasScheduler : Bool) : Except StartError Service :=
  if s.isRunning then .ok s
  else if hasScheduler then
    let (id, s) := s.spawn (.sweeping ⟨s.state.settings.sweep.periodMs.toNat, none⟩)
    .ok { s with sweeper := some id }
  else .error .noScheduler

/-- Stops the sweeper. Everything else goes on. -/
def stop (s : Service) : Service :=
  match s.sweeper with
  | none => s
  | some id => ⟨s.scheduler.abort id, none⟩

/-- Something arrives. -/
def receive (s : Service) (i : Except ArrivalError Arrival) : Reception × Service :=
  let (state, reception, called) := s.state.receive s.now i
  (reception, s.change fun _ => (state, called))

/-- An acknowledgement is put into the table. Tells whether a task waits for it. -/
def deposit (s : Service) (a : Acknowledgement) : Bool × Service :=
  let (state, waiting, called) := s.state.deposit s.now a
  (waiting, s.change fun _ => (state, called))

/-- An acknowledgement is written as the service would write it, and arrives. -/
def receiveAcknowledgement (s : Service) (a : Acknowledgement) : Reception × Service :=
  let (stamp, state) := s.state.takeStamp
  let raw := (state.agreement.acknowledgementEnvelope stamp a).toBytes
  (s.change fun _ => (state, [])).receive (Arrival.ofParts raw [])

/-- A business message is written as the service would write it, and arrives in a frame. -/
def receiveMessage (s : Service) (r : Route) (m : BusinessMessage) :
    Except PrepareError (PreparedMessage × Reception × Service) := do
  let (stamp, state) := s.state.takeStamp
  let (boundary, state) := state.takeUuid
  let prepared ← state.agreement.prepare stamp r m
  let body := Multipart.write (Multipart.boundaryOf boundary) prepared.envelope.toBytes
    prepared.attachments
  return (prepared, (s.change fun _ => (state, [])).receive (Arrival.ofBody body))

/-- Changes the handlers. -/
def changeHandlers (s : Service) (f : Handlers → Handlers) : Service :=
  s.change fun t =>
    ({ t with intake := { t.intake with handlers := f t.intake.handlers } }, [])

/-- Registers a handler. The first use of its name fixes what it does. -/
def register (s : Service) (name : String) (behaviour : HandlerBehaviour) : Service :=
  s.changeHandlers fun h => (h.introduce name behaviour).register name

/-- Takes the first registration of a handler back, and tells whether there was one. -/
def deregister (s : Service) (name : String) : Bool × Service :=
  let known := s.state.intake.handlers.introduce name .succeed
  let (removed, handlers) := known.deregister name
  (removed, s.changeHandlers fun _ => handlers)

/-- Sweeps the table as of an instant before or after the present one. This is not counted as a
periodic sweep. -/
def sweep (s : Service) (offset : Int) : Removals × Service :=
  let (table, report) := s.state.table.sweep (s.now + offset)
  (report, s.change fun t => (t.withTable table, []))

/-- Changes the gateway, if there is one. -/
def changeGateway (s : Service) (f : Gateway → Gateway) : Service :=
  s.change fun t => ({ t with gateway := t.gateway.map f }, [])

def advance (s : Service) (ms : Nat) : Service := { s with scheduler := s.scheduler.advance ms }

/-- Has a task dropped at its next turn. -/
def abort (s : Service) (id : TaskId) : Service := { s with scheduler := s.scheduler.abort id }

/-- Goes on until time has to move. -/
def settle (s : Service) : Service :=
  { s with scheduler := s.scheduler.settle ServiceTask.behaviour }

/-- The results since the last time, in the order in which their tasks were started. -/
def takeResults (s : Service) : List (TaskId × ServiceResult) × Service :=
  let (results, scheduler) := s.scheduler.takeResults
  (results, { s with scheduler := scheduler })

/-- The calls of handlers since the last time. -/
def takeCalls (s : Service) : List HandlerCall × Service :=
  (s.state.intake.calls,
    s.change fun t => ({ t with intake := { t.intake with calls := [] } }, []))

end Service
end EbmsMessaging
