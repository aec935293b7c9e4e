import EbmsMessaging.Service.Basic
import EbmsMessaging.Proofs.Outcome
import EbmsMessaging.Proofs.Scheduler

/-!
# Runs of a service

A run is a list of moves. Messages are sent, transmissions and acknowledgements arrive, the table is
swept from outside, the service starts and stops, time passes, tasks are dropped, and the tasks have
their turns and the alarms ring, all in any order. The service at work makes some of these runs.
-/
namespace EbmsMessaging

open Correlation

namespace Service

inductive Move where
  | send (request : SendRequest)
  | transmit (request : TransmitRequest)
  | fetch (key : String) (limit : Nat)
  | receive (arrival : Except ArrivalError Arrival)
  | deposit (a : Acknowledgement)
  /-- A sweep from outside, as of an instant before or after the present one. -/
  | sweep (offset : Int)
  | changeHandlers (f : Handlers → Handlers)
  | changeGateway (f : Gateway → Gateway)
  /-- Identifiers and times of day are drawn. -/
  | redraw (draws : Draws)
  | start (hasScheduler : Bool)
  | stop
  | advance (ms : Nat)
  | abort (id : TaskId)
  | turn (id : TaskId)
  | ring

def move (s : Service) : Move → Service
  | .send r => (s.spawn (.sending r)).2
  | .transmit r => (s.spawn (.transmitting r)).2
  | .fetch key limit => (s.spawn (.fetching key limit)).2
  | .receive i => (s.receive i).2
  | .deposit a => (s.deposit a).2
  | .sweep offset => (s.sweep offset).2
  | .changeHandlers f => s.changeHandlers f
  | .changeGateway f => s.changeGateway f
  | .redraw draws => s.change fun t => ({ t with draws := draws }, [])
  | .start hasScheduler =>
    match s.start hasScheduler with
    | .ok s => s
    | .error _ => s
  | .stop => s.stop
  | .advance ms => s.advance ms
  | .abort id => s.abort id
  | .turn id => { s with scheduler := s.scheduler.attend ServiceTask.behaviour id }
  | .ring => { s with scheduler := s.scheduler.ring }

/-- The service after some moves. -/
def run (s : Service) (moves : List Move) : Service := moves.foldl move s

@[simp] theorem run_nil (s : Service) : s.run [] = s := rfl

@[simp] theorem run_append (s : Service) (moves more : List Move) :
    s.run (moves ++ more) = (s.run moves).run more := List.foldl_append

theorem run_concat (s : Service) (moves : List Move) (m : Move) :
    s.run (moves ++ [m]) = (s.run moves).move m := List.foldl_concat ..

theorem scheduler_turn (s : Service) (moves : List Move) (id : TaskId) :
    (s.run (moves ++ [.turn id])).scheduler =
      (s.run moves).scheduler.attend ServiceTask.behaviour id := by
  rw [run_concat]
  rfl

theorem state_change (s : Service) (f : ServiceState → ServiceState × List TaskId) :
    (s.change f).state = (f s.state).1 := by
  simp only [change, Scheduler.change, Scheduler.callAll_eq]
  rfl

theorem state_abort (s : Service) (id : TaskId) : (s.abort id).state = s.state := by
  rw [abort, state, state]
  rcases Scheduler.abort_cases s.scheduler id with heq | heq
  all_goals rw [heq]

theorem state_ring (s : Service) : (s.move .ring).state = s.state := by
  rw [move, state, Scheduler.ring, Scheduler.callAll_eq]
  rfl

section Turn

variable {s : Service} {id : TaskId} {task : ServiceTask}

theorem state_nobody (h : s.scheduler.task? id = none) : (s.move (.turn id)).state = s.state := by
  refine (Scheduler.shared_attend ServiceTask.behaviour s.scheduler id).trans ?_
  rw [h]
  rfl

theorem state_dropped (h : s.scheduler.task? id = some task) (ha : id ∈ s.scheduler.aborted) :
    (s.move (.turn id)).state = s.state.drop s.now id task := by
  refine (Scheduler.shared_attend ServiceTask.behaviour s.scheduler id).trans ?_
  rw [h]
  exact if_pos ha

theorem state_attended (h : s.scheduler.task? id = some task) (ha : id ∉ s.scheduler.aborted) :
    (s.move (.turn id)).state =
      (ServiceTask.behaviour.turn s.scheduler.clock id task s.state).shared := by
  refine (Scheduler.shared_attend ServiceTask.behaviour s.scheduler id).trans ?_
  rw [h]
  exact if_neg ha

end Turn

/-- A service with an empty table and nothing to do. -/
def opened (settings : ExchangeSettings) (gateway : Option Gateway) (draws : Draws) : Service :=
  ⟨.start (.start settings gateway draws), none⟩

/-- A service is created so if its settings are in order. -/
theorem create_eq (settings : ExchangeSettings) (gateway : Option Gateway) (draws : Draws) :
    create settings gateway draws = settings.check.map fun _ => opened settings gateway draws := by
  rw [create]
  cases settings.check <;> rfl

/-! ## What is done to a service are moves -/

theorem receiveAcknowledgement_eq_run (s : Service) (a : Acknowledgement) :
    ∃ draws arrival, (s.receiveAcknowledgement a).2 = s.run [.redraw draws, .receive arrival] :=
  ⟨s.state.takeStamp.2.draws, _, rfl⟩

theorem receiveMessage_eq_run {s v : Service} {r : Route} {m : BusinessMessage}
    {prepared : PreparedMessage} {reception : Reception}
    (h : s.receiveMessage r m = .ok (prepared, reception, v)) :
    ∃ draws arrival, v = s.run [.redraw draws, .receive arrival] := by
  obtain ⟨written, -, hrest⟩ := bind_eq_ok.mp h
  have hafter := congrArg (fun r => r.2.2) (Except.ok.inj hrest)
  exact ⟨s.state.takeStamp.2.takeUuid.2.draws, Arrival.ofBody (Multipart.write
    (Multipart.boundaryOf s.state.takeStamp.2.takeUuid.1) written.envelope.toBytes
    written.attachments), hafter.symm⟩

/-- What a service does until it has settled is a list of turns and ringings. -/
theorem settle_eq_run (s : Service) : ∃ moves : List Move,
    (∀ m ∈ moves, m = .ring ∨ ∃ id, m = .turn id) ∧ s.settle = s.run moves := by
  refine Scheduler.run_keeps (P := fun v => ∃ moves : List Move,
    (∀ m ∈ moves, m = .ring ∨ ∃ id, m = .turn id) ∧ { s with scheduler := v } = s.run moves) ?_
    ⟨[], by simp, rfl⟩ _
  rintro u v ⟨moves, hown, hu⟩ hs
  have hone {m : Move} (hm : m = .ring ∨ ∃ id, m = .turn id) :
      ∀ m' ∈ moves ++ [m], m' = .ring ∨ ∃ id, m' = .turn id :=
    List.forall_mem_append.mpr ⟨hown, List.forall_mem_singleton.mpr hm⟩
  rcases Scheduler.step?_cases hs with ⟨id, rest, -, rfl⟩ | ⟨-, rfl⟩
  · exact ⟨moves ++ [.turn id], hone (.inr ⟨id, rfl⟩), by rw [run_concat, ← hu]; rfl⟩
  · exact ⟨moves ++ [.ring], hone (.inl rfl), by rw [run_concat, ← hu]; rfl⟩

end Service
end EbmsMessaging
