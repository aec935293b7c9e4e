import EbmsMessaging.Correlation.Sweeper
import EbmsMessaging.Service.State

/-!
# The tasks of a service

Tasks send messages, fetch acknowledgements, sweep, and answer for the gateway. A sender checks the
route, prepares the message, hands it to the transport, and then waits for its two acknowledgements.
Whatever fails first in this order decides how the exchange ends, and every exchange that ends is
counted under its ending.
-/
namespace EbmsMessaging

open Correlation

/-- A message to be sent. -/
structure SendRequest where
  route : Route
  message : BusinessMessage
  /-- How long to wait for each acknowledgement, if not as long as the settings say. -/
  limit : Option Nat
  reply : ArrangedReply

/-- A message to be handed to the transport for a known endpoint, without waiting for
acknowledgements. -/
structure TransmitRequest where
  route : Route
  message : BusinessMessage
  endpoint : Endpoint

inductive ServiceTask where
  | sending (request : SendRequest)
  | awaiting (exchange : OpenExchange) (wait : Wait)
  | transmitting (request : TransmitRequest)
  | fetching (key : String) (limit : Nat)
  | waiting (wait : Wait)
  | sweeping (sweeper : Sweeper)
  | answering (answer : GatewayAnswer)

inductive ServiceResult where
  | exchanged (result : Except ExchangeFailure Confirmation)
  | transmitted (report : Except PrepareError TransportReport)
  | fetched (outcome : Outcome Acknowledgement)
  /-- A task of the service itself ended. -/
  | finished

abbrev ServiceTurn := Turn ServiceState ServiceTask ServiceResult

namespace ServiceState

/-- How an exchange ended, as it is counted. -/
def endingLabel : Except ExchangeFailure Confirmation → String
  | .ok _ => ExchangeFailure.successLabel
  | .error e => e.label

/-- A sender begins. -/
def countStart (s : ServiceState) : ServiceState :=
  s.countMetrics fun m => { m with exchangesStarted := m.exchangesStarted + 1 }

/-- A sender is gone, after this long. -/
def countDuration (s : ServiceState) (duration : Nat) : ServiceState :=
  s.countMetrics fun m => { m with durations := m.durations ++ [duration] }

/-- An exchange ends. -/
def conclude (s : ServiceState) (now startedAt : Nat) (r : Except ExchangeFailure Confirmation) :
    ServiceState × Next ServiceTask ServiceResult :=
  ((s.countMetrics fun m => { m with outcomes := m.outcomes.mark (endingLabel r) }).countDuration
    (now - startedAt), .ended (.exchanged r))

/-- What comes of an attempt to fetch the second acknowledgement. -/
def afterRelay (s : ServiceState) (now : Nat) (id : TaskId) (x : OpenExchange) (relay : String) :
    Table Acknowledgement × Attempt Acknowledgement → ServiceState × Next ServiceTask ServiceResult
  | (t, .entered w) =>
    (s.withTable t, .sleeping (.awaiting { x with relayMessageId := some relay } w) w.deadline)
  | (t, .waiting w) =>
    (s.withTable t, .resting (.awaiting { x with relayMessageId := some relay } w))
  | (t, .ended o) =>
    let (s, x) := (s.withTable t).advance id x (OpenExchange.judged .relay relay o)
    s.conclude now x.startedAt (x.afterRelay now relay o)

/-- What comes of an attempt to fetch the first acknowledgement. -/
def afterSubmission (s : ServiceState) (now : Nat) (id : TaskId) (x : OpenExchange) :
    Table Acknowledgement × Attempt Acknowledgement → ServiceState × Next ServiceTask ServiceResult
  | (t, .entered w) => (s.withTable t, .sleeping (.awaiting x w) w.deadline)
  | (t, .waiting w) => (s.withTable t, .resting (.awaiting x w))
  | (t, .ended o) =>
    let (s, x) := (s.withTable t).advance id x (OpenExchange.judged .submission x.messageId o)
    match x.afterSubmission o with
    | .error e => s.conclude now x.startedAt (.error e)
    | .ok relay =>
      let (s, x) := s.advance id x [.awaitingRelay]
      s.afterRelay now id x relay (s.table.fetch now id relay x.limit)

/-- What comes of the acknowledgement depends on the exchange, not on the stage that it is in. -/
theorem afterSubmission_ended (s : ServiceState) (now : Nat) (id : TaskId) (x : OpenExchange)
    (t : Table Acknowledgement) (o : Outcome Acknowledgement) :
    s.afterSubmission now id x (t, .ended o) =
      let judged := (s.withTable t).advance id x (OpenExchange.judged .submission x.messageId o)
      match x.afterSubmission o with
      | .error e => judged.1.conclude now x.startedAt (.error e)
      | .ok relay =>
        let advanced := judged.1.advance id judged.2 [.awaitingRelay]
        advanced.1.afterRelay now id advanced.2 relay
          (advanced.1.table.fetch now id relay x.limit) := rfl

/-- A sender that waits has its turn. -/
def resumeExchange (s : ServiceState) (clock : Clock) (id : TaskId) (x : OpenExchange) (w : Wait) :
    ServiceTurn :=
  let attempt := s.table.resume clock id w
  let (s, next) := match x.relayMessageId with
    | none => s.afterSubmission clock.now id x attempt
    | some relay => s.afterRelay clock.now id x relay attempt
  ⟨s, [], [], next⟩

/-- What comes of handing the message of a sender to the transport. -/
def afterHandover (now : Nat) (id : TaskId) (x : OpenExchange) (h : Handover) : ServiceTurn :=
  let (s, next) := match h.report with
    | .error cause => h.state.conclude now x.startedAt (.error (.transport x.messageId cause))
    | .ok (some fault) =>
      h.state.conclude now x.startedAt (.error (.rejected x.messageId fault.detail))
    | .ok none =>
      let (s, x) := h.state.advance id x [.transmitted, .awaitingSubmission]
      s.afterSubmission now id x (s.table.fetch now id x.messageId x.limit)
  ⟨s, h.called, h.answer.toList.map .answering, next⟩

/-- The exchange that a sender opens for a message that was prepared. -/
def opening (s : ServiceState) (now : Nat) (r : SendRequest) (prepared : PreparedMessage) :
    OpenExchange :=
  ⟨now, prepared.messageId, prepared.conversationId, r.limit.getD s.settings.waitMs.toNat, none,
    .created⟩

/-- A sender has its first turn. -/
def beginExchange (s : ServiceState) (now : Nat) (id : TaskId) (r : SendRequest) : ServiceTurn :=
  let s := s.countStart
  let refuse (s : ServiceState) (e : ExchangeFailure) : ServiceTurn :=
    let (s, next) := s.conclude now now (.error e)
    ⟨s, [], [], next⟩
  match r.route.endpoint with
  | .error cause => refuse s (.unusableRoute cause)
  | .ok endpoint =>
    let (stamp, s) := s.takeStamp
    match s.agreement.prepare stamp r.route r.message with
    | .error cause => refuse s (.preparation cause)
    | .ok prepared =>
      let (s, x) := s.advance id (s.opening now r prepared) [.prepared]
      afterHandover now id x (s.handOver now ⟨id, prepared, endpoint⟩ r.reply)

/-- A message is handed to the transport for a known endpoint. -/
def transmitTo (s : ServiceState) (now : Nat) (id : TaskId) (r : TransmitRequest) : ServiceTurn :=
  let (stamp, s) := s.takeStamp
  match s.agreement.prepare stamp r.route r.message with
  | .error cause => ⟨s, [], [], .ended (.transmitted (.error cause))⟩
  | .ok prepared =>
    let h := s.handOver now ⟨id, prepared, r.endpoint⟩ .silence
    ⟨h.state, h.called, h.answer.toList.map .answering, .ended (.transmitted (.ok h.report))⟩

/-- What comes of an attempt to fetch an acknowledgement. -/
def afterAttempt (s : ServiceState) : Table Acknowledgement × Attempt Acknowledgement → ServiceTurn
  | (t, .entered w) => ⟨s.withTable t, [], [], .sleeping (.waiting w) w.deadline⟩
  | (t, .waiting w) => ⟨s.withTable t, [], [], .resting (.waiting w)⟩
  | (t, .ended o) => ⟨s.withTable t, [], [], .ended (.fetched o)⟩

/-- The turn of a sweeper. Without a period it ends at once. -/
def afterTick (s : ServiceState) (clock : Clock) (w : Sweeper) : ServiceTurn :=
  if w.period = 0 then ⟨s, [], [], .ended .finished⟩
  else
    let (times, w) := w.tick clock
    let (table, reports) := s.table.sweepTimes clock.now times
    let s := (s.withTable table).countMetrics fun m =>
      reports.foldl (fun m r => m.countSweep r table.size) m
    ⟨s, [], [], .sleeping (.sweeping w) (w.alarm clock.now)⟩

/-- The gateway sends the next acknowledgement, unless it is silent. -/
def answer (s : ServiceState) (now : Nat) (a : GatewayAnswer) : ServiceState × List TaskId :=
  match a.acknowledgement? with
  | none => (s, [])
  | some k => s.receiveFromGateway now k

/-- The turn of the gateway's answer to a message. Acknowledgements that are due are sent. -/
def continueAnswer (s : ServiceState) (clock : Clock) (a : GatewayAnswer) : ServiceTurn :=
  let sleep (s : ServiceState) (called : List TaskId) (a : GatewayAnswer) : ServiceTurn :=
    let due := a.dueAt clock.now
    ⟨s, called, [], .sleeping (.answering { a with due := some due }) due⟩
  if clock.rung < a.dueAt clock.now then sleep s [] a
  else
    let (s, called) := s.answer clock.now a
    match a.next? with
    | none => ⟨s, called, [], .ended .finished⟩
    | some b =>
      if clock.rung < b.dueAt clock.now then sleep s called b
      else
        let (s, more) := s.answer clock.now b
        ⟨s, called ++ more, [], .ended .finished⟩

/-- A task is dropped. -/
def drop (s : ServiceState) (now : Nat) (id : TaskId) : ServiceTask → ServiceState
  | .awaiting x w => (s.withTable (s.table.withdraw id w)).countDuration (now - x.startedAt)
  | .waiting w => s.withTable (s.table.withdraw id w)
  | _ => s

end ServiceState

namespace ServiceTask

/-- How often a task can still call others or start one. The gateway's answer to a message calls
others at most twice. -/
def work : ServiceTask → Nat
  | sending r => r.reply.acknowledgements.length + 3
  | transmitting _ => 3
  | answering _ => 2
  | _ => 0

/-- How the tasks of a service behave. -/
def behaviour : Behaviour ServiceState ServiceTask ServiceResult where
  turn clock id task s :=
    match task with
    | sending r => s.beginExchange clock.now id r
    | awaiting x w => s.resumeExchange clock id x w
    | transmitting r => s.transmitTo clock.now id r
    | fetching key limit => s.afterAttempt (s.table.fetch clock.now id key limit)
    | waiting w => s.afterAttempt (s.table.resume clock id w)
    | sweeping w => s.afterTick clock w
    | answering a => s.continueAnswer clock a
  drop now id task s := s.drop now id task
  work := work

end ServiceTask
end EbmsMessaging
