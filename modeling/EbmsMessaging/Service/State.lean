import EbmsMessaging.Exchange.Gateway
import EbmsMessaging.Exchange.OpenExchange
import EbmsMessaging.Exchange.Settings
import EbmsMessaging.Service.Intake

/-!
# What the tasks of a service share

One intake with its correlation table serves everyone. Messages leave through the gateway, if
there is one, and every transmission is recorded. So are the changes of stage that exchanges report.
-/
namespace EbmsMessaging

open Correlation

structure ServiceState where
  settings : ExchangeSettings
  intake : Intake
  gateway : Option Gateway
  transmissions : List Transmission
  draws : Draws
  stageChanges : List StageChange

namespace ServiceState

def start (settings : ExchangeSettings) (gateway : Option Gateway) (draws : Draws) : ServiceState :=
  ⟨settings, .start settings.sweep.retention, gateway, [], draws, []⟩

def agreement (s : ServiceState) : Agreement := s.settings.agreement

def table (s : ServiceState) : Table Acknowledgement := s.intake.table

def withTable (s : ServiceState) (t : Table Acknowledgement) : ServiceState :=
  { s with intake := { s.intake with table := t } }

def countMetrics (s : ServiceState) (f : Metrics → Metrics) : ServiceState :=
  { s with intake := { s.intake with metrics := f s.intake.metrics } }

def takeStamp (s : ServiceState) : Stamp × ServiceState :=
  let (stamp, draws) := s.draws.takeStamp
  (stamp, { s with draws := draws })

def takeUuid (s : ServiceState) : Uuid × ServiceState :=
  let (uuid, draws) := s.draws.takeUuid
  (uuid, { s with draws := draws })

/-- An exchange goes on to some stages, one after the other, and reports each change. -/
def advance (s : ServiceState) (id : TaskId) (x : OpenExchange) (stages : List ExchangeStage) :
    ServiceState × OpenExchange :=
  ({ s with stageChanges := s.stageChanges ++ x.changes id stages }, x.advance stages)

/-- An acknowledgement is put into the table without being counted as arrived. -/
def deposit (s : ServiceState) (now : Nat) (a : Acknowledgement) :
    ServiceState × Bool × List TaskId :=
  let (intake, waiting, called) := s.intake.deposit now a
  ({ s with intake := intake }, waiting, called)

/-- Acknowledgements are put into the table one after the other. -/
def depositAll (s : ServiceState) (now : Nat) : List Acknowledgement → ServiceState × List TaskId
  | [] => (s, [])
  | a :: as =>
    let (s, _, called) := s.deposit now a
    let (s, more) := s.depositAll now as
    (s, called ++ more)

/-- A transmission arrives. -/
def receive (s : ServiceState) (now : Nat) (i : Except ArrivalError Arrival) :
    ServiceState × Reception × List TaskId :=
  let (intake, reception, called) := s.intake.receive now i
  ({ s with intake := intake }, reception, called)

/-- An acknowledgement arrives from the gateway. -/
def receiveFromGateway (s : ServiceState) (now : Nat) (a : Acknowledgement) :
    ServiceState × List TaskId :=
  let (stamp, s) := s.takeStamp
  let (boundary, s) := s.takeUuid
  let (s, _, called) := s.receive now (Arrival.ofBody (Gateway.frame stamp boundary a))
  (s, called)

/-- What comes of handing a message to the transport. -/
structure Handover where
  state : ServiceState
  called : List TaskId
  answer : Option GatewayAnswer
  report : TransportReport

/-- Hands a message to the transport. -/
def handOver (s : ServiceState) (now : Nat) (t : Transmission) (reply : ArrangedReply) : Handover :=
  let s := { s with transmissions := s.transmissions ++ [t] }
  match s.gateway with
  | some g =>
    let (relay, s) := s.takeUuid
    let (report, answer) := g.accept relay t
    ⟨s, [], answer, report⟩
  | none =>
    let (after, called) := s.depositAll now (reply.acknowledgements.map fun a => a s.transmissions)
    ⟨after, called, none, reply.report s.transmissions⟩

end ServiceState
end EbmsMessaging
