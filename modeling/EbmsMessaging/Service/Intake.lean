import EbmsMessaging.Correlation.Waiting
import EbmsMessaging.Envelope.Reading
import EbmsMessaging.Multipart.Reader
import EbmsMessaging.Service.Handlers
import EbmsMessaging.Telemetry.Metrics

/-!
# What becomes of a transmission

A business message that arrives goes to the handlers, and an acknowledgement to the correlation
table, under the identifier of the message that it acknowledges. What cannot be read is counted and
changes nothing else.
-/
namespace EbmsMessaging

open Correlation

/-- Why a transmission was refused. -/
inductive ArrivalError where
  | framing (cause : MultipartError)
  | content (cause : EnvelopeError)
deriving DecidableEq, Repr

namespace ArrivalError

def message : ArrivalError → String
  | framing cause => cause.message
  | content cause => cause.message

/-- Where in the transmission the error was found, if it has a place. -/
def place? : ArrivalError → Option String
  | framing _ => none
  | content cause => cause.place?

end ArrivalError

/-- What became of a transmission. -/
inductive Reception where
  | delivered (messageId : String) (handlers failures : Nat)
  | deposited (hop : Hop) (key : String) (waiting : Bool)
  | rejected (cause : ArrivalError)
deriving DecidableEq, Repr

/-- Where transmissions arrive. -/
structure Intake where
  table : Table Acknowledgement
  handlers : Handlers
  metrics : Metrics
  /-- All calls of handlers so far. -/
  calls : List HandlerCall

namespace Intake

def start (p : Retention) : Intake := ⟨.empty p, .empty, .zero, []⟩

/-- An acknowledgement is put into the table. Tells whether a task waits for it, and which tasks are
called. -/
def deposit (i : Intake) (now : Nat) (a : Acknowledgement) : Intake × Bool × List TaskId :=
  let (table, waiting, called) := i.table.deposit now a.key a
  ({ i with table := table }, waiting, called)

def countAcknowledgement (i : Intake) (hop : Hop) : Intake :=
  { i with metrics := { i.metrics with
      acknowledgements := i.metrics.acknowledgements.mark hop.text } }

def countRefusal (i : Intake) : Intake :=
  { i with metrics := { i.metrics with refusals := i.metrics.refusals + 1 } }

/-- A delivered message and the failures of its handlers. -/
def countDelivery (i : Intake) (failures : List HandlerFailure) : Intake :=
  { i with metrics := { i.metrics with
      messagesDelivered := i.metrics.messagesDelivered + 1
      handlerFailures := failures.foldl (fun t f => t.mark f.label) i.metrics.handlerFailures } }

/-- A business message goes to the handlers. -/
def deliver (i : Intake) (m : ReceivedMessage) : Intake × Reception :=
  let d := i.handlers.deliver m.message
  ({ i with handlers := ⟨d.state, d.registry⟩, calls := i.calls ++ d.calls }.countDelivery
    d.failures, .delivered m.messageId d.handlers d.failures.length)

/-- Deals with what was read from a transmission. -/
def receive (i : Intake) (now : Nat) :
    Except ArrivalError Arrival → Intake × Reception × List TaskId
  | .ok (.message m) =>
    let (i, reception) := i.deliver m
    (i, reception, [])
  | .ok (.acknowledgement a) =>
    let (i, waiting, called) := i.deposit now a
    (i.countAcknowledgement a.hop, .deposited a.hop a.key waiting, called)
  | .error cause => (i.countRefusal, .rejected cause, [])

end Intake

/-- What an envelope and its attachments hold. -/
def Arrival.ofParts (raw : Bytes) (attachments : List Attachment) : Except ArrivalError Arrival :=
  (Arrival.ofBytes raw attachments).mapError .content

/-- What a framed transmission holds. -/
def Arrival.ofBody (body : MultipartBody) : Except ArrivalError Arrival := do
  let (raw, attachments) ← (Multipart.read body.contentType body.body).mapError .framing
  Arrival.ofParts raw attachments

end EbmsMessaging
