import EbmsMessaging.Correlation.Waiting
import EbmsMessaging.Exchange.Failure
import EbmsMessaging.Exchange.Stage

/-!
# Open exchanges

A message that was transmitted is acknowledged twice. The acknowledgement of the submission comes
under the message's own identifier and names the identifier under which the relay is acknowledged.
An exchange knows its stage, and every change of it is reported.
-/
namespace EbmsMessaging

open Correlation

/-- An exchange whose message was prepared. -/
structure OpenExchange where
  startedAt : Nat
  messageId : String
  conversationId : String
  /-- How long to wait for each acknowledgement; zero is for ever. -/
  limit : Nat
  /-- The identifier under which the relay is acknowledged, once it is known. -/
  relayMessageId : Option String
  stage : ExchangeStage
deriving DecidableEq, Repr

/-- An exchange went on from one stage to another. -/
structure StageChange where
  /-- The sender. -/
  task : TaskId
  messageId : String
  before : ExchangeStage
  after : ExchangeStage
deriving DecidableEq, Repr

/-- The changes by which an exchange goes through some stages. -/
def StageChange.along (task : TaskId) (messageId : String) :
    List ExchangeStage → List StageChange
  | s :: t :: stages => ⟨task, messageId, s, t⟩ :: along task messageId (t :: stages)
  | _ => []

namespace OpenExchange

/-- The exchange goes on to some stages, one after the other. -/
def advance (x : OpenExchange) (stages : List ExchangeStage) : OpenExchange :=
  { x with stage := stages.getLastD x.stage }

/-- The changes that this takes. -/
def changes (x : OpenExchange) (task : TaskId) (stages : List ExchangeStage) : List StageChange :=
  StageChange.along task x.messageId (x.stage :: stages)

/-- The acknowledgement that ended a wait, if it belongs to the hop that was waited for. -/
def awaited (hop : Hop) (key : String) :
    Outcome Acknowledgement → Except ExchangeFailure Acknowledgement
  | .timeout key waited => .error (.timeout hop key waited)
  | .value a => if a.hop = hop then .ok a else .error (.unexpectedAcknowledgement key hop a.hop)

/-- The stage that the end of a wait leads to. Without an acknowledgement of the hop there is
none. -/
def judged (hop : Hop) (key : String) (o : Outcome Acknowledgement) : List ExchangeStage :=
  match awaited hop key o with
  | .error _ => []
  | .ok a => [if a.isPositive then .accepted hop else .rejected hop]

/-- What the first acknowledgement comes to: the identifier for the second one. -/
def afterSubmission (x : OpenExchange) (o : Outcome Acknowledgement) :
    Except ExchangeFailure String := do
  let a ← awaited .submission x.messageId o
  if !a.isPositive then throw (.submissionFailed x.messageId (a.detail.getD .empty))
  match a.messageId with
  | none => throw (.malformedAcknowledgement x.messageId)
  | some relay => return relay

/-- How the relay failed. A missing receipt is told apart. -/
def relayFailure (x : OpenExchange) (relay : String) (detail : FaultDetail) : ExchangeFailure :=
  if detail.code = Vocabulary.missingReceipt then .receiptMissing x.messageId relay detail
  else .relayFailed x.messageId relay detail

/-- What the second acknowledgement comes to. -/
def afterRelay (x : OpenExchange) (now : Nat) (relay : String) (o : Outcome Acknowledgement) :
    Except ExchangeFailure Confirmation := do
  let a ← awaited .relay relay o
  if !a.isPositive then throw (x.relayFailure relay (a.detail.getD .empty))
  return ⟨x.messageId, relay, x.conversationId, now - x.startedAt⟩

@[simp] theorem afterRelay_advance (x : OpenExchange) (stages : List ExchangeStage) (now : Nat)
    (relay : String) (o : Outcome Acknowledgement) :
    (x.advance stages).afterRelay now relay o = x.afterRelay now relay o := rfl

end OpenExchange
end EbmsMessaging
