import EbmsMessaging.Envelope.Draws
import EbmsMessaging.Envelope.Writing
import EbmsMessaging.Exchange.Transport
import EbmsMessaging.Multipart.Basic

/-!
# The loopback gateway

A gateway that answers transmissions by a plan, with the acknowledgements of a real one. It waits a
while before each acknowledgement. What follows a rejected submission, or a submission that names
no identifier for the relay, is never sent.
-/
namespace EbmsMessaging

/-- How the gateway answers one hop. -/
inductive HopAnswer where
  | accept
  | reject (detail : FaultDetail)
  | silent
deriving DecidableEq, Repr

structure GatewayPlan where
  /-- A fault with which every message comes back at once. -/
  fault : Option Fault
  submission : HopAnswer
  relay : HopAnswer
  /-- Whether the acknowledgement of the submission names the identifier for the relay. -/
  isChained : Bool
  /-- The pause before each acknowledgement, in milliseconds. -/
  delay : Nat
deriving DecidableEq, Repr

/-- Both hops are accepted. -/
def GatewayPlan.standard : GatewayPlan := ⟨none, .accept, .accept, true, 5⟩

structure Gateway where
  plan : GatewayPlan
  /-- Whether there is someone to send acknowledgements to. -/
  isConnected : Bool
deriving DecidableEq, Repr

/-- The acknowledgements that are still to come for one message. -/
structure GatewayAnswer where
  plan : GatewayPlan
  messageId : String
  relayMessageId : String
  /-- The next hop to be acknowledged. -/
  hop : Hop
  /-- When it is due, as soon as that is settled. -/
  due : Option Nat
deriving DecidableEq, Repr

namespace HopAnswer

def acknowledgement? (a : HopAnswer) (hop : Hop) (key : String) (messageId : Option String) :
    Option Acknowledgement :=
  match a with
  | accept => some (.positive hop key messageId)
  | reject detail => some (.negative hop key messageId detail)
  | silent => none

end HopAnswer

namespace GatewayAnswer

/-- The next acknowledgement, unless the gateway is silent. -/
def acknowledgement? (a : GatewayAnswer) : Option Acknowledgement :=
  match a.hop with
  | .submission => a.plan.submission.acknowledgement? .submission a.messageId
      (if a.plan.isChained then some a.relayMessageId else none)
  | .relay => a.plan.relay.acknowledgement? .relay a.relayMessageId none

/-- What is still to come after the next acknowledgement. -/
def next? (a : GatewayAnswer) : Option GatewayAnswer :=
  if a.hop = .submission ∧ a.plan.submission = .accept ∧ a.plan.isChained then
    some { a with hop := .relay, due := none }
  else none

/-- When the next acknowledgement is due, for someone who looks now. -/
def dueAt (a : GatewayAnswer) (now : Nat) : Nat := a.due.getD (now + a.plan.delay)

end GatewayAnswer

namespace Gateway

/-- The agreement under which the gateway writes envelopes. -/
def agreement : Agreement := .standard

/-- Takes a transmission: reports on it and begins to answer it. -/
def accept (g : Gateway) (relay : Uuid) (t : Transmission) :
    TransportReport × Option GatewayAnswer :=
  match g.plan.fault with
  | some fault => (.ok (some { fault with refToMessageId := some t.message.messageId }), none)
  | none =>
    if g.isConnected then
      (.ok none, some ⟨g.plan, t.message.messageId, messageIdOf relay agreement.domain, .submission,
        none⟩)
    else (.error (.unreachable t.endpoint.url), none)

/-- An acknowledgement as it leaves the gateway. -/
def frame (s : Stamp) (boundary : Uuid) (a : Acknowledgement) : MultipartBody :=
  Multipart.write (Multipart.boundaryOf boundary) (agreement.acknowledgementEnvelope s a).toBytes []

end Gateway
end EbmsMessaging
