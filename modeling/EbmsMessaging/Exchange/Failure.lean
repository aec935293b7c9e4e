import EbmsMessaging.Duration
import EbmsMessaging.Envelope.Writing

/-!
# How an exchange fails

An exchange fails before anything is sent, in the transport, or at one of its two acknowledgements.
Each failure counts under one label, and the failures that a gateway reported carry its detail.
-/
namespace EbmsMessaging

inductive TransportFailure where
  | unreachable (endpoint : String)
  | io (text : String)
  | closed
deriving DecidableEq, Repr

def TransportFailure.message : TransportFailure → String
  | unreachable endpoint => s!"endpoint {endpoint} unreachable"
  | io text => s!"transport I/O error: {text}"
  | closed => "transport closed"

inductive ExchangeFailure where
  | unusableRoute (cause : RouteError)
  | preparation (cause : PrepareError)
  | rejected (messageId : String) (detail : FaultDetail)
  | transport (messageId : String) (cause : TransportFailure)
  | timeout (hop : Hop) (key : String) (waited : Nat)
  | submissionFailed (messageId : String) (detail : FaultDetail)
  | malformedAcknowledgement (messageId : String)
  | unexpectedAcknowledgement (key : String) (expected received : Hop)
  | receiptMissing (messageId relayMessageId : String) (detail : FaultDetail)
  | relayFailed (messageId relayMessageId : String) (detail : FaultDetail)
deriving DecidableEq, Repr

/-- The wording of a wait that nothing ended. -/
def timeoutMessage (key : String) (waited : Nat) : String :=
  s!"No acknowledgement for {key} within {Duration.text waited}"

namespace ExchangeFailure

def message : ExchangeFailure → String
  | unusableRoute cause => s!"Invalid routing information: {cause.message}"
  | preparation cause => s!"Cannot encode message: {cause.message}"
  | rejected messageId detail => s!"Transport rejected {messageId}: {detail.text}"
  | transport messageId cause => s!"Transport failed for {messageId}: {cause.message}"
  | timeout hop key waited =>
    s!"No {hop.text} acknowledgement for {key} within {Duration.text waited}"
  | submissionFailed messageId detail => s!"Submission of {messageId} failed: {detail.text}"
  | malformedAcknowledgement messageId =>
    s!"Submission acknowledgement for {messageId} carries no MessageId"
  | unexpectedAcknowledgement key expected received =>
    s!"Expected {expected.text} acknowledgement for {key}, got {received.text}"
  | receiptMissing messageId _ detail =>
    s!"Relay of {messageId} failed, receipt missing: {detail.text}"
  | relayFailed messageId _ detail => s!"Relay of {messageId} failed: {detail.text}"

/-- The label under which a failure is counted. -/
def label : ExchangeFailure → String
  | unusableRoute _ => "invalid_routing"
  | preparation _ => "encode_error"
  | rejected _ _ => "transport_rejected"
  | transport _ _ => "transport_error"
  | timeout _ _ _ => "timeout"
  | submissionFailed _ _ => "submission_failed"
  | malformedAcknowledgement _ => "malformed_ack"
  | unexpectedAcknowledgement _ _ _ => "malformed_ack"
  | receiptMissing _ _ _ => "relay_specific"
  | relayFailed _ _ _ => "relay_generic"

/-- The label under which a success is counted. -/
def successLabel : String := "success"

/-- The detail that a gateway reported. -/
def detail? : ExchangeFailure → Option FaultDetail
  | rejected _ detail => some detail
  | submissionFailed _ detail => some detail
  | receiptMissing _ _ detail => some detail
  | relayFailed _ _ detail => some detail
  | _ => none

def code? (e : ExchangeFailure) : Option String := e.detail?.map (·.code)

/-- Whether the message was handed to the transport before the failure. -/
def isAfterTransmission : ExchangeFailure → Bool
  | unusableRoute _ => false
  | preparation _ => false
  | _ => true

end ExchangeFailure

/-- What a sender is told when both hops have accepted a message. -/
structure Confirmation where
  messageId : String
  relayMessageId : String
  conversationId : String
  elapsed : Nat
deriving DecidableEq, Repr

end EbmsMessaging
