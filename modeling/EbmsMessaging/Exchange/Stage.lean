import EbmsMessaging.Acknowledgement

/-!
# The stages of an exchange

An exchange prepares its message, transmits it, and then waits for its submission and for its relay,
each of which may be rejected.
-/
namespace EbmsMessaging

inductive ExchangeStage where
  | created
  | prepared
  | transmitted
  | awaitingSubmission
  | submissionAccepted
  | submissionRejected
  | awaitingRelay
  | relayAccepted
  | relayRejected
deriving DecidableEq, Repr

namespace ExchangeStage

def text : ExchangeStage → String
  | created => "created"
  | prepared => "encoded"
  | transmitted => "transmitted"
  | awaitingSubmission => "awaiting_submission"
  | submissionAccepted => "submission_accepted"
  | submissionRejected => "submission_rejected"
  | awaitingRelay => "awaiting_relay"
  | relayAccepted => "relay_accepted"
  | relayRejected => "relay_rejected"

/-- All stages, in the order in which an exchange can reach them. -/
def all : List ExchangeStage :=
  [created, prepared, transmitted, awaitingSubmission, submissionAccepted, submissionRejected,
    awaitingRelay, relayAccepted, relayRejected]

/-- The stages that may follow directly. -/
def next : ExchangeStage → List ExchangeStage
  | created => [prepared]
  | prepared => [transmitted]
  | transmitted => [awaitingSubmission]
  | awaitingSubmission => [submissionAccepted, submissionRejected]
  | submissionAccepted => [awaitingRelay]
  | awaitingRelay => [relayAccepted, relayRejected]
  | submissionRejected => []
  | relayAccepted => []
  | relayRejected => []

def leadsTo (s t : ExchangeStage) : Bool := t ∈ s.next

/-- The stage that a positive acknowledgement leads to. -/
def accepted : Hop → ExchangeStage
  | .submission => submissionAccepted
  | .relay => relayAccepted

/-- The stage that a negative acknowledgement leads to. -/
def rejected : Hop → ExchangeStage
  | .submission => submissionRejected
  | .relay => relayRejected

/-- An exchange ends here. -/
def isFinal : ExchangeStage → Bool
  | submissionRejected => true
  | relayAccepted => true
  | relayRejected => true
  | _ => false

theorem mem_all (s : ExchangeStage) : s ∈ all := by cases s <;> decide

/-- An exchange ends where no stage follows. -/
theorem isFinal_iff (s : ExchangeStage) : s.isFinal = true ↔ s.next = [] := by
  cases s <;> simp [isFinal, next]

end ExchangeStage
end EbmsMessaging
