/-!
# Names with a meaning in envelopes

The services, actions, roles and property names that senders and gateways have agreed on.
-/
namespace EbmsMessaging.Vocabulary

/-- The service of acknowledgements and faults. -/
def signalService : String := "http://docs.oasis-open.org/ebxml-msg/as4/200902/service"

def submissionResult : String := "SubmissionResult"

def relayResult : String := "RelayResult"

def fault : String := "Fault"

def initiatorRole : String :=
  "http://docs.oasis-open.org/ebxml-msg/ebms/v3.0/ns/core/200704/initiator"

def responderRole : String :=
  "http://docs.oasis-open.org/ebxml-msg/ebms/v3.0/ns/core/200704/responder"

/-- The error code of a relay whose receipt is missing. -/
def missingReceipt : String := "EBMS:0301"

def originalSender : String := "originalSender"

def finalRecipient : String := "finalRecipient"

def service : String := "Service"

def serviceType : String := "ServiceType"

def action : String := "Action"

def toPartyId : String := "ToPartyId"

def toPartyIdType : String := "ToPartyIdType"

def toPartyRole : String := "ToPartyRole"

def toPartyCertificate : String := "ToPartyCertificate"

def targetUrl : String := "TargetURL"

def messageId : String := "MessageId"

def refToMessageId : String := "RefToMessageId"

def conversationId : String := "ConversationId"

def result : String := "Result"

def errorCode : String := "ErrorCode"

def severity : String := "severity"

def shortDescription : String := "ShortDescription"

def description : String := "Description"

end EbmsMessaging.Vocabulary
