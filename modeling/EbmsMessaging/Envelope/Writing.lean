import EbmsMessaging.Acknowledgement
import EbmsMessaging.Envelope.Agreement
import EbmsMessaging.Json.Writer
import EbmsMessaging.Message
import EbmsMessaging.Route
import EbmsMessaging.Text.Base64

/-!
# Writing envelopes

A business message becomes an envelope and one attachment for each payload. An acknowledgement and a
fault become envelopes of their own, which go from the gateway back to the sender and carry no
attachments.
-/
namespace EbmsMessaging

structure PreparedMessage where
  envelope : Envelope
  attachments : List Attachment
deriving DecidableEq

inductive PrepareError where
  | noPayloads
deriving DecidableEq, Repr

def PrepareError.message : PrepareError → String
  | noPayloads => "Cannot encode a message without payloads"

namespace PreparedMessage

def messageId (m : PreparedMessage) : String := m.envelope.messageId

def conversationId (m : PreparedMessage) : String := m.envelope.collaborationInfo.conversationId

end PreparedMessage

/-- The bytes of an envelope on the wire. -/
def Envelope.toBytes (e : Envelope) : Bytes := Json.render e

/-- The attachment that carries a payload. -/
def Payload.attachment (p : Payload) : Attachment := ⟨p.contentId, p.mimeType, p.content⟩

/-- The reference to the attachment that carries a payload. -/
def Payload.part (p : Payload) : PartInfo := .ofContent p.contentId p.mimeType

/-- The property that holds an identifier: its value, with the scheme as type. -/
def Identifier.property (i : Identifier) (name : String) : Property := .typed name i.value i.scheme

namespace Agreement

open Vocabulary

/-- The properties of a business message. -/
def messageProperties (a : Agreement) (s : Stamp) (r : Route) (m : BusinessMessage) :
    Properties :=
  Properties.empty
    |>.insert (m.sender.property originalSender)
    |>.insert (m.receiver.property finalRecipient)
    |>.insert (m.process.property service)
    |>.set serviceType m.process.scheme
    |>.insert (m.documentType.property action)
    |>.set toPartyId m.receiver.value
    |>.set toPartyIdType m.receiver.scheme
    |>.set toPartyRole responderRole
    |>.setIfSome toPartyCertificate (r.certificate.map Base64.encode)
    |>.setIfSome targetUrl r.endpointUrl
    |>.set messageId (a.freshId s)
    |>.set conversationId s.conversation.text

/-- The envelope of a business message. -/
def messageEnvelope (a : Agreement) (s : Stamp) (r : Route) (m : BusinessMessage) :
    Envelope where
  messageInfo := ⟨s.timestamp, a.freshId s, none⟩
  partyInfo := ⟨a.localParty, a.gatewayParty⟩
  collaborationInfo :=
    ⟨⟨m.process.value, some m.process.scheme⟩, m.documentType.uri, s.conversation.text⟩
  properties := a.messageProperties s r m
  parts := m.payloads.map Payload.part
  fault := none

/-- A business message with at least one payload, ready to be sent. -/
def prepare (a : Agreement) (s : Stamp) (r : Route) (m : BusinessMessage) :
    Except PrepareError PreparedMessage :=
  if m.payloads = [] then .error .noPayloads
  else .ok ⟨a.messageEnvelope s r m, m.payloads.map Payload.attachment⟩

/-- An envelope from the gateway. It belongs to the conversation that is named like the message it
refers to, or like itself. -/
def signalEnvelope (a : Agreement) (s : Stamp) (messageId : String)
    (refToMessageId : Option String) (action : String) (properties : Properties)
    (fault : Option Fault) : Envelope where
  messageInfo := ⟨s.timestamp, messageId, refToMessageId⟩
  partyInfo := ⟨a.gatewayParty, a.localParty⟩
  collaborationInfo := ⟨⟨signalService, none⟩, action, refToMessageId.getD messageId⟩
  properties := properties
  parts := []
  fault := fault

end Agreement

namespace Acknowledgement

open Vocabulary

/-- The action of an envelope that carries an acknowledgement. -/
def action (k : Acknowledgement) : String :=
  match k.hop with
  | .submission => submissionResult
  | .relay => relayResult

/-- The properties of an acknowledgement. -/
def properties (k : Acknowledgement) : Properties :=
  let base := Properties.empty
    |>.setIfSome Vocabulary.messageId k.messageId
    |>.set refToMessageId k.key
    |>.set Vocabulary.result k.verdict.text
  match k.detail with
  | none => base
  | some d => base
    |>.set Vocabulary.errorCode d.code
    |>.setIfSome severity d.severity
    |>.setIfSome shortDescription d.shortDescription
    |>.setIfSome description d.description

end Acknowledgement

namespace Agreement

/-- The envelope of an acknowledgement. It has the identifier of the acknowledgement or, if that has
none, a fresh one. -/
def acknowledgementEnvelope (a : Agreement) (s : Stamp) (k : Acknowledgement) : Envelope :=
  a.signalEnvelope s (k.messageId.getD (a.freshId s)) (some k.key) k.action k.properties none

/-- The envelope of a fault. -/
def faultEnvelope (a : Agreement) (s : Stamp) (f : Fault) : Envelope :=
  a.signalEnvelope s (a.freshId s) f.refToMessageId Vocabulary.fault .empty (some f)

end Agreement
end EbmsMessaging
