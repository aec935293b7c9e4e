import EbmsMessaging.Acknowledgement
import EbmsMessaging.Envelope.Basic
import EbmsMessaging.Envelope.Identifiers
import EbmsMessaging.Json.Reader
import EbmsMessaging.Message
import EbmsMessaging.Vocabulary

/-!
# Reading envelopes

What arrives is a business message or an acknowledgement. A business message is put together from
the envelope and the attachments: every attachment has to be referred to once, and every reference
has to find its attachment. An envelope with a fault is neither.
-/
namespace EbmsMessaging

structure ReceivedMessage where
  message : BusinessMessage
  messageId : String
  conversationId : String
  /-- The properties whose identifier had no type. -/
  untyped : List String
deriving DecidableEq, Repr

inductive Arrival where
  | message (received : ReceivedMessage)
  | acknowledgement (a : Acknowledgement)
deriving DecidableEq, Repr

inductive EnvelopeError where
  | malformedEnvelope (fault : Json.Fault)
  | missingProperty (name : String)
  | invalidIdentifier (name : String) (cause : IdentifierError)
  | missingPartInfo (contentId : String)
  | missingAttachment (contentId : String)
  | duplicateAttachment (contentId : String)
  | unknownResult (text : String)
  | unknownAction (text : String)
  | unexpectedFault (messageId errorCode : String)
  | invalidMessage (cause : MessageError)
deriving DecidableEq, Repr

namespace EnvelopeError

def message : EnvelopeError → String
  | malformedEnvelope _ => "Malformed envelope"
  | missingProperty name => s!"Missing mandatory property '{name}'"
  | invalidIdentifier name cause =>
    s!"Property '{name}' does not hold a valid identifier: {cause.message}"
  | missingPartInfo contentId => s!"Attachment {contentId} has no matching PartInfo"
  | missingAttachment contentId =>
    s!"PartInfo references {contentId} but no such attachment was received"
  | duplicateAttachment contentId => s!"Attachment {contentId} was received more than once"
  | unknownResult text => s!"Unknown acknowledgement result '{text}'"
  | unknownAction text => s!"Unknown notification action '{text}'"
  | unexpectedFault messageId errorCode =>
    s!"Envelope {messageId} carries a fault ({errorCode}) instead of a message"
  | invalidMessage cause => s!"Decoded message is invalid: {cause.message}"

/-- Where in the transmission the error was found, if it has a place. -/
def place? : EnvelopeError → Option String
  | missingProperty name => some s!"MessageProperties/Property[@name='{name}']"
  | invalidIdentifier name _ => some s!"MessageProperties/Property[@name='{name}']"
  | missingPartInfo contentId => some s!"Attachment[Content-ID='<{contentId}>']"
  | duplicateAttachment contentId => some s!"Attachment[Content-ID='<{contentId}>']"
  | missingAttachment contentId => some s!"PayloadInfo/PartInfo[@href='cid:{contentId}']"
  | unknownResult _ => some "MessageProperties/Property[@name='Result']"
  | unknownAction _ => some "CollaborationInfo/Action"
  | unexpectedFault _ _ => some "Fault"
  | malformedEnvelope _ => none
  | invalidMessage _ => none

end EnvelopeError

namespace ReceivedMessage

def hasUntyped (m : ReceivedMessage) : Bool := !m.untyped.isEmpty

end ReceivedMessage

/-- What an envelope is about, judged from its service and action. -/
inductive EnvelopePurpose where
  | business
  | acknowledgement (hop : Hop)
  | fault
deriving DecidableEq, Repr

namespace Envelope

open Vocabulary

/-- The envelope that stands for these bytes on the wire. -/
def ofBytes (raw : Bytes) : Except Json.Fault Envelope := Json.parse Envelope raw

/-- Only the service of acknowledgements makes an envelope anything but a business message; with an
action of its own and a part, it is one even then. -/
def purpose (e : Envelope) : Except EnvelopeError EnvelopePurpose :=
  let action := e.collaborationInfo.action
  if e.collaborationInfo.service.value ≠ signalService then .ok .business
  else if action = submissionResult then .ok (.acknowledgement .submission)
  else if action = relayResult then .ok (.acknowledgement .relay)
  else if action = Vocabulary.fault then .ok .fault
  else if e.parts ≠ [] then .ok .business
  else .error (.unknownAction action)

/-- The identifier in a property. -/
def identifier (e : Envelope) (name : String) : Except EnvelopeError FoundIdentifier :=
  match e.properties.identifier name with
  | .ok r => .ok r
  | .error .missing => .error (.missingProperty name)
  | .error (.invalid cause) => .error (.invalidIdentifier name cause)

/-- The first attachment that has no reference or comes again. -/
def attachmentFault? (e : Envelope) (seen : List String) : List Attachment → Option EnvelopeError
  | [] => none
  | a :: as =>
    if a.contentId ∉ e.contentIds then some (.missingPartInfo a.contentId)
    else if a.contentId ∈ seen then some (.duplicateAttachment a.contentId)
    else e.attachmentFault? (a.contentId :: seen) as

/-- The payloads that the references stand for. Each attachment serves one reference. -/
def payloads : List PartInfo → List Attachment → Except EnvelopeError (List Payload)
  | [], _ => .ok []
  | p :: ps, attachments =>
    match attachments.find? fun a => a.contentId = p.contentId with
    | none => .error (.missingAttachment p.contentId)
    | some a => do
      let rest ← payloads ps (attachments.filter fun a => a.contentId ≠ p.contentId)
      return ⟨p.mimeType?.getD a.mimeType, p.contentId, a.data⟩ :: rest

/-- The properties that hold the identifiers of a message. -/
def identifierProperties : List String := [originalSender, finalRecipient, action, service]

/-- The business message of an envelope and its attachments. -/
def receivedMessage (e : Envelope) (attachments : List Attachment) :
    Except EnvelopeError ReceivedMessage := do
  let sender ← e.identifier originalSender
  let receiver ← e.identifier finalRecipient
  let documentType ← e.identifier action
  let process ← e.identifier service
  match e.attachmentFault? [] attachments with
  | some fault => .error fault
  | none =>
    let payloads ← payloads e.parts attachments
    let draft : MessageDraft := ⟨some sender.identifier, some receiver.identifier,
      some documentType.identifier, some process.identifier, payloads⟩
    match draft.build with
    | .error cause => .error (.invalidMessage cause)
    | .ok message =>
      let forms := [sender.form, receiver.form, documentType.form, process.form]
      let untyped := (identifierProperties.zip forms).filter fun (_, form) => form = .uri
      return ⟨message, e.messageId, e.collaborationInfo.conversationId, untyped.map Prod.fst⟩

/-- A property that has to be there. -/
def mandatory (e : Envelope) (name : String) : Except EnvelopeError String :=
  match e.properties.value? name with
  | some value => .ok value
  | none => .error (.missingProperty name)

/-- The acknowledgement that an envelope carries. -/
def acknowledgement (e : Envelope) (hop : Hop) : Except EnvelopeError Acknowledgement := do
  let key ← e.mandatory refToMessageId
  let messageId := e.properties.value? Vocabulary.messageId
  let text ← e.mandatory result
  match Verdict.ofText? text with
  | none => .error (.unknownResult text)
  | some .receipt => return .positive hop key messageId
  | some .error =>
    let code ← e.mandatory errorCode
    return .negative hop key messageId ⟨code, e.properties.value? severity,
      e.properties.value? shortDescription, e.properties.value? description⟩

/-- What an envelope and its attachments stand for. -/
def arrival (e : Envelope) (attachments : List Attachment) : Except EnvelopeError Arrival :=
  match e.fault with
  | some fault => .error (.unexpectedFault e.messageId fault.code)
  | none => do
    match ← e.purpose with
    | .business => return .message (← e.receivedMessage attachments)
    | .acknowledgement hop => return .acknowledgement (← e.acknowledgement hop)
    | .fault => .error (.unexpectedFault e.messageId "")

end Envelope

/-- What bytes on the wire and attachments stand for. -/
def Arrival.ofBytes (raw : Bytes) (attachments : List Attachment) : Except EnvelopeError Arrival :=
  match Envelope.ofBytes raw with
  | .error fault => .error (.malformedEnvelope fault)
  | .ok e => e.arrival attachments

/-- The fault in bytes on the wire, if they carry one. -/
def Fault.ofBytes (raw : Bytes) : Except EnvelopeError (Option Fault) :=
  match Envelope.ofBytes raw with
  | .error fault => .error (.malformedEnvelope fault)
  | .ok e => .ok e.fault

end EbmsMessaging
