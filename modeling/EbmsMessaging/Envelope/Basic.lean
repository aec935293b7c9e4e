import EbmsMessaging.Fault
import EbmsMessaging.Properties

/-!
# Envelopes

An envelope is the header of a message: who sends it to whom, what it is about, its properties, and
a reference to each payload. The payloads travel beside it as attachments. An envelope that reports
a failure carries a fault.
-/
namespace EbmsMessaging

structure MessageInfo where
  timestamp : Timestamp
  messageId : String
  refToMessageId : Option String
deriving DecidableEq

structure Party where
  partyId : String
  partyIdType : Option String
  role : String
deriving DecidableEq, Repr

structure PartyInfo where
  sender : Party
  receiver : Party
deriving DecidableEq, Repr

structure ServiceName where
  value : String
  type : Option String
deriving DecidableEq, Repr

structure CollaborationInfo where
  service : ServiceName
  action : String
  conversationId : String
deriving DecidableEq, Repr

/-- A reference to an attachment. -/
structure PartInfo where
  href : String
  properties : Properties
deriving DecidableEq, Repr

structure Envelope where
  messageInfo : MessageInfo
  partyInfo : PartyInfo
  collaborationInfo : CollaborationInfo
  properties : Properties
  parts : List PartInfo
  fault : Option Fault
deriving DecidableEq

/-- What travels beside an envelope. -/
structure Attachment where
  contentId : String
  mimeType : String
  data : Bytes
deriving DecidableEq, Repr

namespace PartInfo

/-- What stands before a content identifier in a reference. -/
def scheme : List Char := ['c', 'i', 'd', ':']

/-- The reference to the attachment with a content identifier, under its media type. -/
def ofContent (contentId mimeType : String) : PartInfo :=
  ⟨"cid:" ++ contentId, Properties.empty.set "MimeType" mimeType⟩

/-- The content identifier that is referred to. -/
def contentId (p : PartInfo) : String :=
  if scheme.isPrefixOf p.href.toList then String.ofList (p.href.toList.drop 4) else p.href

def mimeType? (p : PartInfo) : Option String := p.properties.value? "MimeType"

@[simp] theorem contentId_ofContent (contentId mimeType : String) :
    (ofContent contentId mimeType).contentId = contentId := by
  simp [ofContent, PartInfo.contentId, scheme]

@[simp] theorem mimeType?_ofContent (contentId mimeType : String) :
    (ofContent contentId mimeType).mimeType? = some mimeType := rfl

end PartInfo

namespace Envelope

def messageId (e : Envelope) : String := e.messageInfo.messageId

/-- The content identifiers that are referred to, in order. -/
def contentIds (e : Envelope) : List String := e.parts.map PartInfo.contentId

end Envelope

instance : Schematic MessageInfo where
  shape := .record <| .cons "Timestamp" .required .instant <| .cons "MessageId" .required .text <|
    .cons "RefToMessageId" .optional .text .nil
  ofValue := fun (timestamp, messageId, refToMessageId, _) =>
    ⟨timestamp, messageId, refToMessageId⟩
  toValue i := (i.timestamp, i.messageId, i.refToMessageId, ())
  ofValue_toValue _ := rfl

instance : Schematic Party where
  shape := .record <| .cons "PartyId" .required .text <| .cons "PartyIdType" .optional .text <|
    .cons "Role" .required .text .nil
  ofValue := fun (partyId, partyIdType, role, _) => ⟨partyId, partyIdType, role⟩
  toValue p := (p.partyId, p.partyIdType, p.role, ())
  ofValue_toValue _ := rfl

instance : Schematic PartyInfo where
  shape := .record <| .cons "From" .required (Schematic.shape Party) <|
    .cons "To" .required (Schematic.shape Party) .nil
  ofValue := fun (sender, receiver, _) => ⟨Schematic.ofValue sender, Schematic.ofValue receiver⟩
  toValue i := (Schematic.toValue i.sender, Schematic.toValue i.receiver, ())
  ofValue_toValue _ := by simp

instance : Schematic ServiceName where
  shape := .record <| .cons "Value" .required .text <| .cons "Type" .optional .text .nil
  ofValue := fun (value, type, _) => ⟨value, type⟩
  toValue s := (s.value, s.type, ())
  ofValue_toValue _ := rfl

instance : Schematic CollaborationInfo where
  shape := .record <| .cons "Service" .required (Schematic.shape ServiceName) <|
    .cons "Action" .required .text <| .cons "ConversationId" .required .text .nil
  ofValue := fun (service, action, conversationId, _) =>
    ⟨Schematic.ofValue service, action, conversationId⟩
  toValue i := (Schematic.toValue i.service, i.action, i.conversationId, ())
  ofValue_toValue _ := by simp

instance : Schematic PartInfo where
  shape := .record <| .cons "Href" .required .text <|
    .cons "PartProperties" .defaulted (Schematic.shape Properties) .nil
  ofValue := fun (href, properties, _) =>
    ⟨href, properties.elim Properties.empty Schematic.ofValue⟩
  toValue p := (p.href, some (Schematic.toValue p.properties), ())
  ofValue_toValue _ := by simp

instance : Schematic Envelope where
  shape := .record <| .cons "MessageInfo" .required (Schematic.shape MessageInfo) <|
    .cons "PartyInfo" .required (Schematic.shape PartyInfo) <|
    .cons "CollaborationInfo" .required (Schematic.shape CollaborationInfo) <|
    .cons "MessageProperties" .defaulted (Schematic.shape Properties) <|
    .cons "PayloadInfo" .defaulted (Schematic.listOf PartInfo) <|
    .cons "Fault" .optional (Schematic.shape Fault) .nil
  ofValue := fun (messageInfo, partyInfo, collaborationInfo, properties, parts, fault, _) =>
    ⟨Schematic.ofValue messageInfo, Schematic.ofValue partyInfo,
      Schematic.ofValue collaborationInfo, properties.elim Properties.empty Schematic.ofValue,
      parts.elim [] Schematic.ofValues, fault.map Schematic.ofValue⟩
  toValue e := (Schematic.toValue e.messageInfo, Schematic.toValue e.partyInfo,
    Schematic.toValue e.collaborationInfo, some (Schematic.toValue e.properties),
    some (Schematic.toValues e.parts), e.fault.map Schematic.toValue, ())
  ofValue_toValue _ := by simp

end EbmsMessaging
