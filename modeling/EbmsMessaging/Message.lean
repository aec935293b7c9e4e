import EbmsMessaging.Identifier

/-!
# Business messages

A business message names its sender, receiver, document type and process and carries payloads, each
under a content identifier of its own. It is built from a draft, which is checked as a whole: first
the identifiers, then the payloads in their order.
-/
namespace EbmsMessaging

structure Payload where
  mimeType : String
  contentId : String
  content : Bytes
deriving DecidableEq, Repr

structure BusinessMessage where
  sender : Identifier
  receiver : Identifier
  documentType : Identifier
  process : Identifier
  payloads : List Payload
deriving DecidableEq, Repr

/-- The parts that an identifier plays in a message. -/
inductive MessageRole where
  | sender
  | receiver
  | documentType
  | process
deriving DecidableEq, Repr

def MessageRole.text : MessageRole → String
  | sender => "sender"
  | receiver => "receiver"
  | documentType => "document type"
  | process => "process"

inductive MessageError where
  | missingIdentifier (role : MessageRole)
  | noPayloads
  | duplicateContentId (contentId : String)
  | emptyContentId
  | emptyMimeType (contentId : String)
deriving DecidableEq, Repr

def MessageError.message : MessageError → String
  | missingIdentifier role => s!"Business message is missing the {role.text} identifier"
  | noPayloads => "Business message must carry at least one payload"
  | duplicateContentId contentId => s!"Duplicate payload content identifier: {contentId}"
  | emptyContentId => "Payload content identifier cannot be empty"
  | emptyMimeType contentId => s!"Payload {contentId} has an empty mime type"

/-- The payload under a content identifier. -/
def BusinessMessage.payload? (m : BusinessMessage) (contentId : String) : Option Payload :=
  m.payloads.find? fun p => p.contentId = contentId

/-- A message in the making. -/
structure MessageDraft where
  sender : Option Identifier
  receiver : Option Identifier
  documentType : Option Identifier
  process : Option Identifier
  payloads : List Payload
deriving DecidableEq, Repr

namespace MessageDraft

def empty : MessageDraft := ⟨none, none, none, none, []⟩

/-- Names an identifier, in place of the one named before in this role. -/
def set (d : MessageDraft) (role : MessageRole) (i : Identifier) : MessageDraft :=
  match role with
  | .sender => { d with sender := some i }
  | .receiver => { d with receiver := some i }
  | .documentType => { d with documentType := some i }
  | .process => { d with process := some i }

/-- Adds a payload behind the others. -/
def add (d : MessageDraft) (p : Payload) : MessageDraft := { d with payloads := d.payloads ++ [p] }

/-- The first payload that is unusable next to those with the content identifiers of `seen`. -/
def payloadFault? (seen : List String) : List Payload → Option MessageError
  | [] => none
  | p :: ps =>
    if p.contentId = "" then some .emptyContentId
    else if p.mimeType = "" then some (.emptyMimeType p.contentId)
    else if p.contentId ∈ seen then some (.duplicateContentId p.contentId)
    else payloadFault? (p.contentId :: seen) ps

/-- The message that a draft amounts to. -/
def build (d : MessageDraft) : Except MessageError BusinessMessage :=
  match d.sender, d.receiver, d.documentType, d.process with
  | none, _, _, _ => .error (.missingIdentifier .sender)
  | _, none, _, _ => .error (.missingIdentifier .receiver)
  | _, _, none, _ => .error (.missingIdentifier .documentType)
  | _, _, _, none => .error (.missingIdentifier .process)
  | some sender, some receiver, some documentType, some process =>
    if d.payloads = [] then .error .noPayloads
    else match payloadFault? [] d.payloads with
      | some e => .error e
      | none => .ok ⟨sender, receiver, documentType, process, d.payloads⟩

end MessageDraft

instance : Schematic Payload where
  shape := .record <| .cons "mime_type" .required .text <| .cons "content_id" .required .text <|
    .cons "content" .required (.list .octet) .nil
  ofValue := fun (mimeType, contentId, content, _) => ⟨mimeType, contentId, content⟩
  toValue p := (p.mimeType, p.contentId, p.content, ())
  ofValue_toValue _ := rfl

instance : Schematic BusinessMessage where
  shape := .record <| .cons "sender" .required (Schematic.shape Identifier) <|
    .cons "receiver" .required (Schematic.shape Identifier) <|
    .cons "document_type" .required (Schematic.shape Identifier) <|
    .cons "process" .required (Schematic.shape Identifier) <|
    .cons "payloads" .required (Schematic.listOf Payload) .nil
  ofValue := fun (sender, receiver, documentType, process, payloads, _) =>
    ⟨Schematic.ofValue sender, Schematic.ofValue receiver, Schematic.ofValue documentType,
      Schematic.ofValue process, Schematic.ofValues payloads⟩
  toValue m := (Schematic.toValue m.sender, Schematic.toValue m.receiver,
    Schematic.toValue m.documentType, Schematic.toValue m.process,
    Schematic.toValues m.payloads, ())
  ofValue_toValue _ := by simp

end EbmsMessaging
