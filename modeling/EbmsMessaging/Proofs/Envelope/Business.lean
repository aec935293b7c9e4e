import EbmsMessaging.Proofs.Envelope.Attachments
import EbmsMessaging.Proofs.Envelope.Wire
import EbmsMessaging.Proofs.Identifier

/-!
# Business messages arrive as they were sent

An envelope keeps the identifiers of its message in four properties that no other property
overwrites. Its action is the URI form of the document type, which is none of the actions of
acknowledgements and faults, so even under their service it is read as a business message.
-/
namespace EbmsMessaging

namespace Properties

theorem get?_insert_property (ps : Properties) (i : Identifier) (name : String) :
    (ps.insert (i.property name)).get? name = some (i.property name) :=
  get?_insert_self ps (i.property name)

theorem get?_insert_property_of_ne (ps : Properties) (i : Identifier) {name other : String}
    (h : name ≠ other) : (ps.insert (i.property name)).get? other = ps.get? other :=
  get?_insert_of_ne ps h

/-- An identifier with its scheme as type is read back. -/
theorem identifier_of_property {ps : Properties} {name : String} {i : Identifier} (hi : i.Made)
    (h : ps.get? name = some (i.property name)) : ps.identifier name = .ok ⟨i, .typed⟩ := by
  have htype : (some i.scheme).filter (fun type => type ≠ "") = some i.scheme := by
    simp [hi.scheme_ne]
  simp only [identifier, h, Identifier.property, Property.typed, htype, hi.ofParts_eq]

end Properties

/-- The actions of acknowledgements and faults have no colon. -/
theorem Envelope.purpose_eq_business {e : Envelope}
    (haction : ':' ∈ e.collaborationInfo.action.toList) (hparts : e.parts ≠ []) :
    e.purpose = .ok .business := by
  have hne : ∀ {text : String}, ':' ∉ text.toList → e.collaborationInfo.action ≠ text := by
    rintro text hcolon rfl
    exact hcolon haction
  have hsubmission : e.collaborationInfo.action ≠ Vocabulary.submissionResult := hne (by decide)
  have hrelay : e.collaborationInfo.action ≠ Vocabulary.relayResult := hne (by decide)
  have hfault : e.collaborationInfo.action ≠ Vocabulary.fault := hne (by decide)
  by_cases hservice : e.collaborationInfo.service.value ≠ Vocabulary.signalService
  · exact if_pos hservice
  · simp only [purpose, if_neg hservice, if_neg hsubmission, if_neg hrelay, if_neg hfault,
      if_pos hparts]

/-- Every identifier of a message was made from its parts. -/
def BusinessMessage.Made (m : BusinessMessage) : Prop :=
  m.sender.Made ∧ m.receiver.Made ∧ m.documentType.Made ∧ m.process.Made

namespace Agreement

open Vocabulary

variable (a : Agreement) (s : Stamp) (r : Route)

/-- No other property overwrites an identifier. -/
theorem get?_messageProperties (m : BusinessMessage) :
    (a.messageProperties s r m).get? originalSender = some (m.sender.property originalSender) ∧
      (a.messageProperties s r m).get? finalRecipient =
        some (m.receiver.property finalRecipient) ∧
      (a.messageProperties s r m).get? action = some (m.documentType.property action) ∧
      (a.messageProperties s r m).get? service = some (m.process.property service) := by
  refine ⟨?_, ?_, ?_, ?_⟩ <;>
    simp (disch := decide) only [messageProperties, Properties.get?_set_of_ne,
      Properties.get?_setIfSome_of_ne, Properties.get?_insert_property_of_ne,
      Properties.get?_insert_property]

theorem contentIds_messageEnvelope (m : BusinessMessage) :
    (a.messageEnvelope s r m).contentIds = m.payloads.map Payload.contentId := by
  simp [Envelope.contentIds, messageEnvelope, Payload.part, Function.comp_def]

theorem attachmentFault?_messageEnvelope {m : BusinessMessage}
    (hnodup : (m.payloads.map Payload.contentId).Nodup) {as : List Attachment}
    (hperm : as.Perm (m.payloads.map Payload.attachment)) :
    (a.messageEnvelope s r m).attachmentFault? [] as = none := by
  have hids : (as.map Attachment.contentId).Perm (m.payloads.map Payload.contentId) := by
    have := hperm.map Attachment.contentId
    rwa [List.map_map] at this
  refine Envelope.attachmentFault?_eq_none.mpr
    ⟨fun b hb => ?_, fresh_nil.mpr (hids.nodup_iff.mpr hnodup)⟩
  rw [contentIds_messageEnvelope]
  exact hids.mem_iff.mp (List.mem_map_of_mem hb)

/-- A message that could be built is found in its envelope, in whatever order its attachments
come. -/
theorem receivedMessage_messageEnvelope {d : MessageDraft} {m : BusinessMessage}
    (hbuild : d.build = .ok m) (hmade : m.Made) {as : List Attachment}
    (hperm : as.Perm (m.payloads.map Payload.attachment)) :
    (a.messageEnvelope s r m).receivedMessage as =
      .ok ⟨m, a.freshId s, s.conversation.text, []⟩ := by
  obtain ⟨rfl, hpayloads, hcompatible⟩ := MessageDraft.build_eq_ok.mp hbuild
  obtain ⟨hsender, hreceiver, hdocumentType, hprocess⟩ := a.get?_messageProperties s r m
  have hsender := Properties.identifier_of_property hmade.1 hsender
  have hreceiver := Properties.identifier_of_property hmade.2.1 hreceiver
  have hdocumentType := Properties.identifier_of_property hmade.2.2.1 hdocumentType
  have hprocess := Properties.identifier_of_property hmade.2.2.2 hprocess
  have hfault := a.attachmentFault?_messageEnvelope s r hcompatible.nodup hperm
  have hfound : Envelope.payloads (a.messageEnvelope s r m).parts as = .ok m.payloads :=
    Envelope.payloads_of_perm hcompatible.nodup hperm
  have hproperties : (a.messageEnvelope s r m).properties = a.messageProperties s r m := rfl
  simp only [Envelope.receivedMessage, Envelope.identifier, hproperties, hsender, hreceiver,
    hdocumentType, hprocess, hfault, hfound, hbuild, bind, Except.bind, pure, Except.pure]
  rfl

theorem purpose_messageEnvelope {d : MessageDraft} {m : BusinessMessage} (hbuild : d.build = .ok m) :
    (a.messageEnvelope s r m).purpose = .ok .business := by
  have hparts : (a.messageEnvelope s r m).parts ≠ [] := by
    simpa [messageEnvelope] using (MessageDraft.build_eq_ok.mp hbuild).2.1
  exact Envelope.purpose_eq_business m.documentType.colon_mem_uri hparts

/-- A message that could be built arrives as it was sent, in whatever order its attachments come. -/
theorem arrival_messageEnvelope {d : MessageDraft} {m : BusinessMessage} (hbuild : d.build = .ok m)
    (hmade : m.Made) {as : List Attachment}
    (hperm : as.Perm (m.payloads.map Payload.attachment)) :
    (a.messageEnvelope s r m).arrival as =
      .ok (.message ⟨m, a.freshId s, s.conversation.text, []⟩) := by
  have hpurpose := a.purpose_messageEnvelope s r hbuild
  have hreceived := a.receivedMessage_messageEnvelope s r hbuild hmade hperm
  have hfault : (a.messageEnvelope s r m).fault = none := rfl
  simp only [Envelope.arrival, hfault, hpurpose, hreceived, bind, Except.bind, pure, Except.pure]

/-- A message that is built from identifiers made from their parts can be prepared, and what is
prepared arrives over the wire as that message, in whatever order the attachments come. Who reads it
needs no agreement. -/
theorem prepared_message_arrives {d : MessageDraft} {m : BusinessMessage}
    (hbuild : d.build = .ok m) (hmade : m.Made) :
    ∃ e, a.prepare s r m = .ok e ∧ ∀ as, as.Perm e.attachments →
      Arrival.ofBytes e.envelope.toBytes as =
        .ok (.message ⟨m, e.messageId, e.conversationId, []⟩) := by
  have hpayloads := (MessageDraft.build_eq_ok.mp hbuild).2.1
  refine ⟨_, if_neg hpayloads, fun as hperm => ?_⟩
  rw [Arrival.ofBytes, Envelope.ofBytes_toBytes]
  exact a.arrival_messageEnvelope s r hbuild hmade hperm

/-- The service of acknowledgements is the value of its process, and one of its content identifiers
begins like a reference. -/
def misleadingMessage : BusinessMessage where
  sender := ⟨"iso6523", "0088:a"⟩
  receiver := ⟨"iso6523", "0088:b"⟩
  documentType := ⟨"busdox", "Fault"⟩
  process := ⟨"process", signalService⟩
  payloads := [⟨"application/xml", "cid:1", [0x3C, 0x3E]⟩, ⟨"text/plain", "1", []⟩]

def sampleStamp : Stamp := ⟨⟨0⟩, ⟨1⟩, ⟨⟨2024, 2, 29, by decide⟩, 23, 59, 60, 1, by decide⟩⟩

def sampleRoute : Route :=
  ⟨misleadingMessage.sender, misleadingMessage.receiver, misleadingMessage.documentType,
    misleadingMessage.process, "as4", some "https://b", some [0x30]⟩

theorem misleading_message_arrives :
    MessageDraft.build ⟨some misleadingMessage.sender, some misleadingMessage.receiver,
        some misleadingMessage.documentType, some misleadingMessage.process,
        misleadingMessage.payloads⟩ = .ok misleadingMessage ∧
      misleadingMessage.Made ∧
      ∃ e, standard.prepare sampleStamp sampleRoute misleadingMessage = .ok e ∧
        Arrival.ofBytes e.envelope.toBytes e.attachments.reverse =
          .ok (.message ⟨misleadingMessage, e.messageId, e.conversationId, []⟩) := by
  have hbuild : MessageDraft.build ⟨some misleadingMessage.sender,
      some misleadingMessage.receiver, some misleadingMessage.documentType,
      some misleadingMessage.process, misleadingMessage.payloads⟩ = .ok misleadingMessage := by
    decide
  have hmade : misleadingMessage.Made :=
    ⟨⟨"iso6523", "0088:a", rfl⟩, ⟨"iso6523", "0088:b", rfl⟩, ⟨"busdox", "Fault", rfl⟩,
      ⟨"process", signalService, rfl⟩⟩
  obtain ⟨e, he, harrives⟩ :=
    standard.prepared_message_arrives sampleStamp sampleRoute hbuild hmade
  exact ⟨hbuild, hmade, e, he, harrives _ (List.reverse_perm _)⟩

end Agreement
end EbmsMessaging
