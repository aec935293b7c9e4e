import EbmsMessaging.Proofs.Envelope.Business
import EbmsMessaging.Proofs.Outcome
import Mathlib.Data.List.Induction

/-!
# Which business envelopes are accepted

An envelope is accepted with its attachments when its four identifiers can be read, references and
attachments stand for each other one to one, and every payload that comes out of them is usable.
The checks are made one after the other along two lists, and each looks at what came before. So an
envelope is either acceptable, or there is a first check that fails, and this one is reported.
-/
namespace EbmsMessaging.Envelope

open Vocabulary

/-- All identifiers can be read. -/
def Identified (e : Envelope) : Prop :=
  ∀ name ∈ identifierProperties, ∃ found, e.identifier name = .ok found

/-- Everything that a business message needs is there. -/
structure Acceptable (e : Envelope) (as : List Attachment) : Prop where
  identified : e.Identified
  parts_ne : e.parts ≠ []
  contentId_ne : ∀ p ∈ e.parts, p.contentId ≠ ""
  parts_nodup : e.contentIds.Nodup
  attachments_nodup : (as.map Attachment.contentId).Nodup
  same : ∀ contentId, contentId ∈ as.map Attachment.contentId ↔ contentId ∈ e.contentIds
  /-- A media type comes from the reference, or else from the attachment. -/
  mimeType_ne : ∀ p ∈ e.parts, ∀ a ∈ as, a.contentId = p.contentId →
    p.mimeType?.getD a.mimeType ≠ ""

/-- Attachments that are all referred to, none of them twice. -/
def Welcome (e : Envelope) (as : List Attachment) : Prop :=
  (∀ a ∈ as, a.contentId ∈ e.contentIds) ∧ (as.map Attachment.contentId).Nodup

/-- References with an attachment for each. -/
def Served (as : List Attachment) (ps : List PartInfo) : Prop :=
  (∀ p ∈ ps, p.contentId ∈ as.map Attachment.contentId) ∧ (ps.map PartInfo.contentId).Nodup

/-- References that stand for payloads with a content identifier and a media type. -/
def Usable (as : List Attachment) (ps : List PartInfo) : Prop :=
  ∀ p ∈ ps, p.contentId ≠ "" ∧
    ∀ a ∈ as, a.contentId = p.contentId → p.mimeType?.getD a.mimeType ≠ ""

/-- The error of the first check that fails. The identifiers come first, then the attachments as
they were received, then the references, and at last the payloads. -/
inductive Refused (e : Envelope) (as : List Attachment) : EnvelopeError → Prop where
  | identifier {before after : List String} {name : String} {error : EnvelopeError}
    (hsplit : identifierProperties = before ++ name :: after)
    (hbefore : ∀ other ∈ before, ∃ found, e.identifier other = .ok found)
    (hname : e.identifier name = .error error) : Refused e as error
  | unreferenced {before after : List Attachment} {a : Attachment} (hids : e.Identified)
    (hsplit : as = before ++ a :: after) (hbefore : e.Welcome before)
    (ha : a.contentId ∉ e.contentIds) : Refused e as (.missingPartInfo a.contentId)
  | repeated {before after : List Attachment} {a : Attachment} (hids : e.Identified)
    (hsplit : as = before ++ a :: after) (hbefore : e.Welcome before)
    (ha : a.contentId ∈ e.contentIds) (hagain : a.contentId ∈ before.map Attachment.contentId) :
    Refused e as (.duplicateAttachment a.contentId)
  | unserved {before after : List PartInfo} {p : PartInfo} (hids : e.Identified)
    (has : e.Welcome as) (hsplit : e.parts = before ++ p :: after) (hbefore : Served as before)
    (hp : p.contentId ∈ as.map Attachment.contentId →
      p.contentId ∈ before.map PartInfo.contentId) :
    Refused e as (.missingAttachment p.contentId)
  | noPayloads (hids : e.Identified) (has : e.Welcome as) (hparts : e.parts = []) :
    Refused e as (.invalidMessage .noPayloads)
  | emptyContentId {before after : List PartInfo} {p : PartInfo} (hids : e.Identified)
    (has : e.Welcome as) (hserved : Served as e.parts) (hsplit : e.parts = before ++ p :: after)
    (hbefore : Usable as before) (hp : p.contentId = "") :
    Refused e as (.invalidMessage .emptyContentId)
  | emptyMimeType {before after : List PartInfo} {p : PartInfo} {a : Attachment}
    (hids : e.Identified) (has : e.Welcome as) (hserved : Served as e.parts)
    (hsplit : e.parts = before ++ p :: after) (hbefore : Usable as before)
    (hp : p.contentId ≠ "") (ha : a ∈ as) (hid : a.contentId = p.contentId)
    (hmime : p.mimeType?.getD a.mimeType = "") :
    Refused e as (.invalidMessage (.emptyMimeType p.contentId))

instance (e : Envelope) : Decidable e.Identified :=
  decidable_of_iff (∀ name ∈ identifierProperties, (e.identifier name).isOk) <| by
    refine forall₂_congr fun name _ => ?_
    cases e.identifier name <;> simp [Except.isOk, Except.toBool]

instance (e : Envelope) (as : List Attachment) : Decidable (e.Welcome as) :=
  inferInstanceAs (Decidable (_ ∧ _))

instance (as : List Attachment) (ps : List PartInfo) : Decidable (Served as ps) :=
  inferInstanceAs (Decidable (_ ∧ _))

instance (as : List Attachment) (ps : List PartInfo) : Decidable (Usable as ps) :=
  inferInstanceAs (Decidable (∀ p ∈ ps, _ ∧ _))

/-- A payload is made of a reference and the attachment under its content identifier. -/
def Fills (as : List Attachment) (p : PartInfo) (q : Payload) : Prop :=
  ∃ a ∈ as, a.contentId = p.contentId ∧ q = ⟨p.mimeType?.getD a.mimeType, p.contentId, a.data⟩

/-- What the message of an accepted envelope is. -/
structure Describes (e : Envelope) (as : List Attachment) (m : BusinessMessage) : Prop where
  sender : ∃ form, e.identifier originalSender = .ok ⟨m.sender, form⟩
  receiver : ∃ form, e.identifier finalRecipient = .ok ⟨m.receiver, form⟩
  documentType : ∃ form, e.identifier action = .ok ⟨m.documentType, form⟩
  process : ∃ form, e.identifier service = .ok ⟨m.process, form⟩
  /-- The payloads come in the order of the references. -/
  payloads : List.Forall₂ (Fills as) e.parts m.payloads

theorem acceptable_iff {e : Envelope} {as : List Attachment} : e.Acceptable as ↔
    e.Identified ∧ e.Welcome as ∧ Served as e.parts ∧ e.parts ≠ [] ∧ Usable as e.parts := by
  constructor
  · intro h
    refine ⟨h.identified, ⟨fun a ha => ?_, h.attachments_nodup⟩, ⟨fun p hp => ?_, h.parts_nodup⟩,
      h.parts_ne, fun p hp => ⟨h.contentId_ne p hp, h.mimeType_ne p hp⟩⟩
    · exact (h.same _).mp (List.mem_map_of_mem ha)
    · exact (h.same _).mpr (List.mem_map_of_mem hp)
  · rintro ⟨hids, ⟨hreferenced, hnodup⟩, ⟨hserved, hparts⟩, hne, husable⟩
    refine ⟨hids, hne, fun p hp => (husable p hp).1, hparts, hnodup, fun contentId => ⟨?_, ?_⟩,
      fun p hp => (husable p hp).2⟩
    · intro hmem
      obtain ⟨a, ha, rfl⟩ := List.mem_map.mp hmem
      exact hreferenced a ha
    · intro hmem
      obtain ⟨p, hp, rfl⟩ := List.mem_map.mp hmem
      exact hserved p hp

instance (e : Envelope) (as : List Attachment) : Decidable (e.Acceptable as) :=
  decidable_of_iff' _ acceptable_iff

/-! ## The first failure along a list -/

/-- What holds of nothing holds of a whole list, or there is a first element with which it no longer
holds. -/
theorem all_or_first {α : Type} {Q : List α → Prop} (hnil : Q []) (xs : List α) :
    Q xs ∨ ∃ before x after, xs = before ++ x :: after ∧ Q before ∧ ¬Q (before ++ [x]) := by
  induction xs using List.reverseRecOn with
  | nil => exact .inl hnil
  | append_singleton xs x ih =>
    rcases ih with hall | ⟨before, y, after, rfl, hbefore, hfirst⟩
    · by_cases hx : Q (xs ++ [x])
      · exact .inl hx
      · exact .inr ⟨xs, x, [], rfl, hall, hx⟩
    · exact .inr ⟨before, y, after ++ [x], by simp, hbefore, hfirst⟩

section Lists

variable {e : Envelope} {as bs before after : List Attachment} {a : Attachment}
  {ps qs : List PartInfo} {p : PartInfo}

theorem welcome_concat : e.Welcome (before ++ [a]) ↔ e.Welcome before ∧
    a.contentId ∈ e.contentIds ∧ a.contentId ∉ before.map Attachment.contentId := by
  simp only [Welcome, List.forall_mem_append, List.forall_mem_singleton, List.map_append,
    List.map_singleton]
  rw [← List.concat_eq_append, List.nodup_concat]
  tauto

theorem served_concat : Served as (ps ++ [p]) ↔ Served as ps ∧
    p.contentId ∈ as.map Attachment.contentId ∧ p.contentId ∉ ps.map PartInfo.contentId := by
  simp only [Served, List.forall_mem_append, List.forall_mem_singleton, List.map_append,
    List.map_singleton]
  rw [← List.concat_eq_append, List.nodup_concat]
  tauto

theorem usable_concat : Usable as (ps ++ [p]) ↔ Usable as ps ∧ p.contentId ≠ "" ∧
    ∀ a ∈ as, a.contentId = p.contentId → p.mimeType?.getD a.mimeType ≠ "" := by
  rw [Usable, List.forall_mem_append, List.forall_mem_singleton, Usable]

/-! ## Attachments one by one -/

theorem Welcome.attachmentFault?_eq_none (h : e.Welcome as) : e.attachmentFault? [] as = none :=
  Envelope.attachmentFault?_eq_none.mpr ⟨h.1, fresh_nil.mpr h.2⟩

/-- Behind attachments without a fault the next ones are looked at. -/
theorem attachmentFault?_append {seen : List String} (h : e.attachmentFault? seen before = none)
    (after : List Attachment) : e.attachmentFault? seen (before ++ after) =
      e.attachmentFault? ((before.map Attachment.contentId).reverse ++ seen) after := by
  induction before generalizing seen with
  | nil => rfl
  | cons b before ih =>
    rw [attachmentFault?] at h
    rw [List.cons_append, attachmentFault?]
    by_cases hid : b.contentId ∈ e.contentIds
    · by_cases hseen : b.contentId ∈ seen
      · simp [hid, hseen] at h
      rw [if_neg (not_not_intro hid), if_neg hseen] at h ⊢
      rw [ih h]
      simp
    · simp [hid] at h

theorem Welcome.attachmentFault?_unreferenced (h : e.Welcome before)
    (ha : a.contentId ∉ e.contentIds) : e.attachmentFault? [] (before ++ a :: after) =
      some (.missingPartInfo a.contentId) := by
  rw [attachmentFault?_append h.attachmentFault?_eq_none, attachmentFault?, if_pos ha]

theorem Welcome.attachmentFault?_repeated (h : e.Welcome before)
    (ha : a.contentId ∈ e.contentIds) (hagain : a.contentId ∈ before.map Attachment.contentId) :
    e.attachmentFault? [] (before ++ a :: after) = some (.duplicateAttachment a.contentId) := by
  have hseen : a.contentId ∈ (before.map Attachment.contentId).reverse ++ [] := by
    rw [List.append_nil]
    exact List.mem_reverse.mpr hagain
  rw [attachmentFault?_append h.attachmentFault?_eq_none, attachmentFault?,
    if_neg (not_not_intro ha), if_pos hseen]

/-! ## References one by one -/

/-- What is left for the references behind the first one. -/
theorem Served.tail {p : PartInfo} (h : Served as (p :: ps)) :
    Served (as.filter fun a => a.contentId ≠ p.contentId) ps := by
  obtain ⟨hall, hnodup⟩ := h
  obtain ⟨hnew, hnodup⟩ := List.nodup_cons.mp hnodup
  refine ⟨fun q hq => ?_, hnodup⟩
  obtain ⟨a, ha, hid⟩ := List.mem_map.mp (hall q (List.mem_cons_of_mem _ hq))
  refine List.mem_map.mpr ⟨a, List.mem_filter.mpr ⟨ha, ?_⟩, hid⟩
  have hne : q.contentId ≠ p.contentId := fun heq => hnew (heq ▸ List.mem_map_of_mem hq)
  simpa [hid] using hne

theorem Served.find? {p : PartInfo} (h : Served as (p :: ps)) :
    ∃ a, (as.find? fun a => a.contentId = p.contentId) = some a := by
  obtain ⟨a, ha, hid⟩ := List.mem_map.mp (h.1 p List.mem_cons_self)
  exact Option.isSome_iff_exists.mp (List.find?_isSome.mpr ⟨a, ha, by simpa using hid⟩)

/-- A reference whose attachment is not there, or was taken by an earlier one, is reported. -/
theorem payloads_unserved {before after : List PartInfo} (hbefore : Served as before)
    (hp : p.contentId ∈ as.map Attachment.contentId → p.contentId ∈ before.map PartInfo.contentId) :
    payloads (before ++ p :: after) as = .error (.missingAttachment p.contentId) := by
  induction before generalizing as with
  | nil =>
    have hnone : (as.find? fun a => a.contentId = p.contentId) = none := by
      refine List.find?_eq_none.mpr fun a ha heq => ?_
      have hid : a.contentId = p.contentId := by simpa using heq
      exact absurd (hp (List.mem_map.mpr ⟨a, ha, hid⟩)) List.not_mem_nil
    rw [List.nil_append, payloads, hnone]
  | cons q before ih =>
    obtain ⟨a, ha⟩ := hbefore.find?
    have hrest : payloads (before ++ p :: after)
        (as.filter fun a => a.contentId ≠ q.contentId) =
          .error (.missingAttachment p.contentId) := by
      refine ih hbefore.tail fun hmem => ?_
      obtain ⟨b, hb, hid⟩ := List.mem_map.mp hmem
      obtain ⟨hb, hne⟩ := List.mem_filter.mp hb
      have hlater := hp (List.mem_map.mpr ⟨b, hb, hid⟩)
      rw [List.map_cons, List.mem_cons] at hlater
      refine hlater.resolve_left fun heq => ?_
      simp [hid, heq] at hne
    rw [List.cons_append, payloads, ha]
    simp only [hrest, bind, Except.bind]

/-- References with attachments stand for payloads. -/
theorem exists_fills (h : ∀ p ∈ ps, p.contentId ∈ as.map Attachment.contentId) :
    ∃ qs, List.Forall₂ (Fills as) ps qs := by
  induction ps with
  | nil => exact ⟨[], .nil⟩
  | cons p ps ih =>
    obtain ⟨a, ha, hid⟩ := List.mem_map.mp (h p List.mem_cons_self)
    obtain ⟨qs, hqs⟩ := ih fun q hq => h q (List.mem_cons_of_mem p hq)
    exact ⟨_ :: qs, .cons ⟨a, ha, hid, rfl⟩ hqs⟩

/-- Among attachments under different identifiers only one payload fills a reference. -/
theorem payloads_of_fills {qs : List Payload} (h : List.Forall₂ (Fills as) ps qs)
    (hnodup : (as.map Attachment.contentId).Nodup) (hids : (ps.map PartInfo.contentId).Nodup) :
    payloads ps as = .ok qs := by
  induction ps generalizing as qs with
  | nil =>
    obtain rfl := List.forall₂_nil_left_iff.mp h
    rfl
  | cons p ps ih =>
    obtain ⟨q, rest, ⟨a, ha, hid, rfl⟩, hrest, rfl⟩ := List.forall₂_cons_left_iff.mp h
    obtain ⟨hnew, hids⟩ := List.nodup_cons.mp hids
    have hfind := find?_contentId hnodup ha
    rw [hid] at hfind
    -- The attachment of this reference is none of those that the others look for.
    have hothers : List.Forall₂ (Fills (as.filter fun a => a.contentId ≠ p.contentId)) ps rest := by
      refine (List.forall₂_and_left ..).mpr ⟨fun q hq => hq, hrest⟩ |>.imp ?_
      rintro q payload ⟨hq, b, hb, hbid, heq⟩
      have hne : q.contentId ≠ p.contentId := fun heq => hnew (heq ▸ List.mem_map_of_mem hq)
      exact ⟨b, List.mem_filter.mpr ⟨hb, by simpa [hbid] using hne⟩, hbid, heq⟩
    have hrest := ih hothers (hnodup.sublist (List.filter_sublist.map _)) hids
    rw [payloads, hfind]
    simp only [hrest, bind, Except.bind, pure, Except.pure]

theorem map_contentId_of_fills {qs : List Payload} (h : List.Forall₂ (Fills as) ps qs) :
    qs.map Payload.contentId = ps.map PartInfo.contentId := by
  induction h with
  | nil => rfl
  | cons hpq _ ih =>
    obtain ⟨a, -, -, rfl⟩ := hpq
    rw [List.map_cons, List.map_cons, ih]

/-- Usable references stand for payloads that can stand side by side. -/
theorem Usable.compatible {qs : List Payload} (h : Usable as ps)
    (hids : (ps.map PartInfo.contentId).Nodup) (hfills : List.Forall₂ (Fills as) ps qs) :
    Payload.Compatible qs := by
  refine ⟨fun q hq => ?_, fun q hq => ?_, map_contentId_of_fills hfills ▸ hids⟩
  · obtain ⟨p, hp, a, -, -, rfl⟩ := exists_of_mem_left hfills.flip hq
    exact (h p hp).1
  · obtain ⟨p, hp, a, ha, hid, rfl⟩ := exists_of_mem_left hfills.flip hq
    exact (h p hp).2 a ha hid

end Lists

/-! ## The message of an envelope -/

/-- The identifiers of the four properties. -/
structure Reads (e : Envelope) (sender receiver documentType process : FoundIdentifier) :
    Prop where
  sender : e.identifier originalSender = .ok sender
  receiver : e.identifier finalRecipient = .ok receiver
  documentType : e.identifier action = .ok documentType
  process : e.identifier service = .ok process

theorem Identified.exists_reads {e : Envelope} (h : e.Identified) :
    ∃ sender receiver documentType process, e.Reads sender receiver documentType process := by
  obtain ⟨sender, hsender⟩ := h originalSender (by decide)
  obtain ⟨receiver, hreceiver⟩ := h finalRecipient (by decide)
  obtain ⟨documentType, hdocumentType⟩ := h action (by decide)
  obtain ⟨process, hprocess⟩ := h service (by decide)
  exact ⟨sender, receiver, documentType, process, hsender, hreceiver, hdocumentType, hprocess⟩

section Message

variable {e : Envelope} {as bs : List Attachment}
  {sender receiver documentType process : FoundIdentifier}

/-- The draft of the message with these payloads. -/
def draft (sender receiver documentType process : FoundIdentifier) (qs : List Payload) :
    MessageDraft :=
  ⟨some sender.identifier, some receiver.identifier, some documentType.identifier,
    some process.identifier, qs⟩

theorem build_draft_nil :
    (draft sender receiver documentType process []).build = .error .noPayloads := rfl

theorem build_draft_of_payloadFault? {qs : List Payload} {cause : MessageError} (hqs : qs ≠ [])
    (h : MessageDraft.payloadFault? [] qs = some cause) :
    (draft sender receiver documentType process qs).build = .error cause := by
  simp only [draft, MessageDraft.build, if_neg hqs, h]

theorem Reads.receivedMessage_attachmentFault (h : e.Reads sender receiver documentType process)
    {error : EnvelopeError} (hfault : e.attachmentFault? [] as = some error) :
    e.receivedMessage as = .error error := by
  simp only [receivedMessage, h.sender, h.receiver, h.documentType, h.process, hfault, bind,
    Except.bind]

theorem Reads.receivedMessage_payloads (h : e.Reads sender receiver documentType process)
    (has : e.Welcome as) {error : EnvelopeError} (hpayloads : payloads e.parts as = .error error) :
    e.receivedMessage as = .error error := by
  simp only [receivedMessage, h.sender, h.receiver, h.documentType, h.process,
    has.attachmentFault?_eq_none, hpayloads, bind, Except.bind]

theorem Reads.receivedMessage_build (h : e.Reads sender receiver documentType process)
    (has : e.Welcome as) {qs : List Payload} (hpayloads : payloads e.parts as = .ok qs)
    {cause : MessageError}
    (hbuild : (draft sender receiver documentType process qs).build = .error cause) :
    e.receivedMessage as = .error (.invalidMessage cause) := by
  rw [draft] at hbuild
  simp only [receivedMessage, h.sender, h.receiver, h.documentType, h.process,
    has.attachmentFault?_eq_none, hpayloads, hbuild, bind, Except.bind]

/-- The message that is read from an envelope with these payloads. -/
def described (e : Envelope) (sender receiver documentType process : FoundIdentifier)
    (qs : List Payload) : ReceivedMessage where
  message := ⟨sender.identifier, receiver.identifier, documentType.identifier,
    process.identifier, qs⟩
  messageId := e.messageId
  conversationId := e.collaborationInfo.conversationId
  untyped := ((identifierProperties.zip
    [sender.form, receiver.form, documentType.form, process.form]).filter
      fun (_, form) => form = .uri).map Prod.fst

/-- An acceptable envelope gives the message with the payloads that its references stand for. -/
theorem Acceptable.receivedMessage_eq (h : e.Acceptable as)
    (hreads : e.Reads sender receiver documentType process) {qs : List Payload}
    (hfills : List.Forall₂ (Fills as) e.parts qs) :
    e.receivedMessage as = .ok (e.described sender receiver documentType process qs) ∧
      qs ≠ [] ∧ Payload.Compatible qs := by
  obtain ⟨-, hwelcome, -, hne, husable⟩ := acceptable_iff.mp h
  have hpayloads := payloads_of_fills hfills h.attachments_nodup h.parts_nodup
  have hqs : qs ≠ [] := by
    rintro rfl
    exact hne (List.forall₂_nil_right_iff.mp hfills)
  have hcompatible := husable.compatible h.parts_nodup hfills
  have hbuild := MessageDraft.build_eq_ok (d := draft sender receiver documentType process qs)
    (m := (e.described sender receiver documentType process qs).message) |>.mpr
      ⟨rfl, hqs, hcompatible⟩
  rw [draft] at hbuild
  refine ⟨?_, hqs, hcompatible⟩
  simp only [receivedMessage, hreads.sender, hreads.receiver, hreads.documentType,
    hreads.process, hwelcome.attachmentFault?_eq_none, hpayloads, hbuild, bind, Except.bind, pure,
    Except.pure]
  rfl

/-- Where an attachment stands among the others makes no difference. -/
theorem Acceptable.perm (h : e.Acceptable as) (hperm : bs.Perm as) : e.Acceptable bs where
  identified := h.identified
  parts_ne := h.parts_ne
  contentId_ne := h.contentId_ne
  parts_nodup := h.parts_nodup
  attachments_nodup := (hperm.map _).nodup_iff.mpr h.attachments_nodup
  same contentId := (hperm.map _).mem_iff.trans (h.same contentId)
  mimeType_ne p hp a ha := h.mimeType_ne p hp a (hperm.mem_iff.mp ha)

theorem fills_perm {ps : List PartInfo} {qs : List Payload} (hperm : bs.Perm as)
    (h : List.Forall₂ (Fills as) ps qs) : List.Forall₂ (Fills bs) ps qs := by
  refine h.imp fun p q hfills => ?_
  obtain ⟨a, ha, hid, hq⟩ := hfills
  exact ⟨a, hperm.mem_iff.mpr ha, hid, hq⟩

/-! ## What is refused -/

/-- The first identifier that cannot be read is reported. -/
theorem receivedMessage_of_identifier {before after : List String} {name : String}
    {error : EnvelopeError} (hsplit : identifierProperties = before ++ name :: after)
    (hbefore : ∀ other ∈ before, ∃ found, e.identifier other = .ok found)
    (hname : e.identifier name = .error error) : e.receivedMessage as = .error error := by
  rcases before with _ | ⟨first, _ | ⟨second, _ | ⟨third, _ | ⟨fourth, rest⟩⟩⟩⟩
  · obtain ⟨rfl, -⟩ : originalSender = name ∧ _ := by simpa [identifierProperties] using hsplit
    simp only [receivedMessage, hname, bind, Except.bind]
  · obtain ⟨rfl, rfl, -⟩ : originalSender = first ∧ finalRecipient = name ∧ _ := by
      simpa [identifierProperties] using hsplit
    obtain ⟨sender, hsender⟩ := hbefore originalSender (by simp)
    simp only [receivedMessage, hsender, hname, bind, Except.bind]
  · obtain ⟨rfl, rfl, rfl, -⟩ : originalSender = first ∧ finalRecipient = second ∧
        action = name ∧ _ := by
      simpa [identifierProperties] using hsplit
    obtain ⟨sender, hsender⟩ := hbefore originalSender (by simp)
    obtain ⟨receiver, hreceiver⟩ := hbefore finalRecipient (by simp)
    simp only [receivedMessage, hsender, hreceiver, hname, bind, Except.bind]
  · obtain ⟨rfl, rfl, rfl, rfl, -⟩ : originalSender = first ∧ finalRecipient = second ∧
        action = third ∧ service = name ∧ _ := by
      simpa [identifierProperties] using hsplit
    obtain ⟨sender, hsender⟩ := hbefore originalSender (by simp)
    obtain ⟨receiver, hreceiver⟩ := hbefore finalRecipient (by simp)
    obtain ⟨documentType, hdocumentType⟩ := hbefore action (by simp)
    simp only [receivedMessage, hsender, hreceiver, hdocumentType, hname, bind, Except.bind]
  · simp [identifierProperties] at hsplit

/-- The first payload that no message can carry is reported. -/
theorem Reads.receivedMessage_unusable (h : e.Reads sender receiver documentType process)
    (has : e.Welcome as) (hserved : Served as e.parts) {before after : List PartInfo}
    {p : PartInfo} (hsplit : e.parts = before ++ p :: after) (hbefore : Usable as before)
    {cause : MessageError}
    (hp : ∀ q, Fills as p q → ∀ seen rest,
      MessageDraft.payloadFault? seen (q :: rest) = some cause) :
    e.receivedMessage as = .error (.invalidMessage cause) := by
  obtain ⟨hall, hnodup⟩ := hserved
  rw [hsplit] at hall hnodup
  obtain ⟨hallBefore, hallAfter⟩ := List.forall_mem_append.mp hall
  obtain ⟨first, hfirst⟩ := exists_fills hallBefore
  obtain ⟨qs, hqs⟩ := exists_fills hallAfter
  obtain ⟨q, last, hq, hlast, rfl⟩ := List.forall₂_cons_left_iff.mp hqs
  have hfills : List.Forall₂ (Fills as) (before ++ p :: after) (first ++ q :: last) :=
    List.rel_append hfirst hqs
  have hpayloads : payloads e.parts as = .ok (first ++ q :: last) :=
    hsplit ▸ payloads_of_fills hfills has.2 hnodup
  have hnodupBefore : (before.map PartInfo.contentId).Nodup :=
    hnodup.sublist ((List.sublist_append_left ..).map _)
  have hnone := MessageDraft.payloadFault?_nil_eq_none.mpr (hbefore.compatible hnodupBefore hfirst)
  have hfault : MessageDraft.payloadFault? [] (first ++ q :: last) = some cause := by
    rw [MessageDraft.payloadFault?_append hnone, hp q hq]
  exact h.receivedMessage_build has hpayloads
    (build_draft_of_payloadFault? (List.append_ne_nil_of_right_ne_nil _ (by simp)) hfault)

theorem Refused.receivedMessage_eq {error : EnvelopeError} (h : e.Refused as error) :
    e.receivedMessage as = .error error := by
  cases h with
  | identifier hsplit hbefore hname => exact receivedMessage_of_identifier hsplit hbefore hname
  | unreferenced hids hsplit hbefore ha =>
    obtain ⟨_, _, _, _, hreads⟩ := hids.exists_reads
    exact hreads.receivedMessage_attachmentFault
      (hsplit ▸ hbefore.attachmentFault?_unreferenced ha)
  | repeated hids hsplit hbefore ha hagain =>
    obtain ⟨_, _, _, _, hreads⟩ := hids.exists_reads
    exact hreads.receivedMessage_attachmentFault
      (hsplit ▸ hbefore.attachmentFault?_repeated ha hagain)
  | unserved hids has hsplit hbefore hp =>
    obtain ⟨_, _, _, _, hreads⟩ := hids.exists_reads
    exact hreads.receivedMessage_payloads has (hsplit ▸ payloads_unserved hbefore hp)
  | noPayloads hids has hparts =>
    obtain ⟨_, _, _, _, hreads⟩ := hids.exists_reads
    have hpayloads : payloads e.parts as = .ok [] := by rw [hparts, payloads]
    exact hreads.receivedMessage_build has hpayloads build_draft_nil
  | emptyContentId hids has hserved hsplit hbefore hp =>
    obtain ⟨_, _, _, _, hreads⟩ := hids.exists_reads
    refine hreads.receivedMessage_unusable has hserved hsplit hbefore fun q hq seen rest => ?_
    obtain ⟨a, -, -, rfl⟩ := hq
    rw [MessageDraft.payloadFault?, if_pos hp]
  | @emptyMimeType _ _ p a hids has hserved hsplit hbefore hp ha hid hmime =>
    obtain ⟨_, _, _, _, hreads⟩ := hids.exists_reads
    refine hreads.receivedMessage_unusable has hserved hsplit hbefore fun q hq seen rest => ?_
    obtain ⟨b, hb, hbid, rfl⟩ := hq
    obtain rfl : b = a := List.inj_on_of_nodup_map has.2 hb ha (hbid.trans hid.symm)
    rw [MessageDraft.payloadFault?, if_neg hp, if_pos hmime]

/-- What is not refused is acceptable. -/
theorem acceptable_or_refused (e : Envelope) (as : List Attachment) :
    e.Acceptable as ∨ ∃ error, e.Refused as error := by
  rcases all_or_first (Q := fun names => ∀ name ∈ names, ∃ found, e.identifier name = .ok found)
    (by simp) identifierProperties with hids | ⟨before, name, after, hsplit, hbefore, hfirst⟩
  case inr =>
    rw [List.forall_mem_append, List.forall_mem_singleton] at hfirst
    cases hname : e.identifier name with
    | ok found => exact absurd ⟨hbefore, found, hname⟩ hfirst
    | error error => exact .inr ⟨error, .identifier hsplit hbefore hname⟩
  rcases all_or_first (Q := e.Welcome) ⟨by simp, by simp⟩ as with
    has | ⟨before, a, after, hsplit, hbefore, hfirst⟩
  case inr =>
    by_cases ha : a.contentId ∈ e.contentIds
    · have hagain : a.contentId ∈ before.map Attachment.contentId := by
        by_contra hnew
        exact hfirst (welcome_concat.mpr ⟨hbefore, ha, hnew⟩)
      exact .inr ⟨_, .repeated hids hsplit hbefore ha hagain⟩
    · exact .inr ⟨_, .unreferenced hids hsplit hbefore ha⟩
  rcases all_or_first (Q := Served as) ⟨by simp, by simp⟩ e.parts with
    hserved | ⟨before, p, after, hsplit, hbefore, hfirst⟩
  case inr =>
    refine .inr ⟨_, .unserved hids has hsplit hbefore fun hp => ?_⟩
    by_contra hnew
    exact hfirst (served_concat.mpr ⟨hbefore, hp, hnew⟩)
  by_cases hparts : e.parts = []
  · exact .inr ⟨_, .noPayloads hids has hparts⟩
  rcases all_or_first (Q := Usable as) (by simp [Usable]) e.parts with
    husable | ⟨before, p, after, hsplit, hbefore, hfirst⟩
  case inr =>
    by_cases hp : p.contentId = ""
    · exact .inr ⟨_, .emptyContentId hids has hserved hsplit hbefore hp⟩
    · rw [usable_concat] at hfirst
      push Not at hfirst
      obtain ⟨a, ha, hid, hmime⟩ := hfirst hbefore hp
      exact .inr ⟨_, .emptyMimeType hids has hserved hsplit hbefore hp ha hid hmime⟩
  exact .inl (acceptable_iff.mpr ⟨hids, has, hserved, hparts, husable⟩)

/-- The message of an acceptable envelope, which is the same in whatever order the attachments
come. -/
theorem Acceptable.exists_receivedMessage (h : e.Acceptable as) :
    ∃ received : ReceivedMessage, (∀ bs, bs.Perm as → e.receivedMessage bs = .ok received) ∧
      received.messageId = e.messageId ∧
      received.conversationId = e.collaborationInfo.conversationId ∧
      e.Describes as received.message ∧ received.message.payloads ≠ [] ∧
      Payload.Compatible received.message.payloads := by
  obtain ⟨_, _, _, _, hreads⟩ := h.identified.exists_reads
  obtain ⟨qs, hfills⟩ := exists_fills (acceptable_iff.mp h).2.2.1.1
  obtain ⟨-, hqs, hcompatible⟩ := h.receivedMessage_eq hreads hfills
  refine ⟨_, fun bs hperm => ((h.perm hperm).receivedMessage_eq hreads (fills_perm hperm hfills)).1,
    rfl, rfl, ?_, hqs, hcompatible⟩
  exact ⟨⟨_, hreads.sender⟩, ⟨_, hreads.receiver⟩, ⟨_, hreads.documentType⟩, ⟨_, hreads.process⟩,
    hfills⟩

theorem arrival_of_business (hfault : e.fault = none) (hbusiness : e.purpose = .ok .business)
    (as : List Attachment) : e.arrival as = (e.receivedMessage as).map .message := by
  rw [arrival, hfault, hbusiness]
  cases e.receivedMessage as <;> simp only [bind, Except.bind, pure, Except.pure, Except.map]

/-- A business envelope is accepted with its attachments exactly if these correspond to its
references and everything in it can be used. Its message is then the same in whatever order the
attachments come. Otherwise the first check that fails gives the error. -/
theorem business_envelope_accepted_iff (hfault : e.fault = none)
    (hbusiness : e.purpose = .ok .business) (as : List Attachment) :
    ((∃ arrival, e.arrival as = .ok arrival) ↔ e.Acceptable as) ∧
      (∀ arrival, e.arrival as = .ok arrival →
        (∃ received, arrival = .message received ∧ received.messageId = e.messageId ∧
          received.conversationId = e.collaborationInfo.conversationId ∧
          e.Describes as received.message ∧ received.message.payloads ≠ [] ∧
          Payload.Compatible received.message.payloads) ∧
        ∀ bs, bs.Perm as → e.arrival bs = .ok arrival) ∧
      ∀ error, e.arrival as = .error error ↔ e.Refused as error := by
  have harrival := arrival_of_business hfault hbusiness
  have hrefusal : ∀ error, e.Refused as error → e.arrival as = .error error := fun error h => by
    rw [harrival, h.receivedMessage_eq, Except.map]
  by_cases hacceptable : e.Acceptable as
  · obtain ⟨received, hreceived, hmessage⟩ := hacceptable.exists_receivedMessage
    have hok : ∀ bs, bs.Perm as → e.arrival bs = .ok (.message received) := fun bs hperm => by
      rw [harrival, hreceived bs hperm, Except.map]
    have has := hok as (.refl as)
    refine ⟨iff_of_true ⟨_, has⟩ hacceptable, fun arrival heq => ?_, fun error => ?_⟩
    · obtain rfl := Except.ok.inj (has.symm.trans heq)
      exact ⟨⟨received, rfl, hmessage⟩, hok⟩
    · refine iff_of_false (by simp [has]) fun hrefused => ?_
      simpa [has] using hrefusal error hrefused
  · obtain ⟨error, hrefused⟩ := (acceptable_or_refused e as).resolve_left hacceptable
    have has := hrefusal error hrefused
    refine ⟨iff_of_false (by simp [has]) hacceptable, by simp [has], fun other =>
      ⟨fun heq => ?_, hrefusal other⟩⟩
    obtain rfl := Except.error.inj (has.symm.trans heq)
    exact hrefused

end Message

section Sample

open Agreement

/-- Of its references only the second has a media type, and only the first has the scheme. -/
def sampleEnvelope : Envelope :=
  { standard.messageEnvelope sampleStamp sampleRoute misleadingMessage with
    parts := [⟨"cid:b", Properties.empty⟩, ⟨"a", Properties.empty.set "MimeType" "text/plain"⟩] }

def sampleAttachments : List Attachment := [⟨"a", "", [0x61]⟩, ⟨"b", "application/xml", []⟩]

theorem sample_envelope_accepted :
    sampleEnvelope.fault = none ∧ sampleEnvelope.purpose = .ok .business ∧
      (∃ arrival, sampleEnvelope.arrival sampleAttachments = .ok arrival) ∧
      sampleEnvelope.arrival [⟨"a", "", []⟩, ⟨"c", "", []⟩, ⟨"a", "", []⟩] =
        .error (.missingPartInfo "c") := by
  have hfault : sampleEnvelope.fault = none := rfl
  have hbusiness : sampleEnvelope.purpose = .ok .business := by decide
  have haccepted := business_envelope_accepted_iff hfault hbusiness sampleAttachments
  have hrefused := business_envelope_accepted_iff hfault hbusiness
    [⟨"a", "", []⟩, ⟨"c", "", []⟩, ⟨"a", "", []⟩]
  have hsplit : [⟨"a", "", []⟩, ⟨"c", "", []⟩, ⟨"a", "", []⟩] =
      [⟨"a", "", []⟩] ++ (⟨"c", "", []⟩ : Attachment) :: [⟨"a", "", []⟩] := rfl
  refine ⟨hfault, hbusiness, haccepted.1.mpr (by decide), (hrefused.2.2 _).mpr ?_⟩
  exact .unreferenced (by decide) hsplit (by decide) (by decide)

end Sample

end EbmsMessaging.Envelope
