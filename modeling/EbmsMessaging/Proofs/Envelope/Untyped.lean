import EbmsMessaging.Proofs.Envelope.Acceptance

/-!
# Identifiers without a type

A property that holds an identifier may have its type in front of its value instead. If the scheme can be
told from the value there, the same identifier is found, or the same fault in it. So an envelope is read
as the same message, or refused for the same reason; only the properties without a type are reported.
-/
namespace EbmsMessaging

/-- The ways in which a property can have no type. -/
inductive MissingType where
  | absent
  | empty
deriving DecidableEq, Repr

def MissingType.type : MissingType → Option String
  | absent => none
  | empty => some ""

/-- The property with its type in front of its value. -/
def Property.untype (p : Property) (missing : MissingType) : Property :=
  match p.type with
  | some scheme => ⟨p.name, (Identifier.mk scheme p.value).uri, missing.type⟩
  | none => p

/-- Which properties are to have no type, by their names. -/
abbrev Untyping := String → Option MissingType

namespace Untyping

open Envelope (identifierProperties)

variable (u : Untyping)

def property (p : Property) : Property := (u p.name).elim p p.untype

def properties (ps : Properties) : Properties := ⟨ps.toList.map u.property⟩

/-- The envelope of a sender that leaves these types out. -/
def envelope (e : Envelope) : Envelope := { e with properties := u.properties e.properties }

/-- The form in which an identifier is found then. -/
def form (name : String) (before : IdentifierForm) : IdentifierForm :=
  if (u name).isSome then .uri else before

def found (name : String) (i : FoundIdentifier) : FoundIdentifier :=
  ⟨i.identifier, u.form name i.form⟩

/-- The message that is read then. -/
def received (r : ReceivedMessage) : ReceivedMessage :=
  { r with untyped := identifierProperties.filter fun name => (u name).isSome ∨ name ∈ r.untyped }

/-- The types that are left out can be told from the values behind them. -/
def Applies (e : Envelope) : Prop :=
  ∀ name ∈ identifierProperties, (u name).isSome → ∀ p, e.properties.get? name = some p →
    ∀ scheme ∈ p.type, scheme ≠ "" ∧ (Identifier.mk scheme p.value).Separable

end Untyping

/-! ## One property -/

namespace Properties

variable {ps : Properties} {name : String} {p : Property}

theorem identifier_of_type (hp : ps.get? name = some p) {scheme : String}
    (htype : p.type = some scheme) (hscheme : scheme ≠ "") : ps.identifier name =
      ((Identifier.ofParts scheme p.value).mapError .invalid).map fun i => ⟨i, .typed⟩ := by
  have hkept : p.type.filter (fun type => type ≠ "") = some scheme := by simp [htype, hscheme]
  simp only [identifier, hp, hkept]
  cases Identifier.ofParts scheme p.value <;> rfl

theorem identifier_of_no_type (hp : ps.get? name = some p)
    (htype : ∀ scheme ∈ p.type, scheme = "") : ps.identifier name =
      ((Identifier.ofUri p.value).mapError .invalid).map fun i => ⟨i, .uri⟩ := by
  have hkept : p.type.filter (fun type => type ≠ "") = none := by
    simpa [Option.filter_eq_none_iff] using htype
  simp only [identifier, hp, hkept]
  cases Identifier.ofUri p.value <;> rfl

end Properties

namespace Untyping

open Envelope (identifierProperties)

variable (u : Untyping) {e : Envelope} {name : String}

theorem name_property (p : Property) : (u.property p).name = p.name := by
  unfold property
  cases u p.name with
  | none => rfl
  | some missing =>
    rw [Option.elim_some, Property.untype]
    split <;> rfl

theorem get?_properties (ps : Properties) (name : String) :
    (u.properties ps).get? name = (ps.get? name).map u.property := by
  simp only [Properties.get?, properties, List.find?_map, Function.comp_def, name_property]

theorem found_of_none (h : u name = none) : u.found name = id := by
  funext i
  simp [found, form, h]

theorem found_of_some {missing : MissingType} (h : u name = some missing) (i : Identifier)
    (before : IdentifierForm) : u.found name ⟨i, before⟩ = ⟨i, .uri⟩ := by
  simp [found, form, h]

variable {u}

/-- Where the type is left out the same identifier is found in the other form, or the same fault. -/
theorem identifier_properties (h : u.Applies e) (hname : name ∈ identifierProperties) :
    (u.properties e.properties).identifier name =
      (e.properties.identifier name).map (u.found name) := by
  have hget := u.get?_properties e.properties name
  cases hp : e.properties.get? name with
  | none =>
    rw [hp] at hget
    simp only [Properties.identifier, hget, hp, Option.map_none, Except.map]
  | some p =>
    rw [hp, Option.map_some, property] at hget
    obtain rfl : p.name = name := by simpa using List.find?_some hp
    cases hu : u p.name with
    | none =>
      rw [hu, Option.elim_none, ← hp] at hget
      rw [u.found_of_none hu, Except.map_id, Properties.identifier, hget, Properties.identifier]
      rfl
    | some missing =>
      rw [hu, Option.elim_some, Property.untype] at hget
      cases htype : p.type with
      | none =>
        have hno : ∀ scheme ∈ p.type, scheme = "" := by simp [htype]
        rw [htype] at hget
        rw [Properties.identifier_of_no_type hget hno, Properties.identifier_of_no_type hp hno]
        cases (Identifier.ofUri p.value).mapError LookupError.invalid with
        | error _ => rfl
        | ok i => exact congrArg _ (u.found_of_some hu i _).symm
      | some scheme =>
        obtain ⟨hscheme, hseparable⟩ :=
          h _ hname (Option.isSome_iff_exists.mpr ⟨missing, hu⟩) p hp scheme htype
        have hno : ∀ type ∈ missing.type, type = "" := by cases missing <;> simp [MissingType.type]
        rw [htype] at hget
        rw [Properties.identifier_of_no_type hget hno,
          Properties.identifier_of_type hp htype hscheme, Identifier.ofUri_uri hseparable]
        cases (Identifier.ofParts scheme p.value).mapError LookupError.invalid with
        | error _ => rfl
        | ok i => exact congrArg _ (u.found_of_some hu i _).symm

/-! ## The whole envelope -/

theorem identifier_envelope (h : u.Applies e) (hname : name ∈ identifierProperties) :
    (u.envelope e).identifier name = (e.identifier name).map (u.found name) := by
  have hfound := identifier_properties h hname
  rw [Envelope.identifier, Envelope.identifier, envelope, hfound]
  cases e.properties.identifier name with
  | ok i => rfl
  | error fault => cases fault <;> rfl

/-- The attachments are looked at in the same way. -/
theorem attachmentFault?_envelope (seen : List String) (as : List Attachment) :
    (u.envelope e).attachmentFault? seen as = e.attachmentFault? seen as := by
  have hids : (u.envelope e).contentIds = e.contentIds := rfl
  induction as generalizing seen with
  | nil => rfl
  | cons a as ih => rw [Envelope.attachmentFault?, Envelope.attachmentFault?, hids, ih]

/-! ## What is reported -/

/-- The form in which an identifier is found, if it is found. -/
def formIn (e : Envelope) (name : String) : IdentifierForm :=
  match e.identifier name with
  | .ok i => i.form
  | .error _ => .typed

theorem formIn_of_ok {i : FoundIdentifier} (h : e.identifier name = .ok i) : formIn e name = i.form := by
  rw [formIn, h]

theorem reported_eq (f : String → IdentifierForm) :
    ((identifierProperties.zip (identifierProperties.map f)).filter
      fun (_, form) => form = .uri).map Prod.fst =
      identifierProperties.filter fun name => f name = .uri := by
  rw [← List.map_prod_left_eq_zip, List.filter_map, List.map_map]
  exact List.map_id _

/-- What was reported before still is, and what is left out in addition. -/
theorem filter_form (u : Untyping) (f : String → IdentifierForm) :
    (identifierProperties.filter fun name => u.form name (f name) = .uri) =
      identifierProperties.filter fun name => (u name).isSome ∨
        name ∈ identifierProperties.filter fun other => f other = .uri := by
  refine List.filter_congr fun name hname => ?_
  by_cases hu : (u name).isSome <;> simp [form, hu, hname]

/-! ## The message -/

/-- An envelope whose types are left out is read as the same message, or refused for the same reason. -/
theorem receivedMessage_envelope (h : u.Applies e) (as : List Attachment) :
    (u.envelope e).receivedMessage as = (e.receivedMessage as).map u.received := by
  have hfound (name : String) (hname : name ∈ identifierProperties) :=
    identifier_envelope h hname
  have hparts : (u.envelope e).parts = e.parts := rfl
  simp only [Envelope.receivedMessage, hparts, attachmentFault?_envelope,
    hfound _ (show Vocabulary.originalSender ∈ identifierProperties by decide),
    hfound _ (show Vocabulary.finalRecipient ∈ identifierProperties by decide),
    hfound _ (show Vocabulary.action ∈ identifierProperties by decide),
    hfound _ (show Vocabulary.service ∈ identifierProperties by decide)]
  -- The steps fail or succeed together, one after the other.
  cases hsender : e.identifier Vocabulary.originalSender with
  | error _ => rfl
  | ok sender =>
  cases hreceiver : e.identifier Vocabulary.finalRecipient with
  | error _ => rfl
  | ok receiver =>
  cases hdocumentType : e.identifier Vocabulary.action with
  | error _ => rfl
  | ok documentType =>
  cases hprocess : e.identifier Vocabulary.service with
  | error _ => rfl
  | ok process =>
  simp only [Except.map, bind, Except.bind]
  cases e.attachmentFault? [] as with
  | some _ => rfl
  | none =>
  cases Envelope.payloads e.parts as with
  | error _ => rfl
  | ok qs =>
  simp only [found]
  cases MessageDraft.build ⟨some sender.identifier, some receiver.identifier,
      some documentType.identifier, some process.identifier, qs⟩ with
  | error _ => rfl
  | ok m =>
  have hforms (g : String → IdentifierForm → IdentifierForm) :
      [g Vocabulary.originalSender sender.form, g Vocabulary.finalRecipient receiver.form,
        g Vocabulary.action documentType.form, g Vocabulary.service process.form] =
      identifierProperties.map fun name => g name (formIn e name) := by
    simp only [identifierProperties, List.map_cons, List.map_nil, formIn_of_ok hsender,
      formIn_of_ok hreceiver, formIn_of_ok hdocumentType, formIn_of_ok hprocess]
  have hbefore := hforms fun _ form => form
  simp only [pure, Except.pure, received, hbefore, hforms u.form, reported_eq, filter_form]
  rfl

theorem arrival_envelope (h : u.Applies e) (hfault : e.fault = none)
    (hbusiness : e.purpose = .ok .business) (as : List Attachment) :
    (u.envelope e).arrival as = (e.receivedMessage as).map fun r => .message (u.received r) := by
  have hfault' : (u.envelope e).fault = none := hfault
  have hbusiness' : (u.envelope e).purpose = .ok .business := hbusiness
  rw [Envelope.arrival_of_business hfault' hbusiness', receivedMessage_envelope h]
  cases e.receivedMessage as <;> rfl

end Untyping

/-- The schemes of all its identifiers can be told from their values in URI forms. -/
def BusinessMessage.Separable (m : BusinessMessage) : Prop :=
  m.sender.Separable ∧ m.receiver.Separable ∧ m.documentType.Separable ∧ m.process.Separable

namespace Agreement

open Vocabulary
open Envelope (identifierProperties)

variable (a : Agreement) (s : Stamp) (r : Route)

theorem applies_messageEnvelope {m : BusinessMessage} (hmade : m.Made) (hseparable : m.Separable)
    (u : Untyping) : u.Applies (a.messageEnvelope s r m) := by
  obtain ⟨hsender, hreceiver, hdocumentType, hprocess⟩ := a.get?_messageProperties s r m
  have hheld : ∀ {name : String} {i : Identifier}, i.Made → i.Separable →
      (a.messageProperties s r m).get? name = some (i.property name) →
      ∀ p, (a.messageProperties s r m).get? name = some p →
        ∀ scheme ∈ p.type, scheme ≠ "" ∧ (Identifier.mk scheme p.value).Separable := by
    intro name i hi hsep hget p hp scheme hscheme
    obtain rfl := Option.some.inj (hget.symm.trans hp)
    obtain rfl := Option.some.inj hscheme
    exact ⟨hi.scheme_ne, hsep⟩
  intro name hname _
  simp only [identifierProperties, List.mem_cons, List.not_mem_nil, or_false] at hname
  rcases hname with rfl | rfl | rfl | rfl
  · exact hheld hmade.1 hseparable.1 hsender
  · exact hheld hmade.2.1 hseparable.2.1 hreceiver
  · exact hheld hmade.2.2.1 hseparable.2.2.1 hdocumentType
  · exact hheld hmade.2.2.2 hseparable.2.2.2 hprocess

theorem arrival_untyped_messageEnvelope {d : MessageDraft} {m : BusinessMessage}
    (hbuild : d.build = .ok m) (hmade : m.Made) (hseparable : m.Separable) (u : Untyping)
    {as : List Attachment} (hperm : as.Perm (m.payloads.map Payload.attachment)) :
    (u.envelope (a.messageEnvelope s r m)).arrival as =
      .ok (.message ⟨m, a.freshId s, s.conversation.text,
        identifierProperties.filter fun name => (u name).isSome⟩) := by
  have hpurpose := a.purpose_messageEnvelope s r hbuild
  have hfault : (a.messageEnvelope s r m).fault = none := rfl
  rw [Untyping.arrival_envelope (a.applies_messageEnvelope s r hmade hseparable u) hfault hpurpose,
    a.receivedMessage_messageEnvelope s r hbuild hmade hperm]
  simp [Except.map, Untyping.received]

/-- A message that is built from identifiers made from their parts, with schemes that can be told from
the values, arrives as that message even if any of the four types are left out on the way. It has the
same identifiers of message and conversation, and reports exactly the properties without a type. -/
theorem untyped_message_arrives {d : MessageDraft} {m : BusinessMessage} (hbuild : d.build = .ok m)
    (hmade : m.Made) (hseparable : m.Separable) (u : Untyping) :
    ∃ e, a.prepare s r m = .ok e ∧ ∀ as, as.Perm e.attachments →
      Arrival.ofBytes e.envelope.toBytes as =
        .ok (.message ⟨m, e.messageId, e.conversationId, []⟩) ∧
      Arrival.ofBytes (u.envelope e.envelope).toBytes as =
        .ok (.message ⟨m, e.messageId, e.conversationId,
          identifierProperties.filter fun name => (u name).isSome⟩) := by
  have hpayloads := (MessageDraft.build_eq_ok.mp hbuild).2.1
  refine ⟨_, if_neg hpayloads, fun as hperm => ⟨?_, ?_⟩⟩
  · rw [Arrival.ofBytes_toBytes]
    exact a.arrival_messageEnvelope s r hbuild hmade hperm
  · rw [Arrival.ofBytes_toBytes]
    exact a.arrival_untyped_messageEnvelope s r hbuild hmade hseparable u hperm

/-- The value of its document type begins with a colon and holds a separator. -/
def colonMessage : BusinessMessage :=
  { misleadingMessage with documentType := ⟨"busdox", ":order::2.1"⟩ }

def sampleUntyping : Untyping := fun name =>
  if name = action then some .absent else if name = originalSender then some .empty else none

theorem colon_message_arrives :
    MessageDraft.build ⟨some colonMessage.sender, some colonMessage.receiver,
        some colonMessage.documentType, some colonMessage.process, colonMessage.payloads⟩ =
          .ok colonMessage ∧
      colonMessage.Made ∧ colonMessage.Separable ∧
      ∃ e, standard.prepare sampleStamp sampleRoute colonMessage = .ok e ∧
        (sampleUntyping.envelope e.envelope).properties.get? action =
          some (.plain action "busdox:::order::2.1") ∧
        Arrival.ofBytes (sampleUntyping.envelope e.envelope).toBytes e.attachments.reverse =
          .ok (.message ⟨colonMessage, e.messageId, e.conversationId, [originalSender, action]⟩) := by
  have hbuild : MessageDraft.build ⟨some colonMessage.sender, some colonMessage.receiver,
      some colonMessage.documentType, some colonMessage.process, colonMessage.payloads⟩ =
        .ok colonMessage := by decide
  have hmade : colonMessage.Made :=
    ⟨⟨"iso6523", "0088:a", rfl⟩, ⟨"iso6523", "0088:b", rfl⟩, ⟨"busdox", ":order::2.1", rfl⟩,
      ⟨"process", signalService, rfl⟩⟩
  have hseparable : colonMessage.Separable := by
    refine ⟨?_, ?_, ?_, ?_⟩ <;> decide
  obtain ⟨e, he, harrives⟩ := standard.untyped_message_arrives sampleStamp sampleRoute hbuild hmade
    hseparable sampleUntyping
  have huri : (sampleUntyping.envelope e.envelope).properties.get? action =
      some (.plain action "busdox:::order::2.1") := by
    obtain rfl := Except.ok.inj he
    decide
  exact ⟨hbuild, hmade, hseparable, e, he, huri, (harrives _ (List.reverse_perm _)).2⟩

end Agreement
end EbmsMessaging
