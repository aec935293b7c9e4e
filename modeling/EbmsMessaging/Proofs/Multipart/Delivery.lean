import EbmsMessaging.Proofs.Envelope.Business
import EbmsMessaging.Proofs.Multipart.Framing
import EbmsMessaging.Proofs.Outcome
import EbmsMessaging.Service.Intake
import Mathlib.Data.List.Forall2
import Mathlib.Data.List.Perm.Subperm

/-!
# Framed messages

A message that is written into a frame arrives as on the direct path exactly if each of its payloads
can be written into a header. Reading a frame gives each attachment its content identifier and its
data back; the media type of a payload comes from the envelope. When something was read differently,
either a content identifier is cut off at a line end, or some data got longer, and then not all
payloads can be found.
-/
namespace EbmsMessaging

/-! ## What is made of attachments -/

namespace Attachment

/-- Equal but for the media type. -/
def Alike (a b : Attachment) : Prop := a.contentId = b.contentId ∧ a.data = b.data

end Attachment

namespace Envelope

open Attachment (Alike)

variable {as bs : List Attachment}

theorem attachmentFault?_congr (e : Envelope) (h : List.Forall₂ Alike as bs)
    (seen : List String) : e.attachmentFault? seen as = e.attachmentFault? seen bs := by
  induction h generalizing seen with
  | nil => rfl
  | cons hab _ ih => rw [attachmentFault?, attachmentFault?, hab.1, ih]

theorem find?_congr (h : List.Forall₂ Alike as bs) (contentId : String) :
    Option.Rel Alike (as.find? fun a => a.contentId = contentId)
      (bs.find? fun b => b.contentId = contentId) := by
  induction h with
  | nil => exact .none
  | @cons a b as bs hab _ ih =>
    rw [List.find?_cons, List.find?_cons, hab.1]
    split
    · exact .some hab
    · exact ih

theorem filter_congr (h : List.Forall₂ Alike as bs) (contentId : String) :
    List.Forall₂ Alike (as.filter fun a => a.contentId ≠ contentId)
      (bs.filter fun b => b.contentId ≠ contentId) := by
  induction h with
  | nil => exact .nil
  | @cons a b as bs hab _ ih =>
    rw [List.filter_cons, List.filter_cons, hab.1]
    split
    · exact .cons hab ih
    · exact ih

/-- References that name a media type do not look at that of the attachment. -/
theorem payloads_congr (ps : List Payload) (h : List.Forall₂ Alike as bs) :
    payloads (ps.map Payload.part) as = payloads (ps.map Payload.part) bs := by
  induction ps generalizing as bs with
  | nil => rfl
  | cons p ps ih =>
    have hfound := find?_congr h p.part.contentId
    have hrest := ih (filter_congr h p.part.contentId)
    rw [List.map_cons, payloads, payloads, hrest]
    generalize as.find? _ = a at hfound
    generalize bs.find? _ = b at hfound
    cases hfound with
    | none => rfl
    | some hab => simp only [Payload.part, PartInfo.mimeType?_ofContent, Option.getD_some, hab.2]

/-- Each payload is found in an attachment. -/
theorem exists_of_mem_payloads {ps : List PartInfo} {qs : List Payload}
    (h : payloads ps as = .ok qs) {q : Payload} (hq : q ∈ qs) :
    ∃ a ∈ as, a.contentId = q.contentId ∧ a.data = q.content := by
  induction ps generalizing as qs with
  | nil =>
    obtain rfl := Except.ok.inj h
    simp at hq
  | cons p ps ih =>
    rw [payloads] at h
    cases hfind : as.find? fun a => a.contentId = p.contentId with
    | none => simp [hfind] at h
    | some a =>
      rw [hfind] at h
      obtain ⟨rest, hrest, h⟩ := bind_eq_ok.mp h
      obtain rfl := Except.ok.inj h
      rcases List.mem_cons.mp hq with rfl | hq
      · exact ⟨a, List.mem_of_find?_eq_some hfind, by simpa using List.find?_some hfind, rfl⟩
      · obtain ⟨b, hb, halike⟩ := ih hrest hq
        exact ⟨b, List.mem_of_mem_filter hb, halike⟩

theorem payloads_of_receivedMessage {e : Envelope} {received : ReceivedMessage}
    (h : e.receivedMessage as = .ok received) :
    payloads e.parts as = .ok received.message.payloads := by
  obtain ⟨sender, -, h⟩ := bind_eq_ok.mp h
  obtain ⟨receiver, -, h⟩ := bind_eq_ok.mp h
  obtain ⟨documentType, -, h⟩ := bind_eq_ok.mp h
  obtain ⟨process, -, h⟩ := bind_eq_ok.mp h
  split at h
  · simp at h
  obtain ⟨found, hfound, h⟩ := bind_eq_ok.mp h
  dsimp only at h
  split at h
  · simp at h
  · next message hbuild =>
    obtain rfl := Except.ok.inj h
    have hdraft := (MessageDraft.build_eq_ok.mp hbuild).1
    simp only [MessageDraft.mk.injEq] at hdraft
    rw [← hdraft.2.2.2.2, hfound]

theorem payloads_of_arrival {e : Envelope} {received : ReceivedMessage}
    (h : e.arrival as = .ok (.message received)) :
    payloads e.parts as = .ok received.message.payloads := by
  unfold arrival at h
  split at h
  · simp at h
  obtain ⟨purpose, -, h⟩ := bind_eq_ok.mp h
  cases purpose with
  | fault => simp at h
  | acknowledgement hop =>
    obtain ⟨k, -, h⟩ := bind_eq_ok.mp h
    simp [pure, Except.pure] at h
  | business =>
    obtain ⟨found, hfound, h⟩ := bind_eq_ok.mp h
    obtain rfl := Arrival.message.inj (Except.ok.inj h)
    exact payloads_of_receivedMessage hfound

end Envelope

namespace Multipart

open Attachment (Alike)

/-! ## Parts one by one -/

theorem readEach_of_framable {as : List Attachment} (h : ∀ a ∈ as, Framable a) (index : Nat) :
    ∃ bs, readEach index as = .ok bs ∧ List.Forall₂ Alike bs as := by
  induction as generalizing index with
  | nil => exact ⟨[], rfl, .nil⟩
  | cons a as ih =>
    obtain ⟨ha, has⟩ := List.forall_mem_cons.mp h
    obtain ⟨mimeType, hpart⟩ := readPart_inner ha index
    obtain ⟨bs, hbs, halike⟩ := ih has (index + 1)
    refine ⟨⟨a.contentId, mimeType, a.data⟩ :: bs, ?_, .cons ⟨rfl, rfl⟩ halike⟩
    simp only [readEach, hpart, hbs, bind, Except.bind, pure, Except.pure]

/-- Read from the part of an attachment. -/
def ReadFrom (b a : Attachment) : Prop := ∃ index, readPart index (inner a) = .ok b

theorem readFrom_of_readEach {index : Nat} {as bs : List Attachment}
    (h : readEach index as = .ok bs) : List.Forall₂ ReadFrom bs as := by
  induction as generalizing index bs with
  | nil =>
    obtain rfl := Except.ok.inj h
    exact .nil
  | cons a as ih =>
    obtain ⟨b, hpart, h⟩ := bind_eq_ok.mp h
    obtain ⟨rest, hrest, h⟩ := bind_eq_ok.mp h
    obtain rfl := Except.ok.inj h
    exact .cons ⟨index, hpart⟩ (ih hrest)

/-- How many octets attachments carry. -/
def carried (as : List Attachment) : Nat := (as.flatMap Attachment.data).length

theorem carried_le {as bs : List Attachment} (h : List.Forall₂ ReadFrom bs as) :
    carried as ≤ carried bs := by
  induction h with
  | nil => exact Nat.le_refl _
  | cons hba _ ih =>
    obtain ⟨index, hpart⟩ := hba
    have hle := (of_readPart_inner hpart).1.length_le
    simp only [carried, List.flatMap_cons, List.length_append] at ih ⊢
    omega

/-- No data gets shorter, so unless some gets longer it is all as it was. -/
theorem data_eq_of_carried_le {as bs : List Attachment} (h : List.Forall₂ ReadFrom bs as)
    (hcarried : carried bs ≤ carried as) :
    List.Forall₂ (fun b a => ReadFrom b a ∧ a.data = b.data) bs as := by
  induction h with
  | nil => exact .nil
  | @cons b a bs as hba hrest ih =>
    obtain ⟨index, hpart⟩ := hba
    have hsuffix := (of_readPart_inner hpart).1
    have hle := hsuffix.length_le
    have hle' := carried_le hrest
    simp only [carried, List.flatMap_cons, List.length_append] at hcarried hle'
    have hdata := hsuffix.eq_of_length (by omega)
    exact .cons ⟨⟨index, hpart⟩, hdata⟩ (ih (by simp only [carried]; omega))

/-! ## The payloads of a message -/

/-- When every payload is found, what was read are the payloads in another order. -/
theorem perm_of_payloads {ps : List Payload} (hnodup : (ps.map Payload.contentId).Nodup)
    {as : List Attachment} (hlength : as.length = ps.length)
    (hfound : ∀ p ∈ ps, ∃ a ∈ as, a.contentId = p.contentId ∧ a.data = p.content) :
    (ps.map fun p => (p.contentId, p.content)).Perm (as.map fun a => (a.contentId, a.data)) := by
  have hdistinct : (ps.map fun p => (p.contentId, p.content)).Nodup := by
    refine List.Nodup.of_map Prod.fst ?_
    rwa [List.map_map]
  have hsub : (ps.map fun p => (p.contentId, p.content)) ⊆
      as.map fun a => (a.contentId, a.data) := by
    intro q hq
    obtain ⟨p, hp, rfl⟩ := List.mem_map.mp hq
    obtain ⟨a, ha, hid, hdata⟩ := hfound p hp
    exact List.mem_map.mpr ⟨a, ha, by rw [hid, hdata]⟩
  refine (List.subperm_of_subset hdistinct hsub).perm_of_length_le ?_
  simp [hlength]

/-- If all payloads are found in what was read from their parts, they could be written as they
are. -/
theorem framable_of_found {ps : List Payload} (hnodup : (ps.map Payload.contentId).Nodup)
    {bs : List Attachment} (hread : List.Forall₂ ReadFrom bs (ps.map Payload.attachment))
    (hfound : ∀ p ∈ ps, ∃ b ∈ bs, b.contentId = p.contentId ∧ b.data = p.content) :
    ∀ p ∈ ps, Framable p.attachment := by
  have hperm := perm_of_payloads hnodup (by simpa using hread.length_eq) hfound
  have hcarried : carried bs = carried (ps.map Payload.attachment) := by
    have hall := (hperm.flatMap_right Prod.snd).length_eq
    rw [List.flatMap_map, List.flatMap_map] at hall
    rw [carried, carried, List.flatMap_map]
    exact hall.symm
  have hdata := data_eq_of_carried_le hread (Nat.le_of_eq hcarried)
  intro p hp
  constructor
  · -- Its content identifier was read from one of the parts.
    obtain ⟨b, hb, hid, -⟩ := hfound p hp
    obtain ⟨a, -, index, hpart⟩ := exists_of_mem_left hread hb
    exact fun hbreak => (of_readPart_inner hpart).2 (hid ▸ hbreak)
  · obtain ⟨b, -, ⟨index, hpart⟩, heq⟩ :=
      exists_of_mem_left hdata.flip (List.mem_map_of_mem hp)
    exact fun line hline => colon_mem_of_readPart_inner hpart heq hline

end Multipart

/-! ## Arrival -/

namespace Envelope

/-- The written form of an envelope begins with a brace. -/
theorem head?_toBytes (e : Envelope) : e.toBytes.head? = some Json.openBrace := rfl

end Envelope

open Multipart

/-- What arrives in a frame is made of the envelope and of what was read from each part. -/
theorem Arrival.ofBody_write (e : Envelope) {as : List Attachment} {u : Uuid}
    (havoids : ∀ a ∈ as, Avoids (boundaryOf u) a) :
    ofBody (write (boundaryOf u) e.toBytes as) =
      ((readEach 1 as).mapError .framing >>= fun bs => (e.arrival bs).mapError .content) := by
  have hfirst : e.toBytes.head? ≠ some 0x2D := by
    rw [Envelope.head?_toBytes]
    decide
  have hshows : ∀ b ∈ e.toBytes, Json.Shows b := fun b hb => Json.shows_of_mem_render e hb
  have hread := read_write hshows hfirst havoids
  rw [ofBody, hread]
  cases readEach 1 as with
  | error fault => rfl
  | ok bs =>
    have hparts : ofParts e.toBytes bs = (e.arrival bs).mapError .content := by
      rw [ofParts, ofBytes, Envelope.ofBytes_toBytes]
    exact hparts

namespace Agreement

variable (a : Agreement) (s : Stamp) (r : Route)

theorem arrival_congr {m : BusinessMessage} {as bs : List Attachment}
    (h : List.Forall₂ Attachment.Alike as bs) :
    (a.messageEnvelope s r m).arrival as = (a.messageEnvelope s r m).arrival bs := by
  have hparts : (a.messageEnvelope s r m).parts = m.payloads.map Payload.part := rfl
  simp only [Envelope.arrival, Envelope.receivedMessage, Envelope.attachmentFault?_congr _ h, hparts,
    Envelope.payloads_congr m.payloads h]

/-- A message that could be built can be prepared. Written into a frame, with a boundary that occurs
in none of its payloads, it arrives exactly if each payload can be written into a header. -/
theorem framed_message_arrives_iff {d : MessageDraft} {m : BusinessMessage}
    (hbuild : d.build = .ok m) (hmade : m.Made) {u : Uuid}
    (havoids : ∀ p ∈ m.payloads, Avoids (boundaryOf u) p.attachment) :
    ∃ e, a.prepare s r m = .ok e ∧
      (Arrival.ofBody (write (boundaryOf u) e.envelope.toBytes e.attachments) =
          .ok (.message ⟨m, e.messageId, e.conversationId, []⟩) ↔
        ∀ p ∈ m.payloads, Framable p.attachment) := by
  obtain ⟨-, hpayloads, hcompatible⟩ := MessageDraft.build_eq_ok.mp hbuild
  refine ⟨_, if_neg hpayloads, ?_⟩
  rw [Arrival.ofBody_write _ (List.forall_mem_map.mpr havoids)]
  constructor
  · intro harrives
    obtain ⟨bs, hread, harrives⟩ := bind_eq_ok.mp harrives
    have hfound := Envelope.payloads_of_arrival (mapError_eq_ok.mp harrives)
    refine framable_of_found hcompatible.nodup (readFrom_of_readEach (mapError_eq_ok.mp hread))
      fun p hp => Envelope.exists_of_mem_payloads hfound hp
  · intro hframable
    obtain ⟨bs, hread, halike⟩ := readEach_of_framable (List.forall_mem_map.mpr hframable) 1
    have harrival := a.arrival_messageEnvelope s r hbuild hmade (List.Perm.refl _)
    rw [← a.arrival_congr s r halike] at harrival
    rw [hread]
    exact mapError_eq_ok.mpr harrival

/-- Its media type passes for two header lines, and its content identifier ends none. -/
def unbrokenPayload : Payload := ⟨"text/plain\r\nSubject: notes", " <\ra\n>: ", [0x0D, 0x0A]⟩

/-- Its content identifier ends a line. -/
def brokenPayload : Payload := ⟨"text/plain", "a\r\nb", [0x3C, 0x3E]⟩

def sampleDraft (p : Payload) : MessageDraft where
  sender := some ⟨"iso6523", "0088:a"⟩
  receiver := some ⟨"iso6523", "0088:b"⟩
  documentType := some ⟨"busdox", "order"⟩
  process := some ⟨"process", "billing"⟩
  payloads := [p]

def sampleMessage (p : Payload) : BusinessMessage where
  sender := ⟨"iso6523", "0088:a"⟩
  receiver := ⟨"iso6523", "0088:b"⟩
  documentType := ⟨"busdox", "order"⟩
  process := ⟨"process", "billing"⟩
  payloads := [p]

theorem made_sampleMessage (p : Payload) : (sampleMessage p).Made :=
  ⟨⟨"iso6523", "0088:a", rfl⟩, ⟨"iso6523", "0088:b", rfl⟩, ⟨"busdox", "order", rfl⟩,
    ⟨"process", "billing", rfl⟩⟩

theorem unbroken_message_arrives_framed :
    (sampleDraft unbrokenPayload).build = .ok (sampleMessage unbrokenPayload) ∧
      (sampleMessage unbrokenPayload).Made ∧
      (∀ p ∈ (sampleMessage unbrokenPayload).payloads, Avoids (boundaryOf ⟨2⟩) p.attachment) ∧
      ∃ e, standard.prepare sampleStamp sampleRoute (sampleMessage unbrokenPayload) = .ok e ∧
        (Arrival.ofBody (write (boundaryOf ⟨2⟩) e.envelope.toBytes e.attachments) =
            .ok (.message ⟨sampleMessage unbrokenPayload, e.messageId, e.conversationId, []⟩) ↔
          ∀ p ∈ (sampleMessage unbrokenPayload).payloads, Framable p.attachment) := by
  have hbuild : (sampleDraft unbrokenPayload).build = .ok (sampleMessage unbrokenPayload) := by
    decide
  have havoids : ∀ p ∈ (sampleMessage unbrokenPayload).payloads,
      Avoids (boundaryOf ⟨2⟩) p.attachment := by
    intro p hp
    obtain rfl := List.mem_singleton.mp hp
    exact ⟨by decide +kernel, by decide +kernel, by decide +kernel⟩
  have hmade := made_sampleMessage unbrokenPayload
  exact ⟨hbuild, hmade, havoids,
    standard.framed_message_arrives_iff sampleStamp sampleRoute hbuild hmade havoids⟩

/-- A message can be built and arrives on the direct path, but not in a frame. -/
theorem broken_message_does_not_arrive_framed :
    (sampleDraft brokenPayload).build = .ok (sampleMessage brokenPayload) ∧
      (sampleMessage brokenPayload).Made ∧
      (∀ p ∈ (sampleMessage brokenPayload).payloads, Avoids (boundaryOf ⟨2⟩) p.attachment) ∧
      ∃ e, standard.prepare sampleStamp sampleRoute (sampleMessage brokenPayload) = .ok e ∧
        Arrival.ofParts e.envelope.toBytes e.attachments =
          .ok (.message ⟨sampleMessage brokenPayload, e.messageId, e.conversationId, []⟩) ∧
        Arrival.ofBody (write (boundaryOf ⟨2⟩) e.envelope.toBytes e.attachments) =
          .error (.framing (.malformedPart 1 (.badHeaderLine "b>"))) := by
  have hbuild : (sampleDraft brokenPayload).build = .ok (sampleMessage brokenPayload) := by
    decide
  have hmade := made_sampleMessage brokenPayload
  have havoids : ∀ p ∈ (sampleMessage brokenPayload).payloads,
      Avoids (boundaryOf ⟨2⟩) p.attachment := by
    intro p hp
    obtain rfl := List.mem_singleton.mp hp
    exact ⟨by decide +kernel, by decide +kernel, by decide +kernel⟩
  refine ⟨hbuild, hmade, havoids, _, rfl, ?_, ?_⟩
  · have harrival := standard.arrival_messageEnvelope sampleStamp sampleRoute hbuild hmade
      (List.Perm.refl _)
    rw [Arrival.ofParts, Arrival.ofBytes, Envelope.ofBytes_toBytes]
    exact mapError_eq_ok.mpr harrival
  · have hread : readEach 1 ((sampleMessage brokenPayload).payloads.map Payload.attachment) =
        .error (.malformedPart 1 (.badHeaderLine "b>")) := by
      decide +kernel
    rw [Arrival.ofBody_write _ (List.forall_mem_map.mpr havoids), hread]
    rfl

end Agreement

end EbmsMessaging
