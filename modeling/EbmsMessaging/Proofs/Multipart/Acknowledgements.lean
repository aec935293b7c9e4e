import EbmsMessaging.Proofs.Multipart.Delivery

/-!
# Acknowledgements arrive as they were sent

An acknowledgement travels as properties, one for each text that it has. They have different names,
so each text is found again, or found missing. In a frame the envelope is the only part, and no
delimiter starts a line in an envelope, so the frame holds whatever its boundary is. What is read as
an acknowledgement is of one of the two kinds that can be sent.
-/
namespace EbmsMessaging

namespace Properties

variable (ps : Properties)

theorem value?_set_self (name value : String) : (ps.set name value).value? name = some value := by
  have h : (ps.set name value).get? name = some (.plain name value) := get?_insert_self ps _
  rw [value?, h]
  rfl

theorem value?_set_of_ne {name other : String} (value : String) (h : name ≠ other) :
    (ps.set name value).value? other = ps.value? other := by
  rw [value?, get?_set_of_ne ps value h, value?]

theorem value?_setIfSome_of_ne {name other : String} (value : Option String) (h : name ≠ other) :
    (ps.setIfSome name value).value? other = ps.value? other := by
  rw [value?, get?_setIfSome_of_ne ps value h, value?]

/-- A value that was set if there was one is found if there was one. -/
theorem value?_setIfSome_self {ps : Properties} {name : String} (h : ps.value? name = none)
    (value : Option String) : (ps.setIfSome name value).value? name = value := by
  cases value with
  | none => exact h
  | some value => exact value?_set_self ps name value

end Properties

namespace Acknowledgement

open Vocabulary

/-- Of one of the two kinds that can be sent: it tells what went wrong exactly if something did. -/
def Definite (k : Acknowledgement) : Prop := k.detail.isSome ↔ k.verdict = .error

instance (k : Acknowledgement) : Decidable k.Definite :=
  inferInstanceAs (Decidable (k.detail.isSome ↔ k.verdict = .error))

theorem definite_positive (hop : Hop) (key : String) (messageId : Option String) :
    (positive hop key messageId).Definite := by
  simp [Definite, positive]

theorem definite_negative (hop : Hop) (key : String) (messageId : Option String)
    (detail : FaultDetail) : (negative hop key messageId detail).Definite := by
  simp [Definite, negative]

theorem Definite.eq_positive_or_negative {k : Acknowledgement} (h : k.Definite) :
    k = positive k.hop k.key k.messageId ∨
      ∃ detail, k = negative k.hop k.key k.messageId detail := by
  obtain ⟨hop, key, messageId, verdict, detail⟩ := k
  cases verdict <;> cases detail <;> simp_all [Definite, positive, negative]

variable (k : Acknowledgement)

/-- What every acknowledgement has is found in its properties. -/
theorem value?_properties : k.properties.value? refToMessageId = some k.key ∧
    k.properties.value? Vocabulary.messageId = k.messageId ∧
    k.properties.value? result = some k.verdict.text := by
  have hnone : Properties.empty.value? Vocabulary.messageId = none := rfl
  cases hdetail : k.detail <;>
    simp (disch := decide) only [properties, hdetail, Properties.value?_set_of_ne,
      Properties.value?_setIfSome_of_ne, Properties.value?_set_self,
      Properties.value?_setIfSome_self hnone, and_self]

/-- So is what went wrong. -/
theorem value?_properties_of_detail {d : FaultDetail} (h : k.detail = some d) :
    k.properties.value? errorCode = some d.code ∧
      k.properties.value? severity = d.severity ∧
      k.properties.value? shortDescription = d.shortDescription ∧
      k.properties.value? description = d.description := by
  refine ⟨?_, ?_, ?_, ?_⟩
  · simp (disch := decide) only [properties, h, Properties.value?_set_self,
      Properties.value?_setIfSome_of_ne]
  · simp (disch := decide) only [properties, h, Properties.value?_setIfSome_of_ne]
    refine Properties.value?_setIfSome_self ?_ _
    simp (disch := decide) only [Properties.value?_set_of_ne, Properties.value?_setIfSome_of_ne]
    rfl
  · simp (disch := decide) only [properties, h, Properties.value?_setIfSome_of_ne]
    refine Properties.value?_setIfSome_self ?_ _
    simp (disch := decide) only [Properties.value?_set_of_ne, Properties.value?_setIfSome_of_ne]
    rfl
  · simp only [properties, h]
    refine Properties.value?_setIfSome_self ?_ _
    simp (disch := decide) only [Properties.value?_set_of_ne, Properties.value?_setIfSome_of_ne]
    rfl

end Acknowledgement

namespace Agreement

variable (a : Agreement) (s : Stamp)

theorem purpose_acknowledgementEnvelope (k : Acknowledgement) :
    (a.acknowledgementEnvelope s k).purpose = .ok (.acknowledgement k.hop) := by
  obtain ⟨hop, key, messageId, verdict, detail⟩ := k
  cases hop <;> rfl

/-- An acknowledgement of one of the two kinds is found in its envelope, whatever comes along. -/
theorem arrival_acknowledgementEnvelope {k : Acknowledgement} (h : k.Definite)
    (as : List Attachment) :
    (a.acknowledgementEnvelope s k).arrival as = .ok (.acknowledgement k) := by
  have hproperties : (a.acknowledgementEnvelope s k).properties = k.properties := rfl
  have hfault : (a.acknowledgementEnvelope s k).fault = none := rfl
  have hread : (a.acknowledgementEnvelope s k).acknowledgement k.hop = .ok k := by
    obtain ⟨hkey, hid, hresult⟩ := k.value?_properties
    rcases h.eq_positive_or_negative with hk | ⟨detail, hk⟩
    · have hverdict : k.verdict = .receipt := by rw [hk]; rfl
      simp only [Envelope.acknowledgement, Envelope.mandatory, hproperties, hkey, hid, hresult,
        hverdict, Verdict.ofText?_text, bind, Except.bind, pure, Except.pure]
      rw [← hk]
    · have hverdict : k.verdict = .error := by rw [hk]; rfl
      have hdetail : k.detail = some detail := by rw [hk]; rfl
      obtain ⟨hcode, hseverity, hshort, hlong⟩ := k.value?_properties_of_detail hdetail
      simp only [Envelope.acknowledgement, Envelope.mandatory, hproperties, hkey, hid, hresult,
        hverdict, Verdict.ofText?_text, hcode, hseverity, hshort, hlong, bind, Except.bind, pure,
        Except.pure]
      rw [← hk]
  simp only [Envelope.arrival, hfault, a.purpose_acknowledgementEnvelope, hread, bind, Except.bind,
    pure, Except.pure]

theorem ofBytes_acknowledgementEnvelope {k : Acknowledgement} (h : k.Definite)
    (as : List Attachment) :
    Arrival.ofBytes (a.acknowledgementEnvelope s k).toBytes as = .ok (.acknowledgement k) := by
  rw [Arrival.ofBytes, Envelope.ofBytes_toBytes]
  exact a.arrival_acknowledgementEnvelope s h as

/-- In a frame without attachments an acknowledgement arrives under every boundary. -/
theorem ofBody_acknowledgementEnvelope {k : Acknowledgement} (h : k.Definite) (u : Uuid) :
    Arrival.ofBody (Multipart.write (Multipart.boundaryOf u)
      (a.acknowledgementEnvelope s k).toBytes []) = .ok (.acknowledgement k) := by
  rw [Arrival.ofBody_write _ (by simp)]
  exact mapError_eq_ok.mpr (a.arrival_acknowledgementEnvelope s h [])

end Agreement

/-- What comes out of a frame. -/
def MultipartBody.content (b : MultipartBody) : Except MultipartError (Bytes × List Attachment) :=
  Multipart.read b.contentType b.body

/-- An envelope without attachments comes out of its frame as it was, whatever the boundary. -/
theorem Multipart.content_write_nil (e : Envelope) (u : Uuid) :
    (write (boundaryOf u) e.toBytes []).content = .ok (e.toBytes, []) := by
  have hfirst : e.toBytes.head? ≠ some 0x2D := by
    rw [Envelope.head?_toBytes]
    decide
  have hshows : ∀ b ∈ e.toBytes, Json.Shows b := fun b hb => Json.shows_of_mem_render e hb
  rw [MultipartBody.content, read_write hshows hfirst (by simp)]
  rfl

/-- What is read as an acknowledgement is of one of the two kinds that can be sent. -/
theorem definite_of_ofBytes {raw : Bytes} {as : List Attachment} {k : Acknowledgement}
    (h : Arrival.ofBytes raw as = .ok (.acknowledgement k)) : k.Definite := by
  unfold Arrival.ofBytes at h
  split at h
  · simp at h
  unfold Envelope.arrival at h
  split at h
  · simp at h
  obtain ⟨purpose, -, h⟩ := bind_eq_ok.mp h
  cases purpose with
  | fault => simp at h
  | business =>
    obtain ⟨received, -, h⟩ := bind_eq_ok.mp h
    simp [pure, Except.pure] at h
  | acknowledgement hop =>
    obtain ⟨found, hfound, h⟩ := bind_eq_ok.mp h
    obtain rfl := Arrival.acknowledgement.inj (Except.ok.inj h)
    obtain ⟨key, -, hfound⟩ := bind_eq_ok.mp hfound
    obtain ⟨text, -, hfound⟩ := bind_eq_ok.mp hfound
    split at hfound
    · simp at hfound
    · obtain rfl := Except.ok.inj hfound
      exact Acknowledgement.definite_positive ..
    · obtain ⟨code, -, hfound⟩ := bind_eq_ok.mp hfound
      obtain rfl := Except.ok.inj hfound
      exact Acknowledgement.definite_negative ..

/-- An acknowledgement of either kind is read back from its envelope by whoever gets it, and the
envelope comes out of a frame as it was, even if the boundary stands in the acknowledgement.
Whatever bytes are read as an acknowledgement, it tells what went wrong exactly if something did, and
when it is sent on it arrives again. -/
theorem acknowledgement_read_back :
    (∀ (hop : Hop) (key : String) (messageId : Option String) (k : Acknowledgement),
      (k = .positive hop key messageId ∨ ∃ detail, k = .negative hop key messageId detail) →
      ∀ (a : Agreement) (s : Stamp),
        (∀ as, Arrival.ofBytes (a.acknowledgementEnvelope s k).toBytes as =
          .ok (.acknowledgement k)) ∧
        ∀ u, (Multipart.write (Multipart.boundaryOf u)
            (a.acknowledgementEnvelope s k).toBytes []).content =
          .ok ((a.acknowledgementEnvelope s k).toBytes, [])) ∧
    ∀ raw as k, Arrival.ofBytes raw as = .ok (.acknowledgement k) →
      (k.detail.isSome ↔ k.verdict = .error) ∧
      ∀ (a : Agreement) (s : Stamp) (bs : List Attachment),
        Arrival.ofBytes (a.acknowledgementEnvelope s k).toBytes bs = .ok (.acknowledgement k) := by
  refine ⟨fun hop key messageId k hk a s => ?_, fun raw as k hread => ?_⟩
  · have hdefinite : k.Definite := by
      rcases hk with rfl | ⟨detail, rfl⟩
      · exact Acknowledgement.definite_positive ..
      · exact Acknowledgement.definite_negative ..
    exact ⟨a.ofBytes_acknowledgementEnvelope s hdefinite, Multipart.content_write_nil _⟩
  · have hdefinite := definite_of_ofBytes hread
    exact ⟨hdefinite, fun a s => a.ofBytes_acknowledgementEnvelope s hdefinite⟩

def sampleBoundary : Uuid := ⟨⟨2, by decide⟩⟩

/-- In its description the boundary stands behind a line end. -/
def sampleRejection : Acknowledgement :=
  .negative .relay "" (some "") ⟨"EBMS:0301", none, some "",
    some ("\r\n--" ++ Multipart.boundaryOf sampleBoundary ++ "--\r\n")⟩

def sampleRejectionBytes : Bytes :=
  (Agreement.standard.acknowledgementEnvelope Agreement.sampleStamp sampleRejection).toBytes

theorem sample_rejection_read_back :
    (Multipart.write (Multipart.boundaryOf sampleBoundary) sampleRejectionBytes []).content =
        .ok (sampleRejectionBytes, []) ∧
      Arrival.ofBytes sampleRejectionBytes [] = .ok (.acknowledgement sampleRejection) ∧
      (sampleRejection.detail.isSome ↔ sampleRejection.verdict = .error) := by
  obtain ⟨hsent, hreceived⟩ := acknowledgement_read_back
  obtain ⟨hdirect, hframed⟩ := hsent .relay "" (some "") sampleRejection (.inr ⟨_, rfl⟩)
    Agreement.standard Agreement.sampleStamp
  exact ⟨hframed sampleBoundary, hdirect [], (hreceived _ _ _ (hdirect [])).1⟩

end EbmsMessaging
