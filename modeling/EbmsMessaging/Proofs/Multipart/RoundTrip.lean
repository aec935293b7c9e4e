import EbmsMessaging.Proofs.Multipart.Acknowledgements

/-!
# What comes out of a frame is what was put there

A header line loses the blanks around its value, and ends where its value does only if no line end stands
in it. So an attachment is read as it was written exactly if its texts are such values, whatever its data
are. Nothing else is ever read, and so all that came out of one frame can go into another.
-/
namespace EbmsMessaging

namespace Multipart

namespace PartHeader

/-- The media type that is read is the value of a header line, without the blanks around it. -/
theorem mimeType_of_read {h h' : PartHeader} {line : List Char} (hread : h.read line = .ok h')
    {mimeType : String} (htype : h'.mimeType = some mimeType) :
    h.mimeType = some mimeType ∨
      mimeType.toList <:+: line ∧ Text.Bare Text.isBlank mimeType.toList := by
  obtain ⟨value, hvalue, rfl | rfl | rfl⟩ := read_cases hread
  · exact .inl htype
  · obtain rfl := Option.some.inj htype
    rw [String.toList_ofList]
    exact .inr ⟨(infix_stripChars _ _).trans hvalue, Text.bare_stripChars _ _⟩
  · exact .inl htype

/-- The first line of a header names the media type, if that is a value. -/
theorem read_mimeType (h : PartHeader) {mimeType : String}
    (hbare : Text.Bare Text.isBlank mimeType.toList) :
    h.read ("Content-Type: ".toList ++ mimeType.toList) =
      .ok { h with mimeType := some mimeType } := by
  have hcolon : ¬[':'] <:+: "Content-Type".toList := by decide
  have hcut : Text.cut [':'] ("Content-Type: ".toList ++ mimeType.toList) =
      some ("Content-Type".toList, ' ' :: mimeType.toList) :=
    Text.cut_of_not_infix (by simp) hcolon
  have hother : isNamed "content-id" "Content-Type".toList = false := by decide
  have hname : isNamed "content-type" "Content-Type".toList = true := by decide
  have hvalue : trimmed (' ' :: mimeType.toList) = mimeType.toList := by
    have hblank : Text.isBlank ' ' = true := rfl
    rw [trimmed, Text.stripChars, List.dropWhile_cons_of_pos hblank]
    exact Text.stripChars_of_bare hbare
  rw [read, hcut]
  simp only [hother, hname, if_true, hvalue, String.ofList_toList, Bool.false_eq_true, if_false]

theorem read_encoding (h : PartHeader) :
    h.read "Content-Transfer-Encoding: binary".toList = .ok h := by
  have hcut : Text.cut [':'] "Content-Transfer-Encoding: binary".toList =
      some ("Content-Transfer-Encoding".toList, " binary".toList) := by decide
  have hid : isNamed "content-id" "Content-Transfer-Encoding".toList = false := by decide
  have htype : isNamed "content-type" "Content-Transfer-Encoding".toList = false := by decide
  rw [read, hcut]
  simp only [hid, htype, Bool.false_eq_true, if_false]

end PartHeader

/-! ## What goes through a header -/

/-- What a header gives back as it is: texts on one line, and no blank around the media type. -/
structure Packable (a : Attachment) : Prop where
  contentId : ¬lineBreak <:+: a.contentId.toList
  mimeType : ¬lineBreak <:+: a.mimeType.toList
  bare : Text.Bare Text.isBlank a.mimeType.toList

theorem Packable.framable {a : Attachment} (h : Packable a) : Framable a where
  contentId := h.contentId
  mimeType := by simp [(Lined.single h.mimeType).eq_linesOf]

theorem ofText_headerText {a : Attachment} (h : Packable a) :
    PartHeader.ofText (String.ofList (headerText a.mimeType a.contentId)) =
      .ok ⟨some a.contentId, some a.mimeType⟩ := by
  have hlined := lined_headerText (.single h.mimeType) (lined_contentId h.contentId)
  have hfilled : ∀ line ∈ ["Content-Type: ".toList ++ a.mimeType.toList,
      "Content-Transfer-Encoding: binary".toList,
      "Content-ID: <".toList ++ a.contentId.toList ++ ">".toList], !line.isEmpty := by
    simp
  rw [PartHeader.ofText_eq, hlined.eq_linesOf, List.nil_append, List.filter_eq_self.mpr hfilled]
  simp only [List.foldlM_cons, PartHeader.read_mimeType _ h.bare, PartHeader.read_encoding,
    PartHeader.read_contentId, bind, Except.bind]
  rfl

theorem readPart_of_packable {a : Attachment} (h : Packable a) (index : Nat) :
    readPart index (inner a) = .ok a :=
  readPart_of_header h.framable (ofText_headerText h) index

theorem readEach_of_packable {as : List Attachment} (h : ∀ a ∈ as, Packable a) (index : Nat) :
    readEach index as = .ok as := by
  induction as generalizing index with
  | nil => rfl
  | cons a as ih =>
    obtain ⟨ha, has⟩ := List.forall_mem_cons.mp h
    simp only [readEach, readPart_of_packable ha, ih has, bind, Except.bind, pure, Except.pure]

/-! ## Nothing else is read -/

theorem packable_of_readPart {index : Nat} {raw : Bytes} {b : Attachment}
    (h : readPart index raw = .ok b) : Packable b := by
  obtain ⟨header, text, read, -, -, hread, -, htype⟩ := of_readPart h
  rw [← String.ofList_toList (s := text), PartHeader.ofText_eq] at hread
  have hvalue : ¬lineBreak <:+: b.mimeType.toList ∧ Text.Bare Text.isBlank b.mimeType.toList := by
    cases hfound : read.mimeType with
    | none =>
      -- The media type of a part that names none is a value too.
      rw [htype, hfound, Option.getD_none]
      exact ⟨by decide, by decide⟩
    | some mimeType =>
      rw [htype, hfound, Option.getD_some]
      rcases PartHeader.said_of_foldlM_read PartHeader.mimeType_of_read hread hfound with
        hnone | ⟨line, hline, hoccurs, hbare⟩
      · simp at hnone
      · exact ⟨fun hbreak => (Lined.linesOf text.toList).not_broken (List.mem_of_mem_filter hline)
          (hbreak.trans hoccurs), hbare⟩
  exact ⟨contentId_of_readPart h, hvalue.1, hvalue.2⟩

theorem packable_of_readParts {boundary : String} {before as : List Attachment} {body : Bytes}
    (hbefore : ∀ b ∈ before, Packable b) (h : readParts boundary before body = .ok as) :
    ∀ a ∈ as, Packable a := by
  fun_induction readParts boundary before body with
  | case1 before body _ =>
    obtain rfl := Except.ok.inj h
    simpa using hbefore
  | case2 => simp at h
  | case3 => simp at h
  | case4 => simp at h
  | case5 before body _ line fromPart _ raw rest _ b hpart ih =>
    exact ih (List.forall_mem_cons.mpr ⟨packable_of_readPart hpart, hbefore⟩) h

theorem mem_of_takeRoot {start : Option String} {parts others : List Attachment} {a : Attachment}
    (h : takeRoot start parts = .ok (a, others)) : ∀ b ∈ others, b ∈ parts := by
  unfold takeRoot at h
  dsimp only at h
  split at h
  · cases h
  · split at h
    · cases h
    · obtain ⟨-, rfl⟩ := Prod.mk.inj (Except.ok.inj h)
      exact fun b => List.mem_of_mem_eraseIdx

end Multipart

open Multipart

/-- Each attachment that comes out of any frame can go into another. -/
theorem MultipartBody.packable_of_content {b : MultipartBody} {envelope : Bytes}
    {as : List Attachment} (h : b.content = .ok (envelope, as)) : ∀ a ∈ as, Packable a := by
  unfold content Multipart.read at h
  split at h
  · cases h
  · split at h
    · cases h
    · obtain ⟨parts, hparts, h⟩ := bind_eq_ok.mp h
      obtain ⟨⟨root, others⟩, hroot, h⟩ := bind_eq_ok.mp h
      obtain ⟨-, rfl⟩ := Prod.mk.inj (Except.ok.inj h)
      exact fun a ha => packable_of_readParts (by simp) hparts a (mem_of_takeRoot hroot a ha)

namespace Multipart

theorem not_infix_inner_root_of_avoided {u : Uuid} {envelope : Bytes}
    (h : ¬Utf8.encode (boundaryOf u) <:+: envelope) :
    ¬separator (boundaryOf u) <:+: inner (root envelope) := by
  have hmark := mark_mem_boundaryOf u
  have hid : '_' ∉ rootContentId.toList := by decide
  have htype : '_' ∉ rootMimeType.toList := by decide
  exact not_infix_inner (fun c => isToken_of_mem_boundaryOf) hmark
    ⟨fun hoccurs => hid (hoccurs.subset hmark), fun hoccurs => htype (hoccurs.subset hmark), h⟩

/-- With a boundary that occurs in none of them, bytes and attachments come out of their frame as they
were put there exactly if each attachment can go through a header, and only then do they come out of any
frame. -/
theorem content_write_iff {u : Uuid} {envelope : Bytes} {as : List Attachment}
    (henvelope : ¬Utf8.encode (boundaryOf u) <:+: envelope)
    (havoids : ∀ a ∈ as, Avoids (boundaryOf u) a) :
    ((write (boundaryOf u) envelope as).content = .ok (envelope, as) ↔ ∀ a ∈ as, Packable a) ∧
      ((∃ b : MultipartBody, b.content = .ok (envelope, as)) ↔ ∀ a ∈ as, Packable a) := by
  have hwritten : (∀ a ∈ as, Packable a) →
      (write (boundaryOf u) envelope as).content = .ok (envelope, as) := by
    intro hpackable
    rw [MultipartBody.content,
      read_write_of_root (not_infix_inner_root_of_avoided henvelope) havoids,
      readEach_of_packable hpackable]
    rfl
  constructor
  · exact ⟨MultipartBody.packable_of_content, hwritten⟩
  · refine ⟨?_, fun hpackable => ⟨write (boundaryOf u) envelope as, hwritten hpackable⟩⟩
    rintro ⟨b, hb⟩
    exact b.packable_of_content hb

/-- The bytes of an envelope that stands for none, and begins like a delimiter. -/
def disguisedEnvelope : Bytes := [0x0D, 0x0A, 0x2D, 0x2D, 0x4D]

/-- Empty data under an empty media type and the content identifier of the root; twice one content
identifier, once over line ends and hyphens. -/
def disguisedAttachments : List Attachment :=
  [⟨rootContentId, "", []⟩, ⟨"<a>: \r", "text/plain;\n q", lineEnd ++ lineEnd ++ hyphens⟩,
    ⟨"<a>: \r", "\"ü\"", hyphens ++ lineEnd ++ hyphens ++ hyphens ++ lineEnd⟩]

theorem disguised_come_out :
    ¬Utf8.encode (boundaryOf sampleBoundary) <:+: disguisedEnvelope ∧
      (∀ a ∈ disguisedAttachments, Avoids (boundaryOf sampleBoundary) a) ∧
      (∀ a ∈ disguisedAttachments, Packable a) ∧
      (write (boundaryOf sampleBoundary) disguisedEnvelope disguisedAttachments).content =
        .ok (disguisedEnvelope, disguisedAttachments) := by
  have henvelope : ¬Utf8.encode (boundaryOf sampleBoundary) <:+: disguisedEnvelope := by
    decide +kernel
  have havoids : ∀ a ∈ disguisedAttachments, Avoids (boundaryOf sampleBoundary) a := by
    simp only [disguisedAttachments, List.forall_mem_cons, List.not_mem_nil, false_implies,
      implies_true, and_true]
    exact ⟨⟨by decide +kernel, by decide +kernel, by decide +kernel⟩,
      ⟨by decide +kernel, by decide +kernel, by decide +kernel⟩,
      by decide +kernel, by decide +kernel, by decide +kernel⟩
  have hpackable : ∀ a ∈ disguisedAttachments, Packable a := by
    simp only [disguisedAttachments, List.forall_mem_cons, List.not_mem_nil, false_implies,
      implies_true, and_true]
    exact ⟨⟨by decide, by decide, by decide⟩, ⟨by decide, by decide, by decide⟩,
      by decide, by decide, by decide⟩
  exact ⟨henvelope, havoids, hpackable,
    (content_write_iff henvelope havoids).1.mpr hpackable⟩

end Multipart
end EbmsMessaging
