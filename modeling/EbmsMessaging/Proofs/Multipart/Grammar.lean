import EbmsMessaging.Proofs.Multipart.Framing
import EbmsMessaging.Proofs.Multipart.Parameters

/-!
# Bodies of foreign senders

Other senders write the same frames in other ways: the parameters of the content type come in any
order, with or without quotes, header lines come in any order and more than once, delimiters have
something behind them on their lines, and something stands before the first one and behind the last.
What is read is the same.
-/
namespace EbmsMessaging.Multipart

/-! ## Header lines -/

/-- A header line: a name, which may have blanks around it, and a value. -/
structure HeaderLine where
  name : List Char
  value : List Char
  named : ':' ∉ name
  unbroken : ¬lineBreak <:+: name ++ ':' :: value

namespace HeaderLine

variable (l : HeaderLine)

def text : List Char := l.name ++ ':' :: l.value

def octets : Bytes := l.text.flatMap Utf8.encodeChar

theorem colon_mem_octets : 0x3A ∈ l.octets := by
  have hcolon : Utf8.encodeChar ':' = [0x3A] := Utf8.encodeChar_of_lt (by decide)
  rw [octets, text, List.flatMap_append, List.flatMap_cons, hcolon]
  simp

theorem not_infix_octets : ¬lineEnd <:+: l.octets := by
  intro hoccurs
  rw [← flatMap_lineBreak] at hoccurs
  exact l.unbroken (Utf8.infix_of_flatMap_encodeChar (by simp [lineBreak]) hoccurs)

/-- No line has two names. -/
theorem not_named_of_named {name other : String} {cs : List Char}
    (hother : Text.sameIgnoringCase name other = false) (h : isNamed name cs = true) :
    isNamed other cs = false := by
  unfold isNamed Text.sameIgnoringCase at *
  rw [beq_iff_eq] at h
  rwa [h]

theorem read_text (h : PartHeader) : h.read l.text = .ok
    ⟨if isNamed "content-id" l.name then some (withoutBrackets (String.ofList (trimmed l.value)))
      else h.contentId,
    if isNamed "content-type" l.name then some (String.ofList (trimmed l.value))
      else h.mimeType⟩ := by
  have hname : ¬[':'] <:+: l.name := by
    rw [List.singleton_infix_iff]
    exact l.named
  have hcut : Text.cut [':'] l.text = some (l.name, l.value) := by
    have htext : l.text = l.name ++ [':'] ++ l.value := by simp [text]
    rw [htext]
    exact Text.cut_of_not_infix List.not_mem_nil hname
  rw [PartHeader.read, hcut]
  dsimp only
  cases hid : isNamed "content-id" l.name with
  | true =>
    have htype : isNamed "content-type" l.name = false := not_named_of_named (by decide) hid
    simp only [htype, if_true, Bool.false_eq_true, if_false]
  | false =>
    cases htype : isNamed "content-type" l.name with
    | true => simp only [if_true, Bool.false_eq_true, if_false]
    | false => simp only [Bool.false_eq_true, if_false]

/-- The value of the last line of a name, without the blanks around it. -/
def last? (name : String) (ls : List HeaderLine) : Option String :=
  (ls.reverse.find? fun l => isNamed name l.name).map fun l => String.ofList (trimmed l.value)

theorem last?_cons (name : String) (ls : List HeaderLine) :
    last? name (l :: ls) = (last? name ls).or
      (if isNamed name l.name then some (String.ofList (trimmed l.value)) else none) := by
  rw [last?, List.reverse_cons, List.find?_append, Option.map_or, ← last?, List.find?_singleton]
  cases isNamed name l.name <;> rfl

theorem foldlM_read (ls : List HeaderLine) (h : PartHeader) :
    (ls.map text).foldlM PartHeader.read h = .ok
      ⟨((last? "content-id" ls).map withoutBrackets).or h.contentId,
        (last? "content-type" ls).or h.mimeType⟩ := by
  induction ls generalizing h with
  | nil => rfl
  | cons l ls ih =>
    rw [List.map_cons, List.foldlM_cons, l.read_text]
    simp only [bind, Except.bind, ih, last?_cons]
    congr 2
    · cases last? "content-id" ls with
      | none => split <;> rfl
      | some value => rfl
    · cases last? "content-type" ls with
      | none => split <;> rfl
      | some value => rfl

/-- The text of a header up to the end of its last line. -/
def block (init : List HeaderLine) (last : HeaderLine) : List Char :=
  init.flatMap (fun l => l.text ++ lineBreak) ++ last.text

theorem lined_block (init : List HeaderLine) (last : HeaderLine) :
    Lined (block init last) ((init ++ [last]).map text) := by
  induction init with
  | nil => exact .single last.unbroken
  | cons l init ih =>
    rw [block, List.flatMap_cons, List.append_assoc]
    exact .more l.unbroken ih

theorem ofText_block (init : List HeaderLine) (last : HeaderLine) :
    PartHeader.ofText (String.ofList (block init last)) = .ok
      ⟨(last? "content-id" (init ++ [last])).map withoutBrackets,
        last? "content-type" (init ++ [last])⟩ := by
  have hfilled : ∀ line ∈ (init ++ [last]).map text, (!line.isEmpty) = true := by
    rw [List.forall_mem_map]
    intro l _
    simp [text]
  rw [PartHeader.ofText_eq, (lined_block init last).eq_linesOf, List.filter_eq_self.mpr hfilled,
    foldlM_read]
  simp

theorem octets_block (init : List HeaderLine) (last : HeaderLine) :
    (block init last).flatMap Utf8.encodeChar =
      init.flatMap (fun l => l.octets ++ lineEnd) ++ last.octets := by
  rw [block, List.flatMap_append, List.flatMap_assoc]
  simp only [List.flatMap_append, flatMap_lineBreak, octets]

/-- No line is empty, so the first blank line is the one behind the last line. -/
theorem not_infix_block (init : List HeaderLine) (last : HeaderLine) :
    ¬lineEnd ++ lineEnd <:+: (block init last).flatMap Utf8.encodeChar := by
  intro hoccurs
  rw [lineEnds_eq] at hoccurs
  have htext := Utf8.infix_of_flatMap_encodeChar (by simp [lineBreak]) hoccurs
  obtain ⟨l, -, hl⟩ := List.mem_map.mp
    (List.mem_of_mem_tail ((lined_block init last).nil_mem_of_breaks htext))
  simp [text] at hl

theorem not_suffix_block (init : List HeaderLine) (last : HeaderLine) :
    ¬lineEnd <:+ (block init last).flatMap Utf8.encodeChar := by
  intro hsuffix
  rw [octets_block] at hsuffix
  rcases List.suffix_or_suffix_of_suffix hsuffix (List.suffix_append _ _) with hlong | hshort
  · exact last.not_infix_octets hlong.isInfix
  · exact absurd (hshort.subset last.colon_mem_octets) (by decide)

end HeaderLine

/-- A blank line is found behind whatever holds none and does not end with the end of a line. -/
theorem cut_lineEnds {front : Bytes} (hfront : ¬lineEnd ++ lineEnd <:+: front)
    (hend : ¬lineEnd <:+ front) (data : Bytes) :
    Text.cut (lineEnd ++ lineEnd) (front ++ (lineEnd ++ lineEnd) ++ data) = some (front, data) := by
  refine Text.cut_of_first fun u v heq hv hp => ?_
  -- One, two, three or all octets of an earlier blank line would stand before the end.
  match v with
  | [] => exact hv rfl
  | [a] => simp [lineEnd] at hp
  | [a, b] =>
    obtain ⟨rfl, rfl⟩ : 0x0D = a ∧ 0x0A = b := by simpa [lineEnd] using hp
    exact hend ⟨u, heq.symm⟩
  | [a, b, c] => simp [lineEnd] at hp
  | a :: b :: c :: d :: w =>
    obtain ⟨rfl, rfl, rfl, rfl⟩ : 0x0D = a ∧ 0x0A = b ∧ 0x0D = c ∧ 0x0A = d := by
      simpa [lineEnd] using hp
    exact hfront ⟨u, w, by rw [heq]; simp [lineEnd]⟩

/-! ## Parts -/

/-- A part of a foreign sender: what stands behind the delimiter on its line, header lines, and data. -/
structure ForeignPart where
  padding : Bytes
  lines : List HeaderLine
  data : Bytes
  headed : lines ≠ []
  unbroken : ¬lineEnd <:+: padding
  opened : ¬hyphens <+: padding

namespace ForeignPart

variable (p : ForeignPart)

/-- The part from its first header line to the end of its data. -/
def raw : Bytes := p.lines.flatMap (fun l => l.octets ++ lineEnd) ++ lineEnd ++ p.data

/-- What the last header line of this name says. -/
def contentId? : Option String := (HeaderLine.last? "content-id" p.lines).map withoutBrackets

def mimeType : String := (HeaderLine.last? "content-type" p.lines).getD "application/octet-stream"

/-- What is to be read, if the part names its content identifier. -/
def entry? : Option Attachment := p.contentId?.map fun contentId => ⟨contentId, p.mimeType, p.data⟩

theorem splitPart_raw : splitPart p.raw = Text.cut (lineEnd ++ lineEnd) p.raw := by
  obtain ⟨first, rest, hlines⟩ := List.exists_cons_of_ne_nil p.headed
  have hstart : lineEnd.isPrefixOf p.raw = false := by
    rw [← Bool.not_eq_true, List.isPrefixOf_iff_prefix, raw, hlines, List.flatMap_cons]
    simp only [List.append_assoc]
    intro hprefix
    rcases List.prefix_or_prefix_of_prefix hprefix (List.prefix_append _ _) with hlong | hshort
    · exact first.not_infix_octets hlong.isInfix
    · exact absurd (hshort.subset first.colon_mem_octets) (by decide)
  rw [splitPart, hstart]
  rfl

theorem readPart_raw (index : Nat) :
    readPart index p.raw = match p.entry? with
      | none => .error (.missingContentId index)
      | some a => .ok a := by
  obtain ⟨init, last, hlines⟩ := List.eq_nil_or_concat p.lines |>.resolve_left p.headed
  rw [List.concat_eq_append] at hlines
  have hraw : p.raw = (HeaderLine.block init last).flatMap Utf8.encodeChar ++
      (lineEnd ++ lineEnd) ++ p.data := by
    rw [raw, hlines, HeaderLine.octets_block]
    simp
  have hcut := cut_lineEnds (HeaderLine.not_infix_block init last)
    (HeaderLine.not_suffix_block init last) p.data
  rw [← hraw, ← splitPart_raw] at hcut
  have htext : Utf8.decode? ((HeaderLine.block init last).flatMap Utf8.encodeChar) =
      some (String.ofList (HeaderLine.block init last)) := by
    have := Utf8.decode?_flatMap_encodeChar (String.ofList (HeaderLine.block init last))
    rwa [String.toList_ofList] at this
  have hheader := HeaderLine.ofText_block init last
  rw [← hlines] at hheader
  simp only [readPart, hcut, htext, hheader, entry?, contentId?, mimeType]
  cases HeaderLine.last? "content-id" p.lines with
  | none => rfl
  | some value => rfl

end ForeignPart

/-! ## The root among the parts -/

/-- The first part of the identifier that is asked for, or the first part, if the parts before it are
these. -/
def IsRoot (start : Option String) (front : List Attachment) (root : Attachment) : Prop :=
  match start with
  | none => front = []
  | some contentId => root.contentId = contentId ∧ ∀ a ∈ front, a.contentId ≠ contentId

/-- No part is the one that is asked for. -/
def NoRoot (start : Option String) (as : List Attachment) : Prop :=
  match start with
  | none => as = []
  | some contentId => ∀ a ∈ as, a.contentId ≠ contentId

theorem takeRoot_of_isRoot {start : Option String} {front : List Attachment} {root : Attachment}
    (h : IsRoot start front root) (others : List Attachment) :
    takeRoot start (front ++ root :: others) = .ok (root, front ++ others) := by
  cases start with
  | none =>
    obtain rfl : front = [] := h
    rfl
  | some contentId =>
    obtain ⟨hroot, hfront⟩ := h
    have hnone : front.findIdx? (fun a => decide (a.contentId = contentId)) = none := by
      rw [List.findIdx?_eq_none_iff]
      exact fun a ha => decide_eq_false (hfront a ha)
    have hindex : (front ++ root :: others).findIdx? (fun a => decide (a.contentId = contentId)) =
        some front.length := by
      simp [List.findIdx?_append, List.findIdx?_cons, hnone, hroot]
    simp [takeRoot, hindex, List.eraseIdx_append_of_length_le]

theorem takeRoot_of_noRoot {start : Option String} {as : List Attachment} (h : NoRoot start as) :
    takeRoot start as = .error (.missingRoot start) := by
  cases start with
  | none =>
    obtain rfl : as = [] := h
    rfl
  | some contentId =>
    have hnone : as.findIdx? (fun a => decide (a.contentId = contentId)) = none := by
      rw [List.findIdx?_eq_none_iff]
      exact fun a ha => decide_eq_false (h a ha)
    simp [takeRoot, hnone]

/-! ## Frames -/

/-- A frame of a foreign sender. -/
structure ForeignFrame where
  contentType : ContentType
  boundary : String
  preamble : Bytes
  parts : List ForeignPart
  epilogue : Bytes
  listed : contentType.value? "boundary" = some boundary
  unbroken : '\r' ∉ boundary.toList ∧ '\n' ∉ boundary.toList
  opened : preamble = [] ∨ lineEnd <:+ preamble
  begins : ¬delimiter boundary <:+: preamble
  avoids : ∀ p ∈ parts, ¬separator boundary <:+: lineEnd ++ p.raw

namespace ForeignFrame

variable (f : ForeignFrame)

def sections : List Section := f.parts.map fun p => ⟨p.padding, p.raw⟩

/-- The preamble, the parts between the delimiters, and the epilogue. -/
def body : Bytes :=
  f.preamble ++ delimiter f.boundary ++ Section.row f.boundary f.epilogue f.sections

/-- The content identifier of the root, if the content type names one. -/
def start? : Option String := (f.contentType.value? "start").map withoutBrackets

theorem fits : ∀ s ∈ f.sections, Section.Fits f.boundary s := by
  rw [sections, List.forall_mem_map]
  exact fun p hp => ⟨p.unbroken, p.opened, fun hoccurs =>
    f.avoids p hp (hoccurs.trans (List.suffix_append _ _).isInfix)⟩

theorem cut_body : Text.cut (delimiter f.boundary) f.body =
    some (f.preamble, Section.row f.boundary f.epilogue f.sections) := by
  rcases f.opened with hnil | ⟨front, hfront⟩
  · rw [body, hnil, List.nil_append]
    exact Text.cut_append_self _ _
  · have hfeed : (0x0A : UInt8) ∉ delimiter f.boundary := by
      have hboundary : (0x0A : UInt8) ∉ Utf8.encode f.boundary :=
        Utf8.not_mem_encode (d := '\n') (by decide) f.unbroken.2
      simp [delimiter, hyphens, hboundary]
    have hpreamble : f.preamble = front ++ [0x0D] ++ [0x0A] := by
      rw [← hfront, lineEnd]
      simp
    have hbegins := f.begins
    rw [hpreamble] at hbegins
    rw [body, hpreamble]
    exact Text.cut_of_getLast hfeed hbegins

theorem read_eq : read f.contentType.text f.body = do
    let as ← Section.readAll 0 f.sections
    let (root, others) ← takeRoot f.start? as
    return (root.data, others) := by
  have hparts := Section.readParts_row f.unbroken.1 f.fits f.epilogue []
  rw [read, ContentType.parameter?_text, f.listed, ContentType.parameter?_text, ← start?]
  simp only [f.cut_body, hparts, List.length_nil, List.reverse_nil, List.nil_append]
  cases Section.readAll 0 f.sections <;> rfl

theorem readAll_eq_ok {parts : List ForeignPart} {as : List Attachment}
    (h : parts.map ForeignPart.entry? = as.map some) (index : Nat) :
    Section.readAll index (parts.map fun p => ⟨p.padding, p.raw⟩) = .ok as := by
  induction parts generalizing index as with
  | nil =>
    obtain rfl : as = [] := by simpa using h.symm
    rfl
  | cons p parts ih =>
    cases as with
    | nil => simp at h
    | cons a as =>
      obtain ⟨hentry, hrest⟩ := List.cons.inj h
      rw [List.map_cons, Section.readAll, p.readPart_raw, hentry, ih hrest]
      rfl

/-- The first part without a content identifier is the one that is complained about. -/
theorem readAll_eq_error {front rest : List ForeignPart} {p : ForeignPart}
    (hfront : ∀ q ∈ front, q.contentId? ≠ none) (hp : p.contentId? = none) (index : Nat) :
    Section.readAll index ((front ++ p :: rest).map fun p => ⟨p.padding, p.raw⟩) =
      .error (.missingContentId (index + front.length)) := by
  induction front generalizing index with
  | nil =>
    rw [List.nil_append, List.map_cons, Section.readAll, p.readPart_raw, ForeignPart.entry?, hp]
    rfl
  | cons q front ih =>
    obtain ⟨hq, hfront⟩ := List.forall_mem_cons.mp hfront
    obtain ⟨contentId, hid⟩ := Option.ne_none_iff_exists'.mp hq
    rw [List.cons_append, List.map_cons, Section.readAll, q.readPart_raw, ForeignPart.entry?, hid,
      ih hfront, List.length_cons, Nat.add_right_comm, Nat.add_assoc]
    rfl

end ForeignFrame

/-- However a frame is written, what is read are its parts: each with the content identifier and the
media type that the last header line of the name gives it, and with its data. The root is the part that
the content type names, wherever it stands, and the others stay in their order. Nothing is read if a
part has no content identifier or no part is the root. -/
theorem foreign_frame_read (f : ForeignFrame) :
    (∀ front root others, f.parts.map ForeignPart.entry? = (front ++ root :: others).map some →
      IsRoot f.start? front root →
      read f.contentType.text f.body = .ok (root.data, front ++ others)) ∧
    (∀ as, f.parts.map ForeignPart.entry? = as.map some → NoRoot f.start? as →
      read f.contentType.text f.body = .error (.missingRoot f.start?)) ∧
    ∀ front p rest, f.parts = front ++ p :: rest → (∀ q ∈ front, q.contentId? ≠ none) →
      p.contentId? = none →
      read f.contentType.text f.body = .error (.missingContentId front.length) := by
  refine ⟨fun front root others hentries hroot => ?_, fun as hentries hroot => ?_,
    fun front p rest hparts hfront hp => ?_⟩
  · rw [f.read_eq, ForeignFrame.sections, ForeignFrame.readAll_eq_ok hentries]
    simp only [bind, Except.bind, takeRoot_of_isRoot hroot]
    rfl
  · rw [f.read_eq, ForeignFrame.sections, ForeignFrame.readAll_eq_ok hentries]
    simp only [bind, Except.bind, takeRoot_of_noRoot hroot]
  · rw [f.read_eq, ForeignFrame.sections, hparts, ForeignFrame.readAll_eq_error hfront hp,
      Nat.zero_add]
    rfl

/-- A parameter without quotes that names the root. -/
def sampleStart : Parameter where
  name := " START ".toList
  front := []
  value := "<b@x>".toList
  back := [' ']
  quoted := false
  named := by decide +kernel
  blank := ⟨List.forall_mem_nil _, List.forall_mem_singleton.mpr rfl⟩
  plain := by decide +kernel
  bare := by decide +kernel

/-- A boundary that has to stand in quotes. -/
def sampleBoundaryParameter : Parameter where
  name := "\tBoundary".toList
  front := [' ']
  value := "-ü =".toList
  back := []
  quoted := true
  named := by decide +kernel
  blank := ⟨List.forall_mem_singleton.mpr rfl, List.forall_mem_nil _⟩
  plain := by decide +kernel
  bare := by decide +kernel

def sampleContentType : ContentType where
  mediaType := "Multipart/Related".toList
  parameters := [sampleStart, sampleBoundaryParameter]
  plain := by decide +kernel

/-- A part with two content identifiers, and data that begins and ends like a delimiter. -/
def samplePart : ForeignPart where
  padding := [0x2D]
  lines :=
    [⟨"content-id".toList, "<a@x>".toList, by decide +kernel, by decide +kernel⟩,
      ⟨"CONTENT-ID".toList, " <<c@x>\n".toList, by decide +kernel, by decide +kernel⟩]
  data := hyphens ++ lineEnd
  headed := by decide
  unbroken := by decide
  opened := by decide

/-- A part of the identifier that the content type names. -/
def sampleRootPart : ForeignPart where
  padding := []
  lines :=
    [⟨"Content-Type ".toList, " text/xml; a=\"b:c\"".toList, by decide +kernel, by decide +kernel⟩,
      ⟨"Content-Id".toList, "b@x".toList, by decide +kernel, by decide +kernel⟩]
  data := lineEnd ++ lineEnd
  headed := by decide
  unbroken := by decide
  opened := by decide

def sampleFrame : ForeignFrame where
  contentType := sampleContentType
  boundary := "-ü ="
  preamble := hyphens ++ lineEnd
  parts := [samplePart, sampleRootPart]
  epilogue := [0x2D]
  listed := by decide +kernel
  unbroken := by decide +kernel
  opened := .inr ⟨hyphens, rfl⟩
  begins := by decide +kernel
  avoids := by decide +kernel

/-- What is read of the first part: the last content identifier without one pair of brackets. -/
def sampleEntry : Attachment := ⟨"<c@x", "application/octet-stream", hyphens ++ lineEnd⟩

def sampleRootEntry : Attachment := ⟨"b@x", "text/xml; a=\"b:c\"", lineEnd ++ lineEnd⟩

theorem sampleFrame_read :
    sampleFrame.parts.map ForeignPart.entry? = ([sampleEntry] ++ [sampleRootEntry]).map some ∧
      IsRoot sampleFrame.start? [sampleEntry] sampleRootEntry ∧
      read sampleFrame.contentType.text sampleFrame.body = .ok (lineEnd ++ lineEnd, [sampleEntry]) := by
  have hentries : sampleFrame.parts.map ForeignPart.entry? =
      ([sampleEntry] ++ [sampleRootEntry]).map some := by
    decide +kernel
  have hstart : sampleFrame.start? = some "b@x" := by decide +kernel
  have hroot : IsRoot sampleFrame.start? [sampleEntry] sampleRootEntry := by
    rw [hstart]
    exact ⟨rfl, by decide⟩
  exact ⟨hentries, hroot, (foreign_frame_read sampleFrame).1 _ _ [] hentries hroot⟩

end EbmsMessaging.Multipart
