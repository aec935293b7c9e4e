import EbmsMessaging.Proofs.Json.Printable
import EbmsMessaging.Proofs.Multipart.Headers
import EbmsMessaging.Proofs.Text.Strip

/-!
# Framed bodies fall into their parts

A boundary that does not occur in what an attachment carries does not occur between the delimiters of
its part. The envelope needs no such condition, since no delimiter can start a line in it. So a body
falls into the parts that it was put together from, and what is read depends only on how the part of
each attachment is read.
-/
namespace EbmsMessaging

/-! ## Boundaries -/

namespace Uuid

theorem isAlphanum_hexDigit {n : Nat} (h : n < 16) : (hexDigit n).isAlphanum = true := by
  revert n
  decide

theorem isAlphanum_of_mem_hexDigits {width n : Nat} {c : Char} (h : c ∈ hexDigits width n) :
    c.isAlphanum = true := by
  induction width generalizing n with
  | zero => simp [hexDigits] at h
  | succ width ih =>
    rw [hexDigits, List.mem_append, List.mem_singleton] at h
    rcases h with h | rfl
    · exact ih h
    · exact isAlphanum_hexDigit (Nat.mod_lt _ (by decide))

theorem isAlphanum_of_mem_plainText {u : Uuid} {c : Char} (h : c ∈ u.plainText.toList) :
    c.isAlphanum = true := by
  rw [plainText, String.toList_ofList, List.mem_flatten] at h
  obtain ⟨group, hgroup, h⟩ := h
  simp only [groups, List.mem_cons, List.not_mem_nil, or_false] at hgroup
  rcases hgroup with rfl | rfl | rfl | rfl | rfl
  · exact isAlphanum_of_mem_hexDigits h
  · exact isAlphanum_of_mem_hexDigits h
  · rcases List.mem_cons.mp h with rfl | h
    · decide
    · exact isAlphanum_of_mem_hexDigits h
  · rcases List.mem_cons.mp h with rfl | h
    · exact isAlphanum_hexDigit (by omega)
    · exact isAlphanum_of_mem_hexDigits h
  · exact isAlphanum_of_mem_hexDigits h

end Uuid

namespace Multipart

/-- A character of boundaries. -/
def IsToken (c : Char) : Prop := c.isAlphanum = true ∨ c = '_'

instance : DecidablePred IsToken := fun c =>
  inferInstanceAs (Decidable (c.isAlphanum = true ∨ c = '_'))

theorem isToken_of_mem_boundaryOf {u : Uuid} {c : Char} (h : c ∈ (boundaryOf u).toList) :
    IsToken c := by
  rw [boundaryOf, String.toList_append, List.mem_append] at h
  rcases h with h | h
  · have hfront : ∀ c ∈ "MIMEBoundary_".toList, IsToken c := by simp [IsToken]
    exact hfront c h
  · exact .inl (Uuid.isAlphanum_of_mem_plainText h)

/-! ## The parameters of the content type -/

/-- The parameter of a content type that names the boundary, up to the quotes around it. -/
def boundaryPiece (boundary : String) : List Char :=
  ' ' :: "boundary".toList ++ '=' :: ('\x22' :: (boundary.toList ++ ['\x22']))

/-- The pieces behind that parameter. -/
def startPiece : List Char := " start=\"<root.envelope@as4>\"".toList

theorem toList_contentType (boundary : String) : (contentType boundary).toList =
    "multipart/related".toList ++ ';' :: (" type=\"application/json\"".toList ++
      ';' :: (boundaryPiece boundary ++ ';' :: startPiece)) := by
  have hfront : ("multipart/related; type=\"" ++ rootMimeType ++ "\"; boundary=\"").toList =
      "multipart/related".toList ++ ';' :: (" type=\"application/json\"".toList ++
        ';' :: ' ' :: ("boundary".toList ++ ['=', '\x22'])) := by
    decide
  have hback : ("\"; start=\"<" ++ rootContentId ++ ">\"").toList =
      '\x22' :: ';' :: startPiece := by
    decide
  have hparts : contentType boundary = "multipart/related; type=\"" ++ rootMimeType ++
      "\"; boundary=\"" ++ boundary ++ ("\"; start=\"<" ++ rootContentId ++ ">\"") := by
    unfold contentType
    generalize "multipart/related; type=\"" = front, "\"; boundary=\"" = middle,
      "\"; start=\"<" = back, ">\"" = closing
    simp only [String.append_assoc]
  rw [hparts, String.toList_append, String.toList_append, hfront, hback, boundaryPiece]
  simp only [List.append_assoc, List.cons_append, List.nil_append]

theorem splitAll_contentType {boundary : String} (hb : ';' ∉ boundary.toList) :
    Text.splitAll ';' (contentType boundary).toList =
      ["multipart/related".toList, " type=\"application/json\"".toList, boundaryPiece boundary,
        startPiece] := by
  have hboundary : ';' ∉ boundaryPiece boundary := by
    simp [boundaryPiece, hb]
  rw [toList_contentType, Text.splitAll_append_cons (by decide),
    Text.splitAll_append_cons (by decide), Text.splitAll_append_cons hboundary,
    Text.splitAll_of_not_mem (by decide)]

theorem parameterIn?_boundaryPiece {boundary : String} (hb : ∀ c ∈ boundary.toList, IsToken c)
    (name : String) : parameterIn? name (boundaryPiece boundary) =
      if isNamed name (' ' :: "boundary".toList) then some boundary else none := by
  have hcut : Text.cut ['='] (boundaryPiece boundary) =
      some (' ' :: "boundary".toList, '\x22' :: (boundary.toList ++ ['\x22'])) := by
    have hname : ¬['='] <:+: ' ' :: "boundary".toList := by decide
    exact Text.cut_of_not_infix (by simp) hname
  have hquote : Text.isBlank '\x22' = false := rfl
  have htrimmed : trimmed ('\x22' :: (boundary.toList ++ ['\x22'])) =
      '\x22' :: (boundary.toList ++ ['\x22']) := by
    simp [trimmed, Text.stripChars, hquote]
  have hvalue : Text.stripChars (fun c => c = '\x22') ('\x22' :: (boundary.toList ++ ['\x22'])) =
      boundary.toList := by
    have hquotes : ∀ c ∈ ['\x22'], decide (c = '\x22') = true := List.forall_mem_singleton.mpr rfl
    refine Text.stripChars_append hquotes hquotes (Text.bare_of_forall fun c hc => ?_)
    have hne : c ≠ '\x22' := by
      rintro rfl
      exact absurd (hb _ hc) (by decide)
    simpa using hne
  rw [parameterIn?, hcut]
  simp only [htrimmed, hvalue, String.ofList_toList]

theorem parameter?_boundary {boundary : String} (hb : ∀ c ∈ boundary.toList, IsToken c) :
    parameter? (contentType boundary) "boundary" = some boundary := by
  have htype : parameterIn? "boundary" " type=\"application/json\"".toList = none := by decide
  have hname : isNamed "boundary" (' ' :: "boundary".toList) = true := by decide
  rw [parameter?, splitAll_contentType fun h => absurd (hb _ h) (by decide), List.tail_cons,
    List.findSome?_cons, htype, List.findSome?_cons, parameterIn?_boundaryPiece hb, if_pos hname]

theorem parameter?_start {boundary : String} (hb : ∀ c ∈ boundary.toList, IsToken c) :
    parameter? (contentType boundary) "start" = some ("<" ++ rootContentId ++ ">") := by
  have htype : parameterIn? "start" " type=\"application/json\"".toList = none := by decide
  have hname : isNamed "start" (' ' :: "boundary".toList) = false := by decide
  have hstart : parameterIn? "start" startPiece = some ("<" ++ rootContentId ++ ">") := by decide
  rw [parameter?, splitAll_contentType fun h => absurd (hb _ h) (by decide), List.tail_cons,
    List.findSome?_cons, htype, List.findSome?_cons, parameterIn?_boundaryPiece hb, hname,
    List.findSome?_cons, hstart]
  rfl

/-! ## Where delimiters occur -/

section Delimiters

variable {boundary : String}

theorem IsToken.toNat_lt {c : Char} (h : IsToken c) : c.toNat < 0x80 := by
  rcases h with h | rfl
  · have hcode : ((decide (c.val ≥ 'A'.val ∧ c.val ≤ 'Z'.val) ||
        (decide (c.val ≥ 'a'.val) && decide (c.val ≤ 'z'.val))) ||
        (decide (c.val ≥ '0'.val) && decide (c.val ≤ '9'.val))) = true := h
    have hval : c.val.toNat = c.toNat := rfl
    simp [UInt32.le_iff_toNat_le] at hcode
    omega
  · decide

/-- No octet of a boundary is that of another ASCII character. -/
theorem not_mem_encode (hb : ∀ c ∈ boundary.toList, IsToken c) {d : Char} (hd : ¬IsToken d)
    (hlt : d.toNat < 0x80) : UInt8.ofNat d.toNat ∉ Utf8.encode boundary :=
  Utf8.not_mem_encode hlt fun hmem => hd (hb d hmem)

/-- What ends a part: a delimiter that starts a line. -/
def separator (boundary : String) : Bytes := lineEnd ++ delimiter boundary

theorem separator_eq (boundary : String) :
    separator boundary = 0x0D :: 0x0A :: 0x2D :: 0x2D :: Utf8.encode boundary := rfl

theorem cut_separator (hb : '\r' ∉ boundary.toList) {raw : Bytes}
    (h : ¬separator boundary <:+: raw) (rest : Bytes) :
    Text.cut (separator boundary) (raw ++ separator boundary ++ rest) = some (raw, rest) := by
  have hreturn : (0x0D : UInt8) ∉ Utf8.encode boundary :=
    Utf8.not_mem_encode (d := '\r') (by decide) hb
  rw [separator_eq] at h ⊢
  refine Text.cut_of_not_infix ?_ h
  simp only [List.mem_cons, not_or]
  exact ⟨by decide, by decide, by decide, hreturn⟩

/-- Where a boundary occurs in a header, it occurs in one of the two values. -/
theorem infix_of_infix_headerText (hb : ∀ c ∈ boundary.toList, IsToken c)
    (hmark : '_' ∈ boundary.toList) {mimeType contentId : String}
    (h : boundary.toList <:+: headerText mimeType contentId) :
    boundary.toList <:+: mimeType.toList ∨ boundary.toList <:+: contentId.toList := by
  have hno : ∀ {c : Char}, ¬IsToken c → c ∉ boundary.toList := fun hc hmem => hc (hb _ hmem)
  have hword : ∀ cs, '_' ∉ cs → ¬boundary.toList <:+: cs := fun cs hcs hoccurs =>
    hcs (hoccurs.subset hmark)
  -- Between the blanks, line ends and angle brackets no word but the values holds the mark.
  have hfront : "Content-Type: ".toList = "Content-Type:".toList ++ [' '] := by decide
  have hencoding : "Content-Transfer-Encoding: binary".toList =
      "Content-Transfer-Encoding:".toList ++ ' ' :: "binary".toList := by decide
  have hopening : "Content-ID: <".toList = "Content-ID:".toList ++ [' ', '<'] := by decide
  have hclosing : ">".toList = ['>'] := by decide
  have htype := hword "Content-Type:".toList (by decide)
  have htransfer := hword ('\n' :: "Content-Transfer-Encoding:".toList) (by decide)
  have hbinary := hword "binary".toList (by decide)
  have hid := hword ('\n' :: "Content-ID:".toList) (by decide)
  have hnil := hword [] (by decide)
  unfold headerText lineBreak at h
  generalize "Content-Type: " = front, "Content-Transfer-Encoding: binary" = encoding,
    "Content-ID: <" = opening, ">" = closing at *
  rw [hfront, hencoding, hopening, hclosing] at h
  generalize "Content-Type:" = type, "Content-Transfer-Encoding:" = transfer,
    "binary" = binary, "Content-ID:" = id at *
  have htext : (type.toList ++ [' ']) ++ mimeType.toList ++ ['\r', '\n'] ++
      ((transfer.toList ++ ' ' :: binary.toList) ++ ['\r', '\n'] ++
        ((id.toList ++ [' ', '<']) ++ contentId.toList ++ ['>'])) =
      type.toList ++ ' ' :: (mimeType.toList ++ '\r' :: ('\n' :: transfer.toList ++ ' ' ::
        (binary.toList ++ '\r' :: ('\n' :: id.toList ++ ' ' :: ([] ++ '<' ::
          (contentId.toList ++ '>' :: [])))))) := by
    simp only [List.append_assoc, List.cons_append, List.nil_append]
  rw [htext, Text.infix_append_cons (hno (by decide)), Text.infix_append_cons (hno (by decide)),
    Text.infix_append_cons (hno (by decide)), Text.infix_append_cons (hno (by decide)),
    Text.infix_append_cons (hno (by decide)), Text.infix_append_cons (hno (by decide)),
    Text.infix_append_cons (hno (by decide))] at h
  tauto

/-- A boundary that occurs nowhere in an attachment. -/
structure Avoids (boundary : String) (a : Attachment) : Prop where
  contentId : ¬boundary.toList <:+: a.contentId.toList
  mimeType : ¬boundary.toList <:+: a.mimeType.toList
  data : ¬Utf8.encode boundary <:+: a.data

theorem not_infix_inner (hb : ∀ c ∈ boundary.toList, IsToken c) (hmark : '_' ∈ boundary.toList)
    {a : Attachment} (h : Avoids boundary a) : ¬separator boundary <:+: inner a := by
  intro hoccurs
  have hreturn : (0x0D : UInt8) ∉ Utf8.encode boundary :=
    not_mem_encode (d := '\r') hb (by decide) (by decide)
  have hfeed : (0x0A : UInt8) ∉ Utf8.encode boundary :=
    not_mem_encode (d := '\n') hb (by decide) (by decide)
  have hinner : Utf8.encode boundary <:+: inner a :=
    List.IsInfix.trans ⟨lineEnd ++ hyphens, [], by simp [separator, delimiter]⟩ hoccurs
  have hends : lineEnd ++ lineEnd ++ a.data = 0x0D :: ([0x0A, 0x0D, 0x0A] ++ a.data) := rfl
  rw [inner_eq, List.append_assoc, hends, Text.infix_append_cons hreturn] at hinner
  rcases hinner with hheader | hdata
  · rw [Utf8.encode_eq_flatMap] at hheader
    have htext := Utf8.infix_of_flatMap_encodeChar (fun c hc => (hb c hc).toNat_lt) hheader
    rcases infix_of_infix_headerText hb hmark htext with hmime | hid
    · exact h.mimeType hmime
    · exact h.contentId hid
  · refine h.data (Text.infix_of_infix_append ?_ hdata)
    simp [hreturn, hfeed]

/-- No line of a part that holds a written value starts with a hyphen. -/
theorem not_infix_inner_root {envelope : Bytes} (hshows : ∀ b ∈ envelope, Json.Shows b)
    (hfirst : envelope.head? ≠ some 0x2D) : ¬separator boundary <:+: inner (root envelope) := by
  intro hoccurs
  have hstart : [0x0A, 0x2D] <:+: inner (root envelope) :=
    List.IsInfix.trans ⟨[0x0D], 0x2D :: Utf8.encode boundary, rfl⟩ hoccurs
  have hends : lineEnd ++ lineEnd ++ envelope = 0x0D :: ([0x0A] ++ 0x0D :: 0x0A :: envelope) := rfl
  have hstarts : [(0x0A : UInt8), 0x2D] = ['\n', '-'].flatMap Utf8.encodeChar := by
    have hfeed : Utf8.encodeChar '\n' = [0x0A] := Utf8.encodeChar_of_lt (by decide)
    have hhyphen : Utf8.encodeChar '-' = [0x2D] := Utf8.encodeChar_of_lt (by decide)
    simp [hfeed, hhyphen]
  rw [inner_eq, List.append_assoc, root, hends, Text.infix_append_cons (by decide),
    Text.infix_append_cons (by decide)] at hstart
  rcases hstart with hheader | hshort | henvelope
  · rw [hstarts] at hheader
    have htext : ['\n', '-'] <:+: headerText rootMimeType rootContentId :=
      Utf8.infix_of_flatMap_encodeChar (by simp) hheader
    exact absurd htext (by decide +kernel)
  · exact absurd hshort (by decide)
  · rcases List.infix_cons_iff.mp henvelope with hprefix | hlater
    · obtain ⟨-, hprefix⟩ := List.cons_prefix_cons.mp hprefix
      obtain ⟨rest, rfl⟩ := hprefix
      exact hfirst rfl
    · have hfeed := hshows 0x0A (hlater.subset List.mem_cons_self)
      exact absurd hfeed (by decide)

end Delimiters

/-! ## Parts in a row -/

theorem readParts_eq (boundary : String) (before : List Attachment) (body : Bytes) :
    readParts boundary before body =
      if hyphens.isPrefixOf body then .ok before.reverse
      else match Text.cut lineEnd body with
        | none => .error .unterminated
        | some (_, fromPart) =>
          match Text.cut (separator boundary) fromPart with
          | none => .error .unterminated
          | some (raw, rest) =>
            match readPart before.length raw with
            | .error e => .error e
            | .ok a => readParts boundary (a :: before) rest := by
  rw [readParts]
  congr 1
  split
  · next hline => rw [hline]
  · next fromPart hline =>
    rw [hline]
    dsimp only
    split
    · next hpart => simp only [separator, hpart]
    · next raw rest hpart =>
      cases hread : readPart before.length raw with
      | error e => simp only [separator, hpart, hread]
      | ok a => simp only [separator, hpart, hread]

/-- What stands between two delimiters: the rest of the line of the first one, and a part. -/
structure Section where
  padding : Bytes
  raw : Bytes

namespace Section

/-- The rest of the line is no line and does not close the body, and no delimiter starts a line in the
part. -/
structure Fits (boundary : String) (s : Section) : Prop where
  unbroken : ¬lineEnd <:+: s.padding
  opened : ¬hyphens <+: s.padding
  avoids : ¬separator boundary <:+: s.raw

/-- What stands behind a delimiter when these sections are still to come, and something behind the last
delimiter. -/
def row (boundary : String) (epilogue : Bytes) : List Section → Bytes
  | [] => hyphens ++ epilogue
  | s :: ss => s.padding ++ lineEnd ++ (s.raw ++ separator boundary ++ row boundary epilogue ss)

/-- Reads the part of each section, as if nothing stood between the parts. -/
def readAll (index : Nat) : List Section → Except MultipartError (List Attachment)
  | [] => .ok []
  | s :: ss => do
    let a ← readPart index s.raw
    let as ← readAll (index + 1) ss
    return a :: as

theorem Fits.opens {boundary : String} {s : Section} (h : Fits boundary s) (rest : Bytes) :
    ¬hyphens.isPrefixOf (s.padding ++ lineEnd ++ rest) = true := by
  rw [List.isPrefixOf_iff_prefix, List.append_assoc]
  intro hprefix
  rcases List.prefix_or_prefix_of_prefix hprefix (List.prefix_append _ _) with hlong | hshort
  · exact h.opened hlong
  · -- Fewer octets than the hyphens need go on with the end of a line.
    obtain ⟨rest', hrest'⟩ := hshort
    rw [← hrest', List.prefix_append_right_inj] at hprefix
    have hlater : ∀ b ∈ rest'.head?, b = 0x2D := by
      intro b hb
      have hmem : b ∈ hyphens := hrest' ▸ List.mem_append_right _ (List.mem_of_mem_head? hb)
      simpa [hyphens] using hmem
    cases rest' with
    | nil =>
      rw [List.append_nil] at hrest'
      exact h.opened (hrest' ▸ List.prefix_rfl)
    | cons b bs =>
      obtain ⟨hb, -⟩ := List.cons_prefix_cons.mp hprefix
      rw [hlater b rfl] at hb
      exact absurd hb (by decide)

theorem readParts_row {boundary : String} (hb : '\r' ∉ boundary.toList) {ss : List Section}
    (h : ∀ s ∈ ss, Fits boundary s) (epilogue : Bytes) (before : List Attachment) :
    readParts boundary before (row boundary epilogue ss) =
      (readAll before.length ss).map (before.reverse ++ ·) := by
  induction ss generalizing before with
  | nil =>
    have hclosed : hyphens.isPrefixOf (hyphens ++ epilogue) := by simp
    rw [row, readParts_eq, if_pos hclosed]
    simp [readAll, Except.map]
  | cons s ss ih =>
    obtain ⟨hs, hss⟩ := List.forall_mem_cons.mp h
    have hopen : ¬hyphens.isPrefixOf (row boundary epilogue (s :: ss)) = true := hs.opens _
    have hline : Text.cut lineEnd (row boundary epilogue (s :: ss)) =
        some (s.padding, s.raw ++ separator boundary ++ row boundary epilogue ss) :=
      Text.cut_of_not_infix (by decide) hs.unbroken
    have hpart := cut_separator hb hs.avoids (row boundary epilogue ss)
    rw [readParts_eq, if_neg hopen, hline]
    simp only [hpart]
    rw [readAll]
    cases readPart before.length s.raw with
    | error e => rfl
    | ok a =>
      simp only [ih hss, List.length_cons, bind, Except.bind]
      cases readAll (before.length + 1) ss with
      | error e => rfl
      | ok as => simp [Except.map, pure, Except.pure]

end Section

/-- The section of a part that is written. -/
def sectionOf (a : Attachment) : Section := ⟨[], inner a⟩

/-- What stands behind a delimiter when these attachments are still to come. -/
def behind (boundary : String) : List Attachment → Bytes
  | [] => hyphens ++ lineEnd
  | a :: as => lineEnd ++ (inner a ++ separator boundary ++ behind boundary as)

theorem body_write (boundary : String) (envelope : Bytes) (as : List Attachment) :
    (write boundary envelope as).body =
      delimiter boundary ++ behind boundary (root envelope :: as) := by
  have hrow : ∀ bs : List Attachment, bs.flatMap (part boundary) ++ delimiter boundary ++
      hyphens ++ lineEnd = delimiter boundary ++ behind boundary bs := by
    intro bs
    induction bs with
    | nil => simp [behind]
    | cons b bs ih =>
      simp only [List.append_assoc] at ih
      simp only [List.flatMap_cons, part, inner, behind, separator, List.append_assoc, ih]
  exact hrow (root envelope :: as)

theorem behind_eq (boundary : String) (as : List Attachment) :
    behind boundary as = Section.row boundary lineEnd (as.map sectionOf) := by
  induction as with
  | nil => rfl
  | cons a as ih => rw [behind, ih, List.map_cons, Section.row, sectionOf, List.nil_append]

/-- Reads the part of each attachment, as if nothing stood between the parts. -/
def readEach (index : Nat) : List Attachment → Except MultipartError (List Attachment)
  | [] => .ok []
  | a :: as => do
    let b ← readPart index (inner a)
    let bs ← readEach (index + 1) as
    return b :: bs

theorem readAll_map (index : Nat) (as : List Attachment) :
    Section.readAll index (as.map sectionOf) = readEach index as := by
  induction as generalizing index with
  | nil => rfl
  | cons a as ih => rw [List.map_cons, Section.readAll, ih, sectionOf, readEach]

theorem readParts_behind {boundary : String} (hb : ∀ c ∈ boundary.toList, IsToken c)
    {as : List Attachment} (h : ∀ a ∈ as, ¬separator boundary <:+: inner a)
    (before : List Attachment) : readParts boundary before (behind boundary as) =
      (readEach before.length as).map (before.reverse ++ ·) := by
  have hreturn : '\r' ∉ boundary.toList := fun hmem => absurd (hb _ hmem) (by decide)
  have hfits : ∀ s ∈ as.map sectionOf, Section.Fits boundary s := by
    rw [List.forall_mem_map]
    have hline : ¬lineEnd <:+: [] := by decide
    have hopen : ¬hyphens <+: [] := by decide
    exact fun a ha => ⟨hline, hopen, h a ha⟩
  rw [behind_eq, Section.readParts_row hreturn hfits, readAll_map]

theorem mark_mem_boundaryOf (u : Uuid) : '_' ∈ (boundaryOf u).toList := by
  rw [boundaryOf, String.toList_append]
  exact List.mem_append_left _ (by decide)

theorem framable_root (envelope : Bytes) : Framable (root envelope) where
  contentId := by
    have h : ¬lineBreak <:+: rootContentId.toList := by decide
    exact h
  mimeType := by
    have h : (linesOf rootMimeType.toList).tail = [] := by decide
    rw [root, h]
    simp

/-- A part that is named like the root and comes first is the root. -/
theorem takeRoot_cons {a : Attachment} (ha : a.contentId = rootContentId)
    (as : List Attachment) : takeRoot (some rootContentId) (a :: as) = .ok (a, as) := by
  simp [takeRoot, List.findIdx?_cons, ha]

/-- A framed body is read like the parts of its attachments one by one, and its root is what was put
there, if no delimiter starts a line in it. -/
theorem read_write_of_root {u : Uuid} {envelope : Bytes}
    (henvelope : ¬separator (boundaryOf u) <:+: inner (root envelope)) {as : List Attachment}
    (h : ∀ a ∈ as, Avoids (boundaryOf u) a) :
    read (write (boundaryOf u) envelope as).contentType (write (boundaryOf u) envelope as).body =
      (readEach 1 as).map (envelope, ·) := by
  have hb : ∀ c ∈ (boundaryOf u).toList, IsToken c := fun c => isToken_of_mem_boundaryOf
  have hparts : ∀ a ∈ root envelope :: as, ¬separator (boundaryOf u) <:+: inner a := by
    rw [List.forall_mem_cons]
    exact ⟨henvelope, fun a ha => not_infix_inner hb (mark_mem_boundaryOf u) (h a ha)⟩
  obtain ⟨mimeType, hroot⟩ := readPart_inner (framable_root envelope) 0
  have hstart : ((parameter? (contentType (boundaryOf u)) "start").map withoutBrackets) =
      some rootContentId := by
    rw [parameter?_start hb]
    decide
  have hcontent : (write (boundaryOf u) envelope as).contentType = contentType (boundaryOf u) := rfl
  rw [read, hcontent, parameter?_boundary hb, body_write]
  simp only [Text.cut_append_self, readParts_behind hb hparts, hstart, List.length_nil, readEach,
    hroot]
  cases readEach (0 + 1) as with
  | error e => rfl
  | ok bs =>
    simp only [bind, Except.bind, pure, Except.pure, Except.map, List.reverse_nil, List.nil_append]
    rw [takeRoot_cons rfl]
    rfl

/-- So it is with every written value for an envelope. -/
theorem read_write {u : Uuid} {envelope : Bytes} (hshows : ∀ b ∈ envelope, Json.Shows b)
    (hfirst : envelope.head? ≠ some 0x2D) {as : List Attachment}
    (h : ∀ a ∈ as, Avoids (boundaryOf u) a) :
    read (write (boundaryOf u) envelope as).contentType (write (boundaryOf u) envelope as).body =
      (readEach 1 as).map (envelope, ·) :=
  read_write_of_root (not_infix_inner_root hshows hfirst) h

end Multipart
end EbmsMessaging
