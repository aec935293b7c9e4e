import EbmsMessaging.Multipart.Reader
import EbmsMessaging.Proofs.Text.Cut
import EbmsMessaging.Proofs.Text.Utf8

/-!
# Headers of parts

The media type and the content identifier of an attachment are written into the header of its part
as they are. A line end in one of them begins another header line, which has to be one: with a colon,
and so not empty.
-/
namespace EbmsMessaging.Multipart

/-! ## Lines -/

/-- The characters that end a line. -/
def lineBreak : List Char := ['\r', '\n']

/-- The lines of a text, each without its end. -/
def linesOf (cs : List Char) : List (List Char) := lines cs.length cs

theorem cut_lineBreak {line : List Char} (h : ¬lineBreak <:+: line) (rest : List Char) :
    Text.cut lineBreak (line ++ lineBreak ++ rest) = some (line, rest) :=
  Text.cut_of_not_infix (by decide) h

/-- A text and its lines. -/
inductive Lined : List Char → List (List Char) → Prop
  | single {cs : List Char} : ¬lineBreak <:+: cs → Lined cs [cs]
  | more {line cs : List Char} {ls : List (List Char)} : ¬lineBreak <:+: line → Lined cs ls →
      Lined (line ++ lineBreak ++ cs) (line :: ls)

namespace Lined

variable {xs ys line : List Char} {ls ms : List (List Char)}

theorem ne_nil (h : Lined xs ls) : ls ≠ [] := by
  cases h with
  | single => simp
  | more => simp

/-- Whatever is left of the fuel, a text with enough of it falls into its lines. -/
theorem lines (fuel : Nat) (cs : List Char) (h : cs.length ≤ fuel) :
    Lined cs (lines fuel cs) := by
  induction fuel generalizing cs with
  | zero =>
    rw [List.length_eq_zero_iff.mp (Nat.le_zero.mp h)]
    exact single (by decide)
  | succ fuel ih =>
    unfold Multipart.lines
    cases hcut : Text.cut ['\r', '\n'] cs with
    | none => exact single (Text.cut_eq_none.mp hcut)
    | some r =>
      obtain ⟨line, rest⟩ := r
      have hline := Text.not_infix_of_cut (by simp) hcut
      have hlength := Text.length_of_cut (by simp) hcut
      have htext : cs = line ++ lineBreak ++ rest := Text.eq_of_cut hcut
      rw [htext]
      exact more hline (ih rest (by omega))

theorem linesOf (cs : List Char) : Lined cs (linesOf cs) := lines cs.length cs (Nat.le_refl _)

theorem append (hx : Lined xs ls) (hy : Lined ys ms) :
    Lined (xs ++ lineBreak ++ ys) (ls ++ ms) := by
  induction hx with
  | single h => exact more h hy
  | more h _ ih =>
    rw [List.append_assoc, List.append_assoc, ← List.append_assoc _ lineBreak ys]
    exact more h ih

/-- What stands before a text, without an end of line, stands before its first line. -/
theorem behind {front : List Char} (hfront : ∀ c ∈ front, c ∉ lineBreak)
    (h : Lined xs (line :: ls)) : Lined (front ++ xs) ((front ++ line) :: ls) := by
  cases h with
  | single h => exact single fun hoccurs => h (Text.infix_of_infix_append hfront hoccurs)
  | more h hrest =>
    rw [← List.append_assoc, ← List.append_assoc]
    exact more (fun hoccurs => h (Text.infix_of_infix_append hfront hoccurs)) hrest

/-- The lines of a text are determined by it. -/
theorem unique (hl : Lined xs ls) (hm : Lined xs ms) : ls = ms := by
  induction hl generalizing ms with
  | @single cs h =>
    cases hm with
    | single => rfl
    | more => exact absurd ⟨_, _, rfl⟩ h
  | @more line cs ls h _ ih =>
    have hcut := cut_lineBreak h cs
    generalize htext : line ++ lineBreak ++ cs = text at hm hcut
    cases hm with
    | single h' => exact absurd (htext ▸ ⟨line, cs, rfl⟩) h'
    | more h' hrest =>
      rw [cut_lineBreak h'] at hcut
      obtain ⟨rfl, rfl⟩ := Prod.mk.inj (Option.some.inj hcut)
      rw [ih hrest]

theorem eq_linesOf (h : Lined xs ls) : Multipart.linesOf xs = ls := unique (linesOf xs) h

theorem not_broken (h : Lined xs ls) {line : List Char} (hline : line ∈ ls) :
    ¬lineBreak <:+: line := by
  induction h with
  | single h =>
    rw [List.mem_singleton] at hline
    exact hline ▸ h
  | more h _ ih =>
    rcases List.mem_cons.mp hline with rfl | hline
    · exact h
    · exact ih hline

/-- An empty line stands between two ends of lines, if those around the text count. -/
theorem infix_of_nil_mem (h : Lined xs ls) (hnil : [] ∈ ls) :
    lineBreak ++ lineBreak <:+: lineBreak ++ xs ++ lineBreak := by
  induction h with
  | single h =>
    rw [List.mem_singleton] at hnil
    rw [← hnil]
    exact List.infix_rfl
  | @more line cs ls h _ ih =>
    rcases List.mem_cons.mp hnil with rfl | hnil
    · exact ⟨[], cs ++ lineBreak, by simp⟩
    · exact (ih hnil).trans ⟨lineBreak ++ line, [], by simp⟩

/-- Behind an end of line that follows another one the text has an empty line. -/
theorem nil_mem_of_breaks (h : Lined xs ls) (hoccurs : lineBreak ++ lineBreak <:+: xs) :
    [] ∈ ls.tail := by
  obtain ⟨u, v, rfl⟩ := hoccurs
  have hu := linesOf u
  have hempty : Lined [] [[]] := single (by decide)
  have hv := append hempty (linesOf v)
  have hall := unique h (by simpa using append hu hv)
  rw [hall, List.tail_append_of_ne_nil hu.ne_nil]
  simp

end Lined

/-! ## Reading header lines -/

theorem infix_stripChars (p : Char → Bool) (cs : List Char) : Text.stripChars p cs <:+: cs := by
  have hfront : cs.dropWhile p <:+: cs := (List.dropWhile_suffix p).isInfix
  have hback : Text.stripChars p cs <:+: cs.dropWhile p := by
    rw [Text.stripChars, ← List.reverse_infix, List.reverse_reverse]
    exact (List.dropWhile_suffix p).isInfix
  exact hback.trans hfront

theorem infix_withoutBrackets (s : String) : (withoutBrackets s).toList <:+: s.toList := by
  unfold withoutBrackets
  split
  · next cs hs =>
    split
    · rw [hs, String.toList_ofList]
      exact (List.dropLast_prefix cs).isInfix.trans (List.suffix_cons _ _).isInfix
    · exact List.infix_rfl
  · exact List.infix_rfl

namespace PartHeader

theorem exists_read_iff (h : PartHeader) (line : List Char) :
    (∃ h', h.read line = .ok h') ↔ ':' ∈ line := by
  rw [← List.singleton_infix_iff, read]
  cases hcut : Text.cut [':'] line with
  | none => simp [Text.cut_eq_none.mp hcut]
  | some r =>
    obtain ⟨name, value⟩ := r
    have hcolon : [':'] <:+: line := ⟨name, value, (Text.eq_of_cut hcut).symm⟩
    refine iff_of_true ?_ hcolon
    dsimp only
    split
    · exact ⟨_, rfl⟩
    · split
      · exact ⟨_, rfl⟩
      · exact ⟨_, rfl⟩

/-- Lines are read exactly if each of them has a colon. -/
theorem exists_foldlM_read_iff (h : PartHeader) (ls : List (List Char)) :
    (∃ h', ls.foldlM read h = .ok h') ↔ ∀ line ∈ ls, ':' ∈ line := by
  induction ls generalizing h with
  | nil => simp [pure, Except.pure]
  | cons line ls ih =>
    rw [List.foldlM_cons, List.forall_mem_cons, ← exists_read_iff h line]
    cases hread : h.read line with
    | error e => simp [bind, Except.bind]
    | ok h₁ =>
      simp only [bind, Except.bind]
      rw [ih h₁]
      simp

/-- What a line that is read can say: a content identifier or a media type, each a part of it, or
nothing. -/
theorem read_cases {h h' : PartHeader} {line : List Char} (hread : h.read line = .ok h') :
    ∃ value, value <:+: line ∧
      (h' = { h with contentId := some (withoutBrackets (String.ofList (trimmed value))) } ∨
        h' = { h with mimeType := some (String.ofList (trimmed value)) } ∨ h' = h) := by
  unfold read at hread
  cases hcut : Text.cut [':'] line with
  | none => simp [hcut] at hread
  | some r =>
    obtain ⟨name, value⟩ := r
    have hvalue : value <:+: line := by
      rw [Text.eq_of_cut hcut]
      exact (List.suffix_append _ _).isInfix
    simp only [hcut] at hread
    refine ⟨value, hvalue, ?_⟩
    split at hread
    · exact .inl (Except.ok.inj hread).symm
    · split at hread
      · exact .inr (.inl (Except.ok.inj hread).symm)
      · exact .inr (.inr (Except.ok.inj hread).symm)

/-- A content identifier that is read is part of the line that it is read from. -/
theorem contentId_of_read {h h' : PartHeader} {line : List Char} (hread : h.read line = .ok h')
    {contentId : String} (hid : h'.contentId = some contentId) :
    h.contentId = some contentId ∨ contentId.toList <:+: line := by
  obtain ⟨value, hvalue, rfl | rfl | rfl⟩ := read_cases hread
  · obtain rfl := Option.some.inj hid
    refine .inr (((infix_withoutBrackets _).trans ?_).trans hvalue)
    rw [String.toList_ofList]
    exact infix_stripChars _ _
  · exact .inl hid
  · exact .inl hid

/-- What a header says at its end was said before it, or by one of its lines. -/
theorem said_of_foldlM_read {said : PartHeader → Option String} {P : List Char → String → Prop}
    (hone : ∀ {h h' : PartHeader} {line : List Char}, h.read line = .ok h' →
      ∀ {value : String}, said h' = some value → said h = some value ∨ P line value)
    {h h' : PartHeader} {ls : List (List Char)} (hread : ls.foldlM read h = .ok h')
    {value : String} (hsaid : said h' = some value) :
    said h = some value ∨ ∃ line ∈ ls, P line value := by
  induction ls generalizing h with
  | nil =>
    obtain rfl := Except.ok.inj hread
    exact .inl hsaid
  | cons line ls ih =>
    rw [List.foldlM_cons] at hread
    cases hfirst : h.read line with
    | error e => simp [hfirst, bind, Except.bind] at hread
    | ok h₁ =>
      simp only [hfirst, bind, Except.bind] at hread
      rcases ih hread with hearly | ⟨line', hline', hlate⟩
      · rcases hone hfirst hearly with hearly | hhere
        · exact .inl hearly
        · exact .inr ⟨line, List.mem_cons_self, hhere⟩
      · exact .inr ⟨line', List.mem_cons_of_mem _ hline', hlate⟩

theorem contentId_of_foldlM_read {h h' : PartHeader} {ls : List (List Char)}
    (hread : ls.foldlM read h = .ok h') {contentId : String}
    (hid : h'.contentId = some contentId) :
    h.contentId = some contentId ∨ ∃ line ∈ ls, contentId.toList <:+: line :=
  said_of_foldlM_read contentId_of_read hread hid

theorem ofText_eq (cs : List Char) : ofText (String.ofList cs) =
    ((linesOf cs).filter fun line => !line.isEmpty).foldlM read ⟨none, none⟩ := by
  rw [ofText, linesOf, String.toList_ofList, String.length_ofList]

/-- The last line of a header names the content identifier, whatever it holds. -/
theorem read_contentId (h : PartHeader) (contentId : String) :
    h.read ("Content-ID: <".toList ++ contentId.toList ++ ">".toList) =
      .ok { h with contentId := some contentId } := by
  have hcolon : ¬[':'] <:+: "Content-ID".toList := by decide
  have hcut : Text.cut [':'] ("Content-ID: <".toList ++ contentId.toList ++ ">".toList) =
      some ("Content-ID".toList, ' ' :: '<' :: (contentId.toList ++ ['>'])) :=
    Text.cut_of_not_infix (by simp) hcolon
  have hname : isNamed "content-id" "Content-ID".toList = true := by decide
  have hvalue : trimmed (' ' :: '<' :: (contentId.toList ++ ['>'])) =
      '<' :: (contentId.toList ++ ['>']) := by
    have hblank : Text.isBlank ' ' = true := rfl
    have hopen : Text.isBlank '<' = false := rfl
    have hclose : Text.isBlank '>' = false := rfl
    simp [trimmed, Text.stripChars, hblank, hopen, hclose]
  have hid : withoutBrackets (String.ofList ('<' :: (contentId.toList ++ ['>']))) = contentId := by
    simp [withoutBrackets]
  rw [read, hcut]
  simp only [hname, if_true, hvalue, hid]

end PartHeader

/-! ## The header that is written -/

/-- The text of a header, from its first line to the end of its last. -/
def headerText (mimeType contentId : String) : List Char :=
  "Content-Type: ".toList ++ mimeType.toList ++ lineBreak ++
    ("Content-Transfer-Encoding: binary".toList ++ lineBreak ++
      ("Content-ID: <".toList ++ contentId.toList ++ ">".toList))

theorem flatMap_lineBreak : lineBreak.flatMap Utf8.encodeChar = lineEnd := by
  have hreturn : Utf8.encodeChar '\r' = [0x0D] := Utf8.encodeChar_of_lt (by decide)
  have hfeed : Utf8.encodeChar '\n' = [0x0A] := Utf8.encodeChar_of_lt (by decide)
  simp [lineBreak, lineEnd, hreturn, hfeed]

theorem header_eq (mimeType contentId : String) : header mimeType contentId =
    (headerText mimeType contentId).flatMap Utf8.encodeChar ++ (lineEnd ++ lineEnd) := by
  unfold header headerText
  -- The words in the header do not matter here.
  generalize "Content-Type: " = front, "Content-Transfer-Encoding: binary" = encoding,
    "Content-ID: <" = opening, ">" = closing
  simp only [Utf8.encode_eq_flatMap, String.toList_append, List.flatMap_append,
    flatMap_lineBreak, List.append_assoc]

theorem exists_headerText_eq (mimeType contentId : String) :
    ∃ front, headerText mimeType contentId = front ++ ['>'] := by
  unfold headerText
  generalize "Content-Type: " = front, "Content-Transfer-Encoding: binary" = encoding,
    "Content-ID: <" = opening
  exact ⟨front.toList ++ mimeType.toList ++ lineBreak ++
    (encoding.toList ++ lineBreak ++ (opening.toList ++ contentId.toList)), by simp⟩

/-- What stands between the delimiters of a part. -/
def inner (a : Attachment) : Bytes := header a.mimeType a.contentId ++ a.data

theorem inner_eq (a : Attachment) : inner a =
    (headerText a.mimeType a.contentId).flatMap Utf8.encodeChar ++ (lineEnd ++ lineEnd) ++
      a.data := by
  rw [inner, header_eq]

theorem splitPart_inner (a : Attachment) :
    splitPart (inner a) = Text.cut (lineEnd ++ lineEnd) (inner a) := by
  have hfirst : Utf8.encodeChar 'C' = [0x43] := Utf8.encodeChar_of_lt (by decide)
  have hstart : lineEnd.isPrefixOf (inner a) = false := by
    have htext : headerText a.mimeType a.contentId =
        'C' :: (headerText a.mimeType a.contentId).tail := rfl
    rw [inner_eq, htext, List.flatMap_cons, hfirst]
    rfl
  rw [splitPart, hstart]
  rfl

theorem lined_headerText {mimeType contentId : String} {first : List Char}
    {more last : List (List Char)} (hmime : Lined mimeType.toList (first :: more))
    (hlast : Lined ("Content-ID: <".toList ++ contentId.toList ++ ">".toList) last) :
    Lined (headerText mimeType contentId)
      (("Content-Type: ".toList ++ first) :: (more ++
        ("Content-Transfer-Encoding: binary".toList :: last))) :=
  (hmime.behind (by simp [lineBreak])).append (.more (by decide) hlast)

theorem lined_contentId {contentId : String} (h : ¬lineBreak <:+: contentId.toList) :
    Lined ("Content-ID: <".toList ++ contentId.toList ++ ">".toList)
      ["Content-ID: <".toList ++ contentId.toList ++ ">".toList] := by
  refine .single fun hoccurs => h ?_
  have hclose : ">".toList = ['>'] := rfl
  rw [hclose, Text.infix_append_cons (by decide), List.infix_nil] at hoccurs
  exact Text.infix_of_infix_append (by simp [lineBreak]) (hoccurs.resolve_right (by decide))

/-- What can be written into a header as it is: the content identifier on one line, and a media type
each of whose further lines passes for a header line. -/
structure Framable (a : Attachment) : Prop where
  contentId : ¬lineBreak <:+: a.contentId.toList
  mimeType : ∀ line ∈ (linesOf a.mimeType.toList).tail, ':' ∈ line

/-- The line of the content identifier comes last, and every line has a colon. -/
theorem exists_linesOf_headerText {a : Attachment} (h : Framable a) :
    ∃ ls, linesOf (headerText a.mimeType a.contentId) =
        ls ++ ["Content-ID: <".toList ++ a.contentId.toList ++ ">".toList] ∧
      ∀ line ∈ linesOf (headerText a.mimeType a.contentId), ':' ∈ line := by
  obtain ⟨first, more, hlines⟩ :=
    List.exists_cons_of_ne_nil (Lined.linesOf a.mimeType.toList).ne_nil
  have hmore := h.mimeType
  rw [hlines, List.tail_cons] at hmore
  have hlined := lined_headerText (hlines ▸ Lined.linesOf a.mimeType.toList)
    (lined_contentId h.contentId)
  rw [hlined.eq_linesOf]
  refine ⟨("Content-Type: ".toList ++ first) :: (more ++
    ["Content-Transfer-Encoding: binary".toList]), by simp, fun line hline => ?_⟩
  rw [List.mem_cons, List.mem_append, List.mem_cons, List.mem_singleton] at hline
  rcases hline with rfl | hline | rfl | rfl
  · exact List.mem_append_left _ (by decide)
  · exact hmore line hline
  · decide
  · exact List.mem_append_left _ (List.mem_append_left _ (by decide))

theorem exists_ofText_headerText {a : Attachment} (h : Framable a) :
    ∃ mimeType, PartHeader.ofText (String.ofList (headerText a.mimeType a.contentId)) =
      .ok ⟨some a.contentId, mimeType⟩ := by
  obtain ⟨ls, hlines, hcolon⟩ := exists_linesOf_headerText h
  have hfilter : (linesOf (headerText a.mimeType a.contentId)).filter (fun line => !line.isEmpty) =
      linesOf (headerText a.mimeType a.contentId) := by
    rw [List.filter_eq_self]
    intro line hline
    have := List.ne_nil_of_mem (hcolon line hline)
    simpa using this
  have hearlier : ∀ line ∈ ls, ':' ∈ line := fun line hline =>
    hcolon line (hlines ▸ List.mem_append_left _ hline)
  obtain ⟨header, hread⟩ := (PartHeader.exists_foldlM_read_iff ⟨none, none⟩ ls).mpr hearlier
  refine ⟨header.mimeType, ?_⟩
  rw [PartHeader.ofText_eq, hfilter, hlines, List.foldlM_append, hread]
  simp only [bind, Except.bind, List.foldlM_cons, PartHeader.read_contentId]
  rfl

theorem lineEnds_eq : lineEnd ++ lineEnd = (lineBreak ++ lineBreak).flatMap Utf8.encodeChar := by
  rw [List.flatMap_append, flatMap_lineBreak]

/-- The header ends where it was meant to. -/
theorem cut_inner {a : Attachment} (h : Framable a) :
    Text.cut (lineEnd ++ lineEnd) (inner a) =
      some ((headerText a.mimeType a.contentId).flatMap Utf8.encodeChar, a.data) := by
  have hnone : ¬lineEnd ++ lineEnd <:+:
      (headerText a.mimeType a.contentId).flatMap Utf8.encodeChar := by
    intro hoccurs
    rw [lineEnds_eq] at hoccurs
    have hoccurs := Utf8.infix_of_flatMap_encodeChar (by simp [lineBreak]) hoccurs
    have hnil := List.mem_of_mem_tail ((Lined.linesOf _).nil_mem_of_breaks hoccurs)
    obtain ⟨-, -, hcolon⟩ := exists_linesOf_headerText h
    exact absurd (hcolon [] hnil) List.not_mem_nil
  -- The last character of the header ends no line.
  have hclose : Utf8.encodeChar '>' = [0x3E] := Utf8.encodeChar_of_lt (by decide)
  obtain ⟨front, hfront⟩ := exists_headerText_eq a.mimeType a.contentId
  rw [hfront, List.flatMap_append, List.flatMap_singleton, hclose] at hnone
  rw [inner_eq, hfront, List.flatMap_append, List.flatMap_singleton, hclose]
  exact Text.cut_of_getLast (by decide) hnone

/-- A part is read as its header is. -/
theorem readPart_of_header {a : Attachment} (h : Framable a) {mimeType : Option String}
    (hheader : PartHeader.ofText (String.ofList (headerText a.mimeType a.contentId)) =
      .ok ⟨some a.contentId, mimeType⟩) (index : Nat) :
    readPart index (inner a) =
      .ok ⟨a.contentId, mimeType.getD "application/octet-stream", a.data⟩ := by
  have htext : Utf8.decode? ((headerText a.mimeType a.contentId).flatMap Utf8.encodeChar) =
      some (String.ofList (headerText a.mimeType a.contentId)) := by
    have := Utf8.decode?_flatMap_encodeChar (String.ofList (headerText a.mimeType a.contentId))
    rwa [String.toList_ofList] at this
  simp only [readPart, splitPart_inner, cut_inner h, htext, hheader]

/-- A part is read as it was written, its media type apart. -/
theorem readPart_inner {a : Attachment} (h : Framable a) (index : Nat) :
    ∃ mimeType, readPart index (inner a) = .ok ⟨a.contentId, mimeType, a.data⟩ := by
  obtain ⟨mimeType, hheader⟩ := exists_ofText_headerText h
  exact ⟨mimeType.getD "application/octet-stream", readPart_of_header h hheader index⟩

/-- What has to be there for a part to be read. -/
theorem of_readPart {index : Nat} {raw : Bytes} {b : Attachment} (h : readPart index raw = .ok b) :
    ∃ header text read, splitPart raw = some (header, b.data) ∧
      Utf8.decode? header = some text ∧ PartHeader.ofText text = .ok read ∧
      read.contentId = some b.contentId ∧
      b.mimeType = read.mimeType.getD "application/octet-stream" := by
  unfold readPart at h
  cases hsplit : splitPart raw with
  | none => simp [hsplit] at h
  | some r =>
    simp only [hsplit] at h
    cases hdecode : Utf8.decode? r.1 with
    | none => simp [hdecode] at h
    | some text =>
      simp only [hdecode] at h
      cases hread : PartHeader.ofText text with
      | error fault => simp [hread] at h
      | ok read =>
        simp only [hread] at h
        cases hid : read.contentId with
        | none => simp [hid] at h
        | some contentId =>
          simp only [hid, Except.ok.injEq] at h
          subst h
          exact ⟨_, _, _, rfl, hdecode, hread, hid, rfl⟩

/-- No content identifier that is read goes on behind a line. -/
theorem contentId_of_readPart {index : Nat} {raw : Bytes} {b : Attachment}
    (h : readPart index raw = .ok b) : ¬lineBreak <:+: b.contentId.toList := by
  obtain ⟨header, text, read, -, -, hread, hid, -⟩ := of_readPart h
  rw [← String.ofList_toList (s := text), PartHeader.ofText_eq] at hread
  rcases PartHeader.contentId_of_foldlM_read hread hid with hid | ⟨line, hline, hoccurs⟩
  · simp at hid
  · intro hbreak
    exact (Lined.linesOf text.toList).not_broken (List.mem_of_mem_filter hline)
      (hbreak.trans hoccurs)

/-- The end of what was written is what was to be carried, and no content identifier that is read
goes on behind a line. -/
theorem of_readPart_inner {a b : Attachment} {index : Nat} (h : readPart index (inner a) = .ok b) :
    a.data <:+ b.data ∧ ¬lineBreak <:+: b.contentId.toList := by
  obtain ⟨header, text, read, hsplit, -⟩ := of_readPart h
  rw [splitPart_inner, inner_eq] at hsplit
  exact ⟨Text.suffix_of_cut hsplit, contentId_of_readPart h⟩

theorem mem_linesOf_headerText {mimeType : String} (contentId : String) {line : List Char}
    (h : line ∈ (linesOf mimeType.toList).tail) :
    line ∈ linesOf (headerText mimeType contentId) := by
  obtain ⟨first, more, hlines⟩ :=
    List.exists_cons_of_ne_nil (Lined.linesOf mimeType.toList).ne_nil
  rw [hlines, List.tail_cons] at h
  have hlined := lined_headerText (hlines ▸ Lined.linesOf mimeType.toList)
    (Lined.linesOf ("Content-ID: <".toList ++ contentId.toList ++ ">".toList))
  rw [hlined.eq_linesOf]
  exact List.mem_cons_of_mem _ (List.mem_append_left _ h)

/-- An empty line in the media type looks like the end of the header. -/
theorem infix_headerText {mimeType : String} (contentId : String)
    (h : [] ∈ (linesOf mimeType.toList).tail) :
    lineBreak ++ lineBreak <:+: headerText mimeType contentId := by
  have hlined := Lined.linesOf mimeType.toList
  revert h
  generalize htext : mimeType.toList = text at hlined
  generalize linesOf text = ls at hlined
  cases hlined with
  | single => simp
  | @more line cs ls _ hmore =>
    intro h
    refine (hmore.infix_of_nil_mem h).trans ?_
    unfold headerText
    rw [htext]
    generalize "Content-Type: " = front, "Content-Transfer-Encoding: binary" = encoding,
      "Content-ID: <" = opening, ">" = closing
    exact ⟨front.toList ++ line, encoding.toList ++ lineBreak ++
      (opening.toList ++ contentId.toList ++ closing.toList), by simp only [List.append_assoc]⟩

/-- When nothing but the data was taken for the data, the header was what was written. -/
theorem colon_mem_of_readPart_inner {a b : Attachment} {index : Nat}
    (h : readPart index (inner a) = .ok b) (hdata : a.data = b.data) {line : List Char}
    (hline : line ∈ (linesOf a.mimeType.toList).tail) : ':' ∈ line := by
  obtain ⟨header, text, read, hsplit, hdecode, hread, -⟩ := of_readPart h
  rw [splitPart_inner] at hsplit
  have hheader : header = (headerText a.mimeType a.contentId).flatMap Utf8.encodeChar := by
    have := Text.eq_of_cut hsplit
    rw [inner_eq, hdata] at this
    exact (List.append_cancel_right (List.append_cancel_right this)).symm
  have htext : String.ofList (headerText a.mimeType a.contentId) = text := by
    have := Utf8.decode?_flatMap_encodeChar (String.ofList (headerText a.mimeType a.contentId))
    rw [String.toList_ofList, ← hheader, hdecode] at this
    exact (Option.some.inj this).symm
  by_cases hempty : line = []
  · -- The data would have begun behind the empty line.
    rw [hempty] at hline
    obtain ⟨u, v, huv⟩ := infix_headerText a.contentId hline
    have hinner : inner a = u.flatMap Utf8.encodeChar ++ (lineEnd ++ lineEnd) ++
        (v.flatMap Utf8.encodeChar ++ (lineEnd ++ lineEnd) ++ a.data) := by
      rw [inner_eq, ← huv, List.flatMap_append, List.flatMap_append, ← lineEnds_eq]
      simp only [List.append_assoc]
    rw [hinner] at hsplit
    have hlength := (Text.suffix_of_cut hsplit).length_le
    have hends : 0 < (lineEnd ++ lineEnd).length := by decide
    rw [← hdata] at hlength
    simp only [List.length_append] at hlength hends
    omega
  · rw [← htext, PartHeader.ofText_eq] at hread
    refine (PartHeader.exists_foldlM_read_iff _ _).mp ⟨read, hread⟩ line ?_
    exact List.mem_filter.mpr ⟨mem_linesOf_headerText a.contentId hline, by simpa using hempty⟩

end EbmsMessaging.Multipart
