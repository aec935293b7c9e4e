import EbmsMessaging.Multipart.Indexed
import EbmsMessaging.Proofs.Multipart.Framing

/-!
# Reading never reaches outside of a body

Whatever the content type and the body are, the reader that goes by indices only halts with an answer,
and it answers as the other reader does. A search finds what cutting finds, at an index from which the
whole pattern is still inside; so each round begins and ends inside of the body, six octets or more
further on.
-/
namespace EbmsMessaging.Multipart.Indexed

/-! ## Slices and searches -/

theorem slice_of_le {bs : Bytes} {start stop : Nat} (hstart : start ≤ stop)
    (hstop : stop ≤ bs.length) : slice bs start stop = .ok ((bs.take stop).drop start) := if_pos ⟨hstart, hstop⟩

theorem slice_length {bs : Bytes} {start : Nat} (h : start ≤ bs.length) :
    slice bs start bs.length = .ok (bs.drop start) := by
  rw [slice_of_le h (Nat.le_refl _), List.take_length]

/-- The first stretch that is the pattern begins where the sequence is cut. -/
theorem findIdx?_stretches {pattern : Bytes} (hpattern : pattern ≠ []) (bs : Bytes) :
    (stretches pattern.length bs).findIdx? (fun w => w = pattern) =
      (Text.cut pattern bs).map fun r => r.1.length := by
  induction bs with
  | nil =>
    have hnone : Text.cut pattern [] = none := by
      rw [Text.cut_eq_none, List.infix_nil]
      exact hpattern
    rw [hnone]
    rfl
  | cons b bs ih =>
    rw [Text.cut_cons, stretches]
    by_cases hlength : pattern.length ≤ (b :: bs).length
    · rw [if_pos hlength, List.findIdx?_cons, ih]
      by_cases hprefix : pattern <+: b :: bs
      · have htake : (b :: bs).take pattern.length = pattern :=
          (List.prefix_iff_eq_take.mp hprefix).symm
        simp [htake, List.isPrefixOf_iff_prefix.mpr hprefix]
      · have htake : (b :: bs).take pattern.length ≠ pattern := fun h =>
          hprefix (List.prefix_iff_eq_take.mpr h.symm)
        have hno : ¬pattern.isPrefixOf (b :: bs) = true := by
          rwa [List.isPrefixOf_iff_prefix]
        simp [htake, hno, Function.comp_def]
    · have hshort : ¬pattern <:+: b :: bs := fun h => hlength h.length_le
      rw [if_neg hlength]
      have hnone := Text.cut_eq_none.mpr hshort
      rw [Text.cut_cons] at hnone
      rw [hnone]
      rfl

theorem find_eq {bs pattern : Bytes} (hpattern : pattern ≠ []) {start : Nat} (h : start ≤ bs.length) :
    find bs pattern start =
      .ok ((Text.cut pattern (bs.drop start)).map fun r => start + r.1.length) := by
  have hinside : ¬bs.length < start := Nat.not_lt.mpr h
  have hsize : pattern.length ≠ 0 := fun hnil => hpattern (List.length_eq_zero_iff.mp hnil)
  rw [find, if_neg hinside, slice_length h]
  simp only [bind, Except.bind, windows, if_neg hsize, findIdx?_stretches hpattern, Option.map_map,
    Function.comp_def, Nat.add_comm, pure, Except.pure]

theorem find_zero {pattern : Bytes} (hpattern : pattern ≠ []) (bs : Bytes) :
    find bs pattern 0 = .ok ((Text.cut pattern bs).map fun r => r.1.length) := by
  simpa using find_eq hpattern (Nat.zero_le bs.length)

/-- What a search that succeeds tells about the indices. -/
structure Found (bs pattern : Bytes) (start i : Nat) (before after : Bytes) : Prop where
  start_le : start ≤ i
  le_length : i + pattern.length ≤ bs.length
  before : slice bs start i = .ok before
  after : bs.drop (i + pattern.length) = after

theorem found_of_cut {bs pattern before after : Bytes} {start : Nat} (h : start ≤ bs.length)
    (hcut : Text.cut pattern (bs.drop start) = some (before, after)) :
    Found bs pattern start (start + before.length) before after := by
  have hdrop := Text.eq_of_cut hcut
  have hlength := congrArg List.length hdrop
  simp only [List.length_drop, List.length_append] at hlength
  refine ⟨Nat.le_add_right _ _, by omega, ?_, ?_⟩
  · rw [slice_of_le (Nat.le_add_right _ _) (by omega), List.drop_take, hdrop]
    simp
  · rw [Nat.add_assoc, ← List.drop_drop, hdrop, ← List.length_append, List.drop_left]

theorem found_of_cut_zero {bs pattern before after : Bytes}
    (hcut : Text.cut pattern bs = some (before, after)) :
    Found bs pattern 0 before.length before after := by
  simpa using found_of_cut (Nat.zero_le bs.length) (hcut : Text.cut pattern (bs.drop 0) = _)

/-! ## What is looked for -/

theorem lineEnd_ne_nil : lineEnd ≠ [] := by decide

theorem lineEnds_ne_nil : lineEnd ++ lineEnd ≠ [] := by decide

/-- A delimiter has its hyphens, even under an empty boundary. -/
theorem length_delimiter (boundary : String) : 2 ≤ (delimiter boundary).length := by
  simp [delimiter, hyphens]

theorem delimiter_ne_nil (boundary : String) : delimiter boundary ≠ [] := by
  simp [delimiter, hyphens]

theorem length_separator (boundary : String) : 4 ≤ (separator boundary).length := by
  simp only [separator_eq, List.length_cons]
  omega

theorem separator_ne_nil (boundary : String) : separator boundary ≠ [] := by
  simp [separator_eq]

/-! ## Parts -/

/-- An answer of the other reader. -/
def answered {α : Type} (x : Except MultipartError α) : Except Halt α := x.mapError .error

theorem headerEnd_eq (raw : Bytes) :
    (splitPart raw = none ∧ headerEnd raw = .ok none) ∨
      ∃ header data i j, splitPart raw = some (header, data) ∧ headerEnd raw = .ok (some (i, j)) ∧
        slice raw 0 i = .ok header ∧ slice raw j raw.length = .ok data := by
  unfold splitPart headerEnd
  by_cases hprefix : lineEnd.isPrefixOf raw = true
  · have hlength : lineEnd.length ≤ raw.length := (List.isPrefixOf_iff_prefix.mp hprefix).length_le
    rw [if_pos hprefix, if_pos hprefix]
    exact .inr ⟨_, _, _, _, rfl, rfl, slice_of_le (Nat.le_refl 0) (Nat.zero_le _),
      slice_length hlength⟩
  · rw [if_neg hprefix, if_neg hprefix, find_zero lineEnds_ne_nil]
    cases hcut : Text.cut (lineEnd ++ lineEnd) raw with
    | none => exact .inl ⟨rfl, rfl⟩
    | some r =>
      obtain ⟨header, data⟩ := r
      have hfound := found_of_cut_zero hcut
      refine .inr ⟨_, _, _, _, rfl, rfl, hfound.before, ?_⟩
      rw [slice_length hfound.le_length, hfound.after]

theorem readPart_eq (index : Nat) (raw : Bytes) :
    readPart index raw = answered (Multipart.readPart index raw) := by
  unfold readPart Multipart.readPart
  rcases headerEnd_eq raw with ⟨hsplit, hend⟩ | ⟨header, data, i, j, hsplit, hend, hheader, hdata⟩
  · rw [hsplit, hend]
    rfl
  · rw [hsplit, hend]
    simp only [bind, Except.bind, demand, hheader]
    cases Utf8.decode? header with
    | none => rfl
    | some text =>
      dsimp only
      cases PartHeader.ofText text with
      | error fault => rfl
      | ok h =>
        simp only [Except.mapError]
        cases h.contentId with
        | none => rfl
        | some contentId =>
          simp only [hdata]
          rfl

/-! ## Rounds -/

variable {boundary : String} {body : Bytes} {cursor : Nat} {parts : List Attachment}

theorem round_closed (boundary : String) (parts : List Attachment) (h : cursor ≤ body.length)
    (hclosed : hyphens.isPrefixOf (body.drop cursor) = true) :
    round boundary body cursor parts = .ok none := by
  simp only [round, slice_length h, bind, Except.bind, if_pos hclosed, pure, Except.pure]

/-- A round that begins inside of the body does what cutting does, and ends where the rest begins. -/
theorem round_eq (boundary : String) (parts : List Attachment) (h : cursor ≤ body.length)
    (hopen : ¬hyphens.isPrefixOf (body.drop cursor) = true) :
    round boundary body cursor parts =
      match Text.cut lineEnd (body.drop cursor) with
      | none => .error (.error .unterminated)
      | some (padding, fromPart) =>
        match Text.cut (separator boundary) fromPart with
        | none => .error (.error .unterminated)
        | some (raw, _) =>
          match Multipart.readPart parts.length raw with
          | .error e => .error (.error e)
          | .ok a => .ok (some (cursor + padding.length + lineEnd.length + raw.length +
              (separator boundary).length, parts ++ [a])) := by
  have hseparator : lineEnd ++ delimiter boundary = separator boundary := rfl
  simp only [round, slice_length h, bind, Except.bind, if_neg hopen, find_eq lineEnd_ne_nil h]
  cases hcut : Text.cut lineEnd (body.drop cursor) with
  | none => rfl
  | some r =>
    obtain ⟨padding, fromPart⟩ := r
    have hpadding := found_of_cut h hcut
    have hpart := find_eq (separator_ne_nil boundary) hpadding.le_length
    rw [hpadding.after] at hpart
    simp only [Option.map_some, demand, hseparator, hpart]
    cases hcut' : Text.cut (separator boundary) fromPart with
    | none => rfl
    | some r =>
      obtain ⟨raw, rest⟩ := r
      have hraw := found_of_cut hpadding.le_length (hpadding.after ▸ hcut')
      simp only [Option.map_some, hraw.before, readPart_eq]
      cases Multipart.readPart parts.length raw <;> rfl

/-- What a round does that begins inside of the body: it ends the reading, or answers, or goes on with
one more part, further on and still inside. What is left to be read is what was left. -/
inductive Goes (boundary : String) (body : Bytes) (cursor : Nat) (parts : List Attachment) : Prop
  | closes : round boundary body cursor parts = .ok none →
      readParts boundary parts.reverse (body.drop cursor) = .ok parts →
      Goes boundary body cursor parts
  | answers (e : MultipartError) : round boundary body cursor parts = .error (.error e) →
      readParts boundary parts.reverse (body.drop cursor) = .error e →
      Goes boundary body cursor parts
  | continues (next : Nat) (a : Attachment) :
      round boundary body cursor parts = .ok (some (next, parts ++ [a])) →
      cursor + 6 ≤ next → next ≤ body.length →
      readParts boundary parts.reverse (body.drop cursor) =
        readParts boundary (a :: parts.reverse) (body.drop next) →
      Goes boundary body cursor parts

theorem goes (boundary : String) (parts : List Attachment) (h : cursor ≤ body.length) :
    Goes boundary body cursor parts := by
  by_cases hclosed : hyphens.isPrefixOf (body.drop cursor) = true
  · apply Goes.closes (round_closed boundary parts h hclosed)
    rw [readParts_eq, if_pos hclosed, List.reverse_reverse]
  have hround := round_eq boundary parts h hclosed
  have hread := readParts_eq boundary parts.reverse (body.drop cursor)
  rw [if_neg hclosed, List.length_reverse] at hread
  cases hcut : Text.cut lineEnd (body.drop cursor) with
  | none =>
    rw [hcut] at hround hread
    exact .answers _ hround hread
  | some r =>
    obtain ⟨padding, fromPart⟩ := r
    have hpadding := found_of_cut h hcut
    simp only [hcut] at hround hread
    cases hcut' : Text.cut (separator boundary) fromPart with
    | none =>
      rw [hcut'] at hround hread
      exact .answers _ hround hread
    | some r =>
      obtain ⟨raw, rest⟩ := r
      have hraw := found_of_cut hpadding.le_length (hpadding.after ▸ hcut')
      simp only [hcut'] at hround hread
      cases ha : Multipart.readPart parts.length raw with
      | error e =>
        rw [ha] at hround hread
        exact .answers e hround hread
      | ok a =>
        simp only [ha] at hround hread
        have hend : lineEnd.length = 2 := rfl
        have hfar := length_separator boundary
        refine .continues _ a hround (by omega) hraw.le_length ?_
        rw [hread, hraw.after]

/-- Every round is worth six octets, so this many rounds are enough. -/
theorem rounds_eq (boundary : String) (parts : List Attachment) (limit : Nat)
    (h : cursor ≤ body.length) (hlimit : body.length < cursor + 6 * limit) :
    rounds boundary body limit cursor parts =
      answered (readParts boundary parts.reverse (body.drop cursor)) := by
  induction limit generalizing cursor parts with
  | zero => omega
  | succ limit ih =>
    rw [rounds]
    cases goes boundary parts h with
    | closes hround hread =>
      rw [hround, hread]
      rfl
    | answers e hround hread =>
      rw [hround, hread]
      rfl
    | continues next a hround hfar hnext hread =>
      have hrest := ih (parts ++ [a]) hnext (by omega)
      rw [List.reverse_append, List.reverse_singleton, List.singleton_append] at hrest
      rw [hround, hread, ← hrest]
      rfl

/-! ## The whole body -/

/-- The index at which the root stands is that of a part. -/
theorem remove_rootIndex {α : Type} (start : Option String) (parts : List Attachment)
    (f : Attachment × List Attachment → Except Halt α) :
    (rootIndex start parts >>= fun i => remove parts i >>= f) =
      answered (takeRoot start parts) >>= f := by
  cases start with
  | none => cases parts <;> rfl
  | some contentId =>
    unfold rootIndex takeRoot
    dsimp only
    cases hindex : parts.findIdx? fun a => decide (a.contentId = contentId) with
    | none => rfl
    | some i =>
      obtain ⟨hi, -⟩ := List.findIdx?_eq_some_iff_getElem.mp hindex
      have hpart : parts[i]? = some parts[i] := List.getElem?_eq_getElem hi
      simp only [demand, bind, Except.bind, remove, hpart, answered, Except.mapError]

theorem read_eq (contentType : String) (body : Bytes) {limit : Nat} (hlimit : body.length / 4 < limit) :
    read limit contentType body = answered (Multipart.read contentType body) := by
  unfold read Multipart.read
  cases parameter? contentType "boundary" with
  | none => rfl
  | some boundary =>
    simp only [demand, bind, Except.bind, find_zero (delimiter_ne_nil boundary)]
    cases hcut : Text.cut (delimiter boundary) body with
    | none => rfl
    | some r =>
      obtain ⟨preamble, rest⟩ := r
      have hfound := found_of_cut_zero hcut
      have hrounds := rounds_eq boundary [] limit hfound.le_length (by omega)
      rw [hfound.after, List.reverse_nil] at hrounds
      simp only [Option.map_some, hrounds]
      cases readParts boundary [] rest with
      | error e => rfl
      | ok parts =>
        have hroot := remove_rootIndex ((parameter? contentType "start").map withoutBrackets) parts
          fun r => pure (r.1.data, r.2)
        simp only [bind, Except.bind] at hroot
        simp only [answered, Except.mapError] at hroot ⊢
        rw [hroot]
        cases takeRoot ((parameter? contentType "start").map withoutBrackets) parts <;> rfl

/-- Where the rounds get to, and the parts that are found on the way. -/
inductive Reaches (boundary : String) (body : Bytes) : Nat → List Attachment → Prop
  | start {i : Nat} : find body (delimiter boundary) 0 = .ok (some i) →
      Reaches boundary body (i + (delimiter boundary).length) []
  | next {cursor next : Nat} {parts parts' : List Attachment} : Reaches boundary body cursor parts →
      round boundary body cursor parts = .ok (some (next, parts')) → Reaches boundary body next parts'

/-- A round that goes on gets further, and finds one part. -/
theorem advances (h : cursor ≤ body.length) {next : Nat} {parts' : List Attachment}
    (hround : round boundary body cursor parts = .ok (some (next, parts'))) :
    cursor + 6 ≤ next ∧ next ≤ body.length ∧ parts'.length = parts.length + 1 := by
  cases goes boundary parts h with
  | closes hclosed => simp [hround] at hclosed
  | answers e hanswered => simp [hround] at hanswered
  | continues next' a hcontinued hfar hnext =>
    rw [hround] at hcontinued
    obtain ⟨rfl, rfl⟩ := Prod.mk.inj (Option.some.inj (Except.ok.inj hcontinued))
    exact ⟨hfar, hnext, List.length_append⟩

/-- A round that does not go on for want of something answers. -/
theorem exists_error (h : cursor ≤ body.length) {halt : Halt}
    (hround : round boundary body cursor parts = .error halt) : ∃ e, halt = .error e := by
  cases goes boundary parts h with
  | closes hclosed => simp [hround] at hclosed
  | answers e hanswered =>
    rw [hround] at hanswered
    exact ⟨e, Except.error.inj hanswered⟩
  | continues next a hcontinued => simp [hround] at hcontinued

theorem Reaches.bounds (h : Reaches boundary body cursor parts) :
    cursor ≤ body.length ∧ 6 * parts.length + 2 ≤ cursor := by
  induction h with
  | @start i hfind =>
    rw [find_zero (delimiter_ne_nil boundary)] at hfind
    obtain ⟨⟨before, after⟩, hcut, rfl⟩ := Option.map_eq_some_iff.mp (Except.ok.inj hfind)
    have hfound := found_of_cut_zero hcut
    have hdelimiter := length_delimiter boundary
    refine ⟨hfound.le_length, ?_⟩
    simp only [List.length_nil]
    omega
  | next _ hround ih =>
    obtain ⟨hinside, hparts⟩ := ih
    obtain ⟨hfar, hnext, hlength⟩ := advances hinside hround
    exact ⟨hnext, by omega⟩

/-- Whatever the content type and the body are, reading by index ends with the answer of reading without
indices, if it is given a round for every four octets and one more. It halts for no other reason, so all
slices and searches on the way are in order. Every round begins inside of the body, and one that goes on
gets further without leaving it; so there are never more parts than a quarter of its octets. -/
theorem reading_stays_inside (contentType : String) (body : Bytes) :
    (∀ limit, body.length / 4 < limit →
      (∃ r, read limit contentType body = .ok r ∧ Multipart.read contentType body = .ok r) ∨
        ∃ e, read limit contentType body = .error (.error e) ∧
          Multipart.read contentType body = .error e) ∧
    ∀ boundary cursor parts, Reaches boundary body cursor parts →
      cursor ≤ body.length ∧ parts.length ≤ body.length / 4 ∧
        (∀ halt, round boundary body cursor parts = .error halt → ∃ e, halt = .error e) ∧
        ∀ next parts', round boundary body cursor parts = .ok (some (next, parts')) →
          cursor < next ∧ next ≤ body.length ∧ parts'.length = parts.length + 1 := by
  refine ⟨fun limit hlimit => ?_, fun boundary cursor parts hreaches => ?_⟩
  · have hread := read_eq contentType body hlimit
    cases h : Multipart.read contentType body with
    | ok r => exact .inl ⟨r, by rw [hread, h]; rfl, rfl⟩
    | error e => exact .inr ⟨e, by rw [hread, h]; rfl, rfl⟩
  · obtain ⟨hinside, hparts⟩ := hreaches.bounds
    refine ⟨hinside, by omega, fun halt hround => exists_error hinside hround,
      fun next parts' hround => ?_⟩
    obtain ⟨hfar, hnext, hlength⟩ := advances hinside hround
    exact ⟨by omega, hnext, hlength⟩

/-- A body under an empty boundary that ends with its last delimiter, with one part between delimiters
that hold nothing but hyphens. -/
def crampedBody : Bytes :=
  hyphens ++ lineEnd ++ Utf8.encode "content-id:a" ++ lineEnd ++ lineEnd ++ lineEnd ++ hyphens ++
    hyphens

theorem crampedBody_stays_inside :
    crampedBody.length / 4 < 7 ∧
      ((∃ r, read 7 "multipart/related;boundary=" crampedBody = .ok r ∧
          Multipart.read "multipart/related;boundary=" crampedBody = .ok r) ∨
        ∃ e, read 7 "multipart/related;boundary=" crampedBody = .error (.error e) ∧
          Multipart.read "multipart/related;boundary=" crampedBody = .error e) ∧
      Reaches "" crampedBody 2 [] ∧
      round "" crampedBody 2 [] = .ok (some (24, [⟨"a", "application/octet-stream", []⟩])) ∧
      24 ≤ crampedBody.length := by
  have hlimit : crampedBody.length / 4 < 7 := by decide +kernel
  have hreaches : Reaches "" crampedBody 2 [] := .start (i := 0) (by decide +kernel)
  have hround : round "" crampedBody 2 [] =
      .ok (some (24, [⟨"a", "application/octet-stream", []⟩])) := by
    decide +kernel
  obtain ⟨hread, hbounds⟩ := reading_stays_inside "multipart/related;boundary=" crampedBody
  obtain ⟨-, -, -, hadvances⟩ := hbounds "" 2 [] hreaches
  obtain ⟨-, hnext, -⟩ := hadvances _ _ hround
  exact ⟨hlimit, hread 7 hlimit, hreaches, hround, hnext⟩

end EbmsMessaging.Multipart.Indexed
