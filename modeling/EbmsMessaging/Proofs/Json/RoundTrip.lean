import EbmsMessaging.Json.Writer
import EbmsMessaging.Proofs.Json.Quoted
import EbmsMessaging.Proofs.Timestamp

/-!
# Written values are read back

A value of any shape is read back from its written form, provided that no record of the shape has
two fields of one name. Each part of a written form is read where it stands, whatever punctuation
follows.
-/
namespace EbmsMessaging

/-- The names of fields, in the order of their declaration. -/
def Fields.names : Fields → List String
  | .nil => []
  | .cons name _ _ rest => name :: rest.names

mutual

/-- No record in a shape has two fields of one name. -/
def Shape.Distinct : Shape → Prop
  | .text | .octet | .word | .instant => True
  | .list item => item.Distinct
  | .record fields => fields.Distinct

def Fields.Distinct : Fields → Prop
  | .nil => True
  | .cons name _ shape rest => name ∉ rest.names ∧ shape.Distinct ∧ rest.Distinct

end

namespace Json

/-! ## How written values begin and end -/

/-- A written value begins with this octet. -/
def Opens (b : UInt8) : Prop := b = quote ∨ isDigit b = true ∨ b = openBracket ∨ b = openBrace

theorem Opens.isBlank {b : UInt8} (h : Opens b) : isBlank b = false := by
  rcases h with rfl | h | rfl | rfl
  · rfl
  · exact isBlank_of_isDigit h
  · rfl
  · rfl

theorem Opens.ne {b c : UInt8} (h : Opens b) (hc : ¬Opens c) : b ≠ c := by
  rintro rfl
  exact hc h

theorem not_opens_closeBracket : ¬Opens closeBracket := by
  unfold Opens
  decide

/-- The first letter of `null`. -/
theorem not_opens_null : ¬Opens 0x6E := by
  unfold Opens
  decide

theorem opens_write (shape : Shape) (value : shape.Value) :
    ∃ b bs, write shape value = b :: bs ∧ Opens b := by
  cases shape with
  | text => exact ⟨_, _, rfl, .inl rfl⟩
  | octet =>
    obtain ⟨b, bs, hw, hb⟩ := writeNumber_cons (UInt8.toNat value)
    exact ⟨b, bs, hw, .inr (.inl hb)⟩
  | word =>
    obtain ⟨b, bs, hw, hb⟩ := writeNumber_cons (UInt64.toNat value)
    exact ⟨b, bs, hw, .inr (.inl hb)⟩
  | instant => exact ⟨_, _, rfl, .inl rfl⟩
  | list item => exact ⟨_, _, rfl, .inr (.inr (.inl rfl))⟩
  | record fields => exact ⟨_, _, rfl, .inr (.inr (.inr rfl))⟩

theorem separated_cons (piece : Bytes) (pieces : List Bytes) :
    separated (piece :: pieces) = piece ++ pieces.flatMap fun p => comma :: p := by
  induction pieces generalizing piece with
  | nil => simp [separated]
  | cons p pieces ih =>
    rw [separated, ih p, List.flatMap_cons, List.cons_append]
    simp

/-- Behind a piece there is a comma or the end of the whole. -/
theorem stops_continued {close : UInt8} (hclose : ∀ rest, Stops (close :: rest))
    (pieces : List Bytes) (rest : Bytes) :
    Stops ((pieces.flatMap fun p => comma :: p) ++ close :: rest) := by
  cases pieces with
  | nil => exact hclose rest
  | cons p pieces => exact .comma _

/-- There is a comma for each piece but one. -/
theorem length_le_separated (pieces : List Bytes) :
    pieces.length ≤ (separated pieces).length + 1 := by
  cases pieces with
  | nil => exact Nat.zero_le _
  | cons piece pieces =>
    rw [separated_cons]
    induction pieces with
    | nil => simp
    | cons p pieces ih =>
      simp only [List.flatMap_cons, List.length_append, List.length_cons] at ih ⊢
      omega

/-! ## Arrays -/

theorem nextElement_first {b : UInt8} (hb : Opens b) (bs : Bytes) :
    nextElement true (b :: bs) = .ok (true, b :: bs) := by
  rw [nextElement, skipBlanks_cons hb.isBlank]
  simp only [if_neg (hb.ne not_opens_closeBracket), if_true]

theorem nextElement_next {b : UInt8} (hb : Opens b) (bs : Bytes) :
    nextElement false (comma :: b :: bs) = .ok (true, b :: bs) := by
  rw [nextElement, skipBlanks_cons (by decide)]
  simp only [skipBlanks_cons hb.isBlank, if_neg (hb.ne not_opens_closeBracket)]
  rw [if_neg (by decide), if_neg (by decide), if_pos trivial]

theorem nextElement_close (first : Bool) (rest : Bytes) :
    nextElement first (closeBracket :: rest) = .ok (false, rest) := by
  rw [nextElement, skipBlanks_cons (by decide)]
  exact if_pos rfl

section Arrays

variable {α : Type} {item : Bytes → Except Fault (α × Bytes)} {written : α → Bytes}

theorem elements_nil {first : Bool} {input rest : Bytes}
    (hnext : nextElement first input = .ok (false, rest)) (fuel : Nat) (before : List α) :
    elements item (fuel + 1) first before input = .ok (before.reverse, rest) := by
  simp only [elements, hnext, bind, Except.bind]

theorem elements_cons {first : Bool} {input text rest : Bytes} {a : α}
    (hnext : nextElement first input = .ok (true, text)) (hread : item text = .ok (a, rest))
    (fuel : Nat) (before : List α) : elements item (fuel + 1) first before input =
      elements item fuel false (a :: before) rest := by
  simp only [elements, hnext, hread, bind, Except.bind]

/-- Elements behind the first one are read back. -/
theorem elements_continued {values : List α}
    (hitem : ∀ a ∈ values, ∀ rest, Stops rest → item (written a ++ rest) = .ok (a, rest))
    (hopens : ∀ a ∈ values, ∃ b bs, written a = b :: bs ∧ Opens b) {fuel : Nat}
    (hfuel : values.length < fuel) (before : List α) (rest : Bytes) :
    elements item fuel false before
        (((values.map written).flatMap fun p => comma :: p) ++ closeBracket :: rest) =
      .ok (before.reverse ++ values, rest) := by
  induction values generalizing fuel before with
  | nil =>
    obtain ⟨fuel, rfl⟩ := Nat.exists_eq_succ_of_ne_zero (Nat.ne_of_gt hfuel)
    rw [List.append_nil]
    exact elements_nil (nextElement_close false rest) fuel before
  | cons a values ih =>
    obtain ⟨fuel, rfl⟩ := Nat.exists_eq_succ_of_ne_zero (Nat.ne_of_gt (Nat.zero_lt_of_lt hfuel))
    obtain ⟨hitem, hitems⟩ := List.forall_mem_cons.mp hitem
    obtain ⟨⟨b, bs, hw, hb⟩, hopens⟩ := List.forall_mem_cons.mp hopens
    have hread := hitem _ (stops_continued .closeBracket (values.map written) rest)
    rw [hw, List.cons_append] at hread
    rw [List.map_cons, List.flatMap_cons, hw, List.append_assoc, List.cons_append,
      List.cons_append, elements_cons (nextElement_next hb _) hread,
      ih hitems hopens (Nat.lt_of_succ_lt_succ hfuel), List.reverse_cons, List.append_assoc,
      List.singleton_append]

/-- The elements of a written array are read back. -/
theorem elements_separated {values : List α}
    (hitem : ∀ a ∈ values, ∀ rest, Stops rest → item (written a ++ rest) = .ok (a, rest))
    (hopens : ∀ a ∈ values, ∃ b bs, written a = b :: bs ∧ Opens b) {fuel : Nat}
    (hfuel : values.length < fuel) (rest : Bytes) :
    elements item fuel true [] (separated (values.map written) ++ closeBracket :: rest) =
      .ok (values, rest) := by
  obtain ⟨fuel, rfl⟩ := Nat.exists_eq_succ_of_ne_zero (Nat.ne_of_gt (Nat.zero_lt_of_lt hfuel))
  cases values with
  | nil => exact elements_nil (nextElement_close true rest) fuel []
  | cons a values =>
    obtain ⟨hitem, hitems⟩ := List.forall_mem_cons.mp hitem
    obtain ⟨⟨b, bs, hw, hb⟩, hopens⟩ := List.forall_mem_cons.mp hopens
    have hread := hitem _ (stops_continued .closeBracket (values.map written) rest)
    rw [hw, List.cons_append] at hread
    rw [List.map_cons, separated_cons, hw, List.append_assoc, List.cons_append,
      elements_cons (nextElement_first hb _) hread,
      elements_continued hitems hopens (Nat.lt_of_succ_lt_succ hfuel)]
    rfl

end Arrays

/-! ## Objects -/

/-- A written member of an object. -/
def writeMember (m : String × Bytes) : Bytes := writeString m.1 ++ colon :: m.2

theorem nextKey_first (name : String) (input : Bytes) :
    nextKey true (writeString name ++ input) = .ok (some name, input) := by
  rw [writeString_append, nextKey, skipBlanks_cons (by decide)]
  simp only [if_true, quoted_writeChars, bind, Except.bind]
  exact if_neg (by decide)

theorem nextKey_next (name : String) (input : Bytes) :
    nextKey false (comma :: (writeString name ++ input)) = .ok (some name, input) := by
  rw [writeString_append, nextKey, skipBlanks_cons (by decide)]
  simp only [skipBlanks_cons (show isBlank quote = false from rfl), if_true, quoted_writeChars,
    bind, Except.bind]
  rw [if_neg (by decide), if_neg (by decide)]

theorem nextKey_close (first : Bool) (rest : Bytes) :
    nextKey first (closeBrace :: rest) = .ok (none, rest) := by
  rw [nextKey, skipBlanks_cons (by decide)]
  exact if_pos rfl

section Objects

variable {σ : Type} {member : String → σ → Bytes → Except Fault (σ × Bytes)}

theorem members_nil {first : Bool} {input rest : Bytes}
    (hnext : nextKey first input = .ok (none, rest)) (fuel : Nat) (draft : σ) :
    members member (fuel + 1) first draft input = .ok (draft, rest) := by
  simp only [members, hnext, bind, Except.bind]

theorem members_cons {first : Bool} {input text rest : Bytes} {name : String} {draft next : σ}
    (hnext : nextKey first input = .ok (some name, text))
    (hread : member name draft text = .ok (next, rest)) (fuel : Nat) :
    members member (fuel + 1) first draft input = members member fuel false next rest := by
  simp only [members, hnext, hread, bind, Except.bind]

/-- Members that are read one after the other take what was read so far from one state to
another. -/
inductive Feeds (member : String → σ → Bytes → Except Fault (σ × Bytes)) :
    σ → List (String × Bytes) → σ → Prop where
  | nil (draft : σ) : Feeds member draft [] draft
  | cons {draft next last : σ} {name : String} {value : Bytes} {ms : List (String × Bytes)}
      (hread : ∀ rest, Stops rest → member name draft (colon :: value ++ rest) = .ok (next, rest))
      (hms : Feeds member next ms last) : Feeds member draft ((name, value) :: ms) last

/-- Members behind the first one are read back. -/
theorem members_continued {draft last : σ} {ms : List (String × Bytes)}
    (h : Feeds member draft ms last) {fuel : Nat} (hfuel : ms.length < fuel) (rest : Bytes) :
    members member fuel false draft
        (((ms.map writeMember).flatMap fun p => comma :: p) ++ closeBrace :: rest) =
      .ok (last, rest) := by
  induction h generalizing fuel with
  | nil draft =>
    obtain ⟨fuel, rfl⟩ := Nat.exists_eq_succ_of_ne_zero (Nat.ne_of_gt hfuel)
    exact members_nil (nextKey_close false rest) fuel draft
  | @cons draft next last name value ms hread hms ih =>
    obtain ⟨fuel, rfl⟩ := Nat.exists_eq_succ_of_ne_zero (Nat.ne_of_gt (Nat.zero_lt_of_lt hfuel))
    have hread := hread _ (stops_continued .closeBrace (ms.map writeMember) rest)
    rw [List.map_cons, List.flatMap_cons, List.append_assoc, List.cons_append, writeMember,
      List.append_assoc, members_cons (nextKey_next name _) hread]
    exact ih (Nat.lt_of_succ_lt_succ hfuel)

/-- The members of a written object are read back. -/
theorem members_separated {draft last : σ} {ms : List (String × Bytes)}
    (h : Feeds member draft ms last) {fuel : Nat} (hfuel : ms.length < fuel) (rest : Bytes) :
    members member fuel true draft (separated (ms.map writeMember) ++ closeBrace :: rest) =
      .ok (last, rest) := by
  obtain ⟨fuel, rfl⟩ := Nat.exists_eq_succ_of_ne_zero (Nat.ne_of_gt (Nat.zero_lt_of_lt hfuel))
  cases h with
  | nil => exact members_nil (nextKey_close true rest) fuel draft
  | @cons _ next _ name value ms hread hms =>
    have hread := hread _ (stops_continued .closeBrace (ms.map writeMember) rest)
    rw [List.map_cons, separated_cons, List.append_assoc, writeMember, List.append_assoc,
      members_cons (nextKey_first name _) hread]
    exact members_continued hms (Nat.lt_of_succ_lt_succ hfuel) rest

end Objects

/-! ## Fields -/

theorem keyEnd_colon (input : Bytes) : keyEnd (colon :: input) = .ok input := by
  rw [keyEnd, skipBlanks_cons (by decide)]
  rfl

/-- What begins like a value is not taken for `null`. -/
theorem held_given {α : Type} {value : Bytes → Except Fault (α × Bytes)} (rule : Rule) {b : UInt8}
    {bs rest : Bytes} {a : α} (hb : Opens b) (hread : value (b :: bs) = .ok (a, rest)) :
    held rule value (b :: bs) = .ok (rule.given a, rest) := by
  rw [held, skipBlanks_cons hb.isBlank]
  cases rule.null? with
  | none => simp only [hread, bind, Except.bind]
  | some none' => simp only [if_neg (hb.ne not_opens_null), hread, bind, Except.bind]

/-- What is written for a field is read back under its rule. -/
theorem held_written {α : Type} {value : Bytes → Except Fault (α × Bytes)} {written : α → Bytes}
    (hvalue : ∀ a rest, Stops rest → value (written a ++ rest) = .ok (a, rest))
    (hopens : ∀ a, ∃ b bs, written a = b :: bs ∧ Opens b) {rule : Rule} {h : rule.Held α}
    {octets : Bytes} (hw : writeHeld written rule h = some octets) {rest : Bytes}
    (hrest : Stops rest) : held rule value (octets ++ rest) = .ok (h, rest) := by
  have hgiven : ∀ a, held rule value (written a ++ rest) = .ok (rule.given a, rest) := by
    intro a
    have hread := hvalue a rest hrest
    obtain ⟨b, bs, hb, hopen⟩ := hopens a
    rw [hb, List.cons_append] at hread ⊢
    exact held_given rule hopen hread
  cases rule with
  | required =>
    obtain rfl := Option.some.inj hw
    exact hgiven h
  | defaulted =>
    obtain ⟨a, rfl, rfl⟩ := Option.map_eq_some_iff.mp hw
    exact hgiven a
  | optional =>
    obtain ⟨a, rfl, rfl⟩ := Option.map_eq_some_iff.mp hw
    exact hgiven a
  | nullable row =>
    obtain rfl := Option.some.inj hw
    cases h with
    | some a => exact hgiven a
    | none => rfl

/-- The members that are written for a record. -/
def writtenMembers : (fields : Fields) → fields.Values → List (String × Bytes)
  | .nil, _ => []
  | .cons name rule shape rest, (h, values) =>
    match writeHeld (write shape) rule h with
    | some value => (name, value) :: writtenMembers rest values
    | none => writtenMembers rest values

theorem writeMembers_eq_map (fields : Fields) (values : fields.Values) :
    writeMembers fields values = (writtenMembers fields values).map writeMember := by
  induction fields using Fields.rec (motive_1 := fun _ => True) with
  | nil => rfl
  | cons name rule shape rest _ ih =>
    obtain ⟨h, values⟩ := values
    rw [writeMembers, writtenMembers]
    cases writeHeld (write shape) rule h with
    | none => exact ih values
    | some value => rw [ih values, List.map_cons, writeMember]
  | _ => trivial

theorem mem_names_of_mem_writtenMembers {fields : Fields} {values : fields.Values}
    {m : String × Bytes} (hm : m ∈ writtenMembers fields values) : m.1 ∈ fields.names := by
  induction fields using Fields.rec (motive_1 := fun _ => True) with
  | nil => exact absurd hm List.not_mem_nil
  | cons name rule shape rest _ ih =>
    obtain ⟨h, values⟩ := values
    rw [writtenMembers] at hm
    rw [Fields.names]
    cases hw : writeHeld (write shape) rule h with
    | none =>
      rw [hw] at hm
      exact List.mem_cons_of_mem _ (ih hm)
    | some value =>
      rw [hw] at hm
      rcases List.mem_cons.mp hm with rfl | hm
      · exact List.mem_cons_self
      · exact List.mem_cons_of_mem _ (ih hm)
  | _ => trivial

/-- What has been met once a written record is read: the fields that were written. -/
def metFields : (fields : Fields) → fields.Values → fields.Draft
  | .nil, _ => ()
  | .cons _ rule shape rest, (h, values) =>
    ((writeHeld (write shape) rule h).map fun _ => h, metFields rest values)

/-- A field that is not written has no value. -/
theorem absent?_of_writeHeld_eq_none {α : Type} {written : α → Bytes} {rule : Rule}
    {h : rule.Held α} (hw : writeHeld written rule h = none) : rule.absent? = some h := by
  cases rule with
  | required => exact absurd hw (by simp [writeHeld])
  | defaulted => rw [Option.map_eq_none_iff.mp hw, Rule.absent?]
  | optional => rw [Option.map_eq_none_iff.mp hw, Rule.absent?]
  | nullable row => exact absurd hw (by simp [writeHeld])

theorem settle_metFields (fields : Fields) (values : fields.Values) :
    fields.settle (metFields fields values) = .ok values := by
  induction fields using Fields.rec (motive_1 := fun _ => True) with
  | nil => rfl
  | cons name rule shape rest _ ih =>
    obtain ⟨h, values⟩ := values
    rw [metFields, Fields.settle]
    cases hw : writeHeld (write shape) rule h with
    | some value => simp [ih values, bind, Except.bind, pure, Except.pure]
    | none =>
      simp [absent?_of_writeHeld_eq_none hw, ih values, bind, Except.bind, pure, Except.pure]
  | _ => trivial

/-- Members of other names pass a field by. -/
theorem Feeds.cons_field {name : String} (rule : Rule) (shape : Shape) {rest : Fields}
    {draft last : rest.Draft} {ms : List (String × Bytes)}
    (hms : Feeds (readMember rest) draft ms last) (hne : ∀ m ∈ ms, m.1 ≠ name)
    (met : Option (rule.Held shape.Value)) :
    Feeds (readMember (.cons name rule shape rest)) (met, draft) ms (met, last) := by
  induction hms with
  | nil draft => exact .nil _
  | @cons draft next last key value ms hread hms ih =>
    obtain ⟨hkey, hne⟩ := List.forall_mem_cons.mp hne
    refine .cons (fun input hinput => ?_) (ih hne)
    rw [readMember, if_neg hkey, hread input hinput]
    rfl

/-! ## Values -/

mutual

/-- A written value is read back where it stands. -/
theorem read_write (shape : Shape) (hd : shape.Distinct) (value : shape.Value) (rest : Bytes)
    (hrest : Stops rest) : read shape (write shape value ++ rest) = .ok (value, rest) := by
  cases shape with
  | text => exact text_writeString value rest
  | octet =>
    have hlt := UInt8.toNat_lt value
    rw [read, write, natural_writeNumber hlt (Nat.lt_trans hlt (by decide)) hrest]
    simp only [bind, Except.bind, Nat.toUInt8, UInt8.ofNat_toNat]
  | word =>
    have hlt := UInt64.toNat_lt value
    rw [read, write, natural_writeNumber hlt hlt hrest]
    simp only [bind, Except.bind, Nat.toUInt64, UInt64.ofNat_toNat]
  | instant =>
    rw [read, write, instant, text_writeString]
    simp only [bind, Except.bind, Timestamp.ofText?_text]
  | list item =>
    have hitem : ∀ a ∈ value, ∀ rest, Stops rest →
        read item (write item a ++ rest) = .ok (a, rest) :=
      fun a _ rest hrest => read_write item hd a rest hrest
    have hlength := length_le_separated (value.map (write item))
    simp only [List.length_map] at hlength
    rw [read, write, array]
    simp only [List.cons_append, List.append_assoc, List.nil_append,
      skipBlanks_cons (show isBlank openBracket = false from rfl), if_true]
    refine elements_separated hitem (fun a _ => opens_write item a) ?_ rest
    simp only [List.length_append, List.length_cons]
    omega
  | record fields =>
    have hfeeds := feeds_written fields hd value
    have hlength := length_le_separated ((writtenMembers fields value).map writeMember)
    simp only [List.length_map] at hlength
    rw [read, write, writeMembers_eq_map]
    simp only [List.cons_append, List.append_assoc, List.nil_append,
      skipBlanks_cons (show isBlank openBrace = false from rfl), if_true]
    rw [members_separated hfeeds]
    · simp only [bind, Except.bind, settle_metFields]
    · simp only [List.length_append, List.length_cons]
      omega

/-- The members that are written for a record are read back. -/
theorem feeds_written (fields : Fields) (hd : fields.Distinct) (values : fields.Values) :
    Feeds (readMember fields) fields.blank (writtenMembers fields values)
      (metFields fields values) := by
  cases fields with
  | nil => exact .nil _
  | cons name rule shape rest =>
    obtain ⟨h, values⟩ := values
    obtain ⟨hname, hshape, hd⟩ := hd
    have hne : ∀ m ∈ writtenMembers rest values, m.1 ≠ name := by
      rintro m hm rfl
      exact hname (mem_names_of_mem_writtenMembers hm)
    have hrest := (feeds_written rest hd values).cons_field rule shape hne
    rw [writtenMembers, metFields]
    cases hw : writeHeld (write shape) rule h with
    | none => exact hrest none
    | some value =>
      refine .cons (fun input hinput => ?_) (hrest (some h))
      have hheld := held_written (fun a rest hrest => read_write shape hshape a rest hrest)
        (opens_write shape) hw hinput
      rw [Fields.blank, readMember, if_pos rfl]
      simp only [List.cons_append, keyEnd_colon, bind, Except.bind, hheld]
      rfl

end

/-- A written value is read back as a whole text. -/
theorem readAll_write {shape : Shape} (hd : shape.Distinct) (value : shape.Value) :
    readAll shape (write shape value) = .ok value := by
  have hread := read_write shape hd value [] .nil
  rw [List.append_nil] at hread
  simp only [readAll, hread, bind, Except.bind]
  rfl

/-- What is rendered is parsed back. -/
theorem parse_render {α : Type} [Schematic α] (hd : (Schematic.shape α).Distinct) (a : α) :
    parse α (render a) = .ok a := by
  simp only [parse, render, readAll_write hd, bind, Except.bind, pure, Except.pure,
    Schematic.ofValue_toValue]

end Json
end EbmsMessaging
