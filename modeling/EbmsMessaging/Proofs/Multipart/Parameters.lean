import EbmsMessaging.Multipart.Reader
import EbmsMessaging.Proofs.Text.Cut
import EbmsMessaging.Proofs.Text.Strip

/-!
# Parameters of content types

A content type lists parameters, each with a name and a value. The order in which they stand, the case
of their names, quotes around their values and blanks make no difference to what is read.
-/
namespace EbmsMessaging.Multipart

/-- A parameter of a content type. Its name may have blanks around it. -/
structure Parameter where
  name : List Char
  front : List Char
  value : List Char
  back : List Char
  quoted : Bool
  named : '=' ∉ name ∧ ';' ∉ name
  blank : (∀ c ∈ front, Text.isBlank c = true) ∧ ∀ c ∈ back, Text.isBlank c = true
  plain : '\x22' ∉ value ∧ ';' ∉ value
  bare : quoted = false → Text.Bare Text.isBlank value

namespace Parameter

variable (p : Parameter)

/-- The value as it is written, with its quotes if it has them. -/
def literal : List Char := if p.quoted then '\x22' :: (p.value ++ ['\x22']) else p.value

def text : List Char := p.name ++ ['='] ++ (p.front ++ p.literal ++ p.back)

theorem bare_literal : Text.Bare Text.isBlank p.literal := by
  unfold literal
  split
  · have hquote : Text.isBlank '\x22' = false := rfl
    constructor
    · rintro c ⟨⟩
      exact hquote
    · intro c hc
      rw [← List.cons_append, List.getLast?_concat] at hc
      obtain rfl := Option.some.inj hc
      exact hquote
  · next h => exact p.bare (Bool.not_eq_true _ ▸ h)

theorem trimmed_value : trimmed (p.front ++ p.literal ++ p.back) = p.literal :=
  Text.stripChars_append p.blank.1 p.blank.2 p.bare_literal

theorem stripChars_literal :
    Text.stripChars (fun c => c = '\x22') p.literal = p.value := by
  have hplain : ∀ c ∈ p.value, decide (c = '\x22') = false := by
    intro c hc
    have hne : c ≠ '\x22' := fun h => p.plain.1 (h ▸ hc)
    simpa using hne
  have hbare := Text.bare_of_forall hplain
  unfold literal
  split
  · have hquotes : ∀ c ∈ ['\x22'], decide (c = '\x22') = true := List.forall_mem_singleton.mpr rfl
    exact Text.stripChars_append hquotes hquotes hbare
  · exact Text.stripChars_of_bare hbare

theorem parameterIn?_text (name : String) : parameterIn? name p.text =
    if isNamed name p.name then some (String.ofList p.value) else none := by
  have hname : ¬['='] <:+: p.name := by
    rw [List.singleton_infix_iff]
    exact p.named.1
  have hcut : Text.cut ['='] p.text = some (p.name, p.front ++ p.literal ++ p.back) :=
    Text.cut_of_not_infix List.not_mem_nil hname
  rw [parameterIn?, hcut]
  simp only [trimmed_value, stripChars_literal]

theorem not_mem_text : ';' ∉ p.text := by
  have hblank : Text.isBlank ';' = false := rfl
  have hfront : ';' ∉ p.front := fun h => by simp [p.blank.1 _ h] at hblank
  have hback : ';' ∉ p.back := fun h => by simp [p.blank.2 _ h] at hblank
  have hliteral : ';' ∉ p.literal := by
    unfold literal
    split
    · simp [p.plain.2]
    · exact p.plain.2
  simp [text, p.named.2, hfront, hback, hliteral]

end Parameter

/-- A content type with its parameters. -/
structure ContentType where
  mediaType : List Char
  parameters : List Parameter
  plain : ';' ∉ mediaType

namespace ContentType

variable (t : ContentType)

def text : String := String.ofList (t.mediaType ++ t.parameters.flatMap fun p => ';' :: p.text)

/-- The value of the first parameter of a name. -/
def value? (name : String) : Option String :=
  (t.parameters.find? fun p => isNamed name p.name).map fun p => String.ofList p.value

theorem splitAll_flatMap {cs : List Char} (hcs : ';' ∉ cs) (ps : List Parameter) :
    Text.splitAll ';' (cs ++ ps.flatMap fun p => ';' :: p.text) = cs :: ps.map Parameter.text := by
  induction ps generalizing cs with
  | nil => simpa using Text.splitAll_of_not_mem hcs
  | cons p ps ih =>
    rw [List.flatMap_cons, List.cons_append, Text.splitAll_append_cons hcs, ih p.not_mem_text,
      List.map_cons]

theorem findSome?_parameterIn? (name : String) (ps : List Parameter) :
    (ps.map Parameter.text).findSome? (parameterIn? name) =
      (ps.find? fun p => isNamed name p.name).map fun p => String.ofList p.value := by
  induction ps with
  | nil => rfl
  | cons p ps ih =>
    rw [List.map_cons, List.findSome?_cons, p.parameterIn?_text, List.find?_cons]
    cases isNamed name p.name with
    | false => exact ih
    | true => rfl

/-- Order, case, quotes and blanks make no difference. -/
theorem parameter?_text (name : String) : parameter? t.text name = t.value? name := by
  rw [parameter?, text, String.toList_ofList, splitAll_flatMap t.plain, List.tail_cons,
    findSome?_parameterIn?, value?]

end ContentType

end EbmsMessaging.Multipart
