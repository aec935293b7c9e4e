import EbmsMessaging.Text.Utf8
import EbmsMessaging.Timestamp.Basic

/-!
# Shapes of stored values

Everything that is read from JSON or from a settings text has a shape: a text, a number, an instant,
a list of values of one shape, or a record of named fields. A shape denotes the type of its values,
and one reader and one writer serve all shapes. A domain type is tied to a shape by `Schematic`,
with the law that writing loses nothing.
-/
namespace EbmsMessaging

/-- What holds when a field is not given. -/
inductive Rule where
  /-- It must be given. -/
  | required
  /-- It may be left out, also at the end of a row, and then has a value of its own. -/
  | defaulted
  /-- It may be left out or null, also at the end of a row, and is not written when it has no
  value. -/
  | optional
  /-- It may be left out or null and is written as null when it has no value. The flag says whether
  it may also be left out at the end of a row. -/
  | nullable (row : Bool)
deriving DecidableEq, Repr

namespace Rule

/-- What a field with values in `α` holds under a rule. -/
@[reducible] def Held (rule : Rule) (α : Type) : Type :=
  match rule with
  | required => α
  | _ => Option α

/-- What a field holds that is not given by name. -/
def absent? {α : Type} : (rule : Rule) → Option (rule.Held α)
  | required => none
  | defaulted => some none
  | optional => some none
  | nullable _ => some none

/-- What a field holds that is not given in a row, a row being too short for it. -/
def absentInRow? {α : Type} : (rule : Rule) → Option (rule.Held α)
  | required => none
  | defaulted => some none
  | optional => some none
  | nullable true => some none
  | nullable false => none

/-- What a field holds whose value is given and is not null. -/
def given {α : Type} : (rule : Rule) → α → rule.Held α
  | required, a => a
  | defaulted, a => some a
  | optional, a => some a
  | nullable _, a => some a

/-- What a field holds that is given as null, if it may be. -/
def null? {α : Type} : (rule : Rule) → Option (rule.Held α)
  | required => none
  | defaulted => none
  | optional => some none
  | nullable _ => some none

end Rule

mutual

inductive Shape where
  | text
  | octet
  | word
  | instant
  | list (item : Shape)
  | record (fields : Fields)

inductive Fields where
  | nil
  | cons (name : String) (rule : Rule) (shape : Shape) (rest : Fields)

end

mutual

/-- The values of a shape. -/
@[reducible] def Shape.Value : Shape → Type
  | .text => String
  | .octet => UInt8
  | .word => UInt64
  | .instant => Timestamp
  | .list item => List item.Value
  | .record fields => fields.Values

/-- The values of a record's fields, in the order of their declaration. -/
@[reducible] def Fields.Values : Fields → Type
  | .nil => Unit
  | .cons _ rule shape rest => rule.Held shape.Value × rest.Values

end

/-- The fields of a record that have been met so far. -/
@[reducible] def Fields.Draft : Fields → Type
  | .nil => Unit
  | .cons _ rule shape rest => Option (rule.Held shape.Value) × rest.Draft

namespace Fields

/-- No field has been met. -/
def blank : (fields : Fields) → fields.Draft
  | .nil => ()
  | .cons _ _ _ rest => (none, rest.blank)

/-- The record that a draft amounts to, or the name of the first field that has to be given and is
not. -/
def settle : (fields : Fields) → fields.Draft → Except String fields.Values
  | .nil, _ => .ok ()
  | .cons name rule _ rest, (met, draft) =>
    match met.or rule.absent? with
    | none => .error name
    | some held => do return (held, ← rest.settle draft)

/-- The draft in which every field has been met. -/
def full : (fields : Fields) → fields.Values → fields.Draft
  | .nil, _ => ()
  | .cons _ _ _ rest, (held, values) => (some held, rest.full values)

theorem settle_full (fields : Fields) (values : fields.Values) :
    fields.settle (fields.full values) = .ok values := by
  induction fields using Fields.rec (motive_1 := fun _ => True) with
  | nil => rfl
  | cons name rule shape rest _ ih =>
    obtain ⟨held, values⟩ := values
    simp [settle, full, ih, Option.or, bind, Except.bind, pure, Except.pure]
  | _ => trivial

end Fields

/-- A type whose values are stored in one shape. -/
class Schematic (α : Type) where
  shape : Shape
  ofValue : shape.Value → α
  toValue : α → shape.Value
  ofValue_toValue : ∀ a, ofValue (toValue a) = a

attribute [simp] Schematic.ofValue_toValue

namespace Schematic

/-- The list shape of a type. -/
@[reducible] def listOf (α : Type) [Schematic α] : Shape := .list (shape α)

def ofValues {α : Type} [Schematic α] (vs : List (shape α).Value) : List α := vs.map ofValue

def toValues {α : Type} [Schematic α] (as : List α) : List (shape α).Value := as.map toValue

@[simp] theorem ofValue_comp_toValue {α : Type} [Schematic α] :
    (ofValue ∘ toValue : α → α) = id :=
  funext ofValue_toValue

@[simp] theorem ofValues_toValues {α : Type} [Schematic α] (as : List α) :
    ofValues (toValues as) = as := by
  simp [ofValues, toValues]

end Schematic

end EbmsMessaging
