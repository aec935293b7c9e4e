import EbmsMessaging.Json.Number
import EbmsMessaging.Json.Quoted
import EbmsMessaging.Schema

/-!
# Writing values as JSON

The written form has no blanks. A record is written as an object, with its fields in the order of
their declaration.
-/
namespace EbmsMessaging.Json

/-- Pieces with commas between them. -/
def separated : List Bytes → Bytes
  | [] => []
  | [piece] => piece
  | piece :: pieces => piece ++ comma :: separated pieces

/-- The word for no value. -/
def null : Bytes := [0x6E, 0x75, 0x6C, 0x6C]

/-- The written form of what a field holds, if it is written at all. -/
def writeHeld {α : Type} (value : α → Bytes) : (rule : Rule) → rule.Held α → Option Bytes
  | .required, a => some (value a)
  | .defaulted, h => h.map value
  | .optional, h => h.map value
  | .nullable _, h => some (h.elim null value)

mutual

/-- The written form of a value in a given shape. -/
def write : (shape : Shape) → shape.Value → Bytes
  | .text, s => writeString s
  | .octet, n => writeNumber n.toNat
  | .word, n => writeNumber n.toNat
  | .instant, t => writeString t.text
  | .list item, values => openBracket :: separated (values.map (write item)) ++ [closeBracket]
  | .record fields, values => openBrace :: separated (writeMembers fields values) ++ [closeBrace]

/-- The written members of a record. -/
def writeMembers : (fields : Fields) → fields.Values → List Bytes
  | .nil, _ => []
  | .cons name rule shape rest, (held, values) =>
    match writeHeld (write shape) rule held with
    | some value => (writeString name ++ colon :: value) :: writeMembers rest values
    | none => writeMembers rest values

end

/-- The written form of a value. -/
def render {α : Type} [Schematic α] (a : α) : Bytes :=
  write (Schematic.shape α) (Schematic.toValue a)

end EbmsMessaging.Json
