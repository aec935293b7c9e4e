import EbmsMessaging.Schema
import EbmsMessaging.Timestamp.Reader
import EbmsMessaging.Toml.Document

/-!
# Values from settings

The tables of a settings text are read into a shape. A record is a table, whose other entries do not
matter, or a row: an array of its fields in the order of their declaration, and what follows them
does not matter either. A date is a table without any of the fields.
-/
namespace EbmsMessaging.Toml

/-- The integers below a bound. -/
def natural? (bound : Nat) : Value → Option Nat
  | .integer n => if 0 ≤ n ∧ n < bound then some n.toNat else none
  | _ => none

def text? : Value → Option String
  | .text s => some s
  | _ => none

/-- The elements of an array or of repeated tables. -/
def items? : Value → Option (List Value)
  | .array items => some items
  | .tables each => some (each.map (.table .heading))
  | _ => none

/-- The entries of a table. -/
def entries? : Value → Option Entries
  | .table _ es => some es
  | .date => some []
  | _ => none

mutual

/-- A value in a given shape. -/
def read : (shape : Shape) → Value → Option shape.Value
  | .text, v => text? v
  | .octet, v => (natural? UInt8.size v).map Nat.toUInt8
  | .word, v => (natural? UInt64.size v).map Nat.toUInt64
  | .instant, v => (text? v).bind Timestamp.ofText?
  | .list item, v => (items? v).bind fun vs => vs.mapM (read item)
  | .record fields, v =>
    match entries? v with
    | some es => readTable fields es
    | none => (items? v).bind (readRow fields)

/-- The fields of a record from the entries of a table. -/
def readTable : (fields : Fields) → Entries → Option fields.Values
  | .nil, _ => some ()
  | .cons name rule shape rest, es => do
    let held ← match es.find? name with
      | some v => (read shape v).map rule.given
      | none => rule.absent?
    return (held, ← readTable rest es)

/-- The fields of a record from the elements of an array. -/
def readRow : (fields : Fields) → List Value → Option fields.Values
  | .nil, _ => some ()
  | .cons _ rule shape rest, vs => do
    let held ← match vs with
      | v :: _ => (read shape v).map rule.given
      | [] => rule.absentInRow?
    return (held, ← readRow rest vs.tail)

end

/-- The value that a settings text stands for. -/
def parse? (α : Type) [Schematic α] (s : String) : Option α := do
  return Schematic.ofValue (← read (Schematic.shape α) (.table .heading (← ofText? s)))

end EbmsMessaging.Toml
