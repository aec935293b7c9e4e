/-!
# Settings as trees

What a settings text stands for: tables of named values. While a text is read, a table remembers how
it came about, because that decides what may still be added to it. Numbers with a fraction and truth
values are kept without their value, as no setting has such a value.
-/
namespace EbmsMessaging.Toml

/-- How a table came about. -/
inductive Origin where
  /-- It is written as a value, and nothing can be added to it. -/
  | value
  /-- It has a heading of its own. -/
  | heading
  /-- It is named in the heading of another table. -/
  | implied
  /-- It is named in a dotted key. -/
  | dotted
deriving DecidableEq, Repr

inductive Value where
  | text (s : String)
  | integer (n : Int)
  | date
  | otherScalar
  | array (items : List Value)
  | table (origin : Origin) (entries : List (String × Value))
  /-- The tables under one repeated heading. -/
  | tables (each : List (List (String × Value)))

abbrev Entries := List (String × Value)

namespace Entries

def find? (es : Entries) (key : String) : Option Value := es.lookup key

/-- Sets the value of a key. -/
def put (es : Entries) (key : String) (v : Value) : Entries :=
  es.filter (fun e => e.1 ≠ key) ++ [(key, v)]

/-- Changes the last of some tables. -/
def changeLast (f : Entries → Option Entries) : List Entries → Option (List Entries)
  | [] => none
  | [es] => do return [← f es]
  | es :: rest => do return es :: (← changeLast f rest)

/-- Adds a value under a dotted key. No key is set twice, and only a table that dotted keys made
takes a value; at the start of the key that is not asked. -/
def insertKey (takes : Bool) : List String → Value → Entries → Option Entries
  | [], _, _ => none
  | [key], v, es => if takes && (es.find? key).isNone then some (es.put key v) else none
  | key :: keys, v, es =>
    match es.find? key with
    | none => do return es.put key (.table .dotted (← insertKey true keys v []))
    | some (.table .dotted inner) => do
      return es.put key (.table .dotted (← insertKey true keys v inner))
    | some (.table .implied inner) => do
      return es.put key (.table .implied (← insertKey false keys v inner))
    | some (.tables each) => do
      return es.put key (.tables (← changeLast (insertKey false keys v) each))
    | some _ => none

/-- Changes the table at the path of a heading. Of repeated tables the last one is meant. -/
def changeAt (f : Entries → Option Entries) : List String → Entries → Option Entries
  | [], es => f es
  | key :: keys, es =>
    match es.find? key with
    | none => do return es.put key (.table .implied (← changeAt f keys []))
    | some (.table .value _) => none
    | some (.table origin inner) => do return es.put key (.table origin (← changeAt f keys inner))
    | some (.tables each) => do return es.put key (.tables (← changeLast (changeAt f keys) each))
    | some _ => none

end Entries

/-- What a heading opens: nothing at the top, a table, or one more of some repeated tables. -/
inductive Heading where
  | top
  | table (path : List String)
  | tables (path : List String)

/-- A heading and the keys and values below it. -/
structure Section where
  heading : Heading
  members : List (List String × Value)

namespace Section

/-- Adds the members of a section to a table. -/
def fill (s : Section) (es : Entries) : Option Entries :=
  s.members.foldlM (fun es (key, v) => es.insertKey true key v) es

/-- Adds a section to what was read before it. -/
def addTo (s : Section) (root : Entries) : Option Entries :=
  match s.heading with
  | .top => s.fill root
  | .table path =>
    match path.getLast? with
    | none => none
    | some key => Entries.changeAt (fun es =>
        match es.find? key with
        | none => do return es.put key (.table .heading (← s.fill []))
        | some (.table .implied inner) => do return es.put key (.table .heading (← s.fill inner))
        | some _ => none) path.dropLast root
  | .tables path =>
    match path.getLast? with
    | none => none
    | some key => Entries.changeAt (fun es =>
        match es.find? key with
        | none => do return es.put key (.tables [← s.fill []])
        | some (.tables each) => do return es.put key (.tables (each ++ [← s.fill []]))
        | some _ => none) path.dropLast root

end Section
end EbmsMessaging.Toml
