import EbmsMessaging.Toml.Scalar

/-!
# Reading settings

A settings text is a sequence of lines: headings, and keys with their values. Arrays may go over
several lines and end with a comma; tables written as a value stay on one line and may not. Values
are nested less deeply than the limit.
-/
namespace EbmsMessaging.Toml

/-- The rest of an array after its opening bracket or a comma; each element is read by `item`. -/
def arrayItems (item : List Char → Option (Value × List Char)) :
    Nat → (before : List Value) → List Char → Option (List Value × List Char)
  | 0, _, _ => none
  | fuel + 1, before, cs =>
    match skipLines cs with
    | ']' :: rest => some (before.reverse, rest)
    | cs => do
      let (v, rest) ← item cs
      match skipLines rest with
      | ']' :: rest => return ((v :: before).reverse, rest)
      | ',' :: rest => arrayItems item fuel (v :: before) rest
      | _ => none

/-- A key, its mark and its value, which is read by `item`. -/
def member? (item : List Char → Option (Value × List Char)) (cs : List Char) :
    Option ((List String × Value) × List Char) := do
  let (key, rest) ← key? cs
  let (v, rest) ← item (skipBlanks (← word? ['='] rest))
  return ((key, v), rest)

/-- The rest of a table on one line, up to its closing brace. -/
def tableItems (item : List Char → Option (Value × List Char)) :
    Nat → Entries → List Char → Option (Entries × List Char)
  | 0, _, _ => none
  | fuel + 1, es, cs => do
    let ((key, v), rest) ← member? item cs
    let es ← es.insertKey true key v
    match skipBlanks rest with
    | '\x7d' :: rest => return (es, rest)
    | ',' :: rest => tableItems item fuel es rest
    | _ => none

/-- A value with at most `depth` arrays and tables around its parts. -/
def valueWithin : (depth : Nat) → List Char → Option (Value × List Char)
  | 0, cs =>
    match cs with
    | '\x22' :: _ | '\x27' :: _ => (quoted? cs).map fun (s, rest) => (.text s, rest)
    | _ => scalar? cs
  | depth + 1, cs =>
    match cs with
    | '\x22' :: _ | '\x27' :: _ => (quoted? cs).map fun (s, rest) => (.text s, rest)
    | '[' :: rest =>
      (arrayItems (valueWithin depth) (rest.length + 1) [] rest).map fun (items, rest) =>
        (.array items, rest)
    | '\x7b' :: rest =>
      match skipBlanks rest with
      | '\x7d' :: rest => some (.table .value [], rest)
      | rest =>
        (tableItems (valueWithin depth) (rest.length + 1) [] rest).map fun (es, rest) =>
          (.table .value es, rest)
    | _ => scalar? cs

/-- A value. -/
def value? (cs : List Char) : Option (Value × List Char) := valueWithin (nestingLimit - 1) cs

/-- A heading with its brackets. -/
def heading? (cs : List Char) : Option (Heading × List Char) :=
  match cs with
  | '[' :: '[' :: rest => do
    let (path, rest) ← key? rest
    return (.tables path, ← word? [']', ']'] rest)
  | '[' :: rest => do
    let (path, rest) ← key? rest
    return (.table path, ← word? [']'] rest)
  | _ => none

/-- The sections of a text. `before` holds the finished ones and `current` the one being read, all
reversed. -/
def sections : Nat → (before : List Section) → (current : Section) → List Char →
    Option (List Section)
  | 0, _, _, _ => none
  | fuel + 1, before, current, cs =>
    let finished : Section := { current with members := current.members.reverse }
    match skipLines cs with
    | [] => some (finished :: before).reverse
    | '[' :: rest => do
      let (heading, rest) ← heading? ('[' :: rest)
      sections fuel (finished :: before) ⟨heading, []⟩ (← restOfLine? rest)
    | cs => do
      let (m, rest) ← member? value? cs
      sections fuel before { current with members := m :: current.members } (← restOfLine? rest)

/-- The tables of a whole text. A byte order mark at its start is passed over. -/
def ofText? (s : String) : Option Entries := do
  let cs := match s.toList with
    | '\ufeff' :: rest => rest
    | cs => cs
  let all ← sections (cs.length + 1) [] ⟨.top, []⟩ cs
  all.foldlM (fun root section' => section'.addTo root) []

end EbmsMessaging.Toml
