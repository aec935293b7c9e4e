import EbmsMessaging.Json.Skip
import EbmsMessaging.Schema
import EbmsMessaging.Timestamp.Reader

/-!
# Reading values from JSON

A text is read once, from left to right, straight into the expected shape, and the first fault ends
it. A record is written as an object, whose keys may come in any order and may include unknown ones,
or as a row: an array of its fields in the order of their declaration.
-/
namespace EbmsMessaging.Json

/-- The fault of a text at which a value of another kind was expected. A literal is read to its end
first, and its own faults come before the mismatch. -/
def unexpected (input : Bytes) : Fault :=
  let mismatched {α : Type} : Except Fault α → Fault
    | .error e => e
    | .ok _ => .mismatch .wrongType
  match input with
  | [] => .truncated
  | b :: rest =>
    if b = quote then mismatched (quoted rest)
    else if b = minus ∨ isDigit b then mismatched (number (b :: rest))
    else if b = openBracket ∨ b = openBrace then .mismatch .wrongType
    else match wordTail? b with
      | some w => mismatched (word w rest)
      | none => .malformed

/-- The next value as a string. -/
def text (input : Bytes) : Except Fault (String × Bytes) :=
  match skipBlanks input with
  | [] => .error .truncated
  | b :: rest => if b = quote then quoted rest else .error (unexpected (b :: rest))

/-- The next value as an integer below `bound`. -/
def natural (bound : Nat) (input : Bytes) : Except Fault (Nat × Bytes) :=
  match skipBlanks input with
  | [] => .error .truncated
  | b :: rest =>
    if b = minus ∨ isDigit b then do
      match ← number (b :: rest) with
      | (.natural n, rest) =>
        if n < bound then .ok (n, rest) else .error (.mismatch .wrongValue)
      | (.negative _, _) => .error (.mismatch .wrongValue)
      | (.real, _) => .error (.mismatch .wrongType)
    else .error (unexpected (b :: rest))

/-- The next value as an instant. -/
def instant (input : Bytes) : Except Fault (Timestamp × Bytes) := do
  let (s, rest) ← text input
  match Timestamp.ofText? s with
  | some t => .ok (t, rest)
  | none => .error (.mismatch .wrongValue)

/-- What stands before the next element of an array: its end, or the start of the element. -/
def nextElement (first : Bool) (input : Bytes) : Except Fault (Bool × Bytes) :=
  match skipBlanks input with
  | [] => .error .truncated
  | b :: rest =>
    if b = closeBracket then .ok (false, rest)
    else if first then .ok (true, b :: rest)
    else if b = comma then
      match skipBlanks rest with
      | [] => .error .truncated
      | c :: rest => if c = closeBracket then .error .malformed else .ok (true, c :: rest)
    else .error .malformed

/-- The elements of an array after its opening bracket, each read by `item`. Every element takes up
an octet, so the length of the text bounds their number. -/
def elements {α : Type} (item : Bytes → Except Fault (α × Bytes)) :
    Nat → (first : Bool) → (before : List α) → Bytes → Except Fault (List α × Bytes)
  | 0, _, _, _ => .error .truncated
  | fuel + 1, first, before, input => do
    match ← nextElement first input with
    | (false, rest) => .ok (before.reverse, rest)
    | (true, rest) =>
      let (a, rest) ← item rest
      elements item fuel false (a :: before) rest

/-- The next value as an array. -/
def array {α : Type} (item : Bytes → Except Fault (α × Bytes)) (input : Bytes) :
    Except Fault (List α × Bytes) :=
  match skipBlanks input with
  | [] => .error .truncated
  | b :: rest =>
    if b = openBracket then elements item (rest.length + 1) true [] rest
    else .error (unexpected (b :: rest))

/-- What stands before the next value of an object: its end, or a key. -/
def nextKey (first : Bool) (input : Bytes) : Except Fault (Option String × Bytes) :=
  let key : Bytes → Except Fault (Option String × Bytes)
    | [] => .error .truncated
    | b :: rest =>
      if b = quote then do
        let (name, rest) ← quoted rest
        .ok (some name, rest)
      else .error .malformed
  match skipBlanks input with
  | [] => .error .truncated
  | b :: rest =>
    if b = closeBrace then .ok (none, rest)
    else if first then key (b :: rest)
    else if b = comma then key (skipBlanks rest)
    else .error .malformed

/-- The members of an object after its opening brace. Each is added to what was read so far. -/
def members {σ : Type} (member : String → σ → Bytes → Except Fault (σ × Bytes)) :
    Nat → (first : Bool) → σ → Bytes → Except Fault (σ × Bytes)
  | 0, _, _, _ => .error .truncated
  | fuel + 1, first, draft, input => do
    match ← nextKey first input with
    | (none, rest) => .ok (draft, rest)
    | (some name, rest) =>
      let (draft, rest) ← member name draft rest
      members member fuel false draft rest

/-- The value of a field under its rule. -/
def held {α : Type} (rule : Rule) (value : Bytes → Except Fault (α × Bytes)) (input : Bytes) :
    Except Fault (rule.Held α × Bytes) :=
  match rule.null?, skipBlanks input with
  | some none', b :: rest =>
    if b = 0x6E then do
      let rest ← word [0x75, 0x6C, 0x6C] rest
      .ok (none', rest)
    else do
      let (a, rest) ← value (b :: rest)
      .ok (rule.given a, rest)
  | _, input => do
    let (a, rest) ← value input
    .ok (rule.given a, rest)

/-- The end of a row whose fields have all been read. -/
def rowEnd (input : Bytes) : Except Fault Bytes :=
  match skipBlanks input with
  | [] => .error .truncated
  | b :: rest => if b = closeBracket then .ok rest else .error .malformed

mutual

/-- The next value in a given shape. -/
def read : (shape : Shape) → Bytes → Except Fault (shape.Value × Bytes)
  | .text, input => text input
  | .octet, input => do
    let (n, rest) ← natural UInt8.size input
    .ok (n.toUInt8, rest)
  | .word, input => do
    let (n, rest) ← natural UInt64.size input
    .ok (n.toUInt64, rest)
  | .instant, input => instant input
  | .list item, input => array (read item) input
  | .record fields, input =>
    match skipBlanks input with
    | [] => .error .truncated
    | b :: rest =>
      if b = openBrace then do
        let (draft, rest) ← members (readMember fields) (rest.length + 1) true fields.blank rest
        match fields.settle draft with
        | .ok values => .ok (values, rest)
        | .error name => .error (.mismatch (.missingField name))
      else if b = openBracket then readRow fields true rest
      else .error (unexpected (b :: rest))

/-- The member of an object whose key was just read, added to what was read so far. -/
def readMember : (fields : Fields) → String → fields.Draft → Bytes →
    Except Fault (fields.Draft × Bytes)
  | .nil, _, draft, input => do
    let rest ← skipValue (← keyEnd input)
    .ok (draft, rest)
  | .cons name rule shape rest, key, (met, draft), input =>
    if key = name then
      if met.isSome then .error (.mismatch (.duplicateField name))
      else do
        let (value, input) ← held rule (read shape) (← keyEnd input)
        .ok ((some value, draft), input)
    else do
      let (draft, input) ← readMember rest key draft input
      .ok ((met, draft), input)

/-- The fields of a row, from the first that has not been read, and its closing bracket. -/
def readRow : (fields : Fields) → (first : Bool) → Bytes → Except Fault (fields.Values × Bytes)
  | .nil, _, input => do
    let rest ← rowEnd input
    .ok ((), rest)
  | .cons _ rule shape rest, first, input => do
    match ← nextElement first input with
    | (true, input) =>
      let (value, input) ← held rule (read shape) input
      let (values, input) ← readRow rest false input
      .ok ((value, values), input)
    | (false, _) =>
      match rule.absentInRow? with
      | none => .error (.mismatch .wrongLength)
      | some value =>
        let (values, input) ← readRow rest first input
        .ok ((value, values), input)

end

/-- The value that a whole text stands for, in a given shape. -/
def readAll (shape : Shape) (input : Bytes) : Except Fault shape.Value := do
  let (value, rest) ← read shape input
  if (skipBlanks rest).isEmpty then .ok value else .error .malformed

/-- The value that a whole text stands for. -/
def parse (α : Type) [Schematic α] (input : Bytes) : Except Fault α := do
  return Schematic.ofValue (← readAll (Schematic.shape α) input)

end EbmsMessaging.Json
