import EbmsMessaging.Text.Digits

/-!
# Blanks, comments and texts in settings

Lines end with a line feed, before which a carriage return may stand. Texts are written between
double quotes, with escapes, or between single quotes, without; three quotes begin a text of several
lines, whose first line may be empty. No control character but the tab may stand anywhere.
-/
namespace EbmsMessaging.Toml

open Text (hexDigit?)

/-- Whether a character may stand in a comment or a text. -/
def isPrintable (c : Char) : Bool := c == '\t' || (0x20 ≤ c.toNat && c.toNat != 0x7F)

def skipBlanks (cs : List Char) : List Char := cs.dropWhile fun c => c == ' ' || c == '\t'

/-- What follows the end of a line. -/
def lineEnd? : List Char → Option (List Char)
  | '\n' :: rest => some rest
  | '\r' :: '\n' :: rest => some rest
  | _ => none

/-- What follows a comment, if one begins here. -/
def skipComment (cs : List Char) : List Char :=
  match cs with
  | '#' :: rest => rest.dropWhile isPrintable
  | _ => cs

/-- What follows a line that holds nothing more. -/
def restOfLine? (cs : List Char) : Option (List Char) :=
  match skipComment (skipBlanks cs) with
  | [] => some []
  | cs => lineEnd? cs

/-- Passes over blanks, comments and ends of lines, at most `fuel` of them. -/
def skipLinesFrom : Nat → List Char → List Char
  | 0, cs => cs
  | fuel + 1, cs =>
    let cs := skipComment (skipBlanks cs)
    match lineEnd? cs with
    | some rest => skipLinesFrom fuel rest
    | none => cs

def skipLines (cs : List Char) : List Char := skipLinesFrom (cs.length + 1) cs

/-- The character with a number of `width` hexadecimal digits. -/
def numbered? (width : Nat) (cs : List Char) : Option (Char × List Char) := do
  let digits ← (cs.take width).mapM hexDigit?
  let n := digits.foldl (fun n d => 16 * n + d) 0
  if digits.length = width ∧ n.isValidChar then some (Char.ofNat n, cs.drop width) else none

/-- The character of an escape, after its backslash. -/
def escape? : List Char → Option (Char × List Char)
  | 'b' :: rest => some ('\x08', rest)
  | 'f' :: rest => some ('\x0c', rest)
  | 'n' :: rest => some ('\n', rest)
  | 'r' :: rest => some ('\r', rest)
  | 't' :: rest => some ('\t', rest)
  | '\\' :: rest => some ('\\', rest)
  | '\x22' :: rest => some ('\x22', rest)
  | 'u' :: rest => numbered? 4 rest
  | 'U' :: rest => numbered? 8 rest
  | _ => none

/-- The rest of a text on one line, up to its closing quote. -/
def lineText (mark : Char) : Nat → (before : List Char) → List Char → Option (String × List Char)
  | 0, _, _ => none
  | _, _, [] => none
  | fuel + 1, before, c :: rest =>
    if c = mark then some (String.ofList before.reverse, rest)
    else if c = '\\' ∧ mark = '\x22' then do
      let (e, rest) ← escape? rest
      lineText mark fuel (e :: before) rest
    else if isPrintable c then lineText mark fuel (c :: before) rest
    else none

/-- Passes over blanks and ends of lines, at most `fuel` of them. -/
def skipBlankLinesFrom : Nat → List Char → List Char
  | 0, cs => cs
  | fuel + 1, cs =>
    match lineEnd? (skipBlanks cs) with
    | some rest => skipBlankLinesFrom fuel rest
    | none => skipBlanks cs

/-- What follows a backslash at the end of a line: the next text that is not blank. -/
def continuation? (cs : List Char) : Option (List Char) := do
  let rest ← lineEnd? (skipBlanks cs)
  return skipBlankLinesFrom (rest.length + 1) rest

/-- The rest of a text of several lines. Up to two quotes may stand before the closing three. -/
def linesText (mark : Char) : Nat → (before : List Char) → List Char → Option (String × List Char)
  | 0, _, _ => none
  | _, _, [] => none
  | fuel + 1, before, c :: rest =>
    if c = mark then
      let run := ((c :: rest).takeWhile fun d => d = mark).length
      if run < 3 then linesText mark fuel (c :: before) rest
      else
        let extra := min (run - 3) 2
        some (String.ofList ((List.replicate extra mark ++ before).reverse),
          (c :: rest).drop (extra + 3))
    else if c = '\\' ∧ mark = '\x22' then
      match continuation? rest with
      | some rest => linesText mark fuel before rest
      | none => do
        let (e, rest) ← escape? rest
        linesText mark fuel (e :: before) rest
    else match lineEnd? (c :: rest) with
      | some rest => linesText mark fuel ('\n' :: before) rest
      | none => if isPrintable c then linesText mark fuel (c :: before) rest else none

/-- A text on one line. -/
def quotedLine? : List Char → Option (String × List Char)
  | '\x22' :: rest => lineText '\x22' (rest.length + 1) [] rest
  | '\x27' :: rest => lineText '\x27' (rest.length + 1) [] rest
  | _ => none

/-- A text after the three quotes that begin it. -/
def quotedLines (mark : Char) (cs : List Char) : Option (String × List Char) :=
  let cs := (lineEnd? cs).getD cs
  linesText mark (cs.length + 1) [] cs

/-- A text of either kind. -/
def quoted? (cs : List Char) : Option (String × List Char) :=
  match cs with
  | '\x22' :: '\x22' :: '\x22' :: rest => quotedLines '\x22' rest
  | '\x27' :: '\x27' :: '\x27' :: rest => quotedLines '\x27' rest
  | _ => quotedLine? cs

/-- Whether a character may stand in a key without quotes. -/
def isKeyChar (c : Char) : Bool := c.isAlphanum || c == '_' || c == '-'

/-- One part of a key. -/
def keyPart? (cs : List Char) : Option (String × List Char) :=
  match cs.takeWhile isKeyChar with
  | [] => quotedLine? cs
  | part => some (String.ofList part, cs.dropWhile isKeyChar)

/-- The parts of a key, with points between them and blanks around each, and their number. -/
def keyParts : Nat → List Char → Option (List String × List Char)
  | 0, _ => none
  | fuel + 1, cs => do
    let (part, rest) ← keyPart? (skipBlanks cs)
    match skipBlanks rest with
    | '.' :: rest => do
      let (parts, rest) ← keyParts fuel rest
      return (part :: parts, rest)
    | rest => return ([part], rest)

/-- From this depth on, keys and values are nested too deeply. -/
def nestingLimit : Nat := 80

/-- A key of fewer parts than the limit. -/
def key? (cs : List Char) : Option (List String × List Char) := keyParts (nestingLimit - 1) cs

end EbmsMessaging.Toml
