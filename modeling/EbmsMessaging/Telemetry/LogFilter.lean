import EbmsMessaging.Telemetry.Pattern.Reader
import EbmsMessaging.Text.Split
import EbmsMessaging.Text.Window

/-!
# Log filters

A log filter is a list of directives between commas. A directive is a level, or a target and a level
behind an equals sign; a span in brackets, with fields in braces, may stand before the level. A
directive without a level, and one whose text is no level, lets everything of its target through. A
field may be compared with a number or with a pattern.
-/
namespace EbmsMessaging.LogFilter

open Text (byteSize window?)

/-- The levels, in words; they also go by their numbers from zero to five. -/
def levels : List String := ["off", "error", "warn", "info", "debug", "trace"]

/-- Whether a text names a level. The empty one does. -/
def isLevel (cs : List Char) : Bool :=
  let digits := match cs with
    | '+' :: rest => rest
    | _ => cs
  let isNumber := digits ≠ [] && digits.all Char.isDigit &&
    digits.foldl (fun n c => 10 * n + (c.toNat - 48)) 0 ≤ 5
  cs.isEmpty || isNumber || levels.any fun level => Text.sameIgnoringCase (String.ofList cs) level

/-- What follows a sign, if there is one. -/
def afterSign : List Char → List Char
  | '+' :: rest => rest
  | '-' :: rest => rest
  | cs => cs

/-- Whether a text is the exponent of a number, or empty. -/
def isExponent : List Char → Bool
  | [] => true
  | c :: rest =>
    let digits := afterSign rest
    (c == 'e' || c == 'E') && !digits.isEmpty && digits.all Char.isDigit

/-- Whether a text is a number. Digits may be missing on one side of the point, and there are words
for numbers without digits. -/
def isNumber (cs : List Char) : Bool :=
  let cs := afterSign cs
  let whole := cs.takeWhile Char.isDigit
  let rest := cs.drop whole.length
  let (fraction, rest) := match rest with
    | '.' :: rest => (rest.takeWhile Char.isDigit, rest.dropWhile Char.isDigit)
    | _ => ([], rest)
  !(whole ++ fraction).isEmpty && isExponent rest ||
    ["inf", "infinity", "nan"].any (Text.sameIgnoringCase (String.ofList cs))

/-- Whether a field can be compared as its text says. What follows a second equals sign is left
out. -/
def isField (cs : List Char) : Bool :=
  match Text.splitAll '=' cs with
  | _ :: value :: _ => isNumber value || Pattern.isPattern value
  | _ => true

/-- Whether a character may begin a directive that has no span in front. -/
def isStart (c : Char) : Bool := Text.isAlphanumeric c || c == '-' || c == ':' || c == '_'

/-- The parts of a directive that are not taken as they are. -/
structure Directive where
  /-- The fields of the span, and what stands before them. -/
  fields : Option (List Char × List Char)
  /-- What stands behind the equals sign. -/
  level : Option (List Char)

/-- A directive from behind its span. -/
def afterSpan? (fields : Option (List Char × List Char)) : List Char → Option Directive
  | [] => some ⟨fields, none⟩
  | '=' :: level => some ⟨fields, some level⟩
  | _ => none

/-- A directive from its span on, after the bracket and what stands before that. -/
def ofSpan? (before : List Char) (cs : List Char) : Option Directive :=
  let name := cs.takeWhile fun c => c ≠ ']' ∧ c ≠ '\x7b'
  match cs.drop name.length with
  | ']' :: rest => afterSpan? none rest
  | '\x7b' :: rest =>
    let fields := rest.takeWhile (· ≠ '\x7d')
    match rest.drop fields.length with
    | _ :: ']' :: rest =>
      if fields.isEmpty then none else afterSpan? (some (fields, before ++ name ++ ['\x7b'])) rest
    | _ => none
  | _ => none

/-- A directive without blanks around it. -/
def directive? (cs : List Char) : Option Directive :=
  let target := cs.takeWhile fun c => c ≠ '=' ∧ c ≠ '['
  if cs.head?.all fun c => c ≠ '[' ∧ !isStart c then none
  else match cs.drop target.length with
    | [] => some ⟨none, none⟩
    | '=' :: level => some ⟨none, some level⟩
    | _ :: rest => ofSpan? (target ++ ['[']) rest

/-- Whether a directive can be read. Blanks around it are passed over when its parts are found, but
the places of the parts are counted without blanks in front and looked up with them. A level is then
never found whole. -/
def isDirective (cs : List Char) : Bool :=
  let inner := Text.stripChars Text.isBlank cs
  match directive? inner with
  | none => false
  | some d =>
    d.fields.all (fun (fields, before) =>
      (window? (byteSize before) (byteSize fields) cs).all isField) &&
    d.level.all fun level => inner == cs && isLevel level

/-- Whether every directive of a filter can be read. Empty ones are passed over. -/
def isValid (s : String) : Bool :=
  ((Text.splitAll ',' s.toList).filter fun piece => !piece.isEmpty).all isDirective

end EbmsMessaging.LogFilter
