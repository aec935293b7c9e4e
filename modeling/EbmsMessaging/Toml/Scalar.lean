import EbmsMessaging.BinaryDouble
import EbmsMessaging.Timestamp.Calendar
import EbmsMessaging.Toml.Lexical
import EbmsMessaging.Toml.Value

/-!
# Numbers, dates and truth values in settings

Single underscores may stand between digits. Integers are decimal, hexadecimal, octal or binary and
have 64 bits. A number with a fraction or an exponent may not be too large, unless it is negative. A
date, a time of day, or both with or without an offset, are one value.
-/
namespace EbmsMessaging.Toml

open Text (hexDigit?)

/-- The digits at the start of a text, with single underscores between them. -/
def digitsFrom (isDigit : Char → Bool) : List Char → List Char × List Char
  | [] => ([], [])
  | '_' :: c :: rest =>
    if isDigit c then
      let (ds, after) := digitsFrom isDigit rest
      (c :: ds, after)
    else ([], '_' :: c :: rest)
  | c :: rest =>
    if isDigit c then
      let (ds, after) := digitsFrom isDigit rest
      (c :: ds, after)
    else ([], c :: rest)

/-- At least one digit. -/
def digits? (isDigit : Char → Bool) : List Char → Option (List Char × List Char)
  | [] => none
  | c :: rest =>
    if isDigit c then
      let (ds, after) := digitsFrom isDigit rest
      some (c :: ds, after)
    else none

def valueOf (base : Nat) (ds : List Char) : Nat :=
  ds.foldl (fun n d => base * n + (hexDigit? d).getD 0) 0

/-- A sign, if there is one: whether it is a minus. -/
def sign : List Char → Bool × List Char
  | '+' :: rest => (false, rest)
  | '-' :: rest => (true, rest)
  | cs => (false, cs)

/-- The digits of a decimal integer: a zero stands alone. -/
def wholeDigits? (cs : List Char) : Option (List Char × List Char) :=
  match cs with
  | '0' :: rest => some (['0'], rest)
  | _ => digits? Char.isDigit cs

def isHexDigit (c : Char) : Bool := (hexDigit? c).isSome

def isOctalDigit (c : Char) : Bool := '0' ≤ c && c ≤ '7'

def isBinaryDigit (c : Char) : Bool := c == '0' || c == '1'

/-- An integer, if it has 64 bits. -/
def bounded? (n : Int) : Option Value :=
  if Int64.minValue.toInt ≤ n ∧ n ≤ Int64.maxValue.toInt then some (.integer n) else none

/-- An integer in another base, after the letters that announce the base. -/
def based? (base : Nat) (isDigit : Char → Bool) (cs : List Char) : Option (Value × List Char) := do
  let (ds, rest) ← digits? isDigit cs
  return (← bounded? (valueOf base ds), rest)

/-- The exponent of a number, after its letter. -/
def exponent? (cs : List Char) : Option (Int × List Char) := do
  let (isNegative, cs) := sign cs
  let (ds, rest) ← digits? Char.isDigit cs
  let n : Int := valueOf 10 ds
  return (if isNegative then -n else n, rest)

/-- The exponent of a number, if it has one. -/
def exponentPart? (cs : List Char) : Option (Option Int × List Char) :=
  match cs with
  | 'e' :: rest => (exponent? rest).map fun (n, rest) => (some n, rest)
  | 'E' :: rest => (exponent? rest).map fun (n, rest) => (some n, rest)
  | _ => some (none, cs)

/-- A decimal integer or a number with a fraction or an exponent. -/
def decimal? (cs : List Char) : Option (Value × List Char) := do
  let (isNegative, cs) := sign cs
  let (whole, rest) ← wholeDigits? cs
  let (fraction, rest) ← match rest with
    | '.' :: rest => (digits? Char.isDigit rest).map fun (ds, rest) => (some ds, rest)
    | _ => some (none, rest)
  let (exponent, rest) ← exponentPart? rest
  if fraction.isNone ∧ exponent.isNone then
    let n : Int := valueOf 10 whole
    return (← bounded? (if isNegative then -n else n), rest)
  else
    let places := fraction.getD []
    let n := valueOf 10 (whole ++ places)
    if !isNegative && BinaryDouble.isInfinite n (exponent.getD 0 - places.length) then none
    else return (.otherScalar, rest)

/-- What follows a word. -/
def word? (w : List Char) (cs : List Char) : Option (List Char) :=
  if w.isPrefixOf cs then some (cs.drop w.length) else none

/-- Infinity or no number, with an optional sign. -/
def special? (cs : List Char) : Option (Value × List Char) := do
  let rest := (sign cs).2
  let rest ← (word? ['i', 'n', 'f'] rest).or (word? ['n', 'a', 'n'] rest)
  return (.otherScalar, rest)

/-- A number of `width` digits within bounds. -/
def fixed? (width least most : Nat) (cs : List Char) : Option (Nat × List Char) :=
  let ds := cs.take width
  let n := valueOf 10 ds
  if ds.length = width ∧ ds.all Char.isDigit ∧ least ≤ n ∧ n ≤ most then some (n, cs.drop width)
  else none

/-- What follows a time of day. -/
def time? (cs : List Char) : Option (List Char) := do
  let (_, cs) ← fixed? 2 0 23 cs
  let (_, cs) ← fixed? 2 0 59 (← word? [':'] cs)
  let (_, cs) ← fixed? 2 0 60 (← word? [':'] cs)
  match cs with
  | '.' :: rest =>
    if (rest.head?.map Char.isDigit).getD false then return rest.dropWhile Char.isDigit else cs
  | _ => return cs

/-- What follows an offset, if there is one. -/
def skipOffset (cs : List Char) : List Char :=
  let offset? : Option (List Char) := do
    let rest ← match cs with
      | 'Z' :: rest | 'z' :: rest => return rest
      | '+' :: rest | '-' :: rest => some rest
      | _ => none
    let (_, rest) ← fixed? 2 0 23 rest
    let (_, rest) ← fixed? 2 0 59 (← word? [':'] rest)
    return rest
  offset?.getD cs

/-- What follows a date that is in the calendar. -/
def date? (cs : List Char) : Option (List Char) := do
  let (year, cs) ← fixed? 4 0 9999 cs
  let (month, cs) ← fixed? 2 1 12 (← word? ['-'] cs)
  let (day, cs) ← fixed? 2 1 31 (← word? ['-'] cs)
  if day ≤ daysInMonth year month then return cs else none

/-- A date, a time of day, or both. -/
def moment? (cs : List Char) : Option (Value × List Char) :=
  match date? cs with
  | none => (time? cs).map fun rest => (.date, rest)
  | some rest =>
    let withTime? : Option (List Char) := match rest with
      | 'T' :: more | 't' :: more | ' ' :: more => (time? more).map skipOffset
      | _ => none
    some (.date, withTime?.getD rest)

/-- A value that is neither a text nor made of others. -/
def scalar? (cs : List Char) : Option (Value × List Char) :=
  match cs with
  | 't' :: _ => (word? ['t', 'r', 'u', 'e'] cs).map fun rest => (.otherScalar, rest)
  | 'f' :: _ => (word? ['f', 'a', 'l', 's', 'e'] cs).map fun rest => (.otherScalar, rest)
  | '0' :: 'x' :: rest => based? 16 isHexDigit rest
  | '0' :: 'o' :: rest => based? 8 isOctalDigit rest
  | '0' :: 'b' :: rest => based? 2 isBinaryDigit rest
  | _ => (moment? cs).or ((special? cs).or (decimal? cs))

end EbmsMessaging.Toml
