import EbmsMessaging.Text.Blank
import EbmsMessaging.Timestamp.Basic

/-!
# Reading timestamps

A timestamp is read from `year-month-day`, a separator, `hour:minute:second` with optional decimals,
and a zone. Blanks may stand before each number and each mark. A zone with an offset moves the time
by less than a day, so the date moves by at most one day.
-/
namespace EbmsMessaging.Timestamp

open Text (isBlank)

/-- What is left after the leading blanks. -/
def skipBlanks (cs : List Char) : List Char := cs.dropWhile isBlank

/-- The number that a run of digits stands for. -/
def digitsValue (cs : List Char) : Nat := cs.foldl (fun n c => 10 * n + (c.toNat - 48)) 0

/-- Up to `most` digits, but at least one, and what follows them. -/
def number? (most : Nat) (cs : List Char) : Option (Nat × List Char) :=
  let digits := (cs.take most).takeWhile Char.isDigit
  if digits.isEmpty then none else some (digitsValue digits, cs.drop digits.length)

/-- A sign admits any number of digits; without one a year has at most four. -/
def year? (cs : List Char) : Option (Int × List Char) :=
  match cs with
  | '-' :: rest => (number? rest.length rest).map fun (n, rest) => (-(n : Int), rest)
  | '+' :: rest => (number? rest.length rest).map fun (n, rest) => ((n : Int), rest)
  | _ => (number? 4 cs).map fun (n, rest) => ((n : Int), rest)

/-- The mark `c` and nothing else. -/
def mark? (c : Char) (cs : List Char) : Option (List Char) :=
  match cs with
  | d :: rest => if d = c then some rest else none
  | [] => none

/-- The separator of date and time. Of the blanks only the space separates. -/
def separator? : List Char → Option (List Char)
  | c :: rest => if c = 'T' ∨ c = 't' ∨ c = ' ' then some rest else none
  | [] => none

/-- Optional decimals, in nanoseconds; digits past the ninth are dropped. -/
def fraction? : List Char → Option (Nat × List Char)
  | '.' :: rest =>
    let digits := rest.takeWhile Char.isDigit
    if digits.isEmpty then none
    else
      let kept := digits.take 9
      some (digitsValue kept * Nat.pow 10 (9 - kept.length), rest.drop digits.length)
  | cs => some (0, cs)

/-- Two digits below `bound`. -/
def twoDigits? (bound : Nat) : List Char → Option (Nat × List Char)
  | a :: b :: rest =>
    if a.isDigit ∧ b.isDigit ∧ digitsValue [a, b] < bound then some (digitsValue [a, b], rest)
    else none
  | _ => none

/-- The minutes of an offset after its sign. Colons and blanks between its parts are skipped. -/
def offset? (cs : List Char) : Option (Int × List Char) := do
  let (hours, cs) ← twoDigits? 24 cs
  let (minutes, cs) ← twoDigits? 60 (cs.dropWhile fun c => c = ':' ∨ isBlank c)
  some (((60 * hours + minutes : Nat) : Int), cs)

/-- The zone as the minutes by which it is ahead of universal time. -/
def zone? : List Char → Option (Int × List Char)
  | 'Z' :: rest | 'z' :: rest => some (0, rest)
  | '+' :: rest => offset? rest
  | '-' :: rest | '\u2212' :: rest => (offset? rest).map fun (m, rest) => (-m, rest)
  | a :: b :: c :: rest =>
    if [a, b, c].map Char.toUpper = ['U', 'T', 'C'] then some (0, rest) else none
  | _ => none

/-- The instant whose local time in a zone `ahead` minutes ahead has these parts. -/
def ofLocal? (date : Date) (hour minute second nano : Nat) (ahead : Int) : Option Timestamp := do
  let minutes := 60 * (hour : Int) + minute - ahead
  let date ←
    if minutes < 0 then date.previous?
    else if 1440 ≤ minutes then date.next?
    else some date
  let minutes := (minutes % 1440).toNat
  if h : minutes / 60 < 24 ∧ minutes % 60 < 60 ∧ second ≤ 60 ∧ nano < 1000000000 then
    some ⟨date, minutes / 60, minutes % 60, second, nano, h⟩
  else none

/-- The timestamp that a text stands for. -/
def ofChars? (cs : List Char) : Option Timestamp := do
  let (year, cs) ← year? (skipBlanks cs)
  let cs ← mark? '-' (skipBlanks cs)
  let (month, cs) ← number? 2 (skipBlanks cs)
  let cs ← mark? '-' (skipBlanks cs)
  let (day, cs) ← number? 2 (skipBlanks cs)
  let cs ← separator? cs
  let (hour, cs) ← number? 2 (skipBlanks cs)
  let cs ← mark? ':' (skipBlanks cs)
  let (minute, cs) ← number? 2 (skipBlanks cs)
  let cs ← mark? ':' (skipBlanks cs)
  let (second, cs) ← number? 2 (skipBlanks cs)
  let (nano, cs) ← fraction? cs
  let (ahead, cs) ← zone? (skipBlanks cs)
  guard (cs.all isBlank)
  let date ← Date.of? year month day
  guard (hour < 24 ∧ minute < 60)
  ofLocal? date hour minute second nano ahead

def ofText? (s : String) : Option Timestamp := ofChars? s.toList

end EbmsMessaging.Timestamp
