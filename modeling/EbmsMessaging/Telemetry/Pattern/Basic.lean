import EbmsMessaging.Text.Blank
import EbmsMessaging.Text.Digits

/-!
# Places of patterns

A pattern is a regular expression for text. Its flags say how it is laid out and what its places
match. Patterns are matched without tables of Unicode and one byte at a time. So a class of
characters that such a table would list is not to be had, nor the edge of a word in Unicode text,
nor letters of Unicode without regard to their case. A pattern for bytes can match those of ASCII
only, since all it matches is to be text.
-/
namespace EbmsMessaging.Pattern

open Text (isBlank hexDigit?)

structure Flags where
  ignoresCase : Bool
  /-- Whether the pattern is one for characters; otherwise it is one for bytes. -/
  unicode : Bool
  /-- Whether blanks and comments may stand between the parts. -/
  spaced : Bool
deriving DecidableEq, Repr

namespace Flags

def standard : Flags := ⟨false, true, false⟩

/-- Whether these letters change flags: each is a flag and stands once, and a hyphen stands in front
of those that are switched off. -/
def isChange (letters : List Char) : Bool :=
  letters.all (fun c => c ∈ ['i', 'm', 's', 'u', 'x', 'R', 'U', '-']) && decide letters.Nodup &&
    letters.getLast? ≠ some '-'

/-- The flags after a change. -/
def change (f : Flags) (letters : List Char) : Flags :=
  let flag (c : Char) (before : Bool) : Bool :=
    c ∈ letters.takeWhile (· ≠ '-') || before && c ∉ letters
  ⟨flag 'i' f.ignoresCase, flag 'u' f.unicode, flag 'x' f.spaced⟩

/-- What is left after blanks and comments. A comment ends with its line. -/
def skipFiller (inComment : Bool) : List Char → List Char
  | [] => []
  | c :: cs =>
    if inComment then skipFiller (c ≠ '\n') cs
    else if c = '#' then skipFiller true cs
    else if isBlank c then skipFiller false cs
    else c :: cs

/-- What is left after everything that the flags pass over. -/
def skip (f : Flags) (cs : List Char) : List Char := if f.spaced then skipFiller false cs else cs

/-- The next character that is not passed over. Of a comment only its mark and the blanks behind it
are passed over here. -/
def peek (f : Flags) (cs : List Char) : Option Char :=
  if f.spaced then
    match cs.dropWhile isBlank with
    | '#' :: rest => (rest.dropWhile isBlank).head?
    | rest => rest.head?
  else cs.head?

end Flags

/-- What one place of a pattern matches. -/
inductive Place where
  /-- A character; the flag says that it is written as a byte. -/
  | char (c : Char) (isByte : Bool)
  | anyChar
  /-- Digits, blanks or the characters of words, or all others. -/
  | kind (isNegated : Bool)
  /-- The start or end of a line or of the text. -/
  | edge
  | wordEdge
deriving DecidableEq, Repr

namespace Place

/-- Whether a place can be matched. -/
def isMatchable (f : Flags) : Place → Bool
  | char c isByte => if f.unicode then !f.ignoresCase else !isByte || c.toNat < 128
  | anyChar => f.unicode
  | kind isNegated => !f.unicode && !isNegated
  | edge => true
  | wordEdge => !f.unicode

/-- Whether a place can be a member of a set. -/
def isMember (f : Flags) : Place → Bool
  | char c _ => if f.unicode then !f.ignoresCase else c.toNat < 128
  | kind isNegated => !f.unicode && !isNegated
  | _ => false

end Place

/-- The character with a number of `width` hexadecimal digits; `n` stands for those read already. -/
def numbered? (f : Flags) : (width : Nat) → (n : Nat) → List Char → Option (Char × List Char)
  | 0, n, cs => if n.isValidChar then some (Char.ofNat n, cs) else none
  | width + 1, n, cs =>
    match f.skip cs with
    | [] => none
    | c :: rest => do numbered? f width (16 * n + (← hexDigit? c)) rest

/-- What a letter or a digit stands for behind a backslash, unless it begins a number. -/
def letterEscape? (c : Char) : Option Place :=
  match c with
  | 'a' => some (.char '\x07' false)
  | 'f' => some (.char '\x0c' false)
  | 'n' => some (.char '\n' false)
  | 'r' => some (.char '\r' false)
  | 't' => some (.char '\t' false)
  | 'v' => some (.char '\x0b' false)
  | 'd' | 's' | 'w' => some (.kind false)
  | 'D' | 'S' | 'W' => some (.kind true)
  | 'A' | 'z' => some .edge
  | 'b' | 'B' => some .wordEdge
  | _ => none

/-- A place written with a backslash, after the backslash. Every mark of ASCII stands for itself,
but angle brackets for the edges of words. -/
def escape? (f : Flags) : List Char → Option (Place × List Char)
  | [] => none
  | 'x' :: rest => (numbered? f 2 0 rest).map fun (c, rest) => (.char c true, rest)
  | 'u' :: rest => (numbered? f 4 0 rest).map fun (c, rest) => (.char c false, rest)
  | 'U' :: rest => (numbered? f 8 0 rest).map fun (c, rest) => (.char c false, rest)
  | c :: rest =>
    if c.isAlphanum then (letterEscape? c).map fun p => (p, rest)
    else if c = '<' ∨ c = '>' then some (.wordEdge, rest)
    else if c.toNat < 128 then some (.char c false, rest)
    else none

end EbmsMessaging.Pattern
