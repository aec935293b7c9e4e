import EbmsMessaging.Json.Fault
import EbmsMessaging.Text.Utf8

/-!
# The octets of JSON

Names for the octets that have a meaning of their own, blanks between the parts of a text, and
the literal words.
-/
namespace EbmsMessaging.Json

@[match_pattern] abbrev quote : UInt8 := 0x22
@[match_pattern] abbrev backslash : UInt8 := 0x5C
@[match_pattern] abbrev comma : UInt8 := 0x2C
@[match_pattern] abbrev colon : UInt8 := 0x3A
@[match_pattern] abbrev point : UInt8 := 0x2E
@[match_pattern] abbrev plus : UInt8 := 0x2B
@[match_pattern] abbrev minus : UInt8 := 0x2D
@[match_pattern] abbrev openBracket : UInt8 := 0x5B
@[match_pattern] abbrev closeBracket : UInt8 := 0x5D
@[match_pattern] abbrev openBrace : UInt8 := 0x7B
@[match_pattern] abbrev closeBrace : UInt8 := 0x7D

/-- Space, tab, line feed and carriage return. -/
def isBlank (b : UInt8) : Bool := b == 0x20 || b == 0x09 || b == 0x0A || b == 0x0D

def isDigit (b : UInt8) : Bool := 0x30 ≤ b && b ≤ 0x39

def skipBlanks (input : Bytes) : Bytes := input.dropWhile isBlank

/-- The word `w` and nothing shorter. -/
def word (w : Bytes) : Bytes → Except Fault Bytes :=
  match w with
  | [] => fun input => .ok input
  | b :: w => fun
    | [] => .error .truncated
    | c :: rest => if c = b then word w rest else .error .malformed

/-- What stands behind the first letter of `null`, `true` and `false`. -/
def wordTail? : UInt8 → Option Bytes
  | 0x6E => some [0x75, 0x6C, 0x6C]
  | 0x74 => some [0x72, 0x75, 0x65]
  | 0x66 => some [0x61, 0x6C, 0x73, 0x65]
  | _ => none

/-- The colon between a key and its value. -/
def keyEnd (input : Bytes) : Except Fault Bytes :=
  match skipBlanks input with
  | [] => .error .truncated
  | b :: rest => if b = colon then .ok rest else .error .malformed

theorem skipBlanks_cons {b : UInt8} (h : isBlank b = false) (rest : Bytes) :
    skipBlanks (b :: rest) = b :: rest := by
  simp [skipBlanks, h]

/-- A word is read where it stands, whatever follows it. -/
theorem word_append (w rest : Bytes) : word w (w ++ rest) = .ok rest := by
  induction w with
  | nil => rfl
  | cons b w ih => simpa [word] using ih

end EbmsMessaging.Json
