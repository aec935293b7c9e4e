import EbmsMessaging.Text.Hidden

/-!
# Texts in messages

A text that is quoted in a message to people is written between double quotes. Characters that would
not show are written by their number.
-/
namespace EbmsMessaging.Text

/-- The lower-case hexadecimal digits of a number. -/
def hexadecimal (n : Nat) : List Char := Nat.toDigits 16 n

/-- The form of one character inside a quoted text. -/
def literalChar (c : Char) : List Char :=
  match c with
  | '\x00' => ['\\', '0']
  | '\t' => ['\\', 't']
  | '\r' => ['\\', 'r']
  | '\n' => ['\\', 'n']
  | '\x22' => ['\\', '\x22']
  | '\\' => ['\\', '\\']
  | c =>
    if isHidden c then ['\\', 'u', '\x7b'] ++ hexadecimal c.toNat ++ ['\x7d']
    else [c]

/-- A text between double quotes. -/
def literal (s : String) : String :=
  String.ofList ('\x22' :: s.toList.flatMap literalChar ++ ['\x22'])

end EbmsMessaging.Text
