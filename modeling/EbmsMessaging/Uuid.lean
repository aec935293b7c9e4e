import EbmsMessaging.Text.Utf8

/-!
# Random identifiers

A random identifier of version 4 has 122 random bits and six fixed ones. It is written with 32
lower-case hexadecimal digits, plain or in groups of 8, 4, 4, 4 and 12.
-/
namespace EbmsMessaging

structure Uuid where
  random : Fin (1 <<< 122)
deriving DecidableEq

namespace Uuid

/-- The lower-case hexadecimal digit for a number below 16. -/
def hexDigit (n : Nat) : Char := if n < 10 then Char.ofNat (0x30 + n) else Char.ofNat (0x57 + n)

/-- The last `width` hexadecimal digits of a number. -/
def hexDigits : (width : Nat) → Nat → List Char
  | 0, _ => []
  | width + 1, n => hexDigits width (n / 16) ++ [hexDigit (n % 16)]

/-- The groups of digits. The third begins with the version and the fourth with the variant. -/
def groups (u : Uuid) : List (List Char) :=
  let n := u.random.val
  [hexDigits 8 (n >>> 90), hexDigits 4 (n >>> 74), '4' :: hexDigits 3 (n >>> 62),
    hexDigit (8 + (n >>> 60) % 4) :: hexDigits 3 (n >>> 48), hexDigits 12 n]

/-- The text with hyphens between the groups. -/
def text (u : Uuid) : String := String.ofList (['-'].intercalate u.groups)

/-- The text without hyphens. -/
def plainText (u : Uuid) : String := String.ofList u.groups.flatten

@[simp] theorem length_hexDigits : (width n : Nat) → (hexDigits width n).length = width
  | 0, _ => rfl
  | width + 1, n => by simp [hexDigits, length_hexDigits width]

theorem length_plainText (u : Uuid) : u.plainText.toList.length = 32 := by
  simp [plainText, groups]

end Uuid
end EbmsMessaging
