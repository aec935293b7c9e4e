import EbmsMessaging.Text.Utf8

/-!
# Base64

The standard alphabet with padding: three octets become four letters, and a last group of one or
two octets is filled up with `=`.
-/
namespace EbmsMessaging.Base64

/-- The letter for six bits. -/
def letter (n : Nat) : Char :=
  if n < 26 then Char.ofNat (65 + n)
  else if n < 52 then Char.ofNat (71 + n)
  else if n < 62 then Char.ofNat (n - 4)
  else if n = 62 then '+'
  else '/'

/-- The letters of a byte sequence, group by group. -/
def letters : Bytes → List Char
  | [] => []
  | [a] =>
    let n := a.toNat * 16
    [letter (n / 64), letter (n % 64), '=', '=']
  | [a, b] =>
    let n := (a.toNat * 256 + b.toNat) * 4
    [letter (n / 4096), letter (n / 64 % 64), letter (n % 64), '=']
  | a :: b :: c :: rest =>
    let n := (a.toNat * 256 + b.toNat) * 256 + c.toNat
    letter (n / 262144) :: letter (n / 4096 % 64) :: letter (n / 64 % 64) :: letter (n % 64) ::
      letters rest

/-- The padded standard form of a byte sequence. -/
def encode (b : Bytes) : String := String.ofList (letters b)

@[simp] theorem encode_nil : encode [] = "" := rfl

/-- Four letters for every three octets begun. -/
theorem length_letters (b : Bytes) : (letters b).length = (b.length + 2) / 3 * 4 := by
  fun_induction letters b with
  | case1 => rfl
  | case2 => simp
  | case3 => simp
  | case4 a b c rest n ih =>
    simp only [List.length_cons, ih]
    omega

end EbmsMessaging.Base64
