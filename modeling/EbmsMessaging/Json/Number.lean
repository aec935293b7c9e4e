import EbmsMessaging.BinaryDouble
import EbmsMessaging.Json.Lexical

/-!
# Numbers

Only integers are ever kept. A numeral with a fraction or an exponent, minus zero, and an integer
outside the 64-bit range count as real numbers, of which only two things matter: that they are no
integers, and that they are no larger than the greatest binary double.
-/
namespace EbmsMessaging.Json

/-- The parts of a numeral, without its sign. -/
structure Numeral where
  whole : List Nat
  fraction : List Nat
  exponent : Int
  /-- Neither a fraction nor an exponent is written. -/
  plain : Bool

/-- What a numeral counts as. -/
inductive Number where
  | natural (n : Nat)
  | negative (n : Nat)
  | real
deriving DecidableEq, Repr

/-- The run of digits at the start of a text, and what follows it. -/
def digits (input : Bytes) : List Nat × Bytes :=
  ((input.takeWhile isDigit).map fun b => b.toNat - 0x30, input.dropWhile isDigit)

/-- A run of at least one digit. -/
def someDigits (input : Bytes) : Except Fault (List Nat × Bytes) :=
  match digits input with
  | ([], rest) => .error (if rest.isEmpty then .truncated else .malformed)
  | (ds, rest) => .ok (ds, rest)

/-- The number that digits stand for. -/
def ofDigits (ds : List Nat) : Nat := ds.foldl (fun n d => 10 * n + d) 0

/-- The whole part: a zero stands alone. -/
def wholePart (input : Bytes) : Except Fault (List Nat × Bytes) := do
  let (ds, rest) ← someDigits input
  match ds with
  | 0 :: _ :: _ => .error .malformed
  | _ => .ok (ds, rest)

/-- The digits behind a point, if there is one. -/
def fractionPart : Bytes → Except Fault (Option (List Nat) × Bytes)
  | b :: rest =>
    if b = point then do
      let (ds, rest) ← someDigits rest
      .ok (some ds, rest)
    else .ok (none, b :: rest)
  | [] => .ok (none, [])

/-- The sign of an exponent, and what follows it. -/
def exponentSign : Bytes → Int × Bytes
  | b :: rest => if b = plus then (1, rest) else if b = minus then (-1, rest) else (1, b :: rest)
  | [] => (1, [])

/-- The exponent, if there is one. -/
def exponentPart : Bytes → Except Fault (Option Int × Bytes)
  | b :: rest =>
    if b = 0x65 ∨ b = 0x45 then do
      let (sign, rest) := exponentSign rest
      let (ds, rest) ← someDigits rest
      .ok (some (sign * ofDigits ds), rest)
    else .ok (none, b :: rest)
  | [] => .ok (none, [])

/-- A numeral after its sign. -/
def numeral (input : Bytes) : Except Fault (Numeral × Bytes) := do
  let (whole, rest) ← wholePart input
  let (fraction, rest) ← fractionPart rest
  let (exponent, rest) ← exponentPart rest
  .ok (⟨whole, fraction.getD [], exponent.getD 0, fraction.isNone && exponent.isNone⟩, rest)

/-- The digits that still fit into 64 bits after `n`, as a number, and the count of the others. -/
def leading (n : Nat) : List Nat → Nat × Nat
  | [] => (n, 0)
  | d :: ds => if 10 * n + d < UInt64.size then leading (10 * n + d) ds else (n, ds.length + 1)

/-- The leading digits as a whole number, and the power of ten that scales them. -/
def Numeral.scaled (x : Numeral) : Nat × Int :=
  let (n, dropped) := leading 0 x.whole
  let (n, unused) := leading n x.fraction
  (n, x.exponent + dropped - (x.fraction.length - unused : Nat))

/-- Too large for a double. Significand and power of ten are rounded before they are multiplied. -/
def Numeral.tooLarge (x : Numeral) : Bool :=
  let (n, scale) := x.scaled
  0 < scale && n != 0 &&
    (308 < scale ||
      BinaryDouble.bound ≤ BinaryDouble.nearest n * BinaryDouble.nearest (Nat.pow 10 scale.toNat))

/-- What a numeral counts as, unless it is too large. -/
def Numeral.value (isNegative : Bool) (x : Numeral) : Except Fault Number :=
  let n := ofDigits x.whole
  if x.plain ∧ isNegative = false ∧ n < UInt64.size then .ok (.natural n)
  else if x.plain ∧ isNegative = true ∧ 0 < n ∧ n ≤ 1 <<< 63 then .ok (.negative n)
  else if x.tooLarge then .error .malformed
  else .ok .real

/-- A number, sign included. -/
def number : Bytes → Except Fault (Number × Bytes)
  | b :: rest =>
    if b = minus then do
      let (x, rest) ← numeral rest
      let n ← x.value true
      .ok (n, rest)
    else do
      let (x, rest) ← numeral (b :: rest)
      let n ← x.value false
      .ok (n, rest)
  | [] => .error .truncated

/-- What follows a number that is passed over. Its end may not be the end of the text. -/
def skipNumber (input : Bytes) : Except Fault Bytes :=
  let body := match input with
    | b :: rest => if b = minus then rest else b :: rest
    | [] => []
  match numeral body with
  | .ok (_, rest) => .ok rest
  | .error _ => .error .malformed

/-- The decimal form of a number. -/
def writeNumber (n : Nat) : Bytes := (Nat.toDigits 10 n).map fun c => c.toNat.toUInt8

end EbmsMessaging.Json
