import EbmsMessaging.Timestamp.Calendar

/-!
# Timestamps

An instant in universal time, to the nanosecond. Second 60 is a leap second and may follow any
minute. The text of a timestamp has as many decimals as it needs out of none, three, six and nine.
-/
namespace EbmsMessaging

structure Timestamp where
  date : Date
  hour : Nat
  minute : Nat
  second : Nat
  nano : Nat
  in_range : hour < 24 ∧ minute < 60 ∧ second ≤ 60 ∧ nano < 1000000000
deriving DecidableEq

namespace Timestamp

/-- Decimal digits, filled up with zeros on the left. -/
def padded (width n : Nat) : String :=
  let digits := Nat.toDigits 10 n
  String.ofList (List.replicate (width - digits.length) '0' ++ digits)

/-- Four digits for the years 0 to 9999; a sign and at least four digits for all others. -/
def yearText (year : Int) : String :=
  if 0 ≤ year ∧ year ≤ 9999 then padded 4 year.toNat
  else if year < 0 then "-" ++ padded 4 year.natAbs
  else "+" ++ padded 4 year.natAbs

/-- The decimals of a second. -/
def fractionText (nano : Nat) : String :=
  if nano = 0 then ""
  else if nano % 1000000 = 0 then "." ++ padded 3 (nano / 1000000)
  else if nano % 1000 = 0 then "." ++ padded 6 (nano / 1000)
  else "." ++ padded 9 nano

/-- The written form, in universal time. -/
def text (t : Timestamp) : String :=
  yearText t.date.year ++ "-" ++ padded 2 t.date.month ++ "-" ++ padded 2 t.date.day ++ "T" ++
    padded 2 t.hour ++ ":" ++ padded 2 t.minute ++ ":" ++ padded 2 t.second ++
    fractionText t.nano ++ "Z"

end Timestamp
end EbmsMessaging
