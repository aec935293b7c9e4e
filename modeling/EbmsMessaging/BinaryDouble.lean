/-!
# Binary doubles

Numbers with a fraction are never kept, so of their binary form only the rounding of large numbers
and the greatest finite one matter.
-/
namespace EbmsMessaging.BinaryDouble

/-- The nearest number with 53 significant bits; a tie goes to the even one. -/
def nearest (n : Nat) : Nat :=
  if n < 1 <<< 53 then n
  else
    let unit := 1 <<< (n.log2 - 52)
    let q := n / unit
    let r := n % unit
    (if 2 * r < unit ∨ (2 * r = unit ∧ q % 2 = 0) then q else q + 1) * unit

/-- From here on a number rounds to infinity. -/
def bound : Nat := (1 <<< 1024) - (1 <<< 970)

/-- Whether `n` times ten to the power of `scale` rounds to infinity. -/
def isInfinite (n : Nat) (scale : Int) : Bool :=
  let width := (Nat.toDigits 10 n).length
  if n = 0 then false
  else if width + scale ≤ 308 then false
  else if 310 < width + scale then true
  else if 0 ≤ scale then bound ≤ n * Nat.pow 10 scale.toNat
  else bound * Nat.pow 10 scale.natAbs ≤ n

end EbmsMessaging.BinaryDouble
