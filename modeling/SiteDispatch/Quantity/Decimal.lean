/-
  SiteDispatch.Quantity.Decimal

  Measured values as text: six decimals, rounded from the exact binary value, a
  half to the even neighbour. What rounds to zero has no sign.
-/

namespace SiteDispatch
namespace Quantity

/-- `n / d` rounded to the nearest integer, a half to the even neighbour. -/
def roundDiv (n d : Nat) : Nat :=
  let q := n / d
  let r := n % d
  if 2 * r < d then q else if d < 2 * r then q + 1 else if q % 2 = 0 then q else q + 1

/-- The magnitude of a finite number in millionths, rounded. The number is `m * 2 ^ e`
    with `m` below `2 ^ 53`. -/
def millionths (m : Nat) (e : Int) : Nat :=
  if 0 ≤ e then m * 1000000 * Nat.pow 2 e.toNat
  else roundDiv (m * 1000000) (Nat.pow 2 (-e).toNat)

/-- The magnitude of a finite number in millionths, from its binary form. -/
def millionthsOfBits (bits : Nat) : Nat :=
  let exponent : Nat := bits / Nat.pow 2 52 % 2048
  let fraction := bits % Nat.pow 2 52
  if exponent = 0 then millionths fraction (-1074)
  else millionths (fraction + Nat.pow 2 52) (exponent - 1075)

/-- A measured value with six decimals. -/
def decimal (x : Float) : String :=
  if x.isNaN then "NaN"
  else if x.isInf then (if x < 0.0 then "-inf" else "inf")
  else
    let scaled := millionthsOfBits x.toBits.toNat
    let digits := Nat.repr (scaled % 1000000)
    let padding := String.ofList (List.replicate (6 - digits.length) '0')
    let sign := if x < 0.0 && scaled ≠ 0 then "-" else ""
    sign ++ Nat.repr (scaled / 1000000) ++ "." ++ padding ++ digits

end Quantity
end SiteDispatch
