import FieldPlan.Decimal.Shortest

/-! How numbers are written in plans and in messages: with the fewest digits that
identify them, positionally from 0.0001 up to 10^16 and always with a point,
otherwise with a signed exponent of at least two digits. -/
namespace FieldPlan

namespace Decimal

private def zeros (n : Nat) : String := String.ofList (List.replicate n '0')

/-- The point after the first `n` of the digits, which are padded on either side. -/
private def pointAt (digits : List Char) (n : Int) : String :=
  if n ≤ 0 then "0." ++ zeros (-n).toNat ++ String.ofList digits
  else if n < digits.length then
    String.ofList (digits.take n.toNat) ++ "." ++ String.ofList (digits.drop n.toNat)
  else String.ofList digits ++ zeros (n.toNat - digits.length) ++ ".0"

private def scientific (digits : List Char) (exponent : Int) : String :=
  let fraction := if digits.length ≤ 1 then "" else "." ++ String.ofList (digits.drop 1)
  let size := toString exponent.natAbs
  String.ofList (digits.take 1) ++ fraction ++ "e" ++ (if exponent < 0 then "-" else "+") ++
    (if size.length < 2 then "0" ++ size else size)

def render (d : Decimal) : String :=
  let digits := Nat.toDigits 10 d.digits
  let leading : Int := d.exponent + digits.length - 1
  if d.digits == 0 then "0.0"
  else if -4 ≤ leading && leading < 16 then pointAt digits (leading + 1)
  else scientific digits leading

end Decimal

def Binary64.renderWith (nan infinity : String) (x : Binary64) : String :=
  if x.isNaN then nan
  else (if x.isNegative then "-" else "") ++
    (if x.isSpecial then infinity else (Decimal.shortest x).render)

end FieldPlan
