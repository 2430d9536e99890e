import FieldPlan.Decimal.Binary64

/-! The fewest decimal digits that identify a double-precision number: among the
decimals that round to it, one with the least number of digits, and of those
the nearest, an exact tie going to the even digit. -/
namespace FieldPlan

/-- The value `digits * 10 ^ exponent`. -/
structure Decimal where
  digits : Nat
  exponent : Int
  deriving DecidableEq, Repr

namespace Decimal

/-- Compares `a * 10 ^ i` with `n * 2 ^ j`, exactly. -/
def compareScaled (a : Nat) (i : Int) (n : Nat) (j : Int) : Ordering :=
  compare (a * Nat.pow 10 i.toNat * Nat.pow 2 (-j).toNat)
    (n * Nat.pow 2 j.toNat * Nat.pow 10 (-i).toNat)

/-- The decimal lies among the reals that round to `x`. The ends of that interval
belong to it exactly when the significand is even. -/
def readsBack (x : Binary64) (d : Decimal) : Bool :=
  let low := if x.narrowBelow then 4 * x.significand - 1 else 4 * x.significand - 2
  let closed := x.significand % 2 == 0
  let atLow := compareScaled d.digits d.exponent low (x.scale - 2)
  let atHigh := compareScaled d.digits d.exponent (4 * x.significand + 2) (x.scale - 2)
  (atLow == .gt || (closed && atLow == .eq)) && (atHigh == .lt || (closed && atHigh == .eq))

def raise (x : Binary64) : Nat → Int → Int
  | 0, k => k
  | n + 1, k => if compareScaled 1 k x.significand x.scale == .gt then k else raise x n (k + 1)

/-- The least `k` with the number below `10 ^ k`. The estimate from the binary
length is at most three too low. -/
def magnitude (x : Binary64) : Int :=
  let binary : Int := x.significand.log2 + x.scale
  raise x 6 ((binary * 30103).fdiv 100000 - 2)

def floorOn (x : Binary64) (exponent : Int) : Nat :=
  (x.significand * Nat.pow 2 x.scale.toNat * Nat.pow 10 (-exponent).toNat) /
    (Nat.pow 2 (-x.scale).toNat * Nat.pow 10 exponent.toNat)

/-- Of the two grid points around the number, the nearer one that reads back. -/
def onGrid (x : Binary64) (exponent : Int) : Option Decimal :=
  let below : Decimal := ⟨floorOn x exponent, exponent⟩
  let above : Decimal := ⟨floorOn x exponent + 1, exponent⟩
  match below.digits != 0 && readsBack x below, readsBack x above with
  | true, true =>
    match compareScaled (below.digits + above.digits) exponent (2 * x.significand) x.scale with
    | .gt => some below
    | .lt => some above
    | .eq => some (if below.digits % 2 == 0 then below else above)
  | true, false => some below
  | false, true => some above
  | false, false => none

def strip : Nat → Decimal → Decimal
  | 0, d => d
  | n + 1, d =>
    if d.digits != 0 && d.digits % 10 == 0 then strip n ⟨d.digits / 10, d.exponent + 1⟩ else d

def exact (x : Binary64) : Decimal :=
  if 0 ≤ x.scale then ⟨x.significand * Nat.pow 2 x.scale.toNat, 0⟩
  else ⟨x.significand * Nat.pow 5 (-x.scale).toNat, x.scale⟩

/-- Tries one digit, then two, up to seventeen. -/
def shortest (x : Binary64) : Decimal :=
  if x.significand == 0 then ⟨0, 0⟩
  else
    let k := magnitude x
    let found := (List.range 17).findSome? fun (n : Nat) => onGrid x (k - n - 1)
    strip 20 (found.getD (exact x))

end Decimal
end FieldPlan
