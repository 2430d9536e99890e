/-! Double-precision numbers kept as their sixty-four bits, so that equality is
equality of representations, with their exact value as a scaled natural. -/
namespace FieldPlan

structure Binary64 where
  bits : UInt64
  deriving DecidableEq, Repr

namespace Binary64

def ofFloat (x : Float) : Binary64 := ⟨x.toBits⟩

def toFloat (x : Binary64) : Float := Float.ofBits x.bits

def infinity : Binary64 := ⟨0x7FF0000000000000⟩

def nan : Binary64 := ⟨0x7FF8000000000000⟩

def zero : Binary64 := ⟨0⟩

def exponentField (x : Binary64) : Nat := ((x.bits >>> 52) &&& 0x7FF).toNat

def fractionField (x : Binary64) : Nat := (x.bits &&& 0xFFFFFFFFFFFFF).toNat

def isNegative (x : Binary64) : Bool := x.bits >>> 63 == 1

def isSpecial (x : Binary64) : Bool := x.exponentField == 0x7FF

def isNaN (x : Binary64) : Bool := x.isSpecial && x.fractionField != 0

/-- A finite number is `significand * 2 ^ scale`, up to its sign. -/
def significand (x : Binary64) : Nat :=
  if x.exponentField == 0 then x.fractionField else Nat.pow 2 52 + x.fractionField

def scale (x : Binary64) : Int :=
  if x.exponentField == 0 then -1074 else (x.exponentField : Int) - 1075

/-- The neighbour below lies half as far away as the neighbour above. -/
def narrowBelow (x : Binary64) : Bool := x.fractionField == 0 && 1 < x.exponentField

def isZero (x : Binary64) : Bool := !x.isSpecial && x.significand == 0

def negate (x : Binary64) : Binary64 := ⟨x.bits ^^^ 0x8000000000000000⟩

def toInt? (x : Binary64) : Option Int :=
  if x.isSpecial then none
  else
    let magnitude : Option Nat :=
      if 0 ≤ x.scale then some (x.significand * Nat.pow 2 x.scale.toNat)
      else if x.significand % Nat.pow 2 (-x.scale).toNat == 0 then
        some (x.significand / Nat.pow 2 (-x.scale).toNat)
      else none
    magnitude.map fun n => if x.isNegative then -(n : Int) else n

/-- The number nearest to `digits * 10 ^ exponent`. Magnitudes far outside the
range are decided by their number of digits alone. -/
def ofDecimal (digits : Nat) (exponent : Int) : Binary64 :=
  let length : Int := (Nat.toDigits 10 digits).length
  if digits == 0 then zero
  else if 400 < length + exponent then infinity
  else if length + exponent < -400 then zero
  else ofFloat (Float.ofScientific digits (exponent < 0) exponent.natAbs)

/-- Equality of numbers: both zeros are equal, and no NaN is equal to anything. -/
def sameNumber (x y : Binary64) : Bool :=
  !x.isNaN && !y.isNaN && (x == y || (x.isZero && y.isZero))

end Binary64
end FieldPlan
