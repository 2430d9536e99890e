import FieldPlan.Value

/-! The order of values of one kind. Numbers of all kinds have one order; texts are
ordered by code points, bytes by their numbers, and times by when they are; values of unlike
kinds have no order. -/
namespace FieldPlan

namespace Binary64

def exact (x : Binary64) : Int × Int :=
  (if x.isNegative then -(x.significand : Int) else x.significand, x.scale)

end Binary64

/-- A number as an integer times a power of two, or one of the infinities. -/
inductive Extended where
  | low
  | finite (n scale : Int)
  | high

namespace Extended

def le : Extended → Extended → Bool
  | .low, _ => true
  | _, .high => true
  | .finite m i, .finite n j =>
    let scale := min i j
    m * Nat.pow 2 (i - scale).toNat ≤ n * Nat.pow 2 (j - scale).toNat
  | _, _ => false

end Extended

namespace Value

def extended? : Value → Option Extended
  | .bool b => some (.finite (if b then 1 else 0) 0)
  | .int i => some (.finite i 0)
  | .float x =>
    if x.isSpecial then some (if x.isNegative then .low else .high)
    else some (.finite x.exact.1 x.exact.2)
  | _ => none

def spelling? : Value → Option String
  | .str s => some s
  | _ => none

def bytes? : Value → Option (List UInt8)
  | .bytes data => some data
  | _ => none

def instant? (kind : Moment.Kind) : Value → Option Int
  | .stamp m => if m.kind = kind then some m.instant else none
  | _ => none

def sortedBy? {κ : Type} (key? : Value → Option κ) (le : κ → κ → Bool) (values : List Value) :
    Option (List Value) :=
  (values.mapM fun v => (key? v).map fun key => (key, v)).map fun keyed =>
    (keyed.mergeSort fun a b => le a.1 b.1).map (·.2)

/-- The values in their order; none if they have no common one. -/
def sorted? (values : List Value) : Option (List Value) :=
  if values.length ≤ 1 then some values
  else
    (sortedBy? spelling? (· ≤ ·) values).or <| (sortedBy? bytes? (· ≤ ·) values).or <|
      (sortedBy? extended? Extended.le values).or <|
        [Moment.Kind.day, .unzoned, .zoned].findSome? fun kind =>
          sortedBy? (instant? kind) (· ≤ ·) values

end Value
end FieldPlan
