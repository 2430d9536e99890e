import FieldPlan.Table
import FieldPlan.Decimal.Binary64
import FieldPlan.Value.Moment

/-! Values of any kind: what a client sends as a selection or as an argument, and
what a document holds. Mappings keep the order of their keys, which may be of
any kind; a tuple is neither a list nor a mapping. The items of a set are in the order in
which they come out of it. -/
namespace FieldPlan

inductive Value where
  | null
  | bool (b : Bool)
  | int (i : Int)
  | float (x : Binary64)
  | str (s : String)
  | bytes (data : List UInt8)
  | stamp (m : Moment)
  | list (items : List Value)
  | tuple (items : List Value)
  | set (items : List Value)
  | mapping (entries : List (Value × Value))
  deriving Inhabited, Repr

namespace Value

def isBlank : Value → Bool
  | .null => true
  | .bool b => !b
  | .int i => i == 0
  | .float x => x.isZero
  | .str s => s == ""
  | .bytes data => data.isEmpty
  | .stamp _ => false
  | .list items => items.isEmpty
  | .tuple items => items.isEmpty
  | .set items => items.isEmpty
  | .mapping entries => entries.isEmpty

def isNull : Value → Bool
  | .null => true
  | _ => false

/-- The number that a value counts as in a comparison: booleans are one and zero. -/
private def number? : Value → Option (Int ⊕ Binary64)
  | .bool b => some (.inl (if b then 1 else 0))
  | .int i => some (.inl i)
  | .float x => some (match x.toInt? with
    | some i => .inl i
    | none => .inr x)
  | _ => none

mutual
/-- The two values are one key of a mapping: numbers are compared by value,
whatever their kind. -/
def sameKey : Value → Value → Bool
  | .null, .null => true
  | .str a, .str b => a == b
  | .bytes a, .bytes b => a == b
  | .stamp a, .stamp b => a.same b
  | .tuple a, .tuple b => sameKeys a b
  | .list a, .list b => sameKeys a b
  | a, b =>
    match number? a, number? b with
    | some (.inl i), some (.inl j) => i == j
    | some (.inr x), some (.inr y) => x.sameNumber y
    | _, _ => false

def sameKeys : List Value → List Value → Bool
  | [], [] => true
  | a :: as, b :: bs => sameKey a b && sameKeys as bs
  | _, _ => false
end

/-- A mapping from pairs: the last value for a key, in the place of the first. -/
def ofPairs (pairs : List (Value × Value)) : Value := .mapping (Table.ofListBy sameKey pairs)

def lookup (entries : List (Value × Value)) (key : String) : Option Value :=
  (entries.find? fun entry => match entry.1 with
    | .str s => s == key
    | _ => false).map (·.2)

def get? (value : Value) (key : String) : Option Value :=
  match value with
  | .mapping entries => lookup entries key
  | _ => none

def str? : Value → Option String
  | .str s => some s
  | _ => none

mutual
/-- How much a value holds: every name asked for counts, and the lists around
them do not, so that a mapping and the list of just that mapping weigh alike. -/
def weight : Value → Nat
  | .list items => weights items
  | .tuple items => 1 + weights items
  | .set items => 1 + weights items
  | .mapping entries => 1 + entryWeights entries
  | _ => 1

def weights : List Value → Nat
  | [] => 0
  | v :: rest => weight v + weights rest

def entryWeights : List (Value × Value) → Nat
  | [] => 0
  | (_, v) :: rest => 1 + weight v + entryWeights rest
end

end Value
end FieldPlan
