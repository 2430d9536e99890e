/-! References to types: what a field, an argument or a result holds. Slots of
maps, keyword lists and tuples and members of unions are named. -/
namespace FieldPlan

inductive Primitive where
  | string | ciString | integer | float | decimal | boolean | uuid | date | time
  | datetime | utcDatetime | naiveDatetime | duration | binary | atom | term
  deriving DecidableEq, Repr

namespace Primitive

def all : List Primitive :=
  [.string, .ciString, .integer, .float, .decimal, .boolean, .uuid, .date, .time,
   .datetime, .utcDatetime, .naiveDatetime, .duration, .binary, .atom, .term]

def label : Primitive → String
  | .string => "string"
  | .ciString => "ci_string"
  | .integer => "integer"
  | .float => "float"
  | .decimal => "decimal"
  | .boolean => "boolean"
  | .uuid => "uuid"
  | .date => "date"
  | .time => "time"
  | .datetime => "datetime"
  | .utcDatetime => "utc_datetime"
  | .naiveDatetime => "naive_datetime"
  | .duration => "duration"
  | .binary => "binary"
  | .atom => "atom"
  | .term => "term"

def ofLabel? (text : String) : Option Primitive := all.find? (·.label == text)

end Primitive

structure Slot (τ : Type) where
  name : String
  type : τ
  allowNil : Bool

structure Member (τ : Type) where
  name : String
  type : τ

inductive TypeRef where
  /-- A scalar, restricted to the listed values if there are any. -/
  | primitive (kind : Primitive) (oneOf : List String)
  | array (item : TypeRef)
  /-- A map; without slots it is open. -/
  | map (slots : List (Slot TypeRef))
  | keyword (slots : List (Slot TypeRef))
  | tuple (slots : List (Slot TypeRef))
  /-- A struct value, perhaps an instance of a resource. -/
  | struct (instanceOf : Option String)
  | typedStruct (name : String)
  | union (members : List (Member TypeRef))
  | resource (name : String)
  | any

namespace TypeRef

instance : Inhabited TypeRef := ⟨.any⟩

/-- The type with one array level off, and whether there was one. -/
def unwrapArray : TypeRef → TypeRef × Bool
  | .array item => (item, true)
  | t => (t, false)

def inner (t : TypeRef) : TypeRef := t.unwrapArray.1

def element : TypeRef → TypeRef
  | .array item => element item
  | t => t

end TypeRef

/-- A value type of fixed shape. Its members have external names of their own. -/
structure StructDef where
  name : String
  slots : List (Slot TypeRef) := []
  fieldNames : List (String × String) := []

def StructDef.externals (s : StructDef) : List (String × String) :=
  s.fieldNames.map fun entry => (entry.2, entry.1)

end FieldPlan
