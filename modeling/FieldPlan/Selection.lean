import FieldPlan.Rejection

/-! Selections, one level at a time. A level is a list of names, of mappings from
names to nested selections and of pairs of a name and a nested selection; a
mapping alone stands for the list of just that mapping. Reading a level gives
its entries in order, each with the field that it stands for, and fails at the
first element that is malformed or asks for a field a second time. -/
namespace FieldPlan

/-- How a name is asked for. -/
inductive Request where
  | bare
  | keyed (nested : Value)
  | paired (nested : Value)

namespace Request

def nested? : Request → Option Value
  | .bare => none
  | .keyed v => some v
  | .paired v => some v

end Request

/-- One requested field: as it is spelled, and as it is declared. -/
structure Entry where
  spelled : String
  name : String
  request : Request

namespace Selection

def normalize : Value → Value
  | .mapping (entry :: rest) => .list [.mapping (entry :: rest)]
  | v => v

/-- What iterating over a value yields: elements, keys, characters or numbers. -/
def elements : Value → List Value
  | .list items => items
  | .tuple items => items
  | .set items => items
  | .bytes data => data.map fun b => .int b.toNat
  | .mapping entries => entries.map (·.1)
  | .str s => s.toList.map fun ch => .str (String.singleton ch)
  | _ => []

/-- The names that one element asks for; none if it has no such shape. -/
def requests? : Value → Option (List (Value × Request))
  | .str s => some [(.str s, .bare)]
  | .mapping entries => some (entries.map fun entry => (entry.1, .keyed entry.2))
  | .tuple [name, nested] => some [(name, .paired nested)]
  | _ => none

/-- All names that a level asks for, elements of other shapes being passed over. -/
def walk (fields : List Value) : List (Value × Request) :=
  fields.flatMap fun element => (requests? element).getD []

def malformed {α : Type} (path : List String) (v : Value) : Outcome α :=
  reject .invalidFieldType path none [("value", v.literal)]

def requireName (path : List String) : Value → Outcome String
  | .str s => if s == "" then malformed path (.str s) else .ok s
  | v => malformed path v

def elementNames (path : List String) (element : Value) : Outcome (List (String × Request)) :=
  match requests? element with
  | none => malformed path element
  | some requests => requests.mapM fun r => (requireName path r.1).map fun name => (name, r.2)

/-- The entries for names none of which may be among `seen`, nor stand for one
field with another. -/
def enrol (resolve : String → String) (path : List String) (seen : List String) :
    List (String × Request) → Outcome (List Entry)
  | [] => .ok []
  | (spelled, request) :: rest =>
    let name := resolve spelled
    if seen.contains name then reject .duplicateField (path ++ [name]) (some name) []
    else (enrol resolve path (name :: seen) rest).map (⟨spelled, name, request⟩ :: ·)

def readFrom (resolve : String → String) (path : List String) (seen : List String) :
    List Value → Outcome (List Entry)
  | [] => .ok []
  | element :: rest => do
    let names ← elementNames path element
    let entries ← enrol resolve path seen names
    let others ← readFrom resolve path ((entries.map Entry.name).reverse ++ seen) rest
    return entries ++ others

def read (resolve : String → String) (path : List String) (fields : List Value) :
    Outcome (List Entry) :=
  readFrom resolve path [] fields

/-- The elements of a selection that has to be a list with at least one of them. -/
def requireSome (kind : String) (path : List String) (field : Option String) :
    Value → Outcome (List Value)
  | .list [] => requiresFields kind path field
  | .list fields => .ok fields
  | _ => reject .unsupportedFieldCombination path field [("kind", kind)]

/-- The declared name that a requested slot or member stands for: the name itself,
its external meaning, or either of these for the name in the convention of the
catalog. A name that matches nothing stays. -/
def slotName (known : List String) (externals : List (String × String)) (name : String) :
    String :=
  if known.contains name then name
  else match Table.get? externals name with
    | some internal => internal
    | none =>
      let snake := Name.fromCamel name
      if known.contains snake then snake else (Table.get? externals snake).getD name

end Selection
end FieldPlan
