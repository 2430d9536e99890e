import FieldPlan.Classification
import FieldPlan.Plan
import FieldPlan.Selection

/-! Selections on values that are no records: untyped ones, named slots, typed
structs and unions. How a nested selection is worked on is given from outside. -/
namespace FieldPlan

/-- Works on a selection at a position; the path names the position. -/
abbrev Descend := Position → Value → List String → Outcome Level

namespace Descent

/-- The parts of a level, one entry after the other, up to the first failure. -/
def collect (part : Entry → Outcome Level) : List Entry → Outcome Level
  | [] => .ok .empty
  | entry :: rest => do
    let first ← part entry
    let others ← collect part rest
    return first ++ others

def unknown {α : Type} (path : List String) (detail : List (String × String)) : Outcome α :=
  reject .unknownField path path.getLast? detail

theorem unknown_concat {α : Type} (path : List String) (name : String)
    (detail : List (String × String)) :
    unknown (path ++ [name]) detail = (.error (.rejected ⟨.unknownField, path ++ [name], some name,
      detail.map fun entry => (entry.1, .str entry.2)⟩) : Outcome α) := by
  rw [unknown, List.getLast?_concat, reject]

def unsupported {α : Type} (path : List String) (kind : String) : Outcome α :=
  reject .unsupportedFieldCombination path path.getLast? [("kind", kind)]

def shape (item : TemplateItem) : Level := ⟨[], [], [item]⟩

def untypedEntry (descend : Descend) (path : List String) (entry : Entry) : Outcome Level :=
  match entry.request.nested? with
  | none => .ok (shape (.field entry.name))
  | some v => do
    let nested ← descend .untyped v (path ++ [entry.name])
    return shape (.nested entry.name nested.template)

def untyped (descend : Descend) (selection : Value) (path : List String) : Outcome Level :=
  let selection := Selection.normalize selection
  if selection.isBlank then .ok .empty
  else match selection with
    | .list fields => do
      let entries ← Selection.read id path fields
      collect (untypedEntry descend path) entries
    | _ => unsupported path "any"

variable (c : Catalog) (descend : Descend)

def slotEntry (kind : String) (slots : List (Slot TypeRef)) (path : List String)
    (entry : Entry) : Outcome Level :=
  match (byName Slot.name slots).find? (·.name == entry.name) with
  | none => unknown (path ++ [entry.spelled]) [("kind", kind)]
  | some slot =>
    match entry.request.nested? with
    | none =>
      if c.requiresSelection slot.type then
        requiresFields (c.selectionReason slot.type) (path ++ [slot.name]) (some slot.name)
      else .ok (shape (.field slot.name))
    | some v => do
      let nested ← descend (.ofType slot.type) v (path ++ [slot.name])
      return shape (.nested slot.name nested.template)

/-- A selection on named slots; `kind` names what holds them. -/
def slots (kind : String) (resolve : String → String) (slots : List (Slot TypeRef))
    (selection : Value) (path : List String) : Outcome Level :=
  match selection with
  | .list fields => do
    let entries ← Selection.read resolve path fields
    collect (slotEntry c descend kind slots path) entries
  | _ => unsupported path kind

def plainSlots (kind : String) (declared : List (Slot TypeRef)) (selection : Value)
    (path : List String) : Outcome Level :=
  slots c descend kind (Selection.slotName (declared.map Slot.name) []) declared selection path

def tupleSlots (declared : List (Slot TypeRef)) (selection : Value) (path : List String) :
    Outcome Level :=
  plainSlots c descend "tuple_field" declared selection path

def structMembers (name : String) (selection : Value) (path : List String) : Outcome Level := do
  let s ← ofCatalog (c.struct name)
  slots c descend "typed_struct_field" (Selection.slotName (s.slots.map Slot.name) s.externals)
    s.slots selection path

def unionEntry (members : List (Member TypeRef)) (path : List String) (entry : Entry) :
    Outcome Level :=
  match entry.request, (byName Member.name members).find? (·.name == entry.name) with
  | .paired v, _ =>
    reject .invalidUnionFieldFormat path path.getLast?
      [("value", (Plan.pair entry.spelled v).literal)]
  | _, none => unknown (path ++ [entry.spelled]) [("kind", "union_member")]
  | .bare, some member =>
    if c.requiresSelection member.type then
      requiresFields (c.selectionReason member.type) (path ++ [member.name]) (some member.name)
    else .ok (shape (.field member.name))
  | .keyed v, some member => do
    let nested ← descend (.ofType member.type) v (path ++ [member.name])
    let loads := (c.embeddedName member.type).isSome && !nested.load.isEmpty
    return ⟨[], if loads then [.nested member.name nested.load] else [],
      [.nested member.name nested.template]⟩

/-- A selection on the members of a union. The value is fetched whole, so only the
loads of embedded resources remain. -/
def unionMembers (members : List (Member TypeRef)) (selection : Value) (path : List String) :
    Outcome Level := do
  let fields ← Selection.requireSome "union" path path.getLast? (Selection.normalize selection)
  let entries ← Selection.read (Selection.slotName (members.map Member.name) []) path fields
  collect (unionEntry c descend members path) entries

end Descent
end FieldPlan
