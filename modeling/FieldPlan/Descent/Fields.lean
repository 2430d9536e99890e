import FieldPlan.Arguments
import FieldPlan.Descent.Values

/-! Selections on the structured fields of a record: calculations with arguments,
calculations and aggregates with a structured value, and attributes that hold
unions, typed structs and tuples. -/
namespace FieldPlan.Descent
variable (c : Catalog) (descend : Descend)

def calledSelection (needed : Bool) (path : List String) (name : String) (given : Value) :
    Outcome Value :=
  if needed then do
    let selection := Selection.normalize given
    if selection.isNull then requiresFields "complex_calculation" path (some name)
    else
      let fields ← Selection.requireSome "complex_calculation" path (some name) selection
      return .list fields
  else return if given.isNull then .list [] else given

/-- A calculation that takes arguments, asked for with an object of arguments and,
where its value is structured, of fields. -/
def calledField (r : Resource) (name : String) (nested : Value) (path : List String) :
    Outcome Level := do
  let here := path ++ [name]
  match r.calculation? name with
  | none => unknown here []
  | some calculation =>
    if !Arguments.isArgsForm nested then
      Arguments.invalid here name
        [("problem", "expected an object with 'args' and optional 'fields'")]
    else
      let given := (nested.get? Arguments.argsKey).getD .null
      let args ← Arguments.resolve calculation.arguments here name given
      let needed := c.requiresSelection calculation.type
      let selection ← calledSelection needed here name
        ((nested.get? Arguments.fieldsKey).getD .null)
      let value ← descend (.ofType calculation.type) selection here
      let item := if needed then .nested name value.template else .field name
      return ⟨[], [.call name args value.fetched], [item]⟩

def withoutForm (path : List String) (name : String) (nested : Value) : Outcome Value :=
  match nested.get? Arguments.fieldsKey with
  | none => .ok nested
  | some fields =>
    if (nested.get? Arguments.argsKey).isSome then
      Arguments.invalid path name [("problem", "field does not take arguments")]
    else .ok fields

/-- A calculation or aggregate with a structured value; `kind` says which. Its type
may be missing, and looking for it may fail. -/
def derivedField (kind : String) (type : Outcome (Option TypeRef)) (name : String)
    (nested : Value) (path : List String) : Outcome Level := do
  let here := path ++ [name]
  let given ← withoutForm here name nested
  let type ← type
  let fields ← Selection.requireSome kind here (some name) (Selection.normalize given)
  let value ← descend (.ofType type) (.list fields) here
  let item := if value.fetched.isEmpty then .field name else .nested name value.fetched
  return ⟨[], [item], [.nested name value.template]⟩

def derivedCalculation (r : Resource) (name : String) (nested : Value) (path : List String) :
    Outcome Level :=
  derivedField descend "complex_calculation" (.ok ((r.calculation? name).map Calculation.type))
    name nested path

def summaryType (r : Resource) (name : String) : Outcome (Option TypeRef) :=
  match (r.aggregate? name).map (c.aggregateType r) with
  | some .unfinished => crash .endless
  | some outcome => .ok outcome.type?
  | none => .ok none

theorem summaryType_ok {c : Catalog} {r : Resource} {name : String} {type : Option TypeRef}
    (h : summaryType c r name = .ok type) :
    type = (r.aggregate? name).bind (c.aggregateType? r) := by
  unfold summaryType at h
  cases present : r.aggregate? name with
  | none =>
    rw [present] at h
    cases h
    rfl
  | some a =>
    rw [present] at h
    rw [Option.bind_some, Catalog.aggregateType?]
    cases typed : c.aggregateType r a with
    | unfinished => simp [typed, crash] at h
    | _ =>
      simp only [Option.map_some, typed] at h
      cases h
      rfl

def derivedAggregate (r : Resource) (name : String) (nested : Value) (path : List String) :
    Outcome Level :=
  derivedField descend "complex_aggregate" (summaryType c r name) name nested path

def attributeType? (r : Resource) (name : String) : Option TypeRef :=
  (r.attribute? name).map fun a => a.type.inner

def unionField (r : Resource) (name : String) (nested : Value) (path : List String) :
    Outcome Level := do
  match attributeType? r name with
  | some (.union members) =>
    let value ← unionMembers c descend members nested (path ++ [name])
    return ⟨[name], if value.load.isEmpty then [] else [.nested name value.load],
      [.nested name value.template]⟩
  | _ => unknown (path ++ [name]) []

def structField (r : Resource) (name : String) (nested : Value) (path : List String) :
    Outcome Level := do
  let here := path ++ [name]
  match attributeType? r name with
  | some (.typedStruct struct) =>
    let fields ← Selection.requireSome "typed_struct" here (some name) nested
    let value ← structMembers c descend struct (.list fields) here
    return ⟨[name], [], [.nested name value.template]⟩
  | _ => unknown here []

def tupleSlots? : TypeRef → Option (List (Slot TypeRef))
  | .tuple declared => some declared
  | .keyword declared => some declared
  | _ => none

def tupleField (r : Resource) (name : String) (nested : Value) (path : List String) :
    Outcome Level := do
  let here := path ++ [name]
  match (attributeType? r name).bind tupleSlots? with
  | some declared =>
    let fields ← Selection.requireSome "tuple" here (some name) nested
    let value ← tupleSlots c descend declared (.list fields) here
    return ⟨[name], [], [.nested name value.template]⟩
  | none => unknown here []

end FieldPlan.Descent
