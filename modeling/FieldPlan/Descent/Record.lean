import FieldPlan.Descent.Fields
import FieldPlan.Exposure

/-! Selections on records. Each name is resolved, classified and then treated by the
kind of field that it stands for. A field that leads to a resource clients may
not reach looks like a field that does not exist. -/
namespace FieldPlan.Descent
variable (c : Catalog) (e : Exposure) (descend : Descend)

def exposed (name : String) : Bool := c.hasResource name && e.allows name

def enter (name : String) (path : List String) : Outcome Resource :=
  match c.resource? name with
  | some r => if e.allows name then .ok r else unknown path []
  | none => unknown path []

theorem enter_ok {c : Catalog} {e : Exposure} {name : String} {path : List String} {r : Resource}
    (h : enter c e name path = .ok r) : c.resource? name = some r ∧ e.allows name = true := by
  unfold enter at h
  split at h
  · next r' found =>
    split at h
    · next allowed =>
      cases h
      exact ⟨found, allowed⟩
    · simp [unknown, reject] at h
  · simp [unknown, reject] at h

/-- The kind of field, hidden links being no fields. A name can stand for a link by an
external name and be that of no link itself. -/
def visibleKind (r : Resource) (name : String) : Classification :=
  match classify c r name with
  | .relationship =>
    match r.relationship? name with
    | some link => if exposed c e link.destination then .relationship else .notFound
    | none => .crashed .absent
  | kind => kind

theorem visible_link {c : Catalog} {e : Exposure} {r : Resource} {name : String}
    (h : visibleKind c e r name = .relationship) {link : Relationship}
    (present : r.relationship? name = some link) : exposed c e link.destination = true := by
  unfold visibleKind at h
  split at h
  · rw [present] at h
    dsimp only at h
    split at h
    · assumption
    · cases h
  · next other => exact absurd h other

def leaf (kind : Classification) (name : String) (path : List String) : Outcome Level :=
  let needs (reason : String) : Outcome Level :=
    requiresFields reason (path ++ [name]) (some name)
  match kind with
  | .attribute => .ok ⟨[name], [], [.field name]⟩
  | .calculation => .ok ⟨[], [.field name], [.field name]⟩
  | .aggregate => .ok ⟨[], [.field name], [.field name]⟩
  | .calculationWithArgs => reject .calculationRequiresArgs (path ++ [name]) (some name) []
  | .calculationComplex => needs "complex_calculation"
  | .complexAggregate => needs "complex_aggregate"
  | .relationship => needs "relationship"
  | .embeddedResource => needs "embedded"
  | .embeddedResourceArray => needs "embedded"
  | .unionAttribute => needs "union"
  | .typedStruct => needs "typed_struct"
  | .tuple => needs "tuple"
  | .notFound => unknown (path ++ [name]) []
  | .crashed way => crash way

def linkField (r : Resource) (name : String) (nested : Value) (path : List String) :
    Outcome Level := do
  let here := path ++ [name]
  let fields ← Selection.requireSome "relationship" here (some name) (Selection.normalize nested)
  match r.relationship? name with
  | none => crash .absent
  | some link =>
    let value ← descend (.records link.destination link.isMany) (.list fields) here
    return ⟨[], [.nested name value.fetched], [.nested name value.template]⟩

/-- An embedded resource comes with the record; only what it derives has to be loaded. -/
def embeddedField (r : Resource) (name : String) (nested : Value) (path : List String) :
    Outcome Level := do
  let here := path ++ [name]
  let fields ← Selection.requireSome "embedded" here (some name) (Selection.normalize nested)
  match r.attribute? name with
  | none => crash .absent
  | some a =>
    match c.embeddedName a.type with
    | none => unknown here []
    | some embedded =>
      let value ← descend (.records embedded false) (.list fields) here
      return ⟨[name], if value.load.isEmpty then [] else [.nested name value.load],
        [.nested name value.template]⟩

def structured (r : Resource) (kind : Classification) (name : String) (nested : Value)
    (path : List String) : Outcome Level :=
  match kind with
  | .relationship => linkField descend r name nested path
  | .embeddedResource => embeddedField c descend r name nested path
  | .embeddedResourceArray => embeddedField c descend r name nested path
  | .calculationWithArgs => calledField c descend r name nested path
  | .calculationComplex => derivedCalculation descend r name nested path
  | .complexAggregate => derivedAggregate c descend r name nested path
  | .unionAttribute => unionField c descend r name nested path
  | .typedStruct => structField c descend r name nested path
  | .tuple => tupleField c descend r name nested path
  | .crashed way => crash way
  | kind => reject .fieldDoesNotSupportNesting (path ++ [name]) (some name)
      [("classification", kind.label)]

def recordEntry (r : Resource) (path : List String) (entry : Entry) : Outcome Level :=
  match visibleKind c e r entry.name with
  | .notFound => unknown (path ++ [entry.spelled]) [("resource", r.name)]
  | .crashed way => crash way
  | kind =>
    match entry.request.nested? with
    | none => leaf kind entry.name path
    | some v => structured c descend r kind entry.name v path

def record (r : Resource) (selection : Value) (path : List String) : Outcome Level :=
  match Selection.normalize selection with
  | .list fields => do
    let entries ← Selection.read r.internalField path fields
    collect (recordEntry c e descend r path) entries
  | _ => unsupported path "resource"

end FieldPlan.Descent
