import FieldPlan.Descent

/-! Where the names of a selection lead. A site is what a position holds, arrays and
struct references looked through. It says which declared name a requested one stands
for, what a nested selection under a name is about, and how a name shows in the three
lists of a plan. -/
namespace FieldPlan

inductive Site where
  | record (resource : String)
  | slots (declared : List (Slot TypeRef)) (externals : List (String × String))
  | members (declared : List (Member TypeRef))
  | untyped
  /-- Nothing can be asked for: a scalar, or a typed struct that is not there. -/
  | closed

namespace Site

def ofSlots (declared : List (Slot TypeRef)) : Site :=
  if declared.isEmpty then .untyped else .slots declared []

def slot? (declared : List (Slot TypeRef)) (name : String) : Option (Slot TypeRef) :=
  (byName Slot.name declared).find? (·.name == name)

def member? (declared : List (Member TypeRef)) (name : String) : Option (Member TypeRef) :=
  (byName Member.name declared).find? (·.name == name)

variable (c : Catalog)

def ofType : TypeRef → Site
  | .array item => ofType item
  | .resource name => .record name
  | .map declared => ofSlots declared
  | .keyword declared => ofSlots declared
  | .tuple declared => ofSlots declared
  | .struct (some name) => if c.hasResource name then .record name else .untyped
  | .struct none => .untyped
  | .typedStruct name =>
    match c.struct? name with
    | some s => .slots s.slots s.externals
    | none => .closed
  | .union declared => .members declared
  | .any => .untyped
  | .primitive _ _ => .closed

def ofPosition : Position → Site
  | .records name _ => .record name
  | .value t => ofType c t
  | .untyped => .untyped

def ofResult (root action : String) : Option Site := do
  let r ← c.resource? root
  let a ← r.action? action
  return ofPosition c (.ofAction r.name a)

/-- What a nested selection under a field is about, by the type of the field or the
destination of the link. -/
def ofField (r : Resource) (name : String) : Option Site :=
  match classify c r name with
  | .relationship => (r.relationship? name).map fun link => .record link.destination
  | .calculationWithArgs =>
    some (ofPosition c (.ofType ((r.calculation? name).map Calculation.type)))
  | .calculationComplex =>
    some (ofPosition c (.ofType ((r.calculation? name).map Calculation.type)))
  | .complexAggregate =>
    some (ofPosition c (.ofType ((r.aggregate? name).bind (c.aggregateType? r))))
  | .embeddedResource => (r.attribute? name).map fun a => ofType c a.type
  | .embeddedResourceArray => (r.attribute? name).map fun a => ofType c a.type
  | .unionAttribute => (r.attribute? name).map fun a => ofType c a.type
  | .typedStruct => (r.attribute? name).map fun a => ofType c a.type
  | .tuple => (r.attribute? name).map fun a => ofType c a.type
  | _ => none

def resolve : Site → String → String
  | .record resource, name =>
    match c.resource? resource with
    | some r => r.internalField name
    | none => name
  | .slots declared externals, name => Selection.slotName (declared.map Slot.name) externals name
  | .members declared, name => Selection.slotName (declared.map Member.name) [] name
  | .untyped, name => name
  | .closed, name => name

def under : Site → String → Option Site
  | .record resource, name => (c.resource? resource).bind fun r => ofField c r name
  | .slots declared _, name => (slot? declared name).map fun slot => ofType c slot.type
  | .members declared, name => (member? declared name).map fun m => ofType c m.type
  | .untyped, _ => some .untyped
  | .closed, _ => none

def kind : Site → String → Classification
  | .record resource, name =>
    match c.resource? resource with
    | some r => classify c r name
    | none => .notFound
  | _, _ => .notFound

/-- A calculation with arguments whose value is no structure has nothing below it. -/
def isWhole : Site → String → Bool
  | .record resource, name =>
    (c.resource? resource).any fun r => classify c r name == .calculationWithArgs &&
      (r.calculation? name).any fun a => !c.requiresSelection a.type
  | _, _ => false

/-- The nested selection that is meant by what stands under a name: itself, or the
fields of an object form where the name is a calculation or an aggregate. -/
def given (s : Site) (name : String) (nested : Value) : Value :=
  match s.kind c name with
  | .calculationWithArgs => (nested.get? Arguments.fieldsKey).getD .null
  | .calculationComplex => (nested.get? Arguments.fieldsKey).getD nested
  | .complexAggregate => (nested.get? Arguments.fieldsKey).getD nested
  | _ => nested

variable {c}

theorem resolve_record {resource : String} {r : Resource} (found : c.resource? resource = some r) :
    resolve c (.record resource) = r.internalField := by
  funext name
  simp only [resolve, found]

theorem resolve_untyped : resolve c .untyped = Selection.slotName [] [] := by
  funext name
  simp [resolve, Selection.slotName, Table.get?]

/-! ### Arrays and embedded resources -/

theorem ofType_element (t : TypeRef) : ofType c t.element = ofType c t := by
  fun_induction TypeRef.element t with
  | case1 item ih => rw [ih, ofType]
  | case2 t => rfl

theorem element_ne_array (t item : TypeRef) : t.element ≠ .array item := by
  fun_induction TypeRef.element t with
  | case1 inner ih => exact ih
  | case2 t other => exact other item

theorem ofType_inner (t : TypeRef) : ofType c t.inner = ofType c t := by
  cases t <;> rfl

@[simp] theorem ofPosition_ofType (t : TypeRef) :
    ofPosition c (.ofType (some t)) = ofType c t := by
  cases t with
  | array item => cases item <;> rfl
  | _ => rfl

theorem ofType_embedded {t : TypeRef} {name : String} (h : c.embeddedName t = some name) :
    ofType c t = .record name := by
  rw [← ofType_inner]
  unfold Catalog.embeddedName at h
  split at h
  · next resource shape =>
    split at h
    · rw [shape, ofType, Option.some.inj h]
    · contradiction
  · next resource shape =>
    split at h
    · next embedded =>
      obtain rfl := Option.some.inj h
      simp only [Bool.and_eq_true] at embedded
      rw [shape, ofType, if_pos (Catalog.hasResource_of_isEmbedded embedded.2)]
    · contradiction
  · contradiction

end Site

/-- Without the action nothing is planned, wherever the hole is; with it the plan is the work at
the site of its result. -/
theorem plan_cases (c : Catalog) (root action : String) (e : Exposure) :
    (∃ failure, (∀ r, failure = .rejected r → r.path = []) ∧
      ∀ selection, plan c root action selection e = .error failure) ∨
    ∃ e' position, Site.ofResult c root action = some (.ofPosition c position) ∧
      ∀ selection, plan c root action selection e =
        descend c e' position (Selection.normalize selection) [] := by
  cases known : c.resource root with
  | error fault =>
    refine .inl ⟨.fault fault, nofun, fun selection => ?_⟩
    rw [plan, known]
    rfl
  | ok r =>
    have present := Catalog.resource_ok known
    simp only [plan, known, ofCatalog, bind, Except.bind]
    cases chosen : r.action? action with
    | none =>
      refine .inl ⟨.rejected ⟨.actionNotFound, [], some action, []⟩, ?_, fun selection => rfl⟩
      intro rejection same
      cases same
      rfl
    | some a =>
      refine .inr ⟨e.withRoot r.name, .ofAction r.name a, ?_, fun selection => rfl⟩
      simp [Site.ofResult, present, chosen]

end FieldPlan
