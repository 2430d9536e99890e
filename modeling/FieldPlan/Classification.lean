import FieldPlan.Catalog

/-! What kind of value a position holds and what kind of field a name stands for.
Plans and definitions both decide by this module, so that they cannot disagree. -/
namespace FieldPlan

/-- A place in a result: records of a resource, a value of another type, or
anything at all. -/
inductive Position where
  | records (resource : String) (many : Bool)
  | value (type : TypeRef)
  | untyped

namespace Position

def ofType : Option TypeRef → Position
  | none => .untyped
  | some .any => .untyped
  | some (.resource name) => .records name false
  | some (.array (.resource name)) => .records name true
  | some t => .value t

/-- The result of an action: many records for a read that is not single, one record
for other changes, and the declared type for a generic action. -/
def ofAction (resource : String) (action : Action) : Position :=
  if action.kind == .generic then ofType action.returns
  else .records resource (action.kind == .read && !action.single)

end Position

namespace Catalog
variable (c : Catalog)

/-- A value of the type can only be asked for with a nested selection. -/
def requiresSelection (t : TypeRef) : Bool :=
  match t.element with
  | .resource _ => true
  | .union _ => true
  | .typedStruct _ => true
  | .map slots => !slots.isEmpty
  | .keyword slots => !slots.isEmpty
  | .tuple slots => !slots.isEmpty
  | .struct (some name) => c.hasResource name
  | _ => false

/-- The embedded resource behind a type with at most one array level. -/
def embeddedName (t : TypeRef) : Option String :=
  match t.inner with
  | .resource name => if c.isEmbedded name then some name else none
  | .struct (some name) => if name != "" && c.isEmbedded name then some name else none
  | _ => none

def selectionReason (t : TypeRef) : String :=
  match t.element with
  | .union _ => "union"
  | .typedStruct _ => "typed_struct"
  | .map _ => "tuple"
  | .keyword _ => "tuple"
  | .tuple _ => "tuple"
  | e => if (c.embeddedName e).isSome then "embedded" else "relationship"

def follow (r : Resource) : List String → Option Resource
  | [] => some r
  | name :: rest =>
    match (r.relationship? name).bind fun link => c.resource? link.destination with
    | some next => follow next rest
    | none => none

/-- How far the type of an aggregate could be followed. -/
inductive Resolution where
  | found (type : TypeRef)
  | missing
  /-- Aggregates that sum up each other. -/
  | unfinished

namespace Resolution

def ofOption : Option TypeRef → Resolution
  | some t => .found t
  | none => .missing

def type? : Resolution → Option TypeRef
  | .found t => some t
  | .missing => none
  | .unfinished => none

def isUnfinished : Resolution → Bool
  | .unfinished => true
  | _ => false

end Resolution

/-- The type of an aggregate, in at most `n` further steps from aggregate to aggregate. -/
def resolveAggregate : Nat → Resource → Aggregate → Resolution
  | n, r, a =>
    match a.type, a.kind with
    | some t, _ => .found t
    | none, .count => .found (.primitive .integer [])
    | none, .exists => .found (.primitive .boolean [])
    | none, .avg => .found (.primitive .float [])
    | none, kind =>
      let wrap (t : TypeRef) : Resolution := .found (if kind == .list then .array t else t)
      match c.follow r a.path, a.field with
      | some owner, some field =>
        match owner.attribute? field, owner.calculation? field, owner.aggregate? field with
        | some stored, _, _ => wrap stored.type
        | none, some derived, _ => wrap derived.type
        | none, none, some summary =>
          match n with
          | 0 => .unfinished
          | n + 1 =>
            match resolveAggregate n owner summary with
            | .found t => wrap t
            | outcome => outcome
        | none, none, none => .missing
      | _, _ => .missing

def aggregateCount : Nat := (c.resources.flatMap Resource.publicAggregates).length

/-- No way through the aggregates takes more steps without coming back to one of them. -/
def aggregateType (r : Resource) (a : Aggregate) : Resolution :=
  c.resolveAggregate c.aggregateCount r a

def aggregateType? (r : Resource) (a : Aggregate) : Option TypeRef :=
  (c.aggregateType r a).type?

variable {c} in
theorem aggregateType?_eq_some {r : Resource} {a : Aggregate} {t : TypeRef} :
    c.aggregateType? r a = some t ↔ c.aggregateType r a = .found t := by
  rw [aggregateType?]
  cases c.aggregateType r a <;> simp [Resolution.type?]

end Catalog

inductive Classification where
  | attribute
  | calculation
  | calculationWithArgs
  | calculationComplex
  | aggregate
  | complexAggregate
  | relationship
  | embeddedResource
  | embeddedResourceArray
  | unionAttribute
  | typedStruct
  | tuple
  | notFound
  /-- Finding out does not end well. -/
  | crashed (crash : Crash)
  deriving DecidableEq, Repr

namespace Classification

def label : Classification → String
  | .attribute => "attribute"
  | .calculation => "calculation"
  | .calculationWithArgs => "calculation_with_args"
  | .calculationComplex => "calculation_complex"
  | .aggregate => "aggregate"
  | .complexAggregate => "complex_aggregate"
  | .relationship => "relationship"
  | .embeddedResource => "embedded_resource"
  | .embeddedResourceArray => "embedded_resource_array"
  | .unionAttribute => "union_attribute"
  | .typedStruct => "typed_struct"
  | .tuple => "tuple"
  | .notFound => "not_found"
  | .crashed _ => "crashed"

def ofAttributeType (c : Catalog) (t : TypeRef) : Classification :=
  if (c.embeddedName t).isSome then
    if t.unwrapArray.2 then .embeddedResourceArray else .embeddedResource
  else match t.inner with
    | .union _ => .unionAttribute
    | .typedStruct _ => .typedStruct
    | .keyword slots => if slots.isEmpty then .attribute else .tuple
    | .tuple slots => if slots.isEmpty then .attribute else .tuple
    | _ => .attribute

def ofAggregateType (c : Catalog) : Catalog.Resolution → Classification
  | .found t => if c.requiresSelection t then .complexAggregate else .aggregate
  | .missing => .aggregate
  | .unfinished => .crashed .endless

def ofField (c : Catalog) (r : Resource) (name : String) : Classification :=
  match r.attribute? name, r.calculation? name, r.aggregate? name, r.relationship? name with
  | some stored, _, _, _ => ofAttributeType c stored.type
  | none, some derived, _, _ =>
    if !derived.arguments.isEmpty then .calculationWithArgs
    else if c.requiresSelection derived.type then .calculationComplex
    else .calculation
  | none, none, some summary, _ => ofAggregateType c (c.aggregateType r summary)
  | none, none, none, some _ => .relationship
  | none, none, none, none => .notFound

end Classification

/-- The kind of the field that a name, internal or external, stands for. -/
def classify (c : Catalog) (r : Resource) (name : String) : Classification :=
  .ofField c r (r.internalField name)

end FieldPlan
