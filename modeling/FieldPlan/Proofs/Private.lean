import FieldPlan.Descent.Locality
import FieldPlan.Exposure

/-! Private fields in plans. Every look at a resource goes through its public fields, so a
catalog answers as the one in which the private fields are not there at all. -/
namespace FieldPlan

/-- The resource without its private fields. Its name mappings stay. -/
def Resource.publicOnly (r : Resource) : Resource :=
  { r with
    attributes := r.attributes.filter Attribute.isPublic
    calculations := r.calculations.filter Calculation.isPublic
    aggregates := r.aggregates.filter Aggregate.isPublic
    relationships := r.relationships.filter Relationship.isPublic }

def Catalog.publicOnly (c : Catalog) : Catalog :=
  { c with resources := c.resources.map Resource.publicOnly }

/-! ### One resource -/

namespace Resource
variable (r : Resource)

@[simp] theorem publicOnly_name : r.publicOnly.name = r.name := rfl
@[simp] theorem publicOnly_embedded : r.publicOnly.embedded = r.embedded := rfl
@[simp] theorem publicOnly_fieldNames : r.publicOnly.fieldNames = r.fieldNames := rfl
@[simp] theorem publicOnly_schemaName : r.publicOnly.schemaName = r.schemaName := rfl

@[simp] theorem publicAttributes_publicOnly :
    r.publicOnly.publicAttributes = r.publicAttributes := by
  simp [publicAttributes, publicOnly]

@[simp] theorem publicCalculations_publicOnly :
    r.publicOnly.publicCalculations = r.publicCalculations := by
  simp [publicCalculations, publicOnly]

@[simp] theorem publicAggregates_publicOnly :
    r.publicOnly.publicAggregates = r.publicAggregates := by
  simp [publicAggregates, publicOnly]

@[simp] theorem publicRelationships_publicOnly :
    r.publicOnly.publicRelationships = r.publicRelationships := by
  simp [publicRelationships, publicOnly]

@[simp] theorem attribute?_publicOnly (name : String) :
    r.publicOnly.attribute? name = r.attribute? name := by
  simp [attribute?]

@[simp] theorem calculation?_publicOnly (name : String) :
    r.publicOnly.calculation? name = r.calculation? name := by
  simp [calculation?]

@[simp] theorem aggregate?_publicOnly (name : String) :
    r.publicOnly.aggregate? name = r.aggregate? name := by
  simp [aggregate?]

@[simp] theorem relationship?_publicOnly (name : String) :
    r.publicOnly.relationship? name = r.relationship? name := by
  simp [relationship?]

@[simp] theorem action?_publicOnly (name : String) :
    r.publicOnly.action? name = r.action? name := rfl

@[simp] theorem hasField_publicOnly : r.publicOnly.hasField = r.hasField := by
  funext name
  simp [hasField]

@[simp] theorem internalField_publicOnly : r.publicOnly.internalField = r.internalField := by
  funext name
  simp [internalField]

end Resource

/-! ### Looking things up -/

namespace Catalog
variable (c : Catalog)

@[simp] theorem resource?_publicOnly (name : String) :
    c.publicOnly.resource? name = (c.resource? name).map Resource.publicOnly := by
  simp [resource?, publicOnly, List.find?_map, Function.comp_def]

@[simp] theorem struct?_publicOnly : c.publicOnly.struct? = c.struct? := rfl

@[simp] theorem struct_publicOnly : c.publicOnly.struct = c.struct := rfl

@[simp] theorem hasResource_publicOnly : c.publicOnly.hasResource = c.hasResource := by
  funext name
  simp [hasResource]

@[simp] theorem isEmbedded_publicOnly : c.publicOnly.isEmbedded = c.isEmbedded := by
  funext name
  rw [isEmbedded, isEmbedded, resource?_publicOnly]
  cases c.resource? name <;> rfl

@[simp] theorem requiresSelection_publicOnly :
    c.publicOnly.requiresSelection = c.requiresSelection := by
  funext t
  simp [requiresSelection]

@[simp] theorem embeddedName_publicOnly : c.publicOnly.embeddedName = c.embeddedName := by
  funext t
  simp [embeddedName]

@[simp] theorem selectionReason_publicOnly :
    c.publicOnly.selectionReason = c.selectionReason := by
  funext t
  simp [selectionReason]

/-- The path of an aggregate leads over public relationships only. -/
theorem follow_publicOnly (r : Resource) (path : List String) :
    c.publicOnly.follow r.publicOnly path = (c.follow r path).map Resource.publicOnly := by
  induction path generalizing r with
  | nil => rfl
  | cons name rest ih =>
    rw [follow, follow, Resource.relationship?_publicOnly]
    cases r.relationship? name with
    | none => rfl
    | some link =>
      rw [Option.bind_some, Option.bind_some, resource?_publicOnly]
      cases c.resource? link.destination with
      | none => rfl
      | some next => exact ih next

theorem resolveAggregate_publicOnly (n : Nat) (r : Resource) (a : Aggregate) :
    c.publicOnly.resolveAggregate n r.publicOnly a = c.resolveAggregate n r a := by
  induction n generalizing r a with
  | zero =>
    unfold resolveAggregate
    rw [follow_publicOnly]
    cases c.follow r a.path with
    | none => rfl
    | some owner => cases a.field <;> simp
  | succ n ih =>
    unfold resolveAggregate
    rw [follow_publicOnly]
    cases c.follow r a.path with
    | none => rfl
    | some owner => cases a.field <;> simp [ih]

@[simp] theorem aggregateCount_publicOnly : c.publicOnly.aggregateCount = c.aggregateCount := by
  simp [aggregateCount, publicOnly, List.flatMap_map]

@[simp] theorem aggregateType_publicOnly (r : Resource) :
    c.publicOnly.aggregateType r.publicOnly = c.aggregateType r := by
  funext a
  rw [aggregateType, aggregateType, aggregateCount_publicOnly, resolveAggregate_publicOnly]

@[simp] theorem aggregateType?_publicOnly (r : Resource) :
    c.publicOnly.aggregateType? r.publicOnly = c.aggregateType? r := by
  funext a
  rw [aggregateType?, aggregateType?, aggregateType_publicOnly]

theorem structMentions_publicOnly (n : Nat) :
    c.publicOnly.structMentions n = c.structMentions n := by
  induction n with
  | zero => rfl
  | succ n ih =>
    funext name
    rw [structMentions, structMentions, struct?_publicOnly, ih]

@[simp] theorem mentions_publicOnly : c.publicOnly.mentions = c.mentions := by
  funext t
  rw [mentions, mentions, structMentions_publicOnly]
  rfl

@[simp] theorem embeddedMention?_publicOnly :
    c.publicOnly.embeddedMention? = c.embeddedMention? := by
  funext mention
  cases mention <;> simp [embeddedMention?]

@[simp] theorem fieldTypes_publicOnly (r : Resource) :
    c.publicOnly.fieldTypes r.publicOnly = c.fieldTypes r := by
  simp [fieldTypes]

@[simp] theorem embeddedIn_publicOnly : c.publicOnly.embeddedIn = c.embeddedIn := by
  funext name
  rw [embeddedIn, embeddedIn, resource?_publicOnly]
  cases c.resource? name with
  | none => rfl
  | some r => simp

theorem expose_publicOnly (n place : Nat) (names : List String) :
    c.publicOnly.expose n place names = c.expose n place names := by
  induction n generalizing place names with
  | zero => rfl
  | succ n ih => simp [expose, ih]

@[simp] theorem withEmbedded_publicOnly : c.publicOnly.withEmbedded = c.withEmbedded := by
  funext names
  rw [withEmbedded, withEmbedded, expose_publicOnly, publicOnly, List.length_map]

theorem resource_publicOnly (name : String) :
    c.publicOnly.resource name = (c.resource name).map Resource.publicOnly := by
  rw [resource, resource, resource?_publicOnly]
  cases c.resource? name <;> rfl

end Catalog

@[simp] theorem classify_publicOnly (c : Catalog) (r : Resource) :
    classify c.publicOnly r.publicOnly = classify c r := by
  funext name
  have summed (outcome : Catalog.Resolution) :
      Classification.ofAggregateType c.publicOnly outcome =
        Classification.ofAggregateType c outcome := by
    cases outcome <;> simp [Classification.ofAggregateType]
  simp [classify, Classification.ofField, Classification.ofAttributeType, summed]

/-! ### Layers -/

namespace Descent
variable (c : Catalog) (e : Exposure) (f : Descend)

@[simp] theorem slotEntry_publicOnly : slotEntry c.publicOnly f = slotEntry c f := by
  funext kind declared path entry
  simp [slotEntry]

@[simp] theorem slots_publicOnly : slots c.publicOnly f = slots c f := by
  funext kind resolve declared selection path
  simp [slots]

@[simp] theorem plainSlots_publicOnly : plainSlots c.publicOnly f = plainSlots c f := by
  funext kind declared selection path
  simp [plainSlots]

@[simp] theorem tupleSlots_publicOnly : tupleSlots c.publicOnly f = tupleSlots c f := by
  funext declared selection path
  simp [tupleSlots]

@[simp] theorem structMembers_publicOnly : structMembers c.publicOnly f = structMembers c f := by
  funext name selection path
  simp [structMembers]

@[simp] theorem unionEntry_publicOnly : unionEntry c.publicOnly f = unionEntry c f := by
  funext members path entry
  simp [unionEntry]

@[simp] theorem unionMembers_publicOnly : unionMembers c.publicOnly f = unionMembers c f := by
  funext members selection path
  simp [unionMembers]

@[simp] theorem structured_publicOnly (r : Resource) :
    structured c.publicOnly f r.publicOnly = structured c f r := by
  funext kind name nested path
  cases kind with
  | relationship => simp [structured, linkField]
  | embeddedResource => simp [structured, embeddedField]
  | embeddedResourceArray => simp [structured, embeddedField]
  | calculationWithArgs => simp [structured, calledField]
  | calculationComplex => simp [structured, derivedCalculation]
  | complexAggregate => simp [structured, derivedAggregate, summaryType]
  | unionAttribute => simp [structured, unionField, attributeType?]
  | typedStruct => simp [structured, structField, attributeType?]
  | tuple => simp [structured, tupleField, attributeType?]
  | _ => rfl

@[simp] theorem exposed_publicOnly : exposed c.publicOnly e = exposed c e := by
  funext name
  simp [exposed]

theorem enter_publicOnly (name : String) (path : List String) :
    enter c.publicOnly e name path = (enter c e name path).map Resource.publicOnly := by
  rw [enter, enter, Catalog.resource?_publicOnly]
  cases c.resource? name with
  | none => rfl
  | some r => cases shown : e.allows name <;> simp [Except.map, unknown, reject]

@[simp] theorem record_publicOnly (r : Resource) :
    record c.publicOnly e f r.publicOnly = record c e f r := by
  funext selection path
  have entries : recordEntry c.publicOnly e f r.publicOnly path = recordEntry c e f r path := by
    funext entry
    simp [recordEntry, visibleKind]
  simp [record, entries]

theorem entered_publicOnly (name : String) (selection : Value) (path : List String) :
    (do record c.publicOnly e f (← enter c.publicOnly e name path) selection path) =
      (do record c e f (← enter c e name path) selection path) := by
  rw [enter_publicOnly]
  cases enter c e name path with
  | error failure => rfl
  | ok r => exact congrFun (congrFun (record_publicOnly c e f r) selection) path

@[simp] theorem layer_publicOnly : layer c.publicOnly e f = layer c e f := by
  funext position selection path
  cases position with
  | records name many => exact entered_publicOnly c e f name selection path
  | value t => simp [layer, typed, entered_publicOnly]
  | untyped => rfl

end Descent

theorem descend_publicOnly (c : Catalog) (e : Exposure) : descend c.publicOnly e = descend c e := by
  apply descend_unique
  intro position selection path
  rw [descend_eq, Descent.layer_publicOnly]

/-- Plans are made as if the private fields were not there. -/
theorem plan_publicOnly (c : Catalog) (e : Exposure) (root action : String) (selection : Value) :
    plan c.publicOnly root action selection e = plan c root action selection e := by
  rw [plan, plan, Catalog.resource_publicOnly]
  cases c.resource root with
  | error fault => rfl
  | ok r =>
    simp only [Except.map, ofCatalog, bind, Except.bind, Resource.action?_publicOnly,
      Resource.publicOnly_name, descend_publicOnly]

end FieldPlan
